import LicenseTrack.Renewal.LinkEffect

/-! What undoing an adoption does to the parents that its snapshot lists. -/

namespace LicenseTrack

open Library

/-- The store with the link that an adoption added to a parent removed again. -/
def Store.unlinkedFor (s : Store) (successorId : Nat) (entry : ParentSnapshot) : Store :=
  if entry.added then s.deleteLinks (· == ⟨successorId, entry.id⟩) else s

@[simp] theorem unlinkedFor_licenses (s : Store) (successorId : Nat) (entry : ParentSnapshot)
    : (s.unlinkedFor successorId entry).licenses = s.licenses := by
  unfold Store.unlinkedFor
  split <;> rfl

@[simp] theorem unlinkedFor_history (s : Store) (successorId : Nat) (entry : ParentSnapshot)
    : (s.unlinkedFor successorId entry).history = s.history := by
  unfold Store.unlinkedFor
  split <;> rfl

/-- The mirror that undoing gives a parent: the saved one where the successor was active,
else the recomputed one.
-/
def restoredMirror (env : Env) (s : Store) (successorId : Nat) (entry : ParentSnapshot)
    (parent : License)
    : MaintenanceMirror :=
  if parent.hasActive successorId then entry.values
  else
    (s.unlinkedFor successorId entry).recomputedMirror env entry.id parent.toMaintenanceMirror

/-- The checks of undoing for one parent. -/
structure RestoreChecks (s : Store) (successorId : Nat) (entry : ParentSnapshot)
    (parent : License)
    : Prop where
  found : s.license? entry.id = some parent
  active : parent.activeMaintenanceId = some successorId
    ∨ parent.activeMaintenanceId = entry.values.activeMaintenanceId
  previous : parent.hasActive successorId = true
    → ∀ id, entry.values.activeMaintenanceId = some id
    → (s.license? id).any (fun l => !l.isRetired) = true

theorem restoreParent_checks {env : Env} {successorId : Nat} {entry : ParentSnapshot} {s t : Store}
    (h : restoreParent env successorId entry s = .ok t)
    : ∃ parent, RestoreChecks s successorId entry parent := by
  simp only [restoreParent, bind_eq_ok, found_eq_ok, require_eq_ok] at h
  obtain ⟨parent, hp, -, hactive, -, hprevious, -⟩ := h
  exact ⟨parent, hp, hactive, hprevious⟩

theorem restoreParent_eq (env : Env) {successorId : Nat} {entry : ParentSnapshot} {s : Store}
    {parent : License} (h : RestoreChecks s successorId entry parent)
    : ∃ history, restoreParent env successorId entry s
          = .ok { s.unlinkedFor successorId entry with
              licenses := s.licenses.modify entry.id
                (·.withMirror (restoredMirror env s successorId entry parent))
              history := history }
        ∧ (parent.hasActive successorId = true
            ∨ (s.unlinkedFor successorId entry).chosenRecord env entry.id
                parent.toMaintenanceMirror = parent.activeMaintenanceId
          → history = s.history) := by
  have hp : (s.unlinkedFor successorId entry).license? entry.id = some parent := by
    unfold Store.license?
    rw [unlinkedFor_licenses]
    exact h.found
  have hrun : restoreParent env successorId entry s
      = if parent.hasActive successorId then
          .ok ((s.unlinkedFor successorId entry).modifyLicense entry.id
            (·.withMirror entry.values))
        else .ok (recomputeActiveMaintenance env entry.id
          (s.unlinkedFor successorId entry)) := by
    unfold restoreParent
    rw [h.found]
    simp only [found, ok_bind]
    rw [require_bind h.active, require_bind h.previous]
    rfl
  rw [hrun]
  by_cases ha : parent.hasActive successorId = true
  · refine ⟨s.history, ?_, fun _ => rfl⟩
    rw [if_pos ha]
    simp only [Store.modifyLicense, unlinkedFor_licenses, restoredMirror, ha, if_true]
    rw [← unlinkedFor_history s successorId entry]
  · obtain ⟨history, heq, -, hsame⟩ := recomputeActiveMaintenance_eq env hp
    refine ⟨history, ?_, ?_⟩
    · rw [if_neg ha, heq]
      simp only [unlinkedFor_licenses, restoredMirror, ha]
      rfl
    · rintro (hc | hc)
      · exact absurd hc ha
      · rw [hsame hc, unlinkedFor_history]

-- All parents

/-- The rows after undoing for several parents. -/
def restoredRows (env : Env) (s : Store) (successorId : Nat) (entries : List ParentSnapshot)
    (id : Nat) (l : License)
    : License :=
  match entries.find? (·.id == id) with
  | some entry => l.withMirror (restoredMirror env s successorId entry l)
  | none => l

theorem restoredRows_nil (env : Env) (s : Store) (successorId : Nat)
    : s.licenses.mapRows (restoredRows env s successorId []) = s.licenses :=
  Table.mapRows_eq_self fun _ _ _ => rfl

/-- The links after undoing for several parents. -/
def unlinkAll (successorId : Nat) (entries : List ParentSnapshot) (links : List MaintenanceLink)
    : List MaintenanceLink :=
  entries.foldl
    (fun links entry =>
      if entry.added then links.filter (fun link => !(link == ⟨successorId, entry.id⟩)) else links)
    links

theorem unlinkAll_eq (successorId : Nat) (entries : List ParentSnapshot)
    (links : List MaintenanceLink)
    : unlinkAll successorId entries links
      = links.filter (fun link =>
          !entries.any (fun entry => entry.added && link == ⟨successorId, entry.id⟩)) := by
  unfold unlinkAll
  induction entries generalizing links with
  | nil => simp
  | cons head rest ih =>
      rw [List.foldl_cons, ih]
      by_cases ha : head.added
      · simp [ha, List.filter_filter, Bool.and_comm]
      · simp [ha]

section Turn

variable {env : Env} {s : Store} {successorId : Nat} {entry other : ParentSnapshot}
  {m : MaintenanceMirror} {history : Table CoverageHistory}

/-- The store after one parent's turn. -/
def turnedStore (s : Store) (successorId : Nat) (entry : ParentSnapshot) (m : MaintenanceMirror)
    (history : Table CoverageHistory)
    : Store :=
  { s.unlinkedFor successorId entry with
    licenses := s.licenses.modify entry.id (·.withMirror m)
    history := history }

theorem turnedStore_records
    : SameRecords (s.unlinkedFor successorId other)
        ((turnedStore s successorId entry m history).unlinkedFor successorId other) := by
  unfold SameRecords
  rw [unlinkedFor_licenses, unlinkedFor_licenses]
  exact Table.Agrees.of_modify fun _ => rfl

theorem turnedStore_candidates (hne : entry.id ≠ other.id)
    : ((turnedStore s successorId entry m history).unlinkedFor successorId other).candidates
          other.id
      = (s.unlinkedFor successorId other).candidates other.id := by
  have hkeep : ∀ links : List MaintenanceLink, ((links.filter (fun link =>
        !(link == ⟨successorId, entry.id⟩))).filter (·.parentLicenseId == other.id))
      = links.filter (·.parentLicenseId == other.id) := fun links => by
    rw [List.filter_filter]
    refine List.filter_congr fun link _ => ?_
    by_cases hl : link.parentLicenseId = other.id
    · have : link ≠ ⟨successorId, entry.id⟩ := fun he => hne (by rw [← hl, he])
      simp [hl, this]
    · simp [hl]
  have hlinked : ((turnedStore s successorId entry m history).unlinkedFor successorId
        other).linkedRecords other.id
      = (s.unlinkedFor successorId other).linkedRecords other.id := by
    unfold Store.linkedRecords turnedStore Store.unlinkedFor Store.deleteLinks
    by_cases he : entry.added <;> by_cases ho : other.added
    · simp only [he, ho, if_true]
      rw [List.filter_comm, hkeep, List.filter_comm]
    all_goals simp [he, ho, hkeep]
  unfold Store.candidates
  rw [hlinked]
  exact congrArg (List.filterMap · _) (funext turnedStore_records.candidate?)

theorem turnedStore_restoredMirror (hne : entry.id ≠ other.id) (l : License)
    : restoredMirror env (turnedStore s successorId entry m history) successorId other l
      = restoredMirror env s successorId other l := by
  unfold restoredMirror Store.recomputedMirror Store.chosenRecord
  rw [turnedStore_candidates hne, turnedStore_records.syncedMirror]

theorem turnedStore_checks (hne : entry.id ≠ other.id) {parent : License}
    : RestoreChecks (turnedStore s successorId entry m history) successorId other parent
      ↔ RestoreChecks s successorId other parent := by
  have hrow : (turnedStore s successorId entry m history).license? other.id
      = s.license? other.id :=
    Table.get?_modify_ne _ _ (Ne.symm hne)
  have hany : ∀ id, ((turnedStore s successorId entry m history).license? id).any
        (fun l => !l.isRetired) = (s.license? id).any (fun l => !l.isRetired) := fun id => by
    simp only [Store.license?, turnedStore, Table.get?_modify]
    rcases s.licenses.get? id with _ | l
    · rfl
    · by_cases hi : id = entry.id <;> simp [hi]
  constructor
  · exact fun h => ⟨hrow ▸ h.found, h.active, fun ha id hid => hany id ▸ h.previous ha id hid⟩
  · exact fun h => ⟨hrow ▸ h.found, h.active, fun ha id hid => hany id ▸ h.previous ha id hid⟩

theorem turnedStore_rows {parent : License} (hp : s.license? entry.id = some parent)
    {rest : List ParentSnapshot} (hrest : ∀ other ∈ rest, entry.id ≠ other.id)
    : (turnedStore s successorId entry (restoredMirror env s successorId entry parent)
          history).licenses.mapRows (restoredRows env (turnedStore s successorId entry
            (restoredMirror env s successorId entry parent) history) successorId rest)
      = s.licenses.mapRows (restoredRows env s successorId (entry :: rest)) := by
  ext id : 1
  simp only [turnedStore, Table.get?_mapRows, Table.get?_modify, Option.map_map]
  rcases hid : s.licenses.get? id with _ | l
  · rfl
  · simp only [Option.map_some, Function.comp, Option.some.injEq, restoredRows, List.find?_cons]
    by_cases hi : id = entry.id
    · subst hi
      obtain rfl : l = parent := Option.some.inj (hid.symm.trans hp)
      have hnone : rest.find? (·.id == entry.id) = none :=
        List.find?_eq_none.mpr fun other ho => by simpa using Ne.symm (hrest other ho)
      simp [hnone]
    · have hi' : (entry.id == id) = false := by simpa using Ne.symm hi
      simp only [hi, hi', if_false]
      rcases hf : rest.find? (·.id == id) with _ | other
      · simp only [hf]
      · have ho := hrest other (List.mem_of_find?_eq_some hf)
        simp only [hf]
        exact congrArg l.withMirror (turnedStore_restoredMirror ho l)

end Turn

theorem restoreAll_ok {env : Env} {successorId : Nat} {entries : List ParentSnapshot}
    (hn : (entries.map (·.id)).Nodup) {s t : Store}
    (h : each (restoreParent env successorId) entries s = .ok t)
    : (∀ entry ∈ entries, ∃ parent, RestoreChecks s successorId entry parent)
      ∧ ∃ history, t = { s with
          licenses := s.licenses.mapRows (restoredRows env s successorId entries)
          links := unlinkAll successorId entries s.links
          history := history } := by
  induction entries generalizing s with
  | nil =>
      obtain rfl : s = t := by simpa [each] using h
      refine ⟨by simp, s.history, ?_⟩
      rw [restoredRows_nil]
      rfl
  | cons head rest ih =>
      obtain ⟨hhead, hrest⟩ := List.nodup_cons.mp hn
      have hne : ∀ other ∈ rest, head.id ≠ other.id := fun other ho he =>
        hhead (List.mem_map.mpr ⟨other, ho, he.symm⟩)
      obtain ⟨s₁, h₁, h⟩ := bind_eq_ok.mp h
      obtain ⟨parent, hchecks⟩ := restoreParent_checks h₁
      obtain ⟨history₁, heq, -⟩ := restoreParent_eq env hchecks
      obtain rfl : turnedStore s successorId head (restoredMirror env s successorId head parent)
          history₁ = s₁ := Except.ok.inj (heq.symm.trans h₁)
      obtain ⟨hall, history, rfl⟩ := ih hrest h
      refine ⟨?_, history, ?_⟩
      · intro entry he
        rcases List.mem_cons.mp he with rfl | he
        · exact ⟨parent, hchecks⟩
        · obtain ⟨other, ho⟩ := hall entry he
          exact ⟨other, (turnedStore_checks (hne entry he)).mp ho⟩
      · rw [turnedStore_rows hchecks.found hne]
        unfold turnedStore unlinkAll Store.unlinkedFor Store.deleteLinks
        by_cases ha : head.added <;> simp [ha]

theorem restoreAll_eq (env : Env) (successorId : Nat) {entries : List ParentSnapshot}
    (hn : (entries.map (·.id)).Nodup) {s : Store}
    (h : ∀ entry ∈ entries, ∃ parent, RestoreChecks s successorId entry parent
      ∧ (parent.hasActive successorId = true
        ∨ (s.unlinkedFor successorId entry).chosenRecord env entry.id parent.toMaintenanceMirror
          = parent.activeMaintenanceId))
    : each (restoreParent env successorId) entries s
      = .ok { s with
          licenses := s.licenses.mapRows (restoredRows env s successorId entries)
          links := unlinkAll successorId entries s.links } := by
  induction entries generalizing s with
  | nil =>
      rw [restoredRows_nil]
      rfl
  | cons head rest ih =>
      obtain ⟨hhead, hrest⟩ := List.nodup_cons.mp hn
      have hne : ∀ other ∈ rest, head.id ≠ other.id := fun other ho he =>
        hhead (List.mem_map.mpr ⟨other, ho, he.symm⟩)
      obtain ⟨parent, hchecks, hkept⟩ := h head List.mem_cons_self
      obtain ⟨history, heq, hsame⟩ := restoreParent_eq env hchecks
      obtain rfl := hsame hkept
      rw [each, heq, ok_bind]
      change each (restoreParent env successorId) rest (turnedStore s successorId head
        (restoredMirror env s successorId head parent) s.history) = _
      rw [ih hrest]
      · rw [turnedStore_rows hchecks.found hne]
        unfold turnedStore unlinkAll Store.unlinkedFor Store.deleteLinks
        by_cases ha : head.added <;> simp [ha]
      · intro entry he
        obtain ⟨other, ho, hk⟩ := h entry (List.mem_cons_of_mem _ he)
        refine ⟨other, (turnedStore_checks (hne entry he)).mpr ho, ?_⟩
        unfold Store.chosenRecord at hk ⊢
        rw [turnedStore_candidates (hne entry he)]
        exact hk

end LicenseTrack
