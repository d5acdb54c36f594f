import LicenseTrack.Renewal.UnlinkEffect

/-! Undoing an adoption right after it: when this gives back the rows, the mirrors, the links
and the coverage history as they were.
-/

namespace LicenseTrack

open Library

/-- The licences, maintenance links and coverage history of two stores are the same. -/
structure Restored (s u : Store) : Prop where
  licenses : u.licenses = s.licenses
  links : u.links = s.links
  history : u.history = s.history

/-- A parent whose coverage survives an adoption and its undoing. Either the rule makes the
successor active and the record it displaces can be put back, or the rule keeps the parent's
record, on the day of the adoption and on that of the undoing, and the mirror follows it.
-/
def ParentReversible (env env' : Env) (s : Store) (successorId parentId : Nat)
    (m : MaintenanceMirror)
    : Prop :=
  let chosen := (s.withLink successorId parentId).chosenRecord env parentId m
  (chosen = some successorId ∧ ∀ id, m.activeMaintenanceId = some id
      → (s.license? id).any (fun l => !l.isRetired) = true)
  ∨ (chosen ≠ some successorId ∧ chosen = m.activeMaintenanceId
      ∧ s.chosenRecord env' parentId m = m.activeMaintenanceId
      ∧ s.syncedMirror env.unicode m = m)

/-- The condition under which an adoption can be undone without a trace. -/
structure LinkReversible (env env' : Env) (s : Store) (predecessorId successorId : Nat)
    (predecessor successor : License)
    : Prop where
  linkedAt : predecessor.existingSuccessorLinkedAt = none
  linkedBy : predecessor.existingSuccessorLinkedByEmail = none
  originalRef : predecessor.existingSuccessorOriginalRef = none
  state : predecessor.existingSuccessorMaintenanceState = none
  ref : ∃ ref, truthy successor.licenseRef = some ref ∧ ref ∉ successor.licenseRefAliases
  parents : ∀ id ∈ adoptionParents s predecessorId predecessor, ∀ parent,
    s.license? id = some parent
    → ParentReversible env env' s successorId id parent.toMaintenanceMirror

theorem mem_snapshotParents {s : Store} {predecessorId successorId : Nat} {predecessor : License}
    {entry : ParentSnapshot}
    : entry ∈ snapshotParents s predecessorId successorId predecessor
      ↔ entry.id ∈ snapshotParentIds s predecessorId predecessor
        ∧ entry.added = !(s.linkedParents successorId).contains entry.id
        ∧ ∃ parent, s.license? entry.id = some parent
          ∧ entry.values = parent.toMaintenanceMirror := by
  obtain ⟨id, added, values⟩ := entry
  simp only [snapshotParents, List.mem_map, Prod.exists, ParentSnapshot.mk.injEq]
  constructor
  · rintro ⟨key, row, hm, rfl, rfl, rfl⟩
    have hg := Table.get?_eq_some.mpr hm
    rw [Table.get?_filter, Option.filter_eq_some_iff] at hg
    exact ⟨by simpa using hg.2, rfl, row, hg.1, rfl⟩
  · rintro ⟨hid, rfl, parent, hp, rfl⟩
    refine ⟨id, parent, Table.get?_eq_some.mp ?_, rfl, rfl, rfl⟩
    rw [Table.get?_filter, Option.filter_eq_some_iff]
    exact ⟨hp, by simpa using hid⟩

theorem snapshotParents_nodup (s : Store) (predecessorId successorId : Nat)
    (predecessor : License)
    : ((snapshotParents s predecessorId successorId predecessor).map (·.id)).Nodup := by
  have hs := (s.licenses.filter (fun id _ =>
    (snapshotParentIds s predecessorId predecessor).contains id)).sorted
  simp only [snapshotParents, List.map_map, Function.comp_def]
  exact (List.pairwise_map.mpr hs).imp fun h => Nat.ne_of_lt h

theorem snapshotParents_ids {s : Store} {predecessorId : Nat} (successorId : Nat)
    {predecessor : License}
    (hm : predecessor.licenseType = .maintenance) {id : Nat}
    : (∃ entry ∈ snapshotParents s predecessorId successorId predecessor, entry.id = id)
      ↔ id ∈ adoptionParents s predecessorId predecessor := by
  have hids : id ∈ activationParentIds s predecessorId predecessor
      ↔ id ∈ snapshotParentIds s predecessorId predecessor := by
    unfold activationParentIds snapshotParentIds
    simp only [List.mem_append, List.mem_insertionSort, List.mem_filter, List.mem_dedup]
    cases predecessor.parentLicenseId with
    | none => simp
    | some primary =>
        by_cases he : id = primary
        · subst he
          simp
        · simp [he, Ne.symm he]
  simp only [adoptionParents, hm, if_true, List.mem_filter, hids, mem_snapshotParents]
  constructor
  · rintro ⟨entry, ⟨hid, -, parent, hp, -⟩, rfl⟩
    exact ⟨hid, by simp [hp]⟩
  · rintro ⟨hid, hsome⟩
    obtain ⟨parent, hp⟩ := Option.isSome_iff_exists.mp hsome
    exact ⟨⟨id, !(s.linkedParents successorId).contains id, parent.toMaintenanceMirror⟩,
      ⟨hid, rfl, parent, hp, rfl⟩, rfl⟩

-- The store between the two operations

private theorem filter_append_rejected {α : Type} {p : α → Bool} {a b : List α}
    (hb : ∀ x ∈ b, p x = false)
    : (a ++ b).filter p = a.filter p := by
  have hnil : b.filter p = [] := List.filter_eq_nil_iff.mpr (by simpa using hb)
  rw [List.filter_append, hnil, List.append_nil]

namespace Adoption

variable {env env' : Env} {s t : Store} {predecessorId successorId : Nat}
  {predecessor successor : License} {r : AdoptionRecord}

theorem predecessor_notMem
    (h : Adoption env s t predecessorId successorId predecessor successor r)
    : predecessorId ∉ adoptionParents s predecessorId predecessor := by
  intro hm
  obtain ⟨parent, hp, he⟩ := h.parents _ hm
  obtain rfl := Option.some.inj (h.foundPredecessor.symm.trans hp)
  unfold adoptionParents at hm
  split at hm
  · next ht =>
      rw [ht] at he
      cases he
  · simp at hm

theorem successor_notMem
    (h : Adoption env s t predecessorId successorId predecessor successor r)
    : successorId ∉ adoptionParents s predecessorId predecessor := by
  intro hm
  obtain ⟨parent, hp, he⟩ := h.parents _ hm
  obtain rfl := Option.some.inj (h.foundSuccessor.symm.trans hp)
  have hlive := h.live (List.ne_nil_of_mem hm)
  simp only [License.isLiveMaintenance, Bool.and_eq_true, beq_iff_eq] at hlive
  rw [hlive.1] at he
  cases he

theorem row (h : Adoption env s t predecessorId successorId predecessor successor r) (id : Nat)
    : t.license? id = (s.license? id).map (adoptedRow env s predecessorId successorId
        successor.licenseRef (adoptionParents s predecessorId predecessor) r id) := by
  rw [h.result]
  exact Table.get?_mapRows _ _ _

theorem predecessor_row
    (h : Adoption env s t predecessorId successorId predecessor successor r)
    : t.license? predecessorId
      = some (predecessor.asPredecessor env successorId successor.licenseRef r.state) := by
  rw [h.row, h.foundPredecessor]
  simp [adoptedRow]

theorem successor_row
    (h : Adoption env s t predecessorId successorId predecessor successor r)
    : t.license? successorId
      = some ((successor.asSuccessor predecessorId r.chainRef).activatedFor
          (adoptionParents s predecessorId predecessor)) := by
  rw [h.row, h.foundSuccessor]
  simp [adoptedRow, h.candidate.distinct]

theorem parent_row
    (h : Adoption env s t predecessorId successorId predecessor successor r) {id : Nat}
    (hid : id ∈ adoptionParents s predecessorId predecessor) {parent : License}
    (hp : s.license? id = some parent)
    : t.license? id = some (parent.withMirror
        ((s.withLink successorId id).recomputedMirror env id parent.toMaintenanceMirror)) := by
  have hip : id ≠ predecessorId := fun he => h.predecessor_notMem (he ▸ hid)
  have hiq : id ≠ successorId := fun he => h.successor_notMem (he ▸ hid)
  rw [h.row, hp]
  simp [adoptedRow, hip, hiq, hid]

theorem links (h : Adoption env s t predecessorId successorId predecessor successor r)
    : t.links = s.links
        ++ ((adoptionParents s predecessorId predecessor).filter
            (fun p => MaintenanceLink.mk successorId p ∉ s.links)).map
              (MaintenanceLink.mk successorId) := by
  rw [h.result]
  exact linkAll_eq (adoptionParents_nodup s predecessorId predecessor) s.links

theorem added_iff {entry : ParentSnapshot}
    (he : entry ∈ snapshotParents s predecessorId successorId predecessor)
    : entry.added = true ↔ MaintenanceLink.mk successorId entry.id ∉ s.links := by
  obtain ⟨-, hadded, -⟩ := mem_snapshotParents.mp he
  rw [hadded]
  simp only [Store.linkedParents, Bool.not_eq_true', List.contains_eq_mem,
    decide_eq_false_iff_not, List.mem_map, List.mem_filter, beq_iff_eq]
  refine not_congr ⟨?_, fun hl => ⟨_, ⟨hl, rfl⟩, rfl⟩⟩
  rintro ⟨link, ⟨hl, hm⟩, hp⟩
  rw [← hm, ← hp]
  exact hl

theorem records (h : Adoption env s t predecessorId successorId predecessor successor r)
    : SameRecords s t := by
  rw [h.result]
  refine Table.Agrees.of_mapRows fun id l => ?_
  unfold adoptedRow
  split
  · rfl
  · split
    · rfl
    · split <;> rfl

theorem candidates (h : Adoption env s t predecessorId successorId predecessor successor r)
    {entry : ParentSnapshot}
    (he : entry ∈ snapshotParents s predecessorId successorId predecessor)
    : (t.unlinkedFor successorId entry).candidates entry.id = s.candidates entry.id := by
  have hcontains := added_iff he
  have hrecords : SameRecords s (t.unlinkedFor successorId entry) := by
    unfold SameRecords
    rw [unlinkedFor_licenses]
    exact h.records
  have hlinks := h.links
  have hl : (t.unlinkedFor successorId entry).linkedRecords entry.id
      = s.linkedRecords entry.id := by
    unfold Store.linkedRecords Store.unlinkedFor Store.deleteLinks
    by_cases ha : entry.added = true
    · have hnot := hcontains.mp ha
      simp only [ha, if_true, hlinks, List.filter_filter]
      rw [filter_append_rejected]
      · refine congrArg _ (List.filter_congr fun link hl => ?_)
        have : link ≠ ⟨successorId, entry.id⟩ := fun he => hnot (he ▸ hl)
        simp [this]
      · intro link hl
        obtain ⟨p, -, rfl⟩ := List.mem_map.mp hl
        by_cases hp : p = entry.id <;> simp [hp]
    · have hin : ⟨successorId, entry.id⟩ ∈ s.links := by
        by_contra hc
        exact ha (hcontains.mpr hc)
      rw [if_neg ha, hlinks]
      refine congrArg _ (filter_append_rejected fun link hl => ?_)
      obtain ⟨p, hp, rfl⟩ := List.mem_map.mp hl
      have hnot : MaintenanceLink.mk successorId p ∉ s.links := by
        simpa using (List.mem_filter.mp hp).2
      have : p ≠ entry.id := fun he => hnot (he ▸ hin)
      simp [this]
  unfold Store.candidates
  rw [hl]
  exact congrArg (List.filterMap · _) (funext hrecords.candidate?)

theorem links_restored
    (h : Adoption env s t predecessorId successorId predecessor successor r)
    (hm : predecessor.licenseType = .maintenance)
    : unlinkAll successorId (snapshotParents s predecessorId successorId predecessor) t.links
      = s.links := by
  rw [unlinkAll_eq, h.links, filter_append_rejected]
  · refine List.filter_eq_self.mpr fun link hl => ?_
    simp only [Bool.not_eq_true', List.any_eq_false, Bool.and_eq_true, beq_iff_eq, not_and]
    rintro entry he ha rfl
    exact (added_iff he).mp ha hl
  · intro link hl
    obtain ⟨p, hp, rfl⟩ := List.mem_map.mp hl
    obtain ⟨hmem, hnot⟩ := List.mem_filter.mp hp
    obtain ⟨entry, he, rfl⟩ := (snapshotParents_ids successorId hm).mpr hmem
    simp only [Bool.not_eq_false', List.any_eq_true, Bool.and_eq_true, beq_iff_eq]
    exact ⟨entry, he, (added_iff he).mpr (by simpa using hnot), rfl⟩

theorem history_restored
    (h : Adoption env s t predecessorId successorId predecessor successor r)
    (hm : predecessor.licenseType = .maintenance)
    : r.history.filter (fun id _ =>
          !(adoptionSnapshot s predecessorId successorId predecessor successor
            r.history).addedHistoryIds.contains id)
      = s.history := by
  ext id : 1
  rw [Table.get?_filter]
  have hadded : ∀ row, r.history.get? id = some row
      → (id ∈ (adoptionSnapshot s predecessorId successorId predecessor successor
            r.history).addedHistoryIds
          ↔ row.parentLicenseId ∈ adoptionParents s predecessorId predecessor
            ∧ s.history.get? id = none) := by
    intro row hrow
    simp only [adoptionSnapshot, historyOf, List.mem_filter, Table.mem_select,
      Bool.not_eq_true', List.contains_eq_mem, decide_eq_true_eq, decide_eq_false_iff_not,
      List.mem_map, snapshotParents_ids successorId hm, hrow]
    constructor
    · rintro ⟨⟨row', hrow', hpar⟩, hbefore⟩
      obtain rfl := Option.some.inj hrow'
      refine ⟨hpar, ?_⟩
      rcases hs : s.history.get? id with _ | old
      · rfl
      · obtain rfl := Option.some.inj ((h.history.kept id old hs).symm.trans hrow)
        obtain ⟨entry, he, hid⟩ := (snapshotParents_ids successorId hm).mpr hpar
        exact absurd ⟨old, hs, hid ▸ (mem_snapshotParents.mp he).1⟩ hbefore
    · rintro ⟨hpar, hnone⟩
      exact ⟨⟨row, rfl, hpar⟩, by simp [hnone]⟩
  rcases hr : r.history.get? id with _ | row
  · rcases hs : s.history.get? id with _ | old
    · rfl
    · rw [h.history.kept id old hs] at hr
      cases hr
  · rcases hs : s.history.get? id with _ | old
    · have hin := (hadded row hr).mpr ⟨h.history.fresh id row hr hs, hs⟩
      simp [hin]
    · obtain rfl := Option.some.inj ((h.history.kept id old hs).symm.trans hr)
      have hout := (hadded old hr).not.mpr fun hc => by
        rw [hs] at hc
        cases hc.2
      simp [hout]

end Adoption

end LicenseTrack
