import LicenseTrack.Services.LicenseDelete

/-! What a deletion of licences leaves: no row names a deleted licence, and the maintenance records
that lose a parent take one of those they keep, or are retired.
-/

namespace LicenseTrack

open Library

/-- The parents that a record keeps when licences are deleted, the first one leading. -/
def Store.remainingParents (s : Store) (ids : List Nat) (id : Nat) : List Nat :=
  ((s.linkedParents id).filter (fun parentId => !ids.contains parentId)).mergeSort

/-- A licence that remains when others are deleted. -/
def License.remaining (ids : List Nat) (s : Store) (id : Nat) (l : License) : License :=
  (if (maintenanceOfDeleted s ids).contains id then l.withRemainingParents (s.remainingParents ids id)
    else l).withoutReferences ids

/-- A sourcing line that remains when licences are deleted. -/
def SourcingItem.remaining (ids : List Nat) (item : SourcingItem) : SourcingItem :=
  if (item.detached ids).maintenanceParentLicenseId.any (ids.contains ·) then
    { item.detached ids with maintenanceParentLicenseId := none }
  else item.detached ids

/-- What a deletion does to every table that names licences. -/
structure LicensesDeleted (ids : List Nat) (s t : Store) : Prop where
  allowed : ∀ id item, s.items.get? id = some item → (∃ licenseId ∈ ids,
    licenseId ∈ item.predecessorIds) → item.status = .cancelled
  licenses : ∀ id, t.license? id = ((s.license? id).filter (fun _ => !ids.contains id)).map
    (License.remaining ids s id)
  constraints : ∀ id l, t.license? id = some l → l.Constraints
  links : ∀ link, link ∈ t.links ↔ link ∈ s.links ∧ link.maintenanceLicenseId ∉ ids
    ∧ link.parentLicenseId ∉ ids
  history : ∀ id row, t.history.get? id = some row → row.parentLicenseId ∉ ids
    ∧ ∀ maintenanceId ∈ ids, row.maintenanceLicenseId ≠ some maintenanceId
  items : ∀ id, t.items.get? id = (s.items.get? id).map (SourcingItem.remaining ids)

theorem assertLicenseDeleteAllowed_ok {ids : List Nat} {s : Store} {r : PUnit.{1}}
    (h : assertLicenseDeleteAllowed s ids = .ok r) {id : Nat} {item : SourcingItem}
    (hitem : s.items.get? id = some item) {licenseId : Nat} (hid : licenseId ∈ ids)
    (hnames : licenseId ∈ item.predecessorIds)
    : item.status = .cancelled := by
  simp only [assertLicenseDeleteAllowed, bind_eq_ok, require_eq_ok] at h
  obtain ⟨-, -, hitems⟩ := h
  refine beq_iff_eq.mp (List.all_eq_true.mp hitems (id, item) (List.mem_filter.mpr ⟨?_, ?_⟩))
  · exact Table.get?_eq_some.mp hitem
  · exact List.any_eq_true.mpr ⟨licenseId, hnames, List.contains_iff_mem.mpr hid⟩

theorem deleteLoadedLicenseRecords_ok {ids : List Nat} {s t : Store}
    (h : deleteLoadedLicenseRecords ids s = .ok t)
    : LicensesDeleted ids s t := by
  simp only [deleteLoadedLicenseRecords, bind_eq_ok, flush_eq_ok, pure_eq_ok] at h
  obtain ⟨_, hallowed, flushed, ⟨hflushed, hconstraints⟩, rfl⟩ := h
  have hlicenses : ∀ id, id ∉ ids
      → flushed.license? id = (s.license? id).map (License.remaining ids s id) := fun id hid => by
    have hcontains : ids.contains id = false := by simpa using hid
    rw [← hflushed]
    simp only [Store.license?, Store.mapLicenses, Table.get?_mapRows,
      prepareMaintenanceRelationshipsForDelete, Store.deleteLinks, Option.map_map]
    refine congrArg (Option.map · _) (funext fun l => ?_)
    simp only [Function.comp_apply, hcontains, Bool.false_eq_true, false_and, if_false]
    rfl
  have hrow : ∀ id, (cascadeDelete ids flushed).license? id
      = ((s.license? id).filter (fun _ => !ids.contains id)).map (License.remaining ids s id) := by
    intro id
    have hfilter : ∀ row : Option License,
        row.filter (fun _ => !ids.contains id) = if id ∈ ids then none else row := fun row => by
      rcases row with _ | l
      · exact (ite_self none).symm
      · by_cases hid : id ∈ ids <;> simp [hid]
    rw [Store.license?, cascadeDelete, Table.get?_filter, hfilter, hfilter]
    split
    · rfl
    · next hid => exact hlicenses id hid
  have hlinks : flushed.links = s.links.filter (fun link => !ids.contains link.parentLicenseId) := by
    rw [← hflushed]
    rfl
  have hitems : flushed.items = s.items.mapRows (fun _ item => item.detached ids) := by
    rw [← hflushed]
    rfl
  refine ⟨fun id item hitem hnamed => ?_, hrow, fun id l hl => ?_, fun link => ?_,
    fun id row hhistory => ?_, fun id => ?_⟩
  · obtain ⟨licenseId, hid, hnames⟩ := hnamed
    exact assertLicenseDeleteAllowed_ok hallowed hitem hid hnames
  · rw [Store.license?, cascadeDelete, Table.get?_filter] at hl
    rw [hflushed] at hconstraints
    exact hconstraints.licenses id l (Option.filter_eq_some_iff.mp hl).1
  · simp only [cascadeDelete, hlinks, List.mem_filter, Bool.and_eq_true, Bool.not_eq_true',
      List.contains_eq_mem, decide_eq_false_iff_not]
    constructor
    · rintro ⟨⟨hs, -⟩, hm, hp⟩
      exact ⟨hs, hm, hp⟩
    · rintro ⟨hs, hm, hp⟩
      exact ⟨⟨hs, hp⟩, hm, hp⟩
  · simp only [cascadeDelete, Table.get?_mapRows, Table.get?_filter, Option.map_eq_some_iff,
      Option.filter_eq_some_iff] at hhistory
    obtain ⟨old, ⟨-, hparent⟩, rfl⟩ := hhistory
    have hkept : old.parentLicenseId ∉ ids := by simpa using hparent
    split
    · exact ⟨hkept, fun _ _ hnone => by cases hnone⟩
    · next hother =>
        refine ⟨hkept, fun maintenanceId hid hnames => hother ?_⟩
        rw [hnames, Option.any_some]
        exact List.contains_iff_mem.mpr hid
  · simp only [cascadeDelete, hitems, Table.get?_mapRows, Option.map_map]
    rfl

-- References

/-- A column that names none of the deleted licences. -/
def NamesNone (ids : List Nat) (column : Option Nat) : Prop := ∀ id, column = some id → id ∉ ids

theorem NamesNone.cleared (ids : List Nat) (column : Option Nat)
    : NamesNone ids (if column.any (ids.contains ·) then none else column) := by
  intro id he
  split at he
  · cases he
  · next hnone =>
      rw [he, Option.any_some] at hnone
      exact fun hid => hnone (List.contains_iff_mem.mpr hid)

/-- No row that remains names a deleted licence. -/
structure NoneDangling (ids : List Nat) (t : Store) : Prop where
  gone : ∀ id ∈ ids, t.license? id = none
  chain : ∀ id l, t.license? id = some l → NamesNone ids l.renewedFromId
    ∧ NamesNone ids l.renewedToId ∧ NamesNone ids l.predecessorId
  maintenance : ∀ id l, t.license? id = some l → NamesNone ids l.parentLicenseId
    ∧ NamesNone ids l.activeMaintenanceId
  links : ∀ link ∈ t.links, link.maintenanceLicenseId ∉ ids ∧ link.parentLicenseId ∉ ids
  history : ∀ id row, t.history.get? id = some row → row.parentLicenseId ∉ ids
    ∧ NamesNone ids row.maintenanceLicenseId
  items : ∀ id item, t.items.get? id = some item → NamesNone ids item.renewalForLicenseId
    ∧ (∀ licenseId ∈ item.cotermPredecessorIds.getD [], licenseId ∉ ids)
    ∧ NamesNone ids item.maintenanceParentLicenseId

theorem withoutReferences_chain (ids : List Nat) (l : License)
    : NamesNone ids (l.withoutReferences ids).renewedFromId
      ∧ NamesNone ids (l.withoutReferences ids).renewedToId
      ∧ NamesNone ids (l.withoutReferences ids).predecessorId := by
  unfold License.withoutReferences
  dsimp only
  split <;> exact ⟨.cleared ids _, .cleared ids _, .cleared ids _⟩

theorem withoutReferences_active (ids : List Nat) (l : License)
    : NamesNone ids (l.withoutReferences ids).activeMaintenanceId := by
  unfold License.withoutReferences
  dsimp only
  split
  · exact fun _ hnone => by cases hnone
  · next hnone =>
      intro id he hid
      refine hnone ?_
      rw [show l.activeMaintenanceId = some id from he, Option.any_some]
      exact List.contains_iff_mem.mpr hid

theorem withoutReferences_rest (ids : List Nat) (l : License)
    : (l.withoutReferences ids).toLicenseStanding = l.toLicenseStanding
      ∧ (l.withoutReferences ids).toLicenseTerms = l.toLicenseTerms := by
  unfold License.withoutReferences
  dsimp only
  split <;> exact ⟨rfl, rfl⟩

theorem withRemainingParents_parent (remaining : List Nat) (child : License)
    : (∃ parentId ∈ remaining, (child.withRemainingParents remaining).parentLicenseId = some parentId)
      ∨ ((child.withRemainingParents remaining).isRetired = true
        ∧ (child.withRemainingParents remaining).parentLicenseId = none
        ∧ (child.withRemainingParents remaining).isLegacyUnlinkedMaintenance = false) := by
  unfold License.withRemainingParents
  split
  · exact .inr ⟨rfl, rfl, rfl⟩
  · next first rest =>
      refine .inl ?_
      split
      · next hkept =>
          obtain ⟨parentId, hparent, hmem⟩ := (Option.any_eq_true _ _).mp hkept
          exact ⟨parentId, List.contains_iff_mem.mp hmem, hparent⟩
      · exact ⟨first, List.mem_cons_self, rfl⟩

theorem mem_remainingParents {s : Store} {ids : List Nat} {id parentId : Nat}
    : parentId ∈ s.remainingParents ids id ↔ ⟨id, parentId⟩ ∈ s.links ∧ parentId ∉ ids := by
  simp only [Store.remainingParents, Store.linkedParents, List.mem_mergeSort, List.mem_filter,
    List.mem_map, beq_iff_eq, Bool.not_eq_true', List.contains_eq_mem, decide_eq_false_iff_not]
  constructor
  · rintro ⟨⟨link, ⟨hlink, rfl⟩, rfl⟩, hid⟩
    exact ⟨hlink, hid⟩
  · rintro ⟨hlink, hid⟩
    exact ⟨⟨_, ⟨hlink, rfl⟩, rfl⟩, hid⟩

theorem mem_maintenanceOfDeleted_primary {s : Store} {ids : List Nat} {id parentId : Nat}
    {l : License} (hl : s.license? id = some l) (hid : id ∉ ids)
    (htype : l.licenseType = .maintenance) (hparent : l.parentLicenseId = some parentId)
    (hdeleted : parentId ∈ ids)
    : id ∈ maintenanceOfDeleted s ids := by
  refine List.mem_append.mpr (.inr (Table.mem_select.mpr ⟨l, hl, ?_⟩))
  rw [htype, hparent, Option.any_some, List.contains_iff_mem.mpr hdeleted]
  simp [hid]

theorem mem_predecessorIds {item : SourcingItem} {id : Nat}
    : id ∈ item.predecessorIds
      ↔ item.renewalForLicenseId = some id ∨ id ∈ item.cotermPredecessorIds.getD [] := by
  simp [SourcingItem.predecessorIds, or_comm]

theorem remaining_names {ids : List Nat} {item : SourcingItem}
    (hallowed : (∃ licenseId ∈ ids, licenseId ∈ item.predecessorIds) → item.status = .cancelled)
    : NamesNone ids (item.remaining ids).renewalForLicenseId
      ∧ (∀ licenseId ∈ (item.remaining ids).cotermPredecessorIds.getD [], licenseId ∉ ids)
      ∧ NamesNone ids (item.remaining ids).maintenanceParentLicenseId := by
  have hdetached : NamesNone ids (item.detached ids).renewalForLicenseId
      ∧ ∀ licenseId ∈ (item.detached ids).cotermPredecessorIds.getD [], licenseId ∉ ids := by
    unfold SourcingItem.detached
    split
    · have hkept : ∀ id ∈ item.predecessorIds.filter (fun id => !ids.contains id), id ∉ ids :=
        fun id hid => by simpa using (List.mem_filter.mp hid).2
      refine ⟨fun id he => hkept id (List.mem_of_mem_head? he), fun id hid => hkept id ?_⟩
      dsimp only at hid
      split at hid
      · exact hid
      · cases hid
    · next hfree =>
        have hnone : ∀ id ∈ item.predecessorIds, id ∉ ids := fun id hnames hid =>
          hfree ⟨hallowed ⟨id, hid, hnames⟩,
            List.any_eq_true.mpr ⟨id, hnames, List.contains_iff_mem.mpr hid⟩⟩
        exact ⟨fun id he => hnone id (mem_predecessorIds.mpr (.inl he)),
          fun id hid => hnone id (mem_predecessorIds.mpr (.inr hid))⟩
  unfold SourcingItem.remaining
  split
  · exact ⟨hdetached.1, hdetached.2, fun _ hnone => by cases hnone⟩
  · next hnone =>
      refine ⟨hdetached.1, hdetached.2, fun id he hid => hnone ?_⟩
      rw [he, Option.any_some]
      exact List.contains_iff_mem.mpr hid

namespace LicensesDeleted

variable {ids : List Nat} {s t : Store}

theorem back (h : LicensesDeleted ids s t) {id : Nat} {l : License} (hl : t.license? id = some l)
    : ∃ old, s.license? id = some old ∧ id ∉ ids ∧ l = old.remaining ids s id := by
  rw [h.licenses] at hl
  obtain ⟨old, hold, rfl⟩ := Option.map_eq_some_iff.mp hl
  obtain ⟨hstored, hkept⟩ := Option.filter_eq_some_iff.mp hold
  exact ⟨old, hstored, by simpa using hkept, rfl⟩

theorem forth (h : LicensesDeleted ids s t) {id : Nat} {old : License}
    (hold : s.license? id = some old) (hid : id ∉ ids)
    : t.license? id = some (old.remaining ids s id) := by
  rw [h.licenses, hold, Option.filter_some, if_pos (by simpa using hid), Option.map_some]

theorem reparented (h : LicensesDeleted ids s t) {id : Nat} {l : License}
    (hl : t.license? id = some l) (hlost : id ∈ maintenanceOfDeleted s ids)
    : (∃ parentId, l.parentLicenseId = some parentId ∧ ⟨id, parentId⟩ ∈ t.links)
      ∨ (l.isRetired = true ∧ l.parentLicenseId = none ∧ l.isLegacyUnlinkedMaintenance = false) := by
  obtain ⟨old, -, hid, rfl⟩ := h.back hl
  unfold License.remaining
  rw [if_pos (List.contains_iff_mem.mpr hlost)]
  have hsame := (withoutReferences_rest ids
    (old.withRemainingParents (s.remainingParents ids id))).1
  have hparent := congrArg (·.parentLicenseId) hsame
  have hretired := congrArg (·.isRetired) hsame
  have hlegacy := congrArg (·.isLegacyUnlinkedMaintenance) hsame
  rw [hparent, hretired, hlegacy]
  rcases withRemainingParents_parent (s.remainingParents ids id) old with ⟨parentId, hmem, he⟩ | hnone
  · obtain ⟨hlink, hkept⟩ := mem_remainingParents.mp hmem
    exact .inl ⟨parentId, he, (h.links _).mpr ⟨hlink, hid, hkept⟩⟩
  · exact .inr hnone

theorem noneDangling (h : LicensesDeleted ids s t) : NoneDangling ids t where
  gone := fun id hid => by
    rcases hl : t.license? id with _ | l
    · rfl
    · obtain ⟨-, -, hkept, -⟩ := h.back hl
      exact absurd hid hkept
  chain := fun id l hl => by
    obtain ⟨old, -, -, rfl⟩ := h.back hl
    exact withoutReferences_chain ids _
  maintenance := fun id l hl => by
    obtain ⟨old, hold, hid, he⟩ := h.back hl
    refine ⟨fun parentId hparent hdeleted => ?_, he ▸ withoutReferences_active ids _⟩
    by_cases hlost : id ∈ maintenanceOfDeleted s ids
    · rcases h.reparented hl hlost with ⟨kept, hkept, hlink⟩ | ⟨-, hnone, -⟩
      · obtain rfl := Option.some.inj (hkept.symm.trans hparent)
        exact ((h.links _).mp hlink).2.2 hdeleted
      · rw [hnone] at hparent
        cases hparent
    · -- Such a record is no maintenance record, so the database lets it have no parent.
      have hcontains : (maintenanceOfDeleted s ids).contains id = false := by simpa using hlost
      have hstanding := (withoutReferences_rest ids old).1
      have hterms := (withoutReferences_rest ids old).2
      rw [License.remaining, if_neg (by rw [hcontains]; exact Bool.false_ne_true)] at he
      have holdParent : old.parentLicenseId = some parentId := by
        rw [he] at hparent
        exact (congrArg (·.parentLicenseId) hstanding).symm.trans hparent
      have htype : old.licenseType ≠ .maintenance := fun htype =>
        hlost (mem_maintenanceOfDeleted_primary hold hid htype holdParent hdeleted)
      have hlType : l.licenseType = old.licenseType := by
        rw [he]
        exact congrArg (·.licenseType) hterms
      rcases (h.constraints id l hl).parent with ⟨hm, -⟩ | ⟨hm, -⟩ | ⟨-, hnone, -⟩
      · exact htype (hlType.symm.trans hm)
      · exact htype (hlType.symm.trans hm)
      · rw [hnone] at hparent
        cases hparent
  links := fun link hlink => ((h.links link).mp hlink).2
  history := fun id row hrow => by
    obtain ⟨hparent, hmaintenance⟩ := h.history id row hrow
    exact ⟨hparent, fun maintenanceId he hid => hmaintenance maintenanceId hid he⟩
  items := fun id item hitem => by
    rw [h.items] at hitem
    obtain ⟨old, hold, rfl⟩ := Option.map_eq_some_iff.mp hitem
    exact remaining_names (h.allowed id old hold)

end LicensesDeleted

-- Deletion requests

/-- What a deletion leaves of the registry. -/
structure RegistryAfterDeletion (ids : List Nat) (s t : Store) : Prop where
  dangling : NoneDangling ids t
  /-- A record that loses a parent keeps one of its remaining ones, or is retired without one. -/
  reparented : ∀ id l, t.license? id = some l → id ∈ maintenanceOfDeleted s ids
    → (∃ parentId, l.parentLicenseId = some parentId ∧ ⟨id, parentId⟩ ∈ t.links)
      ∨ (l.isRetired = true ∧ l.parentLicenseId = none ∧ l.isLegacyUnlinkedMaintenance = false)
  /-- The other licences keep their parents. -/
  others : ∀ id old, s.license? id = some old → id ∉ ids → id ∉ maintenanceOfDeleted s ids
    → ∃ l, t.license? id = some l ∧ l.toLicenseStanding = old.toLicenseStanding
      ∧ ∀ parentId, ⟨id, parentId⟩ ∈ t.links ↔ ⟨id, parentId⟩ ∈ s.links
        ∧ parentId ∉ ids
  /-- A parent whose active record is deleted tracks no maintenance. -/
  cleared : ∀ id old, s.license? id = some old → id ∉ ids
    → (∃ active ∈ ids, old.activeMaintenanceId = some active)
    → ∃ l, t.license? id = some l ∧ l.activeMaintenanceId = none ∧ l.hasMaintenance = false

theorem remaining_cleared {ids : List Nat} {s : Store} {id active : Nat} {old : License}
    (hactive : old.activeMaintenanceId = some active) (hid : active ∈ ids)
    : (old.remaining ids s id).activeMaintenanceId = none
      ∧ (old.remaining ids s id).hasMaintenance = false := by
  have hsame : ∀ remaining, (old.withRemainingParents remaining).activeMaintenanceId = some active :=
    fun remaining => by
      unfold License.withRemainingParents
      split
      · exact hactive
      · split <;> exact hactive
  have hcleared : ∀ l : License, l.activeMaintenanceId = some active
      → (l.withoutReferences ids).activeMaintenanceId = none
        ∧ (l.withoutReferences ids).hasMaintenance = false := fun l hl => by
    unfold License.withoutReferences
    dsimp only
    split
    · exact ⟨rfl, rfl⟩
    · next hkept =>
        refine absurd ?_ hkept
        rw [hl, Option.any_some]
        exact List.contains_iff_mem.mpr hid
  unfold License.remaining
  split
  · exact hcleared _ (hsame _)
  · exact hcleared _ hactive

theorem LicensesDeleted.registry {ids : List Nat} {s t : Store} (h : LicensesDeleted ids s t)
    : RegistryAfterDeletion ids s t where
  dangling := h.noneDangling
  reparented := fun _ _ hl hlost => h.reparented hl hlost
  others := fun id old hold hid hkept => by
    refine ⟨_, h.forth hold hid, ?_, fun parentId => ?_⟩
    · unfold License.remaining
      rw [if_neg fun hlost => hkept (List.contains_iff_mem.mp hlost)]
      exact (withoutReferences_rest ids old).1
    · rw [h.links]
      exact ⟨fun ⟨hlink, _, hparent⟩ => ⟨hlink, hparent⟩, fun ⟨hlink, hparent⟩ => ⟨hlink, hid, hparent⟩⟩
  cleared := fun id old hold hid ⟨active, hdeleted, hactive⟩ =>
    ⟨_, h.forth hold hid, remaining_cleared hactive hdeleted⟩

theorem RegistryAfterDeletion.of_none (s : Store) : RegistryAfterDeletion [] s s where
  dangling := by constructor <;> simp [NamesNone]
  reparented := fun id l hl hlost => by
    have hnone : maintenanceOfDeleted s [] = [] := by
      simp only [maintenanceOfDeleted, List.contains_nil, List.filter_false,
        List.map_nil, List.filterMap_nil, List.append_nil, List.nil_append]
      refine List.eq_nil_iff_forall_not_mem.mpr fun key hkey => ?_
      obtain ⟨row, -, hrow⟩ := Table.mem_select.mp hkey
      rcases hparent : row.parentLicenseId with _ | parentId <;> simp [hparent] at hrow
    rw [hnone] at hlost
    cases hlost
  others := fun id old hold _ _ => ⟨old, hold, rfl, fun _ => by simp⟩
  cleared := fun _ _ _ _ hdeleted => by
    obtain ⟨_, hnone, -⟩ := hdeleted
    cases hnone

end LicenseTrack
