import LicenseTrack.Retirement.Requests

/-! Creations, deletions, the daily job and the disabling of maintenance, and the runs that are
made of them, of updates and of patches.
-/

namespace LicenseTrack

open Library

/-- A row as creations insert it: without a schedule and without an active record. -/
structure FreshRow (row : License) : Prop where
  scheduled : row.retirementScheduled = false
  active : row.activeMaintenanceId = none

theorem FreshRow.sound {row : License} (h : FreshRow row) : SoundLicense row :=
  ⟨.of_unscheduled h.scheduled, fun hactive => absurd h.active hactive⟩

theorem inheritRowOverride_fresh {u : Unicode} {s : Store} {row : License} (h : FreshRow row)
    : FreshRow (inheritRowOverride u s row) :=
  ⟨h.scheduled, h.active⟩

theorem syncInvoiceNumbers_fresh {row : License} (h : FreshRow row)
    : FreshRow (syncInvoiceNumbers row) := by
  unfold syncInvoiceNumbers
  split
  · exact ⟨h.scheduled, h.active⟩
  · split
    · exact h
    · exact ⟨h.scheduled, h.active⟩

theorem SoundLicenses.insertLicense {u : Unicode} {row : License} {s t : Store} {id : Nat}
    (hs : SoundLicenses s) (hrow : FreshRow row) (h : insertLicense u row s = .ok (id, t))
    : SoundLicenses t := by
  obtain ⟨-, -, -, hnumbers⟩ := insertLicense_ok h
  exact (hs.insert hrow.sound).of_agrees hnumbers.flags

theorem SoundLicenses.assignLicenseRef {s : Store} (hs : SoundLicenses s) (env : Env) (id : Nat)
    : SoundLicenses (assignLicenseRef env id s) := by
  have hissued : SoundLicenses (generateLicenseRef env s).2 := hs.of_licenses rfl
  exact hissued.modify fun l _ h => h.congr rfl

theorem SoundLicenses.createMaintenance {env : Env} {parentId : Nat} {row : License} {s t : Store}
    {id : Nat} (hs : SoundLicenses s) (hrow : FreshRow row)
    (h : createMaintenanceForParent env parentId row s = .ok (id, t))
    : SoundLicenses t := by
  simp only [createMaintenanceForParent, bind_eq_ok, pure_eq_ok, Prod.mk.injEq] at h
  obtain ⟨⟨resolved, v⟩, hresolved, _, -, ⟨newId, inserted⟩, hinsert, activated, hactivated, -, rfl⟩
    := h
  obtain ⟨⟨details, rfl⟩, hv⟩ := resolveRowReferences_ok hresolved
  have hfresh : FreshRow (maintenanceRow parentId (row.withDetails details)) :=
    ⟨hrow.scheduled, hrow.active⟩
  have hinserted := (hs.of_licenses hv.licenses).insertLicense hfresh hinsert
  exact (hinserted.assignLicenseRef env newId).activate hactivated

theorem SoundLicenses.createRecord {env : Env} {bundleId : Option String} {payload : LicenseCreate}
    {s t : Store} {id : Nat} (hs : SoundLicenses s)
    (h : createLicenseRecord env bundleId payload s = .ok (id, t))
    : SoundLicenses t := by
  simp only [createLicenseRecord, bind_eq_ok] at h
  obtain ⟨_, -, h⟩ := h
  split at h
  · unfold createMaintenanceRecord at h
    split at h
    · simp at h
    · next firstParent extraParents _ =>
        simp only [bind_eq_ok, pure_eq_ok, Prod.mk.injEq] at h
        obtain ⟨_, -, ⟨resolved, v⟩, hresolved, contract, -, ⟨newId, created⟩, hcreated, linked,
          hlinked, -, rfl⟩ := h
        obtain ⟨⟨details, rfl⟩, hv⟩ := resolveRowReferences_ok hresolved
        have hrow : FreshRow (syncInvoiceNumbers ((stripServerOwnedCreateFields payload.row).withMirror
            (applyIncludedSupportDefaults env.unicode
              (stripServerOwnedCreateFields payload.row).toLicenseTerms
              { (stripServerOwnedCreateFields payload.row).toMaintenanceMirror with
                maintenanceCoverage := payload.maintenanceCoverage.getD .unknown }))) := by
          refine syncInvoiceNumbers_fresh ⟨rfl, ?_⟩
          exact (applyIncludedSupportDefaults_standing _ _ _).1
        refine each_keeps (P := SoundLicenses) (fun _ _ _ _ hv h => hv.activate h) ?_ hlinked
        refine (hs.of_licenses hv.licenses).createMaintenance
          (inheritRowOverride_fresh ⟨?_, ?_⟩) hcreated
        · exact hrow.scheduled
        · exact hrow.active
  · simp only [createPlainRecord, bind_eq_ok, pure_eq_ok, Prod.mk.injEq] at h
    obtain ⟨_, -, _, -, ⟨resolved, v⟩, hresolved, _, -, _, -, _, -, contract, -, ⟨newId, inserted⟩,
      hinsert, -, rfl⟩ := h
    obtain ⟨⟨details, rfl⟩, hv⟩ := resolveRowReferences_ok hresolved
    have hrow : FreshRow (syncInvoiceNumbers ((stripServerOwnedCreateFields payload.row).withMirror
        (callerIncludedSupportDetails payload.toLicenseData))) := by
      refine syncInvoiceNumbers_fresh ⟨rfl, ?_⟩
      simp only [License.withMirror, callerIncludedSupportDetails]
      split <;> rfl
    refine ((hs.of_licenses hv.licenses).insertLicense (inheritRowOverride_fresh ⟨?_, ?_⟩)
      hinsert).assignLicenseRef env newId
    · exact hrow.scheduled
    · exact (applyIncludedSupportDefaults_standing _ _ _).1.trans hrow.active

theorem SoundLicenses.createBatchLines {env : Env} {bundleId : Option String}
    {items : List LicenseBatchCreateItem} {created : List Nat} {s t : Store}
    (hs : SoundLicenses s) (h : createBatchLines env bundleId items created s = .ok t)
    : SoundLicenses t := by
  induction items generalizing created s with
  | nil =>
      obtain rfl := Except.ok.inj h
      exact hs
  | cons item rest ih =>
      simp only [LicenseTrack.createBatchLines, bind_eq_ok] at h
      obtain ⟨⟨id, v⟩, hrecord, h⟩ := h
      exact ih (hs.createRecord hrecord) h

/-- No scheduled record loses its last parent when licences are deleted. -/
def DeletesNoLastParent (ids : List Nat) (s : Store) : Prop :=
  ∀ id l, s.license? id = some l → id ∉ ids → id ∈ maintenanceOfDeleted s ids →
    (∀ parentId ∈ s.linkedParents id, parentId ∈ ids) → l.retirementScheduled = false

theorem withRemainingParents_sound {remaining : List Nat} {child : License}
    (hs : SoundLicense child) (h : remaining = [] → child.retirementScheduled = false)
    : SoundLicense (child.withRemainingParents remaining) := by
  unfold License.withRemainingParents
  split
  · exact ⟨.of_unscheduled (h rfl), hs.tracked⟩
  · split
    · exact hs
    · exact hs.congr rfl

theorem withoutReferences_sound {ids : List Nat} {l : License} (hs : SoundLicense l)
    : SoundLicense (l.withoutReferences ids) := by
  unfold License.withoutReferences
  dsimp only
  split
  · exact SoundLicense.clearActive (hs.congr rfl)
  · exact hs.congr rfl

theorem SoundLicenses.deleteLoaded {ids : List Nat} {s t : Store} (hs : SoundLicenses s)
    (hkept : DeletesNoLastParent ids s) (h : deleteLoadedLicenseRecords ids s = .ok t)
    : SoundLicenses t := by
  simp only [deleteLoadedLicenseRecords, bind_eq_ok, flush_eq_ok, pure_eq_ok] at h
  obtain ⟨_, -, flushed, ⟨rfl, -⟩, rfl⟩ := h
  intro id l hl
  simp only [cascadeDelete, Store.license?, Store.mapLicenses, Table.get?_filter,
    Table.get?_mapRows, prepareMaintenanceRelationshipsForDelete, Store.deleteLinks,
    Option.map_map] at hl
  rw [Option.filter_eq_some_iff, Option.map_eq_some_iff] at hl
  obtain ⟨⟨old, hold, rfl⟩, hremains⟩ := hl
  have hremains' : id ∉ ids := by simpa using hremains
  have hsold := hs id old hold
  refine withoutReferences_sound ?_
  have hstays : ids.contains id = false := by simpa using hremains'
  simp only [Function.comp_apply, hstays, Bool.false_eq_true, if_false, false_and]
  split
  · next hlost =>
      refine withRemainingParents_sound hsold fun hnone => ?_
      exact hkept id old hold hremains' (List.contains_iff_mem.mp hlost) (linkedParents_deleted hnone)
  · exact hsold

theorem SoundLicenses.delete {id : Nat} {s t : Store} (hs : SoundLicenses s)
    (hkept : DeletesNoLastParent [id] s) (h : deleteLicense id s = .ok t)
    : SoundLicenses t := by
  simp only [deleteLicense, bind_eq_ok, flush_eq_ok] at h
  obtain ⟨_, -, _, h, rfl, -⟩ := h
  exact hs.deleteLoaded hkept h

theorem SoundLicenses.bulkDelete {ids : List Nat} {s t : Store} (hs : SoundLicenses s)
    (hkept : DeletesNoLastParent (ids.filter (fun id => (s.license? id).isSome)) s)
    (h : bulkDeleteLicenses ids s = .ok t)
    : SoundLicenses t := by
  simp only [bulkDeleteLicenses] at h
  split at h
  · obtain rfl := pure_eq_ok.mp h
    exact hs
  · simp only [bind_eq_ok, flush_eq_ok] at h
    obtain ⟨_, h, rfl, -⟩ := h
    exact hs.deleteLoaded hkept h

theorem SoundLicenses.retireDueLicense {s : Store} (hs : SoundLicenses s) (id : Nat)
    : SoundLicenses (retireDueLicense s id) := by
  intro key l hl
  simp only [LicenseTrack.retireDueLicense] at hl
  by_cases hk : key = id
  · subst hk
    rw [Store.license?_modifyLicense_self] at hl
    obtain ⟨old, hold, rfl⟩ := Option.map_eq_some_iff.mp hl
    refine ⟨.of_unscheduled rfl, ?_⟩
    split at hold
    · simp only [retireMaintenanceLicense, Store.license?_modifyLicense_self,
        Store.license?_mapLicenses, Option.map_map, Option.map_eq_some_iff] at hold
      obtain ⟨stored, hstored, rfl⟩ := hold
      have hsound := hs key stored hstored
      simp only [Function.comp_apply]
      split
      · exact hsound.clearActive.tracked
      · exact hsound.tracked
    · rw [Store.license?_modifyLicense_self] at hold
      obtain ⟨stored, hstored, rfl⟩ := Option.map_eq_some_iff.mp hold
      exact (hs key stored hstored).tracked
  · rw [Store.license?_modifyLicense_ne _ _ hk] at hl
    split at hl
    · simp only [retireMaintenanceLicense] at hl
      rw [Store.license?_modifyLicense_ne _ _ hk, Store.license?_mapLicenses,
        Option.map_eq_some_iff] at hl
      obtain ⟨stored, hstored, rfl⟩ := hl
      have hsound := hs key stored hstored
      split
      · exact hsound.clearActive
      · exact hsound
    · rw [Store.license?_modifyLicense_ne _ _ hk] at hl
      exact hs key l hl

theorem SoundLicenses.retireDue {env : Env} {s t : Store} (hs : SoundLicenses s)
    (h : retireDueLicenses env s = .ok t)
    : SoundLicenses t := by
  simp only [retireDueLicenses, flush_eq_ok] at h
  obtain ⟨rfl, -⟩ := h
  have hdue := SoundLicenses.foldl (fun s id hs => SoundLicenses.retireDueLicense hs id)
    (s.licenses.select (fun _ l => l.isRetirementDue env.today)) hs
  refine hdue.mapLicenses fun id l hl hsound => ?_
  split
  · next hmem =>
      obtain ⟨row, hrow, hended⟩ := Table.mem_select.mp (List.contains_iff_mem.mp hmem)
      obtain rfl := Option.some.inj (hrow.symm.trans hl)
      refine ⟨.of_unscheduled ?_, hsound.tracked⟩
      simp only [License.isEndedOneOff, Bool.and_eq_true, Bool.not_eq_true'] at hended
      exact hended.1.1.2
  · exact hsound

-- Disabling maintenance

/-- No scheduled record has the given licence as its only linked parent. -/
def DisablesNoLastParent (parentId : Nat) (s : Store) : Prop :=
  ∀ id ∈ s.linkedRecords parentId, (∀ other ∈ s.linkedParents id, other = parentId) →
    ∀ l, s.license? id = some l → l.retirementScheduled = false

/-- What the records' turns leave: schedules as they were and, of the links, all those to other
parents.
-/
structure DisablingFrom (parentId : Nat) (s t : Store) : Prop where
  schedules : s.licenses.Agrees (·.retirementScheduled) t.licenses
  others : ∀ link ∈ s.links, link.parentLicenseId ≠ parentId → link ∈ t.links

theorem DisablingFrom.detach {parentId : Nat} {s t : Store} (h : DisablingFrom parentId s t)
    (id : Nat)
    : DisablingFrom parentId s (detachMaintenanceFromParent id parentId true t) := by
  constructor
  · refine (h.schedules.trans (Table.Agrees.of_modify fun l => ?_)).trans
      (Table.Agrees.of_modify fun l => ?_)
    · split <;> rfl
    · split <;> rfl
  · intro link hlink hother
    refine List.mem_filter.mpr ⟨h.others link hlink hother, ?_⟩
    have hne : link ≠ ⟨id, parentId⟩ := fun he => hother (he ▸ rfl)
    simpa using hne

theorem DisablingFrom.onlyParent {parentId : Nat} {s t : Store} {id : Nat}
    (h : DisablingFrom parentId s t)
    (hempty : ((detachMaintenanceFromParent id parentId true t).linkedParents id).isEmpty = true)
    : ∀ other ∈ s.linkedParents id, other = parentId := by
  have hdetached := h.detach id
  intro other hother
  obtain ⟨link, hlink, rfl⟩ := List.mem_map.mp hother
  obtain ⟨hmem, hrecord⟩ := List.mem_filter.mp hlink
  by_contra hne
  have hstays : link.parentLicenseId
      ∈ (detachMaintenanceFromParent id parentId true t).linkedParents id :=
    List.mem_map.mpr ⟨link,
      List.mem_filter.mpr ⟨hdetached.others link hmem hne, hrecord⟩, rfl⟩
  rw [List.isEmpty_iff.mp hempty] at hstays
  cases hstays

theorem DisablingFrom.record {parentId : Nat} {s t : Store} (h : DisablingFrom parentId s t)
    (id : Nat)
    : DisablingFrom parentId s (LicenseTrack.disableRecord parentId t id) := by
  have hdetached := h.detach id
  unfold LicenseTrack.disableRecord
  dsimp only
  split
  · exact ⟨hdetached.schedules.trans (Table.Agrees.of_modify fun _ => rfl), hdetached.others⟩
  · exact hdetached

theorem DisablingFrom.disableRecord {parentId : Nat} {s t : Store} {id : Nat}
    (h : DisablingFrom parentId s t) (hkept : DisablesNoLastParent parentId s)
    (hid : id ∈ s.linkedRecords parentId) (ht : SoundLicenses t)
    : SoundLicenses (disableRecord parentId t id) := by
  have hdetached := h.detach id
  have hsound := ht.detach id parentId true
  unfold LicenseTrack.disableRecord
  dsimp only
  split
  · next hempty =>
      have honly := h.onlyParent hempty
      refine hsound.modify fun l hl h => ?_
      obtain ⟨old, hold, hs⟩ := Table.Agrees.back hdetached.schedules hl
      have hunscheduled : l.retirementScheduled = false :=
        hs.trans (hkept id hid honly old hold)
      exact ⟨.of_unscheduled hunscheduled, h.tracked⟩
  · exact hsound

theorem DisablingFrom.of_history (parentId : Nat) (s : Store) (history : Table CoverageHistory)
    : DisablingFrom parentId s { s with history := history } :=
  ⟨Table.Agrees.refl _ _, fun _ hlink _ => hlink⟩

theorem SoundLicenses.disable {parentId : Nat} {s : Store} (hs : SoundLicenses s)
    (hkept : DisablesNoLastParent parentId s) (u : Unicode)
    : SoundLicenses (disableMaintenanceForParent u parentId s) := by
  obtain ⟨history, he, -⟩ := snapshotBeforeSwitch_eq u parentId s
  -- By induction on the records that are still to be detached.
  have hall : ∀ (records : List Nat) (t : Store), (∀ id ∈ records, id ∈ s.linkedRecords parentId) →
      DisablingFrom parentId s t → SoundLicenses t →
      SoundLicenses (records.foldl (disableRecord parentId) t) := by
    intro records
    induction records with
    | nil => exact fun t _ _ ht => ht
    | cons head rest ih =>
        intro t hrecords hd ht
        have ht' := hd.disableRecord hkept (hrecords head List.mem_cons_self) ht
        exact ih _ (fun id hid => hrecords id (List.mem_cons_of_mem _ hid)) (hd.record head) ht'
  simp only [disableMaintenanceForParent, he]
  have hstart := DisablingFrom.of_history parentId s history
  refine (hall (s.linkedRecords parentId) _ (fun _ hid => hid) hstart (hs.of_licenses rfl)).modify
    fun l _ h => ?_
  exact h.clearActive

/-- The operations that write the retirement columns, each where it keeps them exclusive: no
scheduled record may be retired beside its schedule or lose its last parent.
-/
def KeepsRetirementApart (s : Store) : Request → Prop
  | .create _ | .createBatch _ | .update _ _ | .patch _ _ | .retireDue => True
  | .retireMaintenance id => ∀ l, s.license? id = some l → l.retirementScheduled = false
  | .disableMaintenance parentId => DisablesNoLastParent parentId s
  | .delete id => DeletesNoLastParent [id] s
  | .bulkDelete ids => DeletesNoLastParent (ids.filter (fun id => (s.license? id).isSome)) s
  | _ => False

theorem SoundLicenses.run {env : Env} {request : Request} {s t : Store} (hs : SoundLicenses s)
    (hadmitted : KeepsRetirementApart s request) (h : request.run env s = .ok t)
    : SoundLicenses t := by
  cases request with
  | create payload =>
      simp only [Request.run, createLicense, bind_eq_ok, flush_eq_ok] at h
      obtain ⟨⟨id, v⟩, hrecord, rfl, -⟩ := h
      exact hs.createRecord hrecord
  | createBatch items =>
      simp only [Request.run, createLicenseBatch, bind_eq_ok, flush_eq_ok] at h
      obtain ⟨v, hlines, rfl, -⟩ := h
      exact hs.createBatchLines hlines
  | update id payload => exact hs.update h
  | patch id change => exact hs.patch h
  | delete id => exact hs.delete hadmitted h
  | bulkDelete ids => exact hs.bulkDelete hadmitted h
  | retireMaintenance id =>
      obtain ⟨rfl, -⟩ := flush_eq_ok.mp h
      exact hs.retire hadmitted
  | disableMaintenance parentId =>
      obtain ⟨rfl, -⟩ := flush_eq_ok.mp h
      exact hs.disable hadmitted env.unicode
  | retireDue => exact hs.retireDue h
  | _ => exact hadmitted.elim

/-- A request with the surroundings in which it is made. -/
abbrev DatedRequest := Env × Request

end LicenseTrack
