import LicenseTrack.Orders.OneCurrency
import LicenseTrack.Retirement.UnderRenewal

/-! Which requests keep licences under renewal from being retired, and the runs that are made
of them: an update checks that the licence is not under renewal, and the daily job, the
operations on maintenance and the deletions do not.
-/

namespace LicenseTrack

open Library

theorem normalized_leaving {today : Date} {retired scheduled given : Bool}
    {requested : Option Bool} {endDate : Option Date}
    (h : let update := normalizeRetirementUpdate today scheduled requested endDate given
      (update.isRetired.getD retired || update.retirementScheduled.getD scheduled) = true)
    : (retired || scheduled) = true ∨ requested = some true := by
  cases requested with
  | some value =>
      cases value with
      | true => exact .inr rfl
      | false => simp [normalizeRetirementUpdate] at h
  | none =>
      left
      cases scheduled with
      | true => simp
      | false => simpa [normalizeRetirementUpdate] using h

/-- What an update checks of the renewal of its licence. -/
structure LicenseUpdate.Guarded (p : LicenseUpdate) (id : Nat) (s : Store) (l : License)
    : Prop where
  renewal : ¬ (p.isRetired = some true ∧ l.isRetired = false ∧ renewalInProgress s id l = true)
  lifecycle : p.lifecycleStatus = some (some .pendingRenewal) →
    l.lifecycleStatus = some .pendingRenewal

theorem validateGeneralLicenseUpdateFields_pending {p : LicenseUpdate} {l : License}
    (h : validateGeneralLicenseUpdateFields p l = .ok ⟨⟩)
    (hp : p.lifecycleStatus = some (some .pendingRenewal))
    : l.lifecycleStatus = some .pendingRenewal := by
  simp only [validateGeneralLicenseUpdateFields, hp, bind_eq_ok, require_eq_ok] at h
  obtain ⟨_, -, _, -, hallowed⟩ := h
  cases hallowed with
  | inl hsame => exact hsame.symm
  | inr htoggled => simp at htoggled

theorem applyLicenseUpdate_guarded {env : Env} {id : Nat} {p : LicenseUpdate} {s t : Store}
    {l : License} (hl : s.license? id = some l) (h : applyLicenseUpdate env id p s = .ok t)
    : p.Guarded id s l := by
  simp only [applyLicenseUpdate, bind_eq_ok, found_eq_ok] at h
  obtain ⟨stored, hstored, ⟨details, v⟩, hrefs, h⟩ := h
  obtain rfl := Option.some.inj (hl.symm.trans hstored)
  have hv := resolveLicenseReferenceUpdates_only hrefs
  replace h := of_optional_check (of_optional_check h)
  simp only [bind_eq_ok, require_eq_ok] at h
  obtain ⟨_, hrenewal, _, hgeneral, -⟩ := h
  constructor
  · simpa only [renewalInProgress, hasOpenSupportRenewal, hv.items, hv.licenses] using hrenewal
  · exact validateGeneralLicenseUpdateFields_pending hgeneral

theorem LicenseUpdate.Guarded.writeRow {p : LicenseUpdate} {id : Nat} {s : Store} {l : License}
    (h : p.Guarded id s l) (hl : s.license? id = some l) (env : Env) (details : LicenseDetails)
    (override : Option String)
    : RowKept (NotUnderRenewal s id) l
        (p.writeRow details (p.writeTerms l) override (p.retirement env l) l) := by
  constructor
  · intro hpending
    change p.lifecycleStatus.getD l.lifecycleStatus = some .pendingRenewal at hpending
    cases hstatus : p.lifecycleStatus with
    | none => rwa [hstatus] at hpending
    | some status =>
        rw [hstatus] at hpending
        apply h.lifecycle
        rw [hstatus]
        exact congrArg some hpending
  · intro hleaving
    by_cases hretired : l.isRetired = true
    · left
      simp [License.leaving, hretired]
    · cases normalized_leaving hleaving with
      | inl hbefore => exact .inl hbefore
      | inr hrequested =>
          right
          intro stored hstored
          obtain rfl := Option.some.inj (hl.symm.trans hstored)
          rw [Bool.eq_false_iff]
          intro hrenewal
          exact h.renewal ⟨hrequested, by simpa using hretired, hrenewal⟩

namespace RenewalsKept

variable {env : Env} {id : Nat} {s t : Store}

/-- An update retires its licence only if that is not under renewal. -/
theorem update {p : LicenseUpdate} (h : updateLicense env id p s = .ok t)
    : RenewalsKept (NotUnderRenewal s) s t := by
  simp only [updateLicense, bind_eq_ok, flush_eq_ok] at h
  obtain ⟨p, -, _, h, rfl, -⟩ := h
  obtain ⟨l, hran⟩ := applyLicenseUpdate_ran h
  have hguarded := applyLicenseUpdate_guarded hran.stored h
  obtain ⟨details, v, hrefs, -, w, hw, -, reconciled, hreconciled, rfl⟩ := hran.ran
  have hv := resolveLicenseReferenceUpdates_only hrefs
  have hrow : RenewalsKept (NotUnderRenewal s) s (p.writtenRow env id l details v) := by
    unfold LicenseUpdate.writtenRow
    dsimp only
    have hstored : v.license? id = some l := by
      rw [Store.license?, hv.licenses]
      exact hran.stored
    have hsnapshot : (if p.licenseType.isSome then
          snapshotIncludedSupportBeforeTypeChange id (p.writeTerms l).licenseType v
        else v).license? id = some l ∧ RenewalsKept (NotUnderRenewal s) s
          (if p.licenseType.isSome then
            snapshotIncludedSupportBeforeTypeChange id (p.writeTerms l).licenseType v
          else v) := by
      split
      · constructor
        · rwa [Store.license?, snapshotIncludedSupportBeforeTypeChange_licenses]
        · exact (of_references hv).trans (snapshotBeforeTypeChange id _ v).of_nobody
      · exact ⟨hstored, of_references hv⟩
    generalize (if p.licenseType.isSome = true then
        snapshotIncludedSupportBeforeTypeChange id (p.writeTerms l).licenseType v
      else v) = snapshot at hsnapshot ⊢
    have hmodified : RenewalsKept (NotUnderRenewal s) snapshot
        (snapshot.modifyLicense id (p.writeRow details (p.writeTerms l)
          (p.override env id l v) (p.retirement env l))) := by
      apply modify
      · intro row
        rfl
      · intro row hrow
        obtain rfl := Option.some.inj (hsnapshot.1.symm.trans hrow)
        exact hguarded.writeRow hran.stored env details _
    have hwritten := hsnapshot.2.trans hmodified
    split
    · exact hwritten.trans (of_numbers (syncLicenseLine_only env.unicode id none _))
    · exact hwritten
  have hsupport : RenewalsKept (NotUnderRenewal s) s (p.written env id l details v) :=
    (hrow.trans (syncSupport env.unicode id _).of_nobody).trans
      (includedSupportExit env.unicode id l.maintenanceCoverage _).of_nobody
  have hcontract : RenewalsKept (NotUnderRenewal s) s w := by
    cases hw with
    | inl hsame => exact hsame ▸ hsupport
    | inr hresolved =>
        obtain ⟨contract, -, rfl⟩ := hresolved
        exact hsupport.trans (.modify_same fun _ => rfl)
  have hrelated := hcontract.trans (reconcile hreconciled).of_nobody
  exact hrelated.trans (syncActive env.unicode id reconciled).of_nobody

/-- What a patched field leaves of the renewals. -/
theorem patchField {u : Unicode} {patch : LicensePatch} {l : License}
    (h : LicenseTrack.patchField u id patch l s = .ok t)
    : RenewalsKept nobody s t := by
  cases patch with
  | plain field value =>
      obtain rfl := Except.ok.inj h
      exact .modify_same fun l => by cases field <;> rfl
  | licenseMetric value =>
      obtain rfl := Except.ok.inj h
      exact .modify_same fun _ => rfl
  | date field value =>
      simp only [LicenseTrack.patchField, bind_eq_ok, pure_eq_ok] at h
      obtain ⟨_, -, rfl⟩ := h
      exact .modify_same fun l => by cases field <;> rfl
  | time field value =>
      obtain rfl := Except.ok.inj h
      exact .modify_same fun l => by cases field <;> rfl
  | licenseType value =>
      simp only [LicenseTrack.patchField, bind_eq_ok, pure_eq_ok] at h
      obtain ⟨newType, -, _, -, rfl⟩ := h
      exact (snapshotBeforeTypeChange id newType s).trans (.modify_same fun _ => rfl)
  | maintenanceCoverage value =>
      simp only [LicenseTrack.patchField, bind_eq_ok, pure_eq_ok] at h
      obtain ⟨coverage, -, _, -, rfl⟩ := h
      have hcoverage : RenewalsKept nobody s
          (s.modifyLicense id (fun l => { l with maintenanceCoverage := coverage })) :=
        .modify_same fun _ => rfl
      exact hcoverage.trans (includedSupportExit u id l.maintenanceCoverage _)
  | contractNumber value =>
      simp only [LicenseTrack.patchField, bind_eq_ok, pure_eq_ok] at h
      obtain ⟨contract, -, rfl⟩ := h
      have hnumber : RenewalsKept nobody s
          (s.modifyLicense id (fun l => { l with contractNumber := value.getD "" })) :=
        .modify_same fun _ => rfl
      exact hnumber.trans (.modify_same fun _ => rfl)
  | invoiceNumber value =>
      obtain rfl := Except.ok.inj h
      exact .modify_same fun _ => rfl
  | poNumber value =>
      obtain rfl := Except.ok.inj h
      refine RenewalsKept.trans ?_ (of_numbers (syncLicenseLine_only u id none _))
      exact .modify_same fun _ => rfl
  | currency value =>
      obtain rfl := Except.ok.inj h
      exact .modify_same fun _ => rfl
  | reference field value =>
      have hwritten : ∀ details v, OnlyReferences s v →
          RenewalsKept nobody s (v.modifyLicense id (·.withDetails details)) := by
        intro details v hv
        exact (of_references hv).trans (.modify_same fun _ => rfl)
      cases field
      all_goals
        simp only [LicenseTrack.patchField, patchReference, bind_eq_ok, pure_eq_ok] at h
        obtain ⟨⟨details, v⟩, hresolve, rfl⟩ := h
      · exact hwritten details v (resolvePublisher_only hresolve)
      · exact hwritten details v (resolveSupplier_only hresolve)
      · exact hwritten details v (resolveCostCentreField_only hresolve)

theorem patch {patch : LicensePatch} (h : patchLicense env id patch s = .ok t)
    : RenewalsKept nobody s t := by
  simp only [patchLicense, applyLicenseFieldPatch, bind_eq_ok, flush_eq_ok, found_eq_ok] at h
  obtain ⟨_, ⟨_, -, l, hl, patched, hpatched, row, hrow, h⟩, rfl, -⟩ := h
  replace h := pure_eq_ok.mp (of_optional_check h)
  have hrescheduled : RenewalsKept nobody patched (patched.modifyLicense id (fun row =>
      syncSupportDefaults env.unicode
        (if l.endDate ≠ row.endDate then row.rescheduled env.today else row))) := by
    apply modify
    · intro row
      split <;> rfl
    · intro row _
      split
      · exact ⟨fun hp => hp, fun hleaving => (normalized_leaving hleaving).imp_right (by simp)⟩
      · exact .of_standing rfl
  have hpatch := (patchField hpatched).trans hrescheduled
  subst h
  refine RenewalsKept.trans ?_ (syncActive env.unicode id _)
  split
  · next hretired => exact hpatch.trans (retire_retired hrow hretired.1)
  · exact hpatch

end RenewalsKept

namespace RenewalsKept

theorem retireDueLicense (id : Nat) (s : Store)
    : RenewalsKept (· = id) s (LicenseTrack.retireDueLicense s id) := by
  unfold LicenseTrack.retireDueLicense
  dsimp only
  apply RenewalsKept.trans
  · show RenewalsKept (· = id) s
      (if (s.license? id).any (·.licenseType == .maintenance) then retireMaintenanceLicense id s
        else s.modifyLicense id (fun l => { l with isRetired := true }))
    split
    · exact retire id s
    · apply modify
      · intro l
        rfl
      · intro l _
        exact ⟨fun hp => hp, fun _ => .inr rfl⟩
  · apply modify
    · intro l
      rfl
    · intro l _
      exact ⟨fun hp => hp, fun _ => .inr rfl⟩

end RenewalsKept

theorem retireDueLicense_only (id : Nat) (s : Store)
    : OnlyMaintenance s (retireDueLicense s id) := by
  unfold retireDueLicense
  dsimp only
  split
  · exact (retireMaintenanceLicense_only id s).trans (.of_modify fun _ => rfl)
  · apply OnlyMaintenance.trans (t := s.modifyLicense id (fun l => { l with isRetired := true }))
    · exact .of_modify fun _ => rfl
    · exact .of_modify fun _ => rfl

/-- No ended one-off licence is under renewal. -/
def EndsNoneUnderRenewal (today : Date) (s : Store) : Prop :=
  ∀ id l, s.license? id = some l → l.isEndedOneOff today = true → renewalInProgress s id l = false

theorem NoneLeavingUnderRenewal.retireDue {env : Env} {s t : Store}
    (hs : NoneLeavingUnderRenewal s) (hends : EndsNoneUnderRenewal env.today s)
    (h : retireDueLicenses env s = .ok t)
    : NoneLeavingUnderRenewal t := by
  simp only [retireDueLicenses, flush_eq_ok] at h
  obtain ⟨rfl, -⟩ := h
  let due := s.licenses.select (fun _ l => l.isRetirementDue env.today)
  have hdue : RenewalsKept (NotUnderRenewal s) s (due.foldl retireDueLicense s) := by
    apply RenewalsKept.foldl
    intro id hid v
    obtain ⟨l, hl, hended⟩ := Table.mem_select.mp hid
    apply (RenewalsKept.retireDueLicense id v).mono
    intro key hkey stored hstored
    subst hkey
    obtain rfl := Option.some.inj (hl.symm.trans hstored)
    apply hs key l hl
    simp only [License.isRetirementDue, Bool.and_eq_true] at hended
    simp [License.leaving, hended.1]
  have honly := OnlyMaintenance.foldl (fun v id => retireDueLicense_only id v) due s
  change NoneLeavingUnderRenewal ((due.foldl retireDueLicense s).mapLicenses _)
  generalize due.foldl retireDueLicense s = v at hdue honly ⊢
  apply NoneLeavingUnderRenewal.kept (hs.kept hdue)
  apply RenewalsKept.mapLicenses
  · intro id l
    split <;> rfl
  · intro id l hl
    split
    · next hmem =>
        -- A licence that ends now was leaving before or ended as it is now.
        obtain ⟨row, hrow, hended⟩ := Table.mem_select.mp (List.contains_iff_mem.mp hmem)
        obtain rfl := Option.some.inj (hrow.symm.trans hl)
        obtain ⟨old, hold, hkept⟩ := hdue.rows id row hl
        obtain ⟨core, hcore, he⟩ := Table.Agrees.back honly.core hl
        obtain rfl := Option.some.inj (hcore.symm.trans hold)
        have hclear : renewalInProgress v id row = false := by
          apply hdue.clear hkept
          by_cases hleaving : core.leaving = true
          · exact hs id core hold hleaving
          · apply hends id core hold
            have hterms := License.core_terms he
            have hchain := License.core_chain he
            simp only [License.leaving, Bool.or_eq_true, not_or, Bool.not_eq_true] at hleaving
            simp only [License.isEndedOneOff, hterms, hchain, Bool.and_eq_true] at hended ⊢
            simp [hended, hleaving]
        refine ⟨fun hp => hp, fun _ => .inr ?_⟩
        intro stored hstored
        obtain rfl := Option.some.inj (hl.symm.trans hstored)
        exact hclear
    · exact .of_standing rfl

/-- A record that loses its only parent when a parent's maintenance is disabled. -/
def DisablesRecord (parentId : Nat) (s : Store) (id : Nat) : Prop :=
  id ∈ s.linkedRecords parentId ∧ ∀ other ∈ s.linkedParents id, other = parentId

theorem RenewalsKept.disableRecord {parentId : Nat} {s t : Store} {id : Nat}
    (h : DisablingFrom parentId s t) (hid : id ∈ s.linkedRecords parentId)
    : RenewalsKept (DisablesRecord parentId s) t (LicenseTrack.disableRecord parentId t id) := by
  have hdetached : RenewalsKept (DisablesRecord parentId s) t
      (detachMaintenanceFromParent id parentId true t) := (detach id parentId true t).of_nobody
  unfold LicenseTrack.disableRecord
  dsimp only
  split
  · next hempty =>
      refine hdetached.trans (modify ?_ ?_)
      · intro l
        rfl
      · intro l _
        exact ⟨fun hp => hp, fun _ => .inr ⟨hid, h.onlyParent hempty⟩⟩
  · exact hdetached

theorem RenewalsKept.disable (u : Unicode) (parentId : Nat) (s : Store)
    : RenewalsKept (DisablesRecord parentId s) s (disableMaintenanceForParent u parentId s) := by
  obtain ⟨history, he, -⟩ := snapshotBeforeSwitch_eq u parentId s
  -- By induction on the records that are still to be detached.
  have hall : ∀ (records : List Nat) (t : Store), (∀ id ∈ records, id ∈ s.linkedRecords parentId) →
      DisablingFrom parentId s t →
      RenewalsKept (DisablesRecord parentId s) t
        (records.foldl (LicenseTrack.disableRecord parentId) t) := by
    intro records
    induction records with
    | nil =>
        intro t _ _
        exact .refl t
    | cons head rest ih =>
        intro t hrecords ht
        have hhead := RenewalsKept.disableRecord ht (hrecords head List.mem_cons_self)
        exact hhead.trans
          (ih _ (fun id hid => hrecords id (List.mem_cons_of_mem _ hid)) (ht.record head))
  have hstart := DisablingFrom.of_history parentId s history
  have hrecords := hall (s.linkedRecords parentId) _ (fun _ hid => hid) hstart
  have hhistory : RenewalsKept (DisablesRecord parentId s) s { s with history := history } :=
    .of_eq rfl rfl
  simp only [disableMaintenanceForParent, he]
  exact (hhistory.trans hrecords).trans (.modify_same fun _ => rfl)

-- Deletion

/-- A store as the lines' conversions are read once licences are deleted. -/
def Store.withoutLicenses (s : Store) (ids : List Nat) : Store :=
  { s with licenses := s.licenses.filter (fun id _ => !ids.contains id) }

/-- A record that is retired when licences are deleted, because it keeps no parent. -/
def LosesLastParent (ids : List Nat) (s : Store) (id : Nat) : Prop :=
  id ∈ maintenanceOfDeleted s ids ∧ ∀ parentId ∈ s.linkedParents id, parentId ∈ ids

/-- The licences that stay and are or become leaving are under no renewal, and no line of theirs
is opened again by the deletion of the licence that it has become.
-/
def DeletesSpareRenewals (ids : List Nat) (s : Store) : Prop :=
  ∀ id l, s.license? id = some l → id ∉ ids → (l.leaving = true ∨ LosesLastParent ids s id) →
    renewalInProgress (s.withoutLicenses ids) id l = false

theorem withoutReferences_standing (ids : List Nat) (l : License)
    : (l.withoutReferences ids).renewalStanding = l.renewalStanding := by
  unfold License.withoutReferences
  dsimp only
  split <;> rfl

theorem withRemainingParents_kept {retired : Prop} {remaining : List Nat} {child : License}
    (h : remaining = [] → retired)
    : RowKept retired child (child.withRemainingParents remaining)
      ∧ (child.withRemainingParents remaining).sourceSourcingItemId = child.sourceSourcingItemId
    := by
  unfold License.withRemainingParents
  split
  · exact ⟨⟨fun hp => hp, fun _ => .inr (h rfl)⟩, rfl⟩
  · split
    · exact ⟨.of_standing rfl, rfl⟩
    · exact ⟨.of_standing rfl, rfl⟩

theorem preparedForDelete_kept {ids : List Nat} {s : Store} {id : Nat} (old : License)
    : let prepared := if (maintenanceOfDeleted s ids).contains id then
        old.withRemainingParents
          (((s.linkedParents id).filter (fun parentId => !ids.contains parentId)).mergeSort)
      else old
      RowKept (LosesLastParent ids s id) old prepared
        ∧ prepared.sourceSourcingItemId = old.sourceSourcingItemId := by
  dsimp only
  split
  · next hlost =>
      apply withRemainingParents_kept
      intro hnone
      exact ⟨List.contains_iff_mem.mp hlost, linkedParents_deleted hnone⟩
  · exact ⟨.of_standing rfl, rfl⟩

/-- What a deletion leaves: the other licences, which it retires only where they lose their last
parent, and the lines, which name nothing new.
-/
structure DeletedFrom (ids : List Nat) (s t : Store) : Prop where
  back : ∀ id new, t.license? id = some new → ∃ old, s.license? id = some old ∧ id ∉ ids
    ∧ RowKept (LosesLastParent ids s id) old new
  forth : ∀ id old, s.license? id = some old → id ∉ ids → ∃ new, t.license? id = some new
    ∧ new.sourceSourcingItemId = old.sourceSourcingItemId
  lines : ∀ itemId row, t.items.get? itemId = some row → ∃ item, s.items.get? itemId = some item
    ∧ row.status = item.status
    ∧ ∀ id, row.maintenanceParentLicenseId = some id → item.maintenanceParentLicenseId = some id

theorem DeletedFrom.of_deleteLoaded {ids : List Nat} {s t : Store}
    (h : deleteLoadedLicenseRecords ids s = .ok t)
    : DeletedFrom ids s t := by
  simp only [deleteLoadedLicenseRecords, bind_eq_ok, flush_eq_ok, pure_eq_ok] at h
  obtain ⟨_, -, flushed, ⟨rfl, -⟩, rfl⟩ := h
  constructor
  · intro id new hnew
    simp only [cascadeDelete, Store.license?, Store.mapLicenses, Table.get?_filter,
      Table.get?_mapRows, prepareMaintenanceRelationshipsForDelete, Store.deleteLinks,
      Option.map_map] at hnew
    rw [Option.filter_eq_some_iff, Option.map_eq_some_iff] at hnew
    obtain ⟨⟨old, hold, rfl⟩, hremains⟩ := hnew
    have hstays : id ∉ ids := by simpa using hremains
    have hcontains : ids.contains id = false := by simpa using hstays
    refine ⟨old, hold, hstays, ?_⟩
    simp only [Function.comp_apply, hcontains, Bool.false_eq_true, if_false, false_and]
    exact (preparedForDelete_kept old).1.trans
      (.of_standing (withoutReferences_standing ids _))
  · intro id old hold hstays
    have hcontains : ids.contains id = false := by simpa using hstays
    simp only [cascadeDelete, Store.license?, Store.mapLicenses, Table.get?_filter,
      Table.get?_mapRows, prepareMaintenanceRelationshipsForDelete, Store.deleteLinks,
      Option.map_map]
    simp only [Store.license?] at hold
    refine ⟨_, Option.filter_eq_some_iff.mpr ⟨Option.map_eq_some_iff.mpr ⟨old, hold, rfl⟩, ?_⟩, ?_⟩
    · simpa using hstays
    · simp only [Function.comp_apply, hcontains, Bool.false_eq_true, if_false, false_and]
      exact (congrArg (·.2.2.2) (withoutReferences_standing ids _)).trans
        (preparedForDelete_kept old).2
  · intro itemId row hrow
    simp only [cascadeDelete, Store.mapLicenses, Table.get?_mapRows,
      prepareMaintenanceRelationshipsForDelete, Store.deleteLinks, Option.map_map,
      Option.map_eq_some_iff, Function.comp_apply] at hrow
    obtain ⟨item, hitem, rfl⟩ := hrow
    have hdetached : (item.detached ids).status = item.status
        ∧ (item.detached ids).maintenanceParentLicenseId = item.maintenanceParentLicenseId := by
      unfold SourcingItem.detached
      split
      · exact ⟨rfl, rfl⟩
      · exact ⟨rfl, rfl⟩
    refine ⟨item, hitem, ?_⟩
    split
    · exact ⟨hdetached.1, fun id hnone => by cases hnone⟩
    · exact ⟨hdetached.1, fun id hparent => hdetached.2.symm.trans hparent⟩

theorem NoneLeavingUnderRenewal.delete {ids : List Nat} {s t : Store}
    (hspared : DeletesSpareRenewals ids s) (h : DeletedFrom ids s t)
    : NoneLeavingUnderRenewal t := by
  intro id new hnew hleaving
  obtain ⟨old, hold, hstays, hrow⟩ := h.back id new hnew
  have hclear := hspared id old hold hstays (hrow.leaving hleaving)
  obtain ⟨hstatus, hclosed⟩ := renewalInProgress_eq_false.mp hclear
  apply renewalInProgress_eq_false.mpr
  constructor
  · intro hpending
    exact hstatus (hrow.pending hpending)
  · intro hopen
    apply hclosed
    rw [hasOpenSupportRenewal_iff] at hopen ⊢
    obtain ⟨itemId, row, hitem, hparent, hopened, hunconverted⟩ := hopen
    obtain ⟨item, hstored, hsame, hnames⟩ := h.lines itemId row hitem
    refine ⟨itemId, item, hstored, hnames id hparent, hsame ▸ hopened, ?_⟩
    -- A remaining licence that the line became would be one afterwards too.
    intro key l hl hsource
    simp only [Store.withoutLicenses, Store.license?, Table.get?_filter,
      Option.filter_eq_some_iff] at hl
    obtain ⟨hkey, hremains⟩ := hl
    obtain ⟨after, hafter, he⟩ := h.forth key l hkey (by simpa using hremains)
    exact hunconverted key after hafter (he.trans hsource)

-- Starts of renewals

/-- What an open support renewal reads of its line. -/
def SourcingItem.supportNaming (item : SourcingItem) : SourcingStatus × Option Nat :=
  (item.status, item.maintenanceParentLicenseId)

theorem ensureSourcingRequestForItem_lines {u : Unicode} {itemId requestId : Nat}
    {item : SourcingItem} {s t : Store}
    (h : ensureSourcingRequestForItem u itemId item s = .ok (requestId, t))
    : t.licenses = s.licenses ∧ s.items.Agrees SourcingItem.supportNaming t.items := by
  simp only [ensureSourcingRequestForItem, bind_eq_ok] at h
  obtain ⟨⟨resolved, v⟩, hresolved, h⟩ := h
  have hv := (resolveSourcingItemReferences_ok hresolved).1
  split at h
  · simp only [bind_eq_ok, pure_eq_ok, Prod.mk.injEq] at h
    obtain ⟨w, hw, -, rfl⟩ := h
    obtain ⟨hitems, -, hlicenses⟩ := resolveRequestSupplier_ok hw
    refine ⟨hlicenses.trans hv.licenses, ?_⟩
    rw [← hv.items, ← hitems]
    exact Table.Agrees.of_modify fun _ => rfl
  · obtain ⟨-, rfl⟩ := Prod.mk.inj (pure_eq_ok.mp h)
    refine ⟨hv.licenses, ?_⟩
    rw [← hv.items]
    exact Table.Agrees.of_modify fun _ => rfl

theorem addLineWithRequest_ok {u : Unicode} {item : SourcingItem} {s t : Store}
    (h : addLineWithRequest u item s = .ok t)
    : t.licenses = s.licenses
      ∧ ∀ itemId row, t.items.get? itemId = some row →
        row.maintenanceParentLicenseId = item.maintenanceParentLicenseId
          ∨ ∃ old, s.items.get? itemId = some old ∧ row.status = old.status
            ∧ row.maintenanceParentLicenseId = old.maintenanceParentLicenseId := by
  simp only [addLineWithRequest, bind_eq_ok, pure_eq_ok] at h
  obtain ⟨⟨requestId, v⟩, hrequest, rfl⟩ := h
  have hensured := ensureSourcingRequestForItem_lines hrequest
  refine ⟨hensured.1, ?_⟩
  intro itemId row hrow
  obtain ⟨old, hold, he⟩ := Table.Agrees.back hensured.2 hrow
  rw [Table.get?_insert] at hold
  split at hold
  · obtain rfl := Option.some.inj hold
    exact .inl (congrArg (·.2) he)
  · exact .inr ⟨old, hold, congrArg (·.1) he, congrArg (·.2) he⟩

theorem addLineWithRequest_opens {u : Unicode} {item : SourcingItem} {s t : Store}
    (h : addLineWithRequest u item s = .ok t) {id : Nat}
    (hother : item.maintenanceParentLicenseId ≠ some id)
    (hopen : hasOpenSupportRenewal t id = true)
    : hasOpenSupportRenewal s id = true := by
  obtain ⟨hlicenses, hlines⟩ := addLineWithRequest_ok h
  rw [hasOpenSupportRenewal_iff] at hopen ⊢
  obtain ⟨itemId, row, hrow, hparent, hopened, hunconverted⟩ := hopen
  cases hlines itemId row hrow with
  | inl hadded => exact absurd (hadded.symm.trans hparent) hother
  | inr hstored =>
      obtain ⟨old, hold, hstatus, hsame⟩ := hstored
      refine ⟨itemId, old, hold, hsame.symm.trans hparent, hstatus ▸ hopened, ?_⟩
      intro key l hl
      rw [Store.license?, ← hlicenses] at hl
      exact hunconverted key l hl

theorem NoneLeavingUnderRenewal.initiate {env : Env} {calendar : Calendar} {id : Nat}
    {s t : Store} (hs : NoneLeavingUnderRenewal s)
    (h : initiateLicenseRenewal env calendar id s = .ok t)
    : NoneLeavingUnderRenewal t := by
  simp only [initiateLicenseRenewal, reserveRenewalTransition, buildRenewalSourcingItem,
    bind_eq_ok, found_eq_ok, require_eq_ok, pure_eq_ok, flush_eq_ok] at h
  obtain ⟨l, hl, _, hallowed, v, ⟨_, hreserved, rfl⟩, item, ⟨_, -, rfl⟩, added, hadded, rfl, -⟩ := h
  obtain ⟨hlicenses, -⟩ := addLineWithRequest_ok hadded
  intro key new hnew hleaving
  rw [Store.license?, hlicenses] at hnew
  change ((s.modifyLicense id _).license? key) = some new at hnew
  rw [Store.license?_modifyLicense] at hnew
  obtain ⟨old, hold, rfl⟩ := Option.map_eq_some_iff.mp hnew
  by_cases hk : key = id
  · -- The licence whose renewal starts is neither retired nor scheduled.
    subst hk
    rw [if_pos rfl] at hleaving
    rw [hold] at hreserved
    simp [License.leaving] at hreserved hleaving
    simp [hreserved] at hleaving
  · rw [if_neg hk] at hleaving ⊢
    obtain ⟨hstatus, hclosed⟩ := renewalInProgress_eq_false.mp (hs key old hold hleaving)
    apply renewalInProgress_eq_false.mpr
    refine ⟨hstatus, ?_⟩
    intro hopen
    have hbefore := addLineWithRequest_opens hadded (by simp) hopen
    apply hclosed
    refine hasOpenSupportRenewal_of_agrees ?_ ?_ hbefore
    · rfl
    · exact Table.Agrees.of_modify fun _ => rfl

theorem NoneLeavingUnderRenewal.startSupport {env : Env} {calendar : Calendar} {id : Nat}
    {s t : Store} (hs : NoneLeavingUnderRenewal s)
    (h : startSupportRenewal env calendar id s = .ok t)
    : NoneLeavingUnderRenewal t := by
  simp only [startSupportRenewal, bind_eq_ok, found_eq_ok, require_eq_ok, flush_eq_ok] at h
  obtain ⟨parent, hparent, _, -, _, -, finish, -, _, hstays, _, -, added, hadded, rfl, -⟩ := h
  obtain ⟨hlicenses, -⟩ := addLineWithRequest_ok hadded
  intro key new hnew hleaving
  rw [Store.license?, hlicenses] at hnew
  change s.license? key = some new at hnew
  by_cases hk : key = id
  · subst hk
    obtain rfl := Option.some.inj (hparent.symm.trans hnew)
    simp only [License.leaving, Bool.or_eq_true] at hleaving
    exact absurd (hleaving.elim .inl (.inr ∘ .inl)) hstays
  · obtain ⟨hstatus, hclosed⟩ := renewalInProgress_eq_false.mp (hs key new hnew hleaving)
    apply renewalInProgress_eq_false.mpr
    refine ⟨hstatus, ?_⟩
    intro hopen
    apply hclosed
    apply addLineWithRequest_opens hadded _ hopen
    simpa [supportRenewalItem] using Ne.symm hk

-- Runs

/-- Whether a turn starts a renewal, updates, patches, retires or deletes licences, or stops
maintenance.
-/
def RenewalTurn.touchesRetirement : RenewalTurn → Bool
  | .initiate .. | .startSupport .. => true
  | .request (.update ..) | .request (.patch ..) | .request (.delete _) => true
  | .request (.bulkDelete _) | .request (.retireMaintenance _) => true
  | .request (.disableMaintenance _) | .request .retireDue => true
  | _ => false

/-- The turns that retire no licence under renewal. Starts of renewals, updates and patches check
this themselves; the daily job must find no ended one-off licence under renewal, a record that is
retired must be under none, and a deletion must leave renewals to licences that stay.
-/
def SparesRenewals (s : Store) (turn : Env × RenewalTurn) : Prop :=
  turn.2.touchesRetirement = true ∧
    match turn.2 with
    | .request .retireDue => EndsNoneUnderRenewal turn.1.today s
    | .request (.retireMaintenance id) => NotUnderRenewal s id
    | .request (.disableMaintenance parentId) =>
        ∀ id, DisablesRecord parentId s id → NotUnderRenewal s id
    | .request (.delete id) => DeletesSpareRenewals [id] s
    | .request (.bulkDelete ids) =>
        DeletesSpareRenewals (ids.filter (fun id => (s.license? id).isSome)) s
    | _ => True

theorem NoneLeavingUnderRenewal.turn {env : Env} {turn : RenewalTurn} {s t : Store}
    (hs : NoneLeavingUnderRenewal s) (hspares : SparesRenewals s (env, turn))
    (h : RenewalTurn.run (env, turn) s = .ok t)
    : NoneLeavingUnderRenewal t := by
  obtain ⟨htouches, hcondition⟩ := hspares
  cases turn with
  | initiate calendar id => exact hs.initiate h
  | startSupport calendar id => exact hs.startSupport h
  | request sent =>
      change sent.run env s = .ok t at h
      cases sent with
      | update id payload => exact hs.kept (RenewalsKept.update h)
      | patch id change => exact hs.kept (RenewalsKept.patch h).of_nobody
      | retireDue => exact hs.retireDue hcondition h
      | retireMaintenance id =>
          obtain ⟨rfl, -⟩ := flush_eq_ok.mp h
          apply hs.kept
          apply (RenewalsKept.retire id s).mono
          intro key hkey
          exact hkey ▸ hcondition
      | disableMaintenance parentId =>
          obtain ⟨rfl, -⟩ := flush_eq_ok.mp h
          exact hs.kept ((RenewalsKept.disable env.unicode parentId s).mono hcondition)
      | delete id =>
          simp only [Request.run, deleteLicense, bind_eq_ok, flush_eq_ok] at h
          obtain ⟨_, -, _, hdeleted, rfl, -⟩ := h
          exact .delete hcondition (.of_deleteLoaded hdeleted)
      | bulkDelete ids =>
          simp only [Request.run, bulkDeleteLicenses] at h
          split at h
          · obtain rfl := pure_eq_ok.mp h
            exact hs
          · simp only [bind_eq_ok, flush_eq_ok] at h
            obtain ⟨_, hdeleted, rfl, -⟩ := h
            exact .delete hcondition (.of_deleteLoaded hdeleted)
      | _ => cases htouches

/-- In every run whose turns retire no licence under renewal, none is ever retired or scheduled
for retirement.
-/
theorem underRenewal_notRetired {start s : Store} (hstart : NoneLeavingUnderRenewal start)
    (h : Reachable RenewalTurn.run SparesRenewals start s)
    : NoneLeavingUnderRenewal s := by
  apply Reachable.invariant hstart _ h
  intro s t turn hs hspares hran
  exact hs.turn hspares hran

/-- Years of 365 days, as between two leap days. -/
def commonYears : Calendar where
  sameDayNextYear day := some (day + 365)
  dayBeforeNextAnniversary day := day + 364

/-- Two services that are marked renewable and end on day 100. -/
def renewableServices : Store where
  licenses :=
    (Table.empty.insert
      { License.ofTerm .service (some 1) (some 100) with
        isRenewable := some true
        budgetOwnerEmail := "owner@example.com" }).insert
      { License.ofTerm .service (some 1) (some 100) with isRenewable := some true }

theorem renewableServices_noneLeaving : NoneLeavingUnderRenewal renewableServices := by
  intro id l hl hleaving
  have hcases : (id, l) ∈ renewableServices.licenses.entries := Table.get?_eq_some.mp hl
  simp only [renewableServices, Table.insert, Table.empty, List.nil_append, List.mem_append,
    List.mem_cons, List.not_mem_nil, or_false, Prod.mk.injEq] at hcases
  cases hcases with
  | inl h => exact absurd hleaving (h.2 ▸ by decide)
  | inr h => exact absurd hleaving (h.2 ▸ by decide)

/-- The first service is under renewal when the second one is retired. -/
theorem underRenewal_notRetired_otherService
    : ∃ s, (runAll RenewalTurn.run
          [(.onDay 60, .initiate commonYears 1),
            (.onDay 61, .request (.update 2 { isRetired := some true }))]
          renewableServices = some s
        ∧ (s.license? 2).map (·.leaving) = some true)
      ∧ NoneLeavingUnderRenewal s := by
  obtain ⟨l, hl⟩ : ∃ l, (runAll RenewalTurn.run
      [(.onDay 60, .initiate commonYears 1),
        (.onDay 61, .request (.update 2 { isRetired := some true }))]
      renewableServices).bind (fun s => (s.license? 2).map (·.leaving)) = some l ∧ l = true :=
    ⟨true, by decide +kernel, rfl⟩
  obtain ⟨s, hs, hleaving⟩ := Option.bind_eq_some_iff.mp hl.1
  refine ⟨s, ⟨hs, hl.2 ▸ hleaving⟩, ?_⟩
  apply underRenewal_notRetired renewableServices_noneLeaving
  apply Reachable.of_runAll .start _ hs
  intro v turn hturn
  simp only [List.mem_cons, List.not_mem_nil, or_false] at hturn
  cases hturn with
  | inl h => exact h ▸ ⟨rfl, trivial⟩
  | inr h => exact h ▸ ⟨rfl, trivial⟩

/-- A service under renewal that an update marks one-off is retired by the job once it ended. -/
theorem underRenewal_retiredOneOff
    : ¬ ∀ start s, NoneLeavingUnderRenewal start →
        Reachable RenewalTurn.run (fun _ turn => turn.2.touchesRetirement = true) start s →
        NoneLeavingUnderRenewal s := by
  intro hclaim
  have hrun : (runAll RenewalTurn.run
      [(.onDay 60, .initiate commonYears 1),
        (.onDay 61, .request (.update 1 { isRenewable := some (some false) })),
        (.onDay 150, .request .retireDue)]
      renewableServices).bind (fun s => (s.license? 1).map (fun l =>
        (l.leaving, renewalInProgress s 1 l))) = some (true, true) := by decide +kernel
  obtain ⟨s, hs, hflags⟩ := Option.bind_eq_some_iff.mp hrun
  obtain ⟨l, hl, hboth⟩ := Option.map_eq_some_iff.mp hflags
  obtain ⟨hleaving, hrenewal⟩ := Prod.mk.inj hboth
  have hreached : Reachable RenewalTurn.run (fun _ turn => turn.2.touchesRetirement = true)
      renewableServices s := by
    apply Reachable.of_runAll .start _ hs
    intro v turn hturn
    simp only [List.mem_cons, List.not_mem_nil, or_false] at hturn
    rcases hturn with h | h | h
    · exact h ▸ rfl
    · exact h ▸ rfl
    · exact h ▸ rfl
  have hclear := hclaim renewableServices s renewableServices_noneLeaving hreached 1 l hl hleaving
  exact absurd hrenewal (by simp [hclear])

end LicenseTrack
