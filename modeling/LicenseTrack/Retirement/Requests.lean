import LicenseTrack.Retirement.Flags
import LicenseTrack.Services.Request

/-! The requests and the job that write the retirement columns keep them exclusive: creation,
update and patch always, and the operations that retire a maintenance record beside them where
no scheduled record loses its last parent.
-/

namespace LicenseTrack

open Library

/-- The retirement columns that an update writes. -/
def LicenseUpdate.retirement (p : LicenseUpdate) (env : Env) (l : License) : RetirementUpdate :=
  normalizeRetirementUpdate env.today l.retirementScheduled p.isRetired (p.writeTerms l).endDate
    (p.endDate.isSome || (p.writeTerms l).endDate != l.endDate)

/-- The shared total that an update writes. -/
def LicenseUpdate.override (p : LicenseUpdate) (env : Env) (id : Nat) (l : License) (s : Store)
    : Option String :=
  if p.poNumber.isSome ∨ p.currency.isSome then
    resolveReassignedPoTotalOverride env.unicode s id l
      ((blankText p.poNumber).getD l.poNumber) (p.currency.getD l.currency)
  else l.poTotalOverride

/-- The store with the updated row and its line, before the support defaults. -/
def LicenseUpdate.writtenRow (p : LicenseUpdate) (env : Env) (id : Nat) (l : License)
    (details : LicenseDetails) (s : Store)
    : Store :=
  let snapshot := if p.licenseType.isSome then
      snapshotIncludedSupportBeforeTypeChange id (p.writeTerms l).licenseType s
    else s
  let row := snapshot.modifyLicense id
    (p.writeRow details (p.writeTerms l) (p.override env id l s) (p.retirement env l))
  if p.poNumber.isSome then syncLicenseLine env.unicode id none row else row

/-- The store with the updated row, before its contract and its relationships. -/
def LicenseUpdate.written (p : LicenseUpdate) (env : Env) (id : Nat) (l : License)
    (details : LicenseDetails) (s : Store)
    : Store :=
  recordIncludedSupportExit env.unicode id l.maintenanceCoverage
    ((p.writtenRow env id l details s).modifyLicense id (syncSupportDefaults env.unicode))

/-- What a successful update of a licence went through: its references, its transition check,
the row that it wrote, the contract it resolved and the relationships it reconciled.
-/
structure LicenseUpdate.Ran (p : LicenseUpdate) (env : Env) (id : Nat) (s t : Store)
    (l : License) : Prop where
  stored : s.license? id = some l
  ran : ∃ details v, resolveLicenseReferenceUpdates env.unicode p.publisherName
        (blankText p.supplier) (blankText p.costCentre) (p.writeDetails l) s = .ok (details, v)
      ∧ validateMaintenanceParentTransition v l (p.writeTerms l).licenseType
          (p.parentLicenseId.getD l.parentLicenseId)
          ((p.retirement env l).isRetired.getD l.isRetired) = .ok ⟨⟩
      ∧ ∃ w, (w = p.written env id l details v
            ∨ ∃ contract, blankText p.contractNumber ≠ none
                ∧ w = (p.written env id l details v).modifyLicense id
                    (fun l => { l with contractId := contract }))
          ∧ (∃ row, w.license? id = some row ∧ validateActiveMaintenanceParentUpdate l row = .ok ⟨⟩)
          ∧ ∃ reconciled,
              reconcileMaintenanceRelationshipsAfterUpdate env id l.parentLicenseId
                p.parentLicenseId w = .ok reconciled
              ∧ t = syncActiveMaintenanceParentIfNeeded env.unicode id reconciled

theorem applyLicenseUpdate_ran {env : Env} {id : Nat} {p : LicenseUpdate} {s t : Store}
    (h : applyLicenseUpdate env id p s = .ok t) : ∃ l, p.Ran env id s t l := by
  simp only [applyLicenseUpdate, bind_eq_ok, found_eq_ok] at h
  obtain ⟨l, hl, ⟨details, v⟩, hrefs, h⟩ := h
  dsimp only at h
  change (if _ then _ else _) = _ at h
  generalize hw : recordIncludedSupportExit env.unicode id l.maintenanceCoverage _ = w at h
  have hw' : p.written env id l details v = w := hw
  clear hw
  refine ⟨l, hl, details, v, hrefs, ?_⟩
  -- The type description, the dates and the renewal terms are checked only where they may
  -- have changed.
  replace h := of_optional_check (of_optional_check h)
  simp only [bind_eq_ok, found_eq_ok] at h
  obtain ⟨_, -, _, -, _, -, _, htransition, row, -, h⟩ := h
  replace h := of_optional_check h
  refine ⟨htransition, ?_⟩
  rw [hw']
  split at h
  · next number hnumber =>
      simp only [bind_eq_ok, found_eq_ok, pure_eq_ok] at h
      obtain ⟨contract, -, w', rfl, row', hrow', _, hactive, reconciled, hreconciled, rfl⟩ := h
      exact ⟨_, .inr ⟨contract, by simp [hnumber], rfl⟩, ⟨row', hrow', hactive⟩, reconciled,
        hreconciled, rfl⟩
  · simp only [bind_eq_ok, found_eq_ok, pure_eq_ok] at h
    obtain ⟨w', rfl, row', hrow', _, hactive, reconciled, hreconciled, rfl⟩ := h
    exact ⟨_, .inl rfl, ⟨row', hrow', hactive⟩, reconciled, hreconciled, rfl⟩

theorem resolveIfGiven_only {α : Type} {value : Option α}
    {resolve : α → LicenseDetails → Store → Except Failure (LicenseDetails × Store)}
    (hresolve : ∀ a d d' s t, resolve a d s = .ok (d', t) → OnlyReferences s t)
    {d d' : LicenseDetails} {s t : Store} (h : resolveIfGiven value resolve d s = .ok (d', t))
    : OnlyReferences s t := by
  cases value with
  | none =>
      obtain ⟨-, rfl⟩ := Prod.mk.inj (Except.ok.inj h)
      exact .refl s
  | some a => exact hresolve a d d' s t h

theorem resolveLicenseReferenceUpdates_only {u : Unicode}
    {publisherName supplier costCentre : Option String} {d d' : LicenseDetails} {s t : Store}
    (h : resolveLicenseReferenceUpdates u publisherName supplier costCentre d s = .ok (d', t))
    : OnlyReferences s t := by
  simp only [resolveLicenseReferenceUpdates, bind_eq_ok] at h
  obtain ⟨⟨d₁, s₁⟩, hp, ⟨d₂, s₂⟩, hs, hc⟩ := h
  have hpublisher := resolveIfGiven_only (fun _ _ _ _ _ => resolvePublisher_only) hp
  have hsupplier := resolveIfGiven_only (fun _ _ _ _ _ => resolveSupplier_only) hs
  have hcentre := resolveIfGiven_only (fun _ _ _ _ _ => resolveCostCentreField_only) hc
  exact (hpublisher.trans hsupplier).trans hcentre

theorem OnlyNumbers.flags {s t : Store} (h : OnlyNumbers s t)
    : s.licenses.Agrees License.flags t.licenses :=
  h.rows.coarsen License.flags

theorem applyIncludedSupportDefaults_standing (u : Unicode) (t : LicenseTerms)
    (m : MaintenanceMirror)
    : (applyIncludedSupportDefaults u t m).activeMaintenanceId = m.activeMaintenanceId
      ∧ (applyIncludedSupportDefaults u t m).maintenanceCoverage = m.maintenanceCoverage := by
  unfold applyIncludedSupportDefaults applyBundledIncludedSupportDefaults
  dsimp only
  split_ifs <;> exact ⟨rfl, rfl⟩

@[simp] theorem syncSupportDefaults_flags (u : Unicode) (l : License)
    : (syncSupportDefaults u l).flags = l.flags := by
  obtain ⟨hactive, hcoverage⟩ :=
    applyIncludedSupportDefaults_standing u l.toLicenseTerms l.toMaintenanceMirror
  simp only [License.flags, syncSupportDefaults, License.withMirror, hactive, hcoverage]

theorem recordIncludedSupportExit_flags (u : Unicode) (id : Nat) (previous : MaintenanceCoverage)
    (s : Store)
    : s.licenses.Agrees License.flags (recordIncludedSupportExit u id previous s).licenses := by
  unfold recordIncludedSupportExit
  rcases hl : s.license? id with _ | l
  · exact Table.Agrees.refl _ _
  · dsimp only
    split_ifs with hstays hactive
    · exact Table.Agrees.refl _ _
    · exact Table.Agrees.refl _ _
    · intro key
      have hcleared : l.activeMaintenanceId = none := by simpa using hactive
      simp only [syncParentMirrorFields, Store.modifyLicense, Table.get?_modify,
        snapshotIncludedSupport_licenses]
      rcases hrow : s.licenses.get? key with _ | row
      · rfl
      · by_cases hk : key = id
        · subst hk
          obtain rfl : row = l := Option.some.inj (hrow.symm.trans hl)
          simp [License.flags, License.withMirror, Store.syncedMirror, hcleared,
            MaintenanceMirror.cleared]
        · simp [hk]

theorem snapshotIncludedSupportBeforeTypeChange_licenses (id : Nat) (newType : LicenseType)
    (s : Store)
    : (snapshotIncludedSupportBeforeTypeChange id newType s).licenses = s.licenses := by
  unfold snapshotIncludedSupportBeforeTypeChange
  split
  · split
    · exact snapshotIncludedSupport_licenses id s
    · rfl
  · rfl

theorem LicenseUpdate.written_flags (p : LicenseUpdate) (env : Env) (id : Nat) (l : License)
    (details : LicenseDetails) (s : Store)
    : (s.licenses.modify id (p.writeRow details (p.writeTerms l) (p.override env id l s)
          (p.retirement env l))).Agrees License.flags (p.written env id l details s).licenses := by
  refine Table.Agrees.trans ?_ (recordIncludedSupportExit_flags _ _ _ _)
  refine Table.Agrees.trans ?_ (Table.Agrees.of_modify (syncSupportDefaults_flags env.unicode))
  have hsnapshot : (if p.licenseType.isSome then
      snapshotIncludedSupportBeforeTypeChange id (p.writeTerms l).licenseType s
      else s).licenses = s.licenses := by
    split
    · exact snapshotIncludedSupportBeforeTypeChange_licenses _ _ _
    · rfl
  simp only [LicenseUpdate.writtenRow]
  generalize (if p.licenseType.isSome = true then
      snapshotIncludedSupportBeforeTypeChange id (p.writeTerms l).licenseType s
      else s) = snapshot at hsnapshot ⊢
  rw [← hsnapshot]
  split
  · exact (syncLicenseLine_only env.unicode id none _).flags
  · exact Table.Agrees.refl _ _

theorem validateActiveMaintenanceParentUpdate_tracked {before after : License}
    (h : validateActiveMaintenanceParentUpdate before after = .ok ⟨⟩)
    (hactive : after.activeMaintenanceId ≠ none)
    : after.maintenanceCoverage = .separatelyTracked := by
  simp only [validateActiveMaintenanceParentUpdate, if_neg hactive, asHttp_eq_ok, bind_eq_ok,
    assertActiveMaintenanceAllowsCoverageChange, require_eq_ok] at h
  obtain ⟨_, -, _, -, h⟩ := h
  by_contra hcoverage
  exact h ⟨hactive, hcoverage⟩

theorem LicenseUpdate.writeRow_sound (p : LicenseUpdate) (env : Env) {l : License}
    (hs : SoundRetirement l) (details : LicenseDetails) (override : Option String)
    : SoundRetirement (p.writeRow details (p.writeTerms l) override (p.retirement env l) l) := by
  refine hs.of_normalized env.today p.isRetired
    (p.endDate.isSome || (p.writeTerms l).endDate != l.endDate) (fun hgiven => ?_) rfl rfl
  have hsame : (p.writeTerms l).endDate = l.endDate := by
    simpa using (Bool.or_eq_false_iff.mp hgiven).2
  exact hsame

theorem SoundLicenses.update {env : Env} {id : Nat} {p : LicenseUpdate} {s t : Store}
    (hs : SoundLicenses s) (h : updateLicense env id p s = .ok t)
    : SoundLicenses t := by
  simp only [updateLicense, bind_eq_ok, flush_eq_ok] at h
  obtain ⟨p, -, _, h, rfl, -⟩ := h
  obtain ⟨l, hran⟩ := applyLicenseUpdate_ran h
  obtain ⟨details, v, hrefs, -, w, hw, ⟨row, hrow, hchecked⟩, reconciled, hreconciled, rfl⟩ :=
    hran.ran
  have hlicenses := (resolveLicenseReferenceUpdates_only hrefs).licenses
  have hflags : (v.licenses.modify id (p.writeRow details (p.writeTerms l)
      (p.override env id l v) (p.retirement env l))).Agrees License.flags w.licenses := by
    rcases hw with rfl | ⟨contract, -, rfl⟩
    · exact p.written_flags env id l details v
    · exact (p.written_flags env id l details v).trans (Table.Agrees.of_modify fun _ => rfl)
  have hsound : SoundLicenses w := by
    intro key written hwritten
    obtain ⟨old, hold, he⟩ := Table.Agrees.back hflags hwritten
    rw [Table.get?_modify, hlicenses] at hold
    obtain ⟨stored, hstored, rfl⟩ := Option.map_eq_some_iff.mp hold
    by_cases hk : key = id
    · subst hk
      obtain rfl : stored = l := Option.some.inj (hstored.symm.trans hran.stored)
      obtain rfl : row = written := Option.some.inj (hrow.symm.trans hwritten)
      rw [if_pos rfl] at he
      have hretirement := (p.writeRow_sound env (hs key stored hstored).toSoundRetirement details
        (p.override env key stored v))
      exact ⟨hretirement.congr he, validateActiveMaintenanceParentUpdate_tracked hchecked⟩
    · rw [if_neg hk] at he
      exact (hs key stored hstored).congr he
  exact (hsound.reconcile hreconciled).syncActive env.unicode id

-- Patch

/-- What a patched field leaves of the flags: the retirement columns of every licence, the end
dates of the others, and the coverage class of parents with an active record.
-/
structure FieldPatched (id : Nat) (old new : License) (key : Nat) : Prop where
  retired : new.isRetired = old.isRetired
  scheduled : new.retirementScheduled = old.retirementScheduled
  ends : key ≠ id → new.endDate = old.endDate
  tracked : (old.activeMaintenanceId ≠ none → old.maintenanceCoverage = .separatelyTracked) →
    new.activeMaintenanceId ≠ none → new.maintenanceCoverage = .separatelyTracked

/-- The rows after a patched field. -/
def FieldPatchedRows (id : Nat) (s t : Store) : Prop :=
  ∀ key new, t.license? key = some new →
    ∃ old, s.license? key = some old ∧ FieldPatched id old new key

theorem FieldPatched.of_flags {id key : Nat} {old new : License} (h : new.flags = old.flags)
    : FieldPatched id old new key := by
  refine ⟨congrArg (·.1) h, congrArg (·.2.1) h, fun _ => congrArg (·.2.2.1) h, fun hold hnew => ?_⟩
  have hcoverage : new.activeMaintenanceId.map (fun _ => new.maintenanceCoverage)
      = old.activeMaintenanceId.map (fun _ => old.maintenanceCoverage) :=
    congrArg (fun flags => flags.2.2.2) h
  obtain ⟨record, hrecord⟩ := Option.ne_none_iff_exists'.mp hnew
  rw [hrecord, Option.map_some, eq_comm, Option.map_eq_some_iff] at hcoverage
  obtain ⟨other, hother, hc⟩ := hcoverage
  rw [← hc]
  exact hold (by simp [hother])

namespace FieldPatchedRows

variable {id : Nat} {s t v : Store}

theorem of_agrees (h : s.licenses.Agrees License.flags t.licenses) : FieldPatchedRows id s t := by
  intro key new hnew
  obtain ⟨old, hold, he⟩ := Table.Agrees.back h hnew
  exact ⟨old, hold, .of_flags he⟩

theorem of_modify {f : License → License}
    (h : ∀ l, s.license? id = some l → FieldPatched id l (f l) id)
    : FieldPatchedRows id s (s.modifyLicense id f) := by
  intro key new hnew
  rw [Store.license?_modifyLicense] at hnew
  obtain ⟨old, hold, rfl⟩ := Option.map_eq_some_iff.mp hnew
  refine ⟨old, hold, ?_⟩
  split
  · next hk =>
      subst hk
      exact h old hold
  · exact .of_flags rfl

theorem then_agrees (h : FieldPatchedRows id s t) (hv : t.licenses.Agrees License.flags v.licenses)
    : FieldPatchedRows id s v := by
  intro key new hnew
  obtain ⟨middle, hmiddle, he⟩ := Table.Agrees.back hv hnew
  obtain ⟨old, hold, hp⟩ := h key middle hmiddle
  have hm : FieldPatched id middle new key := .of_flags he
  exact ⟨old, hold, hm.retired.trans hp.retired, hm.scheduled.trans hp.scheduled,
    fun hk => (hm.ends hk).trans (hp.ends hk), fun ho => hm.tracked (hp.tracked ho)⟩

end FieldPatchedRows

theorem setType_patched (u : Unicode) (id : Nat) (newType : LicenseType) (l : License)
    : FieldPatched id l (l.setType u newType) id := by
  obtain ⟨hactive, hcoverage⟩ := applyIncludedSupportDefaults_standing u
    (normaliseLicenseTypeFields { l.toLicenseTerms with licenseType := newType })
    { l.toMaintenanceMirror with
      maintenanceCoverage := coverageAfterTypeChange l.licenseType newType l.maintenanceCoverage
        l.activeMaintenanceId }
  refine ⟨rfl, rfl, fun hne => absurd rfl hne, fun _ hnew => ?_⟩
  have hsome : l.activeMaintenanceId.isSome = true := Option.isSome_iff_ne_none.mpr
    (fun hnone => hnew (hactive.trans hnone))
  refine hcoverage.trans ?_
  simp only [coverageAfterTypeChange, hsome, if_true]

theorem patchField_patched {u : Unicode} {id : Nat} {patch : LicensePatch} {l : License}
    {s t : Store} (hl : s.license? id = some l) (h : patchField u id patch l s = .ok t)
    : FieldPatchedRows id s t := by
  cases patch with
  | plain field value =>
      obtain rfl := Except.ok.inj h
      exact .of_modify fun l _ => by cases field <;> exact .of_flags rfl
  | licenseMetric value =>
      obtain rfl := Except.ok.inj h
      exact .of_modify fun l _ => .of_flags rfl
  | date field value =>
      simp only [patchField, bind_eq_ok, pure_eq_ok] at h
      obtain ⟨_, -, rfl⟩ := h
      refine .of_modify fun l _ => ?_
      cases field <;> exact ⟨rfl, rfl, fun hne => absurd rfl hne, fun h => h⟩
  | time field value =>
      obtain rfl := Except.ok.inj h
      exact .of_modify fun l _ => by cases field <;> exact .of_flags rfl
  | licenseType value =>
      simp only [patchField, bind_eq_ok, pure_eq_ok] at h
      obtain ⟨newType, -, _, -, rfl⟩ := h
      have hsnapshot := snapshotIncludedSupportBeforeTypeChange_licenses id newType s
      intro key new hnew
      rw [Store.license?_modifyLicense, Store.license?, hsnapshot] at hnew
      obtain ⟨old, hold, rfl⟩ := Option.map_eq_some_iff.mp hnew
      refine ⟨old, hold, ?_⟩
      split
      · next hk =>
          subst hk
          exact setType_patched u key newType old
      · exact .of_flags rfl
  | maintenanceCoverage value =>
      simp only [patchField, bind_eq_ok, pure_eq_ok, asHttp_eq_ok,
        assertActiveMaintenanceAllowsCoverageChange, require_eq_ok] at h
      obtain ⟨coverage, -, _, ⟨_, hallowed, -⟩, rfl⟩ := h
      refine FieldPatchedRows.then_agrees (.of_modify fun row hrow => ?_)
        (recordIncludedSupportExit_flags u id l.maintenanceCoverage _)
      obtain rfl := Option.some.inj (hl.symm.trans hrow)
      refine ⟨rfl, rfl, fun hne => absurd rfl hne, fun _ hactive => ?_⟩
      by_contra hcoverage
      exact hallowed ⟨hactive, hcoverage⟩
  | contractNumber value =>
      simp only [patchField, bind_eq_ok, pure_eq_ok] at h
      obtain ⟨contract, -, rfl⟩ := h
      have hnumber : FieldPatchedRows id s
          (s.modifyLicense id (fun l => { l with contractNumber := value.getD "" })) :=
        .of_modify fun l _ => .of_flags rfl
      exact hnumber.then_agrees (Table.Agrees.of_modify fun _ => rfl)
  | invoiceNumber value =>
      obtain rfl := Except.ok.inj h
      exact .of_modify fun l _ => .of_flags rfl
  | poNumber value =>
      obtain rfl := Except.ok.inj h
      refine FieldPatchedRows.then_agrees ?_ (syncLicenseLine_only u id none _).flags
      exact .of_modify fun l _ => .of_flags rfl
  | currency value =>
      obtain rfl := Except.ok.inj h
      exact .of_modify fun l _ => .of_flags rfl
  | reference field value =>
      have hwritten : ∀ details v, OnlyReferences s v →
          FieldPatchedRows id s (v.modifyLicense id (·.withDetails details)) := by
        intro details v hv
        refine FieldPatchedRows.of_agrees ?_
        rw [← hv.licenses]
        exact Table.Agrees.of_modify fun _ => rfl
      cases field
      all_goals
        simp only [patchField, patchReference, bind_eq_ok, pure_eq_ok] at h
        obtain ⟨⟨details, v⟩, hresolve, rfl⟩ := h
      · exact hwritten details v (resolvePublisher_only hresolve)
      · exact hwritten details v (resolveSupplier_only hresolve)
      · exact hwritten details v (resolveCostCentreField_only hresolve)

theorem rescheduled_sound {l row : License} (hs : SoundRetirement l) (today : Date)
    (hretired : row.isRetired = l.isRetired)
    (hscheduled : row.retirementScheduled = l.retirementScheduled)
    : SoundRetirement (row.rescheduled today) := by
  refine hs.of_normalized today none true (fun hfalse => by cases hfalse) ?_ ?_
  · simp only [License.rescheduled, hretired, hscheduled]
  · simp only [License.rescheduled, hscheduled]

theorem SoundLicenses.patch {env : Env} {id : Nat} {patch : LicensePatch} {s t : Store}
    (hs : SoundLicenses s) (h : patchLicense env id patch s = .ok t)
    : SoundLicenses t := by
  simp only [patchLicense, applyLicenseFieldPatch, bind_eq_ok, flush_eq_ok, found_eq_ok] at h
  obtain ⟨_, ⟨_, -, l, hl, patched, hpatched, row, hrow, h⟩, rfl, -⟩ := h
  replace h := pure_eq_ok.mp (of_optional_check h)
  have hrows := patchField_patched hl hpatched
  have hsound : SoundLicenses (patched.modifyLicense id (fun row =>
      syncSupportDefaults env.unicode
        (if l.endDate ≠ row.endDate then row.rescheduled env.today else row))) := by
    intro key new hnew
    rw [Store.license?_modifyLicense] at hnew
    obtain ⟨middle, hmiddle, rfl⟩ := Option.map_eq_some_iff.mp hnew
    obtain ⟨old, hold, hp⟩ := hrows key middle hmiddle
    have hsold := hs key old hold
    by_cases hk : key = id
    · subst hk
      obtain rfl : old = l := Option.some.inj (hold.symm.trans hl)
      rw [if_pos rfl]
      refine SoundLicense.congr ?_ (syncSupportDefaults_flags env.unicode _)
      split
      · exact ⟨rescheduled_sound hsold.toSoundRetirement env.today hp.retired hp.scheduled,
          hp.tracked hsold.tracked⟩
      · next hsame =>
          have hend : middle.endDate = old.endDate := (not_not.mp hsame).symm
          refine ⟨⟨?_, ?_⟩, hp.tracked hsold.tracked⟩
          · rw [hp.retired, hp.scheduled]
            exact hsold.exclusive
          · rw [hp.scheduled, hend]
            exact hsold.dated
    · rw [if_neg hk]
      refine ⟨⟨?_, ?_⟩, hp.tracked hsold.tracked⟩
      · rw [hp.retired, hp.scheduled]
        exact hsold.exclusive
      · rw [hp.scheduled, hp.ends hk]
        exact hsold.dated
  subst h
  refine SoundLicenses.syncActive ?_ env.unicode id
  split
  · next hretired =>
      refine hsound.retire fun row' hrow' => ?_
      obtain rfl := Option.some.inj (hrow.symm.trans hrow')
      exact (hsound id row hrow).unscheduled hretired.1
  · exact hsound

end LicenseTrack
