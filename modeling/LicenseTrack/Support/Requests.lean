import LicenseTrack.Retirement.Runs
import LicenseTrack.Support.Operations

/-! The requests that write a licence's own support columns: a period that they take away is
recorded first, apart from one that an import has changed before.
-/

namespace LicenseTrack

open Library

variable {u : Unicode} {watched : Nat → Prop}

/-- The licences beside one look alike to support. -/
def OthersAlike (id : Nat) (s t : Store) : Prop :=
  ∀ key, key ≠ id →
    (t.license? key).map License.support = (s.license? key).map License.support

namespace OthersAlike

variable {id : Nat} {s t v : Store}

theorem of_agrees (h : s.licenses.Agrees License.support t.licenses) : OthersAlike id s t :=
  fun key _ => h key

theorem of_modify (f : License → License) : OthersAlike id s (s.modifyLicense id f) := by
  intro key hk
  rw [Store.license?_modifyLicense_ne _ _ hk]

theorem trans (h : OthersAlike id s t) (h' : OthersAlike id t v) : OthersAlike id s v :=
  fun key hk => (h' key hk).trans (h key hk)

end OthersAlike

theorem KeepsPeriods.of_row {id : Nat} {s v : Store} (hothers : OthersAlike id s v)
    (hgrows : HistoryGrows (· = id) s.history v.history)
    (hgood : SupportGood u s → ∀ l, v.license? id = some l → GoodSupport u l)
    (hkept : SupportGood u s → watched id → ∀ p, s.Holds id p → s.CostsAgree id p →
      (v.Holds id p ∧ v.CostsAgree id p) ∨ v.Recorded id p)
    : KeepsPeriods u watched s v := by
  refine ⟨fun hs key l hl => ?_, hgrows.kept, fun hs key p hw hp hc => ?_⟩
  · by_cases hk : key = id
    · subst hk
      exact hgood hs l hl
    · have hsame := hothers key hk
      rw [hl, Option.map_some, eq_comm, Option.map_eq_some_iff] at hsame
      obtain ⟨old, hold, he⟩ := hsame
      exact (hs key old hold).congr he.symm
  · by_cases hk : key = id
    · subst hk
      exact hkept hs hw p hp hc
    · obtain ⟨l, hl, hholds⟩ := hp
      have hsame := hothers key hk
      rw [hl, Option.map_some, Option.map_eq_some_iff] at hsame
      obtain ⟨new, hnew, he⟩ := hsame
      refine .inl ⟨⟨new, hnew, hholds.congr he⟩, ?_⟩
      intro historyKey row hrow hincluded hstart hend
      cases hold : s.history.get? historyKey with
      | none =>
          -- A new row is about the licence that the step writes.
          have hparent := hgrows.fresh historyKey row hrow hold
          exact absurd (hincluded.parent.symm.trans hparent) hk
      | some old =>
          have hkeep := hgrows.kept historyKey old hold
          obtain rfl := Option.some.inj (hkeep.symm.trans hrow)
          exact hc historyKey old hold hincluded hstart hend

theorem KeepsPeriods.of_write {id : Nat} {s : Store} {l : License} {f : License → License}
    (hl : s.license? id = some l) (hgood : SupportGood u s → GoodSupport u (f l))
    (hheld : SupportGood u s → watched id → ∀ p, l.HoldsPeriod p → s.CostsAgree id p →
      s.Recorded id p ∨ (f l).HoldsPeriod p)
    : KeepsPeriods u watched s (s.modifyLicense id f) := by
  have hstored : (s.modifyLicense id f).license? id = some (f l) := by
    rw [Store.license?_modifyLicense_self, hl, Option.map_some]
  apply KeepsPeriods.of_row (.of_modify f) (.refl _ _)
  · intro hs row hrow
    obtain rfl := Option.some.inj (hstored.symm.trans hrow)
    exact hgood hs
  · intro hs hw p hp hc
    obtain ⟨old, hold, hholds⟩ := hp
    obtain rfl := Option.some.inj (hl.symm.trans hold)
    rcases hheld hs hw p hholds hc with hr | hholds'
    · exact .inr hr
    · exact .inl ⟨⟨f l, hstored, hholds'⟩, hc⟩

-- Exit from included support

theorem hasIncludedSupportData_congr {a b : License} (h : a.period = b.period)
    : hasIncludedSupportData a.toMaintenanceMirror = hasIncludedSupportData b.toMaintenanceMirror := by
  have hstart : a.maintenanceStartDate = b.maintenanceStartDate :=
    congrArg SupportPeriod.startDate h
  have hend : a.maintenanceEndDate = b.maintenanceEndDate := congrArg SupportPeriod.endDate h
  have hcost : a.maintenanceCost = b.maintenanceCost := congrArg SupportPeriod.cost h
  simp only [hasIncludedSupportData, hstart, hend, hcost]

theorem recordIncludedSupportExit_cases (u : Unicode) {id : Nat} (previous : MaintenanceCoverage)
    {x : Store} {row : License} (hrow : x.license? id = some row)
    : ((previous ≠ .included ∨ row.maintenanceCoverage = .included
          ∨ row.activeMaintenanceId ≠ none)
        ∧ recordIncludedSupportExit u id previous x = x)
      ∨ (previous = .included ∧ row.maintenanceCoverage ≠ .included
          ∧ row.activeMaintenanceId = none
          ∧ recordIncludedSupportExit u id previous x
            = (snapshotIncludedSupport id x).modifyLicense id (fun parent => parent.withMirror
                ((snapshotIncludedSupport id x).syncedMirror u parent.toMaintenanceMirror))) := by
  unfold recordIncludedSupportExit
  rw [hrow]
  dsimp only
  by_cases hstays : previous ≠ .included ∨ row.maintenanceCoverage = .included
  · rw [if_pos hstays]
    exact .inl ⟨hstays.elim .inl fun h => .inr (.inl h), rfl⟩
  · rw [if_neg hstays]
    obtain ⟨hprevious, hcoverage⟩ := not_or.mp hstays
    by_cases hactive : row.activeMaintenanceId ≠ none
    · rw [if_pos hactive]
      exact .inl ⟨.inr (.inr hactive), rfl⟩
    · rw [if_neg hactive]
      exact .inr ⟨not_not.mp hprevious, hcoverage, not_not.mp hactive, rfl⟩

/-- A rewriting of one licence, the exit from included support and a last rewriting of the row:
where the row leaves included support with the stored period, the period is recorded.
-/
theorem KeepsPeriods.of_exit {id : Nat} {s x v : Store} {l row : License} {g : License → License}
    (hl : s.license? id = some l) (hrow : x.license? id = some row)
    (hx : OthersAlike id s x) (hhistory : x.history = s.history)
    (hlast : OthersAlike id (recordIncludedSupportExit u id l.maintenanceCoverage x) v)
    (hv : v.license? id
      = ((recordIncludedSupportExit u id l.maintenanceCoverage x).license? id).map g)
    (hsame : v.history = (recordIncludedSupportExit u id l.maintenanceCoverage x).history)
    (hgood : SupportGood u s → recordIncludedSupportExit u id l.maintenanceCoverage x = x →
      GoodSupport u (g row))
    (hcleared : row.activeMaintenanceId = none → GoodSupport u (g row.clearActive))
    (hheld : SupportGood u s → watched id → ∀ p, l.HoldsPeriod p → s.CostsAgree id p →
      s.Recorded id p ∨ (row.activeMaintenanceId = none ∧ row.period = p
        ∧ (row.maintenanceCoverage = .included → (g row).HoldsPeriod p)))
    : KeepsPeriods u watched s v := by
  rcases recordIncludedSupportExit_cases u l.maintenanceCoverage hrow with
    ⟨hstays, he⟩ | ⟨hprevious, hleft, hactive, he⟩
  · have hstored : v.license? id = some (g row) := by rw [hv, he, hrow, Option.map_some]
    have hh : v.history = s.history := by rw [hsame, he, hhistory]
    apply KeepsPeriods.of_row (hx.trans (he ▸ hlast)) (hh ▸ .refl _ _)
    · intro hs new hnew
      obtain rfl := Option.some.inj (hstored.symm.trans hnew)
      exact hgood hs he
    · intro hs hw p hp hc
      obtain ⟨old, hold, hholds⟩ := hp
      obtain rfl := Option.some.inj (hl.symm.trans hold)
      rcases hheld hs hw p hholds hc with hr | ⟨hactive, -, hnew⟩
      · right
        rw [Store.Recorded, hh]
        exact hr
      · left
        have hincluded : row.maintenanceCoverage = .included := by
          rcases hstays with h | h | h
          · exact absurd hholds.included h
          · exact h
          · exact absurd hactive h
        refine ⟨⟨g row, hstored, hnew hincluded⟩, ?_⟩
        rw [Store.CostsAgree, hh]
        exact hc
  · obtain ⟨history, hsnapshot, hgrows⟩ := snapshotIncludedSupport_eq id x
    have hmirror : (snapshotIncludedSupport id x).syncedMirror u row.toMaintenanceMirror
        = row.toMaintenanceMirror.cleared := by
      simp only [Store.syncedMirror, hactive]
    have hlicenses : ∀ key, (snapshotIncludedSupport id x).license? key = x.license? key := by
      intro key
      rw [hsnapshot]
      rfl
    have hstored : v.license? id = some (g row.clearActive) := by
      rw [hv, he, Store.license?_modifyLicense_self, hlicenses, hrow, Option.map_some,
        Option.map_some, hmirror, License.clearActive]
    have hh : v.history = history := by
      rw [hsame, he, hsnapshot]
      rfl
    have hexit : OthersAlike id x (recordIncludedSupportExit u id l.maintenanceCoverage x) := by
      intro key hk
      rw [he, Store.license?_modifyLicense_ne _ _ hk, hlicenses]
    apply KeepsPeriods.of_row ((hx.trans hexit).trans hlast)
    · rw [hh, ← hhistory]
      exact hgrows
    · intro hs new hnew
      obtain rfl := Option.some.inj (hstored.symm.trans hnew)
      exact hcleared hactive
    · intro hs hw p hp hc
      obtain ⟨old, hold, hholds⟩ := hp
      obtain rfl := Option.some.inj (hl.symm.trans hold)
      right
      rw [Store.Recorded, hh]
      rcases hheld hs hw p hholds hc with ⟨key, old, hold, hr⟩ | ⟨-, hperiod, -⟩
      · exact ⟨key, old, hgrows.kept key old (hhistory ▸ hold), hr⟩
      · have hrecorded : (snapshotIncludedSupport id x).Recorded id p := by
          apply snapshotIncludedSupport_records hrow _ hperiod
          · rw [Store.CostsAgree, hhistory]
            exact hc
          · rw [hasIncludedSupportData_congr (hperiod.trans hholds.period.symm)]
            exact hholds.stored
        rw [hsnapshot] at hrecorded
        exact hrecorded

theorem snapshotIncludedSupportBeforeTypeChange_keeps (id : Nat) (newType : LicenseType)
    (s : Store)
    : KeepsPeriods u watched s (snapshotIncludedSupportBeforeTypeChange id newType s) := by
  unfold snapshotIncludedSupportBeforeTypeChange
  split
  · split
    · exact snapshotIncludedSupport_keeps u id s
    · exact .refl s
  · exact .refl s

theorem snapshotIncludedSupportBeforeTypeChange_records {id : Nat} {newType : LicenseType}
    {s : Store} {l : License} {p : SupportPeriod} (hl : s.license? id = some l)
    (hholds : l.HoldsPeriod p) (hc : s.CostsAgree id p)
    (hnew : newType.isMaintenanceParent = false)
    : (snapshotIncludedSupportBeforeTypeChange id newType s).Recorded id p := by
  unfold snapshotIncludedSupportBeforeTypeChange
  simp only [hl, hholds.parent, hnew, hholds.included, and_self, if_true]
  exact snapshotIncludedSupport_records hl hholds.stored hholds.period hc

theorem GoodSupport.defaults_of_holds {l : License} (h : GoodSupport u l) {p : SupportPeriod}
    (hholds : l.HoldsPeriod p) {t : LicenseTerms} (ht : t.licenseType.isMaintenanceParent = true)
    : applyIncludedSupportDefaults u t l.toMaintenanceMirror = l.toMaintenanceMirror := by
  rw [supportDefaults_congr u hholds.parent ht]
  exact h.derived hholds.parent

theorem License.HoldsPeriod.syncSupportDefaults {l : License} {p : SupportPeriod}
    (hholds : l.HoldsPeriod p) (h : GoodSupport u l)
    : (syncSupportDefaults u l).HoldsPeriod p := by
  apply hholds.congr
  simp only [License.support, LicenseTrack.syncSupportDefaults, License.withMirror]
  rw [h.derived hholds.parent]

theorem defaults_of_left {l : License} {coverage : MaintenanceCoverage} (t : LicenseTerms)
    (hcoverage : coverage ≠ .included)
    : applyIncludedSupportDefaults u t
        { l.toMaintenanceMirror with maintenanceCoverage := coverage }
      = { l.toMaintenanceMirror with maintenanceCoverage := coverage } :=
  supportDefaults_of_not_included u t hcoverage

theorem mirror_coverage_self {l : License} {coverage : MaintenanceCoverage}
    (h : l.maintenanceCoverage = coverage)
    : { l.toMaintenanceMirror with maintenanceCoverage := coverage } = l.toMaintenanceMirror := by
  rw [← h]

-- Update

theorem LicenseUpdate.writtenRow_support (p : LicenseUpdate) (env : Env) {id : Nat} {l : License}
    (details : LicenseDetails) {s before : Store} (hl : s.license? id = some l)
    (hbefore : before = if p.licenseType.isSome then
      snapshotIncludedSupportBeforeTypeChange id (p.writeTerms l).licenseType s else s)
    : OthersAlike id before (p.writtenRow env id l details s)
      ∧ (p.writtenRow env id l details s).history = before.history
      ∧ ∃ row, (p.writtenRow env id l details s).license? id = some row
        ∧ row.licenseType = (p.writeTerms l).licenseType
        ∧ row.toMaintenanceMirror
          = { l.toMaintenanceMirror with maintenanceCoverage := p.writeCoverage l } := by
  have hlicenses : before.licenses = s.licenses := by
    rw [hbefore]
    split
    · exact snapshotIncludedSupportBeforeTypeChange_licenses _ _ _
    · rfl
  simp only [LicenseUpdate.writtenRow, ← hbefore]
  set written := before.modifyLicense id
    (p.writeRow details (p.writeTerms l) (p.override env id l s) (p.retirement env l)) with hw
  have hothers : OthersAlike id before written := .of_modify _
  have hrow : written.license? id = some (p.writeRow details (p.writeTerms l)
      (p.override env id l s) (p.retirement env l) l) := by
    rw [hw, Store.license?_modifyLicense_self, Store.license?, hlicenses]
    rw [Store.license?] at hl
    rw [hl, Option.map_some]
  split
  · have honly := syncLicenseLine_only env.unicode id none written
    have hsupport : written.licenses.Agrees License.support
        (syncLicenseLine env.unicode id none written).licenses :=
      honly.rows.coarsen License.support
    refine ⟨hothers.trans (.of_agrees hsupport), by rw [honly.rest]; rfl, ?_⟩
    obtain ⟨row, hnew, he⟩ := Table.Agrees.forth hsupport hrow
    exact ⟨row, hnew, congrArg Prod.fst he, congrArg Prod.snd he⟩
  · exact ⟨hothers, rfl, _, hrow, rfl, rfl⟩

/-- An update loses no period of the licence that it writes. -/
theorem LicenseUpdate.written_keeps (p : LicenseUpdate) (env : Env) {id : Nat} {l : License}
    (details : LicenseDetails) {s : Store} (hl : s.license? id = some l)
    (htracked : ∀ row, (p.written env id l details s).license? id = some row →
      row.activeMaintenanceId ≠ none → row.maintenanceCoverage = .separatelyTracked)
    : KeepsPeriods env.unicode watched s (p.written env id l details s) := by
  obtain ⟨before, hbefore⟩ : ∃ before, before = if p.licenseType.isSome then
      snapshotIncludedSupportBeforeTypeChange id (p.writeTerms l).licenseType s else s := ⟨_, rfl⟩
  obtain ⟨hothers, hhistory, row, hrow, htype, hmirror⟩ :=
    p.writtenRow_support env details hl hbefore
  have hsnapshot : KeepsPeriods env.unicode watched s before := by
    rw [hbefore]
    split
    · exact snapshotIncludedSupportBeforeTypeChange_keeps _ _ _
    · exact .refl s
  have hbeforeRow : before.license? id = some l := by
    rw [hbefore]
    split
    · rw [Store.license?, snapshotIncludedSupportBeforeTypeChange_licenses]
      exact hl
    · exact hl
  apply hsnapshot.trans
  have hstored : ((p.writtenRow env id l details s).modifyLicense id
      (syncSupportDefaults env.unicode)).license? id
        = some (syncSupportDefaults env.unicode row) := by
    rw [Store.license?_modifyLicense_self, hrow, Option.map_some]
  refine KeepsPeriods.of_exit (g := fun row => row) hbeforeRow hstored
    (hothers.trans (.of_modify _)) hhistory (fun _ _ => rfl) (by simp [LicenseUpdate.written]) rfl
    (fun _ he => ?_) (fun _ => .clearActive _) (fun hs hw q hholds hc => ?_)
  · -- The row that stays was checked at the end of the update.
    have hlast : (p.written env id l details s).license? id
        = some (syncSupportDefaults env.unicode row) := by
      rw [LicenseUpdate.written, he]
      exact hstored
    exact ⟨htracked _ hlast, fun _ => supportDefaults_idem env.unicode _ _⟩
  · have hgood := hs id l hbeforeRow
    have hactive := hgood.inactive hholds
    by_cases hparent : (p.writeTerms l).licenseType.isMaintenanceParent = true
    · right
      have hrowParent : row.licenseType.isMaintenanceParent = true := by
        rw [htype]
        exact hparent
      by_cases hcoverage : p.writeCoverage l = .included
      · have hkept : (syncSupportDefaults env.unicode row).toMaintenanceMirror
            = l.toMaintenanceMirror := by
          simp only [syncSupportDefaults, License.withMirror, hmirror, hcoverage]
          rw [mirror_coverage_self hholds.included]
          exact hgood.defaults_of_holds hholds hrowParent
        refine ⟨?_, ?_, fun _ => ⟨hrowParent, ?_, ?_, ?_⟩⟩
        · rw [hkept]
          exact hactive
        · rw [License.period, hkept]
          exact hholds.period
        · rw [hkept]
          exact hholds.included
        · rw [hkept]
          exact hholds.stored
        · rw [License.period, hkept]
          exact hholds.period
      · have hleft : (syncSupportDefaults env.unicode row).toMaintenanceMirror
            = { l.toMaintenanceMirror with maintenanceCoverage := p.writeCoverage l } := by
          simp only [syncSupportDefaults, License.withMirror, hmirror]
          exact defaults_of_left _ hcoverage
        refine ⟨?_, ?_, fun hincluded => ?_⟩
        · rw [hleft]
          exact hactive
        · rw [License.period, hleft]
          exact hholds.period
        · rw [hleft] at hincluded
          exact absurd hincluded hcoverage
    · left
      have hchanged : p.licenseType.isSome = true := by
        cases hgiven : p.licenseType with
        | some newType => rfl
        | none =>
            have hsame : (p.writeTerms l).licenseType = l.licenseType := by
              simp [LicenseUpdate.writeTerms, normaliseLicenseTypeFields,
                normaliseTypeOptInFields, hgiven]
            rw [hsame] at hparent
            exact absurd hholds.parent hparent
      have hkept := hsnapshot.history
      rw [hbefore, if_pos hchanged] at hc hkept ⊢
      apply snapshotIncludedSupportBeforeTypeChange_records hl hholds _
        (Bool.not_eq_true _ ▸ hparent)
      intro key old hold
      exact hc key old (hkept key old hold)

theorem OnlyReferences.keepsPeriods {s t : Store} (h : OnlyReferences s t)
    : KeepsPeriods u watched s t := by
  refine .of_support ?_ ?_
  · rw [h.licenses]
    exact Table.Agrees.refl _ _
  · rw [h]

theorem syncLicenseLine_keeps (numbers : Unicode) (id : Nat) (requested : Option Nat) (s : Store)
    : KeepsPeriods u watched s (syncLicenseLine numbers id requested s) := by
  have honly := syncLicenseLine_only numbers id requested s
  refine .of_support (honly.rows.coarsen License.support) ?_
  rw [honly.rest]

theorem updateLicense_keeps {env : Env} {id : Nat} {p : LicenseUpdate} {s t : Store}
    (h : updateLicense env id p s = .ok t)
    : KeepsPeriods env.unicode watched s t := by
  simp only [updateLicense, bind_eq_ok, flush_eq_ok] at h
  obtain ⟨p, -, _, h, rfl, -⟩ := h
  obtain ⟨l, hran⟩ := applyLicenseUpdate_ran h
  obtain ⟨details, v, hrefs, -, w, hw, ⟨row, hrow, hchecked⟩, reconciled, hreconciled, rfl⟩ :=
    hran.ran
  have honly := resolveLicenseReferenceUpdates_only hrefs
  have hl : v.license? id = some l := by
    rw [Store.license?, honly.licenses]
    exact hran.stored
  have hcontract : (p.written env id l details v).licenses.Agrees License.support w.licenses
      ∧ w.history = (p.written env id l details v).history := by
    rcases hw with rfl | ⟨contract, -, rfl⟩
    · exact ⟨Table.Agrees.refl _ _, rfl⟩
    · exact ⟨Table.Agrees.of_modify fun _ => rfl, rfl⟩
  have hwritten : KeepsPeriods env.unicode watched v (p.written env id l details v) := by
    apply p.written_keeps env details hl
    intro written hstored hactive
    obtain ⟨row', hrow', he⟩ := Table.Agrees.forth hcontract.1 hstored
    obtain rfl := Option.some.inj (hrow.symm.trans hrow')
    have hmirror : row.toMaintenanceMirror = written.toMaintenanceMirror := congrArg Prod.snd he
    rw [← hmirror] at hactive ⊢
    exact validateActiveMaintenanceParentUpdate_tracked hchecked hactive
  have hrow : KeepsPeriods env.unicode watched s w :=
    (honly.keepsPeriods.trans hwritten).trans (.of_support hcontract.1 hcontract.2)
  exact (hrow.trans (reconcileMaintenanceRelationshipsAfterUpdate_keeps hreconciled)).trans
    (syncActiveMaintenanceParentIfNeeded_keeps id reconciled)

-- Patch

/-- A patch of another field than the coverage class loses no period. -/
theorem patchField_keeps {id : Nat} {patch : LicensePatch} {l : License} {s t : Store}
    (hl : s.license? id = some l) (hfield : ∀ value, patch ≠ .maintenanceCoverage value)
    (h : patchField u id patch l s = .ok t)
    : KeepsPeriods u watched s t := by
  have hwritten : ∀ {f : License → License}, (∀ l, (f l).support = l.support) →
      KeepsPeriods u watched s (s.modifyLicense id f) :=
    fun hf => .of_support (Table.Agrees.of_modify hf) rfl
  cases patch with
  | plain field value =>
      obtain rfl := Except.ok.inj h
      exact hwritten fun l => by cases field <;> rfl
  | licenseMetric value =>
      obtain rfl := Except.ok.inj h
      exact hwritten fun _ => rfl
  | date field value =>
      simp only [patchField, bind_eq_ok, pure_eq_ok] at h
      obtain ⟨_, -, rfl⟩ := h
      exact hwritten fun l => by cases field <;> rfl
  | time field value =>
      obtain rfl := Except.ok.inj h
      exact hwritten fun l => by cases field <;> rfl
  | licenseType value =>
      simp only [patchField, bind_eq_ok, pure_eq_ok] at h
      obtain ⟨newType, -, _, -, rfl⟩ := h
      have hsnapshot : KeepsPeriods u watched s
          (snapshotIncludedSupportBeforeTypeChange id newType s) :=
        snapshotIncludedSupportBeforeTypeChange_keeps id newType s
      have hbefore : (snapshotIncludedSupportBeforeTypeChange id newType s).license? id = some l := by
        rw [Store.license?, snapshotIncludedSupportBeforeTypeChange_licenses]
        exact hl
      have hpatched := setType_patched u id newType l
      apply hsnapshot.trans
      apply KeepsPeriods.of_write hbefore
      · intro hs
        exact ⟨hpatched.tracked (hs id l hbefore).tracked, fun _ => supportDefaults_idem u _ _⟩
      · intro hs _ p hholds hc
        by_cases hparent : newType.isMaintenanceParent = true
        · right
          have hgood := hs id l hbefore
          have hcoverage : coverageAfterTypeChange l.licenseType newType l.maintenanceCoverage
              l.activeMaintenanceId = l.maintenanceCoverage := by
            simp [coverageAfterTypeChange, hgood.inactive hholds, hholds.parent, hparent]
          have hmirror : (l.setType u newType).toMaintenanceMirror = l.toMaintenanceMirror := by
            simp only [License.setType, hcoverage]
            exact hgood.defaults_of_holds hholds hparent
          refine ⟨hparent, ?_, ?_, ?_⟩
          · rw [hmirror]
            exact hholds.included
          · rw [hmirror]
            exact hholds.stored
          · rw [License.period, hmirror]
            exact hholds.period
        · left
          apply snapshotIncludedSupportBeforeTypeChange_records hl hholds _
            (Bool.not_eq_true _ ▸ hparent)
          exact fun key old hold => hc key old (hsnapshot.history key old hold)
  | maintenanceCoverage value => exact absurd rfl (hfield value)
  | contractNumber value =>
      simp only [patchField, bind_eq_ok, pure_eq_ok] at h
      obtain ⟨contract, -, rfl⟩ := h
      have hnumber : KeepsPeriods u watched s
          (s.modifyLicense id (fun l => { l with contractNumber := value.getD "" })) :=
        hwritten fun _ => rfl
      exact hnumber.trans (.of_support (Table.Agrees.of_modify fun _ => rfl) rfl)
  | invoiceNumber value =>
      obtain rfl := Except.ok.inj h
      exact hwritten fun _ => rfl
  | poNumber value =>
      obtain rfl := Except.ok.inj h
      refine KeepsPeriods.trans ?_ (syncLicenseLine_keeps u id none _)
      exact hwritten fun _ => rfl
  | currency value =>
      obtain rfl := Except.ok.inj h
      exact hwritten fun _ => rfl
  | reference field value =>
      have hresolved : ∀ details v, OnlyReferences s v →
          KeepsPeriods u watched s (v.modifyLicense id (·.withDetails details)) := by
        intro details v hv
        apply hv.keepsPeriods.trans
        exact .of_support (Table.Agrees.of_modify fun _ => rfl) rfl
      cases field
      all_goals
        simp only [patchField, patchReference, bind_eq_ok, pure_eq_ok] at h
        obtain ⟨⟨details, v⟩, hresolve, rfl⟩ := h
      · exact hresolved details v (resolvePublisher_only hresolve)
      · exact hresolved details v (resolveSupplier_only hresolve)
      · exact hresolved details v (resolveCostCentreField_only hresolve)

/-- What a patch writes last: the support defaults of the patched row. -/
def License.patched (env : Env) (before row : License) : License :=
  syncSupportDefaults env.unicode
    (if before.endDate ≠ row.endDate then row.rescheduled env.today else row)

theorem patched_good {env : Env} {before row : License}
    (h : row.activeMaintenanceId ≠ none → row.maintenanceCoverage = .separatelyTracked)
    : GoodSupport env.unicode (License.patched env before row) := by
  apply GoodSupport.syncSupportDefaults
  split <;> exact h

theorem patched_holds {env : Env} {before row : License} {p : SupportPeriod}
    (hholds : row.HoldsPeriod p) (h : GoodSupport env.unicode row)
    : (License.patched env before row).HoldsPeriod p := by
  unfold License.patched
  split
  · exact License.HoldsPeriod.syncSupportDefaults (hholds.congr rfl) (h.congr rfl)
  · exact hholds.syncSupportDefaults h

theorem patchLicense_keeps {env : Env} {id : Nat} {patch : LicensePatch} {s t : Store}
    (h : patchLicense env id patch s = .ok t)
    : KeepsPeriods env.unicode watched s t := by
  simp only [patchLicense, applyLicenseFieldPatch, bind_eq_ok, flush_eq_ok, found_eq_ok] at h
  obtain ⟨_, ⟨_, -, l, hl, written, hwritten, row, hrow, h⟩, rfl, -⟩ := h
  replace h := pure_eq_ok.mp (of_optional_check h)
  have hpatched : KeepsPeriods env.unicode watched s
      (written.modifyLicense id (License.patched env l)) := by
    by_cases hfield : ∀ value, patch ≠ .maintenanceCoverage value
    · apply (patchField_keeps hl hfield hwritten).trans
      apply KeepsPeriods.of_modify
      intro old _ hgood
      exact ⟨patched_good hgood.tracked, fun _ p hholds => patched_holds hholds hgood⟩
    · obtain ⟨value, rfl⟩ := not_forall_not.mp hfield
      simp only [patchField, bind_eq_ok, pure_eq_ok, asHttp_eq_ok,
        assertActiveMaintenanceAllowsCoverageChange, require_eq_ok] at hwritten
      obtain ⟨coverage, -, _, ⟨_, hallowed, -⟩, rfl⟩ := hwritten
      have htracked : l.activeMaintenanceId ≠ none → coverage = .separatelyTracked := by
        intro hactive
        by_contra hcoverage
        exact hallowed ⟨hactive, hcoverage⟩
      have hx : (s.modifyLicense id (fun l =>
          { l with maintenanceCoverage := coverage })).license? id
            = some { l with maintenanceCoverage := coverage } := by
        rw [Store.license?_modifyLicense_self, hl, Option.map_some]
      refine KeepsPeriods.of_exit hl hx (.of_modify _) rfl (.of_modify _)
        (Store.license?_modifyLicense_self _ _ _) rfl (fun _ _ => patched_good htracked)
        (fun _ => patched_good fun hactive => absurd rfl hactive) (fun hs _ p hholds _ => ?_)
      have hgood := hs id l hl
      refine .inr ⟨hgood.inactive hholds, hholds.period, fun hincluded => ?_⟩
      have hsame : ({ l with maintenanceCoverage := coverage } : License).support = l.support := by
        have hcoverage : coverage = .included := hincluded
        rw [hcoverage, ← hholds.included]
      exact patched_holds (hholds.congr hsame) (hgood.congr hsame)
  subst h
  refine KeepsPeriods.trans ?_ (syncActiveMaintenanceParentIfNeeded_keeps id _)
  split
  · exact hpatched.trans (retireMaintenanceLicense_keeps id _)
  · exact hpatched

-- Entry and import

theorem updateIncludedSupport_keeps {id : Nat} {p : IncludedSupportUpdate} {s t : Store}
    (h : updateIncludedSupport u id p s = .ok t)
    : KeepsPeriods u (· ≠ id) s t := by
  simp only [updateIncludedSupport, applyIncludedSupportUpdate, bind_eq_ok, found_eq_ok,
    require_eq_ok, pure_eq_ok, flush_eq_ok] at h
  obtain ⟨p, -, _, ⟨l, hl, _, -, _, -, _, hactive, rfl⟩, rfl, -⟩ := h
  apply KeepsPeriods.of_write hl
  · intro _
    exact GoodSupport.syncSupportDefaults _ fun h => absurd hactive h
  · exact fun _ hne => absurd rfl hne

/-- A licence of a parent type with included support and no active record. -/
def Store.StaysIncluded (s : Store) (id : Nat) : Prop :=
  ∃ l, s.license? id = some l ∧ l.licenseType.isMaintenanceParent = true
    ∧ l.maintenanceCoverage = .included ∧ l.activeMaintenanceId = none

theorem updateIncludedSupport_stays {id : Nat} {p : IncludedSupportUpdate} {s t : Store}
    (h : updateIncludedSupport u id p s = .ok t)
    : t.StaysIncluded id := by
  simp only [updateIncludedSupport, applyIncludedSupportUpdate, bind_eq_ok, found_eq_ok,
    require_eq_ok, pure_eq_ok, flush_eq_ok] at h
  obtain ⟨p, -, _, ⟨l, hl, _, hparent, _, hincluded, _, hactive, rfl⟩, rfl, -⟩ := h
  obtain ⟨ha, hc⟩ := applyIncludedSupportDefaults_standing u l.toLicenseTerms
    (p.writeMirror l.toMaintenanceMirror)
  refine ⟨syncSupportDefaults u (l.withMirror (p.writeMirror l.toMaintenanceMirror)), ?_, hparent,
    hc.trans hincluded, ha.trans hactive⟩
  rw [Store.license?_modifyLicense_self, hl, Option.map_some]

/-- The parents whose mirrors an imported record rewrites. -/
def mirroringParents (id : Nat) (s : Store) : List Nat :=
  s.licenses.select (fun _ parent => parent.hasActive id)

theorem importSupport_cases {id : Nat} {row : ParsedRow} {l : License} {s t : Store}
    (h : importSupport u id row l s = .ok t)
    : (l.activeMaintenanceId = none ∧ hasMaintenanceUpdateValues row = true
        ∧ t = recordIncludedSupportExit u id l.maintenanceCoverage
          (s.modifyLicense id (fun l => l.withMirror (row.writeSupport l.toMaintenanceMirror))))
      ∨ t = s := by
  unfold importSupport at h
  split at h
  · next hvalues =>
      obtain ⟨hinactive, hcells⟩ := Bool.and_eq_true_iff.mp hvalues
      refine .inl ⟨Option.isNone_iff_eq_none.mp hinactive, hcells, ?_⟩
      split at h
      · simp only [bind_eq_ok, pure_eq_ok] at h
        obtain ⟨_, -, rfl⟩ := h
        rfl
      · exact (pure_eq_ok.mp h).symm
  · exact .inr (Except.ok.inj h).symm

theorem applyImportUpdate_ran {id : Nat} {row : ParsedRow} {l : License} {s t : Store}
    (h : applyImportUpdate u id row l s = .ok t)
    : ∃ f imported, (f l).support = l.support ∧ (f l).toLicenseChain = l.toLicenseChain
        ∧ importSupport u id row l (s.modifyLicense id f) = .ok imported
        ∧ t = if l.licenseType = .maintenance then
            (mirroringParents id (imported.modifyLicense id (syncSupportDefaults u))).foldl
              (fun s parentId => syncParentMirrorFields u parentId s)
              (imported.modifyLicense id (syncSupportDefaults u))
          else imported.modifyLicense id (syncSupportDefaults u) := by
  simp only [applyImportUpdate, bind_eq_ok, require_eq_ok] at h
  obtain ⟨_, -, invoices, -, h⟩ := h
  -- The contract is resolved only where the row names one.
  split at h
  case' isFalse =>
    simp only [bind_eq_ok] at h
    obtain ⟨contractId, -, h⟩ := h
  all_goals
    replace h := of_optional_check h
    simp only [bind_eq_ok, found_eq_ok] at h
    obtain ⟨imported, himported, written, -, h⟩ := h
    replace h := of_optional_check h
    refine ⟨_, imported, rfl, rfl, himported, ?_⟩
    by_cases hmaintenance : l.licenseType = .maintenance
    · rw [if_pos hmaintenance] at h ⊢
      exact (pure_eq_ok.mp h).symm
    · rw [if_neg hmaintenance] at h ⊢
      exact (pure_eq_ok.mp h).symm

theorem syncMirrors_keeps {parents : List Nat} (hnodup : parents.Nodup) {s : Store}
    (h : ∀ parentId ∈ parents, ∀ l, s.license? parentId = some l → l.activeMaintenanceId ≠ none)
    : KeepsPeriods u watched s
        (parents.foldl (fun s parentId => syncParentMirrorFields u parentId s) s) := by
  induction parents generalizing s with
  | nil => exact .refl s
  | cons head rest ih =>
      obtain ⟨hnot, hnodup⟩ := List.nodup_cons.mp hnodup
      rw [List.foldl_cons]
      apply (syncParentMirrorFields_keeps (h head List.mem_cons_self)).trans
      apply ih hnodup
      intro parentId hmem l hl
      have hne : parentId ≠ head := ne_of_mem_of_not_mem hmem hnot
      rw [syncParentMirrorFields, Store.license?_modifyLicense_ne _ _ hne] at hl
      exact h parentId (List.mem_cons_of_mem _ hmem) l hl

theorem mirroringParents_active {id parentId : Nat} {s : Store} {l : License}
    (h : parentId ∈ mirroringParents id s) (hl : s.license? parentId = some l)
    : l.activeMaintenanceId ≠ none := by
  obtain ⟨parent, hparent, hactive⟩ := Table.mem_select.mp h
  obtain rfl := Option.some.inj (hparent.symm.trans hl)
  exact hasActive_active hactive

/-- The period that a licence shows with the support cells of an import row. -/
def ParsedRow.importedPeriod (row : ParsedRow) (l : License) : SupportPeriod :=
  (l.withMirror (row.writeSupport l.toMaintenanceMirror)).period

/-- A row whose support cells end included support and leave its dates and its cost. -/
structure ParsedRow.EndsIncluded (row : ParsedRow) (l : License) : Prop where
  leaves : row.maintenanceCoverage.getD .included ≠ .included
  period : row.importedPeriod l = l.period

/-- An import update loses no period where the row has no support cells or only ends included
support.
-/
theorem importUpdateRow_keeps {env : Env} {id : Nat} {row : ParsedRow} {s t : Store} {l : License}
    (hl : s.license? id = some l)
    (hrow : watched id → hasMaintenanceUpdateValues row = true → row.EndsIncluded l)
    (h : importUpdateRow env id row s = .ok t)
    : KeepsPeriods env.unicode watched s t := by
  simp only [importUpdateRow, bind_eq_ok, found_eq_ok, flush_eq_ok] at h
  obtain ⟨l', hl', v, hupdate, rfl, -⟩ := h
  obtain rfl := Option.some.inj (hl.symm.trans hl')
  obtain ⟨f, imported, hf, -, himported, rfl⟩ := applyImportUpdate_ran hupdate
  have hmirror : (f l).toMaintenanceMirror = l.toMaintenanceMirror := congrArg Prod.snd hf
  have hbeside : KeepsPeriods env.unicode watched s (s.modifyLicense id f) :=
    .of_write hl (fun hs => (hs id l hl).congr hf) fun _ _ _ hholds _ => .inr (hholds.congr hf)
  have hfirst : (s.modifyLicense id f).license? id = some (f l) := by
    rw [Store.license?_modifyLicense_self, hl, Option.map_some]
  have hsupport : KeepsPeriods env.unicode watched s
      (imported.modifyLicense id (syncSupportDefaults env.unicode)) := by
    rcases importSupport_cases himported with ⟨hactive, hcells, rfl⟩ | rfl
    · have hx : ((s.modifyLicense id f).modifyLicense id
          (fun l => l.withMirror (row.writeSupport l.toMaintenanceMirror))).license? id
            = some ((f l).withMirror (row.writeSupport l.toMaintenanceMirror)) := by
        rw [Store.license?_modifyLicense_self, hfirst, Option.map_some, hmirror]
      refine KeepsPeriods.of_exit hl hx ((OthersAlike.of_modify f).trans (.of_modify _)) rfl
        (.of_modify _) (Store.license?_modifyLicense_self _ _ _) rfl (fun _ _ => ?_)
        (fun _ => ?_) (fun _ hw p hholds _ => ?_)
      · exact GoodSupport.syncSupportDefaults _ fun h => absurd hactive h
      · exact GoodSupport.syncSupportDefaults _ fun h => absurd rfl h
      · have hends := hrow hw hcells
        refine .inr ⟨hactive, hends.period.trans hholds.period, fun hincluded => ?_⟩
        have hcoverage : row.maintenanceCoverage.getD l.maintenanceCoverage = .included :=
          hincluded
        rw [hholds.included] at hcoverage
        exact absurd hcoverage hends.leaves
    · apply hbeside.trans
      apply KeepsPeriods.of_modify
      intro old _ hgood
      exact ⟨.syncSupportDefaults old hgood.tracked, fun _ _ hholds => hholds.syncSupportDefaults hgood⟩
  refine KeepsPeriods.trans ?_ (syncLicenseLine_keeps env.unicode id none _)
  split
  · apply hsupport.trans
    apply syncMirrors_keeps ((Table.keys_increase _).imp Nat.ne_of_lt)
    exact fun parentId hmem _ hl => mirroringParents_active hmem hl
  · exact hsupport

/-- An import update that does not end included support leaves it. -/
theorem importUpdateRow_stays {env : Env} {id : Nat} {row : ParsedRow} {s t : Store} {l : License}
    {p : SupportPeriod} (hl : s.license? id = some l) (hholds : l.HoldsPeriod p)
    (hactive : l.activeMaintenanceId = none)
    (hstays : row.maintenanceCoverage.getD .included = .included)
    (h : importUpdateRow env id row s = .ok t)
    : t.StaysIncluded id := by
  simp only [importUpdateRow, bind_eq_ok, found_eq_ok, flush_eq_ok] at h
  obtain ⟨l', hl', v, hupdate, rfl, -⟩ := h
  obtain rfl := Option.some.inj (hl.symm.trans hl')
  obtain ⟨f, imported, hf, -, himported, rfl⟩ := applyImportUpdate_ran hupdate
  have htype : (f l).licenseType = l.licenseType := congrArg Prod.fst hf
  have hmirror : (f l).toMaintenanceMirror = l.toMaintenanceMirror := congrArg Prod.snd hf
  have hparent : l.licenseType ≠ .maintenance := by
    intro hmaintenance
    have hholder := hholds.parent
    rw [hmaintenance] at hholder
    cases hholder
  have hfirst : (s.modifyLicense id f).license? id = some (f l) := by
    rw [Store.license?_modifyLicense_self, hl, Option.map_some]
  have hrow : ∃ new, imported.license? id = some new
      ∧ new.licenseType.isMaintenanceParent = true ∧ new.maintenanceCoverage = .included
      ∧ new.activeMaintenanceId = none := by
    have hnew : (f l).licenseType.isMaintenanceParent = true := by
      rw [htype]
      exact hholds.parent
    rcases importSupport_cases himported with ⟨-, -, rfl⟩ | rfl
    · have hx : ((s.modifyLicense id f).modifyLicense id
          (fun l => l.withMirror (row.writeSupport l.toMaintenanceMirror))).license? id
            = some ((f l).withMirror (row.writeSupport l.toMaintenanceMirror)) := by
        rw [Store.license?_modifyLicense_self, hfirst, Option.map_some, hmirror]
      have hincluded : row.maintenanceCoverage.getD l.maintenanceCoverage = .included := by
        rw [hholds.included]
        exact hstays
      rcases recordIncludedSupportExit_cases env.unicode l.maintenanceCoverage hx with
        ⟨-, he⟩ | ⟨-, hleft, -, -⟩
      · rw [he]
        exact ⟨_, hx, hnew, hincluded, hactive⟩
      · exact absurd hincluded hleft
    · refine ⟨f l, hfirst, hnew, ?_, ?_⟩
      · rw [hmirror]
        exact hholds.included
      · rw [hmirror]
        exact hactive
  obtain ⟨new, hnew, htype, hincluded, hinactive⟩ := hrow
  rw [if_neg hparent]
  obtain ⟨ha, hc⟩ := applyIncludedSupportDefaults_standing env.unicode new.toLicenseTerms
    new.toMaintenanceMirror
  have hstored : (imported.modifyLicense id (syncSupportDefaults env.unicode)).license? id
      = some (syncSupportDefaults env.unicode new) := by
    rw [Store.license?_modifyLicense_self, hnew, Option.map_some]
  have honly := syncLicenseLine_only env.unicode id none
    (imported.modifyLicense id (syncSupportDefaults env.unicode))
  obtain ⟨last, hlast, he⟩ := Table.Agrees.forth (honly.rows.coarsen License.support) hstored
  have hlastType : last.licenseType = new.licenseType := congrArg Prod.fst he
  have hlastMirror : last.toMaintenanceMirror
      = (syncSupportDefaults env.unicode new).toMaintenanceMirror := congrArg Prod.snd he
  refine ⟨last, hlast, ?_, ?_, ?_⟩
  · rw [hlastType]
    exact htype
  · rw [hlastMirror]
    exact hc.trans hincluded
  · rw [hlastMirror]
    exact ha.trans hinactive

-- Creation

theorem insertLicense_keeps {row : License} {s t : Store} {id : Nat} (hgood : GoodSupport u row)
    (h : insertLicense u row s = .ok (id, t))
    : KeepsPeriods u watched s t := by
  obtain ⟨-, -, -, hnumbers⟩ := insertLicense_ok h
  apply (KeepsPeriods.of_insert hgood).trans
  refine .of_support (hnumbers.rows.coarsen License.support) ?_
  rw [hnumbers.rest]

theorem assignLicenseRef_keeps (env : Env) (id : Nat) (s : Store)
    : KeepsPeriods u watched s (assignLicenseRef env id s) := by
  have hissued : KeepsPeriods u watched s (generateLicenseRef env s).2 :=
    .of_support (Table.Agrees.refl _ _) rfl
  apply hissued.trans
  exact .of_support (Table.Agrees.of_modify fun _ => rfl) rfl

theorem maintenanceRow_good (parentId : Nat) {row : License} (h : row.activeMaintenanceId = none)
    : GoodSupport u (maintenanceRow parentId row) := by
  refine ⟨fun hactive => absurd h hactive, fun hparent => ?_⟩
  have htype : (maintenanceRow parentId row).licenseType = .maintenance := rfl
  rw [htype] at hparent
  cases hparent

theorem createMaintenanceForParent_keeps {env : Env} {parentId : Nat} {row : License}
    {s t : Store} {id : Nat} (hrow : row.activeMaintenanceId = none)
    (h : createMaintenanceForParent env parentId row s = .ok (id, t))
    : KeepsPeriods env.unicode watched s t := by
  simp only [createMaintenanceForParent, bind_eq_ok, pure_eq_ok, Prod.mk.injEq] at h
  obtain ⟨⟨resolved, v⟩, hresolved, _, -, ⟨newId, inserted⟩, hinsert, activated, hactivated, -, rfl⟩
    := h
  obtain ⟨⟨details, rfl⟩, hv⟩ := resolveRowReferences_ok hresolved
  have hfresh : (row.withDetails details).activeMaintenanceId = none := hrow
  have hinserted : KeepsPeriods env.unicode watched v inserted :=
    insertLicense_keeps (maintenanceRow_good parentId hfresh) hinsert
  exact ((hv.keepsPeriods.trans hinserted).trans (assignLicenseRef_keeps env newId inserted)).trans
    (activateMaintenanceForParent_keeps hactivated)

theorem createLicenseRecord_keeps {env : Env} {bundleId : Option String} {payload : LicenseCreate}
    {s t : Store} {id : Nat} (h : createLicenseRecord env bundleId payload s = .ok (id, t))
    : KeepsPeriods env.unicode watched s t := by
  simp only [createLicenseRecord, bind_eq_ok] at h
  obtain ⟨_, -, h⟩ := h
  split at h
  · unfold createMaintenanceRecord at h
    split at h
    · simp at h
    · simp only [bind_eq_ok, pure_eq_ok, Prod.mk.injEq] at h
      obtain ⟨_, -, ⟨resolved, v⟩, hresolved, contract, -, ⟨newId, created⟩, hcreated, linked,
        hlinked, -, rfl⟩ := h
      obtain ⟨⟨details, rfl⟩, hv⟩ := resolveRowReferences_ok hresolved
      have hrow : FreshRow (syncInvoiceNumbers ((stripServerOwnedCreateFields payload.row).withMirror
          (applyIncludedSupportDefaults env.unicode
            (stripServerOwnedCreateFields payload.row).toLicenseTerms
            { (stripServerOwnedCreateFields payload.row).toMaintenanceMirror with
              maintenanceCoverage := payload.maintenanceCoverage.getD .unknown }))) :=
        syncInvoiceNumbers_fresh ⟨rfl, (applyIncludedSupportDefaults_standing _ _ _).1⟩
      have hcreated : KeepsPeriods env.unicode watched v created := by
        refine createMaintenanceForParent_keeps ?_ hcreated
        exact hrow.active
      refine each_keeps (P := KeepsPeriods env.unicode watched s) (fun _ _ _ _ hkept hrun => ?_)
        (hv.keepsPeriods.trans hcreated) hlinked
      exact hkept.trans (activateMaintenanceForParent_keeps hrun)
  · simp only [createPlainRecord, bind_eq_ok, pure_eq_ok, Prod.mk.injEq] at h
    obtain ⟨_, -, _, -, ⟨resolved, v⟩, hresolved, _, -, _, -, _, -, contract, -, ⟨newId, inserted⟩,
      hinsert, -, rfl⟩ := h
    obtain ⟨⟨details, rfl⟩, hv⟩ := resolveRowReferences_ok hresolved
    set fresh := syncInvoiceNumbers ((stripServerOwnedCreateFields payload.row).withMirror
      (callerIncludedSupportDetails payload.toLicenseData)) with hfresh
    have hrow : FreshRow fresh := by
      apply syncInvoiceNumbers_fresh
      refine ⟨rfl, ?_⟩
      simp only [License.withMirror, callerIncludedSupportDetails]
      split <;> rfl
    have hgood : GoodSupport env.unicode (syncSupportDefaults env.unicode
        ((fresh.withTerms (normaliseLicenseTypeFields fresh.toLicenseTerms)).withMirror
          { fresh.toMaintenanceMirror with
            maintenanceCoverage := payload.maintenanceCoverage.getD
              (defaultMaintenanceCoverage payload.row.licenseType) })) :=
      .syncSupportDefaults _ fun hactive => absurd hrow.active hactive
    have hinserted : KeepsPeriods env.unicode watched v inserted := by
      refine insertLicense_keeps ?_ hinsert
      exact hgood.congr rfl
    exact (hv.keepsPeriods.trans hinserted).trans (assignLicenseRef_keeps env newId inserted)

theorem createBatchLines_keeps {env : Env} {bundleId : Option String}
    {items : List LicenseBatchCreateItem} {created : List Nat} {s t : Store}
    (h : createBatchLines env bundleId items created s = .ok t)
    : KeepsPeriods env.unicode watched s t := by
  induction items generalizing created s with
  | nil =>
      obtain rfl := Except.ok.inj h
      exact .refl s
  | cons item rest ih =>
      simp only [createBatchLines, bind_eq_ok] at h
      obtain ⟨⟨id, v⟩, hrecord, h⟩ := h
      exact (createLicenseRecord_keeps hrecord).trans (ih h)

end LicenseTrack
