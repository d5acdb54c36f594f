import LicenseTrack.Maintenance.CoverageRule
import LicenseTrack.Retirement.Requests
import LicenseTrack.Services.IncludedSupport

/-! Included support periods: which licence holds one, what the history has recorded, and that
the maintenance work beside a licence loses none.
-/

namespace LicenseTrack

open Library

/-- The dates and the cost of a period of support. -/
structure SupportPeriod where
  startDate : Option Date
  endDate : Option Date
  cost : Option String
deriving DecidableEq

/-- The period that a licence's mirror shows. -/
def License.period (l : License) : SupportPeriod :=
  ⟨l.maintenanceStartDate, l.maintenanceEndDate, l.maintenanceCost⟩

/-- A licence of a parent type with coverage included and stored support dates or cost. -/
structure License.HoldsPeriod (l : License) (p : SupportPeriod) : Prop where
  parent : l.licenseType.isMaintenanceParent = true
  included : l.maintenanceCoverage = .included
  stored : hasIncludedSupportData l.toMaintenanceMirror = true
  period : l.period = p

/-- A stored licence that holds a period. -/
def Store.Holds (s : Store) (id : Nat) (p : SupportPeriod) : Prop :=
  ∃ l, s.license? id = some l ∧ l.HoldsPeriod p

/-- A history row of included support for a licence. -/
structure CoverageHistory.IsIncluded (row : CoverageHistory) (id : Nat) : Prop where
  parent : row.parentLicenseId = id
  record : row.maintenanceLicenseId = none
  coverage : row.coverageType = MaintenanceCoverage.included.value

/-- The history has exactly this period of included support. -/
def Store.Recorded (s : Store) (id : Nat) (p : SupportPeriod) : Prop :=
  ∃ key row, s.history.get? key = some row ∧ row.IsIncluded id
    ∧ (⟨row.startDate, row.endDate, row.cost⟩ : SupportPeriod) = p

/-- No recorded period of the licence has these dates and another cost. -/
def Store.CostsAgree (s : Store) (id : Nat) (p : SupportPeriod) : Prop :=
  ∀ key row, s.history.get? key = some row → row.IsIncluded id →
    row.startDate = p.startDate → row.endDate = p.endDate → row.cost = p.cost

/-- An active record has written the coverage class, and the columns of included support are as
their pricing basis derives them.
-/
structure GoodSupport (u : Unicode) (l : License) : Prop where
  tracked : l.activeMaintenanceId ≠ none → l.maintenanceCoverage = .separatelyTracked
  derived : l.licenseType.isMaintenanceParent = true →
    applyIncludedSupportDefaults u l.toLicenseTerms l.toMaintenanceMirror = l.toMaintenanceMirror

/-- Every stored licence has good support columns. -/
def SupportGood (u : Unicode) (s : Store) : Prop :=
  ∀ id l, s.license? id = some l → GoodSupport u l

/-- The columns that support reads. -/
def License.support (l : License) : LicenseType × MaintenanceMirror :=
  (l.licenseType, l.toMaintenanceMirror)

theorem supportDefaults_congr (u : Unicode) {t t' : LicenseTerms}
    (ht : t.licenseType.isMaintenanceParent = true)
    (ht' : t'.licenseType.isMaintenanceParent = true) (m : MaintenanceMirror)
    : applyIncludedSupportDefaults u t' m = applyIncludedSupportDefaults u t m := by
  have hplain : ∀ t : LicenseTerms, t.licenseType.isMaintenanceParent = true →
      t.licenseType.isBundledSupport = false := by
    intro t h
    cases hc : t.licenseType
    all_goals
      rw [hc] at h
      first
        | rfl
        | cases h
  simp only [applyIncludedSupportDefaults, applyBundledIncludedSupportDefaults, hplain t ht,
    hplain t' ht', Bool.false_and, Bool.false_eq_true, if_false]

theorem supportDefaults_of_not_included (u : Unicode) (t : LicenseTerms) {m : MaintenanceMirror}
    (h : m.maintenanceCoverage ≠ .included)
    : applyIncludedSupportDefaults u t m = m := by
  simp [applyIncludedSupportDefaults, applyBundledIncludedSupportDefaults, h]

theorem supportDefaults_idem (u : Unicode) (t : LicenseTerms) (m : MaintenanceMirror)
    : applyIncludedSupportDefaults u t (applyIncludedSupportDefaults u t m)
      = applyIncludedSupportDefaults u t m := by
  by_cases hincluded : m.maintenanceCoverage = .included
  · rcases hbasis : m.maintenancePricingBasis with _ | basis
    · by_cases hbundled : t.licenseType.isBundledSupport = true
      · rcases hcost : u.acquisitionTotal (some t.quantity) (some t.unitPrice) none with _ | total
        · simp [applyIncludedSupportDefaults, applyBundledIncludedSupportDefaults, hincluded,
            hbasis, hbundled, hcost]
        · simp [applyIncludedSupportDefaults, applyBundledIncludedSupportDefaults, hincluded,
            hbasis, hbundled, hcost]
      · simp [applyIncludedSupportDefaults, applyBundledIncludedSupportDefaults, hincluded,
          hbasis, hbundled]
    · by_cases hbundled : t.licenseType.isBundledSupport = true
      · rcases hcost : u.acquisitionTotal (some t.quantity) (some t.unitPrice) none with _ | total
        · cases basis <;> simp [applyIncludedSupportDefaults,
            applyBundledIncludedSupportDefaults, hincluded, hbasis, hbundled, hcost]
        · cases basis <;> simp [applyIncludedSupportDefaults,
            applyBundledIncludedSupportDefaults, hincluded, hbasis, hbundled, hcost]
      · cases basis <;> simp [applyIncludedSupportDefaults,
          applyBundledIncludedSupportDefaults, hincluded, hbasis, hbundled]
  · rw [supportDefaults_of_not_included u t hincluded,
      supportDefaults_of_not_included u t hincluded]

namespace GoodSupport

variable {u : Unicode} {l : License}

theorem congr {l' : License} (h : GoodSupport u l) (he : l'.support = l.support)
    : GoodSupport u l' := by
  have htype : l'.licenseType = l.licenseType := congrArg Prod.fst he
  have hmirror : l'.toMaintenanceMirror = l.toMaintenanceMirror := congrArg Prod.snd he
  refine ⟨?_, fun hparent => ?_⟩
  · rw [hmirror]
    exact h.tracked
  · rw [hmirror]
    rw [htype] at hparent
    rw [supportDefaults_congr u hparent (by rw [htype]; exact hparent)]
    exact h.derived hparent

theorem inactive (h : GoodSupport u l) {p : SupportPeriod} (hp : l.HoldsPeriod p)
    : l.activeMaintenanceId = none := by
  by_contra hactive
  have htracked := h.tracked hactive
  rw [hp.included] at htracked
  cases htracked

theorem not_holds (h : GoodSupport u l) (hactive : l.activeMaintenanceId ≠ none)
    (p : SupportPeriod)
    : ¬ l.HoldsPeriod p :=
  fun hp => hactive (h.inactive hp)

theorem clearActive (l : License) : GoodSupport u l.clearActive where
  tracked hactive := absurd rfl hactive
  derived hparent := by
    have hbundled : l.licenseType.isBundledSupport = false := by
      have hparent' : l.licenseType.isMaintenanceParent = true := hparent
      cases hc : l.licenseType
      all_goals
        rw [hc] at hparent'
        first
          | rfl
          | cases hparent'
    simp [applyIncludedSupportDefaults, applyBundledIncludedSupportDefaults, License.clearActive,
      License.withMirror, MaintenanceMirror.cleared, hbundled]

theorem synced (s : Store) (l : License) (m : MaintenanceMirror)
    : GoodSupport u (l.withMirror (s.syncedMirror u m)) := by
  rcases syncedMirror_cases u s m with ⟨id, child, -, -, -, he⟩ | he
  · rw [he]
    exact ⟨fun _ => rfl, fun _ => supportDefaults_of_not_included u _ (by simp [mirrorOf])⟩
  · rw [he]
    exact clearActive (l.withMirror m)

theorem syncSupportDefaults (l : License)
    (h : l.activeMaintenanceId ≠ none → l.maintenanceCoverage = .separatelyTracked)
    : GoodSupport u (syncSupportDefaults u l) := by
  obtain ⟨hactive, hcoverage⟩ :=
    applyIncludedSupportDefaults_standing u l.toLicenseTerms l.toMaintenanceMirror
  refine ⟨fun hnew => ?_, fun _ => supportDefaults_idem u _ _⟩
  refine hcoverage.trans (h ?_)
  intro hnone
  exact hnew (hactive.trans hnone)

end GoodSupport

theorem License.HoldsPeriod.congr {l l' : License} {p : SupportPeriod} (h : l.HoldsPeriod p)
    (he : l'.support = l.support)
    : l'.HoldsPeriod p := by
  have htype : l'.licenseType = l.licenseType := congrArg Prod.fst he
  have hmirror : l'.toMaintenanceMirror = l.toMaintenanceMirror := congrArg Prod.snd he
  refine ⟨?_, ?_, ?_, ?_⟩
  · rw [htype]
    exact h.parent
  · rw [hmirror]
    exact h.included
  · rw [hmirror]
    exact h.stored
  · unfold License.period
    rw [hmirror]
    exact h.period

-- Steps

/-- A step that loses no period of the watched licences: a licence goes on holding it, or the
history has it.
-/
structure KeepsPeriods (u : Unicode) (watched : Nat → Prop) (s t : Store) : Prop where
  good : SupportGood u s → SupportGood u t
  history : ∀ key row, s.history.get? key = some row → t.history.get? key = some row
  kept : SupportGood u s → ∀ id p, watched id → s.Holds id p → s.CostsAgree id p →
    (t.Holds id p ∧ t.CostsAgree id p) ∨ t.Recorded id p

namespace KeepsPeriods

variable {u : Unicode} {watched : Nat → Prop} {s t v : Store}

theorem refl (s : Store) : KeepsPeriods u watched s s :=
  ⟨id, fun _ _ h => h, fun _ _ _ _ hp hc => .inl ⟨hp, hc⟩⟩

theorem recorded (h : KeepsPeriods u watched s t) {id : Nat} {p : SupportPeriod} (hr : s.Recorded id p)
    : t.Recorded id p := by
  obtain ⟨key, row, hrow, hincluded, hp⟩ := hr
  exact ⟨key, row, h.history key row hrow, hincluded, hp⟩

theorem trans (h : KeepsPeriods u watched s t) (h' : KeepsPeriods u watched t v)
    : KeepsPeriods u watched s v where
  good hs := h'.good (h.good hs)
  history key row hrow := h'.history key row (h.history key row hrow)
  kept hs id p hw hp hc := by
    rcases h.kept hs id p hw hp hc with ⟨hp', hc'⟩ | hr
    · exact h'.kept (h.good hs) id p hw hp' hc'
    · exact .inr (h'.recorded hr)

theorem of_support (h : s.licenses.Agrees License.support t.licenses)
    (hhistory : t.history = s.history)
    : KeepsPeriods u watched s t := by
  refine ⟨fun hs id l hl => ?_, fun key row hrow => hhistory ▸ hrow, fun _ id p _ hp hc => ?_⟩
  · obtain ⟨old, hold, he⟩ := Table.Agrees.back h hl
    exact (hs id old hold).congr he
  · obtain ⟨l, hl, hholds⟩ := hp
    obtain ⟨l', hl', he⟩ := Table.Agrees.forth h hl
    refine .inl ⟨⟨l', hl', hholds.congr he⟩, ?_⟩
    unfold Store.CostsAgree
    rw [hhistory]
    exact hc

theorem of_mapLicenses {f : Nat → License → License}
    (h : ∀ id l, s.license? id = some l → GoodSupport u l →
      GoodSupport u (f id l) ∧ (watched id → ∀ p, l.HoldsPeriod p → (f id l).HoldsPeriod p))
    : KeepsPeriods u watched s (s.mapLicenses f) := by
  refine ⟨fun hs id l hl => ?_, fun _ _ hrow => hrow, fun hs id p hw hp hc => .inl ⟨?_, hc⟩⟩
  · rw [Store.license?_mapLicenses] at hl
    obtain ⟨old, hold, rfl⟩ := Option.map_eq_some_iff.mp hl
    exact (h id old hold (hs id old hold)).1
  · obtain ⟨l, hl, hholds⟩ := hp
    refine ⟨f id l, ?_, (h id l hl (hs id l hl)).2 hw p hholds⟩
    rw [Store.license?_mapLicenses, hl, Option.map_some]

theorem of_modify {id : Nat} {f : License → License}
    (h : ∀ l, s.license? id = some l → GoodSupport u l →
      GoodSupport u (f l) ∧ (watched id → ∀ p, l.HoldsPeriod p → (f l).HoldsPeriod p))
    : KeepsPeriods u watched s (s.modifyLicense id f) := by
  refine of_mapLicenses (f := fun key l => if key = id then f l else l) fun key l hl hgood => ?_
  split
  · next hk =>
      subst hk
      exact h l hl hgood
  · exact ⟨hgood, fun _ _ hp => hp⟩

theorem then_write (h : KeepsPeriods u watched s t) {parentId : Nat}
    (hrows : ∀ id, id ≠ parentId → v.license? id = t.license? id)
    (hhistory : v.history = t.history)
    (hgood : SupportGood u s → ∀ l, v.license? parentId = some l → GoodSupport u l)
    (hrecorded : SupportGood u s → ∀ p, watched parentId → s.Holds parentId p →
      s.CostsAgree parentId p → t.Recorded parentId p)
    : KeepsPeriods u watched s v := by
  refine ⟨fun hs id l hl => ?_, fun key row hrow => hhistory ▸ h.history key row hrow,
    fun hs id p hw hp hc => ?_⟩
  · by_cases hk : id = parentId
    · subst hk
      exact hgood hs l hl
    · rw [hrows id hk] at hl
      exact h.good hs id l hl
  · have hsame : t.Recorded id p → v.Recorded id p := by
      unfold Store.Recorded
      rw [hhistory]
      exact fun h => h
    by_cases hk : id = parentId
    · subst hk
      exact .inr (hsame (hrecorded hs p hw hp hc))
    · rcases h.kept hs id p hw hp hc with ⟨⟨l, hl, hholds⟩, hc'⟩ | hr
      · refine .inl ⟨⟨l, (hrows id hk).trans hl, hholds⟩, ?_⟩
        unfold Store.CostsAgree
        rw [hhistory]
        exact hc'
      · exact .inr (hsame hr)

theorem of_insert {row : License} (h : GoodSupport u row)
    : KeepsPeriods u watched s { s with licenses := s.licenses.insert row } := by
  refine ⟨fun hs id l hl => ?_, fun _ _ hrow => hrow, fun _ id p _ hp hc => .inl ⟨?_, hc⟩⟩
  · unfold Store.license? at hl
    rw [Table.get?_insert] at hl
    split at hl
    · obtain rfl := Option.some.inj hl
      exact h
    · exact hs id l hl
  · obtain ⟨l, hl, hholds⟩ := hp
    refine ⟨l, ?_, hholds⟩
    unfold Store.license?
    rw [Table.get?_insert, if_neg]
    · exact hl
    · rintro rfl
      have hmissing := Table.get?_nextKey s.licenses
      rw [Store.license?, hmissing] at hl
      cases hl

theorem foldl {α : Type} {step : Store → α → Store}
    (h : ∀ s a, KeepsPeriods u watched s (step s a))
    (list : List α) (s : Store)
    : KeepsPeriods u watched s (list.foldl step s) := by
  induction list generalizing s with
  | nil => exact refl s
  | cons head rest ih =>
      rw [List.foldl_cons]
      exact (h s head).trans (ih (step s head))

end KeepsPeriods

-- Snapshots

section

variable {watched : Nat → Prop}

theorem snapshotCoveragePeriod_keeps (u : Unicode) {row : CoverageHistory} {s : Store}
    (hrow : ∀ id p, s.Holds id p → row.IsIncluded id →
      row.startDate = p.startDate → row.endDate = p.endDate → row.cost = p.cost)
    : KeepsPeriods u watched s (snapshotCoveragePeriod row s) := by
  obtain ⟨history, heq, hgrows⟩ := snapshotCoveragePeriod_eq row s
  have hlicenses : (snapshotCoveragePeriod row s).licenses = s.licenses := by rw [heq]
  refine ⟨fun hs id l hl => ?_, fun key old hold => ?_, fun _ id p _ hp hc => .inl ⟨?_, ?_⟩⟩
  · rw [Store.license?, hlicenses] at hl
    exact hs id l hl
  · rw [heq]
    exact hgrows.kept key old hold
  · rw [Store.Holds, Store.license?, hlicenses]
    exact hp
  · intro key new hnew hincluded
    simp only [snapshotCoveragePeriod] at hnew
    split at hnew
    · exact hc key new hnew hincluded
    · dsimp only at hnew
      rw [Table.get?_insert] at hnew
      split at hnew
      · obtain rfl := Option.some.inj hnew
        exact hrow id p hp hincluded
      · exact hc key new hnew hincluded

theorem snapshotIncludedSupport_keeps (u : Unicode) (parentId : Nat) (s : Store)
    : KeepsPeriods u watched s (snapshotIncludedSupport parentId s) := by
  unfold snapshotIncludedSupport
  split
  · next parent hparent =>
      split
      · refine snapshotCoveragePeriod_keeps u fun id p hp hincluded _ _ => ?_
        -- The row is about the licence whose mirror it copies.
        obtain ⟨l, hl, hholds⟩ := hp
        have hid : parentId = id := hincluded.parent
        rw [← hid, hparent] at hl
        obtain rfl := Option.some.inj hl
        exact congrArg SupportPeriod.cost hholds.period
      · exact KeepsPeriods.refl s
  · exact KeepsPeriods.refl s

theorem snapshotIncludedSupport_records {parentId : Nat} {s : Store} {p : SupportPeriod}
    {parent : License} (hparent : s.license? parentId = some parent)
    (hstored : hasIncludedSupportData parent.toMaintenanceMirror = true)
    (hperiod : parent.period = p) (hc : s.CostsAgree parentId p)
    : (snapshotIncludedSupport parentId s).Recorded parentId p := by
  have hrow : (includedSupportPeriod parentId parent).IsIncluded parentId := ⟨rfl, rfl, rfl⟩
  unfold snapshotIncludedSupport
  simp only [hparent, hstored, if_true]
  simp only [snapshotCoveragePeriod]
  split
  · next hany =>
      obtain ⟨⟨key, row⟩, hmem, hsame⟩ := List.any_eq_true.mp hany
      simp only [Bool.and_eq_true, beq_iff_eq] at hsame
      obtain ⟨⟨⟨⟨hp, hm⟩, ht⟩, hs⟩, he⟩ := hsame
      have hget := Table.get?_eq_some.mpr hmem
      have hincluded : row.IsIncluded parentId := ⟨hp, hm, ht⟩
      have hstart : row.startDate = p.startDate :=
        hs.trans (congrArg SupportPeriod.startDate hperiod)
      have hend : row.endDate = p.endDate := he.trans (congrArg SupportPeriod.endDate hperiod)
      have hcost := hc key row hget hincluded hstart hend
      refine ⟨key, row, hget, hincluded, ?_⟩
      rw [hstart, hend, hcost]
  · refine ⟨s.history.nextKey, includedSupportPeriod parentId parent, ?_, hrow, hperiod⟩
    rw [Table.get?_insert, if_pos rfl]

theorem snapshotBeforeSwitch_keeps (u : Unicode) (parentId : Nat) (s : Store)
    : KeepsPeriods u watched s (snapshotBeforeSwitch u parentId s) := by
  unfold snapshotBeforeSwitch
  split
  · exact KeepsPeriods.refl s
  · split
    · split
      · exact snapshotIncludedSupport_keeps u parentId s
      · exact KeepsPeriods.refl s
    · split
      · refine snapshotCoveragePeriod_keeps u fun id p _ hincluded _ _ => ?_
        have hrecord := hincluded.record
        cases hrecord
      · exact KeepsPeriods.refl s

theorem snapshotBeforeSwitch_records {u : Unicode} {parentId : Nat} {s : Store}
    (hs : SupportGood u s) {p : SupportPeriod} (hp : s.Holds parentId p)
    (hc : s.CostsAgree parentId p)
    : (snapshotBeforeSwitch u parentId s).Recorded parentId p := by
  obtain ⟨l, hl, hholds⟩ := hp
  have hactive := (hs parentId l hl).inactive hholds
  unfold snapshotBeforeSwitch
  simp only [hl, hactive, hholds.included, true_or, if_true]
  exact snapshotIncludedSupport_records hl hholds.stored hholds.period hc

end

end LicenseTrack
