import LicenseTrack.Reports.Spend
import LicenseTrack.Services.PortfolioStats
import Mathlib.Algebra.Order.BigOperators.Group.List
import Mathlib.Data.Finset.Card

/-! Where the figures of the dashboard and of the report agree. The counts by status are always the
same; annual costs are, unless a price is blank, a support cost is none, or a currency is not written
as the report writes it.
-/

namespace LicenseTrack

namespace Stats

open Library Report

variable {u : Unicode} {p : Portfolio}

/-- What a licence adds to the annual cost in a currency. -/
def Annual.costIn (code : String) : Annual → ℚ
  | .amount currency cost _ => if currency = code then cost else 0
  | _ => 0

/-- Whether a licence is listed. -/
def Annual.isListed : Annual → Bool
  | .amount _ _ listed => listed
  | _ => false

/-- Whether a licence has a cost in a currency. -/
def Annual.IsIn (code : String) (annual : Annual) : Prop :=
  ∃ cost listed, annual = .amount code cost listed

/-- The annual costs that a rule for single licences gives to a list of them. -/
def annualTotals (rule : Nat × License → Annual) (rows : List (Nat × License))
    (totals : AnnualTotals)
    : AnnualTotals :=
  rows.foldl (fun totals row => totals.add row (rule row)) totals

section Totals

variable (rule : Nat × License → Annual) (rows : List (Nat × License)) (totals : AnnualTotals)

theorem annualTotals_excluded
    : (annualTotals rule rows totals).excluded
      = totals.excluded + rows.countP (fun row => rule row = .excluded) := by
  induction rows generalizing totals with
  | nil => rfl
  | cons head rest ih =>
      rw [annualTotals, List.foldl_cons, ← annualTotals, ih, List.countP_cons]
      cases h : rule head <;> simp [AnnualTotals.add]
      omega

theorem annualTotals_licenses
    : (annualTotals rule rows totals).licenses
      = totals.licenses ++ rows.filter (fun row => (rule row).isListed) := by
  induction rows generalizing totals with
  | nil => simp [annualTotals]
  | cons head rest ih =>
      rw [annualTotals, List.foldl_cons, ← annualTotals, ih, List.filter_cons]
      rcases h : rule head with _ | _ | ⟨currency, cost, _ | _⟩
        <;> simp [AnnualTotals.add, Annual.isListed]

theorem mem_keys_annualTotals {code : String}
    : code ∈ (annualTotals rule rows totals).byCurrency.map Prod.fst
      ↔ code ∈ totals.byCurrency.map Prod.fst ∨ ∃ row ∈ rows, (rule row).IsIn code := by
  induction rows generalizing totals with
  | nil => simp [annualTotals]
  | cons head rest ih =>
      rw [annualTotals, List.foldl_cons, ← annualTotals, ih, List.exists_mem_cons_iff]
      rcases h : rule head with _ | _ | ⟨currency, cost, listed⟩
      · simp [AnnualTotals.add, Annual.IsIn]
      · simp [AnnualTotals.add, Annual.IsIn]
      · rw [AnnualTotals.add, addAmount, keys_updateEntry]
        have hhead : (Annual.amount currency cost listed).IsIn code ↔ code = currency := by
          simp [Annual.IsIn, eq_comm]
        rw [hhead, or_assoc, or_left_comm]

theorem amountOf_annualTotals (code : String)
    : amountOf (annualTotals rule rows totals).byCurrency code
      = amountOf totals.byCurrency code + (rows.map (fun row => (rule row).costIn code)).sum := by
  induction rows generalizing totals with
  | nil => simp [annualTotals]
  | cons head rest ih =>
      rw [annualTotals, List.foldl_cons, ← annualTotals, ih, List.map_cons, List.sum_cons,
        ← add_assoc]
      congr 1
      cases h : rule head
      · simp [AnnualTotals.add, Annual.costIn]
      · simp [AnnualTotals.add, Annual.costIn]
      · exact amountOf_addAmount _ _ _ _

end Totals

theorem dashboard_annual (u : Unicode) (p : Portfolio)
    : (p.licenses.foldl (DashboardLoop.add u p) {}).annual
      = annualTotals (dashboardAnnual u p) p.licenses {} :=
  (List.foldl_hom DashboardLoop.annual (fun _ _ => rfl)).symm

theorem report_annual (u : Unicode) (p : Portfolio)
    : (p.licenses.foldl (PortfolioLoop.add u p) {}).annual
      = annualTotals (reportAnnual u p) p.licenses {} :=
  (List.foldl_hom PortfolioLoop.annual (fun _ _ => rfl)).symm

/-- The counters of the two loops that say the same. -/
structure SameLoops (dashboard : DashboardLoop) (report : PortfolioLoop) : Prop where
  active
    : report.counts.active
      = dashboard.statusCounts .active + dashboard.statusCounts .perpetual
  upcoming : report.counts.upcoming = dashboard.statusCounts .upcoming
  expiring : report.counts.expiring = dashboard.statusCounts .expiring
  expired : report.counts.expired = dashboard.statusCounts .expired
  incomplete : report.incomplete = dashboard.incomplete

theorem SameLoops.add {dashboard : DashboardLoop} {report : PortfolioLoop}
    (h : SameLoops dashboard report) (row : Nat × License)
    : SameLoops (dashboard.add u p row) (report.add u p row) := by
  obtain ⟨hactive, hupcoming, hexpiring, hexpired, hincomplete⟩ := h
  cases hstatus : p.status row
    <;> constructor
    <;> simp [DashboardLoop.add, PortfolioLoop.add, Counter.increment, StatusCounts.add, hstatus,
      hactive, hupcoming, hexpiring, hexpired, hincomplete]
    <;> omega

theorem SameLoops.run {dashboard : DashboardLoop} {report : PortfolioLoop}
    (h : SameLoops dashboard report) (rows : List (Nat × License))
    : SameLoops (rows.foldl (DashboardLoop.add u p) dashboard)
        (rows.foldl (PortfolioLoop.add u p) report) := by
  induction rows generalizing dashboard report with
  | nil => exact h
  | cons head rest ih => exact ih (h.add head)

-- What counts

/-- A recurring licence in force, whose line is an annual cost. -/
def Portfolio.CountsLine (p : Portfolio) (row : Nat × License) : Prop :=
  p.status row ∈ [.active, .perpetual, .expiring] ∧ isRecurringLicense row.2 = true

/-- A licence in force with included support in force. -/
def Portfolio.CountsSupport (p : Portfolio) (row : Nat × License) : Prop :=
  p.status row ∈ [.active, .perpetual, .expiring] ∧ hasIncludedSupportRecord row.2 = true
    ∧ row.2.maintenanceStartDate.all (· ≤ p.today) = true
    ∧ row.2.maintenanceEndDate.all (p.today ≤ ·) = true

/-- A quantity or a price is no number. -/
def InvalidLine (u : Unicode) (l : License) : Prop :=
  u.parseMoney l.quantity = .invalid ∨ u.parseMoney l.unitPrice = .invalid

/-- A quantity or a price is blank. -/
def BlankLine (u : Unicode) (l : License) : Prop :=
  u.parseMoney l.quantity = .blank ∨ u.parseMoney l.unitPrice = .blank

/-- The cost of the included support. -/
def supportMoney (u : Unicode) (l : License) : Money := u.parseMoney (l.maintenanceCost.getD "")

theorem isMaintenanceParent_of_recurring {l : License} (h : isRecurringLicense l = true)
    : l.licenseType.isMaintenanceParent = false := by
  unfold isRecurringLicense at h
  cases htype : l.licenseType
    <;> simp_all [LicenseType.isRenewalOptIn, LicenseType.isMaintenanceParent]

theorem hasIncludedSupportRecord_of_recurring {l : License} (h : isRecurringLicense l = true)
    : hasIncludedSupportRecord l = false := by
  simp [hasIncludedSupportRecord, isMaintenanceParent_of_recurring h]

theorem inForce_iff {l : License} {today : Date} {notificationDays : Nat}
    {successorStart : Option Date}
    : expirationStatus l today notificationDays successorStart ∈ [.active, .perpetual, .expiring]
      ↔ (¬(l.isRetired = true ∨ l.lifecycleStatus = some .legacy))
        ∧ computeExpirationStatus l today 30 ∈ [.active, .expiring, .perpetual] := by
  unfold expirationStatus computeExpirationStatus
  by_cases hretired : l.isRetired = true
  · simp [hretired]
  by_cases hlegacy : l.lifecycleStatus = some .legacy
  · simp [hretired, hlegacy]
  by_cases hupcoming : l.startDate.any (today < ·) = true
  · simp [hretired, hlegacy, hupcoming]
  simp only [hretired, hlegacy, hupcoming, if_false]
  cases l.endDate with
  | none => cases l.licenseType.isNonExpiring <;> simp
  | some finish =>
      by_cases hended : finish < today
      · by_cases hsuccessor : l.renewedToId = none
        · by_cases hrenewed : l.lifecycleStatus = some .renewed
            <;> simp [hended, hsuccessor, hrenewed]
        · by_cases hstarted : successorStart.any (· ≤ today) = true
            <;> simp [hended, hsuccessor, hstarted]
      · by_cases hsoon : finish ≤ today + notificationDays
          <;> by_cases hmonth : finish ≤ today + 30
          <;> simp [hended, hsoon, hmonth]

theorem annualizeTermCost_term (l : License) (amount : ℚ)
    : annualizeTermCost amount ((term l).map Prod.fst) ((term l).map Prod.snd)
      = if l.licenseType.isMaintenanceParent = true ∧ l.maintenanceCoverage = .included then
          annualizeTermCost amount l.maintenanceStartDate l.maintenanceEndDate
        else annualizeTermCost amount l.startDate l.endDate := by
  -- the term reads its two dates from one pair, which is the support's or the licence's own
  obtain ⟨dates, hdates⟩ : ∃ dates,
      (if l.licenseType.isMaintenanceParent = true ∧ l.maintenanceCoverage = .included then
        (l.maintenanceStartDate, l.maintenanceEndDate)
      else (l.startDate, l.endDate)) = dates := ⟨_, rfl⟩
  trans annualizeTermCost amount dates.1 dates.2
  · simp only [term, hdates]
    obtain ⟨_ | start, _ | finish⟩ := dates
    · rfl
    · rfl
    · rfl
    · by_cases hterm : finish < start
      · simp [hterm, annualizeTermCost, inclusiveTermDays]
      · simp [hterm]
  · rw [← hdates]
    split_ifs <;> rfl

theorem annualizeTermCost_eq (start finish : Option Date)
    : ∃ share : ℚ, 0 < share ∧ ∀ amount, annualizeTermCost amount start finish = amount * share := by
  unfold annualizeTermCost
  cases inclusiveTermDays start finish with
  | none => exact ⟨1, one_pos, fun amount => (mul_one amount).symm⟩
  | some days =>
      by_cases hyear : days ≤ 366
      · exact ⟨1, one_pos, fun amount => by simp [hyear]⟩
      · have hdays : 0 < (days : ℚ) := by
          exact_mod_cast Nat.lt_of_lt_of_le (by decide) (Nat.le_of_not_le hyear)
        refine ⟨365 / days, by positivity, fun amount => ?_⟩
        simp only [hyear, if_false, mul_div_assoc]

theorem hasPaidIncludedSupport_iff {l : License} (hincluded : l.maintenanceCoverage = .included)
    : hasPaidIncludedSupport u l = true
      ↔ ∃ cost, supportMoney u l = .amount cost ∧ 0 < cost.toRat := by
  rw [hasPaidIncludedSupport, if_neg (not_not.mpr hincluded), ← supportMoney]
  cases supportMoney u l with
  | blank => simp
  | invalid => simp
  | amount cost =>
      have hpower : (0 : ℚ) < (10 : ℚ) ^ cost.exponent := by positivity
      have hpositive : 0 < cost.toRat ↔ 0 < cost.signed := by
        rw [Decimal.toRat, mul_pos_iff_of_pos_right hpower, Int.cast_pos]
      simp only [Money.amount.injEq, exists_eq_left', hpositive, Decimal.signed]
      cases cost.negative <;> simp [Nat.pos_iff_ne_zero]

theorem currentBaselineEligible_iff {row : Nat × License}
    : currentBaselineEligible row.2 p.today = true ↔ p.CountsLine row ∨ p.CountsSupport row := by
  have hcondition : ∀ status : ExpirationStatus,
      status ≠ .active ∧ status ≠ .expiring ∧ status ≠ .perpetual
        ↔ status ∉ [.active, .expiring, .perpetual] := by
    simp
  unfold currentBaselineEligible Portfolio.CountsLine Portfolio.CountsSupport Portfolio.status
  simp only [inForce_iff, hcondition, ite_not]
  by_cases hgone : row.2.isRetired = true ∨ row.2.lifecycleStatus = some .legacy
  · simp [hgone]
  by_cases hstatus : computeExpirationStatus row.2 p.today 30 ∈ [.active, .expiring, .perpetual]
  · by_cases hrecurring : isRecurringLicense row.2 = true
    · have hsupport := hasIncludedSupportRecord_of_recurring hrecurring
      simp [hgone, hstatus, isRecurring, hrecurring, hsupport]
    · by_cases hsupport : hasIncludedSupportRecord row.2 = true
      · simp [hgone, hstatus, isRecurring, hrecurring, hsupport]
      · simp [isRecurring, hrecurring, hsupport]
  · simp [hgone, hstatus]

-- One licence

/-- What the two loops make of a licence: the dashboard's rule first, then the report's. -/
inductive Alike (u : Unicode) (p : Portfolio) (row : Nat × License) : Annual → Annual → Prop
  | lineInvalid (line : p.CountsLine row) (invalid : InvalidLine u row.2)
      : Alike u p row .excluded .excluded
  | lineBlank {cost : ℚ} (line : p.CountsLine row) (valid : ¬InvalidLine u row.2)
      (blank : BlankLine u row.2)
      : Alike u p row (.amount (dashboardCurrency row.2) cost true) .excluded
  | linePriced {cost : ℚ} (line : p.CountsLine row) (valid : ¬InvalidLine u row.2)
      (filled : ¬BlankLine u row.2)
      : Alike u p row (.amount (dashboardCurrency row.2) cost true)
          (.amount (currency u row.2) cost true)
  | supportInvalid (support : p.CountsSupport row) (money : supportMoney u row.2 = .invalid)
      : Alike u p row .nothing .excluded
  | supportFree {value : Decimal} {cost : ℚ} (support : p.CountsSupport row)
      (money : supportMoney u row.2 = .amount value) (unpaid : value.toRat ≤ 0)
      (negative : cost ≤ 0) (zero : cost = 0 ↔ value.toRat = 0)
      : Alike u p row .nothing (.amount (currency u row.2) cost true)
  | supportPaid {value : Decimal} {cost : ℚ} (support : p.CountsSupport row)
      (money : supportMoney u row.2 = .amount value) (paid : 0 < value.toRat)
      : Alike u p row (.amount (dashboardCurrency row.2) cost false)
          (.amount (currency u row.2) cost true)
  | neither (line : ¬p.CountsLine row) (support : ¬p.CountsSupport row)
      : Alike u p row .nothing .nothing

theorem alike_line {row : Nat × License} (h : p.CountsLine row)
    : Alike u p row (dashboardAnnual u p row) (reportAnnual u p row) := by
  have hline := h
  obtain ⟨hstatus, hrecurring⟩ := h
  have hsupport := hasIncludedSupportRecord_of_recurring hrecurring
  have heligible : currentBaselineEligible row.2 p.today = true :=
    currentBaselineEligible_iff.mpr (.inl ⟨hstatus, hrecurring⟩)
  simp only [dashboardAnnual, reportAnnual, hstatus, hrecurring, heligible, if_true,
    annualRecurringValue, isRecurring, hsupport, Bool.or_false, Bool.true_eq_false,
    Bool.false_eq_true, if_false, calcRecurringAnnualCost, calcLineTotal,
    annualizeTermCost_term, isMaintenanceParent_of_recurring hrecurring, false_and]
  cases hquantity : u.parseMoney row.2.quantity with
  | invalid => exact .lineInvalid hline (.inl hquantity)
  | blank =>
      cases hprice : u.parseMoney row.2.unitPrice with
      | invalid => exact .lineInvalid hline (.inr hprice)
      | blank | amount price =>
          exact .lineBlank hline (by simp [InvalidLine, hquantity, hprice]) (.inl hquantity)
  | amount quantity =>
      cases hprice : u.parseMoney row.2.unitPrice with
      | invalid => exact .lineInvalid hline (.inr hprice)
      | blank => exact .lineBlank hline (by simp [InvalidLine, hquantity, hprice]) (.inr hprice)
      | amount price =>
          exact .linePriced hline (by simp [InvalidLine, hquantity, hprice])
            (by simp [BlankLine, hquantity, hprice])

theorem alike_support {row : Nat × License} (h : p.CountsSupport row)
    : Alike u p row (dashboardAnnual u p row) (reportAnnual u p row) := by
  have heligible : currentBaselineEligible row.2 p.today = true :=
    currentBaselineEligible_iff.mpr (.inr h)
  have hcounts := h
  obtain ⟨hstatus, hsupport, hstart, hend⟩ := h
  have hrecurring : isRecurringLicense row.2 = false := by
    by_contra hne
    rw [hasIncludedSupportRecord_of_recurring (Bool.not_eq_false _ ▸ hne)] at hsupport
    cases hsupport
  have hrecord := hsupport
  simp only [hasIncludedSupportRecord, Bool.and_eq_true, beq_iff_eq, Bool.not_eq_true'] at hrecord
  obtain ⟨⟨hparent, hincluded⟩, hfilled⟩ := hrecord
  have hpaid := hasPaidIncludedSupport_iff (u := u) hincluded
  obtain ⟨share, hshare, hannual⟩ :=
    annualizeTermCost_eq row.2.maintenanceStartDate row.2.maintenanceEndDate
  simp only [dashboardAnnual, reportAnnual, hstatus, hrecurring, heligible, hparent, hstart, hend,
    if_true, annualRecurringValue, isRecurring, hsupport, Bool.or_true, Bool.true_eq_false,
    Bool.false_eq_true, if_false, Bool.true_and, Bool.and_true, annualizeTermCost_term, hincluded,
    true_and, Report.money, hannual]
  unfold supportMoney at hpaid
  cases hmoney : u.parseMoney (row.2.maintenanceCost.getD "") with
  | blank =>
      rw [Unicode.parseMoney, if_neg (by simp [hfilled])] at hmoney
      split at hmoney <;> cases hmoney
  | invalid =>
      have hunpaid : hasPaidIncludedSupport u row.2 = false := by simpa [hmoney] using hpaid
      simp only [hunpaid, Bool.false_eq_true, if_false]
      exact .supportInvalid hcounts hmoney
  | amount value =>
      simp only [hmoney, Money.amount.injEq, exists_eq_left'] at hpaid
      by_cases hpositive : 0 < value.toRat
      · simp only [hpaid.mpr hpositive, if_true, numberOrZero]
        exact .supportPaid hcounts hmoney hpositive
      · have hunpaid : hasPaidIncludedSupport u row.2 = false :=
          Bool.eq_false_iff.mpr (mt hpaid.mp hpositive)
        simp only [hunpaid, Bool.false_eq_true, if_false]
        have hle := not_lt.mp hpositive
        exact .supportFree hcounts hmoney hle (mul_nonpos_of_nonpos_of_nonneg hle hshare.le)
          (by rw [mul_eq_zero, or_iff_left hshare.ne'])

theorem neitherCounts {row : Nat × License} (hline : ¬p.CountsLine row)
    (hsupport : ¬p.CountsSupport row)
    : dashboardAnnual u p row = .nothing ∧ reportAnnual u p row = .nothing := by
  have heligible : ¬currentBaselineEligible row.2 p.today = true := by
    rw [currentBaselineEligible_iff]
    exact not_or.mpr ⟨hline, hsupport⟩
  refine ⟨?_, if_neg heligible⟩
  unfold dashboardAnnual
  by_cases hstatus : p.status row ∈ [.active, .perpetual, .expiring]
  · have hrecurring : isRecurringLicense row.2 = false :=
      Bool.eq_false_iff.mpr fun h => hline ⟨hstatus, h⟩
    simp only [hstatus, if_true, hrecurring, Bool.false_eq_true, if_false]
    refine if_neg fun hpaid => ?_
    simp only [Bool.and_eq_true] at hpaid
    obtain ⟨⟨⟨hparent, hpaid⟩, hstart⟩, hend⟩ := hpaid
    have hincluded : row.2.maintenanceCoverage = .included := by
      by_contra hother
      rw [hasPaidIncludedSupport, if_pos hother] at hpaid
      cases hpaid
    obtain ⟨cost, hmoney, -⟩ := (hasPaidIncludedSupport_iff hincluded).mp hpaid
    have hfilled : isBlank (row.2.maintenanceCost.getD "") = false := by
      by_contra hblank
      rw [supportMoney, Unicode.parseMoney, if_pos (Bool.not_eq_false _ ▸ hblank)] at hmoney
      cases hmoney
    exact hsupport ⟨hstatus, by simp [hasIncludedSupportRecord, hparent, hincluded, hfilled],
      hstart, hend⟩
  · rw [if_neg hstatus]

theorem alike (u : Unicode) (p : Portfolio) (row : Nat × License)
    : Alike u p row (dashboardAnnual u p row) (reportAnnual u p row) := by
  by_cases hline : p.CountsLine row
  · exact alike_line hline
  · by_cases hsupport : p.CountsSupport row
    · exact alike_support hsupport
    · rw [(neitherCounts hline hsupport).1, (neitherCounts hline hsupport).2]
      exact .neither hline hsupport

theorem not_countsSupport {row : Nat × License} (h : p.CountsLine row) : ¬p.CountsSupport row := by
  intro hsupport
  have hrecord := hsupport.2.1
  rw [hasIncludedSupportRecord_of_recurring h.2] at hrecord
  cases hrecord

theorem not_countsLine {row : Nat × License} (h : p.CountsSupport row) : ¬p.CountsLine row :=
  fun hline => not_countsSupport hline h

/-- A licence whose annual cost the dashboard counts. -/
def Portfolio.Counts (u : Unicode) (p : Portfolio) (row : Nat × License) : Prop :=
  (p.CountsLine row ∧ ¬InvalidLine u row.2)
    ∨ p.CountsSupport row ∧ ∃ cost, supportMoney u row.2 = .amount cost ∧ 0 < cost.toRat

/-- When the two screens agree on a portfolio. -/
structure CountedAlike (u : Unicode) (p : Portfolio) : Prop where
  /-- A recurring licence in force has a quantity and a price, or one of them is no number. -/
  priced : ∀ row ∈ p.licenses, p.CountsLine row → BlankLine u row.2 → InvalidLine u row.2
  /-- Included support in force costs a number that is not negative. -/
  supported
    : ∀ row ∈ p.licenses, p.CountsSupport row →
      ∃ cost, supportMoney u row.2 = .amount cost ∧ 0 ≤ cost.toRat
  /-- The currencies of annual costs are written as the report writes them. -/
  currencies
    : ∀ row ∈ p.licenses, p.Counts u row → dashboardCurrency row.2 = currency u row.2
  /-- Included support in force is in the currency of a counted cost, its own if it is paid. -/
  free
    : ∀ row ∈ p.licenses, p.CountsSupport row →
      ∃ other ∈ p.licenses, p.Counts u other ∧ currency u other.2 = currency u row.2
  /-- The manual total of a purchase with included support is the sum of its lines, or differs from it
  at a recurring licence too.
  -/
  totals
    : ∀ row ∈ p.licenses, p.CountsSupport row →
      ∀ key, differingKey u (lineSums u p.licenses) row = some key →
        ∃ other ∈ p.licenses, (p.CountsLine other ∧ ¬InvalidLine u other.2)
          ∧ differingKey u (lineSums u p.licenses) other = some key

/-- The figures of the annual costs that the two screens share. -/
structure SameAnnualFigures (dashboard : DashboardStats) (report : PortfolioStats) : Prop where
  excluded : dashboard.excludedFromTotals = report.excludedFromTotals
  overrides : dashboard.poOverridesNotInAnnual = report.poOverridesNotInAnnual
  costs
    : ∀ code, entryAt dashboard.annualCostByCurrency code
      = entryAt report.annualCostByCurrency code

/-- The counts that the two screens share. -/
structure SameCounts (dashboard : DashboardStats) (report : PortfolioStats) : Prop where
  active : dashboard.totalActive = report.totalActive
  upcoming : dashboard.totalUpcoming = report.totalUpcoming
  expiring : dashboard.totalExpiring = report.totalExpiring
  expired : dashboard.totalExpired = report.totalExpired
  incomplete : dashboard.totalIncomplete = report.totalIncomplete

theorem sameCounts (u : Unicode) (p : Portfolio)
    : SameCounts (computeStats u p) (buildPortfolioStats u p) := by
  have h : SameLoops (p.licenses.foldl (DashboardLoop.add u p) {})
      (p.licenses.foldl (PortfolioLoop.add u p) {}) :=
    SameLoops.run ⟨rfl, rfl, rfl, rfl, rfl⟩ p.licenses
  exact
    {
      active := by rw [computeStats, buildPortfolioStats, h.active, h.expiring]
      upcoming := h.upcoming.symm
      expiring := h.expiring.symm
      expired := h.expired.symm
      incomplete := h.incomplete.symm
    }

theorem countP_eq_iff {α : Type} {first second : α → Bool} {list : List α}
    (h : ∀ a ∈ list, first a = true → second a = true)
    : list.countP first = list.countP second
      ↔ ∀ a ∈ list, second a = true → first a = true := by
  induction list with
  | nil => simp
  | cons head rest ih =>
      obtain ⟨hhead, hrest⟩ := List.forall_mem_cons.mp h
      have hle := List.countP_mono_left hrest
      rw [List.forall_mem_cons, ← ih hrest, List.countP_cons, List.countP_cons]
      cases hfirst : first head <;> cases hsecond : second head <;> simp_all
      omega

section Alike

variable {row : Nat × License} {dashboard report : Annual}

theorem Alike.report_excluded (h : Alike u p row dashboard report) (hleft : dashboard = .excluded)
    : report = .excluded := by
  cases h with
  | lineInvalid => rfl
  | lineBlank | linePriced | supportInvalid | supportFree | supportPaid | neither => cases hleft

theorem Alike.excluded_iff (h : Alike u p row dashboard report)
    : (report = .excluded → dashboard = .excluded)
      ↔ (p.CountsLine row → BlankLine u row.2 → InvalidLine u row.2)
        ∧ (p.CountsSupport row → supportMoney u row.2 ≠ .invalid) := by
  cases h with
  | lineInvalid line invalid => simp [invalid, not_countsSupport line]
  | lineBlank line valid blank => simp [line, valid, blank]
  | linePriced line valid filled => simp [filled, not_countsSupport line]
  | supportInvalid support money => simp [support, money]
  | supportFree support money => simp [money, not_countsLine support]
  | supportPaid support money => simp [money, not_countsLine support]
  | neither line support => simp [line, support]

end Alike

/-- The report leaves out no licence that the dashboard counts or ignores. -/
def SameExcluded (u : Unicode) (p : Portfolio) : Prop :=
  ∀ row ∈ p.licenses, reportAnnual u p row = .excluded → dashboardAnnual u p row = .excluded

theorem excluded_eq_iff
    : (computeStats u p).excludedFromTotals = (buildPortfolioStats u p).excludedFromTotals
      ↔ SameExcluded u p := by
  simp only [computeStats, buildPortfolioStats, dashboard_annual, report_annual,
    annualTotals_excluded, Nat.zero_add]
  rw [countP_eq_iff fun row _ h => ?_]
  · simp only [SameExcluded, decide_eq_true_eq]
  · simp only [decide_eq_true_eq] at h ⊢
    exact (alike u p row).report_excluded h

theorem sameExcluded_iff
    : SameExcluded u p
      ↔ (∀ row ∈ p.licenses, p.CountsLine row → BlankLine u row.2 → InvalidLine u row.2)
        ∧ ∀ row ∈ p.licenses, p.CountsSupport row → supportMoney u row.2 ≠ .invalid := by
  unfold SameExcluded
  rw [← forall₂_and]
  exact forall₂_congr fun row _ => (alike u p row).excluded_iff

-- Annual costs by currency

section Alike

variable {row : Nat × License} {dashboard report : Annual}

theorem Alike.dashboard_isIn (h : Alike u p row dashboard report) {code : String}
    : dashboard.IsIn code ↔ p.Counts u row ∧ dashboardCurrency row.2 = code := by
  unfold Annual.IsIn Portfolio.Counts
  cases h with
  | lineInvalid line invalid => simp [invalid, not_countsSupport line]
  | lineBlank line valid | linePriced line valid => simp [line, valid]
  | supportInvalid support money => simp [money, not_countsLine support]
  | supportFree support money unpaid => simp [money, not_countsLine support, not_lt.mpr unpaid]
  | supportPaid support money paid => simp [support, money, paid]
  | neither line support => simp [line, support]

theorem Alike.report_isIn (h : Alike u p row dashboard report)
    (hsame : report = .excluded → dashboard = .excluded) {code : String}
    : report.IsIn code
      ↔ (p.Counts u row ∨ p.CountsSupport row) ∧ currency u row.2 = code := by
  unfold Annual.IsIn Portfolio.Counts
  cases h with
  | lineInvalid line invalid => simp [invalid, not_countsSupport line]
  | lineBlank | supportInvalid => cases hsame rfl
  | linePriced line valid => simp [line, valid]
  | supportFree support | supportPaid support => simp [support]
  | neither line support => simp [line, support]

theorem Alike.costIn_cases (h : Alike u p row dashboard report)
    (hsame : report = .excluded → dashboard = .excluded)
    (hspelled : p.Counts u row → dashboardCurrency row.2 = currency u row.2)
    : ((∀ code, report.costIn code = dashboard.costIn code)
        ∧ (p.CountsSupport row → ∃ cost, supportMoney u row.2 = .amount cost ∧ 0 ≤ cost.toRat))
      ∨ p.CountsSupport row ∧ ∃ value cost, supportMoney u row.2 = .amount value
        ∧ value.toRat ≤ 0 ∧ cost ≤ 0 ∧ (cost = 0 ↔ value.toRat = 0)
        ∧ dashboard = .nothing ∧ report = .amount (currency u row.2) cost true := by
  unfold Portfolio.Counts at hspelled
  cases h with
  | lineInvalid line => exact .inl ⟨fun _ => rfl, fun h => absurd h (not_countsSupport line)⟩
  | lineBlank | supportInvalid => cases hsame rfl
  | linePriced line valid =>
      rw [hspelled (.inl ⟨line, valid⟩)]
      exact .inl ⟨fun _ => rfl, fun h => absurd h (not_countsSupport line)⟩
  | supportFree support money unpaid negative zero =>
      exact .inr ⟨support, _, _, money, unpaid, negative, zero, rfl, rfl⟩
  | supportPaid support money paid =>
      rw [hspelled (.inr ⟨support, _, money, paid⟩)]
      exact .inl ⟨fun _ => rfl, fun _ => ⟨_, money, paid.le⟩⟩
  | neither line support => exact .inl ⟨fun _ => rfl, fun h => absurd h support⟩

theorem Alike.costIn_le (h : Alike u p row dashboard report)
    (hsame : report = .excluded → dashboard = .excluded)
    (hspelled : p.Counts u row → dashboardCurrency row.2 = currency u row.2) (code : String)
    : report.costIn code ≤ dashboard.costIn code := by
  rcases h.costIn_cases hsame hspelled with ⟨hcost, -⟩
    | ⟨-, value, cost, -, -, hnegative, -, rfl, rfl⟩
  · exact (hcost code).le
  · simp only [Annual.costIn]
    split_ifs
    · exact hnegative
    · exact le_rfl

end Alike

theorem currency_eq_of_spelled (hu : CurrenciesOnce u) {l other : License}
    (h : dashboardCurrency l = currency u other)
    : dashboardCurrency l = currency u l := by
  have hcode : u.normalizeCurrency (dashboardCurrency l) = dashboardCurrency l := by
    rw [h, normalizeCurrency_currency hu]
  have hne : dashboardCurrency l ≠ "" := h ▸ currency_ne u other
  rw [dashboardCurrency] at hcode hne ⊢
  simp only [currency, hcode, hne, if_false]

/-- The costs by currency are the same just if the conditions on currencies and support hold. -/
theorem costs_eq_iff (hu : CurrenciesOnce u) (hsame : SameExcluded u p)
    : (∀ code, entryAt (computeStats u p).annualCostByCurrency code
          = entryAt (buildPortfolioStats u p).annualCostByCurrency code)
      ↔ (∀ row ∈ p.licenses, p.Counts u row → dashboardCurrency row.2 = currency u row.2)
        ∧ (∀ row ∈ p.licenses, p.CountsSupport row →
          ∃ cost, supportMoney u row.2 = .amount cost ∧ 0 ≤ cost.toRat)
        ∧ ∀ row ∈ p.licenses, p.CountsSupport row →
          ∃ other ∈ p.licenses, p.Counts u other ∧ currency u other.2 = currency u row.2 := by
  simp only [computeStats, buildPortfolioStats, dashboard_annual, report_annual]
  rw [entryAt_eq_iff]
  simp only [mem_keys_annualTotals, amountOf_annualTotals, List.map_nil, List.not_mem_nil, false_or,
    amountOf_nil, zero_add]
  constructor
  · rintro ⟨hkeys, htotals⟩
    have hspelled : ∀ row ∈ p.licenses, p.Counts u row →
        dashboardCurrency row.2 = currency u row.2 := by
      intro row hrow hcounts
      have hrowIsIn := (alike u p row).dashboard_isIn.mpr ⟨hcounts, rfl⟩
      obtain ⟨other, hother, hisIn⟩ :=
        (hkeys (dashboardCurrency row.2)).mp ⟨row, hrow, hrowIsIn⟩
      have hcode := (((alike u p other).report_isIn (hsame other hother)).mp hisIn).2
      exact currency_eq_of_spelled hu hcode.symm
    refine ⟨hspelled, fun row hrow hsupport => ?_, fun row hrow hsupport => ?_⟩
    · rcases (alike u p row).costIn_cases (hsame row hrow) (hspelled row hrow) with ⟨-, hcost⟩
        | ⟨-, value, cost, hmoney, hunpaid, hnegative, hzero, hdashboard, hreport⟩
      · exact hcost hsupport
      · refine ⟨value, hmoney, le_of_eq (hzero.mp ?_).symm⟩
        by_contra hne
        have hless : (reportAnnual u p row).costIn (currency u row.2)
            < (dashboardAnnual u p row).costIn (currency u row.2) := by
          rw [hdashboard, hreport]
          simpa [Annual.costIn] using lt_of_le_of_ne hnegative hne
        have hle := fun other hother =>
          (alike u p other).costIn_le (hsame other hother) (hspelled other hother)
            (currency u row.2)
        exact absurd (htotals (currency u row.2)).symm
          (List.sum_lt_sum _ _ hle ⟨row, hrow, hless⟩).ne
    · obtain ⟨other, hother, hisIn⟩ := (hkeys (currency u row.2)).mpr
        ⟨row, hrow, ((alike u p row).report_isIn (hsame row hrow)).mpr ⟨.inr hsupport, rfl⟩⟩
      obtain ⟨hcounts, hcode⟩ := (alike u p _).dashboard_isIn.mp hisIn
      exact ⟨other, hother, hcounts, (hspelled other hother hcounts).symm.trans hcode⟩
  · rintro ⟨hspelled, hsupported, hfree⟩
    constructor
    · intro code
      constructor
      · rintro ⟨row, hrow, hisIn⟩
        obtain ⟨hcounts, hcode⟩ := (alike u p _).dashboard_isIn.mp hisIn
        exact ⟨row, hrow, ((alike u p row).report_isIn (hsame row hrow)).mpr
          ⟨.inl hcounts, (hspelled row hrow hcounts).symm.trans hcode⟩⟩
      · rintro ⟨row, hrow, hisIn⟩
        obtain ⟨hcounts | hsupport, hcode⟩ :=
          ((alike u p row).report_isIn (hsame row hrow)).mp hisIn
        · exact ⟨row, hrow, (alike u p row).dashboard_isIn.mpr
            ⟨hcounts, (hspelled row hrow hcounts).trans hcode⟩⟩
        · obtain ⟨other, hother, hcounts, hsamecode⟩ := hfree row hrow hsupport
          exact ⟨other, hother, (alike u p other).dashboard_isIn.mpr
            ⟨hcounts, (hspelled other hother hcounts).trans (hsamecode.trans hcode)⟩⟩
    · intro code
      congr 1
      refine List.map_congr_left fun row hrow => ?_
      rcases (alike u p row).costIn_cases (hsame row hrow) (hspelled row hrow) with ⟨hcost, -⟩
        | ⟨hsupport, value, cost, hmoney, hunpaid, -, hzero, hdashboard, hreport⟩
      · exact (hcost code).symm
      · obtain ⟨value', hmoney', hpositive⟩ := hsupported row hrow hsupport
        obtain rfl : value = value' := Money.amount.inj (hmoney.symm.trans hmoney')
        have hcost : cost = 0 := hzero.mpr (le_antisymm hunpaid hpositive)
        rw [hdashboard, hreport, hcost]
        simp [Annual.costIn]

-- Manual totals

theorem dedup_length_eq_iff {α : Type} [DecidableEq α] {part list : List α}
    (h : ∀ a ∈ part, a ∈ list)
    : part.dedup.length = list.dedup.length ↔ ∀ a ∈ list, a ∈ part := by
  rw [← List.card_toFinset, ← List.card_toFinset]
  have hsubset : part.toFinset ⊆ list.toFinset := fun a ha => by
    simpa using h a (by simpa using ha)
  constructor
  · intro hcard a ha
    have hsame := Finset.eq_of_subset_of_card_le hsubset hcard.ge
    rwa [← List.mem_toFinset, hsame, List.mem_toFinset]
  · intro hall
    congr 1
    exact Finset.Subset.antisymm hsubset fun a ha => by simpa using hall a (by simpa using ha)

theorem Alike.dashboard_isListed {row : Nat × License} {dashboard report : Annual}
    (h : Alike u p row dashboard report)
    : dashboard.isListed = true ↔ p.CountsLine row ∧ ¬InvalidLine u row.2 := by
  cases h with
  | lineInvalid line invalid => simp [Annual.isListed, invalid]
  | lineBlank line valid | linePriced line valid => simp [Annual.isListed, line, valid]
  | supportInvalid support | supportFree support | supportPaid support =>
      simp [Annual.isListed, not_countsLine support]
  | neither line => simp [Annual.isListed, line]

theorem Alike.report_isListed {row : Nat × License} {dashboard report : Annual}
    (h : Alike u p row dashboard report) (hsame : report = .excluded → dashboard = .excluded)
    : report.isListed = true
      ↔ (p.CountsLine row ∧ ¬InvalidLine u row.2) ∨ p.CountsSupport row := by
  cases h with
  | lineInvalid line invalid => simp [Annual.isListed, invalid, not_countsSupport line]
  | lineBlank | supportInvalid => cases hsame rfl
  | linePriced line valid => simp [Annual.isListed, line, valid]
  | supportFree support | supportPaid support => simp [Annual.isListed, support]
  | neither line support => simp [Annual.isListed, line, support]

theorem overrides_eq_iff (hsame : SameExcluded u p)
    : (computeStats u p).poOverridesNotInAnnual = (buildPortfolioStats u p).poOverridesNotInAnnual
      ↔ ∀ row ∈ p.licenses, p.CountsSupport row →
        ∀ key, differingKey u (lineSums u p.licenses) row = some key →
          ∃ other ∈ p.licenses, (p.CountsLine other ∧ ¬InvalidLine u other.2)
            ∧ differingKey u (lineSums u p.licenses) other = some key := by
  simp only [computeStats, buildPortfolioStats, dashboard_annual, report_annual,
    annualTotals_licenses, List.nil_append, countPoOverridesNotInAnnual]
  have hdashboard : ∀ key, key ∈ (p.licenses.filter (fun row =>
        (dashboardAnnual u p row).isListed)).filterMap (differingKey u (lineSums u p.licenses))
      ↔ ∃ row ∈ p.licenses, (p.CountsLine row ∧ ¬InvalidLine u row.2)
        ∧ differingKey u (lineSums u p.licenses) row = some key := by
    intro key
    simp only [List.mem_filterMap, List.mem_filter, (alike u p _).dashboard_isListed, and_assoc]
  have hreport : ∀ key, key ∈ (p.licenses.filter (fun row =>
        (reportAnnual u p row).isListed)).filterMap (differingKey u (lineSums u p.licenses))
      ↔ ∃ row ∈ p.licenses, ((p.CountsLine row ∧ ¬InvalidLine u row.2) ∨ p.CountsSupport row)
        ∧ differingKey u (lineSums u p.licenses) row = some key := by
    intro key
    simp only [List.mem_filterMap, List.mem_filter, and_assoc]
    exact exists_congr fun row => and_congr_right fun hrow =>
      and_congr_left fun _ => (alike u p row).report_isListed (hsame row hrow)
  rw [dedup_length_eq_iff fun key hkey => ?_]
  · constructor
    · intro h row hrow hsupport key hkey
      exact (hdashboard key).mp (h key ((hreport key).mpr ⟨row, hrow, .inr hsupport, hkey⟩))
    · intro h key hkey
      obtain ⟨row, hrow, hline | hsupport, hdiffers⟩ := (hreport key).mp hkey
      · exact (hdashboard key).mpr ⟨row, hrow, hline, hdiffers⟩
      · exact (hdashboard key).mpr (h row hrow hsupport key hdiffers)
  · obtain ⟨row, hrow, hline, hdiffers⟩ := (hdashboard key).mp hkey
    exact (hreport key).mpr ⟨row, hrow, .inl hline, hdiffers⟩

/-- The counts by status agree on every portfolio, and the figures about annual costs on those that
are counted alike.
-/
theorem stats_agree (hu : CurrenciesOnce u) (p : Portfolio)
    : SameCounts (computeStats u p) (buildPortfolioStats u p)
      ∧ (SameAnnualFigures (computeStats u p) (buildPortfolioStats u p) ↔ CountedAlike u p) := by
  refine ⟨sameCounts u p, ?_⟩
  constructor
  · rintro ⟨hexcluded, hoverrides, hcosts⟩
    have hsame := excluded_eq_iff.mp hexcluded
    obtain ⟨hcurrencies, hsupported, hfree⟩ := (costs_eq_iff hu hsame).mp hcosts
    exact
      {
        priced := (sameExcluded_iff.mp hsame).1
        supported := hsupported
        currencies := hcurrencies
        free := hfree
        totals := (overrides_eq_iff hsame).mp hoverrides
      }
  · intro h
    have hsame : SameExcluded u p := sameExcluded_iff.mpr ⟨h.priced, fun row hrow hsupport => by
      obtain ⟨cost, hmoney, -⟩ := h.supported row hrow hsupport
      rw [hmoney]
      exact Money.noConfusion⟩
    exact
      {
        excluded := excluded_eq_iff.mpr hsame
        overrides := (overrides_eq_iff hsame).mpr h.totals
        costs := (costs_eq_iff hu hsame).mpr ⟨h.currencies, h.supported, h.free⟩
      }

/-- A portfolio of one subscription. -/
def oneSubscription (price : String) : Portfolio where
  licenses := [(1, { License.ofTerm .subscription (some 1) (some 365) with
    quantity := "2"
    unitPrice := price })]
  mandatoryFields := ⟨[], List.nodup_nil⟩
  today := 100

/-- A subscription with a quantity and a price is counted alike. -/
theorem stats_agree_subscription
    : SameCounts (computeStats capitals (oneSubscription "10"))
        (buildPortfolioStats capitals (oneSubscription "10"))
      ∧ SameAnnualFigures (computeStats capitals (oneSubscription "10"))
        (buildPortfolioStats capitals (oneSubscription "10")) := by
  have hagree := stats_agree capitals_currenciesOnce (oneSubscription "10")
  refine ⟨hagree.1, hagree.2.mpr ?_⟩
  have hnone : ∀ row ∈ (oneSubscription "10").licenses,
      ¬(oneSubscription "10").CountsSupport row := by
    intro row hrow hsupport
    obtain rfl := List.mem_singleton.mp hrow
    exact absurd hsupport.2.1 (by decide +kernel)
  exact
    {
      priced := fun row hrow _ hblank => by
        obtain rfl := List.mem_singleton.mp hrow
        exact absurd hblank (not_or.mpr ⟨by decide +kernel, by decide +kernel⟩)
      supported := fun row hrow hsupport => absurd hsupport (hnone row hrow)
      currencies := fun row hrow _ => by
        obtain rfl := List.mem_singleton.mp hrow
        decide +kernel
      free := fun row hrow hsupport => absurd hsupport (hnone row hrow)
      totals := fun row hrow hsupport => absurd hsupport (hnone row hrow)
    }

/-- A subscription without a price costs nothing on the dashboard and is left out of the report. -/
theorem stats_differ
    : (computeStats capitals (oneSubscription "")).excludedFromTotals = 0
      ∧ (buildPortfolioStats capitals (oneSubscription "")).excludedFromTotals = 1
      ∧ ¬SameAnnualFigures (computeStats capitals (oneSubscription ""))
        (buildPortfolioStats capitals (oneSubscription "")) := by
  have hdashboard : (computeStats capitals (oneSubscription "")).excludedFromTotals = 0 := by
    decide +kernel
  have hreport : (buildPortfolioStats capitals (oneSubscription "")).excludedFromTotals = 1 := by
    decide +kernel
  refine ⟨hdashboard, hreport, fun hsame => ?_⟩
  have hexcluded := hsame.excluded
  rw [hdashboard, hreport] at hexcluded
  cases hexcluded

end Stats

end LicenseTrack
