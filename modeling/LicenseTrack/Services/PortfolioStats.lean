import LicenseTrack.Orders.PurchaseIdentity
import LicenseTrack.Services.Completeness
import LicenseTrack.Services.Reporting

/-! The figures of the whole portfolio, which the dashboard and the report compute each in a loop of
its own. Amounts are exact rational numbers, and a dictionary of them is a list of entries.
-/

namespace LicenseTrack

namespace Stats

open Library Report

/-- What `Decimal` makes of a text; an infinity and a NaN differ from every sum. -/
inductive DecimalValue
  | finite (value : ℚ)
  | special
deriving DecidableEq

/-- The exponent at the end of a number, none where the text ends otherwise. -/
def readExponentPart (u : Unicode) : List Char → Option Int
  | [] => some 0
  | c :: rest =>
      if c ≠ 'e' ∧ c ≠ 'E' then none
      else
        let (negative, unsigned) := match rest with
          | '-' :: digits => (true, digits)
          | '+' :: digits => (false, digits)
          | digits => (false, digits)
        let (value, count, after) := u.readDigits unsigned 0 0
        if count = 0 ∨ after ≠ [] then none
        else some (if negative then -(value : Int) else value)

/-- The words for an infinity, and for a NaN with digits behind it. -/
def isSpecialWord (u : Unicode) (text : List Char) : Bool :=
  let word := text.map Char.toLower
  let nan := if word.head? = some 's' then word.tail else word
  decide (word = "inf".toList) || decide (word = "infinity".toList)
    || (decide (nan.take 3 = "nan".toList) && (nan.drop 3).all (fun c => (u.digit c).isSome))

/-- `Decimal(text)`, none standing for `InvalidOperation`. -/
def readDecimal (u : Unicode) (text : String) : Option DecimalValue :=
  let plain := (stripChars isSpace text.toList).filter (· != '_')
  let (negative, unsigned) := match plain with
    | '-' :: rest => (true, rest)
    | '+' :: rest => (false, rest)
    | other => (false, other)
  if isSpecialWord u unsigned then some .special
  else
    let (whole, wholeCount, afterWhole) := u.readDigits unsigned 0 0
    let (value, places, rest) := match afterWhole with
      | '.' :: fraction => u.readDigits fraction whole 0
      | other => (whole, 0, other)
    if wholeCount + places = 0 then none
    else
      (readExponentPart u rest).map fun exponent =>
        .finite ((if negative then -1 else 1) * (value : ℚ) * (10 : ℚ) ^ (exponent - (places : Int)))

/-- `_line_total`. -/
def lineTotal (u : Unicode) (l : License) : ℚ := (calcLineTotal u l.quantity l.unitPrice).getD 0

/-- `line_sums`. -/
def lineSums (u : Unicode) (licenses : List (Nat × License))
    : List ((ProcurementIdentity × String) × ℚ) :=
  licenses.foldl (fun sums row =>
    match licenseIdentity u row.1 row.2 with
    | some key => addAmount sums key (lineTotal u row.2)
    | none => sums) []

/-- The key that a licence adds to `differing`, if it adds one. -/
def differingKey (u : Unicode) (sums : List ((ProcurementIdentity × String) × ℚ))
    (row : Nat × License)
    : Option (ProcurementIdentity × String) :=
  let override := row.2.poTotalOverride.getD ""
  match licenseIdentity u row.1 row.2 with
  | none => none
  | some key =>
      if override = "" then none
      else match readDecimal u override with
        | none => none
        | some (.finite value) => if value ≠ amountOf sums key then some key else none
        | some .special => some key

/-- `count_po_overrides_not_in_annual`. -/
def countPoOverridesNotInAnnual (u : Unicode) (included licenses : List (Nat × License)) : Nat :=
  (included.filterMap (differingKey u (lineSums u licenses))).dedup.length

/-- What both loops are given: the licences with their keys, the successors that are loaded with
them, their documents, and the configuration.
-/
structure Portfolio where
  licenses : List (Nat × License)
  renewedTo : Nat → Option License := fun _ => none
  documents : Nat → List DocumentCategory := fun _ => []
  mandatoryFields : MandatoryFields
  notificationDays : Nat := 30
  today : Date

/-- A licence of the portfolio is looked up before the one that is loaded with its predecessor. -/
def Portfolio.successor (p : Portfolio) (row : Nat × License) : Option License :=
  (row.2.renewedToId.bind fun id => p.licenses.reverse.lookup id) <|> p.renewedTo row.1

/-- The status that both loops give to a licence. -/
def Portfolio.status (p : Portfolio) (row : Nat × License) : ExpirationStatus :=
  expirationStatus row.2 p.today p.notificationDays ((p.successor row).bind (·.startDate))

/-- Whether both loops count a licence as incomplete. -/
def Portfolio.isIncomplete (u : Unicode) (p : Portfolio) (row : Nat × License) : Bool :=
  (computeCompleteness u row.2 (p.documents row.1) p.mandatoryFields).any (· < 100)
    && !decide (p.status row ∈ [.retired, .renewed, .legacy])

/-- A `Counter`. -/
abbrev Counter (κ : Type) := κ → Nat

/-- `counter[key] += 1`. -/
def Counter.increment {κ : Type} [DecidableEq κ] (counter : Counter κ) (key : κ) : Counter κ :=
  fun k => counter k + if k = key then 1 else 0

/-- What a licence adds to the annual costs: it may be left out of the totals, or have a cost in a
currency, and be listed in `annual_cost_licenses` or not.
-/
inductive Annual
  | nothing
  | excluded
  | amount (currency : String) (cost : ℚ) (listed : Bool)
deriving DecidableEq

/-- The variables of a loop that are about annual costs. -/
structure AnnualTotals where
  byCurrency : Amounts := []
  licenses : List (Nat × License) := []
  excluded : Nat := 0

/-- What a licence does to these variables. -/
def AnnualTotals.add (totals : AnnualTotals) (row : Nat × License) : Annual → AnnualTotals
  | .nothing => totals
  | .excluded => { totals with excluded := totals.excluded + 1 }
  | .amount currency cost listed =>
      { totals with
        byCurrency := addAmount totals.byCurrency currency cost
        licenses := if listed then totals.licenses ++ [row] else totals.licenses }

-- The dashboard

/-- `parse_money(raw) or Decimal("0")`, none standing for `MoneyParseError`. -/
def numberOrZero : Money → Option ℚ
  | .blank => some 0
  | .amount value => some value.toRat
  | .invalid => none

/-- `calc_recurring_annual_cost`. -/
def calcRecurringAnnualCost (u : Unicode) (l : License) : Option ℚ :=
  match numberOrZero (u.parseMoney l.quantity), numberOrZero (u.parseMoney l.unitPrice) with
  | some quantity, some price => some (annualizeTermCost (quantity * price) l.startDate l.endDate)
  | _, _ => none

/-- `lic.currency or "USD"`. -/
def dashboardCurrency (l : License) : String := if l.currency = "" then "USD" else l.currency

/-- What a licence adds to the annual costs of `compute_stats`. -/
def dashboardAnnual (u : Unicode) (p : Portfolio) (row : Nat × License) : Annual :=
  let l := row.2
  if p.status row ∈ [.active, .perpetual, .expiring] then
    if isRecurringLicense l then
      match calcRecurringAnnualCost u l with
      | some cost => .amount (dashboardCurrency l) cost true
      | none => .excluded
    else if l.licenseType.isMaintenanceParent && hasPaidIncludedSupport u l
        && l.maintenanceStartDate.all (· ≤ p.today) && l.maintenanceEndDate.all (p.today ≤ ·) then
      match numberOrZero (u.parseMoney (l.maintenanceCost.getD "")) with
      | some cost =>
          .amount (dashboardCurrency l)
            (annualizeTermCost cost l.maintenanceStartDate l.maintenanceEndDate) false
      | none => .excluded
    else .nothing
  else .nothing

/-- The parts of a breakdown. -/
inductive WorkflowBucket
  | renewalInProgress
  | retiring
  | notStarted
deriving DecidableEq

/-- `_workflow_bucket`. -/
def workflowBucket (l : License) : WorkflowBucket :=
  if l.lifecycleStatus = some .pendingRenewal then .renewalInProgress
  else if l.retirementScheduled then .retiring
  else .notStarted

/-- The variables of the loop of `compute_stats`. -/
structure DashboardLoop where
  statusCounts : Counter ExpirationStatus := fun _ => 0
  expiring : Counter WorkflowBucket := fun _ => 0
  expired : Counter WorkflowBucket := fun _ => 0
  pending : Nat := 0
  retirementScheduled : Nat := 0
  incomplete : Nat := 0
  annual : AnnualTotals := {}

/-- One round of the loop of `compute_stats`. -/
def DashboardLoop.add (u : Unicode) (p : Portfolio) (loop : DashboardLoop) (row : Nat × License)
    : DashboardLoop :=
  let status := p.status row
  let bucket := workflowBucket row.2
  {
    statusCounts := loop.statusCounts.increment status
    expiring := if status = .expiring then loop.expiring.increment bucket else loop.expiring
    expired := if status = .expired then loop.expired.increment bucket else loop.expired
    pending := loop.pending + if row.2.lifecycleStatus = some .pendingRenewal then 1 else 0
    retirementScheduled := loop.retirementScheduled + if row.2.retirementScheduled then 1 else 0
    incomplete := loop.incomplete + if p.isIncomplete u row then 1 else 0
    annual := loop.annual.add row (dashboardAnnual u p row)
  }

/-- What `compute_stats` returns. -/
structure DashboardStats where
  total : Nat
  totalActive : Nat
  totalExpiring : Nat
  totalExpired : Nat
  expiringBreakdown : Counter WorkflowBucket
  expiredBreakdown : Counter WorkflowBucket
  totalUpcoming : Nat
  totalPending : Nat
  totalRetirementScheduled : Nat
  totalIncomplete : Nat
  totalRetired : Nat
  totalRenewed : Nat
  totalLegacy : Nat
  annualCostByCurrency : Amounts
  excludedFromTotals : Nat
  poOverridesNotInAnnual : Nat

/-- `compute_stats`. -/
def computeStats (u : Unicode) (p : Portfolio) : DashboardStats :=
  let loop := p.licenses.foldl (DashboardLoop.add u p) {}
  {
    total := p.licenses.length
    totalActive :=
      loop.statusCounts .active + loop.statusCounts .perpetual + loop.statusCounts .expiring
    totalExpiring := loop.statusCounts .expiring
    totalExpired := loop.statusCounts .expired
    expiringBreakdown := loop.expiring
    expiredBreakdown := loop.expired
    totalUpcoming := loop.statusCounts .upcoming
    totalPending := loop.pending
    totalRetirementScheduled := loop.retirementScheduled
    totalIncomplete := loop.incomplete
    totalRetired := loop.statusCounts .retired
    totalRenewed := loop.statusCounts .renewed
    totalLegacy := loop.statusCounts .legacy
    annualCostByCurrency := loop.annual.byCurrency
    excludedFromTotals := loop.annual.excluded
    poOverridesNotInAnnual := countPoOverridesNotInAnnual u loop.annual.licenses p.licenses
  }

/-- What a licence adds to the annual costs of `build_portfolio_stats`. -/
def reportAnnual (u : Unicode) (p : Portfolio) (row : Nat × License) : Annual :=
  if currentBaselineEligible row.2 p.today then
    match (annualRecurringValue u row.2).1 with
    | some value => .amount (currency u row.2) value true
    | none => .excluded
  else .nothing

/-- `counts`. -/
structure StatusCounts where
  active : Nat := 0
  upcoming : Nat := 0
  expiring : Nat := 0
  expired : Nat := 0

/-- What a status does to `counts`. -/
def StatusCounts.add (counts : StatusCounts) : ExpirationStatus → StatusCounts
  | .perpetual | .active => { counts with active := counts.active + 1 }
  | .upcoming => { counts with upcoming := counts.upcoming + 1 }
  | .expiring => { counts with expiring := counts.expiring + 1 }
  | .expired => { counts with expired := counts.expired + 1 }
  | .retired | .legacy | .renewed => counts

/-- The variables of the loop of `build_portfolio_stats`. -/
structure PortfolioLoop where
  counts : StatusCounts := {}
  byType : Counter LicenseType := fun _ => 0
  incomplete : Nat := 0
  annual : AnnualTotals := {}

/-- One round of the loop of `build_portfolio_stats`. -/
def PortfolioLoop.add (u : Unicode) (p : Portfolio) (loop : PortfolioLoop) (row : Nat × License)
    : PortfolioLoop :=
  {
    counts := loop.counts.add (p.status row)
    byType := if row.2.isRetired then loop.byType else loop.byType.increment row.2.licenseType
    incomplete := loop.incomplete + if p.isIncomplete u row then 1 else 0
    annual := loop.annual.add row (reportAnnual u p row)
  }

/-- What `build_portfolio_stats` returns. -/
structure PortfolioStats where
  totalActive : Nat
  totalUpcoming : Nat
  totalExpiring : Nat
  totalExpired : Nat
  totalIncomplete : Nat
  annualCostByCurrency : Amounts
  excludedFromTotals : Nat
  poOverridesNotInAnnual : Nat
  byLicenseType : Counter LicenseType

/-- `build_portfolio_stats`. -/
def buildPortfolioStats (u : Unicode) (p : Portfolio) : PortfolioStats :=
  let loop := p.licenses.foldl (PortfolioLoop.add u p) {}
  {
    totalActive := loop.counts.active + loop.counts.expiring
    totalUpcoming := loop.counts.upcoming
    totalExpiring := loop.counts.expiring
    totalExpired := loop.counts.expired
    totalIncomplete := loop.incomplete
    annualCostByCurrency := loop.annual.byCurrency
    excludedFromTotals := loop.annual.excluded
    poOverridesNotInAnnual := countPoOverridesNotInAnnual u loop.annual.licenses p.licenses
    byLicenseType := loop.byType
  }

end Stats

end LicenseTrack
