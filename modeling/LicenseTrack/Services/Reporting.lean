import LicenseTrack.Library.Grouping
import LicenseTrack.Money.DecimalSums
import LicenseTrack.Services.LifecycleRules
import LicenseTrack.Services.PoTotalOverride

/-! The figures of the report, over the licences that it can see with their keys. Amounts are exact
rational numbers. A dictionary of amounts by currency is a list of entries in the order in which the
currencies occur; the order in which the report sorts its rows is left out.
-/

namespace LicenseTrack

namespace Report

open Library

/-- Amounts by currency. -/
abbrev Amounts := List (String × ℚ)

/-- The first and the last day of a range. -/
abbrev DateRange := Date × Date

/-- `_money`. -/
def money (u : Unicode) (raw : Option String) : Option ℚ :=
  match u.parseMoney (raw.getD "") with
  | .amount value => some value.toRat
  | _ => none

/-- `calc_line_total`, unrounded. -/
def calcLineTotal (u : Unicode) (quantity unitPrice : String) : Option ℚ :=
  match u.parseMoney quantity, u.parseMoney unitPrice with
  | .amount q, .amount p => some (q.toRat * p.toRat)
  | _, _ => none

/-- `_currency`. -/
def currency (u : Unicode) (l : License) : String :=
  let code := u.normalizeCurrency (if l.currency = "" then "USD" else l.currency)
  if code = "" then "USD" else code

/-- `_term`. -/
def term (l : License) : Option DateRange :=
  let dates :=
    if l.licenseType.isMaintenanceParent = true ∧ l.maintenanceCoverage = .included then
      (l.maintenanceStartDate, l.maintenanceEndDate)
    else (l.startDate, l.endDate)
  match dates with
  | (some start, some finish) => if finish < start then none else some (start, finish)
  | _ => none

/-- `_has_included_support_record`. -/
def hasIncludedSupportRecord (l : License) : Bool :=
  l.licenseType.isMaintenanceParent && l.maintenanceCoverage == .included
    && !isBlank (l.maintenanceCost.getD "")

/-- `_is_paid_included_support`. -/
def isPaidIncludedSupport (u : Unicode) (l : License) : Bool :=
  l.licenseType.isMaintenanceParent && l.maintenanceCoverage == .included
    && decide (0 < (money u l.maintenanceCost).getD 0)

/-- `is_recurring_license`. -/
def isRecurringLicense (l : License) : Bool :=
  match l.licenseType with
  | .subscription | .saas | .maintenance => true
  | type => type.isRenewalOptIn && isRenewableLicense type l.isRenewable

/-- `_is_recurring`. -/
def isRecurring (l : License) : Bool := isRecurringLicense l || hasIncludedSupportRecord l

/-- `_is_recurring_line_value`. -/
def isRecurringLineValue (l : License) : Bool :=
  isRecurringLicense l || (l.licenseType == .freeware && hasIncludedSupportRecord l)

/-- `_overlaps`. -/
def overlaps (l : License) (selected : Option DateRange) : Bool :=
  match selected with
  | none => true
  | some range =>
      if isRecurring l then
        match term l with
        | none => true
        | some (start, finish) => decide (start ≤ range.2 ∧ range.1 ≤ finish)
      else
        match l.startDate, l.endDate with
        | some start, some finish => decide (start ≤ range.2 ∧ range.1 ≤ finish)
        | some start, none => decide (start ≤ range.2)
        | none, some finish => decide (range.1 ≤ finish)
        | none, none => true

/-- The options that decide which licences a report sees. -/
structure ReportOptions where
  includeRetired : Bool := false
  costCentres : List String := []

/-- `_visible`. -/
def visible (options : ReportOptions) (selected : Option DateRange) (l : License) : Bool :=
  if options.includeRetired = false ∧ (l.isRetired = true ∨ l.lifecycleStatus = some .legacy) then
    false
  else if options.costCentres ≠ [] ∧ l.costCentre ∉ options.costCentres then false
  else overlaps l selected

-- Line values and their allocation

/-- Where a line value comes from. -/
inductive LineSource
  | line
  | includedSupport
  | missing
  | excluded
deriving DecidableEq

/-- `_line_value`. -/
def lineValue (u : Unicode) (l : License) : Option ℚ × LineSource :=
  if l.licenseType = .freeware ∧ hasIncludedSupportRecord l = true then
    match money u l.maintenanceCost with
    | some support => (some support, .includedSupport)
    | none => (none, .missing)
  else if l.licenseType = .freeware then (some 0, .excluded)
  else
    match calcLineTotal u l.quantity l.unitPrice with
    | some value => (some value, .line)
    | none => (none, .missing)

/-- What an allocation made of a value. -/
inductive AllocationStatus
  | unpriced
  | full
  | undated
  | outside
  | allocated
deriving DecidableEq

/-- `_allocation`. -/
def allocation (l : License) (value : Option ℚ) (selected : Option DateRange)
    (recurringValue : Option Bool)
    : Option ℚ × AllocationStatus :=
  match value with
  | none => (none, .unpriced)
  | some amount =>
      let shouldAllocate := recurringValue.getD (isRecurringLineValue l)
      match selected with
      | none => (some amount, .full)
      | some range =>
          if shouldAllocate = false then (some amount, .full)
          else
            match term l with
            | none => (none, .undated)
            | some (start, finish) =>
                let overlapStart := max start range.1
                let overlapEnd := min finish range.2
                if overlapEnd < overlapStart then (some 0, .outside)
                else
                  let termDays : ℚ := ((finish - start + 1 : Nat) : ℚ)
                  let overlapDays : ℚ := ((overlapEnd - overlapStart + 1 : Nat) : ℚ)
                  (some (amount * overlapDays / termDays), .allocated)

/-- `_allocation` of the line value. -/
def lineAllocation (u : Unicode) (selected : Option DateRange) (l : License)
    : Option ℚ × AllocationStatus :=
  allocation l (lineValue u l).1 selected none

/-- `_inclusive_term_days`. -/
def inclusiveTermDays (start finish : Option Date) : Option Nat :=
  match start, finish with
  | some start, some finish => if finish < start then none else some (finish - start + 1)
  | _, _ => none

/-- `annualize_term_cost`. -/
def annualizeTermCost (amount : ℚ) (start finish : Option Date) : ℚ :=
  match inclusiveTermDays start finish with
  | none => amount
  | some days => if days ≤ 366 then amount else amount * 365 / (days : ℚ)

/-- Where an annual value comes from. -/
inductive AnnualSource
  | notRecurring
  | missing
  | annualized
deriving DecidableEq

/-- `_annual_recurring_value`. -/
def annualRecurringValue (u : Unicode) (l : License) : Option ℚ × AnnualSource :=
  if isRecurring l = false then (some 0, .notRecurring)
  else
    let amount :=
      if hasIncludedSupportRecord l then money u l.maintenanceCost
      else calcLineTotal u l.quantity l.unitPrice
    match amount with
    | none => (none, .missing)
    | some value =>
        (some (annualizeTermCost value ((term l).map Prod.fst) ((term l).map Prod.snd)),
          .annualized)

/-- `_recurring_term_value`. -/
def recurringTermValue (u : Unicode) (l : License) : Option ℚ × LineSource :=
  if hasIncludedSupportRecord l then
    match money u l.maintenanceCost with
    | some amount => (some amount, .includedSupport)
    | none => (none, .missing)
  else
    match calcLineTotal u l.quantity l.unitPrice with
    | some value => (some value, .line)
    | none => (none, .missing)

/-- `_current_baseline_eligible`. -/
def currentBaselineEligible (l : License) (today : Date) : Bool :=
  if isRecurring l = false then false
  else if l.isRetired = true ∨ l.lifecycleStatus = some .legacy then false
  else
    let status := computeExpirationStatus l today 30
    if status ≠ .active ∧ status ≠ .expiring ∧ status ≠ .perpetual then false
    else if hasIncludedSupportRecord l then
      l.maintenanceStartDate.all (· ≤ today) && l.maintenanceEndDate.all (today ≤ ·)
    else true

/-- `_identity`. -/
def identity (u : Unicode) (id : Nat) (l : License) : ProcurementIdentity × String :=
  (procurementIdentityKey u (some id) l.pendingOrderId l.procurementBundleId l.poNumber
    (currency u l)).getD (.unkeyed id, currency u l)

-- Spend by publisher and supplier

/-- A row of `publisher_data` or `vendor_data`, whose names are its key. -/
structure SpendGroup where
  licenseCount : Nat := 0
  totalSpendByCurrency : Amounts := []
  totalSpend : ℚ := 0
  hasUnpricedLicenses : Bool := false

/-- What `_accumulate_spend_group` does to the group of a licence. -/
def SpendGroup.accumulate (currency : String) (amount : Option ℚ) (source : LineSource)
    (group : SpendGroup)
    : SpendGroup :=
  let group := { group with licenseCount := group.licenseCount + 1 }
  match amount with
  | some value =>
      if source ≠ .excluded then
        { group with
          totalSpendByCurrency := addAmount group.totalSpendByCurrency currency value
          totalSpend := group.totalSpend + value }
      else group
  | none => if source = .missing then { group with hasUnpricedLicenses := true } else group

/-- `_accumulate_spend_group`. -/
def accumulateSpendGroup {κ : Type} [DecidableEq κ] (groups : List (κ × SpendGroup)) (key : κ)
    (currency : String) (amount : Option ℚ) (source : LineSource)
    : List (κ × SpendGroup) :=
  updateEntry key {} (SpendGroup.accumulate currency amount source) groups

/-- `compute_expiration_status`, for a caller that knows when the successor starts. -/
def expirationStatus (l : License) (today : Date) (notificationDays : Nat)
    (successorStart : Option Date)
    : ExpirationStatus :=
  if l.isRetired then .retired
  else if l.lifecycleStatus = some .legacy then .legacy
  else if l.startDate.any (today < ·) then .upcoming
  else match l.endDate with
    | none => if l.licenseType.isNonExpiring then .perpetual else .active
    | some finish =>
        if finish < today then
          if l.renewedToId ≠ none then
            if successorStart.any (· ≤ today) then .renewed else .expired
          else if l.lifecycleStatus = some .renewed then .renewed
          else .expired
        else if finish ≤ today + notificationDays then .expiring
        else .active

/-- `publisher_name or "Unknown"`. -/
def publisher (l : License) : String :=
  if l.publisherName = "" then "Unknown" else l.publisherName

/-- What `_build_lifecycle_spend_data` returns. -/
structure LifecycleSpend where
  activeCount : Nat := 0
  upcomingCount : Nat := 0
  expiringCount : Nat := 0
  expiredCount : Nat := 0
  licenseSpend : Amounts := []
  activeBudget : Amounts := []
  expiringBudget : Amounts := []
  expiredBudget : Amounts := []
  unallocatedValues : Amounts := []
  publisherGroups : List (String × SpendGroup) := []
  vendorGroups : List ((String × String) × SpendGroup) := []
  undatedCount : Nat := 0

/-- `_add`. -/
def addTo (totals : Amounts) (currency : String) : Option ℚ → Amounts
  | none => totals
  | some value => addAmount totals currency value

/-- The amount that a licence adds to `license_spend`. -/
def spendEntry (u : Unicode) (selected : Option DateRange) (l : License) : Option ℚ :=
  let (allocated, status) := lineAllocation u selected l
  if status = .undated then none
  else if (lineValue u l).2 ≠ .excluded then allocated
  else none

/-- The amounts that a licence adds to `unallocated_values`, by the allocation of its line value and
by its own recurring term.
-/
def unallocatedEntries (u : Unicode) (selected : Option DateRange) (l : License) : List ℚ :=
  let (_, status) := lineAllocation u selected l
  (if status = .undated then (lineValue u l).1.toList else [])
    ++ if selected ≠ none ∧ isRecurring l = true ∧ term l = none ∧ status ≠ .undated then
        (lineValue u l).1.toList
      else []

/-- Whether a licence has no period that its values could be allocated to. -/
def isUndated (u : Unicode) (selected : Option DateRange) (l : License) : Bool :=
  decide ((lineAllocation u selected l).2 = .undated
    ∨ selected ≠ none ∧ isRecurring l = true ∧ term l = none)

/-- One round of the loop of `_build_lifecycle_spend_data`. -/
def LifecycleSpend.add (u : Unicode) (selected : Option DateRange) (today : Date)
    (notificationDays : Nat) (successorStart : Nat → Option Date) (report : LifecycleSpend)
    (l : License)
    : LifecycleSpend :=
  let status := expirationStatus l today notificationDays (l.renewedToId.bind successorStart)
  let (allocated, allocationStatus) := lineAllocation u selected l
  let source := (lineValue u l).2
  let code := currency u l
  let budgeted := if allocationStatus ≠ .undated ∧ source ≠ .excluded then allocated else none
  {
    activeCount := report.activeCount + if status = .active ∨ status = .perpetual then 1 else 0
    upcomingCount := report.upcomingCount + if status = .upcoming then 1 else 0
    expiringCount := report.expiringCount + if status = .expiring then 1 else 0
    expiredCount := report.expiredCount + if status = .expired then 1 else 0
    licenseSpend := addTo report.licenseSpend code (spendEntry u selected l)
    activeBudget :=
      if status = .active ∨ status = .perpetual then addTo report.activeBudget code budgeted
      else report.activeBudget
    expiringBudget :=
      if status = .expiring then addTo report.expiringBudget code budgeted
      else report.expiringBudget
    expiredBudget :=
      if status = .expired then addTo report.expiredBudget code budgeted
      else report.expiredBudget
    unallocatedValues :=
      (unallocatedEntries u selected l).foldl (fun totals value => addAmount totals code value)
        report.unallocatedValues
    publisherGroups :=
      accumulateSpendGroup report.publisherGroups (publisher l) code allocated source
    vendorGroups :=
      accumulateSpendGroup report.vendorGroups (publisher l, l.supplier) code allocated source
    undatedCount := report.undatedCount + if isUndated u selected l then 1 else 0
  }

/-- `_build_lifecycle_spend_data`. -/
def buildLifecycleSpendData (u : Unicode) (selected : Option DateRange) (today : Date)
    (notificationDays : Nat) (successorStart : Nat → Option Date) (licenses : List (Nat × License))
    : LifecycleSpend :=
  licenses.foldl
    (fun report row => report.add u selected today notificationDays successorStart row.2) {}

-- Purchase orders

/-- A group of `_build_procurement_data` while it is filled. -/
structure PoGroup where
  identityKey : ProcurementIdentity
  poNumber : Option String
  currency : String
  publisherNames : List String := []
  lineCount : Nat := 0
  pricedLineCount : Nat := 0
  lineValue : ℚ := 0
  override : Option ℚ := none
  hasUndated : Bool := false

/-- The key of the group of a licence. -/
def PoGroup.key (u : Unicode) (row : Nat × License) : ProcurementIdentity × String :=
  identity u row.1 row.2

/-- The group of a licence before the licence is added. -/
def PoGroup.fresh (u : Unicode) (row : Nat × License) : PoGroup :=
  let poNumber := strip row.2.poNumber
  {
    identityKey := (PoGroup.key u row).1
    poNumber := if poNumber = "" then none else some poNumber
    currency := Report.currency u row.2
  }

/-- Adds a licence to its group. -/
def PoGroup.add (u : Unicode) (selected : Option DateRange) (row : Nat × License) (group : PoGroup)
    : PoGroup :=
  let l := row.2
  let (allocated, _) := lineAllocation u selected l
  { group with
    lineCount := group.lineCount + 1
    publisherNames :=
      if l.publisherName ≠ "" ∧ l.publisherName ∉ group.publisherNames then
        group.publisherNames ++ [l.publisherName]
      else group.publisherNames
    pricedLineCount := group.pricedLineCount + if allocated.isSome then 1 else 0
    lineValue := group.lineValue + allocated.getD 0
    hasUndated :=
      group.hasUndated || (selected.isSome && isRecurring l && (term l).isNone)
    override := group.override.or (money u l.poTotalOverride) }

/-- How the value of a purchase compares with its lines. -/
inductive PoStatus
  | unallocated
  | unkeyed
  | override
  | reconciled
  | difference
deriving DecidableEq

/-- A finished row. -/
structure PoRow where
  identityKey : ProcurementIdentity
  poNumber : Option String
  currency : String
  publisher : String
  lineCount : Nat
  pricedLineCount : Nat
  lineValue : ℚ
  override : Option ℚ
  poValue : Option ℚ
  difference : Option ℚ
  status : PoStatus

/-- Whether a purchase is a single licence without an order, a bundle and a PO number. -/
def isUnkeyed : ProcurementIdentity → Bool
  | .unkeyed _ => true
  | _ => false

/-- The value of a purchase: its override, else its lines; none where an override has no period. -/
def PoGroup.poValue (selected : Option DateRange) (group : PoGroup) : Option ℚ :=
  if selected.isSome ∧ group.hasUndated = true ∧ group.override.isSome then none
  else some (group.override.getD group.lineValue)

/-- The row of a group. -/
def PoGroup.row (selected : Option DateRange) (group : PoGroup) : PoRow :=
  let value := group.poValue selected
  let difference := value.map (· - group.lineValue)
  {
    identityKey := group.identityKey
    poNumber := group.poNumber
    currency := group.currency
    publisher :=
      match group.publisherNames with
      | [] => "Unknown publisher"
      | [name] => name
      | _ => "Multiple publishers"
    lineCount := group.lineCount
    pricedLineCount := group.pricedLineCount
    lineValue := group.lineValue
    override := group.override
    poValue := value
    difference := difference
    status :=
      if value = none then .unallocated
      else if isUnkeyed group.identityKey then .unkeyed
      else if group.override.isSome ∧ difference ≠ some 0 then .override
      else if difference = some 0 then .reconciled
      else .difference
  }

/-- The recurring value of a licence that `_build_recurring_forecast_data` adds: the annual value
without a range, the share of the term value with one.
-/
def recurringEntry (u : Unicode) (selected : Option DateRange) (today : Date) (l : License)
    : Option ℚ :=
  match selected with
  | none =>
      if currentBaselineEligible l today then
        let (value, source) := annualRecurringValue u l
        if source = .missing ∨ source = .notRecurring then none else value
      else none
  | some range =>
      if isRecurring l then
        let (value, status) :=
          allocation l (recurringTermValue u l).1 (some range) (some true)
        if status = .outside ∨ status = .undated then none else value
      else none

/-- The annual value of a licence that counts for the forecast. -/
def baselineEntry (u : Unicode) (today : Date) (l : License) : Option ℚ :=
  if currentBaselineEligible l today then
    let (value, source) := annualRecurringValue u l
    if source = .notRecurring then none else value
  else none

/-- The sums of `_build_recurring_forecast_data`. -/
structure RecurringForecast where
  recurringAmount : Amounts := []
  contributorCount : Nat := 0
  forecastBaseline : Amounts := []

/-- One round of the loop of `_build_recurring_forecast_data`. -/
def RecurringForecast.add (u : Unicode) (selected : Option DateRange) (today : Date)
    (report : RecurringForecast) (l : License)
    : RecurringForecast :=
  {
    recurringAmount :=
      addTo report.recurringAmount (currency u l) (recurringEntry u selected today l)
    contributorCount :=
      report.contributorCount + if (recurringEntry u selected today l).isSome then 1 else 0
    forecastBaseline := addTo report.forecastBaseline (currency u l) (baselineEntry u today l)
  }

/-- `_build_recurring_forecast_data`. -/
def buildRecurringForecastData (u : Unicode) (selected : Option DateRange) (today : Date)
    (licenses : List (Nat × License))
    : RecurringForecast :=
  licenses.foldl (fun report row => report.add u selected today row.2) {}

-- Perpetual licences and their maintenance

/-- Where the maintenance of a perpetual licence comes from. -/
inductive MaintenanceSource
  | included
  | includedMissing
  | separatelyTracked
  | separateMissing
  | notTracked
deriving DecidableEq

/-- A row of the maintenance report. -/
structure MaintenanceRow where
  licenseId : Nat
  currency : String
  purchaseValue : Option ℚ
  purchaseSource : LineSource
  maintenanceByCurrency : Amounts
  maintenanceSource : MaintenanceSource
  startDate : Option Date
  endDate : Option Date
  /-- The linked records with their values. -/
  maintenanceRecords : List (Nat × String × Option ℚ)

/-- The sums of `_build_perpetual_maintenance_data`, and the records counted so far. -/
structure PerpetualMaintenance where
  rows : List MaintenanceRow := []
  purchaseByCurrency : Amounts := []
  maintenanceTotals : Amounts := []
  totalByCurrency : Amounts := []
  countedMaintenance : List Nat := []

/-- The parents of a maintenance record: its primary parent and the linked ones. -/
def parentIds (links : Nat → List Nat) (row : Nat × License) : List Nat :=
  (row.2.parentLicenseId.toList ++ links row.1).filter (· ≠ 0)

/-- `maintenance_by_parent`. -/
def linkedRecords (links : Nat → List Nat) (licenses : List (Nat × License)) (parentId : Nat)
    : List (Nat × License) :=
  licenses.filter (fun row => row.2.licenseType = .maintenance ∧ parentId ∈ parentIds links row)

/-- The maintenance of one perpetual licence, with its source. -/
def rowMaintenance (u : Unicode) (l : License) (records : List (Nat × License))
    : Amounts × MaintenanceSource :=
  if l.maintenanceCoverage = .included then
    match money u l.maintenanceCost with
    | some support => (addAmount [] (currency u l) support, .included)
    | none => ([], .includedMissing)
  else if records ≠ [] then
    let amounts := records.foldl
      (fun totals record => addTo totals (currency u record.2) (lineValue u record.2).1) []
    (amounts, if amounts ≠ [] then .separatelyTracked else .separateMissing)
  else ([], .notTracked)

/-- The support that is included with a perpetual licence. -/
def includedSupport (u : Unicode) (l : License) : Option ℚ :=
  if l.maintenanceCoverage = .included then money u l.maintenanceCost else none

/-- Counts a record in a currency, unless it is counted or of another currency. -/
def PerpetualMaintenance.countRecord (u : Unicode) (maintenanceCurrency : String)
    (report : PerpetualMaintenance) (record : Nat × License)
    : PerpetualMaintenance :=
  if currency u record.2 = maintenanceCurrency ∧ record.1 ∉ report.countedMaintenance then
    { report with
      countedMaintenance := report.countedMaintenance ++ [record.1]
      maintenanceTotals :=
        addTo report.maintenanceTotals maintenanceCurrency (lineValue u record.2).1
      totalByCurrency :=
        addTo report.totalByCurrency maintenanceCurrency (lineValue u record.2).1 }
  else report

/-- The row of a perpetual licence with its records. -/
def maintenanceRow (u : Unicode) (records : List (Nat × License)) (row : Nat × License)
    : MaintenanceRow :=
  let l := row.2
  {
    licenseId := row.1
    currency := currency u l
    purchaseValue := (lineValue u l).1
    purchaseSource := (lineValue u l).2
    maintenanceByCurrency := (rowMaintenance u l records).1
    maintenanceSource := (rowMaintenance u l records).2
    startDate := ((term l).map Prod.fst).or l.startDate
    endDate := ((term l).map Prod.snd).or l.endDate
    maintenanceRecords := records.map
      (fun record => (record.1, currency u record.2, (lineValue u record.2).1))
  }

/-- Adds the price and the included support of a perpetual licence. -/
def PerpetualMaintenance.addPrices (u : Unicode) (l : License) (report : PerpetualMaintenance)
    : PerpetualMaintenance :=
  let code := currency u l
  { report with
    maintenanceTotals := addTo report.maintenanceTotals code (includedSupport u l)
    purchaseByCurrency := addTo report.purchaseByCurrency code (lineValue u l).1
    totalByCurrency :=
      addTo (addTo report.totalByCurrency code (includedSupport u l)) code (lineValue u l).1 }

/-- One round of the loop over the perpetual licences. -/
def PerpetualMaintenance.add (u : Unicode) (records : Nat → List (Nat × License))
    (report : PerpetualMaintenance) (row : Nat × License)
    : PerpetualMaintenance :=
  if row.2.licenseType ≠ .perpetual then report
  else
    let own := records row.1
    let report := ((rowMaintenance u row.2 own).1.map Prod.fst).foldl
      (fun report code => own.foldl (PerpetualMaintenance.countRecord u code) report)
      (report.addPrices u row.2)
    { report with rows := report.rows ++ [maintenanceRow u own row] }

/-- `_build_perpetual_maintenance_data`. -/
def buildPerpetualMaintenanceData (u : Unicode) (links : Nat → List Nat)
    (licenses : List (Nat × License))
    : PerpetualMaintenance :=
  licenses.foldl (PerpetualMaintenance.add u (linkedRecords links licenses)) {}

end Report

end LicenseTrack
