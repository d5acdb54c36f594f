import LicenseTrack.Library.Calendar
import LicenseTrack.Services.NextTerms
import LicenseTrack.Services.Reporting

/-! The renewals of the next four fiscal quarters. -/

namespace LicenseTrack

namespace Report

open Library

/-- A period of the report. -/
structure Quarter where
  label : String
  first : CivilDate
  last : CivilDate
deriving DecidableEq

/-- The text of `quarter_label`. -/
def quarterLabel (quarter year : Nat) : String := s!"Q{quarter} {year}"

/-- `current_q` of `_renewal_quarters`: the fiscal quarters of the year that are over. -/
def currentQuarter (fiscalMonth : Nat) (today : CivilDate) : Nat :=
  ((today.month - 1 + 12 - (fiscalMonth - 1)) % 12) / 3

/-- `q_month` and `q_year` of `_renewal_quarters`: the month of the year, from zero, and the year that
the first period starts in.
-/
def firstQuarterMonth (fiscalMonth : Nat) (today : CivilDate) : Nat × Nat :=
  let rawMonth := fiscalMonth - 1 + currentQuarter fiscalMonth today * 3
  let year := today.year + rawMonth / 12
  let month := rawMonth % 12
  (month, if today.month - 1 < month then year - 1 else year)

/-- One round of the loop of `_renewal_quarters`; none where `date` raises. -/
def renewalQuarter (fiscalMonth : Nat) (today : CivilDate) (index : Nat) : Option Quarter := do
  let (quarterMonth, quarterYear) := firstQuarterMonth fiscalMonth today
  let rawMonth := quarterMonth + index * 3
  let startMonth := rawMonth % 12
  let startYear := quarterYear + rawMonth / 12
  let first ← civilDate? startYear (startMonth + 1) 1
  let nextMonth := startMonth + 3
  let next ← civilDate? (startYear + nextMonth / 12) (nextMonth % 12 + 1) 1
  let last ← dayBefore? next
  pure
    {
      label := quarterLabel ((currentQuarter fiscalMonth today + index) % 4 + 1) startYear
      first := first
      last := last
    }

/-- `_renewal_quarters`. -/
def renewalQuarters (fiscalMonth : Nat) (today : CivilDate) : Option (List Quarter) :=
  (List.range 4).mapM (renewalQuarter fiscalMonth today)

/-- What a renewal renews. -/
inductive RenewalKind
  | maintenanceRecord
  | licenseTerm
  | includedSupport
deriving DecidableEq

/-- A renewal that the report lists. -/
structure RenewalEvent where
  licenseId : Nat
  licenseRef : Option String
  publisher : String
  softwareDescription : String
  renewalKind : RenewalKind
  eventDate : Date
  currency : String
  renewalValue : Option ℚ
  /-- Where the value comes from; none for a maintenance record. -/
  valueSource : Option AnnualSource
deriving DecidableEq

/-- The kind, the day and the value of the renewal of a licence, with its source. -/
def renewalOf (u : Unicode) (l : License)
    : Option (RenewalKind × Option Date × Option ℚ × Option AnnualSource) :=
  if l.isRetired = true ∨ l.lifecycleStatus = some .legacy ∨ l.lifecycleStatus = some .renewed then
    none
  else if l.licenseType = .maintenance then
    let value := (money u l.maintenanceCost).or (lineValue u l).1
    some (.maintenanceRecord, l.endDate,
      value.map (fun amount => annualizeTermCost amount l.startDate l.endDate), none)
  else if l.licenseType = .subscription ∨ l.licenseType = .saas then
    let (value, source) := annualRecurringValue u l
    some (.licenseTerm, l.endDate, value, some source)
  else if isPaidIncludedSupport u l then
    let (value, source) := annualRecurringValue u l
    some (.includedSupport, l.maintenanceEndDate, value, some source)
  else none

/-- The renewal of a licence, where it has a day. -/
def renewalEvent (u : Unicode) (row : Nat × License) : Option RenewalEvent :=
  match renewalOf u row.2 with
  | some (kind, some day, value, source) =>
      some
        {
          licenseId := row.1
          licenseRef := row.2.licenseRef
          publisher := publisher row.2
          softwareDescription := row.2.softwareDescription
          renewalKind := kind
          eventDate := day
          currency := currency u row.2
          renewalValue := value
          valueSource := source
        }
  | _ => none

/-- A period with the renewals in it. -/
structure RenewalPeriod where
  quarter : Quarter
  count : Nat := 0
  value : Amounts := []
  events : List RenewalEvent := []

/-- Whether a day lies in a period. -/
def Quarter.contains (quarter : Quarter) (day : Date) : Bool :=
  decide (quarter.first.ordinal ≤ day ∧ day ≤ quarter.last.ordinal)

/-- Counts a renewal in a period. -/
def RenewalPeriod.add (event : RenewalEvent) (period : RenewalPeriod) : RenewalPeriod :=
  { period with
    count := period.count + 1
    value := addTo period.value event.currency event.renewalValue
    events := period.events ++ [event] }

/-- Counts a renewal in the first period that it lies in. -/
def addEvent (event : RenewalEvent) : List RenewalPeriod → List RenewalPeriod
  | [] => []
  | period :: rest =>
      if period.quarter.contains event.eventDate then period.add event :: rest
      else period :: addEvent event rest

/-- One round of the loop of `_build_renewal_data`. -/
def addRenewal (u : Unicode) (today : CivilDate) (periods : List RenewalPeriod)
    (row : Nat × License)
    : List RenewalPeriod :=
  match renewalEvent u row with
  | none => periods
  | some event =>
      if event.eventDate < today.ordinal then periods else addEvent event periods

/-- `_build_renewal_data`; none where its dates cannot be computed. -/
def buildRenewalData (u : Unicode) (fiscalMonth : Nat) (today : CivilDate)
    (licenses : List (Nat × License))
    : Option (List RenewalPeriod) :=
  (renewalQuarters fiscalMonth today).map (fun quarters =>
    licenses.foldl (addRenewal u today) (quarters.map (fun quarter => { quarter })))

end Report

end LicenseTrack
