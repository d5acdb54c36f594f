import LicenseTrack.Library.Calendar
import LicenseTrack.Services.Completeness
import LicenseTrack.Services.LifecycleRules

/-! The alerts of a licence: the days of included support that it has left, and
`classify_license_alerts` with the texts and severities of each alert.
-/

namespace LicenseTrack

open Library

/-- `(later - earlier).days`. -/
def daysBetween (earlier later : Date) : Int := (later : Int) - earlier

/-- A number with zeros in front up to a width. -/
def zeroFilled (width n : Nat) : String :=
  let digits := Nat.toDigits 10 n
  String.ofList (List.replicate (width - digits.length) '0' ++ digits)

/-- `date.isoformat()`. -/
def isoformat (date : Date) : String :=
  let civil := CivilDate.ofOrdinal date
  zeroFilled 4 civil.year ++ "-" ++ zeroFilled 2 civil.month ++ "-" ++ zeroFilled 2 civil.day

-- Alerts

/-- `compute_support_days_remaining`. -/
def computeSupportDaysRemaining (l : License) (today : Date) : Option Int :=
  if l.licenseType.isMaintenanceParent = false then none
  else if l.maintenanceCoverage ≠ .included then none
  else match l.maintenanceEndDate with
    | none => none
    | some finish =>
        if l.isRetired ∨ l.lifecycleStatus = some .legacy then none
        else some (daysBetween today finish)

inductive AlertType
  | expired
  | expiring
  | supportExpired
  | supportExpiring
  | noticeDue
  | incomplete
deriving DecidableEq, Repr

inductive Severity
  | critical
  | warning
  | info
deriving DecidableEq, Repr

/-- The dictionary of `_alert`, the keys that repeat another one's value left out. -/
structure Alert where
  licenseId : Nat
  publisherName : String
  softwareDescription : String
  budgetOwnerEmail : String
  type : AlertType
  detail : String
  severity : Severity
  relevantDate : Option Date
  daysUntilExpiry : Option Int
  noticeDate : String
  completenessPct : Option Nat
deriving DecidableEq

/-- `_alert`. -/
def alert (id : Nat) (l : License) (type : AlertType) (detail : String) (severity : Severity)
    (relevantDate : Option Date) (daysUntilExpiry : Option Int := none)
    (completenessPct : Option Nat := none)
    : Alert where
  licenseId := id
  publisherName := l.publisherName
  softwareDescription := l.softwareDescription
  budgetOwnerEmail := l.budgetOwnerEmail
  type
  detail
  severity
  relevantDate
  daysUntilExpiry
  noticeDate := (l.noticeDate.map isoformat).getD ""
  completenessPct

/-- `INCOMPLETE_COMPLETENESS_THRESHOLD`. -/
def incompleteCompletenessThreshold : Nat := 100

/-- `_notice_severity`. -/
def noticeSeverity (days : Int) : Severity :=
  if days ≤ 7 then .critical else if days ≤ 30 then .warning else .info

/-- `_expiry_severity`. -/
def expirySeverity (days : Int) : Severity :=
  if days ≤ 30 then .critical else if days ≤ 60 then .warning else .info

/-- `_day_word`. -/
def dayWord (days : Int) : String := if days.natAbs = 1 then "day" else "days"

/-- The end of a text on a term or a support period that is being renewed. -/
def renewalSuffix (inProgress : Bool) : String :=
  if inProgress then "; renewal is in progress" else ""

/-- The term alerts of `classify_license_alerts`. -/
def termAlerts (id : Nat) (l : License) (today : Date) (status : ExpirationStatus) : List Alert :=
  let suffix := renewalSuffix (l.lifecycleStatus == some .pendingRenewal)
  match status, l.endDate with
  | .expired, some finish =>
      let daysOverdue := daysBetween finish today
      [alert id l .expired
        (s!"Expired {daysOverdue} {dayWord daysOverdue} ago on {isoformat finish}" ++ suffix)
        .critical (some finish) (some (-daysOverdue))]
  | .expiring, some finish =>
      let daysLeft := daysBetween today finish
      [alert id l .expiring
        (s!"Expires in {daysLeft} {dayWord daysLeft} on {isoformat finish}" ++ suffix)
        (expirySeverity daysLeft) (some finish) (some daysLeft)]
  | _, _ => []

/-- The included-support alerts of `classify_license_alerts`. -/
def supportAlerts (id : Nat) (l : License) (today : Date) (expiryWindowDays : Nat)
    (supportRenewalInProgress : Bool)
    : List Alert :=
  let suffix := renewalSuffix supportRenewalInProgress
  match computeSupportDaysRemaining l today, l.maintenanceEndDate with
  | some days, some finish =>
      if days < 0 then
        [alert id l .supportExpired
          (s!"Maintenance expired {days.natAbs} {dayWord days} ago on {isoformat finish}" ++ suffix)
          .critical (some finish) (some days)]
      else if days ≤ expiryWindowDays then
        [alert id l .supportExpiring
          (s!"Maintenance ends in {days} {dayWord days} on {isoformat finish}" ++ suffix)
          (expirySeverity days) (some finish) (some days)]
      else []
  | _, _ => []

/-- The notice alerts of `classify_license_alerts`. -/
def noticeAlerts (id : Nat) (l : License) (today : Date) (noticeWindowDays : Nat) : List Alert :=
  match l.noticeDate, l.noticeHandledAt with
  | some notice, none =>
      let daysLeft := daysBetween today notice
      if daysLeft ≤ noticeWindowDays then
        if daysLeft < 0 then
          [alert id l .noticeDue
            s!"Notice deadline passed {daysLeft.natAbs} {dayWord daysLeft} ago on {isoformat notice}"
            .critical (some notice) (some daysLeft)]
        else
          [alert id l .noticeDue
            s!"Notice deadline in {daysLeft} {dayWord daysLeft} on {isoformat notice}"
            (noticeSeverity daysLeft) (some notice) (some daysLeft)]
      else []
  | _, _ => []

/-- The completeness alerts of `classify_license_alerts`. -/
def incompleteAlerts (u : Unicode) (id : Nat) (l : License) (documents : List DocumentCategory)
    (mandatoryFields : MandatoryFields)
    : List Alert :=
  if l.isCompletenessExempt then []
  else match computeCompleteness u l documents mandatoryFields with
    | none => []
    | some completeness =>
        if completeness < incompleteCompletenessThreshold then
          [alert id l .incomplete
            s!"Record is {completeness}% complete (below {incompleteCompletenessThreshold}%)"
            .info l.endDate none (some completeness)]
        else []

/-- What a caller of `classify_license_alerts` passes beside the licence. -/
structure AlertOptions where
  documents : List DocumentCategory
  mandatoryFields : MandatoryFields
  expiryWindowDays : Nat
  noticeWindowDays : Nat
  expiryNotificationsEnabled : Bool := true
  supportRenewalInProgress : Bool := false

/-- `classify_license_alerts`. -/
def classifyLicenseAlerts (u : Unicode) (id : Nat) (l : License) (today : Date)
    (options : AlertOptions)
    : List Alert :=
  if l.isRetired || l.retirementScheduled || l.lifecycleStatus == some .legacy
      || l.lifecycleStatus == some .renewed || l.renewedToId.isSome then
    []
  else
    let status := computeExpirationStatus l today options.expiryWindowDays
    let isUpcoming := status == .upcoming
    (if options.expiryNotificationsEnabled && !isUpcoming
        && isRenewableLicense l.licenseType l.isRenewable then
      termAlerts id l today status
    else [])
    ++ (if options.expiryNotificationsEnabled && !isUpcoming then
      supportAlerts id l today options.expiryWindowDays options.supportRenewalInProgress
    else [])
    ++ (if isUpcoming then [] else noticeAlerts id l today options.noticeWindowDays)
    ++ incompleteAlerts u id l options.documents options.mandatoryFields

end LicenseTrack
