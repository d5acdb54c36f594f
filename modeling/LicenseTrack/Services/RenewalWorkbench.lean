import LicenseTrack.Access.Rules
import LicenseTrack.Services.NotificationClassification

/-! The renewal workbench: the two queries that pick its candidates, and the rows that it shows.
-/

namespace LicenseTrack

open Library

/-- `_unhandled_notice_by`. -/
def unhandledNoticeBy (cutoff : Date) (l : License) : Bool :=
  l.noticeDate.isSome && l.noticeDate.any (· ≤ cutoff) && l.noticeHandledAt.isNone

/-- The conditions of the query of `_load_candidate_licenses`. -/
def isCandidateLicense (cutoff : Date) (l : License) : Bool :=
  !l.isRetired && !l.retirementScheduled
    && (!l.licenseType.isRenewalOptIn || l.isRenewable == some true)
    && (l.lifecycleStatus.isNone
      || !(l.lifecycleStatus == some .renewed || l.lifecycleStatus == some .legacy))
    && (l.endDate.isSome || l.lifecycleStatus == some .pendingRenewal || unhandledNoticeBy cutoff l)
    && (l.endDate.any (· ≤ cutoff) || l.lifecycleStatus == some .pendingRenewal
      || unhandledNoticeBy cutoff l)

/-- The conditions of the query of `_load_support_candidates`. -/
def isSupportCandidate (cutoff : Date) (l : License) : Bool :=
  l.licenseType.isMaintenanceParent && l.maintenanceCoverage == .included
    && l.maintenanceEndDate.isSome && l.maintenanceEndDate.any (· ≤ cutoff)
    && !l.isRetired && !l.retirementScheduled
    && (l.lifecycleStatus.isNone || l.lifecycleStatus != some .legacy)

/-- `apply_department_filter`. -/
def applyDepartmentFilter (departments : Option (List Nat)) (l : License) : Bool :=
  match departments with
  | none => true
  | some departments => l.inDepartments departments

/-- `_load_candidate_licenses`. -/
def loadCandidateLicenses (s : Store) (access : List UserDepartmentAccess) (user : Actor)
    (cutoff : Date)
    : List (Nat × License) :=
  s.licensesWhere fun _ l =>
    isCandidateLicense cutoff l && applyDepartmentFilter (getUserDepartmentsForScope access user) l

/-- `_load_support_candidates`. -/
def loadSupportCandidates (s : Store) (access : List UserDepartmentAccess) (user : Actor)
    (cutoff : Date)
    : List (Nat × License) :=
  s.licensesWhere fun _ l =>
    isSupportCandidate cutoff l && applyDepartmentFilter (getUserDepartmentsForScope access user) l

/-- `row_kind`. -/
inductive RowKind
  | license
  | supportRenewal
deriving DecidableEq, Repr

/-- The columns of a workbench row that say which record it shows, of which period, and when to act.
-/
structure WorkbenchRow where
  licenseId : Nat
  rowKind : RowKind
  publisherName : String
  softwareDescription : String
  startDate : Option Date
  endDate : Option Date
  daysUntilExpiry : Option Int
  noticeDate : Option Date
  daysUntilNotice : Option Int
deriving DecidableEq

/-- `compute_days_until_expiry`. -/
def computeDaysUntilExpiry (l : License) (today : Date) : Option Int :=
  l.endDate.map (daysBetween today)

/-- `compute_days_until_notice`. -/
def computeDaysUntilNotice (l : License) (today : Date) : Option Int :=
  if l.noticeHandledAt.isSome then none else l.noticeDate.map (daysBetween today)

/-- `effective_deadline_days`. -/
def effectiveDeadlineDays : Option Int → Option Int → Option Int
  | some expiry, some notice => some (min expiry notice)
  | some expiry, none => some expiry
  | none, notice => notice

/-- `_build_row`. -/
def buildRow (today : Date) (entry : Nat × License) : WorkbenchRow where
  licenseId := entry.1
  rowKind := .license
  publisherName := entry.2.publisherName
  softwareDescription := entry.2.softwareDescription
  startDate := entry.2.startDate
  endDate := entry.2.endDate
  daysUntilExpiry := computeDaysUntilExpiry entry.2 today
  noticeDate :=
    if (computeDaysUntilNotice entry.2 today).isSome then entry.2.noticeDate else none
  daysUntilNotice := computeDaysUntilNotice entry.2 today

/-- `_build_support_row`, whose period is that of the support. -/
def buildSupportRow (today : Date) (entry : Nat × License) : WorkbenchRow where
  licenseId := entry.1
  rowKind := .supportRenewal
  publisherName := entry.2.publisherName
  softwareDescription := entry.2.softwareDescription ++ " (included maintenance)"
  startDate := entry.2.maintenanceStartDate
  endDate := entry.2.maintenanceEndDate
  daysUntilExpiry := entry.2.maintenanceEndDate.map (daysBetween today)
  noticeDate := none
  daysUntilNotice := none

/-- The order of the sort key: a row without a deadline last, then by deadline, publisher and id. -/
def WorkbenchRow.before (a b : WorkbenchRow) : Bool :=
  let byName :=
    if a.publisherName = b.publisherName then a.licenseId ≤ b.licenseId
    else a.publisherName < b.publisherName
  match effectiveDeadlineDays a.daysUntilExpiry a.daysUntilNotice,
      effectiveDeadlineDays b.daysUntilExpiry b.daysUntilNotice with
  | some x, some y => if x = y then byName else x < y
  | some _, none => true
  | none, some _ => false
  | none, none => byName

/-- `get_renewal_workbench_rows` for the view of all rows. The sort key tells all rows apart but the
two of one record, so the order in which the queries return their candidates does not matter.
-/
def getRenewalWorkbenchRows (s : Store) (access : List UserDepartmentAccess) (currentUser : Actor)
    (windowDays : Nat) (today : Date)
    : List WorkbenchRow :=
  let cutoff := today + windowDays
  let licenses := loadCandidateLicenses s access currentUser cutoff
  let supportParents := loadSupportCandidates s access currentUser cutoff
  (licenses.map (buildRow today) ++ supportParents.map (buildSupportRow today)).mergeSort
    WorkbenchRow.before

end LicenseTrack
