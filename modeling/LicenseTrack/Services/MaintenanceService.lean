import LicenseTrack.Library.Selection
import LicenseTrack.Services.PoTotalOverride

/-! Maintenance records and the parents that mirror them: the mirror columns, the link table,
the choice of the active record and the coverage history.
-/

namespace LicenseTrack

open Library

/-- The mirror of a parent without an active record; the coverage class stays. -/
def MaintenanceMirror.cleared (m : MaintenanceMirror) : MaintenanceMirror :=
  { m with
    activeMaintenanceId := none
    hasMaintenance := false
    maintenanceStartDate := none
    maintenanceEndDate := none
    maintenancePricingBasis := none
    maintenanceQuantity := none
    maintenanceUnitPrice := none
    maintenanceCost := none }

/-- The mirror of a parent whose active record is the given licence. -/
def mirrorOf (u : Unicode) (id : Nat) (child : License) : MaintenanceMirror where
  activeMaintenanceId := some id
  hasMaintenance := true
  maintenanceCoverage := .separatelyTracked
  maintenanceStartDate := child.startDate
  maintenanceEndDate := child.endDate
  maintenancePricingBasis := none
  maintenanceQuantity := none
  maintenanceUnitPrice := none
  maintenanceCost := u.calcLineTotal child.quantity child.unitPrice

/-- A record that a parent can mirror. -/
def License.isLiveMaintenance (l : License) : Bool :=
  l.licenseType == .maintenance && !l.isRetired

/-- The mirror that `sync_parent_mirror_fields` writes for a stored active record. -/
def Store.syncedMirror (u : Unicode) (s : Store) (m : MaintenanceMirror) : MaintenanceMirror :=
  match m.activeMaintenanceId with
  | none => m.cleared
  | some id =>
      match s.license? id with
      | some child => if child.isLiveMaintenance then mirrorOf u id child else m.cleared
      | none => m.cleared

/-- `sync_parent_mirror_fields`. -/
def syncParentMirrorFields (u : Unicode) (parentId : Nat) (s : Store) : Store :=
  s.modifyLicense parentId (fun parent =>
    parent.withMirror (s.syncedMirror u parent.toMaintenanceMirror))

/-- A parent without an active record, which is how the code leaves one that loses it. -/
def License.clearActive (parent : License) : License :=
  parent.withMirror parent.toMaintenanceMirror.cleared

namespace Store

/-- The parents that a record is linked to. -/
def linkedParents (s : Store) (maintenanceId : Nat) : List Nat :=
  (s.links.filter (·.maintenanceLicenseId == maintenanceId)).map (·.parentLicenseId)

/-- The records that are linked to a parent. -/
def linkedRecords (s : Store) (parentId : Nat) : List Nat :=
  (s.links.filter (·.parentLicenseId == parentId)).map (·.maintenanceLicenseId)

/-- The parents of a record: those linked and, where no link has it, the primary one. -/
def parentsOf (s : Store) (maintenanceId : Nat) : List Nat :=
  let linked := s.linkedParents maintenanceId
  match (s.license? maintenanceId).bind (·.parentLicenseId) with
  | some primary => if linked.contains primary then linked else linked ++ [primary]
  | none => linked

/-- Removes the links that satisfy a condition. -/
def deleteLinks (s : Store) (p : MaintenanceLink → Bool) : Store :=
  { s with links := s.links.filter (fun link => !p link) }

end Store

/-- `validate_parent_license`. -/
def validateParentLicense (s : Store) (parentId : Nat) : Except Failure License := do
  let parent ← found (s.license? parentId) (.value s!"parent_license_id={parentId} does not exist")
  assertParentTypeEligible parentId parent
  assertParentNotRetired parentId parent
  pure parent

/-- `link_maintenance_to_parent`. -/
def linkMaintenanceToParent (maintenanceId parentId : Nat) (s : Store) : Except Failure Store := do
  let record ← found (s.license? maintenanceId) (.database "no such record")
  let parent ← found (s.license? parentId) (.database "no such parent")
  require (record.licenseType = .maintenance)
    (.value "Only maintenance licenses can be linked to maintenance parents")
  require (record.isRetired = false)
    (.value "Retired maintenance licenses cannot be linked to maintenance parents")
  assertParentTypeEligible parentId parent
  assertParentNotRetired parentId parent
  let link : MaintenanceLink := ⟨maintenanceId, parentId⟩
  if link ∈ s.links then pure s else flush { s with links := s.links ++ [link] }

/-- `_snapshot_coverage_period`: a period already recorded is not recorded twice. -/
def snapshotCoveragePeriod (row : CoverageHistory) (s : Store) : Store :=
  let recorded := s.history.entries.any (fun entry =>
    entry.2.parentLicenseId == row.parentLicenseId
      && entry.2.maintenanceLicenseId == row.maintenanceLicenseId
      && entry.2.coverageType == row.coverageType
      && entry.2.startDate == row.startDate
      && entry.2.endDate == row.endDate)
  if recorded then s else { s with history := s.history.insert row }

/-- `currency or "EUR"`. -/
def historyCurrency (currency : String) : String := if currency = "" then "EUR" else currency

/-- The period of included support that a parent's mirror holds. -/
def includedSupportPeriod (parentId : Nat) (parent : License) : CoverageHistory where
  parentLicenseId := parentId
  maintenanceLicenseId := none
  coverageType := MaintenanceCoverage.included.value
  sourceType := "original_included_support"
  startDate := parent.maintenanceStartDate
  endDate := parent.maintenanceEndDate
  pricingBasis := parent.maintenancePricingBasis
  quantity := parent.maintenanceQuantity
  unitPrice := parent.maintenanceUnitPrice
  cost := parent.maintenanceCost
  currency := historyCurrency parent.currency

/-- The period that a maintenance record covers. -/
def maintenanceRecordPeriod (u : Unicode) (parentId childId : Nat) (child : License)
    : CoverageHistory where
  parentLicenseId := parentId
  maintenanceLicenseId := some childId
  coverageType := MaintenanceCoverage.separatelyTracked.value
  sourceType := "maintenance_record"
  startDate := child.startDate
  endDate := child.endDate
  pricingBasis := none
  quantity := some child.quantity
  unitPrice := some child.unitPrice
  cost := u.calcLineTotal child.quantity child.unitPrice
  currency := historyCurrency child.currency

/-- `snapshot_included_support`. -/
def snapshotIncludedSupport (parentId : Nat) (s : Store) : Store :=
  match s.license? parentId with
  | some parent =>
      if hasIncludedSupportData parent.toMaintenanceMirror then
        snapshotCoveragePeriod (includedSupportPeriod parentId parent) s
      else s
  | none => s

/-- `record_included_support_exit`. -/
def recordIncludedSupportExit (u : Unicode) (parentId : Nat) (previous : MaintenanceCoverage)
    (s : Store)
    : Store :=
  match s.license? parentId with
  | some parent =>
      if previous ≠ .included ∨ parent.maintenanceCoverage = .included then s
      else if parent.activeMaintenanceId ≠ none then s
      else syncParentMirrorFields u parentId (snapshotIncludedSupport parentId s)
  | none => s

/-- `_snapshot_before_switch`. -/
def snapshotBeforeSwitch (u : Unicode) (parentId : Nat) (s : Store) : Store :=
  match s.license? parentId with
  | none => s
  | some parent =>
      match parent.activeMaintenanceId with
      | none =>
          if parent.maintenanceCoverage = .included
              ∨ hasIncludedSupportData parent.toMaintenanceMirror = true then
            snapshotIncludedSupport parentId s
          else s
      | some childId =>
          match s.license? childId with
          | some child => snapshotCoveragePeriod (maintenanceRecordPeriod u parentId childId child) s
          | none => s

/-- What the choice of the active record reads of a maintenance record. -/
structure MaintenanceTerm where
  isRetired : Bool
  startDate : Option Date
  endDate : Option Date
deriving DecidableEq

/-- The term of a licence. -/
def License.term (l : License) : MaintenanceTerm := ⟨l.isRetired, l.startDate, l.endDate⟩

/-- `_covers`. -/
def MaintenanceTerm.covers (t : MaintenanceTerm) (today : Date) : Bool :=
  t.startDate.all (· ≤ today) && t.endDate.all (today ≤ ·)

/-- Compares two candidates by a date, the higher identifier winning a tie. -/
def laterBy (date : MaintenanceTerm → Date) (a b : Nat × MaintenanceTerm) : Bool :=
  date b.2 < date a.2 || (date a.2 == date b.2 && b.1 < a.1)

/-- `choose_active_maintenance`. -/
def chooseActiveMaintenance (candidates : List (Nat × MaintenanceTerm)) (currentId : Option Nat)
    (today : Date)
    : Option Nat :=
  let live := candidates.filter (fun c => !c.2.isRetired)
  let current := live.find? (fun c => currentId == some c.1)
  let covering := live.filter (fun c => c.2.covers today)
  let ended := live.filter (fun c => c.2.endDate.any (· < today))
  let future := live.filter (fun c => c.2.startDate.any (today < ·))
  if current.any (fun c => c.2.covers today) then current.map Prod.fst
  else match pick (laterBy (fun t => t.startDate.getD dateMin)) covering with
    | some c => some c.1
    | none =>
        match pick (laterBy (fun t => t.endDate.getD dateMin)) ended with
        | some c => some c.1
        | none =>
            -- The earliest start; on equal starts the lower identifier.
            (pick (fun a b => laterBy (fun t => t.startDate.getD dateMin) b a) future).map Prod.fst

/-- A record as a candidate, when it exists and is a maintenance record. -/
def Store.candidate? (s : Store) (id : Nat) : Option (Nat × MaintenanceTerm) :=
  (s.license? id).bind (fun l => if l.licenseType = .maintenance then some (id, l.term) else none)

/-- The maintenance records linked to a parent, which compete for being active. -/
def Store.candidates (s : Store) (parentId : Nat) : List (Nat × MaintenanceTerm) :=
  (s.linkedRecords parentId).filterMap s.candidate?

/-- `recompute_active_maintenance`. -/
def recomputeActiveMaintenance (env : Env) (parentId : Nat) (s : Store) : Store :=
  match s.license? parentId with
  | none => s
  | some parent =>
      let chosen :=
        chooseActiveMaintenance (s.candidates parentId) parent.activeMaintenanceId env.today
      if chosen = parent.activeMaintenanceId then syncParentMirrorFields env.unicode parentId s
      else
        let s := snapshotBeforeSwitch env.unicode parentId s
        let s := s.modifyLicense parentId (fun parent => { parent with activeMaintenanceId := chosen })
        syncParentMirrorFields env.unicode parentId s

/-- What an activation writes on the record itself. -/
def License.activated (parentId : Nat) (record : License) : License :=
  { record with
    parentLicenseId := record.parentLicenseId.or (some parentId)
    isLegacyUnlinkedMaintenance := false }

/-- `activate_maintenance_for_parent`, also under the name `link_or_activate_maintenance`. -/
def activateMaintenanceForParent (env : Env) (maintenanceId parentId : Nat) (s : Store)
    : Except Failure Store := do
  let s ← linkMaintenanceToParent maintenanceId parentId s
  let s := s.modifyLicense maintenanceId (·.activated parentId)
  pure (recomputeActiveMaintenance env parentId s)

/-- The parents that the daily hand-over visits. -/
def handOverParents (s : Store) : List Nat :=
  s.licenses.select (fun id l => (s.links.any (·.parentLicenseId == id)) && !l.isRetired)

/-- The active record of a parent. -/
def Store.activeMaintenance? (s : Store) (parentId : Nat) : Option Nat :=
  (s.license? parentId).bind (·.activeMaintenanceId)

/-- `hand_over_due_maintenance`, which commits only when some active record changed. -/
def handOverDueMaintenance (env : Env) (s : Store) : Store :=
  let parents := handOverParents s
  let t := parents.foldl (fun s parentId => recomputeActiveMaintenance env parentId s) s
  if parents.all (fun p => t.activeMaintenance? p == s.activeMaintenance? p) then s else t

/-- Whether a licence has the given active record. -/
def License.hasActive (l : License) (maintenanceId : Nat) : Bool :=
  l.activeMaintenanceId == some maintenanceId

/-- `detach_maintenance_from_parent`, without its result. -/
def detachMaintenanceFromParent (maintenanceId parentId : Nat) (updatePrimary : Bool) (s : Store)
    : Store :=
  let s := s.deleteLinks (· == ⟨maintenanceId, parentId⟩)
  let s := s.modifyLicense parentId (fun parent =>
    if parent.hasActive maintenanceId then parent.clearActive else parent)
  let remaining := (s.linkedParents maintenanceId).min?
  s.modifyLicense maintenanceId (fun record =>
    if updatePrimary && record.parentLicenseId == some parentId then
      { record with parentLicenseId := remaining }
    else record)

/-- `retire_maintenance_license`. -/
def retireMaintenanceLicense (maintenanceId : Nat) (s : Store) : Store :=
  let parents := s.parentsOf maintenanceId
  let s := s.deleteLinks (·.maintenanceLicenseId == maintenanceId)
  let s := s.mapLicenses (fun id parent =>
    if parents.contains id && parent.hasActive maintenanceId then parent.clearActive
    else parent)
  s.modifyLicense maintenanceId (fun record =>
    { record with
      parentLicenseId := none
      isLegacyUnlinkedMaintenance := false
      isRetired := true })

/-- One record's turn in `disable_maintenance_for_parent`. -/
def disableRecord (parentId : Nat) (s : Store) (maintenanceId : Nat) : Store :=
  let s := detachMaintenanceFromParent maintenanceId parentId true s
  if (s.linkedParents maintenanceId).isEmpty then
    s.modifyLicense maintenanceId (fun record =>
      { record with isRetired := true, isLegacyUnlinkedMaintenance := false })
  else s

/-- `disable_maintenance_for_parent`. -/
def disableMaintenanceForParent (u : Unicode) (parentId : Nat) (s : Store) : Store :=
  let s := snapshotBeforeSwitch u parentId s
  let s := (s.linkedRecords parentId).foldl (disableRecord parentId) s
  s.modifyLicense parentId License.clearActive

end LicenseTrack
