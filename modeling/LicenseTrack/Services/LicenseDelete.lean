import LicenseTrack.Services.LicensePatch

/-! Deleting licences without orphaning shared maintenance records, and the daily retirement
job.
-/

namespace LicenseTrack

open Library

/-- `sourcing_item_predecessor_ids`. -/
def SourcingItem.predecessorIds (item : SourcingItem) : List Nat :=
  (item.renewalForLicenseId.toList ++ item.cotermPredecessorIds.getD []).reverse.dedup.reverse

/-- `_linked_renewal_sourcing_items`. -/
def linkedRenewalSourcingItems (s : Store) (licenseIds : List Nat) : List (Nat × SourcingItem) :=
  s.items.entries.filter (fun entry => entry.2.predecessorIds.any (licenseIds.contains ·))

/-- What `_assert_license_delete_allowed` requires of one licence. -/
def License.isOutsideRenewal (l : License) : Bool :=
  l.lifecycleStatus != some .pendingRenewal && l.lifecycleStatus != some .renewed
    && l.renewedFromId.isNone && l.renewedToId.isNone && l.predecessorId.isNone

/-- `_assert_license_delete_allowed`. -/
def assertLicenseDeleteAllowed (s : Store) (ids : List Nat) : Except Failure PUnit := do
  require (ids.all (fun id => (s.license? id).all License.isOutsideRenewal) = true)
    (.http 409 ("Cannot delete a license that is part of a renewal workflow or renewal history. "
      ++ "Cancel the renewal or repair the lifecycle links first."))
  require ((linkedRenewalSourcingItems s ids).all (fun entry => entry.2.status == .cancelled) = true)
    (.http 409 ("Cannot delete a license that is linked to a renewal sourcing or pending-order "
      ++ "item. Cancel or complete the renewal workflow first."))

/-- `_detach_cancelled_renewal_history`, on one line. -/
def SourcingItem.detached (ids : List Nat) (item : SourcingItem) : SourcingItem :=
  if item.status = .cancelled ∧ item.predecessorIds.any (ids.contains ·) = true then
    let remaining := item.predecessorIds.filter (fun id => !ids.contains id)
    { item with
      renewalForLicenseId := remaining.head?
      cotermPredecessorIds :=
        if item.cotermPredecessorIds.isSome ∧ remaining ≠ [] then some remaining else none }
  else item

/-- The maintenance records that lose a parent when licences are deleted. -/
def maintenanceOfDeleted (s : Store) (ids : List Nat) : List Nat :=
  (s.links.filter (fun link => ids.contains link.parentLicenseId)).map (·.maintenanceLicenseId)
    ++ ids.filterMap (fun id => (s.license? id).bind (·.activeMaintenanceId))
    ++ s.licenses.select (fun id l => !ids.contains id && l.licenseType == .maintenance
        && l.parentLicenseId.any (ids.contains ·))

/-- A maintenance record that keeps the given parents. -/
def License.withRemainingParents (remaining : List Nat) (child : License) : License :=
  match remaining with
  | [] =>
      { child with
        parentLicenseId := none
        isLegacyUnlinkedMaintenance := false
        isRetired := true }
  | first :: _ =>
      if child.parentLicenseId.any (remaining.contains ·) then child
      else { child with parentLicenseId := some first }

/-- `_prepare_maintenance_relationships_for_delete`. -/
def prepareMaintenanceRelationshipsForDelete (ids : List Nat) (s : Store) : Store :=
  let maintenanceIds := maintenanceOfDeleted s ids
  let s := s.mapLicenses (fun id l =>
    if ids.contains id then
      if l.activeMaintenanceId.any (maintenanceIds.contains ·) then l.clearActive else l
    else if maintenanceIds.contains id then
      l.withRemainingParents
        (((s.linkedParents id).filter (fun parentId => !ids.contains parentId)).mergeSort)
    else l)
  s.deleteLinks (fun link => ids.contains link.parentLicenseId)

theorem linkedParents_deleted {ids : List Nat} {s : Store} {id : Nat}
    (hnone : ((s.linkedParents id).filter (fun parentId => !ids.contains parentId)).mergeSort = [])
    : ∀ parentId ∈ s.linkedParents id, parentId ∈ ids := by
  intro parentId hparent
  by_contra hother
  have hmem : parentId ∈ ((s.linkedParents id).filter
      (fun parentId => !ids.contains parentId)).mergeSort := by
    rw [List.mem_mergeSort]
    exact List.mem_filter.mpr ⟨hparent, by simpa using hother⟩
  rw [hnone] at hmem
  cases hmem

/-- `_cleanup_license_delete_references`, on one remaining or deleted licence. -/
def License.withoutReferences (ids : List Nat) (l : License) : License :=
  let isDeleted (id : Option Nat) : Bool := id.any (ids.contains ·)
  let l := { l with
    renewedFromId := if isDeleted l.renewedFromId then none else l.renewedFromId
    renewedToId := if isDeleted l.renewedToId then none else l.renewedToId
    predecessorId := if isDeleted l.predecessorId then none else l.predecessorId }
  if isDeleted l.activeMaintenanceId then l.clearActive else l

/-- What the database does to the rows that refer to deleted licences. -/
def cascadeDelete (ids : List Nat) (s : Store) : Store :=
  { s with
    licenses := s.licenses.filter (fun id _ => !ids.contains id)
    links := s.links.filter (fun link =>
      !ids.contains link.maintenanceLicenseId && !ids.contains link.parentLicenseId)
    history :=
      (s.history.filter (fun _ row => !ids.contains row.parentLicenseId)).mapRows (fun _ row =>
        if row.maintenanceLicenseId.any (ids.contains ·) then
          { row with maintenanceLicenseId := none }
        else row)
    items := s.items.mapRows (fun _ item =>
      if item.maintenanceParentLicenseId.any (ids.contains ·) then
        { item with maintenanceParentLicenseId := none }
      else item) }

/-- `_delete_loaded_license_records`. -/
def deleteLoadedLicenseRecords (ids : List Nat) (s : Store) : Except Failure Store := do
  assertLicenseDeleteAllowed s ids
  let s := prepareMaintenanceRelationshipsForDelete ids s
  let s := s.mapLicenses (fun id l =>
    if ids.contains id ∧ l.licenseType = .maintenance then { l with isRetired := true } else l)
  let s := { s with items := s.items.mapRows (fun _ item => item.detached ids) }
  let s ← flush (s.mapLicenses (fun _ l => l.withoutReferences ids))
  pure (cascadeDelete ids s)

/-- The delete request, up to its commit. -/
def deleteLicense (id : Nat) (s : Store) : Except Failure Store := do
  let _ ← found (s.license? id) (.http 404 "License not found")
  let s ← deleteLoadedLicenseRecords [id] s
  flush s

/-- The bulk delete request, up to its commit. -/
def bulkDeleteLicenses (ids : List Nat) (s : Store) : Except Failure Store := do
  let stored := ids.filter (fun id => (s.license? id).isSome)
  if stored = [] then pure s
  else do
    let s ← deleteLoadedLicenseRecords stored s
    flush s

/-- Whether a scheduled retirement is due. -/
def License.isRetirementDue (today : Date) (l : License) : Bool :=
  l.retirementScheduled && l.endDate.any (· < today)

/-- `_ended_one_off_licenses`, on one licence. -/
def License.isEndedOneOff (today : Date) (l : License) : Bool :=
  l.licenseType.isRenewalOptIn && l.isRenewable != some true && !l.isRetired
    && !l.retirementScheduled && l.endDate.any (· < today)
    && l.lifecycleStatus != some .legacy

/-- One licence's turn in the first loop of `retire_due_licenses`. -/
def retireDueLicense (s : Store) (id : Nat) : Store :=
  let s :=
    if (s.license? id).any (·.licenseType == .maintenance) then retireMaintenanceLicense id s
    else s.modifyLicense id (fun l => { l with isRetired := true })
  s.modifyLicense id (fun l => { l with retirementScheduled := false })

/-- `retire_due_licenses`. -/
def retireDueLicenses (env : Env) (s : Store) : Except Failure Store := do
  let due := s.licenses.select (fun _ l => l.isRetirementDue env.today)
  let s := due.foldl retireDueLicense s
  let oneOffs := s.licenses.select (fun _ l => l.isEndedOneOff env.today)
  flush (s.mapLicenses (fun id l =>
    if oneOffs.contains id then { l with isRetired := true } else l))

end LicenseTrack
