import Mathlib.Data.List.Dedup
import LicenseTrack.Services.LifecycleRules

/-! Adopting an already purchased licence as a renewal successor, and undoing it from the
snapshot that the adoption saved.
-/

namespace LicenseTrack

open Library

/-- Python's truth value of an optional text: the empty one counts as missing. -/
def truthy (text : Option String) : Option String := text.filter (· ≠ "")

/-- `_assert_existing_successor_candidate`. Conditions that its first call already excludes
are kept where the source repeats them.
-/
def assertExistingSuccessorCandidate (env : Env) (predecessorId successorId : Nat)
    (predecessor successor : License)
    : Except Failure PUnit := do
  assertCanInitiateRenewal env false predecessorId predecessor
  require (¬ (predecessor.isRetired = true ∨ predecessor.retirementScheduled = true
      ∨ predecessor.lifecycleStatus ≠ none))
    (.http 409 "This license is not eligible to link an existing successor")
  require (¬ (predecessor.endDate = none
      ∨ isRenewableLicense predecessor.licenseType predecessor.isRenewable = false))
    (.http 400 "This license type is not eligible for renewal")
  assertPredecessorHasNoSuccessor predecessorId predecessor none 409
  require (successorId ≠ predecessorId)
    (.http 400 "A license cannot be its own successor")
  require (¬ (successor.isRetired = true ∨ successor.retirementScheduled = true
      ∨ successor.lifecycleStatus ≠ none))
    (.http 409 "The selected successor is not an active or upcoming license")
  require (¬ (successor.renewedFromId ≠ none ∨ successor.predecessorId ≠ none
      ∨ successor.cotermIds ≠ []))
    (.http 409 "The selected license already has a predecessor")
  require (successor.renewedToId = none)
    (.http 409 "The selected license is already part of another renewal chain")
  let status := computeExpirationStatus successor env.today env.notificationDays
  require (status = .active ∨ status = .upcoming)
    (.http 400 "The selected successor must be active or upcoming")
  require (¬ (predecessor.licenseType = .maintenance ∧ successor.licenseType ≠ .maintenance))
    (.http 400 "A maintenance successor must also be a maintenance license")
  let publisher := env.unicode.normalizeEntitlementIdentity predecessor.publisherName
  require (publisher ≠ ""
      ∧ publisher = env.unicode.normalizeEntitlementIdentity successor.publisherName)
    (.http 400 "The successor must have the same publisher")
  require (isRenewableLicense successor.licenseType successor.isRenewable = true)
    (.http 400 "The selected successor type is not eligible for renewal")
  require (successor.endDate.any (fun finish => predecessor.endDate.any (· < finish)) = true)
    (.http 400 "The successor must extend coverage beyond the predecessor end date")
  require (predecessor.startDate.all (fun old => successor.startDate.any (old < ·)) = true)
    (.http 400 "The successor must start after the predecessor start date")

/-- `_reserve_existing_successor_link`. -/
def reserveExistingSuccessorLink (predecessorId successorId : Nat) (s : Store)
    : Except Failure Store := do
  let successor ← found (s.license? successorId)
    (.http 409 "The selected license already has a predecessor")
  require (successor.lifecycleStatus = none ∧ successor.renewedFromId = none
      ∧ successor.predecessorId = none ∧ successor.cotermIds = []
      ∧ successor.renewedToId = none ∧ successor.isRetired = false
      ∧ successor.retirementScheduled = false)
    (.http 409 "The selected license already has a predecessor")
  let s := s.modifyLicense successorId (fun l =>
    { l with renewedFromId := some predecessorId, predecessorId := some predecessorId })
  let predecessor ← found (s.license? predecessorId)
    (.http 409 "License has already been renewed")
  require (predecessor.lifecycleStatus = none ∧ predecessor.renewedToId = none
      ∧ predecessor.isRetired = false ∧ predecessor.retirementScheduled = false)
    (.http 409 "License has already been renewed")
  pure (s.modifyLicense predecessorId (fun l =>
    { l with lifecycleStatus := some .pendingRenewal }))

/-- The history rows of a set of parents. -/
def historyOf (s : Store) (parentIds : List Nat) : List Nat :=
  s.history.select (fun _ row => parentIds.contains row.parentLicenseId)

/-- The parents of a maintenance record as the two snapshot functions collect them, in any
order and with the primary one present.
-/
def snapshotParentIds (s : Store) (maintenanceId : Nat) (record : License) : List Nat :=
  s.linkedParents maintenanceId ++ record.parentLicenseId.toList

/-- `_snapshot_existing_maintenance_link`. -/
def snapshotExistingMaintenanceLink (predecessorId successorId : Nat) (s : Store) : Store :=
  match s.license? predecessorId, s.license? successorId with
  | some predecessor, some successor =>
      if predecessor.licenseType ≠ .maintenance then s
      else
        let parentIds := snapshotParentIds s predecessorId predecessor
        let existingIds := s.linkedParents successorId
        let parents := (s.licenses.filter (fun id _ => parentIds.contains id)).entries.map
          (fun entry => ParentSnapshot.mk entry.1 (!existingIds.contains entry.1)
            entry.2.toMaintenanceMirror)
        let snapshot : MaintenanceLinkSnapshot :=
          {
            historyBefore := some (historyOf s parentIds)
            parents := parents
            primary := successor.parentLicenseId
            legacy := successor.isLegacyUnlinkedMaintenance
          }
        s.modifyLicense predecessorId (fun l =>
          { l with existingSuccessorMaintenanceState := some snapshot })
  | _, _ => s

/-- `_finish_existing_maintenance_snapshot`. -/
def finishExistingMaintenanceSnapshot (predecessorId : Nat) (s : Store) : Except Failure Store :=
  match (s.license? predecessorId).bind (·.existingSuccessorMaintenanceState) with
  | none => .ok s
  | some snapshot => do
      let s ← flush s
      let historyIds := historyOf s (snapshot.parents.map (·.id))
      let before ← found snapshot.historyBefore (.database "KeyError: 'history_before'")
      pure (s.modifyLicense predecessorId (fun l =>
        { l with
          existingSuccessorMaintenanceState := some
            { snapshot with
              historyBefore := none
              addedHistoryIds := historyIds.filter (fun id => !before.contains id) } }))

/-- The parents that a successor is activated for: the primary one, then the others. -/
def activationParentIds (s : Store) (predecessorId : Nat) (predecessor : License) : List Nat :=
  let linked := (s.linkedParents predecessorId).dedup
  predecessor.parentLicenseId.toList
    ++ (linked.filter (fun id => predecessor.parentLicenseId ≠ some id)).insertionSort (· ≤ ·)

/-- `_activate_maintenance_successor_for_all_parents`. -/
def activateMaintenanceSuccessorForAllParents (env : Env) (predecessorId successorId : Nat)
    (s : Store)
    : Except Failure Store :=
  match s.license? predecessorId with
  | none => .ok s
  | some predecessor =>
      if predecessor.licenseType ≠ .maintenance then .ok s
      else
        let parentIds := (activationParentIds s predecessorId predecessor).filter
          (fun id => (s.license? id).isSome)
        each (fun parentId => activateMaintenanceForParent env successorId parentId) parentIds s

/-- The aliases of an adopted successor: its former reference stays searchable. -/
def aliasesAfterLink (aliases : List String) (formerRef : Option String) (chainRef : String)
    : List String :=
  match truthy formerRef with
  | some former => if former ≠ chainRef ∧ former ∉ aliases then aliases ++ [former] else aliases
  | none => aliases

/-- The chain reference of an adoption: the predecessor's, else a newly issued one. -/
def chainReference (env : Env) (ref : Option String) (s : Store) : String × Store :=
  match truthy ref with
  | some ref => (ref, s)
  | none => generateLicenseRef env s

/-- `link_existing_successor`. -/
def linkExistingSuccessor (env : Env) (predecessorId successorId : Nat) (s : Store)
    : Except Failure Store := do
  let predecessor ← found (s.license? predecessorId)
    (.http 404 "Predecessor license not found")
  let successor ← found (s.license? successorId) (.http 404 "Successor license not found")
  assertExistingSuccessorCandidate env predecessorId successorId predecessor successor
  let s ← reserveExistingSuccessorLink predecessorId successorId s
  let (chainRef, s) := chainReference env predecessor.licenseRef s
  let s ← markPredecessorRenewed predecessorId successorId s
  let s := s.modifyLicense predecessorId (fun l =>
    { l with
      existingSuccessorLinkedAt := some env.now
      existingSuccessorLinkedByEmail := some env.actorEmail
      existingSuccessorOriginalRef := successor.licenseRef })
  let s := s.modifyLicense successorId (fun l =>
    { l with
      renewedFromId := some predecessorId
      predecessorId := some predecessorId
      licenseRef := some chainRef
      licenseRefAliases :=
        aliasesAfterLink successor.licenseRefAliases successor.licenseRef chainRef })
  let s := snapshotExistingMaintenanceLink predecessorId successorId s
  let s ← activateMaintenanceSuccessorForAllParents env predecessorId successorId s
  let s ← finishExistingMaintenanceSnapshot predecessorId s
  flush s

-- Unlink

/-- One parent's turn in `_restore_existing_maintenance_link`. -/
def restoreParent (env : Env) (successorId : Nat) (entry : ParentSnapshot) (s : Store)
    : Except Failure Store := do
  let changed := Failure.http 409
    "Maintenance coverage changed after linking; review parent relationships before unlinking"
  let previousActiveId := entry.values.activeMaintenanceId
  let parent ← found (s.license? entry.id) changed
  require (parent.activeMaintenanceId = some successorId
      ∨ parent.activeMaintenanceId = previousActiveId) changed
  let successorWasActive := parent.hasActive successorId
  require (successorWasActive = true → ∀ id, previousActiveId = some id →
      (s.license? id).any (fun l => !l.isRetired) = true)
    (.http 409 "Previous maintenance is no longer available for restoring coverage")
  let s := if entry.added then s.deleteLinks (· == ⟨successorId, entry.id⟩) else s
  if successorWasActive then
    pure (s.modifyLicense entry.id (·.withMirror entry.values))
  else pure (recomputeActiveMaintenance env entry.id s)

/-- A successor with the primary parent and the legacy flag that a snapshot saved. -/
def License.withSavedParent (snapshot : MaintenanceLinkSnapshot) (l : License) : License :=
  { l with
    parentLicenseId := snapshot.primary
    isLegacyUnlinkedMaintenance := snapshot.legacy }

/-- A predecessor whose snapshot is used up. -/
def License.withoutSnapshot (l : License) : License :=
  { l with existingSuccessorMaintenanceState := none }

/-- A successor freed from its predecessor, with its former reference where it had one. -/
def License.freed (formerRef : Option String) (l : License) : License :=
  { l with
    licenseRef := if (truthy formerRef).isSome then formerRef else l.licenseRef
    licenseRefAliases :=
      match truthy formerRef with
      | some former => l.licenseRefAliases.filter (· ≠ former)
      | none => l.licenseRefAliases
    renewedFromId := none
    predecessorId := none }

/-- A predecessor whose adoption is withdrawn. -/
def License.withdrawn (l : License) : License :=
  { l with
    lifecycleStatus := none
    renewedToId := none
    existingSuccessorLinkedAt := none
    existingSuccessorLinkedByEmail := none
    existingSuccessorOriginalRef := none }

/-- `_restore_existing_maintenance_link`. -/
def restoreExistingMaintenanceLink (env : Env) (predecessorId successorId : Nat) (s : Store)
    : Except Failure Store :=
  match (s.license? predecessorId).bind (·.existingSuccessorMaintenanceState) with
  | none => .ok s
  | some snapshot => do
      let s ← each (restoreParent env successorId) snapshot.parents s
      let s := { s with
        history := s.history.filter (fun id _ => !snapshot.addedHistoryIds.contains id) }
      let s := s.modifyLicense successorId (·.withSavedParent snapshot)
      pure (s.modifyLicense predecessorId (·.withoutSnapshot))

/-- `unlink_existing_successor`. -/
def unlinkExistingSuccessor (env : Env) (predecessorId : Nat) (s : Store)
    : Except Failure Store := do
  let predecessor ← found (s.license? predecessorId)
    (.http 404 "Predecessor license not found")
  let noSuccessor := Failure.http 409 "This license has no linked existing successor"
  require (predecessor.existingSuccessorLinkedAt ≠ none) noSuccessor
  let successorId ← found predecessor.renewedToId noSuccessor
  let successor ← found (s.license? successorId)
    (.http 409 "The linked successor no longer exists")
  require (successor.renewedToId = none)
    (.http 409 "Unlink the successor's later renewal before removing this link")
  require (¬ (predecessor.licenseType = .maintenance
      ∧ predecessor.existingSuccessorMaintenanceState = none))
    (.http 409 "This historical maintenance link cannot be unlinked automatically because its previous coverage state was not recorded. Review and repair the parent relationships before unlinking.")
  let s ← restoreExistingMaintenanceLink env predecessorId successorId s
  let s := s.modifyLicense successorId (·.freed predecessor.existingSuccessorOriginalRef)
  flush (s.modifyLicense predecessorId (·.withdrawn))

end LicenseTrack
