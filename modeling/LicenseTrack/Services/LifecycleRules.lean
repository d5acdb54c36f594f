import LicenseTrack.Services.MaintenanceService

/-! Renewal eligibility, the marks that a renewal leaves on a predecessor, and the admin repair
of lifecycle links.
-/

namespace LicenseTrack

open Library

/-- The statuses that `compute_expiration_status` tells apart. -/
inductive ExpirationStatus
  | retired
  | legacy
  | upcoming
  | perpetual
  | renewed
  | expired
  | expiring
  | active
deriving DecidableEq

/-- `compute_expiration_status`, for a caller without the successor row. -/
def computeExpirationStatus (l : License) (today : Date) (notificationDays : Nat)
    : ExpirationStatus :=
  if l.isRetired then .retired
  else if l.lifecycleStatus = some .legacy then .legacy
  else if l.startDate.any (today < ·) then .upcoming
  else match l.endDate with
    | none => if l.licenseType.isNonExpiring then .perpetual else .active
    | some finish =>
        if finish < today then
          if l.renewedToId ≠ none then .renewed
          else if l.lifecycleStatus = some .renewed then .renewed
          else .expired
        else if finish ≤ today + notificationDays then .expiring
        else .active

/-- `assert_predecessor_has_no_successor`. -/
def assertPredecessorHasNoSuccessor (id : Nat) (predecessor : License)
    (allowedSuccessorId : Option Nat) (status : Nat)
    : Except Failure PUnit :=
  require (predecessor.renewedToId = none ∨ predecessor.renewedToId = allowedSuccessorId)
    (.http status s!"License {id} has already been renewed")

/-- `assert_can_initiate_renewal`. -/
def assertCanInitiateRenewal (env : Env) (requireBudgetOwner : Bool) (id : Nat) (l : License)
    : Except Failure PUnit := do
  require (¬ (l.isRetired = true ∨ l.retirementScheduled = true))
    (.http 409 "Retired licenses are not eligible for renewal")
  require (l.lifecycleStatus ≠ some .legacy)
    (.http 409 "Legacy licenses are not eligible for renewal")
  require (l.lifecycleStatus ≠ some .pendingRenewal)
    (.http 409 "Renewal already initiated for this license")
  require (l.lifecycleStatus ≠ some .renewed)
    (.http 409 "License has already been renewed")
  require (isRenewableLicense l.licenseType l.isRenewable = true)
    (.http 400 "Cannot initiate renewal on a one-off service or other license; mark it renewable first")
  require (¬ (requireBudgetOwner = true ∧ isBlank l.budgetOwnerEmail = true))
    (.http 400 "A budget owner is required before initiating renewal")
  assertPredecessorHasNoSuccessor id l none 409
  let finish ← found l.endDate
    (.http 400 "Cannot initiate renewal on a perpetual license (no end date)")
  require (¬ l.startDate.any (env.today < ·) = true)
    (.http 400 "Upcoming licenses cannot start renewal")
  require (¬ env.today + env.actionDays < finish)
    (.http 400 s!"Renewal actions are available {env.actionDays} days before expiry")

/-- `assert_can_cancel_renewal`. -/
def assertCanCancelRenewal (l : License) : Except Failure PUnit :=
  require (l.lifecycleStatus = some .pendingRenewal)
    (.http 400 "License is not in pending_renewal status")

/-- What `assert_successor_term` requires with respect to one predecessor. -/
def assertExtendsPredecessor (startDate : Option Date) (finish : Date) (predecessor : License)
    : Except Failure PUnit := do
  require (predecessor.endDate.any (finish ≤ ·) = false)
    (.http 400 "Renewal successor must extend coverage beyond every predecessor end date")
  require (predecessor.startDate.all (fun old => startDate.any (old < ·)) = true)
    (.http 400 "Renewal successor must start after every predecessor start date")

/-- `assert_successor_term`. -/
def assertSuccessorTerm (predecessors : List License) (startDate endDate : Option Date)
    : Except Failure PUnit := do
  let finish ← found endDate (.http 400 "Renewal successor must have an end date")
  predecessors.forM (assertExtendsPredecessor startDate finish)

/-- `clear_pending_renewal_if_current`. -/
def clearPendingRenewalIfCurrent (id : Nat) (s : Store) : Store :=
  s.modifyLicense id (fun l =>
    if l.lifecycleStatus = some .pendingRenewal then { l with lifecycleStatus := none } else l)

/-- `mark_predecessor_renewed`. -/
def markPredecessorRenewed (predecessorId successorId : Nat) (s : Store)
    : Except Failure Store := do
  let predecessor ← found (s.license? predecessorId) (.database "no such predecessor")
  assertPredecessorHasNoSuccessor predecessorId predecessor none 409
  pure (s.modifyLicense predecessorId (fun l =>
    { l with lifecycleStatus := some .renewed, renewedToId := some successorId }))

/-- The predecessors that a licence records, in any of its three columns. -/
def License.predecessorIds (l : License) : List Nat :=
  l.renewedFromId.toList ++ l.predecessorId.toList ++ l.cotermIds

/-- `validate_established_renewal_terms`, for a licence as it is about to be stored. -/
def validateEstablishedRenewalTerms (s : Store) (l : License) : Except Failure PUnit := do
  if l.predecessorIds ≠ [] then
    assertSuccessorTerm
      ((s.licenses.filter (fun id _ => l.predecessorIds.contains id)).entries.map Prod.snd)
      l.startDate l.endDate
  match l.renewedToId.bind s.license? with
  | some successor => assertSuccessorTerm [l] successor.startDate successor.endDate
  | none => pure ⟨⟩

/-- The fields of a repair request that are set; none stands for a field left out. -/
structure LifecycleRepair where
  lifecycleStatus : Option (Option LifecycleStatus) := none
  renewedFromId : Option (Option Nat) := none
  renewedToId : Option (Option Nat) := none
  predecessorId : Option (Option Nat) := none
  cotermFromIds : Option (Option (List Nat)) := none
deriving DecidableEq

/-- The repaired licence: the fields that are set replace the stored ones. -/
def LifecycleRepair.applyTo (r : LifecycleRepair) (l : License) : License :=
  { l with
    lifecycleStatus := r.lifecycleStatus.getD l.lifecycleStatus
    renewedFromId := r.renewedFromId.getD l.renewedFromId
    renewedToId := r.renewedToId.getD l.renewedToId
    predecessorId := r.predecessorId.getD l.predecessorId
    cotermFromIds := r.cotermFromIds.getD l.cotermFromIds }

/-- `_assert_no_successor_cycle`. The walk visits no licence twice, so it ends within one
step per stored licence and one for a missing row; running out of fuel is never seen.
-/
def assertNoSuccessorCycle (s : Store) (blockedId : Nat) : Nat → List Nat → Option Nat
    → Except Failure PUnit
  | _, _, none => .ok ⟨⟩
  | 0, _, some _ => .error (.database "out of fuel")
  | fuel + 1, seen, some currentId =>
      if currentId = blockedId then
        .error (.http 400 "Lifecycle repair would create a renewal-chain cycle.")
      else if currentId ∈ seen then
        .error (.http 400 "Existing renewal-chain cycle detected.")
      else
        assertNoSuccessorCycle s blockedId fuel (currentId :: seen)
          ((s.license? currentId).bind (·.renewedToId))

/-- Enough fuel for a walk along stored successors. -/
def walkFuel (s : Store) : Nat := s.licenses.entries.length + 2

/-- `_validate_repair_targets`. -/
def validateRepairTargets (s : Store) (id : Nat) (proposed : License) : Except Failure PUnit := do
  let targets := proposed.renewedFromId.toList ++ proposed.renewedToId.toList
    ++ proposed.predecessorId.toList ++ proposed.cotermIds
  require (id ∉ targets) (.http 400 "Lifecycle repair cannot link a license to itself.")
  require proposed.cotermIds.Nodup
    (.http 400 "coterm_from_ids cannot contain duplicate license IDs.")
  let missing := (targets.dedup.filter (fun target => (s.license? target).isNone)).mergeSort
  require (∀ target ∈ targets, (s.license? target).isSome)
    (.http 404 s!"Lifecycle repair target license(s) not found: {missing}")

/-- `_validate_reciprocal_chain_links`. -/
def validateReciprocalChainLinks (s : Store) (id : Nat) (l proposed : License)
    : Except Failure PUnit := do
  match proposed.renewedFromId with
  | some fromId =>
      match s.license? fromId with
      | some predecessor => assertPredecessorHasNoSuccessor fromId predecessor (some id) 400
      | none => pure ⟨⟩
      assertNoSuccessorCycle s fromId (walkFuel s) [] proposed.renewedToId
  | none => pure ⟨⟩
  match proposed.renewedToId with
  | some toId =>
      assertPredecessorHasNoSuccessor id l (some toId) 400
      match s.license? toId with
      | some successor =>
          require (successor.renewedFromId = none ∨ successor.renewedFromId = some id
              ∨ id ∈ successor.cotermIds)
            (.http 400 "renewed_to_id target already points to a different predecessor.")
      | none => pure ⟨⟩
      assertNoSuccessorCycle s id (walkFuel s) [] (some toId)
  | none => pure ⟨⟩

/-- `apply_license_lifecycle_repair`, with `validate_lifecycle_repair_update`. -/
def applyLicenseLifecycleRepair (id : Nat) (repair : LifecycleRepair) (s : Store)
    : Except Failure Store := do
  let l ← found (s.license? id) (.http 404 "License not found")
  require (repair ≠ {}) (.http 422 "At least one repair field is required")
  let proposed := repair.applyTo l
  validateRepairTargets s id proposed
  validateReciprocalChainLinks s id l proposed
  flush (s.modifyLicense id repair.applyTo)

end LicenseTrack
