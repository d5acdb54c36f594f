import LicenseTrack.Library.Sessions
import LicenseTrack.Services.LicenseRules

/-! The lines of support renewals: the requests that create, edit, cancel, delete, merge and convert
sourcing lines, with what each reads before its transaction and what it writes in it.
-/

namespace LicenseTrack

open Library

/-- A row of `sourcing_items`, as far as support renewals depend on it. -/
structure SupportLine where
  licenseType : Option LicenseType := none
  maintenanceParentLicenseId : Option Nat := none
  status : SourcingStatus := .sourcing
  sourcingRequestId : Option Nat := none
  pendingOrderId : Option Nat := none
  renewalForLicenseId : Option Nat := none
deriving DecidableEq

/-- The lines, the status of each sourcing request, and the licences. -/
structure LineStore where
  items : Table SupportLine
  requests : Table SourcingStatus
  licenses : Table License

namespace LineStore

/-- Whether a line has become a licence. -/
def converted (a : LineStore) (id : Nat) : Bool :=
  a.licenses.entries.any (fun entry => entry.2.sourceSourcingItemId == some id)

/-- Whether a line is neither cancelled nor converted and names a licence as its parent. -/
def opens (a : LineStore) (licenseId id : Nat) (line : SupportLine) : Bool :=
  line.maintenanceParentLicenseId == some licenseId && line.status != .cancelled && !a.converted id

/-- The lines that pass `open_support_renewal_filter`. -/
def openSupportRenewals (a : LineStore) (licenseId : Nat) : List Nat :=
  a.items.select (a.opens licenseId)

end LineStore

/-- `normalise_sourcing_item_type_fields`: only a line for maintenance names a parent. -/
def SupportLine.normalise (line : SupportLine) : SupportLine :=
  if line.licenseType = some .maintenance then line
  else { line with maintenanceParentLicenseId := none }

/-- An edit of a line, a field where it is submitted. -/
structure LineEdit where
  licenseType : Option (Option LicenseType) := none
  maintenanceParentLicenseId : Option (Option Nat) := none
  status : Option SourcingStatus := none
deriving DecidableEq

/-- `apply_sourcing_item_update`. -/
def LineEdit.apply (edit : LineEdit) (line : SupportLine) : SupportLine :=
  { line with
    licenseType := edit.licenseType.getD line.licenseType
    maintenanceParentLicenseId :=
      edit.maintenanceParentLicenseId.getD line.maintenanceParentLicenseId
    status := edit.status.getD line.status }.normalise

/-- The stored line after the `UPDATE` of a loaded line that was changed: a column is written only
where the loaded line was changed in it.
-/
def SupportLine.written (before after stored : SupportLine) : SupportLine where
  licenseType :=
    if after.licenseType = before.licenseType then stored.licenseType else after.licenseType
  maintenanceParentLicenseId :=
    if after.maintenanceParentLicenseId = before.maintenanceParentLicenseId then
      stored.maintenanceParentLicenseId
    else after.maintenanceParentLicenseId
  status := if after.status = before.status then stored.status else after.status
  sourcingRequestId :=
    if after.sourcingRequestId = before.sourcingRequestId then stored.sourcingRequestId
    else after.sourcingRequestId
  pendingOrderId :=
    if after.pendingOrderId = before.pendingOrderId then stored.pendingOrderId
    else after.pendingOrderId
  renewalForLicenseId :=
    if after.renewalForLicenseId = before.renewalForLicenseId then stored.renewalForLicenseId
    else after.renewalForLicenseId

/-- What a request writes: the statuses of new requests; new lines, each with the position of the new
request it goes into, if any; loaded lines with what became of them; deleted lines; a request with its
new status, or none for its deletion; and the licences that lines became.
-/
structure LineWrite where
  newRequests : List SourcingStatus := []
  inserted : List (SupportLine × Option Nat) := []
  changed : List (Nat × SupportLine × SupportLine) := []
  deleted : List Nat := []
  request : Option (Nat × Option SourcingStatus) := none
  converted : List License := []

/-- Rows appended to a table in turn. -/
def insertAll {α : Type} : List α → Table α → Table α
  | [], t => t
  | row :: rows, t => insertAll rows (t.insert row)

namespace LineWrite

/-- The row that a write makes of a stored line. -/
def rewritten (w : LineWrite) (id : Nat) (stored : SupportLine) : SupportLine :=
  match w.changed.find? (fun change => change.1 == id) with
  | some (_, before, after) => before.written after stored
  | none => stored

/-- The new lines, in their requests. -/
def newLines (w : LineWrite) (a : LineStore) : List SupportLine :=
  w.inserted.map fun entry =>
    match entry.2 with
    | none => entry.1
    | some position => { entry.1 with sourcingRequestId := some (a.requests.nextKey + position) }

/-- The requests after a write. -/
def requestsAfter (w : LineWrite) (a : LineStore) : Table SourcingStatus :=
  let requests := insertAll w.newRequests a.requests
  match w.request with
  | none => requests
  | some (id, some status) => requests.modify id (fun _ => status)
  | some (id, none) => requests.filter (fun key _ => key != id)

/-- The parents that a write names exist, which the foreign key of the column asks for. -/
def parentsExist (w : LineWrite) (a : LineStore) : Prop :=
  ∀ line ∈ w.inserted.map Prod.fst ++ w.changed.map (·.2.2), ∀ licenseId,
    line.maintenanceParentLicenseId = some licenseId → (a.licenses.get? licenseId).isSome = true

instance (w : LineWrite) (a : LineStore) : Decidable (w.parentsExist a) :=
  inferInstanceAs (Decidable (∀ line ∈ w.inserted.map Prod.fst ++ w.changed.map (·.2.2), ∀ licenseId,
    line.maintenanceParentLicenseId = some licenseId → (a.licenses.get? licenseId).isSome = true))

/-- The store after a write, or the error of the database layer. -/
def apply (w : LineWrite) (a : LineStore) : Except Failure LineStore := do
  require (w.parentsExist a) (.database "FOREIGN KEY constraint failed")
  require (∀ change ∈ w.changed, (a.items.get? change.1).isSome = true)
    (.database "UPDATE statement on table 'sourcing_items' expected to update 1 row(s)")
  pure
    {
      items :=
        (insertAll (w.newLines a) (a.items.mapRows w.rewritten)).filter
          (fun id _ => !w.deleted.contains id)
      requests := w.requestsAfter a
      licenses := insertAll w.converted a.licenses
    }

end LineWrite

-- Requests

/-- A request that changes sourcing lines. Lines are submitted as their payloads make them, each line
of a new request with whether its supplier puts it into a request of its own; a conversion into
licences brings the licence of each line.
-/
inductive LineRequest
  | startSupportRenewal (licenseId : Nat)
  | createSourcingItem (line : SupportLine)
  | createSourcingRequest (lines : List (SupportLine × Bool))
  | addSourcingRequestItem (requestId : Nat) (line : SupportLine)
  | addPendingOrderItems (orderId : Nat) (lines : List SupportLine)
  | updateSourcingItem (itemId : Nat) (edit : LineEdit)
  | updateSourcingRequest (requestId : Nat) (edits : List (Nat × LineEdit))
  | updatePendingOrderItem (orderId itemId : Nat) (edit : LineEdit)
  | deleteSourcingItem (itemId : Nat)
  | deleteSourcingRequest (requestId : Nat)
  | deletePendingOrderItem (orderId itemId : Nat)
  | cancelSourcingRequest (requestId : Nat)
  | cancelPendingOrder (orderId : Nat)
  | mergeCoterm (itemIds : List Nat)
  | convertSourcingItem (itemId orderId : Nat)
  | convertSourcingRequest (requestId orderId : Nat) (direct : Nat → Bool)
  | convertFreeware (itemIds : List Nat) (license : Nat → License)
  | convertPendingOrder (orderId : Nat) (license : Nat → License)

/-- The lines with their ids that satisfy a condition. -/
def LineStore.linesWhere (a : LineStore) (p : SupportLine → Bool) : List (Nat × SupportLine) :=
  a.items.entries.filter (fun entry => p entry.2)

/-- Loads a line or fails. -/
def LineStore.line (a : LineStore) (itemId : Nat) : Except Failure SupportLine :=
  found (a.items.get? itemId) (.http 404 "Sourcing item not found")

/-- `assert_sourcing_item_editable`. -/
def LineStore.assertEditable (a : LineStore) (line : SupportLine) : Except Failure Unit := do
  require (¬ (line.status = .converted ∨ line.pendingOrderId ≠ none))
    (.http 409 "Cannot modify a converted sourcing item")
  require (line.status ≠ .cancelled) (.http 409 "Cannot modify a cancelled sourcing item")
  let request := line.sourcingRequestId.bind a.requests.get?
  require (request ≠ some .converted) (.http 409 "Cannot modify an item in a converted sourcing request")
  require (request ≠ some .cancelled) (.http 409 "Cannot modify an item in a cancelled sourcing request")

/-- `assert_sourcing_request_editable`, for a request that is loaded. -/
def LineStore.assertRequestEditable (a : LineStore) (requestId : Nat) : Except Failure Unit := do
  let status ← found (a.requests.get? requestId) (.http 404 "Sourcing request not found")
  require (status ≠ .converted) (.http 409 "Cannot modify a converted sourcing request")
  require (status ≠ .cancelled) (.http 409 "Cannot modify a cancelled sourcing request")

/-- `refresh_sourcing_request_status`, once some lines are no longer open for sourcing. -/
def LineStore.refreshedRequest (a : LineStore) (done : List Nat) (requestId : Option Nat)
    : Option (Nat × Option SourcingStatus) :=
  requestId.bind fun id =>
    let remaining := a.linesWhere (fun line =>
      line.sourcingRequestId == some id && line.status == .sourcing)
    if remaining.all (fun entry => done.contains entry.1) then some (id, some .converted) else none

/-- The lines of a new request, in it or in the requests that follow it. -/
def placeLines : List (SupportLine × Bool) → Nat → List (SupportLine × Option Nat)
  | [], _ => []
  | (line, own) :: lines, opened =>
      let placed := { line.normalise with status := .sourcing, pendingOrderId := none }
      if own then (placed, some (opened + 1)) :: placeLines lines (opened + 1)
      else (placed, some 0) :: placeLines lines opened

/-- The write of lines that are attached to an order. -/
def attachWrite (lines : List (Nat × SupportLine)) (orderId : Nat) : LineWrite where
  changed := lines.map fun entry =>
    (entry.1, entry.2, { entry.2 with status := .converted, pendingOrderId := some orderId })

/-- The write of lines that become licences. -/
def licenseWrite (lines : List (Nat × SupportLine)) (license : Nat → License) : LineWrite where
  changed := lines.map fun entry => (entry.1, entry.2, { entry.2 with status := .converted })
  converted := lines.map fun entry => { license entry.1 with sourceSourcingItemId := some entry.1 }

/-- The status after `reserve_sourcing_item_conversion`, which a conversion begins with. -/
def LineStore.reserved (a : LineStore) (itemId : Nat) : Except Failure SupportLine := do
  let line ← found (a.items.get? itemId)
    (.http 409 "Sourcing item is no longer available for conversion")
  require (line.status = .sourcing)
    (.http 409 "Sourcing item is no longer available for conversion")
  pure line

/-- What a request decides to write, from what it reads. The start of a support renewal decides in
two reads of its own.
-/
def LineRequest.plan (a : LineStore) : LineRequest → Except Failure LineWrite
  | .startSupportRenewal _ => .ok {}
  | .createSourcingItem line =>
      let line := { line.normalise with pendingOrderId := none }
      match line.sourcingRequestId.bind a.requests.get? with
      | some _ => .ok { inserted := [(line, none)] }
      | none => .ok { newRequests := [line.status], inserted := [(line, some 0)] }
  | .createSourcingRequest lines =>
      let inserted := placeLines lines 0
      .ok { newRequests := .sourcing :: lines.filterMap (fun entry =>
        if entry.2 then some .sourcing else none), inserted := inserted }
  | .addSourcingRequestItem requestId line => do
      a.assertRequestEditable requestId
      pure
        {
          inserted :=
            [({ line.normalise with
                status := .sourcing
                pendingOrderId := none
                sourcingRequestId := some requestId }, none)]
        }
  | .addPendingOrderItems orderId lines =>
      .ok
        {
          inserted := lines.map fun line =>
            ({ line.normalise with
                status := .converted
                pendingOrderId := some orderId
                renewalForLicenseId := none
                sourcingRequestId := none }, none)
        }
  | .updateSourcingItem itemId edit => do
      let line ← a.line itemId
      a.assertEditable line
      pure { changed := [(itemId, line, edit.apply line)] }
  | .updateSourcingRequest requestId edits => do
      a.assertRequestEditable requestId
      require (edits.map Prod.fst).Nodup
        (.http 422 "A sourcing request line can only be updated once")
      let changed ← edits.mapM fun edit => do
        let line ← a.line edit.1
        require (line.sourcingRequestId = some requestId)
          (.http 404 s!"Sourcing item {edit.1} was not found in this request")
        a.assertEditable line
        pure (edit.1, line, edit.2.apply line)
      pure { changed := changed }
  | .updatePendingOrderItem orderId itemId edit => do
      let line ← a.line itemId
      require (line.pendingOrderId = some orderId) (.http 404 "Pending order item not found")
      pure { changed := [(itemId, line, { edit with status := none }.apply line)] }
  | .deleteSourcingItem itemId => do
      let line ← a.line itemId
      a.assertEditable line
      pure { deleted := [itemId] }
  | .deleteSourcingRequest requestId => do
      a.assertRequestEditable requestId
      let lines := a.linesWhere (fun line => line.sourcingRequestId == some requestId)
      require (¬ lines.any (fun entry => entry.2.status == .converted) = true)
        (.http 409 "Cannot delete a sourcing request after any line has been converted")
      pure { deleted := lines.map Prod.fst, request := some (requestId, none) }
  | .deletePendingOrderItem orderId itemId => do
      let line ← a.line itemId
      require (line.pendingOrderId = some orderId) (.http 404 "Pending order item not found")
      pure { deleted := [itemId] }
  | .cancelSourcingRequest requestId => do
      a.assertRequestEditable requestId
      let lines := a.linesWhere (fun line =>
        line.sourcingRequestId == some requestId && line.status == .sourcing)
      pure
        {
          changed := lines.map fun entry =>
            (entry.1, entry.2, { entry.2 with status := .cancelled })
          request := some (requestId, some .cancelled)
        }
  | .cancelPendingOrder orderId =>
      let lines := a.linesWhere (fun line => line.pendingOrderId == some orderId)
      .ok
        {
          changed := lines.map fun entry =>
            (entry.1, entry.2, { entry.2 with status := .cancelled })
        }
  | .mergeCoterm itemIds => do
      let lines ← itemIds.mapM fun id => do
        let line ← a.line id
        require (line.status = .sourcing) (.http 400 "Sourcing item(s) are no longer open")
        require (line.renewalForLicenseId ≠ none) (.http 400 "Sourcing item(s) are not renewal items")
        pure line
      let primary ← found lines.head?
        (.http 400 "At least two sourcing item IDs are required to merge")
      pure
        {
          newRequests := [.sourcing]
          inserted :=
            [({
                licenseType := primary.licenseType
                renewalForLicenseId := primary.renewalForLicenseId
              }, some 0)]
          deleted := itemIds
        }
  | .convertSourcingItem itemId orderId => do
      let line ← a.reserved itemId
      pure
        { attachWrite [(itemId, line)] orderId with
          request := a.refreshedRequest [itemId] line.sourcingRequestId }
  | .convertSourcingRequest requestId orderId direct => do
      let status ← found (a.requests.get? requestId) (.http 404 "Sourcing request not found")
      require (status = .sourcing)
        (.http 409 "Sourcing request is no longer available for conversion")
      let lines := (a.linesWhere (fun line =>
        line.sourcingRequestId == some requestId && line.status == .sourcing)).filter
          (fun entry => !direct entry.1)
      pure
        { attachWrite lines orderId with
          request := a.refreshedRequest (lines.map Prod.fst) (some requestId) }
  | .convertFreeware itemIds license => do
      let lines ← itemIds.mapM fun id => do
        let line ← a.reserved id
        pure (id, line)
      pure (licenseWrite lines license)
  | .convertPendingOrder orderId license =>
      .ok (licenseWrite (a.linesWhere (fun line => line.pendingOrderId == some orderId)) license)

/-- Whether a request takes the write lock before it reads. -/
def LineRequest.reservesFirst : LineRequest → Bool
  | .convertSourcingItem .. | .convertSourcingRequest .. | .convertFreeware .. => true
  | _ => false

/-- The checks of `start_support_renewal` on the licence. -/
def startChecks (parent : License) : Except Failure Unit := do
  require (parent.licenseType.isMaintenanceParent = true)
    (.http 400 "Maintenance renewal applies to perpetual, OEM and freeware licenses")
  require (parent.maintenanceCoverage = .included ∧ parent.maintenanceEndDate ≠ none)
    (.http 400 "This license has no included maintenance period with an end date")
  require (¬ (parent.isRetired = true ∨ parent.retirementScheduled = true
      ∨ parent.lifecycleStatus = some .legacy))
    (.http 409 "Retired, retirement-scheduled or legacy licenses cannot start a maintenance renewal")

/-- The line that `start_support_renewal` creates. -/
def supportRenewalLine (licenseId : Nat) : SupportLine where
  licenseType := some .maintenance
  maintenanceParentLicenseId := some licenseId

/-- Where a request is. -/
inductive LineProgram
  | requested (request : LineRequest)
  | checking (licenseId : Nat)
  | writing (write : LineWrite)
  | committing
  | rollingBack (failure : Failure)
  | answered
  | failed (failure : Failure)

namespace LineProgram

/-- The first read of `start_support_renewal`: the licence. -/
def startChecked (licenseId : Nat) (a : LineStore) : LineProgram :=
  match found (a.licenses.get? licenseId) (.http 404 "License not found") >>= startChecks with
  | .ok _ => .checking licenseId
  | .error failure => .failed failure

/-- Its second read: whether a renewal is open. -/
def openChecked (licenseId : Nat) (a : LineStore) : LineProgram :=
  if a.openSupportRenewals licenseId = [] then
    .writing { newRequests := [.sourcing], inserted := [(supportRenewalLine licenseId, some 0)] }
  else .failed (.http 409 "A maintenance renewal is already in progress for this license")

/-- What becomes of a request that has read what it decides on. -/
def planned (request : LineRequest) (a : LineStore) : LineProgram :=
  match request.plan a with
  | .ok write => .writing write
  | .error failure => .failed failure

/-- A transaction that has written, or has to be given up. -/
def written (a : LineStore) (result : Except Failure LineStore) : LineStore × LineProgram :=
  match result with
  | .ok written => (written, .committing)
  | .error failure => (a, .rollingBack failure)

/-- The next statement of a request. A request that another check refuses, or that fails, ends as one
whose process ends.
-/
def statement : LineProgram → Statement LineStore LineProgram
  | .requested (.startSupportRenewal licenseId) => .read (startChecked licenseId)
  | .requested request =>
      if request.reservesFirst then
        .write fun a => written a (request.plan a >>= fun write => write.apply a)
      else .read (planned request)
  | .checking licenseId => .read (openChecked licenseId)
  | .writing write => .write fun a => written a (write.apply a)
  | .committing => .commit .answered
  | .rollingBack failure => .rollback (.failed failure)
  | .answered | .failed _ => .finished

end LineProgram

end LicenseTrack
