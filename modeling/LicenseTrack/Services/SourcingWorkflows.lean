import LicenseTrack.Services.SourcingRequests

/-! What ends the work on sourcing lines: edits, deletions, merges and cancellations, and the
conversions of free lines and of whole requests.
-/

namespace LicenseTrack

open Library

/-- The body of an edit of a sourcing line. -/
structure SourcingLineEdit where
  columns : SourcingItemUpdate
  contactEmail : Option (Option String) := none
  status : Option SourcingStatus := none
deriving DecidableEq

/-- The row that an edit leaves, before its identity. -/
def SourcingLineEdit.writeRow (p : SourcingLineEdit) (publisher : String × Option Nat)
    (item : SourcingItem)
    : SourcingItem :=
  { p.columns.writeRow { item with publisherName := publisher.1, publisherId := publisher.2 } item with
    supplier := item.supplier
    supplierId := item.supplierId
    contactEmail := item.contactEmail
    status := p.status.getD item.status }

/-- The publisher that an edit names. -/
def SourcingLineEdit.resolvePublisher (u : Unicode) (p : SourcingLineEdit) (item : SourcingItem)
    (s : Store)
    : Except Failure ((String × Option Nat) × Store) :=
  match p.columns.publisherName with
  | none => .ok ((item.publisherName, item.publisherId), s)
  | some name => do
      require (isBlank name = false) (.http 422 "publisher_name is required")
      let (name, id, s) ← resolveOrganization u .publisher true name s
      pure ((name, some id), s)

/-- The identity of a line without a request. -/
def SourcingLineEdit.writeIdentity (p : SourcingLineEdit) (supplier : Option String × Option Nat)
    (item : SourcingItem)
    : SourcingItem :=
  let set := p.columns.supplier.isSome
  { item with
    supplier := if set then cleanProcurementIdentity supplier.1 else item.supplier
    supplierId := if set then supplier.2 else item.supplierId
    contactEmail := match p.contactEmail with
      | some email => cleanProcurementIdentity email
      | none => if set then none else item.contactEmail }

/-- `apply_sourcing_item_update`. -/
def applySourcingItemUpdate (u : Unicode) (itemId : Nat) (item : SourcingItem)
    (requestId : Option Nat) (p : SourcingLineEdit) (s : Store)
    : Except Failure Store := do
  let (publisher, s) ← p.resolvePublisher u item s
  let s ← requestId.elim (.ok s) (fun requestId => resolveRequestSupplier u requestId s)
  let (supplier, s) ← resolveSupplierColumns u (p.columns.supplier.getD none) s
  require (p.columns.currency ≠ some none)
    (.database "NOT NULL constraint failed: sourcing_items.currency")
  let s := s.modifyItem itemId (p.writeRow publisher)
  match requestId with
  | some requestId =>
      pure (synchronizeRequestIdentity u requestId (p.columns.supplier.map (fun _ => supplier))
        p.contactEmail s)
  | none => pure (s.modifyItem itemId (p.writeIdentity supplier))

/-- `update_sourcing_item_record`. -/
def updateSourcingItem (env : Env) (itemId : Nat) (p : SourcingLineEdit) (s : Store)
    : Except Failure Store := do
  let item ← found (s.items.get? itemId) (.http 404 "Sourcing item not found")
  assertSourcingItemEditable s item
  require (item.sourcingRequestId.all (fun id => (s.requests.get? id).isSome) = true)
    (.http 404 "Sourcing request not found")
  applySourcingItemUpdate env.unicode itemId item item.sourcingRequestId p s

/-- The body of an edit of a sourcing request; its line edits set no status. -/
structure SourcingRequestUpdate where
  supplier : Option (Option String) := none
  contactEmail : Option (Option String) := none
  notes : Option (Option String) := none
  items : List (Nat × SourcingLineEdit) := []
deriving DecidableEq

/-- `apply_sourcing_request_update`. -/
def applySourcingRequestUpdate (u : Unicode) (requestId : Nat) (p : SourcingRequestUpdate)
    (s : Store)
    : Except Failure Store := do
  let s := s.modifyRequest requestId (fun r => { r with notes := p.notes.getD r.notes })
  let s ← resolveRequestSupplier u requestId s
  let (supplier, s) ← resolveSupplierColumns u (p.supplier.getD none) s
  pure (synchronizeRequestIdentity u requestId (p.supplier.map (fun _ => supplier)) p.contactEmail s)

/-- One line's turn in `apply_sourcing_request_workflow_update`. -/
def applyRequestLineUpdate (u : Unicode) (requestId : Nat) (edit : Nat × SourcingLineEdit)
    (s : Store)
    : Except Failure Store := do
  let item ← found (s.items.get? edit.1)
    (.http 404 s!"Sourcing item {edit.1} was not found in this request")
  applySourcingItemUpdate u edit.1 item (some requestId) { edit.2 with status := none } s

/-- `apply_sourcing_request_workflow_update`. -/
def applySourcingRequestWorkflowUpdate (env : Env) (requestId : Nat) (p : SourcingRequestUpdate)
    (s : Store)
    : Except Failure Store := do
  let request ← found (s.requests.get? requestId) (.http 404 "Sourcing request not found")
  assertSourcingRequestEditable request
  require (p.items.map Prod.fst).Nodup
    (.http 422 "A sourcing request line can only be updated once")
  p.items.forM (fun edit => do
    let item ← found ((s.items.get? edit.1).filter (·.sourcingRequestId == some requestId))
      (.http 404 s!"Sourcing item {edit.1} was not found in this request")
    assertSourcingItemEditable s item)
  let s ← applySourcingRequestUpdate env.unicode requestId p s
  each (applyRequestLineUpdate env.unicode requestId) p.items s

-- Deleting, cancelling and merging

/-- Deletes lines; the database clears the columns of other lines that name them. -/
def Store.deleteItems (s : Store) (gone : Nat → SourcingItem → Bool) : Store :=
  let deleted := s.items.select gone
  { s with
    items := (s.items.filter (fun id item => !gone id item)).mapRows (fun _ item =>
      { item with
        parentSourcingItemId := item.parentSourcingItemId.filter (!deleted.contains ·)
        successorSourcingItemId := item.successorSourcingItemId.filter (!deleted.contains ·) }) }

/-- Whether some line of a request has a status. -/
def Store.hasLine (s : Store) (requestId : Nat) (status : SourcingStatus) : Bool :=
  s.items.entries.any (fun entry =>
    entry.2.sourcingRequestId == some requestId && entry.2.status == status)

/-- `delete_sourcing_item_record`. -/
def deleteSourcingItem (itemId : Nat) (s : Store) : Except Failure Store := do
  let item ← found (s.items.get? itemId) (.http 404 "Sourcing item not found")
  assertSourcingItemEditable s item
  requireNoPlannedLinks s itemId item
  let s := s.deleteItems (fun id _ => id == itemId)
  let s := item.predecessorIds.foldl (fun s id => clearPendingRenewalIfNoOpenSourcing id s) s
  match item.sourcingRequestId with
  | some requestId =>
      pure (if s.hasLine requestId .converted then refreshSourcingRequestStatus requestId s else s)
  | none => pure s

/-- `delete_sourcing_request_record`. -/
def deleteSourcingRequest (requestId : Nat) (s : Store) : Except Failure Store := do
  let request ← found (s.requests.get? requestId) (.http 404 "Sourcing request not found")
  assertSourcingRequestEditable request
  require (s.hasLine requestId .converted = false)
    (.http 409 "Cannot delete a sourcing request after any line has been converted")
  let renewals := ((s.requestItems requestId).filter (fun entry => entry.2.status == .sourcing)).flatMap
    (fun entry => entry.2.predecessorIds)
  let s := s.deleteItems (fun _ item => item.sourcingRequestId == some requestId)
  let s := { s with requests := s.requests.filter (fun id _ => id != requestId) }
  pure (renewals.foldl (fun s id => clearPendingRenewalIfNoOpenSourcing id s) s)

/-- `cancel_sourcing_request_record`. -/
def cancelSourcingRequest (requestId : Nat) (s : Store) : Except Failure Store := do
  let request ← found (s.requests.get? requestId) (.http 404 "Sourcing request not found")
  assertSourcingRequestEditable request
  let renewals := ((s.requestItems requestId).filter (fun entry => entry.2.status == .sourcing)).flatMap
    (fun entry => entry.2.predecessorIds)
  let s := s.modifyRequest requestId (fun r => { r with status := .cancelled })
  let s := { s with
    items := s.items.mapRows (fun _ item =>
      if item.sourcingRequestId = some requestId ∧ item.status = .sourcing then
        { item with status := .cancelled }
      else item) }
  pure (renewals.foldl (fun s id => clearPendingRenewalIfNoOpenSourcing id s) s)

/-- `cancel_pending_order_record`. -/
def cancelPendingOrder (orderId : Nat) (s : Store) : Except Failure Store := do
  let loaded ← editablePendingOrder s orderId "cancel"
  let renewals := loaded.items.flatMap (fun entry => entry.2.predecessorIds)
  let s := { s with
    orders := s.orders.modify orderId (fun order => { order with status := .cancelled })
    items := s.items.mapRows (fun _ item =>
      if item.pendingOrderId = some orderId then { item with status := .cancelled } else item) }
  pure (renewals.foldl (fun s id => clearPendingRenewalIfNoOpenSourcing id s) s)

/-- One line's turn in `cancel_renewal`, with the request of the line. -/
def cancelRenewalLine (u : Unicode) (itemId : Nat) (cancelled : List Nat × Store)
    : Except Failure (List Nat × Store) := do
  let item ← found (cancelled.2.items.get? itemId) (.http 404 "Sourcing item not found")
  require (item.predecessorIds.length ≤ 1)
    (.http 409 ("This renewal is represented by a coterm sourcing line covering "
      ++ s!"predecessors {item.predecessorIds}; cancel the grouped renewal instead."))
  let (requestId, s) ← match item.sourcingRequestId with
    | some requestId => .ok (requestId, cancelled.2)
    | none => ensureSourcingRequestForItem u itemId item cancelled.2
  pure (cancelled.1 ++ [requestId],
    s.modifyItem itemId (fun item => { item with status := .cancelled }))

/-- `cancel_renewal`. -/
def cancelRenewal (env : Env) (licenseId : Nat) (s : Store) : Except Failure Store := do
  let l ← found (s.license? licenseId) (.http 404 "License not found")
  require (l.lifecycleStatus = some .pendingRenewal)
    (.http 400 "License is not in pending_renewal status")
  let lines := s.items.select (fun _ item =>
    item.status == .sourcing && item.predecessorIds.contains licenseId)
  let (requestIds, s) ← each (cancelRenewalLine env.unicode) lines ([], s)
  let s := requestIds.foldl (fun s requestId =>
    clearPendingRenewalIfNoOpenSourcing licenseId (refreshSourcingRequestStatus requestId s)) s
  pure (clearPendingRenewalIfCurrent licenseId s)

/-- Whether a licence may still be renewed, as a merge asks. -/
def License.isEligibleForMerge (l : License) : Bool :=
  l.lifecycleStatus != some .renewed && l.lifecycleStatus != some .legacy && !l.isRetired
    && !l.retirementScheduled

/-- The line of a merge: its columns that place it, and the remaining ones as
`build_merged_sourcing_item` fills them.
-/
def mergedLine (env : Env) (columns : SourcingItem) (predecessorIds : List Nat) : SourcingItem :=
  { columns with
    sourcingRequestId := none
    parentSourcingItemId := none
    successorSourcingItemId := none
    status := .sourcing
    pendingOrderId := none
    poLineId := none
    createdAt := env.now
    renewalForLicenseId := predecessorIds.head?
    cotermPredecessorIds := some predecessorIds }

/-- Compares two predecessors of a merge by their start, a missing one being `date.min`. -/
def cotermBefore (s : Store) (a b : Nat) : Bool :=
  let start (id : Nat) : Date := ((s.license? id).bind (·.startDate)).getD dateMin
  start a < start b || (start a == start b && a ≤ b)

/-- The predecessors of a merge, the primary one first. -/
def cotermOrder (s : Store) (predecessorIds : List Nat) : List Nat :=
  predecessorIds.mergeSort (cotermBefore s)

/-- `merge_coterm_sourcing_items_record`, with the columns of the line that it builds. -/
def mergeCotermSourcingItems (env : Env) (itemIds : List Nat) (columns : SourcingItem) (s : Store)
    : Except Failure Store := do
  require (2 ≤ itemIds.length)
    (.http 400 "At least two sourcing item IDs are required to merge")
  require (itemIds.all (fun id => (s.items.get? id).isSome) = true)
    (.http 404 "Sourcing item(s) not found")
  let items := (s.items.filter (fun id _ => itemIds.contains id)).entries
  require (items.all (fun entry => entry.2.status == .sourcing) = true)
    (.http 400 "Sourcing item(s) are no longer open")
  require (items.all (fun entry => entry.2.renewalForLicenseId.isSome) = true)
    (.http 400 "Sourcing item(s) are not renewal items")
  let predecessorIds := (items.flatMap (fun entry => entry.2.predecessorIds)).dedup
  require (predecessorIds.all (fun id => (s.license? id).isSome) = true)
    (.http 404 "Predecessor license(s) not found")
  require (predecessorIds.all (fun id => (s.license? id).all License.isEligibleForMerge) = true)
    (.http 400 "Predecessor license(s) are no longer eligible for renewal")
  let sorted := cotermOrder s predecessorIds
  items.forM (fun entry => requireNoPlannedLinks s entry.1 entry.2)
  let s ← addLineWithRequest env.unicode (mergedLine env columns sorted) s
  let s := s.deleteItems (fun id _ => itemIds.contains id)
  -- `delete_empty_sourcing_requests`.
  let original := items.filterMap (fun entry => entry.2.sourcingRequestId)
  pure { s with
    requests := s.requests.filter (fun id request =>
      !(original.contains id && request.status == .sourcing && (s.requestItems id).isEmpty)) }

-- Free lines

/-- The data of the licence that a free line becomes. -/
def freewareLicenseData (itemId : Nat) (item : SourcingItem) (request : Option SourcingRequest)
    : ConversionData where
  publisherName := item.publisherName
  softwareDescription := item.softwareDescription
  licenseType := .freeware
  licenseMetric := item.licenseMetric.getD .perUser
  portalUrl := item.portalUrl
  quantity := item.quantity.getD ""
  quantityPerUnit := (truthy item.quantityPerUnit).getD "1"
  skuCode := item.skuCode.getD ""
  unitPrice := ""
  totalPoPrice := ""
  currency := item.currency
  startDate := item.startDate
  endDate := item.endDate
  noticeDate := item.noticeDate
  contractNumber := item.contractNumber.getD ""
  poNumber := ""
  invoiceNumber := item.invoiceNumber.getD ""
  pendingOrderId := none
  sourceSourcingItemId := some itemId
  requestDate := some item.createdAt
  purchaseDate := item.purchaseDate
  maintenanceCoverage := item.maintenanceCoverage
  maintenanceStartDate := item.maintenanceStartDate
  maintenanceEndDate := item.maintenanceEndDate
  maintenancePricingBasis := item.maintenancePricingBasis
  maintenanceQuantity := item.maintenanceQuantity
  maintenanceUnitPrice := item.maintenanceUnitPrice
  maintenanceCost := item.maintenanceCost
  contactEmail :=
    ((truthy item.contactEmail).or (request.bind (fun r => truthy r.contactEmail))).getD ""
  supplier := ((truthy item.supplier).or (request.bind (fun r => truthy r.supplier))).getD ""
  costCentre := item.costCentre.getD ""
  budgetOwnerEmail := item.budgetOwnerEmail.getD ""
  secondaryContacts := item.secondaryContacts
  externalRef := item.externalRef
  notes := item.notes.or (request.bind (·.notes))

/-- One line's turn in `convert_freeware_sourcing_items`. -/
def convertFreewareItem (env : Env) (itemId : Nat) (s : Store) : Except Failure Store := do
  let item ← found (s.items.get? itemId) (.http 404 "Sourcing item not found")
  require (item.status = .sourcing ∧ item.pendingOrderId = none)
    (.http 409 s!"Sourcing item {itemId} has already been converted")
  require (item.licenseType = some .freeware)
    (.http 422 s!"Sourcing item {itemId} is not Freeware / Open Source")
  require (item.isDirectFreeware env.unicode = true)
    (.http 422 (s!"Sourcing item {itemId} has paid included maintenance and requires "
      ++ "the purchase-order workflow"))
  require (item.renewalForLicenseId = none)
    (.http 422 s!"Sourcing item {itemId} is a renewal and must follow the purchase workflow")
  let request := item.sourcingRequestId.bind s.requests.get?
  let (licenseId, s) ← createPurchaseLicense env itemId [] true
    (freewareLicenseData itemId item request) s
  -- The data name an empty list of invoice numbers, which nothing fills from the first number.
  let s := s.modifyLicense licenseId (fun l => { l with invoiceNumbers := [] })
  pure (s.modifyItem itemId (fun item => { item with status := .converted }))

/-- `convert_freeware_sourcing_items`. -/
def convertFreewareSourcingItems (env : Env) (itemIds : List Nat) (s : Store)
    : Except Failure Store := do
  require (itemIds ≠ [])
    (.http 422 "No Freeware / Open Source items are available to convert")
  let s ← each (convertFreewareItem env) itemIds s
  let requestIds := itemIds.filterMap (fun id => (s.items.get? id).bind (·.sourcingRequestId))
  pure (requestIds.foldl (fun s requestId => refreshSourcingRequestStatus requestId s) s)

/-- `reserve_sourcing_request_conversion`. -/
def reserveSourcingRequest (s : Store) (requestId : Nat) : Except Failure SourcingRequest :=
  found ((s.requests.get? requestId).filter (·.status == .sourcing))
    (.http 409 "Sourcing request is no longer available for conversion")

/-- The open lines of a request that satisfy a condition. -/
def openItems (s : Store) (requestId : Nat) (p : SourcingItem → Bool) : List Nat :=
  s.items.select (fun _ item =>
    item.sourcingRequestId == some requestId && item.status == .sourcing && p item)

/-- `convert_freeware_sourcing_request_record`. -/
def convertFreewareSourcingRequest (env : Env) (requestId : Nat) (s : Store)
    : Except Failure Store := do
  let _ ← reserveSourcingRequest s requestId
  require (openItems s requestId (fun item => !item.isDirectFreeware env.unicode) = [])
    (.http 422 "Convert purchase lines to a pending order before converting this request directly")
  convertFreewareSourcingItems env (openItems s requestId (fun _ => true)) s

/-- `convert_freeware_sourcing_item_record`. -/
def convertFreewareSourcingItem (env : Env) (itemId : Nat) (s : Store) : Except Failure Store := do
  let _ ← found ((s.items.get? itemId).filter (·.status == .sourcing))
    (.http 409 "Sourcing item is no longer available for conversion")
  convertFreewareSourcingItems env [itemId] s

/-- `convert_sourcing_request_workflow`. -/
def convertSourcingRequestWorkflow (env : Env) (requestId : Nat) (target : ConversionTarget)
    (s : Store)
    : Except Failure Store := do
  let freeware := openItems s requestId (fun item =>
    item.isDirectFreeware env.unicode && item.renewalForLicenseId.isNone)
  let s ← convertSourcingRequest env requestId target s
  if freeware = [] then pure s else convertFreewareSourcingItems env freeware s

end LicenseTrack
