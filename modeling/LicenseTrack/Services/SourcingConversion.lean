import LicenseTrack.Services.PendingOrders

/-! Turning sourcing lines into the lines of a pending order: one line at a time, or all open
lines of a sourcing request.
-/

namespace LicenseTrack

open Library

/-- `is_direct_freeware_item`: such a line becomes a licence without an order. -/
def SourcingItem.isDirectFreeware (u : Unicode) (item : SourcingItem) : Bool :=
  item.licenseType == some .freeware
    && (item.maintenanceCoverage != some .included
      || match u.parseMoney (item.maintenanceCost.getD "") with
        | .amount cost => cost.coefficient == 0
        | _ => true)

/-- `assert_sourcing_item_editable`. -/
def assertSourcingItemEditable (s : Store) (item : SourcingItem) : Except Failure PUnit := do
  require (¬ (item.status = .converted ∨ item.pendingOrderId ≠ none))
    (.http 409 "Cannot modify a converted sourcing item")
  require (item.status ≠ .cancelled) (.http 409 "Cannot modify a cancelled sourcing item")
  let request := item.sourcingRequestId.bind s.requests.get?
  require (request.all (·.status != .converted) = true)
    (.http 409 "Cannot modify an item in a converted sourcing request")
  require (request.all (·.status != .cancelled) = true)
    (.http 409 "Cannot modify an item in a cancelled sourcing request")

/-- Writes columns of a sourcing request. -/
def Store.modifyRequest (s : Store) (id : Nat) (f : SourcingRequest → SourcingRequest) : Store :=
  { s with requests := s.requests.modify id f }

/-- `_resolve_request_supplier`. -/
def resolveRequestSupplier (u : Unicode) (requestId : Nat) (s : Store) : Except Failure Store := do
  let request ← found (s.requests.get? requestId) (.http 404 "Sourcing request not found")
  match truthy request.supplier with
  | none => pure (s.modifyRequest requestId (fun r => { r with supplierId := none }))
  | some supplier => do
      let (name, id, s) ← resolveOrganization u .supplier true supplier s
      pure (s.modifyRequest requestId (fun r =>
        { r with supplier := some name, supplierId := some id }))

/-- `synchronize_open_request_identity`, as a conversion calls it with an order's supplier. -/
def synchronizeOpenRequestIdentity (u : Unicode) (requestId : Nat) (supplier : Option String)
    (supplierId : Option Nat) (s : Store)
    : Store :=
  match s.requests.get? requestId with
  | none => s
  | some request =>
      let changed := !u.procurementIdentitiesMatch request.supplier (cleanProcurementIdentity supplier)
        || request.supplierId != supplierId
      let contactEmail := if changed then none else request.contactEmail
      let s := s.modifyRequest requestId (fun r =>
        { r with
          supplier := cleanProcurementIdentity supplier
          supplierId := supplierId
          contactEmail := contactEmail })
      { s with
        items := s.items.mapRows (fun _ item =>
          if item.sourcingRequestId = some requestId ∧ item.status = .sourcing then
            { item with
              supplier := cleanProcurementIdentity supplier
              supplierId := supplierId
              contactEmail := contactEmail }
          else item) }

/-- `refresh_sourcing_request_status`. -/
def refreshSourcingRequestStatus (requestId : Nat) (s : Store) : Store :=
  if s.items.entries.any (fun entry =>
      entry.2.sourcingRequestId == some requestId && entry.2.status == .sourcing) then s
  else s.modifyRequest requestId (fun r => { r with status := .converted })

/-- `ensure_sourcing_request_for_item`, with the line's request. -/
def ensureSourcingRequestForItem (u : Unicode) (itemId : Nat) (item : SourcingItem) (s : Store)
    : Except Failure (Nat × Store) := do
  let (resolved, s) ← resolveSourcingItemReferences u item s
  let named (item : SourcingItem) : SourcingItem :=
    { item with
      publisherName := resolved.publisherName
      publisherId := resolved.publisherId
      supplier := resolved.supplier
      supplierId := resolved.supplierId }
  match item.sourcingRequestId.filter (fun id => (s.requests.get? id).isSome) with
  | some requestId => do
      let s ← resolveRequestSupplier u requestId s
      let request := s.requests.get? requestId
      pure (requestId, s.modifyItem itemId (fun item =>
        { named item with
          supplier := request.bind (·.supplier)
          supplierId := request.bind (·.supplierId) }))
  | none =>
      let requestId := s.requests.nextKey
      let contactEmail := cleanProcurementIdentity item.contactEmail
      let s := { s with
        requests := s.requests.insert
          {
            supplier := resolved.supplier
            supplierId := resolved.supplierId
            contactEmail := contactEmail
            notes := item.notes
            status := item.status
          } }
      pure (requestId, s.modifyItem itemId (fun item =>
        { named item with contactEmail := contactEmail, sourcingRequestId := some requestId }))

/-- Where a conversion puts the lines: an order that exists, or what a new one is made of. -/
structure ConversionTarget where
  pendingOrderId : Option Nat := none
  poNumber : Option String := none
  procurementReference : Option String := none
  supplier : Option String := none
  notes : Option String := none
deriving DecidableEq

/-- The existing order of `_resolve_conversion_order`. -/
def resolveExistingOrder (u : Unicode) (orderId requestId : Nat) (s : Store)
    : Except Failure Store := do
  let order ← found (s.orders.get? orderId) (.value "Pending order not found")
  require (order.isOpen = true) (closedOrder "add lines to" order)
  let s ← lockOpenPendingOrder ⟨orderId, order, s.orderItems orderId⟩
    s!"Cannot add lines to a {order.status.value} order" s
  let supplier ← found (cleanProcurementIdentity order.supplier)
    (.http 422 "The selected pending order must have a supplier")
  let (name, id, s) ← resolveOrganization u .supplier true supplier s
  require ((s.requests.get? requestId).all (fun r => r.supplierId.all (· == id)) = true)
    (.http 409 "The sourcing request supplier conflicts with the selected pending order supplier")
  pure { s with
    orders := s.orders.modify orderId (fun order =>
      { order with supplier := some name, supplierId := some id }) }

/-- The new order of `_resolve_conversion_order`. -/
def createConversionOrder (u : Unicode) (target : ConversionTarget)
    (candidates : List (Option String)) (notes : Option String) (s : Store)
    : Except Failure Store := do
  let supplier ← found (candidates.findSome? cleanProcurementIdentity)
    (.http 422 "Supplier is required to create a pending order")
  let (name, id, s) ← resolveOrganization u .supplier true supplier s
  pure { s with
    orders := s.orders.insert
      {
        poNumber := strip (target.poNumber.getD "")
        procurementReference := strip (target.procurementReference.getD "")
        supplier := some name
        supplierId := some id
        notes := notes
      } }

/-- `_resolve_conversion_order`, with the order's identifier. -/
def resolveConversionOrder (u : Unicode) (requestId : Nat) (target : ConversionTarget)
    (candidates : List (Option String)) (notes : Option String) (s : Store)
    : Except Failure (Nat × Store) := do
  let orderId := target.pendingOrderId.getD s.orders.nextKey
  let s ← match target.pendingOrderId with
    | some orderId => resolveExistingOrder u orderId requestId s
    | none => createConversionOrder u target candidates notes s
  let order := s.orders.get? orderId
  pure (orderId, synchronizeOpenRequestIdentity u requestId (order.bind (·.supplier))
    (order.bind (·.supplierId)) s)

/-- Attaches a line to an order. -/
def attachLine (orderId : Nat) (s : Store) (itemId : Nat) : Store :=
  let order := s.orders.get? orderId
  s.modifyItem itemId (fun item =>
    { item with
      pendingOrderId := some orderId
      status := .converted
      supplier := order.bind (·.supplier)
      supplierId := order.bind (·.supplierId) })

/-- `convert_sourcing_item_workflow` and `convert_sourcing_item_to_order`. -/
def convertSourcingItem (env : Env) (itemId : Nat) (target : ConversionTarget) (s : Store)
    : Except Failure Store := do
  let item ← found ((s.items.get? itemId).filter (fun item => item.status == .sourcing))
    (.http 409 "Sourcing item is no longer available for conversion")
  assertSourcingItemEditable s item
  let (requestId, s) ← ensureSourcingRequestForItem env.unicode itemId item s
  require (item.isDirectFreeware env.unicode = false)
    (.value "Freeware / Open Source items convert directly to the License Registry")
  requireNoPlannedLinks s itemId item
  let s ← resolveRequestSupplier env.unicode requestId s
  let (orderId, s) ← resolveConversionOrder env.unicode requestId target
    [target.supplier, (s.requests.get? requestId).bind (·.supplier),
      (s.items.get? itemId).bind (·.supplier)] target.notes s
  assertLineCurrencyFitsPendingOrder env.unicode s orderId item.currency
  let s := attachLine orderId s itemId
  pure (refreshSourcingRequestStatus requestId (syncOrderLines env.unicode orderId s))

/-- The open purchase lines of a request, which its conversion attaches. -/
def purchaseItems (u : Unicode) (s : Store) (requestId : Nat) : List (Nat × SourcingItem) :=
  s.items.entries.filter (fun entry =>
    entry.2.sourcingRequestId == some requestId && entry.2.status == .sourcing
      && !entry.2.isDirectFreeware u)

/-- The order part of `convert_sourcing_request_workflow`, `convert_sourcing_request_to_order`. -/
def convertSourcingRequest (env : Env) (requestId : Nat) (target : ConversionTarget) (s : Store)
    : Except Failure Store := do
  let request ← found ((s.requests.get? requestId).filter (fun r => r.status == .sourcing))
    (.http 409 "Sourcing request is no longer available for conversion")
  let s ← resolveRequestSupplier env.unicode requestId s
  let purchase := purchaseItems env.unicode s requestId
  require (purchase ≠ []) (.value "No purchase items are available to convert to a pending order")
  let suppliers := (s.items.entries.filter (fun entry =>
    entry.2.sourcingRequestId == some requestId)).map (·.2.supplier)
  let (orderId, s) ← resolveConversionOrder env.unicode requestId target
    (target.supplier :: (s.requests.get? requestId).bind (·.supplier) :: suppliers)
    (target.notes.or request.notes) s
  -- Each check reads the stored rows without a flush, so it sees none of the lines that the loop
  -- has attached so far.
  purchase.forM (fun entry =>
    assertLineCurrencyFitsPendingOrder env.unicode s orderId entry.2.currency)
  let s := (purchase.map Prod.fst).foldl (attachLine orderId) s
  pure (refreshSourcingRequestStatus requestId (syncOrderLines env.unicode orderId s))

/-- A request that writes pending orders or their lines. -/
inductive OrderRequest
  | create (payload : PendingOrderCreate)
  | update (orderId : Nat) (payload : PendingOrderUpdate)
  | addLines (orderId : Nat) (lines : List SourcingItemCreate)
  | updateLine (orderId itemId : Nat) (payload : SourcingItemUpdate)
  | deleteLine (orderId itemId : Nat)
  | convertItem (itemId : Nat) (target : ConversionTarget)
  | convertRequest (requestId : Nat) (target : ConversionTarget)
  | delete (orderId : Nat)
deriving DecidableEq

/-- What such a request commits, or how it fails. -/
def OrderRequest.run (env : Env) : OrderRequest → Store → Except Failure Store
  | .create payload, s => createPendingOrder env payload s
  | .update orderId payload, s => applyPendingOrderUpdate env orderId payload s
  | .addLines orderId lines, s => addPendingOrderItemsBulk env orderId lines s
  | .updateLine orderId itemId payload, s => updatePendingOrderItem env orderId itemId payload s
  | .deleteLine orderId itemId, s => deletePendingOrderItem orderId itemId s
  | .convertItem itemId target, s => convertSourcingItem env itemId target s
  | .convertRequest requestId target, s => convertSourcingRequest env requestId target s
  | .delete orderId, s => deletePendingOrder orderId s

end LicenseTrack
