import Mathlib.Data.List.Sort
import LicenseTrack.Services.LicenseDelete
import LicenseTrack.Services.OrderConversion

/-! Pending orders and their lines: creating, editing and deleting them, and turning sourcing
lines and whole sourcing requests into order lines.
-/

namespace LicenseTrack

open Library

/-- `clean_procurement_identity`. -/
def cleanProcurementIdentity (value : Option String) : Option String :=
  truthy (some (strip (value.getD "")))

/-- `procurement_identities_match`. -/
def Unicode.procurementIdentitiesMatch (u : Unicode) (left right : Option String) : Bool :=
  u.casefold ((cleanProcurementIdentity left).getD "")
    == u.casefold ((cleanProcurementIdentity right).getD "")

/-- The supplier columns of an order or a request, resolved; a blank name clears them. -/
def resolveSupplierColumns (u : Unicode) (supplier : Option String) (s : Store)
    : Except Failure ((Option String × Option Nat) × Store) :=
  if isBlank (supplier.getD "") then .ok ((none, none), s)
  else do
    let (name, id, s) ← resolveOrganization u .supplier true (supplier.getD "") s
    pure ((some name, some id), s)

/-- `resolve_sourcing_item_references`. -/
def resolveSourcingItemReferences (u : Unicode) (item : SourcingItem) (s : Store)
    : Except Failure (SourcingItem × Store) := do
  require (isBlank item.publisherName = false) (.http 422 "publisher_name is required")
  let (publisher, publisherId, s) ← resolveOrganization u .publisher true item.publisherName s
  let item := { item with publisherName := publisher, publisherId := some publisherId }
  if isBlank (item.supplier.getD "") then
    pure ({ item with supplier := item.supplier.map (fun _ => ""), supplierId := none }, s)
  else do
    let (name, id, s) ← resolveOrganization u .supplier true (item.supplier.getD "") s
    pure ({ item with supplier := some name, supplierId := some id }, s)

/-- The register row of a sourcing line. -/
def Store.poLineOf (s : Store) (item : SourcingItem) : Option PoLineRegister :=
  item.poLineId.bind s.poLines.get?

/-- The order in which `sync_order_lines` visits lines: by number, then by identifier. -/
def beforeInOrder (s : Store) (a b : Nat × SourcingItem) : Bool :=
  let number (entry : Nat × SourcingItem) : Nat :=
    ((s.poLineOf entry.2).map (·.lineNumber)).getD 1000000000
  number a < number b || (number a == number b && a.1 ≤ b.1)

/-- Gives a line a new number on a purchase order. -/
def issueOrderLine (u : Unicode) (poNumber : String) (requested : Option Nat) (itemId : Nat)
    (s : Store)
    : Store :=
  let (lineId, s) := allocateLine u poNumber requested s
  s.modifyItem itemId (fun item => { item with poLineId := some lineId })

/-- `sync_order_lines`, for a stored order. -/
def syncOrderLines (u : Unicode) (orderId : Nat) (s : Store) : Store :=
  match s.orders.get? orderId with
  | none => s
  | some order =>
      let poKey := u.normalizePoNumber order.poNumber
      let items := ((s.orderItems orderId).filter (fun entry => entry.2.status != .cancelled)).insertionSort
        (fun a b => beforeInOrder s a b = true)
      if poKey = "" then
        items.foldl (fun s entry => s.modifyItem entry.1 (fun item => { item with poLineId := none })) s
      else
        let moving := items.filter (fun entry => (s.poLineOf entry.2).any (·.poKey != poKey))
        let number (entry : Nat × SourcingItem) : Option Nat :=
          (s.poLineOf entry.2).map (·.lineNumber)
        let allFree := moving.all (fun entry =>
          (number entry).all (fun n => !(issuedNumbers s poKey).contains n))
        let missing := items.filter (fun entry => (s.poLineOf entry.2).isNone)
        let t := moving.foldl (fun t entry =>
          issueOrderLine u order.poNumber (if allFree then number entry else none) entry.1 t) s
        missing.foldl (fun t entry => issueOrderLine u order.poNumber none entry.1 t) t

/-- A line as its sender submits it. -/
structure SourcingItemCreate where
  row : SourcingItem
  successorOfItemIds : List Nat := []
deriving DecidableEq

/-- `_build_pending_order_item`. -/
def buildPendingOrderItem (env : Env) (orderId : Nat) (line : SourcingItemCreate)
    : Except Failure SourcingItem := do
  require (line.successorOfItemIds = [])
    (.http 422 "Successor lines must be added to a sourcing request")
  pure { line.row with
    sourcingRequestId := none
    successorSourcingItemId := none
    renewalForLicenseId := none
    cotermPredecessorIds := none
    poLineId := none
    createdAt := env.now
    status := .converted
    pendingOrderId := some orderId }

/-- The stored value of an order's status. -/
def PendingOrderStatus.value : PendingOrderStatus → String
  | .pending => "pending"
  | .invoiceReceived => "invoice_received"
  | .converted => "converted"
  | .cancelled => "cancelled"

/-- The client error of a change to an order that is closed. -/
def closedOrder (action : String) (order : PendingOrder) : Failure :=
  .http 409 s!"Cannot {action} a {order.status.value} order"

/-- `ensure_pending_order_editable`, on a stored order. -/
def editablePendingOrder (s : Store) (orderId : Nat) (action : String)
    : Except Failure LoadedOrder := do
  let loaded ← getPendingOrder s orderId
  require (loaded.order.isOpen = true) (closedOrder action loaded.order)
  pure loaded

/-- One line's turn in `add_pending_order_items_bulk_record`, which flushes the line. -/
def addPendingOrderItem (env : Env) (orderId : Nat) (line : SourcingItemCreate) (s : Store)
    : Except Failure Store := do
  assertLineCurrencyFitsPendingOrder env.unicode s orderId line.row.currency
  let item ← buildPendingOrderItem env orderId line
  let (item, s) ← resolveSourcingItemReferences env.unicode item s
  pure { s with items := s.items.insert item }

/-- `add_pending_order_items_bulk_record`. -/
def addPendingOrderItemsBulk (env : Env) (orderId : Nat) (lines : List SourcingItemCreate)
    (s : Store)
    : Except Failure Store := do
  require (lines ≠ []) (.http 422 "At least one item is required")
  let _ ← editablePendingOrder s orderId "add items to"
  let s ← each (addPendingOrderItem env orderId) lines s
  pure (syncOrderLines env.unicode orderId s)

-- Orders

/-- The body of a request that creates an order. -/
structure PendingOrderCreate where
  poNumber : String := ""
  procurementReference : String := ""
  supplier : Option String := none
  notes : Option String := none
  items : List SourcingItemCreate := []
deriving DecidableEq

/-- `create_pending_order_record`. -/
def createPendingOrder (env : Env) (p : PendingOrderCreate) (s : Store) : Except Failure Store := do
  let ((supplier, supplierId), s) ← resolveSupplierColumns env.unicode p.supplier s
  let orderId := s.orders.nextKey
  let s := { s with
    orders := s.orders.insert
      {
        poNumber := strip p.poNumber
        procurementReference := strip p.procurementReference
        supplier := supplier
        supplierId := supplierId
        notes := p.notes
      } }
  if p.items = [] then pure s else addPendingOrderItemsBulk env orderId p.items s

/-- The fields of an order update that are set. -/
structure PendingOrderUpdate where
  poNumber : Option (Option String) := none
  procurementReference : Option (Option String) := none
  supplier : Option (Option String) := none
  contactEmail : Option (Option String) := none
  poTotalOverride : Option (Option String) := none
  notes : Option (Option String) := none
  status : Option (Option PendingOrderStatus) := none
deriving DecidableEq

/-- The manual total that an update sets, past the schema: an empty text counts as null. -/
def PendingOrderUpdate.total (p : PendingOrderUpdate) : Option (Option String) :=
  p.poTotalOverride.map truthy

/-- The row that an order update leaves. -/
def PendingOrderUpdate.writeRow (p : PendingOrderUpdate) (supplier : Option String × Option Nat)
    (order : PendingOrder)
    : PendingOrder :=
  { order with
    poNumber := (p.poNumber.map (fun text => strip (text.getD ""))).getD order.poNumber
    procurementReference :=
      (p.procurementReference.map (fun text => strip (text.getD ""))).getD
        order.procurementReference
    supplier := if p.supplier.isSome then supplier.1 else order.supplier
    supplierId := if p.supplier.isSome then supplier.2 else order.supplierId
    poTotalOverride := p.total.getD order.poTotalOverride
    notes := p.notes.getD order.notes
    status := (p.status.getD none).getD order.status }

/-- `apply_pending_order_update`. -/
def applyPendingOrderUpdate (env : Env) (orderId : Nat) (p : PendingOrderUpdate) (s : Store)
    : Except Failure Store := do
  require ((p.total.getD none).all env.unicode.isCanonicalMoney = true)
    (.http 422 "PO total must be a plain decimal string (e.g. '1234.50').")
  let _ ← editablePendingOrder s orderId "update"
  let (supplier, s) ← resolveSupplierColumns env.unicode (p.supplier.getD none) s
  require (p.status.all (fun status => status == some .pending || status == some .invoiceReceived)
      = true)
    (.http 422 "Pending order status can only be changed to pending or invoice_received from the edit path")
  let s := { s with orders := s.orders.modify orderId (p.writeRow supplier) }
  let s := match p.contactEmail with
    | some email => { s with
        items := s.items.mapRows (fun _ item =>
          if item.pendingOrderId = some orderId ∧ item.status ≠ .cancelled then
            { item with contactEmail := cleanProcurementIdentity email }
          else item) }
    | none => s
  -- `assert_pending_order_override_currencies`, for a total that is set.
  require (p.total.getD none = none
      ∨ (pendingOrderLineCurrencies env.unicode s orderId).length ≤ 1)
    (.http 422 pendingOrderCurrencyDetail)
  pure (if p.poNumber.isSome then syncOrderLines env.unicode orderId s else s)

/-- `delete_pending_order_record`, with what the deleted order leaves of its lines. -/
def deletePendingOrder (orderId : Nat) (s : Store) : Except Failure Store := do
  let loaded ← getPendingOrder s orderId
  require (loaded.order.status = .pending)
    (.http 409 "Only pending orders with status 'pending' can be deleted")
  let affected := loaded.items.filterMap (fun entry => entry.2.sourcingRequestId)
  pure { s with
    items := s.items.mapRows (fun _ item =>
      if item.pendingOrderId = some orderId then
        { item with status := .sourcing, pendingOrderId := none }
      else item)
    requests := s.requests.mapRows (fun id request =>
      if affected.contains id then { request with status := .sourcing } else request)
    orders := s.orders.filter (fun id _ => id != orderId) }

-- Editing and deleting lines

/-- The body of a line edit: the fields that its checks read, and the remaining columns as the
edit leaves them.
-/
structure SourcingItemUpdate where
  publisherName : Option String := none
  supplier : Option (Option String) := none
  currency : Option (Option String) := none
  rest : SourcingItem
deriving DecidableEq

/-- The row that a line edit leaves; the columns that place the line stay. -/
def SourcingItemUpdate.writeRow (p : SourcingItemUpdate) (resolved : SourcingItem)
    (item : SourcingItem)
    : SourcingItem :=
  { p.rest with
    publisherName := if p.publisherName.isSome then resolved.publisherName else item.publisherName
    publisherId := if p.publisherName.isSome then resolved.publisherId else item.publisherId
    supplier := if p.supplier.isSome then resolved.supplier else item.supplier
    supplierId := if p.supplier.isSome then resolved.supplierId else item.supplierId
    currency := ((p.currency.getD none).getD item.currency)
    sourcingRequestId := item.sourcingRequestId
    successorSourcingItemId := item.successorSourcingItemId
    status := item.status
    pendingOrderId := item.pendingOrderId
    poLineId := item.poLineId
    createdAt := item.createdAt
    renewalForLicenseId := item.renewalForLicenseId
    cotermPredecessorIds := item.cotermPredecessorIds }

/-- `_find_order_item`. -/
def findOrderItem (loaded : LoadedOrder) (itemId : Nat) : Except Failure SourcingItem :=
  found ((loaded.items.find? (fun entry => entry.1 == itemId)).map Prod.snd)
    (.http 404 "Pending order item not found")

/-- The check of an edited currency. -/
def SourcingItemUpdate.checkCurrency (u : Unicode) (orderId : Nat) (p : SourcingItemUpdate)
    (s : Store)
    : Except Failure PUnit :=
  match p.currency with
  | some currency => assertLineCurrencyFitsPendingOrder u s orderId (currency.getD "")
  | none => .ok ⟨⟩

/-- The references of a line with the edited names, when the edit names any. -/
def SourcingItemUpdate.resolve (u : Unicode) (p : SourcingItemUpdate) (item : SourcingItem)
    (s : Store)
    : Except Failure (SourcingItem × Store) :=
  if p.publisherName.isSome ∨ p.supplier.isSome then
    resolveSourcingItemReferences u
      { item with
        publisherName := p.publisherName.getD item.publisherName
        supplier := p.supplier.getD item.supplier } s
  else .ok (item, s)

/-- `update_pending_order_item_record`. -/
def updatePendingOrderItem (env : Env) (orderId itemId : Nat) (p : SourcingItemUpdate) (s : Store)
    : Except Failure Store := do
  let loaded ← editablePendingOrder s orderId "update items on"
  let item ← findOrderItem loaded itemId
  p.checkCurrency env.unicode orderId s
  let (resolved, s) ← p.resolve env.unicode item s
  require (p.currency ≠ some none)
    (.database "NOT NULL constraint failed: sourcing_items.currency")
  pure (s.modifyItem itemId (p.writeRow resolved))

/-- `require_no_planned_links`. -/
def requireNoPlannedLinks (s : Store) (itemId : Nat) (item : SourcingItem)
    : Except Failure PUnit :=
  require (item.successorSourcingItemId = none
      ∧ s.items.entries.all (fun entry => entry.2.successorSourcingItemId != some itemId) = true)
    (.http 409 "Remove this line's planned successor links first")

/-- `clear_pending_renewal_if_no_open_sourcing`. -/
def clearPendingRenewalIfNoOpenSourcing (id : Nat) (s : Store) : Store :=
  let hasOpenWork := s.items.entries.any (fun entry =>
    entry.2.status != .cancelled && entry.2.predecessorIds.contains id)
  if hasOpenWork then s else clearPendingRenewalIfCurrent id s

/-- `delete_pending_order_item_record`. -/
def deletePendingOrderItem (orderId itemId : Nat) (s : Store) : Except Failure Store := do
  let loaded ← editablePendingOrder s orderId "delete items from"
  let item ← findOrderItem loaded itemId
  requireNoPlannedLinks s itemId item
  let s := { s with items := s.items.filter (fun id _ => id != itemId) }
  let s :=
    if loaded.items.all (fun entry => entry.1 == itemId) then
      { s with
        orders := s.orders.modify orderId (fun order => { order with status := .cancelled }) }
    else s
  pure (item.predecessorIds.foldl (fun s id => clearPendingRenewalIfNoOpenSourcing id s) s)

end LicenseTrack
