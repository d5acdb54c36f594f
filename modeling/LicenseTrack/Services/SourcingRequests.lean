import LicenseTrack.Services.RenewalStart

/-! Sourcing requests and their lines: creating, editing, cancelling, merging and deleting them,
planning the next terms of lines, cancelling renewals and orders, and the conversions that make
licences of free lines.
-/

namespace LicenseTrack

open Library

/-- `synchronize_open_request_identity`, with the supplier and the contact that its caller sets. -/
def synchronizeRequestIdentity (u : Unicode) (requestId : Nat)
    (supplier : Option (Option String × Option Nat)) (contactEmail : Option (Option String))
    (s : Store)
    : Store :=
  match s.requests.get? requestId with
  | none => s
  | some request =>
      let changed := supplier.any (fun set =>
        !u.procurementIdentitiesMatch request.supplier (cleanProcurementIdentity set.1)
          || request.supplierId != set.2)
      let identity : SourcingRequest :=
        { request with
          supplier := (supplier.map (fun set => cleanProcurementIdentity set.1)).getD
            request.supplier
          supplierId := (supplier.map Prod.snd).getD request.supplierId
          contactEmail := match contactEmail with
            | some email => cleanProcurementIdentity email
            | none => if changed then none else request.contactEmail }
      let s := s.modifyRequest requestId (fun _ => identity)
      { s with
        items := s.items.mapRows (fun _ item =>
          if item.sourcingRequestId = some requestId ∧ item.status = .sourcing then
            { item with
              supplier := identity.supplier
              supplierId := identity.supplierId
              contactEmail := identity.contactEmail }
          else item) }

/-- `assert_sourcing_request_editable`. -/
def assertSourcingRequestEditable (request : SourcingRequest) : Except Failure PUnit := do
  require (request.status ≠ .converted) (.http 409 "Cannot modify a converted sourcing request")
  require (request.status ≠ .cancelled) (.http 409 "Cannot modify a cancelled sourcing request")

/-- `_resolve_supplier_candidate`. -/
def resolveSupplierCandidate (u : Unicode) (value : Option String) (s : Store)
    : Except Failure ((Option String × Option Nat) × Store) :=
  match cleanProcurementIdentity value with
  | none => .ok ((none, none), s)
  | some supplier => do
      let (name, id, s) ← resolveOrganization u .supplier true supplier s
      pure ((some name, some id), s)

/-- The lines of a request. -/
def Store.requestItems (s : Store) (requestId : Nat) : List (Nat × SourcingItem) :=
  s.items.entries.filter (fun entry => entry.2.sourcingRequestId == some requestId)

-- Creating lines and requests

/-- `create_sourcing_item_record`. The line of the payload is past its schema, its support defaults
and its type fields.
-/
def createSourcingItem (env : Env) (p : SourcingItemCreate) (s : Store) : Except Failure Store := do
  require (p.successorOfItemIds = [])
    (.http 422 "Add successors within an existing sourcing request")
  addLineWithRequest env.unicode
    { p.row with
      successorSourcingItemId := none
      cotermPredecessorIds := none
      poLineId := none
      pendingOrderId := none
      createdAt := env.now } s

/-- A line of a new request, with the position of the line that it supports. -/
structure SourcingRequestLine where
  line : SourcingItemCreate
  parentItemIndex : Option Int := none
deriving DecidableEq

/-- The body of a request that creates a sourcing request. -/
structure SourcingRequestCreate where
  supplier : Option String := none
  contactEmail : Option String := none
  notes : Option String := none
  items : List SourcingRequestLine := []
deriving DecidableEq

/-- `_build_request_item`. -/
def buildRequestItem (env : Env) (p : SourcingItemCreate) (requestId : Nat)
    (supplier contactEmail : Option String)
    : SourcingItem :=
  { p.row with
    successorSourcingItemId := none
    cotermPredecessorIds := none
    poLineId := none
    pendingOrderId := none
    createdAt := env.now
    supplier := supplier
    contactEmail := contactEmail
    sourcingRequestId := some requestId
    status := .sourcing }

/-- `db.add` of a line of a request, its references resolved, with the line's key. -/
def addRequestItem (u : Unicode) (item : SourcingItem) (s : Store) : Except Failure (Nat × Store) := do
  let (item, s) ← resolveSourcingItemReferences u item s
  pure (s.items.nextKey, { s with items := s.items.insert item })

/-- `_adopt_or_validate_identity`, for the contact of a new request. -/
def adoptContact (u : Unicode) (current proposed : Option String)
    : Except Failure (Option String) :=
  match cleanProcurementIdentity proposed, current with
  | none, _ => .ok (cleanProcurementIdentity current)
  | some proposed, none => .ok (some proposed)
  | some proposed, some current => do
      require (u.procurementIdentitiesMatch (some current) (some proposed) = true)
        (.http 422 "All lines in a sourcing request must use the same supplier contact")
      pure (cleanProcurementIdentity (some current))

/-- A new request's supplier and contact, as the first lines leave them. -/
structure RequestDraft where
  supplier : Option String × Option Nat
  contactEmail : Option String
  store : Store

/-- One line's turn in the first loop of `create_sourcing_request_record`. -/
def adoptIdentity (u : Unicode) (entry : SourcingRequestLine) (draft : RequestDraft)
    : Except Failure RequestDraft := do
  if entry.parentItemIndex.isSome then pure draft
  else do
    let (supplier, s) ← resolveSupplierCandidate u entry.line.row.supplier draft.store
    require (supplier.2 = none ∨ draft.supplier.2 = none ∨ draft.supplier.2 = supplier.2)
      (.http 422 "All lines in a sourcing request must use the same request supplier")
    let adopted :=
      if supplier.2.isSome && draft.supplier.2.isNone then supplier else draft.supplier
    let contact ← adoptContact u draft.contactEmail entry.line.row.contactEmail
    pure ⟨adopted, contact, s⟩

/-- The request that a line of a new request joins: a supported line's support may be bought from a
supplier of its own.
-/
def lineRequest (u : Unicode) (notes : Option String) (requestId : Nat) (request : SourcingRequest)
    (entry : SourcingRequestLine) (s : Store)
    : Except Failure (Nat × SourcingRequest × Store) := do
  if entry.parentItemIndex.isNone then pure (requestId, request, s)
  else do
    let (resolved, s) ← resolveSupplierCandidate u entry.line.row.supplier s
    let supplier := if resolved.2.isNone then (request.supplier, request.supplierId) else resolved
    if supplier.2.isSome ∧ supplier.2 ≠ request.supplierId then
      let own : SourcingRequest :=
        {
          supplier := supplier.1
          supplierId := supplier.2
          contactEmail :=
            (cleanProcurementIdentity entry.line.row.contactEmail).or request.contactEmail
          notes := notes
        }
      pure (s.requests.nextKey, own, { s with requests := s.requests.insert own })
    else do
      require (truthy entry.line.row.contactEmail = none
          ∨ u.procurementIdentitiesMatch entry.line.row.contactEmail request.contactEmail = true)
        (.http 422 "All lines in a sourcing request must use the same supplier contact")
      pure (requestId, request, s)

/-- One line's turn in the second loop of `create_sourcing_request_record`, after the lines made so
far.
-/
def createRequestLine (env : Env) (notes : Option String) (requestId : Nat)
    (request : SourcingRequest) (entry : SourcingRequestLine) (made : List Nat × Store)
    : Except Failure (List Nat × Store) := do
  require (entry.parentItemIndex.all (fun i : Int => decide (0 ≤ i ∧ i < (made.1.length : Int)))
      = true)
    (.http 422 s!"Item {made.1.length + 1} has an invalid maintenance parent")
  let (targetId, target, s) ← lineRequest env.unicode notes requestId request entry made.2
  let item := buildRequestItem env entry.line targetId target.supplier target.contactEmail
  let parent := entry.parentItemIndex.bind (fun i => made.1[i.toNat]?)
  let (itemId, s) ← addRequestItem env.unicode
    { item with parentSourcingItemId := parent.or item.parentSourcingItemId } s
  pure (made.1 ++ [itemId], s)

/-- `create_sourcing_request_record`. -/
def createSourcingRequest (env : Env) (p : SourcingRequestCreate) (s : Store)
    : Except Failure Store := do
  require (p.items ≠ []) (.http 422 "At least one sourcing item is required")
  require (p.items.all (fun entry => entry.line.successorOfItemIds.isEmpty) = true)
    (.http 422 "Create the sourcing request first, then add or link successor terms")
  let (supplier, s) ← resolveSupplierCandidate env.unicode p.supplier s
  let draft ← each (adoptIdentity env.unicode) p.items
    ⟨supplier, cleanProcurementIdentity p.contactEmail, s⟩
  let request : SourcingRequest :=
    {
      supplier := draft.supplier.1
      supplierId := draft.supplier.2
      contactEmail := draft.contactEmail
      notes := p.notes
    }
  let requestId := draft.store.requests.nextKey
  let s := { draft.store with requests := draft.store.requests.insert request }
  let (_, s) ← each (createRequestLine env p.notes requestId request) p.items ([], s)
  pure s

/-- `backfill_missing_sourcing_requests`. -/
def backfillMissingSourcingRequests (u : Unicode) (s : Store) : Except Failure Store :=
  each (fun itemId s => do
    let item ← found (s.items.get? itemId) (.http 404 "Sourcing item not found")
    let (_, s) ← ensureSourcingRequestForItem u itemId item s
    pure s)
    (s.items.select (fun _ item => item.sourcingRequestId.isNone)) s

-- Planned next terms

/-- `_NEVER_RENEWED_TYPES`. -/
def LicenseType.isNeverRenewed : LicenseType → Bool
  | .freeware | .perpetual => true
  | _ => false

/-- Whether a line is of a type that renews. -/
def SourcingItem.renews (item : SourcingItem) : Bool :=
  item.licenseType.all (fun type => isRenewableLicense type item.isRenewable && !type.isNeverRenewed)

/-- The walk of `_assert_acyclic` from one line: it visits no line twice before it ends. -/
def walkEnds (next : Nat → Option Nat) : Nat → List Nat → Option Nat → Bool
  | _, _, none => true
  | 0, _, some _ => false
  | fuel + 1, seen, some current =>
      !seen.contains current && walkEnds next fuel (current :: seen) (next current)

/-- `_assert_acyclic`. A walk that visits no line twice ends within as many steps as there are
lines.
-/
def assertAcyclic (items : List (Nat × SourcingItem)) (changes : Nat → Option (Option Nat))
    : Except Failure PUnit :=
  let next (id : Nat) : Option Nat :=
    (items.find? (fun entry => entry.1 == id)).bind (fun entry =>
      (changes entry.1).getD entry.2.successorSourcingItemId)
  require (items.all (fun entry => walkEnds next (items.length + 2) [] (some entry.1)) = true)
    (.http 422 "Successor links cannot form a cycle")

/-- The lines of the purchase that selected lines belong to, while it remains editable. -/
def purchaseLines (s : Store) (requestId : Nat) (orderId : Option Nat)
    (selected : List (Nat × SourcingItem))
    : Except Failure (List (Nat × SourcingItem)) :=
  match orderId with
  | none => do
      require (selected.all (fun entry => entry.2.status == .sourcing) = true)
        (.http 409 "Linked sourcing lines must still be open")
      pure (s.requestItems requestId)
  | some orderId => do
      require ((s.orders.get? orderId).any PendingOrder.isOpen = true)
        (.http 409 "The pending order is no longer editable")
      pure (s.orderItems orderId)

/-- The rules between a next term and the terms before it. -/
def checkTerms (u : Unicode) (successor : SourcingItem) (predecessors : List (Nat × SourcingItem))
    : Except Failure PUnit := do
  let publisher := u.normalizeEntitlementIdentity successor.publisherName
  require (publisher ≠ "") (.http 422 "Successor publisher is required")
  require (successor.renews = true) (.http 422 "This successor type cannot be renewed")
  predecessors.forM (fun entry => do
    require (u.normalizeEntitlementIdentity entry.2.publisherName = publisher)
      (.http 422 "Linked terms must have the same publisher")
    require (entry.2.renews = true) (.http 422 "This predecessor type cannot be renewed")
    require ((entry.2.licenseType = some .maintenance) ↔ (successor.licenseType = some .maintenance))
      (.http 422 "Maintenance terms can only follow maintenance terms"))

/-- A predecessor starts before its next term, where both starts are known. -/
def checkStarts (successor : SourcingItem) (predecessors : List (Nat × SourcingItem))
    : Except Failure PUnit :=
  predecessors.forM (fun entry =>
    require (¬ (entry.2.startDate.any (fun start =>
        successor.startDate.any (fun next => next ≤ start))) = true)
      (.http 422 "A predecessor must start before its next term"))

/-- The checks of `set_planned_successors` on a line that is to follow others. -/
def checkSuccessor (successorId : Nat) (successor : SourcingItem)
    (predecessors : List (Nat × SourcingItem))
    : Except Failure PUnit := do
  require (predecessors.all (fun entry =>
      entry.2.successorSourcingItemId.all (· == successorId)) = true)
    (.http 409 "A predecessor already has a planned next term")
  require (successor.renewalForLicenseId = none ∧ successor.cotermPredecessorIds.getD [] = [])
    (.http 422 "The successor line already follows existing licenses")

/-- `set_planned_successors`. -/
def setPlannedSuccessors (u : Unicode) (predecessorIds : List Nat) (successorId : Option Nat)
    (s : Store)
    : Except Failure Store := do
  require (predecessorIds ≠ [] ∧ predecessorIds.Nodup)
    (.http 422 "Choose one or more distinct predecessor lines")
  require ((predecessorIds ++ successorId.toList).all (fun id => (s.items.get? id).isSome) = true)
    (.http 404 "A selected sourcing line was not found")
  require (successorId.all (fun id => !predecessorIds.contains id) = true)
    (.http 422 "A line cannot succeed itself")
  let load (ids : List Nat) : List (Nat × SourcingItem) :=
    ids.filterMap (fun id => (s.items.get? id).map (fun item => (id, item)))
  let predecessors := load predecessorIds
  let selected := load (predecessorIds ++ successorId.toList)
  let successor := successorId.bind (fun id => (s.items.get? id).map (fun item => (id, item)))
  successor.elim (.ok ⟨⟩) (fun entry => checkSuccessor entry.1 entry.2 predecessors)
  let first ← found selected.head? (.http 404 "A selected sourcing line was not found")
  let requestId ← found first.2.sourcingRequestId
    (.http 422 "Linked lines must belong to one sourcing request")
  require (selected.all (fun entry => entry.2.sourcingRequestId == some requestId) = true)
    (.http 422 "Linked lines must belong to one sourcing request")
  require (selected.all (fun entry => entry.2.pendingOrderId == first.2.pendingOrderId) = true)
    (.http 422 "Linked lines must belong to one pending order")
  let lines ← purchaseLines s requestId first.2.pendingOrderId selected
  successor.elim (.ok ⟨⟩) (fun entry => checkTerms u entry.2 predecessors)
  assertAcyclic lines (fun id =>
    if predecessorIds.contains id then some successorId else none)
  successor.elim (.ok ⟨⟩) (fun entry => checkStarts entry.2 predecessors)
  pure { s with
    items := s.items.mapRows (fun id item =>
      if predecessorIds.contains id then { item with successorSourcingItemId := successorId }
      else item) }

/-- `replace_planned_predecessors`. -/
def replacePlannedPredecessors (u : Unicode) (predecessorIds : List Nat) (successorId : Nat)
    (s : Store)
    : Except Failure Store := do
  require ((s.items.get? successorId).isSome = true) (.http 404 "Successor line was not found")
  require predecessorIds.Nodup (.http 422 "Choose distinct predecessor lines")
  let removed := s.items.select (fun id item =>
    item.successorSourcingItemId == some successorId && !predecessorIds.contains id)
  let s ← if removed = [] then .ok s else setPlannedSuccessors u removed none s
  if predecessorIds = [] then pure s
  else setPlannedSuccessors u predecessorIds (some successorId) s

/-- `add_sourcing_request_item_record`. -/
def addSourcingRequestItem (env : Env) (requestId : Nat) (p : SourcingItemCreate) (s : Store)
    : Except Failure Store := do
  let request ← found (s.requests.get? requestId) (.http 404 "Sourcing request not found")
  assertSourcingRequestEditable request
  let s ← resolveRequestSupplier env.unicode requestId s
  let (proposed, s) ← resolveSupplierCandidate env.unicode p.row.supplier s
  let contact := cleanProcurementIdentity p.row.contactEmail
  let request ← found (s.requests.get? requestId) (.http 404 "Sourcing request not found")
  require (request.supplierId = none ∨ proposed.2 = none ∨ request.supplierId = proposed.2)
    (.http 409 "The line supplier conflicts with the sourcing request supplier")
  require (request.contactEmail = none ∨ contact = none
      ∨ env.unicode.procurementIdentitiesMatch request.contactEmail contact = true)
    (.http 409 "The line contact conflicts with the sourcing request contact")
  let s :=
    if request.supplier = none ∧ proposed.1 ≠ none then
      synchronizeRequestIdentity env.unicode requestId (some proposed) (contact.map some) s
    else if request.contactEmail = none ∧ contact ≠ none then
      synchronizeRequestIdentity env.unicode requestId none (contact.map some) s
    else s
  let request ← found (s.requests.get? requestId) (.http 404 "Sourcing request not found")
  let (itemId, s) ← addRequestItem env.unicode
    (buildRequestItem env p requestId request.supplier request.contactEmail) s
  if p.successorOfItemIds = [] then pure s
  else do
    require (p.successorOfItemIds.all (fun id =>
        (s.items.get? id).all (·.successorSourcingItemId.isNone)) = true)
      (.http 409 "A predecessor already has a planned next term")
    setPlannedSuccessors env.unicode p.successorOfItemIds (some itemId) s

end LicenseTrack
