import LicenseTrack.Services.RenewalConversion

/-! Converting a pending order into licences: with one form for all its lines, or with a form
for each line. A conversion first loads and checks, then locks the order and writes.
-/

namespace LicenseTrack

open Library

/-- `TYPE_DESCRIPTION_REQUIRED_DETAIL`. -/
def typeDescriptionRequiredDetail : String := "Add a type description for an Other license"

/-- The licence that an order line's parent line became, if it is still live. -/
def liveLicenseOfLine (s : Store) (itemId : Nat) : Option Nat :=
  (s.licenses.select (fun _ l => l.sourceSourcingItemId == some itemId && !l.isRetired)).head?

/-- The parent that `create_maintenance_purchase` finds. -/
def resolveMaintenancePurchaseParent (s : Store) (itemId : Nat) (created : List (Nat × Nat))
    (parentId parentItemId : Option Nat)
    : Except Failure Nat := do
  match parentId, parentItemId with
  | some _, some _ =>
      throw (.http 400
        s!"Item {itemId}: choose either parentLicenseId or parentSourcingItemId, not both")
  | some parentId, none => do
      let _ ← asItemError s!"Item {itemId}: " (validateParentLicense s parentId)
      pure parentId
  | none, some parentItemId => do
      let known := (created.find? (fun entry => entry.1 == parentItemId)).map Prod.snd
      let parentId ← found (known.or (liveLicenseOfLine s parentItemId))
        (.http 400 (s!"Item {itemId}: parentSourcingItemId {parentItemId} "
          ++ "does not refer to an active perpetual/OEM/freeware license"))
      let _ ← asItemError s!"Item {itemId}: " (validateParentLicense s parentId)
      pure parentId
  | none, none =>
      throw (.http 400 (s!"Item {itemId}: maintenance licenses require parentLicenseId "
        ++ "or parentSourcingItemId"))

/-- `create_purchase_license`, for data that carry a shared total or inherit one. The message
of each check starts with the line.
-/
def createPurchaseLicense (env : Env) (itemId : Nat) (created : List (Nat × Nat))
    (inherits : Bool) (data : ConversionData) (s : Store)
    : Except Failure (Nat × Store) := do
  let (row, s) ← resolveRowReferences env.unicode data.toRow s
  let terms := normaliseLicenseTypeFields row.toLicenseTerms
  require (typeDescriptionMissing terms.licenseType terms.typeDescription = false)
    (.http 422 (s!"Item {itemId}: " ++ typeDescriptionRequiredDetail))
  let terms :=
    { terms with
      quantityPerUnit := if terms.quantityPerUnit = "" then "1" else terms.quantityPerUnit }
  asItemError s!"Item {itemId}: " (validateTermDateOrder terms.startDate terms.endDate)
  let row := row.withTerms terms
  let row := if inherits then inheritRowOverride env.unicode s row else row
  if terms.licenseType = .maintenance then do
    let parentId ← resolveMaintenancePurchaseParent s itemId created data.parentLicenseId
      data.parentSourcingItemId
    createMaintenanceForParent env parentId row s
  else do
    let coverage := data.maintenanceCoverage.getD (defaultMaintenanceCoverage terms.licenseType)
    asItemError s!"Item {itemId}: " (assertCoverageAllowedForType terms.licenseType coverage)
    let support := applyBundledIncludedSupportDefaults env.unicode terms
      { row.toMaintenanceMirror with maintenanceCoverage := coverage }
    require (data.parentLicenseId = none)
      (.http 400 s!"Item {itemId}: parentLicenseId is only valid for maintenance licenses")
    require (data.parentSourcingItemId = none)
      (.http 400 s!"Item {itemId}: parentSourcingItemId is only valid for maintenance licenses")
    let (id, s) ← insertLicense env.unicode (row.withMirror support) s
    pure (id, assignLicenseRef env id s)

/-- `_create_prepared_conversion_license`. -/
def createPreparedConversionLicense (env : Env) (itemId : Nat) (item : Option SourcingItem)
    (created : List (Nat × Nat)) (data : ConversionData) (missingLicenseDetail detailPrefix : String)
    (s : Store)
    : Except Failure (Nat × Store) :=
  match item.bind (fun item => item.renewalForLicenseId.map (fun oldId => (item, oldId))) with
  | some (item, oldId) =>
      createRenewalSuccessorFromSourcingItem env item oldId data missingLicenseDetail
        detailPrefix s
  | none => createPurchaseLicense env itemId created false data s

-- Loading and locking

/-- A pending order with its lines, as a request loaded them. -/
structure LoadedOrder where
  id : Nat
  order : PendingOrder
  items : List (Nat × SourcingItem)

/-- `is_pending_order_open`. -/
def PendingOrder.isOpen (order : PendingOrder) : Bool :=
  order.status == .pending || order.status == .invoiceReceived

/-- The lines of an order, by identifier. -/
def Store.orderItems (s : Store) (orderId : Nat) : List (Nat × SourcingItem) :=
  (s.items.filter (fun _ item => item.pendingOrderId == some orderId)).entries

/-- `get_pending_order_or_404`. -/
def getPendingOrder (s : Store) (orderId : Nat) : Except Failure LoadedOrder := do
  let order ← found (s.orders.get? orderId) (.http 404 "Pending order not found")
  pure ⟨orderId, order, s.orderItems orderId⟩

/-- `_load_convertible_order`. -/
def loadConvertibleOrder (s : Store) (orderId : Nat) : Except Failure LoadedOrder := do
  let loaded ← getPendingOrder s orderId
  require (loaded.order.status ≠ .cancelled) (.http 409 "Pending order has been cancelled")
  require (loaded.order.isOpen = true) (.http 409 "Pending order has already been converted")
  pure loaded

/-- `lock_open_pending_order`: the conditional write takes the database's write lock. -/
def lockOpenPendingOrder (loaded : LoadedOrder) (closedDetail : String) (s : Store)
    : Except Failure Store := do
  require ((s.orders.get? loaded.id).any PendingOrder.isOpen = true) (.http 409 closedDetail)
  pure { s with
    orders := s.orders.modify loaded.id (fun order => { order with notes := loaded.order.notes }) }

/-- The detail of a conversion that lost the order. -/
def alreadyConverted : String := "Pending order has already been converted"

/-- `_require_order_po_number`. -/
def requireOrderPoNumber (order : PendingOrder) : Except Failure PUnit :=
  require (isBlank order.poNumber = false)
    (.http 422 "Add a PO number before creating active licenses")

/-- `pending_order_line_currencies`. -/
def pendingOrderLineCurrencies (u : Unicode) (s : Store) (orderId : Nat) : List String :=
  (((s.items.filter (fun _ item => item.pendingOrderId == some orderId
      && item.status != .cancelled)).entries.map
    (fun entry => u.normalizeCurrency entry.2.currency)).filter (· ≠ "")).dedup

/-- The client error of a line whose currency the order's manual total does not allow. -/
def pendingOrderCurrencyDetail : String :=
  "A manual PO total needs every line of the pending order in one currency; "
    ++ "clear the PO total before adding a line in another currency"

/-- `assert_line_currency_fits_pending_order`. -/
def assertLineCurrencyFitsPendingOrder (u : Unicode) (s : Store) (orderId : Nat)
    (currency : String)
    : Except Failure PUnit :=
  let override := (s.orders.get? orderId).bind (fun order => truthy order.poTotalOverride)
  let currencies := pendingOrderLineCurrencies u s orderId
  require (override = none ∨ currencies = [] ∨ u.normalizeCurrency currency ∈ currencies)
    (.http 422 pendingOrderCurrencyDetail)

/-- Writes a line that a request loaded: a row that is gone fails the flush. -/
def writeItem (itemId : Nat) (f : SourcingItem → SourcingItem) (s : Store)
    : Except Failure Store := do
  require ((s.items.get? itemId).isSome = true)
    (.database "UPDATE statement on table 'sourcing_items' expected to update 1 row(s)")
  pure (s.modifyItem itemId f)

/-- `mark_item_converted`. A line that was loaded as converted is not written again. -/
def markItemConverted (entry : Nat × SourcingItem) (s : Store) : Except Failure Store :=
  if entry.2.status = .converted then .ok s
  else writeItem entry.1 (fun item => { item with status := .converted }) s

/-- `refresh_order_status`, for the loaded lines with the status they have afterwards. A
status that was loaded is not written again.
-/
def refreshOrderStatus (loaded : LoadedOrder) (statuses : List SourcingStatus) (s : Store)
    : Store :=
  let status := if statuses.all (· == .converted) then .converted else .invoiceReceived
  if status = loaded.order.status then s
  else { s with
    orders := s.orders.modify loaded.id (fun order => { order with status := status }) }

-- One form for all lines

/-- The fields that each line of an order carries itself. -/
def perLineFields : List ConversionField :=
  [.publisherName, .softwareDescription, .licenseType, .quantity, .quantityPerUnit, .unitPrice,
    .totalPoPrice, .currency, .startDate, .endDate, .supplier, .contactEmail, .notes,
    .maintenanceCoverage, .maintenanceStartDate, .maintenanceEndDate, .maintenancePricingBasis,
    .maintenanceQuantity, .maintenanceUnitPrice, .maintenanceCost]

/-- What a single-form conversion knows when it takes the lock. -/
structure PreparedConversion where
  loaded : LoadedOrder
  form : ConversionForm
  submitted : List ConversionField
  inheritedOverride : Option String

/-- `convert_pending_order_to_licenses`, up to its lock. -/
def prepareConversion (u : Unicode) (orderId : Nat) (form : ConversionForm)
    (submitted : List ConversionField) (s : Store)
    : Except Failure PreparedConversion := do
  let loaded ← loadConvertibleOrder s orderId
  requireOrderPoNumber loaded.order
  let effectivePo :=
    if .poNumber ∈ submitted ∧ form.poNumber ≠ "" then form.poNumber
    else strip loaded.order.poNumber
  let inherited := getPoTotalOverride u s none (some orderId) none effectivePo form.currency
  if form.currency ≠ "" then assertLineCurrencyFitsPendingOrder u s orderId form.currency
  pure ⟨loaded, form, submitted, inherited⟩

/-- The form data that all lines share. -/
def PreparedConversion.sharedData (u : Unicode) (p : PreparedConversion)
    : Except Failure ConversionData := do
  let form ← enforceOrderSupplier u p.form p.submitted p.loaded.order.supplier ""
  let form :=
    { form with
      poNumber :=
        if .poNumber ∈ p.submitted ∧ form.poNumber ≠ "" then form.poNumber
        else strip p.loaded.order.poNumber
      procurementReference :=
        if .procurementReference ∈ p.submitted ∧ form.procurementReference ≠ "" then
          form.procurementReference
        else p.loaded.order.procurementReference }
  pure
    { toConversionForm := form
      poTotalOverride := (truthy p.loaded.order.poTotalOverride).or p.inheritedOverride
      pendingOrderId := some p.loaded.id }

/-- The submitted fields that reach the lines. -/
def PreparedConversion.lineFields (p : PreparedConversion) : List ConversionField :=
  if 1 < p.loaded.items.length then p.submitted.filter (· ∉ perLineFields) else p.submitted

/-- The licence that a line renews, as its conversion reads it. -/
def renewedLicense (s : Store) (item : SourcingItem) (detail : Nat → String)
    : Except Failure (Option License) :=
  match item.renewalForLicenseId with
  | none => .ok none
  | some oldId => do
      let old ← found (s.license? oldId) (.http 404 (detail oldId))
      pure (some old)

/-- One line of a single-form conversion. -/
def convertLine (env : Env) (p : PreparedConversion) (shared : ConversionData)
    (entry : Nat × SourcingItem) (s : Store)
    : Except Failure Store := do
  let missing := fun (oldId : Nat) => s!"License {oldId} not found for renewal"
  let old ← renewedLicense s entry.2 missing
  let data := buildPendingOrderItemLicenseData env.unicode shared p.lineFields entry.2 old
    p.loaded.order
  let data := { data with sourceSourcingItemId := some entry.1 }
  if old.isSome then
    requireChoicesForSplitCoterm env.unicode s entry.2 data.toConversionForm ""
  -- The single form has no field for a parent line, but a line can carry one.
  let (_, s) ← createPreparedConversionLicense env entry.1 (some entry.2) [] data
    (missing (entry.2.renewalForLicenseId.getD 0)) "" s
  pure s

/-- The licences of a single-form conversion: of each line or, without lines, of the form. -/
def convertLoadedLines (env : Env) (p : PreparedConversion) (shared : ConversionData) (s : Store)
    : Except Failure Store :=
  match p.loaded.items with
  | [] => do
      let (_, s) ← createPreparedConversionLicense env p.loaded.id none [] shared "" "" s
      pure s
  | items => each (convertLine env p shared) items s

/-- `convert_pending_order_to_licenses`, from its lock to its commit. -/
def commitConversion (env : Env) (p : PreparedConversion) (s : Store) : Except Failure Store := do
  let s ← lockOpenPendingOrder p.loaded alreadyConverted s
  let shared ← p.sharedData env.unicode
  let s ← convertLoadedLines env p shared s
  let s ← each markItemConverted p.loaded.items s
  let s ← applyPlannedSuccessorLinks env.unicode p.loaded.items s
  flush (refreshOrderStatus p.loaded (p.loaded.items.map (fun _ => .converted)) s)

/-- `convert_pending_order_to_licenses`. -/
def convertPendingOrderToLicenses (env : Env) (orderId : Nat) (form : ConversionForm)
    (submitted : List ConversionField) (s : Store)
    : Except Failure Store := do
  let p ← prepareConversion env.unicode orderId form submitted s
  commitConversion env p s

-- A form for each line

/-- `BatchConvertItem`. -/
structure BatchConvertItem where
  sourcingItemId : Nat
  form : ConversionForm
  submitted : List ConversionField

/-- The lines of an order that still have to be converted. -/
def convertibleItems (s : Store) (items : List (Nat × SourcingItem)) : List Nat :=
  (items.filter (fun entry => entry.2.status != .cancelled
    && !s.licenses.entries.any (fun l => l.2.sourceSourcingItemId == some entry.1))).map Prod.fst

/-- `_validate_batch_coverage`. -/
def validateBatchCoverage (s : Store) (loaded : LoadedOrder) (payload : List BatchConvertItem)
    : Except Failure PUnit := do
  let submittedIds := payload.map (·.sourcingItemId)
  let duplicates := (submittedIds.filter (fun id => 1 < submittedIds.count id)).dedup.mergeSort
  require submittedIds.Nodup (.http 400 s!"Duplicate sourcing item IDs: {duplicates}")
  let unknown := (submittedIds.filter (fun id => !loaded.items.any (·.1 == id))).mergeSort
  require (submittedIds.all (fun id => loaded.items.any (·.1 == id)) = true)
    (.http 400 s!"Items not found in pending order {loaded.id}: {unknown}")
  let convertible := convertibleItems s loaded.items
  require (¬ (payload.isEmpty = true ∧ convertible ≠ []))
    (.http 400 "Every convertible pending-order item must be included")
  let missing := convertible.filter (fun id => !submittedIds.contains id)
  require (convertible.all (submittedIds.contains ·) = true)
    (.http 400 s!"Missing convertible sourcing item IDs: {missing}")
  let ineligible := (submittedIds.filter (fun id => !convertible.contains id)).mergeSort
  require (submittedIds.all (convertible.contains ·) = true)
    (.http 409 s!"Sourcing items are already converted or ineligible: {ineligible}")

/-- What a batch conversion knows when it takes the lock. -/
structure PreparedBatch where
  loaded : LoadedOrder
  payload : List BatchConvertItem

/-- `batch_convert_pending_order_to_licenses`, up to its lock. -/
def prepareBatch (u : Unicode) (orderId : Nat) (payload : List BatchConvertItem) (s : Store)
    : Except Failure PreparedBatch := do
  let loaded ← loadConvertibleOrder s orderId
  validateBatchCoverage s loaded payload
  requireOrderPoNumber loaded.order
  payload.forM (fun line =>
    if line.form.currency = "" then .ok ⟨⟩
    else assertLineCurrencyFitsPendingOrder u s orderId line.form.currency)
  pure ⟨loaded, payload⟩

/-- What the lines of a batch leave for those after them. -/
structure BatchProgress where
  store : Store
  /-- The licences made of lines that maintenance lines can name as their parent. -/
  createdParents : List (Nat × Nat) := []
  /-- The maintenance lines, which are converted last. -/
  postponed : List (Nat × ConversionData) := []
  /-- The parents that the converted maintenance lines asked for. -/
  resolved : List (Nat × Option Nat × Option Nat) := []

/-- The line of an order under an identifier. -/
def LoadedOrder.item? (loaded : LoadedOrder) (itemId : Nat) : Option SourcingItem :=
  (loaded.items.find? (fun entry => entry.1 == itemId)).map Prod.snd

/-- The data of one line of a batch, before its licence is made. -/
def prepareBatchLine (u : Unicode) (p : PreparedBatch) (line : BatchConvertItem)
    (item : SourcingItem) (s : Store)
    : Except Failure ConversionData := do
  let detailPrefix := s!"Item {line.sourcingItemId}: "
  let form ← enforceOrderSupplier u line.form line.submitted p.loaded.order.supplier detailPrefix
  let old ← renewedLicense s item (fun oldId =>
    s!"Item {line.sourcingItemId}: license {oldId} not found for renewal")
  let data := buildPendingOrderItemLicenseData u { toConversionForm := form } line.submitted item
    old p.loaded.order
  let data := { data with sourceSourcingItemId := some line.sourcingItemId }
  requireChoicesForSplitCoterm u s item data.toConversionForm detailPrefix
  pure
    { data with
      pendingOrderId := some p.loaded.id
      poTotalOverride :=
        (truthy p.loaded.order.poTotalOverride).or
          (getPoTotalOverride u s none (some p.loaded.id) none (strip p.loaded.order.poNumber)
            data.currency) }

/-- One line of a batch; a maintenance line that renews nothing is postponed. -/
def convertBatchLine (env : Env) (p : PreparedBatch) (line : BatchConvertItem)
    (progress : BatchProgress)
    : Except Failure BatchProgress := do
  let item ← found (p.loaded.item? line.sourcingItemId) (.database "KeyError")
  let data ← prepareBatchLine env.unicode p line item progress.store
  if item.renewalForLicenseId = none ∧ data.licenseType = .maintenance then
    pure { progress with
      postponed := progress.postponed ++ [(line.sourcingItemId, data)] }
  else do
    let data :=
      if item.renewalForLicenseId ≠ none then { data with parentSourcingItemId := none } else data
    let (id, s) ← createPreparedConversionLicense env line.sourcingItemId (some item)
      progress.createdParents data
      s!"Item {line.sourcingItemId}: license {item.renewalForLicenseId.getD 0} not found for renewal"
      s!"Item {line.sourcingItemId}: " progress.store
    let s ← markItemConverted (line.sourcingItemId, item) s
    pure { progress with
      store := s
      createdParents :=
        if item.renewalForLicenseId = none ∧ data.licenseType.isMaintenanceParent = true then
          (line.sourcingItemId, id) :: progress.createdParents
        else progress.createdParents }

/-- The line that a plan puts before a line, the last one where several do. -/
def predecessorLine (items : List (Nat × SourcingItem)) (itemId : Nat) : Option Nat :=
  (incomingOf items itemId).getLast?

/-- The depth of a line in its planned chain. The walk visits no line twice. -/
def chainDepth (items : List (Nat × SourcingItem)) : Nat → List Nat → Nat → Nat
  | 0, _, _ => 0
  | fuel + 1, seen, itemId =>
      match predecessorLine items itemId with
      | some previous =>
          if itemId ∈ seen then 0 else chainDepth items fuel (itemId :: seen) previous + 1
      | none => 0

/-- `_maintenance_chain_order`. -/
def maintenanceChainOrder (items : List (Nat × SourcingItem))
    (postponed : List (Nat × ConversionData))
    : List (Nat × ConversionData) :=
  postponed.insertionSort (fun a b =>
    chainDepth items (items.length + 1) [] a.1 ≤ chainDepth items (items.length + 1) [] b.1)

/-- `_inherit_chain_parent`. -/
def inheritChainParent (items : List (Nat × SourcingItem))
    (resolved : List (Nat × Option Nat × Option Nat)) (itemId : Nat) (data : ConversionData)
    : ConversionData :=
  if data.parentLicenseId ≠ none ∨ data.parentSourcingItemId ≠ none then data
  else match (incomingOf items itemId).head?.bind (fun source =>
      resolved.find? (fun entry => entry.1 == source)) with
    | some (_, some parentId, _) => { data with parentLicenseId := some parentId }
    | some (_, none, some parentItemId) => { data with parentSourcingItemId := some parentItemId }
    | _ => data

/-- One postponed line of a batch. -/
def convertPostponedLine (env : Env) (p : PreparedBatch) (line : Nat × ConversionData)
    (progress : BatchProgress)
    : Except Failure BatchProgress := do
  let item ← found (p.loaded.item? line.1) (.database "KeyError")
  let data := inheritChainParent p.loaded.items progress.resolved line.1 line.2
  let (_, s) ← createPreparedConversionLicense env line.1 (some item) progress.createdParents data
    "" "" progress.store
  let s ← markItemConverted (line.1, item) s
  pure { progress with
    store := s
    resolved := (line.1, data.parentLicenseId, data.parentSourcingItemId) :: progress.resolved }

/-- The status that a loaded line has after a batch conversion. -/
def PreparedBatch.statusAfter (p : PreparedBatch) (entry : Nat × SourcingItem) : SourcingStatus :=
  if p.payload.any (fun line => line.sourcingItemId == entry.1) then .converted
  else entry.2.status

/-- `batch_convert_pending_order_to_licenses`, from its lock to its commit. -/
def commitBatch (env : Env) (p : PreparedBatch) (s : Store) : Except Failure Store := do
  let s ← lockOpenPendingOrder p.loaded alreadyConverted s
  p.payload.forM (fun line => do
    let _ ← enforceOrderSupplier env.unicode line.form line.submitted p.loaded.order.supplier
      s!"Item {line.sourcingItemId}: ")
  let progress ← each (convertBatchLine env p) p.payload { store := s }
  let progress ← each (convertPostponedLine env p)
    (maintenanceChainOrder p.loaded.items progress.postponed) progress
  let s ← applyPlannedSuccessorLinks env.unicode p.loaded.items progress.store
  flush (refreshOrderStatus p.loaded (p.loaded.items.map p.statusAfter) s)

/-- `batch_convert_pending_order_to_licenses`. -/
def batchConvertPendingOrderToLicenses (env : Env) (orderId : Nat)
    (payload : List BatchConvertItem) (s : Store)
    : Except Failure Store := do
  let p ← prepareBatch env.unicode orderId payload s
  commitBatch env p s

end LicenseTrack
