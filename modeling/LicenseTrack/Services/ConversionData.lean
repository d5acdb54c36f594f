import LicenseTrack.Services.LicenseCreate
import LicenseTrack.Services.ExistingSuccessor

/-! The data of a licence that a pending order becomes: the submitted form, completed from the
order line and from the licence that the line renews.
-/

namespace LicenseTrack

open Library

/-- The fields of a conversion form that an order line can complete. -/
inductive ConversionField
  | publisherName
  | softwareDescription
  | licenseType
  | licenseMetric
  | portalUrl
  | isRenewable
  | typeDescription
  | quantity
  | quantityPerUnit
  | skuCode
  | unitPrice
  | totalPoPrice
  | currency
  | startDate
  | endDate
  | noticeDate
  | purchaseDate
  | supplier
  | contactEmail
  | contractNumber
  | poNumber
  | procurementReference
  | invoiceNumber
  | externalRef
  | costCentre
  | budgetOwnerEmail
  | secondaryContacts
  | parentLicenseId
  | parentSourcingItemId
  | maintenanceCoverage
  | maintenanceStartDate
  | maintenanceEndDate
  | maintenancePricingBasis
  | maintenanceQuantity
  | maintenanceUnitPrice
  | maintenanceCost
  | notes
deriving DecidableEq

/-- The values of a `PendingOrderConvertRequest` past its schema. -/
structure ConversionForm where
  publisherName : String
  softwareDescription : String
  licenseType : LicenseType := .subscription
  licenseMetric : LicenseMetric := .perUser
  portalUrl : Option String := none
  isRenewable : Option Bool := none
  typeDescription : Option String := none
  parentLicenseId : Option Nat := none
  parentSourcingItemId : Option Nat := none
  maintenanceCoverage : Option MaintenanceCoverage := none
  maintenanceStartDate : Option Date := none
  maintenanceEndDate : Option Date := none
  maintenancePricingBasis : Option MaintenancePricingBasis := none
  maintenanceQuantity : Option String := none
  maintenanceUnitPrice : Option String := none
  maintenanceCost : Option String := none
  quantity : String := ""
  quantityPerUnit : String := "1"
  skuCode : String := ""
  unitPrice : String := ""
  totalPoPrice : String := ""
  currency : String := "EUR"
  startDate : Option Date := none
  endDate : Option Date := none
  noticeDate : Option Date := none
  purchaseDate : Option Date := none
  contractNumber : String := ""
  poNumber : String := ""
  procurementReference : String := ""
  invoiceNumber : String := ""
  externalRef : Option String := none
  contactEmail : String := ""
  supplier : String := ""
  costCentre : String := ""
  budgetOwnerEmail : String := ""
  secondaryContacts : List String := []
  notes : Option String := none
deriving DecidableEq

/-- The data of a licence to be made of an order line. -/
structure ConversionData extends ConversionForm where
  pendingOrderId : Option Nat := none
  poTotalOverride : Option String := none
  sourceSourcingItemId : Option Nat := none
  requestDate : Option Timestamp := none
  isLegacyUnlinkedMaintenance : Bool := false
deriving DecidableEq

/-- `datetime.combine(date, time.min)`. -/
def startOfDay (date : Date) : Timestamp := 86400 * date

/-- `License(**item_data)`, with the invoice numbers derived where the data have none. -/
def ConversionData.toRow (d : ConversionData) : License :=
  defaultInvoiceNumbers
    {
      publisherName := d.publisherName
      softwareDescription := d.softwareDescription
      licenseMetric := d.licenseMetric
      portalUrl := d.portalUrl
      skuCode := d.skuCode
      noticeDate := d.noticeDate
      contractNumber := d.contractNumber
      procurementReference := d.procurementReference
      invoiceNumber := d.invoiceNumber
      requestDate := d.requestDate
      purchaseDate := d.purchaseDate.map startOfDay
      contactEmail := d.contactEmail
      supplier := d.supplier
      costCentre := d.costCentre
      budgetOwnerEmail := d.budgetOwnerEmail
      secondaryContacts := d.secondaryContacts
      notes := d.notes
      externalRef := d.externalRef
      licenseType := d.licenseType
      isRenewable := d.isRenewable
      typeDescription := d.typeDescription
      quantity := d.quantity
      quantityPerUnit := d.quantityPerUnit
      unitPrice := d.unitPrice
      totalPoPrice := d.totalPoPrice
      startDate := d.startDate
      endDate := d.endDate
      poNumber := d.poNumber
      currency := d.currency
      poTotalOverride := d.poTotalOverride
      pendingOrderId := d.pendingOrderId
      sourceSourcingItemId := d.sourceSourcingItemId
      maintenanceCoverage := d.maintenanceCoverage.getD .unknown
      maintenanceStartDate := d.maintenanceStartDate
      maintenanceEndDate := d.maintenanceEndDate
      maintenancePricingBasis := d.maintenancePricingBasis
      maintenanceQuantity := d.maintenanceQuantity
      maintenanceUnitPrice := d.maintenanceUnitPrice
      maintenanceCost := d.maintenanceCost
      parentLicenseId := d.parentLicenseId
      isLegacyUnlinkedMaintenance := d.isLegacyUnlinkedMaintenance
    }

-- Fallbacks

/-- `apply_fallback`: a submitted field keeps its value, another one takes the first present
candidate.
-/
def fallback {α : Type} (submitted : Bool) (current : α) (candidates : List (Option α)) : α :=
  if submitted then current else (candidates.findSome? id).getD current

/-- `apply_fallback` for a column that may be empty. -/
def fallbackOption {α : Type} (submitted : Bool) (current : Option α) (candidates : List (Option α))
    : Option α :=
  if submitted then current else (candidates.findSome? id).or current

/-- A stored text as a candidate: the empty one does not count. -/
def textCandidate (text : String) : Option String := truthy (some text)

/-- The sections of the notes that a converted licence carries, each note once. -/
def conversionNotes : List (String × Option String) → List String → List String
  | [], _ => []
  | (label, note) :: rest, seen =>
      let text := strip (note.getD "")
      if text = "" ∨ text ∈ seen then conversionNotes rest seen
      else (label ++ ":\n" ++ text) :: conversionNotes rest (text :: seen)

/-- The values that the order line and the renewed licence complete. -/
def completeFromLine (form : ConversionForm) (submitted : List ConversionField)
    (item : SourcingItem) (old : Option License) (order : PendingOrder)
    : ConversionForm :=
  let given := fun field => submitted.contains field
  let ofOld := fun (column : License → String) => (old.map column).bind textCandidate
  -- Merged lines do not inherit the primary predecessor's allocation.
  let single := (item.cotermPredecessorIds.getD []).length < 2
  { form with
    publisherName := fallback (given .publisherName) form.publisherName
      [textCandidate item.publisherName, ofOld (·.publisherName)]
    softwareDescription := fallback (given .softwareDescription) form.softwareDescription
      [textCandidate item.softwareDescription, ofOld (·.softwareDescription)]
    licenseType := fallback (given .licenseType) form.licenseType
      [item.licenseType, old.map (·.licenseType)]
    licenseMetric := fallback (given .licenseMetric) form.licenseMetric
      [item.licenseMetric, old.map (·.licenseMetric)]
    portalUrl := fallbackOption (given .portalUrl) form.portalUrl
      [truthy item.portalUrl, old.bind (fun l => truthy l.portalUrl)]
    isRenewable := fallbackOption (given .isRenewable) form.isRenewable
      [item.isRenewable, old.bind (·.isRenewable)]
    typeDescription := fallbackOption (given .typeDescription) form.typeDescription
      [truthy item.typeDescription, old.bind (fun l => truthy l.typeDescription)]
    quantity := fallback (given .quantity) form.quantity
      [truthy item.quantity, ofOld (·.quantity)]
    quantityPerUnit := fallback (given .quantityPerUnit) form.quantityPerUnit
      [truthy item.quantityPerUnit, ofOld (·.quantityPerUnit)]
    skuCode := fallback (given .skuCode) form.skuCode [truthy item.skuCode, ofOld (·.skuCode)]
    unitPrice := fallback (given .unitPrice) form.unitPrice [truthy item.estimatedUnitPrice]
    currency := fallback (given .currency) form.currency
      [textCandidate item.currency, ofOld (·.currency)]
    startDate := fallbackOption (given .startDate) form.startDate [item.startDate]
    endDate := fallbackOption (given .endDate) form.endDate [item.endDate]
    supplier := fallback (given .supplier) form.supplier
      [truthy order.supplier, truthy item.supplier, ofOld (·.supplier)]
    contactEmail := fallback (given .contactEmail) form.contactEmail [truthy item.contactEmail]
    noticeDate := fallbackOption (given .noticeDate) form.noticeDate [item.noticeDate]
    purchaseDate := fallbackOption (given .purchaseDate) form.purchaseDate [item.purchaseDate]
    contractNumber := fallback (given .contractNumber) form.contractNumber
      [truthy item.contractNumber, ofOld (·.contractNumber)]
    poNumber := fallback (given .poNumber) form.poNumber [textCandidate (strip order.poNumber)]
    procurementReference := fallback (given .procurementReference) form.procurementReference
      [textCandidate order.procurementReference, ofOld (·.procurementReference)]
    invoiceNumber := fallback (given .invoiceNumber) form.invoiceNumber
      [truthy item.invoiceNumber]
    externalRef := fallbackOption (given .externalRef) form.externalRef [truthy item.externalRef]
    costCentre := fallback (given .costCentre) form.costCentre
      [truthy item.costCentre, if single then ofOld (·.costCentre) else none]
    budgetOwnerEmail := fallback (given .budgetOwnerEmail) form.budgetOwnerEmail
      [truthy item.budgetOwnerEmail, if single then ofOld (·.budgetOwnerEmail) else none]
    secondaryContacts := fallback (given .secondaryContacts) form.secondaryContacts
      [some item.secondaryContacts]
    parentSourcingItemId := fallbackOption (given .parentSourcingItemId) form.parentSourcingItemId
      [item.parentSourcingItemId]
    maintenanceCoverage := fallbackOption (given .maintenanceCoverage) form.maintenanceCoverage
      [item.maintenanceCoverage, old.map (·.maintenanceCoverage)]
    maintenanceStartDate := fallbackOption (given .maintenanceStartDate) form.maintenanceStartDate
      [item.maintenanceStartDate, old.bind (·.maintenanceStartDate)]
    maintenanceEndDate := fallbackOption (given .maintenanceEndDate) form.maintenanceEndDate
      [item.maintenanceEndDate, old.bind (·.maintenanceEndDate)]
    maintenancePricingBasis :=
      fallbackOption (given .maintenancePricingBasis) form.maintenancePricingBasis
        [item.maintenancePricingBasis, old.bind (·.maintenancePricingBasis)]
    maintenanceQuantity := fallbackOption (given .maintenanceQuantity) form.maintenanceQuantity
      [truthy item.maintenanceQuantity, old.bind (fun l => truthy l.maintenanceQuantity)]
    maintenanceUnitPrice := fallbackOption (given .maintenanceUnitPrice) form.maintenanceUnitPrice
      [truthy item.maintenanceUnitPrice]
    maintenanceCost := fallbackOption (given .maintenanceCost) form.maintenanceCost
      [truthy item.maintenanceCost] }

/-- Included support follows the term and the prices that the form submits. -/
def followSubmittedTerm (u : Unicode) (submitted : List ConversionField) (form : ConversionForm)
    : ConversionForm :=
  if form.maintenanceCoverage ≠ some .included then form
  else
    { form with
      maintenanceStartDate :=
        if .maintenanceStartDate ∉ submitted ∧ .startDate ∈ submitted then form.startDate
        else form.maintenanceStartDate
      maintenanceEndDate :=
        if .maintenanceEndDate ∉ submitted ∧ .endDate ∈ submitted then form.endDate
        else form.maintenanceEndDate
      maintenanceCost :=
        if .maintenanceCost ∉ submitted ∧ (.quantity ∈ submitted ∨ .unitPrice ∈ submitted) then
          (u.calcLineTotal form.quantity form.unitPrice).or form.maintenanceCost
        else form.maintenanceCost }

/-- `build_pending_order_item_license_data`, for form data that already carry the purchase. -/
def buildPendingOrderItemLicenseData (u : Unicode) (data : ConversionData)
    (submitted : List ConversionField) (item : SourcingItem) (old : Option License)
    (order : PendingOrder)
    : ConversionData :=
  let form := completeFromLine data.toConversionForm submitted item old order
  let form := followSubmittedTerm u submitted form
  let given := submitted.contains .parentLicenseId
  let ofOld := old.bind (fun l => if l.licenseType = .maintenance then l.parentLicenseId else none)
  let parent := fallbackOption given form.parentLicenseId [ofOld]
  let parent :=
    if form.licenseType = .maintenance then
      fallbackOption given parent [item.maintenanceParentLicenseId]
    else parent
  let sections := conversionNotes
    [("Purchase order notes", order.notes), ("Line item notes", item.notes),
      ("Previous license notes", old.bind (·.notes))] []
  { data with
    toConversionForm :=
      { form with
        parentLicenseId := parent
        notes :=
          if submitted.contains .notes ∨ sections = [] then form.notes
          else some ("\n\n".intercalate sections) }
    requestDate := some item.createdAt }

/-- `_enforce_order_supplier`: the supplier that the data carry afterwards. -/
def enforceOrderSupplier (u : Unicode) (form : ConversionForm) (submitted : List ConversionField)
    (orderSupplier : Option String) (detailPrefix : String)
    : Except Failure ConversionForm := do
  let canonical := strip (orderSupplier.getD "")
  if canonical = "" then pure form
  else
    let supplier := strip form.supplier
    require (¬ (.supplier ∈ submitted ∧ supplier ≠ ""
        ∧ u.casefold supplier ≠ u.casefold canonical))
      (.http 422 (detailPrefix ++ "License supplier must match the pending order supplier"))
    pure { form with supplier := canonical }

/-- The values of a column over a set of licences that are told apart, blank ones aside. -/
def distinctValues (u : Unicode) (s : Store) (ids : List Nat) (column : License → String)
    : List String :=
  ((s.licenses.filter (fun id l => ids.contains id && !isBlank (column l))).entries.map
    (fun entry => u.casefold (strip (column entry.2)))).dedup

/-- `_require_choices_for_split_coterm`. -/
def requireChoicesForSplitCoterm (u : Unicode) (s : Store) (item : SourcingItem)
    (data : ConversionForm) (detailPrefix : String)
    : Except Failure PUnit := do
  let ids := item.cotermPredecessorIds.getD []
  if 2 ≤ ids.length then do
    require (isBlank data.budgetOwnerEmail = false
        ∨ (distinctValues u s ids (·.budgetOwnerEmail)).length ≤ 1)
      (.http 422 (detailPrefix
        ++ "Choose a budget owner: the merged licenses had different budget owners"))
    require (isBlank data.costCentre = false
        ∨ (distinctValues u s ids (·.costCentre)).length ≤ 1)
      (.http 422 (detailPrefix
        ++ "Choose a cost centre: the merged licenses had different cost centres"))
  else pure ⟨⟩

end LicenseTrack
