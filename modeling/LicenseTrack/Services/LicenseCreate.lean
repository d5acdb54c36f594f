import Mathlib.Data.List.Dedup
import LicenseTrack.Services.MaintenanceService

/-! Creating licences: the single create, the batch, and maintenance records for a parent. -/

namespace LicenseTrack

open Library

/-- The keyword arguments of a licence to be created. The coverage class is kept apart, since
it may still be missing.
-/
structure LicenseData where
  row : License
  maintenanceCoverage : Option MaintenanceCoverage := none

/-- Replaces the columns that reference records decide. -/
def License.withDetails (l : License) (d : LicenseDetails) : License :=
  { l with toLicenseDetails := d }

/-- Replaces type, quantity, prices and term. -/
def License.withTerms (l : License) (t : LicenseTerms) : License := { l with toLicenseTerms := t }

/-- Replaces the purchase columns. -/
def License.withPurchase (l : License) (p : LicensePurchase) : License :=
  { l with toLicensePurchase := p }

/-- `resolve_license_reference_fields`, on a whole row. -/
def resolveRowReferences (u : Unicode) (row : License) (s : Store)
    : Except Failure (License × Store) := do
  let (details, s) ← resolveLicenseReferenceFields u row.toLicenseDetails s
  pure (row.withDetails details, s)

/-- `inherit_po_total_override`, on a whole row. -/
def inheritRowOverride (u : Unicode) (s : Store) (row : License) : License :=
  row.withPurchase (inheritPoTotalOverride u s row.toLicensePurchase)

/-- The invoice numbers that a creation derives where the caller gives only the first one. -/
def defaultInvoiceNumbers (row : License) : License :=
  { row with
    invoiceNumbers := if row.invoiceNumber = "" then [] else [row.invoiceNumber] }

/-- The foreign key from a licence to its order line. -/
def assertSourceLineExists (s : Store) (row : License) : Except Failure PUnit :=
  require (row.sourceSourcingItemId.all (fun id => (s.items.get? id).isSome) = true)
    (.database "FOREIGN KEY constraint failed")

/-- Adds a licence, flushes it and gives it its purchase-order line. -/
def insertLicense (u : Unicode) (row : License) (s : Store) : Except Failure (Nat × Store) := do
  let id := s.licenses.nextKey
  let s ← flush { s with licenses := s.licenses.insert row }
  assertSourceLineExists s row
  pure (id, syncLicenseLine u id none s)

/-- Gives a new licence a newly issued reference. -/
def assignLicenseRef (env : Env) (id : Nat) (s : Store) : Store :=
  let (ref, s) := generateLicenseRef env s
  s.modifyLicense id (fun l => { l with licenseRef := some ref })

/-- The row that `create_maintenance_for_parent` makes of its data. -/
def maintenanceRow (parentId : Nat) (row : License) : License :=
  { row with
    licenseType := .maintenance
    maintenanceCoverage := .notApplicable
    parentLicenseId := some parentId }

/-- `create_maintenance_for_parent`, for data that already carry a shared total and, where
the caller has synchronised them, both invoice columns.
-/
def createMaintenanceForParent (env : Env) (parentId : Nat) (row : License) (s : Store)
    : Except Failure (Nat × Store) := do
  let (row, s) ← resolveRowReferences env.unicode row s
  validateTermDateOrder row.startDate row.endDate
  let (id, s) ← insertLicense env.unicode (maintenanceRow parentId row) s
  let s := assignLicenseRef env id s
  let s ← activateMaintenanceForParent env id parentId s
  pure (id, s)

-- Create requests

/-- The columns that the schema of a create request does not have are at their defaults. -/
def License.isOnCreateSchema (row : License) : Bool :=
  row.publisherId.isNone && row.supplierId.isNone && row.costCentreId.isNone
    && row.contractId.isNone && row.noticeHandledAt.isNone && row.noticeHandledByUserId.isNone
    && row.requestDate.isNone && row.poTotalOverride.isNone && row.poLineId.isNone
    && row.procurementBundleId.isNone && row.sourceSourcingItemId.isNone
    && !row.isLegacyUnlinkedMaintenance

/-- The body of a create request. The row holds the columns that the schema has. -/
structure LicenseCreate extends LicenseData where
  maintenanceParentIds : List Nat := []
  onSchema : row.isOnCreateSchema = true := by rfl

/-- Whether an optional text carries more than white space. -/
def isMeaningfulText (text : Option String) : Bool := text.any (fun t => !isBlank t)

/-- The server-owned fields of a create request in alphabetical order, each with whether its
value is a meaningful override and whether included support may carry it.
-/
def serverOwnedCreateFields (row : License) : List (String × Bool × Bool) :=
  [
    ("active_maintenance_id", row.activeMaintenanceId.isSome, false),
    ("coterm_from_ids", row.cotermFromIds.isSome, false),
    ("has_maintenance", row.hasMaintenance, false),
    ("is_completeness_exempt", row.isCompletenessExempt, false),
    ("is_retired", row.isRetired, false),
    ("last_synced_at", row.lastSyncedAt.isSome, false),
    ("license_ref", isMeaningfulText row.licenseRef, false),
    ("lifecycle_status", row.lifecycleStatus.isSome, false),
    ("maintenance_cost", isMeaningfulText row.maintenanceCost, true),
    ("maintenance_end_date", row.maintenanceEndDate.isSome, true),
    ("maintenance_pricing_basis", row.maintenancePricingBasis.any (· ≠ .flat), true),
    ("maintenance_quantity", isMeaningfulText row.maintenanceQuantity, true),
    ("maintenance_start_date", row.maintenanceStartDate.isSome, true),
    ("maintenance_unit_price", isMeaningfulText row.maintenanceUnitPrice, true),
    ("pending_order_id", row.pendingOrderId.isSome, false),
    ("renewed_from_id", row.renewedFromId.isSome, false),
    ("renewed_to_id", row.renewedToId.isSome, false),
    ("retirement_scheduled", row.retirementScheduled, false),
    ("sync_status", isMeaningfulText row.syncStatus, false)
  ]

/-- `_reject_server_owned_create_overrides`. -/
def rejectServerOwnedCreateOverrides (data : LicenseData) : Except Failure PUnit :=
  let blocked := (serverOwnedCreateFields data.row).filter (fun field =>
    field.2.1 && !(field.2.2 && data.maintenanceCoverage == some .included))
  require (blocked = [])
    (.http 400 ("Server-owned fields cannot be set on license create: "
      ++ ", ".intercalate (blocked.map Prod.fst)))

/-- `_strip_server_owned_create_fields`: the columns fall back to their defaults. -/
def stripServerOwnedCreateFields (row : License) : License :=
  { row with
    toMaintenanceMirror := {}
    toLicenseChain := {}
    lastSyncedAt := none
    syncStatus := none
    pendingOrderId := none
    isRetired := false
    retirementScheduled := false
    isCompletenessExempt := false }

/-- `_caller_included_support_details`: the details that survive the stripping. -/
def callerIncludedSupportDetails (data : LicenseData) : MaintenanceMirror :=
  if data.maintenanceCoverage = some .included
      ∧ data.row.licenseType.isBundledSupport = false then
    {
      maintenanceStartDate := data.row.maintenanceStartDate
      maintenanceEndDate := data.row.maintenanceEndDate
      maintenancePricingBasis := data.row.maintenancePricingBasis
      maintenanceQuantity := data.row.maintenanceQuantity
      maintenanceUnitPrice := data.row.maintenanceUnitPrice
      maintenanceCost := data.row.maintenanceCost
    }
  else {}

/-- `_sync_invoice_numbers`, for data with both invoice columns. -/
def syncInvoiceNumbers (row : License) : License :=
  match row.invoiceNumbers with
  | first :: _ => { row with invoiceNumber := first }
  | [] => if row.invoiceNumber = "" then row else { row with invoiceNumbers := [row.invoiceNumber] }

/-- `_normalise_maintenance_parent_ids`. -/
def normaliseMaintenanceParentIds (parentId : Option Nat) (parentIds : List Nat) : List Nat :=
  (parentId.toList ++ parentIds).reverse.dedup.reverse

/-- The maintenance branch of `create_license_record`. -/
def createMaintenanceRecord (env : Env) (bundleId : Option String) (payload : LicenseCreate)
    (parentIds : List Nat) (s : Store)
    : Except Failure (Nat × Store) := do
  match parentIds with
  | [] => throw (.http 400 "Maintenance licenses require parent_license_id")
  | firstParent :: extraParents => do
      parentIds.forM (fun id => do let _ ← asHttp 400 (validateParentLicense s id))
      let row := stripServerOwnedCreateFields payload.row
      let support := applyIncludedSupportDefaults env.unicode row.toLicenseTerms
        { row.toMaintenanceMirror with
          maintenanceCoverage := payload.maintenanceCoverage.getD .unknown }
      let row := syncInvoiceNumbers (row.withMirror support)
      let (row, s) ← resolveRowReferences env.unicode row s
      let contractId ← resolveContractIdForNumber env.unicode s row.contractNumber
      let row := { row with procurementBundleId := bundleId, contractId := contractId }
      let row := inheritRowOverride env.unicode s row
      let (id, s) ← createMaintenanceForParent env firstParent row s
      let s ← each (fun parentId => activateMaintenanceForParent env id parentId) extraParents s
      pure (id, s)

/-- The other branch of `create_license_record`. -/
def createPlainRecord (env : Env) (bundleId : Option String) (payload : LicenseCreate)
    (parentIds : List Nat) (s : Store)
    : Except Failure (Nat × Store) := do
  asHttp 400 (assertNonMaintenanceHasNoParent payload.row.licenseType payload.row.parentLicenseId)
  require (parentIds = [])
    (.http 400 "maintenanceParentIds is only valid for maintenance licenses")
  let row := stripServerOwnedCreateFields payload.row
  let row := syncInvoiceNumbers (row.withMirror (callerIncludedSupportDetails payload.toLicenseData))
  let (row, s) ← resolveRowReferences env.unicode row s
  let coverage :=
    payload.maintenanceCoverage.getD (defaultMaintenanceCoverage payload.row.licenseType)
  asHttp 400 (assertCoverageAllowedForType payload.row.licenseType coverage)
  let terms := normaliseLicenseTypeFields row.toLicenseTerms
  validateTypeDescription terms.licenseType terms.typeDescription
  let support := applyIncludedSupportDefaults env.unicode terms
    { row.toMaintenanceMirror with maintenanceCoverage := coverage }
  validateTermDates terms.startDate terms.endDate
  let contractId ← resolveContractIdForNumber env.unicode s row.contractNumber
  let row := (row.withTerms terms).withMirror support
  let row := { row with procurementBundleId := bundleId, contractId := contractId }
  let row := inheritRowOverride env.unicode s row
  let (id, s) ← insertLicense env.unicode row s
  pure (id, assignLicenseRef env id s)

/-- `create_license_record`. -/
def createLicenseRecord (env : Env) (bundleId : Option String) (payload : LicenseCreate)
    (s : Store)
    : Except Failure (Nat × Store) := do
  rejectServerOwnedCreateOverrides payload.toLicenseData
  let parentIds :=
    normaliseMaintenanceParentIds payload.row.parentLicenseId payload.maintenanceParentIds
  if payload.row.licenseType = .maintenance then
    createMaintenanceRecord env bundleId payload parentIds s
  else createPlainRecord env bundleId payload parentIds s

/-- The single create request, up to its commit. -/
def createLicense (env : Env) (payload : LicenseCreate) (s : Store) : Except Failure Store := do
  let (_, s) ← createLicenseRecord env none payload s
  flush s

/-- One line of a batch; its parent may be an earlier line. -/
structure LicenseBatchCreateItem where
  license : LicenseCreate
  parentLineIndex : Option Nat := none

/-- The payload of a line, with the parent that its index names among the created ones. -/
def LicenseBatchCreateItem.payload (item : LicenseBatchCreateItem) (created : List Nat)
    : LicenseCreate :=
  match item.parentLineIndex with
  | some index =>
      { item.license with
        row := { item.license.row with parentLicenseId := created[index]? }
        onSchema := item.license.onSchema }
  | none => item.license

/-- The lines of `create_license_batch_records` in turn. -/
def createBatchLines (env : Env) (bundleId : Option String)
    : List LicenseBatchCreateItem → List Nat → Store → Except Failure Store
  | [], _, s => .ok s
  | item :: rest, created, s => do
      let (id, s) ← createLicenseRecord env bundleId (item.payload created) s
      createBatchLines env bundleId rest (created ++ [id]) s

/-- The batch request, up to its commit. -/
def createLicenseBatch (env : Env) (items : List LicenseBatchCreateItem) (s : Store)
    : Except Failure Store := do
  let bundleId := if 1 < items.length then some env.uuid else none
  let s ← createBatchLines env bundleId items [] s
  flush s

end LicenseTrack
