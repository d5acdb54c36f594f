import LicenseTrack.Services.LicenseCreate
import LicenseTrack.Services.LifecycleRules

/-! The full update of a licence (PUT): the columns it writes, the rules it checks and the
maintenance relationships it reconciles.
-/

namespace LicenseTrack

open Library

/-- The fields of an update request that are set; none stands for a field left out. -/
structure LicenseUpdate where
  publisherName : Option String := none
  softwareDescription : Option String := none
  licenseType : Option LicenseType := none
  licenseMetric : Option LicenseMetric := none
  quantity : Option (Option String) := none
  quantityPerUnit : Option (Option String) := none
  skuCode : Option (Option String) := none
  unitPrice : Option (Option String) := none
  totalPoPrice : Option (Option String) := none
  currency : Option String := none
  startDate : Option (Option Date) := none
  endDate : Option (Option Date) := none
  noticeDate : Option (Option Date) := none
  requestDate : Option (Option Timestamp) := none
  purchaseDate : Option (Option Timestamp) := none
  contractNumber : Option (Option String) := none
  poNumber : Option (Option String) := none
  procurementReference : Option (Option String) := none
  invoiceNumber : Option (Option String) := none
  invoiceNumbers : Option (List String) := none
  pendingOrderId : Option (Option Nat) := none
  contactEmail : Option (Option String) := none
  supplier : Option (Option String) := none
  costCentre : Option (Option String) := none
  budgetOwnerEmail : Option (Option String) := none
  secondaryContacts : Option (List String) := none
  portalUrl : Option (Option String) := none
  isRenewable : Option (Option Bool) := none
  typeDescription : Option (Option String) := none
  parentLicenseId : Option (Option Nat) := none
  maintenanceCoverage : Option MaintenanceCoverage := none
  notes : Option (Option String) := none
  externalRef : Option (Option String) := none
  syncStatus : Option (Option String) := none
  isRetired : Option Bool := none
  isCompletenessExempt : Option Bool := none
  renewalNotificationsEnabled : Option Bool := none
  lifecycleStatus : Option (Option LifecycleStatus) := none
  renewedFromId : Option (Option Nat) := none
  renewedToId : Option (Option Nat) := none
  predecessorId : Option (Option Nat) := none
  cotermFromIds : Option (Option (List Nat)) := none
deriving DecidableEq

/-- A blankable text of an update: null counts as the empty text. -/
def blankText (field : Option (Option String)) : Option String := field.map (·.getD "")

/-- The schema's check of a money field. -/
def validateMoneyField (u : Unicode) (field : Option (Option String)) : Except Failure PUnit :=
  require ((field.getD none).all (fun text => text = "" || u.isCanonicalMoney text) = true)
    (.http 422 "Money values must be plain decimal strings (e.g. '1234.50').")

/-- The schema's check of the budget owner, with the stripped text. -/
def cleanEmailField (field : Option (Option String)) : Except Failure (Option (Option String)) :=
  match field with
  | some (some text) =>
      if text = "" then .ok field
      else do
        require ((strip text).toList.all (fun c => c ≠ '\r' && c ≠ '\n' && c ≠ '\x00') = true)
          (.http 422 "Email field must not contain line breaks or null bytes.")
        pure (some (some (strip text)))
  | other => .ok other

/-- The checks of the request schema. -/
def LicenseUpdate.validated (u : Unicode) (p : LicenseUpdate) : Except Failure LicenseUpdate := do
  validateMoneyField u p.quantity
  validateMoneyField u p.quantityPerUnit
  validateMoneyField u p.unitPrice
  validateMoneyField u p.totalPoPrice
  require ((p.typeDescription.getD none).all (fun text => text.length ≤ 255) = true)
    (.http 422 "String should have at most 255 characters")
  let budgetOwnerEmail ← cleanEmailField p.budgetOwnerEmail
  pure { p with budgetOwnerEmail := budgetOwnerEmail }

/-- The invoice columns that `_sync_invoice_numbers` leaves in an update. -/
def updatedInvoices (p : LicenseUpdate) (l : License) : String × List String :=
  match p.invoiceNumbers with
  | some (first :: rest) => (first, first :: rest)
  | some [] =>
      let primary := (blankText p.invoiceNumber).getD ""
      if primary = "" then ("", []) else (primary, [primary])
  | none =>
      match blankText p.invoiceNumber with
      | some primary => (primary, if primary = "" then [] else [primary])
      | none => (l.invoiceNumber, l.invoiceNumbers)

/-- The detail columns that an update writes as given, before reference resolution. -/
def LicenseUpdate.writeDetails (p : LicenseUpdate) (l : License) : LicenseDetails :=
  let (invoiceNumber, invoiceNumbers) := updatedInvoices p l
  let noticeDate := p.noticeDate.getD l.noticeDate
  { l.toLicenseDetails with
    softwareDescription := p.softwareDescription.getD l.softwareDescription
    licenseMetric := p.licenseMetric.getD l.licenseMetric
    portalUrl := p.portalUrl.getD l.portalUrl
    skuCode := (blankText p.skuCode).getD l.skuCode
    noticeDate := noticeDate
    -- `clear_notice_handled_if_date_changed`.
    noticeHandledAt := if noticeDate = l.noticeDate then l.noticeHandledAt else none
    noticeHandledByUserId := if noticeDate = l.noticeDate then l.noticeHandledByUserId else none
    contractNumber := (blankText p.contractNumber).getD l.contractNumber
    procurementReference := (blankText p.procurementReference).getD l.procurementReference
    invoiceNumber := invoiceNumber
    invoiceNumbers := invoiceNumbers
    requestDate := p.requestDate.getD l.requestDate
    purchaseDate := p.purchaseDate.getD l.purchaseDate
    contactEmail := (blankText p.contactEmail).getD l.contactEmail
    budgetOwnerEmail := (blankText p.budgetOwnerEmail).getD l.budgetOwnerEmail
    secondaryContacts := p.secondaryContacts.getD l.secondaryContacts
    notes := p.notes.getD l.notes
    externalRef := p.externalRef.getD l.externalRef
    syncStatus := p.syncStatus.getD l.syncStatus
    isCompletenessExempt := p.isCompletenessExempt.getD l.isCompletenessExempt
    renewalNotificationsEnabled :=
      p.renewalNotificationsEnabled.getD l.renewalNotificationsEnabled }

/-- The terms that an update leaves, normalised for the type. -/
def LicenseUpdate.writeTerms (p : LicenseUpdate) (l : License) : LicenseTerms :=
  normaliseLicenseTypeFields
    { l.toLicenseTerms with
      licenseType := p.licenseType.getD l.licenseType
      isRenewable := p.isRenewable.getD l.isRenewable
      typeDescription := p.typeDescription.getD l.typeDescription
      quantity := (blankText p.quantity).getD l.quantity
      quantityPerUnit := (blankText p.quantityPerUnit).getD l.quantityPerUnit
      unitPrice := (blankText p.unitPrice).getD l.unitPrice
      totalPoPrice := (blankText p.totalPoPrice).getD l.totalPoPrice
      startDate := p.startDate.getD l.startDate
      endDate := p.endDate.getD l.endDate }

/-- The coverage class that an update leaves. -/
def LicenseUpdate.writeCoverage (p : LicenseUpdate) (l : License) : MaintenanceCoverage :=
  match p.maintenanceCoverage, p.licenseType with
  | some coverage, _ => coverage
  | none, some newType =>
      coverageAfterTypeChange l.licenseType newType l.maintenanceCoverage l.activeMaintenanceId
  | none, none => l.maintenanceCoverage

/-- `open_support_renewal_license_ids`, for one licence. -/
def hasOpenSupportRenewal (s : Store) (id : Nat) : Bool :=
  s.items.entries.any (fun entry =>
    entry.2.maintenanceParentLicenseId == some id && entry.2.status != .cancelled
      && !s.licenses.entries.any (fun l => l.2.sourceSourcingItemId == some entry.1))

/-- `renewal_in_progress`. -/
def renewalInProgress (s : Store) (id : Nat) (l : License) : Bool :=
  l.lifecycleStatus == some .pendingRenewal || hasOpenSupportRenewal s id

/-- The repair-only fields that an update would change, in alphabetical order. -/
def changedRepairFields (p : LicenseUpdate) (l : License) : List String :=
  (if p.cotermFromIds.any (· ≠ l.cotermFromIds) then ["coterm_from_ids"] else [])
    ++ (if p.predecessorId.any (· ≠ l.predecessorId) then ["predecessor_id"] else [])
    ++ (if p.renewedFromId.any (· ≠ l.renewedFromId) then ["renewed_from_id"] else [])
    ++ (if p.renewedToId.any (· ≠ l.renewedToId) then ["renewed_to_id"] else [])

/-- `validate_general_license_update_fields`. -/
def validateGeneralLicenseUpdateFields (p : LicenseUpdate) (l : License)
    : Except Failure PUnit := do
  require (changedRepairFields p l = [])
    (.http 400 ("Lifecycle and relationship repair fields cannot be changed through "
      ++ "the general license update endpoint: " ++ ", ".intercalate (changedRepairFields p l)))
  match p.lifecycleStatus with
  | none => pure ⟨⟩
  | some status => do
      require (¬ (l.lifecycleStatus = some .pendingRenewal ∧ status ≠ l.lifecycleStatus))
        (.http 400
          "Pending renewal lifecycle state can only be changed by the renewal workflow.")
      require (status = l.lifecycleStatus ∨ ((status = none ∨ status = some .legacy)
          ∧ (l.lifecycleStatus = none ∨ l.lifecycleStatus = some .legacy)))
        (.http 400
          "Only the legacy flag can be toggled, and only on licenses outside a renewal workflow.")

/-- `_validate_maintenance_parent_transition`. -/
def validateMaintenanceParentTransition (s : Store) (l : License) (newType : LicenseType)
    (newParentId : Option Nat) (targetRetired : Bool)
    : Except Failure PUnit := do
  let grandfathered := newType = .maintenance ∧ l.licenseType = .maintenance
    ∧ l.isLegacyUnlinkedMaintenance = true ∧ l.parentLicenseId = none ∧ newParentId = none
  let retiredUnlinked := newType = .maintenance ∧ targetRetired = true
    ∧ l.parentLicenseId = none ∧ newParentId = none
  if ¬ grandfathered ∧ ¬ retiredUnlinked then
    asHttp 400 (assertMaintenanceRequiresParent newType newParentId)
  asHttp 400 (assertNonMaintenanceHasNoParent newType newParentId)
  match newType, newParentId with
  | .maintenance, some parentId => do
      let _ ← asHttp 400 (validateParentLicense s parentId)
  | _, _ => pure ⟨⟩

/-- `_validate_active_maintenance_parent_update`, for a row before and after its update. -/
def validateActiveMaintenanceParentUpdate (before after : License) : Except Failure PUnit :=
  if after.activeMaintenanceId = none then .ok ⟨⟩
  else asHttp 400 (do
    assertActiveMaintenanceAllowsTypeChange after.activeMaintenanceId after.licenseType
    assertActiveMaintenanceAllowsRetirement after.activeMaintenanceId
      (before.isRetired || before.retirementScheduled) (after.isRetired || after.retirementScheduled)
    assertActiveMaintenanceAllowsCoverageChange after.activeMaintenanceId
      after.maintenanceCoverage)

/-- The stored parents of a record: those linked and, where no link has it, the primary one.
Rows that a link names but that do not exist are skipped.
-/
def Store.storedParentsOf (s : Store) (id : Nat) : List Nat :=
  (s.parentsOf id).filter (fun parentId => (s.license? parentId).isSome)

/-- `_detach_all_maintenance_relationships`. -/
def detachAllMaintenanceRelationships (id : Nat) (s : Store) : Store :=
  let s := (s.storedParentsOf id).foldl
    (fun s parentId => detachMaintenanceFromParent id parentId true s) s
  s.modifyLicense id (fun l => { l with parentLicenseId := none })

/-- `_reconcile_maintenance_relationships_after_update`. The requested parent is none where
the update does not mention it.
-/
def reconcileMaintenanceRelationshipsAfterUpdate (env : Env) (id : Nat)
    (previousParentId : Option Nat) (requested : Option (Option Nat)) (s : Store)
    : Except Failure Store := do
  let l ← found (s.license? id) (.http 404 "License not found")
  if l.licenseType ≠ .maintenance then
    let s := if previousParentId ≠ none ∨ l.parentLicenseId ≠ none then
        detachAllMaintenanceRelationships id s
      else s
    pure (s.modifyLicense id (fun l => { l with isLegacyUnlinkedMaintenance := false }))
  else if l.isRetired then pure (retireMaintenanceLicense id s)
  else match requested with
    | none => pure s
    | some requestedParentId => do
        let s := match previousParentId with
          | some parentId =>
              if previousParentId ≠ requestedParentId ∧ (s.license? parentId).isSome then
                detachMaintenanceFromParent id parentId false s
              else s
          | none => s
        match requestedParentId with
        | some parentId =>
            if previousParentId ≠ requestedParentId then do
              let _ ← validateParentLicense s parentId
              let s ← activateMaintenanceForParent env id parentId s
              pure (s.modifyLicense id (fun l => { l with parentLicenseId := some parentId }))
            else pure s
        | none => pure s

/-- `_sync_active_maintenance_parent_if_needed`. -/
def syncActiveMaintenanceParentIfNeeded (u : Unicode) (id : Nat) (s : Store) : Store :=
  match s.license? id with
  | some l =>
      if l.licenseType = .maintenance then
        (s.storedParentsOf id).foldl
          (fun s parentId =>
            if (s.license? parentId).any (·.hasActive id) then syncParentMirrorFields u parentId s
            else s)
          s
      else s
  | none => s

/-- `_snapshot_included_support_before_type_change`. -/
def snapshotIncludedSupportBeforeTypeChange (id : Nat) (newType : LicenseType) (s : Store)
    : Store :=
  match s.license? id with
  | some l =>
      if l.licenseType.isMaintenanceParent = true ∧ newType.isMaintenanceParent = false
          ∧ l.maintenanceCoverage = .included then
        snapshotIncludedSupport id s
      else s
  | none => s

-- The update

/-- Whether an update links a record of the legacy exception to its first parent. -/
def linksLegacyParent (p : LicenseUpdate) (l : License) (newType : LicenseType) : Bool :=
  newType == .maintenance && (p.parentLicenseId.bind id).isSome && l.isLegacyUnlinkedMaintenance
    && l.parentLicenseId.isNone

/-- The row that an update leaves before its relationships are reconciled. -/
def LicenseUpdate.writeRow (p : LicenseUpdate) (details : LicenseDetails) (terms : LicenseTerms)
    (override : Option String) (retirement : RetirementUpdate) (l : License)
    : License :=
  let newParentId := p.parentLicenseId.getD l.parentLicenseId
  let linkingLegacy := linksLegacyParent p l terms.licenseType
  { l with
    toLicenseDetails := details
    toLicenseTerms := terms
    poNumber := (blankText p.poNumber).getD l.poNumber
    currency := p.currency.getD l.currency
    poTotalOverride := override
    pendingOrderId := p.pendingOrderId.getD l.pendingOrderId
    maintenanceCoverage := p.writeCoverage l
    parentLicenseId := if linkingLegacy then l.parentLicenseId else newParentId
    isLegacyUnlinkedMaintenance :=
      if (terms.licenseType ≠ .maintenance ∨ newParentId ≠ none) ∧ linkingLegacy = false then
        false
      else l.isLegacyUnlinkedMaintenance
    isRetired := retirement.isRetired.getD l.isRetired
    retirementScheduled := retirement.retirementScheduled.getD l.retirementScheduled
    lifecycleStatus := p.lifecycleStatus.getD l.lifecycleStatus }

/-- `apply_license_update`, for a body past its schema. -/
def applyLicenseUpdate (env : Env) (id : Nat) (p : LicenseUpdate) (s : Store)
    : Except Failure Store := do
  let l ← found (s.license? id) (.http 404 "License not found")
  let (details, s) ← resolveLicenseReferenceUpdates env.unicode p.publisherName
    (blankText p.supplier) (blankText p.costCentre) (p.writeDetails l) s
  let terms := p.writeTerms l
  let endGiven := p.endDate.isSome || terms.endDate != l.endDate
  if terms.licenseType ≠ l.licenseType ∨ p.typeDescription.isSome then
    validateTypeDescription terms.licenseType terms.typeDescription
  if p.startDate.isSome || endGiven then validateTermDates terms.startDate terms.endDate
  require (¬ (p.isRetired = some true ∧ l.isRetired = false ∧ renewalInProgress s id l = true))
    (.http 409 "Cancel the renewal first, then retire this license")
  let retirement :=
    normalizeRetirementUpdate env.today l.retirementScheduled p.isRetired terms.endDate endGiven
  validateGeneralLicenseUpdateFields p l
  let override :=
    if p.poNumber.isSome ∨ p.currency.isSome then
      resolveReassignedPoTotalOverride env.unicode s id l
        ((blankText p.poNumber).getD l.poNumber) (p.currency.getD l.currency)
    else l.poTotalOverride
  asHttp 400 (assertCoverageAllowedForType terms.licenseType (p.writeCoverage l))
  validateMaintenanceParentTransition s l terms.licenseType
    (p.parentLicenseId.getD l.parentLicenseId) (retirement.isRetired.getD l.isRetired)
  let s := if p.licenseType.isSome then
      snapshotIncludedSupportBeforeTypeChange id terms.licenseType s
    else s
  let s := s.modifyLicense id (p.writeRow details terms override retirement)
  let s := if p.poNumber.isSome then syncLicenseLine env.unicode id none s else s
  let s := s.modifyLicense id (syncSupportDefaults env.unicode)
  let s := recordIncludedSupportExit env.unicode id l.maintenanceCoverage s
  let row ← found (s.license? id) (.http 404 "License not found")
  if row.startDate ≠ l.startDate ∨ row.endDate ≠ l.endDate then
    validateEstablishedRenewalTerms s row
  let s ← match blankText p.contractNumber with
    | some number => do
        let contractId ← resolveContractIdForNumber env.unicode s number
        pure (s.modifyLicense id (fun l => { l with contractId := contractId }))
    | none => pure s
  let row ← found (s.license? id) (.http 404 "License not found")
  validateActiveMaintenanceParentUpdate l row
  let s ← reconcileMaintenanceRelationshipsAfterUpdate env id l.parentLicenseId p.parentLicenseId s
  pure (syncActiveMaintenanceParentIfNeeded env.unicode id s)

/-- The update request: its schema, the update and the commit. -/
def updateLicense (env : Env) (id : Nat) (p : LicenseUpdate) (s : Store)
    : Except Failure Store := do
  let p ← p.validated env.unicode
  let s ← applyLicenseUpdate env id p s
  flush s

end LicenseTrack
