import LicenseTrack.Services.LicenseDelete

/-! Importing one row of a CSV file, as a new licence or as an update of a stored one. -/

namespace LicenseTrack

open Library

/-- `import_legacy_unlinked` or a chosen parent. -/
inductive MaintenanceParentAction
  | linkExisting
  | importLegacyUnlinked
deriving DecidableEq

/-- A parsed row whose cells are already typed and whose reference names are resolved. -/
structure ParsedRow where
  publisherName : String := ""
  softwareDescription : String := ""
  licenseType : Option LicenseType := none
  licenseMetric : Option LicenseMetric := none
  startDate : Option Date := none
  endDate : Option Date := none
  noticeDate : Option Date := none
  requestDate : Option Timestamp := none
  purchaseDate : Option Timestamp := none
  contractNumber : String := ""
  poNumber : String := ""
  procurementReference : String := ""
  invoiceNumber : String := ""
  /-- What `parse_invoice_cell` makes of the invoice cell. -/
  invoices : List String := []
  contactEmail : String := ""
  supplier : String := ""
  costCentre : String := ""
  budgetOwnerEmail : String := ""
  secondaryContacts : List String := []
  quantity : String := ""
  quantityPerUnit : String := ""
  skuCode : String := ""
  unitPrice : String := ""
  poTotalOverride : String := ""
  currency : String := "EUR"
  currencyDefaulted : Bool := false
  notes : Option String := none
  externalRef : Option String := none
  portalUrl : Option String := none
  isRenewable : Option Bool := none
  typeDescription : Option String := none
  maintenanceCoverage : Option MaintenanceCoverage := none
  maintenanceStartDate : Option Date := none
  maintenanceEndDate : Option Date := none
  maintenancePricingBasis : Option MaintenancePricingBasis := none
  maintenanceQuantity : String := ""
  maintenanceUnitPrice : String := ""
  maintenanceCost : String := ""
  licenseRef : Option String := none
  parentLicenseRef : Option String := none
  /-- The references of further parents, behind the first one. -/
  parentLicenseRefs : List String := []
  poLineNumber : Option Nat := none
  selectedParentLicenseId : Option Nat := none
  parentImportRowNumber : Option Nat := none
  maintenanceParentAction : Option MaintenanceParentAction := none
  isCompletenessExempt : Bool := false
  /-- The row's lifecycle status is the legacy one or none. -/
  isLegacy : Bool := false
  resolvedPublisherId : Option Nat := none
  resolvedSupplierId : Option Nat := none
  resolvedCostCentreId : Option Nat := none
deriving DecidableEq

/-- What the rows before this one have inserted, by row number and by file reference. -/
structure ImportProgress where
  insertedByRowNumber : List (Nat × Nat) := []
  insertedByImportRef : List (String × Nat) := []
deriving DecidableEq

/-- `ref_key`. -/
def Unicode.refKey (u : Unicode) (ref : String) : String := u.lower (strip ref)

namespace ImportProgress

/-- The licence that an earlier row of the file became. -/
def byRowNumber (progress : ImportProgress) (row : Nat) : Option Nat :=
  (progress.insertedByRowNumber.find? (·.1 == row)).map Prod.snd

/-- The licence that an earlier row with the given reference became. -/
def byRef (progress : ImportProgress) (u : Unicode) (ref : String) : Option Nat :=
  (progress.insertedByImportRef.find? (·.1 == u.refKey ref)).map Prod.snd

end ImportProgress

/-- `license_ref_matches`. -/
def licensesByRef (u : Unicode) (s : Store) (ref : String) : List (Nat × License) :=
  s.licenses.entries.filter (fun entry =>
    entry.2.licenseRef.any (fun stored => sqlLower stored == u.refKey ref))

/-- `resolve_maintenance_parent_ref`. -/
def resolveMaintenanceParentRef (u : Unicode) (s : Store) (ref : String)
    : Except Failure Nat := do
  let invalid (reason : String) := Failure.value (s!"parent_license_ref={ref} " ++ reason)
  let found ← match licensesByRef u s ref with
    | [] => throw (invalid "does not resolve to any existing License")
    | first :: rest => pure (first, first :: rest)
  match found.2.filter (fun entry => (validateParentLicense s entry.1).isOk) with
  | [parent] => pure parent.1
  | [] =>
      if found.1.2.licenseType.isMaintenanceParent then
        throw (invalid "resolves to a retired License")
      else
        throw (invalid (s!"resolves to a {found.1.2.licenseType.value} License; "
          ++ "maintenance can only attach to perpetual, oem, or freeware"))
  | _ => throw (invalid ("resolves to multiple perpetual, oem, or freeware Licenses; "
      ++ "parent selection is ambiguous"))

/-- The parent that the import workflow hands to `build_license`. -/
def importedParentId (u : Unicode) (progress : ImportProgress) (row : ParsedRow) : Option Nat :=
  if row.maintenanceParentAction = some .importLegacyUnlinked then none
  else match row.selectedParentLicenseId, row.parentImportRowNumber with
    | some id, _ => some id
    | none, some number => progress.byRowNumber number
    | none, none => (truthyText row.parentLicenseRef).bind (progress.byRef u)
where
  /-- A reference that is not empty. -/
  truthyText (text : Option String) : Option String := text.filter (· ≠ "")

/-- The parent and the predecessor that `build_license` resolves from the row's reference. -/
def resolveRowRef (u : Unicode) (s : Store) (licenseType : LicenseType) (row : ParsedRow)
    (parentId : Option Nat)
    : Except Failure (Option Nat × Option Nat) :=
  match importedParentId.truthyText row.parentLicenseRef with
  | none => .ok (parentId, none)
  | some ref =>
      if row.maintenanceParentAction = some .importLegacyUnlinked then .ok (parentId, none)
      else if licenseType = .maintenance then
        match parentId with
        | some id => .ok (some id, none)
        | none => do
            let id ← resolveMaintenanceParentRef u s ref
            pure (some id, none)
      else
        match licensesByRef u s ref with
        | [] => .ok (parentId, none)
        | [(id, predecessor)] => do
            require (predecessor.renewedToId = none)
              (.value s!"parent_license_ref={ref} has already been renewed")
            -- The client error of the term check is reported as a value error.
            assertSuccessorTerm [predecessor] row.startDate row.endDate
            pure (parentId, some id)
        | _ => .error (.value (s!"parent_license_ref={ref} resolves to multiple Licenses; "
            ++ "predecessor selection is ambiguous"))

-- New licences

/-- The text or none where it is empty. -/
def nonEmpty (text : String) : Option String := if text = "" then none else some text

/-- The row's text, or the placeholder where it is empty. -/
def orElse (text placeholder : String) : String := if text = "" then placeholder else text

/-- `build_license`. -/
def buildLicense (u : Unicode) (s : Store) (row : ParsedRow) (parentOverride : Option Nat)
    : Except Failure License := do
  let licenseType := row.licenseType.getD .subscription
  let (parentId, predecessorId) ← resolveRowRef u s licenseType row parentOverride
  let coverage := row.maintenanceCoverage.getD (defaultMaintenanceCoverage licenseType)
  assertCoverageAllowedForType licenseType coverage
  let terms : LicenseTerms :=
    {
      licenseType := licenseType
      isRenewable := row.isRenewable
      typeDescription := row.typeDescription
      quantity := row.quantity
      quantityPerUnit := orElse row.quantityPerUnit "1"
      unitPrice := row.unitPrice
      startDate := row.startDate
      endDate := if licenseType.isNonExpiring then none else row.endDate
    }
  let basis := match row.maintenancePricingBasis with
    | some basis => some basis
    | none => if coverage = .included ∧ row.maintenanceCost ≠ "" then some .flat else none
  let support := applyBundledIncludedSupportDefaults u terms
    {
      maintenanceCoverage := coverage
      maintenanceStartDate := row.maintenanceStartDate
      maintenanceEndDate := row.maintenanceEndDate
      maintenancePricingBasis := basis
      maintenanceQuantity := nonEmpty row.maintenanceQuantity
      maintenanceUnitPrice := nonEmpty row.maintenanceUnitPrice
      maintenanceCost := nonEmpty row.maintenanceCost
    }
  validateTermDateOrder terms.startDate terms.endDate
  pure
    {
      publisherName := orElse row.publisherName "Unknown"
      publisherId := row.resolvedPublisherId
      softwareDescription := orElse row.softwareDescription "Unknown"
      licenseMetric := row.licenseMetric.getD .perUser
      portalUrl := row.portalUrl
      skuCode := row.skuCode
      noticeDate := row.noticeDate
      contractNumber := row.contractNumber
      procurementReference := row.procurementReference
      invoiceNumber := row.invoices.headD ""
      invoiceNumbers := row.invoices
      requestDate := row.requestDate
      purchaseDate := row.purchaseDate
      contactEmail := row.contactEmail
      supplier := row.supplier
      supplierId := row.resolvedSupplierId
      costCentre := row.costCentre
      costCentreId := row.resolvedCostCentreId
      budgetOwnerEmail := row.budgetOwnerEmail
      secondaryContacts := row.secondaryContacts
      notes := row.notes
      externalRef := row.externalRef.filter (· ≠ "")
      isCompletenessExempt := row.isCompletenessExempt
      toLicenseTerms := normaliseTypeOptInFields terms
      poNumber := row.poNumber
      currency := row.currency
      -- The key is present, so no total is inherited from the purchase.
      poTotalOverride := nonEmpty row.poTotalOverride
      toMaintenanceMirror := support
      parentLicenseId := parentId
      isLegacyUnlinkedMaintenance :=
        licenseType == .maintenance
          && row.maintenanceParentAction == some .importLegacyUnlinked && parentId.isNone
      lifecycleStatus := if row.isLegacy then some .legacy else none
      predecessorId := predecessorId
    }

/-- The activation for one further parent of an imported maintenance record. -/
def activateImportedParent (env : Env) (progress : ImportProgress) (id : Nat) (ref : String)
    (s : Store)
    : Except Failure Store := do
  let parentId ← match progress.byRef env.unicode ref with
    | some parentId => do
        let _ ← validateParentLicense s parentId
        pure parentId
    | none => resolveMaintenanceParentRef env.unicode s ref
  activateMaintenanceForParent env id parentId s

/-- The activations of an imported maintenance record. -/
def activateImported (env : Env) (progress : ImportProgress) (id : Nat) (license : License)
    (refs : List String) (s : Store)
    : Except Failure Store :=
  match license.licenseType, license.parentLicenseId with
  | .maintenance, some parentId => do
      let s ←
        if (s.license? parentId).isSome then activateMaintenanceForParent env id parentId s
        else pure s
      each (activateImportedParent env progress id) refs s
  | _, _ => .ok s

/-- A row of the import that becomes a new licence, in its savepoint. -/
def importNewRow (env : Env) (progress : ImportProgress) (row : ParsedRow) (s : Store)
    : Except Failure Store := do
  let license ← buildLicense env.unicode s row (importedParentId env.unicode progress row)
  let id := s.licenses.nextKey
  let s ← flush { s with licenses := s.licenses.insert license }
  let s := syncLicenseLine env.unicode id row.poLineNumber s
  let s := assignLicenseRef env id s
  let s ← match license.predecessorId with
    | some predecessorId =>
        if (s.license? predecessorId).isSome then markPredecessorRenewed predecessorId id s
        else pure s
    | none => pure s
  let s ← activateImported env progress id license row.parentLicenseRefs s
  flush s

-- Updates

/-- A cell's text, or the stored one where the cell is empty. -/
def orStored (cell stored : String) : String := if cell = "" then stored else cell

/-- The invoice columns that an update leaves. -/
def importedInvoices (row : ParsedRow) (l : License) : Except Failure (String × List String) :=
  if row.invoiceNumber = "" then .ok (l.invoiceNumber, l.invoiceNumbers)
  else match row.invoices with
    | [] => .error (.database "IndexError: list index out of range")
    | first :: rest =>
        .ok (first,
          if rest ≠ [] ∨ row.invoiceNumber ≠ l.invoiceNumber then first :: rest
          else l.invoiceNumbers)

/-- The detail columns that an update leaves, before the contract is resolved. -/
def ParsedRow.writeDetails (row : ParsedRow) (invoices : String × List String) (l : License)
    : LicenseDetails :=
  let noticeDate := row.noticeDate.or l.noticeDate
  { l.toLicenseDetails with
    publisherName := orStored row.publisherName l.publisherName
    publisherId := if row.publisherName = "" then l.publisherId else row.resolvedPublisherId
    softwareDescription := orStored row.softwareDescription l.softwareDescription
    licenseMetric := row.licenseMetric.getD l.licenseMetric
    portalUrl := (row.portalUrl.filter (· ≠ "")).or l.portalUrl
    skuCode := orStored row.skuCode l.skuCode
    noticeDate := noticeDate
    noticeHandledAt := if noticeDate = l.noticeDate then l.noticeHandledAt else none
    noticeHandledByUserId := if noticeDate = l.noticeDate then l.noticeHandledByUserId else none
    contractNumber := orStored row.contractNumber l.contractNumber
    procurementReference := orStored row.procurementReference l.procurementReference
    invoiceNumber := invoices.1
    invoiceNumbers := invoices.2
    requestDate := row.requestDate.or l.requestDate
    purchaseDate := row.purchaseDate.or l.purchaseDate
    contactEmail := orStored row.contactEmail l.contactEmail
    supplier := orStored row.supplier l.supplier
    supplierId := if row.supplier = "" then l.supplierId else row.resolvedSupplierId
    costCentre := orStored row.costCentre l.costCentre
    costCentreId := if row.costCentre = "" then l.costCentreId else row.resolvedCostCentreId
    budgetOwnerEmail := orStored row.budgetOwnerEmail l.budgetOwnerEmail
    secondaryContacts :=
      if row.secondaryContacts = [] then l.secondaryContacts else row.secondaryContacts
    notes := (row.notes.filter (· ≠ "")).or l.notes
    externalRef := (row.externalRef.filter (· ≠ "")).or l.externalRef }

/-- The terms that an update leaves. -/
def ParsedRow.writeTerms (row : ParsedRow) (l : License) : LicenseTerms :=
  normaliseTypeOptInFields
    { l.toLicenseTerms with
      isRenewable := row.isRenewable.or l.isRenewable
      typeDescription := (row.typeDescription.filter (· ≠ "")).or l.typeDescription
      quantity := orStored row.quantity l.quantity
      quantityPerUnit := orStored row.quantityPerUnit l.quantityPerUnit
      unitPrice := orStored row.unitPrice l.unitPrice
      startDate := row.startDate.or l.startDate
      endDate := if l.licenseType.isNonExpiring then l.endDate else row.endDate.or l.endDate }

/-- `has_maintenance_update_values`. -/
def hasMaintenanceUpdateValues (row : ParsedRow) : Bool :=
  row.maintenanceCoverage.isSome || row.maintenanceStartDate.isSome
    || row.maintenanceEndDate.isSome || row.maintenanceCost != ""
    || row.maintenancePricingBasis.isSome || row.maintenanceQuantity != ""
    || row.maintenanceUnitPrice != ""

/-- The support columns that an update leaves on a licence without active maintenance. -/
def ParsedRow.writeSupport (row : ParsedRow) (m : MaintenanceMirror) : MaintenanceMirror :=
  { m with
    maintenanceCoverage := row.maintenanceCoverage.getD m.maintenanceCoverage
    maintenanceStartDate := row.maintenanceStartDate.or m.maintenanceStartDate
    maintenanceEndDate := row.maintenanceEndDate.or m.maintenanceEndDate
    maintenanceCost := (nonEmpty row.maintenanceCost).or m.maintenanceCost
    maintenancePricingBasis := row.maintenancePricingBasis.or m.maintenancePricingBasis
    maintenanceQuantity := (nonEmpty row.maintenanceQuantity).or m.maintenanceQuantity
    maintenanceUnitPrice := (nonEmpty row.maintenanceUnitPrice).or m.maintenanceUnitPrice }

/-- The part of an update that touches included support. -/
def importSupport (u : Unicode) (id : Nat) (row : ParsedRow) (l : License) (s : Store)
    : Except Failure Store :=
  if l.activeMaintenanceId.isNone && hasMaintenanceUpdateValues row then do
    match row.maintenanceCoverage with
    | some coverage => assertCoverageAllowedForType l.licenseType coverage
    | none => pure ⟨⟩
    let s := s.modifyLicense id (fun l => l.withMirror (row.writeSupport l.toMaintenanceMirror))
    pure (recordIncludedSupportExit u id l.maintenanceCoverage s)
  else .ok s

/-- `apply_import_update`. -/
def applyImportUpdate (u : Unicode) (id : Nat) (row : ParsedRow) (l : License) (s : Store)
    : Except Failure Store := do
  require (row.licenseType.all (· == l.licenseType) = true)
    (.value "license_type change is not supported via import")
  let targetPo := orStored row.poNumber l.poNumber
  let targetCurrency := if row.currencyDefaulted then l.currency else orStored row.currency l.currency
  let override :=
    if targetPo ≠ l.poNumber ∨ targetCurrency ≠ l.currency then
      resolveReassignedPoTotalOverride u s id l targetPo targetCurrency
    else l.poTotalOverride
  let invoices ← importedInvoices row l
  let terms := row.writeTerms l
  let details := row.writeDetails invoices l
  let contractId ←
    if row.contractNumber = "" then pure l.contractId
    else resolveContractIdForNumber u s row.contractNumber
  if row.startDate.isSome ∨ row.endDate.isSome then
    validateTermDateOrder terms.startDate terms.endDate
  let s := s.modifyLicense id (fun l =>
    { l with
      toLicenseDetails := { details with contractId := contractId }
      toLicenseTerms := terms
      poNumber := targetPo
      currency := targetCurrency
      poTotalOverride := override })
  let s ← importSupport u id row l s
  let written ← found (s.license? id) (.http 404 "License not found")
  if written.startDate ≠ l.startDate ∨ written.endDate ≠ l.endDate then
    validateEstablishedRenewalTerms s written
  let s := s.modifyLicense id (syncSupportDefaults u)
  if l.licenseType = .maintenance then
    let parents := s.licenses.select (fun _ parent => parent.hasActive id)
    pure (parents.foldl (fun s parentId => syncParentMirrorFields u parentId s) s)
  else pure s

/-- A row of the import that updates a stored licence, in its savepoint. -/
def importUpdateRow (env : Env) (id : Nat) (row : ParsedRow) (s : Store)
    : Except Failure Store := do
  let l ← found (s.license? id) (.http 404 "License not found")
  let s ← applyImportUpdate env.unicode id row l s
  flush (syncLicenseLine env.unicode id none s)

/-- One row of `run_import_rows`: an update where the row names a stored licence, else a new
licence.
-/
def importRow (env : Env) (progress : ImportProgress) (matched : Option Nat) (row : ParsedRow)
    (s : Store)
    : Except Failure Store :=
  match matched.filter (fun id => (s.license? id).isSome) with
  | some id => importUpdateRow env id row s
  | none => importNewRow env progress row s

end LicenseTrack
