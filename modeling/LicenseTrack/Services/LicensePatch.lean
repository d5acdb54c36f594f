import LicenseTrack.Services.LicenseUpdate

/-! The update of one field of a licence (PATCH). -/

namespace LicenseTrack

open Library

/-- The text fields that a patch writes without further rules. -/
inductive PlainPatchField
  | softwareDescription
  | portalUrl
  | quantity
  | quantityPerUnit
  | skuCode
  | unitPrice
  | totalPoPrice
  | procurementReference
  | contactEmail
  | budgetOwnerEmail
  | notes
deriving DecidableEq

/-- `DATE_PATCH_FIELDS`. -/
inductive DatePatchField
  | startDate
  | endDate
  | noticeDate
deriving DecidableEq

/-- `DATETIME_PATCH_FIELDS`. -/
inductive TimePatchField
  | requestDate
  | purchaseDate
deriving DecidableEq

/-- The fields that name reference records. -/
inductive ReferencePatchField
  | publisherName
  | supplier
  | costCentre
deriving DecidableEq

/-- `ALLOWED_PATCH_FIELDS`, each with its value. Dates and times are given as parsed. -/
inductive LicensePatch
  | plain (field : PlainPatchField) (value : Option String)
  | licenseMetric (value : Option String)
  | date (field : DatePatchField) (value : Option Date)
  | time (field : TimePatchField) (value : Option Timestamp)
  | licenseType (value : Option String)
  | maintenanceCoverage (value : Option String)
  | contractNumber (value : Option String)
  | invoiceNumber (value : Option String)
  | poNumber (value : Option String)
  | currency (value : Option String)
  | reference (field : ReferencePatchField) (value : Option String)
deriving DecidableEq

/-- The parts of a text between the given separators. -/
def splitOnChar (separator : Char) : List Char → List (List Char)
  | [] => [[]]
  | c :: rest =>
      match splitOnChar separator rest with
      | [] => [[]]
      | head :: tail => if c = separator then [] :: head :: tail else (c :: head) :: tail

/-- `_is_valid_email`. -/
def isValidEmail (value : String) : Bool :=
  !value.toList.any isSpace
    && match splitOnChar '@' value.toList with
      | [localPart, domain] =>
          !localPart.isEmpty && !domain.isEmpty
            && let labels := splitOnChar '.' domain
              2 ≤ labels.length
                && labels.all (fun label => !label.isEmpty && label.head? != some '-'
                  && label.getLast? != some '-')
      | _ => false

/-- The check of a field of `REQUIRED_PATCH_FIELDS`. -/
def requirePatchValue (field : String) (value : Option String) : Except Failure PUnit :=
  require (isBlank (value.getD "") = false) (.http 400 s!"Field '{field}' cannot be empty.")

/-- The check of a field of `NUMERIC_PATCH_FIELDS`. -/
def requirePatchNumber (u : Unicode) (field : String) (value : Option String)
    : Except Failure PUnit :=
  require (value.getD "" = "" ∨ u.isCanonicalMoney (value.getD "") = true)
    (.http 400 (s!"Invalid numeric value for '{field}'. "
      ++ "Expected a plain decimal string such as '1234.50'."))

/-- The check of a field of `EMAIL_PATCH_FIELDS`. -/
def requirePatchEmail (field : String) (value : Option String) : Except Failure PUnit :=
  require (value.getD "" = "" ∨ isValidEmail (value.getD "") = true)
    (.http 400 s!"Invalid email format for '{field}'.")

/-- `validate_patch_field_input`. -/
def validatePatchFieldInput (u : Unicode) : LicensePatch → Except Failure PUnit
  | .plain .softwareDescription value => requirePatchValue "softwareDescription" value
  | .plain .quantity value => requirePatchNumber u "quantity" value
  | .plain .quantityPerUnit value => requirePatchNumber u "quantityPerUnit" value
  | .plain .unitPrice value => requirePatchNumber u "unitPrice" value
  | .plain .totalPoPrice value => requirePatchNumber u "totalPoPrice" value
  | .plain .contactEmail value => requirePatchEmail "contactEmail" value
  | .plain .budgetOwnerEmail value => requirePatchEmail "budgetOwnerEmail" value
  | .licenseMetric value => requirePatchValue "licenseMetric" value
  | .licenseType value => requirePatchValue "licenseType" value
  | .currency value => requirePatchValue "currency" value
  | .reference .publisherName value => requirePatchValue "publisherName" value
  | .maintenanceCoverage value =>
      require ((value.bind MaintenanceCoverage.ofValue?).isSome = true)
        (.http 400 ("Invalid maintenance coverage: " ++ value.getD "None"))
  | _ => .ok ⟨⟩

-- Writing one field

/-- The `else` branch of the patch. Missing values of blankable texts count as empty. -/
def License.setPlain (field : PlainPatchField) (value : Option String) (l : License) : License :=
  match field with
  | .softwareDescription => { l with softwareDescription := value.getD "" }
  | .portalUrl => { l with portalUrl := value }
  | .quantity => { l with quantity := value.getD "" }
  | .quantityPerUnit => { l with quantityPerUnit := value.getD "" }
  | .skuCode => { l with skuCode := value.getD "" }
  | .unitPrice => { l with unitPrice := value.getD "" }
  | .totalPoPrice => { l with totalPoPrice := value.getD "" }
  | .procurementReference => { l with procurementReference := value.getD "" }
  | .contactEmail => { l with contactEmail := value.getD "" }
  | .budgetOwnerEmail => { l with budgetOwnerEmail := value.getD "" }
  | .notes => { l with notes := value }

/-- The date branch of the patch, past its check. -/
def License.setDate (field : DatePatchField) (value : Option Date) (l : License) : License :=
  match field with
  | .startDate => { l with startDate := value }
  | .endDate => { l with endDate := if l.licenseType.isNonExpiring then none else value }
  | .noticeDate =>
      { l with
        noticeDate := value
        noticeHandledAt := if value = l.noticeDate then l.noticeHandledAt else none
        noticeHandledByUserId := if value = l.noticeDate then l.noticeHandledByUserId else none }

/-- The time branch of the patch. -/
def License.setTime (field : TimePatchField) (value : Option Timestamp) (l : License) : License :=
  match field with
  | .requestDate => { l with requestDate := value }
  | .purchaseDate => { l with purchaseDate := value }

/-- The checks of `apply_license_type_patch`. -/
def assertTypePatchAllowed (l : License) (newType : LicenseType) : Except Failure PUnit :=
  asHttp 400 (do
    if ¬ (newType = .maintenance ∧ l.licenseType = .maintenance
        ∧ l.isLegacyUnlinkedMaintenance = true ∧ l.parentLicenseId = none) then
      assertMaintenanceRequiresParent newType l.parentLicenseId
    assertNonMaintenanceHasNoParent newType l.parentLicenseId
    assertActiveMaintenanceAllowsTypeChange l.activeMaintenanceId newType)

/-- The row that `apply_license_type_patch` leaves. -/
def License.setType (u : Unicode) (newType : LicenseType) (l : License) : License :=
  let coverage :=
    coverageAfterTypeChange l.licenseType newType l.maintenanceCoverage l.activeMaintenanceId
  syncSupportDefaults u
    { l with
      toLicenseTerms :=
        normaliseLicenseTypeFields { l.toLicenseTerms with licenseType := newType }
      maintenanceCoverage := coverage
      isLegacyUnlinkedMaintenance :=
        if newType = .maintenance then l.isLegacyUnlinkedMaintenance else false }

/-- A reference step of the patch, writing into the stored row. -/
def patchReference (u : Unicode) (id : Nat) (field : ReferencePatchField) (value : Option String)
    (l : License) (s : Store)
    : Except Failure Store := do
  let text := value.getD ""
  let (details, s) ← match field with
    | .publisherName => resolvePublisher u text l.toLicenseDetails s
    | .supplier => resolveSupplier u text l.toLicenseDetails s
    | .costCentre => resolveCostCentreField u text l.toLicenseDetails s
  pure (s.modifyLicense id (·.withDetails details))

/-- The field-specific part of `apply_license_field_patch`. -/
def patchField (u : Unicode) (id : Nat) (patch : LicensePatch) (l : License) (s : Store)
    : Except Failure Store :=
  match patch with
  | .date field value => do
      validateTermDates (if field = .startDate then value else l.startDate)
        (if field = .endDate then value else l.endDate)
      pure (s.modifyLicense id (·.setDate field value))
  | .time field value => .ok (s.modifyLicense id (·.setTime field value))
  | .licenseType value => do
      let newType ← found (value.bind LicenseType.ofValue?)
        (.http 400 ("Invalid license type: " ++ value.getD "None"))
      let s := snapshotIncludedSupportBeforeTypeChange id newType s
      assertTypePatchAllowed l newType
      pure (s.modifyLicense id (·.setType u newType))
  | .maintenanceCoverage value => do
      let coverage ← found (value.bind MaintenanceCoverage.ofValue?)
        (.http 400 "not a valid MaintenanceCoverage")
      asHttp 400 (do
        assertActiveMaintenanceAllowsCoverageChange l.activeMaintenanceId coverage
        assertCoverageAllowedForType l.licenseType coverage)
      let s := s.modifyLicense id (fun l => { l with maintenanceCoverage := coverage })
      pure (recordIncludedSupportExit u id l.maintenanceCoverage s)
  | .contractNumber value => do
      let s := s.modifyLicense id (fun l => { l with contractNumber := value.getD "" })
      let contractId ← resolveContractIdForNumber u s (value.getD "")
      pure (s.modifyLicense id (fun l => { l with contractId := contractId }))
  | .invoiceNumber value =>
      let primary := value.getD ""
      .ok (s.modifyLicense id (fun l =>
        { l with
          invoiceNumber := primary
          invoiceNumbers := if primary = "" then [] else [primary] }))
  | .poNumber value =>
      let number := value.getD ""
      let override := resolveReassignedPoTotalOverride u s id l number l.currency
      let s := s.modifyLicense id (fun l =>
        { l with poTotalOverride := override, poNumber := number })
      .ok (syncLicenseLine u id none s)
  | .currency value =>
      let currency := value.getD ""
      let override := resolveReassignedPoTotalOverride u s id l l.poNumber currency
      .ok (s.modifyLicense id (fun l =>
        { l with poTotalOverride := override, currency := currency }))
  | .reference field value => patchReference u id field value l s
  | .licenseMetric value =>
      .ok (s.modifyLicense id (fun l =>
        { l with licenseMetric := LicenseMetric.ofValue (value.getD "") }))
  | .plain field value => .ok (s.modifyLicense id (·.setPlain field value))

/-- The rescheduling of a retirement after a patch moved the end date. -/
def License.rescheduled (today : Date) (l : License) : License :=
  let update := normalizeRetirementUpdate today l.retirementScheduled none l.endDate true
  { l with
    isRetired := update.isRetired.getD l.isRetired
    retirementScheduled := update.retirementScheduled.getD l.retirementScheduled }

/-- `apply_license_field_patch`. -/
def applyLicenseFieldPatch (env : Env) (id : Nat) (patch : LicensePatch) (s : Store)
    : Except Failure Store := do
  validatePatchFieldInput env.unicode patch
  let l ← found (s.license? id) (.http 404 "License not found")
  let s ← patchField env.unicode id patch l s
  let s := s.modifyLicense id (fun row =>
    syncSupportDefaults env.unicode
      (if l.endDate ≠ row.endDate then row.rescheduled env.today else row))
  let row ← found (s.license? id) (.http 404 "License not found")
  if row.startDate ≠ l.startDate ∨ row.endDate ≠ l.endDate then
    validateEstablishedRenewalTerms s row
  let s :=
    if row.isRetired = true ∧ l.isRetired = false ∧ row.licenseType = .maintenance then
      retireMaintenanceLicense id s
    else s
  pure (syncActiveMaintenanceParentIfNeeded env.unicode id s)

/-- The patch request: the patch and the commit. -/
def patchLicense (env : Env) (id : Nat) (patch : LicensePatch) (s : Store)
    : Except Failure Store := do
  let s ← applyLicenseFieldPatch env id patch s
  flush s

end LicenseTrack
