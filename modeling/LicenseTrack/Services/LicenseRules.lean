import LicenseTrack.Model.Store

/-! The rules that a licence's own columns obey: what its type determines, included support,
term order, retirement and the maintenance relationship.
-/

namespace LicenseTrack

open Library

/-- `NON_EXPIRING_LICENSE_TYPES`, as `is_non_expiring_license_type` reads it. -/
def LicenseType.isNonExpiring : LicenseType → Bool
  | .perpetual | .oem | .freeware => true
  | _ => false

/-- `RENEWAL_OPT_IN_LICENSE_TYPES`. -/
def LicenseType.isRenewalOptIn : LicenseType → Bool
  | .service | .other => true
  | _ => false

/-- `MAINTENANCE_PARENT_TYPES`, which lists the same types as
`INCLUDED_SUPPORT_PARENT_TYPES`.
-/
def LicenseType.isMaintenanceParent : LicenseType → Bool
  | .perpetual | .oem | .freeware => true
  | _ => false

/-- `BUNDLED_INCLUDED_SUPPORT_TYPES`. -/
def LicenseType.isBundledSupport : LicenseType → Bool
  | .subscription | .saas => true
  | _ => false

/-- `is_renewable_license`. -/
def isRenewableLicense (licenseType : LicenseType) (isRenewable : Option Bool) : Bool :=
  !licenseType.isRenewalOptIn || isRenewable == some true

/-- The stored form of a type description, blank ones being dropped. -/
def cleanTypeDescription (description : Option String) : Option String :=
  match description with
  | some text => if isBlank text then none else some (strip text)
  | none => none

/-- `normalise_type_opt_in_fields`. -/
def normaliseTypeOptInFields (t : LicenseTerms) : LicenseTerms :=
  { t with
    isRenewable := if t.licenseType.isRenewalOptIn then t.isRenewable else none
    typeDescription :=
      if t.licenseType = .other then cleanTypeDescription t.typeDescription else none }

/-- `normalise_license_type_fields`. -/
def normaliseLicenseTypeFields (t : LicenseTerms) : LicenseTerms :=
  normaliseTypeOptInFields
    { t with
      unitPrice := if t.licenseType = .freeware then "" else t.unitPrice
      totalPoPrice := if t.licenseType = .freeware then "" else t.totalPoPrice
      endDate := if t.licenseType.isNonExpiring then none else t.endDate }

/-- `type_description_missing`. -/
def typeDescriptionMissing (licenseType : LicenseType) (description : Option String) : Bool :=
  licenseType == .other && isBlank (description.getD "")

/-- `validate_type_description`. -/
def validateTypeDescription (licenseType : LicenseType) (description : Option String)
    : Except Failure PUnit :=
  require (typeDescriptionMissing licenseType description = false)
    (.http 422 "Add a type description for an Other license")

/-- `validate_term_date_order`. -/
def validateTermDateOrder (startDate endDate : Option Date) : Except Failure PUnit :=
  match startDate, endDate with
  | some start, some finish =>
      require (¬ finish < start) (.value "End date cannot be before start date.")
  | _, _ => .ok ⟨⟩

/-- `validate_term_dates`. -/
def validateTermDates (startDate endDate : Option Date) : Except Failure PUnit :=
  asHttp 400 (validateTermDateOrder startDate endDate)

/-- `apply_bundled_included_support_defaults`, for a licence. -/
def applyBundledIncludedSupportDefaults (u : Unicode) (t : LicenseTerms) (m : MaintenanceMirror)
    : MaintenanceMirror :=
  if t.licenseType.isBundledSupport && m.maintenanceCoverage == .included then
    { m with
      maintenanceStartDate := t.startDate
      maintenanceEndDate := t.endDate
      maintenancePricingBasis := some .flat
      maintenanceQuantity := none
      maintenanceUnitPrice := none
      maintenanceCost :=
        match u.acquisitionTotal (some t.quantity) (some t.unitPrice) none with
        | some total => some total
        | none => m.maintenanceCost }
  else m

/-- `apply_included_support_defaults`, for a licence. -/
def applyIncludedSupportDefaults (u : Unicode) (t : LicenseTerms) (m : MaintenanceMirror)
    : MaintenanceMirror :=
  let perUnit :=
    if m.maintenanceCoverage = .included ∧ m.maintenancePricingBasis = some .perUnit then
      { m with
        maintenanceCost := u.perUnitSupportTotal m.maintenanceQuantity m.maintenanceUnitPrice }
    else m
  let free :=
    if m.maintenanceCoverage = .included ∧ m.maintenancePricingBasis = some .free then
      { perUnit with
        maintenanceQuantity := none
        maintenanceUnitPrice := none
        maintenanceCost := some "0" }
    else perUnit
  applyBundledIncludedSupportDefaults u t free

/-- `sync_support_defaults_on_license`. -/
def syncSupportDefaults (u : Unicode) (l : License) : License :=
  l.withMirror (applyIncludedSupportDefaults u l.toLicenseTerms l.toMaintenanceMirror)

/-- `has_included_support_data`. -/
def hasIncludedSupportData (m : MaintenanceMirror) : Bool :=
  m.maintenanceStartDate.isSome || m.maintenanceEndDate.isSome
    || (m.maintenanceCost.getD "") != ""

/-- What `normalize_retirement_update` leaves in an update for the two retirement columns;
none where it leaves a column out.
-/
structure RetirementUpdate where
  isRetired : Option Bool
  retirementScheduled : Option Bool

/-- `normalize_retirement_update`. The end date is the one of the update where it has one,
else the stored one, and `endDateGiven` says which.
-/
def normalizeRetirementUpdate (today : Date) (wasScheduled : Bool) (requested : Option Bool)
    (endDate : Option Date) (endDateGiven : Bool)
    : RetirementUpdate :=
  match requested with
  | some true =>
      match endDate with
      | some finish =>
          if today ≤ finish then ⟨some false, some true⟩ else ⟨some true, some false⟩
      | none => ⟨some true, some false⟩
  | some false => ⟨some false, some false⟩
  | none =>
      if wasScheduled && endDateGiven then
        let due := match endDate with
          | some finish => decide (finish < today)
          | none => true
        ⟨some due, some !due⟩
      else ⟨none, none⟩

/-- `default_maintenance_coverage`. -/
def defaultMaintenanceCoverage : LicenseType → MaintenanceCoverage
  | .subscription | .saas => .included
  | .maintenance | .service | .other => .notApplicable
  | _ => .unknown

/-- `coverage_after_type_change`. -/
def coverageAfterTypeChange (oldType newType : LicenseType) (current : MaintenanceCoverage)
    (activeMaintenanceId : Option Nat)
    : MaintenanceCoverage :=
  if activeMaintenanceId.isSome then .separatelyTracked
  else if oldType = newType ∨ (oldType.isMaintenanceParent ∧ newType.isMaintenanceParent) then
    current
  else defaultMaintenanceCoverage newType

/-- `assert_parent_type_eligible`. -/
def assertParentTypeEligible (id : Nat) (parent : License) : Except Failure PUnit :=
  require (parent.licenseType.isMaintenanceParent = true)
    (.value s!"parent_license_id={id} is {parent.licenseType.value}; maintenance can only attach to perpetual, oem, or freeware Licenses")

/-- `assert_parent_not_retired`. -/
def assertParentNotRetired (id : Nat) (parent : License) : Except Failure PUnit :=
  require (¬ (parent.isRetired = true ∨ parent.retirementScheduled = true))
    (.value s!"parent_license_id={id} is retired; cannot attach new maintenance")

/-- `assert_maintenance_requires_parent`. -/
def assertMaintenanceRequiresParent (licenseType : LicenseType) (parentId : Option Nat)
    : Except Failure PUnit :=
  require (¬ (licenseType = .maintenance ∧ parentId = none))
    (.value "Maintenance licenses require parent_license_id")

/-- `assert_non_maintenance_has_no_parent`. -/
def assertNonMaintenanceHasNoParent (licenseType : LicenseType) (parentId : Option Nat)
    : Except Failure PUnit :=
  require (¬ (licenseType ≠ .maintenance ∧ parentId ≠ none))
    (.value "parent_license_id is only valid for maintenance licenses")

/-- The message of both checks that guard a licence with active maintenance. -/
def activeMaintenanceMessage : String :=
  "This license has active maintenance. Disable maintenance tracking before changing the license type or retiring it."

/-- `assert_active_maintenance_allows_type_change`. -/
def assertActiveMaintenanceAllowsTypeChange (active : Option Nat) (newType : LicenseType)
    : Except Failure PUnit :=
  require (¬ (active ≠ none ∧ newType.isMaintenanceParent = false))
    (.value activeMaintenanceMessage)

/-- `assert_active_maintenance_allows_retirement`. -/
def assertActiveMaintenanceAllowsRetirement (active : Option Nat) (wasRetired nowRetired : Bool)
    : Except Failure PUnit :=
  require (¬ (active ≠ none ∧ nowRetired = true ∧ wasRetired = false))
    (.value activeMaintenanceMessage)

/-- `assert_active_maintenance_allows_coverage_change`. -/
def assertActiveMaintenanceAllowsCoverageChange (active : Option Nat)
    (coverage : MaintenanceCoverage)
    : Except Failure PUnit :=
  require (¬ (active ≠ none ∧ coverage ≠ .separatelyTracked))
    (.value "This license has an active maintenance record. Disable the linked contract before changing coverage away from separately tracked.")

/-- `assert_coverage_allowed_for_type`. -/
def assertCoverageAllowedForType (licenseType : LicenseType) (coverage : MaintenanceCoverage)
    : Except Failure PUnit :=
  require (coverage = .separatelyTracked → licenseType.isMaintenanceParent = true)
    (.value "Separately tracked maintenance is only valid for perpetual, oem, or freeware Licenses. Use included coverage for subscription or SaaS support bundled into the term.")

end LicenseTrack
