import LicenseTrack.Model.Text

/-! The licence row. Its columns are grouped by the workflow that owns them, so that a
result about one workflow can say which columns the others leave alone.
-/

namespace LicenseTrack

/-- A calendar date by its ordinal number, so that later dates are larger. -/
abbrev Date := Nat

/-- `date.min`. -/
def dateMin : Date := 1

/-- A point in time. Only equality of times is ever used. -/
abbrev Timestamp := Nat

inductive LicenseType
  | subscription
  | perpetual
  | maintenance
  | saas
  | oem
  | freeware
  | service
  | other
deriving DecidableEq, Repr

/-- The stored value of a licence type. -/
def LicenseType.value : LicenseType → String
  | .subscription => "subscription"
  | .perpetual => "perpetual"
  | .maintenance => "maintenance"
  | .saas => "saas"
  | .oem => "oem"
  | .freeware => "freeware"
  | .service => "service"
  | .other => "other"

inductive MaintenanceCoverage
  | unknown
  | notApplicable
  | included
  | separatelyTracked
deriving DecidableEq, Repr

/-- The stored value of a coverage class. -/
def MaintenanceCoverage.value : MaintenanceCoverage → String
  | .unknown => "unknown"
  | .notApplicable => "not_applicable"
  | .included => "included"
  | .separatelyTracked => "separately_tracked"

inductive MaintenancePricingBasis
  | flat
  | perUnit
  | free
deriving DecidableEq, Repr

/-- The stored value of a pricing basis. -/
def MaintenancePricingBasis.value : MaintenancePricingBasis → String
  | .flat => "flat"
  | .perUnit => "per_unit"
  | .free => "free"

inductive LicenseMetric
  | perUser
  | perDevice
  | perCpu
  | perCore
  | site
  | concurrent
  | enterprise
  | other
  /-- A text that names no metric, which the column's type stores as it is. -/
  | unlisted (value : String)
deriving DecidableEq, Repr

/-- The stored value of a metric. -/
def LicenseMetric.value : LicenseMetric → String
  | .perUser => "per_user"
  | .perDevice => "per_device"
  | .perCpu => "per_cpu"
  | .perCore => "per_core"
  | .site => "site"
  | .concurrent => "concurrent"
  | .enterprise => "enterprise"
  | .other => "other"
  | .unlisted value => value

inductive LifecycleStatus
  | pendingRenewal
  | renewed
  | legacy
deriving DecidableEq, Repr

/-- `LicenseType(value)`, none standing for `ValueError`. -/
def LicenseType.ofValue? (value : String) : Option LicenseType :=
  [subscription, perpetual, maintenance, saas, oem, freeware, service, other].find?
    (fun t => t.value == value)

/-- `MaintenanceCoverage(value)`, none standing for `ValueError`. -/
def MaintenanceCoverage.ofValue? (value : String) : Option MaintenanceCoverage :=
  [unknown, notApplicable, included, separatelyTracked].find? (fun c => c.value == value)

/-- The metric that the column stores for a text. -/
def LicenseMetric.ofValue (value : String) : LicenseMetric :=
  ([perUser, perDevice, perCpu, perCore, site, concurrent, enterprise, other].find?
    (fun m => m.value == value)).getD (.unlisted value)

-- Column groups

/-- Identification, contacts, contract references, notes and flags. -/
structure LicenseDetails where
  publisherName : String
  publisherId : Option Nat := none
  softwareDescription : String
  licenseMetric : LicenseMetric
  portalUrl : Option String := none
  skuCode : String := ""
  noticeDate : Option Date := none
  noticeHandledAt : Option Timestamp := none
  noticeHandledByUserId : Option Nat := none
  contractNumber : String := ""
  contractId : Option Nat := none
  procurementReference : String := ""
  invoiceNumber : String := ""
  invoiceNumbers : List String := []
  requestDate : Option Timestamp := none
  purchaseDate : Option Timestamp := none
  contactEmail : String := ""
  supplier : String := ""
  supplierId : Option Nat := none
  costCentre : String := ""
  costCentreId : Option Nat := none
  budgetOwnerEmail : String := ""
  secondaryContacts : List String := []
  notes : Option String := none
  externalRef : Option String := none
  lastSyncedAt : Option Timestamp := none
  syncStatus : Option String := none
  isCompletenessExempt : Bool := false
  renewalNotificationsEnabled : Bool := true
deriving DecidableEq

/-- Type, quantity, prices and term. -/
structure LicenseTerms where
  licenseType : LicenseType
  isRenewable : Option Bool := none
  typeDescription : Option String := none
  quantity : String := ""
  quantityPerUnit : String := "1"
  unitPrice : String := ""
  totalPoPrice : String := ""
  startDate : Option Date := none
  endDate : Option Date := none
deriving DecidableEq

/-- Purchase order, bundle and the shared total of the purchase. -/
structure LicensePurchase where
  poNumber : String := ""
  currency : String := "EUR"
  poTotalOverride : Option String := none
  poLineId : Option Nat := none
  pendingOrderId : Option Nat := none
  procurementBundleId : Option String := none
  sourceSourcingItemId : Option Nat := none
deriving DecidableEq

/-- The mirror of a parent's active maintenance record, the columns that
`_MAINTENANCE_MIRROR_FIELDS` lists.
-/
structure MaintenanceMirror where
  activeMaintenanceId : Option Nat := none
  hasMaintenance : Bool := false
  maintenanceCoverage : MaintenanceCoverage := .unknown
  maintenanceStartDate : Option Date := none
  maintenanceEndDate : Option Date := none
  maintenancePricingBasis : Option MaintenancePricingBasis := none
  maintenanceQuantity : Option String := none
  maintenanceUnitPrice : Option String := none
  maintenanceCost : Option String := none
deriving DecidableEq

/-- A maintenance record's primary parent, and retirement. -/
structure LicenseStanding where
  parentLicenseId : Option Nat := none
  isLegacyUnlinkedMaintenance : Bool := false
  isRetired : Bool := false
  retirementScheduled : Bool := false
deriving DecidableEq

/-- One parent as `_snapshot_existing_maintenance_link` saves it. -/
structure ParentSnapshot where
  id : Nat
  added : Bool
  values : MaintenanceMirror
deriving DecidableEq

/-- `existing_successor_maintenance_state`. -/
structure MaintenanceLinkSnapshot where
  /-- The key is removed once the added rows are known. -/
  historyBefore : Option (List Nat) := none
  parents : List ParentSnapshot
  primary : Option Nat
  legacy : Bool
  addedHistoryIds : List Nat := []
deriving DecidableEq

/-- Renewal chain: status, the links to neighbours and the reference they share. -/
structure LicenseChain where
  lifecycleStatus : Option LifecycleStatus := none
  renewedFromId : Option Nat := none
  renewedToId : Option Nat := none
  predecessorId : Option Nat := none
  cotermFromIds : Option (List Nat) := none
  licenseRef : Option String := none
  licenseRefAliases : List String := []
  existingSuccessorLinkedAt : Option Timestamp := none
  existingSuccessorLinkedByEmail : Option String := none
  existingSuccessorMaintenanceState : Option MaintenanceLinkSnapshot := none
  existingSuccessorOriginalRef : Option String := none
deriving DecidableEq

/-- A row of the `licenses` table. -/
structure License extends LicenseDetails, LicenseTerms, LicensePurchase, MaintenanceMirror,
  LicenseStanding, LicenseChain
deriving DecidableEq

namespace License

/-- A licence of a type and a term as the simplest purchase records it. -/
def ofTerm (licenseType : LicenseType) (startDate endDate : Option Date) : License where
  publisherName := "Acme"
  softwareDescription := "Editor"
  licenseMetric := .perUser
  licenseType := licenseType
  startDate := startDate
  endDate := endDate

/-- `coterm_from_ids or []`. -/
def cotermIds (l : License) : List Nat := l.cotermFromIds.getD []

/-- The licence with another maintenance mirror. -/
def withMirror (l : License) (m : MaintenanceMirror) : License := { l with toMaintenanceMirror := m }

section WithMirror

variable (l : License) (m : MaintenanceMirror)

@[simp] theorem withMirror_mirror : (l.withMirror m).toMaintenanceMirror = m := rfl
@[simp] theorem withMirror_details : (l.withMirror m).toLicenseDetails = l.toLicenseDetails := rfl
@[simp] theorem withMirror_terms : (l.withMirror m).toLicenseTerms = l.toLicenseTerms := rfl
@[simp] theorem withMirror_purchase
    : (l.withMirror m).toLicensePurchase = l.toLicensePurchase := rfl
@[simp] theorem withMirror_standing
    : (l.withMirror m).toLicenseStanding = l.toLicenseStanding := rfl
@[simp] theorem withMirror_chain : (l.withMirror m).toLicenseChain = l.toLicenseChain := rfl
@[simp] theorem withMirror_self : l.withMirror l.toMaintenanceMirror = l := rfl
@[simp] theorem withMirror_withMirror (m' : MaintenanceMirror)
    : (l.withMirror m').withMirror m = l.withMirror m := rfl

end WithMirror

end License

/-- `ck_license_perpetual_no_end_date`. -/
def License.perpetualHasNoEndDate (l : License) : Prop :=
  ¬ (l.licenseType = .perpetual ∧ l.endDate ≠ none)

/-- `ck_license_maintenance_has_parent`. -/
def License.maintenanceHasParent (l : License) : Prop :=
  (l.licenseType = .maintenance ∧ l.parentLicenseId ≠ none
      ∧ l.isLegacyUnlinkedMaintenance = false)
  ∨ (l.licenseType = .maintenance ∧ l.parentLicenseId = none
      ∧ (l.isLegacyUnlinkedMaintenance = true ∨ l.isRetired = true))
  ∨ (l.licenseType ≠ .maintenance ∧ l.parentLicenseId = none
      ∧ l.isLegacyUnlinkedMaintenance = false)

/-- `ck_license_maintenance_link_consistency`. -/
def License.maintenanceLinkConsistent (l : License) : Prop :=
  (l.hasMaintenance = true ∧ l.activeMaintenanceId ≠ none)
  ∨ (l.hasMaintenance = false ∧ l.activeMaintenanceId = none)

/-- The check constraints of the `licenses` table. -/
structure License.Constraints (l : License) : Prop where
  perpetual : l.perpetualHasNoEndDate
  parent : l.maintenanceHasParent
  link : l.maintenanceLinkConsistent

instance (l : License) : Decidable l.perpetualHasNoEndDate :=
  inferInstanceAs (Decidable (¬ (_ ∧ _)))

instance (l : License) : Decidable l.maintenanceHasParent :=
  inferInstanceAs (Decidable (_ ∨ _ ∨ _))

instance (l : License) : Decidable l.maintenanceLinkConsistent :=
  inferInstanceAs (Decidable (_ ∨ _))

instance (l : License) : Decidable l.Constraints :=
  decidable_of_iff (l.perpetualHasNoEndDate ∧ l.maintenanceHasParent
      ∧ l.maintenanceLinkConsistent)
    ⟨fun h => ⟨h.1, h.2.1, h.2.2⟩, fun h => ⟨h.perpetual, h.parent, h.link⟩⟩

end LicenseTrack
