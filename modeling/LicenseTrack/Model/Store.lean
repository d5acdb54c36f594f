import LicenseTrack.Library.Outcome
import LicenseTrack.Library.Table
import LicenseTrack.Model.License

/-! The database of one installation, what a request reads from its surroundings, and how a
request fails.
-/

namespace LicenseTrack

open Library

/-- A row of `license_maintenance_links`, whose two columns are its primary key. -/
structure MaintenanceLink where
  maintenanceLicenseId : Nat
  parentLicenseId : Nat
deriving DecidableEq

/-- A row of `license_coverage_history`. -/
structure CoverageHistory where
  parentLicenseId : Nat
  maintenanceLicenseId : Option Nat
  coverageType : String
  sourceType : String
  startDate : Option Date
  endDate : Option Date
  pricingBasis : Option MaintenancePricingBasis
  quantity : Option String
  unitPrice : Option String
  cost : Option String
  currency : String
deriving DecidableEq

inductive SourcingStatus
  | sourcing
  | converted
  | cancelled
deriving DecidableEq, Repr

/-- A row of `sourcing_requests`. -/
structure SourcingRequest where
  supplier : Option String := none
  supplierId : Option Nat := none
  contactEmail : Option String := none
  notes : Option String := none
  status : SourcingStatus := .sourcing
deriving DecidableEq

/-- A row of `sourcing_items`. -/
structure SourcingItem where
  sourcingRequestId : Option Nat := none
  publisherName : String
  publisherId : Option Nat := none
  softwareDescription : String
  licenseType : Option LicenseType := none
  licenseMetric : Option LicenseMetric := none
  portalUrl : Option String := none
  isRenewable : Option Bool := none
  typeDescription : Option String := none
  maintenanceParentLicenseId : Option Nat := none
  maintenanceCoverage : Option MaintenanceCoverage := none
  maintenanceStartDate : Option Date := none
  maintenanceEndDate : Option Date := none
  maintenancePricingBasis : Option MaintenancePricingBasis := none
  maintenanceQuantity : Option String := none
  maintenanceUnitPrice : Option String := none
  maintenanceCost : Option String := none
  parentSourcingItemId : Option Nat := none
  successorSourcingItemId : Option Nat := none
  quantity : Option String := none
  quantityPerUnit : Option String := none
  skuCode : Option String := none
  estimatedUnitPrice : Option String := none
  estimatedTotalPrice : Option String := none
  currency : String := "EUR"
  startDate : Option Date := none
  endDate : Option Date := none
  noticeDate : Option Date := none
  purchaseDate : Option Date := none
  contractNumber : Option String := none
  invoiceNumber : Option String := none
  externalRef : Option String := none
  supplier : Option String := none
  supplierId : Option Nat := none
  contactEmail : Option String := none
  costCentre : Option String := none
  budgetOwnerEmail : Option String := none
  secondaryContacts : List String := []
  notes : Option String := none
  status : SourcingStatus := .sourcing
  pendingOrderId : Option Nat := none
  poLineId : Option Nat := none
  createdAt : Timestamp := 0
  renewalForLicenseId : Option Nat := none
  cotermPredecessorIds : Option (List Nat) := none
deriving DecidableEq

inductive PendingOrderStatus
  | pending
  | invoiceReceived
  | converted
  | cancelled
deriving DecidableEq, Repr

/-- A row of `pending_orders`. -/
structure PendingOrder where
  poNumber : String
  procurementReference : String := ""
  supplier : Option String := none
  supplierId : Option Nat := none
  notes : Option String := none
  poTotalOverride : Option String := none
  status : PendingOrderStatus := .pending
deriving DecidableEq

/-- A row of `po_line_register`. -/
structure PoLineRegister where
  poKey : String
  poNumber : String
  lineNumber : Nat
deriving DecidableEq

/-- A row of `organizations`. -/
structure Organization where
  name : String
  normalizedName : String
  isPublisher : Bool
  isSupplier : Bool
  isActive : Bool
deriving DecidableEq

/-- A row of `cost_centres`. -/
structure CostCentre where
  name : String
  normalizedName : String
  isActive : Bool
deriving DecidableEq

/-- A row of an alias table: another normalised name of one reference record. -/
structure ReferenceAlias where
  normalizedName : String
  recordId : Nat
deriving DecidableEq

/-- A row of `contracts`. -/
structure Contract where
  contractNumber : String
  publisherName : String := ""
  publisherId : Option Nat := none
deriving DecidableEq

/-- The tables that the licence, procurement and renewal services read and write. -/
structure Store where
  licenses : Table License := .empty
  links : List MaintenanceLink := []
  history : Table CoverageHistory := .empty
  requests : Table SourcingRequest := .empty
  items : Table SourcingItem := .empty
  orders : Table PendingOrder := .empty
  poLines : Table PoLineRegister := .empty
  organizations : Table Organization := .empty
  organizationAliases : List ReferenceAlias := []
  costCentres : Table CostCentre := .empty
  costCentreAliases : List ReferenceAlias := []
  contracts : Table Contract := .empty
  licenseRefSequence : Nat := 0
deriving DecidableEq

namespace Store

/-- `db.get(License, id)`. -/
def license? (s : Store) (id : Nat) : Option License := s.licenses.get? id

/-- Writes columns of one licence. -/
def modifyLicense (s : Store) (id : Nat) (f : License → License) : Store :=
  { s with licenses := s.licenses.modify id f }

/-- Writes columns of every licence. -/
def mapLicenses (s : Store) (f : Nat → License → License) : Store :=
  { s with licenses := s.licenses.mapRows f }

/-- Writes columns of one sourcing line. -/
def modifyItem (s : Store) (id : Nat) (f : SourcingItem → SourcingItem) : Store :=
  { s with items := s.items.modify id f }

@[simp] theorem license?_mapLicenses (s : Store) (f : Nat → License → License) (id : Nat)
    : (s.mapLicenses f).license? id = (s.license? id).map (f id) :=
  Table.get?_mapRows _ _ _

theorem license?_modifyLicense (s : Store) (changed : Nat) (f : License → License) (id : Nat)
    : (s.modifyLicense changed f).license? id
      = (s.license? id).map (fun l => if id = changed then f l else l) :=
  Table.get?_modify _ _ _ _

@[simp] theorem license?_modifyLicense_self (s : Store) (id : Nat) (f : License → License)
    : (s.modifyLicense id f).license? id = (s.license? id).map f :=
  Table.get?_modify_self _ _ _

theorem license?_modifyLicense_ne {id changed : Nat} (s : Store) (f : License → License)
    (h : id ≠ changed)
    : (s.modifyLicense changed f).license? id = s.license? id :=
  Table.get?_modify_ne _ _ h

end Store

/-- What a request reads from outside the database: the clock, the signed-in user, the
settings, fresh identifiers and the Unicode tables.
-/
structure Env where
  today : Date
  now : Timestamp
  year : Nat
  actorEmail : String
  actionDays : Nat
  notificationDays : Nat
  /-- `uuid4()`, which is never the empty text. -/
  uuid : String
  uuid_ne : uuid ≠ ""
  unicode : Unicode

/-- The surroundings on one day under the default settings. -/
def Env.onDay (today : Date) : Env where
  today := today
  now := today
  year := 2026
  actorEmail := "admin@example.com"
  actionDays := 90
  notificationDays := 90
  uuid := "7c9e6679"
  uuid_ne := by decide
  unicode := .ascii

/-- The check constraints that a flush evaluates. -/
inductive CheckConstraint
  | perpetualNoEndDate
  | maintenanceHasParent
  | maintenanceLinkConsistency
  | maintenanceLinkNotSelf
deriving DecidableEq, Repr

/-- How a request ends when it does not commit. -/
inductive Failure
  /-- `HTTPException`. -/
  | http (status : Nat) (detail : String)
  /-- `ValueError`. -/
  | value (message : String)
  /-- `IntegrityError`, raised by a check constraint. -/
  | integrity (constraint : CheckConstraint)
  /-- Any other error of the database layer. -/
  | database (message : String)
deriving DecidableEq

/-- Turns a `ValueError` into the client error its caller raises for it. -/
def asHttp {α : Type} (status : Nat) (x : Except Failure α) : Except Failure α :=
  match x with
  | .error (.value message) => .error (.http status message)
  | other => other

@[simp] theorem asHttp_eq_ok {α : Type} {status : Nat} {x : Except Failure α} {a : α}
    : asHttp status x = .ok a ↔ x = .ok a := by
  unfold asHttp
  split <;> simp_all

/-- Loads a row or fails as told. -/
def found {α : Type} (x : Option α) (failure : Failure) : Except Failure α :=
  match x with
  | some a => .ok a
  | none => .error failure

@[simp] theorem found_eq_ok {α : Type} {x : Option α} {failure : Failure} {a : α}
    : found x failure = .ok a ↔ x = some a := by
  cases x <;> simp [found]

/-- The first check constraint that a licence row violates. -/
def License.violated? (l : License) : Option CheckConstraint :=
  if ¬ l.perpetualHasNoEndDate then some .perpetualNoEndDate
  else if ¬ l.maintenanceHasParent then some .maintenanceHasParent
  else if ¬ l.maintenanceLinkConsistent then some .maintenanceLinkConsistency
  else none

theorem License.violated?_eq_none {l : License} : l.violated? = none ↔ l.Constraints := by
  unfold License.violated?
  constructor
  · intro h
    split_ifs at h with hp hm hl
    exact ⟨by simpa using hp, by simpa using hm, by simpa using hl⟩
  · rintro ⟨hp, hm, hl⟩
    simp [hp, hm, hl]

/-- The first check constraint that some row of the store violates. -/
def Store.violated? (s : Store) : Option CheckConstraint :=
  if s.links.any (fun link => link.maintenanceLicenseId == link.parentLicenseId) then
    some .maintenanceLinkNotSelf
  else s.licenses.entries.findSome? (fun entry => entry.2.violated?)

/-- Writes the session's pending rows, which makes the database check its constraints. -/
def flush (s : Store) : Except Failure Store :=
  match s.violated? with
  | some constraint => .error (.integrity constraint)
  | none => .ok s

/-- Every licence row satisfies the check constraints, and no record is linked to itself. -/
structure Store.Constraints (s : Store) : Prop where
  licenses : ∀ id l, s.license? id = some l → l.Constraints
  links : ∀ link ∈ s.links, link.maintenanceLicenseId ≠ link.parentLicenseId

theorem Store.violated?_eq_none {s : Store} : s.violated? = none ↔ s.Constraints := by
  unfold Store.violated?
  constructor
  · intro h
    split at h
    · cases h
    · next hl =>
        refine ⟨fun id l hid => ?_, fun link hm => ?_⟩
        · exact License.violated?_eq_none.mp
            (List.findSome?_eq_none_iff.mp h (id, l) (Table.get?_eq_some.mp hid))
        · simp only [List.any_eq_true, beq_iff_eq, not_exists, not_and] at hl
          exact hl link hm
  · rintro ⟨hl, hk⟩
    rw [if_neg]
    · exact List.findSome?_eq_none_iff.mpr fun entry he =>
        License.violated?_eq_none.mpr (hl entry.1 entry.2 (Table.get?_eq_some.mpr he))
    · simp only [List.any_eq_true, beq_iff_eq, not_exists, not_and]
      exact hk

theorem flush_eq_ok {s t : Store} : flush s = .ok t ↔ s = t ∧ s.Constraints := by
  unfold flush
  rw [← Store.violated?_eq_none]
  split <;> simp_all

end LicenseTrack
