import LicenseTrack.Model.Store

/-! The read access of a user: departments, and the documents of a purchase with the licences
that they cover.
-/

namespace LicenseTrack

open Library

/-- `UserRole`. -/
inductive UserRole
  | admin
  | editor
  | viewer
deriving DecidableEq

/-- What the access rules read of a user. -/
structure Actor where
  id : Nat
  role : UserRole
deriving DecidableEq

/-- A row of `user_department_access`. -/
structure UserDepartmentAccess where
  userId : Nat
  costCentreId : Option Nat
deriving DecidableEq

/-- `get_viewer_departments`. -/
def getViewerDepartments (access : List UserDepartmentAccess) (userId : Nat) : List Nat :=
  (access.filter (·.userId == userId)).filterMap (·.costCentreId)

/-- `get_user_departments_for_scope`: none for a role that reads everything. -/
def getUserDepartmentsForScope (access : List UserDepartmentAccess) (user : Actor)
    : Option (List Nat) :=
  if user.role = .viewer then some (getViewerDepartments access user.id) else none

/-- Whether a licence is in one of the departments. -/
def License.inDepartments (departments : List Nat) (l : License) : Bool :=
  l.costCentreId.any departments.contains

/-- `can_view_license`. The cost centre 0 counts as none. -/
def canViewLicense (access : List UserDepartmentAccess) (user : Actor) (l : License) : Bool :=
  match getUserDepartmentsForScope access user with
  | none => true
  | some departments => l.costCentreId.any (fun id => id != 0 && departments.contains id)

/-- What scoping reads of a row of `procurement_documents`. -/
structure ProcurementDocument where
  targetSourcingItemId : Option Nat := none
  pendingOrderId : Option Nat := none
  sharedPoNumber : Option String := none
  licenseId : Option Nat := none
  procurementBundleId : Option String := none
deriving DecidableEq

/-- `select(License).where(..)`. -/
def Store.licensesWhere (s : Store) (p : Nat → License → Bool) : List (Nat × License) :=
  s.licenses.entries.filter (fun entry => p entry.1 entry.2)

/-- `get_procurement_document_licenses`. -/
def getProcurementDocumentLicenses (u : Unicode) (s : Store) (document : ProcurementDocument)
    : List (Nat × License) :=
  match document.targetSourcingItemId with
  | some itemId => s.licensesWhere (fun _ l => l.sourceSourcingItemId == some itemId)
  | none =>
      match document.pendingOrderId with
      | some orderId => s.licensesWhere (fun _ l => l.pendingOrderId == some orderId)
      | none =>
          match document.sharedPoNumber with
          | some number =>
              s.licensesWhere (fun _ l =>
                u.normalizePoNumber l.poNumber == u.normalizePoNumber number)
          | none =>
              match document.licenseId with
              | some licenseId => s.licensesWhere (fun id _ => id == licenseId)
              | none =>
                  match document.procurementBundleId with
                  | some bundleId =>
                      s.licensesWhere (fun _ l => l.procurementBundleId == some bundleId)
                  | none => []

/-- `can_view_procurement_document`. -/
def canViewProcurementDocument (access : List UserDepartmentAccess) (user : Actor)
    (licenses : List (Nat × License))
    : Bool :=
  match getUserDepartmentsForScope access user with
  | none => true
  | some departments =>
      !licenses.isEmpty && licenses.all (fun entry => entry.2.inDepartments departments)

end LicenseTrack
