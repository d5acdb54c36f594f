import LicenseTrack.References.Directory
import LicenseTrack.Services.References

/-! The two directories with the rows that point into them, each with a mirror of the name it
points to, and the operations of the administration.
-/

namespace LicenseTrack.References

open Library

/-- An id column with the column that mirrors the name of the record. -/
structure Mirror where
  id : Option Nat
  name : Option String
deriving DecidableEq

/-- The columns of a licence that point to reference records. -/
structure LicenseMirrors where
  publisher : Mirror
  supplier : Mirror
  costCentre : Mirror
deriving DecidableEq

/-- The columns of a sourcing item that point to reference records. -/
structure ItemMirrors where
  publisher : Mirror
  supplier : Mirror
deriving DecidableEq

/-- A row of `user_department_access`. -/
structure UserDepartmentAccess where
  userId : Nat
  department : String
  costCentreId : Option Nat
deriving DecidableEq

/-- The tables with columns that point to reference records. -/
structure Mirrors where
  licenses : Table LicenseMirrors := .empty
  /-- The publishers of contracts. -/
  contracts : Table Mirror := .empty
  /-- The suppliers of sourcing requests. -/
  requests : Table Mirror := .empty
  items : Table ItemMirrors := .empty
  /-- The suppliers of pending orders. -/
  orders : Table Mirror := .empty
  viewers : Table UserDepartmentAccess := .empty
deriving DecidableEq

/-- The roles of an organisation. -/
structure OrganizationRoles where
  isPublisher : Bool
  isSupplier : Bool
deriving DecidableEq

structure ReferenceStore where
  organizations : Directory OrganizationRoles := {}
  costCentres : Directory Unit := {}
  mirrors : Mirrors := {}
deriving DecidableEq

namespace Mirror

/-- Moves the id column to another record. -/
def repoint (source target : Nat) (m : Mirror) : Mirror :=
  if m.id = some source then { m with id := some target } else m

/-- Writes the name of the record into the mirror. -/
def sync (id : Nat) (name : String) (m : Mirror) : Mirror :=
  if m.id = some id then { m with name := some name } else m

end Mirror

namespace Mirrors

/-- Rewrites every column pair that points to an organisation. -/
def mapOrganization (f : Mirror → Mirror) (s : Mirrors) : Mirrors :=
  { s with
    licenses := s.licenses.mapRows fun _ l =>
      { l with publisher := f l.publisher, supplier := f l.supplier }
    contracts := s.contracts.mapRows fun _ => f
    requests := s.requests.mapRows fun _ => f
    items := s.items.mapRows fun _ i => { publisher := f i.publisher, supplier := f i.supplier }
    orders := s.orders.mapRows fun _ => f }

/-- The updates of a merge of organisations. -/
def repointOrganization (source target : Nat) (s : Mirrors) : Mirrors :=
  s.mapOrganization (Mirror.repoint source target)

/-- `_sync_organization_mirrors`. -/
def syncOrganization (id : Nat) (name : String) (s : Mirrors) : Mirrors :=
  s.mapOrganization (Mirror.sync id name)

/-- The mirrors of organisations, whatever the table. -/
def organizationMirrors (s : Mirrors) : List Mirror :=
  s.licenses.entries.flatMap (fun e => [e.2.publisher, e.2.supplier])
    ++ s.contracts.entries.map (·.2) ++ s.requests.entries.map (·.2)
    ++ s.items.entries.flatMap (fun e => [e.2.publisher, e.2.supplier])
    ++ s.orders.entries.map (·.2)

/-- The total of `_organization_usage`. -/
def organizationUsage (s : Mirrors) (id : Nat) : Nat :=
  (s.licenses.select fun _ l => l.publisher.id == some id || l.supplier.id == some id).length
    + (s.contracts.select fun _ m => m.id == some id).length
    + (s.requests.select fun _ m => m.id == some id).length
    + (s.items.select fun _ i => i.publisher.id == some id || i.supplier.id == some id).length
    + (s.orders.select fun _ m => m.id == some id).length

/-- The publisher count of `_organization_role_usage`. -/
def publisherUsage (s : Mirrors) (id : Nat) : Nat :=
  (s.licenses.select fun _ l => l.publisher.id == some id).length
    + (s.contracts.select fun _ m => m.id == some id).length
    + (s.items.select fun _ i => i.publisher.id == some id).length

/-- The supplier count of `_organization_role_usage`. -/
def supplierUsage (s : Mirrors) (id : Nat) : Nat :=
  (s.licenses.select fun _ l => l.supplier.id == some id).length
    + (s.requests.select fun _ m => m.id == some id).length
    + (s.items.select fun _ i => i.supplier.id == some id).length
    + (s.orders.select fun _ m => m.id == some id).length

/-- The total of `_cost_centre_usage`. -/
def costCentreUsage (s : Mirrors) (id : Nat) : Nat :=
  (s.licenses.select fun _ l => l.costCentre.id == some id).length
    + (s.viewers.select fun _ a => a.costCentreId == some id).length

/-- The unique constraint of `user_department_access`. -/
def accessConstraint (s : Mirrors) : Except Failure PUnit :=
  require ((s.viewers.entries.map fun e => (e.2.userId, e.2.department)).Nodup)
    (.database "UNIQUE constraint failed: user_department_access.user_id, user_department_access.department")

/-- The assignment of a viewer to a cost centre that `_sync_cost_centre_mirrors` keeps: the
first that carries its name, else the first.
-/
def accessKeeper (s : Mirrors) (id : Nat) (name : String) (userId : Nat) : Option Nat :=
  let linked := s.viewers.select fun _ a => a.userId == userId && a.costCentreId == some id
  let named := s.viewers.select fun _ a =>
    a.userId == userId && a.costCentreId == some id && a.department == name
  named.head?.or linked.head?

/-- An assignment that `_sync_cost_centre_mirrors` would delete: it leads to the cost centre or
carries its name, and its viewer keeps another one.
-/
def redundantAccess (s : Mirrors) (id : Nat) (name : String) (key : Nat) (a : UserDepartmentAccess)
    : Bool :=
  (a.costCentreId == some id || a.department == name)
    && match s.accessKeeper id name a.userId with
      | some keeper => key != keeper
      | none => false

/-- `_sync_cost_centre_mirrors`. -/
def syncCostCentre (id : Nat) (name : String) (s : Mirrors) : Except Failure Mirrors := do
  require
    (s.viewers.select (fun key a => s.redundantAccess id name key a
      && a.costCentreId != none && a.costCentreId != some id) = [])
    (.http 409 "Viewer access contains conflicting cost-centre assignments that require admin action.")
  let synced : Mirrors :=
    { s with
      licenses := s.licenses.mapRows fun _ l => { l with costCentre := l.costCentre.sync id name }
      viewers := (s.viewers.filter fun key a => !s.redundantAccess id name key a).mapRows
        fun _ a => if a.costCentreId = some id then { a with department := name } else a }
  synced.accessConstraint
  pure synced

/-- Moves one viewer assignment of a merged cost centre, or drops it where the viewer has the
target already.
-/
def moveAccess (target : Nat) (targetName : String) (accessId : Nat) (s : Mirrors) : Mirrors :=
  match s.viewers.get? accessId with
  | none => s
  | some a =>
      if s.viewers.select (fun _ b => b.userId == a.userId && b.costCentreId == some target) = [] then
        { s with viewers := s.viewers.modify accessId fun a =>
            { a with costCentreId := some target, department := targetName } }
      else { s with viewers := s.viewers.filter fun key _ => key != accessId }

end Mirrors

/-- A failure with what the session had written when it was raised. -/
abbrev Raised := Failure × ReferenceStore

/-- Fails with what was written so far. -/
def raising {α : Type} (written : ReferenceStore) (x : Except Failure α) : Except Raised α :=
  match x with
  | .ok a => .ok a
  | .error failure => .error (failure, written)

theorem raising_eq_ok {α : Type} {written : ReferenceStore} {x : Except Failure α} {a : α}
    : raising written x = .ok a ↔ x = .ok a := by
  cases x <;> simp [raising]

/-- `begin_nested`: a failure rolls the session back to the savepoint. -/
def beginNested (body : ReferenceStore → Except Raised ReferenceStore) (s : ReferenceStore)
    : Except Failure Unit × ReferenceStore :=
  match body s with
  | .ok t => (.ok (), t)
  | .error raised => (.error raised.1, s)

namespace ReferenceStore

-- Organisations

/-- The roles of an organisation that is named in a role. -/
def touchRole (role : OrganizationRole) (roles : OrganizationRoles) : OrganizationRoles :=
  match role with
  | .publisher => { roles with isPublisher := true }
  | .supplier => { roles with isSupplier := true }

/-- `resolve_organization`. -/
def resolveOrganization (u : Unicode) (value : String) (role : OrganizationRole)
    (createIfMissing : Bool) (s : ReferenceStore)
    : Except Failure ReferenceStore := do
  let (_, directory) ← s.organizations.resolve u organizationTexts (touchRole role)
    (touchRole role ⟨false, false⟩) createIfMissing value
  pure { s with organizations := directory }

/-- `create_organization`. -/
def createOrganization (u : Unicode) (name : String) (roles : OrganizationRoles)
    (s : ReferenceStore)
    : Except Failure ReferenceStore := do
  require (roles.isPublisher || roles.isSupplier)
    (.http 422 "An organization must have a publisher or supplier role.")
  let (_, directory) ← s.organizations.create u organizationTexts roles name
  pure { s with organizations := directory }

/-- The name that a record has now. -/
def nameOf {ρ : Type} (d : Directory ρ) (id : Nat) : String :=
  ((d.records.get? id).map (·.name)).getD ""

/-- `update_organization`. -/
def updateOrganization (u : Unicode) (id : Nat) (name : Option String)
    (isPublisher isSupplier : Option Bool) (s : ReferenceStore)
    : Except Failure ReferenceStore := do
  let organization ← found (s.organizations.records.get? id) (.http 404 organizationTexts.notFound)
  let proposedPublisher := isPublisher.getD organization.roles.isPublisher
  let proposedSupplier := isSupplier.getD organization.roles.isSupplier
  require (proposedPublisher || proposedSupplier)
    (.http 422 "An organization must retain a publisher or supplier role.")
  require (proposedPublisher || s.mirrors.publisherUsage id == 0)
    (.http 409 "The publisher role cannot be removed while publisher records still reference it.")
  require (proposedSupplier || s.mirrors.supplierUsage id == 0)
    (.http 409 "The supplier role cannot be removed while supplier records still reference it.")
  let renamed ← match name with
    | some name => do
        let directory ← s.organizations.updateName u organizationTexts id organization name
        pure { s with
          organizations := directory
          mirrors := s.mirrors.syncOrganization id (nameOf directory id) }
    | none => pure s
  pure { renamed with organizations :=
    { renamed.organizations with
      records := renamed.organizations.records.modify id
        fun r => { r with roles := ⟨proposedPublisher, proposedSupplier⟩ } } }

/-- `add_organization_alias`. -/
def addOrganizationAlias (u : Unicode) (id : Nat) (name : String) (s : ReferenceStore)
    : Except Failure ReferenceStore := do
  let _ ← found (s.organizations.records.get? id) (.http 404 organizationTexts.notFound)
  let directory ← s.organizations.addAlias u organizationTexts id name
  pure { s with organizations := directory }

/-- `delete_alias` of an organisation. -/
def deleteOrganizationAlias (aliasId : Nat) (s : ReferenceStore)
    : Except Failure ReferenceStore := do
  let directory ← s.organizations.deleteAlias aliasId
  pure { s with organizations := directory }

/-- `set_active` of an organisation. -/
def setOrganizationActive (id : Nat) (active : Bool) (s : ReferenceStore)
    : Except Failure ReferenceStore := do
  let directory ← s.organizations.setActive id active
  pure { s with organizations := directory }

/-- `delete_organization`. -/
def deleteOrganization (id : Nat) (s : ReferenceStore) : Except Failure ReferenceStore := do
  let _ ← found (s.organizations.records.get? id) (.http 404 organizationTexts.notFound)
  require (s.mirrors.organizationUsage id = 0) (.http 409 organizationTexts.inUse)
  pure { s with organizations := s.organizations.remove id }

/-- One alias of a merged organisation, given to the target. -/
def transferOrganizationAlias (u : Unicode) (target : Nat) (name : String) (s : ReferenceStore)
    : Except Raised ReferenceStore := do
  let directory ← raising s (s.organizations.addAlias u organizationTexts target name)
  pure { s with organizations := directory }

/-- What `_merge_organizations` writes before it moves the aliases: the joined roles, the id
columns, and the source with its aliases gone.
-/
def absorbOrganization (source target : Nat) (roles : OrganizationRoles) (s : ReferenceStore)
    : ReferenceStore :=
  let joined : Directory OrganizationRoles :=
    { s.organizations with
      records := s.organizations.records.modify target fun r =>
        { r with roles :=
          ⟨r.roles.isPublisher || roles.isPublisher, r.roles.isSupplier || roles.isSupplier⟩ } }
  { s with
    organizations := joined.remove source
    mirrors := s.mirrors.repointOrganization source target }

/-- `_merge_organizations`. -/
def mergeOrganizationsBody (u : Unicode) (source target : Nat) (s : ReferenceStore)
    : Except Raised ReferenceStore := do
  let from' ← raising s
    (found (s.organizations.records.get? source) (.http 404 organizationTexts.mergeNotFound))
  let into ← raising s
    (found (s.organizations.records.get? target) (.http 404 organizationTexts.mergeNotFound))
  raising s (require (source ≠ target) (.http 409 organizationTexts.mergeIntoItself))
  raising s (require (into.isActive = true) (.http 409 "The merge target must be active."))
  let transferNames ← raising s
    (s.organizations.validateAliasTransfer u organizationTexts source target into.normalizedName []
      (s.organizations.ownNames source from'))
  let moved ← each (transferOrganizationAlias u target) transferNames
    (s.absorbOrganization source target from'.roles)
  pure { moved with mirrors := moved.mirrors.syncOrganization target into.name }

/-- `merge_organizations`. -/
def mergeOrganizations (u : Unicode) (source target : Nat) (s : ReferenceStore)
    : Except Failure Unit × ReferenceStore :=
  beginNested (mergeOrganizationsBody u source target) s

-- Cost centres

/-- `resolve_cost_centre`. -/
def resolveCostCentre (u : Unicode) (value : String) (createIfMissing : Bool) (s : ReferenceStore)
    : Except Failure ReferenceStore := do
  let (_, directory) ← s.costCentres.resolve u costCentreTexts id () createIfMissing value
  pure { s with costCentres := directory }

/-- `create_cost_centre`. -/
def createCostCentre (u : Unicode) (name : String) (s : ReferenceStore)
    : Except Failure ReferenceStore := do
  let (_, directory) ← s.costCentres.create u costCentreTexts () name
  pure { s with costCentres := directory }

/-- `update_cost_centre`. -/
def updateCostCentre (u : Unicode) (id : Nat) (name : Option String) (s : ReferenceStore)
    : Except Failure ReferenceStore := do
  let costCentre ← found (s.costCentres.records.get? id) (.http 404 costCentreTexts.notFound)
  match name with
  | some name =>
      let directory ← s.costCentres.updateName u costCentreTexts id costCentre name
      let mirrors ← s.mirrors.syncCostCentre id (nameOf directory id)
      pure { s with costCentres := directory, mirrors := mirrors }
  | none => pure s

/-- `add_cost_centre_alias`. -/
def addCostCentreAlias (u : Unicode) (id : Nat) (name : String) (s : ReferenceStore)
    : Except Failure ReferenceStore := do
  let _ ← found (s.costCentres.records.get? id) (.http 404 costCentreTexts.notFound)
  let directory ← s.costCentres.addAlias u costCentreTexts id name
  pure { s with costCentres := directory }

/-- `delete_alias` of a cost centre. -/
def deleteCostCentreAlias (aliasId : Nat) (s : ReferenceStore)
    : Except Failure ReferenceStore := do
  let directory ← s.costCentres.deleteAlias aliasId
  pure { s with costCentres := directory }

/-- `set_active` of a cost centre. -/
def setCostCentreActive (id : Nat) (active : Bool) (s : ReferenceStore)
    : Except Failure ReferenceStore := do
  let directory ← s.costCentres.setActive id active
  pure { s with costCentres := directory }

/-- `delete_cost_centre`. -/
def deleteCostCentre (id : Nat) (s : ReferenceStore) : Except Failure ReferenceStore := do
  let _ ← found (s.costCentres.records.get? id) (.http 404 costCentreTexts.notFound)
  require (s.mirrors.costCentreUsage id = 0) (.http 409 costCentreTexts.inUse)
  pure { s with costCentres := s.costCentres.remove id }

/-- One alias of a merged cost centre, given to the target. -/
def transferCostCentreAlias (u : Unicode) (target : Nat) (name : String) (s : ReferenceStore)
    : Except Raised ReferenceStore := do
  let directory ← raising s (s.costCentres.addAlias u costCentreTexts target name)
  pure { s with costCentres := directory }

/-- One viewer assignment of a merged cost centre, flushed before the next is looked at. -/
def transferAccess (target : Nat) (targetName : String) (accessId : Nat) (s : ReferenceStore)
    : Except Raised ReferenceStore := do
  let mirrors := s.mirrors.moveAccess target targetName accessId
  raising s mirrors.accessConstraint
  pure { s with mirrors := mirrors }

/-- `_merge_cost_centres`. -/
def mergeCostCentresBody (u : Unicode) (source target : Nat) (s : ReferenceStore)
    : Except Raised ReferenceStore := do
  let from' ← raising s
    (found (s.costCentres.records.get? source) (.http 404 costCentreTexts.mergeNotFound))
  let into ← raising s
    (found (s.costCentres.records.get? target) (.http 404 costCentreTexts.mergeNotFound))
  raising s (require (source ≠ target) (.http 409 costCentreTexts.mergeIntoItself))
  raising s (require (into.isActive = true) (.http 409 "The merge target must be active."))
  let transferNames ← raising s
    (s.costCentres.validateAliasTransfer u costCentreTexts source target into.normalizedName []
      (s.costCentres.ownNames source from'))
  let repointed :=
    { s with mirrors := { s.mirrors with
      licenses := s.mirrors.licenses.mapRows fun _ l =>
        { l with costCentre := l.costCentre.repoint source target } } }
  let assigned ← each (transferAccess target into.name)
    (s.mirrors.viewers.select fun _ a => a.costCentreId == some source) repointed
  let moved ← each (transferCostCentreAlias u target) transferNames
    { assigned with costCentres := assigned.costCentres.remove source }
  let mirrors ← raising moved (moved.mirrors.syncCostCentre target into.name)
  pure { moved with mirrors := mirrors }

/-- `merge_cost_centres`. -/
def mergeCostCentres (u : Unicode) (source target : Nat) (s : ReferenceStore)
    : Except Failure Unit × ReferenceStore :=
  beginNested (mergeCostCentresBody u source target) s

/-- What an administrator, or a write of other data, asks of the reference data. -/
inductive Request
  | resolveOrganization (value : String) (role : OrganizationRole) (createIfMissing : Bool)
  | createOrganization (name : String) (roles : OrganizationRoles)
  | updateOrganization (id : Nat) (name : Option String) (isPublisher isSupplier : Option Bool)
  | addOrganizationAlias (id : Nat) (name : String)
  | deleteOrganizationAlias (aliasId : Nat)
  | setOrganizationActive (id : Nat) (active : Bool)
  | deleteOrganization (id : Nat)
  | mergeOrganizations (source target : Nat)
  | resolveCostCentre (value : String) (createIfMissing : Bool)
  | createCostCentre (name : String)
  | updateCostCentre (id : Nat) (name : Option String)
  | addCostCentreAlias (id : Nat) (name : String)
  | deleteCostCentreAlias (aliasId : Nat)
  | setCostCentreActive (id : Nat) (active : Bool)
  | deleteCostCentre (id : Nat)
  | mergeCostCentres (source target : Nat)
  /-- Any write of licences, contracts, procurement records and viewer assignments. -/
  | writeMirrors (mirrors : Mirrors)

/-- The answer of a nested transaction, as a request that fails or commits. -/
def committed (x : Except Failure Unit × ReferenceStore) : Except Failure ReferenceStore :=
  match x.1 with
  | .ok _ => .ok x.2
  | .error failure => .error failure

/-- One request in a transaction of its own. -/
def step (u : Unicode) : Request → ReferenceStore → Except Failure ReferenceStore
  | .resolveOrganization value role createIfMissing =>
      resolveOrganization u value role createIfMissing
  | .createOrganization name roles => createOrganization u name roles
  | .updateOrganization id name isPublisher isSupplier =>
      updateOrganization u id name isPublisher isSupplier
  | .addOrganizationAlias id name => addOrganizationAlias u id name
  | .deleteOrganizationAlias aliasId => deleteOrganizationAlias aliasId
  | .setOrganizationActive id active => setOrganizationActive id active
  | .deleteOrganization id => deleteOrganization id
  | .mergeOrganizations source target => fun s => committed (mergeOrganizations u source target s)
  | .resolveCostCentre value createIfMissing => resolveCostCentre u value createIfMissing
  | .createCostCentre name => createCostCentre u name
  | .updateCostCentre id name => updateCostCentre u id name
  | .addCostCentreAlias id name => addCostCentreAlias u id name
  | .deleteCostCentreAlias aliasId => deleteCostCentreAlias aliasId
  | .setCostCentreActive id active => setCostCentreActive id active
  | .deleteCostCentre id => deleteCostCentre id
  | .mergeCostCentres source target => fun s => committed (mergeCostCentres u source target s)
  | .writeMirrors mirrors => fun s => .ok { s with mirrors := mirrors }

end ReferenceStore

end LicenseTrack.References
