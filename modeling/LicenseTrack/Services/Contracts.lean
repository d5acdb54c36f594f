import Mathlib.Data.List.Sort
import LicenseTrack.Access.Rules
import LicenseTrack.Services.References

/-! The contract routes: a contract number as the name of a contract, the licences that the number
or a link puts under it, and who may read it.
-/

namespace LicenseTrack

open Library

/-- A contract number as the queries normalise it, by SQLite's text functions. -/
def sqlContractNumber (contractNumber : String) : String := sqlLower (sqlTrim contractNumber)

/-- `contract_number_is_unambiguous`. Both of the numbers compared are normalised by SQLite. -/
def contractNumberIsUnambiguous (s : Store) (id : Nat) (contract : Contract) : Bool :=
  let normalizedNumber := sqlContractNumber contract.contractNumber
  normalizedNumber != ""
    && !s.contracts.entries.any (fun other =>
      other.1 != id && sqlContractNumber other.2.contractNumber == normalizedNumber)

/-- `license_contract_match`: an explicit link, or for a licence without one the number, which
SQLite normalises on the licence's side and Python on the contract's.
-/
def licenseContractMatch (u : Unicode) (s : Store) (id : Nat) (contract : Contract) (l : License)
    : Bool :=
  l.contractId == some id
    || (l.contractId.isNone
      && sqlContractNumber l.contractNumber == u.normalizeContractNumber contract.contractNumber
      && contractNumberIsUnambiguous s id contract)

/-- `find_contracts_by_number` with a contract to leave out. -/
def findOtherContractsByNumber (u : Unicode) (s : Store) (contractNumber : String)
    (excludeContractId : Option Nat)
    : List Nat :=
  (findContractsByNumber u s contractNumber).filter (fun id => excludeContractId != some id)

/-- `assert_unique_contract_number`. -/
def assertUniqueContractNumber (u : Unicode) (s : Store) (contractNumber : String)
    (excludeContractId : Option Nat)
    : Except Failure PUnit :=
  require (findOtherContractsByNumber u s contractNumber excludeContractId = [])
    (.http 409 "A contract with this contract number already exists.")

/-- `assert_contract_number_unambiguous`. -/
def assertContractNumberUnambiguous (u : Unicode) (s : Store) (contractNumber : String)
    (currentContractId : Nat)
    : Except Failure PUnit :=
  require (findOtherContractsByNumber u s contractNumber (some currentContractId) = [])
    (.http 409 ("Contract number is duplicated by another contract record. "
      ++ "Resolve duplicates before renaming."))

/-- The text fields of `ContractCreate` and `ContractUpdate`: their length, then
`require_text`.
-/
def requireText (value : String) : Except Failure String := do
  require (value.length ≤ 255) (.http 422 "String should have at most 255 characters")
  require (isBlank value = false) (.http 422 "Value error, must not be blank")
  pure (strip value)

/-- `require_text_when_supplied`. -/
def requireTextWhenSupplied : Option String → Except Failure (Option String)
  | none => pure none
  | some value => do
      let text ← requireText value
      pure (some text)

/-- `create_contract`, with the key of the new row. -/
def createContract (u : Unicode) (contractNumber publisherName : String) (s : Store)
    : Except Failure (Nat × Store) := do
  let contractNumber ← requireText contractNumber
  let publisherName ← requireText publisherName
  let contractNumber := strip contractNumber
  assertUniqueContractNumber u s contractNumber none
  let (name, publisherId, s) ← resolveOrganization u .publisher true publisherName s
  pure (s.contracts.nextKey,
    { s with
      contracts := s.contracts.insert
        { contractNumber, publisherName := name, publisherId := some publisherId } })

/-- The part of `update_contract` that decides the number. A contract whose number another one
also has cannot be given a different number.
-/
def updatedContractNumber (u : Unicode) (s : Store) (id : Nat) (contract : Contract)
    : Option String → Except Failure String
  | none => pure contract.contractNumber
  | some contractNumber =>
      let newContractNumber := strip contractNumber
      if contract.contractNumber = newContractNumber then do
        assertUniqueContractNumber u s newContractNumber (some id)
        pure newContractNumber
      else do
        assertContractNumberUnambiguous u s contract.contractNumber id
        assertUniqueContractNumber u s newContractNumber (some id)
        pure newContractNumber

/-- The part of `update_contract` that resolves the publisher. -/
def updatedContractPublisher (u : Unicode) (contract : Contract) (s : Store)
    : Option String → Except Failure (Contract × Store)
  | none => pure (contract, s)
  | some publisherName => do
      let (name, publisherId, s) ← resolveOrganization u .publisher true publisherName s
      pure ({ contract with publisherName := name, publisherId := some publisherId }, s)

/-- `update_contract`. A new number is also written to the licences linked to the contract. -/
def updateContract (u : Unicode) (id : Nat) (contractNumber publisherName : Option String)
    (s : Store)
    : Except Failure Store := do
  let contractNumber ← requireTextWhenSupplied contractNumber
  let publisherName ← requireTextWhenSupplied publisherName
  let contract ← found (s.contracts.get? id) (.http 404 "Contract not found")
  let newContractNumber ← updatedContractNumber u s id contract contractNumber
  let (updated, s) ← updatedContractPublisher u
    { contract with contractNumber := newContractNumber } s publisherName
  let s := { s with contracts := s.contracts.modify id (fun _ => updated) }
  if contract.contractNumber = newContractNumber then pure s
  else
    pure (s.mapLicenses (fun _ l =>
      if l.contractId = some id then { l with contractNumber := newContractNumber } else l))

/-- `delete_contract`, which leaves the licences of the contract unlinked. -/
def deleteContract (id : Nat) (s : Store) : Except Failure Store := do
  let _ ← found (s.contracts.get? id) (.http 404 "Contract not found")
  let s := s.mapLicenses (fun _ l =>
    if l.contractId = some id then { l with contractId := none } else l)
  pure { s with contracts := s.contracts.filter (fun key _ => key != id) }

/-- `can_view_contract`: every licence under the contract must be in the viewer's scope. -/
def canViewContract (u : Unicode) (access : List UserDepartmentAccess) (user : Actor) (s : Store)
    (id : Nat) (contract : Contract)
    : Bool :=
  match getUserDepartmentsForScope access user with
  | none => true
  | some departments =>
      if departments.isEmpty then false
      else
        let linked := s.licensesWhere (fun _ l => licenseContractMatch u s id contract l)
        !linked.isEmpty && linked.all (fun entry => entry.2.inDepartments departments)

/-- The query of `list_contracts` for a viewer: a contract is found through a linked licence of the
departments, or through the number of one without a link.
-/
def visibleContract (s : Store) (departments : List Nat) (id : Nat) (contract : Contract) : Bool :=
  let visibleContractIds :=
    (s.licensesWhere (fun _ l => l.inDepartments departments)).filterMap (·.2.contractId)
  let visibleLegacyNumbers :=
    (s.licensesWhere (fun _ l => l.contractId.isNone && l.inDepartments departments)).map
      (fun entry => sqlContractNumber entry.2.contractNumber)
  visibleContractIds.contains id
    || (visibleLegacyNumbers.contains (sqlContractNumber contract.contractNumber)
      && contractNumberIsUnambiguous s id contract)

/-- One page of a list. -/
def pageOf {α : Type} (limit : Option Nat) (offset : Nat) (rows : List α) : List α :=
  match limit with
  | none => rows.drop offset
  | some limit => (rows.drop offset).take limit

/-- `list_contracts`. A viewer's contracts are filtered before the page is cut out. -/
def listContracts (u : Unicode) (access : List UserDepartmentAccess) (user : Actor)
    (limit : Option Nat) (offset : Nat) (s : Store)
    : List (Nat × Contract) :=
  let rows := s.contracts.entries.insertionSort (fun a b => a.2.publisherName ≤ b.2.publisherName)
  if user.role = .viewer then
    let departments := getViewerDepartments access user.id
    if departments.isEmpty then []
    else
      let visible := rows.filter (fun row => visibleContract s departments row.1 row.2)
      pageOf limit offset (visible.filter (fun row => canViewContract u access user s row.1 row.2))
  else pageOf limit offset rows

/-- `get_contract`. -/
def getContract (u : Unicode) (access : List UserDepartmentAccess) (user : Actor) (id : Nat)
    (s : Store)
    : Except Failure (Nat × Contract) := do
  let contract ← found (s.contracts.get? id) (.http 404 "Contract not found")
  require (canViewContract u access user s id contract = true) (.http 404 "Contract not found")
  pure (id, contract)

/-- A write of the contract routes. -/
inductive ContractRequest
  | create (contractNumber publisherName : String)
  | update (id : Nat) (contractNumber publisherName : Option String)
  | delete (id : Nat)
deriving DecidableEq

/-- Runs a write of the contract routes. -/
def runContractRequest (u : Unicode) : ContractRequest → Store → Except Failure Store
  | .create contractNumber publisherName, s => do
      let (_, s) ← createContract u contractNumber publisherName s
      pure s
  | .update id contractNumber publisherName, s => updateContract u id contractNumber publisherName s
  | .delete id, s => deleteContract id s

end LicenseTrack
