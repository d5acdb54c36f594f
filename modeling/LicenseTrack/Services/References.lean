import LicenseTrack.Services.LicenseRules

/-! Reference records that a licence write resolves or issues: organisations, cost centres,
contracts, purchase-order lines and licence references.
-/

namespace LicenseTrack

open Library

/-- The reference number with its leading zeros. -/
def padReference (n : Nat) : String :=
  let digits := Nat.toDigits 10 n
  String.ofList (List.replicate (5 - digits.length) '0' ++ digits)

/-- `generate_license_ref`. -/
def generateLicenseRef (env : Env) (s : Store) : String × Store :=
  let value := s.licenseRefSequence + 1
  (s!"LT-{env.year}-{padReference value}", { s with licenseRefSequence := value })

theorem generateLicenseRef_ne (env : Env) (s : Store) : (generateLicenseRef env s).1 ≠ "" := by
  intro h
  have hl := congrArg (fun text => text.toList.head?) h
  simp [generateLicenseRef, toString] at hl

-- Organisations and cost centres

/-- The role in which an organisation is named. -/
inductive OrganizationRole
  | publisher
  | supplier
deriving DecidableEq

/-- `find_organization`. -/
def findOrganization (s : Store) (normalized : String) : Option (Nat × Organization) :=
  match s.organizations.entries.find? (fun entry => entry.2.normalizedName == normalized) with
  | some entry => some entry
  | none =>
      match s.organizationAliases.find? (fun entry => entry.normalizedName == normalized) with
      | some found => (s.organizations.get? found.recordId).map (fun o => (found.recordId, o))
      | none => none

/-- `find_cost_centre`. -/
def findCostCentre (s : Store) (normalized : String) : Option (Nat × CostCentre) :=
  match s.costCentres.entries.find? (fun entry => entry.2.normalizedName == normalized) with
  | some entry => some entry
  | none =>
      match s.costCentreAliases.find? (fun entry => entry.normalizedName == normalized) with
      | some found => (s.costCentres.get? found.recordId).map (fun c => (found.recordId, c))
      | none => none

/-- Marks an organisation as used in a role. -/
def Organization.withRole (o : Organization) : OrganizationRole → Organization
  | .publisher => { o with isPublisher := true }
  | .supplier => { o with isSupplier := true }

/-- `resolve_organization`, with the record's name and identifier as the callers use them. -/
def resolveOrganization (u : Unicode) (role : OrganizationRole) (createIfMissing : Bool)
    (value : String) (s : Store)
    : Except Failure (String × Nat × Store) := do
  let cleaned := u.cleanReferenceName value
  require (cleaned ≠ "") (.http 422 "Reference names cannot be blank")
  match findOrganization s (u.normalizeReferenceName cleaned) with
  | some (id, organization) =>
      require (organization.isActive = true)
        (.http 409 s!"Organization '{organization.name}' is inactive and requires admin action.")
      pure (organization.name, id,
        { s with organizations := s.organizations.modify id (·.withRole role) })
  | none =>
      require (createIfMissing = true) (.http 404 s!"No organization matches '{cleaned}'.")
      pure (cleaned, s.organizations.nextKey,
        { s with
          organizations := s.organizations.insert
            {
              name := cleaned
              normalizedName := u.normalizeReferenceName cleaned
              isPublisher := role = .publisher
              isSupplier := role = .supplier
              isActive := true
            } })

/-- `resolve_cost_centre`. -/
def resolveCostCentre (u : Unicode) (createIfMissing : Bool) (value : String) (s : Store)
    : Except Failure (String × Nat × Store) := do
  let cleaned := u.cleanReferenceName value
  require (cleaned ≠ "") (.http 422 "Reference names cannot be blank")
  match findCostCentre s (u.normalizeReferenceName cleaned) with
  | some (id, costCentre) =>
      require (costCentre.isActive = true)
        (.http 409 s!"Cost centre '{costCentre.name}' is inactive and requires admin action.")
      pure (costCentre.name, id, s)
  | none =>
      require (createIfMissing = true) (.http 404 s!"No cost centre matches '{cleaned}'.")
      pure (cleaned, s.costCentres.nextKey,
        { s with
          costCentres := s.costCentres.insert
            {
              name := cleaned
              normalizedName := u.normalizeReferenceName cleaned
              isActive := true
            } })

/-- The publisher part of `resolve_license_reference_fields` and of
`resolve_license_reference_updates`.
-/
def resolvePublisher (u : Unicode) (value : String) (d : LicenseDetails) (s : Store)
    : Except Failure (LicenseDetails × Store) := do
  require (isBlank value = false) (.http 422 "publisher_name is required")
  let (name, id, s) ← resolveOrganization u .publisher true value s
  pure ({ d with publisherName := name, publisherId := some id }, s)

/-- Their supplier part, which a blank name clears. -/
def resolveSupplier (u : Unicode) (value : String) (d : LicenseDetails) (s : Store)
    : Except Failure (LicenseDetails × Store) :=
  if isBlank value then .ok ({ d with supplier := "", supplierId := none }, s)
  else do
    let (name, id, s) ← resolveOrganization u .supplier true value s
    pure ({ d with supplier := name, supplierId := some id }, s)

/-- Their cost-centre part, which a blank name clears. -/
def resolveCostCentreField (u : Unicode) (value : String) (d : LicenseDetails) (s : Store)
    : Except Failure (LicenseDetails × Store) :=
  if isBlank value then .ok ({ d with costCentre := "", costCentreId := none }, s)
  else do
    let (name, id, s) ← resolveCostCentre u true value s
    pure ({ d with costCentre := name, costCentreId := some id }, s)

/-- `resolve_license_reference_fields`. -/
def resolveLicenseReferenceFields (u : Unicode) (d : LicenseDetails) (s : Store)
    : Except Failure (LicenseDetails × Store) := do
  let (d, s) ← resolvePublisher u d.publisherName d s
  let (d, s) ← resolveSupplier u d.supplier d s
  resolveCostCentreField u d.costCentre d s

/-- A reference step that an update may leave out. -/
def resolveIfGiven {α : Type} (value : Option α)
    (resolve : α → LicenseDetails → Store → Except Failure (LicenseDetails × Store))
    (d : LicenseDetails) (s : Store)
    : Except Failure (LicenseDetails × Store) :=
  match value with
  | some value => resolve value d s
  | none => .ok (d, s)

/-- `resolve_license_reference_updates`, writing into the details that the update leaves. -/
def resolveLicenseReferenceUpdates (u : Unicode) (publisherName supplier costCentre : Option String)
    (d : LicenseDetails) (s : Store)
    : Except Failure (LicenseDetails × Store) := do
  let (d, s) ← resolveIfGiven publisherName (resolvePublisher u) d s
  let (d, s) ← resolveIfGiven supplier (resolveSupplier u) d s
  resolveIfGiven costCentre (resolveCostCentreField u) d s

/-- `find_contracts_by_number`. The query compares SQLite's text functions with a number
normalised by Python's.
-/
def findContractsByNumber (u : Unicode) (s : Store) (contractNumber : String) : List Nat :=
  let normalized := u.normalizeContractNumber contractNumber
  if normalized = "" then []
  else s.contracts.select (fun _ c => sqlLower (sqlTrim c.contractNumber) == normalized)

/-- `resolve_contract_id_for_number`. -/
def resolveContractIdForNumber (u : Unicode) (s : Store) (contractNumber : String)
    : Except Failure (Option Nat) :=
  match findContractsByNumber u s contractNumber with
  | [] => .ok none
  | [id] => .ok (some id)
  | _ => .error (.http 409 "Contract number matches multiple contract records. Resolve duplicate contracts before linking licenses.")

/-- The line numbers issued on a purchase order. -/
def issuedNumbers (s : Store) (poKey : String) : List Nat :=
  (s.poLines.entries.filter (fun entry => entry.2.poKey == poKey)).map (·.2.lineNumber)

/-- `_next_free_number`. -/
def nextFreeNumber (s : Store) (poKey : String) : Nat :=
  (issuedNumbers s poKey).foldr max 0 + 1

/-- `allocate_line` on a number that is not blank, with the identifier of the new row. -/
def allocateLine (u : Unicode) (poNumber : String) (requested : Option Nat) (s : Store)
    : Nat × Store :=
  let poKey := u.normalizePoNumber poNumber
  let number := match requested with
    | some n => if 0 < n && !(issuedNumbers s poKey).contains n then n else nextFreeNumber s poKey
    | none => nextFreeNumber s poKey
  (s.poLines.nextKey,
    { s with
      poLines := s.poLines.insert { poKey, poNumber := joinWords poNumber, lineNumber := number } })

/-- The line that a licence's source line holds on a purchase order, if any. -/
def sourceLine? (s : Store) (l : License) (poKey : String) : Option Nat := do
  let itemId ← l.sourceSourcingItemId
  let item ← s.items.get? itemId
  let lineId ← item.poLineId
  let line ← s.poLines.get? lineId
  if line.poKey = poKey then some lineId else none

/-- `sync_license_line`. -/
def syncLicenseLine (u : Unicode) (id : Nat) (requested : Option Nat) (s : Store) : Store :=
  match s.license? id with
  | none => s
  | some l =>
      let poKey := u.normalizePoNumber l.poNumber
      let current := l.poLineId.bind s.poLines.get?
      if poKey = "" then s.modifyLicense id (fun l => { l with poLineId := none })
      else if (current.map (·.poKey)) = some poKey then s
      else match sourceLine? s l poKey with
        | some lineId => s.modifyLicense id (fun l => { l with poLineId := some lineId })
        | none =>
            let keep := current.map (·.lineNumber)
            let (lineId, s) := allocateLine u l.poNumber (requested.or keep) s
            s.modifyLicense id (fun l => { l with poLineId := some lineId })

end LicenseTrack
