import Mathlib.Algebra.Order.Ring.Unbundled.Rat
import LicenseTrack.References.ReferenceStore
import LicenseTrack.Services.ImportRun

/-! The reference data of a confirmed import: the publishers, suppliers and cost centres that its
rows name, the decisions taken for them in the preview, the validation of these decisions, and the
run that resolves each name just before it writes the row.
-/

namespace LicenseTrack.References

open Library

inductive ReferenceKind
  | organization
  | costCentre
deriving DecidableEq

/-- The columns of a row that name reference records. -/
inductive ReferenceColumn
  | publisher
  | supplier
  | costCentre
deriving DecidableEq

def ReferenceColumn.kind : ReferenceColumn → ReferenceKind
  | .publisher | .supplier => .organization
  | .costCentre => .costCentre

structure ReferenceCell where
  column : ReferenceColumn
  value : String
deriving DecidableEq

/-- What a candidate is known by: its kind and its comparable name. -/
abbrev CandidateKey : Type := ReferenceKind × String

/-- `_candidate_key`. -/
def candidateKey (u : Unicode) (kind : ReferenceKind) (value : String) : CandidateKey :=
  (kind, u.normalizeReferenceName value)

/-- The candidate that a cell is shown as. -/
def ReferenceCell.key (u : Unicode) (cell : ReferenceCell) : CandidateKey :=
  candidateKey u cell.column.kind (u.cleanReferenceName cell.value)

/-- A cell that is not empty. -/
def cellOf (column : ReferenceColumn) (value : String) : List ReferenceCell :=
  if value = "" then [] else [⟨column, value⟩]

/-- `_row_reference_values`. -/
def rowReferenceValues (row : ImportRow) : List ReferenceCell :=
  (if row.publisherName ≠ "" then [⟨.publisher, row.publisherName⟩]
    else if row.importAction ≠ .update then [⟨.publisher, "Unknown"⟩] else [])
  ++ cellOf .supplier row.supplier ++ cellOf .costCentre row.costCentre

/-- A text contains a part, as Python's `in` tests it. -/
def containsText (part text : String) : Bool := text.toList.tails.any part.toList.isPrefixOf

/-- `_row_can_be_reference_candidate`. -/
def rowCanBeReferenceCandidate (u : Unicode) (row : ImportRow) : Bool :=
  !row.isError || row.isMaintenance && row.validationErrors ≠ []
    && row.validationErrors.all (fun error =>
      containsText "parent_license_ref" error || containsText "maintenance parent" (u.lower error))

/-- The tables of reference data. -/
structure ReferenceTables where
  organizations : Directory OrganizationRoles := {}
  costCentres : Directory Unit := {}
deriving DecidableEq

/-- `_SIMILARITY_THRESHOLD`. -/
def similarityThreshold : Rat := 82 / 100

/-- The set of the words of a text. -/
def wordSet (text : String) : List (List Char) := (splitWords text.toList []).dedup

/-- Every word of the smaller set is in the larger one, which has more words. -/
def wordsWithin (left right : List (List Char)) : Bool :=
  let shorter := if left.length ≤ right.length then left else right
  let longer := if left.length ≤ right.length then right else left
  shorter ≠ [] && shorter.all longer.contains && shorter.length < longer.length
    && 5 ≤ ([' '].intercalate shorter).length

/-- `_similarity_score`, over the ratio of a sequence matcher. -/
def similarityScore (ratio : String → String → Rat) (left right : String) : Rat :=
  if wordsWithin (wordSet left) (wordSet right) then max (ratio left right) (86 / 100)
  else ratio left right

namespace Directory

variable {ρ : Type}

/-- `_reference_records`, with the identifiers. -/
def referenceRecords (d : Directory ρ) : List (Nat × Reference ρ) :=
  d.records.entries.insertionSort (fun a b => a.2.name ≤ b.2.name)

/-- The aliases of a record. -/
def aliasesOf (d : Directory ρ) (id : Nat) : List Alias :=
  (d.aliases.entries.map (·.2)).filter (·.ownerId == id)

/-- `_match_record`. -/
def matchRecord (d : Directory ρ) (normalized : String) : Option (Nat × Reference ρ) :=
  d.referenceRecords.find? (fun entry =>
    entry.2.normalizedName == normalized
      || (d.aliasesOf entry.1).any (·.normalizedName == normalized))

/-- `_record_similarity_score`. -/
def recordSimilarityScore (d : Directory ρ) (ratio : String → String → Rat) (normalized : String)
    (entry : Nat × Reference ρ)
    : Rat :=
  (d.aliasesOf entry.1).foldl
    (fun best a => max best (similarityScore ratio normalized a.normalizedName))
    (similarityScore ratio normalized entry.2.normalizedName)

/-- `_possible_matches`: the most similar ones first, and not more than three. -/
def possibleMatches (d : Directory ρ) (ratio : String → String → Rat) (normalized : String)
    : List (Nat × Reference ρ) :=
  let score := d.recordSimilarityScore ratio normalized
  ((d.referenceRecords.filter (fun entry => similarityThreshold ≤ score entry)).insertionSort
    (fun a b => score b < score a ∨ score a = score b ∧ a.2.name ≤ b.2.name)).take 3

end Directory

/-- A name that the rows of a file use, in its first spelling. -/
structure Candidate where
  kind : ReferenceKind
  candidateKey : CandidateKey
  proposedName : String
deriving DecidableEq

/-- The status of a candidate in the preview. -/
inductive CandidateStatus
  | matched
  | inactiveConflict
  | possibleDuplicate
  | new
deriving DecidableEq

/-- `_add_candidate`. -/
def addCandidate (u : Unicode) (candidates : List Candidate) (cell : ReferenceCell)
    : Except Failure (List Candidate) := do
  let cleaned ← cleanName u cell.value
  let key := candidateKey u cell.column.kind cleaned
  if candidates.any (·.candidateKey == key) then pure candidates
  else pure (candidates ++ [⟨cell.column.kind, key, cleaned⟩])

/-- The other candidates of the file that a name is similar to. -/
def batchPossible (u : Unicode) (ratio : String → String → Rat) (candidates : List Candidate)
    (candidate : Candidate)
    : List Candidate :=
  candidates.filter (fun other =>
    other.kind == candidate.kind && other.candidateKey != candidate.candidateKey
      && similarityThreshold
        ≤ similarityScore ratio (u.normalizeReferenceName candidate.proposedName)
            (u.normalizeReferenceName other.proposedName))

/-- How one candidate stands beside the stored records and the other candidates. -/
def Directory.candidateStatus {ρ : Type} (d : Directory ρ) (u : Unicode)
    (ratio : String → String → Rat) (candidates : List Candidate) (candidate : Candidate)
    : CandidateStatus :=
  let normalized := u.normalizeReferenceName candidate.proposedName
  match d.matchRecord normalized with
  | some (_, record) => if record.isActive then .matched else .inactiveConflict
  | none =>
      if (d.possibleMatches ratio normalized).isEmpty
          && (batchPossible u ratio candidates candidate).isEmpty then .new
      else .possibleDuplicate

/-- How one candidate stands, among the records of its kind. -/
def ReferenceTables.candidateStatus (tables : ReferenceTables) (u : Unicode)
    (ratio : String → String → Rat) (candidates : List Candidate) (candidate : Candidate)
    : CandidateStatus :=
  match candidate.kind with
  | .organization => tables.organizations.candidateStatus u ratio candidates candidate
  | .costCentre => tables.costCentres.candidateStatus u ratio candidates candidate

/-- The text that candidates are first sorted by. -/
def ReferenceKind.text : ReferenceKind → String
  | .organization => "organization"
  | .costCentre => "cost_centre"

/-- `build_reference_summary`: the candidates of a file with their status. -/
def buildReferenceSummary (u : Unicode) (ratio : String → String → Rat) (tables : ReferenceTables)
    (rows : List ImportRow)
    : Except Failure (List (Candidate × CandidateStatus)) := do
  let cells := (rows.filter (rowCanBeReferenceCandidate u)).flatMap rowReferenceValues
  let candidates ← cells.foldlM (addCandidate u) []
  let sorted := candidates.insertionSort (fun a b =>
    a.kind.text < b.kind.text
      ∨ a.kind = b.kind ∧ u.casefold a.proposedName ≤ u.casefold b.proposedName)
  pure (sorted.map (fun candidate =>
    (candidate, tables.candidateStatus u ratio candidates candidate)))

-- Decisions

inductive DecisionAction
  | acceptNew
  | mapExisting
  | keepSeparate
deriving DecidableEq

/-- `ImportReferenceOverride`, for the candidate it is looked up by. -/
structure ReferenceDecision where
  action : DecisionAction
  targetId : Option Nat := none
  targetName : Option String := none
  displayName : Option String := none
deriving DecidableEq

/-- The decisions of an import, none twice for one candidate. -/
abbrev ReferenceDecisions : Type := CandidateKey → Option ReferenceDecision

/-- `_conflict` of the import. -/
def referenceConflict (detail : String) : Failure := .http 409 detail

/-- The validation so far: the names without a decision, and the display names that candidates
were accepted under.
-/
structure ReferencePlan where
  missing : List String := []
  plannedNewNames : List (CandidateKey × CandidateKey) := []

/-- The checks of a decision that maps a candidate to a stored record. -/
def Directory.validateTarget {ρ : Type} (d : Directory ρ) (u : Unicode)
    (decision : ReferenceDecision)
    : Except Failure PUnit :=
  let name := decision.targetName.getD ""
  match decision.targetId with
  | none => .error (referenceConflict
      "Mapped reference decisions require a target ID and previewed target name.")
  | some targetId => do
      require (strip name ≠ "") (referenceConflict
        "Mapped reference decisions require a target ID and previewed target name.")
      match d.records.get? targetId with
      | none => .error (referenceConflict
          "The selected reference was deleted or merged after preview.")
      | some target => do
          let cleaned ← cleanName u name
          require (target.name = cleaned) (referenceConflict
            "The selected reference was renamed after preview; preview the import again.")
          require (target.isActive = true) (referenceConflict
            s!"Reference '{target.name}' is inactive and requires admin action.")

/-- The checks of a decision that accepts a candidate as a new record. -/
def Directory.validateDisplayName {ρ : Type} (d : Directory ρ) (u : Unicode)
    (candidate : Candidate) (decision : ReferenceDecision) (plan : ReferencePlan)
    : Except Failure ReferencePlan := do
  let name := decision.displayName.getD ""
  require (strip name ≠ "")
    (referenceConflict "New reference decisions require a canonical display name.")
  let displayName ← cleanName u name
  let plannedKey := candidateKey u candidate.kind displayName
  require (∀ entry ∈ plan.plannedNewNames,
      entry.1 = plannedKey → entry.2 = candidate.candidateKey)
    (referenceConflict
      s!"Canonical display name '{displayName}' was selected for multiple candidates.")
  require ((d.matchRecord plannedKey.2).isNone = true) (referenceConflict
    (s!"Reference name '{displayName}' now belongs to an existing record; "
      ++ "preview the import again."))
  pure { plan with
    plannedNewNames := (plannedKey, candidate.candidateKey) :: plan.plannedNewNames }

/-- One turn of the loop of `validate_reference_overrides`, among the records of one kind. -/
def Directory.validateCandidate {ρ : Type} (d : Directory ρ) (u : Unicode)
    (candidate : Candidate) (status : CandidateStatus) (decision : Option ReferenceDecision)
    (plan : ReferencePlan)
    : Except Failure ReferencePlan :=
  match decision with
  | none =>
      if status = .possibleDuplicate ∨ status = .inactiveConflict then
        pure { plan with missing := plan.missing ++ [candidate.proposedName] }
      else pure plan
  | some decision => do
      require (status ≠ .matched) (referenceConflict
        (s!"Reference data for '{candidate.proposedName}' changed after preview; "
          ++ "preview the import again."))
      require (status = .inactiveConflict → decision.action = .mapExisting) (referenceConflict
        (s!"Inactive reference '{candidate.proposedName}' must be mapped to an active "
          ++ "reference."))
      if decision.action = .mapExisting then
        d.validateTarget u decision
        pure plan
      else d.validateDisplayName u candidate decision plan

/-- One turn of the loop of `validate_reference_overrides`. -/
def ReferenceTables.validateCandidate (tables : ReferenceTables) (u : Unicode)
    (decisions : ReferenceDecisions) (plan : ReferencePlan)
    (entry : Candidate × CandidateStatus)
    : Except Failure ReferencePlan :=
  let decision := decisions entry.1.candidateKey
  match entry.1.kind with
  | .organization => tables.organizations.validateCandidate u entry.1 entry.2 decision plan
  | .costCentre => tables.costCentres.validateCandidate u entry.1 entry.2 decision plan

/-- The rows that are to be written. -/
def activeRows (rows : List ImportRow) (skipped : List Nat) : List ImportRow :=
  rows.filter (fun row => !row.isError && !skipped.contains row.rowNumber)

/-- `validate_reference_overrides`. -/
def validateReferenceOverrides (u : Unicode) (ratio : String → String → Rat)
    (tables : ReferenceTables) (rows : List ImportRow) (skipped : List Nat)
    (decisions : ReferenceDecisions)
    : Except Failure PUnit := do
  let summary ← buildReferenceSummary u ratio tables (activeRows rows skipped)
  let plan ← summary.foldlM (tables.validateCandidate u decisions) {}
  require (plan.missing = []) (referenceConflict
    ("Reference-data decisions are required for " ++ ", ".intercalate (plan.missing.take 5)
      ++ (if plan.missing.length ≤ 5 then "" else s!" and {plan.missing.length - 5} more") ++ "."))

-- Resolving

/-- What the messages about a kind of reference data say. -/
structure DecisionTexts where
  noun : String
  mappedNoun : String
  capitalized : String

def organizationDecisionTexts : DecisionTexts := ⟨"organization", "organization", "Organization"⟩

def costCentreDecisionTexts : DecisionTexts := ⟨"cost centre", "cost-centre", "Cost centre"⟩

/-- `_override_resolution_value`. -/
def overrideResolutionValue (cleaned : String) (decision : Option ReferenceDecision) : String :=
  match decision with
  | some decision =>
      if decision.action = .mapExisting then cleaned
      else orElse (decision.displayName.getD "") cleaned
  | none => cleaned

namespace Directory

variable {ρ : Type}

/-- `_mapped_override_target`, for a decision that maps. -/
def mappedOverrideTarget (d : Directory ρ) (u : Unicode) (texts : DecisionTexts)
    (decision : ReferenceDecision)
    : Except Failure (Nat × Reference ρ) :=
  match decision.targetId with
  | none => .error (referenceConflict s!"A mapped {texts.mappedNoun} override requires targetId.")
  | some targetId =>
      match d.records.get? targetId with
      | none => .error (referenceConflict
          s!"The selected {texts.noun} was deleted or merged after preview.")
      | some record => do
          let changed := referenceConflict
            s!"The selected {texts.noun} changed after preview; preview the import again."
          require (decision.targetName.getD "" ≠ "") changed
          let cleaned ← cleanName u (decision.targetName.getD "")
          require (record.name = cleaned) changed
          require (record.isActive = true) (referenceConflict
            s!"{texts.capitalized} '{record.name}' is inactive and requires admin action.")
          pure (targetId, record)

/-- Marks the roles in which a record is named. -/
def touched (d : Directory ρ) (touch : ρ → ρ) (id : Nat) : Directory ρ :=
  { d with records := d.records.modify id (fun r => { r with roles := touch r.roles }) }

/-- The checks before a name is resolved: it leads to no inactive record, and a new name without a
decision has no possible matches.
-/
def checkResolvable (d : Directory ρ) (u : Unicode) (ratio : String → String → Rat)
    (texts : DecisionTexts) (decision : Option ReferenceDecision) (cleaned name : String)
    : Except Failure PUnit :=
  let normalized := u.normalizeReferenceName name
  match d.find normalized with
  | some (_, before) =>
      require (before.isActive = true) (referenceConflict
        s!"{texts.capitalized} '{before.name}' is inactive and requires admin action.")
  | none =>
      require ((decision.isSome || (d.possibleMatches ratio normalized).isEmpty) = true)
        (referenceConflict
          (s!"{texts.capitalized} '{cleaned}' has possible duplicates and requires an import "
            ++ "decision."))

/-- Resolves a name, creating a record for a new one, and marks the roles that it is named in. -/
def resolveNamed (d : Directory ρ) (u : Unicode) (referenceTexts : ReferenceTexts) (touch : ρ → ρ)
    (roles : ρ) (name : String)
    : Except Failure ((String × Nat) × Directory ρ) := do
  let (id, resolved) ← d.resolve u referenceTexts touch roles true name
  pure ((((resolved.records.get? id).map (·.name)).getD "", id), resolved.touched touch id)

/-- `_resolve_organization_value` and `_resolve_cost_centre_value`: the name and the identifier of
the record that a cell leads to.
-/
def resolveValue (d : Directory ρ) (u : Unicode) (ratio : String → String → Rat)
    (referenceTexts : ReferenceTexts) (texts : DecisionTexts) (touch : ρ → ρ) (roles : ρ)
    (decision : Option ReferenceDecision) (value : String)
    : Except Failure ((String × Nat) × Directory ρ) := do
  let cleaned ← cleanName u value
  match decision.filter (·.action == .mapExisting) with
  | some mapping => do
      let (id, record) ← d.mappedOverrideTarget u texts mapping
      pure ((record.name, id), d.touched touch id)
  | none => do
      let name := overrideResolutionValue cleaned decision
      d.checkResolvable u ratio texts decision cleaned name
      d.resolveNamed u referenceTexts touch roles name

end Directory

/-- The role in which an organisation is named. -/
def OrganizationRoles.withColumn (column : ReferenceColumn) (roles : OrganizationRoles)
    : OrganizationRoles :=
  match column with
  | .publisher => { roles with isPublisher := true }
  | .supplier => { roles with isSupplier := true }
  | .costCentre => roles

/-- The record that a cell leads to under the decisions, looked up by the cell's own text. -/
def resolveCell (u : Unicode) (ratio : String → String → Rat) (decisions : ReferenceDecisions)
    (cell : ReferenceCell) (tables : ReferenceTables)
    : Except Failure ((String × Nat) × ReferenceTables) :=
  let decision := decisions (candidateKey u cell.column.kind cell.value)
  match cell.column.kind with
  | .organization =>
      (fun found => (found.1, { tables with organizations := found.2 }))
        <$> tables.organizations.resolveValue u ratio organizationTexts organizationDecisionTexts
          (·.withColumn cell.column) (OrganizationRoles.withColumn cell.column ⟨false, false⟩)
          decision cell.value
  | .costCentre =>
      (fun found => (found.1, { tables with costCentres := found.2 }))
        <$> tables.costCentres.resolveValue u ratio costCentreTexts costCentreDecisionTexts id ()
          decision cell.value

/-- A cell with the name and the identifier of the record that it led to. -/
abbrev ResolvedCell : Type := ReferenceCell × String × Nat

/-- The cells of a row, each behind the one before. -/
def resolveCells (u : Unicode) (ratio : String → String → Rat) (decisions : ReferenceDecisions)
    : List ReferenceCell → ReferenceTables → Except Failure (List ResolvedCell × ReferenceTables)
  | [], tables => pure ([], tables)
  | cell :: rest, tables => do
      let (found, tables) ← resolveCell u ratio decisions cell tables
      let (others, tables) ← resolveCells u ratio decisions rest tables
      pure ((cell, found) :: others, tables)

/-- The cells that `_resolve_import_row_references` resolves. -/
def cellsToResolve (isUpdate : Bool) (row : ImportRow) : List ReferenceCell :=
  (if row.publisherName ≠ "" ∨ isUpdate = false then
      [⟨.publisher, orElse row.publisherName "Unknown"⟩]
    else [])
  ++ cellOf .supplier row.supplier ++ cellOf .costCentre row.costCentre

/-- The record that one of a row's cells led to. -/
def resolvedAs (resolved : List ResolvedCell) (column : ReferenceColumn) : Option (String × Nat) :=
  (resolved.find? (·.1.column == column)).map (·.2)

/-- The row with the names and the identifiers of the records that its cells led to. -/
def withReferences (resolved : List ResolvedCell) (row : ImportRow) : ImportRow :=
  let publisher := resolvedAs resolved .publisher
  let supplier := resolvedAs resolved .supplier
  let costCentre := resolvedAs resolved .costCentre
  { row with
    publisherName := (publisher.map (·.1)).getD row.publisherName
    resolvedPublisherId := publisher.map (·.2)
    supplier := (supplier.map (·.1)).getD row.supplier
    resolvedSupplierId := supplier.map (·.2)
    costCentre := (costCentre.map (·.1)).getD row.costCentre
    resolvedCostCentreId := costCentre.map (·.2) }

/-- What a failure to resolve aborts the import with. -/
def asConflict : Failure → Failure
  | .http _ detail => referenceConflict detail
  | failure => failure

/-- A run with its reference data: the tables, the rest of the run, and the records that the cells
of the written rows led to.
-/
structure ReferenceRun where
  tables : ReferenceTables
  run : ImportRun
  ended : List ResolvedCell := []

/-- One turn of the loop of `run_import_rows`, as a confirmed import calls it. -/
def referenceTurn (env : Env) (ratio : String → String → Rat) (decisions : ReferenceDecisions)
    (updateExisting : Bool) (skipped : List Nat) (state : ReferenceRun) (row : ImportRow)
    : Except Failure ReferenceRun :=
  if skipped.contains row.rowNumber || row.isError then
    .ok { state with run := importTurn env updateExisting skipped state.run row }
  else
    let isUpdate := (row.target updateExisting state.run.store).isSome
    match resolveCells env.unicode ratio decisions (cellsToResolve isUpdate row) state.tables with
    | .error failure => .error (asConflict failure)
    | .ok (resolved, tables) =>
        let run := importTurn env updateExisting skipped state.run (withReferences resolved row)
        -- A row that fails behind its references takes them back with it.
        if run.outcomes.head?.any (·.2.isImported) then
          .ok { tables := tables, run := run, ended := state.ended ++ resolved }
        else .ok { state with run := run }

/-- `run_import_rows`, as a confirmed import calls it. -/
def runDecidedRows (env : Env) (ratio : String → String → Rat) (decisions : ReferenceDecisions)
    (updateExisting : Bool) (rows : List ImportRow) (skipped : List Nat) (tables : ReferenceTables)
    (s : Store)
    : Except Failure ReferenceRun :=
  let rows := markActions env.unicode updateExisting s rows
  (maintenanceLast rows).foldlM
    (referenceTurn env ratio decisions updateExisting (expandSkippedInferredRows rows skipped))
    { tables := tables, run := { store := s } }

end LicenseTrack.References
