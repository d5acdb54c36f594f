import LicenseTrack.Services.CsvImport

/-! A confirmed import: the rows of a file marked as new records or as updates, the purchase-order
lines that the preview announces, and the run that writes the rows.
-/

namespace LicenseTrack

open Library

/-- `import_status`. -/
inductive ImportStatus
  | error
  | active
  | legacyExempt
  | legacyIncomplete
deriving DecidableEq

/-- `import_action`. -/
inductive ImportAction
  | create
  | update
deriving DecidableEq

/-- A row of a file with what parsing and preparation note about it. -/
structure ImportRow extends ParsedRow where
  rowNumber : Nat
  importStatus : ImportStatus := .active
  importAction : ImportAction := .create
  matchedLicenseId : Option Nat := none
  validationErrors : List String := []
  warnings : List String := []
deriving DecidableEq

namespace ImportRow

/-- The row cannot be imported. -/
def isError (row : ImportRow) : Bool := row.importStatus == .error

/-- The row's type is maintenance. -/
def isMaintenance (row : ImportRow) : Bool := row.licenseType == some .maintenance

/-- The comparable form of the row's own reference, empty where it has none. -/
def refKey (u : Unicode) (row : ImportRow) : String := u.refKey (row.licenseRef.getD "")

end ImportRow

/-- The order in which rows are written: maintenance rows last, otherwise as in the file. -/
def maintenanceLast (rows : List ImportRow) : List ImportRow :=
  rows.filter (fun row => !row.isMaintenance) ++ rows.filter (fun row => row.isMaintenance)

/-- The newest terms whose reference is one of the given ones. -/
def updateHeads (s : Store) (refs : List String) : List (Nat × License) :=
  s.licenses.entries.filter (fun entry =>
    entry.2.licenseRef.any (fun stored => refs.contains (sqlLower stored))
      && !entry.2.isRetired && entry.2.renewedToId.isNone)

/-- One row of `annotate_update_targets`. -/
def annotateRow (u : Unicode) (heads : List (Nat × License)) (row : ImportRow) : ImportRow :=
  if row.isError then row
  else match heads.filter (fun entry =>
      u.refKey (entry.2.licenseRef.getD "") == row.refKey u) with
    | [] => { row with importAction := .create, matchedLicenseId := none }
    | [(id, _)] => { row with importAction := .update, matchedLicenseId := some id }
    | _ =>
        { row with
          importAction := .create
          matchedLicenseId := none
          importStatus := .error
          validationErrors := row.validationErrors ++
            [s!"LT Ref {row.licenseRef.getD default} is ambiguous: it matches multiple "
              ++ "active licenses. Resolve the duplicate refs before importing."] }

/-- The references that the importable rows of a file carry. -/
def importRefs (u : Unicode) (rows : List ImportRow) : List String :=
  ((rows.filter (fun row => !row.isError)).map (·.refKey u)).filter (· ≠ "")

/-- `annotate_update_targets`. -/
def annotateUpdateTargets (u : Unicode) (s : Store) (rows : List ImportRow) : List ImportRow :=
  rows.map (annotateRow u (updateHeads s (importRefs u rows)))

/-- The marking of new records and updates, which runs only for an import that updates. -/
def markActions (u : Unicode) (updateExisting : Bool) (s : Store) (rows : List ImportRow)
    : List ImportRow :=
  if updateExisting then annotateUpdateTargets u s rows else rows

/-- A requested number where it is free, else one more than the highest taken. -/
def freeNumber (taken : List Nat) (requested : Option Nat) : Nat :=
  match requested with
  | some n => if 0 < n && !taken.contains n then n else taken.foldr max 0 + 1
  | none => taken.foldr max 0 + 1

/-- The loop of `plan_new_lines`, over the numbers taken on each purchase order. -/
def planLines (u : Unicode) : (String → List Nat) → List (String × Option Nat) → List (Option Nat)
  | _, [] => []
  | used, (poNumber, requested) :: rest =>
      let poKey := u.normalizePoNumber poNumber
      if poKey = "" then none :: planLines u used rest
      else
        let number := freeNumber (used poKey) requested
        some number
          :: planLines u (fun key => if key = poKey then number :: used key else used key) rest

/-- `plan_new_lines`. -/
def planNewLines (u : Unicode) (s : Store) (requests : List (String × Option Nat))
    : List (Option Nat) :=
  planLines u (issuedNumbers s) requests

/-- The rows that the preview expects to become new records, in the order of the run. -/
def newRows (rows : List ImportRow) : List ImportRow :=
  maintenanceLast (rows.filter (fun row => !row.isError && row.importAction == .create))

/-- The lines that the preview plans for the new records. -/
def plannedLines (u : Unicode) (s : Store) (rows : List ImportRow) : List (Option Nat) :=
  planNewLines u s ((newRows rows).map (fun row => (row.poNumber, row.poLineNumber)))

/-- What the preview says about the purchase-order line of one row. -/
def poLineWarnings (planned : List (ImportRow × Option Nat)) (row : ImportRow) : List String :=
  if row.isError then []
  else match row.importAction with
    | .create =>
        match planned.find? (fun entry => entry.1.rowNumber == row.rowNumber), row.poLineNumber with
        | some (_, some number), some requested =>
            if number = requested then []
            else [s!"PO line {requested} is already used on PO {row.poNumber}; "
              ++ s!"it will be imported as line {number} (the next free line)."]
        | _, _ => []
    | .update =>
        if row.poLineNumber.isSome then ["PO line from the file is ignored for existing records."]
        else []

/-- `add_po_line_warnings`. -/
def addPoLineWarnings (u : Unicode) (s : Store) (rows : List ImportRow) : List ImportRow :=
  let planned := (newRows rows).zip (plannedLines u s rows)
  rows.map (fun row => { row with warnings := row.warnings ++ poLineWarnings planned row })

/-- One pass of `expand_skipped_inferred_rows`. -/
def expandOnce (rows : List ImportRow) (skipped : List Nat) : List Nat :=
  rows.foldl (fun skipped row =>
    if row.parentImportRowNumber.any skipped.contains && !skipped.contains row.rowNumber then
      row.rowNumber :: skipped
    else skipped) skipped

/-- `expand_skipped_inferred_rows`. A pass that changes something skips one more row, so as many
passes as there are rows reach the end.
-/
def expandSkippedInferredRows (rows : List ImportRow) (skipped : List Nat) : List Nat :=
  (expandOnce rows)^[rows.length] skipped

/-- What the run makes of a row. -/
inductive RowOutcome
  | skipped
  /-- The row had errors before the run. -/
  | rejected (reason : String)
  | failed (failure : Failure)
  | updated (id : Nat)
  | created (id : Nat)
deriving DecidableEq

/-- The row was written. -/
def RowOutcome.isImported : RowOutcome → Bool
  | .updated _ | .created _ => true
  | _ => false

/-- A run between two rows: the database, the licences of the rows before, and the outcomes of
these rows, the latest first.
-/
structure ImportRun where
  store : Store
  progress : ImportProgress := {}
  outcomes : List (Nat × RowOutcome) := []

namespace ImportRun

/-- Notes what became of a row that wrote nothing. -/
def note (run : ImportRun) (row : ImportRow) (outcome : RowOutcome) : ImportRun :=
  { run with outcomes := (row.rowNumber, outcome) :: run.outcomes }

/-- Every row so far was written. -/
def AllImported (run : ImportRun) : Prop := ∀ entry ∈ run.outcomes, entry.2.isImported = true

instance (run : ImportRun) : Decidable run.AllImported := by
  unfold AllImported
  infer_instance

end ImportRun

/-- The licence that a row names as its target. -/
def ImportRow.matched (updateExisting : Bool) (row : ImportRow) : Option Nat :=
  if updateExisting && row.importAction == .update then row.matchedLicenseId else none

/-- The stored licence that a row updates, none where it becomes a new one. -/
def ImportRow.target (updateExisting : Bool) (s : Store) (row : ImportRow) : Option Nat :=
  (row.matched updateExisting).filter (fun id => (s.license? id).isSome)

/-- What the run remembers of a row that was written. -/
def ImportProgress.remember (progress : ImportProgress) (u : Unicode) (row : ImportRow) (id : Nat)
    : ImportProgress where
  insertedByRowNumber := (row.rowNumber, id) :: progress.insertedByRowNumber
  insertedByImportRef :=
    match importedParentId.truthyText row.licenseRef with
    | some ref => (u.refKey ref, id) :: progress.insertedByImportRef
    | none => progress.insertedByImportRef

/-- What became of a row that was written, with the licence that it updated or became. -/
def ImportRow.written (updateExisting : Bool) (s : Store) (row : ImportRow) : Nat × RowOutcome :=
  match row.target updateExisting s with
  | some id => (id, .updated id)
  | none => (s.licenses.nextKey, .created s.licenses.nextKey)

/-- The run behind a row that was written. -/
def ImportRun.wrote (u : Unicode) (updateExisting : Bool) (run : ImportRun) (row : ImportRow)
    (store : Store)
    : ImportRun where
  store := store
  progress := run.progress.remember u row (row.written updateExisting run.store).1
  outcomes := (row.rowNumber, (row.written updateExisting run.store).2) :: run.outcomes

/-- One turn of the loop of `run_import_rows`. -/
def importTurn (env : Env) (updateExisting : Bool) (skipped : List Nat) (run : ImportRun)
    (row : ImportRow)
    : ImportRun :=
  if skipped.contains row.rowNumber then run.note row .skipped
  else if row.isError then
    run.note row (.rejected
      (if row.validationErrors = [] then "Unknown error" else "; ".intercalate row.validationErrors))
  else match importRow env run.progress (row.matched updateExisting) row.toParsedRow run.store with
    | .error failure => run.note row (.failed failure)
    | .ok store => run.wrote env.unicode updateExisting row store

/-- `run_import_rows`. -/
def runImportRows (env : Env) (updateExisting : Bool) (rows : List ImportRow)
    (skipped : List Nat) (s : Store)
    : ImportRun :=
  let rows := markActions env.unicode updateExisting s rows
  (maintenanceLast rows).foldl
    (importTurn env updateExisting (expandSkippedInferredRows rows skipped)) { store := s }

end LicenseTrack
