import LicenseTrack.Services.ImportRun

/-! The warnings about rows of a file that may be duplicates: of stored licences, and of earlier rows.
-/

namespace LicenseTrack

open Library

/-- `_norm_text`. -/
def Unicode.normText (u : Unicode) (value : String) : String := u.casefold (joinWords value)

/-- `date.max`. -/
def dateMax : Date := 3652059

/-- `_dates_overlap`. -/
def datesOverlap (leftStart leftEnd rightStart rightEnd : Option Date) : Bool :=
  decide (leftStart.getD dateMin ≤ rightEnd.getD dateMax
    ∧ rightStart.getD dateMin ≤ leftEnd.getD dateMax)

/-- The values of a row or a licence that are compared, normalised. -/
structure MatchValues where
  publisherName : String
  softwareDescription : String
  contractNumber : String
  poNumber : String
  startDate : Option Date
  endDate : Option Date
  externalRef : String
deriving DecidableEq

/-- `_row_match_value` of each field. -/
def rowMatchValues (u : Unicode) (row : ImportRow) : MatchValues where
  publisherName := u.normText row.publisherName
  softwareDescription := u.normText row.softwareDescription
  contractNumber := u.normText row.contractNumber
  poNumber := u.normText row.poNumber
  startDate := row.startDate
  endDate := row.endDate
  externalRef := u.normText (row.externalRef.getD "")

/-- `_license_match_value` of each field. -/
def licenseMatchValues (u : Unicode) (l : License) : MatchValues where
  publisherName := u.normText l.publisherName
  softwareDescription := u.normText l.softwareDescription
  contractNumber := u.normText l.contractNumber
  poNumber := u.normText l.poNumber
  startDate := l.startDate
  endDate := l.endDate
  externalRef := u.normText (l.externalRef.getD "")

inductive MatchSeverity
  | high
  | medium
deriving DecidableEq, Repr

inductive MatchField
  | publisherName
  | softwareDescription
  | contractNumber
  | poNumber
  | startDate
  | endDate
  | externalRef
  | licenseRef
deriving DecidableEq, Repr

/-- How a field compares: on both sides, on one of them only, or on neither. -/
inductive FieldMatch
  | absent
  | same
  | different
deriving DecidableEq

/-- The comparison of one field, missing values being none. -/
def compareField {α : Type} [DecidableEq α] (left right : Option α) : FieldMatch :=
  match left, right with
  | none, none => .absent
  | some a, some b => if a = b then .same else .different
  | _, _ => .different

/-- A text, none where it is empty. -/
def filled (text : String) : Option String := if text = "" then none else some text

/-- `_match_duplicate`. -/
def matchDuplicate (row candidate : MatchValues) : Option (MatchSeverity × List MatchField) :=
  if row.externalRef ≠ "" ∧ row.externalRef = candidate.externalRef then
    some (.high, [.externalRef])
  else if row.publisherName = "" ∨ row.softwareDescription = "" then none
  else if row.publisherName ≠ candidate.publisherName
      ∨ row.softwareDescription ≠ candidate.softwareDescription then none
  else
    let compared :=
      [(MatchField.contractNumber,
          compareField (filled row.contractNumber) (filled candidate.contractNumber)),
        (.poNumber, compareField (filled row.poNumber) (filled candidate.poNumber)),
        (.startDate, compareField row.startDate candidate.startDate),
        (.endDate, compareField row.endDate candidate.endDate)]
    let allAvailableMatch := compared.all (fun field => field.2 ≠ .different)
    let matchFields := [.publisherName, .softwareDescription]
      ++ (compared.filter (fun field => field.2 = .same)).map Prod.fst
    let hasContract := row.contractNumber ≠ "" ∧ row.contractNumber = candidate.contractNumber
    let hasPo := row.poNumber ≠ "" ∧ row.poNumber = candidate.poNumber
    let hasDate := row.startDate = candidate.startDate ∧ row.endDate = candidate.endDate
      ∧ (row.startDate ≠ none ∨ row.endDate ≠ none)
    let overlap := datesOverlap row.startDate row.endDate candidate.startDate candidate.endDate
    if allAvailableMatch = true ∧ (hasContract ∨ hasPo) ∧ hasDate then some (.high, matchFields)
    else if hasContract ∧ overlap = true then
      some (.medium,
        [.publisherName, .softwareDescription, .contractNumber, .startDate, .endDate])
    else if hasPo ∧ overlap = true then
      some (.medium, [.publisherName, .softwareDescription, .poNumber, .startDate, .endDate])
    else none

inductive DuplicateKind
  | existingLicense
  | importRow
deriving DecidableEq, Repr

structure DuplicateWarning where
  type : DuplicateKind
  severity : MatchSeverity
  message : String
  matchedLicenseId : Option Nat := none
  matchedLicenseRef : Option String := none
  matchedRowNumber : Option Nat := none
  matchFields : List MatchField
deriving DecidableEq

/-- `labels` of `_match_fields_sentence`. -/
def MatchField.label : MatchField → String
  | .publisherName => "publisher"
  | .softwareDescription => "software"
  | .contractNumber => "contract"
  | .poNumber => "PO"
  | .startDate => "start date"
  | .endDate => "end date"
  | .externalRef => "external reference"
  | .licenseRef => "license_ref"

/-- `str.capitalize` of a text of ASCII letters. -/
def capitalize (text : String) : String :=
  match text.toList with
  | [] => ""
  | first :: rest => String.ofList (first.toUpper :: rest.map Char.toLower)

/-- `_match_fields_sentence`, of one field at least. -/
def matchFieldsSentence (fields : List MatchField) : String :=
  match (fields.map MatchField.label).reverse with
  | [] => ""
  | [name] => capitalize name ++ " matches."
  | last :: earlier =>
      capitalize (", ".intercalate earlier.reverse) ++ ", and " ++ last ++ " match."

/-- `_license_label`. -/
def licenseLabel (id : Nat) (l : License) : String :=
  match l.licenseRef.getD "" with
  | "" => s!"license ID {id}"
  | ref => ref

/-- `_match_by_license_ref`. -/
def matchByLicenseRef (u : Unicode) (row : ImportRow) (id : Nat) (l : License)
    : Option DuplicateWarning :=
  if u.normText (row.licenseRef.getD "") = ""
      ∨ u.normText (row.licenseRef.getD "") ≠ u.normText (l.licenseRef.getD "") then none
  else
    some
      {
        type := .existingLicense
        severity := .high
        message :=
          s!"Possible duplicate of existing license {licenseLabel id l}. License ref matches."
        matchedLicenseId := some id
        matchedLicenseRef := l.licenseRef
        matchFields := [.licenseRef]
      }

/-- The warning about a stored licence. -/
def licenseWarning (id : Nat) (l : License) (found : MatchSeverity × List MatchField)
    : DuplicateWarning where
  type := .existingLicense
  severity := found.1
  message := s!"Possible duplicate of existing license {licenseLabel id l}. "
    ++ matchFieldsSentence found.2
  matchedLicenseId := some id
  matchedLicenseRef := l.licenseRef
  matchFields := found.2

/-- The warning about an earlier row. -/
def rowWarning (earlier : ImportRow) (found : MatchSeverity × List MatchField) : DuplicateWarning where
  type := .importRow
  severity := found.1
  message := s!"Possible duplicate of row {earlier.rowNumber} in this import. "
    ++ matchFieldsSentence found.2
  matchedRowNumber := some earlier.rowNumber
  matchFields := found.2

/-- The names that a row or a licence is indexed by. -/
def MatchValues.identity (values : MatchValues) : String × String :=
  (values.publisherName, values.softwareDescription)

/-- `existing_licenses`: nothing is loaded when no row names anything to compare. -/
def existingLicenses (u : Unicode) (s : Store) (rows : List ImportRow) : List (Nat × License) :=
  if (rows.filter (fun row => !row.isError)).any (fun row =>
      (u.normText row.publisherName ≠ "" ∧ u.normText row.softwareDescription ≠ "")
        ∨ u.normText (row.licenseRef.getD "") ≠ "" ∨ u.normText (row.externalRef.getD "") ≠ "") then
    s.licenses.entries.filter (fun entry => !entry.2.isRetired)
  else []

/-- The candidates of a row, from the three indexes. -/
def licenseCandidates (u : Unicode) (existing : List (Nat × License)) (row : ImportRow)
    : List (Nat × License) :=
  let ref := u.normText (row.licenseRef.getD "")
  let values := rowMatchValues u row
  (if ref ≠ "" then existing.filter (fun entry => u.normText (entry.2.licenseRef.getD "") = ref)
    else [])
    ++ existing.filter (fun entry =>
        (licenseMatchValues u entry.2).externalRef ≠ ""
          ∧ (licenseMatchValues u entry.2).externalRef = values.externalRef)
    ++ existing.filter (fun entry => (licenseMatchValues u entry.2).identity = values.identity)

/-- The loop over the candidates of a row, with the licences seen so far. -/
def scanLicenses (u : Unicode) (row : ImportRow) : List Nat → List (Nat × License)
    → Option DuplicateWarning
  | _, [] => none
  | seen, (id, l) :: rest =>
      if id ∈ seen then scanLicenses u row seen rest
      else if row.importAction = .update ∧ row.matchedLicenseId = some id then
        scanLicenses u row (id :: seen) rest
      else
        match matchByLicenseRef u row id l with
        | some warning => if row.importAction ≠ .update then some warning else none
        | none =>
            match matchDuplicate (rowMatchValues u row) (licenseMatchValues u l) with
            | none => scanLicenses u row (id :: seen) rest
            | some found => some (licenseWarning id l found)

/-- The candidates of a row among the rows, in the order of their numbers. -/
def rowCandidates (u : Unicode) (rows : List ImportRow) (row : ImportRow) : List ImportRow :=
  let usable := rows.filter (fun row => !row.isError)
  let values := rowMatchValues u row
  (usable.filter (fun other => (rowMatchValues u other).identity = values.identity)
      ++ usable.filter (fun other =>
        (rowMatchValues u other).externalRef ≠ ""
          ∧ (rowMatchValues u other).externalRef = values.externalRef)).mergeSort
    (fun a b => a.rowNumber ≤ b.rowNumber)

/-- The loop over the earlier rows. -/
def scanRows (u : Unicode) (row : ImportRow) : List ImportRow → Option DuplicateWarning
  | [] => none
  | earlier :: rest =>
      if row.rowNumber ≤ earlier.rowNumber then none
      else if earlier.isError then scanRows u row rest
      else
        match matchDuplicate (rowMatchValues u row) (rowMatchValues u earlier) with
        | none => scanRows u row rest
        | some found => some (rowWarning earlier found)

/-- `add_duplicate_warnings`: the warnings of each row. -/
def addDuplicateWarnings (u : Unicode) (s : Store) (rows : List ImportRow)
    : List (ImportRow × List DuplicateWarning) :=
  let existing := existingLicenses u s rows
  rows.map (fun row =>
    if row.isError then (row, [])
    else
      (row,
        (scanLicenses u row [] (licenseCandidates u existing row)).toList
          ++ (scanRows u row (rowCandidates u rows row)).toList))

end LicenseTrack
