import LicenseTrack.Installer.ConfigFile
import LicenseTrack.Library.QuotedFields
import LicenseTrack.Services.CsvColumns

/-! The text of a CSV file as the import reads it: its encoding, the delimiter that a directive or
the header line gives, and the records below it.
-/

namespace LicenseTrack.CsvImport

open Library
open LicenseTrack.Installer (isLineBreak splitLines)

/-- A text without the byte order mark in front of it. -/
def withoutMark : List Char → List Char
  | '\ufeff' :: text => text
  | text => text

/-- `decode_csv`: UTF-8 where the bytes are, with or without a byte order mark, else Latin-1. -/
def decodeCsv (contents : ByteArray) : List Char :=
  match String.fromUTF8? contents with
  | some text => withoutMark text.toList
  | none => contents.toList.map (fun byte => Char.ofNat byte.toNat)

/-- The characters of `_CSV_DELIMITERS`. -/
inductive Delimiter where
  | comma
  | semicolon
  | tab
deriving DecidableEq

def Delimiter.char : Delimiter → Char
  | comma => ','
  | semicolon => ';'
  | tab => '\t'

/-- `_CSV_DELIMITERS`. -/
def csvDelimiters : List Delimiter := [.comma, .semicolon, .tab]

/-- `csv.field_size_limit()`, which the code leaves as it is. -/
def fieldSizeLimit : Nat := 131072

/-- The dialect of `csv.reader` for a delimiter. -/
def Delimiter.dialect (delimiter : Delimiter) : Dialect where
  delimiter := delimiter.char
  limit := fieldSizeLimit
  ne_quote := by cases delimiter <;> decide
  ne_return := by cases delimiter <;> decide
  ne_feed := by cases delimiter <;> decide

/-- What follows the first line of a text. -/
def afterFirstLine (text : List Char) : List Char :=
  match text.dropWhile (fun c => !isLineBreak c) with
  | '\r' :: '\n' :: rest => rest
  | rest => rest.tail

/-- The delimiter that a first line names behind `sep=`, in either case. -/
def separatorDirective : List Char → Option Delimiter
  | s :: e :: p :: '=' :: c :: _ =>
      if (s = 's' ∨ s = 'S') ∧ (e = 'e' ∨ e = 'E') ∧ (p = 'p' ∨ p = 'P') then
        csvDelimiters.find? (fun delimiter => delimiter.char == c)
      else none
  | _ => none

/-- `_strip_excel_separator_directive`. -/
def stripExcelSeparatorDirective (text : List Char) : List Char × Option Delimiter :=
  let firstLine := text.takeWhile (fun c => !isLineBreak c)
  match separatorDirective (stripChars isSpace firstLine) with
  | some delimiter => (afterFirstLine text, some delimiter)
  | none => (text, none)

/-- How many fields a line has for a delimiter, none where the reader gives up. -/
def fieldCount (line : List Char) (delimiter : Delimiter) : Option Nat :=
  match firstRecord delimiter.dialect line with
  | .ok record => record.map List.length
  | .error _ => none

/-- The greater of two pairs of a count and a delimiter. -/
def greaterCount (a b : Nat × Delimiter) : Nat × Delimiter :=
  if a.1 < b.1 ∨ (a.1 = b.1 ∧ a.2.char < b.2.char) then b else a

/-- The counts of a line with their delimiters. -/
def candidates (line : List Char) : List (Nat × Delimiter) :=
  csvDelimiters.filterMap (fun delimiter =>
    (fieldCount line delimiter).map (fun count => (count, delimiter)))

/-- The greatest of them. -/
def bestCandidate (line : List Char) : Nat × Delimiter :=
  (candidates line).foldl greaterCount ((candidates line).headD (1, .comma))

/-- The delimiter that gives a line the most fields. -/
def lineDelimiter (line : List Char) : Delimiter :=
  if 1 < (bestCandidate line).1 then (bestCandidate line).2 else .comma

/-- `_detect_csv_delimiter`. -/
def detectCsvDelimiter (text : List Char) : Delimiter :=
  match (splitLines text).find? (fun line => !line.all isSpace) with
  | some line => lineDelimiter line
  | none => .comma

/-- Why a file cannot be read: a `csv.Error`, or headers that are given twice. -/
inductive CsvFailure where
  | unreadable (fault : ReadFault)
  | duplicates (message : String)
deriving DecidableEq

/-- The texts of a record. -/
def recordTexts (record : List (List Char)) : List String := record.map String.ofList

/-- `read_csv_dict_rows`. The headers are checked before the records below them are read. -/
def readCsvFile (contents : ByteArray) : Except CsvFailure (List String × List RawRow) :=
  let (text, directive) := stripExcelSeparatorDirective (decodeCsv contents)
  let d := (directive.getD (detectCsvDelimiter text)).dialect
  match firstRecord d text with
  | .error fault => .error (.unreadable fault)
  | .ok none => .ok ([], [])
  | .ok (some headers) =>
      match readCsvDictRows [recordTexts headers] with
      | .error message => .error (.duplicates message)
      | .ok _ =>
          match readRecords d text with
          | .error fault => .error (.unreadable fault)
          | .ok records =>
              (readCsvDictRows (records.map recordTexts)).mapError .duplicates

end LicenseTrack.CsvImport
