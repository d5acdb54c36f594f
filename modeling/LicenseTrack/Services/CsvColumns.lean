import Mathlib.Logic.Function.Basic
import LicenseTrack.Model.Text

/-! The rows of a CSV file as both entry points of the import read them: the registry of columns, the
records of a file, the mapping of its headers to fields, and the cells that the row parser sees.
-/

namespace LicenseTrack.CsvImport

/-- A column of the registry, with the names that the header map and the ignored headers take from
it.
-/
structure CsvField where
  target : Option String
  header : String
  aliases : List String
deriving DecidableEq

/-- `FIELDS`. -/
def csvFields : List CsvField :=
  [
    ⟨some "license_ref", "license_ref", ["lt_ref"]⟩,
    ⟨some "external_ref", "external_ref", []⟩,
    ⟨some "publisher_name", "publisher_name", ["publisher"]⟩,
    ⟨some "software_description", "software_description", ["description"]⟩,
    ⟨some "contract_number", "contract_number", ["contract", "contract_no"]⟩,
    ⟨some "po_number", "po_number", ["po", "purchase_order_no"]⟩,
    ⟨some "po_line_number", "po_line", ["po_line_number", "po_line_item", "po_line_no", "item"]⟩,
    ⟨some "procurement_reference", "procurement_reference", ["procurement_ref"]⟩,
    ⟨some "invoice_number", "invoice_number", ["invoice"]⟩,
    ⟨some "contact_email", "contact_email", ["publisher_contact", "supplier_contact"]⟩,
    ⟨some "supplier", "supplier", ["vendor"]⟩,
    ⟨some "cost_centre", "cost_centre", ["cost_center", "department"]⟩,
    ⟨some "budget_owner_email", "budget_owner_email", ["budget_owner"]⟩,
    ⟨some "secondary_contacts", "secondary_contacts",
      ["secondary_contact", "secondary_contact_email", "application_owner",
        "application_owner_email", "app_owner", "app_owner_email", "technical_owner",
        "technical_owner_email", "application_owner_email_address"]⟩,
    ⟨some "license_type", "license_type", ["type", "purchase_type"]⟩,
    ⟨some "type_description", "type_description", []⟩,
    ⟨some "is_renewable", "is_renewable", ["renewable"]⟩,
    ⟨some "license_metric", "license_metric", ["metric"]⟩,
    ⟨some "quantity", "quantity", ["qty", "purchase_quantity"]⟩,
    ⟨some "effective_quantity", "effective_quantity", []⟩,
    ⟨some "quantity_per_unit", "quantity_per_unit", ["qty_per_unit"]⟩,
    ⟨some "sku_code", "sku_code", ["sku", "part_no_sku"]⟩,
    ⟨some "unit_price", "unit_price", ["unit_price_eur"]⟩,
    ⟨some "line_total", "line_total", ["line_total_eur", "total_price_eur"]⟩,
    ⟨some "legacy_po_price", "total_po_price", []⟩,
    ⟨some "po_total_override", "po_total_manual", ["manual_po_total", "po_total_override"]⟩,
    ⟨some "currency", "currency", []⟩,
    ⟨some "start_date", "start_date", ["effective_date"]⟩,
    ⟨some "end_date", "end_date", ["expiry_date", "contractenddate"]⟩,
    ⟨some "notice_date", "notice_date", ["notice_deadline"]⟩,
    ⟨some "request_date", "request_date", []⟩,
    ⟨some "purchase_date", "purchase_date", []⟩,
    ⟨some "portal_url", "portal_url", []⟩,
    ⟨some "notes", "notes", []⟩,
    ⟨some "parent_license_refs", "parent_license_refs",
      ["parent_license_ref", "parent_ref", "parent"]⟩,
    ⟨some "maintenance_coverage", "maintenance_coverage",
      ["maintenance_support_coverage", "includes_maintenance", "include_maintenance",
        "maintenance_included", "purchase_includes_maintenance", "purchase_includes_support",
        "includes_support"]⟩,
    ⟨some "maintenance_start_date", "maintenance_start_date",
      ["maintenance_start", "support_start", "support_start_date", "coverage_start",
        "coverage_start_date"]⟩,
    ⟨some "maintenance_end_date", "maintenance_end_date",
      ["maintenance_end", "support_end", "support_end_date", "coverage_end",
        "coverage_end_date"]⟩,
    ⟨some "maintenance_cost", "maintenance_cost",
      ["support_cost", "total_support_cost", "total_support_cost_eur", "coverage_cost"]⟩,
    ⟨some "maintenance_pricing_basis", "maintenance_pricing_basis", ["support_pricing_basis"]⟩,
    ⟨some "maintenance_quantity", "maintenance_quantity", []⟩,
    ⟨some "maintenance_unit_price", "maintenance_unit_price", []⟩,
    ⟨none, "license_record_id", ["id"]⟩,
    ⟨none, "docs", []⟩,
    ⟨none, "calc_total", []⟩,
    ⟨none, "expiration", []⟩,
    ⟨none, "complete", []⟩,
    ⟨none, "total_po_value", []⟩,
    ⟨none, "created_at", ["created"]⟩,
    ⟨none, "created_by", []⟩,
    ⟨none, "updated_at", ["last_updated"]⟩,
    ⟨none, "last_synced_at", ["last_synced"]⟩,
    ⟨some "lifecycle_status", "lifecycle_status", []⟩,
    ⟨none, "sync_status", []⟩
  ]

/-- The header of a column and its aliases. -/
def CsvField.names (field : CsvField) : List String := field.header :: field.aliases

/-- A letter or a digit that `normalise_header` keeps. -/
def isHeaderChar (c : Char) : Bool := ('a' ≤ c && c ≤ 'z') || ('0' ≤ c && c ≤ '9')

/-- Every run of other characters becomes one underscore, none at the ends. -/
def joinHeader (text : String) : String :=
  "_".intercalate (((text.toList.splitOnP (fun c => !isHeaderChar c)).filter (· ≠ [])).map
    String.ofList)

/-- `normalise_header`. -/
def normaliseHeader (u : Unicode) (raw : String) : String := joinHeader (u.lower (strip raw))

/-- `header_map`, in which a later column replaces an earlier one of the same name. -/
def headerMap (u : Unicode) (normalized : String) : Option String :=
  (csvFields.reverse.find? (fun field => field.target.isSome
    && field.names.any (fun name => normaliseHeader u name == normalized))).bind (·.target)

/-- `ignored_headers`. -/
def isIgnoredHeader (u : Unicode) (normalized : String) : Bool :=
  csvFields.any (fun field => field.target.isNone
    && field.names.any (fun name => normaliseHeader u name == normalized))

/-- `_FALLBACK_HEADER_ALIASES`. -/
def fallbackHeaderAliases : List String := ["item"]

/-- `MULTI_VALUE_TARGETS`. -/
def multiValueTargets : List String := ["secondary_contacts"]

/-- A record of a file by its headers. -/
abbrev RawRow : Type := String → Option String

/-- A record beside the headers: a short one has blank cells, and further cells are dropped. -/
def rawRow (headers row : List String) : RawRow := fun header =>
  ((headers.zip (row ++ List.replicate (headers.length - row.length) "")).find?
    (·.1 == header)).map (·.2)

/-- `read_csv_dict_rows`, from what decoding and the CSV reader make of the file. -/
def readCsvDictRows (records : List (List String)) : Except String (List String × List RawRow) :=
  match records with
  | [] => .ok ([], [])
  | headers :: rows =>
      if headers.Nodup then .ok (headers, rows.map (rawRow headers))
      else
        let duplicates := (headers.filter (fun h => 1 < headers.count h)).dedup.insertionSort (· ≤ ·)
        .error ("CSV contains duplicate header name(s): "
          ++ ", ".intercalate (duplicates.map (fun h => s!"'{h}'")))

/-- The field that a header stands for. Native and ignored headers precede custom ones. -/
def columnTarget (u : Unicode) (customHeaders : String → Option String) (header : String)
    : Option String :=
  let normalized := normaliseHeader u header
  match headerMap u normalized with
  | some target => some target
  | none => if isIgnoredHeader u normalized then none else customHeaders normalized

/-- The header loop so far: the mapped headers, and the header of each single-valued field. -/
structure HeaderState where
  headerMapping : List (String × String) := []
  targetToHeader : List (String × String) := []
deriving DecidableEq

/-- One turn of the header loop of `parse_csv`. -/
def mapHeader (u : Unicode) (customHeaders : String → Option String) (state : HeaderState)
    (header : String)
    : Except String HeaderState :=
  match (columnTarget u customHeaders header).filter (· ≠ "") with
  | none => .ok state
  | some target =>
      let normalized := normaliseHeader u header
      let mapped := state.headerMapping ++ [(header, target)]
      if target ∈ multiValueTargets then .ok { state with headerMapping := mapped }
      else match state.targetToHeader.find? (·.1 == target) with
        | none =>
            .ok { headerMapping := mapped, targetToHeader := (target, header) :: state.targetToHeader }
        | some (_, previous) =>
            if normaliseHeader u previous ∈ fallbackHeaderAliases
                ∧ normalized ∉ fallbackHeaderAliases then
              .ok
                {
                  headerMapping := state.headerMapping.filter (·.1 != previous) ++ [(header, target)]
                  targetToHeader :=
                    (target, header) :: state.targetToHeader.filter (·.1 != target)
                }
            else if normalized ∈ fallbackHeaderAliases then .ok state
            else .error (s!"CSV headers '{previous}' and '{header}' both map to single-value field "
              ++ s!"'{target}'")

/-- What is collected from one record: the native cells, those of fields with several values, and the
custom cells.
-/
structure RowData where
  texts : String → Option String := fun _ => none
  lists : String → List String := fun _ => []
  custom : String → Option String := fun _ => none

/-- One turn of the loop of `_assemble_import_row`. -/
def assembleCell (omitBlankNativeValues : Bool) (row : RawRow) (data : RowData)
    (column : String × String)
    : RowData :=
  let rawValue := (row column.1).getD ""
  let stripped := strip rawValue
  if "cf_".toList.isPrefixOf column.2.toList then
    if stripped ≠ "" then { data with custom := Function.update data.custom column.2 (some stripped) }
    else data
  else if omitBlankNativeValues && stripped == "" && column.2 != "lifecycle_status" then data
  else
    let value := if omitBlankNativeValues then stripped else rawValue
    if column.2 ∈ multiValueTargets then
      { data with
        lists := Function.update data.lists column.2 (data.lists column.2 ++ [value]) }
    else { data with texts := Function.update data.texts column.2 (some value) }

/-- `_assemble_import_row`. -/
def assembleImportRow (omitBlankNativeValues : Bool) (row : RawRow)
    (columnToTarget : List (String × String))
    : RowData :=
  columnToTarget.foldl (assembleCell omitBlankNativeValues row) {}

/-- `_field_text`, of a field with one value. -/
def fieldText (data : RowData) (field : String) : String := strip ((data.texts field).getD "")

/-- The characters between the contacts of one cell. -/
def isContactSeparator (c : Char) : Bool := c == ';' || c == ','

/-- The contacts of one cell. -/
def contactParts (value : String) : List (List Char) :=
  ((value.toList.splitOnP isContactSeparator).map (stripChars isSpace)).filter (· ≠ [])

/-- `_split_secondary_contact_values`: the first spelling of each contact. -/
def splitSecondaryContactValues (u : Unicode) (values : List String) : List String :=
  ((values.flatMap contactParts).map String.ofList).foldl (fun contacts contact =>
    if contacts.any (fun other => u.lower other == u.lower contact) then contacts
    else contacts ++ [contact]) []

/-- Everything that `_parse_row` reads of the data of a row: the text of each field, the contacts, and
whether the lifecycle column is there.
-/
structure RowCells where
  text : String → String
  secondaryContacts : List String
  statesLifecycle : Bool

/-- The cells of a row, as `_parse_row` reads them. -/
def rowCells (u : Unicode) (data : RowData) : RowCells where
  text := fieldText data
  secondaryContacts := splitSecondaryContactValues u (data.lists "secondary_contacts")
  statesLifecycle := (data.texts "lifecycle_status").isSome

section

variable {κ ρ : Type}

/-- The rows of a file with their custom cells, numbered from one. `parseCells` are the cell parsers of
`_parse_row` under a locale, a date format and a default currency.
-/
def parseRows (u : Unicode) (parseCells : Nat → RowCells → ρ) (omitBlankNativeValues : Bool)
    (columnToTarget : List (String × String)) (rows : List RawRow)
    : List (ρ × (String → Option String)) :=
  rows.mapIdx fun index row =>
    let data := assembleImportRow omitBlankNativeValues row columnToTarget
    (parseCells (index + 1) (rowCells u data), data.custom)

/-- `parse_csv`. `csvRecords` decodes a file and reads its records. -/
def parseCsv (u : Unicode) (csvRecords : κ → Except String (List (List String)))
    (parseCells : Nat → RowCells → ρ) (customHeaders : String → Option String) (contents : κ)
    : Except String (List (ρ × (String → Option String))) := do
  let records ← csvRecords contents
  let (headers, rows) ← readCsvDictRows records
  let state ← headers.foldlM (mapHeader u customHeaders) {}
  pure (parseRows u parseCells false state.headerMapping rows)

/-- `parse_mapped_csv`. -/
def parseMappedCsv (u : Unicode) (csvRecords : κ → Except String (List (List String)))
    (parseCells : Nat → RowCells → ρ) (columnToTarget : List (String × String)) (contents : κ)
    : Except String (List (ρ × (String → Option String))) := do
  let records ← csvRecords contents
  let (_, rows) ← readCsvDictRows records
  pure (parseRows u parseCells true columnToTarget rows)

end

end LicenseTrack.CsvImport
