import LicenseTrack.Money.NumberParsers
import LicenseTrack.Services.CsvFiles

/-! The CSV files that LicenseTrack writes: the export of the browser with the columns that are
shown, and the export of the backend with its fixed columns, each with its guard against formulas.
-/

namespace LicenseTrack.CsvExport

open Library
open LicenseTrack.CsvImport

/-- A character that begins a formula in a spreadsheet. -/
def isFormulaStart (c : Char) : Bool := c == '=' || c == '+' || c == '-' || c == '@'

-- The browser

/-- A column of the licence table, with the key of its custom field. -/
structure ExportColumn where
  key : String
  label : String
  fieldKey : Option String
deriving DecidableEq

/-- `COLUMN_DEFS`, of which the first is `tableOnly`. -/
def columnDefs : List ExportColumn :=
  [
    ⟨"select", "", none⟩, ⟨"licenseRef", "LT Ref", none⟩, ⟨"externalRef", "External Ref", none⟩,
    ⟨"publisher", "Publisher", none⟩, ⟨"description", "Description", none⟩,
    ⟨"contractNumber", "Contract #", none⟩, ⟨"poNumber", "PO #", none⟩,
    ⟨"poLineNumber", "PO Line", none⟩, ⟨"procurementReference", "Procurement Ref", none⟩,
    ⟨"invoiceNumber", "Invoice #", none⟩, ⟨"costCentre", "Cost Centre", none⟩,
    ⟨"supplier", "Supplier", none⟩, ⟨"contactEmail", "Supplier Contact", none⟩,
    ⟨"budgetOwnerEmail", "Budget Owner", none⟩, ⟨"secondaryContacts", "Secondary Contacts", none⟩,
    ⟨"licenseType", "Type", none⟩, ⟨"typeDescription", "Type Description", none⟩,
    ⟨"isRenewable", "Renewable", none⟩, ⟨"licenseMetric", "Metric", none⟩,
    ⟨"quantity", "Qty", none⟩, ⟨"effectiveQuantity", "Effective Qty", none⟩,
    ⟨"quantityPerUnit", "Qty / Unit", none⟩, ⟨"skuCode", "SKU", none⟩,
    ⟨"unitPrice", "Unit Price", none⟩, ⟨"poTotalOverride", "Manual PO Total", none⟩,
    ⟨"totalPoPrice", "Total PO Value", none⟩, ⟨"currency", "Currency", none⟩,
    ⟨"startDate", "Start Date", none⟩, ⟨"endDate", "End Date", none⟩,
    ⟨"noticeDate", "Notice Date", none⟩, ⟨"requestDate", "Request Date", none⟩,
    ⟨"purchaseDate", "Purchase Date", none⟩, ⟨"portalUrl", "Portal URL", none⟩,
    ⟨"notes", "Notes", none⟩, ⟨"docs", "Docs", none⟩, ⟨"calcTotal", "Line Total", none⟩,
    ⟨"expiration", "Expiration", none⟩, ⟨"complete", "Complete", none⟩,
    ⟨"recordId", "License Record ID", none⟩, ⟨"createdBy", "Created By", none⟩,
    ⟨"createdAt", "Created", none⟩, ⟨"updatedAt", "Last Updated", none⟩,
    ⟨"lifecycleStatus", "Lifecycle Status", none⟩, ⟨"syncStatus", "Sync Status", none⟩,
    ⟨"lastSyncedAt", "Last Synced", none⟩, ⟨"maintenanceCoverage", "Maintenance Coverage", none⟩,
    ⟨"maintenanceStartDate", "Maintenance Start", none⟩,
    ⟨"maintenanceEndDate", "Maintenance End", none⟩, ⟨"maintenanceCost", "Maintenance Cost", none⟩,
    ⟨"parentLicenseRefs", "Covered License(s)", none⟩,
    ⟨"maintenancePricingBasis", "Maintenance Pricing", none⟩,
    ⟨"maintenanceQuantity", "Maintenance Qty", none⟩,
    ⟨"maintenanceUnitPrice", "Maintenance Unit Price", none⟩
  ]

/-- `STABLE_EXPORT_FIELD_NAMES`. -/
def stableExportFieldNames : List (String × String) :=
  [
    ("budgetOwnerEmail", "budget_owner_email"), ("calcTotal", "line_total"),
    ("contactEmail", "contact_email"), ("contractNumber", "contract_number"),
    ("costCentre", "cost_centre"), ("currency", "currency"),
    ("description", "software_description"), ("effectiveQuantity", "effective_quantity"),
    ("endDate", "end_date"), ("externalRef", "external_ref"), ("invoiceNumber", "invoice_number"),
    ("isRenewable", "is_renewable"), ("licenseMetric", "license_metric"),
    ("licenseRef", "license_ref"), ("licenseType", "license_type"),
    ("lifecycleStatus", "lifecycle_status"), ("maintenanceCost", "maintenance_cost"),
    ("maintenanceCoverage", "maintenance_coverage"),
    ("maintenanceEndDate", "maintenance_end_date"),
    ("maintenancePricingBasis", "maintenance_pricing_basis"),
    ("maintenanceQuantity", "maintenance_quantity"),
    ("maintenanceStartDate", "maintenance_start_date"),
    ("maintenanceUnitPrice", "maintenance_unit_price"), ("notes", "notes"),
    ("noticeDate", "notice_date"), ("parentLicenseRefs", "parent_license_refs"),
    ("poLineNumber", "po_line"), ("poNumber", "po_number"), ("poTotalOverride", "po_total_manual"),
    ("portalUrl", "portal_url"), ("procurementReference", "procurement_reference"),
    ("publisher", "publisher_name"), ("purchaseDate", "purchase_date"), ("quantity", "quantity"),
    ("quantityPerUnit", "quantity_per_unit"), ("recordId", "license_record_id"),
    ("requestDate", "request_date"), ("secondaryContacts", "secondary_contacts"),
    ("skuCode", "sku_code"), ("startDate", "start_date"), ("supplier", "supplier"),
    ("totalPoPrice", "total_po_value"), ("typeDescription", "type_description"),
    ("unitPrice", "unit_price")
  ]

/-- `generate_field_key`. -/
def generateFieldKey (u : Unicode) (name : String) : String := "cf_" ++ joinHeader (u.lower name)

/-- A column of `makeCustomFieldColumnDefs`. -/
def customFieldColumn (name fieldKey : String) : ExportColumn :=
  ⟨"cf_" ++ fieldKey, name, some fieldKey⟩

/-- `getFullExportColumns` of the columns of the table and of the custom fields, in their first
order.
-/
def fullExportColumns (u : Unicode) (customFields : List String) : List ExportColumn :=
  columnDefs.filter (·.key != "select")
    ++ customFields.map (fun name => customFieldColumn name (generateFieldKey u name))

/-- The header of a column. -/
def exportHeader (stableCustomFieldHeaders : Bool) (column : ExportColumn) : String :=
  match column.fieldKey with
  | some fieldKey =>
      if stableCustomFieldHeaders && "cf_".toList.isPrefixOf column.key.toList && fieldKey != "" then fieldKey
      else (stableExportFieldNames.lookup column.key).getD column.label
  | none => (stableExportFieldNames.lookup column.key).getD column.label

/-- The text of a cell behind the guard of `escape`. -/
def guardedCell (raw : String) : String :=
  if (raw.toList.dropWhile jsSpace).head?.any isFormulaStart then "'" ++ raw else raw

/-- The cells that `escape` puts in quotes. -/
def browserQuotes (cell : List Char) : Bool :=
  cell.contains ',' || cell.contains '"' || cell.contains '\n'

/-- The content that `exportFilteredCsv` downloads for the texts of the cells of its rows. -/
def exportFilteredCsv (stableCustomFieldHeaders : Bool) (columns : List ExportColumn)
    (dataRows : List (List String)) : String :=
  let records := columns.map (exportHeader stableCustomFieldHeaders) :: dataRows
  String.ofList ('\ufeff' :: joinLines Delimiter.comma.dialect (fun _ => browserQuotes)
    (records.map (·.map (fun cell => (guardedCell cell).toList))))

/-- A value in a row that the backend writes: a text, a number as it is printed, or nothing. -/
inductive CsvValue where
  | text (value : String)
  | number (printed : String)
  | none
deriving DecidableEq

/-- `FORMULA_PREFIXES`. -/
def formulaPrefixes : List Char := ['=', '+', '-', '@', '\t', '\r']

/-- `escape_csv_formula`. -/
def escapeCsvFormula : CsvValue → CsvValue
  | .text value =>
      if (value.toList.dropWhile isSpace).head?.any formulaPrefixes.contains then
        .text ("'" ++ value)
      else .text value
  | value => value

/-- `safe_csv_row`. -/
def safeCsvRow (values : List CsvValue) : List CsvValue := values.map escapeCsvFormula

/-- The text that `csv.writer` makes of a value. -/
def CsvValue.printed : CsvValue → String
  | text value => value
  | number printed => printed
  | none => ""

/-- The fields that `csv.writer` puts in quotes: those with a character of the dialect, and the
field of a record that would otherwise be empty.
-/
def writerQuotes (record : List (List Char)) (field : List Char) : Bool :=
  record == [[]] || field.contains ',' || field.contains '"' || field.contains '\r'
    || field.contains '\n'

/-- What `csv.writer` writes for rows of values. -/
def writeRows (rows : List (List CsvValue)) : List Char :=
  writeLines Delimiter.comma.dialect writerQuotes
    (rows.map (·.map (fun value => value.printed.toList)))

/-- The headers of `export_licenses`. -/
def licenseExportHeaders : List String :=
  [
    "License Record ID", "License Ref", "External Ref", "Publisher", "Software Description",
    "License Type", "License Metric", "Purchase Quantity", "Effective Quantity",
    "Quantity Per Unit", "SKU Code", "Unit Price", "Total PO Value", "Currency", "Start Date",
    "End Date", "Notice Date", "Contract Number", "PO Number", "Procurement Reference",
    "Invoice Number", "Contact Email", "Supplier", "Cost Centre", "Budget Owner Email",
    "Secondary Contacts", "Lifecycle Status", "Completeness %", "Expiration Status",
    "Days Until Expiry", "Notes", "Renewable", "Type Description", "Request Date", "Purchase Date",
    "Portal URL", "Maintenance Coverage", "Maintenance Start", "Maintenance End",
    "Maintenance Cost", "Line Total", "Manual PO Total", "PO Line"
  ]

/-- The file of `export_licenses` for the values of its rows. -/
def exportLicenses (rows : List (List CsvValue)) : String :=
  String.ofList (writeRows (licenseExportHeaders.map CsvValue.text :: rows.map safeCsvRow))

end LicenseTrack.CsvExport
