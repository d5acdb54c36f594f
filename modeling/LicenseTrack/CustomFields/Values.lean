import LicenseTrack.Library.Runs
import LicenseTrack.Model.Store

/-! Custom fields: their definitions, and the values that licences and procurement lines hold,
through renewals, line edits, merges and conversions.
-/

namespace LicenseTrack

open Library

/-- `CustomFieldRenewalBehavior`. -/
inductive RenewalBehavior
  | clear
  | copy
  | hide
deriving DecidableEq

/-- What writing values reads of a row of `custom_field_definitions`. -/
structure CustomFieldDefinition where
  fieldType : String
  renewalBehavior : RenewalBehavior := .clear
  showOnSourcingForms : Bool := true
deriving DecidableEq

/-- The two value columns of a custom value. -/
structure FieldValue where
  text : Option String
  currency : Option String
deriving DecidableEq

/-- The custom values of one record under the keys of their definitions, at most one each. -/
abbrev FieldValues := Nat → Option FieldValue

/-- What custom fields read of a procurement line, with the values that it holds. -/
structure FieldLine where
  renewalForLicenseId : Option Nat
  values : FieldValues

/-- The tables of custom fields. A record's values are deleted with it. -/
structure CustomFieldStore where
  definitions : Table CustomFieldDefinition := .empty
  licenses : Table FieldValues := .empty
  lines : Table FieldLine := .empty

/-- The text of a submitted value. -/
inductive SubmittedText
  | text (value : String)
  | flag (value : Bool)
deriving DecidableEq

/-- `CustomFieldValueItem`. -/
structure CustomFieldValueItem where
  customFieldDefId : Nat
  valueText : Option SubmittedText := none
  valueCurrency : Option String := none
deriving DecidableEq

namespace CustomFieldStore

/-- The value that a licence holds of a field. -/
def licenseValue (s : CustomFieldStore) (licenseId definitionId : Nat) : Option FieldValue :=
  (s.licenses.get? licenseId).bind (fun values => values definitionId)

/-- The value that a line holds of a field. -/
def lineValue (s : CustomFieldStore) (itemId definitionId : Nat) : Option FieldValue :=
  (s.lines.get? itemId).bind (fun line => line.values definitionId)

/-- Whether a field has a renewal behaviour. -/
def behaves (s : CustomFieldStore) (behavior : RenewalBehavior) (definitionId : Nat) : Bool :=
  (s.definitions.get? definitionId).any (fun definition => definition.renewalBehavior == behavior)

/-- Whether a field is shown on sourcing forms. -/
def shown (s : CustomFieldStore) (definitionId : Nat) : Bool :=
  (s.definitions.get? definitionId).any (·.showOnSourcingForms)

end CustomFieldStore

-- Normalising a submitted value

/-- `str(value)`. -/
def SubmittedText.str : SubmittedText → String
  | .text value => value
  | .flag value => if value then "True" else "False"

/-- What the database stores of a text that is not normalised. -/
def SubmittedText.stored : SubmittedText → String
  | .text value => value
  | .flag value => if value then "1" else "0"

/-- The texts that the standard library reads: the tables of Unicode, and what
`date.fromisoformat(text).isoformat()` returns.
-/
structure FieldFormats where
  unicode : Unicode
  isoDate : String → Option String

/-- `_normalise_boolean_value`. -/
def normaliseBooleanValue (f : FieldFormats) (value : Option SubmittedText)
    : Except Failure (Option String) :=
  match value with
  | none => .ok none
  | some (.flag flag) => .ok (some (if flag then "true" else "false"))
  | some (.text text) =>
      if text = "" then .ok none
      else if f.unicode.lower (strip text) ∈ ["true", "t", "yes", "y", "1"] then .ok (some "true")
      else if f.unicode.lower (strip text) ∈ ["false", "f", "no", "n", "0"] then
        .ok (some "false")
      else .error (.http 422
        "Boolean custom field values must be true/false, yes/no, 1/0, or null.")

/-- `_normalise_date_value` without an import format. -/
def normaliseDateValue (f : FieldFormats) (value : Option SubmittedText)
    : Except Failure (Option String) :=
  match value with
  | none => .ok none
  | some value =>
      if value = .text "" then .ok none
      else
        match f.isoDate (strip value.str) with
        | some date => .ok (some date)
        | none => .error (.http 422 "Date custom field values must use YYYY-MM-DD.")

/-- `_normalise_currency_value` without a number format. The detail quotes the text. -/
def normaliseCurrencyValue (f : FieldFormats) (value : Option String)
    : Except Failure (Option String) :=
  match value with
  | none => .ok none
  | some value =>
      if value = "" then .ok none
      else
        match f.unicode.parseMoney (strip value) with
        | .invalid => .error (.http 422 (s!"Non-canonical money value: '{strip value}'. "
            ++ "Expected a plain decimal string (e.g. '1234.50')."))
        | _ => .ok (some (strip value))

/-- `normalize_custom_field_value`. -/
def normalizeCustomFieldValue (f : FieldFormats) (definition : CustomFieldDefinition)
    (item : CustomFieldValueItem)
    : Except Failure FieldValue :=
  if definition.fieldType = "boolean" then do
    pure ⟨← normaliseBooleanValue f item.valueText, none⟩
  else if definition.fieldType = "date" then do
    pure ⟨← normaliseDateValue f item.valueText, none⟩
  else if definition.fieldType = "currency" then do
    pure ⟨none, ← normaliseCurrencyValue f item.valueCurrency⟩
  else .ok ⟨item.valueText.map (·.stored), item.valueCurrency⟩

/-- A submitted value with its definition. -/
structure ValueRow where
  definitionId : Nat
  definition : CustomFieldDefinition
  value : FieldValue

/-- The rows of submitted values, in their order. -/
def valueRows (f : FieldFormats) (s : CustomFieldStore)
    : List CustomFieldValueItem → Except Failure (List ValueRow)
  | [] => .ok []
  | item :: rest => do
      let definition ← found (s.definitions.get? item.customFieldDefId)
        (.http 422 s!"Unknown custom_field_def_id(s): {[item.customFieldDefId]}")
      let value ← normalizeCustomFieldValue f definition item
      let rows ← valueRows f s rest
      pure (⟨item.customFieldDefId, definition, value⟩ :: rows)

/-- `_validated_value_rows`. -/
def validatedValueRows (f : FieldFormats) (s : CustomFieldStore)
    (values : List CustomFieldValueItem)
    : Except Failure (List ValueRow) := do
  let ids := values.map (·.customFieldDefId)
  let _ : Unit ← require ids.Nodup
    (.http 422 "Each custom field can appear only once in an embedded write.")
  let missing := ids.filter (fun id => (s.definitions.get? id).isNone)
  let _ : Unit ← require (missing = [])
    (.http 422 s!"Unknown custom_field_def_id(s): {missing.insertionSort (· ≤ ·)}")
  valueRows f s values

/-- Values with a row added for each field of a list. -/
def FieldValues.add (values : FieldValues) (rows : List ValueRow) : FieldValues :=
  rows.foldl (fun values row id => if id = row.definitionId then some row.value else values id)
    values

/-- The rows of fields that are not hidden from renewals. -/
def withoutHidden (rows : List ValueRow) : List ValueRow :=
  rows.filter (fun row => row.definition.renewalBehavior != .hide)

/-- The rows that `replace_values_for_sourcing_item` writes. -/
def lineRows (respectSourcingVisibility : Bool) (line : FieldLine) (rows : List ValueRow)
    : List ValueRow :=
  let rows :=
    if respectSourcingVisibility then rows.filter (·.definition.showOnSourcingForms) else rows
  if line.renewalForLicenseId.isSome then withoutHidden rows else rows

/-- The values that `replace_values_for_sourcing_item` leaves in place. -/
def keptValues (respectSourcingVisibility : Bool) (s : CustomFieldStore) (values : FieldValues)
    : FieldValues :=
  fun id => if respectSourcingVisibility && !s.shown id then values id else none

/-- `replace_values_for_sourcing_item`. -/
def replaceValuesForSourcingItem (f : FieldFormats) (respectSourcingVisibility : Bool)
    (itemId : Nat) (values : List CustomFieldValueItem) (s : CustomFieldStore)
    : Except Failure CustomFieldStore := do
  let rows ← validatedValueRows f s values
  let replace : FieldLine → FieldLine := fun line =>
    let kept := keptValues respectSourcingVisibility s line.values
    { line with values := kept.add (lineRows respectSourcingVisibility line rows) }
  pure { s with lines := s.lines.modify itemId replace }

/-- `replace_values_for_license`. -/
def replaceValuesForLicense (f : FieldFormats) (excludeRenewalHidden : Bool) (licenseId : Nat)
    (values : List CustomFieldValueItem) (s : CustomFieldStore)
    : Except Failure CustomFieldStore := do
  let rows ← validatedValueRows f s values
  let rows := if excludeRenewalHidden then withoutHidden rows else rows
  let replaced : FieldValues := FieldValues.add (fun _ => none) rows
  pure { s with licenses := s.licenses.modify licenseId (fun _ => replaced) }

/-- The values that `snapshot_renewal_values` adds to a new line. -/
def snapshotRenewalValues (s : CustomFieldStore) (predecessor : FieldValues) : FieldValues :=
  fun id => if s.behaves .copy id then predecessor id else none

/-- A value with empty texts as none, unless that leaves nothing. -/
def FieldValue.nonblank? (value : FieldValue) : Option FieldValue :=
  let normalized : FieldValue := ⟨value.text.filter (· ≠ ""), value.currency.filter (· ≠ "")⟩
  if normalized = ⟨none, none⟩ then none else some normalized

/-- The value that all records with a nonblank one have in common. -/
def commonValue (values : List FieldValue) : Option FieldValue :=
  match (values.filterMap FieldValue.nonblank?).dedup with
  | [value] => some value
  | _ => none

/-- The values that `merge_sourcing_values` adds to the merged line. -/
def mergeSourcingValues (s : CustomFieldStore) (itemIds : List Nat) : FieldValues :=
  fun id =>
    if (s.definitions.get? id).any (fun definition => definition.renewalBehavior != .hide) then
      commonValue (itemIds.filterMap (fun itemId => s.lineValue itemId id))
    else none

/-- The values that `transfer_sourcing_values_to_license` adds to a new licence. -/
def transferSourcingValues (s : CustomFieldStore) (line : FieldLine) : FieldValues :=
  fun id =>
    if line.renewalForLicenseId.isNone || (s.definitions.get? id).any
        (fun definition => definition.renewalBehavior != .hide) then
      line.values id
    else none

-- Requests

/-- What can change custom fields and their values. -/
inductive FieldTurn
  /-- `create_definition`. -/
  | define (definition : CustomFieldDefinition)
  /-- `update_definition`. -/
  | redefine (definitionId : Nat) (behavior : Option RenewalBehavior) (shown : Option Bool)
  /-- `delete_definition`. -/
  | undefine (definitionId : Nat)
  /-- A licence that is created outside a renewal. -/
  | createLicense (values : List CustomFieldValueItem)
  /-- An update of a licence that submits custom values. -/
  | writeLicense (licenseId : Nat) (values : List CustomFieldValueItem)
  /-- The deletion of a licence. -/
  | removeLicense (licenseId : Nat)
  /-- A new line of a sourcing request, or of a pending order. -/
  | createLine (sourcing : Bool) (values : List CustomFieldValueItem)
  /-- `initiate_renewal`. -/
  | initiate (licenseId : Nat)
  /-- An edit of a line on a sourcing form. -/
  | editSourcingLine (itemId : Nat) (values : Option (List CustomFieldValueItem))
  /-- An edit of a line on a pending-order form. -/
  | editOrderLine (itemId : Nat) (values : Option (List CustomFieldValueItem))
  /-- `merge_coterm`, with the primary predecessor of the merged line. -/
  | merge (itemIds : List Nat) (primaryId : Nat)
  /-- The deletion of a line. -/
  | removeLine (itemId : Nat)
  /-- The conversion of a line with the values submitted for the licence. -/
  | convert (itemId : Nat) (values : List CustomFieldValueItem)

/-- The edit of a line, whose values stay where none are submitted. -/
def editLine (f : FieldFormats) (respectSourcingVisibility : Bool) (itemId : Nat)
    (values : Option (List CustomFieldValueItem)) (s : CustomFieldStore)
    : Except Failure CustomFieldStore := do
  let _ ← found (s.lines.get? itemId) (.http 404 "Sourcing item not found")
  match values with
  | some values => replaceValuesForSourcingItem f respectSourcingVisibility itemId values s
  | none => pure s

/-- `initiate_renewal`, whose new line takes the snapshot. -/
def initiateRenewal (licenseId : Nat) (s : CustomFieldStore) : Except Failure CustomFieldStore := do
  let values ← found (s.licenses.get? licenseId) (.http 404 "License not found")
  let line : FieldLine :=
    { renewalForLicenseId := some licenseId, values := snapshotRenewalValues s values }
  pure { s with lines := s.lines.insert line }

/-- The lines that a merge loads. -/
def mergedLines (s : CustomFieldStore) (itemIds : List Nat) : List Nat :=
  s.lines.select (fun id _ => itemIds.contains id)

/-- The merge of renewal lines into one new line. -/
def mergeCoterm (itemIds : List Nat) (primaryId : Nat) (s : CustomFieldStore)
    : Except Failure CustomFieldStore := do
  let _ : Unit ← require (2 ≤ itemIds.length)
    (.http 400 "At least two sourcing item IDs are required to merge")
  let missing := itemIds.filter (fun id => (s.lines.get? id).isNone)
  let _ : Unit ← require (missing = []) (.http 404 s!"Sourcing item(s) not found: {missing}")
  let notRenewals := (mergedLines s itemIds).filter
    (fun id => (s.lines.get? id).any (·.renewalForLicenseId.isNone))
  let _ : Unit ← require (notRenewals = [])
    (.http 400 s!"Sourcing item(s) are not renewal items: {notRenewals}")
  let merged : FieldLine :=
    { renewalForLicenseId := some primaryId,
      values := mergeSourcingValues s (mergedLines s itemIds) }
  pure { s with lines := (s.lines.insert merged).filter (fun id _ => !itemIds.contains id) }

/-- `_create_prepared_conversion_license`, as far as custom values go. -/
def convertFields (f : FieldFormats) (itemId : Nat) (values : List CustomFieldValueItem)
    (s : CustomFieldStore)
    : Except Failure CustomFieldStore := do
  let line ← found (s.lines.get? itemId) (.http 404 "Sourcing item not found")
  if values = [] then
    pure { s with licenses := s.licenses.insert (transferSourcingValues s line) }
  else
    replaceValuesForLicense f line.renewalForLicenseId.isSome s.licenses.nextKey values
      { s with licenses := s.licenses.insert (fun _ => none) }

/-- A definition with the submitted columns rewritten. -/
def CustomFieldDefinition.update (definition : CustomFieldDefinition)
    (behavior : Option RenewalBehavior) (shown : Option Bool)
    : CustomFieldDefinition :=
  { definition with
    renewalBehavior := behavior.getD definition.renewalBehavior
    showOnSourcingForms := shown.getD definition.showOnSourcingForms }

/-- Values without those of one field. -/
def FieldValues.without (values : FieldValues) (definitionId : Nat) : FieldValues :=
  fun id => if id = definitionId then none else values id

/-- The deletion of a definition, which takes all its values along. -/
def deleteDefinition (definitionId : Nat) (s : CustomFieldStore) : CustomFieldStore where
  definitions := s.definitions.filter (fun id _ => id != definitionId)
  licenses := s.licenses.mapRows (fun _ values => FieldValues.without values definitionId)
  lines := s.lines.mapRows (fun _ line =>
    { line with values := FieldValues.without line.values definitionId })

/-- What a turn does. -/
def FieldTurn.apply (f : FieldFormats) (turn : FieldTurn) (s : CustomFieldStore)
    : Except Failure CustomFieldStore :=
  match turn with
  | .define definition => .ok { s with definitions := s.definitions.insert definition }
  | .redefine id behavior shown =>
      .ok { s with definitions := s.definitions.modify id (·.update behavior shown) }
  | .undefine id => .ok (deleteDefinition id s)
  | .createLicense values =>
      replaceValuesForLicense f false s.licenses.nextKey values
        { s with licenses := s.licenses.insert (fun _ => none) }
  | .writeLicense id values => replaceValuesForLicense f false id values s
  | .removeLicense id => .ok { s with licenses := s.licenses.filter (fun key _ => key != id) }
  | .createLine sourcing values =>
      replaceValuesForSourcingItem f sourcing s.lines.nextKey values
        { s with lines := s.lines.insert { renewalForLicenseId := none, values := fun _ => none } }
  | .initiate licenseId => initiateRenewal licenseId s
  | .editSourcingLine itemId values => editLine f true itemId values s
  | .editOrderLine itemId values => editLine f false itemId values s
  | .merge itemIds primaryId => mergeCoterm itemIds primaryId s
  | .removeLine itemId => .ok { s with lines := s.lines.filter (fun key _ => key != itemId) }
  | .convert itemId values => convertFields f itemId values s

end LicenseTrack
