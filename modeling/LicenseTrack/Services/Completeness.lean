import LicenseTrack.Money.NumberParsers
import LicenseTrack.Money.UnitPrice
import LicenseTrack.Services.LicenseRules

/-! The completeness of a record: the backend's `compute_completeness` and the browser's
`getCompleteness`, which list the fields, their applicability and their checks separately.
-/

namespace LicenseTrack

open Library

/-- `DocumentCategory`, which has every value of `ProcurementDocumentCategory`. -/
inductive DocumentCategory
  | invoice
  | eula
  | entitlement
  | quote
  | purchaseOrder
  | other
deriving DecidableEq, Repr

/-- A field that both sides know. -/
inductive MandatoryField
  | invoice
  | eula
  | entitlement
  | purchaseOrder
  | quote
  | startDate
  | endDate
  | noticeDate
  | contractNumber
  | poNumber
  | invoiceNumber
  | contactEmail
  | costCentre
  | budgetOwnerEmail
deriving DecidableEq, Repr

namespace MandatoryField

/-- The keys of `fieldMap`, in its order. -/
def all : List MandatoryField :=
  [invoice, eula, entitlement, purchaseOrder, quote, startDate, endDate, noticeDate,
    contractNumber, poNumber, invoiceNumber, contactEmail, costCentre, budgetOwnerEmail]

/-- The key of a field in a configuration. -/
def key : MandatoryField → String
  | invoice => "invoice"
  | eula => "eula"
  | entitlement => "entitlement"
  | purchaseOrder => "purchaseOrder"
  | quote => "quote"
  | startDate => "startDate"
  | endDate => "endDate"
  | noticeDate => "noticeDate"
  | contractNumber => "contractNumber"
  | poNumber => "poNumber"
  | invoiceNumber => "invoiceNumber"
  | contactEmail => "contactEmail"
  | costCentre => "costCentre"
  | budgetOwnerEmail => "budgetOwnerEmail"

/-- The field of a key, none where the key names none. -/
def ofKey? (key : String) : Option MandatoryField := all.find? (fun field => field.key == key)

theorem mem_all (field : MandatoryField) : field ∈ all := by
  cases field <;> decide

theorem nodup_all : all.Nodup := by decide

theorem key_injective : Function.Injective key := by
  intro a b h
  have hall : ∀ x ∈ all, ∀ y ∈ all, x.key = y.key → x = y := by decide +kernel
  exact hall a (mem_all a) b (mem_all b) h

@[simp] theorem ofKey?_key (field : MandatoryField) : ofKey? field.key = some field := by
  have hall : ∀ x ∈ all, ofKey? x.key = some x := by decide +kernel
  exact hall field (mem_all field)

theorem ofKey?_eq_some {key : String} {field : MandatoryField} (h : ofKey? key = some field)
    : field.key = key := by
  simpa using List.find?_some h

end MandatoryField

/-- `mandatory_fields`: the switch of each key. The settings schema admits any key. -/
structure MandatoryFields where
  entries : List (String × Bool)
  nodup : (entries.map Prod.fst).Nodup

/-- Whether a key is switched on. -/
def MandatoryFields.on (mandatoryFields : MandatoryFields) (key : String) : Bool :=
  (mandatoryFields.entries.lookup key).getD false

/-- `_NON_ENTITLEMENT_LICENSE_TYPES`. -/
def LicenseType.isNonEntitlement : LicenseType → Bool
  | .freeware | .service | .other => true
  | _ => false

/-- `_ENTITLEMENT_DOCUMENT_FIELDS`. -/
def entitlementDocumentFields : List MandatoryField := [.entitlement, .eula]

/-- `_FREEWARE_ALWAYS_INAPPLICABLE_FIELDS`. -/
def freewareAlwaysInapplicableFields : List MandatoryField := [.contactEmail, .entitlement, .eula]

/-- `_FREEWARE_PURCHASE_FIELDS`. -/
def freewarePurchaseFields : List MandatoryField :=
  [.invoice, .invoiceNumber, .contractNumber, .poNumber, .purchaseOrder, .quote]

/-- `_has_paid_included_support`. -/
def hasPaidIncludedSupport (u : Unicode) (l : License) : Bool :=
  if l.maintenanceCoverage ≠ .included then false
  else match u.parseMoney (l.maintenanceCost.getD "") with
    | .amount cost => !cost.negative && cost.coefficient != 0
    | .blank => false
    | .invalid => false

/-- `_is_applicable_mandatory_field`, none standing for a key that names no field. -/
def isApplicableMandatoryField (u : Unicode) (l : License) : Option MandatoryField → Bool
  | none => true
  | some field =>
      if l.licenseType.isNonEntitlement && entitlementDocumentFields.contains field then false
      else if l.licenseType ≠ .freeware then true
      else if freewareAlwaysInapplicableFields.contains field then false
      else if freewarePurchaseFields.contains field then hasPaidIncludedSupport u l
      else true

/-- `_check_mandatory_field`, none standing for a key that names no field. -/
def checkMandatoryField (l : License) (documents : List DocumentCategory)
    : Option MandatoryField → Bool
  | some .invoice => documents.contains .invoice
  | some .eula => documents.contains .eula
  | some .entitlement => documents.contains .entitlement
  | some .purchaseOrder => documents.contains .purchaseOrder
  | some .quote => documents.contains .quote
  | some .endDate =>
      l.endDate.isSome || l.licenseType.isNonExpiring
        || !isRenewableLicense l.licenseType l.isRenewable
  | some .startDate => l.startDate.isSome
  | some .noticeDate => l.noticeDate.isSome
  | some .contractNumber => l.contractNumber != ""
  | some .poNumber => l.poNumber != ""
  | some .invoiceNumber => l.invoiceNumber != ""
  | some .contactEmail => l.contactEmail != ""
  | some .costCentre => l.costCentre != ""
  | some .budgetOwnerEmail => l.budgetOwnerEmail != ""
  | none => false

/-- The keys that count for a licence, `enabled_keys`. -/
def enabledKeys (u : Unicode) (l : License) (mandatoryFields : MandatoryFields) : List String :=
  (mandatoryFields.entries.filter fun entry =>
    entry.2 && isApplicableMandatoryField u l (MandatoryField.ofKey? entry.1)).map Prod.fst

/-- `compute_completeness`. Python's `round` takes halves to even. -/
def computeCompleteness (u : Unicode) (l : License) (documents : List DocumentCategory)
    (mandatoryFields : MandatoryFields)
    : Option Nat :=
  if l.isCompletenessExempt then none
  else
    let enabled := enabledKeys u l mandatoryFields
    if enabled.isEmpty then some 100
    else
      let met := enabled.countP fun key =>
        checkMandatoryField l documents (MandatoryField.ofKey? key)
      some (Decimal.halfEven (met * 100) enabled.length)

/-- The value of a digit or a letter in a base up to 16. -/
def digitValue (base : Nat) (c : Char) : Option Nat :=
  let value :=
    if '0' ≤ c ∧ c ≤ '9' then c.toNat - 48
    else if 'a' ≤ c ∧ c ≤ 'f' then c.toNat - 87
    else if 'A' ≤ c ∧ c ≤ 'F' then c.toNat - 55
    else base
  if value < base then some value else none

/-- The number of a digit string, none where it is empty or another character stands in it. -/
def radixValue (base : Nat) (text : List Char) : Option Nat :=
  if text.isEmpty then none
  else text.foldl
    (fun value c => value.bind fun v => (digitValue base c).map fun d => base * v + d) (some 0)

/-- The exponent of a decimal literal, behind its letter. -/
def readExponent : List Char → Option Int
  | '+' :: digits => (radixValue 10 digits).map Int.ofNat
  | '-' :: digits => (radixValue 10 digits).map fun value => -(value : Int)
  | digits => (radixValue 10 digits).map Int.ofNat

/-- An unsigned decimal literal, as its digits and the power of ten that they count. -/
def readDecimalLiteral (text : List Char) : Option (Nat × Int) :=
  let whole := text.takeWhile Char.isDigit
  let afterWhole := text.dropWhile Char.isDigit
  let (fraction, rest) := match afterWhole with
    | '.' :: more => (more.takeWhile Char.isDigit, more.dropWhile Char.isDigit)
    | _ => ([], afterWhole)
  match radixValue 10 (whole ++ fraction), rest with
  | none, _ => none
  | some digits, [] => some (digits, -(fraction.length : Int))
  | some digits, letter :: exponent =>
      if letter = 'e' ∨ letter = 'E' then
        (readExponent exponent).map fun power => (digits, power - fraction.length)
      else none

/-- Whether a decimal literal is a number above zero. What is at most half of the least positive
number, `2 ^ -1074`, becomes zero.
-/
def isPositiveLiteral (text : List Char) : Bool :=
  text == "Infinity".toList
    || (readDecimalLiteral text).any fun (digits, power) =>
      if 0 ≤ power then 0 < digits else 10 ^ (-power).toNat < digits * 2 ^ 1075

/-- `Number(text) > 0`. -/
def isPositiveNumber (text : String) : Bool :=
  match stripChars jsSpace text.toList with
  | '-' :: _ => false
  | '+' :: unsigned => isPositiveLiteral unsigned
  | '0' :: letter :: digits =>
      if letter = 'x' ∨ letter = 'X' then (radixValue 16 digits).any (0 < ·)
      else if letter = 'o' ∨ letter = 'O' then (radixValue 8 digits).any (0 < ·)
      else if letter = 'b' ∨ letter = 'B' then (radixValue 2 digits).any (0 < ·)
      else isPositiveLiteral ('0' :: letter :: digits)
  | unsigned => isPositiveLiteral unsigned

namespace Browser

/-- `hasPaidIncludedSupport`. No cost is the number zero. -/
def hasPaidIncludedSupport (l : License) : Bool :=
  l.maintenanceCoverage == .included && l.maintenanceCost.any isPositiveNumber

/-- The `label` of a field. -/
def label : MandatoryField → String
  | .invoice => "Invoice document"
  | .eula => "EULA document"
  | .entitlement => "Proof of entitlement"
  | .purchaseOrder => "Purchase order document"
  | .quote => "Quote document"
  | .startDate => "Start date"
  | .endDate => "End date / Non-expiring type"
  | .noticeDate => "Notice date"
  | .contractNumber => "Contract number"
  | .poNumber => "PO number"
  | .invoiceNumber => "Invoice number"
  | .contactEmail => "Supplier contact"
  | .costCentre => "Cost Centre"
  | .budgetOwnerEmail => "Budget owner email"

/-- `license.documents[category]?.length > 0`, the documents being kept by category. -/
def hasDocuments (documents : List DocumentCategory) (category : DocumentCategory) : Bool :=
  0 < (documents.filter (· == category)).length

/-- The `check` of a field. -/
def check (l : License) (documents : List DocumentCategory) : MandatoryField → Bool
  | .invoice => hasDocuments documents .invoice
  | .eula => hasDocuments documents .eula
  | .entitlement => hasDocuments documents .entitlement
  | .purchaseOrder => hasDocuments documents .purchaseOrder
  | .quote => hasDocuments documents .quote
  | .startDate => l.startDate.isSome
  | .endDate =>
      l.endDate.isSome || l.licenseType.isNonExpiring
        || !isRenewableLicense l.licenseType l.isRenewable
  | .noticeDate => l.noticeDate.isSome
  | .contractNumber => l.contractNumber != ""
  | .poNumber => l.poNumber != ""
  | .invoiceNumber => l.invoiceNumber != ""
  | .contactEmail => l.contactEmail != ""
  | .costCentre => l.costCentre != ""
  | .budgetOwnerEmail => l.budgetOwnerEmail != ""

/-- `applies`. -/
def applies (l : License) (field : MandatoryField) : Bool :=
  !(l.licenseType.isNonEntitlement && entitlementDocumentFields.contains field)
    && (l.licenseType != .freeware
      || (!freewareAlwaysInapplicableFields.contains field
        && (!freewarePurchaseFields.contains field || hasPaidIncludedSupport l)))

/-- One line of the checklist. -/
structure Check where
  field : String
  met : Bool
deriving DecidableEq, Repr

/-- What `getCompleteness` returns. -/
structure Completeness where
  percentage : Nat
  checks : List Check
  isComplete : Bool
deriving DecidableEq, Repr

/-- The fields that the checklist of a licence holds. -/
def checkedFields (l : License) (mandatoryFields : MandatoryFields) : List MandatoryField :=
  MandatoryField.all.filter fun field => mandatoryFields.on field.key && applies l field

/-- `getCompleteness`. `Math.round` takes halves up. -/
def getCompleteness (l : License) (documents : List DocumentCategory)
    (mandatoryFields : MandatoryFields)
    : Completeness :=
  let checks := (checkedFields l mandatoryFields).map fun field =>
    (⟨label field, check l documents field⟩ : Check)
  let met := checks.filter (·.met)
  {
    percentage :=
      if 0 < checks.length then Decimal.halfUp (met.length * 100) checks.length else 100
    checks
    isComplete := met.length == checks.length
  }

end Browser

end LicenseTrack
