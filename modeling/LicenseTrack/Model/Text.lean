import Mathlib.Algebra.Group.Nat.Defs
import Mathlib.Data.List.DropRight
import Mathlib.Data.List.Sort

/-! Text and decimal values as the backend handles them: Python string helpers, the SQLite
text functions used in queries, and canonical money strings.
-/

namespace LicenseTrack

/-- The tables of the Unicode database that the code reads. They are left open, so that
every result holds for the tables of any Unicode version.
-/
structure Unicode where
  nfkc : String → String
  lower : String → String
  /-- The case folding of one character, which is never nothing. -/
  casefoldChar : Char → List Char
  casefoldChar_ne : ∀ c, casefoldChar c ≠ []
  /-- The upper case of one character, which is never nothing. -/
  upperChar : Char → List Char
  upperChar_ne : ∀ c, upperChar c ≠ []
  /-- The value of a decimal digit character, matched by a regular expression's digit class. -/
  digit : Char → Option Nat

/-- Tables that know the ASCII characters only, on which examples are computed. -/
def Unicode.ascii : Unicode where
  nfkc := id
  lower text := String.ofList (text.toList.map Char.toLower)
  casefoldChar c := [c.toLower]
  casefoldChar_ne _ := List.cons_ne_nil _ _
  upperChar c := [c.toUpper]
  upperChar_ne _ := List.cons_ne_nil _ _
  digit c := if c.isDigit then some (c.toNat - '0'.toNat) else none

/-- `str.casefold()`. -/
def Unicode.casefold (u : Unicode) (text : String) : String :=
  String.ofList (text.toList.flatMap u.casefoldChar)

/-- `str.upper()`. -/
def Unicode.upper (u : Unicode) (text : String) : String :=
  String.ofList (text.toList.flatMap u.upperChar)

/-- Characters that `str.strip` and `str.split` treat as white space. -/
def isSpace (c : Char) : Bool :=
  let n := c.toNat
  (9 ≤ n && n ≤ 13) || (28 ≤ n && n ≤ 32) || n == 0x85 || n == 0xA0 || n == 0x1680
    || (0x2000 ≤ n && n ≤ 0x200A) || n == 0x2028 || n == 0x2029 || n == 0x202F
    || n == 0x205F || n == 0x3000

/-- `str.strip` with the given white space. -/
def stripChars (space : Char → Bool) (text : List Char) : List Char :=
  ((text.dropWhile space).reverse.dropWhile space).reverse

/-- `str.strip()`. -/
def strip (text : String) : String := String.ofList (stripChars isSpace text.toList)

/-- Whether a text is empty after `str.strip()`, which is how the code tests for blank. -/
def isBlank (text : String) : Bool := text.toList.all isSpace

theorem stripChars_stripChars (space : Char → Bool) (text : List Char)
    : stripChars space (stripChars space text) = stripChars space text := by
  have hfront : (stripChars space text).dropWhile space = stripChars space text := by
    refine List.dropWhile_eq_self_iff.mpr fun hl => ?_
    have hp : stripChars space text <+: text.dropWhile space := List.rdropWhile_prefix space _
    have hl' := Nat.lt_of_lt_of_le hl hp.length_le
    rw [hp.getElem hl]
    exact List.dropWhile_get_zero_not space text hl'
  change List.rdropWhile space ((stripChars space text).dropWhile space) = _
  rw [hfront]
  exact List.rdropWhile_idempotent space _

theorem strip_strip (text : String) : strip (strip text) = strip text := by
  simp [strip, stripChars_stripChars]

theorem strip_ne {text : String} (h : isBlank text = false) : strip text ≠ "" := by
  intro he
  have hnil : stripChars isSpace text.toList = [] := by
    simpa [strip] using congrArg String.toList he
  have hall : ∀ c ∈ text.toList.dropWhile isSpace, isSpace c = true :=
    List.rdropWhile_eq_nil_iff.mp hnil
  have hdrop : text.toList.dropWhile isSpace = [] := by
    by_contra hne
    have hhead := List.head_dropWhile_not isSpace hne
    rw [hall _ (List.head_mem hne)] at hhead
    cases hhead
  have hblank : isBlank text = true := List.all_eq_true.mpr (List.dropWhile_eq_nil_iff.mp hdrop)
  rw [h] at hblank
  cases hblank

/-- The words of a text, in the sense of `str.split()`, before their joining. The second
argument is the word read so far, reversed.
-/
def splitWords : List Char → List Char → List (List Char)
  | [], word => if word.isEmpty then [] else [word.reverse]
  | c :: rest, word =>
      if isSpace c then
        if word.isEmpty then splitWords rest [] else word.reverse :: splitWords rest []
      else splitWords rest (c :: word)

/-- `" ".join(text.split())`. -/
def joinWords (text : String) : String :=
  String.ofList ((splitWords text.toList []).intersperse [' '] |>.flatten)

/-- A word: nonempty, without white space. -/
def IsWord (word : List Char) : Prop := word ≠ [] ∧ ∀ c ∈ word, isSpace c = false

theorem splitWords_isWord {text word : List Char} (hword : ∀ c ∈ word, isSpace c = false)
    {w : List Char} (hw : w ∈ splitWords text word)
    : IsWord w := by
  induction text generalizing word with
  | nil =>
      cases word with
      | nil => simp [splitWords] at hw
      | cons c rest =>
          obtain rfl : w = (c :: rest).reverse := by simpa [splitWords] using hw
          exact ⟨by simp, fun d hd => hword d (List.mem_reverse.mp hd)⟩
  | cons c text ih =>
      simp only [splitWords] at hw
      split at hw
      · split at hw
        · exact ih (fun _ h => absurd h List.not_mem_nil) hw
        · next hne =>
            rcases List.mem_cons.mp hw with rfl | hw
            · exact ⟨by simpa using hne, fun d hd => hword d (List.mem_reverse.mp hd)⟩
            · exact ih (fun _ h => absurd h List.not_mem_nil) hw
      · next hc =>
          exact ih (List.forall_mem_cons.mpr ⟨Bool.eq_false_iff.mpr hc, hword⟩) hw

theorem splitWords_append {w : List Char} (hw : ∀ c ∈ w, isSpace c = false) (rest word : List Char)
    : splitWords (w ++ rest) word = splitWords rest (w.reverse ++ word) := by
  induction w generalizing word with
  | nil => rfl
  | cons c w ih =>
      obtain ⟨hc, hw⟩ := List.forall_mem_cons.mp hw
      simp [splitWords, hc, ih hw]

theorem splitWords_joined {words : List (List Char)} (hwords : ∀ w ∈ words, IsWord w)
    : splitWords (words.intersperse [' ']).flatten [] = words := by
  induction words with
  | nil => rfl
  | cons w rest ih =>
      obtain ⟨⟨hne, hw⟩, hrest⟩ := List.forall_mem_cons.mp hwords
      cases rest with
      | nil =>
          have := splitWords_append hw [] []
          simpa [splitWords, hne] using this
      | cons w' rest =>
          have hjoined : ((w :: w' :: rest).intersperse [' ']).flatten
              = w ++ ' ' :: ((w' :: rest).intersperse [' ']).flatten := by
            simp [List.intersperse]
          have hspace : isSpace ' ' = true := by decide
          rw [hjoined, splitWords_append hw]
          simp only [splitWords, hspace, if_true, ih hrest]
          simp [hne]

theorem joinWords_joinWords (text : String) : joinWords (joinWords text) = joinWords text := by
  have hwords : ∀ w ∈ splitWords text.toList [], IsWord w := fun w hw =>
    splitWords_isWord (fun _ h => absurd h List.not_mem_nil) hw
  unfold joinWords
  rw [String.toList_ofList, splitWords_joined hwords]

/-- `normalize_po_number`. -/
def Unicode.normalizePoNumber (unicode : Unicode) (value : String) : String :=
  unicode.casefold (joinWords value)

/-- `normalize_contract_number`. -/
def Unicode.normalizeContractNumber (unicode : Unicode) (value : String) : String :=
  unicode.lower (strip value)

/-- `clean_reference_name`, before its check for a blank name. -/
def Unicode.cleanReferenceName (unicode : Unicode) (value : String) : String :=
  joinWords (unicode.nfkc value)

/-- `normalize_reference_name`. -/
def Unicode.normalizeReferenceName (unicode : Unicode) (value : String) : String :=
  unicode.casefold (joinWords (unicode.nfkc value))

/-- Cleaning a clean name changes nothing: a text in normalisation form KC stays in it when its
white space is replaced by single spaces.
-/
def Unicode.CleansOnce (unicode : Unicode) : Prop :=
  ∀ value, unicode.cleanReferenceName (unicode.cleanReferenceName value)
    = unicode.cleanReferenceName value

theorem Unicode.ascii_cleansOnce : Unicode.ascii.CleansOnce :=
  fun value => joinWords_joinWords value

/-- `normalize_entitlement_identity`. -/
def Unicode.normalizeEntitlementIdentity (unicode : Unicode) (value : String) : String :=
  joinWords (unicode.casefold (strip value))

/-- SQLite folds the case of ASCII letters only. -/
def sqlUpper (text : String) : String := String.ofList (text.toList.map Char.toUpper)

/-- SQLite folds the case of ASCII letters only. -/
def sqlLower (text : String) : String := String.ofList (text.toList.map Char.toLower)

/-- SQLite trims the space character only. -/
def sqlTrim (text : String) : String := String.ofList (stripChars (· == ' ') text.toList)

-- Decimal numbers

/-- A value of Python's `Decimal`: sign, digits and exponent, so that `1.50` and `1.5`
differ.
-/
structure Decimal where
  negative : Bool
  coefficient : Nat
  exponent : Int
deriving DecidableEq

/-- The precision of the default decimal context. -/
def decimalPrecision : Nat := 28

/-- Rounds to the precision of the default context, halves to even. -/
def Decimal.round (d : Decimal) : Decimal :=
  let digits := (Nat.toDigits 10 d.coefficient).length
  if digits ≤ decimalPrecision then d
  else
    let dropped := digits - decimalPrecision
    let unit := 10 ^ dropped
    let quotient := d.coefficient / unit
    let rest := d.coefficient % unit
    let rounded := if 2 * rest > unit || (2 * rest == unit && quotient % 2 == 1)
      then quotient + 1 else quotient
    -- Rounding up may carry into one digit too many.
    if rounded == 10 ^ decimalPrecision then
      { d with coefficient := rounded / 10, exponent := d.exponent + dropped + 1 }
    else { d with coefficient := rounded, exponent := d.exponent + dropped }

/-- The product under the default context. -/
def Decimal.mul (a b : Decimal) : Decimal :=
  Decimal.round
    {
      negative := a.negative != b.negative
      coefficient := a.coefficient * b.coefficient
      exponent := a.exponent + b.exponent
    }

/-- `format(value, "f")`. -/
def Decimal.format (d : Decimal) : String :=
  let digits := Nat.toDigits 10 d.coefficient
  let body :=
    if 0 ≤ d.exponent then
      if d.coefficient = 0 then digits else digits ++ List.replicate d.exponent.toNat '0'
    else
      let places := (-d.exponent).toNat
      let padded := List.replicate (places + 1 - digits.length) '0' ++ digits
      padded.take (padded.length - places) ++ '.' :: padded.drop (padded.length - places)
  String.ofList (if d.negative then '-' :: body else body)

/-- The digits at the front of a text, as a number with their count, and the rest. -/
def Unicode.readDigits (unicode : Unicode) : List Char → Nat → Nat → Nat × Nat × List Char
  | [], value, count => (value, count, [])
  | c :: rest, value, count =>
      match unicode.digit c with
      | some d => unicode.readDigits rest (10 * value + d) (count + 1)
      | none => (value, count, c :: rest)

/-- A canonical decimal text: an optional minus, digits, and optionally a point and digits. -/
def Unicode.readCanonical (unicode : Unicode) (text : List Char) : Option Decimal :=
  let (negative, unsigned) := match text with
    | '-' :: rest => (true, rest)
    | other => (false, other)
  let (whole, wholeCount, afterWhole) := unicode.readDigits unsigned 0 0
  if wholeCount = 0 then none
  else match afterWhole with
    | [] => some { negative, coefficient := whole, exponent := 0 }
    | '.' :: fraction =>
        let (value, count, rest) := unicode.readDigits fraction whole 0
        if count = 0 || !rest.isEmpty then none
        else some { negative, coefficient := value, exponent := -(count : Int) }
    | _ => none

/-- `is_canonical_money`. -/
def Unicode.isCanonicalMoney (unicode : Unicode) (raw : String) : Bool :=
  (unicode.readCanonical (stripChars isSpace raw.toList)).isSome

/-- What `parse_money` makes of a text. -/
inductive Money
  | blank
  | amount (value : Decimal)
  | invalid
deriving DecidableEq

/-- `parse_money`, an invalid text standing for `MoneyParseError`. -/
def Unicode.parseMoney (unicode : Unicode) (raw : String) : Money :=
  if isBlank raw then .blank
  else match unicode.readCanonical (stripChars isSpace raw.toList) with
    | some value => .amount value
    | none => .invalid

/-- `calc_line_total`, already formatted as the callers do. -/
def Unicode.calcLineTotal (unicode : Unicode) (quantity unitPrice : String) : Option String :=
  match unicode.parseMoney quantity, unicode.parseMoney unitPrice with
  | .amount q, .amount p => some (q.mul p).format
  | _, _ => none

/-- `calculate_per_unit_support_total`. -/
def Unicode.perUnitSupportTotal (unicode : Unicode) (quantity unitPrice : Option String)
    : Option String :=
  unicode.calcLineTotal (quantity.getD "") (unitPrice.getD "")

/-- `calculate_acquisition_total`, where any invalid text on the way gives none. -/
def Unicode.acquisitionTotal (unicode : Unicode)
    (quantity unitPrice estimatedTotal : Option String)
    : Option String :=
  match unicode.parseMoney (estimatedTotal.getD "") with
  | .amount total => some total.format
  | .invalid => none
  | .blank => unicode.calcLineTotal (quantity.getD "") (unitPrice.getD "")

end LicenseTrack
