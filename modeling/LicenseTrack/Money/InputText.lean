import LicenseTrack.Money.UnitPrice

/-! Stored numbers as editable text in a number format: what `toInputText` shows of a canonical text
is read back as the same number.
-/

namespace LicenseTrack

open Library

variable {u : Unicode}

/-- `parseTypedNumber`: the canonical text, or none where a text is blank or refused. -/
def parseTypedNumber (u : Unicode) (raw : Option String) (numberFormatLocale : String)
    : Option String :=
  match parseTypedNumberResult u raw numberFormatLocale with
  | .number value => some value
  | _ => none

/-- Digits with a separator at each place that a positive number of threes is behind. -/
def groupDigits (group : Char) : List Char → List Char
  | [] => []
  | c :: rest =>
      if rest ≠ [] ∧ rest.length % 3 = 0 then c :: group :: groupDigits group rest
      else c :: groupDigits group rest

/-- `padEnd` with zeros. -/
def padZeros (fraction : List Char) (minFractionDigits : Nat) : List Char :=
  fraction ++ List.replicate (minFractionDigits - fraction.length) '0'

/-- `toInputText`. -/
def toInputText (u : Unicode) (value : Option String) (numberFormatLocale : String)
    (minFractionDigits : Nat)
    : String :=
  let raw := trim jsSpace (value.getD "").toList
  if value.getD "" = "" then ""
  else if !matchesPlain Char.isDigit '.' raw then String.ofList raw
  else
    let (decimal, group) := separatorsFor numberFormatLocale
    let negative := raw.head? == some '-'
    let unsigned := if negative then raw.drop 1 else raw
    let intPart := unsigned.takeWhile (· != '.')
    -- A canonical text has no other point.
    let fracPart := (unsigned.dropWhile (· != '.')).drop 1
    let fraction := padZeros fracPart minFractionDigits
    let decimalPart := fractionText decimal fraction
    let sign := if negative then ['-'] else []
    let grouped := match group with
      | some g => groupDigits g intPart
      | none => intPart
    let text := String.ofList (sign ++ (grouped ++ decimalPart))
    let expected := String.ofList (sign ++ (intPart ++ fractionText '.' fraction))
    -- Without the groups where they would not be read back as the same number.
    if grouped ≠ intPart ∧ parseTypedNumber u (some text) numberFormatLocale ≠ some expected then
      String.ofList (sign ++ (intPart ++ decimalPart))
    else text

/-- The number that a canonical text denotes. -/
def canonicalNumber (text : String) : Option ℚ :=
  (Unicode.ascii.readCanonical text.toList).map Decimal.toRat

theorem ascii_isDecimal : Unicode.ascii.isDecimal = Char.isDigit := by
  funext c
  simp only [Unicode.isDecimal, Unicode.ascii]
  split <;> simp_all

/-- A numeral with zeros behind its fraction. -/
def Numeral.padded (n : Numeral Char.isDigit) (minFractionDigits : Nat) : Numeral Char.isDigit where
  negative := n.negative
  whole := n.whole
  fraction := padZeros n.fraction minFractionDigits
  whole_ne := n.whole_ne
  whole_digits := n.whole_digits
  fraction_digits := by
    refine List.forall_mem_append.mpr ⟨n.fraction_digits, fun c hc => ?_⟩
    rw [List.eq_of_mem_replicate hc]
    rfl

theorem canonicalNumber_numeral (n : Numeral Char.isDigit)
    : canonicalNumber n.canonical = some ((if n.negative then -1 else 1)
      * ((Nat.ofDigitChars 10 (n.whole ++ n.fraction) 0 : ℚ)
        * (10 : ℚ) ^ (-(n.fraction.length : ℤ)))) := by
  have hdigits : Unicode.ascii.ReadsDigits := fun c hc => by
    simp only [Unicode.ascii, if_pos hc]
  obtain ⟨negative, whole, fraction, hne, hwhole, hfraction⟩ := n
  have hall : ∀ c ∈ whole ++ fraction, c.isDigit = true :=
    List.forall_mem_append.mpr ⟨hwhole, hfraction⟩
  let m : Numeral Unicode.ascii.isDecimal :=
    ⟨negative, whole, fraction, hne, ascii_isDecimal ▸ hwhole, ascii_isDecimal ▸ hfraction⟩
  have hread : canonicalNumber m.canonical = some m.value.toRat := by
    rw [canonicalNumber, Numeral.canonical, String.toList_ofList,
      readCanonical_numeral (by decide) (by decide), Option.map_some]
  refine Eq.trans hread (congrArg some ?_)
  rw [Decimal.toRat_eq, ← digitsNumber_eq hdigits hall]
  rfl

theorem canonicalNumber_padded (n : Numeral Char.isDigit) (minFractionDigits : Nat)
    : canonicalNumber (n.padded minFractionDigits).canonical = canonicalNumber n.canonical := by
  rw [canonicalNumber_numeral, canonicalNumber_numeral]
  simp only [Numeral.padded, padZeros]
  rw [← List.append_assoc, Nat.ofDigitChars_append, Nat.ofDigitChars_replicate_zero,
    List.length_append, List.length_replicate]
  generalize minFractionDigits - n.fraction.length = zeros
  generalize Nat.ofDigitChars 10 (n.whole ++ n.fraction) 0 = digits
  have hexponent : -(n.fraction.length : ℤ) = -((n.fraction.length + zeros : ℕ) : ℤ) + zeros := by
    push_cast
    omega
  rw [hexponent, ← Decimal.natPow_mul_zpow]
  push_cast
  congr 2
  ring

theorem cleaned_of_plain {space : Char → Bool} {text : List Char} (hne : text ≠ [])
    (hspace : ∀ c ∈ text, space c = false)
    (hsymbol : ∀ c ∈ text, currencySymbols.contains c = false)
    : cleaned space u text = text := by
  have hfirst : withoutFirstSymbol space text = text := by
    obtain ⟨c, rest, rfl⟩ := List.exists_cons_of_ne_nil hne
    rw [withoutFirstSymbol, hsymbol c List.mem_cons_self, if_neg Bool.false_ne_true]
  have hlast : withoutLastSymbol space text = text := by
    obtain ⟨front, c, rfl⟩ := (List.eq_nil_or_concat text).resolve_left hne
    rw [withoutLastSymbol, List.concat_eq_append, List.getLast?_concat]
    dsimp only
    rw [hsymbol c (by simp), if_neg Bool.false_ne_true]
  rw [cleaned, withoutSymbols, trim_eq_self hspace, hfirst, hlast, words_eq_singleton hne hspace]
  simp [withoutFirstCode, withoutLastCode]

theorem isDigit_plain {c : Char} (h : c.isDigit = true)
    : jsSpace c = false ∧ currencySymbols.contains c = false := by
  have hsymbols : ∀ c ∈ currencySymbols, (!c.isDigit) = true :=
    List.all_eq_true.mp (by decide +kernel)
  have hrange : 48 ≤ c.toNat ∧ c.toNat ≤ 57 := by
    simp only [Char.isDigit, Bool.and_eq_true, decide_eq_true_eq] at h
    exact ⟨UInt32.le_iff_toNat_le.mp h.1, UInt32.le_iff_toNat_le.mp h.2⟩
  constructor
  · rw [Bool.eq_false_iff]
    intro hspace
    simp only [jsSpace, Bool.or_eq_true, Bool.and_eq_true, decide_eq_true_eq, beq_iff_eq] at hspace
    omega
  · rw [Bool.eq_false_iff]
    intro hsymbol
    have hnot := hsymbols c (List.contains_iff_mem.mp hsymbol)
    rw [h] at hnot
    cases hnot

theorem parseTypedNumberResult_plain {locale : String}
    (hlocale : locale ∈ supportedNumberFormatLocales) (n : Numeral Char.isDigit)
    : parseTypedNumberResult u (some (String.ofList (n.plain (separatorsFor locale).1))) locale
      = .number n.canonical := by
  obtain ⟨hsame, hgroup, hdecimal, -⟩ := separators_supported locale hlocale
  have hs := properSeparators (fun _ _ => rfl) hlocale
  have hplain : matchesPlain Char.isDigit (separatorsFor locale).1
      (n.plain (separatorsFor locale).1) = true := by
    rw [hsame]
    exact (matchesPlain_numeral hs.minus hs.decimalDigit).mpr ⟨n, rfl⟩
  have hchar : ∀ c ∈ n.plain (separatorsFor locale).1,
      jsSpace c = false ∧ currencySymbols.contains c = false := by
    intro c hc
    rcases mem_of_matchesPlain hplain hc with hdigit | rfl | rfl
    · exact isDigit_plain hdigit
    · decide +kernel
    · rw [hsame]
      simp only [List.mem_cons, List.not_mem_nil, or_false] at hdecimal
      rcases hdecimal with h | h <;> rw [h] <;> decide +kernel
  have hcleaned : cleaned jsSpace u (n.plain (separatorsFor locale).1)
      = n.plain (separatorsFor locale).1 :=
    cleaned_of_plain (by simp [Numeral.plain, n.whole_ne]) (fun c hc => (hchar c hc).1)
      fun c hc => (hchar c hc).2
  rw [parseTypedNumberResult_some, String.toList_ofList, hcleaned, hsame, hgroup]
  exact (Writes.plain n).readCleaned hs

-- The round trip

/-- What is shown of a canonical text is read back, with zeros behind its fraction. -/
theorem parseTypedNumberResult_toInputText {locale : String}
    (hlocale : locale ∈ supportedNumberFormatLocales) (n : Numeral Char.isDigit)
    (minFractionDigits : Nat)
    : parseTypedNumberResult u (some (toInputText u (some n.canonical) locale minFractionDigits))
        locale
      = .number (n.padded minFractionDigits).canonical := by
  have hplain := parseTypedNumberResult_plain (u := u) hlocale (n.padded minFractionDigits)
  have hpoint : ∀ c ∈ n.whole, (c != '.') = true := fun c hc => by
    rw [bne_iff_ne]
    rintro rfl
    exact absurd (n.whole_digits '.' hc) (by decide)
  obtain ⟨first, rest, hwhole⟩ := List.exists_cons_of_ne_nil n.whole_ne
  have hnotSign : first ≠ '-' := by
    rintro rfl
    exact absurd (n.whole_digits '-' (by simp [hwhole])) (by decide)
  have hmatches : matchesPlain Char.isDigit '.' (n.plain '.') = true :=
    (matchesPlain_numeral (by decide) (by decide)).mpr ⟨n, rfl⟩
  have htrim : trim jsSpace (n.plain '.') = n.plain '.' := by
    refine trim_eq_self fun c hc => ?_
    rcases mem_of_matchesPlain hmatches hc with hdigit | rfl | rfl
    · exact (isDigit_plain hdigit).1
    · decide
    · decide
  have hsome : n.canonical ≠ "" := by
    intro hempty
    have hnil := congrArg String.toList hempty
    rw [Numeral.canonical, String.toList_ofList] at hnil
    simp [Numeral.plain, n.whole_ne] at hnil
  have hnegative : ((n.plain '.').head? == some '-') = n.negative := by
    rw [Numeral.plain, Numeral.sign, hwhole]
    cases n.negative <;> simp [hnotSign]
  have hunsigned : (if n.negative = true then (n.plain '.').drop 1 else n.plain '.')
      = n.whole ++ fractionText '.' n.fraction := by
    rw [Numeral.plain, Numeral.sign]
    cases n.negative <;> simp
  have hint : (n.whole ++ fractionText '.' n.fraction).takeWhile (· != '.') = n.whole := by
    rw [List.takeWhile_append_of_pos hpoint]
    cases n.fraction <;> simp [fractionText]
  have hfrac : ((n.whole ++ fractionText '.' n.fraction).dropWhile (· != '.')).drop 1
      = n.fraction := by
    rw [List.dropWhile_append_of_pos hpoint]
    cases n.fraction <;> simp [fractionText]
  have hraw : n.canonical.toList = n.plain '.' := String.toList_ofList
  -- The texts that are shown and expected, as those of the padded numeral.
  have hsign : (if n.negative = true then ['-'] else []) = (n.padded minFractionDigits).sign := rfl
  have hfraction : padZeros n.fraction minFractionDigits = (n.padded minFractionDigits).fraction :=
    rfl
  have hwholes : n.whole = (n.padded minFractionDigits).whole := rfl
  unfold toInputText
  simp only [Option.getD_some, hsome, if_false, hraw, htrim, hmatches, Bool.not_true,
    Bool.false_eq_true, hnegative, hunsigned, hint, hfrac]
  rw [hsign, hfraction, hwholes, ← Numeral.plain, ← Numeral.plain]
  generalize (match (separatorsFor locale).2 with
    | some g => groupDigits g (n.padded minFractionDigits).whole
    | none => (n.padded minFractionDigits).whole) = grouped
  split
  · exact hplain
  · next hkept =>
      by_cases hgrouped : grouped = (n.padded minFractionDigits).whole
      · rw [hgrouped, ← Numeral.plain]
        exact hplain
      · -- The formatter has tried the text itself.
        have htried := Decidable.not_not.mp fun hrefused => hkept ⟨hgrouped, hrefused⟩
        unfold parseTypedNumber at htried
        split at htried
        · next value hvalue => rw [hvalue, Option.some.inj htried, Numeral.canonical]
        · cases htried

/-- A stored number that a form shows and saves unchanged is accepted and denotes the same number, in
every number format and with any minimum of decimals.
-/
theorem inputText_roundTrip (u : Unicode) (v : String)
    (hv : matchesPlain Char.isDigit '.' v.toList = true) (locale : String)
    (hlocale : locale ∈ supportedNumberFormatLocales) (minFractionDigits : Nat)
    : ∃ value number,
      parseTypedNumberResult u (some (toInputText u (some v) locale minFractionDigits)) locale
          = .number value
        ∧ canonicalNumber value = some number ∧ canonicalNumber v = some number := by
  obtain ⟨n, hn⟩ := (matchesPlain_numeral (by decide) (by decide)).mp hv
  obtain rfl : v = n.canonical := by rw [Numeral.canonical, ← hn, String.ofList_toList]
  have hown := canonicalNumber_numeral n
  refine ⟨_, _, parseTypedNumberResult_toInputText hlocale n minFractionDigits, ?_, hown⟩
  rw [canonicalNumber_padded, hown]

/-- A thousand in the German number format, whose groups would be ambiguous. -/
theorem inputText_roundTrip_thousand
    : toInputText .ascii (some "1000") "de-DE" 0 = "1000"
      ∧ toInputText .ascii (some "1000") "de-DE" 2 = "1.000,00"
      ∧ ∃ value number,
        parseTypedNumberResult .ascii (some (toInputText .ascii (some "1000") "de-DE" 0)) "de-DE"
            = .number value
          ∧ canonicalNumber value = some number ∧ canonicalNumber "1000" = some number := by
  refine ⟨by decide +kernel, by decide +kernel, ?_⟩
  exact inputText_roundTrip .ascii "1000" (by decide +kernel) "de-DE" (by decide +kernel) 0

end LicenseTrack
