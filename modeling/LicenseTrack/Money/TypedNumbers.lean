import LicenseTrack.Money.ReadAlike

/-! On which texts the browser and the backend read the same number: on all but those with a
character that only one of the two languages counts as white space or as a digit, and that the
parser of that language reads as part of a number or drops from a blank text.
-/

namespace LicenseTrack

open Library

variable {u : Unicode} {text : List Char}

/-- What the parsers rely on in the Unicode database: the decimal digits continue the ASCII digits,
and neither they nor white space have a case.
-/
structure Unicode.NumberClasses (u : Unicode) : Prop where
  ascii : ∀ c, c.toNat < 128 → u.isDecimal c = c.isDigit
  space : ∀ c, u.isDecimal c = true → isSpace c = false ∧ c ≠ '\ufeff'
  symbol : ∀ c ∈ currencySymbols, u.isDecimal c = false
  uncased : ∀ c, u.isDecimal c = true ∨ isSpace c = true ∨ c = '\ufeff' → u.upperChar c = [c]

/-- A character that Python counts as white space or as a digit and JavaScript does not. -/
def PythonOnly (u : Unicode) (c : Char) : Prop :=
  (isSpace c = true ∧ jsSpace c = false) ∨ (u.isDecimal c = true ∧ c.isDigit = false)

/-- A character that JavaScript counts as white space and Python does not. -/
def BrowserOnly (c : Char) : Prop := jsSpace c = true ∧ isSpace c = false

theorem BrowserOnly.eq {c : Char} (h : BrowserOnly c) : c = '\ufeff' := by
  obtain ⟨hjs, hpython⟩ := h
  apply Char.ext
  apply UInt32.toNat_inj.mp
  change c.toNat = 0xFEFF
  simp only [jsSpace, isSpace, Bool.or_eq_true, Bool.and_eq_true, decide_eq_true_eq, beq_iff_eq,
    Bool.or_eq_false_iff, Bool.and_eq_false_iff, decide_eq_false_iff_not, beq_eq_false_iff_ne]
    at hjs hpython
  omega

theorem isSpace_of_jsSpace {c : Char} (h : jsSpace c = true) : isSpace c = true ∨ c = '\ufeff' := by
  cases hspace : isSpace c with
  | true => exact .inl rfl
  | false => exact .inr (BrowserOnly.eq ⟨h, hspace⟩)

theorem isDigit_lt {c : Char} (h : c.isDigit = true) : c.toNat < 128 := by
  simp only [Char.isDigit, Bool.and_eq_true, decide_eq_true_eq] at h
  have := h.2
  change c.val ≤ 57 at this
  have hle := UInt32.le_iff_toNat_le.mp this
  change c.toNat ≤ 57 at hle
  omega

theorem not_upper {c : Char} (hu : u.NumberClasses) (hc : u.isDecimal c = true ∨ isSpace c = true
    ∨ c = '\ufeff')
    : c.isUpper = false := by
  by_contra hupper
  have hupper : 65 ≤ c.val ∧ c.val ≤ 90 := of_decide_eq_true ((Bool.not_eq_false _).mp hupper)
  have hfrom : 65 ≤ c.toNat := UInt32.le_iff_toNat_le.mp hupper.1
  have hto : c.toNat ≤ 90 := UInt32.le_iff_toNat_le.mp hupper.2
  rcases hc with hc | hc | rfl
  · rw [hu.ascii c (by omega)] at hc
    simp only [Char.isDigit, Bool.and_eq_true, decide_eq_true_eq] at hc
    have hle : c.toNat ≤ 57 := UInt32.le_iff_toNat_le.mp hc.2
    omega
  · simp only [isSpace, Bool.or_eq_true, Bool.and_eq_true, decide_eq_true_eq, beq_iff_eq] at hc
    omega
  · exact absurd hto (by decide)

theorem not_currencyCode (hu : u.NumberClasses) {c : Char}
    (hc : u.isDecimal c = true ∨ isSpace c = true ∨ c = '\ufeff') {word : List Char} (hm : c ∈ word)
    : isCurrencyCode u word = false := by
  by_contra hcode
  rw [Bool.not_eq_false, isCurrencyCode, List.contains_iff_mem] at hcode
  have hletters : ∀ code ∈ currencyCodes, code.toList.all Char.isUpper = true := by decide +kernel
  have hcapital : c ∈ (u.upper (String.ofList word)).toList := by
    rw [Unicode.upper, String.toList_ofList, String.toList_ofList]
    exact List.mem_flatMap.mpr ⟨c, hm, by rw [hu.uncased c hc]; exact List.mem_singleton_self c⟩
  have hupper := List.all_eq_true.mp (hletters _ hcode) c hcapital
  rw [not_upper hu hc] at hupper
  cases hupper

theorem PythonOnly.lasting (hu : u.NumberClasses) {c : Char} (h : PythonOnly u c)
    : Lasting u jsSpace c where
  space := by
    rcases h with ⟨-, h⟩ | ⟨h, -⟩
    · exact h
    · by_contra hjs
      rcases isSpace_of_jsSpace (Bool.not_eq_false _ ▸ hjs) with hspace | rfl
      · rw [(hu.space c h).1] at hspace
        cases hspace
      · exact (hu.space _ h).2 rfl
  symbol := by
    have hsymbols : ∀ d ∈ currencySymbols, (!isSpace d) = true :=
      List.all_eq_true.mp (by decide +kernel)
    by_contra hsymbol
    rw [Bool.not_eq_false, List.contains_iff_mem] at hsymbol
    rcases h with ⟨h, -⟩ | ⟨h, -⟩
    · rw [show isSpace c = false from Bool.not_eq_eq_eq_not.mp (hsymbols c hsymbol)] at h
      cases h
    · rw [hu.symbol c hsymbol] at h
      cases h
  code := fun _ hm => not_currencyCode hu (h.elim (fun h => .inr (.inl h.1)) (fun h => .inl h.1)) hm

theorem BrowserOnly.lasting (hu : u.NumberClasses) {c : Char} (h : BrowserOnly c)
    : Lasting u isSpace c where
  space := h.2
  symbol := by
    rw [h.eq]
    decide +kernel
  code := fun _ hm => not_currencyCode hu (.inr (.inr h.eq)) hm

/-- The group separator that a parser uses, which is no white space. -/
def usedGroup (numberFormatLocale : String) : Option Char :=
  (numberFormatSeparators numberFormatLocale).2.filter (fun c => !isSpace c)

theorem separators_supported
    : ∀ locale ∈ supportedNumberFormatLocales,
        separatorsFor locale = numberFormatSeparators locale
        ∧ (numberFormatSeparators locale).2.filter (fun c => !jsSpace c) = usedGroup locale
        ∧ (numberFormatSeparators locale).1 ∈ ['.', ',']
        ∧ (usedGroup locale).all (fun g =>
            ['.', ',', '\''].contains g && g != (numberFormatSeparators locale).1) = true := by
  decide +kernel

theorem properSeparators {digit : Char → Bool} (hdigit : ∀ c, c.toNat < 128 → digit c = c.isDigit)
    {locale : String} (hlocale : locale ∈ supportedNumberFormatLocales)
    : ProperSeparators digit (numberFormatSeparators locale).1 (usedGroup locale) := by
  obtain ⟨-, -, hdecimal, hgroup⟩ := separators_supported locale hlocale
  have hcases : ∀ c ∈ ['.', ',', '\'', '-'], digit c = false := fun c hc => by
    have hascii : ∀ c ∈ ['.', ',', '\'', '-'], (decide (c.toNat < 128) && !c.isDigit) = true :=
      List.all_eq_true.mp (by decide)
    obtain ⟨hlt, hnot⟩ := Bool.and_eq_true_iff.mp (hascii c hc)
    have hdigit' : c.isDigit = false := Bool.not_eq_eq_eq_not.mp hnot
    rw [hdigit c (of_decide_eq_true hlt), hdigit']
  refine ⟨hcases _ (by simp), hcases _ (by simp), ?_, ?_, fun g hg => ?_⟩
  · apply hcases
    simp only [List.mem_cons, List.not_mem_nil, or_false] at hdecimal ⊢
    rcases hdecimal with h | h <;> simp [h]
  · simp only [List.mem_cons, List.not_mem_nil, or_false] at hdecimal
    rcases hdecimal with h | h <;> rw [h] <;> decide
  · rw [hg, Option.all_some, Bool.and_eq_true, List.contains_iff_mem, bne_iff_ne] at hgroup
    refine ⟨hcases g ?_, ?_, hgroup.2⟩
    · have := hgroup.1
      simp only [List.mem_cons, List.not_mem_nil, or_false] at this ⊢
      rcases this with h | h | h <;> simp [h]
    · rintro rfl
      exact absurd hgroup.1 (by decide)

theorem foreign_other {c : Char} {locale : String} (hlocale : locale ∈ supportedNumberFormatLocales)
    (hc : c ∉ ['.', ',', '\'', '-'])
    : c ≠ '-' ∧ c ≠ '.' ∧ c ≠ (numberFormatSeparators locale).1 ∧ c ∉ usedGroup locale := by
  obtain ⟨-, -, hdecimal, hgroup⟩ := separators_supported locale hlocale
  simp only [List.mem_cons, List.not_mem_nil, or_false, not_or] at hc hdecimal
  obtain ⟨hpoint, hcomma, hquote, hminus⟩ := hc
  refine ⟨hminus, hpoint, ?_, fun hg => ?_⟩
  · rcases hdecimal with h | h <;> rw [h]
    · exact hpoint
    · exact hcomma
  · rw [hg, Option.all_some, Bool.and_eq_true, List.contains_iff_mem] at hgroup
    simp only [List.mem_cons, List.not_mem_nil, or_false] at hgroup
    rcases hgroup.1 with h | h | h
    · exact hpoint h
    · exact hcomma h
    · exact hquote h

theorem PythonOnly.not_mem (hu : u.NumberClasses) {c : Char} (h : PythonOnly u c)
    : c ∉ ['.', ',', '\'', '-'] := by
  intro hc
  have hascii : ∀ c ∈ ['.', ',', '\'', '-'], (decide (c.toNat < 128) && !isSpace c) = true :=
    List.all_eq_true.mp (by decide)
  obtain ⟨hbelow, hnot⟩ := Bool.and_eq_true_iff.mp (hascii c hc)
  have hlt := of_decide_eq_true hbelow
  have hspace : isSpace c = false := Bool.not_eq_eq_eq_not.mp hnot
  rcases h with ⟨h, -⟩ | ⟨h, hdigit⟩
  · rw [hspace] at h
    cases h
  · rw [hu.ascii c hlt, hdigit] at h
    cases h

-- Reading alike

/-- A cleaned text that is neither blank nor number text. -/
def NoNumber (digit : Char → Bool) (locale : String) (s : List Char) : Prop :=
  s ≠ [] ∧ ¬ IsNumberText digit (numberFormatSeparators locale).1 (usedGroup locale) s

/-- A text on which both parsers agree: where it has a character that one language knows and the
other does not, and none of the other kind, the parser that knows the character is left with what is
neither blank nor number text.
-/
structure ReadsAlike (u : Unicode) (locale : String) (text : List Char) : Prop where
  pythonOnly : (∃ c ∈ text, PythonOnly u c) → (∀ c ∈ text, ¬ BrowserOnly c)
    → NoNumber u.isDecimal locale ((stripCurrencyAffixes u text).filter (fun c => !isSpace c))
  browserOnly : (∃ c ∈ text, BrowserOnly c) → (∀ c ∈ text, ¬ PythonOnly u c)
    → NoNumber Char.isDigit locale ((stripCurrency u text).filter (fun c => !jsSpace c))

theorem browser_refuses (hu : u.NumberClasses) {locale : String}
    (hlocale : locale ∈ supportedNumberFormatLocales) (h : ∃ c ∈ text, PythonOnly u c)
    : readCleaned Char.isDigit (numberFormatSeparators locale).1 (usedGroup locale)
        (cleaned jsSpace u text) = .invalid := by
  obtain ⟨c, hc, honly⟩ := h
  refine readCleaned_foreign (properSeparators (fun _ _ => rfl) hlocale)
    ((honly.lasting hu).cleaned hc) ?_ (foreign_other hlocale (honly.not_mem hu))
  rcases honly with ⟨hspace, -⟩ | ⟨-, hdigit⟩
  · by_contra hdigit
    rw [Bool.not_eq_false] at hdigit
    have hdecimal := (hu.ascii c (isDigit_lt hdigit)).trans hdigit
    rw [(hu.space c hdecimal).1] at hspace
    cases hspace
  · exact hdigit

theorem backend_refuses (hu : u.NumberClasses) {locale : String}
    (hlocale : locale ∈ supportedNumberFormatLocales) (h : ∃ c ∈ text, BrowserOnly c)
    : readCleaned u.isDecimal (numberFormatSeparators locale).1 (usedGroup locale)
        (cleaned isSpace u text) = .invalid := by
  obtain ⟨c, hc, honly⟩ := h
  have hmark := honly.eq
  refine readCleaned_foreign (properSeparators hu.ascii hlocale) ((honly.lasting hu).cleaned hc) ?_
    (foreign_other hlocale (by rw [hmark]; decide))
  by_contra hdecimal
  exact (hu.space c (Bool.not_eq_false _ ▸ hdecimal)).2 hmark

theorem read_alike (hu : u.NumberClasses) {locale : String}
    (hpython : ∀ c ∈ text, ¬ PythonOnly u c) (hbrowser : ∀ c ∈ text, ¬ BrowserOnly c)
    : readCleaned Char.isDigit (numberFormatSeparators locale).1 (usedGroup locale)
        (cleaned jsSpace u text)
      = readCleaned u.isDecimal (numberFormatSeparators locale).1 (usedGroup locale)
        (cleaned isSpace u text) := by
  have hspace : ∀ c ∈ text, jsSpace c = isSpace c := fun c hc => by
    cases hjs : jsSpace c with
    | true =>
        by_contra hspace
        exact hbrowser c hc ⟨hjs, by simpa using Ne.symm hspace⟩
    | false =>
        by_contra hspace
        exact hpython c hc (.inl ⟨by simpa using Ne.symm hspace, hjs⟩)
  have hdigit : ∀ c ∈ text, Char.isDigit c = u.isDecimal c := fun c hc => by
    cases hd : c.isDigit with
    | true => exact (hu.ascii c (isDigit_lt hd) |>.trans hd).symm
    | false =>
        by_contra hdecimal
        exact hpython c hc (.inr ⟨by simpa using Ne.symm hdecimal, hd⟩)
  rw [cleaned_congr hspace]
  exact readCleaned_congr (fun c hc => hdigit c (mem_of_mem_cleaned hc)) (hu.ascii '.' (by decide)).symm

/-- The browser and the backend agree on a text in a number format exactly where it reads alike. -/
theorem typedNumbers_agree_iff (u : Unicode) (hu : u.NumberClasses) (locale : String)
    (hlocale : locale ∈ supportedNumberFormatLocales) (raw : Option String)
    : parseTypedNumberResult u raw locale = parseLocalizedMoney u raw locale
      ↔ ∀ text ∈ raw, ReadsAlike u locale text.toList := by
  rcases raw with _ | raw
  · simp [parseTypedNumberResult, parseLocalizedMoney]
  obtain ⟨hsame, hgroup, -, -⟩ := separators_supported locale hlocale
  have hbrowser := parseTypedNumberResult_some u raw locale
  rw [hsame, hgroup] at hbrowser
  have hbackend := parseLocalizedMoney_some u raw locale
  rw [hbrowser, hbackend]
  have hall : (∀ text ∈ some raw, ReadsAlike u locale text.toList)
      ↔ ReadsAlike u locale raw.toList := by simp
  rw [hall]
  change _ = readCleaned u.isDecimal _ (usedGroup locale) _ ↔ _
  have hpythonRejects := readCleaned_eq_invalid (s := cleaned isSpace u raw.toList)
    (properSeparators hu.ascii hlocale)
  have hbrowserRejects := readCleaned_eq_invalid (s := cleaned jsSpace u raw.toList)
    (properSeparators (fun _ _ => rfl) hlocale)
  by_cases hp : ∃ c ∈ raw.toList, PythonOnly u c
  · rw [browser_refuses hu hlocale hp, eq_comm]
    by_cases hb : ∃ c ∈ raw.toList, BrowserOnly c
    · obtain ⟨c, hc, honly⟩ := hb
      obtain ⟨d, hd, hdonly⟩ := hp
      refine iff_of_true (backend_refuses hu hlocale ⟨c, hc, honly⟩) ⟨?_, ?_⟩
      · exact fun _ hnone => absurd honly (hnone c hc)
      · exact fun _ hnone => absurd hdonly (hnone d hd)
    · rw [hpythonRejects]
      constructor
      · refine fun h => ⟨fun _ _ => ?_, fun hb' _ => absurd hb' hb⟩
        rw [stripCurrencyAffixes_cleaned]
        exact h
      · intro h
        have hreject := h.pythonOnly hp fun c hc honly => hb ⟨c, hc, honly⟩
        rw [stripCurrencyAffixes_cleaned] at hreject
        exact hreject
  · have hpnone : ∀ c ∈ raw.toList, ¬ PythonOnly u c := fun c hc honly => hp ⟨c, hc, honly⟩
    by_cases hb : ∃ c ∈ raw.toList, BrowserOnly c
    · rw [backend_refuses hu hlocale hb, hbrowserRejects]
      constructor
      · refine fun h => ⟨fun hp' _ => absurd hp' hp, fun _ _ => ?_⟩
        rw [stripCurrency_cleaned]
        exact h
      · intro h
        have hreject := h.browserOnly hb hpnone
        rw [stripCurrency_cleaned] at hreject
        exact hreject
    · have hbnone : ∀ c ∈ raw.toList, ¬ BrowserOnly c := fun c hc honly => hb ⟨c, hc, honly⟩
      refine iff_of_true (read_alike hu hpnone hbnone) ⟨?_, ?_⟩
      · exact fun hp' _ => absurd hp' hp
      · exact fun hb' _ => absurd hb' hb

/-- Tables with one digit more than ASCII. -/
def Unicode.withArabicDigit : Unicode :=
  { Unicode.ascii with digit := fun c => if c = '٣' then some 3 else Unicode.ascii.digit c }

theorem toUpper_eq {c : Char} (h : c.toNat < 97 ∨ 122 < c.toNat) : c.toUpper = c := by
  unfold Char.toUpper
  split
  · next hlower =>
      have hfrom : 97 ≤ c.toNat := UInt32.le_iff_toNat_le.mp hlower.1
      have hto : c.toNat ≤ 122 := UInt32.le_iff_toNat_le.mp hlower.2
      omega
  · rfl

theorem withArabicDigit_isDecimal (c : Char)
    : Unicode.withArabicDigit.isDecimal c = (c == '٣' || c.isDigit) := by
  simp only [Unicode.isDecimal, Unicode.withArabicDigit, Unicode.ascii]
  by_cases hthree : c = '٣'
  · simp [hthree]
  · rw [if_neg hthree, beq_eq_false_iff_ne.mpr hthree, Bool.false_or]
    split <;> simp_all

theorem withArabicDigit_classes : Unicode.withArabicDigit.NumberClasses where
  ascii c hc := by
    have hthree : c ≠ '٣' := by
      rintro rfl
      exact absurd hc (by decide)
    rw [withArabicDigit_isDecimal, beq_eq_false_iff_ne.mpr hthree, Bool.false_or]
  space c hc := by
    rw [withArabicDigit_isDecimal, Bool.or_eq_true, beq_iff_eq] at hc
    rcases hc with rfl | hc
    · decide
    · simp only [Char.isDigit, Bool.and_eq_true, decide_eq_true_eq] at hc
      have hfrom : 48 ≤ c.toNat := UInt32.le_iff_toNat_le.mp hc.1
      have hto : c.toNat ≤ 57 := UInt32.le_iff_toNat_le.mp hc.2
      refine ⟨?_, ?_⟩
      · by_contra hspace
        rw [Bool.not_eq_false] at hspace
        simp only [isSpace, Bool.or_eq_true, Bool.and_eq_true, decide_eq_true_eq, beq_iff_eq]
          at hspace
        omega
      · rintro rfl
        exact absurd hto (by decide)
  symbol c hc := by
    have hall : ∀ c ∈ currencySymbols, (!Unicode.withArabicDigit.isDecimal c) = true :=
      List.all_eq_true.mp (by decide +kernel)
    exact Bool.not_eq_eq_eq_not.mp (hall c hc)
  uncased c hc := by
    refine congrArg (fun d => [d]) (toUpper_eq ?_)
    rcases hc with hc | hc | rfl
    · rw [withArabicDigit_isDecimal, Bool.or_eq_true, beq_iff_eq] at hc
      rcases hc with rfl | hc
      · exact .inr (by decide)
      · have := isDigit_lt hc
        simp only [Char.isDigit, Bool.and_eq_true, decide_eq_true_eq] at hc
        have hto : c.toNat ≤ 57 := UInt32.le_iff_toNat_le.mp hc.2
        omega
    · simp only [isSpace, Bool.or_eq_true, Bool.and_eq_true, decide_eq_true_eq, beq_iff_eq] at hc
      omega
    · exact .inr (by decide)

/-- The backend reads a number in Arabic digits and one with a separator character at its end, and
the browser neither.
-/
theorem typedNumbers_arabicDigit
    : (parseLocalizedMoney .withArabicDigit (some "٣") "en-US" = .number "٣"
        ∧ parseTypedNumberResult .withArabicDigit (some "٣") "en-US" = .invalid)
      ∧ parseLocalizedMoney .withArabicDigit (some "12\x1c") "en-US" = .number "12"
      ∧ parseTypedNumberResult .withArabicDigit (some "12\x1c") "en-US" = .invalid := by
  decide +kernel

/-- An amount in the German number format, which reads alike. -/
theorem typedNumbers_agree_iff_euros
    : ReadsAlike .withArabicDigit "de-DE" "1.234,50 €".toList
      ∧ parseTypedNumberResult .withArabicDigit (some "1.234,50 €") "de-DE" = .number "1234.50" := by
  have hread : parseTypedNumberResult .withArabicDigit (some "1.234,50 €") "de-DE"
      = parseLocalizedMoney .withArabicDigit (some "1.234,50 €") "de-DE" := by
    decide +kernel
  refine ⟨?_, by decide +kernel⟩
  exact (typedNumbers_agree_iff .withArabicDigit withArabicDigit_classes "de-DE" (by decide +kernel)
    (some "1.234,50 €")).mp hread _ rfl

end LicenseTrack
