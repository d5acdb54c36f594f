import LicenseTrack.Money.TypedNumbers

/-! The grammar of number text: a numeral, written canonically, with the decimal separator of a
number format, or in groups. The backend's parser reads exactly the numerals of a format.
-/

namespace LicenseTrack

open Library

variable {u : Unicode} {digit : Char → Bool} {group decimal : Char} {s : List Char}

/-- A written number: its sign and its digits, in front of a decimal separator and behind it. -/
structure Numeral (digit : Char → Bool) where
  negative : Bool
  whole : List Char
  /-- Nothing where no decimal separator is written. -/
  fraction : List Char
  whole_ne : whole ≠ []
  whole_digits : ∀ c ∈ whole, digit c = true
  fraction_digits : ∀ c ∈ fraction, digit c = true

/-- A fraction behind its separator. -/
def fractionText (separator : Char) : List Char → List Char
  | [] => []
  | first :: rest => separator :: first :: rest

/-- The sign in front of a numeral. -/
def Numeral.sign (n : Numeral digit) : List Char := if n.negative then ['-'] else []

/-- A numeral without groups. -/
def Numeral.plain (n : Numeral digit) (separator : Char) : List Char :=
  n.sign ++ (n.whole ++ fractionText separator n.fraction)

/-- A numeral as a canonical text. -/
def Numeral.canonical (n : Numeral digit) : String := String.ofList (n.plain '.')

/-- A text that writes a numeral in groups: one to three digits, and then threes. -/
structure Numeral.GroupedAs (n : Numeral digit) (group decimal : Char) (s first : List Char)
    (others : List (List Char)) : Prop where
  first_ne : first ≠ []
  first_le : first.length ≤ 3
  others_ne : others ≠ []
  threes : ∀ digits ∈ others, digits.length = 3
  whole : n.whole = first ++ others.flatten
  text : s = n.sign ++ (first ++ others.flatMap (fun digits => group :: digits)
    ++ fractionText decimal n.fraction)

/-- A text that writes a numeral in some groups. -/
def Numeral.Grouped (n : Numeral digit) (group decimal : Char) (s : List Char) : Prop :=
  ∃ first others, n.GroupedAs group decimal s first others

/-- The digits of a text as a natural number. -/
def Unicode.digitsNumber (u : Unicode) (digits : List Char) : Nat :=
  digits.foldl (fun value c => 10 * value + (u.digit c).getD 0) 0

/-- The number that a numeral stands for. -/
def Numeral.value (n : Numeral u.isDecimal) : Decimal where
  negative := n.negative
  coefficient := u.digitsNumber (n.whole ++ n.fraction)
  exponent := -(n.fraction.length : Int)

theorem Numeral.isSign (n : Numeral digit) : IsSign n.sign := by
  unfold Numeral.sign
  split
  · exact .inr rfl
  · exact .inl rfl

theorem IsSign.eq_sign {sign : List Char} (h : IsSign sign)
    : ∃ negative : Bool, sign = if negative then ['-'] else [] := by
  rcases h with rfl | rfl
  · exact ⟨false, rfl⟩
  · exact ⟨true, rfl⟩

theorem endsInFraction_fractionText
    : endsInFraction digit decimal s = true
      ↔ ∃ fraction, s = fractionText decimal fraction ∧ ∀ c ∈ fraction, digit c = true := by
  rw [endsInFraction_iff]
  constructor
  · rintro (rfl | ⟨rest, rfl, hrest⟩)
    · exact ⟨[], rfl, by simp⟩
    · obtain ⟨hne, hdigits⟩ := isDigits_iff.mp hrest
      obtain ⟨c, tail, rfl⟩ := List.exists_cons_of_ne_nil hne
      exact ⟨c :: tail, rfl, hdigits⟩
  · rintro ⟨fraction, rfl, hdigits⟩
    cases fraction with
    | nil => exact .inl rfl
    | cons c tail => exact .inr ⟨c :: tail, rfl, isDigits_iff.mpr ⟨by simp, hdigits⟩⟩

theorem matchesPlain_numeral (hminus : digit '-' = false) (hdecimal : digit decimal = false)
    : matchesPlain digit decimal s = true ↔ ∃ n : Numeral digit, s = n.plain decimal := by
  rw [matchesPlain_iff hminus hdecimal]
  constructor
  · rintro ⟨sign, digits, text, rfl, hsign, hne, hdigits, hfraction⟩
    obtain ⟨fraction, rfl, hkept⟩ := endsInFraction_fractionText.mp hfraction
    obtain ⟨negative, rfl⟩ := hsign.eq_sign
    exact ⟨⟨negative, digits, fraction, hne, hdigits, hkept⟩, rfl⟩
  · rintro ⟨n, rfl⟩
    exact ⟨n.sign, n.whole, _, rfl, n.isSign, n.whole_ne, n.whole_digits,
      endsInFraction_fractionText.mpr ⟨n.fraction, rfl, n.fraction_digits⟩⟩

/-- The group pattern matches threes behind group separators, by induction on them. -/
theorem endsInGroups_iff (hgroup : digit group = false) (hne : group ≠ decimal)
    : endsInGroups digit group decimal s = true
      ↔ ∃ threes : List (List Char), ∃ fraction : List Char,
        s = threes.flatMap (fun digits => group :: digits) ++ fractionText decimal fraction
        ∧ (∀ digits ∈ threes, digits.length = 3 ∧ ∀ c ∈ digits, digit c = true)
        ∧ ∀ c ∈ fraction, digit c = true := by
  constructor
  · intro h
    induction s using endsInGroups.induct with
    | case1 c d₁ d₂ d₃ rest ih =>
        simp only [endsInGroups, Bool.or_eq_true, Bool.and_eq_true, beq_iff_eq] at h
        rcases h with ⟨⟨⟨⟨rfl, h₁⟩, h₂⟩, h₃⟩, hrest⟩ | ⟨rfl, hrest⟩
        · obtain ⟨threes, fraction, rfl, hthrees, hfraction⟩ := ih hrest
          refine ⟨[d₁, d₂, d₃] :: threes, fraction, rfl, ?_, hfraction⟩
          exact List.forall_mem_cons.mpr ⟨⟨rfl, by simp [h₁, h₂, h₃]⟩, hthrees⟩
        · exact ⟨[], d₁ :: d₂ :: d₃ :: rest, rfl, by simp, (isDigits_iff.mp hrest).2⟩
    | case2 rest hshort =>
        have hf : endsInFraction digit decimal rest = true := by
          rw [endsInGroups.eq_def] at h
          split at h
          · next c d₁ d₂ d₃ tail => exact (hshort c d₁ d₂ d₃ tail rfl).elim
          · exact h
        obtain ⟨fraction, rfl, hfraction⟩ := endsInFraction_fractionText.mp hf
        exact ⟨[], fraction, rfl, by simp, hfraction⟩
  · rintro ⟨threes, fraction, rfl, hthrees, hfraction⟩
    induction threes with
    | nil =>
        have hf : endsInFraction digit decimal (fractionText decimal fraction) = true :=
          endsInFraction_fractionText.mpr ⟨fraction, rfl, hfraction⟩
        rw [List.flatMap_nil, List.nil_append, endsInGroups.eq_def]
        split
        · next c d₁ d₂ d₃ tail heq =>
            rw [heq] at hf
            simp only [endsInFraction, Bool.and_eq_true, beq_iff_eq] at hf
            simp [hf.1, hf.2]
        · exact hf
    | cons digits rest ih =>
        obtain ⟨⟨hlength, hdigits⟩, hrest⟩ := List.forall_mem_cons.mp hthrees
        obtain ⟨d₁, d₂, d₃, rfl⟩ := List.length_eq_three.mp hlength
        simp only [List.forall_mem_cons] at hdigits
        obtain ⟨h₁, h₂, h₃, -⟩ := hdigits
        have hends := ih hrest
        simp only [List.flatMap_cons, List.cons_append, List.nil_append, endsInGroups, h₁, h₂, h₃,
          hends, beq_self_eq_true, Bool.and_self, Bool.true_or]

/-- The grouped pattern matches the numerals written in groups. -/
theorem matchesGrouped_numeral (hs : ProperSeparators digit decimal (some group))
    : matchesGrouped digit group decimal s = true
      ↔ ∃ n : Numeral digit, n.Grouped group decimal s := by
  obtain ⟨hgroup, -, hne⟩ := hs.groupApart group rfl
  constructor
  · intro h
    simp only [matchesGrouped, Bool.and_eq_true, Bool.not_eq_true', List.isEmpty_eq_false_iff,
      decide_eq_true_eq, beq_iff_eq] at h
    obtain ⟨⟨⟨hwhole, hle⟩, hhead⟩, hgroups⟩ := h
    obtain ⟨threes, fraction, hrest, hthrees, hfraction⟩ := (endsInGroups_iff hgroup hne).mp hgroups
    obtain ⟨sign, hsign, htext⟩ := sign_withoutSign s
    obtain ⟨negative, rfl⟩ := hsign.eq_sign
    have hfirst : ∀ c ∈ (withoutSign s).takeWhile digit, digit c = true :=
      fun c hc => List.mem_takeWhile_imp hc
    have hsome : threes ≠ [] := by
      rintro rfl
      rw [hrest] at hhead
      cases fraction with
      | nil => cases hhead
      | cons c rest => exact hne (Option.some.inj hhead).symm
    refine ⟨⟨negative, (withoutSign s).takeWhile digit ++ threes.flatten, fraction, by simp [hwhole],
      ?_, hfraction⟩, (withoutSign s).takeWhile digit, threes, hwhole, hle, hsome,
      fun digits hd => (hthrees digits hd).1, rfl, ?_⟩
    · intro c hc
      rcases List.mem_append.mp hc with hc | hc
      · exact hfirst c hc
      · obtain ⟨digits, hd, hc⟩ := List.mem_flatten.mp hc
        exact (hthrees digits hd).2 c hc
    · rw [List.append_assoc, ← hrest, List.takeWhile_append_dropWhile]
      exact htext
  · rintro ⟨n, first, others, h⟩
    have hdigits := n.whole_digits
    rw [h.whole] at hdigits
    have hfirst : ∀ c ∈ first, digit c = true := fun c hc => hdigits c (List.mem_append_left _ hc)
    have hthrees : ∀ digits ∈ others, digits.length = 3 ∧ ∀ c ∈ digits, digit c = true :=
      fun digits hd => ⟨h.threes digits hd, fun c hc =>
        hdigits c (List.mem_append_right _ (List.mem_flatten.mpr ⟨digits, hd, hc⟩))⟩
    have hgroups := (endsInGroups_iff hgroup hne).mpr
      ⟨others, n.fraction, rfl, hthrees, n.fraction_digits⟩
    obtain ⟨c, cs, hcs⟩ := List.exists_cons_of_ne_nil h.first_ne
    obtain ⟨three, threes, hothers⟩ := List.exists_cons_of_ne_nil h.others_ne
    have hminus : c ≠ '-' := by
      rintro rfl
      have hdigit := hfirst '-' (by simp [hcs])
      rw [hs.minus] at hdigit
      cases hdigit
    have hhead : (others.flatMap (fun digits => group :: digits)
        ++ fractionText decimal n.fraction).head? = some group := by
      simp [hothers]
    obtain ⟨htake, hdrop⟩ := @takeWhile_digits digit first
      (others.flatMap (fun digits => group :: digits) ++ fractionText decimal n.fraction) hfirst
      (by simpa [hhead] using hgroup)
    rw [h.text, List.append_assoc, matchesGrouped,
      withoutSign_append n.isSign (by simpa [hcs] using hminus), htake, hdrop]
    simp [h.first_ne, h.first_le, hhead, hgroups]

theorem Numeral.kept_sign (n : Numeral digit) {c : Char} (hc : c ≠ '-')
    : n.sign.filter (fun d => d != c) = n.sign := by
  rcases n.isSign with h | h <;> rw [h]
  · rfl
  · exact List.filter_cons_of_pos (by simpa using hc.symm)

theorem filter_digits (hgroup : digit group = false) (h : ∀ c ∈ s, digit c = true)
    : s.filter (fun c => c != group) = s := by
  refine List.filter_eq_self.mpr fun c hc => ?_
  rw [bne_iff_ne]
  rintro rfl
  rw [h c hc] at hgroup
  cases hgroup

theorem Numeral.Grouped.withoutGroups {n : Numeral digit}
    (hs : ProperSeparators digit decimal (some group)) (h : n.Grouped group decimal s)
    : withoutGroups (some group) s = n.plain decimal := by
  obtain ⟨hgroup, hminus, hne⟩ := hs.groupApart group rfl
  obtain ⟨first, others, h⟩ := h
  have hdigits := n.whole_digits
  rw [h.whole] at hdigits
  have hthrees : (others.flatMap (fun digits => group :: digits)).filter (fun c => c != group)
      = others.flatten := by
    have hall : ∀ c ∈ others.flatten, digit c = true :=
      fun c hc => hdigits c (List.mem_append_right _ hc)
    clear h hdigits
    induction others with
    | nil => rfl
    | cons three rest ih =>
        rw [List.flatten_cons] at hall
        rw [List.flatMap_cons, List.cons_append, List.filter_cons_of_neg (by simp),
          List.filter_append, ih fun c hc => hall c (List.mem_append_right _ hc),
          filter_digits hgroup fun c hc => hall c (List.mem_append_left _ hc), List.flatten_cons]
  have hfraction : (fractionText decimal n.fraction).filter (fun c => c != group)
      = fractionText decimal n.fraction := by
    rcases hf : n.fraction with _ | ⟨c, rest⟩
    · rfl
    · rw [fractionText, List.filter_cons_of_pos (by simpa using hne.symm),
        filter_digits hgroup (hf ▸ n.fraction_digits)]
  rw [LicenseTrack.withoutGroups, h.text, List.filter_append, List.filter_append, List.filter_append,
    n.kept_sign hminus, hthrees, hfraction,
    filter_digits hgroup fun c hc => hdigits c (List.mem_append_left _ hc), Numeral.plain, h.whole]

theorem Numeral.withPoint_plain {separators : Option Char} (n : Numeral digit)
    (hs : ProperSeparators digit decimal separators)
    : withPoint decimal (n.plain decimal) = n.plain '.' := by
  have hfraction : (fractionText decimal n.fraction).map (fun c => if c = decimal then '.' else c)
      = fractionText '.' n.fraction := by
    rcases hf : n.fraction with _ | ⟨c, rest⟩
    · rfl
    · rw [fractionText, List.map_cons, if_pos rfl,
        pointed_digits hs.decimalDigit (hf ▸ n.fraction_digits), fractionText]
  rw [withPoint, Numeral.plain, List.map_append, List.map_append,
    pointed_sign hs.decimalMinus n.isSign, pointed_digits hs.decimalDigit n.whole_digits, hfraction,
    Numeral.plain]

-- The value of a numeral

theorem readDigits_append {digits rest : List Char} (hdigits : ∀ c ∈ digits, u.isDecimal c = true)
    (hrest : ∀ c ∈ rest.head?, u.isDecimal c = false) (value count : Nat)
    : u.readDigits (digits ++ rest) value count
      = (digits.foldl (fun value c => 10 * value + (u.digit c).getD 0) value, count + digits.length,
          rest) := by
  induction digits generalizing value count with
  | nil =>
      cases rest with
      | nil => rfl
      | cons c tail =>
          have hc : u.digit c = none := by simpa [Unicode.isDecimal] using hrest c rfl
          simp [Unicode.readDigits, hc]
  | cons c digits ih =>
      obtain ⟨hc, hdigits⟩ := List.forall_mem_cons.mp hdigits
      obtain ⟨d, hd⟩ := Option.isSome_iff_exists.mp hc
      simp only [List.cons_append, Unicode.readDigits, hd, ih hdigits, List.foldl_cons,
        Option.getD_some, List.length_cons]
      rw [Nat.add_assoc, Nat.add_comm 1]

theorem readUnsigned_numeral (hpoint : u.isDecimal '.' = false) (n : Numeral u.isDecimal)
    (negative : Bool)
    : (match u.readDigits (n.whole ++ fractionText '.' n.fraction) 0 0 with
      | (whole, wholeCount, afterWhole) =>
          if wholeCount = 0 then none
          else match afterWhole with
            | [] => some ({ negative, coefficient := whole, exponent := 0 } : Decimal)
            | '.' :: fraction =>
                match u.readDigits fraction whole 0 with
                | (value, count, rest) =>
                    if count = 0 || !rest.isEmpty then none
                    else some { negative, coefficient := value, exponent := -(count : Int) }
            | _ => none)
      = some { n.value with negative } := by
  have hends : ∀ c ∈ (fractionText '.' n.fraction).head?, u.isDecimal c = false := by
    rcases n.fraction with _ | ⟨first, rest⟩
    · simp [fractionText]
    · simpa [fractionText] using hpoint
  rw [readDigits_append n.whole_digits hends]
  have hsome : 0 + n.whole.length ≠ 0 := by simpa using n.whole_ne
  dsimp only
  rw [if_neg hsome]
  rcases hf : n.fraction with _ | ⟨first, rest⟩
  · simp [fractionText, Numeral.value, hf, Unicode.digitsNumber]
  · have hdigits := n.fraction_digits
    rw [hf] at hdigits
    have hread := @readDigits_append u (first :: rest) [] hdigits (by simp)
    simp only [List.append_nil] at hread
    simp [fractionText, Numeral.value, hf, Unicode.digitsNumber, hread]

theorem readCanonical_numeral (hminus : u.isDecimal '-' = false) (hpoint : u.isDecimal '.' = false)
    (n : Numeral u.isDecimal)
    : u.readCanonical (n.plain '.') = some n.value := by
  have hread := readUnsigned_numeral hpoint n n.negative
  unfold Numeral.plain Numeral.sign
  cases hnegative : n.negative with
  | true =>
      rw [hnegative] at hread
      refine Eq.trans hread ?_
      rw [← hnegative]
      rfl
  | false =>
      obtain ⟨c, cs, hwhole⟩ := List.exists_cons_of_ne_nil n.whole_ne
      have hc : c ≠ '-' := by
        rintro rfl
        rw [n.whole_digits '-' (by simp [hwhole])] at hminus
        cases hminus
      rw [hnegative] at hread
      rw [if_neg Bool.false_ne_true, List.nil_append, Unicode.readCanonical]
      · refine Eq.trans hread ?_
        rw [← hnegative]
        rfl
      · intro rest hrest
        rw [hwhole] at hrest
        exact hc (List.cons.inj hrest).1

theorem Numeral.isSpace_plain (hu : u.NumberClasses) (n : Numeral u.isDecimal) {c : Char}
    (hc : c ∈ n.plain '.')
    : isSpace c = false := by
  have hplain := (matchesPlain_numeral (hu.ascii '-' (by decide)) (hu.ascii '.' (by decide))).mpr
    ⟨n, rfl⟩
  rcases mem_of_matchesPlain hplain hc with h | rfl | rfl
  · exact (hu.space c h).1
  · decide
  · decide

theorem parseMoney_canonical (hu : u.NumberClasses) (n : Numeral u.isDecimal)
    : u.parseMoney n.canonical = .amount n.value := by
  have htrim : stripChars isSpace (n.plain '.') = n.plain '.' :=
    trim_eq_self fun c hc => n.isSpace_plain hu hc
  have hfilled : isBlank n.canonical = false := by
    obtain ⟨c, cs, hwhole⟩ := List.exists_cons_of_ne_nil n.whole_ne
    have hc : c ∈ n.plain '.' := by simp [Numeral.plain, hwhole]
    refine Bool.eq_false_iff.mpr fun hblank => ?_
    have hspace := List.all_eq_true.mp hblank c (by simpa [Numeral.canonical] using hc)
    rw [n.isSpace_plain hu hc] at hspace
    cases hspace
  rw [Unicode.parseMoney, hfilled, if_neg Bool.false_ne_true, Numeral.canonical,
    String.toList_ofList, htrim,
    readCanonical_numeral (hu.ascii '-' (by decide)) (hu.ascii '.' (by decide))]

-- The grammar of a number format

/-- A numeral that could also be a group of thousands behind one dot. -/
structure Numeral.SingleDotGroup (n : Numeral digit) : Prop where
  short : n.whole.length ≤ 3
  nonzero : ∃ c ∈ n.whole.head?, '1' ≤ c ∧ c ≤ '9'
  three : n.fraction.length = 3

/-- A numeral whose canonical text a number format does not take, because its dot may group. -/
structure Numeral.Ambiguous (n : Numeral digit) (decimal : Char) (separators : Option Char) : Prop where
  comma : decimal ≠ '.'
  dots : separators = some '.'
  group : n.SingleDotGroup

/-- The numeral that a text writes in a number format. -/
inductive Writes (digit : Char → Bool) (decimal : Char) (separators : Option Char)
    : List Char → Numeral digit → Prop
  | canonical (n : Numeral digit) (h : ¬n.Ambiguous decimal separators)
    : Writes digit decimal separators (n.plain '.') n
  | plain (n : Numeral digit) : Writes digit decimal separators (n.plain decimal) n
  /-- A text that is canonical is no grouped one. -/
  | grouped {s : List Char} {n : Numeral digit} {g : Char} (hg : g ∈ separators)
    (h : n.Grouped g decimal s) (hcanonical : ∀ m : Numeral digit, s ≠ m.plain '.')
    : Writes digit decimal separators s n

/-- The numeral that a text writes in the number format of a locale, behind its currency markers. -/
def ReadsAs (u : Unicode) (locale raw : String) (n : Numeral u.isDecimal) : Prop :=
  Writes u.isDecimal (numberFormatSeparators locale).1 (usedGroup locale)
    (cleaned isSpace u raw.toList) n

theorem matchesAmbiguousDot_numeral (hminus : digit '-' = false) (hpoint : digit '.' = false)
    (n : Numeral digit)
    : matchesAmbiguousDot digit (n.plain '.') = true ↔ n.SingleDotGroup := by
  obtain ⟨first, rest, hwhole⟩ := List.exists_cons_of_ne_nil n.whole_ne
  have hdigits := n.whole_digits
  rw [hwhole] at hdigits
  obtain ⟨hfirst, hrest⟩ := List.forall_mem_cons.mp hdigits
  have hsigned : first ≠ '-' := by
    rintro rfl
    rw [hfirst] at hminus
    cases hminus
  have hends : ∀ c ∈ (fractionText '.' n.fraction).head?, digit c = false := by
    rcases n.fraction with _ | ⟨c, cs⟩
    · simp [fractionText]
    · simpa [fractionText] using hpoint
  obtain ⟨htake, hdrop⟩ := takeWhile_digits hrest hends
  have hbody : withoutSign (n.plain '.') = first :: (rest ++ fractionText '.' n.fraction) := by
    rw [Numeral.plain, withoutSign_append n.isSign (by simpa [hwhole] using hsigned), hwhole]
    rfl
  unfold matchesAmbiguousDot
  rw [hbody]
  dsimp only
  rw [htake, hdrop]
  rcases hf : n.fraction with _ | ⟨c, cs⟩
  · rw [fractionText]
    simp only [Bool.and_false, Bool.false_eq_true, false_iff]
    intro h
    have hthree := h.three
    rw [hf] at hthree
    cases hthree
  · have hall : (c :: cs).all digit = true := List.all_eq_true.mpr (hf ▸ n.fraction_digits)
    rw [fractionText]
    change (_ && ((c :: cs).length == 3 && (c :: cs).all digit)) = true ↔ _
    rw [hall, Bool.and_true]
    simp only [Bool.and_eq_true, decide_eq_true_eq, beq_iff_eq]
    constructor
    · rintro ⟨⟨⟨hfrom, hto⟩, hle⟩, hthree⟩
      have hshort : n.whole.length ≤ 3 := by
        rw [hwhole, List.length_cons]
        omega
      exact ⟨hshort, ⟨first, by simp [hwhole], hfrom, hto⟩, by rw [hf]; exact hthree⟩
    · rintro ⟨hle, ⟨c', hc', hfrom, hto⟩, hthree⟩
      rw [hwhole] at hc' hle
      obtain rfl : first = c' := by simpa using hc'
      rw [List.length_cons] at hle
      exact ⟨⟨⟨hfrom, hto⟩, by omega⟩, by rw [← hf]; exact hthree⟩

variable {separators : Option Char}

theorem readCleaned_canonical (hs : ProperSeparators digit decimal separators) (n : Numeral digit)
    : (n.Ambiguous decimal separators
        → readCleaned digit decimal separators (n.plain '.') = .ambiguous)
      ∧ (¬n.Ambiguous decimal separators
        → readCleaned digit decimal separators (n.plain '.') = .number n.canonical) := by
  have hplain : matchesPlain digit '.' (n.plain '.') = true :=
    (matchesPlain_numeral hs.minus hs.point).mpr ⟨n, rfl⟩
  have hsome : (n.plain '.').isEmpty = false := by
    simp [Numeral.plain, n.whole_ne]
  have hambiguous : (decimal != '.' && separators == some '.'
      && matchesAmbiguousDot digit (n.plain '.')) = true ↔ n.Ambiguous decimal separators := by
    rw [Bool.and_eq_true, Bool.and_eq_true, bne_iff_ne, beq_iff_eq,
      matchesAmbiguousDot_numeral hs.minus hs.point]
    exact ⟨fun h => ⟨h.1.1, h.1.2, h.2⟩, fun h => ⟨⟨h.comma, h.dots⟩, h.group⟩⟩
  unfold readCleaned
  rw [hsome, if_neg Bool.false_ne_true, if_pos hplain]
  exact ⟨fun h => if_pos (hambiguous.mpr h), fun h => if_neg (mt hambiguous.mp h)⟩

theorem readCleaned_localized (hs : ProperSeparators digit decimal separators) {n : Numeral digit}
    (hcanonical : ∀ m : Numeral digit, s ≠ m.plain '.') (hsome : s ≠ [])
    (hmatches : matchesPlain digit decimal s = true
      ∨ ∃ g ∈ separators, matchesGrouped digit g decimal s = true)
    (hplain : withoutGroups separators s = n.plain decimal)
    : readCleaned digit decimal separators s = .number n.canonical := by
  have hnot : matchesPlain digit '.' s ≠ true := fun h =>
    have ⟨m, hm⟩ := (matchesPlain_numeral hs.minus hs.point).mp h
    hcanonical m hm
  have hpoint := matchesPlain_point hs (matchesPlain_withoutGroups hs hmatches)
  unfold readCleaned
  rw [if_neg (by simpa using hsome), if_neg hnot, if_pos (by
    rw [Bool.or_eq_true, Option.any_eq_true]
    exact hmatches)]
  dsimp only
  rw [if_pos hpoint, hplain, n.withPoint_plain hs]
  rfl

theorem Numeral.withoutGroups_plain (n : Numeral digit)
    (hs : ProperSeparators digit decimal separators)
    : LicenseTrack.withoutGroups separators (n.plain decimal) = n.plain decimal := by
  rcases separators with _ | g
  · rfl
  · obtain ⟨hgroup, hminus, hne⟩ := hs.groupApart g rfl
    have hfraction : (fractionText decimal n.fraction).filter (fun c => c != g)
        = fractionText decimal n.fraction := by
      rcases hf : n.fraction with _ | ⟨c, rest⟩
      · rfl
      · rw [fractionText, List.filter_cons_of_pos (by simpa using hne.symm),
          filter_digits hgroup (hf ▸ n.fraction_digits)]
    rw [LicenseTrack.withoutGroups, Numeral.plain, List.filter_append, List.filter_append,
      n.kept_sign hminus, filter_digits hgroup n.whole_digits, hfraction]

theorem Numeral.fraction_of_canonical {n m : Numeral digit}
    (hs : ProperSeparators digit decimal separators) (hdecimal : decimal ≠ '.')
    (h : n.plain decimal = m.plain '.')
    : n.fraction = [] := by
  rcases hf : n.fraction with _ | ⟨c, rest⟩
  · rfl
  · have hmem : decimal ∈ m.plain '.' := by
      rw [← h]
      simp [Numeral.plain, hf, fractionText]
    have hplain := (matchesPlain_numeral hs.minus hs.point).mpr ⟨m, rfl⟩
    rcases mem_of_matchesPlain hplain hmem with hd | hd | hd
    · rw [hs.decimalDigit] at hd
      cases hd
    · exact absurd hd hs.decimalMinus
    · exact absurd hd hdecimal

theorem Writes.readCleaned {n : Numeral digit} (hs : ProperSeparators digit decimal separators)
    (h : Writes digit decimal separators s n)
    : readCleaned digit decimal separators s = .number n.canonical := by
  cases h with
  | canonical _ h => exact (readCleaned_canonical hs n).2 h
  | plain =>
      by_cases hcanonical : ∃ m : Numeral digit, n.plain decimal = m.plain '.'
      · obtain ⟨m, hm⟩ := hcanonical
        have hsame : n.plain decimal = n.plain '.' := by
          by_cases hdecimal : decimal = '.'
          · rw [hdecimal]
          · rw [Numeral.plain, Numeral.plain, n.fraction_of_canonical hs hdecimal hm]
            rfl
        rw [hsame]
        refine (readCleaned_canonical hs n).2 fun h => ?_
        have hthree := h.group.three
        rw [n.fraction_of_canonical hs h.comma hm] at hthree
        cases hthree
      · refine readCleaned_localized hs (fun m hm => hcanonical ⟨m, hm⟩) ?_ (.inl ?_)
          (n.withoutGroups_plain hs)
        · simp [Numeral.plain, n.whole_ne]
        · exact (matchesPlain_numeral hs.minus hs.decimalDigit).mpr ⟨n, rfl⟩
  | grouped hg h hcanonical =>
      obtain rfl : separators = some _ := hg
      refine readCleaned_localized hs hcanonical ?_ (.inr ⟨_, rfl, ?_⟩) (h.withoutGroups hs)
      · obtain ⟨first, others, h⟩ := h
        simp [h.text, h.first_ne]
      · exact (matchesGrouped_numeral hs).mpr ⟨n, h⟩

theorem writes_of_isNumberText (hs : ProperSeparators digit decimal separators)
    (h : IsNumberText digit decimal separators s)
    : (∃ n, Writes digit decimal separators s n)
      ∨ ∃ n : Numeral digit, s = n.plain '.' ∧ n.Ambiguous decimal separators := by
  by_cases hcanonical : ∃ m : Numeral digit, s = m.plain '.'
  · obtain ⟨m, rfl⟩ := hcanonical
    by_cases hambiguous : m.Ambiguous decimal separators
    · exact .inr ⟨m, rfl, hambiguous⟩
    · exact .inl ⟨m, .canonical m hambiguous⟩
  · refine .inl ?_
    rcases h with h | h | ⟨g, hg, h⟩
    · exact absurd ((matchesPlain_numeral hs.minus hs.point).mp h) hcanonical
    · obtain ⟨n, rfl⟩ := (matchesPlain_numeral hs.minus hs.decimalDigit).mp h
      exact ⟨n, .plain n⟩
    · obtain rfl : separators = some g := hg
      obtain ⟨n, hn⟩ := (matchesGrouped_numeral hs).mp h
      exact ⟨n, .grouped rfl hn fun m hm => hcanonical ⟨m, hm⟩⟩

theorem readCleaned_cases (hs : ProperSeparators digit decimal separators) (s : List Char)
    : (s = [] ∧ readCleaned digit decimal separators s = .blank)
      ∨ (∃ n, Writes digit decimal separators s n
        ∧ readCleaned digit decimal separators s = .number n.canonical)
      ∨ (s ≠ [] ∧ (¬∃ n, Writes digit decimal separators s n)
        ∧ (readCleaned digit decimal separators s = .ambiguous
          ∨ readCleaned digit decimal separators s = .invalid)) := by
  by_cases hempty : s = []
  · subst hempty
    exact .inl ⟨rfl, rfl⟩
  · by_cases hwrites : ∃ n, Writes digit decimal separators s n
    · obtain ⟨n, hn⟩ := hwrites
      exact .inr (.inl ⟨n, hn, hn.readCleaned hs⟩)
    · refine .inr (.inr ⟨hempty, hwrites, ?_⟩)
      by_cases hnumber : IsNumberText digit decimal separators s
      · obtain ⟨n, rfl, hambiguous⟩ := (writes_of_isNumberText hs hnumber).resolve_left hwrites
        exact .inl ((readCleaned_canonical hs n).1 hambiguous)
      · exact .inr ((readCleaned_eq_invalid hs).mpr ⟨hempty, hnumber⟩)

/-- The backend reads exactly the numerals of a number format: each as the canonical text of its
numeral, which is taken for the same number again. Where the currency markers leave nothing, nothing
is read, and every other text is refused.
-/
theorem parseLocalizedMoney_reads (u : Unicode) (hu : u.NumberClasses) (locale : String)
    (hlocale : locale ∈ supportedNumberFormatLocales) (raw : String)
    : (∀ value, parseLocalizedMoney u (some raw) locale = .number value
        ↔ ∃ n, ReadsAs u locale raw n ∧ value = n.canonical)
      ∧ (∀ n, ReadsAs u locale raw n → u.parseMoney n.canonical = .amount n.value)
      ∧ (parseLocalizedMoney u (some raw) locale = .blank ↔ cleaned isSpace u raw.toList = [])
      ∧ (parseLocalizedMoney u (some raw) locale = .ambiguous
          ∨ parseLocalizedMoney u (some raw) locale = .invalid
        ↔ cleaned isSpace u raw.toList ≠ [] ∧ ¬∃ n, ReadsAs u locale raw n) := by
  have hs := properSeparators hu.ascii hlocale
  rw [parseLocalizedMoney_some]
  change (∀ value, readCleaned _ _ (usedGroup locale) _ = _ ↔ _) ∧ _
    ∧ (readCleaned _ _ (usedGroup locale) _ = _ ↔ _)
    ∧ (readCleaned _ _ (usedGroup locale) _ = _ ∨ readCleaned _ _ (usedGroup locale) _ = _ ↔ _)
  have hread : ∀ n, ReadsAs u locale raw n → _ := fun n hn => Writes.readCleaned hs hn
  have hcases := readCleaned_cases hs (cleaned isSpace u raw.toList)
  refine ⟨fun value => ⟨fun hvalue => ?_, ?_⟩, fun n _ => parseMoney_canonical hu n, ?_, ?_⟩
  · rcases hcases with ⟨-, h⟩ | ⟨n, hn, h⟩ | ⟨-, -, h | h⟩ <;> rw [h] at hvalue
    · cases hvalue
    · exact ⟨n, hn, (NumberReading.number.inj hvalue).symm⟩
    · cases hvalue
    · cases hvalue
  · rintro ⟨n, hn, rfl⟩
    exact hread n hn
  · rcases hcases with ⟨he, h⟩ | ⟨n, hn, h⟩ | ⟨hne, -, h | h⟩ <;> rw [h]
    · exact iff_of_true rfl he
    · refine iff_of_false (by simp) fun he => ?_
      have hblank := hread n hn
      rw [he] at hblank
      cases hblank
    · exact iff_of_false (by simp) hne
    · exact iff_of_false (by simp) hne
  · rcases hcases with ⟨he, h⟩ | ⟨n, hn, h⟩ | ⟨hne, hnone, h | h⟩ <;> rw [h]
    · exact iff_of_false (by simp) fun hnot => hnot.1 he
    · exact iff_of_false (by simp) fun hnot => hnot.2 ⟨n, hn⟩
    · exact iff_of_true (.inl rfl) ⟨hne, hnone⟩
    · exact iff_of_true (.inr rfl) ⟨hne, hnone⟩

/-- An amount in the German number format. -/
theorem parseLocalizedMoney_reads_euros
    : ∃ n, ReadsAs .withArabicDigit "de-DE" "1.234,50 €" n ∧ "1234.50" = n.canonical :=
  ((parseLocalizedMoney_reads .withArabicDigit withArabicDigit_classes "de-DE" (by decide +kernel)
    "1.234,50 €").1 "1234.50").mp (by decide +kernel)

/-- The texts of the three forms, canonical or not. -/
def InSomeForm (u : Unicode) (locale : String) (s : List Char) : Prop :=
  ∃ n : Numeral u.isDecimal,
    (s = n.plain '.' ∧ ¬n.Ambiguous (numberFormatSeparators locale).1 (usedGroup locale))
    ∨ s = n.plain (numberFormatSeparators locale).1
    ∨ ∃ g ∈ usedGroup locale, n.Grouped g (numberFormatSeparators locale).1 s

/-- A currency symbol alone is read as nothing, and a correctly grouped thousand is refused. -/
theorem parseLocalizedMoney_markerAlone
    : (isBlank "€" = false
        ∧ ¬InSomeForm .withArabicDigit "en-US" (cleaned isSpace .withArabicDigit "€".toList)
        ∧ parseLocalizedMoney .withArabicDigit (some "€") "en-US" = .blank)
      ∧ InSomeForm .withArabicDigit "de-DE" (cleaned isSpace .withArabicDigit "1.234".toList)
      ∧ parseLocalizedMoney .withArabicDigit (some "1.234") "de-DE" = .ambiguous := by
  have hnothing : cleaned isSpace .withArabicDigit "€".toList = [] := by decide +kernel
  have hthousand : cleaned isSpace .withArabicDigit "1.234".toList = ['1', '.', '2', '3', '4'] := by
    decide +kernel
  refine ⟨⟨by decide +kernel, ?_, by decide +kernel⟩, ?_, by decide +kernel⟩
  · rw [hnothing]
    rintro ⟨n, ⟨hn, -⟩ | hn | ⟨g, -, first, others, h⟩⟩
    · simp [Numeral.plain, n.whole_ne] at hn
    · simp [Numeral.plain, n.whole_ne] at hn
    · have htext := h.text
      simp [h.first_ne] at htext
  · rw [hthousand]
    have hdigits : ∀ c ∈ ['1', '2', '3', '4'], Unicode.withArabicDigit.isDecimal c = true :=
      List.all_eq_true.mp (by decide +kernel)
    refine ⟨⟨false, ['1', '2', '3', '4'], [], by simp, hdigits, by simp⟩, .inr (.inr ⟨'.', ?_,
      ['1'], [['2', '3', '4']], ?_⟩)⟩
    · decide +kernel
    · exact ⟨by simp, by simp, by simp, by simp, rfl, rfl⟩

end LicenseTrack
