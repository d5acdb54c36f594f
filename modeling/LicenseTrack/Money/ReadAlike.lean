import LicenseTrack.Money.NumberText

/-! The browser and the backend read number text alike, but for the characters that one of their
languages counts as white space or as a digit and the other does not.
-/

namespace LicenseTrack

open Library

variable {u : Unicode} {digit digit' space space' : Char → Bool} {group decimal : Char}
  {text : List Char}

/-- The words without a currency code in front. -/
def withoutFirstCode (u : Unicode) : List (List Char) → List (List Char)
  | first :: next :: rest =>
      if isCurrencyCode u first then next :: rest else first :: next :: rest
  | list => list

/-- The words without a currency code at the end. -/
def withoutLastCode (u : Unicode) (list : List (List Char)) : List (List Char) :=
  if 1 < list.length && list.getLast?.any (isCurrencyCode u) then list.dropLast else list

/-- What both parsers read: the words that the currency markers leave, together. -/
def cleaned (space : Char → Bool) (u : Unicode) (text : List Char) : List Char :=
  (withoutLastCode u (withoutFirstCode u (words space (withoutSymbols space text)))).flatten

theorem mem_withoutFirstCode {list : List (List Char)} {word : List Char}
    (h : word ∈ withoutFirstCode u list)
    : word ∈ list := by
  unfold withoutFirstCode at h
  split at h
  · split at h
    · exact List.mem_cons_of_mem _ h
    · exact h
  · exact h

theorem mem_withoutLastCode {list : List (List Char)} {word : List Char}
    (h : word ∈ withoutLastCode u list)
    : word ∈ list := by
  unfold withoutLastCode at h
  split at h
  · exact (List.dropLast_sublist list).subset h
  · exact h

theorem words_jsWithoutFirstCode (u : Unicode) (value : List Char)
    : words jsSpace (jsWithoutFirstCode u value) = withoutFirstCode u (words jsSpace value) := by
  unfold jsWithoutFirstCode
  rcases hwords : words jsSpace value with _ | ⟨first, _ | ⟨next, rest⟩⟩
  · exact hwords
  · exact hwords
  · simp only [withoutFirstCode]
    split
    · refine words_intercalate (by decide) fun word hword => ?_
      have hm : word ∈ words jsSpace value := hwords ▸ List.mem_cons_of_mem _ hword
      exact mem_words hm
    · exact hwords

theorem words_jsWithoutLastCode (u : Unicode) (value : List Char)
    : words jsSpace (jsWithoutLastCode u value) = withoutLastCode u (words jsSpace value) := by
  unfold jsWithoutLastCode withoutLastCode
  dsimp only
  split
  · exact words_intercalate (by decide) fun word hword =>
      mem_words ((List.dropLast_sublist _).subset hword)
  · rfl

theorem words_stripCurrency (u : Unicode) (text : List Char)
    : words jsSpace (stripCurrency u text)
      = withoutLastCode u (withoutFirstCode u (words jsSpace (withoutSymbols jsSpace text))) := by
  rw [stripCurrency, words_jsWithoutLastCode, words_jsWithoutFirstCode]

-- Python's split

theorem words_splitOnce (text : List Char)
    : match splitOnce text with
      | some (first, rest) => words isSpace text = first :: words isSpace rest
          ∧ words isSpace rest ≠ []
      | none => (words isSpace text).length ≤ 1 := by
  rw [← words_dropWhile text]
  unfold splitOnce
  dsimp only
  rcases hstart : text.dropWhile isSpace with _ | ⟨c, start⟩
  · simp
  have hc : isSpace c = false := by
    have hhead := List.head_dropWhile_not isSpace (l := text) (by simp [hstart])
    simpa [hstart] using hhead
  have hwords : words isSpace (c :: start) = _ := words_eq_cons hc
  rw [← words_dropWhile ((c :: start).dropWhile _)] at hwords
  rcases hrest : ((c :: start).dropWhile (fun c => !isSpace c)).dropWhile isSpace
    with _ | ⟨d, rest⟩
  · rw [hrest] at hwords
    simp [hwords]
  · have hd : isSpace d = false := by
      have hhead := List.head_dropWhile_not isSpace
        (l := (c :: start).dropWhile (fun c => !isSpace c)) (by simp [hrest])
      simpa [hrest] using hhead
    rw [hrest] at hwords
    refine ⟨hwords, ?_⟩
    rw [words_eq_cons hd]
    exact List.cons_ne_nil _ _

theorem words_rsplitOnce (text : List Char)
    : match rsplitOnce text with
      | some (front, last) => words isSpace text = words isSpace front ++ [last]
          ∧ words isSpace front ≠ []
      | none => (words isSpace text).length ≤ 1 := by
  rw [← words_rdropWhile text]
  unfold rsplitOnce
  dsimp only
  rcases List.eq_nil_or_concat (text.rdropWhile isSpace) with hstart | ⟨start, c, hstart⟩
  · simp [hstart]
  rw [hstart, List.concat_eq_append]
  have hc : isSpace c = false := by
    have hlast := List.rdropWhile_last_not isSpace text (by simp [hstart])
    simpa [hstart] using hlast
  have hwords : words isSpace (start ++ [c]) = _ := words_eq_concat hc
  rw [← words_rdropWhile ((start ++ [c]).rdropWhile _)] at hwords
  rcases List.eq_nil_or_concat
      (((start ++ [c]).rdropWhile (fun c => !isSpace c)).rdropWhile isSpace)
    with hrest | ⟨rest, d, hrest⟩
  · rw [hrest] at hwords ⊢
    simp [hwords]
  · have hd : isSpace d = false := by
      have hlast := List.rdropWhile_last_not isSpace
        ((start ++ [c]).rdropWhile (fun c => !isSpace c)) (by simp [hrest])
      simpa [hrest] using hlast
    rw [hrest, List.concat_eq_append] at hwords ⊢
    have hne : (rest ++ [d]).isEmpty = false := by simp
    simp only [hne, Bool.false_eq_true, if_false]
    refine ⟨hwords, ?_⟩
    rw [words_eq_concat hd]
    simp

theorem words_pyWithoutFirstCode (u : Unicode) (value : List Char)
    : words isSpace (pyWithoutFirstCode u value) = withoutFirstCode u (words isSpace value) := by
  have hsplit := words_splitOnce value
  unfold pyWithoutFirstCode
  rcases hs : splitOnce value with _ | ⟨first, rest⟩
  · simp only [hs] at hsplit
    rcases hwords : words isSpace value with _ | ⟨word, _ | ⟨next, rest⟩⟩
    · rfl
    · rfl
    · simp [hwords] at hsplit
  · simp only [hs] at hsplit
    obtain ⟨hwords, hne⟩ := hsplit
    obtain ⟨next, tail, htail⟩ := List.exists_cons_of_ne_nil hne
    rw [htail] at hwords
    simp only [hwords, withoutFirstCode]
    split
    · rw [words_trim, htail]
    · exact hwords

theorem words_pyWithoutLastCode (u : Unicode) (value : List Char)
    : words isSpace (pyWithoutLastCode u value) = withoutLastCode u (words isSpace value) := by
  have hsplit := words_rsplitOnce value
  unfold pyWithoutLastCode withoutLastCode
  rcases hs : rsplitOnce value with _ | ⟨front, last⟩
  · simp only [hs] at hsplit
    rw [if_neg]
    simp only [Bool.and_eq_true, decide_eq_true_eq, not_and]
    omega
  · simp only [hs] at hsplit
    obtain ⟨hwords, hne⟩ := hsplit
    have hlong : 1 < (words isSpace value).length := by
      have := List.length_pos_iff.mpr hne
      rw [hwords, List.length_append, List.length_singleton]
      omega
    have hlast : (words isSpace value).getLast? = some last := by simp [hwords]
    have hfront : (words isSpace value).dropLast = words isSpace front := by simp [hwords]
    simp only [hlong, hlast, hfront, decide_true, Bool.true_and, Option.any_some]
    split
    · exact words_trim front
    · rfl

theorem words_stripCurrencyAffixes (u : Unicode) (raw : List Char)
    : words isSpace (stripCurrencyAffixes u raw)
      = withoutLastCode u (withoutFirstCode u (words isSpace (withoutSymbols isSpace raw))) := by
  rw [stripCurrencyAffixes, words_pyWithoutLastCode, words_pyWithoutFirstCode]

theorem stripCurrency_cleaned (u : Unicode) (text : List Char)
    : (stripCurrency u text).filter (fun c => !jsSpace c) = cleaned jsSpace u text := by
  rw [← flatten_words, words_stripCurrency, cleaned]

theorem stripCurrencyAffixes_cleaned (u : Unicode) (raw : List Char)
    : (stripCurrencyAffixes u raw).filter (fun c => !isSpace c) = cleaned isSpace u raw := by
  rw [← flatten_words, words_stripCurrencyAffixes, cleaned]

theorem mem_of_mem_withoutFirstSymbol {c : Char} (h : c ∈ withoutFirstSymbol space text)
    : c ∈ text := by
  unfold withoutFirstSymbol at h
  split at h
  · exact h
  · split at h
    · exact List.mem_cons_of_mem _ (mem_of_mem_trim h)
    · exact h

theorem mem_of_mem_withoutLastSymbol {c : Char} (h : c ∈ withoutLastSymbol space text)
    : c ∈ text := by
  unfold withoutLastSymbol at h
  split at h
  · exact h
  · split at h
    · exact (List.dropLast_sublist text).subset (mem_of_mem_trim h)
    · exact h

theorem mem_of_mem_withoutSymbols {c : Char} (h : c ∈ withoutSymbols space text) : c ∈ text :=
  mem_of_mem_trim (mem_of_mem_withoutFirstSymbol (mem_of_mem_withoutLastSymbol h))

theorem mem_of_mem_cleaned {c : Char} (h : c ∈ cleaned space u text) : c ∈ text := by
  obtain ⟨word, hword, hc⟩ := List.mem_flatten.mp h
  have hm : c ∈ (words space (withoutSymbols space text)).flatten :=
    List.mem_flatten.mpr ⟨word, mem_withoutFirstCode (mem_withoutLastCode hword), hc⟩
  rw [flatten_words] at hm
  exact mem_of_mem_withoutSymbols (List.mem_filter.mp hm).1

/-- A character that cleaning keeps: no white space, no currency symbol, in no currency code. -/
structure Lasting (u : Unicode) (space : Char → Bool) (c : Char) : Prop where
  space : space c = false
  symbol : currencySymbols.contains c = false
  code : ∀ word, c ∈ word → isCurrencyCode u word = false

namespace Lasting

variable {c : Char}

theorem withoutFirstSymbol (hc : Lasting u space c) (h : c ∈ text)
    : c ∈ withoutFirstSymbol space text := by
  cases text with
  | nil => exact h
  | cons head rest =>
      simp only [LicenseTrack.withoutFirstSymbol]
      split
      · next hsymbol =>
          rcases List.mem_cons.mp h with rfl | h
          · rw [hc.symbol] at hsymbol
            cases hsymbol
          · exact (mem_trim hc.space).mpr h
      · exact h

theorem withoutLastSymbol (hc : Lasting u space c) (h : c ∈ text)
    : c ∈ withoutLastSymbol space text := by
  rcases List.eq_nil_or_concat text with rfl | ⟨front, last, rfl⟩
  · exact h
  · rw [List.concat_eq_append] at h ⊢
    simp only [LicenseTrack.withoutLastSymbol, List.getLast?_concat, List.dropLast_concat]
    split
    · next hsymbol =>
        rcases List.mem_append.mp h with h | h
        · exact (mem_trim hc.space).mpr h
        · rw [List.mem_singleton.mp h] at hc
          rw [hc.symbol] at hsymbol
          cases hsymbol
    · exact h

theorem withoutFirstCode (hc : Lasting u space c) {list : List (List Char)}
    (h : c ∈ list.flatten)
    : c ∈ (withoutFirstCode u list).flatten := by
  unfold LicenseTrack.withoutFirstCode
  split
  · next first next rest =>
      split
      · next hcode =>
          rw [List.flatten_cons] at h
          rcases List.mem_append.mp h with h | h
          · rw [hc.code first h] at hcode
            cases hcode
          · exact h
      · exact h
  · exact h

theorem withoutLastCode (hc : Lasting u space c) {list : List (List Char)}
    (h : c ∈ list.flatten)
    : c ∈ (withoutLastCode u list).flatten := by
  unfold LicenseTrack.withoutLastCode
  split
  · next hcode =>
      rcases List.eq_nil_or_concat list with rfl | ⟨front, last, rfl⟩
      · exact h
      · simp only [List.concat_eq_append, List.getLast?_concat, Option.any_some, Bool.and_eq_true]
          at hcode
        rw [List.concat_eq_append, List.flatten_append] at h
        rw [List.concat_eq_append, List.dropLast_concat]
        rcases List.mem_append.mp h with h | h
        · exact h
        · rw [hc.code last (by simpa using h)] at hcode
          cases hcode.2
  · exact h

theorem cleaned (hc : Lasting u space c) (h : c ∈ text) : c ∈ cleaned space u text := by
  apply hc.withoutLastCode
  apply hc.withoutFirstCode
  rw [flatten_words]
  refine List.mem_filter.mpr ⟨?_, by simp [hc.space]⟩
  exact hc.withoutLastSymbol (hc.withoutFirstSymbol ((mem_trim hc.space).mpr h))

end Lasting

theorem withoutFirstSymbol_congr (h : ∀ c ∈ text, space c = space' c)
    : withoutFirstSymbol space text = withoutFirstSymbol space' text := by
  cases text with
  | nil => rfl
  | cons c rest =>
      have hrest := (List.forall_mem_cons.mp h).2
      simp only [withoutFirstSymbol, trim_congr hrest]

theorem withoutLastSymbol_congr (h : ∀ c ∈ text, space c = space' c)
    : withoutLastSymbol space text = withoutLastSymbol space' text := by
  have hfront := trim_congr fun c hc => h c ((List.dropLast_sublist text).subset hc)
  simp only [withoutLastSymbol, hfront]

theorem withoutSymbols_congr (h : ∀ c ∈ text, space c = space' c)
    : withoutSymbols space text = withoutSymbols space' text := by
  have hfirst : withoutFirstSymbol space (trim space' text)
      = withoutFirstSymbol space' (trim space' text) :=
    withoutFirstSymbol_congr fun c hc => h c (mem_of_mem_trim hc)
  rw [withoutSymbols, withoutSymbols, trim_congr h, hfirst]
  exact withoutLastSymbol_congr fun c hc =>
    h c (mem_of_mem_trim (mem_of_mem_withoutFirstSymbol hc))

theorem cleaned_congr (h : ∀ c ∈ text, space c = space' c)
    : cleaned space u text = cleaned space' u text := by
  rw [cleaned, cleaned, withoutSymbols_congr h,
    words_congr fun c hc => h c (mem_of_mem_withoutSymbols hc)]

-- Reading a cleaned text

/-- What both parsers make of a cleaned text, each with the digits of its language. -/
def readCleaned (digit : Char → Bool) (decimal : Char) (group : Option Char) (s : List Char)
    : NumberReading :=
  if s.isEmpty then .blank
  else if matchesPlain digit '.' s then
    if decimal != '.' && group == some '.' && matchesAmbiguousDot digit s then .ambiguous
    else .number (String.ofList s)
  else if matchesPlain digit decimal s || group.any (fun g => matchesGrouped digit g decimal s) then
    let s := withPoint decimal (withoutGroups group s)
    if matchesPlain digit '.' s then .number (String.ofList s) else .invalid
  else .invalid

/-- Text that some pattern of a number format matches. -/
def IsNumberText (digit : Char → Bool) (decimal : Char) (group : Option Char) (s : List Char)
    : Prop :=
  matchesPlain digit '.' s = true ∨ matchesPlain digit decimal s = true
    ∨ ∃ g ∈ group, matchesGrouped digit g decimal s = true

theorem readDigits_snd (text : List Char) (value count : Nat)
    : (u.readDigits text value count).2
      = (count + (text.takeWhile u.isDecimal).length, text.dropWhile u.isDecimal) := by
  induction text generalizing value count with
  | nil => simp [Unicode.readDigits]
  | cons c rest ih =>
      rcases hc : u.digit c with _ | d
      · simp [Unicode.readDigits, Unicode.isDecimal, hc]
      · simp only [Unicode.readDigits, hc, ih, List.takeWhile_cons, List.dropWhile_cons,
          Unicode.isDecimal, Option.isSome_some, if_true, List.length_cons]
        rw [Nat.add_assoc, Nat.add_comm 1]

theorem isSome_readUnsigned (negative : Bool) (body : List Char)
    : (match u.readDigits body 0 0 with
      | (whole, wholeCount, afterWhole) =>
          if wholeCount = 0 then none
          else match afterWhole with
            | [] => some ({ negative, coefficient := whole, exponent := 0 } : Decimal)
            | '.' :: fraction =>
                match u.readDigits fraction whole 0 with
                | (value, count, rest) =>
                    if count = 0 || !rest.isEmpty then none
                    else some { negative, coefficient := value, exponent := -(count : Int) }
            | _ => none).isSome
      = (!(body.takeWhile u.isDecimal).isEmpty
        && endsInFraction u.isDecimal '.' (body.dropWhile u.isDecimal)) := by
  have hwhole := readDigits_snd (u := u) body 0 0
  generalize u.readDigits body 0 0 = read at hwhole ⊢
  obtain ⟨whole, wholeCount, afterWhole⟩ := read
  obtain ⟨rfl, rfl⟩ := Prod.mk.inj hwhole
  dsimp only
  rcases hdigits : body.takeWhile u.isDecimal with _ | ⟨first, digits⟩
  · simp
  · rw [if_neg (by simp)]
    rcases body.dropWhile u.isDecimal with _ | ⟨c, fraction⟩
    · simp [endsInFraction]
    · by_cases hpoint : c = '.'
      · subst hpoint
        have hfraction := readDigits_snd (u := u) fraction whole 0
        have hcount := congrArg Prod.fst hfraction
        have hrest := congrArg Prod.snd hfraction
        simp only [Nat.zero_add] at hcount hrest
        have hall : fraction.dropWhile u.isDecimal = [] ↔ fraction.all u.isDecimal = true := by
          rw [List.dropWhile_eq_nil_iff, List.all_eq_true]
        cases hdecimal : fraction.all u.isDecimal with
        | false =>
            have hsome : fraction.dropWhile u.isDecimal ≠ [] := by simp [hall, hdecimal]
            simp [endsInFraction, isDigits, hrest, hsome, hdecimal]
        | true =>
            have htake : fraction.takeWhile u.isDecimal = fraction :=
              List.takeWhile_eq_self_iff.mpr (List.all_eq_true.mp hdecimal)
            rw [htake] at hcount
            simp only [endsInFraction, isDigits, hdecimal, hrest, hall.mpr hdecimal, hcount]
            cases fraction <;> simp
      · have hnot : endsInFraction u.isDecimal '.' (c :: fraction) = false := by
          simp [endsInFraction, hpoint]
        rw [hnot]
        split <;> simp_all

theorem isSome_readCanonical (text : List Char)
    : (u.readCanonical text).isSome = matchesPlain u.isDecimal '.' text := by
  rcases text with _ | ⟨c, rest⟩
  · rfl
  · by_cases hminus : c = '-'
    · subst hminus
      exact isSome_readUnsigned true rest
    · have hsign : withoutSign (c :: rest) = c :: rest := by
        unfold withoutSign
        split
        · next heq => exact absurd (List.cons.inj heq).1 hminus
        · rfl
      rw [matchesPlain, hsign, Unicode.readCanonical]
      · exact isSome_readUnsigned false (c :: rest)
      · exact fun _ heq => hminus (List.cons.inj heq).1

theorem isCanonicalMoney_eq {s : List Char} (h : ∀ c ∈ s, isSpace c = false)
    : u.isCanonicalMoney (String.ofList s) = matchesPlain u.isDecimal '.' s := by
  have htrim : stripChars isSpace s = s := trim_eq_self h
  rw [Unicode.isCanonicalMoney, String.toList_ofList, htrim, isSome_readCanonical]

theorem isSpace_of_mem_cleaned {c : Char} (h : c ∈ cleaned space u text) : space c = false := by
  obtain ⟨word, hword, hc⟩ := List.mem_flatten.mp h
  exact (mem_words (mem_withoutFirstCode (mem_withoutLastCode hword))).2 c hc

theorem mem_of_mem_withoutGroups {group : Option Char} {c : Char}
    (h : c ∈ withoutGroups group text)
    : c ∈ text := by
  cases group with
  | none => exact h
  | some g => exact (List.mem_filter.mp h).1

theorem parseTypedNumberResult_some (u : Unicode) (raw numberFormatLocale : String)
    : parseTypedNumberResult u (some raw) numberFormatLocale
      = readCleaned Char.isDigit (separatorsFor numberFormatLocale).1
          ((separatorsFor numberFormatLocale).2.filter (fun c => !jsSpace c))
          (cleaned jsSpace u raw.toList) := by
  simp only [parseTypedNumberResult, stripCurrency_cleaned]
  rfl

theorem cleaned_of_isBlank {raw : String} (h : isBlank raw = true)
    : cleaned isSpace u raw.toList = [] := by
  refine List.eq_nil_iff_forall_not_mem.mpr fun c hc => ?_
  have hspace : isSpace c = true := List.all_eq_true.mp h c (mem_of_mem_cleaned hc)
  rw [isSpace_of_mem_cleaned hc] at hspace
  cases hspace

theorem parseLocalizedMoney_some (u : Unicode) (raw numberFormatLocale : String)
    : parseLocalizedMoney u (some raw) numberFormatLocale
      = readCleaned u.isDecimal (numberFormatSeparators numberFormatLocale).1
          ((numberFormatSeparators numberFormatLocale).2.filter (fun c => !isSpace c))
          (cleaned isSpace u raw.toList) := by
  simp only [parseLocalizedMoney, stripCurrencyAffixes_cleaned]
  split
  · next hblank => simp [readCleaned, cleaned_of_isBlank hblank]
  · have hs : ∀ c ∈ cleaned isSpace u raw.toList, isSpace c = false :=
      fun c hc => isSpace_of_mem_cleaned hc
    have hnormal : ∀ decimal group, ∀ c ∈ withPoint decimal
        (withoutGroups group (cleaned isSpace u raw.toList)), isSpace c = false :=
      fun decimal group c hc => by
        obtain ⟨d, hd, rfl⟩ := List.mem_map.mp hc
        split
        · rfl
        · exact hs d (mem_of_mem_withoutGroups hd)
    rw [isCanonicalMoney_eq hs]
    simp only [isCanonicalMoney_eq (hnormal _ _)]
    rfl

variable {separators : Option Char} {s : List Char}

theorem readCleaned_eq_invalid (hs : ProperSeparators digit decimal separators)
    : readCleaned digit decimal separators s = .invalid
      ↔ s ≠ [] ∧ ¬ IsNumberText digit decimal separators s := by
  unfold readCleaned
  split
  · next hempty => simp [List.isEmpty_iff.mp hempty]
  · next hempty =>
      have hne : s ≠ [] := fun h => hempty (List.isEmpty_iff.mpr h)
      split
      · next hcanonical =>
          have hnumber : IsNumberText digit decimal separators s := .inl hcanonical
          split <;> simp [hnumber]
      · next hcanonical =>
          split
          · next hmatches =>
              rw [Bool.or_eq_true, Option.any_eq_true] at hmatches
              have hnumber : IsNumberText digit decimal separators s := .inr hmatches
              have hpoint := matchesPlain_point hs (matchesPlain_withoutGroups hs hmatches)
              dsimp only
              rw [if_pos hpoint]
              simp [hnumber]
          · next hmatches =>
              refine iff_of_true rfl ⟨hne, ?_⟩
              rintro (h | h)
              · exact hcanonical h
              · exact hmatches (by rw [Bool.or_eq_true, Option.any_eq_true]; exact h)

theorem readCleaned_foreign (hs : ProperSeparators digit decimal separators) {c : Char}
    (hc : c ∈ s) (hdigit : digit c = false)
    (hother : c ≠ '-' ∧ c ≠ '.' ∧ c ≠ decimal ∧ c ∉ separators)
    : readCleaned digit decimal separators s = .invalid := by
  refine (readCleaned_eq_invalid hs).mpr ⟨List.ne_nil_of_mem hc, ?_⟩
  obtain ⟨hminus, hpoint, hdecimal, hgroup⟩ := hother
  have hno : ∀ {p q r : Prop}, digit c = true ∨ p ∨ q ∨ r → ¬ p → ¬ q → ¬ r → False :=
    fun h hp hq hr => by
      rw [hdigit] at h
      simp [hp, hq, hr] at h
  rintro (h | h | ⟨g, hg, h⟩)
  · exact hno ((mem_of_matchesPlain h hc).imp_right fun h => h.imp_right .inl) hminus hpoint not_false
  · exact hno ((mem_of_matchesPlain h hc).imp_right fun h => h.imp_right .inl) hminus hdecimal
      not_false
  · obtain rfl : separators = some g := hg
    exact hno (mem_of_matchesGrouped hs h hc) hminus hdecimal fun he => hgroup (he ▸ rfl)

theorem readCleaned_congr (h : ∀ c ∈ s, digit c = digit' c) (hpoint : digit '.' = digit' '.')
    : readCleaned digit decimal separators s = readCleaned digit' decimal separators s := by
  have hnormal : matchesPlain digit '.' (withPoint decimal (withoutGroups separators s))
      = matchesPlain digit' '.' (withPoint decimal (withoutGroups separators s)) := by
    refine matchesPlain_congr fun c hc => ?_
    obtain ⟨d, hd, rfl⟩ := List.mem_map.mp hc
    split
    · exact hpoint
    · exact h d (mem_of_mem_withoutGroups hd)
  have hgrouped : (fun g => matchesGrouped digit g decimal s)
      = (fun g => matchesGrouped digit' g decimal s) :=
    funext fun g => matchesGrouped_congr h
  unfold readCleaned
  rw [matchesPlain_congr h, matchesPlain_congr h, matchesAmbiguousDot_congr h, hgrouped]
  dsimp only
  rw [hnormal]

end LicenseTrack
