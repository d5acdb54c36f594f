import LicenseTrack.Money.NumberParsers

/-! What the number patterns match: a sign, digits, and a fraction behind the decimal separator;
without group separators, such a text is canonical up to its decimal separator.
-/

namespace LicenseTrack

open Library

variable {u : Unicode} {digit digit' : Char → Bool} {group decimal : Char} {text : List Char}

/-- An optional minus. -/
def IsSign (sign : List Char) : Prop := sign = [] ∨ sign = ['-']

/-- The patterns can tell the separators and the sign from digits and from one another. -/
structure ProperSeparators (digit : Char → Bool) (decimal : Char) (group : Option Char) : Prop where
  minus : digit '-' = false
  point : digit '.' = false
  decimalDigit : digit decimal = false
  decimalMinus : decimal ≠ '-'
  groupApart : ∀ g ∈ group, digit g = false ∧ g ≠ '-' ∧ g ≠ decimal

theorem sign_withoutSign (text : List Char) : ∃ sign, IsSign sign ∧ text = sign ++ withoutSign text := by
  unfold withoutSign
  split
  · exact ⟨['-'], .inr rfl, rfl⟩
  · exact ⟨[], .inl rfl, rfl⟩

theorem withoutSign_append {sign body : List Char} (hsign : IsSign sign)
    (hbody : body.head? ≠ some '-')
    : withoutSign (sign ++ body) = body := by
  rcases hsign with rfl | rfl
  · rw [List.nil_append]
    unfold withoutSign
    split
    · simp at hbody
    · rfl
  · rfl

theorem isDigits_iff : isDigits digit text = true ↔ text ≠ [] ∧ ∀ c ∈ text, digit c = true := by
  simp [isDigits]

theorem endsInFraction_iff
    : endsInFraction digit decimal text = true
      ↔ text = [] ∨ ∃ rest, text = decimal :: rest ∧ isDigits digit rest = true := by
  cases text with
  | nil => simp [endsInFraction]
  | cons c rest => simp [endsInFraction]

theorem head_endsInFraction (hdecimal : digit decimal = false)
    (h : endsInFraction digit decimal text = true)
    : ∀ c ∈ text.head?, digit c = false := by
  rcases endsInFraction_iff.mp h with rfl | ⟨rest, rfl, -⟩
  · simp
  · simpa using hdecimal

theorem takeWhile_digits {digits rest : List Char} (hdigits : ∀ c ∈ digits, digit c = true)
    (hrest : ∀ c ∈ rest.head?, digit c = false)
    : (digits ++ rest).takeWhile digit = digits ∧ (digits ++ rest).dropWhile digit = rest := by
  rw [List.takeWhile_append_of_pos hdigits, List.dropWhile_append_of_pos hdigits]
  cases rest with
  | nil => simp
  | cons c rest =>
      have hc : digit c = false := hrest c rfl
      simp [hc]

theorem matchesPlain_iff (hminus : digit '-' = false) (hdecimal : digit decimal = false)
    : matchesPlain digit decimal text = true
      ↔ ∃ sign digits fraction, text = sign ++ (digits ++ fraction) ∧ IsSign sign
        ∧ digits ≠ [] ∧ (∀ c ∈ digits, digit c = true)
        ∧ endsInFraction digit decimal fraction = true := by
  constructor
  · intro h
    simp only [matchesPlain, Bool.and_eq_true, Bool.not_eq_true', List.isEmpty_eq_false_iff] at h
    obtain ⟨sign, hsign, htext⟩ := sign_withoutSign text
    refine ⟨sign, _, _, ?_, hsign, h.1, fun c hc => List.mem_takeWhile_imp hc, h.2⟩
    rw [List.takeWhile_append_dropWhile]
    exact htext
  · rintro ⟨sign, digits, fraction, rfl, hsign, hne, hdigits, hfraction⟩
    obtain ⟨first, rest, rfl⟩ := List.exists_cons_of_ne_nil hne
    have hfirst : first ≠ '-' := by
      rintro rfl
      rw [hdigits '-' (by simp)] at hminus
      cases hminus
    obtain ⟨htake, hdrop⟩ := takeWhile_digits hdigits (head_endsInFraction hdecimal hfraction)
    rw [matchesPlain, withoutSign_append hsign (by simpa using hfirst), htake, hdrop]
    simp [hfraction]

theorem endsInGroups_parts (hgroup : digit group = false) (hne : group ≠ decimal)
    (h : endsInGroups digit group decimal text = true)
    : ∃ digits fraction, text.filter (fun c => c != group) = digits ++ fraction
      ∧ (∀ c ∈ digits, digit c = true) ∧ endsInFraction digit decimal fraction = true := by
  have hkept : ∀ list : List Char, (∀ c ∈ list, digit c = true)
      → list.filter (fun c => c != group) = list := fun list hlist => by
    refine List.filter_eq_self.mpr fun c hc => ?_
    rw [bne_iff_ne]
    rintro rfl
    rw [hlist c hc] at hgroup
    cases hgroup
  have hfraction : ∀ list, endsInFraction digit decimal list = true
      → list.filter (fun c => c != group) = list := fun list hlist => by
    rcases endsInFraction_iff.mp hlist with rfl | ⟨rest, rfl, hrest⟩
    · rfl
    · rw [List.filter_cons_of_pos (by simpa using hne.symm), hkept rest (isDigits_iff.mp hrest).2]
  induction text using endsInGroups.induct with
  | case1 c d₁ d₂ d₃ rest ih =>
      simp only [endsInGroups, Bool.or_eq_true, Bool.and_eq_true, beq_iff_eq] at h
      rcases h with ⟨⟨⟨⟨rfl, h₁⟩, h₂⟩, h₃⟩, hrest⟩ | ⟨rfl, hrest⟩
      · obtain ⟨digits, fraction, he, hdigits, hf⟩ := ih hrest
        refine ⟨d₁ :: d₂ :: d₃ :: digits, fraction, ?_, ?_, hf⟩
        · have hthree := hkept [d₁, d₂, d₃] (by simp [h₁, h₂, h₃])
          rw [List.filter_cons_of_neg (by simp)]
          have happend : d₁ :: d₂ :: d₃ :: rest = [d₁, d₂, d₃] ++ rest := rfl
          rw [happend, List.filter_append, hthree, he]
          rfl
        · simpa [h₁, h₂, h₃] using hdigits
      · have hf : endsInFraction digit c (c :: d₁ :: d₂ :: d₃ :: rest) = true :=
          endsInFraction_iff.mpr (.inr ⟨_, rfl, hrest⟩)
        exact ⟨[], _, hfraction _ hf, by simp, hf⟩
  | case2 rest hshort =>
      have hf : endsInFraction digit decimal rest = true := by
        rw [endsInGroups.eq_def] at h
        split at h
        · next c d₁ d₂ d₃ tail => exact (hshort c d₁ d₂ d₃ tail rfl).elim
        · exact h
      exact ⟨[], rest, hfraction rest hf, by simp, hf⟩

theorem matchesPlain_of_grouped (hs : ProperSeparators digit decimal (some group))
    (h : matchesGrouped digit group decimal text = true)
    : matchesPlain digit decimal (text.filter (fun c => c != group)) = true := by
  obtain ⟨hgroup, hsigned, hne⟩ := hs.groupApart group rfl
  simp only [matchesGrouped, Bool.and_eq_true, Bool.not_eq_true', List.isEmpty_eq_false_iff] at h
  obtain ⟨⟨⟨hwhole, -⟩, -⟩, hgroups⟩ := h
  obtain ⟨digits, fraction, hrest, hdigits, hfraction⟩ := endsInGroups_parts hgroup hne hgroups
  obtain ⟨sign, hsign, htext⟩ := sign_withoutSign text
  have hwholeDigits : ∀ c ∈ (withoutSign text).takeWhile digit, digit c = true :=
    fun c hc => List.mem_takeWhile_imp hc
  have hwholeKept : ((withoutSign text).takeWhile digit).filter (fun c => c != group)
      = (withoutSign text).takeWhile digit := by
    refine List.filter_eq_self.mpr fun c hc => ?_
    rw [bne_iff_ne]
    rintro rfl
    rw [hwholeDigits c hc] at hgroup
    cases hgroup
  have hsignKept : sign.filter (fun c => c != group) = sign := by
    rcases hsign with rfl | rfl
    · rfl
    · exact List.filter_cons_of_pos (by simpa using hsigned.symm)
  refine (matchesPlain_iff hs.minus hs.decimalDigit).mpr
    ⟨sign, (withoutSign text).takeWhile digit ++ digits, fraction, ?_, hsign, by simp [hwhole], ?_,
      hfraction⟩
  · conv_lhs =>
      rw [htext, ← List.takeWhile_append_dropWhile (p := digit) (l := withoutSign text)]
    rw [List.filter_append, List.filter_append, hsignKept, hwholeKept, hrest, List.append_assoc]
  · intro c hc
    rcases List.mem_append.mp hc with hc | hc
    · exact hwholeDigits c hc
    · exact hdigits c hc

theorem pointed_digits (hdecimal : digit decimal = false) {list : List Char}
    (hlist : ∀ c ∈ list, digit c = true)
    : list.map (fun c => if c = decimal then '.' else c) = list := by
  conv_rhs => rw [← List.map_id list]
  refine List.map_congr_left fun c hc => if_neg ?_
  rintro rfl
  rw [hlist c hc] at hdecimal
  cases hdecimal

theorem pointed_sign (hminus : decimal ≠ '-') {sign : List Char} (hsign : IsSign sign)
    : sign.map (fun c => if c = decimal then '.' else c) = sign := by
  rcases hsign with rfl | rfl
  · rfl
  · simp [hminus.symm]

theorem matchesPlain_point {separators : Option Char}
    (hs : ProperSeparators digit decimal separators) (h : matchesPlain digit decimal text = true)
    : matchesPlain digit '.' (withPoint decimal text) = true := by
  unfold withPoint
  obtain ⟨sign, digits, fraction, rfl, hsign, hne, hdigits, hfraction⟩ :=
    (matchesPlain_iff hs.minus hs.decimalDigit).mp h
  refine (matchesPlain_iff hs.minus hs.point).mpr
    ⟨sign, digits, fraction.map (fun c => if c = decimal then '.' else c), ?_, hsign, hne, hdigits,
      ?_⟩
  · rw [List.map_append, List.map_append, pointed_sign hs.decimalMinus hsign,
      pointed_digits hs.decimalDigit hdigits]
  · rcases endsInFraction_iff.mp hfraction with rfl | ⟨rest, rfl, hrest⟩
    · rfl
    · refine endsInFraction_iff.mpr (.inr ⟨rest, ?_, hrest⟩)
      rw [List.map_cons, if_pos rfl, pointed_digits hs.decimalDigit (isDigits_iff.mp hrest).2]

theorem mem_of_matchesPlain {c : Char} (h : matchesPlain digit decimal text = true) (hc : c ∈ text)
    : digit c = true ∨ c = '-' ∨ c = decimal := by
  simp only [matchesPlain, Bool.and_eq_true] at h
  obtain ⟨sign, hsign, htext⟩ := sign_withoutSign text
  rw [htext, ← List.takeWhile_append_dropWhile (p := digit) (l := withoutSign text)] at hc
  rcases List.mem_append.mp hc with hc | hc
  · rcases hsign with rfl | rfl
    · cases hc
    · exact .inr (.inl (List.mem_singleton.mp hc))
  rcases List.mem_append.mp hc with hc | hc
  · exact .inl (List.mem_takeWhile_imp hc)
  · rcases endsInFraction_iff.mp h.2 with hnil | ⟨rest, hrest, hdigits⟩
    · rw [hnil] at hc
      cases hc
    · rw [hrest] at hc
      rcases List.mem_cons.mp hc with rfl | hc
      · exact .inr (.inr rfl)
      · exact .inl ((isDigits_iff.mp hdigits).2 c hc)

theorem mem_of_matchesGrouped {c : Char} (hs : ProperSeparators digit decimal (some group))
    (h : matchesGrouped digit group decimal text = true) (hc : c ∈ text)
    : digit c = true ∨ c = '-' ∨ c = decimal ∨ c = group := by
  by_cases hgroup : c = group
  · exact .inr (.inr (.inr hgroup))
  · have hm : c ∈ text.filter (fun c => c != group) := List.mem_filter.mpr ⟨hc, by simpa using hgroup⟩
    rcases mem_of_matchesPlain (matchesPlain_of_grouped hs h) hm with hd | hd | hd
    · exact .inl hd
    · exact .inr (.inl hd)
    · exact .inr (.inr (.inl hd))

theorem matchesPlain_withoutGroups {separators : Option Char}
    (hs : ProperSeparators digit decimal separators)
    (h : matchesPlain digit decimal text = true
      ∨ ∃ g ∈ separators, matchesGrouped digit g decimal text = true)
    : matchesPlain digit decimal (withoutGroups separators text) = true := by
  rcases separators with _ | g
  · simpa [withoutGroups] using h
  · rcases h with hplain | ⟨g', hg', hgrouped⟩
    · obtain ⟨hgroup, hminus, hapart⟩ := hs.groupApart g rfl
      have hkept : text.filter (fun c => c != g) = text := by
        refine List.filter_eq_self.mpr fun c hc => ?_
        rw [bne_iff_ne]
        rintro rfl
        rcases mem_of_matchesPlain hplain hc with h | h | h
        · rw [hgroup] at h
          cases h
        · exact hminus h
        · exact hapart h
      rw [withoutGroups, hkept]
      exact hplain
    · obtain rfl : g = g' := Option.some.inj hg'
      exact matchesPlain_of_grouped hs hgrouped

-- Digit classes that agree

section Congr

variable (h : ∀ c ∈ text, digit c = digit' c)

theorem withoutSign_subset {c : Char} (hc : c ∈ withoutSign text) : c ∈ text := by
  obtain ⟨sign, -, htext⟩ := sign_withoutSign text
  rw [htext]
  exact List.mem_append_right sign hc

include h

theorem takeWhile_congr
    : text.takeWhile digit = text.takeWhile digit' ∧ text.dropWhile digit = text.dropWhile digit' := by
  induction text with
  | nil => simp
  | cons c rest ih =>
      obtain ⟨hc, hrest⟩ := List.forall_mem_cons.mp h
      obtain ⟨htake, hdrop⟩ := ih hrest
      simp only [List.takeWhile_cons, List.dropWhile_cons, hc, htake, hdrop]
      exact ⟨trivial, trivial⟩

theorem all_congr : text.all digit = text.all digit' := by
  induction text with
  | nil => rfl
  | cons c rest ih =>
      obtain ⟨hc, hrest⟩ := List.forall_mem_cons.mp h
      simp only [List.all_cons, hc, ih hrest]

theorem isDigits_congr : isDigits digit text = isDigits digit' text := by
  rw [isDigits, isDigits, all_congr h]

theorem endsInFraction_congr
    : endsInFraction digit decimal text = endsInFraction digit' decimal text := by
  cases text with
  | nil => rfl
  | cons c rest =>
      have hrest := isDigits_congr (List.forall_mem_cons.mp h).2
      simp only [endsInFraction, hrest]

theorem endsInGroups_congr
    : endsInGroups digit group decimal text = endsInGroups digit' group decimal text := by
  induction text using endsInGroups.induct with
  | case1 c d₁ d₂ d₃ rest ih =>
      have hfraction := isDigits_congr (List.forall_mem_cons.mp h).2
      have hrest : ∀ d ∈ rest, digit d = digit' d := fun d hd => h d (by simp [hd])
      simp only [endsInGroups, h d₁ (by simp), h d₂ (by simp), h d₃ (by simp), ih hrest, hfraction]
  | case2 rest hshort =>
      have hends : ∀ digit : Char → Bool,
          endsInGroups digit group decimal rest = endsInFraction digit decimal rest := fun digit => by
        rw [endsInGroups.eq_def]
        split
        · next c d₁ d₂ d₃ tail => exact (hshort c d₁ d₂ d₃ tail rfl).elim
        · rfl
      rw [hends, hends, endsInFraction_congr h]

theorem matchesPlain_congr : matchesPlain digit decimal text = matchesPlain digit' decimal text := by
  obtain ⟨htake, hdrop⟩ := takeWhile_congr fun c hc => h c (withoutSign_subset hc)
  have hends : endsInFraction digit decimal ((withoutSign text).dropWhile digit')
      = endsInFraction digit' decimal ((withoutSign text).dropWhile digit') :=
    endsInFraction_congr fun c hc =>
      h c (withoutSign_subset ((List.dropWhile_sublist _).subset hc))
  simp only [matchesPlain, htake, hdrop, hends]

theorem matchesGrouped_congr
    : matchesGrouped digit group decimal text = matchesGrouped digit' group decimal text := by
  obtain ⟨htake, hdrop⟩ := takeWhile_congr fun c hc => h c (withoutSign_subset hc)
  have hends : endsInGroups digit group decimal ((withoutSign text).dropWhile digit')
      = endsInGroups digit' group decimal ((withoutSign text).dropWhile digit') :=
    endsInGroups_congr fun c hc =>
      h c (withoutSign_subset ((List.dropWhile_sublist _).subset hc))
  simp only [matchesGrouped, htake, hdrop, hends]

theorem matchesAmbiguousDot_congr : matchesAmbiguousDot digit text = matchesAmbiguousDot digit' text := by
  unfold matchesAmbiguousDot
  have hbody : ∀ c ∈ withoutSign text, digit c = digit' c := fun c hc => h c (withoutSign_subset hc)
  rcases hwithout : withoutSign text with _ | ⟨first, rest⟩
  · rfl
  · rw [hwithout] at hbody
    have hrest := (List.forall_mem_cons.mp hbody).2
    obtain ⟨htake, hdrop⟩ := takeWhile_congr hrest
    dsimp only
    rw [htake, hdrop]
    congr 1
    rcases hfraction : rest.dropWhile digit' with _ | ⟨c, fraction⟩
    · rfl
    · have hall : fraction.all digit = fraction.all digit' := by
        refine all_congr fun d hd => hrest d ((List.dropWhile_sublist digit').subset ?_)
        rw [hfraction]
        exact List.mem_cons_of_mem _ hd
      split
      · next heq =>
          obtain ⟨rfl, rfl⟩ := List.cons.inj heq
          rw [hall]
      · rfl

end Congr

end LicenseTrack
