import Mathlib.Data.List.DropRight

/-! The words of a text: its maximal runs of characters that are no white space, whatever counts as
white space.
-/

namespace Library

universe u

variable {α : Type u} {space space' : α → Bool} {text : List α}

/-- The words of a text, in order. -/
def words (space : α → Bool) (text : List α) : List (List α) :=
  (text.splitOnP space).filter (fun word => !word.isEmpty)

/-- White space at both ends is left out. -/
def trim (space : α → Bool) (text : List α) : List α :=
  (text.dropWhile space).rdropWhile space

@[simp] theorem words_nil : words space [] = [] := by simp [words, List.splitOnP_nil]

theorem words_append_cons (front back : List α) {c : α} (hc : space c = true)
    : words space (front ++ c :: back) = words space front ++ words space back := by
  simp only [words, List.splitOnP_append_cons front back hc, List.filter_append]

@[simp] theorem words_cons_space {c : α} (hc : space c = true)
    : words space (c :: text) = words space text := by
  simpa using words_append_cons [] text hc

theorem words_concat_space {c : α} (hc : space c = true)
    : words space (text ++ [c]) = words space text := by
  simpa using words_append_cons text [] hc

theorem words_eq_singleton (hne : text ≠ []) (h : ∀ c ∈ text, space c = false)
    : words space text = [text] := by
  simp [words, List.splitOnP_eq_singleton h, hne]

theorem flatten_splitOnP (text : List α)
    : (text.splitOnP space).flatten = text.filter (fun c => !space c) := by
  induction text with
  | nil => simp [List.splitOnP_nil]
  | cons c rest ih =>
      rw [List.splitOnP_cons_eq_if_modifyHead]
      cases hc : space c with
      | true => simp [hc, ih]
      | false =>
          obtain ⟨head, tail, hsplit⟩ :=
            List.exists_cons_of_ne_nil (List.splitOnP_ne_nil space rest)
          rw [hsplit] at ih
          simp [hc, hsplit, ← ih]

theorem flatten_words (text : List α)
    : (words space text).flatten = text.filter (fun c => !space c) := by
  rw [words, List.flatten_filter_not_isEmpty, flatten_splitOnP]

theorem mem_words {word : List α} (h : word ∈ words space text)
    : word ≠ [] ∧ ∀ c ∈ word, space c = false := by
  refine ⟨by simpa using (List.mem_filter.mp h).2, fun c hc => ?_⟩
  have hm : c ∈ (words space text).flatten := List.mem_flatten.mpr ⟨word, h, hc⟩
  rw [flatten_words] at hm
  simpa using (List.mem_filter.mp hm).2

theorem words_congr (h : ∀ c ∈ text, space c = space' c) : words space text = words space' text := by
  have hsplit : ∀ rest : List α, (∀ c ∈ rest, space c = space' c)
      → rest.splitOnP space = rest.splitOnP space' := fun rest => by
    induction rest with
    | nil => simp [List.splitOnP_nil]
    | cons c rest ih =>
        intro hrest
        obtain ⟨hc, hrest⟩ := List.forall_mem_cons.mp hrest
        rw [List.splitOnP_cons_eq_if_modifyHead, List.splitOnP_cons_eq_if_modifyHead, hc, ih hrest]
  rw [words, words, hsplit text h]

@[simp] theorem words_dropWhile (text : List α)
    : words space (text.dropWhile space) = words space text := by
  induction text with
  | nil => rfl
  | cons c rest ih =>
      cases hc : space c with
      | true => rw [List.dropWhile_cons_of_pos hc, ih, words_cons_space hc]
      | false => rw [List.dropWhile_cons_of_neg (by simp [hc])]

@[simp] theorem words_rdropWhile (text : List α)
    : words space (text.rdropWhile space) = words space text := by
  induction text using List.reverseRecOn with
  | nil => simp
  | append_singleton front c ih =>
      cases hc : space c with
      | true => rw [List.rdropWhile_concat_pos space front c hc, ih, words_concat_space hc]
      | false => rw [List.rdropWhile_concat_neg space front c (by simp [hc])]

@[simp] theorem words_trim (text : List α) : words space (trim space text) = words space text := by
  simp [trim]

theorem trim_congr (h : ∀ c ∈ text, space c = space' c) : trim space text = trim space' text := by
  have hdrop : ∀ rest : List α, (∀ c ∈ rest, space c = space' c)
      → rest.dropWhile space = rest.dropWhile space' := fun rest => by
    induction rest with
    | nil => simp
    | cons c rest ih =>
        intro hrest
        obtain ⟨hc, hrest⟩ := List.forall_mem_cons.mp hrest
        simp only [List.dropWhile_cons, hc, ih hrest]
  rw [trim, trim, hdrop text h, List.rdropWhile, List.rdropWhile, hdrop]
  intro c hm
  exact h c ((List.dropWhile_sublist space').subset (List.mem_reverse.mp hm))

theorem mem_trim {c : α} (hc : space c = false) : c ∈ trim space text ↔ c ∈ text := by
  have hwords : ∀ rest : List α, c ∈ (words space rest).flatten ↔ c ∈ rest := fun rest => by
    simp [flatten_words, hc]
  rw [← hwords, words_trim, hwords]

theorem mem_of_mem_trim {c : α} (h : c ∈ trim space text) : c ∈ text :=
  (List.dropWhile_sublist space).subset <| List.IsPrefix.subset ( List.rdropWhile_prefix space _) h

theorem trim_eq_self (h : ∀ c ∈ text, space c = false) : trim space text = text := by
  have hdrop : text.dropWhile space = text := by
    cases text with
    | nil => rfl
    | cons c rest => exact List.dropWhile_cons_of_neg (by simp [h c (by simp)])
  rw [trim, hdrop]
  refine (List.rdropWhile_eq_self_iff).mpr fun hne => ?_
  simp [h _ (List.getLast_mem hne)]

theorem words_eq_cons {c : α} (hc : space c = false)
    : words space (c :: text)
      = (c :: text).takeWhile (fun d => !space d)
        :: words space ((c :: text).dropWhile (fun d => !space d)) := by
  have hword : ∀ d ∈ (c :: text).takeWhile (fun d => !space d), space d = false := fun d hd => by
    simpa using List.mem_takeWhile_imp hd
  have hne : (c :: text).takeWhile (fun d => !space d) ≠ [] := by
    simp [hc]
  have hsplit := List.takeWhile_append_dropWhile (p := fun d => !space d) (l := c :: text)
  rcases hrest : (c :: text).dropWhile (fun d => !space d) with _ | ⟨d, rest⟩
  · rw [hrest, List.append_nil] at hsplit
    rw [words_nil, hsplit]
    exact words_eq_singleton (by simp) (hsplit ▸ hword)
  · have hd : space d = true := by
      have hhead := List.head_dropWhile_not (fun d => !space d) (l := c :: text) (by simp [hrest])
      simpa [hrest] using hhead
    rw [hrest] at hsplit
    conv_lhs => rw [← hsplit]
    rw [words_append_cons _ _ hd, words_eq_singleton hne hword, words_cons_space hd]
    rfl

theorem words_eq_concat {c : α} (hc : space c = false)
    : words space (text ++ [c])
      = words space ((text ++ [c]).rdropWhile (fun d => !space d))
        ++ [(text ++ [c]).rtakeWhile (fun d => !space d)] := by
  have hword : ∀ d ∈ (text ++ [c]).rtakeWhile (fun d => !space d), space d = false := fun d hd => by
    simpa using List.mem_rtakeWhile_imp hd
  have hne : (text ++ [c]).rtakeWhile (fun d => !space d) ≠ [] := by
    rw [List.rtakeWhile_concat_pos _ _ _ (by simp [hc])]
    simp
  have hsplit := List.rdropWhile_append_rtakeWhile (p := fun d => !space d) (l := text ++ [c])
  rcases List.eq_nil_or_concat ((text ++ [c]).rdropWhile (fun d => !space d))
    with hrest | ⟨front, d, hrest⟩
  · rw [hrest, List.nil_append] at hsplit
    rw [hrest, words_nil, hsplit]
    exact words_eq_singleton (by simp) (hsplit ▸ hword)
  · have hd : space d = true := by
      have hlast := List.rdropWhile_last_not (fun d => !space d) (text ++ [c]) (by simp [hrest])
      simpa [hrest] using hlast
    rw [hrest, List.concat_eq_append] at hsplit ⊢
    conv_lhs => rw [← hsplit]
    rw [List.append_assoc, List.singleton_append, words_append_cons _ _ hd,
      words_eq_singleton hne hword, words_concat_space hd]

theorem words_intercalate {list : List (List α)} {c : α} (hc : space c = true)
    (h : ∀ word ∈ list, word ≠ [] ∧ ∀ d ∈ word, space d = false)
    : words space ([c].intercalate list) = list := by
  induction list with
  | nil => simp [List.intercalate]
  | cons word rest ih =>
      obtain ⟨⟨hne, hword⟩, hrest⟩ := List.forall_mem_cons.mp h
      cases rest with
      | nil => simpa [List.intercalate] using words_eq_singleton hne hword
      | cons next rest =>
          have hjoin : [c].intercalate (word :: next :: rest)
              = word ++ c :: [c].intercalate (next :: rest) := by
            simp [List.intercalate, List.intersperse]
          rw [hjoin, words_append_cons _ _ hc, words_eq_singleton hne hword, ih hrest]
          rfl

end Library
