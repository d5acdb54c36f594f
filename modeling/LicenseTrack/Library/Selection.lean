import Mathlib.Data.List.Basic

/-! Choosing one element of a list by a strict preference, the first of the preferred ones
winning, as Python's `max` and `min` do.
-/

namespace Library

universe u

variable {α : Type u}

/-- The first element that no other element is preferred to. -/
def pick (better : α → α → Bool) : List α → Option α
  | [] => none
  | head :: rest =>
      some (rest.foldl (fun best next => if better next best then next else best) head)

theorem foldl_choice_mem (better : α → α → Bool) (list : List α) (start : α)
    : list.foldl (fun best next => if better next best then next else best) start = start
      ∨ list.foldl (fun best next => if better next best then next else best) start ∈ list := by
  induction list generalizing start with
  | nil => exact .inl rfl
  | cons head rest ih =>
      rw [List.foldl_cons]
      split
      · rcases ih head with h | h
        · exact .inr (by rw [h]; exact List.mem_cons_self)
        · exact .inr (List.mem_cons_of_mem _ h)
      · rcases ih start with h | h
        · exact .inl h
        · exact .inr (List.mem_cons_of_mem _ h)

theorem pick_mem {better : α → α → Bool} {list : List α} {a : α} (h : pick better list = some a)
    : a ∈ list := by
  cases list with
  | nil => simp [pick] at h
  | cons head rest =>
      obtain rfl := Option.some.inj h
      rcases foldl_choice_mem better rest head with h | h
      · rw [h]
        exact List.mem_cons_self
      · exact List.mem_cons_of_mem _ h

theorem pick_eq_none {better : α → α → Bool} {list : List α} : pick better list = none ↔ list = [] := by
  cases list <;> simp [pick]

/-- A strict preference that ranks the elements, ties allowed. -/
structure Ranks (better : α → α → Bool) : Prop where
  asymm : ∀ {a b}, better a b = true → better b a = false
  between : ∀ {a c} (b), better a c = true → better a b = true ∨ better b c = true

theorem Ranks.irrefl {better : α → α → Bool} (h : Ranks better) (a : α) : better a a = false := by
  rcases ha : better a a with _ | _
  · rfl
  · rw [← ha, h.asymm ha]

theorem Ranks.converse {better : α → α → Bool} (h : Ranks better)
    : Ranks (fun a b => better b a) where
  asymm := fun hba => h.asymm hba
  between := fun b hca => (h.between b hca).symm

theorem foldl_choice_best {better : α → α → Bool} (hranks : Ranks better) (list : List α)
    (start : α)
    : ∀ b ∈ start :: list,
        better b (list.foldl (fun best next => if better next best then next else best) start)
          = false := by
  induction list generalizing start with
  | nil =>
      intro b hb
      rw [List.mem_singleton.mp hb]
      exact hranks.irrefl start
  | cons head rest ih =>
      -- What is not preferred to the next choice is not preferred to the last one.
      have hkept : ∀ {b next}, better b next = false →
          better b (rest.foldl (fun best next => if better next best then next else best) next)
            = false := by
        intro b next hb
        rcases hlast : better b _ with _ | _
        · rfl
        · rcases hranks.between next hlast with hnext | hnext
          · rw [hb] at hnext
            cases hnext
          · rw [ih next next List.mem_cons_self] at hnext
            cases hnext
      intro b hb
      rw [List.foldl_cons]
      by_cases hhead : better head start = true
      · rw [if_pos hhead]
        rcases List.mem_cons.mp hb with rfl | hb
        · exact hkept (hranks.asymm hhead)
        · exact ih head b hb
      · rw [if_neg hhead]
        rcases List.mem_cons.mp hb with rfl | hb
        · exact ih b b List.mem_cons_self
        · rcases List.mem_cons.mp hb with rfl | hb
          · exact hkept (by simpa using hhead)
          · exact ih start b (List.mem_cons_of_mem _ hb)

theorem pick_best {better : α → α → Bool} (hranks : Ranks better) {list : List α} {a : α}
    (h : pick better list = some a)
    : ∀ b ∈ list, better b a = false := by
  cases list with
  | nil => simp [pick] at h
  | cons head rest =>
      obtain rfl := Option.some.inj h
      exact foldl_choice_best hranks rest head

theorem pick_perm {better : α → α → Bool} (hranks : Ranks better) {list list' : List α}
    (hperm : list.Perm list')
    (hties : ∀ a ∈ list, ∀ b ∈ list, better a b = false → better b a = false → a = b)
    : pick better list = pick better list' := by
  rcases h : pick better list with _ | a
  · rw [pick_eq_none.mp h] at hperm
    rw [List.nil_perm.mp hperm]
    rfl
  · rcases h' : pick better list' with _ | b
    · rw [pick_eq_none.mp h'] at hperm
      rw [List.perm_nil.mp hperm] at h
      cases h
    · have hb := hperm.mem_iff.mpr (pick_mem h')
      have ha := hperm.mem_iff.mp (pick_mem h)
      rw [hties a (pick_mem h) b hb (pick_best hranks h' a ha) (pick_best hranks h b hb)]

theorem find?_perm {p : α → Bool} {list list' : List α} (hperm : list.Perm list')
    (hunique : ∀ a ∈ list, ∀ b ∈ list, p a = true → p b = true → a = b)
    : list.find? p = list'.find? p := by
  rcases h : list.find? p with _ | a
  · symm
    rw [List.find?_eq_none] at h ⊢
    exact fun b hb => h b (hperm.mem_iff.mpr hb)
  · rcases h' : list'.find? p with _ | b
    · rw [List.find?_eq_none] at h'
      exact absurd (List.find?_some h) (h' a (hperm.mem_iff.mp (List.mem_of_find?_eq_some h)))
    · rw [hunique a (List.mem_of_find?_eq_some h) b
        (hperm.mem_iff.mpr (List.mem_of_find?_eq_some h')) (List.find?_some h)
        (List.find?_some h')]

end Library
