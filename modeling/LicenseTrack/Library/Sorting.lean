import Mathlib.Data.List.Pairwise
import Mathlib.Data.List.Sort

/-! Lists whose elements stand in an order, and sorting by a key that keeps the order of equal keys.
-/

namespace Library

open List

universe u

variable {α : Type u}

theorem pairwise_either {R : α → α → Prop} {list : List α} (h : list.Pairwise R) {a b : α}
    (ha : a ∈ list) (hb : b ∈ list) (hne : a ≠ b)
    : R a b ∨ R b a := by
  have hsymm : Std.Symm (fun a b => R a b ∨ R b a) := ⟨fun _ _ => Or.symm⟩
  exact (h.imp (S := fun a b => R a b ∨ R b a) Or.inl).forall ha hb hne

theorem pair_sublist_either {list : List α} {a b : α} (ha : a ∈ list) (hb : b ∈ list)
    (hne : a ≠ b)
    : [a, b] <+ list ∨ [b, a] <+ list := by
  induction list with
  | nil => cases ha
  | cons head rest ih =>
      rcases mem_cons.mp ha with hhead | har <;> rcases mem_cons.mp hb with hhead' | hbr
      · exact absurd (hhead.trans hhead'.symm) hne
      · rw [hhead]
        exact .inl ((singleton_sublist.mpr hbr).cons_cons _)
      · rw [hhead']
        exact .inr ((singleton_sublist.mpr har).cons_cons _)
      · exact (ih har hbr).imp (fun h => h.cons head) (fun h => h.cons head)

theorem not_pair_sublist {list : List α} (hnodup : list.Nodup) {a b : α} (h : [a, b] <+ list)
    : ¬[b, a] <+ list := by
  induction list with
  | nil => cases h
  | cons head rest ih =>
      obtain ⟨hnew, hrest⟩ := nodup_cons.mp hnodup
      intro h'
      cases h with
      | cons _ h =>
          cases h' with
          | cons _ h' => exact ih hrest h h'
          | cons_cons _ h' => exact hnew (h.subset (by simp))
      | cons_cons _ h =>
          cases h' with
          | cons _ h' => exact hnew (h'.subset (by simp))
          | cons_cons _ h' => exact hnew (singleton_sublist.mp h)

theorem mem_of_pair_sublist {front rest : List α} {a b : α} (hnodup : (front ++ b :: rest).Nodup)
    (h : [a, b] <+ front ++ b :: rest)
    : a ∈ front := by
  rcases mem_append.mp (h.subset mem_cons_self) with ha | ha
  · exact ha
  · rcases mem_cons.mp ha with rfl | ha
    · have htwice := hnodup.sublist h
      simp at htwice
    · have hafter : [b, a] <+ front ++ b :: rest :=
        ((singleton_sublist.mpr ha).cons_cons b).trans (sublist_append_right _ _)
      exact absurd hafter (not_pair_sublist hnodup h)

theorem pair_sublist_sortedBy (key : α → Nat) {list : List α} (hnodup : list.Nodup) {a b : α}
    (ha : a ∈ list) (hb : b ∈ list) (hne : a ≠ b)
    : [a, b] <+ list.insertionSort (fun x y => key x ≤ key y)
      ↔ key a < key b ∨ key a = key b ∧ [a, b] <+ list := by
  have htotal : Std.Total (fun x y : α => key x ≤ key y) := ⟨fun x y => Nat.le_total _ _⟩
  have htrans : IsTrans α (fun x y => key x ≤ key y) := ⟨fun _ _ _ => Nat.le_trans⟩
  have hperm := perm_insertionSort (fun x y => key x ≤ key y) list
  have hsorted := pairwise_insertionSort (fun x y => key x ≤ key y) list
  have hkept : ∀ {x y}, key x ≤ key y → [x, y] <+ list →
      [x, y] <+ list.insertionSort (fun x y => key x ≤ key y) :=
    fun hle h => pair_sublist_insertionSort hle h
  constructor
  · intro h
    have hle : key a ≤ key b := (pairwise_iff_forall_sublist.mp hsorted) h
    rcases Nat.lt_or_eq_of_le hle with hlt | heq
    · exact .inl hlt
    · rcases pair_sublist_either ha hb hne with hab | hba
      · exact .inr ⟨heq, hab⟩
      · exact absurd (hkept heq.ge hba) (not_pair_sublist (hperm.nodup_iff.mpr hnodup) h)
  · rintro (hlt | ⟨heq, hab⟩)
    · rcases pair_sublist_either (hperm.mem_iff.mpr ha) (hperm.mem_iff.mpr hb) hne with h | h
      · exact h
      · exact absurd ((pairwise_iff_forall_sublist.mp hsorted) h) (Nat.not_le.mpr hlt)
    · exact hkept heq.le hab

end Library
