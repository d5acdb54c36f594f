import Mathlib.Algebra.BigOperators.Group.List.Basic
import Mathlib.Data.List.Induction
import Mathlib.Data.List.Nodup
import Mathlib.Data.List.Perm.Basic

/-! Dictionaries that are filled in one pass over a list: each element changes the entry of its key,
which a fresh entry stands for until then.
-/

namespace Library

universe u v w

variable {κ : Type u} {γ : Type v} {α : Type w} [DecidableEq κ]

/-- The entry of a key. -/
def entryAt : List (κ × γ) → κ → Option γ
  | [], _ => none
  | (k, g) :: rest, key => if k = key then some g else entryAt rest key

/-- Changes the entry of a key, after setting a fresh one where there is none. -/
def updateEntry (key : κ) (fresh : γ) (change : γ → γ) : List (κ × γ) → List (κ × γ)
  | [] => [(key, change fresh)]
  | (k, g) :: rest =>
      if k = key then (k, change g) :: rest else (k, g) :: updateEntry key fresh change rest

theorem entryAt_updateEntry (key : κ) (fresh : γ) (change : γ → γ) (groups : List (κ × γ)) (k : κ)
    : entryAt (updateEntry key fresh change groups) k
      = if k = key then some (change ((entryAt groups key).getD fresh)) else entryAt groups k := by
  induction groups with
  | nil =>
      by_cases h : k = key
      · simp [updateEntry, entryAt, h]
      · simp [updateEntry, entryAt, h, Ne.symm h]
  | cons head rest ih =>
      obtain ⟨k', g⟩ := head
      by_cases hhead : k' = key
      · subst hhead
        by_cases h : k' = k
        · simp [updateEntry, entryAt, h]
        · simp [updateEntry, entryAt, h, Ne.symm h]
      · simp only [updateEntry, if_neg hhead, entryAt, ih]
        by_cases h : k' = k
        · subst h
          simp [hhead]
        · simp [h]

theorem keys_updateEntry (key : κ) (fresh : γ) (change : γ → γ) (groups : List (κ × γ)) (k : κ)
    : k ∈ (updateEntry key fresh change groups).map Prod.fst
      ↔ k = key ∨ k ∈ groups.map Prod.fst := by
  induction groups with
  | nil => simp [updateEntry]
  | cons head rest ih =>
      obtain ⟨k', g⟩ := head
      by_cases hhead : k' = key
      · subst hhead
        simp [updateEntry]
      · rw [updateEntry, if_neg hhead, List.map_cons, List.mem_cons, ih, List.map_cons,
          List.mem_cons]
        exact or_left_comm

theorem nodup_updateEntry {key : κ} {fresh : γ} {change : γ → γ} {groups : List (κ × γ)}
    (h : (groups.map Prod.fst).Nodup)
    : ((updateEntry key fresh change groups).map Prod.fst).Nodup := by
  induction groups with
  | nil => simp [updateEntry]
  | cons head rest ih =>
      obtain ⟨k', g⟩ := head
      rw [List.map_cons, List.nodup_cons] at h
      by_cases hhead : k' = key
      · rw [updateEntry, if_pos hhead, List.map_cons, List.nodup_cons]
        exact h
      · rw [updateEntry, if_neg hhead, List.map_cons, List.nodup_cons, keys_updateEntry]
        exact ⟨fun hmem => hmem.elim hhead h.1, ih h.2⟩

theorem isSome_entryAt {groups : List (κ × γ)} {k : κ}
    : (entryAt groups k).isSome = true ↔ k ∈ groups.map Prod.fst := by
  induction groups with
  | nil => simp [entryAt]
  | cons head rest ih =>
      obtain ⟨k', g⟩ := head
      by_cases hhead : k' = k
      · simp [entryAt, hhead]
      · simp [entryAt, hhead, Ne.symm hhead, ih]

theorem entryAt_eq_some {groups : List (κ × γ)} (h : (groups.map Prod.fst).Nodup) {k : κ} {g : γ}
    : entryAt groups k = some g ↔ (k, g) ∈ groups := by
  induction groups with
  | nil => simp [entryAt]
  | cons head rest ih =>
      obtain ⟨k', g'⟩ := head
      rw [List.map_cons, List.nodup_cons] at h
      by_cases hhead : k' = k
      · subst hhead
        have hout : (k', g) ∉ rest := fun hmem => h.1 (List.mem_map.2 ⟨(k', g), hmem, rfl⟩)
        simp [entryAt, hout, eq_comm]
      · simp [entryAt, hhead, Ne.symm hhead, ih h.2]

theorem sum_updateEntry {M : Type*} [AddCommMonoid M] {measure : κ × γ → M} {key : κ} {fresh : γ}
    {change : γ → γ} {gain : M} {groups : List (κ × γ)}
    (hfresh : measure (key, change fresh) = gain)
    (hchange : ∀ g, (key, g) ∈ groups → measure (key, change g) = measure (key, g) + gain)
    : ((updateEntry key fresh change groups).map measure).sum
      = (groups.map measure).sum + gain := by
  induction groups with
  | nil => simp [updateEntry, hfresh]
  | cons head rest ih =>
      obtain ⟨k, g⟩ := head
      by_cases hhead : k = key
      · subst hhead
        rw [updateEntry, if_pos rfl, List.map_cons, List.sum_cons, List.map_cons, List.sum_cons,
          hchange g List.mem_cons_self, add_right_comm]
      · rw [updateEntry, if_neg hhead, List.map_cons, List.sum_cons, List.map_cons, List.sum_cons,
          ih (fun g' hmem => hchange g' (List.mem_cons_of_mem _ hmem)), add_assoc]

-- One pass over a list

variable (key : α → κ) (fresh : α → γ) (change : α → γ → γ)

/-- The groups of a list, in the order in which their keys occur. -/
def groupBy (items : List α) : List (κ × γ) :=
  items.foldl (fun groups item => updateEntry (key item) (fresh item) (change item) groups) []

/-- What the elements of one group make of it: the first sets it up, and each changes it. -/
def foldGroup : List α → Option γ
  | [] => none
  | first :: rest =>
      some (rest.foldl (fun g item => change item g) (change first (fresh first)))

theorem foldGroup_concat (items : List α) (last : α)
    : foldGroup fresh change (items ++ [last])
      = some (change last ((foldGroup fresh change items).getD (fresh last))) := by
  cases items with
  | nil => rfl
  | cons first rest => simp [foldGroup, List.foldl_append]

theorem groupBy_concat (items : List α) (last : α)
    : groupBy key fresh change (items ++ [last])
      = updateEntry (key last) (fresh last) (change last) (groupBy key fresh change items) := by
  rw [groupBy, List.foldl_append]
  rfl

theorem nodup_groupBy (items : List α) : ((groupBy key fresh change items).map Prod.fst).Nodup := by
  induction items using List.reverseRecOn with
  | nil => exact List.nodup_nil
  | append_singleton items last ih =>
      rw [groupBy_concat]
      exact nodup_updateEntry ih

theorem entryAt_groupBy (items : List α) (k : κ)
    : entryAt (groupBy key fresh change items) k
      = foldGroup fresh change (items.filter (fun item => key item = k)) := by
  induction items using List.reverseRecOn with
  | nil => rfl
  | append_singleton items last ih =>
      rw [groupBy_concat, entryAt_updateEntry, List.filter_append]
      by_cases hkey : key last = k
      · subst hkey
        rw [if_pos rfl, ih, List.filter_cons_of_pos (by simp), List.filter_nil, foldGroup_concat]
      · rw [if_neg (Ne.symm hkey), ih, List.filter_cons_of_neg (by simp [hkey]), List.filter_nil,
          List.append_nil]

theorem mem_groupBy {items : List α} {k : κ} {g : γ}
    : (k, g) ∈ groupBy key fresh change items
      ↔ foldGroup fresh change (items.filter (fun item => key item = k)) = some g := by
  rw [← entryAt_groupBy, entryAt_eq_some (nodup_groupBy key fresh change items)]

theorem sum_groupBy {M : Type*} [AddCommMonoid M] {measure : κ × γ → M} {gain : α → M}
    (hfresh : ∀ item, measure (key item, change item (fresh item)) = gain item) {items : List α}
    (hchange : ∀ item ∈ items, ∀ g, measure (key item, change item g)
      = measure (key item, g) + gain item)
    : ((groupBy key fresh change items).map measure).sum = (items.map gain).sum := by
  induction items using List.reverseRecOn with
  | nil => rfl
  | append_singleton items last ih =>
      rw [groupBy_concat, sum_updateEntry (hfresh last)
        (fun g _ => hchange last (by simp) g), ih (fun item hmem => hchange item (by simp [hmem])),
        List.map_append, List.sum_append, List.map_singleton, List.sum_singleton]

variable {M : Type*} [AddCommMonoid M]

/-- Adds an amount to the total of a key. -/
def addAmount (totals : List (κ × M)) (k : κ) (amount : M) : List (κ × M) :=
  updateEntry k 0 (· + amount) totals

/-- The total of a key, nothing where there is no entry. -/
def amountOf (totals : List (κ × M)) (k : κ) : M := (entryAt totals k).getD 0

@[simp]
theorem amountOf_nil (k : κ) : amountOf ([] : List (κ × M)) k = 0 := rfl

theorem amountOf_addAmount (totals : List (κ × M)) (key : κ) (amount : M) (k : κ)
    : amountOf (addAmount totals key amount) k
      = amountOf totals k + if key = k then amount else 0 := by
  unfold amountOf addAmount
  rw [entryAt_updateEntry]
  by_cases h : k = key
  · subst h
    simp
  · simp [h, Ne.symm h]

theorem entryAt_eq_iff {totals totals' : List (κ × M)}
    : (∀ k, entryAt totals k = entryAt totals' k)
      ↔ (∀ k, k ∈ totals.map Prod.fst ↔ k ∈ totals'.map Prod.fst)
        ∧ ∀ k, amountOf totals k = amountOf totals' k := by
  constructor
  · intro h
    refine ⟨fun k => ?_, fun k => ?_⟩
    · rw [← isSome_entryAt, ← isSome_entryAt, h k]
    · rw [amountOf, amountOf, h k]
  · rintro ⟨hkeys, htotals⟩ k
    have hkey := hkeys k
    have htotal := htotals k
    rw [← isSome_entryAt, ← isSome_entryAt] at hkey
    unfold amountOf at htotal
    cases hfirst : entryAt totals k <;> cases hsecond : entryAt totals' k
      <;> simp_all

theorem amountOf_foldl {items : List α} {step : List (κ × M) → α → List (κ × M)} {gain : α → κ → M}
    (hstep : ∀ totals, ∀ item ∈ items, ∀ k,
      amountOf (step totals item) k = amountOf totals k + gain item k)
    (totals : List (κ × M)) (k : κ)
    : amountOf (items.foldl step totals) k
      = amountOf totals k + (items.map (fun item => gain item k)).sum := by
  induction items generalizing totals with
  | nil => simp
  | cons head rest ih =>
      rw [List.foldl_cons, ih (fun t item hmem => hstep t item (List.mem_cons_of_mem _ hmem)),
        hstep totals head List.mem_cons_self, List.map_cons, List.sum_cons, add_assoc]

theorem sum_map_filter (p : α → Prop) [DecidablePred p] (value : α → M) (items : List α)
    : ((items.filter (fun item => p item)).map value).sum
      = (items.map (fun item => if p item then value item else 0)).sum := by
  induction items with
  | nil => rfl
  | cons head rest ih =>
      by_cases h : p head
      · rw [List.filter_cons_of_pos (by simpa using h), List.map_cons, List.sum_cons, ih,
          List.map_cons, List.sum_cons, if_pos h]
      · rw [List.filter_cons_of_neg (by simpa using h), ih, List.map_cons, List.sum_cons, if_neg h,
          zero_add]

end Library
