import Mathlib.Data.List.Sort

/-! Tables of rows under integer keys, as a relational store keeps them. The keys of a
table strictly increase, so two tables with the same rows are the same table.
-/

namespace Library

universe u v

/-- A table: rows under strictly increasing keys. -/
structure Table (ρ : Type u) where
  entries : List (Nat × ρ)
  sorted : entries.Pairwise (fun a b => a.1 < b.1)
deriving DecidableEq

namespace Table

variable {ρ : Type u} {σ : Type v}

/-- The table without rows. -/
def empty : Table ρ := ⟨[], List.Pairwise.nil⟩

/-- The row stored under a key. -/
def get? (t : Table ρ) (key : Nat) : Option ρ :=
  (t.entries.find? (fun entry => entry.1 == key)).map Prod.snd

/-- The key the next inserted row receives: one more than the largest key in use. -/
def nextKey (t : Table ρ) : Nat := (t.entries.getLast?.map (fun entry => entry.1 + 1)).getD 1

theorem lt_nextKey {t : Table ρ} {entry : Nat × ρ} (h : entry ∈ t.entries)
    : entry.1 < t.nextKey := by
  obtain ⟨front, last, hl⟩ := List.eq_nil_or_concat t.entries |>.resolve_left
    (List.ne_nil_of_mem h)
  have hs := t.sorted
  rw [hl, List.concat_eq_append] at hs h
  have hn : t.nextKey = last.1 + 1 := by simp [nextKey, hl]
  rcases List.mem_append.mp h with h | h
  · have := (List.pairwise_append.mp hs).2.2 entry h last (by simp)
    omega
  · obtain rfl : entry = last := by simpa using h
    omega

/-- The table with one more row, under the next key. -/
def insert (t : Table ρ) (row : ρ) : Table ρ where
  entries := t.entries ++ [(t.nextKey, row)]
  sorted := by
    refine List.pairwise_append.mpr ⟨t.sorted, by simp, fun entry he last hl => ?_⟩
    obtain rfl : last = (t.nextKey, row) := by simpa using hl
    exact lt_nextKey he

/-- The table with every row rewritten, the keys kept. -/
def mapRows (t : Table ρ) (f : Nat → ρ → σ) : Table σ where
  entries := t.entries.map (fun entry => (entry.1, f entry.1 entry.2))
  sorted := List.pairwise_map.mpr t.sorted

/-- The table with the row under one key rewritten. -/
def modify (t : Table ρ) (key : Nat) (f : ρ → ρ) : Table ρ :=
  t.mapRows (fun k row => if k = key then f row else row)

/-- The table of the rows that satisfy a condition. -/
def filter (t : Table ρ) (p : Nat → ρ → Bool) : Table ρ where
  entries := t.entries.filter (fun entry => p entry.1 entry.2)
  sorted := t.sorted.filter _

/-- The keys in use, in increasing order. -/
def keys (t : Table ρ) : List Nat := t.entries.map Prod.fst

/-- The keys of the rows that satisfy a condition, in increasing order. -/
def select (t : Table ρ) (p : Nat → ρ → Bool) : List Nat := (t.filter p).keys

-- Looking up a row

theorem get?_eq_some {t : Table ρ} {key : Nat} {row : ρ}
    : t.get? key = some row ↔ (key, row) ∈ t.entries := by
  obtain ⟨entries, hs⟩ := t
  simp only [get?]
  induction entries with
  | nil => simp
  | cons head rest ih =>
      obtain ⟨hh, hr⟩ := List.pairwise_cons.mp hs
      by_cases hk : head.1 = key
      · have hn : (key, row) ∉ rest := fun hm => by
          have := hh _ hm
          omega
        simp only [List.find?_cons, hk, beq_self_eq_true, Option.map_some, Option.some.injEq,
          List.mem_cons, hn, or_false]
        constructor
        · rintro rfl
          exact Prod.ext hk.symm rfl
        · exact fun he => by rw [← he]
      · have hne : (key, row) ≠ head := fun he => hk (by rw [← he])
        simpa [List.find?_cons, hk, hne] using ih hr

theorem get?_eq_none {t : Table ρ} {key : Nat}
    : t.get? key = none ↔ ∀ row, (key, row) ∉ t.entries := by
  rw [Option.eq_none_iff_forall_ne_some]
  exact forall_congr' fun row => not_congr get?_eq_some

theorem mem_keys {t : Table ρ} {key : Nat} : key ∈ t.keys ↔ ∃ row, t.get? key = some row := by
  simp only [keys, List.mem_map, Prod.exists, get?_eq_some]
  exact ⟨fun ⟨k, row, hm, he⟩ => ⟨row, he ▸ hm⟩, fun ⟨row, hm⟩ => ⟨key, row, hm, rfl⟩⟩

@[simp] theorem get?_empty (key : Nat) : (empty : Table ρ).get? key = none := rfl

theorem lt_nextKey_of_get? {t : Table ρ} {key : Nat} {row : ρ} (h : t.get? key = some row)
    : key < t.nextKey :=
  lt_nextKey (get?_eq_some.mp h)

@[simp] theorem get?_nextKey (t : Table ρ) : t.get? t.nextKey = none := by
  refine get?_eq_none.mpr fun row hm => ?_
  have := lt_nextKey hm
  omega

theorem get?_insert (t : Table ρ) (row : ρ) (key : Nat)
    : (t.insert row).get? key = if key = t.nextKey then some row else t.get? key := by
  simp only [get?, insert, List.find?_append]
  split
  · next h =>
      subst h
      have hn : t.entries.find? (fun entry => entry.1 == t.nextKey) = none := by
        have := get?_nextKey t
        simpa only [get?, Option.map_eq_none_iff] using this
      simp [hn]
  · next h =>
      have hk : (t.nextKey == key) = false := by simpa using fun he => h he.symm
      simp [hk]

@[simp] theorem get?_mapRows (t : Table ρ) (f : Nat → ρ → σ) (key : Nat)
    : (t.mapRows f).get? key = (t.get? key).map (f key) := by
  ext row
  simp only [get?_eq_some, mapRows, List.mem_map, Prod.mk.injEq, Prod.exists,
    Option.map_eq_some_iff]
  exact ⟨fun ⟨k, r, hm, hk, hr⟩ => ⟨r, hk ▸ hm, hk ▸ hr⟩,
    fun ⟨r, hm, hr⟩ => ⟨key, r, hm, rfl, hr⟩⟩

theorem get?_modify (t : Table ρ) (changed : Nat) (f : ρ → ρ) (key : Nat)
    : (t.modify changed f).get? key
      = (t.get? key).map (fun row => if key = changed then f row else row) := by
  simp [modify]

@[simp] theorem get?_modify_self (t : Table ρ) (key : Nat) (f : ρ → ρ)
    : (t.modify key f).get? key = (t.get? key).map f := by
  simp [get?_modify]

theorem get?_modify_ne {key changed : Nat} (t : Table ρ) (f : ρ → ρ) (h : key ≠ changed)
    : (t.modify changed f).get? key = t.get? key := by
  simp [get?_modify, h]

@[simp] theorem get?_filter (t : Table ρ) (p : Nat → ρ → Bool) (key : Nat)
    : (t.filter p).get? key = (t.get? key).filter (p key) := by
  ext row
  simp only [get?_eq_some, filter, List.mem_filter, Option.filter_eq_some_iff]

theorem mem_select {t : Table ρ} {p : Nat → ρ → Bool} {key : Nat}
    : key ∈ t.select p ↔ ∃ row, t.get? key = some row ∧ p key row = true := by
  simp only [select, mem_keys, get?_filter, Option.filter_eq_some_iff]

theorem keys_increase (t : Table ρ) : t.keys.Pairwise (· < ·) :=
  List.pairwise_map.mpr t.sorted

theorem getLast?_eq_some_of_increasing {list : List Nat} (hs : list.Pairwise (· < ·)) {a : Nat}
    : list.getLast? = some a ↔ a ∈ list ∧ ∀ b ∈ list, b ≤ a := by
  rcases List.eq_nil_or_concat list with rfl | ⟨front, last, rfl⟩
  · simp
  · rw [List.concat_eq_append] at hs ⊢
    have hlt : ∀ b ∈ front, b < last := fun b hb =>
      (List.pairwise_append.mp hs).2.2 b hb last (by simp)
    rw [List.getLast?_concat, Option.some.injEq]
    constructor
    · rintro rfl
      refine ⟨by simp, fun b hb => ?_⟩
      rcases List.mem_append.mp hb with hb | hb
      · exact Nat.le_of_lt (hlt b hb)
      · exact Nat.le_of_eq (List.mem_singleton.mp hb)
    · rintro ⟨ha, hmax⟩
      have hle := hmax last (by simp)
      rcases List.mem_append.mp ha with ha | ha
      · exact absurd (hlt a ha) (Nat.not_lt.mpr hle)
      · exact (List.mem_singleton.mp ha).symm

theorem getLast?_select {t : Table ρ} {p : Nat → ρ → Bool} {key : Nat}
    : (t.select p).getLast? = some key
      ↔ (∃ row, t.get? key = some row ∧ p key row = true)
        ∧ ∀ other row, t.get? other = some row → p other row = true → other ≤ key := by
  have hs : (t.select p).Pairwise (· < ·) := keys_increase _
  rw [getLast?_eq_some_of_increasing hs, mem_select]
  refine and_congr_right fun _ => ?_
  simp only [mem_select, forall_exists_index, and_imp]

@[simp] theorem nextKey_insert (t : Table ρ) (row : ρ) : (t.insert row).nextKey = t.nextKey + 1 := by
  simp [nextKey, insert]

@[ext] theorem ext {t t' : Table ρ} (h : ∀ key, t.get? key = t'.get? key) : t = t' := by
  have hm : ∀ entry, entry ∈ t.entries ↔ entry ∈ t'.entries := fun entry => by
    have hrow : t.get? entry.1 = some entry.2 ↔ t'.get? entry.1 = some entry.2 := by rw [h]
    exact get?_eq_some.symm.trans (hrow.trans get?_eq_some)
  have hirr : ∀ entries : List (Nat × ρ), entries.Pairwise (fun a b => a.1 < b.1)
      → entries.Nodup := fun entries hs =>
    hs.imp fun {a b} hab he => by
      rw [he] at hab
      omega
  have hp := (List.perm_ext_iff_of_nodup (hirr _ t.sorted) (hirr _ t'.sorted)).mpr hm
  have he : t.entries = t'.entries :=
    hp.eq_of_pairwise (fun a b _ _ hab hba => by omega) t.sorted t'.sorted
  cases t
  cases t'
  simpa using he

@[simp] theorem keys_mapRows (t : Table ρ) (f : Nat → ρ → σ) : (t.mapRows f).keys = t.keys := by
  simp [keys, mapRows]

@[simp] theorem nextKey_mapRows (t : Table ρ) (f : Nat → ρ → σ)
    : (t.mapRows f).nextKey = t.nextKey := by
  simp only [nextKey, mapRows, List.getLast?_map, Option.map_map]
  rfl

@[simp] theorem nextKey_modify (t : Table ρ) (key : Nat) (f : ρ → ρ)
    : (t.modify key f).nextKey = t.nextKey :=
  nextKey_mapRows t _

theorem mapRows_mapRows (t : Table ρ) (f : Nat → ρ → σ) {τ : Type v} (g : Nat → σ → τ)
    : (t.mapRows f).mapRows g = t.mapRows (fun key row => g key (f key row)) := by
  ext key : 1
  simp [Option.map_map, Function.comp_def]

theorem mapRows_eq_self {t : Table ρ} {f : Nat → ρ → ρ}
    (h : ∀ key row, t.get? key = some row → f key row = row)
    : t.mapRows f = t := by
  ext key : 1
  rw [get?_mapRows]
  rcases hr : t.get? key with _ | row
  · rfl
  · simp [h key row hr]

theorem modify_eq_self {t : Table ρ} {key : Nat} {f : ρ → ρ}
    (h : ∀ row, t.get? key = some row → f row = row)
    : t.modify key f = t := by
  refine mapRows_eq_self fun k row hr => ?_
  split
  · next he => exact h row (he ▸ hr)
  · rfl

theorem modify_modify (t : Table ρ) (key : Nat) (f g : ρ → ρ)
    : (t.modify key f).modify key g = t.modify key (fun row => g (f row)) := by
  ext k : 1
  simp only [get?_modify, Option.map_map]
  congr 1
  funext row
  by_cases h : k = key <;> simp [h]

variable {β : Type*} {γ : Type*}

/-- Two tables have the same keys and, under each, rows that look alike. -/
def Agrees (view : ρ → β) (t t' : Table ρ) : Prop :=
  ∀ key, (t'.get? key).map view = (t.get? key).map view

namespace Agrees

variable {view : ρ → β}

theorem refl (view : ρ → β) (t : Table ρ) : Agrees view t t := fun _ => rfl

theorem trans {t t' t'' : Table ρ} (h : Agrees view t t') (h' : Agrees view t' t'')
    : Agrees view t t'' :=
  fun key => (h' key).trans (h key)

theorem symm {t t' : Table ρ} (h : Agrees view t t') : Agrees view t' t :=
  fun key => (h key).symm

theorem of_mapRows {t : Table ρ} {f : Nat → ρ → ρ} (h : ∀ key row, view (f key row) = view row)
    : Agrees view t (t.mapRows f) := fun key => by
  rw [get?_mapRows, Option.map_map]
  exact congrArg (Option.map · (t.get? key)) (funext (h key))

theorem of_modify {t : Table ρ} {changed : Nat} {f : ρ → ρ} (h : ∀ row, view (f row) = view row)
    : Agrees view t (t.modify changed f) :=
  of_mapRows fun key row => by split <;> simp [h]

theorem coarsen {t t' : Table ρ} (h : Agrees view t t') (g : β → γ)
    : Agrees (g ∘ view) t t' := fun key => by
  simpa only [Option.map_map] using congrArg (Option.map g) (h key)

theorem back {t t' : Table ρ} (h : Agrees view t t') {key : Nat} {row' : ρ}
    (hr : t'.get? key = some row')
    : ∃ row, t.get? key = some row ∧ view row' = view row := by
  have hk := h key
  rw [hr, Option.map_some] at hk
  obtain ⟨row, hrow, hv⟩ := Option.map_eq_some_iff.mp hk.symm
  exact ⟨row, hrow, hv.symm⟩

theorem missing {t t' : Table ρ} (h : Agrees view t t') {key : Nat} (hr : t.get? key = none)
    : t'.get? key = none := by
  simpa [hr] using h key

theorem forth {t t' : Table ρ} (h : Agrees view t t') {key : Nat} {row : ρ}
    (hr : t.get? key = some row)
    : ∃ row', t'.get? key = some row' ∧ view row' = view row :=
  let ⟨row', hrow, hv⟩ := h.symm.back hr
  ⟨row', hrow, hv.symm⟩

theorem nextKey {t t' : Table ρ} (h : Agrees view t t') : t'.nextKey = t.nextKey := by
  have he : t'.mapRows (fun _ row => view row) = t.mapRows (fun _ row => view row) := by
    ext key : 1
    simpa only [get?_mapRows] using h key
  calc t'.nextKey = (t'.mapRows (fun _ row => view row)).nextKey := (nextKey_mapRows _ _).symm
    _ = (t.mapRows (fun _ row => view row)).nextKey := by rw [he]
    _ = t.nextKey := nextKey_mapRows _ _

theorem insert_modify {t t' : Table ρ} {row : ρ} (h : Agrees view (t.insert row) t')
    {f : ρ → ρ} (hf : ∀ a b, view b = view a → view (f b) = view (f a))
    : Agrees view (t.insert (f row)) (t'.modify t.nextKey f) := fun key => by
  have hk := h key
  rw [get?_insert] at hk ⊢
  rw [get?_modify]
  split at hk
  · next he =>
      rw [Option.map_some, Option.map_eq_some_iff] at hk
      obtain ⟨stored, hs, hv⟩ := hk
      simp [he ▸ hs, he, hf row stored hv]
  · next he => simpa [he] using hk

theorem mapRows {t t' : Table ρ} (h : Agrees view t t') {f g : Nat → ρ → ρ}
    (hfg : ∀ key a b, view b = view a → view (g key b) = view (f key a))
    : Agrees view (t.mapRows f) (t'.mapRows g) := fun key => by
  rw [get?_mapRows, get?_mapRows]
  rcases hr : t.get? key with _ | row
  · simp [h.missing hr]
  · obtain ⟨row', hr', hv⟩ := h.forth hr
    simp [hr', hfg key row row' hv]

theorem modify {t t' : Table ρ} (h : Agrees view t t') (changed : Nat) {f : ρ → ρ}
    (hf : ∀ a b, view b = view a → view (f b) = view (f a))
    : Agrees view (t.modify changed f) (t'.modify changed f) :=
  h.mapRows fun _ a b hab => by
    split
    · exact hf a b hab
    · exact hab

end Agrees

end Table

end Library
