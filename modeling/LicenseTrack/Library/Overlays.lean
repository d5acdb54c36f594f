import Mathlib.Data.List.Basic

/-! Writes to parts of a store that maps places to values, and the restoring of a store from
writes whose values were saved from it.
-/

namespace Library

universe u v

variable {α : Type u} {β : Type v}

/-- A write: the places that it covers, and the values that it puts there. -/
structure Overlay (α : Type u) (β : Type v) where
  covers : α → Bool
  value : α → β

namespace Overlay

variable {source : α → β} {writes : List (Overlay α β)}

/-- The store after a write. -/
def apply (write : Overlay α β) (store : α → β) : α → β := fun place =>
  if write.covers place then write.value place else store place

/-- The store after writes, one after the other. -/
def applyAll (writes : List (Overlay α β)) (store : α → β) : α → β :=
  writes.foldl (fun store write => write.apply store) store

/-- Whether one of the writes covers a place. -/
def holds (writes : List (Overlay α β)) (place : α) : Bool := writes.any (·.covers place)

/-- Writes whose values are those of a store. -/
def SavedFrom (source : α → β) (writes : List (Overlay α β)) : Prop :=
  ∀ write ∈ writes, ∀ place, write.covers place = true → write.value place = source place

theorem applyAll_apply (h : SavedFrom source writes) (store : α → β) (place : α)
    : applyAll writes store place = if holds writes place then source place else store place := by
  induction writes generalizing store with
  | nil => simp [applyAll, holds]
  | cons write rest ih =>
      have hrest : SavedFrom source rest := fun w hw => h w (List.mem_cons_of_mem _ hw)
      change applyAll rest (write.apply store) place = _
      rw [ih hrest]
      simp only [holds, List.any_cons, Bool.or_eq_true, apply]
      by_cases hlater : rest.any (·.covers place) = true
      · simp [hlater]
      · by_cases hnow : write.covers place = true
        · simp [hlater, hnow, h write List.mem_cons_self place hnow]
        · simp [hlater, hnow]

theorem applyAll_eq_iff (h : SavedFrom source writes) {store : α → β}
    : applyAll writes store = source
      ↔ ∀ place, holds writes place = false → store place = source place := by
  constructor
  · intro hrestored place hplace
    have happly := applyAll_apply h store place
    rw [hrestored, hplace] at happly
    simpa using happly.symm
  · intro hkept
    funext place
    rw [applyAll_apply h]
    split
    · rfl
    · next hplace => exact hkept place (by simpa using hplace)

end Overlay

end Library
