import LicenseTrack.Model.Text
import Mathlib.Algebra.Order.Field.Power
import Mathlib.Algebra.Order.Ring.Rat
import Mathlib.Algebra.Field.Rat
import Mathlib.Tactic.Linarith
import Mathlib.Tactic.Positivity
import Mathlib.Tactic.Ring

/-! Sums of decimals in the default context, and their rounding to cents. -/

namespace LicenseTrack

namespace Decimal

/-- The digits of a decimal with its sign. -/
def signed (d : Decimal) : Int := if d.negative then -(d.coefficient : Int) else d.coefficient

/-- The digits of a decimal at a smaller exponent. -/
def scaled (d : Decimal) (exponent : Int) : Int := d.signed * 10 ^ (d.exponent - exponent).toNat

/-- A sum before its rounding. A sum of zeros is negative only if both are. -/
def exactAdd (a b : Decimal) : Decimal :=
  let exponent := min a.exponent b.exponent
  let n := a.scaled exponent + b.scaled exponent
  { negative := if n = 0 then a.negative && b.negative else decide (n < 0)
    coefficient := n.natAbs
    exponent }

/-- The sum of two decimals under the default context. -/
def add (a b : Decimal) : Decimal := (a.exactAdd b).round

/-- `Decimal("0")`. -/
def zero : Decimal := { negative := false, coefficient := 0, exponent := 0 }

/-- `sum(values, start=Decimal("0"))`. -/
def sum (values : List Decimal) : Decimal := values.foldl add zero

/-- Whether two decimals are the same number. -/
def sameNumber (a b : Decimal) : Bool :=
  let exponent := min a.exponent b.exponent
  a.scaled exponent == b.scaled exponent

/-- A decimal that the default context does not round. -/
def Fits (d : Decimal) : Prop := (Nat.toDigits 10 d.coefficient).length ≤ decimalPrecision

/-- Values whose partial sums are not rounded. -/
def SumFits : Decimal → List Decimal → Prop
  | _, [] => True
  | total, value :: rest => (total.exactAdd value).Fits ∧ SumFits (total.exactAdd value) rest

/-- The number that a decimal stands for. -/
def toRat (d : Decimal) : ℚ := (d.signed : ℚ) * (10 : ℚ) ^ d.exponent

theorem round_of_fits {d : Decimal} (h : d.Fits) : d.round = d := if_pos h

theorem toRat_scaled {d : Decimal} {exponent : Int} (h : exponent ≤ d.exponent)
    : (d.scaled exponent : ℚ) * (10 : ℚ) ^ exponent = d.toRat := by
  have hten : (10 : ℚ) ^ (d.exponent - exponent).toNat = (10 : ℚ) ^ (d.exponent - exponent) := by
    rw [← zpow_natCast, Int.toNat_of_nonneg (by omega)]
  rw [scaled, toRat, Int.cast_mul, Int.cast_pow, Int.cast_ofNat, hten, mul_assoc,
    ← zpow_add₀ (by norm_num), Int.sub_add_cancel]

theorem signed_exactAdd (a b : Decimal)
    : (a.exactAdd b).signed = a.scaled (min a.exponent b.exponent)
      + b.scaled (min a.exponent b.exponent) := by
  have hsigned : ∀ (n exponent : Int) (zeros : Bool), signed
      { negative := if n = 0 then zeros else decide (n < 0), coefficient := n.natAbs, exponent }
      = n := fun n exponent zeros => by
    by_cases hzero : n = 0
    · simp [signed, hzero]
    · rw [if_neg hzero, signed]
      dsimp only
      by_cases hnegative : n < 0
      · rw [if_pos (decide_eq_true hnegative)]
        omega
      · rw [if_neg (by simpa using hnegative)]
        omega
  exact hsigned _ _ _

theorem toRat_exactAdd (a b : Decimal) : (a.exactAdd b).toRat = a.toRat + b.toRat := by
  rw [← toRat_scaled (min_le_left a.exponent b.exponent),
    ← toRat_scaled (min_le_right a.exponent b.exponent), ← add_mul, toRat, signed_exactAdd]
  push_cast
  rfl

theorem toRat_foldl {values : List Decimal} {total : Decimal} (h : SumFits total values)
    : (values.foldl add total).toRat = total.toRat + (values.map toRat).sum := by
  induction values generalizing total with
  | nil => simp
  | cons value rest ih =>
      obtain ⟨hfits, hrest⟩ := h
      have hadd : total.add value = total.exactAdd value := round_of_fits hfits
      rw [List.foldl_cons, hadd, ih hrest, toRat_exactAdd, List.map_cons, List.sum_cons, add_assoc]

theorem toRat_sum {values : List Decimal} (h : SumFits zero values)
    : (sum values).toRat = (values.map toRat).sum := by
  rw [sum, toRat_foldl h]
  simp [toRat, signed, zero]

/-- The size of a decimal, its sign aside. -/
def size (d : Decimal) : ℚ := (d.coefficient : ℚ) * (10 : ℚ) ^ d.exponent

/-- The digits of a decimal at a place, behind which they are rounded. -/
def rescaled (rounding : Nat → Nat → Nat) (place : Int) (d : Decimal) : Nat :=
  if place ≤ d.exponent then d.coefficient * 10 ^ (d.exponent - place).toNat
  else rounding d.coefficient (10 ^ (place - d.exponent).toNat)

/-- A rounding to the nearest number, halves anywhere. -/
def ToNearest (rounding : Nat → Nat → Nat) : Prop :=
  ∀ unit, 0 < unit → ∀ n, 2 * n ≤ 2 * (rounding n unit * unit) + unit
    ∧ 2 * (rounding n unit * unit) ≤ 2 * n + unit

theorem size_nonneg (d : Decimal) : 0 ≤ d.size := by
  rw [size]
  positivity

theorem natPow_mul_zpow (n : Nat) (e : Int)
    : (10 : ℚ) ^ n * (10 : ℚ) ^ e = (10 : ℚ) ^ (e + n) := by
  rw [zpow_add₀ (by norm_num), zpow_natCast, mul_comm]

theorem toRat_eq (d : Decimal)
    : d.toRat = (if d.negative then -1 else 1) * ((d.coefficient : ℚ) * (10 : ℚ) ^ d.exponent) := by
  rw [toRat, signed]
  split <;> push_cast <;> ring

theorem abs_sign (d : Decimal) : |(if d.negative then -1 else 1 : ℚ)| = 1 := by split <;> norm_num

theorem abs_toRat (d : Decimal) : |d.toRat| = d.size := by
  rw [toRat_eq, abs_mul, abs_sign, one_mul]
  exact abs_of_nonneg d.size_nonneg

theorem rescaled_near {rounding : Nat → Nat → Nat} (hrounding : ToNearest rounding) (place : Int)
    (d : Decimal)
    : |(d.rescaled rounding place : ℚ) * (10 : ℚ) ^ place - d.size| ≤ (10 : ℚ) ^ place / 2 := by
  have hplace : (0 : ℚ) < (10 : ℚ) ^ place := by positivity
  unfold rescaled
  split
  case isTrue hlarge =>
    have hsame : ((d.coefficient * 10 ^ (d.exponent - place).toNat : ℕ) : ℚ) * (10 : ℚ) ^ place
        = d.size := by
      push_cast
      rw [size, mul_assoc, natPow_mul_zpow]
      congr 2
      omega
    rw [hsame, sub_self, abs_zero]
    linarith
  case isFalse hsmall =>
    obtain ⟨hlow, hhigh⟩ := hrounding (10 ^ (place - d.exponent).toNat) (by positivity) d.coefficient
    have hunit : ((10 ^ (place - d.exponent).toNat : ℕ) : ℚ) * (10 : ℚ) ^ d.exponent
        = (10 : ℚ) ^ place := by
      push_cast
      rw [natPow_mul_zpow]
      congr 1
      omega
    rw [size]
    generalize rounding d.coefficient (10 ^ (place - d.exponent).toNat) = rounded at hlow hhigh ⊢
    generalize (10 : ℕ) ^ (place - d.exponent).toNat = unit at hlow hhigh hunit
    have hlow' : 2 * (d.coefficient : ℚ) ≤ 2 * (rounded * unit) + unit := by exact_mod_cast hlow
    have hhigh' : 2 * ((rounded : ℚ) * unit) ≤ 2 * d.coefficient + unit := by exact_mod_cast hhigh
    have hten : (0 : ℚ) < (10 : ℚ) ^ d.exponent := by positivity
    rw [← hunit, ← mul_assoc, ← sub_mul, abs_mul, abs_of_pos hten, mul_div_right_comm]
    refine mul_le_mul_of_nonneg_right ?_ hten.le
    rw [abs_le]
    constructor <;> linarith

/-- A quotient rounded to the nearest number, halves to even. -/
def halfEven (n unit : Nat) : Nat :=
  let quotient := n / unit
  let rest := n % unit
  if unit < 2 * rest || (2 * rest == unit && quotient % 2 == 1) then quotient + 1 else quotient

/-- `quantize(Decimal("0.01"), rounding=ROUND_HALF_EVEN)`, none standing for `InvalidOperation`. -/
def quantizeCents (d : Decimal) : Option Decimal :=
  let coefficient :=
    if -2 ≤ d.exponent then d.coefficient * 10 ^ (d.exponent + 2).toNat
    else halfEven d.coefficient (10 ^ (-2 - d.exponent).toNat)
  if (Nat.toDigits 10 coefficient).length ≤ decimalPrecision then
    some { d with coefficient, exponent := -2 }
  else none

theorem halfEven_near : ToNearest halfEven := by
  intro unit hunit n
  have hdivision : n / unit * unit + n % unit = n := by
    rw [Nat.mul_comm]
    exact Nat.div_add_mod n unit
  have hrest := Nat.mod_lt n hunit
  unfold halfEven
  dsimp only
  split
  · next hup =>
      simp only [Bool.or_eq_true, decide_eq_true_eq, Bool.and_eq_true, beq_iff_eq] at hup
      rw [Nat.add_mul, Nat.one_mul]
      omega
  · next hdown =>
      simp only [Bool.or_eq_true, decide_eq_true_eq, Bool.and_eq_true, beq_iff_eq, not_or, not_and]
        at hdown
      omega

theorem quantizeCents_eq (d : Decimal)
    : d.quantizeCents =
      if (Nat.toDigits 10 (d.rescaled halfEven (-2))).length ≤ decimalPrecision then
        some { d with coefficient := d.rescaled halfEven (-2), exponent := -2 }
      else none := by
  rw [quantizeCents, rescaled, Int.sub_neg]

theorem quantizeCents_near {d rounded : Decimal} (h : d.quantizeCents = some rounded)
    : rounded.exponent = -2 ∧ |rounded.toRat - d.toRat| ≤ 1 / 200 := by
  rw [quantizeCents_eq, Option.ite_none_right_eq_some] at h
  obtain ⟨-, h⟩ := h
  have hrounded := Option.some.inj h
  have hnear := rescaled_near halfEven_near (-2) d
  have hplace : (10 : ℚ) ^ (-2 : ℤ) / 2 = 1 / 200 := by norm_num
  rw [hplace, size] at hnear
  rw [← hrounded]
  refine ⟨rfl, ?_⟩
  rw [toRat_eq, toRat_eq, ← mul_sub, abs_mul]
  dsimp only
  rw [abs_sign, one_mul]
  exact hnear

end Decimal

end LicenseTrack
