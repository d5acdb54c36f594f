import LicenseTrack.Money.DecimalSums
import Mathlib.Tactic.GCongr
import Mathlib.Tactic.NormNum

/-! Products and quotients of decimals in the default context, and how far its rounding is off. -/

namespace LicenseTrack

namespace Decimal

/-- The number of digits of a natural number. -/
def digitCount (n : Nat) : Nat := (Nat.toDigits 10 n).length

theorem digitCount_le_iff {n k : Nat} (hk : 0 < k) : digitCount n ≤ k ↔ n < 10 ^ k :=
  Nat.length_toDigits_le_iff (by omega) hk

theorem digitCount_pos (n : Nat) : 0 < digitCount n := Nat.length_toDigits_pos

theorem lt_pow_digitCount (n : Nat) : n < 10 ^ digitCount n :=
  (digitCount_le_iff (digitCount_pos n)).1 le_rfl

theorem pow_le_of_pos {n : Nat} (hn : 0 < n) : 10 ^ (digitCount n - 1) ≤ n := by
  have hpos := digitCount_pos n
  rcases Nat.eq_or_lt_of_le hpos with hone | hmore
  · rw [← hone]
    exact hn
  · have hnot := mt (digitCount_le_iff (n := n) (k := digitCount n - 1) (by omega)).2 (by omega)
    exact Nat.not_lt.1 hnot

theorem round_of_not_fits {d : Decimal} (h : ¬d.Fits)
    : d.round.negative = d.negative
      ∧ d.round.size = (halfEven d.coefficient (10 ^ (digitCount d.coefficient - 28)) : ℚ)
          * 10 ^ (digitCount d.coefficient - 28) * (10 : ℚ) ^ d.exponent := by
  have hround : d.round =
      (if halfEven d.coefficient (10 ^ (digitCount d.coefficient - 28)) == 10 ^ 28 then
        { d with
          coefficient := halfEven d.coefficient (10 ^ (digitCount d.coefficient - 28)) / 10
          exponent := d.exponent + (digitCount d.coefficient - 28 : Nat) + 1 }
      else
        { d with
          coefficient := halfEven d.coefficient (10 ^ (digitCount d.coefficient - 28))
          exponent := d.exponent + (digitCount d.coefficient - 28 : Nat) }) := by
    rw [Fits] at h
    rw [Decimal.round]
    dsimp only
    rw [if_neg h]
    rfl
  rw [hround]
  generalize halfEven d.coefficient (10 ^ (digitCount d.coefficient - 28)) = rounded
  generalize digitCount d.coefficient - 28 = dropped
  split
  case isTrue hcarry =>
    have hrounded : rounded = 10 ^ 28 := by simpa using hcarry
    refine ⟨rfl, ?_⟩
    rw [size, hrounded, mul_assoc, natPow_mul_zpow]
    have hpower : (10 : ℚ) ^ (d.exponent + (dropped : ℤ) + 1)
        = 10 * (10 : ℚ) ^ (d.exponent + (dropped : ℤ)) := by
      rw [zpow_add₀ (by norm_num), zpow_one, mul_comm]
    dsimp only
    rw [hpower]
    norm_num
    ring
  case isFalse =>
    refine ⟨rfl, ?_⟩
    rw [size, mul_assoc, natPow_mul_zpow]

theorem size_round (d : Decimal)
    : d.round.negative = d.negative ∧ |d.round.size - d.size| ≤ d.size / (2 * 10 ^ 27) := by
  by_cases hfits : d.Fits
  · rw [round_of_fits hfits, sub_self, abs_zero]
    exact ⟨rfl, div_nonneg d.size_nonneg (by norm_num)⟩
  · obtain ⟨hnegative, hsize⟩ := round_of_not_fits hfits
    refine ⟨hnegative, ?_⟩
    have hdigits : 28 < digitCount d.coefficient := Nat.not_le.1 hfits
    have hpos : 0 < d.coefficient := by
      rcases Nat.eq_zero_or_pos d.coefficient with hzero | hpos
      · rw [hzero] at hdigits
        rw [digitCount, Nat.toDigits_zero] at hdigits
        simp at hdigits
      · exact hpos
    have hlower := pow_le_of_pos hpos
    have hpower : 10 ^ (digitCount d.coefficient - 1)
        = 10 ^ (digitCount d.coefficient - 28) * 10 ^ 27 := by
      rw [← Nat.pow_add]
      congr 1
      omega
    rw [hpower] at hlower
    obtain ⟨hlow, hhigh⟩ := halfEven_near
      (10 ^ (digitCount d.coefficient - 28)) (Nat.pow_pos (by omega)) d.coefficient
    rw [hsize, size]
    have hcast : (10 : ℚ) ^ (digitCount d.coefficient - 28)
        = ((10 ^ (digitCount d.coefficient - 28) : ℕ) : ℚ) := by push_cast; rfl
    rw [hcast]
    generalize halfEven d.coefficient (10 ^ (digitCount d.coefficient - 28)) = rounded at *
    generalize (10 : ℕ) ^ (digitCount d.coefficient - 28) = unit at *
    have hlow' : 2 * (d.coefficient : ℚ) ≤ 2 * (rounded * unit) + unit := by exact_mod_cast hlow
    have hhigh' : 2 * ((rounded : ℚ) * unit) ≤ 2 * d.coefficient + unit := by exact_mod_cast hhigh
    have hlower' : (unit : ℚ) * 10 ^ 27 ≤ d.coefficient := by exact_mod_cast hlower
    have hten : (0 : ℚ) < (10 : ℚ) ^ d.exponent := by positivity
    rw [← sub_mul, abs_mul, abs_of_pos hten, mul_div_right_comm]
    refine mul_le_mul_of_nonneg_right ?_ hten.le
    rw [abs_le]
    constructor <;> linarith

theorem mul_near (a b : Decimal)
    : (a.mul b).negative = (a.negative != b.negative)
      ∧ |(a.mul b).size - a.size * b.size| ≤ a.size * b.size / (2 * 10 ^ 27) := by
  obtain ⟨hnegative, hnear⟩ := size_round
    {
      negative := a.negative != b.negative
      coefficient := a.coefficient * b.coefficient
      exponent := a.exponent + b.exponent
    }
  refine ⟨hnegative, ?_⟩
  have hsize : ((a.coefficient * b.coefficient : ℕ) : ℚ) * (10 : ℚ) ^ (a.exponent + b.exponent)
      = a.size * b.size := by
    rw [size, size, zpow_add₀ (by norm_num)]
    push_cast
    ring
  rw [← hsize]
  exact hnear

-- Quotients

/-- A decimal without the zeros at its end, of which it gives up a number at most. -/
def withoutZeros (d : Decimal) : Nat → Decimal
  | 0 => d
  | allowed + 1 =>
      if d.coefficient % 10 = 0 then
        withoutZeros { d with coefficient := d.coefficient / 10, exponent := d.exponent + 1 } allowed
      else d

/-- How far the digits of a dividend are moved, so that a quotient has a digit to spare. -/
def quotientShift (a b : Decimal) : Int :=
  (digitCount b.coefficient : Int) - digitCount a.coefficient + decimalPrecision + 1

/-- A quotient before its rounding. One that does not come out even never ends in a tie. -/
def exactQuotient (a b : Decimal) : Decimal :=
  let shift := quotientShift a b
  let dividend := a.coefficient * 10 ^ shift.toNat
  let divisor := b.coefficient * 10 ^ (-shift).toNat
  let quotient := dividend / divisor
  let moved : Decimal :=
    {
      negative := a.negative != b.negative
      coefficient := quotient
      exponent := a.exponent - b.exponent - shift
    }
  if dividend % divisor = 0 then moved.withoutZeros shift.toNat
  else if quotient % 5 = 0 then { moved with coefficient := quotient + 1 }
  else moved

/-- The quotient under the default context, of a divisor that is not zero. -/
def div (a b : Decimal) : Decimal :=
  Decimal.round
    (if a.coefficient = 0 then
      {
        negative := a.negative != b.negative
        coefficient := 0
        exponent := a.exponent - b.exponent
      }
    else exactQuotient a b)

theorem withoutZeros_negative (allowed : Nat) (d : Decimal)
    : (d.withoutZeros allowed).negative = d.negative := by
  induction allowed generalizing d with
  | zero => rfl
  | succ allowed ih =>
      rw [withoutZeros]
      split
      · exact ih _
      · rfl

theorem size_withoutZeros (allowed : Nat) (d : Decimal) : (d.withoutZeros allowed).size = d.size := by
  induction allowed generalizing d with
  | zero => rfl
  | succ allowed ih =>
      rw [withoutZeros]
      split
      case isTrue hzero =>
        have hten : d.coefficient = d.coefficient / 10 * 10 := by omega
        have hcast : (d.coefficient : ℚ) = ((d.coefficient / 10 : ℕ) : ℚ) * 10 := by
          exact_mod_cast hten
        rw [ih, size, size, hcast, zpow_add₀ (by norm_num), zpow_one]
        ring
      case isFalse => rfl

theorem divisor_le_dividend {a b : Decimal} (ha : 0 < a.coefficient)
    : 10 ^ 28 * (b.coefficient * 10 ^ (-quotientShift a b).toNat)
      ≤ a.coefficient * 10 ^ (quotientShift a b).toNat := by
  have hupper := (lt_pow_digitCount b.coefficient).le
  have hlower := pow_le_of_pos ha
  have hcount := digitCount_pos a.coefficient
  have hpowers : 28 + (digitCount b.coefficient + (-quotientShift a b).toNat)
      = digitCount a.coefficient - 1 + (quotientShift a b).toNat := by
    unfold quotientShift decimalPrecision
    omega
  calc 10 ^ 28 * (b.coefficient * 10 ^ (-quotientShift a b).toNat)
      ≤ 10 ^ 28 * (10 ^ digitCount b.coefficient * 10 ^ (-quotientShift a b).toNat) := by gcongr
    _ = 10 ^ (digitCount a.coefficient - 1) * 10 ^ (quotientShift a b).toNat := by
        rw [← Nat.pow_add, ← Nat.pow_add, ← Nat.pow_add, hpowers]
    _ ≤ a.coefficient * 10 ^ (quotientShift a b).toNat := by gcongr

/-- Before its rounding, a quotient is the quotient of the numbers to 28 digits. -/
theorem exactQuotient_near {a b : Decimal} (ha : 0 < a.coefficient) (hb : 0 < b.coefficient)
    : (exactQuotient a b).negative = (a.negative != b.negative)
      ∧ |(exactQuotient a b).size * b.size - a.size| ≤ a.size / 10 ^ 28 := by
  have hdigits := @divisor_le_dividend a b ha
  have hdivisor : 0 < b.coefficient * 10 ^ (-quotientShift a b).toNat := by positivity
  -- The last place of the quotient, as a factor of the moved dividend.
  obtain ⟨unit, hunit⟩ : ∃ unit : ℚ,
      unit = (10 : ℚ) ^ (a.exponent - (quotientShift a b).toNat) := ⟨_, rfl⟩
  have hpositive : 0 < unit := by
    rw [hunit]
    positivity
  have hdividend : a.size = (a.coefficient * 10 ^ (quotientShift a b).toNat : ℕ) * unit := by
    rw [hunit, size]
    push_cast
    rw [mul_assoc, natPow_mul_zpow, Int.sub_add_cancel]
  have hplace : (10 : ℚ) ^ (a.exponent - b.exponent - quotientShift a b) * b.size
      = (b.coefficient * 10 ^ (-quotientShift a b).toNat : ℕ) * unit := by
    rw [hunit, size]
    push_cast
    rw [mul_assoc (b.coefficient : ℚ), natPow_mul_zpow, mul_left_comm, ← zpow_add₀ (by norm_num)]
    congr 2
    omega
  have hnear : ∀ quotient : ℕ,
      (quotient * (b.coefficient * 10 ^ (-quotientShift a b).toNat)
          ≤ a.coefficient * 10 ^ (quotientShift a b).toNat
            + b.coefficient * 10 ^ (-quotientShift a b).toNat)
      → a.coefficient * 10 ^ (quotientShift a b).toNat
          ≤ quotient * (b.coefficient * 10 ^ (-quotientShift a b).toNat)
            + b.coefficient * 10 ^ (-quotientShift a b).toNat
      → |(quotient : ℚ) * (10 : ℚ) ^ (a.exponent - b.exponent - quotientShift a b) * b.size
          - a.size| ≤ a.size / 10 ^ 28 := by
    intro quotient hhigh hlow
    rw [mul_assoc, hplace, hdividend, ← mul_assoc, ← sub_mul, abs_mul, abs_of_pos hpositive,
      mul_div_right_comm]
    refine mul_le_mul_of_nonneg_right ?_ hpositive.le
    have hhigh' : (quotient : ℚ) * (b.coefficient * 10 ^ (-quotientShift a b).toNat : ℕ)
        ≤ (a.coefficient * 10 ^ (quotientShift a b).toNat : ℕ)
          + (b.coefficient * 10 ^ (-quotientShift a b).toNat : ℕ) := by exact_mod_cast hhigh
    have hlow' : ((a.coefficient * 10 ^ (quotientShift a b).toNat : ℕ) : ℚ)
        ≤ quotient * (b.coefficient * 10 ^ (-quotientShift a b).toNat : ℕ)
          + (b.coefficient * 10 ^ (-quotientShift a b).toNat : ℕ) := by exact_mod_cast hlow
    have hdigits' : (10 : ℚ) ^ 28 * (b.coefficient * 10 ^ (-quotientShift a b).toNat : ℕ)
        ≤ (a.coefficient * 10 ^ (quotientShift a b).toNat : ℕ) := by exact_mod_cast hdigits
    rw [abs_le]
    constructor <;> linarith
  have hdivision := Nat.div_add_mod (a.coefficient * 10 ^ (quotientShift a b).toNat)
    (b.coefficient * 10 ^ (-quotientShift a b).toNat)
  have hrest := Nat.mod_lt (a.coefficient * 10 ^ (quotientShift a b).toNat) hdivisor
  rw [Nat.mul_comm] at hdivision
  unfold exactQuotient
  dsimp only
  generalize a.coefficient * 10 ^ (quotientShift a b).toNat = dividend at *
  generalize b.coefficient * 10 ^ (-quotientShift a b).toNat = divisor at *
  split
  · refine ⟨withoutZeros_negative _ _, ?_⟩
    rw [size_withoutZeros]
    exact hnear (dividend / divisor) (by omega) (by omega)
  · split
    · refine ⟨rfl, hnear (dividend / divisor + 1) ?_ ?_⟩ <;> rw [Nat.add_mul, Nat.one_mul] <;> omega
    · exact ⟨rfl, hnear (dividend / divisor) (by omega) (by omega)⟩

theorem div_near {a b : Decimal} (hb : 0 < b.coefficient)
    : (a.div b).negative = (a.negative != b.negative)
      ∧ |(a.div b).size * b.size - a.size| ≤ a.size * 7 / 10 ^ 28 := by
  rw [div]
  rcases Nat.eq_zero_or_pos a.coefficient with hzero | ha
  · rw [if_pos hzero, round_of_fits (by rw [Fits, Nat.toDigits_zero]; decide)]
    refine ⟨rfl, ?_⟩
    simp [size, hzero]
  · rw [if_neg ha.ne']
    obtain ⟨hnegative, hquotient⟩ := exactQuotient_near ha hb
    obtain ⟨hround, hnear⟩ := (exactQuotient a b).size_round
    refine ⟨hround.trans hnegative, ?_⟩
    have hsize := b.size_nonneg
    have hrounded : |(exactQuotient a b).round.size * b.size - (exactQuotient a b).size * b.size|
        ≤ (exactQuotient a b).size * b.size / (2 * 10 ^ 27) := by
      rw [← sub_mul, abs_mul, abs_of_nonneg hsize, mul_div_right_comm]
      exact mul_le_mul_of_nonneg_right hnear hsize
    have ha' := a.size_nonneg
    rw [abs_le] at hquotient hrounded ⊢
    constructor <;> linarith [hquotient.1, hquotient.2, hrounded.1, hrounded.2]

end Decimal

end LicenseTrack
