import LicenseTrack.Money.DecimalQuotients
import LicenseTrack.Money.Numerals
import Mathlib.Data.List.DropRight

/-! A unit price derived from a total: its six places, its text, and the total that it gives back. -/

namespace LicenseTrack

namespace Decimal

/-- A quotient rounded to the nearest number, halves up. -/
def halfUp (n unit : Nat) : Nat := if unit ≤ 2 * (n % unit) then n / unit + 1 else n / unit

theorem halfUp_near : ToNearest halfUp := by
  intro unit hunit n
  have hdivision : n / unit * unit + n % unit = n := by
    rw [Nat.mul_comm]
    exact Nat.div_add_mod n unit
  have hrest := Nat.mod_lt n hunit
  unfold halfUp
  split
  · rw [Nat.add_mul, Nat.one_mul]
    omega
  · omega

/-- `quantize(_UNIT_PRICE_FROM_TOTAL_PLACES, rounding=ROUND_HALF_UP)`, none standing for
`InvalidOperation`.
-/
def quantizeUnitPrice (d : Decimal) : Option Decimal :=
  let coefficient := d.rescaled halfUp (-6)
  if (Nat.toDigits 10 coefficient).length ≤ decimalPrecision then
    some { d with coefficient, exponent := -6 }
  else none

theorem quantizeUnitPrice_some {d : Decimal} (h : d.size < 10 ^ 22 - 1 / 2000000)
    : ∃ price, d.quantizeUnitPrice = some price ∧ price.exponent = -6
      ∧ price.negative = d.negative ∧ |price.size - d.size| ≤ 1 / 2000000
      ∧ (d.size = 0 → price.size = 0) := by
  have hnear := rescaled_near halfUp_near (-6) d
  have hplace : (10 : ℚ) ^ (-6 : ℤ) = 1 / 1000000 := by norm_num
  rw [hplace, abs_le] at hnear
  have hfits : (Nat.toDigits 10 (d.rescaled halfUp (-6))).length ≤ decimalPrecision := by
    refine (Nat.length_toDigits_le_iff (by omega) (by decide)).2 ?_
    have hbound : (d.rescaled halfUp (-6) : ℚ) < 10 ^ 28 := by linarith [hnear.2]
    exact_mod_cast hbound
  refine ⟨{ d with coefficient := d.rescaled halfUp (-6), exponent := -6 }, if_pos hfits, rfl, rfl,
    ?_, ?_⟩
  · rw [size]
    dsimp only
    rw [hplace, abs_le]
    constructor <;> linarith [hnear.1, hnear.2]
  · intro hzero
    have hcoefficient : d.coefficient = 0 := by
      rw [size, mul_eq_zero] at hzero
      exact_mod_cast hzero.resolve_right (by positivity)
    have hrescaled : d.rescaled halfUp (-6) = 0 := by
      unfold rescaled halfUp
      rw [hcoefficient]
      split
      · simp
      · have hpower : 0 < 10 ^ (-6 - d.exponent).toNat := by positivity
        rw [Nat.zero_mod, Nat.zero_div, if_neg (by omega)]
    simp [size, hrescaled]

theorem quantizeCents_whole {d : Decimal} {cents : Nat} (hcents : cents < 10 ^ 28)
    (hnear : |d.size - cents / 100| < 1 / 200)
    : d.quantizeCents = some { d with coefficient := cents, exponent := -2 } := by
  have hrescaled := rescaled_near halfEven_near (-2) d
  have hplace : (10 : ℚ) ^ (-2 : ℤ) = 1 / 100 := by norm_num
  rw [hplace, abs_le] at hrescaled
  rw [abs_lt] at hnear
  have hsame : d.rescaled halfEven (-2) = cents := by
    have hbelow : (d.rescaled halfEven (-2) : ℚ) < cents + 1 := by
      linarith [hrescaled.2, hnear.2]
    have habove : (cents : ℚ) < d.rescaled halfEven (-2) + 1 := by
      linarith [hrescaled.1, hnear.1]
    have hbelow' : d.rescaled halfEven (-2) < cents + 1 := by exact_mod_cast hbelow
    have habove' : cents < d.rescaled halfEven (-2) + 1 := by exact_mod_cast habove
    omega
  have hfits : (Nat.toDigits 10 cents).length ≤ decimalPrecision :=
    (Nat.length_toDigits_le_iff (by omega) (by decide)).2 hcents
  rw [quantizeCents_eq, hsame, if_pos hfits]

theorem size_cents {t : Decimal} (hplaces : -2 ≤ t.exponent)
    : ∃ cents : ℕ, t.size = cents / 100 := by
  refine ⟨t.coefficient * 10 ^ (t.exponent + 2).toNat, ?_⟩
  have hexponent : t.exponent = -2 + ((t.exponent + 2).toNat : ℤ) := by omega
  have hplace : (10 : ℚ) ^ (-2 : ℤ) = 1 / 100 := by norm_num
  rw [size]
  conv_lhs => rw [hexponent]
  rw [← natPow_mul_zpow, hplace]
  push_cast
  ring

theorem derivedPrice_near {t q : Decimal} (hq : 0 < q.coefficient)
    (hquotient : t.size ≤ (10 ^ 22 - 1 / 10 ^ 5) * q.size)
    : ∃ price, (t.div q).quantizeUnitPrice = some price ∧ price.exponent = -6
      ∧ price.negative = (t.negative != q.negative)
      ∧ |price.size * q.size - t.size| ≤ t.size * 7 / 10 ^ 28 + q.size / 2000000
      ∧ (t.size = 0 → price.size = 0) := by
  obtain ⟨hnegative, hdiv⟩ := @div_near t q hq
  have hsize : 0 < q.size := by
    rw [size]
    positivity
  have htotal := t.size_nonneg
  rw [abs_le] at hdiv
  have hfits : (t.div q).size < 10 ^ 22 - 1 / 2000000 := by
    refine lt_of_mul_lt_mul_right ?_ hsize.le
    linarith [hdiv.2]
  obtain ⟨price, hprice, hplaces, hsign, hnear, hzero⟩ := quantizeUnitPrice_some hfits
  refine ⟨price, hprice, hplaces, hsign.trans hnegative, ?_, fun hnothing => hzero ?_⟩
  · have hmillionth : |price.size * q.size - (t.div q).size * q.size| ≤ q.size / 2000000 := by
      rw [← sub_mul, abs_mul, abs_of_pos hsize, div_eq_mul_one_div, mul_comm]
      exact mul_le_mul_of_nonneg_left hnear hsize.le
    rw [abs_le] at hmillionth ⊢
    constructor <;> linarith [hdiv.1, hdiv.2, hmillionth.1, hmillionth.2]
  · rw [hnothing, zero_mul, zero_div, neg_zero, sub_zero] at hdiv
    exact (mul_eq_zero.1 (le_antisymm hdiv.2 hdiv.1)).resolve_right hsize.ne'

end Decimal

-- The text of a price

open Decimal

/-- A price as text: `format(unit, "f")` without the zeros at its end, and without a point that
nothing is behind.
-/
def unitPriceText (unit : Decimal) : String :=
  let text := unit.format.toList
  if '.' ∈ text then String.ofList ((text.rdropWhile (· == '0')).rdropWhile (· == '.'))
  else unit.format

variable {u : Unicode}

theorem rdropWhile_behind {α : Type} {drops : α → Bool} {kept : α} (h : drops kept = false)
    (front rest : List α)
    : (front ++ kept :: rest).rdropWhile drops = front ++ kept :: rest.rdropWhile drops := by
  induction rest using List.reverseRecOn with
  | nil => exact List.rdropWhile_concat_neg _ _ _ (by simp [h])
  | append_singleton rest last ih =>
      rw [← List.cons_append, ← List.append_assoc, List.rdropWhile_concat, List.rdropWhile_concat,
        ih]
      split <;> simp

/-- ASCII digits stand for their numbers. -/
def Unicode.ReadsDigits (u : Unicode) : Prop :=
  ∀ c : Char, c.isDigit = true → u.digit c = some (c.toNat - '0'.toNat)

theorem digitsNumber_eq (hu : u.ReadsDigits) {digits : List Char}
    (hdigits : ∀ c ∈ digits, c.isDigit = true)
    : u.digitsNumber digits = Nat.ofDigitChars 10 digits 0 := by
  rw [Unicode.digitsNumber, Nat.ofDigitChars_eq_foldl]
  refine List.foldl_ext _ _ _ fun value c hc => ?_
  rw [hu c (hdigits c hc), Option.getD_some]

theorem format_places {d : Decimal} (hplaces : d.exponent < 0)
    : ∃ whole fraction : List Char,
      d.format.toList = (if d.negative then ['-'] else []) ++ (whole ++ '.' :: fraction)
      ∧ whole ≠ [] ∧ (fraction.length : Int) = -d.exponent
      ∧ (∀ c ∈ whole ++ fraction, c.isDigit = true)
      ∧ Nat.ofDigitChars 10 (whole ++ fraction) 0 = d.coefficient := by
  obtain ⟨digits, hdigits⟩ : ∃ digits, digits = Nat.toDigits 10 d.coefficient := ⟨_, rfl⟩
  obtain ⟨places, hcount⟩ : ∃ places, places = (-d.exponent).toNat := ⟨_, rfl⟩
  obtain ⟨padded, hpadded⟩ : ∃ padded,
      padded = List.replicate (places + 1 - digits.length) '0' ++ digits := ⟨_, rfl⟩
  have hlength : places + 1 ≤ padded.length := by
    rw [hpadded, List.length_append, List.length_replicate]
    omega
  refine ⟨padded.take (padded.length - places), padded.drop (padded.length - places),
    ?_, ?_, ?_, ?_, ?_⟩
  · rw [Decimal.format, String.toList_ofList]
    dsimp only
    rw [if_neg (show ¬0 ≤ d.exponent by omega), ← hdigits, ← hcount, ← hpadded]
    cases d.negative <;> simp
  · rw [← List.length_pos_iff, List.length_take]
    omega
  · rw [List.length_drop]
    omega
  · rw [List.take_append_drop, hpadded]
    intro c hc
    rcases List.mem_append.1 hc with hzero | hdigit
    · rw [List.eq_of_mem_replicate hzero]
      decide
    · rw [hdigits] at hdigit
      exact Nat.isDigit_of_mem_toDigits (by decide) (by decide) hdigit
  · rw [List.take_append_drop, hpadded, Nat.ofDigitChars_append, Nat.ofDigitChars_replicate_zero,
      Nat.mul_zero, hdigits, Nat.ofDigitChars_ten_toDigits]

/-- The text of a price is read as the same number. -/
theorem parseMoney_unitPriceText (hu : u.NumberClasses) (hdigits : u.ReadsDigits) {d : Decimal}
    (hplaces : d.exponent < 0)
    : ∃ price, u.parseMoney (unitPriceText d) = .amount price
      ∧ price.negative = d.negative ∧ price.size = d.size := by
  obtain ⟨whole, fraction, htext, hwhole, hlength, hall, hnumber⟩ := format_places hplaces
  have hascii : ∀ c : Char, c.isDigit = true → u.isDecimal c = true := fun c hc => by
    rw [Unicode.isDecimal, hdigits c hc, Option.isSome_some]
  have hapart : ∀ c : Char, c.isDigit = true → (c == '.') = false := fun c hc => by
    rw [beq_eq_false_iff_ne]
    rintro rfl
    exact absurd hc (by decide)
  -- The fraction is its front, and then zeros.
  obtain ⟨front, hfront⟩ : ∃ front, front = fraction.rdropWhile (· == '0') := ⟨_, rfl⟩
  obtain ⟨zeros, hzeros⟩ : ∃ zeros, fraction = front ++ List.replicate zeros '0' := by
    refine ⟨(fraction.rtakeWhile (· == '0')).length, ?_⟩
    have hsplit : fraction.rdropWhile (· == '0') ++ fraction.rtakeWhile (· == '0') = fraction :=
      List.rdropWhile_append_rtakeWhile
    have hsame : fraction.rtakeWhile (· == '0')
        = List.replicate (fraction.rtakeWhile (· == '0')).length '0' :=
      List.eq_replicate_iff.2 ⟨rfl, fun c hc => by simpa using List.mem_rtakeWhile_imp hc⟩
    rw [hfront, ← hsame, hsplit]
  have hkept : ∀ c ∈ whole ++ front, c.isDigit = true := fun c hc => by
    refine hall c ?_
    rw [hzeros, ← List.append_assoc]
    exact List.mem_append_left _ hc
  have hwritten : unitPriceText d
      = String.ofList ((if d.negative then ['-'] else []) ++ (whole ++ fractionText '.' front)) := by
    have hpoint : '.' ∈ d.format.toList := by
      rw [htext]
      simp
    rw [unitPriceText, if_pos hpoint, htext, ← List.append_assoc,
      rdropWhile_behind (by decide), ← hfront]
    congr 1
    cases front with
    | nil =>
        obtain ⟨others, last, rfl⟩ := (List.eq_nil_or_concat whole).resolve_left hwhole
        have hlast := hapart last (hkept last (by simp))
        rw [List.rdropWhile_concat_pos _ _ _ (by decide), List.concat_eq_append, ← List.append_assoc,
          List.rdropWhile_concat_neg _ _ _ (by simpa using hlast), fractionText, List.append_nil,
          List.append_assoc]
    | cons first rest =>
        obtain ⟨others, last, hlast⟩ :=
          (List.eq_nil_or_concat (first :: rest)).resolve_left (by simp)
        have hdigit := hapart last (hkept last (by rw [hlast]; simp))
        rw [fractionText, hlast, List.concat_eq_append, ← List.cons_append, ← List.append_assoc,
          List.rdropWhile_concat_neg _ _ _ (by simpa using hdigit)]
        simp only [List.append_assoc, List.cons_append]
  let n : Numeral u.isDecimal :=
    {
      negative := d.negative
      whole := whole
      fraction := front
      whole_ne := hwhole
      whole_digits := fun c hc => hascii c (hkept c (List.mem_append_left _ hc))
      fraction_digits := fun c hc => hascii c (hkept c (List.mem_append_right _ hc))
    }
  have hcanonical : unitPriceText d = n.canonical := hwritten
  refine ⟨n.value, hcanonical ▸ parseMoney_canonical hu n, rfl, ?_⟩
  have hcoefficient : d.coefficient = 10 ^ zeros * u.digitsNumber (whole ++ front) := by
    rw [digitsNumber_eq hdigits hkept, ← hnumber, hzeros, ← List.append_assoc,
      Nat.ofDigitChars_append, Nat.ofDigitChars_replicate_zero]
  have hexponent : -(front.length : Int) = d.exponent + zeros := by
    rw [hzeros, List.length_append, List.length_replicate] at hlength
    push_cast at hlength
    omega
  change (u.digitsNumber (whole ++ front) : ℚ) * (10 : ℚ) ^ (-(front.length : Int)) = _
  rw [Decimal.size, hcoefficient, hexponent, ← natPow_mul_zpow]
  push_cast
  ring

-- Prices from totals

/-- `calc_line_total`, the amount itself. -/
def Unicode.calcLineAmount (u : Unicode) (quantity unitPrice : String) : Option Decimal :=
  match u.parseMoney quantity, u.parseMoney unitPrice with
  | .amount q, .amount p => some (q.mul p)
  | _, _ => none

/-- `unit_price_from_total`, none standing for `InvalidOperation`. -/
def Unicode.unitPriceFromTotal (u : Unicode) (total quantity : Option String)
    : Option (Option String) :=
  match u.parseMoney (total.getD ""), u.parseMoney (quantity.getD "") with
  | .amount t, .amount q =>
      if q.coefficient = 0 then some none
      else (t.div q).quantizeUnitPrice.map fun unit => some (unitPriceText unit)
  | _, _ => some none

/-- Whether the price derived from a total gives the total back, in cents. -/
def ReproducesTotal (u : Unicode) (total quantity : String) (t : Decimal) : Prop :=
  ∃ unitPrice amount cents, u.unitPriceFromTotal (some total) (some quantity) = some (some unitPrice)
    ∧ u.calcLineAmount quantity unitPrice = some amount
    ∧ amount.quantizeCents = some cents ∧ cents.toRat = t.toRat

/-- The price derived from a total gives the total back, where half a millionth of the quantity stays
below half a cent and the quotient below the precision.
-/
theorem unitPrice_reproducesTotal (u : Unicode) (hu : u.NumberClasses) (hdigits : u.ReadsDigits)
    (total quantity : String) (t q : Decimal) (htotal : u.parseMoney total = .amount t)
    (hquantity : u.parseMoney quantity = .amount q) (hplaces : -2 ≤ t.exponent) (hq : q.toRat ≠ 0)
    (hquotient : |t.toRat| ≤ (10 ^ 22 - 1 / 10 ^ 5) * |q.toRat|)
    (hhalf : |q.toRat| / (2 * 10 ^ 6) + |t.toRat| / (5 * 10 ^ 26) < 1 / 200)
    : ReproducesTotal u total quantity t := by
  rw [← abs_pos, abs_toRat] at hq
  rw [abs_toRat, abs_toRat] at hquotient hhalf
  have hcoefficient : 0 < q.coefficient := by
    refine Nat.pos_of_ne_zero fun hzero => hq.ne' ?_
    rw [size, hzero, Nat.cast_zero, zero_mul]
  obtain ⟨price, hprice, hexponent, hsign, hnear, hnothing⟩ :=
    derivedPrice_near hcoefficient hquotient
  obtain ⟨read, hread, hreadSign, hreadSize⟩ :=
    @parseMoney_unitPriceText u hu hdigits price (by omega)
  obtain ⟨hproductSign, hproduct⟩ := mul_near q read
  obtain ⟨cents, hcents⟩ := size_cents hplaces
  have htotalSize := t.size_nonneg
  rw [hreadSize, mul_comm q.size] at hproduct
  have hamount : |(q.mul read).size - cents / 100| < 1 / 200 := by
    rw [← hcents]
    rw [abs_le] at hnear hproduct
    rcases Nat.eq_zero_or_pos cents with hzero | hsome
    · have hfree : t.size = 0 := by rw [hcents, hzero, Nat.cast_zero, zero_div]
      rw [hnothing hfree, zero_mul, zero_div, neg_zero, sub_zero] at hproduct
      rw [hfree, sub_zero, le_antisymm hproduct.2 hproduct.1, abs_zero]
      norm_num
    · have hcent : 1 / 100 ≤ t.size := by
        rw [hcents]
        have hone : (1 : ℚ) ≤ cents := by exact_mod_cast hsome
        linarith
      rw [abs_lt]
      constructor <;> linarith [hnear.1, hnear.2, hproduct.1, hproduct.2]
  have hbound : cents < 10 ^ 28 := by
    have hbelow : (cents : ℚ) < 10 ^ 28 := by linarith
    exact_mod_cast hbelow
  refine ⟨unitPriceText price, q.mul read, _, ?_, ?_, quantizeCents_whole hbound hamount, ?_⟩
  · rw [Unicode.unitPriceFromTotal, Option.getD_some, Option.getD_some, htotal, hquantity]
    dsimp only
    rw [if_neg hcoefficient.ne', hprice, Option.map_some]
  · rw [Unicode.calcLineAmount, hquantity, hread]
  · have hplace : (10 : ℚ) ^ (-2 : ℤ) = 1 / 100 := by norm_num
    have hnegative : (q.mul read).negative = t.negative := by
      rw [hproductSign, hreadSign, hsign]
      cases q.negative <;> cases t.negative <;> rfl
    have hsame : (cents : ℚ) * (10 : ℚ) ^ (-2 : ℤ) = t.size := by
      rw [hplace, hcents]
      ring
    rw [toRat_eq, toRat_eq]
    dsimp only
    rw [hnegative, hsame, size]

theorem withArabicDigit_readsDigits : Unicode.withArabicDigit.ReadsDigits := by
  intro c hc
  have hthree : c ≠ '٣' := by
    rintro rfl
    exact absurd hc (by decide)
  simp only [Unicode.withArabicDigit, Unicode.ascii, if_neg hthree, if_pos hc]

/-- A third of a hundred, to six places. -/
theorem unitPrice_reproducesTotal_third
    : ReproducesTotal .withArabicDigit "100" "3" ⟨false, 100, 0⟩
      ∧ Unicode.withArabicDigit.unitPriceFromTotal (some "100") (some "3")
        = some (some "33.333333") := by
  refine ⟨?_, by decide +kernel⟩
  exact unitPrice_reproducesTotal .withArabicDigit withArabicDigit_classes
    withArabicDigit_readsDigits "100" "3" ⟨false, 100, 0⟩ ⟨false, 3, 0⟩ (by decide +kernel)
    (by decide +kernel) (by decide) (by norm_num [toRat, signed]) (by norm_num [toRat, signed])
    (by norm_num [toRat, signed])

/-- Nearest to 5000000000000.01 / 9999.99999999999 is a price that gives half a cent too much, and the
half is rounded up.
-/
theorem unitPrice_notReproduced
    : ¬∀ (total quantity : String) (t q : Decimal),
      Unicode.withArabicDigit.parseMoney total = .amount t
      → Unicode.withArabicDigit.parseMoney quantity = .amount q
      → -2 ≤ t.exponent → |t.toRat| < 10 ^ 16 → q.toRat ≠ 0 → |q.toRat| < 10 ^ 4
      → ReproducesTotal .withArabicDigit total quantity t := by
  intro h
  have hrun := h "5000000000000.01" "9999.99999999999" ⟨false, 500000000000001, -2⟩
    ⟨false, 999999999999999, -11⟩ (by decide +kernel) (by decide +kernel) (by decide)
    (by norm_num [toRat, signed]) (by norm_num [toRat, signed]) (by norm_num [toRat, signed])
  obtain ⟨unitPrice, amount, cents, hprice, hamount, hcents, hsame⟩ := hrun
  have hderived : Unicode.withArabicDigit.unitPriceFromTotal (some "5000000000000.01")
      (some "9999.99999999999") = some (some "500000000.000002") := by decide +kernel
  rw [hderived, Option.some.injEq, Option.some.injEq] at hprice
  rw [← hprice] at hamount
  have htotal : Unicode.withArabicDigit.calcLineAmount "9999.99999999999" "500000000.000002"
      = some ⟨false, 5000000000000015000000000000, -15⟩ := by decide +kernel
  rw [htotal, Option.some.injEq] at hamount
  rw [← hamount] at hcents
  have hrounded : quantizeCents ⟨false, 5000000000000015000000000000, -15⟩
      = some ⟨false, 500000000000002, -2⟩ := by decide +kernel
  rw [hrounded, Option.some.injEq] at hcents
  rw [← hcents] at hsame
  norm_num [toRat, signed] at hsame

/-- The price of a tiny quantity has more than 28 digits in millionths. -/
example : Unicode.ascii.unitPriceFromTotal (some "1") (some "0.00000000000000000000001") = none := by
  decide +kernel

end LicenseTrack
