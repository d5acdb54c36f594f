import Mathlib.Data.Nat.Basic
import Mathlib.Order.Basic
import Mathlib.Tactic.IntervalCases

/-! The proleptic Gregorian calendar: dates, their ordinal numbers, and months counted through all
years.
-/

namespace Library

/-- A leap year. -/
def isLeapYear (year : Nat) : Bool := year % 4 == 0 && (year % 100 != 0 || year % 400 == 0)

/-- The days of a month, months counted from one. -/
def daysInMonth (year month : Nat) : Nat :=
  if month = 2 then if isLeapYear year then 29 else 28
  else if month = 4 ∨ month = 6 ∨ month = 9 ∨ month = 11 then 30
  else 31

/-- The days before a year. -/
def daysBeforeYear (year : Nat) : Nat :=
  365 * (year - 1) + (year - 1) / 4 - (year - 1) / 100 + (year - 1) / 400

/-- The days of a year before a month, months counted from zero. -/
def daysBeforeMonth (year month : Nat) : Nat :=
  [0, 31, 59, 90, 120, 151, 181, 212, 243, 273, 304, 334].getD month 365
    + if 2 ≤ month ∧ isLeapYear year then 1 else 0

/-- The ordinal number of the first day of a month, all months counted from January of the year zero.
-/
def monthStart (index : Nat) : Nat :=
  daysBeforeYear (index / 12) + daysBeforeMonth (index / 12) (index % 12) + 1

theorem isLeapYear_iff {year : Nat}
    : isLeapYear year = true ↔ year % 4 = 0 ∧ (year % 100 ≠ 0 ∨ year % 400 = 0) := by
  simp [isLeapYear]

theorem isLeapYear_succ {year : Nat} (h : isLeapYear year = true)
    : isLeapYear (year + 1) = false := by
  rw [isLeapYear_iff] at h
  rw [Bool.eq_false_iff, Ne, isLeapYear_iff]
  omega

theorem daysInMonth_eq_of_ne {month : Nat} (hmonth : month ≠ 2) (year other : Nat)
    : daysInMonth year month = daysInMonth other month := by
  simp only [daysInMonth, if_neg hmonth]

theorem daysInMonth_pos (year month : Nat) : 28 ≤ daysInMonth year month := by
  unfold daysInMonth
  split_ifs <;> omega

theorem daysInMonth_le (year month : Nat) : daysInMonth year month ≤ 31 := by
  unfold daysInMonth
  split_ifs <;> omega

theorem div_succ_eq (n k : Nat)
    : (n + 1) / k = n / k + if (n + 1) % k = 0 then 1 else 0 := by
  rw [Nat.succ_div]
  simp only [Nat.dvd_iff_mod_eq_zero]

theorem daysBeforeYear_succ {year : Nat} (hyear : 1 ≤ year)
    : daysBeforeYear (year + 1) = daysBeforeYear year + 365 + if isLeapYear year then 1 else 0 := by
  obtain ⟨n, rfl⟩ : ∃ n, year = n + 1 := ⟨year - 1, by omega⟩
  have hcenturies : n / 100 ≤ n / 4 := Nat.div_le_div_left (by decide) (by decide)
  have hfour : (n + 1) % 100 = 0 → (n + 1) % 4 = 0 := by omega
  have hhundred : (n + 1) % 400 = 0 → (n + 1) % 100 = 0 := by omega
  have hleap : (isLeapYear (n + 1) = true)
      = ((n + 1) % 4 = 0 ∧ ((n + 1) % 100 ≠ 0 ∨ (n + 1) % 400 = 0)) := propext isLeapYear_iff
  simp only [daysBeforeYear, Nat.add_sub_cancel, hleap, div_succ_eq n 4,
    div_succ_eq n 100, div_succ_eq n 400]
  generalize n / 4 = quarters at *
  generalize n / 100 = centuries at *
  generalize n / 400 = periods at *
  by_cases h400 : (n + 1) % 400 = 0
  · simp only [h400, hhundred h400, hfour (hhundred h400), if_true]
    simp
    omega
  · by_cases h100 : (n + 1) % 100 = 0
    · simp [h400, h100, hfour h100]
      omega
    · by_cases h4 : (n + 1) % 4 = 0
      · simp [h400, h100, h4]
        omega
      · simp [h400, h100, h4]
        omega

theorem monthStart_succ {index : Nat} (hindex : 12 ≤ index)
    : monthStart (index + 1) = monthStart index + daysInMonth (index / 12) (index % 12 + 1) := by
  obtain ⟨year, month, rfl, hmonth⟩ : ∃ year month, index = 12 * year + month ∧ month < 12 :=
    ⟨index / 12, index % 12, (Nat.div_add_mod index 12).symm, Nat.mod_lt _ (by decide)⟩
  have hyear : (12 * year + month) / 12 = year := by omega
  have hrest : (12 * year + month) % 12 = month := by omega
  rw [monthStart, monthStart, hyear, hrest]
  by_cases hlast : month = 11
  · subst hlast
    have hnext : (12 * year + 11 + 1) / 12 = year + 1 := by omega
    have hfirst : (12 * year + 11 + 1) % 12 = 0 := by omega
    rw [hnext, hfirst, daysBeforeYear_succ (by omega)]
    simp only [daysBeforeMonth, daysInMonth]
    by_cases hleap : isLeapYear year = true <;> simp [hleap]
  · have hnext : (12 * year + month + 1) / 12 = year := by omega
    have hfirst : (12 * year + month + 1) % 12 = month + 1 := by omega
    rw [hnext, hfirst]
    have hdays : daysBeforeMonth year (month + 1)
        = daysBeforeMonth year month + daysInMonth year (month + 1) := by
      interval_cases month <;>
        (unfold daysBeforeMonth daysInMonth; by_cases hleap : isLeapYear year = true <;> simp [hleap])
    omega

theorem monthStart_lt {i j : Nat} (hi : 12 ≤ i) (h : i < j) : monthStart i < monthStart j := by
  induction j, h using Nat.le_induction with
  | base =>
      rw [monthStart_succ hi]
      have := daysInMonth_pos (i / 12) (i % 12 + 1)
      omega
  | succ j hj ih =>
      rw [monthStart_succ (by omega)]
      omega

theorem monthStart_le {i j : Nat} (hi : 12 ≤ i) (h : i ≤ j) : monthStart i ≤ monthStart j := by
  rcases Nat.eq_or_lt_of_le h with rfl | hlt
  · exact le_refl _
  · exact (monthStart_lt hi hlt).le

-- Dates

/-- A date from the first year on. -/
@[ext]
structure CivilDate where
  year : Nat
  month : Nat
  day : Nat
  valid : 1 ≤ year ∧ 1 ≤ month ∧ month ≤ 12 ∧ 1 ≤ day ∧ day ≤ daysInMonth year month
deriving DecidableEq

namespace CivilDate

/-- The month of a date, all months counted from January of the year zero. -/
def monthIndex (date : CivilDate) : Nat := 12 * date.year + (date.month - 1)

/-- The ordinal number of a date, which is one for the first day of the first year. -/
def ordinal (date : CivilDate) : Nat := monthStart date.monthIndex + (date.day - 1)

theorem monthIndex_pos (date : CivilDate) : 12 ≤ date.monthIndex := by
  have hvalid := date.valid
  unfold monthIndex
  omega

theorem monthIndex_div (date : CivilDate) : date.monthIndex / 12 = date.year := by
  have hvalid := date.valid
  unfold monthIndex
  omega

theorem monthIndex_mod (date : CivilDate) : date.monthIndex % 12 + 1 = date.month := by
  have hvalid := date.valid
  unfold monthIndex
  omega

theorem monthStart_succ_monthIndex (date : CivilDate)
    : monthStart (date.monthIndex + 1)
      = monthStart date.monthIndex + daysInMonth date.year date.month := by
  rw [monthStart_succ date.monthIndex_pos, date.monthIndex_div, date.monthIndex_mod]

theorem ordinal_lt_monthStart (date : CivilDate)
    : date.ordinal < monthStart (date.monthIndex + 1) := by
  have hvalid := date.valid
  rw [monthStart_succ_monthIndex, ordinal]
  omega

theorem monthStart_le_ordinal_iff {date : CivilDate} {index : Nat} (hindex : 12 ≤ index)
    : monthStart index ≤ date.ordinal ↔ index ≤ date.monthIndex := by
  constructor
  · intro h
    by_contra hlater
    have hpos := date.monthIndex_pos
    have hstart := monthStart_le (i := date.monthIndex + 1) (by omega) (Nat.lt_of_not_le hlater)
    have hbefore := date.ordinal_lt_monthStart
    omega
  · intro h
    have hstart := monthStart_le hindex h
    rw [ordinal]
    omega

theorem ordinal_lt_monthStart_iff {date : CivilDate} {index : Nat} (hindex : 12 ≤ index)
    : date.ordinal < monthStart index ↔ date.monthIndex < index := by
  rw [← Nat.not_le, monthStart_le_ordinal_iff hindex, Nat.not_le]

theorem ordinal_injective : Function.Injective ordinal := by
  intro first second h
  have hmonths : first.monthIndex = second.monthIndex := by
    have hle := (monthStart_le_ordinal_iff first.monthIndex_pos).1
      (h ▸ Nat.le_add_right _ _ : monthStart first.monthIndex ≤ second.ordinal)
    have hge := (monthStart_le_ordinal_iff second.monthIndex_pos).1
      (h ▸ Nat.le_add_right _ _ : monthStart second.monthIndex ≤ first.ordinal)
    omega
  have hfirst := first.valid
  have hsecond := second.valid
  rw [ordinal, ordinal, hmonths] at h
  unfold monthIndex at hmonths
  ext <;> omega

/-- The day after. -/
def nextDay (date : CivilDate) : CivilDate :=
  if h : date.day < daysInMonth date.year date.month then
    ⟨date.year, date.month, date.day + 1, by have := date.valid; omega⟩
  else if hmonth : date.month < 12 then
    ⟨date.year, date.month + 1, 1, by
      have := date.valid
      have := daysInMonth_pos date.year (date.month + 1)
      omega⟩
  else
    ⟨date.year + 1, 1, 1, by simp [daysInMonth]⟩

theorem nextDay_of_lt {date : CivilDate} (h : date.day < daysInMonth date.year date.month)
    : date.nextDay = ⟨date.year, date.month, date.day + 1, by have := date.valid; omega⟩ := by
  rw [nextDay, dif_pos h]

theorem ordinal_nextDay (date : CivilDate) : date.nextDay.ordinal = date.ordinal + 1 := by
  have hvalid := date.valid
  by_cases hday : date.day < daysInMonth date.year date.month
  · simp only [nextDay, dif_pos hday, ordinal, monthIndex]
    omega
  · have hlast : date.day = daysInMonth date.year date.month := by omega
    have hsame : date.nextDay.ordinal = monthStart (date.monthIndex + 1) := by
      by_cases hmonth : date.month < 12
      · simp only [nextDay, dif_neg hday, dif_pos hmonth, ordinal, monthIndex]
        exact congrArg monthStart (by omega)
      · simp only [nextDay, dif_neg hday, dif_neg hmonth, ordinal, monthIndex]
        exact congrArg monthStart (by omega)
    rw [hsame, monthStart_succ_monthIndex, ordinal]
    omega

/-- The first day of a month. -/
def firstOfMonth (index : Nat) (h : 12 ≤ index) : CivilDate :=
  ⟨index / 12, index % 12 + 1, 1, by
    have := daysInMonth_pos (index / 12) (index % 12 + 1)
    omega⟩

theorem nextDay_of_last {date : CivilDate} (h : date.day = daysInMonth date.year date.month)
    : date.nextDay
      = firstOfMonth (date.monthIndex + 1) (Nat.le_succ_of_le date.monthIndex_pos) := by
  have hvalid := date.valid
  by_cases hmonth : date.month < 12
  · simp only [nextDay, dif_neg h.not_lt, dif_pos hmonth, firstOfMonth, monthIndex]
    ext <;> simp only <;> omega
  · simp only [nextDay, dif_neg h.not_lt, dif_neg hmonth, firstOfMonth, monthIndex]
    ext <;> simp only <;> omega

theorem monthIndex_firstOfMonth {index : Nat} (h : 12 ≤ index)
    : (firstOfMonth index h).monthIndex = index := by
  simp only [firstOfMonth, monthIndex]
  omega

theorem ordinal_firstOfMonth {index : Nat} (h : 12 ≤ index)
    : (firstOfMonth index h).ordinal = monthStart index := by
  rw [ordinal, monthIndex_firstOfMonth]
  rfl

/-- The first day of the first year. -/
def first : CivilDate := ⟨1, 1, 1, by decide⟩

theorem ordinal_first : first.ordinal = 1 := by decide

/-- The date with an ordinal number; the first date for zero. -/
def ofOrdinal : Nat → CivilDate
  | 0 => first
  | 1 => first
  | n + 2 => (ofOrdinal (n + 1)).nextDay

theorem ordinal_ofOrdinal {n : Nat} (h : 1 ≤ n) : (ofOrdinal n).ordinal = n := by
  induction n, h using Nat.le_induction with
  | base => exact ordinal_first
  | succ n hn ih =>
      obtain ⟨m, rfl⟩ : ∃ m, n = m + 1 := ⟨n - 1, by omega⟩
      rw [ofOrdinal, ordinal_nextDay, ih]

theorem ordinal_pos (date : CivilDate) : 1 ≤ date.ordinal := by
  have hstart := monthStart_le (le_refl 12) date.monthIndex_pos
  have hfirst : monthStart 12 = 1 := by decide
  rw [ordinal]
  omega

@[simp]
theorem ofOrdinal_ordinal (date : CivilDate) : ofOrdinal date.ordinal = date :=
  ordinal_injective (ordinal_ofOrdinal date.ordinal_pos)

theorem nextDay_injective : Function.Injective nextDay := by
  intro first second h
  have hordinals := congrArg ordinal h
  rw [ordinal_nextDay, ordinal_nextDay] at hordinals
  exact ordinal_injective (by omega)

/-- The anniversary of a date some years later, which for 29 February is 1 March in a common year.
-/
def afterYears (date : CivilDate) (years : Nat) : CivilDate :=
  if h : date.day ≤ daysInMonth (date.year + years) date.month then
    ⟨date.year + years, date.month, date.day, by have := date.valid; omega⟩
  else
    ⟨date.year + years, 3, 1, by
      have := date.valid
      have := daysInMonth_pos (date.year + years) 3
      omega⟩

@[simp]
theorem afterYears_year (date : CivilDate) (years : Nat)
    : (date.afterYears years).year = date.year + years := by
  unfold afterYears
  split <;> rfl

theorem firstOfMonth_afterYears {index : Nat} (h : 12 ≤ index)
    : (firstOfMonth index h).afterYears 1 = firstOfMonth (index + 12) (by omega) := by
  have hfirst : (firstOfMonth index h).day
      ≤ daysInMonth ((firstOfMonth index h).year + 1) (firstOfMonth index h).month :=
    le_trans (by decide : 1 ≤ 28) (daysInMonth_pos _ _)
  rw [afterYears, dif_pos hfirst]
  simp only [firstOfMonth]
  ext <;> simp only <;> omega

theorem afterYears_zero (date : CivilDate) : date.afterYears 0 = date := by
  have hvalid := date.valid
  rw [afterYears, dif_pos (by simpa using hvalid.2.2.2.2)]
  rfl

theorem no_anniversary_iff {date : CivilDate} {year : Nat}
    : ¬ date.day ≤ daysInMonth year date.month
      ↔ date.month = 2 ∧ date.day = 29 ∧ isLeapYear year = false := by
  have hvalid := date.valid
  by_cases hmonth : date.month = 2
  · rw [hmonth] at hvalid ⊢
    simp only [daysInMonth, if_true] at hvalid ⊢
    cases isLeapYear year <;> cases hleap : isLeapYear date.year <;> simp [hleap] at hvalid ⊢ <;>
      omega
  · rw [daysInMonth_eq_of_ne hmonth year date.year]
    simp only [hmonth, false_and, iff_false, not_not]
    exact hvalid.2.2.2.2

theorem afterYears_succ {date : CivilDate} {years : Nat}
    (h : ¬ (date.month = 2 ∧ date.day = 29 ∧ isLeapYear (date.year + years) = false
      ∧ isLeapYear (date.year + years + 1) = true))
    : (date.afterYears years).afterYears 1 = date.afterYears (years + 1) := by
  by_cases hmissed : date.day ≤ daysInMonth (date.year + years) date.month
  · simp only [afterYears, dif_pos hmissed, Nat.add_assoc]
  · obtain ⟨hmonth, hday, hcommon⟩ := no_anniversary_iff.1 hmissed
    have hnext : isLeapYear (date.year + (years + 1)) = false :=
      Bool.eq_false_iff.2 (fun hleap => h ⟨hmonth, hday, hcommon, hleap⟩)
    have hagain : ¬ date.day ≤ daysInMonth (date.year + (years + 1)) date.month :=
      no_anniversary_iff.2 ⟨hmonth, hday, hnext⟩
    simp only [afterYears, dif_neg hmissed, dif_neg hagain, Nat.add_assoc]
    split <;> rfl

end CivilDate

end Library
