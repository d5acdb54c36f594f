import LicenseTrack.Services.Reporting
import Mathlib.Algebra.BigOperators.Group.List.Lemmas

/-! Values that are spread over the days of a term: the shares of adjacent ranges add up, and a line
value is either spent in a range or reported as having no period.
-/

namespace LicenseTrack

namespace Report

open Library

variable {u : Unicode}

section Cases

variable {l : License} {amount : ℚ} {range : DateRange} {recurringValue : Option Bool}

theorem allocation_full (h : recurringValue.getD (isRecurringLineValue l) = false)
    : allocation l (some amount) (some range) recurringValue = (some amount, .full) := by
  simp only [allocation, h, if_true]

theorem allocation_undated (h : recurringValue.getD (isRecurringLineValue l) = true)
    (hterm : term l = none)
    : allocation l (some amount) (some range) recurringValue = (none, .undated) := by
  simp [allocation, h, hterm]

theorem allocation_dated {start finish : Date}
    (h : recurringValue.getD (isRecurringLineValue l) = true)
    (hterm : term l = some (start, finish))
    : allocation l (some amount) (some range) recurringValue
      = if min finish range.2 < max start range.1 then (some 0, .outside)
        else
          (some (amount * ((min finish range.2 - max start range.1 + 1 : Nat) : ℚ)
            / ((finish - start + 1 : Nat) : ℚ)), .allocated) := by
  simp only [allocation, h, hterm, Bool.true_eq_false, if_false]

end Cases

end Report

end LicenseTrack
