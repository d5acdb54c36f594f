import LicenseTrack.Library.Calendar
import LicenseTrack.Services.RenewalStart

/-! The terms proposed after a term: for the renewal of included support, for the renewal of a
licence, and for the next line of a request in the form.
-/

namespace LicenseTrack

open Library

/-- `date.max.year`. -/
def dateMaxYear : Nat := 9999

/-- `date(year, month, day)`; none for its `ValueError`. -/
def civilDate? (year month day : Nat) : Option CivilDate :=
  if h : year ≤ dateMaxYear
      ∧ (1 ≤ year ∧ 1 ≤ month ∧ month ≤ 12 ∧ 1 ≤ day ∧ day ≤ daysInMonth year month) then
    some ⟨year, month, day, h.2⟩
  else none

/-- `value + timedelta(days=1)`; none for its `OverflowError`. -/
def dayAfter? (date : CivilDate) : Option CivilDate :=
  if date.nextDay.year ≤ dateMaxYear then some date.nextDay else none

/-- `value - timedelta(days=1)`; none for its `OverflowError`. -/
def dayBefore? (date : CivilDate) : Option CivilDate :=
  if 1 < date.ordinal then some (CivilDate.ofOrdinal (date.ordinal - 1)) else none

/-- The end of the term that starts on a day, in `_next_support_term`. -/
def supportTermEnd? (start : CivilDate) : Option CivilDate :=
  let nextAnniversary :=
    match civilDate? (start.year + 1) start.month start.day with
    | some date => some date
    | none => (civilDate? (start.year + 1) start.month 28).bind dayAfter?
  nextAnniversary.bind dayBefore?

/-- `_next_support_term`; none where it raises. -/
def nextSupportTerm (previousEnd : CivilDate) : Option (CivilDate × CivilDate) := do
  let start ← dayAfter? previousEnd
  let finish ← supportTermEnd? start
  pure (start, finish)

/-- The end of the term after one that ends on a day, in `_suggest_annual_continuation_term`. -/
def continuationEnd? (previousEnd : CivilDate) : Option CivilDate :=
  if previousEnd.year = dateMaxYear then none
  else
    match civilDate? (previousEnd.year + 1) previousEnd.month previousEnd.day with
    | some date => some date
    | none => civilDate? (previousEnd.year + 1) previousEnd.month 28

/-- The calendar of the service. A support term that the service cannot compute ends on its start
here.
-/
def gregorian : Calendar where
  sameDayNextYear finish := (continuationEnd? (CivilDate.ofOrdinal finish)).map CivilDate.ordinal
  dayBeforeNextAnniversary start :=
    ((supportTermEnd? (CivilDate.ofOrdinal start)).map CivilDate.ordinal).getD start

/-- The year that `Date.UTC` reads: two-digit years are years of the twentieth century. -/
def utcYear (year : Nat) : Nat := if year ≤ 99 then 1900 + year else year

/-- `nextYearDate`, for a date of the form. -/
def nextYearDate (date : CivilDate) : CivilDate :=
  let year := utcYear (date.year + 1)
  ⟨year, date.month, min date.day (daysInMonth year date.month), by
    have := date.valid
    have := daysInMonth_pos year date.month
    have hyear : 1 ≤ year := by
      simp only [utcYear, year]
      split <;> omega
    omega⟩

/-- `nextTermDraft`: the line that the form is filled in with. -/
def nextTermDraft (item : SourcingItem) : SourcingItem :=
  { item with
    renewalForLicenseId := none
    startDate := item.endDate.map (fun finish => (CivilDate.ofOrdinal finish).nextDay.ordinal)
    endDate := item.endDate.map (fun finish => (nextYearDate (CivilDate.ofOrdinal finish)).ordinal)
    invoiceNumber := none
    purchaseDate := none
    noticeDate := none
    successorSourcingItemId := none }

end LicenseTrack
