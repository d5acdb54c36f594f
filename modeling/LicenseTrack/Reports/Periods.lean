import LicenseTrack.Reports.Spend

/-! Adjacent ranges share the recurring cost between them, and every line value is counted once in a
range, unless it belongs to a purchase whose included support has no term.
-/

namespace LicenseTrack

namespace Report

open Library

variable {u : Unicode}

/-- The days of a term that lie in a range. -/
def overlapDays (start finish : Date) (range : DateRange) : Nat :=
  min finish range.2 + 1 - max start range.1

theorem overlapDays_add {start finish first middle last : Nat} (hterm : start ≤ finish)
    (hfirst : first ≤ middle) (hlast : middle < last)
    : overlapDays start finish (first, middle) + overlapDays start finish (middle + 1, last)
      = overlapDays start finish (first, last) := by
  simp only [overlapDays]
  omega

theorem term_le {l : License} {start finish : Date} (h : term l = some (start, finish))
    : start ≤ finish := by
  unfold term at h
  dsimp only at h
  split at h
  · split at h
    · cases h
    · next hle =>
        obtain ⟨rfl, rfl⟩ := Prod.mk.inj (Option.some.inj h)
        exact Nat.le_of_not_lt hle
  · cases h

/-- The share of a range in the recurring value of a licence. -/
def recurringShare (u : Unicode) (l : License) (range : DateRange) : ℚ :=
  match isRecurring l, (recurringTermValue u l).1, term l with
  | true, some amount, some (start, finish) =>
      amount * (overlapDays start finish range : ℚ) / ((finish - start + 1 : Nat) : ℚ)
  | _, _, _ => 0

theorem recurringShare_add {l : License} {first middle last : Date} (hfirst : first ≤ middle)
    (hlast : middle < last)
    : recurringShare u l (first, middle) + recurringShare u l (middle + 1, last)
      = recurringShare u l (first, last) := by
  unfold recurringShare
  split
  · next amount start finish _ _ hterm =>
      have hdays : (overlapDays start finish (first, last) : ℚ)
          = overlapDays start finish (first, middle) + overlapDays start finish (middle + 1, last) := by
        rw [← overlapDays_add (term_le hterm) hfirst hlast, Nat.cast_add]
      rw [hdays]
      ring
  · exact add_zero 0

theorem recurringEntry_dated {l : License} {range : DateRange} {today start finish : Date}
    {amount : ℚ} (hrecurring : isRecurring l = true)
    (hvalue : (recurringTermValue u l).1 = some amount) (hterm : term l = some (start, finish))
    : recurringEntry u (some range) today l
      = if min finish range.2 < max start range.1 then none
        else some (amount * ((min finish range.2 - max start range.1 + 1 : Nat) : ℚ)
          / ((finish - start + 1 : Nat) : ℚ)) := by
  simp only [recurringEntry, hrecurring, if_true, hvalue,
    @allocation_dated l amount range (some true) start finish rfl hterm]
  split <;> simp

theorem recurringEntry_eq_none {l : License} {range : DateRange} {today : Date}
    (h : isRecurring l = false ∨ (recurringTermValue u l).1 = none ∨ term l = none)
    : recurringEntry u (some range) today l = none := by
  rcases hrecurring : isRecurring l with _ | _
  · simp [recurringEntry, hrecurring]
  rcases hvalue : (recurringTermValue u l).1 with _ | amount
  · simp [recurringEntry, hrecurring, hvalue, allocation]
  · have hterm : term l = none := by simpa [hrecurring, hvalue] using h
    simp [recurringEntry, hrecurring, hvalue, allocation, hterm]

theorem visible_range {options : ReportOptions} {l : License} {range : DateRange}
    (hoptions : visible options none l = true)
    : visible options (some range) l = overlaps l (some range) := by
  unfold visible at *
  split at hoptions
  · cases hoptions
  · next hretired =>
      rw [if_neg hretired]
      split at hoptions
      · cases hoptions
      · next hcentre => rw [if_neg hcentre]

theorem recurringShare_dated {l : License} {range : DateRange} {start finish : Date} {amount : ℚ}
    (hrecurring : isRecurring l = true) (hvalue : (recurringTermValue u l).1 = some amount)
    (hterm : term l = some (start, finish))
    : recurringShare u l range
      = amount * (overlapDays start finish range : ℚ) / ((finish - start + 1 : Nat) : ℚ) := by
  simp only [recurringShare, hrecurring, hvalue, hterm]

theorem recurringEntry_getD {options : ReportOptions} {l : License} {range : DateRange}
    {today : Date} (hoptions : visible options none l = true)
    : (if visible options (some range) l then (recurringEntry u (some range) today l).getD 0 else 0)
      = recurringShare u l range := by
  rcases hrecurring : isRecurring l with _ | _
  · rw [recurringEntry_eq_none (.inl hrecurring), Option.getD_none, ite_self]
    simp [recurringShare, hrecurring]
  rcases hvalue : (recurringTermValue u l).1 with _ | amount
  · rw [recurringEntry_eq_none (.inr (.inl hvalue)), Option.getD_none, ite_self]
    simp [recurringShare, hvalue]
  rcases hterm : term l with _ | ⟨start, finish⟩
  · rw [recurringEntry_eq_none (.inr (.inr hterm)), Option.getD_none, ite_self]
    simp [recurringShare, hterm]
  rw [visible_range hoptions, recurringEntry_dated hrecurring hvalue hterm,
    recurringShare_dated hrecurring hvalue hterm]
  simp only [overlaps, hrecurring, hterm, if_true, decide_eq_true_eq]
  by_cases houtside : min finish range.2 < max start range.1
  · have hnone : overlapDays start finish range = 0 := Nat.sub_eq_zero_of_le houtside
    rw [if_pos houtside, Option.getD_none, ite_self, hnone, Nat.cast_zero, mul_zero, zero_div]
  · have hsees : start ≤ range.2 ∧ range.1 ≤ finish := by
      rw [Nat.not_lt, Nat.max_le, Nat.le_min, Nat.le_min] at houtside
      exact ⟨houtside.1.2, houtside.2.1⟩
    have hdays : min finish range.2 - max start range.1 + 1 = overlapDays start finish range :=
      (Nat.succ_sub (Nat.le_of_not_lt houtside)).symm
    rw [if_neg houtside, if_pos hsees, Option.getD_some, hdays]

theorem visible_of_range {options : ReportOptions} {l : License} {range : DateRange}
    (h : visible options (some range) l = true)
    : visible options none l = true := by
  unfold visible at *
  split at h
  · cases h
  · next hretired =>
      rw [if_neg hretired]
      split at h
      · cases h
      · next hcentre => rw [if_neg hcentre]; rfl

theorem amountOf_recurring (options : ReportOptions) (range : DateRange) (today : Date)
    (licenses : List (Nat × License)) (code : String)
    : amountOf
        (buildRecurringForecastData u (some range) today
          (licenses.filter (fun row => visible options (some range) row.2))).recurringAmount code
      = (licenses.map (fun row =>
          if currency u row.2 = code ∧ visible options none row.2 = true then
            recurringShare u row.2 range
          else 0)).sum := by
  have hfield : ∀ rows : List (Nat × License),
      (buildRecurringForecastData u (some range) today rows).recurringAmount
        = rows.foldl (fun totals row =>
            addTo totals (currency u row.2) (recurringEntry u (some range) today row.2)) [] :=
    fun rows => (List.foldl_hom RecurringForecast.recurringAmount (fun _ _ => rfl)).symm
  have hsum : ∀ rows : List (Nat × License),
      amountOf (rows.foldl (fun totals row =>
          addTo totals (currency u row.2) (recurringEntry u (some range) today row.2)) []) code
        = (rows.map (fun row => if currency u row.2 = code then
            (recurringEntry u (some range) today row.2).getD 0 else 0)).sum := by
    intro rows
    rw [@amountOf_foldl String (Nat × License) _ ℚ _ rows
      (fun totals row => addTo totals (currency u row.2) (recurringEntry u (some range) today row.2))
      (fun row k => if currency u row.2 = k then
        (recurringEntry u (some range) today row.2).getD 0 else 0)
      (fun totals row _ k => amountOf_addTo totals _ _ k) [] code, amountOf_nil, zero_add]
  rw [hfield, hsum]
  induction licenses with
  | nil => simp only [List.filter_nil, List.map_nil]
  | cons row rest ih =>
      rw [List.map_cons, List.sum_cons, ← ih]
      by_cases hseen : visible options (some range) row.2 = true
      · have hshare := @recurringEntry_getD u options row.2 range today (visible_of_range hseen)
        rw [if_pos hseen] at hshare
        rw [List.filter_cons, if_pos hseen, List.map_cons, List.sum_cons, hshare]
        simp only [visible_of_range hseen, and_true]
      · rw [List.filter_cons, if_neg hseen]
        by_cases hoptions : visible options none row.2 = true
        · have hshare := @recurringEntry_getD u options row.2 range today hoptions
          rw [if_neg hseen] at hshare
          rw [← hshare, ite_self, zero_add]
        · rw [if_neg (fun h => hoptions h.2), zero_add]

theorem recurringAmount_add (options : ReportOptions) {first middle last : Date}
    (hfirst : first ≤ middle) (hlast : middle < last) (today : Date)
    (licenses : List (Nat × License)) (code : String)
    : amountOf (buildRecurringForecastData u (some (first, middle)) today
          (licenses.filter (fun row =>
            visible options (some (first, middle)) row.2))).recurringAmount code
        + amountOf (buildRecurringForecastData u (some (middle + 1, last)) today
          (licenses.filter (fun row =>
            visible options (some (middle + 1, last)) row.2))).recurringAmount code
      = amountOf (buildRecurringForecastData u (some (first, last)) today
          (licenses.filter (fun row =>
            visible options (some (first, last)) row.2))).recurringAmount code := by
  have hshares : ∀ row : Nat × License,
      (if currency u row.2 = code ∧ visible options none row.2 = true then
          recurringShare u row.2 (first, middle) else 0)
        + (if currency u row.2 = code ∧ visible options none row.2 = true then
          recurringShare u row.2 (middle + 1, last) else 0)
      = if currency u row.2 = code ∧ visible options none row.2 = true then
          recurringShare u row.2 (first, last) else 0 := by
    intro row
    rw [← recurringShare_add hfirst hlast]
    split_ifs
    · rfl
    · rw [add_zero]
  rw [amountOf_recurring, amountOf_recurring, amountOf_recurring, ← List.sum_map_add]
  exact congrArg List.sum (List.map_congr_left (fun row _ => hshares row))

theorem recurringEntry_wholeTerm {l : License} {range : DateRange} {start finish : Date}
    (today : Date) (hrecurring : isRecurring l = true) (hterm : term l = some (start, finish))
    (hfrom : range.1 ≤ start) (hto : finish ≤ range.2)
    : recurringEntry u (some range) today l = (recurringTermValue u l).1 := by
  rcases hvalue : (recurringTermValue u l).1 with _ | amount
  · exact recurringEntry_eq_none (.inr (.inl hvalue))
  · have hle := term_le hterm
    rw [recurringEntry_dated hrecurring hvalue hterm, Nat.min_eq_left hto, Nat.max_eq_left hfrom,
      if_neg (Nat.not_lt.2 hle), mul_div_assoc, div_self (Nat.cast_ne_zero.2 (Nat.succ_ne_zero _)),
      mul_one]

-- Line values

theorem amountOf_unallocated (selected : Option DateRange) (today : Date) (notificationDays : Nat)
    (successorStart : Nat → Option Date) (licenses : List (Nat × License)) (code : String)
    : amountOf
        (buildLifecycleSpendData u selected today notificationDays successorStart
          licenses).unallocatedValues code
      = (licenses.map (fun row =>
          if currency u row.2 = code then (unallocatedEntries u selected row.2).sum else 0)).sum := by
  have hfield : (buildLifecycleSpendData u selected today notificationDays successorStart
      licenses).unallocatedValues
      = licenses.foldl (fun totals row => (unallocatedEntries u selected row.2).foldl
          (fun totals value => addAmount totals (currency u row.2) value) totals) [] :=
    (List.foldl_hom LifecycleSpend.unallocatedValues (fun _ _ => rfl)).symm
  have hentries : ∀ (values : List ℚ) (own : String) (totals : Amounts) (k : String),
      amountOf (values.foldl (fun totals value => addAmount totals own value) totals) k
        = amountOf totals k + if own = k then values.sum else 0 := by
    intro values own totals k
    rw [@amountOf_foldl String ℚ _ ℚ _ values (fun totals value => addAmount totals own value)
      (fun value k => if own = k then value else 0)
      (fun totals value _ k => amountOf_addAmount totals own value k) totals k]
    split_ifs <;> simp
  rw [hfield, @amountOf_foldl String (Nat × License) _ ℚ _ licenses
    (fun totals row => (unallocatedEntries u selected row.2).foldl
      (fun totals value => addAmount totals (currency u row.2) value) totals)
    (fun row k => if currency u row.2 = k then (unallocatedEntries u selected row.2).sum else 0)
    (fun totals row _ k => hentries _ _ totals k) [] code, amountOf_nil, zero_add]

/-- A line value is missing, excluded or outside a range, or it is entered once: as spent, or as
unallocated.
-/
def CountedOnce (u : Unicode) (range : DateRange) (l : License) : Prop :=
  (lineValue u l).1 = none ∨ (lineValue u l).2 = .excluded
  ∨ (lineAllocation u (some range) l).2 = .outside
  ∨ spendEntry u (some range) l ≠ none ∧ unallocatedEntries u (some range) l = []
  ∨ spendEntry u (some range) l = none
    ∧ ∃ value, (lineValue u l).1 = some value ∧ unallocatedEntries u (some range) l = [value]

/-- A priced purchase with a cost of included support, but without a term of it. -/
structure FallsBetween (u : Unicode) (l : License) : Prop where
  type : l.licenseType = .perpetual ∨ l.licenseType = .oem
  coverage : l.maintenanceCoverage = .included
  cost : isBlank (l.maintenanceCost.getD "") = false
  undated : term l = none
  priced : (calcLineTotal u l.quantity l.unitPrice).isSome

theorem FallsBetween.line {l : License} (h : FallsBetween u l)
    : isRecurring l = true ∧ isRecurringLineValue l = false
      ∧ ∃ value, lineValue u l = (some value, .line) := by
  obtain ⟨value, hvalue⟩ := Option.isSome_iff_exists.1 h.priced
  rcases h.type with htype | htype <;>
    simp [isRecurring, isRecurringLineValue, isRecurringLicense, hasIncludedSupportRecord, lineValue,
      htype, h.coverage, h.cost, hvalue, LicenseType.isMaintenanceParent,
      LicenseType.isRenewalOptIn]

theorem recurring_purchase {l : License} (hrecurring : isRecurring l = true)
    (hline : isRecurringLineValue l = false)
    : (l.licenseType = .perpetual ∨ l.licenseType = .oem) ∧ l.maintenanceCoverage = .included
      ∧ isBlank (l.maintenanceCost.getD "") = false := by
  simp only [isRecurringLineValue, Bool.or_eq_false_iff] at hline
  have hrecord : hasIncludedSupportRecord l = true := by
    simpa only [isRecurring, hline.1, Bool.false_or] using hrecurring
  have hfreeware : l.licenseType ≠ .freeware := by
    intro htype
    simp [htype, hrecord] at hline
  simp only [hasIncludedSupportRecord, Bool.and_eq_true, beq_iff_eq, Bool.not_eq_true'] at hrecord
  refine ⟨?_, hrecord.1.2, hrecord.2⟩
  have hparent := hrecord.1.1
  cases htype : l.licenseType <;> simp_all [LicenseType.isMaintenanceParent]

theorem entries_full {l : License} {range : DateRange} {value : ℚ}
    (hvalue : (lineValue u l).1 = some value) (hsource : (lineValue u l).2 ≠ .excluded)
    (hline : isRecurringLineValue l = false)
    : (lineAllocation u (some range) l).2 = .full
      ∧ spendEntry u (some range) l = some value
      ∧ unallocatedEntries u (some range) l
        = if isRecurring l = true ∧ term l = none then [value] else [] := by
  have hfull : lineAllocation u (some range) l = (some value, .full) := by
    rw [lineAllocation, hvalue, allocation_full (by rw [Option.getD_none, hline])]
  refine ⟨by rw [hfull], ?_, ?_⟩
  · simp only [spendEntry, hfull, ne_eq, hsource, not_false_eq_true, if_true,
      reduceCtorEq, if_false]
  · simp [unallocatedEntries, hfull, hvalue]

theorem countedOnce_iff (range : DateRange) (l : License)
    : CountedOnce u range l ↔ ¬ FallsBetween u l := by
  constructor
  · intro hcounted hbetween
    obtain ⟨hrecurring, hline, value, hvalue⟩ := hbetween.line
    obtain ⟨hstatus, hspend, hunallocated⟩ :=
      @entries_full u l range value (by rw [hvalue]) (by rw [hvalue]; simp) hline
    rw [if_pos ⟨hrecurring, hbetween.undated⟩] at hunallocated
    simp [CountedOnce, hvalue, hstatus, hspend, hunallocated] at hcounted
  · intro hbetween
    rcases hvalue : (lineValue u l).1 with _ | value
    · exact .inl hvalue
    by_cases hsource : (lineValue u l).2 = .excluded
    · exact .inr (.inl hsource)
    rcases hline : isRecurringLineValue l with _ | _
    · obtain ⟨-, hspend, hunallocated⟩ := @entries_full u l range value hvalue hsource hline
      refine .inr (.inr (.inr (.inl ⟨by simp [hspend], ?_⟩)))
      rw [hunallocated, if_neg]
      rintro ⟨hrecurring, hterm⟩
      obtain ⟨htype, hcoverage, hcost⟩ := recurring_purchase hrecurring hline
      refine hbetween ⟨htype, hcoverage, hcost, hterm, ?_⟩
      rw [Option.isSome_iff_ne_none]
      intro hnone
      rcases htype with htype | htype <;> simp [lineValue, htype, hnone] at hvalue
    · rcases hterm : term l with _ | ⟨start, finish⟩
      · have hundated : lineAllocation u (some range) l = (none, .undated) := by
          rw [lineAllocation, hvalue, allocation_undated (by rw [Option.getD_none, hline]) hterm]
        refine .inr (.inr (.inr (.inr ⟨?_, value, hvalue, ?_⟩)))
        · simp [spendEntry, hundated]
        · simp [unallocatedEntries, hundated, hvalue]
      · have hdated := @allocation_dated l value range none start finish
          (by rw [Option.getD_none, hline]) hterm
        rw [← hvalue, ← lineAllocation] at hdated
        by_cases houtside : min finish range.2 < max start range.1
        · rw [if_pos houtside] at hdated
          exact .inr (.inr (.inl (by rw [hdated])))
        · rw [if_neg houtside] at hdated
          refine .inr (.inr (.inr (.inl ⟨?_, ?_⟩)))
          · simp [spendEntry, hdated, hsource]
          · simp [unallocatedEntries, hdated, hterm]

-- The report

/-- Periods conserve value: the recurring costs of adjacent ranges add up, a range with a whole term
has its whole value, and every line value that a range sees is counted once.
-/
structure PeriodsConserve (u : Unicode) (options : ReportOptions) (today : Date)
    (notificationDays : Nat) (successorStart : Nat → Option Date) (licenses : List (Nat × License))
    : Prop where
  additive : ∀ first middle last : Date, first ≤ middle → middle < last → ∀ code,
    amountOf (buildRecurringForecastData u (some (first, middle)) today
        (licenses.filter (fun row =>
          visible options (some (first, middle)) row.2))).recurringAmount code
      + amountOf (buildRecurringForecastData u (some (middle + 1, last)) today
        (licenses.filter (fun row =>
          visible options (some (middle + 1, last)) row.2))).recurringAmount code
    = amountOf (buildRecurringForecastData u (some (first, last)) today
        (licenses.filter (fun row => visible options (some (first, last)) row.2))).recurringAmount code
  wholeTerm : ∀ row ∈ licenses, ∀ (range : DateRange) (start finish : Date),
    isRecurring row.2 = true → term row.2 = some (start, finish) → range.1 ≤ start →
    finish ≤ range.2 → recurringEntry u (some range) today row.2 = (recurringTermValue u row.2).1
  spent : ∀ (range : DateRange) code,
    amountOf (buildLifecycleSpendData u (some range) today notificationDays successorStart
        (licenses.filter (fun row => visible options (some range) row.2))).licenseSpend code
      = ((licenses.filter (fun row => visible options (some range) row.2)).map (fun row =>
          if currency u row.2 = code then (spendEntry u (some range) row.2).getD 0 else 0)).sum
  unallocated : ∀ (range : DateRange) code,
    amountOf (buildLifecycleSpendData u (some range) today notificationDays successorStart
        (licenses.filter (fun row => visible options (some range) row.2))).unallocatedValues code
      = ((licenses.filter (fun row => visible options (some range) row.2)).map (fun row =>
          if currency u row.2 = code then (unallocatedEntries u (some range) row.2).sum else 0)).sum
  countedOnce : ∀ (range : DateRange), ∀ row ∈ licenses, visible options (some range) row.2 = true →
    CountedOnce u range row.2

theorem FallsBetween.visible {options : ReportOptions} {l : License} (h : FallsBetween u l)
    (hoptions : Report.visible options none l = true) (range : DateRange)
    : Report.visible options (some range) l = true := by
  rw [visible_range hoptions, overlaps]
  simp only [h.line.1, h.undated, if_true]

theorem PeriodsConserve.none_between {options : ReportOptions} {today : Date}
    {notificationDays : Nat} {successorStart : Nat → Option Date} {licenses : List (Nat × License)}
    (h : PeriodsConserve u options today notificationDays successorStart licenses)
    : ∀ row ∈ licenses, visible options none row.2 = true → ¬ FallsBetween u row.2 := by
  intro row hrow hoptions hbetween
  exact (countedOnce_iff (1, 1) row.2).1
    (h.countedOnce (1, 1) row hrow (hbetween.visible hoptions (1, 1))) hbetween

/-- Periods conserve value exactly in the portfolios without a purchase that falls between the rules.
-/
theorem periodsConserve_iff (options : ReportOptions) (today : Date) (notificationDays : Nat)
    (successorStart : Nat → Option Date) (licenses : List (Nat × License))
    : PeriodsConserve u options today notificationDays successorStart licenses
      ↔ ∀ row ∈ licenses, visible options none row.2 = true → ¬ FallsBetween u row.2 := by
  constructor
  · exact PeriodsConserve.none_between
  · intro hnone
    refine
      {
        additive := fun first middle last hfirst hlast code =>
          recurringAmount_add options hfirst hlast today licenses code
        wholeTerm := fun row _ range start finish hrecurring hterm hfrom hto =>
          recurringEntry_wholeTerm today hrecurring hterm hfrom hto
        spent := fun range code => ?_
        unallocated := fun range code => ?_
        countedOnce := fun range row hrow hseen =>
          (countedOnce_iff range row.2).2 (hnone row hrow (visible_of_range hseen))
      }
    · exact amountOf_licenseSpend (some range) today notificationDays successorStart _ code
    · exact amountOf_unallocated (some range) today notificationDays successorStart _ code

/-- A perpetual licence whose included support has a cost and no term. -/
def supportWithoutTerm : License :=
  { License.ofTerm .perpetual (some 1) none with
    quantity := "1"
    unitPrice := "1000"
    maintenanceCoverage := .included
    maintenanceCost := some "200" }

/-- Its price is counted as spent and as unallocated. -/
theorem not_periodsConserve_supportWithoutTerm
    : amountOf (buildLifecycleSpendData .ascii (some (1, 365)) 100 30 (fun _ => none)
          [(1, supportWithoutTerm)]).licenseSpend "EUR" = 1000
      ∧ amountOf (buildLifecycleSpendData .ascii (some (1, 365)) 100 30 (fun _ => none)
          [(1, supportWithoutTerm)]).unallocatedValues "EUR" = 1000
      ∧ ¬ PeriodsConserve .ascii {} 100 30 (fun _ => none) [(1, supportWithoutTerm)] := by
  refine ⟨by decide +kernel, by decide +kernel, fun h => ?_⟩
  have hbetween : FallsBetween .ascii supportWithoutTerm :=
    ⟨.inl rfl, rfl, by decide +kernel, by decide +kernel, by decide +kernel⟩
  exact h.none_between (1, supportWithoutTerm) (List.mem_singleton.2 rfl) (by decide +kernel) hbetween

end Report

end LicenseTrack
