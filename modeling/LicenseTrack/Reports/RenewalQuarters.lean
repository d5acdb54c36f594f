import LicenseTrack.Renewal.NextTerms
import LicenseTrack.Services.RenewalReport

/-! The periods of the renewal report are the four fiscal quarters from today on exactly where the
year of the first one is computed right, and then every renewal in them is counted once.
-/

namespace LicenseTrack

namespace Report

open Library

/-- The number of the fiscal quarter that a month of the year lies in. -/
def fiscalQuarter (fiscalMonth month : Nat) : Nat := (month + 12 - fiscalMonth) % 12 / 3 + 1

/-- The months of today's fiscal quarter that are over. -/
def monthsIntoQuarter (fiscalMonth : Nat) (today : CivilDate) : Nat :=
  (today.month + 12 - fiscalMonth) % 12 % 3

/-- The first month of today's fiscal quarter, all months counted from January of the year zero. -/
def quarterStart (fiscalMonth : Nat) (today : CivilDate) : Nat :=
  today.monthIndex - monthsIntoQuarter fiscalMonth today

/-- The first month that the report computes. -/
def reportStart (fiscalMonth : Nat) (today : CivilDate) : Nat :=
  12 * (firstQuarterMonth fiscalMonth today).2 + (firstQuarterMonth fiscalMonth today).1

/-- The report's year is right unless the fiscal year began in the last calendar year and the quarter
in this one.
-/
def YearIsRight (fiscalMonth : Nat) (today : CivilDate) : Prop :=
  ¬ (today.month < fiscalMonth ∧ monthsIntoQuarter fiscalMonth today < today.month)

theorem firstQuarterMonth_lt (fiscalMonth : Nat) (today : CivilDate)
    : (firstQuarterMonth fiscalMonth today).1 < 12 :=
  Nat.mod_lt _ (by decide)

theorem monthsIntoQuarter_le (fiscalMonth : Nat) (today : CivilDate)
    : monthsIntoQuarter fiscalMonth today ≤ 2 :=
  Nat.le_of_lt_succ (Nat.mod_lt _ (by decide))

section Month

variable {fiscalMonth : Nat} {today : CivilDate} (hfiscal : 1 ≤ fiscalMonth ∧ fiscalMonth ≤ 12)

include hfiscal

theorem currentQuarter_months
    : currentQuarter fiscalMonth today * 3 + monthsIntoQuarter fiscalMonth today
      = if fiscalMonth ≤ today.month then today.month - fiscalMonth
        else today.month + 12 - fiscalMonth := by
  have hvalid := today.valid
  have hoffset : today.month - 1 + 12 - (fiscalMonth - 1) = today.month + 12 - fiscalMonth := by
    omega
  rw [currentQuarter, monthsIntoQuarter, hoffset, Nat.mul_comm, Nat.div_add_mod]
  split <;> omega

theorem reportStart_of_right (h : YearIsRight fiscalMonth today)
    : reportStart fiscalMonth today = quarterStart fiscalMonth today := by
  have hvalid := today.valid
  have hmonths := @currentQuarter_months fiscalMonth today hfiscal
  have hinto := monthsIntoQuarter_le fiscalMonth today
  unfold YearIsRight at h
  rw [reportStart, quarterStart, CivilDate.monthIndex]
  simp only [firstQuarterMonth]
  generalize monthsIntoQuarter fiscalMonth today = into at *
  generalize hraw : fiscalMonth - 1 + currentQuarter fiscalMonth today * 3 = rawMonth
  generalize currentQuarter fiscalMonth today = current at *
  by_cases hyear : fiscalMonth ≤ today.month
  · rw [if_pos hyear] at hmonths
    have hsame : rawMonth < 12 ∧ rawMonth + into = today.month - 1 := by omega
    rw [Nat.mod_eq_of_lt hsame.1, Nat.div_eq_of_lt hsame.1, if_neg (by omega)]
    omega
  · -- The quarter began in the last calendar year too.
    rw [if_neg hyear] at hmonths
    have hlast : rawMonth < 12 ∧ rawMonth + into = today.month + 11 := by omega
    rw [Nat.mod_eq_of_lt hlast.1, Nat.div_eq_of_lt hlast.1, if_pos (by omega)]
    omega

theorem reportStart_of_wrong (h : ¬ YearIsRight fiscalMonth today)
    : reportStart fiscalMonth today = quarterStart fiscalMonth today + 12 := by
  have hvalid := today.valid
  have hmonths := @currentQuarter_months fiscalMonth today hfiscal
  have hinto := monthsIntoQuarter_le fiscalMonth today
  rw [YearIsRight, not_not] at h
  rw [reportStart, quarterStart, CivilDate.monthIndex]
  simp only [firstQuarterMonth]
  generalize monthsIntoQuarter fiscalMonth today = into at *
  generalize hraw : fiscalMonth - 1 + currentQuarter fiscalMonth today * 3 = rawMonth
  generalize currentQuarter fiscalMonth today = current at *
  rw [if_neg (by omega)] at hmonths
  have hthis : rawMonth = 12 + (today.month - 1 - into) := by omega
  have hmod : rawMonth % 12 = today.month - 1 - into := by omega
  have hdiv : rawMonth / 12 = 1 := by omega
  rw [hmod, hdiv, if_neg (by omega)]
  omega

theorem quarterNumber_eq (index : Nat)
    : (currentQuarter fiscalMonth today + index) % 4 + 1
      = fiscalQuarter fiscalMonth ((reportStart fiscalMonth today + 3 * index) % 12 + 1) := by
  have hstart : reportStart fiscalMonth today % 12
      = (fiscalMonth - 1 + currentQuarter fiscalMonth today * 3) % 12 := by
    rw [reportStart, Nat.mul_add_mod]
    exact Nat.mod_mod _ 12
  generalize reportStart fiscalMonth today = start at *
  generalize currentQuarter fiscalMonth today = current at *
  have hmonth : (start + 3 * index) % 12
      = (fiscalMonth - 1 + 3 * (current + index)) % 12 := by
    rw [Nat.add_mod, hstart, ← Nat.add_mod, Nat.add_assoc, Nat.mul_comm current, ← Nat.mul_add]
  rw [fiscalQuarter, hmonth]
  generalize current + index = quarters
  have hback : ((fiscalMonth - 1 + 3 * quarters) % 12 + 1 + 12 - fiscalMonth) % 12
      = 3 * (quarters % 4) := by omega
  rw [hback, Nat.mul_div_cancel_left _ (by decide)]

end Month

-- Periods

theorem civilDate?_firstOfMonth (index : Nat)
    : civilDate? (index / 12) (index % 12 + 1) 1
      = if h : 12 ≤ index ∧ index < 12 * (dateMaxYear + 1) then
          some (CivilDate.firstOfMonth index h.1)
        else none := by
  have hdays := daysInMonth_pos (index / 12) (index % 12 + 1)
  by_cases h : 12 ≤ index ∧ index < 12 * (dateMaxYear + 1)
  · rw [civilDate?, dif_pos (by omega), dif_pos h]
    rfl
  · rw [civilDate?, dif_neg (by omega), dif_neg h]

/-- The period of three months from a month on. -/
def periodFrom (fiscalMonth : Nat) (start : Nat) (h : 12 ≤ start) : Quarter where
  label := quarterLabel (fiscalQuarter fiscalMonth (start % 12 + 1)) (start / 12)
  first := CivilDate.firstOfMonth start h
  last := CivilDate.ofOrdinal (monthStart (start + 3) - 1)

theorem last_nextDay {fiscalMonth start : Nat} (h : 12 ≤ start)
    : (periodFrom fiscalMonth start h).last.nextDay
      = CivilDate.firstOfMonth (start + 3) (by omega) := by
  have hlater := monthStart_lt (le_refl 12) (by omega : 12 < start + 3)
  have hfirst : monthStart 12 = 1 := by decide
  apply CivilDate.ordinal_injective
  rw [CivilDate.ordinal_nextDay, CivilDate.ordinal_firstOfMonth, periodFrom,
    CivilDate.ordinal_ofOrdinal (by omega)]
  omega

theorem contains_periodFrom {fiscalMonth start : Nat} (h : 12 ≤ start) {day : Date}
    : (periodFrom fiscalMonth start h).contains day = true
      ↔ monthStart start ≤ day ∧ day < monthStart (start + 3) := by
  have hlast := congrArg CivilDate.ordinal (@last_nextDay fiscalMonth start h)
  rw [CivilDate.ordinal_nextDay, CivilDate.ordinal_firstOfMonth] at hlast
  rw [Quarter.contains, decide_eq_true_iff, ← hlast, Nat.lt_succ_iff]
  simp only [periodFrom, CivilDate.ordinal_firstOfMonth]

/-- A period is computed unless it leaves the years of the service. -/
theorem renewalQuarter_eq {fiscalMonth : Nat} {today : CivilDate}
    (hfiscal : 1 ≤ fiscalMonth ∧ fiscalMonth ≤ 12) (index : Nat)
    : renewalQuarter fiscalMonth today index
      = if h : 12 ≤ reportStart fiscalMonth today + 3 * index
          ∧ reportStart fiscalMonth today + 3 * index + 3 < 12 * (dateMaxYear + 1) then
          some (periodFrom fiscalMonth (reportStart fiscalMonth today + 3 * index) h.1)
        else none := by
  have hmonth := firstQuarterMonth_lt fiscalMonth today
  have hlabel := @quarterNumber_eq fiscalMonth today hfiscal index
  have hstart : (firstQuarterMonth fiscalMonth today).1 + index * 3
      + 12 * (firstQuarterMonth fiscalMonth today).2 = reportStart fiscalMonth today + 3 * index := by
    rw [reportStart]
    omega
  have hrest : ((firstQuarterMonth fiscalMonth today).1 + index * 3) % 12
      = (reportStart fiscalMonth today + 3 * index) % 12 := by
    rw [← hstart, Nat.add_mul_mod_self_left]
  have hyear : (firstQuarterMonth fiscalMonth today).2
      + ((firstQuarterMonth fiscalMonth today).1 + index * 3) / 12
      = (reportStart fiscalMonth today + 3 * index) / 12 := by
    rw [← hstart]
    omega
  unfold renewalQuarter
  generalize reportStart fiscalMonth today + 3 * index = start at *
  generalize firstQuarterMonth fiscalMonth today = quarterMonth at *
  obtain ⟨month, year⟩ := quarterMonth
  dsimp only at hrest hyear ⊢
  have hnext : civilDate? (start / 12 + (start % 12 + 3) / 12) ((start % 12 + 3) % 12 + 1) 1
      = civilDate? ((start + 3) / 12) ((start + 3) % 12 + 1) 1 := by
    have hdiv : start / 12 + (start % 12 + 3) / 12 = (start + 3) / 12 := by omega
    rw [hdiv, Nat.mod_add_mod]
  rw [hrest, hyear, hlabel, hnext, civilDate?_firstOfMonth, civilDate?_firstOfMonth]
  by_cases h : 12 ≤ start ∧ start + 3 < 12 * (dateMaxYear + 1)
  · have hlater := monthStart_lt (le_refl 12) (by omega : 12 < start + 3)
    have hfirst : monthStart 12 = 1 := by decide
    have hbefore : dayBefore? (CivilDate.firstOfMonth (start + 3) (by omega))
        = some (periodFrom fiscalMonth start h.1).last := by
      rw [dayBefore?, CivilDate.ordinal_firstOfMonth, if_pos (by omega)]
      rfl
    rw [dif_pos ⟨h.1, by omega⟩, dif_pos ⟨by omega, h.2⟩, dif_pos h]
    simp only [Option.bind_eq_bind, Option.bind_some, hbefore]
    rfl
  · rw [dif_neg h]
    by_cases hstarts : 12 ≤ start ∧ start < 12 * (dateMaxYear + 1)
    · rw [dif_pos hstarts, dif_neg (by omega)]
      rfl
    · rw [dif_neg hstarts]
      rfl

/-- The four periods from a month on. -/
def periodsFrom (fiscalMonth start : Nat) (h : 12 ≤ start) : List Quarter :=
  (List.range 4).map (fun index =>
    periodFrom fiscalMonth (start + 3 * index) (Nat.le_add_right_of_le h))

theorem renewalQuarters_eq {fiscalMonth : Nat} {today : CivilDate}
    (hfiscal : 1 ≤ fiscalMonth ∧ fiscalMonth ≤ 12)
    : renewalQuarters fiscalMonth today
      = if h : 12 ≤ reportStart fiscalMonth today
          ∧ reportStart fiscalMonth today + 12 < 12 * (dateMaxYear + 1) then
          some (periodsFrom fiscalMonth (reportStart fiscalMonth today) h.1)
        else none := by
  have hrange : List.range 4 = [0, 1, 2, 3] := rfl
  have hquarter := @renewalQuarter_eq fiscalMonth today hfiscal
  unfold renewalQuarters periodsFrom
  rw [hrange]
  generalize reportStart fiscalMonth today = start at *
  by_cases h : 12 ≤ start ∧ start + 12 < 12 * (dateMaxYear + 1)
  · have hsome : ∀ index, index ≤ 3 → renewalQuarter fiscalMonth today index
        = some (periodFrom fiscalMonth (start + 3 * index) (Nat.le_add_right_of_le h.1)) := by
      intro index hindex
      rw [hquarter, dif_pos (by omega)]
    rw [dif_pos h]
    simp [List.mapM_cons, hsome]
  · rw [dif_neg h]
    by_cases hstarts : 12 ≤ start
    · have hlast : renewalQuarter fiscalMonth today 3 = none := by
        rw [hquarter, dif_neg (by omega)]
      simp only [List.mapM_cons, hlast, List.mapM_nil]
      cases renewalQuarter fiscalMonth today 0 <;> cases renewalQuarter fiscalMonth today 1 <;>
        cases renewalQuarter fiscalMonth today 2 <;> rfl
    · have hfirst : renewalQuarter fiscalMonth today 0 = none := by
        rw [hquarter, dif_neg (by omega)]
      simp only [List.mapM_cons, hfirst]
      rfl

-- Renewals in their periods

/-- Counts a renewal if it lies in the period. -/
def RenewalPeriod.addIf (period : RenewalPeriod) (event : RenewalEvent) : RenewalPeriod :=
  if period.quarter.contains event.eventDate then period.add event else period

@[simp]
theorem addIf_quarter (period : RenewalPeriod) (event : RenewalEvent)
    : (period.addIf event).quarter = period.quarter := by
  unfold RenewalPeriod.addIf
  split <;> rfl

theorem addEvent_eq {event : RenewalEvent} {periods : List RenewalPeriod}
    (h : periods.Pairwise (fun period later => period.quarter.contains event.eventDate = true →
      later.quarter.contains event.eventDate = false))
    : addEvent event periods = periods.map (·.addIf event) := by
  induction periods with
  | nil => rfl
  | cons period rest ih =>
      rw [List.pairwise_cons] at h
      by_cases hhere : period.quarter.contains event.eventDate = true
      · have hrest : rest.map (·.addIf event) = rest := by
          have hsame : rest.map (·.addIf event) = rest.map id := by
            apply List.map_congr_left
            intro later hlater
            rw [RenewalPeriod.addIf, h.1 later hlater hhere]
            rfl
          rw [hsame, List.map_id]
        rw [addEvent, if_pos hhere, List.map_cons, hrest, RenewalPeriod.addIf, if_pos hhere]
      · rw [addEvent, if_neg hhere, List.map_cons, ih h.2, RenewalPeriod.addIf, if_neg hhere]

theorem foldl_addIf (events : List RenewalEvent) (period : RenewalPeriod)
    : (events.foldl RenewalPeriod.addIf period).quarter = period.quarter
      ∧ (events.foldl RenewalPeriod.addIf period).events
        = period.events ++ events.filter (fun event => period.quarter.contains event.eventDate)
      ∧ (events.foldl RenewalPeriod.addIf period).count
        = period.count
          + (events.filter (fun event => period.quarter.contains event.eventDate)).length := by
  induction events generalizing period with
  | nil => simp
  | cons event rest ih =>
      obtain ⟨hquarter, hevents, hcount⟩ := ih (period.addIf event)
      rw [addIf_quarter] at hquarter hevents hcount
      rw [List.foldl_cons, hquarter, hevents, hcount, List.filter_cons]
      by_cases hhere : period.quarter.contains event.eventDate = true
      · rw [if_pos hhere, RenewalPeriod.addIf, if_pos hhere]
        refine ⟨rfl, ?_, ?_⟩
        · simp [RenewalPeriod.add]
        · simp only [RenewalPeriod.add, List.length_cons]
          omega
      · rw [if_neg hhere, RenewalPeriod.addIf, if_neg hhere]
        exact ⟨rfl, rfl, rfl⟩

/-- The renewals of licences from a day on. -/
def renewalsFrom (u : Unicode) (today : CivilDate) (licenses : List (Nat × License))
    : List RenewalEvent :=
  (licenses.filterMap (renewalEvent u)).filter (fun event => today.ordinal ≤ event.eventDate)

theorem addRenewals_eq {u : Unicode} {today : CivilDate} {licenses : List (Nat × License)}
    {periods : List RenewalPeriod}
    (h : ∀ day, periods.Pairwise (fun period later => period.quarter.contains day = true →
      later.quarter.contains day = false))
    : licenses.foldl (addRenewal u today) periods
      = periods.map (fun period =>
          (renewalsFrom u today licenses).foldl RenewalPeriod.addIf period) := by
  induction licenses generalizing periods with
  | nil => simp [renewalsFrom]
  | cons row rest ih =>
      rw [List.foldl_cons, addRenewal]
      rcases hevent : renewalEvent u row with _ | event
      · dsimp only
        rw [ih h, renewalsFrom, renewalsFrom, List.filterMap_cons_none hevent]
      · dsimp only
        by_cases hpast : event.eventDate < today.ordinal
        · rw [if_pos hpast, ih h, renewalsFrom, renewalsFrom, List.filterMap_cons_some hevent,
            List.filter_cons_of_neg (by simp [hpast])]
        · have hkept : ∀ day, (periods.map (·.addIf event)).Pairwise
              (fun period later => period.quarter.contains day = true →
                later.quarter.contains day = false) := by
            intro day
            rw [List.pairwise_map]
            simpa only [addIf_quarter] using h day
          rw [if_neg hpast, addEvent_eq (h event.eventDate), ih hkept, List.map_map, renewalsFrom,
            renewalsFrom, List.filterMap_cons_some hevent,
            List.filter_cons_of_pos (by simpa using hpast)]
          rfl

-- The report

/-- Four consecutive fiscal quarters from the one of a day on, labelled as such. -/
structure FourQuarters (fiscalMonth : Nat) (today : CivilDate) (quarters : List Quarter) : Prop where
  four : quarters.length = 4
  boundary : ∀ quarter ∈ quarters,
    quarter.first.day = 1 ∧ quarter.first.monthIndex % 3 = (fiscalMonth - 1) % 3
  threeMonths : ∀ quarter ∈ quarters,
    quarter.last.nextDay.day = 1
    ∧ quarter.last.nextDay.monthIndex = quarter.first.monthIndex + 3
  consecutive : ∀ index (h : index + 1 < quarters.length),
    quarters[index].last.nextDay = quarters[index + 1].first
  containsToday : ∀ quarter ∈ quarters.head?, quarter.contains today.ordinal = true
  labels : ∀ quarter ∈ quarters,
    quarter.label = quarterLabel (fiscalQuarter fiscalMonth quarter.first.month) quarter.first.year

/-- Every renewal from a day on up to the end of the last period is counted in one period, and no
other renewal is.
-/
structure RenewalsCounted (today : CivilDate) (renewals : List RenewalEvent)
    (periods : List RenewalPeriod)
    : Prop where
  counts : ∀ period ∈ periods, period.count = period.events.length
  events : ∀ period ∈ periods, period.events
    = renewals.filter (fun event =>
        today.ordinal ≤ event.eventDate ∧ period.quarter.contains event.eventDate = true)
  once : ∀ event ∈ renewals, today.ordinal ≤ event.eventDate →
    (∀ last ∈ periods.getLast?, event.eventDate ≤ last.quarter.last.ordinal) →
    ∃! index : Fin periods.length, event ∈ periods[index].events
  noOther : ∀ period ∈ periods, ∀ event ∈ period.events,
    event ∈ renewals ∧ today.ordinal ≤ event.eventDate
      ∧ ∀ last ∈ periods.getLast?, event.eventDate ≤ last.quarter.last.ordinal

/-- The renewal report is what it says. -/
def RenewalReportRight (u : Unicode) (fiscalMonth : Nat) (today : CivilDate)
    (licenses : List (Nat × License))
    : Prop :=
  ∃ periods, buildRenewalData u fiscalMonth today licenses = some periods
    ∧ FourQuarters fiscalMonth today (periods.map (·.quarter))
    ∧ RenewalsCounted today (licenses.filterMap (renewalEvent u)) periods

theorem length_periodsFrom {fiscalMonth start : Nat} (h : 12 ≤ start)
    : (periodsFrom fiscalMonth start h).length = 4 := by
  rw [periodsFrom, List.length_map, List.length_range]

theorem getElem_periodsFrom {fiscalMonth start index : Nat} (h : 12 ≤ start)
    (hindex : index < (periodsFrom fiscalMonth start h).length)
    : (periodsFrom fiscalMonth start h)[index]
      = periodFrom fiscalMonth (start + 3 * index) (Nat.le_add_right_of_le h) := by
  simp only [periodsFrom, List.getElem_map, List.getElem_range]

theorem periodsFrom_disjoint {fiscalMonth start : Nat} (h : 12 ≤ start) (day : Date)
    : (periodsFrom fiscalMonth start h).Pairwise (fun quarter later =>
        quarter.contains day = true → later.contains day = false) := by
  rw [periodsFrom, List.pairwise_map]
  apply List.pairwise_lt_range.imp
  intro index later hlater hcontains
  rw [contains_periodFrom] at hcontains
  rw [Bool.eq_false_iff, Ne, contains_periodFrom]
  have hstarts := monthStart_le (by omega : 12 ≤ start + 3 * index + 3)
    (by omega : start + 3 * index + 3 ≤ start + 3 * later)
  exact fun hagain =>
    absurd (lt_of_lt_of_le hcontains.2 (le_trans hstarts hagain.1)) (lt_irrefl _)

theorem monthsIntoQuarter_le_monthIndex (fiscalMonth : Nat) (today : CivilDate)
    : monthsIntoQuarter fiscalMonth today ≤ today.monthIndex := by
  have hinto := monthsIntoQuarter_le fiscalMonth today
  have hpos := today.monthIndex_pos
  omega

theorem quarterStart_mod {fiscalMonth : Nat} (hfiscal : 1 ≤ fiscalMonth ∧ fiscalMonth ≤ 12)
    (today : CivilDate)
    : quarterStart fiscalMonth today % 3 = (fiscalMonth - 1) % 3 := by
  have hvalid := today.valid
  have hle := monthsIntoQuarter_le_monthIndex fiscalMonth today
  have hinto : monthsIntoQuarter fiscalMonth today = (today.month + 12 - fiscalMonth) % 3 := by
    rw [monthsIntoQuarter]
    omega
  rw [quarterStart, hinto]
  rw [hinto] at hle
  simp only [CivilDate.monthIndex] at hle ⊢
  omega

theorem contains_today (fiscalMonth : Nat) (today : CivilDate)
    (h : 12 ≤ quarterStart fiscalMonth today)
    : (periodFrom fiscalMonth (quarterStart fiscalMonth today) h).contains today.ordinal
      = true := by
  have hinto := monthsIntoQuarter_le fiscalMonth today
  have hle := monthsIntoQuarter_le_monthIndex fiscalMonth today
  rw [contains_periodFrom, CivilDate.monthStart_le_ordinal_iff h,
    CivilDate.ordinal_lt_monthStart_iff (by omega), quarterStart]
  omega

theorem fourQuarters_periodsFrom {fiscalMonth : Nat} {today : CivilDate}
    (hfiscal : 1 ≤ fiscalMonth ∧ fiscalMonth ≤ 12) (h : 12 ≤ quarterStart fiscalMonth today)
    : FourQuarters fiscalMonth today
        (periodsFrom fiscalMonth (quarterStart fiscalMonth today) h) := by
  have hmod := quarterStart_mod hfiscal today
  have htoday := contains_today fiscalMonth today h
  generalize quarterStart fiscalMonth today = start at *
  have hmem : ∀ quarter ∈ periodsFrom fiscalMonth start h, ∃ index,
      quarter = periodFrom fiscalMonth (start + 3 * index) (Nat.le_add_right_of_le h) := by
    intro quarter hquarter
    obtain ⟨index, -, rfl⟩ := List.mem_map.1 hquarter
    exact ⟨index, rfl⟩
  refine
    {
      four := length_periodsFrom h
      boundary := fun quarter hquarter => ?_
      threeMonths := fun quarter hquarter => ?_
      consecutive := fun index hindex => ?_
      containsToday := fun quarter hquarter => ?_
      labels := fun quarter hquarter => ?_
    }
  · obtain ⟨index, rfl⟩ := hmem quarter hquarter
    refine ⟨rfl, ?_⟩
    rw [periodFrom, CivilDate.monthIndex_firstOfMonth, Nat.add_mul_mod_self_left, hmod]
  · obtain ⟨index, rfl⟩ := hmem quarter hquarter
    rw [last_nextDay, periodFrom, CivilDate.monthIndex_firstOfMonth,
      CivilDate.monthIndex_firstOfMonth]
    exact ⟨rfl, rfl⟩
  · rw [getElem_periodsFrom, getElem_periodsFrom, last_nextDay]
    simp only [periodFrom, Nat.mul_add, Nat.mul_one, Nat.add_assoc]
  · have hhead : (periodsFrom fiscalMonth start h).head? = some (periodFrom fiscalMonth start h) :=
      rfl
    rw [hhead, Option.mem_some_iff] at hquarter
    rw [← hquarter]
    exact htoday
  · obtain ⟨index, rfl⟩ := hmem quarter hquarter
    rfl

/-- The report of periods with the renewals in them. -/
def filledPeriods (u : Unicode) (today : CivilDate) (licenses : List (Nat × License))
    (quarters : List Quarter)
    : List RenewalPeriod :=
  quarters.map (fun quarter =>
    (renewalsFrom u today licenses).foldl RenewalPeriod.addIf { quarter })

theorem buildRenewalData_eq {u : Unicode} {fiscalMonth : Nat} {today : CivilDate}
    {licenses : List (Nat × License)} (hfiscal : 1 ≤ fiscalMonth ∧ fiscalMonth ≤ 12)
    : buildRenewalData u fiscalMonth today licenses
      = if h : 12 ≤ reportStart fiscalMonth today
          ∧ reportStart fiscalMonth today + 12 < 12 * (dateMaxYear + 1) then
          some (filledPeriods u today licenses
            (periodsFrom fiscalMonth (reportStart fiscalMonth today) h.1))
        else none := by
  rw [buildRenewalData, renewalQuarters_eq hfiscal]
  by_cases h : 12 ≤ reportStart fiscalMonth today
      ∧ reportStart fiscalMonth today + 12 < 12 * (dateMaxYear + 1)
  · rw [dif_pos h, dif_pos h, Option.map_some, addRenewals_eq, filledPeriods, List.map_map]
    · rfl
    · intro day
      rw [List.pairwise_map]
      exact periodsFrom_disjoint h.1 day
  · rw [dif_neg h, dif_neg h]
    rfl

theorem filledPeriods_quarters (u : Unicode) (today : CivilDate) (licenses : List (Nat × License))
    (quarters : List Quarter)
    : (filledPeriods u today licenses quarters).map (·.quarter) = quarters := by
  rw [filledPeriods, List.map_map]
  conv_rhs => rw [← List.map_id quarters]
  exact List.map_congr_left (fun quarter _ => (foldl_addIf _ _).1)

theorem getElem_filledPeriods {u : Unicode} {today : CivilDate} {licenses : List (Nat × License)}
    {quarters : List Quarter} {index : Nat}
    (h : index < (filledPeriods u today licenses quarters).length)
    : ∃ hindex : index < quarters.length,
      (filledPeriods u today licenses quarters)[index].quarter = quarters[index]
      ∧ (filledPeriods u today licenses quarters)[index].events
        = (licenses.filterMap (renewalEvent u)).filter (fun event =>
            today.ordinal ≤ event.eventDate ∧ quarters[index].contains event.eventDate = true)
      ∧ (filledPeriods u today licenses quarters)[index].count
        = (filledPeriods u today licenses quarters)[index].events.length := by
  have hindex : index < quarters.length := by simpa [filledPeriods] using h
  simp only [filledPeriods, List.getElem_map]
  obtain ⟨hquarter, hevents, hcount⟩ :=
    foldl_addIf (renewalsFrom u today licenses) { quarter := quarters[index] }
  refine ⟨hindex, hquarter, ?_, ?_⟩
  · rw [hevents, List.nil_append, renewalsFrom, List.filter_filter]
    apply List.filter_congr
    intro event _
    simp [Bool.and_comm]
  · rw [hevents, hcount, List.nil_append, Nat.zero_add]

theorem exists_period {start : Nat} {day : Date}
    (hfrom : monthStart start ≤ day) (hto : day < monthStart (start + 12))
    : ∃ index, index < 4
      ∧ monthStart (start + 3 * index) ≤ day ∧ day < monthStart (start + 3 * index + 3) := by
  by_cases hfirst : day < monthStart (start + 3)
  · exact ⟨0, by decide, hfrom, hfirst⟩
  by_cases hsecond : day < monthStart (start + 6)
  · exact ⟨1, by decide, Nat.le_of_not_lt hfirst, hsecond⟩
  by_cases hthird : day < monthStart (start + 9)
  · exact ⟨2, by decide, Nat.le_of_not_lt hsecond, hthird⟩
  · exact ⟨3, by decide, Nat.le_of_not_lt hthird, hto⟩

/-- Periods that hold the renewals that lie in them count every renewal once. -/
theorem renewalsCounted_of_places {fiscalMonth start : Nat} {today : CivilDate}
    {renewals : List RenewalEvent} {periods : List RenewalPeriod} (h : 12 ≤ start)
    (htoday : monthStart start ≤ today.ordinal) (hlength : periods.length = 4)
    (hplace : ∀ index (hindex : index < periods.length),
      periods[index].quarter
        = periodFrom fiscalMonth (start + 3 * index) (Nat.le_add_right_of_le h)
      ∧ periods[index].events = renewals.filter (fun event =>
          today.ordinal ≤ event.eventDate ∧ periods[index].quarter.contains event.eventDate = true)
      ∧ periods[index].count = periods[index].events.length)
    : RenewalsCounted today renewals periods := by
  have hlies : ∀ index (hindex : index < periods.length) day,
      periods[index].quarter.contains day = true
        ↔ monthStart (start + 3 * index) ≤ day ∧ day < monthStart (start + 3 * index + 3) := by
    intro index hindex day
    rw [(hplace index hindex).1, contains_periodFrom]
  have hthree : 3 < periods.length := by omega
  have hfinal : periods.getLast? = some periods[3] := by
    have hindex : periods.length - 1 = 3 := by omega
    rw [List.getLast?_eq_getElem?, hindex, List.getElem?_eq_getElem hthree]
  have hlast : ∀ last ∈ periods.getLast?, ∀ day,
      day ≤ last.quarter.last.ordinal ↔ day < monthStart (start + 12) := by
    intro last hmem day
    rw [hfinal, Option.mem_some_iff] at hmem
    have hnext := congrArg CivilDate.ordinal
      (@last_nextDay fiscalMonth (start + 3 * 3) (Nat.le_add_right_of_le h))
    rw [CivilDate.ordinal_nextDay, CivilDate.ordinal_firstOfMonth] at hnext
    rw [← hmem, (hplace 3 hthree).1, ← Nat.lt_succ_iff, Nat.succ_eq_add_one, hnext]
  refine
    {
      counts := fun period hmem => ?_
      events := fun period hmem => ?_
      once := fun event hevent hfrom hto => ?_
      noOther := fun period hmem event hevent => ?_
    }
  · obtain ⟨index, hindex, rfl⟩ := List.getElem_of_mem hmem
    exact (hplace index hindex).2.2
  · obtain ⟨index, hindex, rfl⟩ := List.getElem_of_mem hmem
    exact (hplace index hindex).2.1
  · have hbefore := (hlast _ hfinal _).1 (hto _ hfinal)
    obtain ⟨index, hindex, hlow, hhigh⟩ := exists_period (le_trans htoday hfrom) hbefore
    have hmem : ∀ other : Fin periods.length, event ∈ periods[other].events
        ↔ monthStart (start + 3 * other) ≤ event.eventDate
          ∧ event.eventDate < monthStart (start + 3 * other + 3) := by
      intro other
      rw [Fin.getElem_fin, (hplace other other.isLt).2.1, List.mem_filter, decide_eq_true_iff,
        hlies other other.isLt]
      exact ⟨fun hin => hin.2.2, fun hin => ⟨hevent, hfrom, hin⟩⟩
    refine ⟨⟨index, by omega⟩, (hmem _).2 ⟨hlow, hhigh⟩, fun other hother => ?_⟩
    obtain ⟨hlow', hhigh'⟩ := (hmem other).1 hother
    -- Of two periods the later one starts when the earlier one is over.
    have hleft : ¬ index < (other : Nat) := fun hlt =>
      absurd (lt_of_lt_of_le hhigh (le_trans (monthStart_le (by omega) (by omega)) hlow'))
        (lt_irrefl _)
    have hright : ¬ (other : Nat) < index := fun hlt =>
      absurd (lt_of_lt_of_le hhigh' (le_trans (monthStart_le (by omega) (by omega)) hlow))
        (lt_irrefl _)
    exact Fin.ext (by simp only; omega)
  · obtain ⟨index, hindex, rfl⟩ := List.getElem_of_mem hmem
    rw [(hplace index hindex).2.1, List.mem_filter, decide_eq_true_iff, hlies index hindex] at hevent
    obtain ⟨hin, hfrom, -, hhigh⟩ := hevent
    refine ⟨hin, hfrom, fun last hfinal => (hlast last hfinal _).2 ?_⟩
    exact lt_of_lt_of_le hhigh (monthStart_le (by omega) (by omega))

theorem renewalsCounted_filledPeriods {u : Unicode} {fiscalMonth start : Nat} {today : CivilDate}
    {licenses : List (Nat × License)} (h : 12 ≤ start) (htoday : monthStart start ≤ today.ordinal)
    : RenewalsCounted today (licenses.filterMap (renewalEvent u))
        (filledPeriods u today licenses (periodsFrom fiscalMonth start h)) := by
  apply renewalsCounted_of_places h htoday
  · rw [filledPeriods, List.length_map, length_periodsFrom]
  · intro index hindex
    obtain ⟨hbound, hquarter, hevents, hcount⟩ := getElem_filledPeriods hindex
    rw [hquarter, getElem_periodsFrom h hbound]
    rw [getElem_periodsFrom h hbound] at hevents
    exact ⟨rfl, hevents, hcount⟩

theorem RenewalReportRight.years {u : Unicode} {fiscalMonth : Nat} {today : CivilDate}
    {licenses : List (Nat × License)} (hfiscal : 1 ≤ fiscalMonth ∧ fiscalMonth ≤ 12)
    (h : RenewalReportRight u fiscalMonth today licenses)
    : YearIsRight fiscalMonth today
      ∧ 12 ≤ quarterStart fiscalMonth today
      ∧ quarterStart fiscalMonth today + 12 < 12 * (dateMaxYear + 1) := by
  obtain ⟨periods, hbuilt, hquarters, -⟩ := h
  have hle := monthsIntoQuarter_le_monthIndex fiscalMonth today
  have hinto := monthsIntoQuarter_le fiscalMonth today
  rw [buildRenewalData_eq hfiscal] at hbuilt
  by_cases hyears : 12 ≤ reportStart fiscalMonth today
      ∧ reportStart fiscalMonth today + 12 < 12 * (dateMaxYear + 1)
  · rw [dif_pos hyears] at hbuilt
    obtain rfl := Option.some.inj hbuilt
    rw [filledPeriods_quarters] at hquarters
    have htoday := hquarters.containsToday
      (periodFrom fiscalMonth (reportStart fiscalMonth today) hyears.1) rfl
    rw [contains_periodFrom, CivilDate.monthStart_le_ordinal_iff hyears.1] at htoday
    by_cases hright : YearIsRight fiscalMonth today
    · rw [reportStart_of_right hfiscal hright] at hyears
      exact ⟨hright, hyears⟩
    · have hlate := htoday.1
      rw [reportStart_of_wrong hfiscal hright, quarterStart] at hlate
      omega
  · rw [dif_neg hyears] at hbuilt
    cases hbuilt

/-- The renewal report is right exactly where its year is, and its periods lie in the years that the
service knows.
-/
theorem renewalReport_right_iff {u : Unicode} {fiscalMonth : Nat} {today : CivilDate}
    {licenses : List (Nat × License)} (hfiscal : 1 ≤ fiscalMonth ∧ fiscalMonth ≤ 12)
    : RenewalReportRight u fiscalMonth today licenses
      ↔ YearIsRight fiscalMonth today
        ∧ 12 ≤ quarterStart fiscalMonth today
        ∧ quarterStart fiscalMonth today + 12 < 12 * (dateMaxYear + 1) := by
  constructor
  · exact RenewalReportRight.years hfiscal
  · rintro ⟨hright, hyears⟩
    have hstart := reportStart_of_right hfiscal hright
    refine ⟨_, (buildRenewalData_eq hfiscal).trans (dif_pos (by rwa [hstart])), ?_, ?_⟩
    · rw [filledPeriods_quarters]
      simp only [hstart]
      exact fourQuarters_periodsFrom hfiscal hyears.1
    · simp only [hstart]
      apply renewalsCounted_filledPeriods hyears.1
      rw [CivilDate.monthStart_le_ordinal_iff hyears.1, quarterStart]
      exact Nat.sub_le _ _

/-- A subscription that ends on 31 March 2026. -/
def endingSubscription : License :=
  .ofTerm .subscription (some (CivilDate.ordinal ⟨2025, 4, 1, by decide⟩))
    (some (CivilDate.ordinal ⟨2026, 3, 31, by decide⟩))

/-- In May the fiscal year that starts in April has begun in the calendar year. -/
theorem renewalReport_inMay
    : (1 ≤ 4 ∧ 4 ≤ 12)
      ∧ (RenewalReportRight .ascii 4 ⟨2026, 5, 10, by decide⟩ [(1, endingSubscription)]
        ↔ YearIsRight 4 ⟨2026, 5, 10, by decide⟩
          ∧ 12 ≤ quarterStart 4 ⟨2026, 5, 10, by decide⟩
          ∧ quarterStart 4 ⟨2026, 5, 10, by decide⟩ + 12 < 12 * (dateMaxYear + 1)) :=
  ⟨by decide, renewalReport_right_iff (by decide)⟩

/-- In February the report starts with the next February's quarter, and misses the renewals of this
one.
-/
theorem renewalReport_inFebruary
    : reportStart 4 ⟨2026, 2, 10, by decide⟩ = 12 * 2027
      ∧ ¬ RenewalReportRight .ascii 4 ⟨2026, 2, 10, by decide⟩ [(1, endingSubscription)] := by
  refine ⟨by decide, fun h => ?_⟩
  exact (h.years (by decide)).1 (by decide)

end Report

end LicenseTrack
