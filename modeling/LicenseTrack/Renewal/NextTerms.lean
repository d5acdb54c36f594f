import LicenseTrack.Services.NextTerms

/-! The three proposals of a next term agree, and repeated terms keep to the anniversaries of the
first one, exactly where 29 February, the first century and the last day of the calendar do not
come between.
-/

namespace LicenseTrack

open Library

/-- A way to propose the term after one that has ended: the renewal of support, of a licence, and
the next line in the form.
-/
inductive TermProposal
  | support
  | continuation (license : License)
  | nextLine (item : SourcingItem)

/-- Licences are continued annually for some types only. -/
def TermProposal.Applies : TermProposal → Prop
  | .continuation license => license.licenseType.continuesAnnually = true
  | _ => True

/-- The term proposed after a last day; none when it raises or proposes none. -/
def TermProposal.term? (previousEnd : CivilDate) : TermProposal → Option (Date × Date)
  | .support =>
      (nextSupportTerm previousEnd).map (fun term => (term.1.ordinal, term.2.ordinal))
  | .continuation license =>
      let term := suggestAnnualContinuationTerm gregorian
        { license with endDate := some previousEnd.ordinal }
      term.1.bind (fun start => term.2.map (fun finish => (start, finish)))
  | .nextLine item =>
      let draft := nextTermDraft { item with endDate := some previousEnd.ordinal }
      draft.startDate.bind (fun start => draft.endDate.map (fun finish => (start, finish)))

/-- A term starts the day after the last day before it and ends the day before its anniversary. -/
structure Follows (previousEnd : CivilDate) (term : CivilDate × CivilDate) : Prop where
  starts : term.1 = previousEnd.nextDay
  ends : term.2.nextDay = term.1.afterYears 1

/-- The last days after which the proposals agree. -/
structure Regular (previousEnd : CivilDate) : Prop where
  leap : ¬ (previousEnd.month = 2 ∧ previousEnd.day = 28
    ∧ isLeapYear (previousEnd.year + 1) = true)
  first : 99 ≤ previousEnd.year
  last : ¬ (previousEnd.year = 9998 ∧ previousEnd.month = 12 ∧ previousEnd.day = 31)

-- Days and years

theorem nextDay_year (date : CivilDate)
    : date.nextDay.year
      = if date.month = 12 ∧ date.day = 31 then date.year + 1 else date.year := by
  have hvalid := date.valid
  by_cases hday : date.day < daysInMonth date.year date.month
  · have hle := daysInMonth_le date.year date.month
    simp only [CivilDate.nextDay, dif_pos hday]
    rw [if_neg (by omega)]
  · by_cases hmonth : date.month < 12
    · simp only [CivilDate.nextDay, dif_neg hday, dif_pos hmonth]
      rw [if_neg (by omega)]
    · have hdecember : date.month = 12 := by omega
      have hdays : daysInMonth date.year date.month = 31 := by rw [hdecember]; rfl
      simp only [CivilDate.nextDay, dif_neg hday, dif_neg hmonth]
      rw [if_pos (by omega)]

theorem dayBefore?_eq_some {date before : CivilDate} (h : dayBefore? date = some before)
    : before.nextDay = date := by
  unfold dayBefore? at h
  split at h
  · cases h
    apply CivilDate.ordinal_injective
    rw [CivilDate.ordinal_nextDay, CivilDate.ordinal_ofOrdinal (by omega)]
    omega
  · cases h

/-- The same day of the next year, or the last day of the month where there is none. -/
def clippedNextYear (date : CivilDate) : CivilDate :=
  ⟨date.year + 1, date.month, min date.day (daysInMonth (date.year + 1) date.month), by
    have := date.valid
    have := daysInMonth_pos (date.year + 1) date.month
    omega⟩

/-- The clipped day ends the year that starts the day after a date, unless the date is the last of a
February that is longer a year later.
-/
theorem clippedNextYear_nextDay_iff (date : CivilDate)
    : (clippedNextYear date).nextDay = date.nextDay.afterYears 1
      ↔ ¬ (date.month = 2 ∧ date.day = 28 ∧ isLeapYear (date.year + 1) = true) := by
  have hvalid := date.valid
  by_cases hday : date.day < daysInMonth date.year date.month
  · -- The month goes on after the date: only the missing 29 February needs a look.
    have hregular : ¬ (date.month = 2 ∧ date.day = 28 ∧ isLeapYear (date.year + 1) = true) := by
      rintro ⟨hmonth, htwentyeight, hleap⟩
      rw [hmonth, htwentyeight] at hday
      cases hthis : isLeapYear date.year with
      | true => rw [isLeapYear_succ hthis] at hleap; cases hleap
      | false => simp [daysInMonth, hthis] at hday
    refine iff_of_true ?_ hregular
    rw [CivilDate.nextDay_of_lt hday]
    by_cases hsame : date.day + 1 ≤ daysInMonth (date.year + 1) date.month
    · have hmin : min date.day (daysInMonth (date.year + 1) date.month) = date.day := by omega
      simp only [CivilDate.afterYears, dif_pos hsame]
      simp only [CivilDate.nextDay, clippedNextYear, hmin, dif_pos (Nat.lt_of_succ_le hsame)]
    · have hnone := (@CivilDate.no_anniversary_iff date.nextDay (date.year + 1)).1
        (by rwa [CivilDate.nextDay_of_lt hday])
      rw [CivilDate.nextDay_of_lt hday] at hnone
      obtain ⟨hmonth, htwentynine, hcommon⟩ : date.month = 2 ∧ date.day + 1 = 29
          ∧ isLeapYear (date.year + 1) = false := hnone
      simp only [CivilDate.afterYears, dif_neg hsame]
      simp [CivilDate.nextDay, clippedNextYear, hmonth, daysInMonth, hcommon]
      omega
  · have hlast : date.day = daysInMonth date.year date.month := by omega
    rw [CivilDate.nextDay_of_last hlast, CivilDate.firstOfMonth_afterYears]
    by_cases hlonger : date.day < daysInMonth (date.year + 1) date.month
    · -- A month that is longer in the next year is a February of 29 days.
      have hmin : min date.day (daysInMonth (date.year + 1) date.month) = date.day := by omega
      refine iff_of_false ?_ (not_not.2 ?_)
      · intro heq
        have hdays := congrArg CivilDate.day heq
        simp only [CivilDate.nextDay, clippedNextYear, hmin, dif_pos hlonger,
          CivilDate.firstOfMonth] at hdays
        omega
      · have hmonth : date.month = 2 := by
          by_contra hother
          rw [hlast, daysInMonth_eq_of_ne hother date.year (date.year + 1)] at hlonger
          exact lt_irrefl _ hlonger
        rw [hmonth] at hlast hlonger
        simp only [daysInMonth, if_true] at hlast hlonger
        cases hleap : isLeapYear (date.year + 1) <;> simp [hleap] at hlonger ⊢ <;>
          split at hlast <;> omega
    · have hmin : min date.day (daysInMonth (date.year + 1) date.month)
          = daysInMonth (date.year + 1) date.month := by omega
      refine iff_of_true ?_ ?_
      · rw [CivilDate.nextDay_of_last hmin]
        congr 1
        simp only [CivilDate.monthIndex, clippedNextYear]
        omega
      · rintro ⟨hmonth, htwentyeight, hleap⟩
        simp [hmonth, htwentyeight, daysInMonth, hleap] at hlonger

-- Each proposal

theorem supportTermEnd?_of_year {start : CivilDate} (h : start.year < dateMaxYear)
    : supportTermEnd? start = dayBefore? (start.afterYears 1) := by
  have hvalid := start.valid
  by_cases hsame : start.day ≤ daysInMonth (start.year + 1) start.month
  · have hreplaced : civilDate? (start.year + 1) start.month start.day
        = some (start.afterYears 1) := by
      rw [civilDate?, dif_pos ⟨h, by omega⟩, CivilDate.afterYears, dif_pos hsame]
    simp only [supportTermEnd?, hreplaced, Option.bind_some]
  · obtain ⟨hmonth, hday, hcommon⟩ := CivilDate.no_anniversary_iff.1 hsame
    have hnone : civilDate? (start.year + 1) start.month start.day = none := by
      rw [civilDate?, dif_neg (by omega)]
    have hdays : daysInMonth (start.year + 1) 2 = 28 := by simp [daysInMonth, hcommon]
    have hmarch : (civilDate? (start.year + 1) start.month 28).bind dayAfter?
        = some (start.afterYears 1) := by
      rw [hmonth, civilDate?, dif_pos ⟨h, by omega⟩, CivilDate.afterYears, dif_neg hsame]
      simp only [Option.bind_some, dayAfter?, CivilDate.nextDay, hdays, lt_self_iff_false,
        dif_neg not_false, Nat.reduceLT, dif_pos]
      exact if_pos h
    simp only [supportTermEnd?, hnone, hmarch, Option.bind_some]

theorem nextSupportTerm_of_year {previousEnd : CivilDate}
    (h : previousEnd.nextDay.year < dateMaxYear)
    : ∃ term, nextSupportTerm previousEnd = some term ∧ Follows previousEnd term := by
  have hstart : dayAfter? previousEnd = some previousEnd.nextDay := by
    rw [dayAfter?, if_pos h.le]
  have hlater : 1 < (previousEnd.nextDay.afterYears 1).ordinal := by
    have hpos := monthStart_lt (le_refl 12)
      (j := (previousEnd.nextDay.afterYears 1).monthIndex) (by
        have hvalid := previousEnd.nextDay.valid
        have hyear := CivilDate.afterYears_year previousEnd.nextDay 1
        simp only [CivilDate.monthIndex, hyear]
        omega)
    have hfirst : monthStart 12 = 1 := by decide
    rw [CivilDate.ordinal]
    omega
  have hend : supportTermEnd? previousEnd.nextDay = some (CivilDate.ofOrdinal
      ((previousEnd.nextDay.afterYears 1).ordinal - 1)) := by
    rw [supportTermEnd?_of_year h, dayBefore?, if_pos hlater]
  refine ⟨(previousEnd.nextDay,
    CivilDate.ofOrdinal ((previousEnd.nextDay.afterYears 1).ordinal - 1)), ?_, rfl,
    dayBefore?_eq_some (by rw [dayBefore?, if_pos hlater])⟩
  simp only [nextSupportTerm, hstart, hend, Option.bind_eq_bind, Option.bind_some, Option.pure_def]

theorem nextSupportTerm_of_last {previousEnd : CivilDate}
    (h : previousEnd.nextDay.year = dateMaxYear)
    : nextSupportTerm previousEnd = none := by
  have hstart : dayAfter? previousEnd = some previousEnd.nextDay := by
    rw [dayAfter?, if_pos h.le]
  have hnone : ∀ day, civilDate? (previousEnd.nextDay.year + 1) previousEnd.nextDay.month day
      = none := by
    intro day
    rw [civilDate?, dif_neg (by omega)]
  simp [nextSupportTerm, hstart, supportTermEnd?, hnone]

theorem continuationEnd?_of_year {previousEnd : CivilDate} (h : previousEnd.year < dateMaxYear)
    : continuationEnd? previousEnd = some (clippedNextYear previousEnd) := by
  have hvalid := previousEnd.valid
  rw [continuationEnd?, if_neg h.ne]
  by_cases hsame : previousEnd.day ≤ daysInMonth (previousEnd.year + 1) previousEnd.month
  · have hclipped : clippedNextYear previousEnd
        = ⟨previousEnd.year + 1, previousEnd.month, previousEnd.day, by omega⟩ := by
      simp only [clippedNextYear, min_eq_left hsame]
    rw [civilDate?, dif_pos ⟨h, by omega⟩, hclipped]
  · obtain ⟨hmonth, hday, hcommon⟩ := CivilDate.no_anniversary_iff.1 hsame
    have hdays : daysInMonth (previousEnd.year + 1) previousEnd.month = 28 := by
      simp [hmonth, daysInMonth, hcommon]
    have hclipped : clippedNextYear previousEnd
        = ⟨previousEnd.year + 1, previousEnd.month, 28, by omega⟩ := by
      simp only [clippedNextYear, hdays, hday]
      rfl
    rw [civilDate?, dif_neg (by omega), civilDate?, dif_pos ⟨h, by omega⟩, hclipped]

theorem nextYearDate_of_year {date : CivilDate} (h : 99 ≤ date.year)
    : nextYearDate date = clippedNextYear date := by
  have hyear : utcYear (date.year + 1) = date.year + 1 := by
    rw [utcYear, if_neg (by omega)]
  simp only [nextYearDate, clippedNextYear, hyear]

theorem nextYearDate_ne {date : CivilDate} (h : date.year < 99)
    : nextYearDate date ≠ clippedNextYear date := by
  intro heq
  have hyears := congrArg CivilDate.year heq
  simp only [nextYearDate, clippedNextYear, utcYear] at hyears
  split at hyears <;> omega

-- The proposals together

/-- A term by the ordinal numbers of its days. -/
def ordinals (term : CivilDate × CivilDate) : Date × Date := (term.1.ordinal, term.2.ordinal)

theorem ordinals_injective : Function.Injective ordinals := by
  intro first second h
  have hstart := CivilDate.ordinal_injective (congrArg Prod.fst h)
  have hend := CivilDate.ordinal_injective (congrArg Prod.snd h)
  exact Prod.ext hstart hend

theorem follows_unique {previousEnd : CivilDate} {first second : CivilDate × CivilDate}
    (hfirst : Follows previousEnd first) (hsecond : Follows previousEnd second)
    : first = second := by
  have hstart : first.1 = second.1 := hfirst.starts.trans hsecond.starts.symm
  have hend : first.2.nextDay = second.2.nextDay := by
    rw [hfirst.ends, hsecond.ends, hstart]
  exact Prod.ext hstart (CivilDate.nextDay_injective hend)

theorem term?_continuation {previousEnd : CivilDate} {license : License}
    (htype : license.licenseType.continuesAnnually = true) (h : previousEnd.year < dateMaxYear)
    : (TermProposal.continuation license).term? previousEnd
      = some (ordinals (previousEnd.nextDay, clippedNextYear previousEnd)) := by
  have hnext : gregorian.sameDayNextYear previousEnd.ordinal
      = some (clippedNextYear previousEnd).ordinal := by
    simp only [gregorian, CivilDate.ofOrdinal_ordinal, continuationEnd?_of_year h, Option.map_some]
  simp only [TermProposal.term?, suggestAnnualContinuationTerm, if_pos htype, hnext,
    Option.bind_some, Option.map_some, ordinals, CivilDate.ordinal_nextDay]

theorem term?_nextLine (previousEnd : CivilDate) (item : SourcingItem)
    : (TermProposal.nextLine item).term? previousEnd
      = some (ordinals (previousEnd.nextDay, nextYearDate previousEnd)) := by
  simp only [TermProposal.term?, nextTermDraft, CivilDate.ofOrdinal_ordinal, Option.map_some,
    Option.bind_some, ordinals]

theorem Regular.term? {previousEnd : CivilDate} (hregular : Regular previousEnd)
    (hyear : previousEnd.year < dateMaxYear)
    : ∃ term, Follows previousEnd term
      ∧ ∀ proposal : TermProposal, proposal.Applies →
        proposal.term? previousEnd = some (ordinals term) := by
  have hnext : previousEnd.nextDay.year < dateMaxYear := by
    have hlast := hregular.last
    rw [nextDay_year]
    simp only [dateMaxYear] at hyear ⊢
    split <;> omega
  obtain ⟨term, hterm, hfollows⟩ := nextSupportTerm_of_year hnext
  have hclipped : Follows previousEnd (previousEnd.nextDay, clippedNextYear previousEnd) :=
    ⟨rfl, (clippedNextYear_nextDay_iff previousEnd).2 hregular.leap⟩
  refine ⟨term, hfollows, fun proposal happlies => ?_⟩
  cases proposal with
  | support => simp only [TermProposal.term?, hterm, Option.map_some, ordinals]
  | continuation license =>
      rw [term?_continuation happlies hyear, follows_unique hfollows hclipped]
  | nextLine item =>
      rw [term?_nextLine, nextYearDate_of_year hregular.first, follows_unique hfollows hclipped]

/-- Terms proposed one after the other. -/
def repeatedTerms (previousEnd : CivilDate) : List TermProposal → Option (List (Date × Date))
  | [] => some []
  | proposal :: rest =>
      (proposal.term? previousEnd).bind (fun term =>
        (repeatedTerms (CivilDate.ofOrdinal term.2) rest).map (fun later => term :: later))

/-- Every proposal of a run is made after a regular day. -/
def RegularRun (previousEnd : CivilDate) : List TermProposal → Prop
  | [] => True
  | proposal :: rest =>
      previousEnd.year < dateMaxYear ∧ Regular previousEnd
        ∧ ∀ term, proposal.term? previousEnd = some term →
          RegularRun (CivilDate.ofOrdinal term.2) rest

theorem Regular.afterYears_succ {previousEnd origin : CivilDate} {years : Nat}
    (hregular : Regular previousEnd) (hnext : previousEnd.nextDay = origin.afterYears years)
    : previousEnd.nextDay.afterYears 1 = origin.afterYears (years + 1) := by
  rw [hnext]
  apply CivilDate.afterYears_succ
  rintro ⟨hmonth, hday, hcommon, hleap⟩
  -- The anniversary was 1 March, so the term before it ended on 28 February.
  have hyear := origin.valid.1
  have hdays : daysInMonth (origin.year + years) 2 = 28 := by simp [daysInMonth, hcommon]
  have hmissed := CivilDate.no_anniversary_iff.2 ⟨hmonth, hday, hcommon⟩
  have hfebruary : previousEnd = ⟨origin.year + years, 2, 28, by omega⟩ := by
    apply CivilDate.nextDay_injective
    rw [hnext, CivilDate.afterYears, dif_neg hmissed]
    simp [CivilDate.nextDay, hdays]
  exact hregular.leap (by rw [hfebruary]; exact ⟨rfl, rfl, hleap⟩)

theorem repeatedTerms_of_regular {proposals : List TermProposal} {previousEnd origin : CivilDate}
    {years : Nat} (happlies : ∀ proposal ∈ proposals, proposal.Applies)
    (hregular : RegularRun previousEnd proposals)
    (hnext : previousEnd.nextDay = origin.afterYears years)
    : ∃ terms : List (CivilDate × CivilDate),
      repeatedTerms previousEnd proposals = some (terms.map ordinals)
      ∧ terms.length = proposals.length
      ∧ ∀ index (h : index < terms.length),
        terms[index].1 = origin.afterYears (years + index)
        ∧ terms[index].2.nextDay = origin.afterYears (years + index + 1) := by
  induction proposals generalizing previousEnd years with
  | nil => exact ⟨[], rfl, rfl, fun index h => absurd h (Nat.not_lt_zero index)⟩
  | cons proposal rest ih =>
      obtain ⟨hyear, hhere, hlater⟩ := hregular
      obtain ⟨term, hfollows, hterm⟩ := hhere.term? hyear
      have hproposed := hterm proposal (happlies proposal List.mem_cons_self)
      have hends : term.2.nextDay = origin.afterYears (years + 1) := by
        rw [hfollows.ends, hfollows.starts, hhere.afterYears_succ hnext]
      obtain ⟨terms, hterms, hlength, hplaces⟩ :=
        ih (fun other hmem => happlies other (List.mem_cons_of_mem _ hmem))
          (by simpa only [ordinals, CivilDate.ofOrdinal_ordinal] using hlater _ hproposed) hends
      refine ⟨term :: terms, ?_, by simp [hlength], ?_⟩
      · simp only [repeatedTerms, hproposed, Option.bind_some, ordinals,
          CivilDate.ofOrdinal_ordinal, hterms, Option.map_some, List.map_cons]
      · intro index h
        cases index with
        | zero => exact ⟨hfollows.starts.trans hnext, hends⟩
        | succ index =>
            have hplace := hplaces index (by simpa using h)
            simpa only [List.getElem_cons_succ, Nat.add_assoc, Nat.add_comm 1] using hplace

/-- The three ways propose the same term, which follows a last day. -/
def ProposalsAgree (previousEnd : CivilDate) (license : License) (item : SourcingItem) : Prop :=
  ∃ term, Follows previousEnd term
    ∧ TermProposal.support.term? previousEnd = some (ordinals term)
    ∧ (TermProposal.continuation license).term? previousEnd = some (ordinals term)
    ∧ (TermProposal.nextLine item).term? previousEnd = some (ordinals term)

theorem ProposalsAgree.regular {previousEnd : CivilDate} {license : License} {item : SourcingItem}
    (htype : license.licenseType.continuesAnnually = true)
    (hyear : previousEnd.year < dateMaxYear) (h : ProposalsAgree previousEnd license item)
    : Regular previousEnd := by
  obtain ⟨term, hfollows, hsupport, hcontinuation, hline⟩ := h
  rw [term?_continuation htype hyear] at hcontinuation
  have hterm := ordinals_injective (Option.some.inj hcontinuation)
  rw [term?_nextLine] at hline
  have hdraft := ordinals_injective (Option.some.inj hline)
  refine ⟨?_, ?_, ?_⟩
  · rw [← clippedNextYear_nextDay_iff]
    have hends := hfollows.ends
    rwa [← hterm] at hends
  · by_contra hfirst
    exact nextYearDate_ne (Nat.lt_of_not_le hfirst) (congrArg Prod.snd (hdraft.trans hterm.symm))
  · rintro ⟨hlast, hmonth, hday⟩
    have hnone : nextSupportTerm previousEnd = none :=
      nextSupportTerm_of_last (by rw [nextDay_year, if_pos ⟨hmonth, hday⟩, hlast]; rfl)
    rw [TermProposal.term?, hnone] at hsupport
    cases hsupport

/-- The proposals agree on the term that follows exactly after the regular days, and then terms that
are repeated keep to the anniversaries of the first one.
-/
theorem proposalsAgree_iff_regular {license : License} {item : SourcingItem}
    (htype : license.licenseType.continuesAnnually = true)
    : (∀ previousEnd : CivilDate, previousEnd.year < dateMaxYear →
        (ProposalsAgree previousEnd license item ↔ Regular previousEnd))
      ∧ ∀ (previousEnd : CivilDate) (proposals : List TermProposal),
        (∀ proposal ∈ proposals, proposal.Applies) → RegularRun previousEnd proposals →
        ∃ terms : List (CivilDate × CivilDate),
          repeatedTerms previousEnd proposals = some (terms.map ordinals)
          ∧ terms.length = proposals.length
          ∧ ∀ index (h : index < terms.length),
            terms[index].1 = previousEnd.nextDay.afterYears index
            ∧ terms[index].2.nextDay = previousEnd.nextDay.afterYears (index + 1) := by
  constructor
  · intro previousEnd hyear
    constructor
    · exact ProposalsAgree.regular htype hyear
    · intro hregular
      obtain ⟨term, hfollows, hterm⟩ := hregular.term? hyear
      exact ⟨term, hfollows, hterm .support trivial, hterm (.continuation license) htype,
        hterm (.nextLine item) trivial⟩
  · intro previousEnd proposals happlies hregular
    have hterms := repeatedTerms_of_regular happlies hregular
      (CivilDate.afterYears_zero previousEnd.nextDay).symm
    simpa only [Nat.zero_add] using hterms

/-- A subscription of one year. -/
def yearlySubscription : License := .ofTerm .subscription (some 1) (some 365)

/-- A line of a request. -/
def plainLine : SourcingItem := { publisherName := "Acme", softwareDescription := "Editor" }

/-- The end of February in the year before a leap year. -/
def februaryEnd : CivilDate := ⟨2027, 2, 28, by decide⟩

/-- The end of the year 2026. -/
def decemberEnd : CivilDate := ⟨2026, 12, 31, by decide⟩

theorem proposalsAgree_decemberEnd
    : yearlySubscription.licenseType.continuesAnnually = true
      ∧ (ProposalsAgree decemberEnd yearlySubscription plainLine ↔ Regular decemberEnd) :=
  ⟨by decide, (proposalsAgree_iff_regular (by decide)).1 decemberEnd (by decide)⟩

/-- After 28 February 2027 support is proposed up to 29 February 2028, a subscription up to the day
before.
-/
theorem not_proposalsAgree_februaryEnd
    : TermProposal.support.term? februaryEnd
        = some (ordinals (⟨2027, 3, 1, by decide⟩, ⟨2028, 2, 29, by decide⟩))
      ∧ (TermProposal.continuation yearlySubscription).term? februaryEnd
        = some (ordinals (⟨2027, 3, 1, by decide⟩, ⟨2028, 2, 28, by decide⟩))
      ∧ (TermProposal.nextLine plainLine).term? februaryEnd
        = some (ordinals (⟨2027, 3, 1, by decide⟩, ⟨2028, 2, 28, by decide⟩))
      ∧ ¬ ProposalsAgree februaryEnd yearlySubscription plainLine := by
  refine ⟨?_, ?_, ?_, ?_⟩
  · obtain ⟨term, hterm, hfollows⟩ :=
      @nextSupportTerm_of_year februaryEnd (by decide)
    have hsame : term = (⟨2027, 3, 1, by decide⟩, ⟨2028, 2, 29, by decide⟩) :=
      follows_unique hfollows ⟨by decide, by decide⟩
    rw [TermProposal.term?, hterm, hsame]
    rfl
  · exact term?_continuation (by decide) (by decide)
  · exact term?_nextLine februaryEnd plainLine
  · intro hagree
    exact (hagree.regular (by decide) (by decide)).leap (by decide)

end LicenseTrack
