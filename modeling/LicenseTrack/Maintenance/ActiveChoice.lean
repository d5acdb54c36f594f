import LicenseTrack.Maintenance.CoverageRule

/-! The choice of a parent's active record as a rule: it depends on the candidates as a set, it
chooses a live record whenever there is one, and a record that covers the day whenever one does.
-/

namespace LicenseTrack

open Library

theorem laterBy_iff {date : MaintenanceTerm → Date} {a b : Nat × MaintenanceTerm}
    : laterBy date a b = true ↔ date b.2 < date a.2 ∨ date a.2 = date b.2 ∧ b.1 < a.1 := by
  simp [laterBy]

theorem laterBy_eq_false {date : MaintenanceTerm → Date} {a b : Nat × MaintenanceTerm}
    : laterBy date a b = false ↔ ¬(date b.2 < date a.2 ∨ date a.2 = date b.2 ∧ b.1 < a.1) := by
  rw [← laterBy_iff, Bool.not_eq_true]

theorem laterBy_ranks (date : MaintenanceTerm → Date) : Ranks (laterBy date) where
  asymm := by
    intro a b h
    have hlex : ∀ d e i j : Nat, (d < e ∨ e = d ∧ i < j) → ¬(e < d ∨ d = e ∧ j < i) := by omega
    exact laterBy_eq_false.mpr (hlex _ _ _ _ (laterBy_iff.mp h))
  between := by
    intro a c b h
    have hlex : ∀ d e f i j k : Nat, (f < d ∨ d = f ∧ k < i) →
        (e < d ∨ d = e ∧ j < i) ∨ (f < e ∨ e = f ∧ k < j) := by omega
    rw [laterBy_iff] at h ⊢
    rw [laterBy_iff]
    exact hlex _ _ _ _ _ _ h

theorem laterBy_tie {date : MaintenanceTerm → Date} {a b : Nat × MaintenanceTerm}
    (hab : laterBy date a b = false) (hba : laterBy date b a = false)
    : a.1 = b.1 := by
  have hlex : ∀ d e i j : Nat, ¬(e < d ∨ d = e ∧ j < i) → ¬(d < e ∨ e = d ∧ i < j) → i = j := by
    omega
  exact hlex _ _ _ _ (laterBy_eq_false.mp hab) (laterBy_eq_false.mp hba)

theorem candidate_unique {candidates : List (Nat × MaintenanceTerm)}
    (hids : (candidates.map Prod.fst).Nodup) {a b : Nat × MaintenanceTerm}
    (ha : a ∈ candidates) (hb : b ∈ candidates) (h : a.1 = b.1)
    : a = b :=
  List.inj_on_of_nodup_map hids ha hb h

theorem chooseActiveMaintenance_perm {candidates candidates' : List (Nat × MaintenanceTerm)}
    (hids : (candidates.map Prod.fst).Nodup) (hperm : candidates.Perm candidates')
    (currentId : Option Nat) (today : Date)
    : chooseActiveMaintenance candidates currentId today
      = chooseActiveMaintenance candidates' currentId today := by
  have hlive := hperm.filter (fun c => !c.2.isRetired)
  have hunique : ∀ a ∈ candidates.filter (fun c => !c.2.isRetired),
      ∀ b ∈ candidates.filter (fun c => !c.2.isRetired), a.1 = b.1 → a = b :=
    fun a ha b hb =>
      candidate_unique hids (List.mem_filter.mp ha).1 (List.mem_filter.mp hb).1
  have hcurrent := find?_perm (p := fun c => currentId == some c.1) hlive
    (fun a ha b hb hpa hpb => hunique a ha b hb
      (Option.some.inj ((beq_iff_eq.mp hpa).symm.trans (beq_iff_eq.mp hpb))))
  -- Each class of candidates is chosen from by a date and the identifier.
  have hpick : ∀ (p : Nat × MaintenanceTerm → Bool) (date : MaintenanceTerm → Date),
      pick (laterBy date) ((candidates.filter (fun c => !c.2.isRetired)).filter p)
        = pick (laterBy date) ((candidates'.filter (fun c => !c.2.isRetired)).filter p) :=
    fun p date => pick_perm (laterBy_ranks date) (hlive.filter p)
      (fun a ha b hb hab hba => hunique a (List.mem_filter.mp ha).1 b (List.mem_filter.mp hb).1
        (laterBy_tie hab hba))
  have hearliest : ∀ (p : Nat × MaintenanceTerm → Bool) (date : MaintenanceTerm → Date),
      pick (fun a b => laterBy date b a) ((candidates.filter (fun c => !c.2.isRetired)).filter p)
        = pick (fun a b => laterBy date b a)
            ((candidates'.filter (fun c => !c.2.isRetired)).filter p) :=
    fun p date => pick_perm (laterBy_ranks date).converse (hlive.filter p)
      (fun a ha b hb hab hba => hunique a (List.mem_filter.mp ha).1 b (List.mem_filter.mp hb).1
        (laterBy_tie hba hab))
  simp only [chooseActiveMaintenance, hcurrent, hpick, hearliest]

-- What is chosen

theorem coversCurrent_iff {candidates : List (Nat × MaintenanceTerm)}
    (hids : (candidates.map Prod.fst).Nodup) {currentId : Option Nat} {today : Date}
    : coversCurrent candidates currentId today = true
      ↔ ∃ c ∈ candidates, currentId = some c.1 ∧ c.2.isRetired = false
          ∧ c.2.covers today = true := by
  constructor
  · intro h
    unfold coversCurrent at h
    obtain ⟨c, hc, hcovers⟩ := (Option.any_eq_true _ _).mp h
    obtain ⟨hm, hr⟩ := List.mem_filter.mp (List.mem_of_find?_eq_some hc)
    have hcurrent := List.find?_some hc
    rw [beq_iff_eq] at hcurrent
    exact ⟨c, hm, hcurrent, by simpa using hr, hcovers⟩
  · rintro ⟨c, hm, hcurrent, hr, hcovers⟩
    have hlive : c ∈ candidates.filter (fun c => !c.2.isRetired) :=
      List.mem_filter.mpr ⟨hm, by simpa using hr⟩
    unfold coversCurrent
    rcases hfind : (candidates.filter (fun c => !c.2.isRetired)).find?
        (fun c => currentId == some c.1) with _ | d
    · have hnot := List.find?_eq_none.mp hfind c hlive
      simp [hcurrent] at hnot
    · have hd := List.find?_some hfind
      rw [beq_iff_eq] at hd
      have hsame := candidate_unique hids
        (List.mem_filter.mp (List.mem_of_find?_eq_some hfind)).1 hm
        (Option.some.inj (hd.symm.trans hcurrent))
      rw [hfind, hsame, Option.any_some, hcovers]

theorem chooseActiveMaintenance_of_covering {candidates : List (Nat × MaintenanceTerm)}
    {today : Date} {id : Nat} {c : Nat × MaintenanceTerm} (hc : c ∈ candidates)
    (hlive : c.2.isRetired = false) (hcovers : c.2.covers today = true)
    (h : chooseActiveMaintenance candidates none today = some id)
    : ∃ term, (id, term) ∈ candidates ∧ term.covers today = true := by
  have hmem : c ∈ (candidates.filter (fun c => !c.2.isRetired)).filter
      (fun c => c.2.covers today) :=
    List.mem_filter.mpr ⟨List.mem_filter.mpr ⟨hc, by simpa using hlive⟩, hcovers⟩
  have hfind : (candidates.filter (fun c => !c.2.isRetired)).find?
      (fun c => (none : Option Nat) == some c.1) = none := by simp
  simp only [chooseActiveMaintenance, hfind, Option.any_none, Bool.false_eq_true, if_false] at h
  split at h
  · next d hd =>
      obtain ⟨hd', hcovered⟩ := List.mem_filter.mp (pick_mem hd)
      obtain rfl := Option.some.inj h
      exact ⟨d.2, (List.mem_filter.mp hd').1, hcovered⟩
  · next hnone =>
      rw [pick_eq_none.mp hnone] at hmem
      cases hmem

theorem chooseActiveMaintenance_none_iff {candidates : List (Nat × MaintenanceTerm)}
    (hids : (candidates.map Prod.fst).Nodup) {currentId : Option Nat} {today : Date}
    : chooseActiveMaintenance candidates currentId today = none
      ↔ ∀ c ∈ candidates, c.2.isRetired = true := by
  rcases hc : coversCurrent candidates currentId today with _ | _
  · rw [chooseActiveMaintenance_of_not_covers hc, chooseActiveMaintenance_eq_none]
  · rw [chooseActiveMaintenance_of_covers hc]
    obtain ⟨c, hm, hcurrent, hr, -⟩ := (coversCurrent_iff hids).mp hc
    constructor
    · intro h
      rw [hcurrent] at h
      cases h
    · intro h
      rw [h c hm] at hr
      cases hr

theorem chooseActiveMaintenance_some {candidates : List (Nat × MaintenanceTerm)}
    (hids : (candidates.map Prod.fst).Nodup) {currentId : Option Nat} {today : Date} {id : Nat}
    (h : chooseActiveMaintenance candidates currentId today = some id)
    : ∃ term, (id, term) ∈ candidates ∧ term.isRetired = false
        ∧ ((∃ c ∈ candidates, c.2.isRetired = false ∧ c.2.covers today = true) →
            term.covers today = true) := by
  obtain ⟨term, hterm, hlive⟩ := chooseActiveMaintenance_mem h
  refine ⟨term, hterm, hlive, fun ⟨c, hc, hclive, hcovers⟩ => ?_⟩
  have hsame : ∀ {other}, (id, other) ∈ candidates → other = term := fun hother =>
    congrArg Prod.snd (candidate_unique hids hother hterm rfl)
  rcases hcurrent : coversCurrent candidates currentId today with _ | _
  · rw [chooseActiveMaintenance_of_not_covers hcurrent] at h
    obtain ⟨other, hother, hcovered⟩ := chooseActiveMaintenance_of_covering hc hclive hcovers h
    rw [← hsame hother]
    exact hcovered
  · obtain ⟨d, hd, hid, -, hcovered⟩ := (coversCurrent_iff hids).mp hcurrent
    rw [chooseActiveMaintenance_of_covers hcurrent, hid] at h
    obtain rfl := Option.some.inj h
    rw [← hsame hd]
    exact hcovered

/-- The rule for a parent's active record, over every set of candidates. -/
theorem chooseActiveMaintenance_follows (candidates : List (Nat × MaintenanceTerm))
    (hids : (candidates.map Prod.fst).Nodup) (currentId : Option Nat) (today : Date)
    : (∀ candidates', candidates.Perm candidates' →
        chooseActiveMaintenance candidates' currentId today
          = chooseActiveMaintenance candidates currentId today)
      ∧ (chooseActiveMaintenance candidates currentId today = none
          ↔ ∀ c ∈ candidates, c.2.isRetired = true)
      ∧ (∀ id, chooseActiveMaintenance candidates currentId today = some id →
          ∃ term, (id, term) ∈ candidates ∧ term.isRetired = false
            ∧ ((∃ c ∈ candidates, c.2.isRetired = false ∧ c.2.covers today = true) →
                term.covers today = true))
      ∧ (∀ c ∈ candidates, currentId = some c.1 → c.2.isRetired = false →
          c.2.covers today = true →
          chooseActiveMaintenance candidates currentId today = currentId)
      ∧ chooseActiveMaintenance candidates
            (chooseActiveMaintenance candidates currentId today) today
          = chooseActiveMaintenance candidates currentId today := by
  refine ⟨fun candidates' hperm => ?_, chooseActiveMaintenance_none_iff hids, fun id h => ?_,
    fun c hc hcurrent hlive hcovers => ?_, ?_⟩
  · exact (chooseActiveMaintenance_perm hids hperm currentId today).symm
  · exact chooseActiveMaintenance_some hids h
  · exact chooseActiveMaintenance_of_covers
      ((coversCurrent_iff hids).mpr ⟨c, hc, hcurrent, hlive, hcovers⟩)
  · exact chooseActiveMaintenance_stable candidates currentId today

/-- A record in force beside one that ended and one to come. -/
theorem chooseActiveMaintenance_follows_threeTerms
    : chooseActiveMaintenance
          [(1, ⟨false, some 10, some 20⟩), (2, ⟨false, some 15, none⟩), (3, ⟨false, some 40, none⟩)]
          (some 1) 30
        = some 2
      ∧ chooseActiveMaintenance
          [(3, ⟨false, some 40, none⟩), (2, ⟨false, some 15, none⟩), (1, ⟨false, some 10, some 20⟩)]
          (some 1) 30
        = some 2 := by
  have hchosen : chooseActiveMaintenance
      [(1, ⟨false, some 10, some 20⟩), (2, ⟨false, some 15, none⟩), (3, ⟨false, some 40, none⟩)]
      (some 1) 30 = some 2 := by decide
  refine ⟨hchosen, ?_⟩
  rw [← hchosen]
  exact (chooseActiveMaintenance_follows
    [(1, ⟨false, some 10, some 20⟩), (2, ⟨false, some 15, none⟩), (3, ⟨false, some 40, none⟩)]
    (by decide) (some 1) 30).1 _ (by decide)

end LicenseTrack
