import LicenseTrack.Maintenance.Effects

/-! The rule for a parent's active record: when it keeps the current one, that it is stable, and
that the daily hand-over changes no parent that follows it.
-/

namespace LicenseTrack

open Library

/-- Whether the current record competes and covers today, which makes the choice keep it. -/
def coversCurrent (candidates : List (Nat × MaintenanceTerm)) (currentId : Option Nat)
    (today : Date)
    : Bool :=
  ((candidates.filter (fun c => !c.2.isRetired)).find? (fun c => currentId == some c.1)).any
    (fun c => c.2.covers today)

theorem chooseActiveMaintenance_of_covers {candidates : List (Nat × MaintenanceTerm)}
    {currentId : Option Nat} {today : Date}
    (h : coversCurrent candidates currentId today = true)
    : chooseActiveMaintenance candidates currentId today = currentId := by
  unfold coversCurrent at h
  simp only [chooseActiveMaintenance]
  rw [if_pos h]
  rcases hc : (candidates.filter (fun c => !c.2.isRetired)).find?
      (fun c => currentId == some c.1) with _ | c
  · rw [hc] at h
    cases h
  · have hid := List.find?_some hc
    rw [beq_iff_eq] at hid
    rw [hc, hid]
    rfl

theorem chooseActiveMaintenance_of_not_covers {candidates : List (Nat × MaintenanceTerm)}
    {currentId : Option Nat} {today : Date}
    (h : coversCurrent candidates currentId today = false)
    : chooseActiveMaintenance candidates currentId today
      = chooseActiveMaintenance candidates none today := by
  have hnone : coversCurrent candidates none today = false := by
    have hfind : (candidates.filter (fun c => !c.2.isRetired)).find?
        (fun c => (none : Option Nat) == some c.1) = none := by simp
    unfold coversCurrent
    rw [hfind]
    rfl
  unfold coversCurrent at h hnone
  simp only [chooseActiveMaintenance]
  rw [if_neg (by rw [h]; simp), if_neg (by rw [hnone]; simp)]

theorem chooseActiveMaintenance_stable (candidates : List (Nat × MaintenanceTerm))
    (currentId : Option Nat) (today : Date)
    : chooseActiveMaintenance candidates (chooseActiveMaintenance candidates currentId today) today
      = chooseActiveMaintenance candidates currentId today := by
  rcases hc : coversCurrent candidates currentId today with _ | _
  · rw [chooseActiveMaintenance_of_not_covers hc]
    rcases hn : coversCurrent candidates (chooseActiveMaintenance candidates none today) today
      with _ | _
    · exact chooseActiveMaintenance_of_not_covers hn
    · exact chooseActiveMaintenance_of_covers hn
  · rw [chooseActiveMaintenance_of_covers hc, chooseActiveMaintenance_of_covers hc]

theorem chooseActiveMaintenance_of_not_candidate {candidates : List (Nat × MaintenanceTerm)}
    {id : Nat} (today : Date) (h : ∀ c ∈ candidates, c.1 ≠ id)
    : chooseActiveMaintenance candidates (some id) today
      = chooseActiveMaintenance candidates none today := by
  apply chooseActiveMaintenance_of_not_covers
  have hfind : (candidates.filter (fun c => !c.2.isRetired)).find?
      (fun c => some id == some c.1) = none := by
    refine List.find?_eq_none.mpr fun c hc => ?_
    have hne := h c (List.mem_filter.mp hc).1
    simpa using Ne.symm hne
  unfold coversCurrent
  rw [hfind]
  rfl

theorem MaintenanceTerm.covers_or_ended_or_future (t : MaintenanceTerm) (today : Date)
    : t.covers today = true ∨ t.endDate.any (· < today) = true
      ∨ t.startDate.any (today < ·) = true := by
  rcases hs : t.startDate with _ | start
  · rcases he : t.endDate with _ | finish
    · exact .inl (by simp [MaintenanceTerm.covers, hs, he])
    · rcases Nat.lt_or_ge finish today with hlt | hge
      · exact .inr (.inl (by simpa using hlt))
      · exact .inl (by simpa [MaintenanceTerm.covers, hs, he] using hge)
  · rcases Nat.lt_or_ge today start with hlt | hge
    · exact .inr (.inr (by simpa using hlt))
    · rcases he : t.endDate with _ | finish
      · exact .inl (by simpa [MaintenanceTerm.covers, hs, he] using hge)
      · rcases Nat.lt_or_ge finish today with hlt | hge'
        · exact .inr (.inl (by simpa using hlt))
        · exact .inl (by simpa [MaintenanceTerm.covers, hs, he] using ⟨hge, hge'⟩)

theorem chooseActiveMaintenance_eq_none {candidates : List (Nat × MaintenanceTerm)} {today : Date}
    : chooseActiveMaintenance candidates none today = none
      ↔ ∀ c ∈ candidates, c.2.isRetired = true := by
  constructor
  · intro h c hc
    by_contra hlive
    have hmem : c ∈ candidates.filter (fun c => !c.2.isRetired) :=
      List.mem_filter.mpr ⟨hc, by simpa using hlive⟩
    simp only [chooseActiveMaintenance] at h
    split at h
    · next hcovers =>
        have hfind : (candidates.filter (fun c => !c.2.isRetired)).find?
            (fun c => (none : Option Nat) == some c.1) = none := by simp
        rw [hfind] at hcovers
        cases hcovers
    · split at h
      · cases h
      · next hcovering =>
          split at h
          · cases h
          · next hended =>
              rw [Option.map_eq_none_iff] at h
              rw [pick_eq_none, List.filter_eq_nil_iff] at hcovering hended h
              rcases c.2.covers_or_ended_or_future today with ht | ht | ht
              · exact hcovering c hmem ht
              · exact hended c hmem ht
              · exact h c hmem ht
  · intro h
    rcases hc : chooseActiveMaintenance candidates none today with _ | id
    · rfl
    · obtain ⟨term, hm, hr⟩ := chooseActiveMaintenance_mem hc
      rw [h _ hm] at hr
      cases hr

/-- What the rule reads of a parent: its records and the active one. -/
def Store.coverage (s : Store) (parentId : Nat) : List (Nat × MaintenanceTerm) × Option Nat :=
  (s.candidates parentId, s.activeMaintenance? parentId)

/-- The active record that the rule picks for a parent after an operation, the current one being
the one before it when it is still linked.
-/
def ruleChoice (today : Date) (before after : Store) (parentId : Nat) : Option Nat :=
  chooseActiveMaintenance (after.candidates parentId)
    ((before.activeMaintenance? parentId).filter (after.linkedRecords parentId).contains) today

/-- Whether a parent's active record after an operation is the one that the rule picks. -/
def FollowsRule (today : Date) (before after : Store) (parentId : Nat) : Prop :=
  after.activeMaintenance? parentId = ruleChoice today before after parentId

theorem Store.candidates_linked {s : Store} {parentId : Nat} {c : Nat × MaintenanceTerm}
    (h : c ∈ s.candidates parentId)
    : c.1 ∈ s.linkedRecords parentId := by
  obtain ⟨key, hk, hc⟩ := List.mem_filterMap.mp h
  unfold Store.candidate? at hc
  obtain ⟨l, -, hc⟩ := Option.bind_eq_some_iff.mp hc
  split at hc
  · obtain rfl := Option.some.inj hc
    exact hk
  · cases hc

theorem ruleChoice_eq (today : Date) (before after : Store) (parentId : Nat)
    : ruleChoice today before after parentId
      = chooseActiveMaintenance (after.candidates parentId)
          (before.activeMaintenance? parentId) today := by
  unfold ruleChoice
  rcases before.activeMaintenance? parentId with _ | id
  · rfl
  · by_cases hlinked : id ∈ after.linkedRecords parentId
    · simp [Option.filter, hlinked]
    · have hcandidate : ∀ c ∈ after.candidates parentId, c.1 ≠ id := fun c hc he =>
        hlinked (he ▸ after.candidates_linked hc)
      rw [chooseActiveMaintenance_of_not_candidate today hcandidate]
      simp [Option.filter, hlinked]

/-- Whether the rule would leave a parent's active record. -/
def Store.Settled (today : Date) (s : Store) (parentId : Nat) : Prop :=
  chooseActiveMaintenance (s.candidates parentId) (s.activeMaintenance? parentId) today
    = s.activeMaintenance? parentId

theorem FollowsRule.settled {today : Date} {before after : Store} {parentId : Nat}
    (h : FollowsRule today before after parentId)
    : after.Settled today parentId := by
  rw [FollowsRule, ruleChoice_eq] at h
  rw [Store.Settled, h]
  exact chooseActiveMaintenance_stable _ _ _

theorem recomputeActiveMaintenance_coverage (env : Env) (parentId : Nat) (s : Store) (other : Nat)
    : (recomputeActiveMaintenance env parentId s).candidates other = s.candidates other
      ∧ (recomputeActiveMaintenance env parentId s).activeMaintenance? other
        = if other = parentId ∧ (s.license? parentId).isSome = true then
            chooseActiveMaintenance (s.candidates parentId) (s.activeMaintenance? parentId)
              env.today
          else s.activeMaintenance? other := by
  rcases hp : s.license? parentId with _ | parent
  · unfold recomputeActiveMaintenance
    simp [hp]
  · obtain ⟨history, heq, -, -⟩ := recomputeActiveMaintenance_eq env hp
    have hsame : SameRecords s (recomputeActiveMaintenance env parentId s) := by
      rw [heq]
      exact Table.Agrees.of_modify fun _ => rfl
    refine ⟨hsame.candidates (by rw [heq]) other, ?_⟩
    rw [heq]
    unfold Store.activeMaintenance? Store.license?
    by_cases ho : other = parentId
    · subst ho
      have hp' : s.licenses.get? other = some parent := hp
      simp only [Table.get?_modify_self, hp', Option.map_some, Option.bind_some,
        License.withMirror_mirror, Store.recomputedMirror_active, Store.chosenRecord]
      simp
    · rw [Table.get?_modify_ne _ _ ho, if_neg (fun h => ho h.1)]

theorem recomputeAll_settled (env : Env) (parents : List Nat) {s : Store} {parentId : Nat}
    (h : s.Settled env.today parentId)
    : (parents.foldl (fun s id => recomputeActiveMaintenance env id s) s).activeMaintenance?
        parentId
      = s.activeMaintenance? parentId := by
  induction parents generalizing s with
  | nil => rfl
  | cons head rest ih =>
      obtain ⟨hcandidates, hactive⟩ := recomputeActiveMaintenance_coverage env head s parentId
      have hkept : (recomputeActiveMaintenance env head s).activeMaintenance? parentId
          = s.activeMaintenance? parentId := by
        rw [hactive]
        split
        · next he =>
            rw [← he.1]
            exact h
        · rfl
      rw [List.foldl_cons, ih, hkept]
      rw [Store.Settled, hcandidates, hkept]
      exact h

theorem handOverDueMaintenance_settled (env : Env) {s : Store} {parentId : Nat}
    (h : s.Settled env.today parentId)
    : (handOverDueMaintenance env s).activeMaintenance? parentId
      = s.activeMaintenance? parentId := by
  simp only [handOverDueMaintenance]
  split
  · rfl
  · exact recomputeAll_settled env _ h

end LicenseTrack
