import LicenseTrack.Library.Runs

/-! The coordinator that keeps requests and background jobs out while the database is being
replaced, and the callers around it.
-/

namespace LicenseTrack

open Library

/-- `RestoreMaintenance`. An owner is the object that its `begin_restore` made, here by number. -/
structure RestoreMaintenance where
  activeRequests : Nat := 0
  activeBackgroundJobs : Nat := 0
  maintenance : Bool := false
  restoreInProgress : Bool := false
  restoreOwner : Option Nat := none
deriving DecidableEq

namespace RestoreMaintenance

/-- `enter_request`, with its answer. -/
def enterRequest (allowDuringMaintenance : Bool) (m : RestoreMaintenance)
    : Bool × RestoreMaintenance :=
  if m.maintenance && !allowDuringMaintenance then (false, m)
  else (true, { m with activeRequests := m.activeRequests + 1 })

theorem enterRequest_admitted {allow : Bool} {m : RestoreMaintenance}
    (h : m.maintenance = false ∨ allow = true)
    : enterRequest allow m = (true, { m with activeRequests := m.activeRequests + 1 }) := by
  rcases h with h | h <;> simp [enterRequest, h]

theorem enterRequest_refused {m : RestoreMaintenance} (h : m.maintenance = true)
    : enterRequest false m = (false, m) := by
  simp [enterRequest, h]

/-- `leave_request`. -/
def leaveRequest (m : RestoreMaintenance) : RestoreMaintenance :=
  { m with activeRequests := m.activeRequests - 1 }

/-- `enter_background_job`, with its answer. -/
def enterBackgroundJob (m : RestoreMaintenance) : Bool × RestoreMaintenance :=
  if m.maintenance then (false, m)
  else (true, { m with activeBackgroundJobs := m.activeBackgroundJobs + 1 })

/-- `leave_background_job`. -/
def leaveBackgroundJob (m : RestoreMaintenance) : RestoreMaintenance :=
  { m with activeBackgroundJobs := m.activeBackgroundJobs - 1 }

/-- `begin_restore` up to its waiting loop. -/
def startRestore (owner : Nat) (m : RestoreMaintenance) : Except String RestoreMaintenance :=
  if m.restoreInProgress then .error "A database restore is already in progress"
  else .ok { m with restoreInProgress := true, restoreOwner := some owner, maintenance := true }

/-- The condition that the loop of `begin_restore` waits for. -/
def isDrained (m : RestoreMaintenance) : Bool :=
  m.activeRequests == 0 && m.activeBackgroundJobs == 0

/-- What both ends of a restore write. -/
def accepting (m : RestoreMaintenance) : RestoreMaintenance :=
  { m with maintenance := false, restoreInProgress := false, restoreOwner := none }

theorem accepting_of_idle {m : RestoreMaintenance} (hm : m.maintenance = false)
    (hp : m.restoreInProgress = false) (ho : m.restoreOwner = none)
    : m.accepting = m := by
  cases m
  simp_all [accepting]

/-- `end_restore`, for any object that a caller passes. -/
def endRestore (owner : Option Nat) (m : RestoreMaintenance) : RestoreMaintenance :=
  if owner = m.restoreOwner then m.accepting else m

end RestoreMaintenance

/-- The coordinator with everyone who is inside, waiting or holding a restore. -/
structure Installation where
  coordinator : RestoreMaintenance := {}
  /-- Ordinary requests that entered and have not left. -/
  ordinary : Nat := 0
  /-- Requests inside that are allowed during maintenance. -/
  allowed : Nat := 0
  jobs : Nat := 0
  /-- Owners whose `begin_restore` has not returned. -/
  waiting : List Nat := []
  /-- Owners whose `begin_restore` returned and who did not end their restore. -/
  holders : List Nat := []
  nextOwner : Nat := 0
deriving DecidableEq

/-- What can happen next. Each event is one stretch under the condition's lock. -/
inductive MaintenanceEvent
  | enterRequest (allowDuringMaintenance : Bool)
  | leaveRequest (allowDuringMaintenance : Bool)
  | enterJob
  | leaveJob
  | beginRestore
  /-- A waiting `begin_restore` checks its loop condition. -/
  | wake (owner : Nat)
  /-- A waiting `begin_restore` is cancelled or fails. -/
  | abandon (owner : Nat)
  | endRestore (owner : Option Nat)
deriving DecidableEq

namespace Installation

/-- A request that was let in is counted among those inside. -/
def letThrough (s : Installation) (allowDuringMaintenance : Bool) : Installation :=
  if allowDuringMaintenance then { s with allowed := s.allowed + 1 }
  else { s with ordinary := s.ordinary + 1 }

/-- One event. Only those inside leave, only those waiting wake or fail, and an owner that has
not been returned yet cannot be passed to `end_restore`.
-/
def step (event : MaintenanceEvent) (s : Installation) : Except String Installation :=
  match event with
  | .enterRequest allow =>
      let (entered, coordinator) := s.coordinator.enterRequest allow
      .ok { (if entered then s.letThrough allow else s) with coordinator := coordinator }
  | .leaveRequest true => do
      require (0 < s.allowed) "not inside"
      pure { s with coordinator := s.coordinator.leaveRequest, allowed := s.allowed - 1 }
  | .leaveRequest false => do
      require (0 < s.ordinary) "not inside"
      pure { s with coordinator := s.coordinator.leaveRequest, ordinary := s.ordinary - 1 }
  | .enterJob =>
      let (entered, coordinator) := s.coordinator.enterBackgroundJob
      .ok { s with coordinator := coordinator, jobs := if entered then s.jobs + 1 else s.jobs }
  | .leaveJob => do
      require (0 < s.jobs) "not inside"
      pure { s with coordinator := s.coordinator.leaveBackgroundJob, jobs := s.jobs - 1 }
  | .beginRestore =>
      match s.coordinator.startRestore s.nextOwner with
      | .error _ => .ok s
      | .ok coordinator =>
          .ok { s with
            coordinator := coordinator
            waiting := s.nextOwner :: s.waiting
            nextOwner := s.nextOwner + 1 }
  | .wake owner => do
      require (owner ∈ s.waiting) "not waiting"
      if s.coordinator.isDrained then
        pure { s with waiting := s.waiting.erase owner, holders := owner :: s.holders }
      else pure s
  | .abandon owner => do
      require (owner ∈ s.waiting) "not waiting"
      pure { s with
        coordinator := s.coordinator.accepting, waiting := s.waiting.erase owner }
  | .endRestore owner => do
      require (∀ o ∈ s.waiting, owner ≠ some o) "not returned yet"
      pure { s with
        coordinator := s.coordinator.endRestore owner
        holders := s.holders.filter (fun o => owner ≠ some o) }

/-- The installations that some order of events leads to. -/
abbrev Reached (s : Installation) : Prop := Reachable step (fun _ _ => True) {} s

-- The invariant

/-- Nobody waits for a restore or holds one. -/
def Idle (s : Installation) : Prop := s.waiting = [] ∧ s.holders = []

/-- One owner waits, or holds the restore with everyone else outside. -/
def Engaged (s : Installation) (owner : Nat) : Prop :=
  (s.waiting = [owner] ∧ s.holders = [])
    ∨ (s.waiting = [] ∧ s.holders = [owner] ∧ s.ordinary = 0 ∧ s.jobs = 0)

/-- The counters count who is inside, and the flags say whether a restore is under way. -/
structure Coordinated (s : Installation) : Prop where
  requests : s.coordinator.activeRequests = s.ordinary + s.allowed
  jobs : s.coordinator.activeBackgroundJobs = s.jobs
  flags : (s.coordinator.maintenance = false ∧ s.coordinator.restoreInProgress = false
      ∧ s.coordinator.restoreOwner = none ∧ s.Idle)
    ∨ (s.coordinator.maintenance = true ∧ s.coordinator.restoreInProgress = true
      ∧ ∃ owner, s.coordinator.restoreOwner = some owner ∧ s.Engaged owner)

namespace Coordinated

variable {s t : Installation}

theorem enterRequest (hs : Coordinated s) (allow : Bool)
    (h : step (.enterRequest allow) s = .ok t)
    : Coordinated t := by
  have hr := hs.requests
  by_cases hin : s.coordinator.maintenance = false ∨ allow = true
  · simp only [step, RestoreMaintenance.enterRequest_admitted hin, if_true] at h
    obtain rfl := Except.ok.inj h
    cases allow with
    | true =>
        refine ⟨by simp only [letThrough, if_true]; omega, hs.jobs, ?_⟩
        exact hs.flags
    | false =>
        refine ⟨by simp [letThrough]; omega, hs.jobs, ?_⟩
        rcases hs.flags with hidle | ⟨hm, -⟩
        · exact .inl hidle
        · simp [hm] at hin
  · simp only [not_or, Bool.not_eq_true, Bool.not_eq_false] at hin
    obtain ⟨hm, rfl⟩ := hin
    simp only [step, RestoreMaintenance.enterRequest_refused hm] at h
    obtain rfl := Except.ok.inj h
    exact hs

theorem leaveRequest (hs : Coordinated s) (allow : Bool)
    (h : step (.leaveRequest allow) s = .ok t)
    : Coordinated t := by
  have hr := hs.requests
  cases allow with
  | true =>
      simp only [step, bind_eq_ok, require_eq_ok, pure_eq_ok] at h
      obtain ⟨_, hin, rfl⟩ := h
      exact ⟨by simp only [RestoreMaintenance.leaveRequest]; omega, hs.jobs, hs.flags⟩
  | false =>
      simp only [step, bind_eq_ok, require_eq_ok, pure_eq_ok] at h
      obtain ⟨_, hin, rfl⟩ := h
      refine ⟨by simp only [RestoreMaintenance.leaveRequest]; omega, hs.jobs, ?_⟩
      rcases hs.flags with hidle | ⟨hm, hp, owner, ho, hwaiting | ⟨-, -, hnone, -⟩⟩
      · exact .inl hidle
      · exact .inr ⟨hm, hp, owner, ho, .inl hwaiting⟩
      · omega

theorem enterJob (hs : Coordinated s) (h : step .enterJob s = .ok t)
    : Coordinated t := by
  rcases hs.flags with ⟨hm, hp, ho, hidle⟩ | ⟨hm, hp, owner, ho, hengaged⟩
  · simp only [step, RestoreMaintenance.enterBackgroundJob, hm, Bool.false_eq_true, if_false] at h
    obtain rfl := Except.ok.inj h
    exact ⟨hs.requests, congrArg (· + 1) hs.jobs, .inl ⟨rfl, hp, ho, hidle⟩⟩
  · simp only [step, RestoreMaintenance.enterBackgroundJob, hm, if_true] at h
    obtain rfl := Except.ok.inj h
    exact hs

theorem leaveJob (hs : Coordinated s) (h : step .leaveJob s = .ok t)
    : Coordinated t := by
  simp only [step, bind_eq_ok, require_eq_ok, pure_eq_ok] at h
  obtain ⟨_, hin, rfl⟩ := h
  refine ⟨hs.requests, congrArg (· - 1) hs.jobs, ?_⟩
  rcases hs.flags with hidle | ⟨hm, hp, owner, ho, hwaiting | ⟨-, -, -, hnone⟩⟩
  · exact .inl hidle
  · exact .inr ⟨hm, hp, owner, ho, .inl hwaiting⟩
  · omega

theorem beginRestore (hs : Coordinated s) (h : step .beginRestore s = .ok t)
    : Coordinated t := by
  rcases hs.flags with ⟨hm, hp, ho, hw, hh⟩ | ⟨hm, hp, hengaged⟩
  · simp only [step, RestoreMaintenance.startRestore, hp] at h
    obtain rfl := Except.ok.inj h
    exact ⟨hs.requests, hs.jobs, .inr ⟨rfl, rfl, s.nextOwner, rfl, .inl ⟨by simp [hw], hh⟩⟩⟩
  · simp only [step, RestoreMaintenance.startRestore, hp] at h
    obtain rfl := Except.ok.inj h
    exact hs

theorem wake (hs : Coordinated s) (owner : Nat) (h : step (.wake owner) s = .ok t)
    : Coordinated t := by
  simp only [step, bind_eq_ok, require_eq_ok] at h
  obtain ⟨_, hwaits, h⟩ := h
  split at h
  · next hdrained =>
      obtain rfl := Except.ok.inj h
      simp only [RestoreMaintenance.isDrained, Bool.and_eq_true, beq_iff_eq] at hdrained
      have hempty : s.ordinary = 0 ∧ s.jobs = 0 := by
        have hr := hs.requests
        have hj := hs.jobs
        omega
      refine ⟨hs.requests, hs.jobs, .inr ?_⟩
      rcases hs.flags with ⟨-, -, -, hw, -⟩ | ⟨hm, hp, o, ho, ⟨hw, hh⟩ | ⟨hw, -⟩⟩
      · simp [hw] at hwaits
      · obtain rfl : owner = o := by simpa [hw] using hwaits
        exact ⟨hm, hp, owner, ho, .inr ⟨by simp [hw], by simp [hh], hempty⟩⟩
      · simp [hw] at hwaits
  · obtain rfl := Except.ok.inj h
    exact hs

theorem abandon_eq (hs : Coordinated s) {owner : Nat} (h : step (.abandon owner) s = .ok t)
    : t = { s with
        coordinator :=
          { activeRequests := s.ordinary + s.allowed, activeBackgroundJobs := s.jobs }
        waiting := [], holders := [] } := by
  simp only [step, bind_eq_ok, require_eq_ok, pure_eq_ok] at h
  obtain ⟨_, hwaits, rfl⟩ := h
  rcases hs.flags with ⟨-, -, -, hw, -⟩ | ⟨-, -, o, -, ⟨hw, hh⟩ | ⟨hw, -⟩⟩
  · simp [hw] at hwaits
  · obtain rfl : owner = o := by simpa [hw] using hwaits
    simp [RestoreMaintenance.accepting, hs.requests, hs.jobs, hw, hh]
  · simp [hw] at hwaits

theorem abandon (hs : Coordinated s) (owner : Nat) (h : step (.abandon owner) s = .ok t)
    : Coordinated t := by
  rw [hs.abandon_eq h]
  exact ⟨rfl, rfl, .inl ⟨rfl, rfl, rfl, rfl, rfl⟩⟩

theorem endRestore_other (hs : Coordinated s) {owner : Option Nat}
    (hother : ∀ o ∈ s.holders, owner ≠ some o) (h : step (.endRestore owner) s = .ok t)
    : t = s := by
  simp only [step, bind_eq_ok, require_eq_ok, pure_eq_ok] at h
  obtain ⟨_, hreturned, rfl⟩ := h
  have hholders : s.holders.filter (fun o => owner ≠ some o) = s.holders :=
    List.filter_eq_self.mpr fun o ho => by simpa using hother o ho
  have hcoordinator : s.coordinator.endRestore owner = s.coordinator := by
    unfold RestoreMaintenance.endRestore
    split
    · next howner =>
        rcases hs.flags with ⟨hm, hp, ho, -⟩ | ⟨-, -, o, ho, ⟨hw, -⟩ | ⟨-, hh, -⟩⟩
        · exact RestoreMaintenance.accepting_of_idle hm hp ho
        · exact absurd (howner.trans ho) (hreturned o (by simp [hw]))
        · exact absurd (howner.trans ho) (hother o (by simp [hh]))
    · rfl
  rw [hholders, hcoordinator]

theorem endRestore (hs : Coordinated s) (owner : Option Nat)
    (h : step (.endRestore owner) s = .ok t)
    : Coordinated t := by
  by_cases hother : ∀ o ∈ s.holders, owner ≠ some o
  · rw [hs.endRestore_other hother h]
    exact hs
  · simp only [step, bind_eq_ok, require_eq_ok, pure_eq_ok] at h
    obtain ⟨_, -, rfl⟩ := h
    simp only [not_forall, not_not] at hother
    obtain ⟨o, hm, rfl⟩ := hother
    rcases hs.flags with ⟨-, -, -, -, hh⟩ | ⟨-, -, p, hp, ⟨-, hh⟩ | ⟨hw, hh, -⟩⟩
    · simp [hh] at hm
    · simp [hh] at hm
    · obtain rfl : o = p := by simpa [hh] using hm
      simp only [RestoreMaintenance.endRestore, hp, if_true]
      exact ⟨hs.requests, hs.jobs, .inl ⟨rfl, rfl, rfl, hw, by simp [hh]⟩⟩

theorem step (hs : Coordinated s) (event : MaintenanceEvent)
    (h : Installation.step event s = .ok t)
    : Coordinated t := by
  cases event with
  | enterRequest allow => exact hs.enterRequest allow h
  | leaveRequest allow => exact hs.leaveRequest allow h
  | enterJob => exact hs.enterJob h
  | leaveJob => exact hs.leaveJob h
  | beginRestore => exact hs.beginRestore h
  | wake owner => exact hs.wake owner h
  | abandon owner => exact hs.abandon owner h
  | endRestore owner => exact hs.endRestore owner h

theorem of_reached (h : Reached s) : Coordinated s :=
  h.invariant ⟨rfl, rfl, .inl ⟨rfl, rfl, rfl, rfl, rfl⟩⟩ fun _ _ event hs _ => hs.step event

end Coordinated

/-- A restore that began excludes ordinary requests, jobs and other owners until its owner ends
it, and one that fails to begin leaves the coordinator as it counts who is inside.
-/
theorem restore_excludes {s : Installation} (h : Reached s)
    : (s.holders ≠ [] → s.ordinary = 0 ∧ s.jobs = 0)
      ∧ s.holders.length ≤ 1
      ∧ (∀ owner t, (∀ o ∈ s.holders, owner ≠ some o) → step (.endRestore owner) s = .ok t → t = s)
      ∧ (∀ t, s.coordinator.restoreInProgress = true → step .beginRestore s = .ok t → t = s)
      ∧ (∀ owner t, step (.abandon owner) s = .ok t
        → t.coordinator
            = { activeRequests := t.ordinary + t.allowed, activeBackgroundJobs := t.jobs }
          ∧ (t.ordinary, t.allowed, t.jobs) = (s.ordinary, s.allowed, s.jobs) ∧ t.Idle) := by
  have hs := Coordinated.of_reached h
  refine ⟨fun hheld => ?_, ?_, fun owner t hother => hs.endRestore_other hother,
    fun t hp hbegin => ?_, fun owner t habandon => ?_⟩
  · rcases hs.flags with ⟨-, -, -, -, hh⟩ | ⟨-, -, o, -, ⟨-, hh⟩ | ⟨-, -, hnone⟩⟩
    · exact absurd hh hheld
    · exact absurd hh hheld
    · exact hnone
  · rcases hs.flags with ⟨-, -, -, -, hh⟩ | ⟨-, -, o, -, ⟨-, hh⟩ | ⟨-, hh, -⟩⟩ <;> simp [hh]
  · simp only [Installation.step, RestoreMaintenance.startRestore, hp, if_true] at hbegin
    exact (Except.ok.inj hbegin).symm
  · rw [hs.abandon_eq habandon]
    exact ⟨rfl, rfl, rfl, rfl⟩

/-- A restore that began while a request was inside, and returned once it had left. -/
theorem restore_excludes_oneRequest
    : ∃ s, runAll step [.enterRequest false, .beginRestore, .wake 0, .leaveRequest false, .wake 0]
          {} = some s
        ∧ s.holders = [0] ∧ s.ordinary = 0 ∧ s.jobs = 0 := by
  obtain ⟨s, hs⟩ : ∃ s, runAll step [.enterRequest false, .beginRestore, .wake 0,
      .leaveRequest false, .wake 0] {} = some s :=
    Option.isSome_iff_exists.mp (by decide)
  have hholders : (runAll step [.enterRequest false, .beginRestore, .wake 0, .leaveRequest false,
      .wake 0] {}).map (·.holders) = some [0] := by decide
  rw [hs, Option.map_some, Option.some.injEq] at hholders
  have hreached : Reached s := .of_runAll .start (fun _ _ _ => trivial) hs
  exact ⟨s, hs, hholders, (restore_excludes hreached).1 (by simp [hholders])⟩

end Installation

end LicenseTrack
