import LicenseTrack.Accounts.BrowserSessions

/-! Sessions that follow each other in one tab. Once a tab is locked, nothing but a sign-in opens it
again; and once a new session begins, no reply to a call of an earlier one gives it a token.
-/

namespace LicenseTrack.SessionClient

open Library

variable {bearerDeployment : Bool} {own fresh : Nat} {c d : Client} {r : RequestOptions}
  {caller : Caller} {wait : Wait} {ran : Ran Client Wait} {tabs later : Coroutines Client Wait}

theorem Refreshes.generation_eq {work : Option Wait} (h : Refreshes c own d work)
    : d.sessionGeneration = c.sessionGeneration := by
  cases h <;> rfl

theorem acceptToken_generation (generation : Nat) (data : Option SessionData) (c : Client)
    : (acceptToken generation data c).sessionGeneration = c.sessionGeneration := by
  rcases acceptToken_cases generation data c with hsame | ⟨-, value, -, hset⟩
  · rw [hsame]
  · rw [hset]

theorem Finished.generation_eq {data : Option SessionData} (h : Finished c data caller ran)
    : ran.shared.sessionGeneration = c.sessionGeneration := by
  cases h with
  | ended caller other => rfl
  | discarded generation bearer r control held => rfl
  | signedIn d answered opened => rcases opened with rfl | ⟨value, -, rfl⟩ <;> rfl
  | adopted answered => rfl
  | refreshed generation => exact acceptToken_generation generation data c
  | changed generation => exact acceptToken_generation generation data c

theorem Resumed.generation {outcome : Outcome}
    (h : Resumed bearerDeployment fresh c wait outcome ran)
    : ran.shared.sessionGeneration = c.sessionGeneration
      ∨ ∃ caller, wait.caller? = some caller
        ∧ ran = { shared := c.lockSession, waits := some (.returned none caller) } := by
  cases h with
  | paused wait again r caller isDue unsent call same silent pause => exact .inl rfl
  | received generation bearer r caller reply ran h =>
      cases h with
      | returned reply data answer => exact .inl rfl
      | refused current => exact .inr ⟨caller, rfl, rfl⟩
      | repeated refresh hprotected => exact .inl rfl
  | repeated refresh r caller isDue =>
      exact .inl (request_begins bearerDeployment fresh _ isDue caller c).1.generation_eq
  | returned data caller isDue ran h => exact .inl h.generation_eq
  | adopting isDue => exact .inl rfl
  | settling isDue => exact .inl rfl

/-- What begins a new generation: a login, a logout or a lock, which drop the token. The first two
send a request of their own.
-/
inductive Ends (c : Client) : Entry → Ran Client Wait → Prop
  | login (bearer : Option Bearer) (r : RequestOptions) (control : r.sessionControl = true)
      (held : bearer = r.authorization ∨ bearer = none)
      : Ends c .login
          {
            shared := c.startSessionTransition
            waits := some (.fetched (c.sessionGeneration + 1) bearer r
              (.login (c.sessionGeneration + 1)))
          }
  | logout (bearer : Option Bearer) (r : RequestOptions) (control : r.sessionControl = true)
      (held : bearer = r.authorization ∨ bearer = none)
      : Ends c .logoutSession
          {
            shared := c.lockSession
            waits := some (.fetched (c.sessionGeneration + 1) bearer r .logoutSession)
          }
  | lock : Ends c .lockSession { shared := c.lockSession }

theorem request_control (bearerDeployment : Bool) (fresh : Nat) (isDue : Bool) (caller : Caller)
    (c : Client) (h : r.sessionControl = true)
    : ∃ bearer, (bearer = r.authorization ∨ bearer = c.token)
        ∧ request bearerDeployment fresh r isDue caller c
          = { shared := c, waits := some (.fetched c.sessionGeneration bearer r caller) } := by
  obtain ⟨bearer, hheld, hsend⟩ := send_eq bearerDeployment r caller c
  refine ⟨bearer, hheld, ?_⟩
  rw [request, if_pos h, hsend]

theorem call_generation (bearerDeployment : Bool) (own fresh : Nat) (entry : Entry) (c : Client)
    : (call bearerDeployment own fresh entry c).shared.sessionGeneration = c.sessionGeneration
      ∨ Ends c entry (call bearerDeployment own fresh entry c) := by
  have hrequest (r : RequestOptions) (isDue : Bool) (caller : Caller)
      : (request bearerDeployment fresh r isDue caller c).shared.sessionGeneration
        = c.sessionGeneration :=
    (request_begins bearerDeployment fresh r isDue caller c).1.generation_eq
  cases entry with
  | request r isDue => exact .inl (hrequest r isDue .page)
  | login =>
      have hcontrol : RequestOptions.sessionControl { path := "/api/auth/login" } = true := by
        decide +kernel
      obtain ⟨bearer, hheld, hrun⟩ := request_control bearerDeployment fresh false
        (.login (c.sessionGeneration + 1)) c.startSessionTransition hcontrol
      refine .inr ?_
      rw [call, show c.startSessionTransition.sessionGeneration = c.sessionGeneration + 1 from rfl,
        hrun]
      exact .login bearer _ hcontrol hheld
  | logoutSession =>
      have hcontrol : RequestOptions.sessionControl
          { path := "/api/auth/logout", redirectOn401 := false, authorization := c.token }
          = true := by
        change RequestOptions.sessionControl { path := "/api/auth/logout" } = true
        decide +kernel
      obtain ⟨bearer, hheld, hrun⟩ := request_control bearerDeployment fresh false
        .logoutSession c.lockSession hcontrol
      refine .inr ?_
      rw [call, hrun]
      exact .logout bearer _ hcontrol hheld
  | getSession =>
      simp only [call]
      split
      · exact .inl rfl
      · exact .inl (hrequest _ _ _)
  | refreshSession =>
      exact .inl (refreshSession_refreshes bearerDeployment own c).generation_eq
  | changePassword isDue => exact .inl (hrequest _ isDue _)
  | lockSession => exact .inr .lock
  | authenticated => exact .inl (hrequest _ _ _)
  | unlockSession => exact .inl rfl
  | message value =>
      simp only [call]
      rcases onMessage_cases c value with hsame | ⟨held, -, -, hset⟩
      · exact .inl (by rw [hsame])
      · exact .inl (by rw [hset])

/-- What a tab is when a new generation has begun: without a token, with the tasks that waited
before, which are of earlier generations, and with at most one request, which was just sent.
-/
structure Renewed (turn : TaskTurn Entry Outcome) (tabs later : Coroutines Client Wait) : Prop where
  generation : later.shared.sessionGeneration = tabs.shared.sessionGeneration + 1
  token : later.shared.token = none
  next : tabs.next ≤ later.next
  old : ∀ i wait, i < tabs.next → later.task i = some wait →
    WaitRelies tabs.shared i wait
  new : ∀ i wait, tabs.next ≤ i → later.task i = some wait →
    ∃ bearer r caller, wait = .fetched (tabs.shared.sessionGeneration + 1) bearer r caller
      ∧ r.sessionControl = true ∧ (bearer = r.authorization ∨ bearer = none)
      ∧ (turn = .call .login ∨ caller = .logoutSession)
  numbered : ∀ i, later.next ≤ i → later.task i = none

theorem Ends.shared_eq {entry : Entry} (h : Ends c entry ran)
    : ran.shared.sessionGeneration = c.sessionGeneration + 1 ∧ ran.shared.token = none := by
  cases h <;> exact ⟨rfl, rfl⟩

/-- A turn that begins a new generation. -/
theorem step_renewed {turn : TaskTurn Entry Outcome} (hsound : tabs.Sound 0 Bare WaitRelies)
    (hstep : Coroutines.step (tab bearerDeployment) turn tabs = .ok later)
    (hnew : tabs.shared.sessionGeneration < later.shared.sessionGeneration)
    : Renewed turn tabs later := by
  have hnumbered := (Cooperation.step_sound (tab_cooperates bearerDeployment) hsound trivial
    hstep).numbered
  rcases Coroutines.step_cases hstep with ⟨entry, rfl, rfl⟩
    | ⟨i, outcome, wait, ran, rfl, hi, hran, rfl⟩
  · rcases call_generation bearerDeployment tabs.next (tabs.next + 1) entry tabs.shared with
      hsame | hends
    · exact absurd hsame.symm (Nat.ne_of_lt hnew)
    · refine ⟨hends.shared_eq.1, hends.shared_eq.2, by simp only [Coroutines.after]; omega, ?_, ?_,
        hnumbered⟩
      · intro i wait hi hwait
        rcases Coroutines.after_task hwait with ⟨rfl, -⟩ | ⟨rfl, -⟩ | ⟨-, hbefore⟩
        · omega
        · omega
        · exact hsound.relies i wait hbefore
      · intro i wait hi hwait
        change (tabs.after tabs.next (tabs.next + 1)
          (call bearerDeployment tabs.next (tabs.next + 1) entry tabs.shared)).task i
          = some wait at hwait
        generalize call bearerDeployment tabs.next (tabs.next + 1) entry tabs.shared = ran
          at hends hwait
        rcases Coroutines.after_task hwait with ⟨-, hspawned⟩ | ⟨-, hwaits⟩ | ⟨-, hbefore⟩
        · cases hends <;> cases hspawned
        · cases hends with
          | login bearer r control held =>
              exact ⟨bearer, r, _, (Option.some.inj hwaits).symm, control, held, .inl rfl⟩
          | logout bearer r control held =>
              exact ⟨bearer, r, _, (Option.some.inj hwaits).symm, control, held, .inr rfl⟩
          | lock => cases hwaits
        · rw [hsound.numbered i hi] at hbefore
          cases hbefore
  · rcases (resume_resumed hran).generation with hsame | ⟨caller, hcaller, rfl⟩
    · exact absurd hsame.symm (Nat.ne_of_lt hnew)
    · have hown : i < tabs.next := by
        by_contra hlate
        rw [hsound.numbered i (Nat.le_of_not_lt hlate)] at hi
        cases hi
      refine ⟨rfl, rfl, Nat.le_succ _, ?_, ?_, hnumbered⟩
      · intro j other hj hother
        rcases Coroutines.after_task hother with ⟨rfl, -⟩ | ⟨rfl, hwaits⟩ | ⟨-, hbefore⟩
        · omega
        · obtain rfl := Option.some.inj hwaits
          exact .of_call rfl ((hsound.relies _ wait hi).call caller hcaller)
            (fun h => (by cases h)) (fun _ h => (by cases h)) fun _ h => (by cases h)
        · exact hsound.relies j other hbefore
      · intro j other hj hother
        rcases Coroutines.after_task hother with ⟨-, hspawned⟩ | ⟨rfl, -⟩ | ⟨-, hbefore⟩
        · cases hspawned
        · omega
        · rw [hsound.numbered j hj] at hbefore
          cases hbefore

-- A locked tab

/-- The turns in which nobody signs in: not with the form, not at an external provider, and not in
another tab whose session this one takes over.
-/
def NobodySignsIn (tabs : Coroutines Client Wait) : TaskTurn Entry Outcome → Prop
  | .call entry => entry ≠ .login ∧ entry ≠ .unlockSession ∧ entry ≠ .authenticated
  | .resume i _ => tabs.task i ≠ some .adopting

instance (tabs : Coroutines Client Wait) (turn : TaskTurn Entry Outcome)
    : Decidable (NobodySignsIn tabs turn) :=
  match turn with
  | .call entry => inferInstanceAs (Decidable (entry ≠ _ ∧ entry ≠ _ ∧ entry ≠ _))
  | .resume i _ => inferInstanceAs (Decidable (tabs.task i ≠ some .adopting))

/-- A tab that was locked in a generation or later. -/
structure Shut (base : Nat) (c : Client) : Prop where
  locked : c.locallyLocked = true
  token : c.token = none
  generation : base ≤ c.sessionGeneration

/-- Whether a task may get an answer. -/
def Wait.answers : Wait → Bool
  | .fetched .. => true
  | .returned data _ => data.isSome
  | _ => false

/-- What a task of a locked tab is held to. Requests that were sent since the lock are session
requests without a bearer of the tab, and answers come to calls of earlier generations only.
-/
structure StaysOut (base : Nat) (c : Client) (_ : Nat) (wait : Wait) : Prop where
  unsent : ∀ r, wait.unsent? = some r → r.sessionControl = false
  sent : ∀ g bearer r caller, wait = .fetched g bearer r caller → base ≤ g →
    r.sessionControl = true ∧ (bearer = r.authorization ∨ bearer = none)
  late : wait.answers = true → ∀ caller g, wait.caller? = some caller →
    caller.generation? = some g → g < c.sessionGeneration

/-- Tasks of a locked tab never take the generation back. -/
def Ages (_ : Nat) (c d : Client) : Prop := c.sessionGeneration ≤ d.sessionGeneration

variable {base : Nat}

/-- What a locked tab is after a turn. -/
abbrev KeepsOut (base own fresh : Nat) (c : Client) (ran : Ran Client Wait) : Prop :=
  ran.Cooperates (Shut base) (StaysOut base) Ages own fresh c

theorem Shut.lockSession (h : Shut base c) : Shut base c.lockSession :=
  ⟨rfl, rfl, Nat.le_succ_of_le h.generation⟩

theorem StaysOut.of_silent {i : Nat} (hanswers : wait.answers = false)
    (hunsent : ∀ r, wait.unsent? = some r → r.sessionControl = false)
    : StaysOut base c i wait where
  unsent := hunsent
  sent := fun _ _ _ _ h => by
    rw [h] at hanswers
    cases hanswers
  late := fun h => by
    rw [hanswers] at h
    cases h

theorem Pause.staysOut {i : Nat} (h : Pause c r caller wait) (hshut : Shut base c)
    (hcaller : r.sessionControl = true → caller.generation? = none)
    : StaysOut base d i wait := by
  cases h with
  | sent bearer hopen hheld =>
      have hcontrol : r.sessionControl = true := by
        cases hopen with
        | inl hcontrol => exact hcontrol
        | inr hopen => exact absurd (hshut.locked.symm.trans hopen) Bool.noConfusion
      refine ⟨fun _ h => (by cases h), ?_, fun _ other g hother hg => ?_⟩
      · rintro _ _ _ _ ⟨⟩ -
        exact ⟨hcontrol, hheld.imp_right fun h => h.trans hshut.token⟩
      · obtain rfl := Option.some.inj hother
        rw [hcaller hcontrol] at hg
        cases hg
  | refused locked => exact .of_silent rfl fun _ h => (by cases h)
  | refreshed refresh hprotected => exact .of_silent rfl fun _ h => Option.some.inj h ▸ hprotected
  | checked refresh hprotected hopen =>
      exact absurd (hshut.locked.symm.trans hopen) Bool.noConfusion

theorem Refreshes.keepsOut {work : Option Wait} (own : Nat) (h : Refreshes c fresh d work)
    (hshut : Shut base c)
    : Shut base d ∧ Ages own c d ∧ ∀ wait, work = some wait → StaysOut base d fresh wait := by
  cases h with
  | joined => exact ⟨hshut, Nat.le_refl _, fun _ h => (by cases h)⟩
  | started work alone hwork =>
      refine ⟨⟨hshut.locked, hshut.token, hshut.generation⟩, Nat.le_refl _, ?_⟩
      rintro _ ⟨⟩
      cases hwork with
      | locked => exact .of_silent rfl fun _ h => (by cases h)
      | sent bearer r control hopen held =>
          exact absurd (hshut.locked.symm.trans hopen) Bool.noConfusion

theorem request_keepsOut {isDue : Bool} (hshut : Shut base c)
    (hcaller : r.sessionControl = true → caller.generation? = none)
    : KeepsOut base own fresh c (request bearerDeployment fresh r isDue caller c) := by
  obtain ⟨hrefreshes, wait, hwait, hpause⟩ :=
    request_begins bearerDeployment fresh r isDue caller c
  obtain ⟨hshut', hages, hwork⟩ := hrefreshes.keepsOut own hshut
  refine ⟨hshut', hages, fun other hother => ?_, hwork⟩
  obtain rfl := Option.some.inj (hwait.symm.trans hother)
  exact hpause.staysOut hshut hcaller

theorem call_keepsOut {entry : Entry} (hshut : Shut base c)
    (hnobody : entry ≠ .login ∧ entry ≠ .unlockSession ∧ entry ≠ .authenticated)
    : KeepsOut base own fresh c (call bearerDeployment own fresh entry c) := by
  cases entry with
  | request r isDue => exact request_keepsOut hshut fun _ => rfl
  | login => exact absurd rfl hnobody.1
  | logoutSession =>
      exact Ran.Cooperates.after (request_keepsOut hshut.lockSession fun _ => rfl)
        fun h => Nat.le_trans (Nat.le_succ _) h
  | getSession =>
      simp only [call, hshut.locked, if_true]
      exact .of_end hshut (Nat.le_refl _)
  | refreshSession =>
      obtain ⟨hshut', hages, hwork⟩ :=
        (refreshSession_refreshes bearerDeployment own c).keepsOut own hshut
      exact ⟨hshut', hages, hwork, fun _ h => (by cases h)⟩
  | changePassword isDue =>
      have hprotected : RequestOptions.sessionControl { path := "/api/auth/change-password" }
          = false := by
        decide +kernel
      refine request_keepsOut hshut fun hcontrol => ?_
      rw [hprotected] at hcontrol
      cases hcontrol
  | lockSession => exact .of_end hshut.lockSession (Nat.le_succ _)
  | authenticated => exact absurd rfl hnobody.2.2
  | unlockSession => exact absurd rfl hnobody.2.1
  | message value =>
      simp only [call]
      rcases onMessage_cases c value with hsame | ⟨held, hheld, -, -⟩
      · rw [hsame]
        exact .of_end hshut (Nat.le_refl _)
      · rw [hshut.token] at hheld
        cases hheld

theorem acceptToken_late {generation : Nat} (data : Option SessionData)
    (h : data.isSome = true → generation < c.sessionGeneration)
    : acceptToken generation data c = c := by
  rcases acceptToken_cases generation data c with hsame | ⟨rfl, value, hvalue, -⟩
  · exact hsame
  · obtain ⟨answer, rfl, -⟩ := Option.bind_eq_some_iff.mp hvalue
    exact absurd (h rfl) (Nat.lt_irrefl _)

theorem Finished.keepsOut {data : Option SessionData} (h : Finished c data caller ran)
    (hshut : Shut base c) (hwait : StaysOut base c own (.returned data caller))
    : KeepsOut base own fresh c ran := by
  have hlate : ∀ g, caller.generation? = some g → data.isSome = true → g < c.sessionGeneration :=
    fun g hg hdata => hwait.late hdata caller g rfl hg
  cases h with
  | ended caller other => exact .of_end hshut (Nat.le_refl _)
  | discarded generation bearer r control held =>
      refine .of_wait hshut (Nat.le_refl _) ⟨fun _ h => (by cases h), ?_, ?_⟩
      · rintro _ _ _ _ ⟨⟩ -
        exact ⟨control, held.imp_right fun h => h.trans hshut.token⟩
      · rintro - _ g ⟨⟩ hg
        cases hg
  | signedIn d answered opened => exact absurd (hlate _ rfl answered) (Nat.lt_irrefl _)
  | adopted answered => exact absurd (hlate _ rfl answered) (Nat.lt_irrefl _)
  | refreshed generation =>
      rw [acceptToken_late data (hlate generation rfl)]
      exact .of_wait hshut (Nat.le_refl _) (.of_silent rfl fun _ h => (by cases h))
  | changed generation =>
      rw [acceptToken_late data (hlate generation rfl)]
      exact .of_end hshut (Nat.le_refl _)

theorem Received.keepsOut {generation : Nat} {bearer : Option Bearer} {reply : Reply}
    (h : Received c generation r caller reply ran) (hshut : Shut base c)
    (hwait : StaysOut base c own (.fetched generation bearer r caller))
    : KeepsOut base own fresh c ran := by
  cases h with
  | returned reply data answer =>
      refine .of_wait hshut (Nat.le_refl _)
        ⟨fun _ h => (by cases h), fun _ _ _ _ h => (by cases h), ?_⟩
      exact fun _ other g hother hg => hwait.late rfl other g hother hg
  | refused current =>
      exact .of_wait hshut.lockSession (Nat.le_succ _) (.of_silent rfl fun _ h => (by cases h))
  | repeated refresh hprotected =>
      exact .of_wait hshut (Nat.le_refl _)
        (.of_silent rfl fun _ h => Option.some.inj h ▸ hprotected)

theorem Resumed.keepsOut {outcome : Outcome}
    (h : Resumed bearerDeployment fresh c wait outcome ran) (hshut : Shut base c)
    (hwait : StaysOut base c own wait) (hnobody : wait ≠ .adopting)
    : KeepsOut base own fresh c ran := by
  have hprotected : ∀ r, wait.unsent? = some r → ∀ caller : Caller, r.sessionControl = true →
      caller.generation? = none := by
    intro r hr _ hcontrol
    rw [hwait.unsent r hr] at hcontrol
    cases hcontrol
  cases h with
  | paused wait again r caller isDue unsent call same silent pause =>
      exact .of_wait hshut (Nat.le_refl _)
        ((pause (hwait.unsent r unsent)).staysOut hshut (hprotected r unsent caller))
  | received generation bearer r caller reply ran h => exact h.keepsOut hshut hwait
  | repeated refresh r caller isDue => exact request_keepsOut hshut (hprotected r rfl caller)
  | returned data caller isDue ran h => exact h.keepsOut hshut hwait
  | adopting isDue => exact absurd rfl hnobody
  | settling isDue =>
      exact .of_end ⟨hshut.locked, hshut.token, hshut.generation⟩ (Nat.le_refl _)

theorem StaysOut.outlives {i : Nat} (hages : Ages own c d) (h : StaysOut base c i wait)
    : StaysOut base d i wait where
  unsent := h.unsent
  sent := h.sent
  late := fun hanswers caller g hcaller hg =>
    Nat.lt_of_lt_of_le (h.late hanswers caller g hcaller hg) hages

theorem tab_keepsOut (bearerDeployment : Bool) (base : Nat)
    : Cooperation (tab bearerDeployment) NobodySignsIn 0 (Shut base) (StaysOut base) Ages where
  outlives := fun hages _ h => h.outlives hages
  call := fun _ hshut hnobody => call_keepsOut hshut hnobody
  resume := fun _ hshut hwait hi hnobody h =>
    (resume_resumed h).keepsOut hshut hwait fun hadopting => hnobody (hadopting ▸ hi)

theorem Renewed.staysOut {i : Nat} {turn : TaskTurn Entry Outcome} (h : Renewed turn tabs later)
    (hturn : turn ≠ .call .login)
    (hi : later.task i = some wait)
    : StaysOut later.shared.sessionGeneration later.shared i wait := by
  by_cases hold : i < tabs.next
  · have hrelies := h.old i wait hold hi
    refine ⟨hrelies.unsent, ?_, fun _ caller g hcaller hg => ?_⟩
    · rintro g bearer r caller rfl hg
      have hsent := hrelies.sent g rfl
      rw [h.generation] at hg
      omega
    · rw [h.generation]
      exact Nat.lt_succ_of_le ((hrelies.call caller hcaller).generation g hg)
  · obtain ⟨bearer, r, caller, rfl, hcontrol, hheld, hcaller⟩ :=
      h.new i wait (Nat.le_of_not_lt hold) hi
    refine ⟨fun _ h => (by cases h), ?_, ?_⟩
    · rintro _ _ _ _ ⟨⟩ -
      exact ⟨hcontrol, hheld⟩
    · rintro - other g ⟨⟩ hg
      rcases hcaller with hlogin | rfl
      · exact absurd hlogin hturn
      · cases hg

/-- Once a tab is locked, by a logout, by an event or by a refused request, it stays locked and
holds no token as long as nobody signs in, whichever replies arrive; and every request that it
sends since is one of the session itself, with no bearer but its own.
-/
theorem locked_until_signIn {tabs locked later : Coroutines Client Wait}
    (hreached : TabReached bearerDeployment tabs) {turn : TaskTurn Entry Outcome}
    (hturn : turn ≠ .call .login)
    (hstep : Coroutines.step (tab bearerDeployment) turn tabs = .ok locked)
    (hlock : locked.shared = tabs.shared.lockSession)
    (hrun : Coroutines.Reached (tab bearerDeployment) NobodySignsIn locked later)
    : later.shared.locallyLocked = true ∧ later.shared.token = none
      ∧ ∀ i generation bearer r caller,
          later.task i = some (.fetched generation bearer r caller) →
          locked.shared.sessionGeneration ≤ generation →
          r.sessionControl = true ∧ (bearer = r.authorization ∨ bearer = none) := by
  have hnew : tabs.shared.sessionGeneration < locked.shared.sessionGeneration := by
    rw [hlock]
    exact Nat.lt_succ_self _
  have hrenewed := step_renewed hreached.sound hstep hnew
  have hstart : locked.Sound 0 (Shut locked.shared.sessionGeneration)
      (StaysOut locked.shared.sessionGeneration) :=
    {
      later := Nat.zero_le _
      good := ⟨by rw [hlock]; rfl, hrenewed.token, Nat.le_refl _⟩
      relies := fun i wait hi => hrenewed.staysOut hturn hi
      numbered := hrenewed.numbered
    }
  have hsound := (tab_keepsOut bearerDeployment _).invariant hstart hrun
  exact ⟨hsound.good.locked, hsound.good.token, fun i generation bearer r caller hi hsent =>
    (hsound.relies i _ hi).sent generation bearer r caller rfl hsent⟩

/-- A tab with a refresh under way, after its logout. -/
def refreshing : Coroutines Client Wait :=
  (Coroutines.idle {}).after 0 1 (call true 0 1 .refreshSession {})

/-- The reply to a refresh, which its call then takes. -/
def refreshedWith (token : Bearer) : List (TaskTurn Entry Outcome) :=
  [.resume 0 (.replied (.answered (some { accessToken := some token }))),
    .resume 0 (.resolved false)]

/-- A tab that signs out during a refresh stays locked when the token arrives. -/
theorem locked_until_signIn_late
    : ∃ later, Coroutines.Reached (tab true) NobodySignsIn
          (refreshing.after 2 3 (call true 2 3 .logoutSession refreshing.shared)) later
        ∧ later.task 0 = some .settling
        ∧ later.shared.locallyLocked = true ∧ later.shared.token = none := by
  have hrun : (runAdmitted (Coroutines.step (tab true)) NobodySignsIn
      (refreshedWith ⟨"late", none, none⟩)
      (refreshing.after 2 3 (call true 2 3 .logoutSession refreshing.shared))).map
        (fun tabs => tabs.task 0) = some (some .settling) := by
    decide +kernel
  obtain ⟨later, hlater, htask⟩ := Option.map_eq_some_iff.mp hrun
  have hreached : TabReached true refreshing := .step (.call .refreshSession) .start trivial rfl
  have hrun := Reachable.of_runAdmitted .start hlater
  have hstep : Coroutines.step (tab true) (.call .logoutSession) refreshing
      = .ok (refreshing.after 2 3 (call true 2 3 .logoutSession refreshing.shared)) := rfl
  have hlocked := locked_until_signIn hreached (by decide) hstep (by decide +kernel) hrun
  exact ⟨later, hrun, htask, hlocked.1, hlocked.2.1⟩

-- A new session

/-- The turns in which the calls from a number on are answered with tokens of some sessions. What
earlier calls are answered is open.
-/
def AnsweredAs (P : Option String → Prop) (first : Nat) (_ : Coroutines Client Wait)
    : TaskTurn Entry Outcome → Prop
  | .resume i (.replied (.answered data)) =>
      first ≤ i → ∀ value, data.bind SessionData.accessToken = some value → P value.sessionId
  | _ => True

/-- A tab in a generation or a later one, with a token of some sessions. -/
structure Held (P : Option String → Prop) (base : Nat) (c : Client) : Prop where
  generation : base ≤ c.sessionGeneration
  token : ∀ value, c.token = some value → P value.sessionId

/-- What a task brings into a new session: earlier calls are of an earlier generation, and later
ones are answered with its tokens.
-/
structure Brings (P : Option String → Prop) (base first : Nat) (_ : Client) (i : Nat) (wait : Wait)
    : Prop where
  old : i < first → ∀ caller g, wait.caller? = some caller → caller.generation? = some g → g < base
  new : first ≤ i → ∀ data caller, wait = .returned data caller →
    ∀ value, data.bind SessionData.accessToken = some value → P value.sessionId

variable {P : Option String → Prop} {first : Nat}

/-- What a tab of a new session is after a turn. -/
abbrev KeepsHeld (P : Option String → Prop) (base first own fresh : Nat) (c : Client)
    (ran : Ran Client Wait)
    : Prop :=
  ran.Cooperates (Held P base) (Brings P base first) (fun _ _ _ => True) own fresh c

theorem Held.lockSession (h : Held P base c) : Held P base c.lockSession :=
  ⟨Nat.le_succ_of_le h.generation, fun _ h => (by cases h)⟩

theorem Held.startSessionTransition (h : Held P base c) : Held P base c.startSessionTransition :=
  ⟨Nat.le_succ_of_le h.generation, fun _ h => (by cases h)⟩

theorem Held.of_token {value : Bearer} (h : Held P base c) (hvalue : P value.sessionId)
    : Held P base { c with token := some value, locallyLocked := false } where
  generation := h.generation
  token := fun _ hheld => Option.some.inj hheld ▸ hvalue

theorem Brings.of_call {i : Nat} (hcaller : wait.caller? = some caller)
    (hold : i < first → ∀ g, caller.generation? = some g → g < base)
    (hanswer : ∀ data other, wait = .returned data other → data = none)
    : Brings P base first c i wait where
  old := fun hi other g hother hg => by
    obtain rfl := Option.some.inj (hcaller.symm.trans hother)
    exact hold hi g hg
  new := fun _ data other hwait value hvalue => by
    rw [hanswer data other hwait] at hvalue
    cases hvalue

theorem Pause.brings {i : Nat} (h : Pause c r caller wait)
    (hold : i < first → ∀ g, caller.generation? = some g → g < base)
    : Brings P base first d i wait := by
  cases h with
  | sent bearer hopen hheld => exact .of_call rfl hold fun _ _ h => (by cases h)
  | refused locked =>
      refine .of_call rfl hold ?_
      rintro _ _ ⟨⟩
      rfl
  | refreshed refresh hprotected => exact .of_call rfl hold fun _ _ h => (by cases h)
  | checked refresh hprotected hopen => exact .of_call rfl hold fun _ _ h => (by cases h)

theorem Refreshes.keepsHeld {work : Option Wait} (h : Refreshes c fresh d work)
    (hheld : Held P base c) (hfresh : first ≤ fresh)
    : Held P base d ∧ ∀ wait, work = some wait → Brings P base first d fresh wait := by
  cases h with
  | joined => exact ⟨hheld, fun _ h => (by cases h)⟩
  | started work alone hwork =>
      refine ⟨⟨hheld.generation, hheld.token⟩, ?_⟩
      rintro _ ⟨⟩
      refine ⟨fun hi => absurd hfresh (Nat.not_le_of_lt hi), fun _ _ _ h => ?_⟩
      cases hwork <;> cases h

theorem request_keepsHeld {isDue : Bool} (hheld : Held P base c) (hfresh : first ≤ fresh)
    (hold : own < first → ∀ g, caller.generation? = some g → g < base)
    : KeepsHeld P base first own fresh c
        (request bearerDeployment fresh r isDue caller c) := by
  obtain ⟨hrefreshes, wait, hwait, hpause⟩ :=
    request_begins bearerDeployment fresh r isDue caller c
  obtain ⟨hheld', hwork⟩ := hrefreshes.keepsHeld hheld hfresh
  refine ⟨hheld', trivial, fun other hother => ?_, hwork⟩
  obtain rfl := Option.some.inj (hwait.symm.trans hother)
  exact hpause.brings hold

theorem call_keepsHeld (hheld : Held P base c) (hown : first ≤ own) (hfresh : first ≤ fresh)
    (entry : Entry)
    : KeepsHeld P base first own fresh c (call bearerDeployment own fresh entry c) := by
  have hold (caller : Caller) : own < first → ∀ g, caller.generation? = some g → g < base :=
    fun hi => absurd hown (Nat.not_le_of_lt hi)
  cases entry with
  | request r isDue => exact request_keepsHeld hheld hfresh (hold _)
  | login =>
      exact Ran.Cooperates.after
        (request_keepsHeld hheld.startSessionTransition hfresh (hold _)) fun _ => trivial
  | logoutSession =>
      exact Ran.Cooperates.after (request_keepsHeld hheld.lockSession hfresh (hold _))
        fun _ => trivial
  | getSession =>
      simp only [call]
      split
      · exact .of_end hheld trivial
      · exact request_keepsHeld hheld hfresh (hold _)
  | refreshSession =>
      obtain ⟨hheld', hwork⟩ :=
        (refreshSession_refreshes bearerDeployment own c).keepsHeld hheld hown
      exact ⟨hheld', trivial, hwork, fun _ h => (by cases h)⟩
  | changePassword isDue => exact request_keepsHeld hheld hfresh (hold _)
  | lockSession => exact .of_end hheld.lockSession trivial
  | authenticated => exact request_keepsHeld hheld hfresh (hold _)
  | unlockSession => exact .of_end ⟨hheld.generation, hheld.token⟩ trivial
  | message value =>
      simp only [call]
      rcases onMessage_cases c value with hsame | ⟨held, htoken, hsession, hset⟩
      · rw [hsame]
        exact .of_end hheld trivial
      · rw [hset]
        exact .of_end (hheld.of_token (hsession ▸ hheld.token held htoken)) trivial

theorem acceptToken_held {generation i : Nat} {data : Option SessionData} (hheld : Held P base c)
    (hwait : Brings P base first c i (.returned data caller))
    (hgeneration : caller.generation? = some generation)
    : Held P base (acceptToken generation data c) := by
  rcases acceptToken_cases generation data c with hsame | ⟨rfl, value, hvalue, hset⟩
  · rw [hsame]
    exact hheld
  · rw [hset]
    refine hheld.of_token (hwait.new ?_ data caller rfl value hvalue)
    by_contra hi
    have := hwait.old (Nat.lt_of_not_le hi) caller _ rfl hgeneration
    have := hheld.generation
    omega

theorem Finished.keepsHeld {data : Option SessionData} (h : Finished c data caller ran)
    (hheld : Held P base c) (hwait : Brings P base first c own (.returned data caller))
    : KeepsHeld P base first own fresh c ran := by
  cases h with
  | ended caller other => exact .of_end hheld trivial
  | discarded generation bearer r control held =>
      exact .of_wait hheld trivial
        (.of_call rfl (fun _ _ h => (by cases h)) fun _ _ h => (by cases h))
  | signedIn d answered opened =>
      rcases opened with rfl | ⟨value, hvalue, rfl⟩
      · exact .of_end ⟨hheld.generation, hheld.token⟩ trivial
      · refine .of_end (hheld.of_token (hwait.new ?_ data _ rfl value hvalue)) trivial
        by_contra hi
        have := hwait.old (Nat.lt_of_not_le hi) _ _ rfl rfl
        have := hheld.generation
        omega
  | adopted answered =>
      exact .of_wait hheld trivial ⟨fun _ _ _ h => (by cases h), fun _ _ _ h => (by cases h)⟩
  | refreshed generation =>
      exact .of_wait (acceptToken_held hheld hwait rfl) trivial
        ⟨fun _ _ _ h => (by cases h), fun _ _ _ h => (by cases h)⟩
  | changed generation => exact .of_end (acceptToken_held hheld hwait rfl) trivial

theorem Received.keepsHeld {generation : Nat} {bearer : Option Bearer} {reply : Reply}
    (h : Received c generation r caller reply ran) (hheld : Held P base c)
    (hwait : Brings P base first c own (.fetched generation bearer r caller))
    (hadmits : ∀ data, reply = .answered data → first ≤ own →
      ∀ value, data.bind SessionData.accessToken = some value → P value.sessionId)
    : KeepsHeld P base first own fresh c ran := by
  have hold := fun hi => hwait.old hi caller
  cases h with
  | returned reply data answer =>
      refine .of_wait hheld trivial ⟨fun hi other g hother => ?_, ?_⟩
      · obtain rfl := Option.some.inj hother
        exact hold hi g rfl
      · rintro hi _ _ ⟨⟩ value hvalue
        obtain ⟨token, rfl, -⟩ := Option.bind_eq_some_iff.mp hvalue
        exact hadmits _ (answer rfl) hi value hvalue
  | refused current =>
      refine .of_wait hheld.lockSession trivial (.of_call rfl (fun hi g => hold hi g rfl) ?_)
      rintro _ _ ⟨⟩
      rfl
  | repeated refresh hprotected =>
      exact .of_wait hheld trivial
        (.of_call rfl (fun hi g => hold hi g rfl) fun _ _ h => (by cases h))

theorem Resumed.keepsHeld {outcome : Outcome}
    (h : Resumed bearerDeployment fresh c wait outcome ran) (hheld : Held P base c)
    (hfresh : first ≤ fresh) (hwait : Brings P base first c own wait)
    (hadmits : ∀ data, outcome = .replied (.answered data) → first ≤ own →
      ∀ value, data.bind SessionData.accessToken = some value → P value.sessionId)
    : KeepsHeld P base first own fresh c ran := by
  have hold : own < first → ∀ caller, wait.caller? = some caller →
      ∀ g, caller.generation? = some g → g < base :=
    fun hi caller hcaller g hg => hwait.old hi caller g hcaller hg
  cases h with
  | paused wait again r caller isDue unsent call same silent pause =>
      exact .of_wait hheld trivial (.of_call same (fun hi => hold hi caller call) silent)
  | received generation bearer r caller reply ran h =>
      exact h.keepsHeld hheld hwait fun data hreply => hadmits data (hreply ▸ rfl)
  | repeated refresh r caller isDue =>
      exact request_keepsHeld hheld hfresh fun hi => hold hi caller rfl
  | returned data caller isDue ran h => exact h.keepsHeld hheld hwait
  | adopting isDue => exact .of_end ⟨hheld.generation, hheld.token⟩ trivial
  | settling isDue => exact .of_end ⟨hheld.generation, hheld.token⟩ trivial

theorem tab_keepsHeld (bearerDeployment : Bool) (P : Option String → Prop) (base first : Nat)
    : Cooperation (tab bearerDeployment) (AnsweredAs P first) first (Held P base)
        (Brings P base first) (fun _ _ _ => True) where
  outlives := fun _ _ h => ⟨h.old, h.new⟩
  call := fun {_ entry} hfirst hheld _ =>
    call_keepsHeld hheld hfirst (Nat.le_succ_of_le hfirst) entry
  resume := fun hfirst hheld hwait _ hadmits h =>
    (resume_resumed h).keepsHeld hheld hfirst hwait fun _ houtcome => by
      subst houtcome
      exact hadmits

/-- Once a new generation begins, with a login, a logout or a lock, the tab only ever holds tokens
of the sessions that the calls since then were answered with: whatever is answered to an earlier
refresh, login or change of the password, in whichever order, and whatever another tab announces.
-/
theorem token_of_newSession {tabs renewed later : Coroutines Client Wait}
    (hreached : TabReached bearerDeployment tabs) {turn : TaskTurn Entry Outcome}
    (hstep : Coroutines.step (tab bearerDeployment) turn tabs = .ok renewed)
    (hnew : tabs.shared.sessionGeneration < renewed.shared.sessionGeneration)
    (hrun : Coroutines.Reached (tab bearerDeployment) (AnsweredAs P tabs.next) renewed later)
    {value : Bearer} (hvalue : later.shared.token = some value)
    : P value.sessionId := by
  have hrenewed := step_renewed hreached.sound hstep hnew
  have hstart : renewed.Sound tabs.next (Held P renewed.shared.sessionGeneration)
      (Brings P renewed.shared.sessionGeneration tabs.next) :=
    {
      later := hrenewed.next
      good := ⟨Nat.le_refl _, fun held hheld => by
        rw [hrenewed.token] at hheld
        cases hheld⟩
      relies := fun i wait hi => ?_
      numbered := hrenewed.numbered
    }
  · exact ((tab_keepsHeld bearerDeployment P _ _).invariant hstart hrun).good.token value hvalue
  · refine ⟨fun hold caller g hcaller hg => ?_, fun hlate data caller hwait => ?_⟩
    · rw [hrenewed.generation]
      exact Nat.lt_succ_of_le (((hrenewed.old i wait hold hi).call caller hcaller).generation g hg)
    · obtain ⟨bearer, r, _, hsent, -⟩ := hrenewed.new i wait hlate hi
      rw [hsent] at hwait
      cases hwait

/-- A login that overtakes a refresh keeps its own token. -/
theorem token_of_newSession_overtaking
    : ∃ later, Coroutines.Reached (tab true) (AnsweredAs (fun id => id = some "new") 2)
          (refreshing.after 2 3 (call true 2 3 .login refreshing.shared)) later
        ∧ later.task 0 = some .settling ∧ later.shared.token = some ⟨"token", some "new", none⟩
        ∧ (⟨"token", some "new", none⟩ : Bearer).sessionId = some "new" := by
  have hrun : (runAll (Coroutines.step (tab true))
      ([.resume 2 (.replied (.answered (some { accessToken := some ⟨"token", some "new", none⟩ }))),
        .resume 2 (.resolved false)] ++ refreshedWith ⟨"late", some "old", none⟩)
      (refreshing.after 2 3 (call true 2 3 .login refreshing.shared))).map
        (fun tabs => (tabs.task 0, tabs.shared.token))
      = some (some .settling, some ⟨"token", some "new", none⟩) := by
    decide +kernel
  obtain ⟨later, hlater, hends⟩ := Option.map_eq_some_iff.mp hrun
  obtain ⟨htask, htoken⟩ := Prod.mk.inj hends
  have hreached : TabReached true refreshing := .step (.call .refreshSession) .start trivial rfl
  have hrun : Coroutines.Reached (tab true) (AnsweredAs (fun id => id = some "new") 2)
      (refreshing.after 2 3 (call true 2 3 .login refreshing.shared)) later := by
    refine Reachable.of_runAll .start (fun tabs => ?_) hlater
    simp only [refreshedWith, List.cons_append, List.nil_append, List.forall_mem_cons]
    refine ⟨?_, trivial, ?_, trivial, fun _ h => (by cases h)⟩
    · rintro - _ ⟨⟩
      rfl
    · intro h
      exact absurd h (by decide)
  have hstep : Coroutines.step (tab true) (.call .login) refreshing
      = .ok (refreshing.after 2 3 (call true 2 3 .login refreshing.shared)) := rfl
  exact ⟨later, hrun, htask, htoken,
    token_of_newSession hreached hstep (by decide +kernel) hrun htoken⟩

end LicenseTrack.SessionClient
