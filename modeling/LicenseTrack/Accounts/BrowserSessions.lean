import LicenseTrack.Accounts.SessionClient

/-! What holds of a tab's session whatever its calls do and in whichever order replies arrive: one
refresh at a time, a lock that no late reply opens, and a bearer of the current session.
-/

namespace LicenseTrack.SessionClient

open Library

variable {bearerDeployment isDue : Bool} {own fresh : Nat} {c d : Client} {r : RequestOptions}
  {caller : Caller} {wait : Wait} {ran : Ran Client Wait}

theorem setToken_cases (c : Client) (value : Bearer)
    : c.setToken value = c
      ∨ c.setToken value = { c with token := some value, locallyLocked := false } := by
  simp only [Client.setToken]
  split
  · exact .inl rfl
  · exact .inr rfl

theorem onMessage_cases (c : Client) (value : Bearer)
    : c.onMessage value = c
      ∨ ∃ held, c.token = some held ∧ held.sessionId = value.sessionId
        ∧ c.onMessage value = { c with token := some value, locallyLocked := false } := by
  simp only [Client.onMessage]
  split
  · next h =>
      rw [Bool.and_eq_true, Option.any_eq_true] at h
      obtain ⟨-, held, hheld, hsame⟩ := h
      cases setToken_cases c value with
      | inl hdropped => exact .inl hdropped
      | inr hset => exact .inr ⟨held, hheld, by simpa using hsame, hset⟩
  · exact .inl rfl

theorem acceptToken_cases (generation : Nat) (data : Option SessionData) (c : Client)
    : acceptToken generation data c = c
      ∨ generation = c.sessionGeneration
        ∧ ∃ value, data.bind SessionData.accessToken = some value
          ∧ acceptToken generation data c
            = { c with token := some value, locallyLocked := false } := by
  simp only [acceptToken]
  split
  · next hgeneration =>
      split
      · next value hvalue =>
          cases setToken_cases c value with
          | inl hdropped => exact .inl hdropped
          | inr hset => exact .inr ⟨hgeneration, value, hvalue, hset⟩
      · exact .inl rfl
  · exact .inl rfl

/-- What a request may wait for when it begins or goes on. -/
inductive Pause (c : Client) (r : RequestOptions) (caller : Caller) : Wait → Prop
  | sent (bearer : Option Bearer) (open_ : r.sessionControl = true ∨ c.locallyLocked = false)
      (held : bearer = r.authorization ∨ bearer = c.token)
      : Pause c r caller (.fetched c.sessionGeneration bearer r caller)
  | refused (locked : c.locallyLocked = true) : Pause c r caller (.returned none caller)
  | refreshed (refresh : Nat) (protected_ : r.sessionControl = false)
      : Pause c r caller (.refreshed refresh r caller)
  | checked (refresh : Option Nat) (protected_ : r.sessionControl = false)
      (open_ : c.locallyLocked = false)
      : Pause c r caller (.checked refresh r caller)

theorem send_eq (bearerDeployment : Bool) (r : RequestOptions) (caller : Caller) (c : Client)
    : ∃ bearer, (bearer = r.authorization ∨ bearer = c.token)
        ∧ send bearerDeployment r caller c = .fetched c.sessionGeneration bearer r caller := by
  refine ⟨_, ?_, rfl⟩
  split
  · exact .inr rfl
  · exact .inl rfl

theorem send_pause (h : r.sessionControl = true ∨ c.locallyLocked = false)
    : Pause c r caller (send bearerDeployment r caller c) := by
  obtain ⟨bearer, hheld, hsend⟩ := send_eq bearerDeployment r caller c
  rw [hsend]
  exact .sent bearer h hheld

theorem sendUnlocked_pause : Pause c r caller (sendUnlocked bearerDeployment r caller c) := by
  unfold sendUnlocked
  split
  · next hlocked => exact .refused hlocked
  · next hopen => exact send_pause (.inr (by simpa using hopen))

theorem afterCheck_pause (bearerDeployment : Bool) (caller : Caller) (c : Client)
    (hprotected : r.sessionControl = false)
    : Pause c r caller (afterCheck bearerDeployment r caller c) := by
  unfold afterCheck
  split
  · exact .refreshed _ hprotected
  · exact sendUnlocked_pause

/-- What `refreshSession` waits for when it starts the work of a number. -/
inductive Work (c : Client) : Wait → Prop
  | locked : Work c .settling
  | sent (bearer : Option Bearer) (r : RequestOptions) (control : r.sessionControl = true)
      (open_ : c.locallyLocked = false) (held : bearer = r.authorization ∨ bearer = c.token)
      : Work c (.fetched c.sessionGeneration bearer r (.refreshSession c.sessionGeneration))

/-- A refresh is joined, or started where there is none. -/
inductive Refreshes (c : Client) (own : Nat) : Client → Option Wait → Prop
  | joined : Refreshes c own c none
  | started (work : Wait) (alone : c.refreshPromise = none) (h : Work c work)
      : Refreshes c own { c with refreshPromise := some own } (some work)

theorem refreshSession_refreshes (bearerDeployment : Bool) (own : Nat) (c : Client)
    : Refreshes c own (refreshSession bearerDeployment own c).2.1
        (refreshSession bearerDeployment own c).2.2 := by
  unfold refreshSession
  split
  · exact .joined
  · next halone =>
      refine .started _ halone ?_
      split
      · exact .locked
      · next hopen =>
          have hopen : c.locallyLocked = false := by simpa using hopen
          obtain ⟨bearer, hheld, hsend⟩ := send_eq bearerDeployment
            { path := "/api/auth/refresh", redirectOn401 := false }
            (.refreshSession c.sessionGeneration) c
          rw [hsend]
          exact .sent bearer _ (by decide +kernel) hopen hheld

theorem request_begins (bearerDeployment : Bool) (fresh : Nat) (r : RequestOptions) (isDue : Bool)
    (caller : Caller) (c : Client)
    : Refreshes c fresh (request bearerDeployment fresh r isDue caller c).shared
        (request bearerDeployment fresh r isDue caller c).spawned
      ∧ ∃ wait, (request bearerDeployment fresh r isDue caller c).waits = some wait
        ∧ Pause c r caller wait := by
  unfold request
  split
  · next hcontrol => exact ⟨.joined, _, rfl, send_pause (.inl hcontrol)⟩
  · next hprotected =>
      have hprotected : r.sessionControl = false := by simpa using hprotected
      split
      · exact ⟨.joined, _, rfl, afterCheck_pause bearerDeployment caller c hprotected⟩
      · next hopen =>
          have hopen : c.locallyLocked = false := by simpa using hopen
          split
          · exact ⟨refreshSession_refreshes .., _, rfl, .checked _ hprotected hopen⟩
          · exact ⟨.joined, _, rfl, .checked _ hprotected hopen⟩

/-- What a reply leaves of a request: it returns, perhaps with a lock, or is repeated. -/
inductive Received (c : Client) (generation : Nat) (r : RequestOptions) (caller : Caller)
    : Reply → Ran Client Wait → Prop
  | returned (reply : Reply) (data : Option SessionData)
      (answer : data.isSome = true → reply = .answered data)
      : Received c generation r caller reply
          { shared := c, waits := some (.returned data caller) }
  | refused (current : generation = c.sessionGeneration)
      : Received c generation r caller .unauthorized
          { shared := c.lockSession, waits := some (.returned none caller) }
  | repeated (refresh : Nat) (protected_ : r.sessionControl = false)
      : Received c generation r caller .unauthorized
          { shared := c, waits := some (.repeated refresh r caller) }

theorem receive_received (generation : Nat) (r : RequestOptions) (caller : Caller) (reply : Reply)
    (c : Client)
    : Received c generation r caller reply (receive generation r caller reply c) := by
  cases reply with
  | networkError => exact .returned _ none (by simp)
  | answered data => exact .returned _ data fun _ => rfl
  | unauthorized =>
      have hrefuse (hcurrent : generation = c.sessionGeneration)
          : Received c generation r caller .unauthorized (refuse r caller c) := by
        unfold refuse
        split
        · exact .refused hcurrent
        · exact .returned _ none (by simp)
      simp only [receive]
      split
      · exact .returned _ none (by simp)
      · next hcurrent =>
          have hcurrent : generation = c.sessionGeneration := by simpa using hcurrent
          split
          · split
            · next h => exact .repeated _ (by simp at h; exact h.1)
            · exact hrefuse hcurrent
          · exact hrefuse hcurrent

/-- What the calls leave when their requests have returned. -/
inductive Finished (c : Client) (data : Option SessionData) : Caller → Ran Client Wait → Prop
  | ended (caller : Caller) (other : ∀ generation, caller ≠ .refreshSession generation)
      : Finished c data caller { shared := c }
  | discarded (generation : Nat) (bearer : Option Bearer) (r : RequestOptions)
      (control : r.sessionControl = true) (held : bearer = r.authorization ∨ bearer = c.token)
      : Finished c data (.login generation)
          { shared := c, waits := some (.fetched c.sessionGeneration bearer r .discardedLogin) }
  | signedIn (d : Client) (answered : data.isSome = true)
      (opened : d = c.unlockSession
        ∨ ∃ value, data.bind SessionData.accessToken = some value
          ∧ d = { c with token := some value, locallyLocked := false })
      : Finished c data (.login c.sessionGeneration) { shared := d }
  | adopted (answered : data.isSome = true)
      : Finished c data (.getSession c.sessionGeneration true)
          { shared := c, waits := some .adopting }
  | refreshed (generation : Nat)
      : Finished c data (.refreshSession generation)
          { shared := acceptToken generation data c, waits := some .settling }
  | changed (generation : Nat)
      : Finished c data (.changePassword generation) { shared := acceptToken generation data c }

theorem finishLogin_finished (bearerDeployment : Bool) (generation : Nat)
    (data : Option SessionData) (c : Client)
    : Finished c data (.login generation) (finishLogin bearerDeployment generation data c) := by
  simp only [finishLogin]
  split
  · split
    · next value _ =>
        obtain ⟨bearer, hheld, hsend⟩ := send_eq bearerDeployment
          { path := "/api/auth/logout", redirectOn401 := false, authorization := some value }
          .discardedLogin c
        rw [hsend]
        have hcontrol : RequestOptions.sessionControl { path := "/api/auth/logout" } = true := by
          decide +kernel
        exact .discarded generation bearer _ hcontrol hheld
    · exact .ended _ (by simp)
  · next hcurrent =>
      obtain rfl : generation = c.sessionGeneration := by simpa using hcurrent
      cases data with
      | none => exact .ended _ (by simp)
      | some answer =>
          cases htoken : answer.accessToken with
          | none => simpa only [htoken] using .signedIn _ rfl (.inl rfl)
          | some value =>
              simp only [htoken]
              refine .signedIn _ rfl ?_
              cases setToken_cases c.unlockSession value with
              | inl hdropped => exact .inl hdropped
              | inr hset => exact .inr ⟨value, htoken, hset⟩

theorem finish_finished (bearerDeployment : Bool) (data : Option SessionData) (caller : Caller)
    (c : Client)
    : Finished c data caller (finish bearerDeployment data caller c) := by
  cases caller with
  | page => exact .ended _ (by simp)
  | discardedLogin => exact .ended _ (by simp)
  | logoutSession => exact .ended _ (by simp)
  | login generation => exact finishLogin_finished bearerDeployment generation data c
  | getSession generation allowLocked =>
      simp only [finish]
      split
      · exact .ended _ (by simp)
      · next hcurrent =>
          obtain ⟨rfl, -⟩ : generation = c.sessionGeneration ∧ _ := by simpa using hcurrent
          split
          · next hadopts =>
              rw [Bool.and_eq_true] at hadopts
              obtain ⟨rfl, hdata⟩ := hadopts
              exact .adopted (Option.isSome_of_any hdata)
          · exact .ended _ (by simp)
  | refreshSession generation => exact .refreshed generation
  | changePassword generation => exact .changed generation

-- Every run

namespace Caller

/-- The generation in which a session call began. -/
def generation? : Caller → Option Nat
  | .login generation | .getSession generation _ | .refreshSession generation
  | .changePassword generation => some generation
  | .page | .discardedLogin | .logoutSession => none

/-- The calls that replace the token of a session without a sign-in. -/
def renewsToken : Caller → Bool
  | .refreshSession _ | .changePassword _ => true
  | _ => false

/-- Whether a call is the work of a refresh. -/
def isRefresh : Caller → Bool
  | .refreshSession _ => true
  | _ => false

end Caller

namespace Wait

/-- The call that waits. -/
def caller? : Wait → Option Caller
  | .checked _ _ caller | .refreshed _ _ caller | .fetched _ _ _ caller | .repeated _ _ caller
  | .returned _ caller => some caller
  | .adopting | .settling => none

/-- Whether a task is the work of a refresh. -/
def isRefresh (wait : Wait) : Bool := wait == .settling || wait.caller?.any Caller.isRefresh

/-- The request that a task has not sent yet, or will repeat. -/
def unsent? : Wait → Option RequestOptions
  | .checked _ r _ | .refreshed _ r _ | .repeated _ r _ => some r
  | _ => none

/-- The generation in which the request of a task was sent, until its reply is here. -/
def sentIn? : Wait → Option Nat
  | .fetched generation _ _ _ => some generation
  | _ => none

/-- Whether what a task waits for can be a token that renews the session. -/
def bringsToken : Wait → Bool
  | .fetched _ _ _ caller => caller.renewsToken
  | .returned data caller => data.isSome && caller.renewsToken
  | _ => false

end Wait

/-- What a wait that is over goes on with. A request that was not sent yet goes on as it began, and
has no answer.
-/
inductive Resumed (bearerDeployment : Bool) (fresh : Nat) (c : Client)
    : Wait → Outcome → Ran Client Wait → Prop
  | paused (wait again : Wait) (r : RequestOptions) (caller : Caller) (isDue : Bool)
      (unsent : wait.unsent? = some r) (call : wait.caller? = some caller)
      (same : again.caller? = some caller)
      (silent : ∀ data other, again = .returned data other → data = none)
      (pause : r.sessionControl = false → Pause c r caller again)
      : Resumed bearerDeployment fresh c wait (.resolved isDue)
          { shared := c, waits := some again }
  | received (generation : Nat) (bearer : Option Bearer) (r : RequestOptions) (caller : Caller)
      (reply : Reply) (ran : Ran Client Wait) (h : Received c generation r caller reply ran)
      : Resumed bearerDeployment fresh c (.fetched generation bearer r caller) (.replied reply) ran
  | repeated (refresh : Nat) (r : RequestOptions) (caller : Caller) (isDue : Bool)
      : Resumed bearerDeployment fresh c (.repeated refresh r caller) (.resolved isDue)
          (request bearerDeployment fresh { r with authRetried := true } isDue caller c)
  | returned (data : Option SessionData) (caller : Caller) (isDue : Bool) (ran : Ran Client Wait)
      (h : Finished c data caller ran)
      : Resumed bearerDeployment fresh c (.returned data caller) (.resolved isDue) ran
  | adopting (isDue : Bool)
      : Resumed bearerDeployment fresh c .adopting (.resolved isDue)
          { shared := c.unlockSession }
  | settling (isDue : Bool)
      : Resumed bearerDeployment fresh c .settling (.resolved isDue)
          { shared := { c with refreshPromise := none } }

theorem Pause.silent (h : Pause c r caller wait)
    : wait.caller? = some caller ∧ ∀ data other, wait = .returned data other → data = none := by
  cases h with
  | sent bearer hopen hheld => exact ⟨rfl, fun _ _ h => (by cases h)⟩
  | refused hlocked =>
      refine ⟨rfl, ?_⟩
      rintro _ _ ⟨⟩
      rfl
  | refreshed refresh hprotected => exact ⟨rfl, fun _ _ h => (by cases h)⟩
  | checked refresh hprotected hopen => exact ⟨rfl, fun _ _ h => (by cases h)⟩

theorem afterCheck_silent (bearerDeployment : Bool) (r : RequestOptions) (caller : Caller)
    (c : Client)
    : (afterCheck bearerDeployment r caller c).caller? = some caller
      ∧ ∀ data other, afterCheck bearerDeployment r caller c = .returned data other →
        data = none := by
  unfold afterCheck
  split
  · exact ⟨rfl, fun _ _ h => (by cases h)⟩
  · exact sendUnlocked_pause.silent

theorem resume_resumed {outcome : Outcome}
    (h : resume bearerDeployment fresh wait outcome c = some ran)
    : Resumed bearerDeployment fresh c wait outcome ran := by
  cases outcome with
  | replied reply =>
      cases wait with
      | fetched generation bearer r caller =>
          obtain rfl := Option.some.inj h
          exact .received _ _ _ _ _ _ (receive_received generation r caller reply c)
      | _ => cases h
  | resolved isDue =>
      cases wait with
      | fetched generation bearer r caller => cases h
      | checked refresh r caller =>
          simp only [resume] at h
          split at h
          · cases h
          · obtain rfl := Option.some.inj h
            obtain ⟨hsame, hsilent⟩ := afterCheck_silent bearerDeployment r caller c
            exact .paused _ _ r caller isDue rfl rfl hsame hsilent
              (afterCheck_pause bearerDeployment caller c)
      | refreshed refresh r caller =>
          simp only [resume] at h
          split at h
          · cases h
          · obtain rfl := Option.some.inj h
            exact .paused _ _ r caller isDue rfl rfl sendUnlocked_pause.silent.1
              sendUnlocked_pause.silent.2 fun _ => sendUnlocked_pause
      | repeated refresh r caller =>
          simp only [resume] at h
          split at h
          · cases h
          · obtain rfl := Option.some.inj h
            exact .repeated refresh r caller isDue
      | returned data caller =>
          obtain rfl := Option.some.inj h
          exact .returned data caller isDue _ (finish_finished bearerDeployment data caller c)
      | adopting =>
          obtain rfl := Option.some.inj h
          exact .adopting isDue
      | settling =>
          obtain rfl := Option.some.inj h
          exact .settling isDue

/-- What a call relies on: a refresh is the one of `refreshPromise`, and no call is of a later
generation.
-/
structure CallRelies (c : Client) (i : Nat) (caller : Caller) : Prop where
  refresh : caller.isRefresh = true → c.refreshPromise = some i
  generation : ∀ g, caller.generation? = some g → g ≤ c.sessionGeneration

/-- What a waiting task relies on. A token that can still be accepted finds the tab open, and only
protected requests wait to be sent.
-/
structure WaitRelies (c : Client) (i : Nat) (wait : Wait) : Prop where
  call : ∀ caller, wait.caller? = some caller → CallRelies c i caller
  promise : wait = .settling → c.refreshPromise = some i
  opened : wait.bringsToken = true →
    wait.caller?.bind Caller.generation? = some c.sessionGeneration → c.locallyLocked = false
  unsent : ∀ r, wait.unsent? = some r → r.sessionControl = false
  sent : ∀ g, wait.sentIn? = some g → g ≤ c.sessionGeneration

/-- A locked tab holds no token. -/
def Bare (c : Client) : Prop := c.locallyLocked = true → c.token = none

/-- What a task leaves to the others: generations only grow, a tab is locked with a new generation
only, and the refresh of another task stays.
-/
structure Leaves (own : Nat) (c d : Client) : Prop where
  generation : c.sessionGeneration ≤ d.sessionGeneration
  opened : c.sessionGeneration = d.sessionGeneration → c.locallyLocked = false →
    d.locallyLocked = false
  promise : ∀ i, i ≠ own → c.refreshPromise = some i → d.refreshPromise = some i

theorem WaitRelies.outlives {i : Nat} (hleaves : Leaves own c d) (hne : i ≠ own)
    (h : WaitRelies c i wait)
    : WaitRelies d i wait where
  call := fun caller hcaller =>
    let hcall := h.call caller hcaller
    {
      refresh := fun hrefresh => hleaves.promise i hne (hcall.refresh hrefresh)
      generation := fun g hg => Nat.le_trans (hcall.generation g hg) hleaves.generation
    }
  promise := fun hsettling => hleaves.promise i hne (h.promise hsettling)
  opened := fun hbrings hcurrent => by
    obtain ⟨caller, hcaller, hg⟩ := Option.bind_eq_some_iff.mp hcurrent
    have hsame : c.sessionGeneration = d.sessionGeneration :=
      Nat.le_antisymm hleaves.generation ((h.call caller hcaller).generation _ hg)
    exact hleaves.opened hsame (h.opened hbrings (hsame ▸ hcurrent))
  unsent := h.unsent
  sent := fun g hg => Nat.le_trans (h.sent g hg) hleaves.generation

theorem Leaves.refl (own : Nat) (c : Client) : Leaves own c c :=
  ⟨Nat.le_refl _, fun _ h => h, fun _ _ h => h⟩

theorem Leaves.trans {e : Client} (h : Leaves own c d) (h' : Leaves own d e) : Leaves own c e where
  generation := Nat.le_trans h.generation h'.generation
  opened := fun hsame hopen => by
    have hfirst := h.generation
    have hsecond := h'.generation
    exact h'.opened (by omega) (h.opened (by omega) hopen)
  promise := fun i hne hi => h'.promise i hne (h.promise i hne hi)

theorem Leaves.of_open (hgeneration : d.sessionGeneration = c.sessionGeneration)
    (hpromise : d.refreshPromise = c.refreshPromise) (hopen : d.locallyLocked = false)
    : Leaves own c d :=
  ⟨Nat.le_of_eq hgeneration.symm, fun _ _ => hopen, fun _ _ hi => hpromise ▸ hi⟩

theorem Leaves.lockSession (own : Nat) (c : Client) : Leaves own c c.lockSession :=
  ⟨Nat.le_succ _, fun h => absurd h (Nat.ne_of_lt (Nat.lt_succ_self _)), fun _ _ hi => hi⟩

theorem Leaves.startSessionTransition (own : Nat) (c : Client)
    : Leaves own c c.startSessionTransition :=
  ⟨Nat.le_succ _, fun h => absurd h (Nat.ne_of_lt (Nat.lt_succ_self _)), fun _ _ hi => hi⟩

theorem CallRelies.of_generation? {i : Nat} (hrefresh : caller.isRefresh = false)
    (hgeneration : ∀ g, caller.generation? = some g → g ≤ c.sessionGeneration)
    : CallRelies c i caller :=
  ⟨fun h => absurd (hrefresh.symm.trans h) Bool.false_ne_true, hgeneration⟩

/-- What a turn of a task leaves as it should. -/
abbrev RunsWell (own fresh : Nat) (c : Client) (ran : Ran Client Wait) : Prop :=
  ran.Cooperates Bare WaitRelies Leaves own fresh c

theorem Work.relies {work : Wait} (h : Work c work)
    : WaitRelies { c with refreshPromise := some own } own work := by
  cases h with
  | locked =>
      exact ⟨fun _ h => (by cases h), fun _ => rfl, fun h => (by cases h), fun _ h => (by cases h),
        fun _ h => (by cases h)⟩
  | sent bearer r hcontrol hopen hheld =>
      refine ⟨?_, fun h => (by cases h), fun _ _ => hopen, fun _ h => (by cases h),
        fun g hg => Nat.le_of_eq (Option.some.inj hg).symm⟩
      rintro _ ⟨⟩
      exact ⟨fun _ => rfl, fun g hg => Nat.le_of_eq (Option.some.inj hg).symm⟩

theorem Refreshes.leaves {work : Option Wait} (h : Refreshes c fresh d work) (own : Nat)
    : Leaves own c d ∧ (∀ wait, work = some wait → WaitRelies d fresh wait)
      ∧ d = { c with refreshPromise := d.refreshPromise }
      ∧ ∀ i, c.refreshPromise = some i → d.refreshPromise = some i := by
  cases h with
  | joined => exact ⟨.refl own c, fun _ h => (by cases h), rfl, fun _ hi => hi⟩
  | started work halone hwork =>
      refine ⟨⟨Nat.le_refl _, fun _ h => h, ?_⟩, ?_, rfl, ?_⟩
      · intro i _ hi
        rw [halone] at hi
        cases hi
      · rintro _ ⟨⟩
        exact hwork.relies
      · intro i hi
        rw [halone] at hi
        cases hi

theorem WaitRelies.of_call {i : Nat} (hcaller : wait.caller? = some caller)
    (hcall : CallRelies c i caller)
    (hopen : wait.bringsToken = true → caller.generation? = some c.sessionGeneration →
      c.locallyLocked = false)
    (hunsent : ∀ r, wait.unsent? = some r → r.sessionControl = false)
    (hsent : ∀ g, wait.sentIn? = some g → g ≤ c.sessionGeneration)
    : WaitRelies c i wait where
  call := fun other hother => by
    obtain rfl := Option.some.inj (hcaller.symm.trans hother)
    exact hcall
  promise := fun hsettling => by
    rw [hsettling] at hcaller
    cases hcaller
  opened := fun hbrings hcurrent => hopen hbrings (by rwa [hcaller] at hcurrent)
  unsent := hunsent
  sent := hsent

theorem Pause.relies {i : Nat} (h : Pause c r caller wait) (hcall : CallRelies d i caller)
    (hgeneration : d.sessionGeneration = c.sessionGeneration)
    (hlocked : d.locallyLocked = c.locallyLocked)
    (hrenews : r.sessionControl = true → caller.renewsToken = false)
    : WaitRelies d i wait := by
  cases h with
  | sent bearer hopen hheld =>
      refine .of_call rfl hcall (fun hbrings _ => ?_) (fun _ h => (by cases h))
        (fun g hg => hgeneration ▸ Nat.le_of_eq (Option.some.inj hg).symm)
      cases hopen with
      | inl hcontrol =>
          rw [Wait.bringsToken, hrenews hcontrol] at hbrings
          cases hbrings
      | inr hopen => exact hlocked.trans hopen
  | refused hlocked =>
      exact .of_call rfl hcall (fun h => (by cases h)) (fun _ h => (by cases h))
        fun _ h => (by cases h)
  | refreshed refresh hprotected =>
      exact .of_call rfl hcall (fun h => (by cases h)) (fun _ h => Option.some.inj h ▸ hprotected)
        fun _ h => (by cases h)
  | checked refresh hprotected hopen =>
      exact .of_call rfl hcall (fun h => (by cases h)) (fun _ h => Option.some.inj h ▸ hprotected)
        fun _ h => (by cases h)

theorem request_runsWell {own : Nat} (hbare : Bare c) (hcall : CallRelies c own caller)
    (hrenews : r.sessionControl = true → caller.renewsToken = false)
    : RunsWell own fresh c (request bearerDeployment fresh r isDue caller c) := by
  obtain ⟨hrefreshes, wait, hwait, hpause⟩ :=
    request_begins bearerDeployment fresh r isDue caller c
  obtain ⟨hleaves, hwork, hshared, hpromise⟩ := hrefreshes.leaves own
  have hcall : CallRelies (request bearerDeployment fresh r isDue caller c).shared own caller := by
    refine ⟨fun h => hpromise own (hcall.refresh h), fun g hg => ?_⟩
    exact Nat.le_trans (hcall.generation g hg) hleaves.generation
  refine ⟨?_, hleaves, ?_, hwork⟩
  · rw [hshared]
    exact hbare
  · intro other hother
    obtain rfl := Option.some.inj (hwait.symm.trans hother)
    exact hpause.relies hcall (by rw [hshared]) (by rw [hshared]) hrenews

theorem Received.runsWell {generation own : Nat} {bearer : Option Bearer} {reply : Reply}
    (h : Received c generation r caller reply ran) (hbare : Bare c)
    (hwait : WaitRelies c own (.fetched generation bearer r caller))
    : RunsWell own fresh c ran := by
  have hcall := hwait.call caller rfl
  cases h with
  | returned reply data answer =>
      refine .of_wait hbare (.refl own c) (.of_call rfl hcall ?_ (fun _ h => (by cases h))
        fun _ h => (by cases h))
      intro hbrings hcurrent
      exact hwait.opened ((Bool.and_eq_true _ _).mp hbrings).2 hcurrent
  | refused current =>
      refine .of_wait (fun _ => rfl) (.lockSession own c)
        (.of_call rfl ?_ (fun h => (by cases h)) (fun _ h => (by cases h)) fun _ h => (by cases h))
      exact ⟨hcall.refresh, fun g hg => Nat.le_succ_of_le (hcall.generation g hg)⟩
  | repeated refresh hprotected =>
      refine .of_wait hbare (.refl own c) (.of_call rfl hcall (fun h => (by cases h)) ?_
        fun _ h => (by cases h))
      exact fun _ h => Option.some.inj h ▸ hprotected

theorem acceptToken_leaves {own generation : Nat} {data : Option SessionData} (hbare : Bare c)
    (hwait : WaitRelies c own (.returned data caller)) (hrenews : caller.renewsToken = true)
    (hgeneration : caller.generation? = some generation)
    : Bare (acceptToken generation data c) ∧ Leaves own c (acceptToken generation data c)
      ∧ (acceptToken generation data c).refreshPromise = c.refreshPromise
      ∧ (acceptToken generation data c).locallyLocked = c.locallyLocked := by
  rcases acceptToken_cases generation data c with hsame | ⟨rfl, value, hvalue, hset⟩
  · rw [hsame]
    exact ⟨hbare, .refl own c, rfl, rfl⟩
  · have hanswered : data.isSome = true := by
      cases data with
      | none => cases hvalue
      | some _ => rfl
    have hopen : c.locallyLocked = false :=
      hwait.opened ((Bool.and_eq_true _ _).mpr ⟨hanswered, hrenews⟩) hgeneration
    rw [hset]
    exact ⟨fun h => (by cases h), .of_open rfl rfl rfl, rfl, hopen.symm⟩

theorem Finished.runsWell {own : Nat} {data : Option SessionData} (h : Finished c data caller ran)
    (hbare : Bare c) (hwait : WaitRelies c own (.returned data caller))
    : RunsWell own fresh c ran := by
  cases h with
  | ended caller other => exact .of_end hbare (.refl own c)
  | discarded generation bearer r control held =>
      refine .of_wait hbare (.refl own c)
        (.of_call rfl (.of_generation? rfl fun _ h => (by cases h)) (fun h => (by cases h))
          (fun _ h => (by cases h)) fun g hg => Nat.le_of_eq (Option.some.inj hg).symm)
  | signedIn d answered opened =>
      rcases opened with rfl | ⟨value, -, rfl⟩
      · exact .of_end (fun h => (by cases h)) (.of_open rfl rfl rfl)
      · exact .of_end (fun h => (by cases h)) (.of_open rfl rfl rfl)
  | adopted answered =>
      exact .of_wait hbare (.refl own c)
        ⟨fun _ h => (by cases h), fun h => (by cases h), fun h => (by cases h),
          fun _ h => (by cases h), fun _ h => (by cases h)⟩
  | refreshed generation =>
      obtain ⟨hbare, hleaves, hpromise, -⟩ := acceptToken_leaves hbare hwait rfl rfl
      refine .of_wait hbare hleaves
        ⟨fun _ h => (by cases h), fun _ => ?_, fun h => (by cases h), fun _ h => (by cases h),
          fun _ h => (by cases h)⟩
      exact hpromise.trans ((hwait.call _ rfl).refresh rfl)
  | changed generation =>
      obtain ⟨hbare, hleaves, -, -⟩ := acceptToken_leaves hbare hwait rfl rfl
      exact .of_end hbare hleaves

theorem Resumed.runsWell {own : Nat} {outcome : Outcome}
    (h : Resumed bearerDeployment fresh c wait outcome ran) (hbare : Bare c)
    (hwait : WaitRelies c own wait)
    : RunsWell own fresh c ran := by
  have hrenews : ∀ r, wait.unsent? = some r → ∀ caller : Caller, r.sessionControl = true →
      caller.renewsToken = false := by
    intro r hr _ hcontrol
    rw [hwait.unsent r hr] at hcontrol
    cases hcontrol
  cases h with
  | paused wait again r caller isDue unsent call same silent pause =>
      exact .of_wait hbare (.refl own c) ((pause (hwait.unsent r unsent)).relies
        (hwait.call caller call) rfl rfl (hrenews r unsent caller))
  | received generation bearer r caller reply ran h => exact h.runsWell hbare hwait
  | repeated refresh r caller isDue =>
      exact request_runsWell hbare (hwait.call caller rfl) (hrenews r rfl caller)
  | returned data caller isDue ran h => exact h.runsWell hbare hwait
  | adopting isDue => exact .of_end (fun h => (by cases h)) (.of_open rfl rfl rfl)
  | settling isDue =>
      refine .of_end hbare ⟨Nat.le_refl _, fun _ h => h, fun i hne hi => absurd ?_ hne⟩
      exact Option.some.inj (hi.symm.trans (hwait.promise rfl))

theorem call_runsWell {own : Nat} (hbare : Bare c) (entry : Entry)
    : RunsWell own fresh c (call bearerDeployment own fresh entry c) := by
  cases entry with
  | request r isDue =>
      exact request_runsWell hbare (.of_generation? rfl fun _ h => (by cases h)) fun _ => rfl
  | login =>
      refine Ran.Cooperates.after (t := c.startSessionTransition) (request_runsWell (fun _ => rfl)
        (.of_generation? rfl fun g hg => ?_) fun _ => rfl) (.trans (.startSessionTransition own c))
      exact Nat.le_of_eq (Option.some.inj hg).symm
  | logoutSession =>
      exact Ran.Cooperates.after (t := c.lockSession) (request_runsWell (fun _ => rfl)
        (.of_generation? rfl fun _ h => (by cases h)) fun _ => rfl) (.trans (.lockSession own c))
  | getSession =>
      simp only [call]
      split
      · exact .of_end hbare (.refl own c)
      · refine request_runsWell hbare (.of_generation? rfl fun g hg => ?_) fun _ => rfl
        exact Nat.le_of_eq (Option.some.inj hg).symm
  | refreshSession =>
      obtain ⟨hleaves, hwork, hshared, -⟩ :=
        (refreshSession_refreshes bearerDeployment own c).leaves own
      refine ⟨?_, hleaves, hwork, fun _ h => (by cases h)⟩
      show Bare (refreshSession bearerDeployment own c).2.1
      rw [hshared]
      exact hbare
  | changePassword isDue =>
      have hprotected : RequestOptions.sessionControl { path := "/api/auth/change-password" }
          = false := by
        decide +kernel
      refine request_runsWell hbare (.of_generation? rfl fun g hg => ?_) fun hcontrol => ?_
      · exact Nat.le_of_eq (Option.some.inj hg).symm
      · rw [hprotected] at hcontrol
        cases hcontrol
  | lockSession => exact .of_end (fun _ => rfl) (.lockSession own c)
  | authenticated =>
      refine request_runsWell hbare (.of_generation? rfl fun g hg => ?_) fun _ => rfl
      exact Nat.le_of_eq (Option.some.inj hg).symm
  | unlockSession => exact .of_end (fun h => (by cases h)) (.of_open rfl rfl rfl)
  | message value =>
      simp only [call]
      rcases onMessage_cases c value with hsame | ⟨held, hheld, -, hset⟩
      · rw [hsame]
        exact .of_end hbare (.refl own c)
      · rw [hset]
        exact .of_end (fun h => (by cases h)) (.of_open rfl rfl rfl)

theorem tab_cooperates (bearerDeployment : Bool)
    : Cooperation (tab bearerDeployment) (fun _ _ => True) 0 Bare WaitRelies Leaves where
  outlives := fun hleaves hne h => h.outlives hleaves hne
  call := fun {_ entry} _ hbare _ => call_runsWell hbare entry
  resume := fun _ hbare hwait _ _ h => (resume_resumed h).runsWell hbare hwait

/-- The state of a tab that has just been loaded, after any turns. -/
abbrev TabReached (bearerDeployment : Bool) : Coroutines Client Wait → Prop :=
  Coroutines.Reached (tab bearerDeployment) (fun _ _ => True) (.idle {})

theorem TabReached.sound {tabs : Coroutines Client Wait} (h : TabReached bearerDeployment tabs)
    : tabs.Sound 0 Bare WaitRelies :=
  (tab_cooperates bearerDeployment).invariant (Cooperation.idle_sound fun _ => rfl) h

end LicenseTrack.SessionClient
