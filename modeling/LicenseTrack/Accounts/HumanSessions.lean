import LicenseTrack.Accounts.UserService
import Mathlib.Logic.Function.Basic

/-! Login sessions: the rows of `human_sessions` as logins, refreshes, logouts and password
changes write them, one transaction each, and what a logout leaves for good.
-/

namespace LicenseTrack

open Library

namespace HumanSessions

/-- A row of `human_sessions`, with its times in seconds. -/
structure HumanSession where
  userId : Nat
  securityVersion : Nat
  issuedAt : Int
  expiresAt : Int
deriving DecidableEq

/-- The claims of a token. -/
structure Payload where
  sub : Nat
  role : UserRole
  iat : Int
  securityVersion : Nat
  exp : Int
  sessionId : String
deriving DecidableEq

/-- Why a request fails: with a `JWTError`, or on the primary key. -/
inductive SessionFailure
  | jwt (message : String)
  | duplicateId
deriving DecidableEq

/-- The clock in microseconds, the rows by their id, and the ids that logins have drawn and
logouts have named so far.
-/
structure SessionStore where
  clock : Nat
  sessions : String → Option HumanSession
  used : List String

/-- The microseconds of a second. -/
def second : Nat := 1000000

/-- `now_seconds`. -/
def nowSeconds (clock : Nat) : Int := (clock / second : Nat)

/-- `create_access_token`, for the setting `TOKEN_EXPIRY`. -/
def createAccessToken (tokenExpiry : Int) (clock userId : Nat) (user : User)
    (lifetimeMinutes : Option Int) (sessionId : String)
    : Payload where
  sub := userId
  role := user.role
  iat := nowSeconds clock
  securityVersion := user.securityVersion
  exp :=
    let lifetime := (lifetimeMinutes.filter (· != 0)).getD tokenExpiry
    ((clock : Int) + lifetime * 60 * second).tdiv second
  sessionId := sessionId

/-- What `decode_access_token` checks of a token that was just signed. -/
def Payload.decode (payload : Payload) (clock : Nat) : Except SessionFailure PUnit.{1} :=
  require ((clock : Int) ≤ payload.exp * second) (.jwt "Token has expired")

/-- Whether the pruning of `issue_session_token` deletes a row, at its two readings of the
clock.
-/
def HumanSession.isPruned (row : HumanSession) (expiryNow tombstoneNow : Int) : Bool :=
  (0 < row.expiresAt && row.expiresAt ≤ expiryNow)
    || (row.expiresAt == 0 && row.issuedAt ≤ tombstoneNow)

/-- The time that passes between the readings of the clock in one transaction. -/
structure Gaps where
  first : Nat := 0
  second : Nat := 0
  third : Nat := 0
deriving DecidableEq

/-- `issue_session_token`, with the session id that it draws. -/
def issueSessionToken (tokenExpiry : Int) (userId : Nat) (user : User)
    (lifetimeMinutes : Option Int) (sessionId : String) (gaps : Gaps) (s : SessionStore)
    : Except SessionFailure SessionStore := do
  let kept := fun id =>
    (s.sessions id).filter fun row =>
      !row.isPruned (nowSeconds s.clock) (nowSeconds (s.clock + gaps.first))
  let signed := s.clock + gaps.first + gaps.second
  let payload := createAccessToken tokenExpiry signed userId user lifetimeMinutes sessionId
  payload.decode (signed + gaps.third)
  require (kept sessionId = none) .duplicateId
  .ok
    {
      clock := signed + gaps.third
      sessions :=
        Function.update kept sessionId (some ⟨userId, user.securityVersion, payload.iat, payload.exp⟩)
      used := sessionId :: s.used
    }

/-- `refresh_session_token`. -/
def refreshSessionToken (tokenExpiry : Int) (userId : Nat) (user : User)
    (lifetimeMinutes : Option Int) (sessionId : String) (gaps : Gaps) (s : SessionStore)
    : Except SessionFailure SessionStore := do
  let payload := createAccessToken tokenExpiry s.clock userId user lifetimeMinutes sessionId
  payload.decode (s.clock + gaps.first)
  let now := s.clock + gaps.first + gaps.second
  match (s.sessions sessionId).filter fun row =>
      row.userId == userId && decide (nowSeconds now < row.expiresAt)
        && row.securityVersion == user.securityVersion with
  | none => .error (.jwt "Session ended")
  | some row =>
      .ok
        { s with
          clock := now
          sessions :=
            Function.update s.sessions sessionId
              (some { row with issuedAt := payload.iat, expiresAt := payload.exp }) }

/-- `get_active_session`. -/
def getActiveSession (payload : Payload) (timeoutMinutes : Int) (s : SessionStore)
    : Except SessionFailure HumanSession := do
  match (s.sessions payload.sessionId).filter (·.userId == payload.sub) with
  | none => .error (.jwt "Session ended")
  | some row =>
      let expiry :=
        if 0 < timeoutMinutes then min row.expiresAt (row.issuedAt + timeoutMinutes * 60)
        else row.expiresAt
      require (nowSeconds s.clock < expiry) (.jwt "Session expired")
      .ok row

/-- `revoke_session`: the row becomes a tombstone, kept by its `issued_at`. -/
def revokeSession (userId : Nat) (sessionId : String) (tokenExpiry : Int) (s : SessionStore)
    : SessionStore :=
  let tombstone : HumanSession :=
    match s.sessions sessionId with
    | none => ⟨userId, 0, tokenExpiry, 0⟩
    | some row =>
        { row with issuedAt := max (max row.issuedAt row.expiresAt) tokenExpiry, expiresAt := 0 }
  { s with
    sessions := Function.update s.sessions sessionId (some tombstone)
    used := sessionId :: s.used }

/-- `advance_session_security_version`. -/
def advanceSessionSecurityVersion (sessionId : String) (oldVersion newVersion : Nat)
    (s : SessionStore)
    : SessionStore :=
  { s with
    sessions :=
      Function.update s.sessions sessionId
        ((s.sessions sessionId).map fun row =>
          if row.securityVersion = oldVersion ∧ nowSeconds s.clock < row.expiresAt then
            { row with securityVersion := newVersion }
          else row) }

-- Runs

/-- What happens to the sessions: time passes, or a transaction of one of the functions. -/
inductive SessionRequest
  | tick (elapsed : Nat)
  | issue (userId : Nat) (user : User) (lifetimeMinutes : Option Int) (sessionId : String)
      (gaps : Gaps)
  | refresh (userId : Nat) (user : User) (lifetimeMinutes : Option Int) (sessionId : String)
      (gaps : Gaps)
  | validate (payload : Payload) (timeoutMinutes : Int)
  | revoke (userId : Nat) (sessionId : String) (tokenExpiry : Int)
  | advance (sessionId : String) (oldVersion newVersion : Nat)

/-- The store after a request; a failed transaction leaves it as it was. -/
def step (tokenExpiry : Int) (request : SessionRequest) (s : SessionStore)
    : Except SessionFailure SessionStore :=
  match request with
  | .tick elapsed => .ok { s with clock := s.clock + elapsed }
  | .issue userId user lifetimeMinutes sessionId gaps =>
      issueSessionToken tokenExpiry userId user lifetimeMinutes sessionId gaps s
  | .refresh userId user lifetimeMinutes sessionId gaps =>
      refreshSessionToken tokenExpiry userId user lifetimeMinutes sessionId gaps s
  | .validate payload timeoutMinutes => (fun _ => s) <$> getActiveSession payload timeoutMinutes s
  | .revoke userId sessionId expiry => .ok (revokeSession userId sessionId expiry s)
  | .advance sessionId oldVersion newVersion =>
      .ok (advanceSessionSecurityVersion sessionId oldVersion newVersion s)

/-- A login draws an id that nobody has used: `secrets.token_hex(32)` does not repeat itself. -/
def Draws (s : SessionStore) : SessionRequest → Prop
  | .issue _ _ _ sessionId _ => sessionId ∉ s.used
  | _ => True

/-- The stores that runs of requests lead to. -/
abbrev Reached (tokenExpiry : Int) (start s : SessionStore) : Prop :=
  Reachable (step tokenExpiry) Draws start s

/-- A session that has ended for good: its id will not be drawn again, and its row is a tombstone
or pruned.
-/
structure Ended (sessionId : String) (s : SessionStore) : Prop where
  used : sessionId ∈ s.used
  tombstone : ∀ row, s.sessions sessionId = some row → row.expiresAt = 0

variable {tokenExpiry : Int} {sessionId : String} {s t : SessionStore}

theorem nowSeconds_nonneg (clock : Nat) : 0 ≤ nowSeconds clock := Int.natCast_nonneg _

theorem revokeSession_ended (userId : Nat) (sessionId : String) (expiry : Int) (s : SessionStore)
    : Ended sessionId (revokeSession userId sessionId expiry s) where
  used := List.mem_cons_self
  tombstone := fun row hrow => by
    simp only [revokeSession, Function.update_self, Option.some.injEq] at hrow
    subst hrow
    split
    · rfl
    · rfl

theorem Ended.of_rows (h : Ended sessionId s) (hused : ∀ id ∈ s.used, id ∈ t.used)
    (hrow : ∀ row, t.sessions sessionId = some row → s.sessions sessionId = some row)
    : Ended sessionId t :=
  ⟨hused _ h.used, fun row hr => h.tombstone row (hrow row hr)⟩

theorem Ended.refresh (h : Ended sessionId s) (tokenExpiry : Int) (userId : Nat) (user : User)
    (lifetimeMinutes : Option Int) (gaps : Gaps)
    : ¬ (refreshSessionToken tokenExpiry userId user lifetimeMinutes sessionId gaps s).isOk := by
  intro hok
  obtain ⟨t, ht⟩ := exists_ok hok
  obtain ⟨-, -, ht⟩ := bind_eq_ok.mp ht
  simp only at ht
  split at ht
  · cases ht
  · next row hrow =>
      obtain ⟨hrow, hlive⟩ := Option.filter_eq_some_iff.mp hrow
      simp only [h.tombstone row hrow, Bool.and_eq_true, decide_eq_true_eq] at hlive
      exact absurd hlive.1.2 (not_lt.mpr (nowSeconds_nonneg _))

theorem Ended.validate (h : Ended sessionId s) {payload : Payload}
    (hid : payload.sessionId = sessionId) (timeoutMinutes : Int)
    : ¬ (getActiveSession payload timeoutMinutes s).isOk := by
  intro hok
  obtain ⟨row, hactive⟩ := exists_ok hok
  unfold getActiveSession at hactive
  split at hactive
  · cases hactive
  · next row hrow =>
      obtain ⟨hrow, -⟩ := Option.filter_eq_some_iff.mp hrow
      obtain ⟨_, hlive, -⟩ := bind_eq_ok.mp hactive
      have hnow : nowSeconds s.clock < row.expiresAt := by
        have hlive := require_eq_ok.mp hlive
        split at hlive
        · exact lt_of_lt_of_le hlive (min_le_left _ _)
        · exact hlive
      rw [h.tombstone row (hid ▸ hrow)] at hnow
      exact absurd hnow (not_lt.mpr (nowSeconds_nonneg _))

theorem Ended.issue (h : Ended sessionId s) {userId : Nat} {user : User}
    {lifetimeMinutes : Option Int} {drawn : String} {gaps : Gaps} (hdrawn : drawn ∉ s.used)
    (ht : issueSessionToken tokenExpiry userId user lifetimeMinutes drawn gaps s = .ok t)
    : Ended sessionId t := by
  obtain ⟨-, -, ht⟩ := bind_eq_ok.mp ht
  obtain ⟨-, -, ht⟩ := bind_eq_ok.mp ht
  obtain rfl := Except.ok.inj ht
  have hne : sessionId ≠ drawn := fun he => hdrawn (he ▸ h.used)
  apply h.of_rows
  · exact fun id hid => List.mem_cons_of_mem _ hid
  · intro row hrow
    simp only [Function.update_of_ne hne] at hrow
    exact (Option.filter_eq_some_iff.mp hrow).1

theorem Ended.step (h : Ended sessionId s) {request : SessionRequest} (hdraws : Draws s request)
    (ht : step tokenExpiry request s = .ok t)
    : Ended sessionId t := by
  cases request with
  | tick elapsed =>
      obtain rfl := Except.ok.inj ht
      exact h.of_rows (fun _ => id) fun _ => id
  | issue userId user lifetimeMinutes drawn gaps => exact h.issue hdraws ht
  | refresh userId user lifetimeMinutes refreshed gaps =>
      by_cases he : refreshed = sessionId
      · subst he
        have hfails := h.refresh tokenExpiry userId user lifetimeMinutes gaps
        simp only [HumanSessions.step] at ht
        rw [ht] at hfails
        exact absurd rfl hfails
      · obtain ⟨-, -, ht⟩ := bind_eq_ok.mp ht
        simp only at ht
        split at ht
        · cases ht
        · obtain rfl := Except.ok.inj ht
          apply h.of_rows
          · exact fun _ => id
          · intro row hrow
            simpa only [Function.update_of_ne (Ne.symm he)] using hrow
  | validate payload timeoutMinutes =>
      obtain ⟨-, -, rfl⟩ := map_eq_ok.mp ht
      exact h
  | revoke userId revoked expiry =>
      obtain rfl := Except.ok.inj ht
      by_cases he : revoked = sessionId
      · subst he
        exact revokeSession_ended userId revoked expiry s
      · apply h.of_rows
        · exact fun id hid => List.mem_cons_of_mem _ hid
        · intro row hrow
          simpa only [revokeSession, Function.update_of_ne (Ne.symm he)] using hrow
  | advance advanced oldVersion newVersion =>
      obtain rfl := Except.ok.inj ht
      refine ⟨h.used, fun row hrow => ?_⟩
      by_cases he : advanced = sessionId
      · subst he
        simp only [advanceSessionSecurityVersion, Function.update_self, Option.map_eq_some_iff]
          at hrow
        obtain ⟨before, hbefore, rfl⟩ := hrow
        split
        · exact h.tombstone before hbefore
        · exact h.tombstone before hbefore
      · simp only [advanceSessionSecurityVersion, Function.update_of_ne (Ne.symm he)] at hrow
        exact h.tombstone row hrow

/-- After a logout no request finds the session active and none refreshes it, whatever token it
presents and whether the tombstone has been pruned or not.
-/
theorem revokedSession_neverActive {userId : Nat} {expiry : Int} {u : SessionStore}
    (hrevoked : step tokenExpiry (.revoke userId sessionId expiry) s = .ok t)
    (hlater : Reached tokenExpiry t u)
    : (∀ payload timeoutMinutes, payload.sessionId = sessionId →
        ¬ (getActiveSession payload timeoutMinutes u).isOk)
      ∧ ∀ userId user lifetimeMinutes gaps,
          ¬ (refreshSessionToken tokenExpiry userId user lifetimeMinutes sessionId gaps u).isOk := by
  have hended : Ended sessionId u := by
    obtain rfl := Except.ok.inj hrevoked
    exact hlater.invariant (revokeSession_ended userId sessionId expiry s)
      fun _ _ _ h hdraws ht => h.step hdraws ht
  exact ⟨fun payload timeoutMinutes hid => hended.validate hid timeoutMinutes,
    fun userId user lifetimeMinutes gaps => hended.refresh _ userId user lifetimeMinutes gaps⟩

/-- A user of the examples. -/
def editor : User where
  username := "editor"
  email := "editor@example.com"
  hashedPassword := ""
  authProvider := .localAccount
  role := .editor
  isActive := true
  allowDownloads := true
  isBreakGlassAdmin := false
  mustChangePassword := false
  securityVersion := 1
  oidcIssuer := none
  oidcSubject := none

/-- One user logs in, logs out and logs in again when the first token has expired. -/
def loggedOut : SessionStore where
  clock := 0
  sessions id := if id = "first" then some ⟨1, 1, 0, 86400⟩ else none
  used := ["first"]

/-- After the next login has pruned the tombstone, the session stays ended. -/
theorem revokedSession_neverActive_pruned
    : ∃ t u, step 1440 (.revoke 1 "first" 86400) loggedOut = .ok t ∧ Reached 1440 t u
        ∧ (t.sessions "first").isSome ∧ u.sessions "first" = none
        ∧ (∀ payload timeoutMinutes, payload.sessionId = "first" →
            ¬ (getActiveSession payload timeoutMinutes u).isOk)
        ∧ ∀ userId user lifetimeMinutes gaps,
            ¬ (refreshSessionToken 1440 userId user lifetimeMinutes "first" gaps u).isOk := by
  let t := revokeSession 1 "first" 86400 loggedOut
  let later : SessionStore := { t with clock := t.clock + 86400 * second }
  obtain ⟨u, hissued⟩ : ∃ u, issueSessionToken 1440 1 editor none "next" {} later = .ok u :=
    exists_ok (by decide +kernel)
  have hpruned : u.sessions "first" = none := by
    have hrow : ((issueSessionToken 1440 1 editor none "next" {} later).toOption.bind
        (·.sessions "first")) = none := by decide +kernel
    simpa only [hissued, Except.toOption, Option.bind_some] using hrow
  have hlater : Reached 1440 t later := Reachable.start.step (.tick (86400 * second)) trivial rfl
  have hdrawn : "next" ∉ later.used := by decide +kernel
  have hreached : Reached 1440 t u := hlater.step (.issue 1 editor none "next" {}) hdrawn hissued
  have hrevoked : step 1440 (.revoke 1 "first" 86400) loggedOut = .ok t := rfl
  exact ⟨t, u, hrevoked, hreached, by decide +kernel, hpruned,
    revokedSession_neverActive hrevoked hreached⟩

end HumanSessions

end LicenseTrack
