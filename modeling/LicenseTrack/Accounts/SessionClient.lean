import LicenseTrack.Library.Coroutines

/-! The session of one browser tab, as the request wrapper of the browser keeps it: a lock, a
generation, a bearer token where the API is on another origin, and one refresh at a time. Every
call is a task that waits for replies, for a refresh or for another call.
-/

namespace LicenseTrack.SessionClient

open Library

/-- A bearer token, with the claims that the tab reads from it; none where reading fails. -/
structure Bearer where
  text : String
  sessionId : Option String
  exp : Option Nat
deriving DecidableEq

/-- The variables of the wrapper. -/
structure Client where
  token : Option Bearer := none
  sessionGeneration : Nat := 0
  locallyLocked : Bool := false
  /-- The call whose promise `refreshPromise` is. -/
  refreshPromise : Option Nat := none
deriving DecidableEq

namespace Client

/-- `clearToken`. -/
def clearToken (c : Client) : Client := { c with token := none }

/-- `startSessionTransition`. -/
def startSessionTransition (c : Client) : Client :=
  { c with sessionGeneration := c.sessionGeneration + 1 }.clearToken

/-- `lockSession`. -/
def lockSession (c : Client) : Client :=
  { c with locallyLocked := true, sessionGeneration := c.sessionGeneration + 1 }.clearToken

/-- `unlockSession`. -/
def unlockSession (c : Client) : Client := { c with locallyLocked := false }

/-- `setToken`: a token of the held session that expires before the held one is dropped. -/
def setToken (c : Client) (value : Bearer) : Client :=
  let isStale := c.token.any (fun held =>
    held.sessionId == value.sessionId
      && match value.exp, held.exp with
        | some new, some old => decide (new < old)
        | _, _ => false)
  if isStale then c else { c with token := some value, locallyLocked := false }

/-- `tokenChannel.onmessage`: another tab has a newer token of the same session. -/
def onMessage (c : Client) (value : Bearer) : Client :=
  if !c.locallyLocked && c.token.any (fun held => held.sessionId == value.sessionId) then
    c.setToken value
  else c

end Client

/-- What `request` is given. -/
structure RequestOptions where
  path : String
  redirectOn401 : Bool := true
  authRetried : Bool := false
  authorization : Option Bearer := none
deriving DecidableEq

/-- `sessionControl`: requests of the session itself, which neither wait for it nor renew it. -/
def RequestOptions.sessionControl (r : RequestOptions) : Bool :=
  "/api/auth/".toList.isPrefixOf r.path.toList && r.path != "/api/auth/change-password"

/-- The functions that wait for a request, with what they remember. -/
inductive Caller
  /-- A page. -/
  | page
  /-- `login`. -/
  | login (generation : Nat)
  /-- `login`, once its generation is over: the session that it opened is closed again. -/
  | discardedLogin
  /-- `logoutSession`. -/
  | logoutSession
  /-- `getSession`; another tab's login asks for it with `allowLocked` and takes it over. -/
  | getSession (generation : Nat) (allowLocked : Bool)
  /-- `refreshSession`. -/
  | refreshSession (generation : Nat)
  /-- `changePassword`. -/
  | changePassword (generation : Nat)
deriving DecidableEq

/-- The fields of an answer that the session functions read. -/
structure SessionData where
  accessToken : Option Bearer := none
  authenticated : Bool := false
deriving DecidableEq

/-- What becomes of a fetch. -/
inductive Reply
  | networkError
  | unauthorized
  /-- Any other status, with the `data` that the caller gets. -/
  | answered (data : Option SessionData)
deriving DecidableEq

/-- Where a task waits. -/
inductive Wait
  /-- For the check of the session's age, which may wait for a refresh. -/
  | checked (refresh : Option Nat) (r : RequestOptions) (caller : Caller)
  /-- For a refresh, before the request is sent. -/
  | refreshed (refresh : Nat) (r : RequestOptions) (caller : Caller)
  /-- For the reply to a request, which was sent in a generation and with a bearer. -/
  | fetched (generation : Nat) (bearer : Option Bearer) (r : RequestOptions) (caller : Caller)
  /-- For a refresh, before the request is repeated. -/
  | repeated (refresh : Nat) (r : RequestOptions) (caller : Caller)
  /-- For the request to return. -/
  | returned (data : Option SessionData) (caller : Caller)
  /-- To take another tab's login over. -/
  | adopting
  /-- To clear `refreshPromise`. -/
  | settling
deriving DecidableEq

/-- How a wait ends. A request that begins tells whether the check of the session's age finds that
a refresh is due.
-/
inductive Outcome
  | resolved (isDue : Bool)
  | replied (reply : Reply)
deriving DecidableEq

/-- What happens in a tab without being waited for: its calls, and the events of other tabs. -/
inductive Entry
  | request (r : RequestOptions) (isDue : Bool)
  | login
  | logoutSession
  | getSession
  | refreshSession
  | changePassword (isDue : Bool)
  /-- Another tab signs out, or a handler locks the tab. -/
  | lockSession
  /-- Another tab signs in. -/
  | authenticated
  /-- The button that starts an external sign-in. -/
  | unlockSession
  | message (value : Bearer)
deriving DecidableEq

/-- The fetch of `request`. Only the login goes out without the held bearer. -/
def send (bearerDeployment : Bool) (r : RequestOptions) (caller : Caller) (c : Client) : Wait :=
  let bearer :=
    if bearerDeployment && r.authorization.isNone && r.path != "/api/auth/login" then c.token
    else r.authorization
  .fetched c.sessionGeneration bearer r caller

/-- `request`, once no refresh is waited for. -/
def sendUnlocked (bearerDeployment : Bool) (r : RequestOptions) (caller : Caller) (c : Client)
    : Wait :=
  if c.locallyLocked then .returned none caller else send bearerDeployment r caller c

/-- `request`, after the check of the session's age. -/
def afterCheck (bearerDeployment : Bool) (r : RequestOptions) (caller : Caller) (c : Client)
    : Wait :=
  match c.refreshPromise with
  | some refresh => .refreshed refresh r caller
  | none => sendUnlocked bearerDeployment r caller c

/-- `refreshSession`, which starts its work unless a refresh is under way: the refresh to wait for,
and the wait of the one that was started.
-/
def refreshSession (bearerDeployment : Bool) (self : Nat) (c : Client)
    : Nat × Client × Option Wait :=
  match c.refreshPromise with
  | some refresh => (refresh, c, none)
  | none =>
      let work :=
        if c.locallyLocked then .settling
        else send bearerDeployment
          { path := "/api/auth/refresh", redirectOn401 := false }
          (.refreshSession c.sessionGeneration) c
      (self, { c with refreshPromise := some self }, some work)

/-- `request`, up to its first wait. -/
def request (bearerDeployment : Bool) (fresh : Nat) (r : RequestOptions) (isDue : Bool)
    (caller : Caller) (c : Client)
    : Ran Client Wait :=
  if r.sessionControl then { shared := c, waits := some (send bearerDeployment r caller c) }
  else if c.locallyLocked then
    { shared := c, waits := some (afterCheck bearerDeployment r caller c) }
  else if isDue then
    let (refresh, c, work) := refreshSession bearerDeployment fresh c
    { shared := c, waits := some (.checked (some refresh) r caller), spawned := work }
  else { shared := c, waits := some (.checked none r caller) }

/-- `request`, when the server refused it. -/
def refuse (r : RequestOptions) (caller : Caller) (c : Client) : Ran Client Wait where
  shared := if r.redirectOn401 then c.lockSession else c
  waits := some (.returned none caller)

/-- `request`, when its reply is here. -/
def receive (generation : Nat) (r : RequestOptions) (caller : Caller) (reply : Reply) (c : Client)
    : Ran Client Wait :=
  match reply with
  | .networkError => { shared := c, waits := some (.returned none caller) }
  | .answered data => { shared := c, waits := some (.returned data caller) }
  | .unauthorized =>
      if generation ≠ c.sessionGeneration then
        { shared := c, waits := some (.returned none caller) }
      else
        match c.refreshPromise with
        | some refresh =>
            if !r.sessionControl && !r.authRetried then
              { shared := c, waits := some (.repeated refresh r caller) }
            else refuse r caller c
        | none => refuse r caller c

-- Session calls

/-- The token of an answer, when the generation of the call is not over. -/
def acceptToken (generation : Nat) (data : Option SessionData) (c : Client) : Client :=
  if generation = c.sessionGeneration then
    match data.bind SessionData.accessToken with
    | some value => c.setToken value
    | none => c
  else c

/-- `login`, when its request has returned. -/
def finishLogin (bearerDeployment : Bool) (generation : Nat) (data : Option SessionData)
    (c : Client)
    : Ran Client Wait :=
  if generation ≠ c.sessionGeneration then
    match data.bind SessionData.accessToken with
    | some value =>
        {
          shared := c
          waits := some (send bearerDeployment
            { path := "/api/auth/logout", redirectOn401 := false, authorization := some value }
            .discardedLogin c)
        }
    | none => { shared := c }
  else
    match data with
    | some answer =>
        match answer.accessToken with
        | some value => { shared := c.unlockSession.setToken value }
        | none => { shared := c.unlockSession }
    | none => { shared := c }

/-- What a call does with what its request returned. -/
def finish (bearerDeployment : Bool) (data : Option SessionData) (caller : Caller) (c : Client)
    : Ran Client Wait :=
  match caller with
  | .page | .discardedLogin | .logoutSession => { shared := c }
  | .login generation => finishLogin bearerDeployment generation data c
  | .getSession generation allowLocked =>
      if generation ≠ c.sessionGeneration || (!allowLocked && c.locallyLocked) then { shared := c }
      else if allowLocked && data.any SessionData.authenticated then
        { shared := c, waits := some .adopting }
      else { shared := c }
  | .refreshSession generation =>
      { shared := acceptToken generation data c, waits := some .settling }
  | .changePassword generation => { shared := acceptToken generation data c }

/-- What a wait goes on with once it is over. -/
def resume (bearerDeployment : Bool) (fresh : Nat) (wait : Wait) (outcome : Outcome) (c : Client)
    : Option (Ran Client Wait) :=
  match wait, outcome with
  | .checked refresh r caller, .resolved _ =>
      if refresh.any (fun call => c.refreshPromise == some call) then none
      else some { shared := c, waits := some (afterCheck bearerDeployment r caller c) }
  | .refreshed refresh r caller, .resolved _ =>
      if c.refreshPromise = some refresh then none
      else some { shared := c, waits := some (sendUnlocked bearerDeployment r caller c) }
  | .fetched generation _ r caller, .replied reply => some (receive generation r caller reply c)
  | .repeated refresh r caller, .resolved isDue =>
      if c.refreshPromise = some refresh then none
      else some (request bearerDeployment fresh { r with authRetried := true } isDue caller c)
  | .returned data caller, .resolved _ => some (finish bearerDeployment data caller c)
  | .adopting, .resolved _ => some { shared := c.unlockSession }
  | .settling, .resolved _ => some { shared := { c with refreshPromise := none } }
  | _, _ => none

/-- What a call or an event does, up to its first wait. -/
def call (bearerDeployment : Bool) (self fresh : Nat) (entry : Entry) (c : Client)
    : Ran Client Wait :=
  match entry with
  | .request r isDue => request bearerDeployment fresh r isDue .page c
  | .login =>
      let c := c.startSessionTransition
      request bearerDeployment fresh { path := "/api/auth/login" } false
        (.login c.sessionGeneration) c
  | .logoutSession =>
      let token := c.token
      request bearerDeployment fresh
        { path := "/api/auth/logout", redirectOn401 := false, authorization := token } false
        .logoutSession c.lockSession
  | .getSession =>
      if c.locallyLocked then { shared := c }
      else
        request bearerDeployment fresh { path := "/api/auth/session", redirectOn401 := false }
          false (.getSession c.sessionGeneration false) c
  | .refreshSession =>
      let (_, c, work) := refreshSession bearerDeployment self c
      { shared := c, waits := work }
  | .changePassword isDue =>
      request bearerDeployment fresh { path := "/api/auth/change-password" } isDue
        (.changePassword c.sessionGeneration) c
  | .lockSession => { shared := c.lockSession }
  | .authenticated =>
      request bearerDeployment fresh { path := "/api/auth/session", redirectOn401 := false } false
        (.getSession c.sessionGeneration true) c
  | .unlockSession => { shared := c.unlockSession }
  | .message value => { shared := c.onMessage value }

/-- The tasks of one tab. -/
def tab (bearerDeployment : Bool) : TaskProgram Client Wait Entry Outcome where
  call := call bearerDeployment
  resume := fun _ => resume bearerDeployment

end LicenseTrack.SessionClient
