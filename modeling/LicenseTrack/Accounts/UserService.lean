import LicenseTrack.Access.Rules
import LicenseTrack.Library.Outcome
import LicenseTrack.Library.Sessions

/-! Users and the requests of administrators that update a user, change a role or delete a user,
statement by statement: each request reads what it decides on before its transaction begins.
-/

namespace LicenseTrack

open Library

/-- `AuthProvider`. -/
inductive AuthProvider
  | localAccount
  | oidc
deriving DecidableEq

/-- A row of `users`. -/
structure User where
  username : String
  email : String
  hashedPassword : String
  authProvider : AuthProvider
  role : UserRole
  isActive : Bool
  allowDownloads : Bool
  isBreakGlassAdmin : Bool
  mustChangePassword : Bool
  securityVersion : Nat
  oidcIssuer : Option String
  oidcSubject : Option String
deriving DecidableEq

/-- The users, and the minimum length of a password where the settings have one. -/
structure Accounts where
  users : Table User
  passwordMinLength : Option Nat

/-- Whether a role, a way to sign in and a state make an active local administrator. -/
def isActiveLocalAdmin (role : UserRole) (authProvider : AuthProvider) (isActive : Bool) : Bool :=
  isActive && role == .admin && authProvider == .localAccount

/-- Whether a user is an active local administrator. -/
def User.isLocalAdmin (user : User) : Bool :=
  isActiveLocalAdmin user.role user.authProvider user.isActive

/-- The rows that `count_active_local_admins` counts, one user excluded. -/
def Accounts.otherLocalAdmins (a : Accounts) (excludeUserId : Nat) : List Nat :=
  a.users.select (fun id user => user.isLocalAdmin && id != excludeUserId)

-- What a request proposes

/-- `UserUpdate`. -/
structure UserUpdate where
  username : String
  email : String
  role : UserRole
  isActive : Bool
  allowDownloads : Bool := true
  authProvider : AuthProvider
  password : Option String := none

/-- `UserUpdate.validate_password_rules`. -/
def UserUpdate.validatePasswordRules (payload : UserUpdate) : UserUpdate :=
  match payload.authProvider with
  | .localAccount =>
      if payload.password = some "" then { payload with password := none } else payload
  | .oidc => { payload with password := none }

/-- The normalized email of `update_user`. -/
def UserUpdate.normalizedEmail (u : Unicode) (payload : UserUpdate) : String :=
  u.lower (strip payload.email)

/-- A request about a user. An update brings the salted hash computed in its course, of the
submitted password or of a random token.
-/
inductive UserRequest
  | updateUser (payload : UserUpdate) (hashed : String)
  | updateUserRole (role : UserRole)
  | deleteUser

/-- `reject_break_glass_change`. -/
def rejectBreakGlassChange (target : User) (newRole : UserRole) (newAuthProvider : AuthProvider)
    (newIsActive : Bool) (newUsername : Option String) : Except Failure Unit :=
  if !target.isBreakGlassAdmin then .ok ⟨⟩
  else do
    require (newAuthProvider = .localAccount)
      (.http 400 "Break-glass admin must remain a local account")
    require (newRole = .admin) (.http 400 "Break-glass admin must remain an admin")
    require (newIsActive = true) (.http 400 "Break-glass admin cannot be disabled")
    require (newUsername.getD target.username = target.username)
      (.http 400 "Break-glass admin username cannot be changed")

/-- The check of the protected account that each request makes on the row it loaded. -/
def UserRequest.rejectBreakGlass (target : User) : UserRequest → Except Failure Unit
  | .updateUser payload _ =>
      rejectBreakGlassChange target payload.role payload.authProvider payload.isActive
        (some payload.username)
  | .updateUserRole role =>
      rejectBreakGlassChange target role target.authProvider target.isActive none
  | .deleteUser =>
      require (target.isBreakGlassAdmin = false) (.http 400 "Break-glass admin cannot be deleted")

/-- `target_remains_active_local_admin`, for the values each request passes on. -/
def UserRequest.remainsLocalAdmin (target : User) : UserRequest → Bool
  | .updateUser payload _ => isActiveLocalAdmin payload.role payload.authProvider payload.isActive
  | .updateUserRole role => isActiveLocalAdmin role target.authProvider target.isActive
  | .deleteUser => isActiveLocalAdmin target.role target.authProvider false

/-- `apply_user_update`. -/
def applyUserUpdate (user : User) (payload : UserUpdate) (email hashed : String)
    (minPasswordLength : Nat) : Except Failure User :=
  let moved := payload.authProvider != user.authProvider
  let updated : User :=
    { user with
      username := payload.username
      email := email
      role := payload.role
      isActive := payload.isActive
      allowDownloads := payload.allowDownloads
      authProvider := payload.authProvider
      oidcIssuer := if moved then none else user.oidcIssuer
      oidcSubject := if moved then none else user.oidcSubject }
  match payload.authProvider, payload.password with
  | .oidc, _ => .ok { updated with hashedPassword := hashed, mustChangePassword := false }
  | .localAccount, none => .ok updated
  | .localAccount, some password =>
      if password.isEmpty then .ok updated
      else if password.length < minPasswordLength then
        .error (.http 422 s!"Password must be at least {minPasswordLength} characters")
      else .ok { updated with hashedPassword := hashed, mustChangePassword := false }

/-- `bump_security_version`. -/
def User.bumpSecurityVersion (user : User) : User :=
  { user with securityVersion := user.securityVersion + 1 }

/-- Whether one of the `security_fields` of `update_user` differs. -/
def User.securityFieldsDiffer (before after : User) : Bool :=
  before.hashedPassword != after.hashedPassword || before.authProvider != after.authProvider
    || before.email != after.email || before.username != after.username
    || before.role != after.role || before.isActive != after.isActive
    || before.allowDownloads != after.allowDownloads

/-- What `update_user` makes of the row it loaded, with the settings it read. -/
def updatedUser (u : Unicode) (user : User) (payload : UserUpdate) (hashed : String)
    (minPasswordLength : Option Nat) : Except Failure User := do
  require (¬ (payload.authProvider = .localAccount ∧ user.authProvider ≠ .localAccount
      ∧ payload.password.getD "" = ""))
    (.http 422 "Password is required when converting an OIDC user to local login")
  let after ← applyUserUpdate user payload (payload.normalizedEmail u) hashed
    (minPasswordLength.getD 12)
  pure (if user.securityFieldsDiffer after then after.bumpSecurityVersion else after)

/-- What `update_user_role` makes of the row it loaded. -/
def reroledUser (user : User) (role : UserRole) : User :=
  let after := { user with role := role }
  if user.role ≠ role then after.bumpSecurityVersion else after

/-- A column is written only where the loaded row was changed in it. -/
def writtenColumn {α : Type} [DecidableEq α] (before after stored : α) : α :=
  if after = before then stored else after

/-- The stored row after the `UPDATE` of a loaded row that was changed. -/
def User.written (before after stored : User) : User where
  username := writtenColumn before.username after.username stored.username
  email := writtenColumn before.email after.email stored.email
  hashedPassword := writtenColumn before.hashedPassword after.hashedPassword stored.hashedPassword
  authProvider := writtenColumn before.authProvider after.authProvider stored.authProvider
  role := writtenColumn before.role after.role stored.role
  isActive := writtenColumn before.isActive after.isActive stored.isActive
  allowDownloads := writtenColumn before.allowDownloads after.allowDownloads stored.allowDownloads
  isBreakGlassAdmin :=
    writtenColumn before.isBreakGlassAdmin after.isBreakGlassAdmin stored.isBreakGlassAdmin
  mustChangePassword :=
    writtenColumn before.mustChangePassword after.mustChangePassword stored.mustChangePassword
  securityVersion :=
    writtenColumn before.securityVersion after.securityVersion stored.securityVersion
  oidcIssuer := writtenColumn before.oidcIssuer after.oidcIssuer stored.oidcIssuer
  oidcSubject := writtenColumn before.oidcSubject after.oidcSubject stored.oidcSubject

/-- The write of a request: the changed columns of its user, or the deletion. -/
inductive UserWrite
  | columns (before after : User)
  | deletion

/-- Whether another user has the name or the address of a row. -/
def Accounts.taken (a : Accounts) (userId : Nat) (row : User) : Bool :=
  a.users.entries.any (fun entry => entry.1 != userId
    && (entry.2.username == row.username || entry.2.email == row.email))

/-- The users after a write, or the error of the database layer. -/
def Accounts.write (a : Accounts) (userId : Nat) : UserWrite → Except Failure Accounts
  | .columns before after =>
      match a.users.get? userId with
      | none => .error (.database "UPDATE statement on table 'users' expected to update 1 row(s)")
      | some stored =>
          if a.taken userId (before.written after stored) then
            .error (.database "UNIQUE constraint failed: users")
          else .ok { a with users := a.users.modify userId (fun row => before.written after row) }
  | .deletion => .ok { a with users := a.users.filter (fun id _ => id != userId) }

-- The requests, statement by statement

/-- Where a request is. The administrators it counted are the ids behind the number it read. -/
inductive UserProgram
  | requested (actor tokenVersion userId : Nat) (request : UserRequest)
  | loading (actor : Nat) (actorRow : User) (userId : Nat) (request : UserRequest)
  | findingUsername (userId : Nat) (user : User) (payload : UserUpdate) (hashed : String)
  | findingEmail (userId : Nat) (user : User) (payload : UserUpdate) (hashed : String)
  | counting (userId : Nat) (user : User) (request : UserRequest)
  | readingSettings (userId : Nat) (user : User) (payload : UserUpdate) (hashed : String)
      (counted : Option (List Nat))
  | writing (userId : Nat) (write : UserWrite) (counted : Option (List Nat))
  | committing
  | rollingBack (failure : Failure)
  | answered
  | failed (failure : Failure)

namespace UserProgram

/-- `get_current_user` and `require_admin`, and the refusal to delete the own account. -/
def authenticate (actor tokenVersion userId : Nat) (request : UserRequest) (a : Accounts)
    : UserProgram :=
  match a.users.get? actor with
  | none => .failed (.http 401 "User not found or inactive")
  | some row =>
      if !row.isActive then .failed (.http 401 "User not found or inactive")
      else if row.securityVersion ≠ tokenVersion then .failed (.http 401 "Invalid or expired token")
      else if row.mustChangePassword then
        .failed (.http 403 "Password change required before using this endpoint")
      else if row.role ≠ .admin then .failed (.http 403 "Admin access required")
      else
        match request with
        | .deleteUser =>
            if userId = actor then .failed (.http 400 "Cannot delete your own account")
            else .loading actor row userId request
        | _ => .loading actor row userId request

/-- What follows the check that an administrator remains. -/
def ensured (userId : Nat) (user : User) (request : UserRequest) (counted : Option (List Nat))
    : UserProgram :=
  match request with
  | .updateUser payload hashed => .readingSettings userId user payload hashed counted
  | .updateUserRole role => .writing userId (.columns user (reroledUser user role)) counted
  | .deleteUser => .writing userId .deletion counted

/-- The check of the protected account, and whether the others are counted. -/
def guarded (userId : Nat) (user : User) (request : UserRequest) : UserProgram :=
  match request.rejectBreakGlass user with
  | .error failure => .failed failure
  | .ok _ =>
      if request.remainsLocalAdmin user then ensured userId user request none
      else .counting userId user request

/-- The row a request works on: the one it signed in with, where that is the user's own. -/
def load (actor : Nat) (actorRow : User) (userId : Nat) (request : UserRequest) (a : Accounts)
    : UserProgram :=
  match a.users.get? userId with
  | none => .failed (.http 404 "User not found")
  | some stored =>
      let user := if userId = actor then actorRow else stored
      match request with
      | .updateUser payload hashed =>
          .findingUsername userId user payload.validatePasswordRules hashed
      | _ => guarded userId user request

/-- `ensure_local_admin_invariant`, past its first return. -/
def count (userId : Nat) (user : User) (request : UserRequest) (a : Accounts) : UserProgram :=
  let others := a.otherLocalAdmins userId
  if others.length = 0 then
    .failed (.http 400 "At least one active local admin must always remain available")
  else ensured userId user request (some others)

/-- The rest of `update_user` up to its commit, which writes nothing where nothing changed. -/
def settle (u : Unicode) (userId : Nat) (user : User) (payload : UserUpdate) (hashed : String)
    (counted : Option (List Nat)) (a : Accounts) : UserProgram :=
  match updatedUser u user payload hashed a.passwordMinLength with
  | .error failure => .failed failure
  | .ok after =>
      if after = user then .committing else .writing userId (.columns user after) counted

/-- The next statement of a request. -/
def statement (u : Unicode) : UserProgram → Statement Accounts UserProgram
  | .requested actor tokenVersion userId request =>
      .read (authenticate actor tokenVersion userId request)
  | .loading actor actorRow userId request => .read (load actor actorRow userId request)
  | .findingUsername userId user payload hashed => .read fun a =>
      if a.users.entries.any (fun entry => entry.1 != userId
          && entry.2.username == payload.username) then
        .failed (.http 409 "Username already taken")
      else .findingEmail userId user payload hashed
  | .findingEmail userId user payload hashed => .read fun a =>
      if a.users.entries.any (fun entry => entry.1 != userId
          && sqlLower entry.2.email == payload.normalizedEmail u) then
        .failed (.http 409 "Email already in use")
      else guarded userId user (.updateUser payload hashed)
  | .counting userId user request => .read (count userId user request)
  | .readingSettings userId user payload hashed counted =>
      .read (settle u userId user payload hashed counted)
  | .writing userId write _ => .write fun a =>
      match a.write userId write with
      | .ok written => (written, .committing)
      | .error failure => (a, .rollingBack failure)
  | .committing => .commit .answered
  | .rollingBack failure => .rollback (.failed failure)
  | .answered | .failed _ => .finished

end UserProgram

end LicenseTrack
