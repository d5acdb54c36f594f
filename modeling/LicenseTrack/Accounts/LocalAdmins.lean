import LicenseTrack.Accounts.UserService

/-! The last local administrator: requests about users, interleaved statement by statement, leave
an active local administrator as long as the administrators a request counted are still the
ones there when it writes, or one of them is protected.
-/

namespace LicenseTrack

open Library

/-- Some user is an active local administrator. -/
def Accounts.HasLocalAdmin (a : Accounts) : Prop :=
  ∃ id user, a.users.get? id = some user ∧ user.isLocalAdmin = true

/-- The active local administrators that are protected accounts. -/
def Accounts.breakGlassAdmins (a : Accounts) : List Nat :=
  a.users.select (fun _ user => user.isLocalAdmin && user.isBreakGlassAdmin)

/-- No user in `a'` is new there or protected otherwise than in `a`. -/
def Accounts.KeepsProtection (a a' : Accounts) : Prop :=
  ∀ id user', a'.users.get? id = some user' →
    ∃ user, a.users.get? id = some user ∧ user'.isBreakGlassAdmin = user.isBreakGlassAdmin

/-- A user, where stored, is not a protected account. -/
def Accounts.Unprotected (a : Accounts) (userId : Nat) : Prop :=
  ∀ stored, a.users.get? userId = some stored → stored.isBreakGlassAdmin = false

/-- A user, where stored, is protected exactly as a loaded row says. -/
def Accounts.ProtectedAs (a : Accounts) (userId : Nat) (user : User) : Prop :=
  ∀ stored, a.users.get? userId = some stored → stored.isBreakGlassAdmin = user.isBreakGlassAdmin

variable {u : Unicode} {a a' : Accounts} {userId : Nat} {user after : User}

namespace Accounts

theorem KeepsProtection.refl (a : Accounts) : KeepsProtection a a :=
  fun _ user hu => ⟨user, hu, rfl⟩

theorem KeepsProtection.unprotected (h : KeepsProtection a a') (hp : a.Unprotected userId)
    : a'.Unprotected userId := by
  intro stored hs
  obtain ⟨before, hb, he⟩ := h userId stored hs
  rw [he, hp before hb]

theorem KeepsProtection.protectedAs (h : KeepsProtection a a') (hp : a.ProtectedAs userId user)
    : a'.ProtectedAs userId user := by
  intro stored hs
  obtain ⟨before, hb, he⟩ := h userId stored hs
  rw [he, hp before hb]

theorem ProtectedAs.unprotected (h : a.ProtectedAs userId user)
    (hu : user.isBreakGlassAdmin = false)
    : a.Unprotected userId :=
  fun stored hs => (h stored hs).trans hu

theorem write_cases {write : UserWrite} (h : a.write userId write = .ok a')
    : (∃ before after, write = .columns before after
          ∧ a'.users = a.users.modify userId (fun row => before.written after row))
      ∨ (write = .deletion ∧ a'.users = a.users.filter (fun id _ => id != userId)) := by
  cases write with
  | columns before after =>
      simp only [Accounts.write] at h
      split at h
      · cases h
      · split at h
        · cases h
        · obtain rfl := Except.ok.inj h
          exact .inl ⟨before, after, rfl, rfl⟩
  | deletion =>
      obtain rfl := Except.ok.inj h
      exact .inr ⟨rfl, rfl⟩

theorem write_other {write : UserWrite} (h : a.write userId write = .ok a') {id : Nat}
    (hne : id ≠ userId)
    : a'.users.get? id = a.users.get? id := by
  rcases write_cases h with ⟨before, after, -, hu⟩ | ⟨-, hu⟩
  · rw [hu, Table.get?_modify_ne _ _ hne]
  · rw [hu, Table.get?_filter]
    cases a.users.get? id <;> simp [Option.filter, hne]

end Accounts

theorem writtenColumn_cases {α : Type} [DecidableEq α] (before after stored : α)
    : writtenColumn before after stored = stored ∨ writtenColumn before after stored = after := by
  unfold writtenColumn
  split
  · exact .inl rfl
  · exact .inr rfl

theorem User.written_isLocalAdmin {before stored : User} (ha : after.isLocalAdmin = true)
    (hs : stored.isLocalAdmin = true)
    : (before.written after stored).isLocalAdmin = true := by
  simp only [User.isLocalAdmin, isActiveLocalAdmin, Bool.and_eq_true, beq_iff_eq] at ha hs ⊢
  obtain ⟨⟨hactive, hrole⟩, hprovider⟩ := ha
  obtain ⟨⟨hactive', hrole'⟩, hprovider'⟩ := hs
  refine ⟨⟨?_, ?_⟩, ?_⟩
  · rcases writtenColumn_cases before.isActive after.isActive stored.isActive with h | h
    · exact h.trans hactive'
    · exact h.trans hactive
  · rcases writtenColumn_cases before.role after.role stored.role with h | h
    · exact h.trans hrole'
    · exact h.trans hrole
  · rcases writtenColumn_cases before.authProvider after.authProvider stored.authProvider with h | h
    · exact h.trans hprovider'
    · exact h.trans hprovider

/-- What a request knows of its write: it changes no protection, and it leaves the user an
active local administrator unless others were counted, which are for users not protected.
-/
structure UserWrite.Sound (a : Accounts) (userId : Nat) (write : UserWrite)
    (counted : Option (List Nat)) : Prop where
  keepsFlag : ∀ before after, write = .columns before after →
    after.isBreakGlassAdmin = before.isBreakGlassAdmin
  uncounted : counted = none → ∃ before after, write = .columns before after
    ∧ after.isLocalAdmin = true
  others : ∀ others, counted = some others → others ≠ [] ∧ a.Unprotected userId

namespace UserWrite.Sound

variable {write : UserWrite} {counted : Option (List Nat)}

theorem mono (h : UserWrite.Sound a userId write counted) (hk : a.KeepsProtection a')
    : UserWrite.Sound a' userId write counted where
  keepsFlag := h.keepsFlag
  uncounted := h.uncounted
  others := fun others ho => ⟨(h.others others ho).1, hk.unprotected (h.others others ho).2⟩

theorem keepsProtection (h : UserWrite.Sound a userId write counted)
    (hw : a.write userId write = .ok a')
    : a.KeepsProtection a' := by
  intro id user' hu'
  by_cases hne : id = userId
  · subst hne
    rcases Accounts.write_cases hw with ⟨before, after, he, hu⟩ | ⟨-, hu⟩
    · rw [hu, Table.get?_modify_self, Option.map_eq_some_iff] at hu'
      obtain ⟨stored, hs, rfl⟩ := hu'
      refine ⟨stored, hs, ?_⟩
      simp only [User.written, writtenColumn, h.keepsFlag before after he, if_true]
    · rw [hu, Table.get?_filter, Option.filter_eq_some_iff] at hu'
      simp at hu'
  · rw [Accounts.write_other hw hne] at hu'
    exact ⟨user', hu', rfl⟩

theorem hasLocalAdmin_uncounted (h : UserWrite.Sound a userId write none)
    (hw : a.write userId write = .ok a') (ha : a.HasLocalAdmin)
    : a'.HasLocalAdmin := by
  obtain ⟨id, user, hu, hadmin⟩ := ha
  by_cases hne : id = userId
  · subst hne
    obtain ⟨before, after, rfl, hafter⟩ := h.uncounted rfl
    rcases Accounts.write_cases hw with ⟨_, _, he, hu'⟩ | ⟨he, -⟩
    · cases he
      refine ⟨id, before.written after user, ?_, User.written_isLocalAdmin hafter hadmin⟩
      rw [hu', Table.get?_modify_self, hu, Option.map_some]
    · cases he
  · exact ⟨id, user, (Accounts.write_other hw hne).trans hu, hadmin⟩

theorem hasLocalAdmin_counted {others : List Nat}
    (h : UserWrite.Sound a userId write (some others)) (hw : a.write userId write = .ok a')
    (hstands : a.otherLocalAdmins userId = others ∨ a.breakGlassAdmins ≠ [])
    : a'.HasLocalAdmin := by
  obtain ⟨hne, hfree⟩ := h.others others rfl
  cases hstands with
  | inl hsame =>
      obtain ⟨id, hid⟩ := List.exists_mem_of_ne_nil _ hne
      rw [← hsame, Accounts.otherLocalAdmins, Table.mem_select] at hid
      obtain ⟨row, hrow, hadmin⟩ := hid
      simp only [Bool.and_eq_true, bne_iff_ne] at hadmin
      exact ⟨id, row, (Accounts.write_other hw hadmin.2).trans hrow, hadmin.1⟩
  | inr hprotected =>
      obtain ⟨id, hid⟩ := List.exists_mem_of_ne_nil _ hprotected
      rw [Accounts.breakGlassAdmins, Table.mem_select] at hid
      obtain ⟨row, hrow, hadmin⟩ := hid
      simp only [Bool.and_eq_true] at hadmin
      have hother : id ≠ userId := by
        intro he
        subst he
        rw [hfree row hrow] at hadmin
        exact Bool.noConfusion hadmin.2
      exact ⟨id, row, (Accounts.write_other hw hother).trans hrow, hadmin.1⟩

end UserWrite.Sound

-- What a request knows between its statements

/-- A row that a request has loaded is protected as its stored row is, and its write is sound. -/
def UserProgram.Sound (a : Accounts) : UserProgram → Prop
  | .loading actor actorRow _ _ => a.ProtectedAs actor actorRow
  | .findingUsername userId user _ _ | .findingEmail userId user _ _ => a.ProtectedAs userId user
  | .counting userId _ _ => a.Unprotected userId
  | .readingSettings userId _ payload _ counted =>
      (counted = none →
          isActiveLocalAdmin payload.role payload.authProvider payload.isActive = true)
        ∧ ∀ others, counted = some others → others ≠ [] ∧ a.Unprotected userId
  | .writing userId write counted => write.Sound a userId counted
  | .requested .. | .committing | .rollingBack _ | .answered | .failed _ => True

theorem UserRequest.remainsLocalAdmin_of_protected {request : UserRequest}
    (hp : user.isBreakGlassAdmin = true) (h : request.rejectBreakGlass user = .ok ⟨⟩)
    : request.remainsLocalAdmin user = true := by
  have hchange : ∀ {role authProvider isActive username},
      rejectBreakGlassChange user role authProvider isActive username = .ok ⟨⟩ →
        isActiveLocalAdmin role authProvider isActive = true := by
    intro role authProvider isActive username hc
    simp only [rejectBreakGlassChange, hp, Bool.not_true, Bool.false_eq_true, if_false,
      bind_eq_ok, require_eq_ok] at hc
    obtain ⟨-, hprovider, -, hrole, -, hactive, -⟩ := hc
    simp only [isActiveLocalAdmin, hprovider, hrole, hactive, beq_self_eq_true, Bool.and_self]
  cases request with
  | updateUser payload hashed => exact hchange h
  | updateUserRole role => exact hchange h
  | deleteUser =>
      simp only [rejectBreakGlass, hp, require_eq_ok] at h
      exact Bool.noConfusion h

theorem updatedUser_ok {payload : UserUpdate} {hashed : String} {minLength : Option Nat}
    (h : updatedUser u user payload hashed minLength = .ok after)
    : after.isBreakGlassAdmin = user.isBreakGlassAdmin
      ∧ after.isLocalAdmin
        = isActiveLocalAdmin payload.role payload.authProvider payload.isActive := by
  have happlied : ∀ {email minimum applied},
      applyUserUpdate user payload email hashed minimum = .ok applied →
        applied.isBreakGlassAdmin = user.isBreakGlassAdmin
          ∧ applied.isLocalAdmin
            = isActiveLocalAdmin payload.role payload.authProvider payload.isActive := by
    intro email minimum applied ha
    unfold applyUserUpdate at ha
    simp only at ha
    split at ha
    · obtain rfl := Except.ok.inj ha
      exact ⟨rfl, rfl⟩
    · obtain rfl := Except.ok.inj ha
      exact ⟨rfl, rfl⟩
    · split at ha
      · obtain rfl := Except.ok.inj ha
        exact ⟨rfl, rfl⟩
      · split at ha
        · cases ha
        · obtain rfl := Except.ok.inj ha
          exact ⟨rfl, rfl⟩
  simp only [updatedUser, bind_eq_ok, pure_eq_ok] at h
  obtain ⟨-, -, applied, ha, rfl⟩ := h
  obtain ⟨hflag, hadmin⟩ := happlied ha
  split
  · exact ⟨hflag, hadmin⟩
  · exact ⟨hflag, hadmin⟩

theorem reroledUser_eq (user : User) (role : UserRole)
    : (reroledUser user role).isBreakGlassAdmin = user.isBreakGlassAdmin
      ∧ (reroledUser user role).isLocalAdmin
        = isActiveLocalAdmin role user.authProvider user.isActive := by
  simp only [reroledUser]
  split
  · exact ⟨rfl, rfl⟩
  · exact ⟨rfl, rfl⟩

namespace UserProgram

variable {request : UserRequest}

theorem Sound.mono {program : UserProgram} (h : program.Sound a) (hk : a.KeepsProtection a')
    : program.Sound a' := by
  cases program with
  | loading actor actorRow userId request => exact hk.protectedAs h
  | findingUsername userId user payload hashed => exact hk.protectedAs h
  | findingEmail userId user payload hashed => exact hk.protectedAs h
  | counting userId user request => exact hk.unprotected h
  | readingSettings userId user payload hashed counted =>
      exact ⟨h.1, fun others ho => ⟨(h.2 others ho).1, hk.unprotected (h.2 others ho).2⟩⟩
  | writing userId write counted => exact UserWrite.Sound.mono h hk
  | requested _ _ _ _ => exact trivial
  | committing => exact trivial
  | rollingBack _ => exact trivial
  | answered => exact trivial
  | failed _ => exact trivial

theorem ensured_sound {counted : Option (List Nat)}
    (huncounted : counted = none → request.remainsLocalAdmin user = true)
    (hothers : ∀ others, counted = some others → others ≠ [] ∧ a.Unprotected userId)
    : (ensured userId user request counted).Sound a := by
  cases request with
  | updateUser payload hashed => exact ⟨huncounted, hothers⟩
  | updateUserRole role =>
      obtain ⟨hflag, hadmin⟩ := reroledUser_eq user role
      refine ⟨fun before after he => ?_, fun hc => ?_, hothers⟩
      · cases he
        exact hflag
      · exact ⟨user, reroledUser user role, rfl, hadmin.trans (huncounted hc)⟩
  | deleteUser =>
      refine ⟨fun before after he => ?_, fun hc => ?_, hothers⟩
      · cases he
      · have hnever : (UserRequest.deleteUser).remainsLocalAdmin user = false := by
          simp [UserRequest.remainsLocalAdmin, isActiveLocalAdmin]
        rw [huncounted hc] at hnever
        cases hnever

theorem guarded_sound (h : a.ProtectedAs userId user) : (guarded userId user request).Sound a := by
  unfold guarded
  split
  · exact trivial
  · next hguard =>
      split
      · next hremains =>
          apply ensured_sound
          · exact fun _ => hremains
          · intro others ho
            cases ho
      · next hremains =>
          refine h.unprotected ?_
          by_contra hflag
          exact hremains
            (UserRequest.remainsLocalAdmin_of_protected (Bool.not_eq_false _ ▸ hflag) hguard)

/-- A read of a request leaves it with what it knows. -/
theorem read_sound {program : UserProgram} {next : Accounts → UserProgram}
    (hs : statement u program = .read next) (h : program.Sound a)
    : (next a).Sound a := by
  cases program with
  | requested actor tokenVersion userId request =>
      obtain rfl := Statement.read.inj hs
      simp only [authenticate]
      split
      · exact trivial
      · next row hrow =>
          have hself : a.ProtectedAs actor row := fun stored hstored => by
            rw [hrow] at hstored
            rw [Option.some.inj hstored]
          split
          · exact trivial
          split
          · exact trivial
          split
          · exact trivial
          split
          · exact trivial
          split
          · split
            · exact trivial
            · exact hself
          · exact hself
  | loading actor actorRow userId request =>
      obtain rfl := Statement.read.inj hs
      simp only [load]
      split
      · exact trivial
      · next stored hstored =>
          have hloaded : a.ProtectedAs userId (if userId = actor then actorRow else stored) := by
            split
            · next he =>
                subst he
                exact h
            · intro row hrow
              rw [hstored] at hrow
              rw [Option.some.inj hrow]
          split
          · exact hloaded
          · exact guarded_sound hloaded
  | findingUsername userId user payload hashed =>
      obtain rfl := Statement.read.inj hs
      simp only
      split
      · exact trivial
      · exact h
  | findingEmail userId user payload hashed =>
      obtain rfl := Statement.read.inj hs
      simp only
      split
      · exact trivial
      · exact guarded_sound h
  | counting userId user request =>
      obtain rfl := Statement.read.inj hs
      simp only [count]
      split
      · exact trivial
      · next hsome =>
          refine ensured_sound (fun hc => ?_) (fun others ho => ?_)
          · cases hc
          · obtain rfl := Option.some.inj ho
            exact ⟨fun hnil => hsome (List.length_eq_zero_iff.mpr hnil), h⟩
  | readingSettings userId user payload hashed counted =>
      obtain rfl := Statement.read.inj hs
      simp only [settle]
      split
      · exact trivial
      · next after hafter =>
          obtain ⟨hflag, hadmin⟩ := updatedUser_ok hafter
          split
          · exact trivial
          · refine ⟨fun before other he => ?_, fun hc => ?_, h.2⟩
            · cases he
              exact hflag
            · exact ⟨user, after, rfl, hadmin.trans (h.1 hc)⟩
  | writing userId write counted => cases hs
  | committing => cases hs
  | rollingBack failure => cases hs
  | answered => cases hs
  | failed failure => cases hs

/-- A request that ends its transaction next. -/
def Ending : UserProgram → Prop
  | .committing | .rollingBack _ => True
  | _ => False

theorem Ending.cases {program : UserProgram} (h : program.Ending)
    : program = .committing ∨ ∃ failure, program = .rollingBack failure := by
  cases program with
  | committing => exact .inl rfl
  | rollingBack failure => exact .inr ⟨failure, rfl⟩
  | requested _ _ _ _ | loading _ _ _ _ | findingUsername _ _ _ _ | findingEmail _ _ _ _
  | counting _ _ _ | readingSettings _ _ _ _ _ | writing _ _ _ | answered | failed _ =>
      exact h.elim

/-- At the write of a request that counted the other administrators, they are the ones there, or
an active local administrator is a protected account.
-/
def CountStands (a : Accounts) : UserProgram → Prop
  | .writing userId _ (some others) =>
      a.otherLocalAdmins userId = others ∨ a.breakGlassAdmins ≠ []
  | _ => True

instance (a : Accounts) (program : UserProgram) : Decidable (CountStands a program) :=
  match program with
  | .writing userId _ (some others) =>
      inferInstanceAs (Decidable (a.otherLocalAdmins userId = others ∨ a.breakGlassAdmins ≠ []))
  | .writing _ _ none | .requested .. | .loading .. | .findingUsername .. | .findingEmail ..
  | .counting .. | .readingSettings .. | .committing | .rollingBack _ | .answered | .failed _ =>
      inferInstanceAs (Decidable True)

/-- A request whose process ended. -/
def dead : UserProgram := .failed (.database "process ended")

theorem write_sound {program : UserProgram} {next : Accounts → Accounts × UserProgram}
    (hs : statement u program = .write next) (ha : a.HasLocalAdmin) (h : program.Sound a)
    (hstands : CountStands a program)
    : (next a).1.HasLocalAdmin ∧ a.KeepsProtection (next a).1 ∧ (next a).2.Ending := by
  cases program with
  | writing userId write counted =>
      obtain rfl := Statement.write.inj hs
      simp only
      split
      · next written hw =>
          refine ⟨?_, UserWrite.Sound.keepsProtection h hw, trivial⟩
          cases counted with
          | none => exact UserWrite.Sound.hasLocalAdmin_uncounted h hw ha
          | some others => exact UserWrite.Sound.hasLocalAdmin_counted h hw hstands
      · exact ⟨ha, .refl a, trivial⟩
  | requested actor tokenVersion userId request => cases hs
  | loading actor actorRow userId request => cases hs
  | findingUsername userId user payload hashed => cases hs
  | findingEmail userId user payload hashed => cases hs
  | counting userId user request => cases hs
  | readingSettings userId user payload hashed counted => cases hs
  | committing => cases hs
  | rollingBack failure => cases hs
  | answered => cases hs
  | failed failure => cases hs

theorem discipline (u : Unicode)
    : Discipline (statement u) dead CountStands Accounts.HasLocalAdmin (fun a p => p.Sound a)
        (fun a own p => own.HasLocalAdmin ∧ a.KeepsProtection own ∧ p.Ending)
        Accounts.KeepsProtection where
  outlives hk h := h.mono hk
  dead _ := trivial
  read hs h := read_sound hs h
  readOwn hs h := by
    obtain ⟨-, -, hending⟩ := h
    rcases hending.cases with rfl | ⟨failure, rfl⟩
    · cases hs
    · cases hs
  write hs hgood h hstands := write_sound hs hgood h hstands
  writeOwn hs _ h _ := by
    obtain ⟨-, -, hending⟩ := h
    rcases hending.cases with rfl | ⟨failure, rfl⟩
    · cases hs
    · cases hs
  commit {c p next} hs _ := by
    cases p <;> cases hs
    exact trivial
  commitOwn {c own p next} hs _ h := by
    cases p <;> cases hs
    exact ⟨h.1, h.2.1, trivial⟩
  rollback {c p next} hs _ := by
    cases p <;> cases hs
    exact trivial
  rollbackOwn {c own p next} hs _ := by
    cases p <;> cases hs
    exact trivial

end UserProgram

-- Runs

/-- A request with the account and the session version it was signed in with. -/
structure SignedRequest where
  actor : Nat
  tokenVersion : Nat
  userId : Nat
  request : UserRequest

/-- Requests that have arrived, on users that no transaction is changing. -/
def arrived (a : Accounts) (requests : Nat → SignedRequest) : Sessions Accounts UserProgram where
  committed := a
  writer := none
  program i :=
    .requested (requests i).actor (requests i).tokenVersion (requests i).userId (requests i).request

/-- Every state that requests about users reach has an active local administrator, whatever
their number and their order of statements, if the counts stand when they write.
-/
theorem localAdmin_remains {requests : Nat → SignedRequest} {s : Sessions Accounts UserProgram}
    (ha : a.HasLocalAdmin)
    (h : Sessions.Reached (UserProgram.statement u) UserProgram.dead UserProgram.CountStands
      (arrived a requests) s)
    : s.committed.HasLocalAdmin := by
  have hknows : ∀ i, ((arrived a requests).program i).Sound a := fun _ => trivial
  exact ((UserProgram.discipline u).invariant ha rfl hknows h).good

/-- Two administrators without a protected account. -/
def twoAdmins : Accounts where
  users := (Table.empty.insert (admin "ann")).insert (admin "bea")
  passwordMinLength := some 12
where
  /-- An administrator with a local account. -/
  admin (name : String) : User :=
    {
      username := name
      email := name
      hashedPassword := ""
      authProvider := .localAccount
      role := .admin
      isActive := true
      allowDownloads := true
      isBreakGlassAdmin := false
      mustChangePassword := false
      securityVersion := 0
      oidcIssuer := none
      oidcSubject := none
    }

theorem twoAdmins_hasLocalAdmin : twoAdmins.HasLocalAdmin :=
  ⟨1, twoAdmins.admin "ann", rfl, rfl⟩

/-- Each of the two administrators demotes the other. -/
def mutualDemotion (i : Nat) : SignedRequest :=
  if i = 0 then ⟨1, 0, 2, .updateUserRole .viewer⟩ else ⟨2, 0, 1, .updateUserRole .viewer⟩

/-- One demotion after the other: the second is not authorized any more. -/
theorem localAdmin_remains_inTurn
    : ∃ s, Sessions.Reached (UserProgram.statement .ascii) UserProgram.dead
          UserProgram.CountStands (arrived twoAdmins mutualDemotion) s
        ∧ s.committed.users.select (fun _ user => user.isLocalAdmin) = [1]
        ∧ s.committed.HasLocalAdmin := by
  have hrun : (runAdmitted (Sessions.step (UserProgram.statement .ascii) UserProgram.dead)
      (Sessions.Admitted UserProgram.CountStands)
      [.advance 0, .advance 0, .advance 0, .advance 0, .advance 0, .advance 1]
      (arrived twoAdmins mutualDemotion)).map
        (fun s => s.committed.users.select (fun _ user => user.isLocalAdmin)) = some [1] := by
    decide +kernel
  obtain ⟨s, hs, hadmins⟩ := Option.map_eq_some_iff.mp hrun
  have hreached := Reachable.of_runAdmitted .start hs
  exact ⟨s, hreached, hadmins, localAdmin_remains twoAdmins_hasLocalAdmin hreached⟩

/-- Two administrators who each count the other and then demote that one leave no
administrator.
-/
theorem localAdmin_lost_mutualDemotion
    : twoAdmins.HasLocalAdmin
        ∧ ∃ s, Sessions.Reached (UserProgram.statement .ascii) UserProgram.dead (fun _ _ => True)
            (arrived twoAdmins mutualDemotion) s
          ∧ ¬ s.committed.HasLocalAdmin := by
  refine ⟨twoAdmins_hasLocalAdmin, ?_⟩
  have hrun : (runAdmitted (Sessions.step (UserProgram.statement .ascii) UserProgram.dead)
      (Sessions.Admitted (fun _ _ => True))
      [.advance 0, .advance 0, .advance 0, .advance 1, .advance 1, .advance 1,
        .advance 0, .advance 0, .advance 1, .advance 1]
      (arrived twoAdmins mutualDemotion)).map
        (fun s => s.committed.users.select (fun _ user => user.isLocalAdmin)) = some [] := by
    decide +kernel
  obtain ⟨s, hs, hadmins⟩ := Option.map_eq_some_iff.mp hrun
  refine ⟨s, Reachable.of_runAdmitted .start hs, fun hremains => ?_⟩
  obtain ⟨id, user, hu, hadmin⟩ := hremains
  have hid : id ∈ s.committed.users.select (fun _ user => user.isLocalAdmin) :=
    Table.mem_select.mpr ⟨user, hu, hadmin⟩
  rw [hadmins] at hid
  cases hid

end LicenseTrack
