import LicenseTrack.Library.Runs
import Mathlib.Logic.Function.Basic

/-! Concurrent sessions on a store with one writer at a time, statement by statement. A session
reads what is committed and takes no lock until its first write; from then on it is the only
writer, sees its own changes, and ends with a commit or without a trace.
-/

namespace Library

universe u v

variable {σ : Type u} {α : Type v}

/-- The next statement of a program, with the program that goes on after it. -/
inductive Statement (σ : Type u) (α : Type v)
  | read (next : σ → α)
  | write (next : σ → σ × α)
  | commit (next : α)
  | rollback (next : α)
  | finished

/-- The committed state, the session in a write transaction with what it sees, and the program
of each session.
-/
structure Sessions (σ : Type u) (α : Type v) where
  committed : σ
  writer : Option (Nat × σ)
  program : Nat → α

/-- A turn: a session executes its next statement, or it dies. -/
inductive Turn
  | advance (session : Nat)
  | crash (session : Nat)
deriving DecidableEq

namespace Sessions

/-- What a session sees. -/
def view (s : Sessions σ α) (i : Nat) : σ :=
  match s.writer with
  | some (j, own) => if j = i then own else s.committed
  | none => s.committed

/-- Whether another session is in a write transaction. -/
def blocks (s : Sessions σ α) (i : Nat) : Bool := s.writer.any (fun w => w.1 != i)

/-- The writer once a session has ended its transaction. -/
def released (s : Sessions σ α) (i : Nat) : Option (Nat × σ) := s.writer.filter (fun w => w.1 != i)

/-- The programs with that of one session gone on. -/
def goneOn (s : Sessions σ α) (i : Nat) (next : α) : Nat → α := Function.update s.program i next

/-- The sessions after a turn; an error stands for a turn that has to wait. -/
def step (statement : α → Statement σ α) (dead : α) (turn : Turn) (s : Sessions σ α)
    : Except PUnit.{1} (Sessions σ α) :=
  match turn with
  | .crash i => .ok { s with writer := s.released i, program := s.goneOn i dead }
  | .advance i =>
      match statement (s.program i) with
      | .read next => .ok { s with program := s.goneOn i (next (s.view i)) }
      | .write next =>
          if s.blocks i then .error ⟨⟩
          else .ok
            {
              committed := s.committed
              writer := some (i, (next (s.view i)).1)
              program := s.goneOn i (next (s.view i)).2
            }
      | .commit next =>
          .ok { committed := s.view i, writer := s.released i, program := s.goneOn i next }
      | .rollback next => .ok { s with writer := s.released i, program := s.goneOn i next }
      | .finished => .error ⟨⟩

section

variable {s : Sessions σ α} {i j : Nat}

theorem view_writer {own : σ} (h : s.writer = some (i, own)) : s.view i = own := by
  simp only [view, h, if_true]

theorem view_eq (h : ∀ own, s.writer ≠ some (i, own)) : s.view i = s.committed := by
  unfold view
  split
  · next j own hw =>
      rw [if_neg]
      rintro rfl
      exact h own hw
  · rfl

theorem released_some {own : σ} (h : s.released i = some (j, own))
    : s.writer = some (j, own) ∧ j ≠ i := by
  obtain ⟨hw, hne⟩ := Option.filter_eq_some_iff.mp h
  exact ⟨hw, by simpa using hne⟩

theorem released_ne {own : σ} (h : j ≠ i)
    : s.released i = some (j, own) ↔ s.writer = some (j, own) := by
  refine ⟨fun hr => (released_some hr).1, fun hw => ?_⟩
  exact Option.filter_eq_some_iff.mpr ⟨hw, by simpa using h⟩

theorem released_writer {own : σ} (h : s.writer = some (i, own)) : s.released i = none := by
  simp [released, h]

theorem released_out (h : ∀ own, s.writer ≠ some (i, own)) : s.released i = s.writer := by
  cases hw : s.writer with
  | none => simp only [released, hw, Option.filter_none]
  | some w =>
      obtain ⟨j, own⟩ := w
      rw [← hw, hw]
      refine (released_ne ?_).mpr hw
      rintro rfl
      exact h own hw

theorem owned_or_out (s : Sessions σ α) (i : Nat)
    : (∃ own, s.writer = some (i, own)) ∨ ∀ own, s.writer ≠ some (i, own) := by
  by_cases h : ∃ own, s.writer = some (i, own)
  · exact .inl h
  · exact .inr (not_exists.mp h)

@[simp] theorem goneOn_self (s : Sessions σ α) (i : Nat) (next : α) : s.goneOn i next i = next :=
  Function.update_self ..

theorem goneOn_ne (s : Sessions σ α) (next : α) (h : j ≠ i) : s.goneOn i next j = s.program j :=
  Function.update_of_ne h ..

end

theorem step_cases {statement : α → Statement σ α} {dead : α} {turn : Turn} {s t : Sessions σ α}
    (h : step statement dead turn s = .ok t)
    : (∃ i next, turn = .advance i ∧ statement (s.program i) = .read next
          ∧ t = { s with program := s.goneOn i (next (s.view i)) })
      ∨ (∃ i next, turn = .advance i ∧ statement (s.program i) = .write next ∧ s.blocks i = false
          ∧ t = { s with
              writer := some (i, (next (s.view i)).1)
              program := s.goneOn i (next (s.view i)).2 })
      ∨ (∃ i next, turn = .advance i ∧ statement (s.program i) = .commit next
          ∧ t = { committed := s.view i, writer := s.released i, program := s.goneOn i next })
      ∨ ∃ i next, (next = dead ∨ statement (s.program i) = .rollback next)
          ∧ t = { s with writer := s.released i, program := s.goneOn i next } := by
  cases turn with
  | crash i => exact .inr (.inr (.inr ⟨i, dead, .inl rfl, (Except.ok.inj h).symm⟩))
  | advance i =>
      simp only [step] at h
      cases hs : statement (s.program i) with
      | read next =>
          simp only [hs] at h
          exact .inl ⟨i, next, rfl, hs, (Except.ok.inj h).symm⟩
      | write next =>
          simp only [hs] at h
          split at h
          · cases h
          · next hfree =>
              exact .inr (.inl ⟨i, next, rfl, hs, Bool.not_eq_true _ ▸ hfree,
                (Except.ok.inj h).symm⟩)
      | commit next =>
          simp only [hs] at h
          exact .inr (.inr (.inl ⟨i, next, rfl, hs, (Except.ok.inj h).symm⟩))
      | rollback next =>
          simp only [hs] at h
          exact .inr (.inr (.inr ⟨i, next, .inr hs, (Except.ok.inj h).symm⟩))
      | finished =>
          simp only [hs] at h
          cases h

/-- The turns that execute an admitted statement. -/
def Admitted (admits : σ → α → Prop) (s : Sessions σ α) : Turn → Prop
  | .advance i => admits (s.view i) (s.program i)
  | .crash _ => True

instance {admits : σ → α → Prop} [∀ a p, Decidable (admits a p)] (s : Sessions σ α) (turn : Turn)
    : Decidable (s.Admitted admits turn) :=
  match turn with
  | .advance i => inferInstanceAs (Decidable (admits (s.view i) (s.program i)))
  | .crash _ => inferInstanceAs (Decidable True)

/-- The sessions reached from a start by turns that execute admitted statements. -/
abbrev Reached (statement : α → Statement σ α) (dead : α) (admits : σ → α → Prop)
    (start s : Sessions σ α) : Prop :=
  Reachable (step statement dead) (Admitted admits) start s

end Sessions

-- A rule for runs of sessions

/-- What programs observe so that the committed state stays good: what one of them knows of the
committed state outlives the commits of the others, and what the writer holds is good when it
commits.
-/
structure Discipline (statement : α → Statement σ α) (dead : α) (admits : σ → α → Prop)
    (Good : σ → Prop) (Knows : σ → α → Prop) (Owns : σ → σ → α → Prop) (Keeps : σ → σ → Prop)
    : Prop where
  outlives : ∀ {c c' p}, Keeps c c' → Knows c p → Knows c' p
  dead : ∀ c, Knows c dead
  read : ∀ {c p next}, statement p = .read next → Knows c p → Knows c (next c)
  readOwn : ∀ {c own p next}, statement p = .read next → Owns c own p → Owns c own (next own)
  write : ∀ {c p next}, statement p = .write next → Good c → Knows c p → admits c p →
    Owns c (next c).1 (next c).2
  writeOwn : ∀ {c own p next}, statement p = .write next → Good c → Owns c own p →
    admits own p → Owns c (next own).1 (next own).2
  commit : ∀ {c p next}, statement p = .commit next → Knows c p → Knows c next
  commitOwn : ∀ {c own p next}, statement p = .commit next → Good c → Owns c own p →
    Good own ∧ Keeps c own ∧ Knows own next
  rollback : ∀ {c p next}, statement p = .rollback next → Knows c p → Knows c next
  rollbackOwn : ∀ {c own p next}, statement p = .rollback next → Owns c own p → Knows c next

/-- What holds between two turns of disciplined programs. -/
structure Sessions.Sound (Good : σ → Prop) (Knows : σ → α → Prop) (Owns : σ → σ → α → Prop)
    (s : Sessions σ α) : Prop where
  good : Good s.committed
  knows : ∀ i, (∀ own, s.writer ≠ some (i, own)) → Knows s.committed (s.program i)
  owns : ∀ i own, s.writer = some (i, own) → Owns s.committed own (s.program i)

namespace Discipline

variable {statement : α → Statement σ α} {dead : α} {admits : σ → α → Prop} {Good : σ → Prop}
  {Knows : σ → α → Prop} {Owns : σ → σ → α → Prop} {Keeps : σ → σ → Prop}

theorem sound_goneOn {s : Sessions σ α} {i : Nat} {next : α} {committed : σ}
    {writer : Option (Nat × σ)} (hgood : Good committed)
    (hknows : ∀ j, j ≠ i → (∀ own, writer ≠ some (j, own)) → Knows committed (s.program j))
    (howns : ∀ j, j ≠ i → ∀ own, writer = some (j, own) → Owns committed own (s.program j))
    (hself : (∀ own, writer ≠ some (i, own)) → Knows committed next)
    (hselfOwns : ∀ own, writer = some (i, own) → Owns committed own next)
    : Sessions.Sound Good Knows Owns
        { committed := committed, writer := writer, program := s.goneOn i next } where
  good := hgood
  knows := fun j hj => by
    by_cases he : j = i
    · subst he
      simpa only [Sessions.goneOn_self] using hself hj
    · simpa only [Sessions.goneOn_ne s next he] using hknows j he hj
  owns := fun j own hj => by
    by_cases he : j = i
    · subst he
      simpa only [Sessions.goneOn_self] using hselfOwns own hj
    · simpa only [Sessions.goneOn_ne s next he] using howns j he own hj

/-- A turn of disciplined programs keeps what holds between turns. -/
theorem step_sound (d : Discipline statement dead admits Good Knows Owns Keeps) {turn : Turn}
    {s t : Sessions σ α} (h : s.Sound Good Knows Owns) (hadmits : s.Admitted admits turn)
    (hstep : Sessions.step statement dead turn s = .ok t)
    : t.Sound Good Knows Owns := by
  rcases Sessions.step_cases hstep with ⟨i, next, rfl, hs, rfl⟩ | ⟨i, next, rfl, hs, hfree, rfl⟩
    | ⟨i, next, rfl, hs, rfl⟩ | ⟨i, next, hs, rfl⟩
  · apply sound_goneOn h.good
    · exact fun j _ => h.knows j
    · exact fun j _ => h.owns j
    · intro hout
      rw [Sessions.view_eq hout]
      exact d.read hs (h.knows i hout)
    · intro own hw
      rw [Sessions.view_writer hw]
      exact d.readOwn hs (h.owns i own hw)
  · have hothers : ∀ j, j ≠ i → ∀ own, s.writer ≠ some (j, own) := by
      intro j hj own hw
      rw [Sessions.blocks, hw, Option.any_some, bne_eq_false_iff_eq] at hfree
      exact hj hfree
    apply sound_goneOn h.good
    · exact fun j hj _ => h.knows j (hothers j hj)
    · exact fun j hj own he => absurd (congrArg Prod.fst (Option.some.inj he)).symm hj
    · exact fun hout => absurd rfl (hout _)
    · intro own he
      obtain rfl := congrArg Prod.snd (Option.some.inj he)
      cases Sessions.owned_or_out s i with
      | inl howned =>
          obtain ⟨own, hw⟩ := howned
          simp only [Sessions.Admitted, Sessions.view_writer hw] at hadmits ⊢
          exact d.writeOwn hs h.good (h.owns i own hw) hadmits
      | inr hout =>
          simp only [Sessions.Admitted, Sessions.view_eq hout] at hadmits ⊢
          exact d.write hs h.good (h.knows i hout) hadmits
  · cases Sessions.owned_or_out s i with
    | inl howned =>
        obtain ⟨own, hw⟩ := howned
        obtain ⟨hgood, hkeeps, hknows⟩ := d.commitOwn hs h.good (h.owns i own hw)
        rw [Sessions.view_writer hw, Sessions.released_writer hw]
        apply sound_goneOn hgood
        · intro j hj _
          refine d.outlives hkeeps (h.knows j fun other hother => ?_)
          rw [hw] at hother
          exact hj (congrArg Prod.fst (Option.some.inj hother)).symm
        · intro j _ other he
          cases he
        · exact fun _ => hknows
        · intro other he
          cases he
    | inr hout =>
        rw [Sessions.view_eq hout, Sessions.released_out hout]
        apply sound_goneOn h.good
        · exact fun j _ => h.knows j
        · exact fun j _ => h.owns j
        · exact fun _ => d.commit hs (h.knows i hout)
        · exact fun own hw => absurd hw (hout own)
  · apply sound_goneOn h.good
    · exact fun j hj hout => h.knows j fun own hw => hout own ((Sessions.released_ne hj).mpr hw)
    · exact fun j hj own hw => h.owns j own ((Sessions.released_ne hj).mp hw)
    · intro _
      cases hs with
      | inl hdead =>
          subst hdead
          exact d.dead _
      | inr hs =>
          cases Sessions.owned_or_out s i with
          | inl howned =>
              obtain ⟨own, hw⟩ := howned
              exact d.rollbackOwn hs (h.owns i own hw)
          | inr hout => exact d.rollback hs (h.knows i hout)
    · exact fun own hw => absurd rfl (Sessions.released_some hw).2

theorem invariant (d : Discipline statement dead admits Good Knows Owns Keeps)
    {start s : Sessions σ α} (hgood : Good start.committed) (hwriter : start.writer = none)
    (hknows : ∀ i, Knows start.committed (start.program i))
    (h : Sessions.Reached statement dead admits start s)
    : s.Sound Good Knows Owns := by
  refine h.invariant ⟨hgood, fun i _ => hknows i, fun i own hw => ?_⟩
    fun s t turn hs hadmits hran => step_sound d hs hadmits hran
  rw [hwriter] at hw
  cases hw

end Discipline

end Library
