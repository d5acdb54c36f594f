import LicenseTrack.Library.Runs
import Mathlib.Logic.Function.Basic
import Mathlib.Order.Defs.LinearOrder
import Mathlib.Tactic.SplitIfs

/-! Cooperative tasks on one shared state. A task runs without interruption until it waits; which
waiting task goes on next, and with which outcome of its wait, is open.
-/

namespace Library

universe u v w x

variable {σ : Type u} {α : Type v} {β : Type w} {ι : Type x}

/-- A shared state, the tasks that wait on it and the number of the next task. -/
structure Coroutines (σ : Type u) (α : Type v) where
  shared : σ
  task : Nat → Option α
  next : Nat

/-- What a task leaves when it waits again or ends: the shared state, its own wait and that of a
task that it started.
-/
structure Ran (σ : Type u) (α : Type v) where
  shared : σ
  waits : Option α := none
  spawned : Option α := none

/-- What tasks do: a call runs at once up to its first wait, and a wait that is over goes on with
its outcome; none stands for a wait that is not over. Both are told their own number and the one
that a task they start has.
-/
structure TaskProgram (σ : Type u) (α : Type v) (β : Type w) (ι : Type x) where
  call : Nat → Nat → β → σ → Ran σ α
  resume : Nat → Nat → α → ι → σ → Option (Ran σ α)

/-- A turn: somebody calls, or a wait is over. -/
inductive TaskTurn (β : Type w) (ι : Type x)
  | call (entry : β)
  | resume (task : Nat) (outcome : ι)
deriving DecidableEq

namespace Coroutines

/-- Nothing waits yet. -/
def idle (shared : σ) : Coroutines σ α := ⟨shared, fun _ => none, 0⟩

/-- What is left once the task of a number has run. -/
def after (c : Coroutines σ α) (own fresh : Nat) (ran : Ran σ α) : Coroutines σ α where
  shared := ran.shared
  task := Function.update (Function.update c.task own ran.waits) fresh ran.spawned
  next := fresh + 1

/-- The tasks after a turn; an error stands for a turn that cannot be taken. -/
def step (program : TaskProgram σ α β ι) (turn : TaskTurn β ι) (c : Coroutines σ α)
    : Except PUnit.{1} (Coroutines σ α) :=
  match turn with
  | .call entry =>
      .ok (c.after c.next (c.next + 1) (program.call c.next (c.next + 1) entry c.shared))
  | .resume i outcome =>
      match (c.task i).bind (fun wait => program.resume i c.next wait outcome c.shared) with
      | some ran => .ok (c.after i c.next ran)
      | none => .error ⟨⟩

/-- The tasks reached by admitted turns. -/
abbrev Reached (program : TaskProgram σ α β ι) (admits : Coroutines σ α → TaskTurn β ι → Prop)
    (start c : Coroutines σ α) : Prop :=
  Reachable (step program) admits start c

theorem step_cases {program : TaskProgram σ α β ι} {turn : TaskTurn β ι} {c d : Coroutines σ α}
    (h : step program turn c = .ok d)
    : (∃ entry, turn = .call entry
        ∧ d = c.after c.next (c.next + 1) (program.call c.next (c.next + 1) entry c.shared))
      ∨ ∃ i outcome wait ran, turn = .resume i outcome ∧ c.task i = some wait
          ∧ program.resume i c.next wait outcome c.shared = some ran
          ∧ d = c.after i c.next ran := by
  cases turn with
  | call entry => exact .inl ⟨entry, rfl, (Except.ok.inj h).symm⟩
  | resume i outcome =>
      simp only [step] at h
      split at h
      · next ran hran =>
          obtain ⟨wait, hwait, hresume⟩ := Option.bind_eq_some_iff.mp hran
          exact .inr ⟨i, outcome, wait, ran, rfl, hwait, hresume, (Except.ok.inj h).symm⟩
      · cases h

theorem after_task {c : Coroutines σ α} {own fresh i : Nat} {ran : Ran σ α} {wait : α}
    (h : (c.after own fresh ran).task i = some wait)
    : (i = fresh ∧ ran.spawned = some wait) ∨ (i = own ∧ ran.waits = some wait)
      ∨ (i ≠ own ∧ c.task i = some wait) := by
  simp only [after, Function.update_apply] at h
  split_ifs at h with hfresh hown
  · exact .inl ⟨hfresh, h⟩
  · exact .inr (.inl ⟨hown, h⟩)
  · exact .inr (.inr ⟨hown, h⟩)

end Coroutines

-- A rule for runs of tasks

/-- What a task leaves as it should: a good shared state, in which the others can go on, and waits
that can rely on what they need.
-/
structure Ran.Cooperates (Good : σ → Prop) (Relies : σ → Nat → α → Prop)
    (Keeps : Nat → σ → σ → Prop) (own fresh : Nat) (s : σ) (ran : Ran σ α)
    : Prop where
  good : Good ran.shared
  keeps : Keeps own s ran.shared
  waits : ∀ wait, ran.waits = some wait → Relies ran.shared own wait
  spawned : ∀ wait, ran.spawned = some wait → Relies ran.shared fresh wait

section

variable {Good : σ → Prop} {Relies : σ → Nat → α → Prop} {Keeps : Nat → σ → σ → Prop}
  {own fresh : Nat} {s t : σ} {ran : Ran σ α}

theorem Ran.Cooperates.of_end (hgood : Good t) (hkeeps : Keeps own s t)
    : Ran.Cooperates Good Relies Keeps own fresh s { shared := t } :=
  ⟨hgood, hkeeps, fun _ h => (by cases h), fun _ h => (by cases h)⟩

theorem Ran.Cooperates.of_wait {wait : α} (hgood : Good t) (hkeeps : Keeps own s t)
    (hwait : Relies t own wait)
    : Ran.Cooperates Good Relies Keeps own fresh s { shared := t, waits := some wait } :=
  ⟨hgood, hkeeps, fun _ h => Option.some.inj h ▸ hwait, fun _ h => (by cases h)⟩

theorem Ran.Cooperates.after (h : Ran.Cooperates Good Relies Keeps own fresh t ran)
    (hkeeps : Keeps own t ran.shared → Keeps own s ran.shared)
    : Ran.Cooperates Good Relies Keeps own fresh s ran :=
  ⟨h.good, hkeeps h.keeps, h.waits, h.spawned⟩

end

/-- What the tasks of a program observe of each other, in a run whose new tasks have numbers from a
first one on: each leaves the shared state as it should, and what a waiting task relies on outlives
the turns of the others.
-/
structure Cooperation (program : TaskProgram σ α β ι)
    (admits : Coroutines σ α → TaskTurn β ι → Prop) (first : Nat) (Good : σ → Prop)
    (Relies : σ → Nat → α → Prop) (Keeps : Nat → σ → σ → Prop)
    : Prop where
  outlives : ∀ {s t i j wait}, Keeps j s t → i ≠ j → Relies s i wait → Relies t i wait
  call : ∀ {c entry}, first ≤ c.next → Good c.shared → admits c (.call entry) →
    (program.call c.next (c.next + 1) entry c.shared).Cooperates Good Relies Keeps c.next
      (c.next + 1) c.shared
  resume : ∀ {c i outcome wait ran}, first ≤ c.next → Good c.shared → Relies c.shared i wait →
    c.task i = some wait → admits c (.resume i outcome) →
    program.resume i c.next wait outcome c.shared = some ran →
    ran.Cooperates Good Relies Keeps i c.next c.shared

/-- What holds between two turns of tasks that cooperate. -/
structure Coroutines.Sound (first : Nat) (Good : σ → Prop) (Relies : σ → Nat → α → Prop)
    (c : Coroutines σ α)
    : Prop where
  later : first ≤ c.next
  good : Good c.shared
  relies : ∀ i wait, c.task i = some wait → Relies c.shared i wait
  numbered : ∀ i, c.next ≤ i → c.task i = none

namespace Cooperation

variable {program : TaskProgram σ α β ι} {admits : Coroutines σ α → TaskTurn β ι → Prop}
  {first : Nat} {Good : σ → Prop} {Relies : σ → Nat → α → Prop} {Keeps : Nat → σ → σ → Prop}

theorem sound_after (k : Cooperation program admits first Good Relies Keeps) {c : Coroutines σ α}
    {own fresh : Nat} {ran : Ran σ α} (h : c.Sound first Good Relies) (hnext : c.next ≤ fresh)
    (hown : own < fresh) (hran : ran.Cooperates Good Relies Keeps own fresh c.shared)
    : (c.after own fresh ran).Sound first Good Relies where
  later := Nat.le_succ_of_le (Nat.le_trans h.later hnext)
  good := hran.good
  relies := fun i wait hi => by
    rcases Coroutines.after_task hi with ⟨rfl, hnew⟩ | ⟨rfl, hagain⟩ | ⟨hne, hbefore⟩
    · exact hran.spawned wait hnew
    · exact hran.waits wait hagain
    · exact k.outlives hran.keeps hne (h.relies i wait hbefore)
  numbered := fun i hi => by
    simp only [Coroutines.after] at hi ⊢
    rw [Function.update_of_ne (by omega), Function.update_of_ne (by omega)]
    exact h.numbered i (by omega)

theorem step_sound (k : Cooperation program admits first Good Relies Keeps) {turn : TaskTurn β ι}
    {c d : Coroutines σ α} (h : c.Sound first Good Relies) (hadmits : admits c turn)
    (hstep : Coroutines.step program turn c = .ok d)
    : d.Sound first Good Relies := by
  rcases Coroutines.step_cases hstep with ⟨entry, rfl, rfl⟩
    | ⟨i, outcome, wait, ran, rfl, hi, hran, rfl⟩
  · exact sound_after k h (Nat.le_succ _) (Nat.lt_succ_self _) (k.call h.later h.good hadmits)
  · refine sound_after k h (Nat.le_refl _) ?_
      (k.resume h.later h.good (h.relies i wait hi) hi hadmits hran)
    by_contra hlate
    rw [h.numbered i (Nat.le_of_not_lt hlate)] at hi
    cases hi

theorem invariant (k : Cooperation program admits first Good Relies Keeps)
    {start c : Coroutines σ α}
    (hstart : start.Sound first Good Relies) (h : Coroutines.Reached program admits start c)
    : c.Sound first Good Relies :=
  h.invariant hstart fun _ _ _ hs hadmits hran => step_sound k hs hadmits hran

theorem idle_sound {shared : σ} (h : Good shared)
    : (Coroutines.idle (α := α) shared).Sound 0 Good Relies where
  later := Nat.le_refl 0
  good := h
  relies := fun _ _ hi => by cases hi
  numbered := fun _ _ => rfl

end Cooperation

end Library
