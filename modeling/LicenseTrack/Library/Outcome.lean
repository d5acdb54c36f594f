import Mathlib.Logic.Basic

/-! Computations that return a value or fail, read backwards: what a success of a composed
computation says about its parts.
-/

namespace Library

universe u v

variable {ε : Type u} {α β : Type v}

/-- Succeeds exactly when the condition holds, else fails as told. -/
def require (p : Prop) [Decidable p] (failure : ε) : Except ε PUnit.{v + 1} :=
  if p then .ok PUnit.unit else .error failure

@[simp] theorem require_eq_ok {p : Prop} [Decidable p] {failure : ε} {a : PUnit.{v + 1}}
    : require p failure = .ok a ↔ p := by
  unfold require
  split <;> simp_all

theorem require_bind {p : Prop} [Decidable p] {failure : ε} (h : p)
    (rest : PUnit.{v + 1} → Except ε β)
    : (require p failure >>= rest) = rest ⟨⟩ := by
  simp [require, h, bind, Except.bind]

theorem bind_eq_ok {x : Except ε α} {f : α → Except ε β} {b : β}
    : (x >>= f) = .ok b ↔ ∃ a, x = .ok a ∧ f a = .ok b := by
  cases x <;> simp [bind, Except.bind]

theorem map_eq_ok {x : Except ε α} {f : α → β} {b : β}
    : (f <$> x) = .ok b ↔ ∃ a, x = .ok a ∧ f a = b := by
  cases x <;> simp [Functor.map, Except.map]

@[simp] theorem pure_eq_ok {a b : α} : (pure a : Except ε α) = .ok b ↔ a = b := by
  simp [pure, Except.pure]

@[simp] theorem throw_ne_ok {e : ε} {b : α} : (throw e : Except ε α) ≠ .ok b := by
  simp [throw, throwThe, MonadExceptOf.throw]

theorem of_optional_check {c : Prop} [Decidable c] {check : Except ε PUnit.{v + 1}}
    {rest : Except ε α} {a : α} (h : (if c then check >>= fun _ => rest else rest) = .ok a)
    : rest = .ok a := by
  split at h
  · obtain ⟨-, -, h⟩ := bind_eq_ok.mp h
    exact h
  · exact h

theorem exists_ok {x : Except ε α} (h : x.isOk = true) : ∃ a, x = .ok a := by
  cases x with
  | error => cases h
  | ok a => exact ⟨a, rfl⟩

@[simp] theorem ok_bind (a : α) (f : α → Except ε β) : (Except.ok a >>= f) = f a := rfl

@[simp] theorem error_bind (e : ε) (f : α → Except ε β) : (Except.error e >>= f) = .error e := rfl

theorem forM_eq_ok {check : α → Except ε PUnit.{v + 1}} {list : List α} {u : PUnit.{v + 1}}
    : list.forM check = .ok u ↔ ∀ a ∈ list, check a = .ok ⟨⟩ := by
  induction list with
  | nil => simp [List.forM, pure, Except.pure]
  | cons head rest ih =>
      change (check head >>= fun _ => rest.forM check) = _ ↔ _
      rw [bind_eq_ok]
      simp only [List.forall_mem_cons, ih]
      exact ⟨fun ⟨_, h, hr⟩ => ⟨h, hr⟩, fun ⟨h, hr⟩ => ⟨_, h, hr⟩⟩

/-- Every row of a list in turn rewrites the state, the first failure stopping. -/
def each (step : α → β → Except ε β) : List α → β → Except ε β
  | [], state => .ok state
  | a :: rest, state => step a state >>= each step rest

theorem each_relates {R : β → β → Prop} (refl : ∀ s, R s s)
    (trans : ∀ {s t u}, R s t → R t u → R s u) {step : α → β → Except ε β} {list : List α}
    (hstep : ∀ a ∈ list, ∀ s t, step a s = .ok t → R s t) {s t : β}
    (h : each step list s = .ok t)
    : R s t := by
  induction list generalizing s with
  | nil =>
      obtain rfl : s = t := by simpa [each] using h
      exact refl s
  | cons head rest ih =>
      obtain ⟨u, hu, ht⟩ := bind_eq_ok.mp h
      exact trans (hstep head (by simp) s u hu)
        (ih (fun a ha => hstep a (List.mem_cons_of_mem _ ha)) ht)

theorem each_collects {γ : Type v} {R : β → List γ → β → Prop} (refl : ∀ s, R s [] s)
    (trans : ∀ {s t u xs ys}, R s xs t → R t ys u → R s (xs ++ ys) u) {name : α → γ}
    {step : α → β → Except ε β} {list : List α}
    (hstep : ∀ a ∈ list, ∀ s t, step a s = .ok t → R s [name a] t) {s t : β}
    (h : each step list s = .ok t)
    : R s (list.map name) t := by
  induction list generalizing s with
  | nil =>
      obtain rfl : s = t := by simpa [each] using h
      exact refl s
  | cons head rest ih =>
      obtain ⟨u, hu, ht⟩ := bind_eq_ok.mp h
      exact trans (hstep head List.mem_cons_self s u hu)
        (ih (fun a ha => hstep a (List.mem_cons_of_mem _ ha)) ht)

theorem each_keeps {P : β → Prop} {step : α → β → Except ε β} {list : List α}
    (hstep : ∀ a ∈ list, ∀ s t, P s → step a s = .ok t → P t) {s t : β} (hs : P s)
    (h : each step list s = .ok t)
    : P t :=
  each_relates (R := fun s t => P s → P t) (fun _ hp => hp) (fun h₁ h₂ hp => h₂ (h₁ hp))
    (fun a ha s t he hp => hstep a ha s t hp he) h hs

theorem each_through {γ : Type v} {ε' : Type u} (view : β → γ) (put : γ → β → β)
    (hview : ∀ c s, view (put c s) = c) (hput : ∀ c c' s, put c' (put c s) = put c' s)
    (hself : ∀ s, put (view s) s = s) {step : α → β → Except ε β} {inner : α → γ → Except ε' γ}
    (hstep : ∀ a s t, step a s = .ok t → ∃ c, inner a (view s) = .ok c ∧ t = put c s)
    {list : List α} {s t : β} (h : each step list s = .ok t)
    : ∃ c, each inner list (view s) = .ok c ∧ t = put c s := by
  induction list generalizing s with
  | nil =>
      obtain rfl : s = t := by simpa [each] using h
      exact ⟨view s, rfl, (hself s).symm⟩
  | cons head rest ih =>
      obtain ⟨m, hm, ht⟩ := bind_eq_ok.mp h
      obtain ⟨c, hc, rfl⟩ := hstep head s m hm
      obtain ⟨c', hc', rfl⟩ := ih ht
      rw [hview] at hc'
      exact ⟨c', bind_eq_ok.mpr ⟨c, hc, hc'⟩, hput c c' s⟩

end Library
