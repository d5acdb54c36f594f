import LicenseTrack.Library.Outcome

/-! Runs of a transactional system: requests that either commit a new state or fail and
leave the state as it was.
-/

namespace Library

universe u v w

variable {σ : Type u} {α : Type v} {ε : Type w}

/-- The states reached from a start by admitted requests that succeed. A failed request is
rolled back, so it adds no state.
-/
inductive Reachable (step : α → σ → Except ε σ) (admits : σ → α → Prop) (start : σ)
    : σ → Prop
  | start : Reachable step admits start start
  | step {s t : σ} (request : α) (before : Reachable step admits start s)
      (admitted : admits s request) (ran : step request s = .ok t)
      : Reachable step admits start t

namespace Reachable

variable {step : α → σ → Except ε σ} {admits : σ → α → Prop} {start : σ}

theorem invariant {I : σ → Prop} (init : I start)
    (keeps : ∀ s t request, I s → admits s request → step request s = .ok t → I t) {s : σ}
    (h : Reachable step admits start s)
    : I s := by
  induction h with
  | start => exact init
  | step _ _ admitted ran ih => exact keeps _ _ _ ih admitted ran

end Reachable

/-- The state after a list of requests, none where one of them fails. -/
def runAll (step : α → σ → Except ε σ) : List α → σ → Option σ
  | [], s => some s
  | request :: rest, s =>
      match step request s with
      | .ok t => runAll step rest t
      | .error _ => none

theorem Reachable.of_runAll {step : α → σ → Except ε σ} {admits : σ → α → Prop} {start : σ}
    {requests : List α} {s t : σ} (hs : Reachable step admits start s)
    (hadmits : ∀ u, ∀ request ∈ requests, admits u request)
    (h : runAll step requests s = some t)
    : Reachable step admits start t := by
  induction requests generalizing s with
  | nil =>
      obtain rfl : s = t := by simpa [runAll] using h
      exact hs
  | cons head rest ih =>
      simp only [runAll] at h
      split at h
      · next u hu =>
          exact ih (hs.step _ (hadmits s head (by simp)) hu)
            (fun v request hr => hadmits v request (List.mem_cons_of_mem _ hr)) h
      · simp at h

/-- The state after a list of requests, none where one of them fails or is not admitted. -/
def runAdmitted (step : α → σ → Except ε σ) (admits : σ → α → Prop)
    [∀ s request, Decidable (admits s request)] : List α → σ → Option σ
  | [], s => some s
  | request :: rest, s =>
      if admits s request then
        match step request s with
        | .ok t => runAdmitted step admits rest t
        | .error _ => none
      else none

theorem Reachable.of_runAdmitted {step : α → σ → Except ε σ} {admits : σ → α → Prop}
    [∀ s request, Decidable (admits s request)] {start : σ} {requests : List α} {s t : σ}
    (hs : Reachable step admits start s) (h : runAdmitted step admits requests s = some t)
    : Reachable step admits start t := by
  induction requests generalizing s with
  | nil =>
      obtain rfl : s = t := by simpa [runAdmitted] using h
      exact hs
  | cons head rest ih =>
      simp only [runAdmitted] at h
      split at h
      · next hadmits =>
          split at h
          · next u hu => exact ih (hs.step _ hadmits hu) h
          · cases h
      · cases h

theorem Reachable.of_runAdmitted_among {step : α → σ → Except ε σ} {admits : σ → α → Prop}
    [∀ s request, Decidable (admits s request)] {sent : α → Prop} {start : σ} {requests : List α}
    {s t : σ} (hs : Reachable step (fun s request => sent request ∧ admits s request) start s)
    (hsent : ∀ request ∈ requests, sent request) (h : runAdmitted step admits requests s = some t)
    : Reachable step (fun s request => sent request ∧ admits s request) start t := by
  induction requests generalizing s with
  | nil =>
      obtain rfl : s = t := by simpa [runAdmitted] using h
      exact hs
  | cons head rest ih =>
      obtain ⟨hhead, hrest⟩ := List.forall_mem_cons.mp hsent
      simp only [runAdmitted] at h
      split at h
      · next hadmits =>
          split at h
          · next u hu => exact ih (hs.step _ ⟨hhead, hadmits⟩ hu) hrest h
          · cases h
      · cases h

end Library
