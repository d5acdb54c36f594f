import LicenseTrack.Conversion.OrderEffect

/-! What the planned links of an order do: each target of the plan becomes the successor of the
licences of its sources, after those were linked themselves.
-/

namespace LicenseTrack

open Library

/-- A licence that a plan links to its predecessors, the primary one first. -/
def License.planned (predecessors : List (Nat × License)) (primary : Nat × License) (l : License)
    : License :=
  { l with
    renewedFromId := some primary.1
    predecessorId := some primary.1
    cotermFromIds :=
      if 1 < predecessors.length then some (predecessors.map Prod.fst) else l.cotermFromIds
    licenseRef := primary.2.licenseRef }

/-- A planned link between stored licences. -/
structure PlannedLink (items : List (Nat × SourcingItem)) (licenseOf : Nat → Option Nat)
    (target : Nat) (s t : Store) (successorId : Nat) (successor : License)
    (predecessors : List (Nat × License)) (primary : Nat × License)
    : Prop where
  target_eq : licenseOf target = some successorId
  successor_eq : s.license? successorId = some successor
  unrenewed : successor.renewedFromId = none ∧ successor.predecessorId = none
  predecessors_eq : predecessors = plannedPredecessors s items licenseOf target
  head : predecessors.head? = some primary
  nodup : (predecessors.map Prod.fst).Nodup
  extended : ∀ p ∈ predecessors, p.2.renewedToId = none ∧ ExtendedBy successor p.2
  result : t = (s.modifyLicense successorId (License.planned predecessors primary)).mapLicenses
    (markRow (predecessors.map Prod.fst) successorId)

theorem mem_plannedPredecessors {s : Store} {items : List (Nat × SourcingItem)}
    {licenseOf : Nat → Option Nat} {target : Nat} {p : Nat × License}
    : p ∈ plannedPredecessors s items licenseOf target
      ↔ s.license? p.1 = some p.2
        ∧ ∃ source ∈ incomingOf items target, licenseOf source = some p.1 := by
  rw [plannedPredecessors, (List.perm_insertionSort _ _).mem_iff]
  simp only [List.mem_filterMap, Option.bind_eq_bind, Option.bind_eq_some_iff, Option.some.injEq]
  constructor
  · rintro ⟨source, hs, id, hid, l, hl, rfl⟩
    exact ⟨hl, source, hs, hid⟩
  · rintro ⟨hl, source, hs, hid⟩
    exact ⟨source, hs, p.1, hid, p.2, hl, rfl⟩

theorem each_map {α β σ ε : Type} (step : β → σ → Except ε σ) (f : α → β) (list : List α) (s : σ)
    : each (fun a => step (f a)) list s = each step (list.map f) s := by
  induction list generalizing s with
  | nil => rfl
  | cons head rest ih =>
      simp only [List.map_cons, each]
      exact congrArg (step (f head) s >>= ·) (funext ih)

theorem applyPlannedTarget_ok {u : Unicode} {items : List (Nat × SourcingItem)}
    {licenseOf : Nat → Option Nat} {target : Nat} {s t : Store}
    (h : applyPlannedTarget u items licenseOf target s = .ok t)
    : ∃ successorId successor predecessors primary,
        PlannedLink items licenseOf target s t successorId successor predecessors primary := by
  simp only [applyPlannedTarget, bind_eq_ok, found_eq_ok, require_eq_ok, forM_eq_ok] at h
  obtain ⟨successorId, htarget, successor, hsuccessor, _, hunrenewed, _, -, _, -, _, hchecks, _,
    hterm, primary, hprimary, hmarks⟩ := h
  rw [each_map (fun p => markPredecessorRenewed p successorId) Prod.fst] at hmarks
  obtain ⟨rfl, hnodup, -⟩ := markAll_ok hmarks
  obtain ⟨-, hextended⟩ := assertSuccessorTerm_ok hterm
  refine ⟨successorId, successor, _, primary, htarget, hsuccessor, hunrenewed, rfl, hprimary,
    hnodup, fun p hp => ⟨?_, hextended p.2 (List.mem_map_of_mem hp)⟩, rfl⟩
  have hcheck := hchecks p hp
  simp only [assertPlannedPredecessor, assertPredecessorHasNoSuccessor, bind_eq_ok,
    require_eq_ok] at hcheck
  obtain ⟨_, hnone, -⟩ := hcheck
  simpa using hnone

-- The rounds

theorem plannedBatch_keeps {u : Unicode} {items : List (Nat × SourcingItem)}
    {licenseOf : Nat → Option Nat} {P : List Nat → Store → Prop} (all : List Nat) {batch : List Nat}
    (hstep : ∀ done target s t, P done s → target ∈ batch
      → (∀ other ∈ done, target ∉ incomingOf items other) → target ∉ incomingOf items target
      → (∀ source ∈ incomingOf items target, source ∈ all → source ∈ done)
      → applyPlannedTarget u items licenseOf target s = .ok t → P (target :: done) t)
    (hapart : ∀ a ∈ batch, ∀ b ∈ batch, b ∉ incomingOf items a) {done : List Nat} {s t : Store}
    (hdone : ∀ other ∈ done, ∀ target ∈ batch, target ∉ incomingOf items other)
    (hready : ∀ target ∈ batch, ∀ source ∈ incomingOf items target, source ∈ all → source ∈ done)
    (hs : P done s)
    (h : each (applyPlannedTarget u items licenseOf) batch s = .ok t)
    : P (batch.reverse ++ done) t := by
  induction batch generalizing done s with
  | nil =>
      obtain rfl : s = t := by simpa [each] using h
      simpa using hs
  | cons head rest ih =>
      obtain ⟨v, hv, ht⟩ := bind_eq_ok.mp h
      have hhead := hstep done head s v hs (by simp)
        (fun other ho => hdone other ho head (by simp)) (hapart head (by simp) head (by simp))
        (hready head (by simp)) hv
      have hrest := ih
        (fun d target s t hp hm => hstep d target s t hp (List.mem_cons_of_mem _ hm))
        (fun a ha b hb => hapart a (List.mem_cons_of_mem _ ha) b (List.mem_cons_of_mem _ hb))
        (fun other ho target hm => by
          rcases List.mem_cons.mp ho with rfl | ho
          · exact hapart other (by simp) target (List.mem_cons_of_mem _ hm)
          · exact hdone other ho target (List.mem_cons_of_mem _ hm))
        (fun target hm source hsource hall => List.mem_cons_of_mem _
          (hready target (List.mem_cons_of_mem _ hm) source hsource hall))
        hhead ht
      simpa using hrest

theorem mem_readyTargets {items : List (Nat × SourcingItem)} {remaining : List Nat} {target : Nat}
    : target ∈ readyTargets items remaining
      ↔ target ∈ remaining ∧ ∀ source ∈ incomingOf items target, source ∉ remaining := by
  rw [readyTargets, (List.perm_insertionSort _ _).mem_iff, List.mem_filter]
  simp

theorem applyPlannedRounds_succ {u : Unicode} {items : List (Nat × SourcingItem)}
    {licenseOf : Nat → Option Nat} {fuel : Nat} {remaining : List Nat} {s t : Store}
    (h : applyPlannedRounds u items licenseOf (fuel + 1) remaining s = .ok t)
    (hne : remaining ≠ [])
    : ∃ v, each (applyPlannedTarget u items licenseOf) (readyTargets items remaining) s = .ok v
        ∧ applyPlannedRounds u items licenseOf fuel
            (remaining.filter (fun target => !(readyTargets items remaining).contains target)) v
          = .ok t := by
  rcases remaining with _ | ⟨head, rest⟩
  · exact absurd rfl hne
  · simp only [applyPlannedRounds, bind_eq_ok, require_eq_ok] at h
    obtain ⟨_, -, v, hv, ht⟩ := h
    exact ⟨v, hv, ht⟩

/-- The rule of the rounds: a property that each target keeps, given that no target done so
far has it as a source and that its own sources are done. The induction is on the rounds; no target
that is left is a source of one that is done, and at the end all are done.
-/
theorem plannedRounds_keep {u : Unicode} {items : List (Nat × SourcingItem)}
    {licenseOf : Nat → Option Nat} {P : List Nat → Store → Prop} (all : List Nat)
    (hstep : ∀ done target s t, P done s → target ∈ all
      → (∀ other ∈ done, target ∉ incomingOf items other) → target ∉ incomingOf items target
      → (∀ source ∈ incomingOf items target, source ∈ all → source ∈ done)
      → applyPlannedTarget u items licenseOf target s = .ok t → P (target :: done) t)
    {fuel : Nat} {remaining done : List Nat} {s t : Store} (hall : ∀ target ∈ remaining, target ∈ all)
    (hcover : ∀ target ∈ all, target ∈ remaining ∨ target ∈ done)
    (hdone : ∀ other ∈ done, ∀ target ∈ remaining, target ∉ incomingOf items other)
    (hs : P done s)
    (h : applyPlannedRounds u items licenseOf fuel remaining s = .ok t)
    : ∃ done, (∀ target ∈ all, target ∈ done) ∧ P done t := by
  induction fuel generalizing remaining done s with
  | zero =>
      rcases remaining with _ | ⟨head, rest⟩
      · obtain rfl := Except.ok.inj h
        exact ⟨done, fun target hm => (hcover target hm).resolve_left (by simp), hs⟩
      · cases h
  | succ fuel ih =>
      by_cases hne : remaining = []
      · subst hne
        obtain rfl := Except.ok.inj h
        exact ⟨done, fun target hm => (hcover target hm).resolve_left (by simp), hs⟩
      · obtain ⟨v, hbatch, hrest⟩ := applyPlannedRounds_succ h hne
        have hkept := plannedBatch_keeps (P := P) all
          (fun d target s t hp hm =>
            hstep d target s t hp (hall target (mem_readyTargets.mp hm).1))
          (fun a ha b hb hsource =>
            (mem_readyTargets.mp ha).2 b hsource (mem_readyTargets.mp hb).1)
          (fun other ho target hm => hdone other ho target (mem_readyTargets.mp hm).1)
          (fun target hm source hsource ha =>
            (hcover source ha).resolve_left ((mem_readyTargets.mp hm).2 source hsource))
          hs hbatch
        refine ih (fun target hm => hall target (List.mem_filter.mp hm).1) (fun target ha => ?_) ?_
          hkept hrest
        · rcases hcover target ha with hm | hm
          · by_cases hr : target ∈ readyTargets items remaining
            · exact .inr (List.mem_append_left _ (List.mem_reverse.mpr hr))
            · exact .inl (List.mem_filter.mpr ⟨hm, by simpa using hr⟩)
          · exact .inr (List.mem_append_right _ hm)
        · intro other ho target hm hsource
          have hleft := (List.mem_filter.mp hm).1
          rcases List.mem_append.mp ho with ho | ho
          · exact (mem_readyTargets.mp (List.mem_reverse.mp ho)).2 target hsource hleft
          · exact hdone other ho target hleft hsource

theorem applyPlannedSuccessorLinks_inOrder {u : Unicode} {items : List (Nat × SourcingItem)}
    {P : List Nat → Store → Prop} {s t : Store}
    (hstep : ∀ done target v w, P done v → target ∈ plannedTargets items
      → (∀ other ∈ done, target ∉ incomingOf items other) → target ∉ incomingOf items target
      → (∀ source ∈ incomingOf items target, source ∈ plannedTargets items → source ∈ done)
      → applyPlannedTarget u items s.licenseOfLine target v = .ok w → P (target :: done) w)
    (hs : P [] s) (h : applyPlannedSuccessorLinks u items s = .ok t)
    : ∃ done, (∀ target ∈ plannedTargets items, target ∈ done) ∧ P done t := by
  simp only [applyPlannedSuccessorLinks, bind_eq_ok, require_eq_ok, flush_eq_ok] at h
  obtain ⟨_, -, _, -, v, hrounds, rfl, -⟩ := h
  exact plannedRounds_keep (plannedTargets items) hstep (fun _ ht => ht) (fun _ ht => .inl ht)
    (by simp) hs hrounds

theorem applyPlannedSuccessorLinks_keeps {u : Unicode} {items : List (Nat × SourcingItem)}
    {P : List Nat → Store → Prop} {s t : Store}
    (hstep : ∀ done target v w, P done v → target ∈ plannedTargets items
      → (∀ other ∈ done, target ∉ incomingOf items other) → target ∉ incomingOf items target
      → applyPlannedTarget u items s.licenseOfLine target v = .ok w → P (target :: done) w)
    (hs : P [] s) (h : applyPlannedSuccessorLinks u items s = .ok t)
    : ∃ done, P done t := by
  obtain ⟨done, -, hdone⟩ := applyPlannedSuccessorLinks_inOrder
    (fun done target v w hv hm hother hself _ hw => hstep done target v w hv hm hother hself hw) hs h
  exact ⟨done, hdone⟩

end LicenseTrack
