import LicenseTrack.Evidence.Runners
import Mathlib.Order.Basic

/-! What concurrent runners keep: a complete transfer stays complete, only the holder of the claim
stores how a transfer ended, and the sweeps stop after their attempts. Storing an outcome does not
look at the claim, so this takes runners that end before their claim is taken over.
-/

namespace LicenseTrack

open Library

namespace EvidenceTransfer

/-- A turn that makes the status complete or failed is one of the holder of the current claim. -/
def ChangedByHolder (s : System) (turn : Turn) (t : System) : Prop :=
  t.order.evidenceTransferStatus ≠ s.order.evidenceTransferStatus →
    t.order.evidenceTransferStatus = .complete ∨ t.order.evidenceTransferStatus = .failed →
      ∃ i, turn = .execute i ∧ s.order.evidenceTransferClaimToken = some i

/-- The attempts that sweeps have made. -/
def sweepAttempts (log : List Event) : Nat :=
  log.countP fun
    | .attempted _ => true
    | .escalated _ => false

/-- Whether the transaction that a runner executes next finds the order as the runner takes it to
be: the claim that it takes over is one of a runner that has ended, an order that it escalates is
not complete, and the attempts that it adds one to are still those it has read.
-/
def Runner.undisturbed (s : System) : Runner → Bool
  | .claimAt _ now =>
      !s.order.claimable now
        || s.order.evidenceTransferClaimToken.all fun holder => !(s.runners holder).isAtWork
  | .sweepEscalating _ => s.order.evidenceTransferStatus != .complete
  | .sweepAttempting attempts => s.order.evidenceTransferAttempts == attempts
  | _ => true

/-- The turns that find the order undisturbed. -/
def Undisturbed (s : System) : Turn → Prop
  | .execute i => (s.runners i).undisturbed s = true
  | _ => True

instance (s : System) (turn : Turn) : Decidable (Undisturbed s turn) :=
  match turn with
  | .execute i => inferInstanceAs (Decidable ((s.runners i).undisturbed s = true))
  | .tick _ | .transferAfterConversion _ | .retry _ | .sweep _ | .requireInvoice _ _
  | .readClock _ | .transfer _ _ | .throw _ _ | .crash _ => inferInstanceAs (Decidable True)

/-- The systems that turns of one kind lead to. -/
abbrev Reached (admits : System → Turn → Prop) (start s : System) : Prop :=
  Reachable step admits start s

/-- An order that was just converted, before any runner has begun. -/
def System.converted (clock : Nat) (invoiceRequired : Bool) : System where
  clock := clock
  order :=
    {
      evidenceTransferStatus := .pending
      evidenceTransferDetail := none
      evidenceTransferFailedAt := none
      evidenceTransferAttempts := 0
      evidenceInvoiceRequired := invoiceRequired
      evidenceTransferClaimToken := none
      evidenceTransferClaimedAt := none
    }
  runners _ := .notStarted
  log := []

-- Invariants

/-- What holds of a runner: one at work holds the claim of an order that is not complete, and a sweep
that is about to attempt has an attempt left.
-/
def RunnerSound (order : Order) (i : Nat) (runner : Runner) : Prop :=
  (runner.isAtWork = true →
    order.evidenceTransferClaimToken = some i ∧ order.evidenceTransferStatus ≠ .complete)
  ∧ ∀ attempts, runner = .sweepAttempting attempts → attempts < maxEvidenceSweepAttempts

/-- What holds between the turns. -/
structure Sound (s : System) : Prop where
  runners : ∀ i, RunnerSound s.order i (s.runners i)
  counted : sweepAttempts s.log = s.order.evidenceTransferAttempts
  bounded : s.order.evidenceTransferAttempts ≤ maxEvidenceSweepAttempts

variable {s t : System} {i : Nat} {runner : Runner} {order : Order}

theorem sound_converted (clock : Nat) (invoiceRequired : Bool)
    : Sound (System.converted clock invoiceRequired) where
  runners := fun _ => ⟨Bool.noConfusion, fun _ h => Runner.noConfusion h⟩
  counted := rfl
  bounded := Nat.zero_le _

theorem RunnerSound.idle (hwork : runner.isAtWork = false)
    (hattempt : ∀ attempts, runner ≠ .sweepAttempting attempts)
    : RunnerSound order i runner :=
  ⟨fun h => absurd h (Bool.eq_false_iff.mp hwork), fun attempts h => absurd h (hattempt attempts)⟩

theorem RunnerSound.work {before : Runner} (h : RunnerSound order i before)
    (hbefore : before.isAtWork = true) (hattempt : ∀ attempts, runner ≠ .sweepAttempting attempts)
    : RunnerSound order i runner :=
  ⟨fun _ => h.1 hbefore, fun attempts he => absurd he (hattempt attempts)⟩

theorem Sound.goOn (h : Sound s) (hr : RunnerSound s.order i runner) : Sound (s.goOn i runner) where
  runners := fun k => by
    by_cases hk : k = i
    · subst hk
      simpa only [System.goOn, Function.update_self] using hr
    · simpa only [System.goOn, Function.update_of_ne hk] using h.runners k
  counted := h.counted
  bounded := h.bounded

theorem Sound.alone (h : Sound s) {j : Nat} (hi : (s.runners i).isAtWork = true)
    (hj : (s.runners j).isAtWork = true)
    : j = i := by
  have hholds := ((h.runners i).1 hi).1
  rw [((h.runners j).1 hj).1] at hholds
  exact Option.some.inj hholds

theorem Sound.write (h : Sound s) {log : List Event} (hr : RunnerSound order i runner)
    (hothers : ∀ k, k ≠ i → (s.runners k).isAtWork = true →
      order.evidenceTransferClaimToken = some k ∧ order.evidenceTransferStatus ≠ .complete)
    (hcounted : sweepAttempts log = order.evidenceTransferAttempts)
    (hbounded : order.evidenceTransferAttempts ≤ maxEvidenceSweepAttempts)
    : Sound { s.goOn i runner with order := order, log := log } where
  runners := fun k => by
    by_cases hk : k = i
    · subst hk
      simpa only [System.goOn, Function.update_self] using hr
    · simp only [System.goOn, Function.update_of_ne hk]
      exact ⟨hothers k hk, (h.runners k).2⟩
  counted := hcounted
  bounded := hbounded

theorem Sound.requireInvoice (h : Sound s) {stored : Bool}
    (hchecked : (s.runners i).invoiceChecked s.order.evidenceInvoiceRequired stored = some runner)
    : RunnerSound s.order i runner := by
  have hbefore := h.runners i
  cases hrunner : s.runners i with
  | retryChecking =>
      simp only [hrunner, Runner.invoiceChecked] at hchecked
      split at hchecked
      · obtain rfl := Option.some.inj hchecked
        exact .idle rfl fun _ => Runner.noConfusion
      · obtain rfl := Option.some.inj hchecked
        exact .idle rfl fun _ => Runner.noConfusion
  | sweepChecking attempts =>
      simp only [hrunner, Runner.invoiceChecked] at hchecked
      split at hchecked
      · obtain rfl := Option.some.inj hchecked
        exact .idle rfl fun _ => Runner.noConfusion
      · obtain rfl := Option.some.inj hchecked
        unfold sweepAttempt
        split
        · exact .idle rfl fun _ => Runner.noConfusion
        · next hleft =>
            refine ⟨Bool.noConfusion, fun attempts' he => ?_⟩
            obtain rfl := Runner.sweepAttempting.inj he
            exact Nat.le_of_not_gt hleft
  | completing =>
      rw [hrunner] at hbefore
      simp only [hrunner, Runner.invoiceChecked] at hchecked
      split at hchecked
      · obtain rfl := Option.some.inj hchecked
        exact hbefore.work rfl fun _ => Runner.noConfusion
      · obtain rfl := Option.some.inj hchecked
        exact hbefore.work rfl fun _ => Runner.noConfusion
  | notStarted | sweepAttempting _ | sweepEscalating _ | claiming _ | claimAt _ _ | transferring
  | marking | failing _ | releasing | ended _ =>
      simp only [hrunner, Runner.invoiceChecked, reduceCtorEq] at hchecked

theorem RunnerSound.thrown {before : Runner} (h : RunnerSound order i before) {detail : String}
    (hthrown : before.thrown detail = some runner)
    : RunnerSound order i runner := by
  cases before with
  | notStarted | ended _ => simp only [Runner.thrown, reduceCtorEq] at hthrown
  | retryChecking | sweepChecking _ | sweepAttempting _ | sweepEscalating _ | claiming _
  | claimAt _ _ | releasing | failing _ =>
      obtain rfl := Option.some.inj hthrown
      exact .idle rfl fun _ => Runner.noConfusion
  | transferring | completing | marking =>
      obtain rfl := Option.some.inj hthrown
      exact h.work rfl fun _ => Runner.noConfusion

/-- The transaction of a runner that finds the order undisturbed keeps what holds. -/
theorem Sound.execute (h : Sound s) (hfree : (s.runners i).undisturbed s = true)
    (ht : s.execute i = some t)
    : Sound t := by
  have hrunner := h.runners i
  unfold System.execute at ht
  cases hr : s.runners i with
  | claimAt raisesOnBusy now =>
      simp only [hr] at ht
      split at ht
      · next hclaimable =>
          obtain rfl := Option.some.inj ht
          simp only [hr, Runner.undisturbed, hclaimable, Bool.not_true, Bool.false_or] at hfree
          have hopen : s.order.evidenceTransferStatus ≠ .complete := by
            simp only [Order.claimable, Status.retryable, Bool.and_eq_true, bne_iff_ne] at hclaimable
            exact hclaimable.1
          apply h.write
          · exact ⟨fun _ => ⟨rfl, hopen⟩, fun _ => Runner.noConfusion⟩
          · intro k _ hwork
            have hholds := ((h.runners k).1 hwork).1
            simp only [hholds, Option.all_some, hwork, Bool.not_true, Bool.false_eq_true] at hfree
          · exact h.counted
          · exact h.bounded
      · split at ht
        · obtain rfl := Option.some.inj ht
          exact h.goOn (.idle rfl fun _ => Runner.noConfusion)
        · obtain rfl := Option.some.inj ht
          exact h.goOn (.idle rfl fun _ => Runner.noConfusion)
  | marking =>
      simp only [hr] at ht
      obtain rfl := Option.some.inj ht
      have hwork : (s.runners i).isAtWork = true := by rw [hr]; rfl
      apply h.write
      · exact .idle rfl fun _ => Runner.noConfusion
      · exact fun k hk hother => absurd (h.alone hwork hother) hk
      · exact h.counted
      · exact h.bounded
  | failing detail =>
      simp only [hr] at ht
      obtain rfl := Option.some.inj ht
      have hwork : (s.runners i).isAtWork = true := by rw [hr]; rfl
      apply h.write
      · exact .idle rfl fun _ => Runner.noConfusion
      · exact fun k hk hother => absurd (h.alone hwork hother) hk
      · exact h.counted
      · exact h.bounded
  | releasing =>
      simp only [hr] at ht
      obtain rfl := Option.some.inj ht
      -- A claim that was taken over is not released.
      have hrelease : ∀ k, k ≠ i → (s.runners k).isAtWork = true → s.order.release i = s.order := by
        intro k hk hwork
        have hholds := ((h.runners k).1 hwork).1
        rw [Order.release, if_neg]
        rw [hholds]
        exact fun he => hk (Option.some.inj he)
      have hattempts : (s.order.release i).evidenceTransferAttempts
          = s.order.evidenceTransferAttempts := by
        unfold Order.release
        split <;> rfl
      apply h.write
      · exact .idle rfl fun _ => Runner.noConfusion
      · intro k hk hwork
        rw [hrelease k hk hwork]
        exact (h.runners k).1 hwork
      · exact h.counted.trans hattempts.symm
      · exact hattempts.trans_le h.bounded
  | sweepAttempting attempts =>
      simp only [hr] at ht
      obtain rfl := Option.some.inj ht
      have hread : s.order.evidenceTransferAttempts = attempts := by
        simpa only [hr, Runner.undisturbed, beq_iff_eq] using hfree
      have hleft := hrunner.2 attempts hr
      apply h.write
      · exact .idle rfl fun _ => Runner.noConfusion
      · exact fun k _ hwork => (h.runners k).1 hwork
      · have hcounted : sweepAttempts (.attempted i :: s.log) = sweepAttempts s.log + 1 := by
          simp [sweepAttempts]
        rw [hcounted, h.counted, hread]
      · exact hleft
  | sweepEscalating detail =>
      simp only [hr] at ht
      obtain rfl := Option.some.inj ht
      apply h.write
      · exact .idle rfl fun _ => Runner.noConfusion
      · exact fun k _ hwork => ⟨((h.runners k).1 hwork).1, Status.noConfusion⟩
      · have hcounted : sweepAttempts (.escalated i :: s.log) = sweepAttempts s.log := by
          simp [sweepAttempts]
        exact hcounted.trans h.counted
      · exact h.bounded
  | notStarted | retryChecking | sweepChecking _ | claiming _ | transferring | completing
  | ended _ => simp only [hr, reduceCtorEq] at ht

theorem step_sound (h : Sound s) {turn : Turn} (hfree : Undisturbed s turn)
    (ht : step turn s = .ok t)
    : Sound t := by
  cases turn with
  | tick elapsed =>
      obtain rfl := Except.ok.inj ht
      exact ⟨h.runners, h.counted, h.bounded⟩
  | transferAfterConversion k =>
      simp only [step] at ht
      split at ht
      · obtain rfl := Except.ok.inj ht
        exact h.goOn (.idle rfl fun _ => Runner.noConfusion)
      · cases ht
  | retry k =>
      simp only [step] at ht
      split at ht
      · split at ht
        · obtain rfl := Except.ok.inj ht
          exact h.goOn (.idle rfl fun _ => Runner.noConfusion)
        · obtain rfl := Except.ok.inj ht
          exact h.goOn (.idle rfl fun _ => Runner.noConfusion)
      · cases ht
  | sweep k =>
      simp only [step] at ht
      split at ht
      · split at ht
        · obtain rfl := Except.ok.inj ht
          exact h.goOn (.idle rfl fun _ => Runner.noConfusion)
        · obtain rfl := Except.ok.inj ht
          exact h.goOn (.idle rfl fun _ => Runner.noConfusion)
      · cases ht
  | requireInvoice k stored =>
      simp only [step] at ht
      split at ht
      · next runner hchecked =>
          obtain rfl := Except.ok.inj ht
          exact h.goOn (h.requireInvoice hchecked)
      · cases ht
  | readClock k =>
      simp only [step] at ht
      split at ht
      · obtain rfl := Except.ok.inj ht
        exact h.goOn (.idle rfl fun _ => Runner.noConfusion)
      · cases ht
  | execute k =>
      simp only [step] at ht
      split at ht
      · next u hu =>
          obtain rfl := Except.ok.inj ht
          exact h.execute hfree hu
      · cases ht
  | transfer k error =>
      simp only [step] at ht
      split at ht
      · next hr =>
          have hrunner := h.runners k
          rw [hr] at hrunner
          split at ht
          · obtain rfl := Except.ok.inj ht
            exact h.goOn (hrunner.work rfl fun _ => Runner.noConfusion)
          · obtain rfl := Except.ok.inj ht
            exact h.goOn (hrunner.work rfl fun _ => Runner.noConfusion)
      · cases ht
  | throw k detail =>
      simp only [step] at ht
      split at ht
      · next runner hthrown =>
          obtain rfl := Except.ok.inj ht
          exact h.goOn ((h.runners k).thrown hthrown)
      · cases ht
  | crash k =>
      obtain rfl := Except.ok.inj ht
      exact h.goOn (.idle rfl fun _ => Runner.noConfusion)

-- Outcomes

theorem step_order {turn : Turn} (ht : step turn s = .ok t)
    : (∃ i, turn = .execute i ∧ s.execute i = some t) ∨ t.order = s.order := by
  cases turn with
  | execute k =>
      simp only [step] at ht
      split at ht
      · next u hu =>
          obtain rfl := Except.ok.inj ht
          exact .inl ⟨k, rfl, hu⟩
      · cases ht
  | tick _ | transferAfterConversion _ | retry _ | sweep _ | requireInvoice _ _ | readClock _
  | transfer _ _ | throw _ _ | crash _ =>
      right
      simp only [step] at ht
      repeat' split at ht
      all_goals first
        | (obtain rfl := Except.ok.inj ht; rfl)
        | cases ht

theorem execute_status (ht : s.execute i = some t)
    : t.order.evidenceTransferStatus = s.order.evidenceTransferStatus
      ∨ ((s.runners i).isAtWork = true
          ∧ (t.order.evidenceTransferStatus = .complete ∨ t.order.evidenceTransferStatus = .failed))
      ∨ ∃ detail, s.runners i = .sweepEscalating detail
          ∧ t.order.evidenceTransferStatus = .escalated := by
  unfold System.execute at ht
  cases hr : s.runners i with
  | claimAt raisesOnBusy now =>
      simp only [hr] at ht
      left
      split at ht
      · obtain rfl := Option.some.inj ht
        rfl
      · split at ht
        · obtain rfl := Option.some.inj ht
          rfl
        · obtain rfl := Option.some.inj ht
          rfl
  | marking =>
      simp only [hr] at ht
      obtain rfl := Option.some.inj ht
      exact .inr (.inl ⟨rfl, .inl rfl⟩)
  | failing detail =>
      simp only [hr] at ht
      obtain rfl := Option.some.inj ht
      exact .inr (.inl ⟨rfl, .inr rfl⟩)
  | releasing =>
      simp only [hr] at ht
      obtain rfl := Option.some.inj ht
      left
      dsimp only [Order.release]
      split <;> rfl
  | sweepAttempting attempts =>
      simp only [hr] at ht
      obtain rfl := Option.some.inj ht
      exact .inl rfl
  | sweepEscalating detail =>
      simp only [hr] at ht
      obtain rfl := Option.some.inj ht
      exact .inr (.inr ⟨detail, rfl, rfl⟩)
  | notStarted | retryChecking | sweepChecking _ | claiming _ | transferring | completing
  | ended _ => simp only [hr, reduceCtorEq] at ht

theorem Sound.changedByHolder (h : Sound s) {turn : Turn} (ht : step turn s = .ok t)
    : ChangedByHolder s turn t := by
  intro hchanged houtcome
  rcases step_order ht with ⟨i, rfl, hexecute⟩ | hsame
  · rcases execute_status hexecute with hkept | ⟨hwork, -⟩ | ⟨detail, -, hescalated⟩
    · exact absurd hkept hchanged
    · exact ⟨i, rfl, ((h.runners i).1 hwork).1⟩
    · rw [hescalated] at houtcome
      simp at houtcome
  · exact absurd (congrArg Order.evidenceTransferStatus hsame) hchanged

theorem Sound.step_complete (h : Sound s) {turn : Turn} (hfree : Undisturbed s turn)
    (ht : step turn s = .ok t) (hcomplete : s.order.evidenceTransferStatus = .complete)
    : t.order.evidenceTransferStatus = .complete := by
  rcases step_order ht with ⟨i, rfl, hexecute⟩ | hsame
  · rcases execute_status hexecute with hkept | ⟨hwork, -⟩ | ⟨detail, hr, -⟩
    · exact hkept.trans hcomplete
    · exact absurd hcomplete ((h.runners i).1 hwork).2
    · simp [Undisturbed, hr, Runner.undisturbed, hcomplete] at hfree
  · exact (congrArg Order.evidenceTransferStatus hsame).trans hcomplete

theorem reached_sound {clock : Nat} {invoiceRequired : Bool}
    (h : Reached Undisturbed (System.converted clock invoiceRequired) s)
    : Sound s :=
  h.invariant (sound_converted clock invoiceRequired) fun _ _ _ hs hfree ht =>
    step_sound hs hfree ht

/-- The protocol of concurrent runners, where each finds the order as it takes it to be: a complete
transfer stays complete, only the holder of the claim stores how a transfer ended, and the sweeps
make at most their number of attempts, escalated or not.
-/
theorem evidenceTransfer_protocol {clock : Nat} {invoiceRequired : Bool}
    (h : Reached Undisturbed (System.converted clock invoiceRequired) s)
    : (s.order.evidenceTransferStatus = .complete →
        ∀ t, Reached Undisturbed s t → t.order.evidenceTransferStatus = .complete)
      ∧ (∀ turn t, step turn s = .ok t → ChangedByHolder s turn t)
      ∧ sweepAttempts s.log ≤ maxEvidenceSweepAttempts := by
  have hsound := reached_sound h
  refine ⟨fun hcomplete t hrun => ?_, fun turn t ht => hsound.changedByHolder ht,
    hsound.counted.trans_le hsound.bounded⟩
  have hboth : Sound t ∧ t.order.evidenceTransferStatus = .complete := by
    apply hrun.invariant (I := fun u => Sound u ∧ u.order.evidenceTransferStatus = .complete)
      ⟨hsound, hcomplete⟩
    intro u v turn hu hfree hv
    exact ⟨step_sound hu.1 hfree hv, hu.1.step_complete hfree hv hu.2⟩
  exact hboth.2

/-- The transfer after the conversion dies, and a sweep finishes it. -/
def sweptTransfer : List Turn :=
  [.transferAfterConversion 0, .readClock 0, .execute 0, .crash 0, .tick evidenceClaimTimeout,
    .sweep 1, .requireInvoice 1 false, .execute 1, .readClock 1, .execute 1, .transfer 1 none,
    .requireInvoice 1 false, .execute 1, .execute 1]

/-- After a crash one sweep takes the claim over and completes the transfer. -/
theorem evidenceTransfer_protocol_swept
    : ∃ s, Reached Undisturbed (System.converted 0 false) s
        ∧ s.order.evidenceTransferStatus = .complete
        ∧ (s.order.evidenceTransferStatus = .complete →
          ∀ t, Reached Undisturbed s t → t.order.evidenceTransferStatus = .complete)
        ∧ (∀ turn t, step turn s = .ok t → ChangedByHolder s turn t)
        ∧ sweepAttempts s.log ≤ maxEvidenceSweepAttempts := by
  obtain ⟨s, hs⟩ : ∃ s, runAdmitted step Undisturbed sweptTransfer (System.converted 0 false)
      = some s := Option.isSome_iff_exists.mp (by decide +kernel)
  have hcomplete : s.order.evidenceTransferStatus = .complete := by
    have hrun : (runAdmitted step Undisturbed sweptTransfer (System.converted 0 false)).map
        (·.order.evidenceTransferStatus) = some .complete := by decide +kernel
    simpa only [hs, Option.map_some, Option.some.injEq] using hrun
  have hreached : Reached Undisturbed (System.converted 0 false) s :=
    Reachable.of_runAdmitted .start hs
  exact ⟨s, hreached, hcomplete, evidenceTransfer_protocol hreached⟩

/-- The transfer after the conversion is still at work when a retry takes its claim over. -/
def overtaken : List Turn :=
  [.transferAfterConversion 0, .readClock 0, .execute 0, .tick evidenceClaimTimeout,
    .retry 1, .requireInvoice 1 false, .readClock 1, .execute 1, .transfer 1 none,
    .requireInvoice 1 false, .execute 1, .execute 1, .transfer 0 (some "OSError: disk full")]

/-- A runner whose claim was taken over makes a complete transfer a failed one. -/
theorem evidenceTransfer_overwritten
    : ∃ s t, Reached (fun _ _ => True) (System.converted 0 false) s
        ∧ step (.execute 0) s = .ok t
        ∧ s.order.evidenceTransferStatus = .complete ∧ t.order.evidenceTransferStatus = .failed
        ∧ ¬ ChangedByHolder s (.execute 0) t := by
  obtain ⟨s, hs⟩ : ∃ s, runAll step overtaken (System.converted 0 false) = some s :=
    Option.isSome_iff_exists.mp (by decide +kernel)
  have hstate : s.order.evidenceTransferStatus = .complete
      ∧ s.order.evidenceTransferClaimToken = none
      ∧ s.runners 0 = .failing "OSError: disk full" := by
    have hrun : (runAll step overtaken (System.converted 0 false)).map
          (fun s => (s.order.evidenceTransferStatus, s.order.evidenceTransferClaimToken, s.runners 0))
        = some (.complete, none, .failing "OSError: disk full") := by decide +kernel
    simpa only [hs, Option.map_some, Option.some.injEq, Prod.mk.injEq] using hrun
  obtain ⟨hcomplete, htoken, hr⟩ := hstate
  obtain ⟨t, ht, hfailed⟩ : ∃ t, step (.execute 0) s = .ok t
      ∧ t.order.evidenceTransferStatus = .failed := by
    simp only [step, System.execute, hr]
    exact ⟨_, rfl, rfl⟩
  refine ⟨s, t, Reachable.of_runAll .start (fun _ _ _ => trivial) hs, ht, hcomplete, hfailed, ?_⟩
  intro hholder
  obtain ⟨i, -, hholds⟩ := hholder (by rw [hfailed, hcomplete]; decide) (.inr hfailed)
  rw [htoken] at hholds
  cases hholds

end EvidenceTransfer

end LicenseTrack
