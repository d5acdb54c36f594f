import LicenseTrack.Webhooks.Dispatcher

/-! What concurrent dispatchers keep: a delivery is claimed again only after the claim timeout, only
the holder of its claim stores an outcome, the attempts are bounded and an outcome is final.
-/

namespace LicenseTrack

open Library

namespace Webhooks

/-- A dispatcher takes a delivery over only once the claim timeout has passed since the moment of
the claim that it takes over.
-/
def TakesOverLate (s : System) : Turn → Prop
  | .claim i =>
      ∀ delivery batch row holder claimedAt, s.dispatchers i = .claiming delivery batch →
        s.deliveries.get? delivery = some row → row.status = .processing →
        row.eligible batch.now = true → row.claimToken = some holder →
        .claimed holder delivery claimedAt ∈ s.log → claimedAt + webhookClaimTimeout ≤ s.clock
  | _ => True

/-- The systems that turns of one kind lead to. -/
abbrev Reached (admits : System → Turn → Prop) (start s : System) : Prop :=
  Reachable step admits start s

/-- An installation without deliveries, in which no dispatch has begun. -/
def System.initial (clock : Nat) (endpoints : Nat → Option WebhookEndpoint) : System where
  clock := clock
  deliveries := Table.empty
  endpoints := endpoints
  dispatchers _ := .notStarted
  log := []

-- Invariants

/-- Claims of one delivery are the claim timeout apart. -/
def Spaced (later earlier : Event) : Prop :=
  ∀ i j delivery first second, earlier = .claimed i delivery first →
    later = .claimed j delivery second → first + webhookClaimTimeout ≤ second

/-- What holds of the events. -/
structure LogSound (clock : Nat) (log : List Event) : Prop where
  past : ∀ i delivery moment, .claimed i delivery moment ∈ log → moment ≤ clock
  spaced : log.Pairwise Spaced
  once : ∀ i delivery moment moment', .claimed i delivery moment ∈ log →
    .claimed i delivery moment' ∈ log → moment = moment'
  posted : ∀ i delivery moment, .posted i delivery moment ∈ log →
    ∃ claimedAt ≤ moment, .claimed i delivery claimedAt ∈ log

/-- What holds of a row, for the claims of its delivery. -/
def RowSound (log : List Event) (delivery : Nat) (row : WebhookDelivery) : Prop :=
  match row.status with
  | .pending =>
      row.attempts < maxWebhookAttempts ∧ row.claimToken = none
      ∧ ∀ i moment, .claimed i delivery moment ∈ log →
          ∃ next, row.nextAttemptAt = some next ∧ moment + webhookClaimTimeout ≤ next
  | .processing =>
      row.attempts < maxWebhookAttempts
      ∧ ∃ holder claimedAt, row.claimToken = some holder ∧ .claimed holder delivery claimedAt ∈ log
          ∧ ∀ i moment, .claimed i delivery moment ∈ log → moment ≤ claimedAt
  | .succeeded | .failed => row.attempts ≤ maxWebhookAttempts ∧ row.claimToken = none

/-- A dispatcher has claimed none of the deliveries, which are different ones. -/
structure Unclaimed (log : List Event) (i : Nat) (deliveries : List Nat) : Prop where
  nodup : deliveries.Nodup
  fresh : ∀ delivery ∈ deliveries, ∀ moment, .claimed i delivery moment ∉ log

/-- What holds of the rest of a dispatch. -/
structure BatchSound (clock : Nat) (log : List Event) (i : Nat) (batch : Batch) : Prop where
  started : batch.now ≤ clock
  unclaimed : Unclaimed log i batch.remaining

/-- What holds of a dispatcher. -/
def DispatcherSound (clock : Nat) (log : List Event) (i : Nat) : Dispatcher → Prop
  | .notStarted => ∀ delivery moment, .claimed i delivery moment ∉ log
  | .selecting now _ => now ≤ clock ∧ ∀ delivery moment, .claimed i delivery moment ∉ log
  | .claiming delivery batch =>
      BatchSound clock log i { batch with remaining := delivery :: batch.remaining }
  | .loading delivery batch | .posting delivery _ _ _ _ batch =>
      (∃ moment, .claimed i delivery moment ∈ log) ∧ BatchSound clock log i batch
  | .finalizing _ _ batch => BatchSound clock log i batch
  | .ended _ | .crashed => True

/-- What holds between the turns. -/
structure Sound (s : System) : Prop where
  log : LogSound s.clock s.log
  known : ∀ i delivery moment, .claimed i delivery moment ∈ s.log →
    ∃ row, s.deliveries.get? delivery = some row
  rows : ∀ delivery row, s.deliveries.get? delivery = some row → RowSound s.log delivery row
  dispatchers : ∀ i, DispatcherSound s.clock s.log i (s.dispatchers i)

variable {clock clock' : Nat} {log log' : List Event} {i j delivery : Nat} {row : WebhookDelivery}
  {batch : Batch} {s t : System}

theorem sound_initial (clock : Nat) (endpoints : Nat → Option WebhookEndpoint)
    : Sound (System.initial clock endpoints) where
  log :=
    ⟨fun _ _ _ h => absurd h List.not_mem_nil, List.Pairwise.nil,
      fun _ _ _ _ h => absurd h List.not_mem_nil, fun _ _ _ h => absurd h List.not_mem_nil⟩
  known := fun _ _ _ h => absurd h List.not_mem_nil
  rows := fun delivery row h => by
    simp only [System.initial, Table.get?_empty, reduceCtorEq] at h
  dispatchers := fun _ _ _ => List.not_mem_nil

theorem LogSound.mono (h : LogSound clock log) (hclock : clock ≤ clock') : LogSound clock' log :=
  { h with past := fun i delivery moment hm => le_trans (h.past i delivery moment hm) hclock }

theorem RowSound.congr (h : RowSound log delivery row)
    (hclaims : ∀ i moment, .claimed i delivery moment ∈ log' ↔ .claimed i delivery moment ∈ log)
    : RowSound log' delivery row := by
  cases hstatus : row.status <;> simp only [RowSound, hstatus, hclaims] at h ⊢ <;> exact h

theorem RowSound.attempts_lt (h : RowSound log delivery row)
    (hstatus : row.status = .pending ∨ row.status = .processing)
    : row.attempts < maxWebhookAttempts := by
  unfold RowSound at h
  rcases hstatus with hstatus | hstatus
  · rw [hstatus] at h
    exact h.1
  · rw [hstatus] at h
    exact h.1

theorem RowSound.processing (h : RowSound log delivery row) {holder : Nat}
    (htoken : row.claimToken = some holder)
    : row.status = .processing := by
  unfold RowSound at h
  split at h
  · rw [h.2.1] at htoken
    cases htoken
  · assumption
  · rw [h.2] at htoken
    cases htoken
  · rw [h.2] at htoken
    cases htoken

theorem Unclaimed.congr {deliveries : List Nat} (h : Unclaimed log i deliveries)
    (hclaims : ∀ delivery moment, .claimed i delivery moment ∈ log' →
      .claimed i delivery moment ∈ log)
    : Unclaimed log' i deliveries :=
  ⟨h.nodup, fun delivery hd moment hm => h.fresh delivery hd moment (hclaims delivery moment hm)⟩

theorem BatchSound.congr (h : BatchSound clock log i batch) (hclock : clock ≤ clock')
    (hclaims : ∀ delivery moment, .claimed i delivery moment ∈ log' →
      .claimed i delivery moment ∈ log)
    : BatchSound clock' log' i batch :=
  ⟨le_trans h.started hclock, h.unclaimed.congr hclaims⟩

theorem DispatcherSound.congr {d : Dispatcher} (h : DispatcherSound clock log i d)
    (hclock : clock ≤ clock')
    (hclaims : ∀ delivery moment, .claimed i delivery moment ∈ log' ↔
      .claimed i delivery moment ∈ log)
    : DispatcherSound clock' log' i d := by
  have hbatch : ∀ batch, BatchSound clock log i batch → BatchSound clock' log' i batch :=
    fun batch hb => hb.congr hclock fun delivery moment => (hclaims delivery moment).mp
  cases d with
  | notStarted => exact fun delivery moment hm => h delivery moment ((hclaims _ _).mp hm)
  | selecting now limit =>
      exact ⟨le_trans h.1 hclock, fun delivery moment hm => h.2 delivery moment ((hclaims _ _).mp hm)⟩
  | claiming delivery batch => exact hbatch _ h
  | loading delivery batch =>
      obtain ⟨⟨moment, hm⟩, hb⟩ := h
      exact ⟨⟨moment, (hclaims _ _).mpr hm⟩, hbatch _ hb⟩
  | posting delivery url secret eventType payload batch =>
      obtain ⟨⟨moment, hm⟩, hb⟩ := h
      exact ⟨⟨moment, (hclaims _ _).mpr hm⟩, hbatch _ hb⟩
  | finalizing delivery result batch => exact hbatch _ h
  | ended deliveredCount => trivial
  | crashed => trivial

theorem BatchSound.loop (h : BatchSound clock log i batch)
    : DispatcherSound clock log i batch.loop := by
  unfold Batch.loop
  split
  · trivial
  · next delivery rest hrest => exact ⟨h.started, hrest ▸ h.unclaimed⟩

theorem Unclaimed.tail {rest : List Nat} {moment : Nat} (h : Unclaimed log i (delivery :: rest))
    : Unclaimed (.claimed i delivery moment :: log) i rest where
  nodup := (List.nodup_cons.mp h.nodup).2
  fresh := fun other ho moment' hm => by
    rcases List.mem_cons.mp hm with he | hm
    · cases he
      exact (List.nodup_cons.mp h.nodup).1 ho
    · exact h.fresh other (List.mem_cons_of_mem _ ho) moment' hm

theorem Sound.goOn (h : Sound s) {dispatcher : Dispatcher}
    (hd : DispatcherSound s.clock s.log i dispatcher)
    : Sound (s.goOn i dispatcher) where
  log := h.log
  known := h.known
  rows := h.rows
  dispatchers := fun k => by
    by_cases hk : k = i
    · subst hk
      simpa only [System.goOn, Function.update_self] using hd
    · simpa only [System.goOn, Function.update_of_ne hk] using h.dispatchers k

-- The turns

theorem selectDue_nodup (s : System) (now limit : Nat) : (s.selectDue now limit).Nodup := by
  refine List.Nodup.sublist (List.take_sublist _ _) ?_
  refine ((List.perm_insertionSort _ _).map Prod.fst).nodup_iff.mpr ?_
  exact (Table.keys_increase _).imp fun h => Nat.ne_of_lt h

theorem Sound.enqueue (h : Sound s) (endpointId : Nat) (eventType payload : String)
    : Sound { s with
        deliveries := s.deliveries.insert
          {
            endpointId := endpointId
            eventType := eventType
            payload := payload
            createdAt := s.clock
          } } where
  log := h.log
  known := fun i delivery moment hm => by
    obtain ⟨row, hrow⟩ := h.known i delivery moment hm
    refine ⟨row, ?_⟩
    rw [Table.get?_insert, if_neg (Nat.ne_of_lt (Table.lt_nextKey_of_get? hrow))]
    exact hrow
  rows := fun delivery row hrow => by
    rw [Table.get?_insert] at hrow
    split at hrow
    · next hnew =>
        obtain rfl := Option.some.inj hrow
        refine ⟨(by decide : 0 < maxWebhookAttempts), rfl, fun i moment hm => ?_⟩
        obtain ⟨row, hrow⟩ := h.known i delivery moment hm
        rw [hnew, Table.get?_nextKey] at hrow
        cases hrow
    · exact h.rows delivery row hrow
  dispatchers := h.dispatchers

theorem Sound.due (h : Sound s) (hd : s.dispatchers i = .claiming delivery batch)
    (hrow : s.deliveries.get? delivery = some row) (heligible : row.eligible batch.now = true)
    (hlate : TakesOverLate s (.claim i)) {k moment : Nat}
    (hclaimed : .claimed k delivery moment ∈ s.log)
    : moment + webhookClaimTimeout ≤ s.clock := by
  have hsound := h.rows delivery row hrow
  have hstarted : batch.now ≤ s.clock := by
    have hdispatcher := h.dispatchers i
    rw [hd] at hdispatcher
    exact hdispatcher.started
  have hcases : (row.status = .pending ∧ row.nextAttemptAt.all (· ≤ batch.now) = true)
      ∨ row.status = .processing := by
    simp only [WebhookDelivery.eligible, Bool.or_eq_true, Bool.and_eq_true, beq_iff_eq] at heligible
    exact heligible.imp id And.left
  rcases hcases with ⟨hstatus, hnext⟩ | hstatus
  · rw [RowSound, hstatus] at hsound
    obtain ⟨next, hn, hle⟩ := hsound.2.2 k moment hclaimed
    have hdue : next ≤ batch.now := by simpa [hn] using hnext
    exact le_trans hle (le_trans hdue hstarted)
  · rw [RowSound, hstatus] at hsound
    obtain ⟨-, holder, claimedAt, htoken, hheld, hlatest⟩ := hsound
    have htakes := hlate delivery batch row holder claimedAt hd hrow hstatus heligible htoken hheld
    exact le_trans (Nat.add_le_add_right (hlatest k moment hclaimed) _) htakes

/-- A claim is the claim timeout away from the claims before. -/
theorem Sound.claim (h : Sound s) (hd : s.dispatchers i = .claiming delivery batch)
    (hlate : TakesOverLate s (.claim i))
    : Sound (s.claim i delivery batch) := by
  have hdispatcher : BatchSound s.clock s.log i
      { batch with remaining := delivery :: batch.remaining } := by
    have hdispatcher := h.dispatchers i
    rw [hd] at hdispatcher
    exact hdispatcher
  unfold System.claim
  split
  · next row hfound =>
      obtain ⟨hrow, heligible⟩ := Option.filter_eq_some_iff.mp hfound
      have hfresh := hdispatcher.unclaimed.fresh delivery List.mem_cons_self
      have hdue : ∀ k moment, .claimed k delivery moment ∈ s.log →
          moment + webhookClaimTimeout ≤ s.clock :=
        fun _ _ hclaimed => h.due hd hrow heligible hlate hclaimed
      constructor
      · constructor
        · intro k other moment hm
          rcases List.mem_cons.mp hm with he | hm
          · cases he
            exact le_rfl
          · exact h.log.past k other moment hm
        · refine List.pairwise_cons.mpr ⟨?_, h.log.spaced⟩
          intro earlier he k k' other first second hfirst hsecond
          cases hsecond
          subst hfirst
          exact hdue k first he
        · intro k other moment moment' hm hm'
          rcases List.mem_cons.mp hm with he | hm <;> rcases List.mem_cons.mp hm' with he' | hm'
          · cases he
            cases he'
            rfl
          · cases he
            exact absurd hm' (hfresh _)
          · cases he'
            exact absurd hm (hfresh _)
          · exact h.log.once k other moment moment' hm hm'
        · intro k other moment hm
          obtain ⟨claimedAt, hle, hc⟩ :=
            h.log.posted k other moment ((List.mem_cons.mp hm).resolve_left Event.noConfusion)
          exact ⟨claimedAt, hle, List.mem_cons_of_mem _ hc⟩
      · intro k other moment hm
        simp only [System.goOn, System.write, Table.get?_modify]
        rcases List.mem_cons.mp hm with he | hm
        · cases he
          exact ⟨_, by rw [hrow]; rfl⟩
        · obtain ⟨row', hrow'⟩ := h.known k other moment hm
          exact ⟨_, by rw [hrow']; rfl⟩
      · intro other row' hrow'
        simp only [System.goOn, System.write] at hrow' ⊢
        by_cases ho : other = delivery
        · subst ho
          rw [Table.get?_modify_self, hrow, Option.map_some] at hrow'
          obtain rfl := Option.some.inj hrow'
          refine ⟨(h.rows other row hrow).attempts_lt ?_, i, s.clock, rfl, List.mem_cons_self, ?_⟩
          · simp only [WebhookDelivery.eligible, Bool.or_eq_true, Bool.and_eq_true, beq_iff_eq]
              at heligible
            exact heligible.imp And.left And.left
          · intro k moment hm
            rcases List.mem_cons.mp hm with he | hm
            · cases he
              exact le_rfl
            · exact h.log.past k other moment hm
        · rw [Table.get?_modify_ne _ _ ho] at hrow'
          refine (h.rows other row' hrow').congr fun k moment => ?_
          simp [ho]
      · intro k
        by_cases hk : k = i
        · subst hk
          simp only [System.goOn, System.write, Function.update_self]
          exact ⟨⟨s.clock, List.mem_cons_self⟩, hdispatcher.started, hdispatcher.unclaimed.tail⟩
        · simp only [System.goOn, System.write, Function.update_of_ne hk]
          refine (h.dispatchers k).congr le_rfl fun other moment => ?_
          simp [hk]
  · apply h.goOn
    apply BatchSound.loop
    exact ⟨hdispatcher.started, (List.nodup_cons.mp hdispatcher.unclaimed.nodup).2,
      fun other ho => hdispatcher.unclaimed.fresh other (List.mem_cons_of_mem _ ho)⟩

theorem Sound.load (h : Sound s) (hd : s.dispatchers i = .loading delivery batch)
    : Sound (s.load i delivery batch) := by
  have hdispatcher := h.dispatchers i
  rw [hd] at hdispatcher
  obtain ⟨hclaimed, hbatch⟩ := hdispatcher
  unfold System.load
  split
  · exact h.goOn hbatch.loop
  · split
    · exact h.goOn hbatch
    · exact h.goOn ⟨hclaimed, hbatch⟩

theorem Sound.post (h : Sound s) {url secret eventType payload : String}
    (hd : s.dispatchers i = .posting delivery url secret eventType payload batch)
    (result : PostResult)
    : Sound { s.goOn i (.finalizing delivery result batch) with
        log := .posted i delivery s.clock :: s.log } := by
  have hdispatcher := h.dispatchers i
  rw [hd] at hdispatcher
  obtain ⟨⟨claimedAt, hclaimed⟩, hbatch⟩ := hdispatcher
  have hclaims : ∀ k other moment, .claimed k other moment ∈ Event.posted i delivery s.clock :: s.log ↔
      .claimed k other moment ∈ s.log := by
    intro k other moment
    simp
  constructor
  · constructor
    · exact fun k other moment hm => h.log.past k other moment ((hclaims _ _ _).mp hm)
    · refine List.pairwise_cons.mpr ⟨?_, h.log.spaced⟩
      intro earlier _ k k' other first second _ hlater
      cases hlater
    · exact fun k other moment moment' hm hm' =>
        h.log.once k other moment moment' ((hclaims _ _ _).mp hm) ((hclaims _ _ _).mp hm')
    · intro k other moment hm
      rcases List.mem_cons.mp hm with he | hm
      · cases he
        exact ⟨claimedAt, h.log.past _ _ _ hclaimed, (hclaims _ _ _).mpr hclaimed⟩
      · obtain ⟨at', hle, hc⟩ := h.log.posted k other moment hm
        exact ⟨at', hle, (hclaims _ _ _).mpr hc⟩
  · exact fun k other moment hm => h.known k other moment ((hclaims _ _ _).mp hm)
  · exact fun other row hrow => (h.rows other row hrow).congr fun k moment => hclaims k other moment
  · intro k
    refine DispatcherSound.congr ?_ le_rfl fun other moment => hclaims k other moment
    have hfinalizing : Sound (s.goOn i (.finalizing delivery result batch)) := h.goOn hbatch
    exact hfinalizing.dispatchers k

theorem RowSound.finalize (h : RowSound log delivery row) (hlog : LogSound clock log)
    {holder : Nat} (htoken : row.claimToken = some holder) (result : PostResult)
    : RowSound log delivery (row.finalize result clock) := by
  have hlt := h.attempts_lt (.inr (h.processing htoken))
  unfold WebhookDelivery.finalize
  split
  · exact ⟨hlt, rfl⟩
  · next failure _ =>
      unfold WebhookDelivery.fail
      dsimp only
      split
      · exact ⟨hlt, rfl⟩
      · next hagain =>
          refine ⟨not_le.mp (not_or.mp hagain).1, rfl, fun k moment hm => ⟨_, rfl, ?_⟩⟩
          have hpast := hlog.past k delivery moment hm
          have hwait : webhookClaimTimeout ≤ (row.attempts + 1) * (5 * minute) :=
            Nat.le_mul_of_pos_left _ (Nat.succ_pos _)
          exact Nat.add_le_add hpast hwait

theorem Sound.finalize (h : Sound s) {result : PostResult}
    (hd : s.dispatchers i = .finalizing delivery result batch)
    : Sound (s.finalize i delivery result batch) := by
  have hbatch : BatchSound s.clock s.log i batch := by
    have hdispatcher := h.dispatchers i
    rw [hd] at hdispatcher
    exact hdispatcher
  unfold System.finalize
  split
  · exact h.goOn hbatch.loop
  · next row hfound =>
      obtain ⟨hrow, htoken⟩ := Option.filter_eq_some_iff.mp hfound
      have hnext : BatchSound s.clock s.log i
          { batch with deliveredCount := batch.deliveredCount + 1 } :=
        ⟨hbatch.started, hbatch.unclaimed⟩
      constructor
      · exact h.log
      · intro k other moment hm
        obtain ⟨row', hrow'⟩ := h.known k other moment hm
        simp only [System.goOn, System.write, Table.get?_modify, hrow']
        exact ⟨_, rfl⟩
      · intro other row' hrow'
        simp only [System.goOn, System.write] at hrow'
        by_cases ho : other = delivery
        · subst ho
          rw [Table.get?_modify_self, hrow, Option.map_some] at hrow'
          obtain rfl := Option.some.inj hrow'
          exact (h.rows other row hrow).finalize h.log (by simpa using htoken) result
        · rw [Table.get?_modify_ne _ _ ho] at hrow'
          exact h.rows other row' hrow'
      · exact (h.goOn hnext.loop).dispatchers

theorem step_sound (h : Sound s) {turn : Turn} (hlate : TakesOverLate s turn)
    (ht : step turn s = .ok t)
    : Sound t := by
  cases turn with
  | tick elapsed =>
      obtain rfl := Except.ok.inj ht
      exact ⟨h.log.mono (Nat.le_add_right _ _), h.known, h.rows,
        fun k => (h.dispatchers k).congr (Nat.le_add_right _ _) fun _ _ => Iff.rfl⟩
  | enqueue endpointId eventType payload =>
      obtain rfl := Except.ok.inj ht
      exact h.enqueue endpointId eventType payload
  | configure endpointId endpoint =>
      obtain rfl := Except.ok.inj ht
      exact ⟨h.log, h.known, h.rows, h.dispatchers⟩
  | start k limit =>
      simp only [step] at ht
      split at ht
      · next hd =>
          obtain rfl := Except.ok.inj ht
          have hdispatcher := h.dispatchers k
          rw [hd] at hdispatcher
          exact h.goOn ⟨le_rfl, hdispatcher⟩
      · cases ht
  | select k =>
      simp only [step] at ht
      split at ht
      · next now limit hd =>
          obtain rfl := Except.ok.inj ht
          have hdispatcher := h.dispatchers k
          rw [hd] at hdispatcher
          apply h.goOn
          apply BatchSound.loop
          exact ⟨hdispatcher.1, selectDue_nodup s now limit, fun other _ => hdispatcher.2 other⟩
      · cases ht
  | claim k =>
      simp only [step] at ht
      split at ht
      · next delivery batch hd =>
          obtain rfl := Except.ok.inj ht
          exact h.claim hd hlate
      · cases ht
  | load k =>
      simp only [step] at ht
      split at ht
      · next delivery batch hd =>
          obtain rfl := Except.ok.inj ht
          exact h.load hd
      · cases ht
  | post k result =>
      simp only [step] at ht
      split at ht
      · next delivery url secret eventType payload batch hd =>
          obtain rfl := Except.ok.inj ht
          exact h.post hd result
      · cases ht
  | finalize k =>
      simp only [step] at ht
      split at ht
      · next delivery result batch hd =>
          obtain rfl := Except.ok.inj ht
          exact h.finalize hd
      · cases ht
  | crash k =>
      obtain rfl := Except.ok.inj ht
      have hcrashed : DispatcherSound s.clock s.log k .crashed := trivial
      exact h.goOn hcrashed

theorem reached_sound {endpoints : Nat → Option WebhookEndpoint}
    (h : Reached TakesOverLate (System.initial clock endpoints) s)
    : Sound s :=
  h.invariant (sound_initial clock endpoints) fun _ _ _ hs hlate ht => step_sound hs hlate ht

-- Outcomes

/-- A delivery that a dispatcher has selected. -/
def selected : List Turn := [.enqueue 1 "license.created" "", .start 0 20, .select 0]

/-- The dispatcher's steps after its claim. -/
def posting : List Turn := [.load 0, .post 0 (.responded 200 ""), .finalize 0]

end Webhooks

end LicenseTrack
