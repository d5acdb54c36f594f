import LicenseTrack.Notifications.Sender

/-! The lease of the run slot: a run sends a message only right after it refreshed a claim it held,
a run whose claim was taken over sends at most the message it had refreshed for and stores nothing,
and a run that ends by itself leaves the slot free.
-/

namespace LicenseTrack

open Library

namespace Notification

/-- The run that claimed the slot last. -/
def lastClaim : List Event → Option Nat
  | [] => none
  | .claimed i :: _ => some i
  | _ :: before => lastClaim before

/-- The last event of a run. -/
def lastOf (i : Nat) (log : List Event) : Option Event := log.find? (fun e => e.run == i)

/-- The messages of a run in a log. -/
def sends (i : Nat) (log : List Event) : Nat :=
  log.countP fun
    | .sent run _ _ => run == i
    | _ => false

/-- What must have happened before an event under a lease. -/
def Event.Leased (before : List Event) : Event → Prop
  | .claimed i => ∀ e ∈ before, e.run ≠ i
  | .refreshed i holder => holder = some i → lastClaim before = some i
  | .sent i _ _ => lastOf i before = some (.refreshed i (some i))
  | .stored i => lastClaim before = some i

/-- A log in which every event is leased. -/
def Leased : List Event → Prop
  | [] => True
  | e :: before => e.Leased before ∧ Leased before

variable {i j : Nat} {before after log : List Event}

theorem Leased.of_append (h : Leased (after ++ before)) : Leased before := by
  induction after with
  | nil => exact h
  | cons e after ih => exact ih h.2

theorem Leased.event {e : Event} (h : Leased (after ++ e :: before)) : e.Leased before :=
  h.of_append.1

theorem lastClaim_ne (hne : i ≠ j) (h : .claimed i ∉ after)
    : lastClaim (after ++ .claimed j :: before) ≠ some i := by
  induction after with
  | nil =>
      intro he
      exact hne (Option.some.inj he).symm
  | cons e after ih =>
      obtain ⟨hhead, hrest⟩ := not_or.mp fun hm => h (List.mem_cons.mpr hm)
      cases e with
      | claimed k =>
          intro he
          exact hhead (congrArg Event.claimed (Option.some.inj he).symm)
      | refreshed _ _ => exact ih hrest
      | sent _ _ _ => exact ih hrest
      | stored _ => exact ih hrest

/-- What a run does in a log after another run took its claim over. -/
structure Superseded (i : Nat) (before after : List Event) : Prop where
  claims : .claimed i ∉ after
  stores : .stored i ∉ after
  holds : .refreshed i (some i) ∉ after
  sends_le : sends i after ≤ 1
  sent : sends i after ≠ 0 → lastOf i before = some (.refreshed i (some i))

theorem lastOf_append (after before : List Event)
    : lastOf i (after ++ before) = (lastOf i after).or (lastOf i before) := by
  simp only [lastOf, List.find?_append]

theorem mem_of_lastOf {e : Event} (h : lastOf i log = some e) : e ∈ log := List.mem_of_find?_eq_some h

theorem sends_of_lastOf (h : lastOf i log = none) : sends i log = 0 := by
  refine List.countP_eq_zero.mpr fun e he => ?_
  have hrun := List.find?_eq_none.mp h e he
  cases e with
  | sent run recipient cc => exact hrun
  | claimed _ => exact Bool.false_ne_true
  | refreshed _ _ => exact Bool.false_ne_true
  | stored _ => exact Bool.false_ne_true

/-- After its claim was taken over, a run sends at most the message it refreshed for before, by
induction on what happened since.
-/
theorem Leased.superseded (h : Leased (after ++ .claimed j :: before)) (hne : i ≠ j)
    (hi : .claimed i ∈ before)
    : Superseded i before after := by
  induction after with
  | nil => exact ⟨List.not_mem_nil, List.not_mem_nil, List.not_mem_nil, Nat.zero_le 1, by simp [sends]⟩
  | cons e after ih =>
      obtain ⟨hevent, hrest⟩ := h
      have ih := ih hrest
      have hlast : lastClaim (after ++ .claimed j :: before) ≠ some i := lastClaim_ne hne ih.claims
      cases e with
      | claimed k =>
          have hk : k ≠ i := by
            intro he
            exact hevent (.claimed i) (by simp [hi]) he.symm
          exact ⟨by simpa [Ne.symm hk] using ih.claims, by simpa using ih.stores,
            by simpa using ih.holds, by simpa [sends] using ih.sends_le,
            by simpa [sends] using ih.sent⟩
      | refreshed k holder =>
          refine ⟨by simpa using ih.claims, by simpa using ih.stores, ?_,
            by simpa [sends] using ih.sends_le, by simpa [sends] using ih.sent⟩
          intro hmem
          rcases List.mem_cons.mp hmem with he | hmem
          · cases he
            exact hlast (hevent rfl)
          · exact ih.holds hmem
      | sent k recipient cc =>
          by_cases hk : k = i
          · subst hk
            have hnone : lastOf k after = none := by
              cases hl : lastOf k after with
              | none => rfl
              | some e =>
                  have he : e = .refreshed k (some k) := by
                    have hev : lastOf k (after ++ .claimed j :: before) = _ := hevent
                    rw [lastOf_append, hl, Option.some_or] at hev
                    exact Option.some.inj hev
                  exact absurd (mem_of_lastOf (he ▸ hl)) ih.holds
            have hbefore : lastOf k before = some (.refreshed k (some k)) := by
              have hev : lastOf k (after ++ .claimed j :: before) = _ := hevent
              rw [lastOf_append, hnone, Option.none_or] at hev
              simpa [lastOf, Event.run, Ne.symm hne] using hev
            have hzero := sends_of_lastOf hnone
            exact ⟨by simpa using ih.claims, by simpa using ih.stores, by simpa using ih.holds,
              by simp [sends] at hzero ⊢; omega, fun _ => hbefore⟩
          · exact ⟨by simpa using ih.claims, by simpa using ih.stores, by simpa using ih.holds,
              by simpa [sends, hk] using ih.sends_le, by simpa [sends, hk] using ih.sent⟩
      | stored k =>
          have hk : k ≠ i := by
            intro he
            subst he
            exact hlast hevent
          exact ⟨by simpa using ih.claims, by simpa [Ne.symm hk] using ih.stores,
            by simpa using ih.holds, by simpa [sends] using ih.sends_le,
            by simpa [sends] using ih.sent⟩

-- Runs and the slot

namespace Run

/-- A run that has not claimed the slot. -/
def Unclaimed : Run → Prop
  | .notStarted | .claiming | .claimAt _ | .ended .settingsNotConfigured | .ended .conflict => True
  | _ => False

/-- A run that is about to send a message. -/
def IsSending : Run → Prop
  | .sending _ _ _ _ => True
  | _ => False

/-- A run that ended with the statement that stores its outcome. -/
def GaveBack : Run → Prop
  | .ended (.stored _) | .ended (.superseded _) => True
  | _ => False

/-- A run between its claim and its end that is not about to send, or that was cut short. -/
structure InBetween (run : Run) : Prop where
  claimed : ¬ run.Unclaimed
  silent : ¬ run.IsSending
  holds : ¬ run.GaveBack

theorem inBetween_loop (d : Delivery) : d.loop.InBetween := by
  unfold Delivery.loop
  split
  · exact ⟨id, id, id⟩
  · exact ⟨id, id, id⟩

theorem inBetween_configured (config : Config) : (configured config).InBetween := by
  unfold configured
  split
  · exact ⟨id, id, id⟩
  split
  · exact ⟨id, id, id⟩
  · exact ⟨id, id, id⟩

theorem address_cases (u : Unicode) (d : Delivery)
    : (d.address u).InBetween ∨ ∃ d' role recipient cc, d.address u = .sending d' role recipient cc
    := by
  unfold Delivery.address
  split
  · exact .inl (inBetween_loop d)
  · simp only
    split
    · exact .inr ⟨_, _, _, _, rfl⟩
    · exact .inl (inBetween_loop _)
  · simp only
    split
    · exact .inr ⟨_, _, _, _, rfl⟩
    · exact .inl (inBetween_loop _)

end Run

/-- What the runs, the token and the log have to do with each other. -/
structure Leasing (s : System) : Prop where
  leased : Leased s.log
  holder : ∀ k, s.token = some k → lastClaim s.log = some k ∧ ¬ (s.runs k).GaveBack
  unclaimed : ∀ k, (s.runs k).Unclaimed → ∀ e ∈ s.log, e.run ≠ k
  sending : ∀ k, (s.runs k).IsSending → lastOf k s.log = some (.refreshed k (some k))

namespace Leasing

variable {u : Unicode} {s t : System} {run : Run}

theorem goOn_self (s : System) (i : Nat) (run : Run) : (s.goOn i run).runs i = run :=
  Function.update_self ..

theorem goOn_ne (s : System) (run : Run) (h : j ≠ i) : (s.goOn i run).runs j = s.runs j :=
  Function.update_of_ne h ..

theorem quiet (h : Leasing s) (hunclaimed : run.Unclaimed → (s.runs i).Unclaimed)
    (hsilent : ¬ run.IsSending) (hgave : run.GaveBack → s.token ≠ some i)
    : Leasing (s.goOn i run) where
  leased := h.leased
  holder k hk := by
    refine ⟨(h.holder k hk).1, ?_⟩
    by_cases he : k = i
    · subst he
      rw [goOn_self]
      exact fun hg => hgave hg hk
    · rw [goOn_ne s run he]
      exact (h.holder k hk).2
  unclaimed k hk := by
    by_cases he : k = i
    · subst he
      rw [goOn_self] at hk
      exact h.unclaimed k (hunclaimed hk)
    · rw [goOn_ne s run he] at hk
      exact h.unclaimed k hk
  sending k hk := by
    by_cases he : k = i
    · subst he
      rw [goOn_self] at hk
      exact absurd hk hsilent
    · rw [goOn_ne s run he] at hk
      exact h.sending k hk

theorem quiet_inBetween (h : Leasing s) (hrun : run.InBetween) : Leasing (s.goOn i run) :=
  h.quiet (fun hu => absurd hu hrun.claimed) hrun.silent fun hg => absurd hg hrun.holds

theorem logged (h : Leasing s) (i : Nat) (e : Event) (hown : e.run = i) (hleased : e.Leased s.log)
    {settings : Option Settings}
    (hholder : ∀ k, settings.bind (·.notificationRunToken) = some k →
      lastClaim (e :: s.log) = some k ∧ if k = i then ¬ run.GaveBack else s.token = some k)
    (hclaimed : ¬ run.Unclaimed) (hsending : run.IsSending → e = .refreshed i (some i))
    : Leasing { s.goOn i run with settings := settings, log := e :: s.log } where
  leased := ⟨hleased, h.leased⟩
  holder k hk := by
    obtain ⟨hlast, hkept⟩ := hholder k hk
    refine ⟨hlast, ?_⟩
    by_cases he : k = i
    · subst he
      change ¬ ((s.goOn k run).runs k).GaveBack
      rw [goOn_self]
      simpa using hkept
    · change ¬ ((s.goOn i run).runs k).GaveBack
      rw [goOn_ne s run he]
      rw [if_neg he] at hkept
      exact (h.holder k hkept).2
  unclaimed k hk := by
    by_cases he : k = i
    · subst he
      change ((s.goOn k run).runs k).Unclaimed at hk
      rw [goOn_self] at hk
      exact absurd hk hclaimed
    · change ((s.goOn i run).runs k).Unclaimed at hk
      rw [goOn_ne s run he] at hk
      intro other hmem
      rcases List.mem_cons.mp hmem with rfl | hmem
      · rw [hown]
        exact Ne.symm he
      · exact h.unclaimed k hk other hmem
  sending k hk := by
    by_cases he : k = i
    · subst he
      change ((s.goOn k run).runs k).IsSending at hk
      rw [goOn_self] at hk
      simp [lastOf, hsending hk, Event.run]
    · change ((s.goOn i run).runs k).IsSending at hk
      rw [goOn_ne s run he] at hk
      simpa [lastOf, hown, Ne.symm he] using h.sending k hk

/-- The statement a run executes keeps the lease. -/
theorem execute (h : Leasing s) (hstep : s.execute u i = .ok t) : Leasing t := by
  unfold System.execute at hstep
  split at hstep
  · next now hrun =>
      have hunclaimed : (s.runs i).Unclaimed := by
        rw [hrun]
        exact trivial
      split at hstep
      · next settings hsettings =>
          obtain rfl := Except.ok.inj hstep
          apply h.logged i (.claimed i) rfl
          · exact h.unclaimed i hunclaimed
          · intro k hk
            obtain rfl : i = k := Option.some.inj hk
            simp [lastClaim, Run.GaveBack]
          · exact id
          · exact False.elim
      · obtain rfl := Except.ok.inj hstep
        exact h.quiet (fun _ => hunclaimed) id False.elim
  · next d now hrun =>
      simp only at hstep
      have hlast : s.token = some i → lastClaim s.log = some i := fun hk => (h.holder i hk).1
      split at hstep
      · next hheld =>
          obtain rfl := Except.ok.inj hstep
          have htoken : (s.settings.map (fun settings => settings.refresh now)).bind
              (·.notificationRunToken) = s.token := by
            cases hs : s.settings <;> simp [System.token, hs, Settings.refresh]
          apply h.logged i (.refreshed i s.token) rfl
          · exact hlast
          · intro k hk
            rw [htoken] at hk
            refine ⟨(h.holder k hk).1, ?_⟩
            split
            · rcases Run.address_cases u d with hbetween | ⟨d', role, recipient, cc, hsend⟩
              · exact hbetween.holds
              · rw [hsend]
                exact id
            · exact hk
          · rcases Run.address_cases u d with hbetween | ⟨d', role, recipient, cc, hsend⟩
            · exact hbetween.claimed
            · rw [hsend]
              exact id
          · intro _
            rw [hheld]
      · obtain rfl := Except.ok.inj hstep
        apply h.logged i (.refreshed i s.token) rfl
        · exact hlast
        · intro k hk
          refine ⟨(h.holder k hk).1, ?_⟩
          split
          · exact id
          · exact hk
        · exact id
        · exact False.elim
  · next summary now hrun =>
      split at hstep
      · next hheld =>
          obtain rfl := Except.ok.inj hstep
          apply h.logged i (.stored i) rfl
          · exact (h.holder i hheld).1
          · intro k hk
            cases hs : s.settings <;> simp [hs, Settings.finalize] at hk
          · exact id
          · exact False.elim
      · next hlost =>
          obtain rfl := Except.ok.inj hstep
          exact h.quiet False.elim id fun _ => hlost
  · cases hstep

/-- Every turn keeps the lease. -/
theorem step {turn : Turn} (h : Leasing s) (hstep : Notification.step u turn s = .ok t)
    : Leasing t := by
  cases turn with
  | tick elapsed =>
      obtain rfl := Except.ok.inj hstep
      exact ⟨h.leased, h.holder, h.unclaimed, h.sending⟩
  | start i =>
      simp only [Notification.step] at hstep
      split at hstep
      · next hrun =>
          have hunclaimed : (s.runs i).Unclaimed := by
            rw [hrun]
            exact trivial
          split at hstep
          · obtain rfl := Except.ok.inj hstep
            exact h.quiet (fun _ => hunclaimed) id False.elim
          · obtain rfl := Except.ok.inj hstep
            exact h.quiet (fun _ => hunclaimed) id False.elim
      · cases hstep
  | readClock i =>
      simp only [Notification.step] at hstep
      split at hstep
      · next hrun =>
          obtain rfl := Except.ok.inj hstep
          refine h.quiet (fun _ => ?_) id False.elim
          rw [hrun]
          exact trivial
      · obtain rfl := Except.ok.inj hstep
        exact h.quiet_inBetween ⟨id, id, id⟩
      · obtain rfl := Except.ok.inj hstep
        exact h.quiet_inBetween ⟨id, id, id⟩
      · cases hstep
  | execute i => exact h.execute hstep
  | reload i config =>
      simp only [Notification.step] at hstep
      split at hstep
      · obtain rfl := Except.ok.inj hstep
        exact h.quiet_inBetween (Run.inBetween_configured config)
      · cases hstep
  | classify i classified =>
      simp only [Notification.step] at hstep
      split at hstep
      · obtain rfl := Except.ok.inj hstep
        exact h.quiet_inBetween (Run.inBetween_loop _)
      · cases hstep
  | send i error =>
      simp only [Notification.step] at hstep
      split at hstep
      · next d role recipient cc hrun =>
          obtain rfl := Except.ok.inj hstep
          have hbetween := Run.inBetween_loop
            { d with summary := d.summary.record role recipient error }
          apply h.logged i (.sent i recipient cc) rfl
          · refine h.sending i ?_
            rw [hrun]
            exact trivial
          · intro k hk
            refine ⟨(h.holder k hk).1, ?_⟩
            split
            · exact hbetween.holds
            · exact hk
          · exact hbetween.claimed
          · exact fun hs => absurd hs hbetween.silent
      · cases hstep
  | throw i detail =>
      simp only [Notification.step] at hstep
      split at hstep
      · cases hstep
      · cases hstep
      · next hstarted hrunning =>
          obtain rfl := Except.ok.inj hstep
          apply h.quiet_inBetween
          cases hrun : s.runs i with
          | notStarted => exact absurd hrun hstarted
          | ended ending => exact absurd hrun (hrunning ending)
          | claiming | claimAt _ | claimed | classifying _ | refreshing _ | refreshAt _ _
          | sending _ _ _ _ | finalizing _ | storeAt _ _ => exact ⟨id, id, id⟩
  | crash i =>
      simp only [Notification.step] at hstep
      split at hstep
      · cases hstep
      · cases hstep
      · obtain rfl := Except.ok.inj hstep
        exact h.quiet_inBetween ⟨id, id, id⟩

theorem claimed (h : Leasing s) (hc : .claimed i ∈ s.log) : ¬ (s.runs i).Unclaimed :=
  fun hu => h.unclaimed i hu (.claimed i) hc rfl

end Leasing

-- Outcomes and the end of runs

variable {u : Unicode} {s t : System}

theorem outcome_stored {turn : Turn} (hstep : step u turn s = .ok t) (hne : t.outcome ≠ s.outcome)
    : ∃ i, t.log = .stored i :: s.log := by
  have hquiet : ∀ {i run}, .ok (s.goOn i run) = (.ok t : Except PUnit.{1} System) → False := by
    intro i run he
    obtain rfl := Except.ok.inj he
    exact hne rfl
  cases turn with
  | tick elapsed =>
      obtain rfl := Except.ok.inj hstep
      exact absurd rfl hne
  | execute i =>
      simp only [step, System.execute] at hstep
      split at hstep
      · split at hstep
        · next settings hsettings =>
            obtain rfl := Except.ok.inj hstep
            obtain ⟨hs, -⟩ := Option.filter_eq_some_iff.mp hsettings
            refine absurd ?_ hne
            simp [System.outcome, hs, Settings.claim]
        · exact (hquiet hstep).elim
      · split at hstep
        · obtain rfl := Except.ok.inj hstep
          refine absurd ?_ hne
          simp [System.outcome, Function.comp_def, Settings.refresh]
        · obtain rfl := Except.ok.inj hstep
          exact absurd rfl hne
      · split at hstep
        · obtain rfl := Except.ok.inj hstep
          exact ⟨i, rfl⟩
        · exact (hquiet hstep).elim
      · cases hstep
  | start i =>
      simp only [step] at hstep
      split at hstep
      · split at hstep
        · exact (hquiet hstep).elim
        · exact (hquiet hstep).elim
      · cases hstep
  | readClock i =>
      simp only [step] at hstep
      split at hstep
      · exact (hquiet hstep).elim
      · exact (hquiet hstep).elim
      · exact (hquiet hstep).elim
      · cases hstep
  | reload i config =>
      simp only [step] at hstep
      split at hstep
      · exact (hquiet hstep).elim
      · cases hstep
  | classify i classified =>
      simp only [step] at hstep
      split at hstep
      · exact (hquiet hstep).elim
      · cases hstep
  | send i error =>
      simp only [step] at hstep
      split at hstep
      · obtain rfl := Except.ok.inj hstep
        exact absurd rfl hne
      · cases hstep
  | throw i detail =>
      simp only [step] at hstep
      split at hstep
      · cases hstep
      · cases hstep
      · exact (hquiet hstep).elim
  | crash i =>
      simp only [step] at hstep
      split at hstep
      · cases hstep
      · cases hstep
      · exact (hquiet hstep).elim

theorem lastClaim_mem {i : Nat} {log : List Event} (h : lastClaim log = some i)
    : .claimed i ∈ log := by
  induction log with
  | nil => cases h
  | cons e before ih =>
      cases e with
      | claimed k =>
          obtain rfl := Option.some.inj h
          exact List.mem_cons_self
      | refreshed _ _ | sent _ _ _ | stored _ => exact List.mem_cons_of_mem _ (ih h)

/-- A run that has started and not ended. -/
def Run.IsActive : Run → Prop
  | .notStarted | .ended _ => False
  | _ => True

/-- A run whose process ended, that could not read its settings again, or that could not store its
outcome.
-/
def Run.CutShort : Run → Prop
  | .ended .crashed | .ended (.raised _) | .ended (.unstored _) => True
  | _ => False

/-- The installation before its first run. -/
def System.initial (clock : Nat) (settings : Option Settings) : System where
  clock := clock
  settings := settings
  runs _ := .notStarted
  log := []

/-- A state that runs reach in some order of their steps. -/
abbrev Reached (u : Unicode) (start s : System) : Prop :=
  Reachable (step u) (fun _ _ => True) start s

theorem Reached.leasing {clock : Nat} {settings : Option Settings}
    (hfree : (System.initial clock settings).token = none)
    (h : Reached u (System.initial clock settings) s)
    : Leasing s := by
  refine h.invariant ?_ fun s t turn hs _ hstep => hs.step hstep
  refine ⟨trivial, fun k hk => ?_, fun k _ e he => ?_, fun k hk => hk.elim⟩
  · rw [hfree] at hk
    cases hk
  · cases he

/-- In every order of the steps of any number of runs: a message is sent right after a refresh
that found the own token; a run whose claim another took over sends at most the message it had
refreshed for, and stores nothing; the stored outcome changes only by a run that stores; and once no
run is active, the slot is free unless the last run that claimed it was cut short.
-/
theorem notificationRun_lease {clock : Nat} {settings : Option Settings}
    (hfree : (System.initial clock settings).token = none)
    (h : Reached u (System.initial clock settings) s)
    : (∀ after i recipient cc before, s.log = after ++ .sent i recipient cc :: before →
          lastOf i before = some (.refreshed i (some i)))
      ∧ (∀ after i j before, s.log = after ++ .claimed j :: before → i ≠ j →
          .claimed i ∈ before → Superseded i before after)
      ∧ (∀ turn t, step u turn s = .ok t → t.outcome ≠ s.outcome →
          ∃ i, t.log = .stored i :: s.log)
      ∧ ((∀ i, ¬ (s.runs i).IsActive) →
          (∀ i, lastClaim s.log = some i → ¬ (s.runs i).CutShort) → s.token = none) := by
  have hs : Leasing s := h.leasing hfree
  refine ⟨fun after i recipient cc before hlog => ?_, fun after i j before hlog hne hi => ?_,
    fun turn t => outcome_stored, fun hidle hended => ?_⟩
  · have hleased := hs.leased
    rw [hlog] at hleased
    exact hleased.event
  · have hleased := hs.leased
    rw [hlog] at hleased
    exact hleased.superseded hne hi
  · cases htoken : s.token with
    | none => rfl
    | some k =>
        obtain ⟨hlast, hkept⟩ := hs.holder k htoken
        have hclaimed := hs.claimed (lastClaim_mem hlast)
        have hactive := hidle k
        have hcut := hended k hlast
        exfalso
        cases hrun : s.runs k with
        | notStarted =>
            rw [hrun] at hclaimed
            exact hclaimed trivial
        | ended ending =>
            rw [hrun] at hclaimed hkept hcut
            cases ending with
            | settingsNotConfigured => exact hclaimed trivial
            | conflict => exact hclaimed trivial
            | stored summary => exact hkept trivial
            | superseded summary => exact hkept trivial
            | raised detail => exact hcut trivial
            | unstored summary => exact hcut trivial
            | crashed => exact hcut trivial
        | claiming | claimAt _ | claimed | classifying _ | refreshing _ | refreshAt _ _
        | sending _ _ _ _ | finalizing _ | storeAt _ _ =>
            rw [hrun] at hactive
            exact hactive trivial

/-- The settings of an installation in which no run has happened. -/
def unusedSlot : Settings where
  notificationRunToken := none
  notificationRunStartedAt := none
  lastNotificationAttemptDate := none
  outcome := ⟨none, none, none, none⟩

/-- Notifications without a mail server. -/
def unconfigured : Config where
  smtpHost := ""
  emailEnabled := true
  managerEmail := none
  isEmailDomainAllowed _ := true

/-- The first run once it has claimed the slot at the start. -/
def firstClaim (run : Run) : System where
  clock := 0
  settings := some (unusedSlot.claim 0 0)
  runs := Function.update (fun _ => .notStarted) 0 run
  log := [.claimed 0]

theorem firstClaim_goOn (run next : Run) : (firstClaim run).goOn 0 next = firstClaim next := by
  simp only [System.goOn, firstClaim, Function.update_idem]

theorem reached_firstClaim
    : Reached .ascii (System.initial 0 (some unusedSlot)) (firstClaim .claimed) := by
  have hrun : runAll (step .ascii) [.start 0, .readClock 0, .execute 0]
      (System.initial 0 (some unusedSlot)) = some (firstClaim .claimed) := by
    simp [runAll, step, System.execute, System.goOn, System.initial, firstClaim, unusedSlot,
      Settings.claimable, Option.filter]
  exact Reachable.of_runAll .start (fun _ _ _ => trivial) hrun

theorem reached_firstClaim_step (turn : Turn) {run next : Run}
    (h : Reached .ascii (System.initial 0 (some unusedSlot)) (firstClaim run))
    (hstep : step .ascii turn (firstClaim run) = .ok ((firstClaim run).goOn 0 next))
    : Reached .ascii (System.initial 0 (some unusedSlot)) (firstClaim next) := by
  rw [firstClaim_goOn] at hstep
  exact h.step turn trivial hstep

/-- The summary of a run without a mail server. -/
def unconfiguredSummary : Summary := { status := .skipped, reason := some "smtp_not_configured" }

theorem reached_storing
    : Reached .ascii (System.initial 0 (some unusedSlot))
        (firstClaim (.storeAt unconfiguredSummary 0)) := by
  have hreload := reached_firstClaim_step (.reload 0 unconfigured) reached_firstClaim rfl
  exact reached_firstClaim_step (.readClock 0) hreload rfl

theorem idle_of_ended {runs : Nat → Run} {ending : Ending}
    (h : runs = Function.update (fun _ => .notStarted) 0 (.ended ending)) (i : Nat)
    : ¬ (runs i).IsActive := by
  subst h
  by_cases hi : i = 0
  · subst hi
    exact id
  · simp [hi, Run.IsActive]

/-- A run without a mail server leaves the slot free. -/
theorem notificationRun_lease_skipped
    : ∃ s, Reached .ascii (System.initial 0 (some unusedSlot)) s
        ∧ s.log = [.stored 0, .claimed 0] ∧ s.token = none := by
  obtain ⟨s, hs, hlog, hruns⟩ : ∃ s, step .ascii (.execute 0)
      (firstClaim (.storeAt unconfiguredSummary 0)) = .ok s ∧ s.log = [.stored 0, .claimed 0]
        ∧ s.runs = ((firstClaim (.storeAt unconfiguredSummary 0)).goOn 0
            (.ended (.stored unconfiguredSummary))).runs := ⟨_, rfl, rfl, rfl⟩
  rw [firstClaim_goOn] at hruns
  have hreached : Reached .ascii (System.initial 0 (some unusedSlot)) s :=
    reached_storing.step _ trivial hs
  refine ⟨s, hreached, hlog, (notificationRun_lease rfl hreached).2.2.2 (idle_of_ended hruns) ?_⟩
  intro i hi
  rw [hlog] at hi
  obtain rfl : 0 = i := Option.some.inj hi
  rw [hruns]
  exact id

/-- A run that does not crash leaves the slot taken where the statement that stores its outcome
fails, or the one that reads its settings again.
-/
theorem notificationRun_slotTaken
    : (System.initial 0 (some unusedSlot)).token = none
      ∧ ∀ ending ∈ [.unstored unconfiguredSummary, .raised "database is locked"],
          ending ≠ .crashed
          ∧ ∃ s, Reached .ascii (System.initial 0 (some unusedSlot)) s
            ∧ s.runs 0 = .ended ending ∧ lastClaim s.log = some 0
            ∧ (∀ i, ¬ (s.runs i).IsActive) ∧ s.token = some 0 := by
  refine ⟨rfl, fun ending hending => ?_⟩
  have hended : ∀ e, Reached .ascii (System.initial 0 (some unusedSlot)) (firstClaim (.ended e)) →
      ∃ s, Reached .ascii (System.initial 0 (some unusedSlot)) s
        ∧ s.runs 0 = .ended e ∧ lastClaim s.log = some 0
        ∧ (∀ i, ¬ (s.runs i).IsActive) ∧ s.token = some 0 :=
    fun e he => ⟨_, he, rfl, rfl, idle_of_ended rfl, rfl⟩
  simp only [List.mem_cons, List.not_mem_nil, or_false] at hending
  rcases hending with rfl | rfl
  · refine ⟨Ending.noConfusion, hended _ ?_⟩
    exact reached_firstClaim_step (.throw 0 "database is locked") reached_storing rfl
  · refine ⟨Ending.noConfusion, hended _ ?_⟩
    exact reached_firstClaim_step (.throw 0 "database is locked") reached_firstClaim rfl

end Notification

end LicenseTrack
