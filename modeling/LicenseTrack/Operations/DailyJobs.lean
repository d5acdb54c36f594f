import LicenseTrack.Library.Runs

/-! The scheduler's loop: the notification run and the backup of a day, the markers that keep
each to one a day, and the cycles in which both keep to their hour.
-/

namespace LicenseTrack

open Library

/-- Microseconds since the epoch, in UTC. -/
abbrev Instant := Nat

namespace Instant

abbrev second : Nat := 1000000

abbrev hourLength : Nat := 3600 * second

abbrev dayLength : Nat := 24 * hourLength

/-- The calendar day, `date()`. -/
def day (t : Instant) : Nat := t / dayLength

/-- An hour of a calendar day, `replace(hour=hour, minute=0, second=0, microsecond=0)`. -/
def hourOn (day : Nat) (hour : Fin 24) : Instant := day * dayLength + hour * hourLength

/-- `_seconds_until_hour`, in microseconds. -/
def secondsUntilHour (now : Instant) (hour : Fin 24) : Nat :=
  let target := hourOn (day now) hour
  (if target ≤ now then target + dayLength else target) - now

theorem day_le_day {t u : Instant} (h : t ≤ u) : day t ≤ day u := Nat.div_le_div_right h

end Instant

open Instant

-- One cycle

/-- What the scheduler reads at the start of a cycle. The defaults of a failed load are one
possible reading.
-/
structure SchedulerSettings where
  notificationSendHour : Fin 24 := 7
  backupHour : Fin 24 := 2
  backupEnabled : Bool := false

/-- A notification run that claimed the slot. -/
structure NotificationRun where
  /-- From the decision to run to the claim. -/
  claimedAfter : Nat
  length : Nat
  /-- Its summary counts as a success, and its outcome was stored. -/
  succeeded : Bool

/-- A backup that was made or failed. -/
structure BackupRun where
  startedAfter : Nat
  length : Nat
  /-- `_write_backup_status` stored the outcome. -/
  statusWritten : Bool

/-- What happens in one pass of the scheduler's loop. -/
structure Cycle where
  now : Instant
  /-- Webhooks, evidence transfers, retirements and maintenance, up to the sleep. -/
  work : Nat
  /-- None while a restore keeps the load out. -/
  settings : Option SchedulerSettings
  /-- How much longer than asked the sleep was. -/
  overslept : Nat
  /-- No restore keeps the notification run out. -/
  notificationsAllowed : Bool
  /-- None when another run holds the slot. -/
  notification : Option NotificationRun
  /-- No restore keeps the backup out. -/
  backupAllowed : Bool
  /-- None when the settings, read afresh, no longer enable the backup. -/
  backup : Option BackupRun

/-- A run of a daily job. -/
structure JobRun where
  day : Nat
  /-- The hour it was due at; a run that an admin asked for has none. -/
  hour : Option (Fin 24)
  startedAt : Instant
deriving DecidableEq

/-- The stored markers, with the runs that there were. -/
structure Scheduler where
  clock : Instant := 0
  lastNotificationSentDate : Option Nat := none
  lastNotificationAttemptDate : Option Nat := none
  lastBackupAt : Option Instant := none
  /-- The notification runs since their markers were last cleared, latest first. -/
  notifications : List JobRun := []
  backups : List JobRun := []
deriving DecidableEq

namespace Cycle

variable (c : Cycle) (cfg : SchedulerSettings)

/-- How long the cycle asks to sleep. -/
def waitSeconds : Nat :=
  let notifWait := secondsUntilHour c.now cfg.notificationSendHour
  let backupWait := secondsUntilHour c.now cfg.backupHour
  min (if cfg.backupEnabled then min notifWait backupWait else notifWait) (60 * second)

/-- The time after the sleep. -/
def nowAfter : Instant := c.now + c.work + c.waitSeconds cfg + c.overslept

/-- The comparison after the sleep: the target is on the day of the cycle's start. -/
def Due (hour : Fin 24) : Prop := hourOn (day c.now) hour ≤ c.nowAfter cfg

instance (hour : Fin 24) : Decidable (c.Due cfg hour) := by
  unfold Due
  infer_instance

theorem now_le_nowAfter : c.now ≤ c.nowAfter cfg :=
  Nat.le_trans (Nat.le_add_right _ _)
    (Nat.le_trans (Nat.le_add_right _ _) (Nat.le_add_right _ _))

end Cycle

namespace Scheduler

/-- `run_daily_notifications`, once the slot is claimed. -/
def runDailyNotifications (start : Instant) (run : NotificationRun) (hour : Option (Fin 24))
    (today : Nat) (s : Scheduler) : Scheduler :=
  { s with
    clock := start + run.length
    lastNotificationAttemptDate := some (day start)
    lastNotificationSentDate :=
      if run.succeeded then some (day (start + run.length)) else s.lastNotificationSentDate
    notifications := { day := today, hour := hour, startedAt := start } :: s.notifications }

/-- A marker of the notification run names the day. -/
def NotificationMarked (s : Scheduler) (today : Nat) : Prop :=
  s.lastNotificationSentDate = some today ∨ s.lastNotificationAttemptDate = some today

instance (s : Scheduler) (today : Nat) : Decidable (s.NotificationMarked today) := by
  unfold NotificationMarked
  infer_instance

/-- The marker of the backup names the day. -/
def BackupMarked (s : Scheduler) (today : Nat) : Prop := s.lastBackupAt.map day = some today

instance (s : Scheduler) (today : Nat) : Decidable (s.BackupMarked today) := by
  unfold BackupMarked
  infer_instance

/-- The notification part of a cycle. -/
def notify (c : Cycle) (cfg : SchedulerSettings) (s : Scheduler) : Scheduler :=
  let today := day (c.nowAfter cfg)
  if c.Due cfg cfg.notificationSendHour ∧ c.notificationsAllowed then
    if s.NotificationMarked today then s
    else
      match c.notification with
      | none => s
      | some run =>
          s.runDailyNotifications (c.nowAfter cfg + run.claimedAfter) run
            (some cfg.notificationSendHour) today
  else s

/-- The backup part of a cycle. -/
def backUp (c : Cycle) (cfg : SchedulerSettings) (s : Scheduler) : Scheduler :=
  let today := day (c.nowAfter cfg)
  if cfg.backupEnabled ∧ c.Due cfg cfg.backupHour ∧ c.backupAllowed then
    match c.backup with
    | none => s
    | some run =>
        if s.BackupMarked today then s
        else
          let start := s.clock + run.startedAfter
          { s with
            clock := start + run.length
            lastBackupAt := if run.statusWritten then some (start + run.length) else s.lastBackupAt
            backups :=
              { day := today, hour := some cfg.backupHour, startedAt := start } :: s.backups }
  else s

/-- What moves the clock and the markers. -/
inductive Event
  | cycle (c : Cycle)
  /-- An admin asks for a notification run. -/
  | sendNow (start : Instant) (run : NotificationRun)
  | resetPortfolio

/-- One event, at a time the clock has not passed. -/
def step (event : Event) (s : Scheduler) : Except String Scheduler :=
  match event with
  | .cycle c => do
      require (s.clock ≤ c.now) "the clock does not go back"
      match c.settings with
      | none => pure { s with clock := c.now + c.work + second }
      | some cfg => pure (backUp c cfg (notify c cfg { s with clock := c.nowAfter cfg }))
  | .sendNow start run => do
      require (s.clock ≤ start) "the clock does not go back"
      pure (s.runDailyNotifications start run none (day start))
  | .resetPortfolio =>
      .ok { s with
        lastNotificationSentDate := none
        lastNotificationAttemptDate := none
        notifications := [] }

/-- The job ran on the day. -/
def RanOn (runs : List JobRun) (day : Nat) : Prop := ∃ r ∈ runs, r.day = day

/-- Scheduled runs start at or after their hour, and each day has at most one. -/
structure Punctual (runs : List JobRun) : Prop where
  atHour : ∀ r ∈ runs, ∀ hour ∈ r.hour, hourOn r.day hour ≤ r.startedAt
  once : runs.Pairwise fun r r' => r.hour ≠ none → r'.hour ≠ none → r.day ≠ r'.day

/-- Both jobs of the day on which the cycle started have run, where it started after their hour
and they were allowed.
-/
def CaughtUp (c : Cycle) (t : Scheduler) : Prop :=
  ∀ cfg ∈ c.settings,
    (c.notificationsAllowed → hourOn (day c.now) cfg.notificationSendHour ≤ c.now →
      RanOn t.notifications (day c.now))
    ∧ (cfg.backupEnabled → c.backupAllowed → c.backup ≠ none →
      hourOn (day c.now) cfg.backupHour ≤ c.now → RanOn t.backups (day c.now))

/-- What the markers of a job say about its runs: they name days on which it ran, none of them
ahead, and no run is for a later day.
-/
structure Recorded (marked : Nat → Prop) (runs : List JobRun) (clock : Instant) : Prop where
  known : ∀ d, marked d → RanOn runs d
  covered : ∀ r ∈ runs, ∃ d, marked d ∧ r.day ≤ d
  past : ∀ d, marked d → d ≤ day clock
  punctual : Punctual runs

namespace Recorded

variable {marked marked' : Nat → Prop} {runs : List JobRun} {clock clock' : Instant}

theorem later (h : Recorded marked runs clock) (hle : clock ≤ clock')
    : Recorded marked runs clock' :=
  { h with past := fun d hd => Nat.le_trans (h.past d hd) (day_le_day hle) }

theorem run (h : Recorded marked runs clock) {r : JobRun} (hle : day clock ≤ r.day)
    (hfree : r.hour ≠ none → ¬marked r.day) (hhour : ∀ hour ∈ r.hour, hourOn r.day hour ≤ r.startedAt)
    (hmarks : ∀ d, marked' d → d = r.day ∨ marked d) (hmarked : marked' r.day)
    (hclock : r.day ≤ day clock')
    : Recorded marked' (r :: runs) clock' where
  known d hd := by
    rcases hmarks d hd with rfl | hd
    · exact ⟨r, List.mem_cons_self, rfl⟩
    · obtain ⟨r', hr', hday⟩ := h.known d hd
      exact ⟨r', List.mem_cons_of_mem _ hr', hday⟩
  covered r' hr' := by
    rcases List.mem_cons.mp hr' with rfl | hr'
    · exact ⟨r'.day, hmarked, Nat.le_refl _⟩
    · obtain ⟨d, hd, hdle⟩ := h.covered r' hr'
      exact ⟨r.day, hmarked, Nat.le_trans hdle (Nat.le_trans (h.past d hd) hle)⟩
  past d hd := by
    rcases hmarks d hd with rfl | hd
    · exact hclock
    · exact Nat.le_trans (h.past d hd) (Nat.le_trans hle hclock)
  punctual := by
    refine ⟨List.forall_mem_cons.mpr ⟨hhour, h.punctual.atHour⟩,
      List.pairwise_cons.mpr ⟨fun r' hr' hscheduled _ heq => ?_, h.punctual.once⟩⟩
    obtain ⟨d, hd, hdle⟩ := h.covered r' hr'
    have hdr : d = r.day := by
      have := h.past d hd
      omega
    exact hfree hscheduled (hdr ▸ hd)

end Recorded

-- Cycles that keep to the hour

/-- When a cycle keeps one of its jobs to the hour. Only a cycle that passes midnight can fail
this: the job of the new day is due or done when the cycle wakes, and the one of the old day is
not due when the cycle starts, or done.
-/
structure Fits (c : Cycle) (cfg : SchedulerSettings) (hour : Fin 24) (marked : Nat → Prop)
    (runs : List JobRun) : Prop where
  notEarly : c.Due cfg hour →
    hourOn (day (c.nowAfter cfg)) hour ≤ c.nowAfter cfg ∨ marked (day (c.nowAfter cfg))
  notMissed : hourOn (day c.now) hour ≤ c.now →
    day (c.nowAfter cfg) = day c.now ∨ RanOn runs (day c.now)

/-- The condition on the notification part of a cycle: it keeps to the hour, and a run that it
starts finds the slot free and writes its markers on the day of the decision.
-/
def NotificationFits (c : Cycle) (cfg : SchedulerSettings) (s : Scheduler) : Prop :=
  let today := day (c.nowAfter cfg)
  Fits c cfg cfg.notificationSendHour s.NotificationMarked s.notifications
    ∧ (c.Due cfg cfg.notificationSendHour → ¬s.NotificationMarked today →
      ∃ run, c.notification = some run
        ∧ day (c.nowAfter cfg + run.claimedAfter) = today
        ∧ (run.succeeded → day (c.nowAfter cfg + run.claimedAfter + run.length) = today))

/-- The condition on the backup part of a cycle: it keeps to the hour, and a backup that it
starts stores its outcome, on the day of the decision.
-/
def BackupFits (c : Cycle) (cfg : SchedulerSettings) (s : Scheduler) : Prop :=
  let today := day (c.nowAfter cfg)
  Fits c cfg cfg.backupHour s.BackupMarked s.backups
    ∧ (c.Due cfg cfg.backupHour → ¬s.BackupMarked today → ∀ run ∈ c.backup,
      run.statusWritten ∧ day (s.clock + run.startedAfter + run.length) = today)

/-- The condition on an event. A run that an admin asks for and that succeeds ends on the day
on which it started.
-/
def Admitted (s : Scheduler) : Event → Prop
  | .cycle c => ∀ cfg ∈ c.settings,
      let woken := { s with clock := c.nowAfter cfg }
      (c.notificationsAllowed → NotificationFits c cfg woken)
      ∧ (cfg.backupEnabled → c.backupAllowed → BackupFits c cfg (notify c cfg woken))
  | .sendNow start run => run.succeeded → day (start + run.length) = day start
  | .resetPortfolio => True

/-- The markers of both jobs record their runs. -/
structure Timely (s : Scheduler) : Prop where
  notifications : Recorded s.NotificationMarked s.notifications s.clock
  backups : Recorded s.BackupMarked s.backups s.clock

variable {s t : Scheduler} {c : Cycle} {cfg : SchedulerSettings}

theorem Timely.runDailyNotifications (hs : Timely s) {start : Instant} {run : NotificationRun}
    {hour : Option (Fin 24)} (hlater : s.clock ≤ start)
    (hfree : hour ≠ none → ¬s.NotificationMarked (day start))
    (hhour : ∀ h ∈ hour, hourOn (day start) h ≤ start)
    (hfinished : run.succeeded → day (start + run.length) = day start)
    : Timely (s.runDailyNotifications start run hour (day start)) where
  notifications := by
    refine hs.notifications.run (day_le_day hlater) hfree hhour (fun d hd => ?_) (.inr rfl)
      (day_le_day (Nat.le_add_right _ _))
    rcases hd with hsent | hattempt
    · simp only [Scheduler.runDailyNotifications] at hsent
      split at hsent
      · next hsucceeded =>
          rw [hfinished hsucceeded] at hsent
          exact .inl (Option.some.inj hsent).symm
      · exact .inr (.inl hsent)
    · exact .inl (Option.some.inj hattempt).symm
  backups := hs.backups.later (Nat.le_trans hlater (Nat.le_add_right _ _))

theorem notify_cases (hfits : c.notificationsAllowed → NotificationFits c cfg s)
    : (notify c cfg s = s
        ∧ (c.notificationsAllowed → c.Due cfg cfg.notificationSendHour →
          s.NotificationMarked (day (c.nowAfter cfg))))
      ∨ ∃ run, ¬s.NotificationMarked (day (c.nowAfter cfg))
        ∧ hourOn (day (c.nowAfter cfg)) cfg.notificationSendHour ≤ c.nowAfter cfg
        ∧ day (c.nowAfter cfg + run.claimedAfter) = day (c.nowAfter cfg)
        ∧ (run.succeeded →
          day (c.nowAfter cfg + run.claimedAfter + run.length) = day (c.nowAfter cfg))
        ∧ notify c cfg s = s.runDailyNotifications (c.nowAfter cfg + run.claimedAfter) run
            (some cfg.notificationSendHour) (day (c.nowAfter cfg)) := by
  by_cases hdue : c.Due cfg cfg.notificationSendHour ∧ c.notificationsAllowed
  · by_cases hmarked : s.NotificationMarked (day (c.nowAfter cfg))
    · exact .inl ⟨by simp only [notify, hdue, hmarked, if_true]; simp, fun _ _ => hmarked⟩
    · obtain ⟨hkeeps, hruns⟩ := hfits hdue.2
      obtain ⟨run, hrun, hclaimed, hfinished⟩ := hruns hdue.1 hmarked
      have hearly := (hkeeps.notEarly hdue.1).resolve_right hmarked
      refine .inr ⟨run, hmarked, hearly, hclaimed, hfinished, ?_⟩
      simp only [notify, if_pos hdue, if_neg hmarked, hrun]
  · exact .inl ⟨by simp only [notify, if_neg hdue], fun ha hd => absurd ⟨hd, ha⟩ hdue⟩

theorem Timely.notify (hs : Timely s) (hclock : s.clock = c.nowAfter cfg)
    (hfits : c.notificationsAllowed → NotificationFits c cfg s)
    : Timely (notify c cfg s)
      ∧ (c.notificationsAllowed → hourOn (day c.now) cfg.notificationSendHour ≤ c.now →
        RanOn (Scheduler.notify c cfg s).notifications (day c.now)) := by
  have hwoken := c.now_le_nowAfter cfg
  rcases notify_cases hfits with ⟨hsame, hmarked⟩ | ⟨run, hfree, hhour, hclaimed, hfinished, hrun⟩
  · rw [hsame]
    refine ⟨hs, fun hallowed hstarted => ?_⟩
    rcases (hfits hallowed).1.notMissed hstarted with hday | hran
    · rw [← hday]
      exact hs.notifications.known _ (hmarked hallowed (Nat.le_trans hstarted hwoken))
    · exact hran
  · rw [hrun]
    refine ⟨?_, fun hallowed hstarted => ?_⟩
    · rw [← hclaimed] at hfree hhour hfinished ⊢
      refine hs.runDailyNotifications (hclock ▸ Nat.le_add_right _ _) (fun _ => hfree) ?_ hfinished
      rintro _ ⟨⟩
      exact Nat.le_trans hhour (Nat.le_add_right _ _)
    · rcases (hfits hallowed).1.notMissed hstarted with hday | ⟨r, hr, hran⟩
      · exact ⟨_, List.mem_cons_self, hday⟩
      · exact ⟨r, List.mem_cons_of_mem _ hr, hran⟩

theorem le_clock_notify (hclock : s.clock = c.nowAfter cfg)
    : c.nowAfter cfg ≤ (notify c cfg s).clock := by
  simp only [notify]
  split
  · split
    · exact Nat.le_of_eq hclock.symm
    · split
      · exact Nat.le_of_eq hclock.symm
      · exact Nat.le_trans (Nat.le_add_right _ _) (Nat.le_add_right _ _)
  · exact Nat.le_of_eq hclock.symm

theorem backUp_cases (hfits : cfg.backupEnabled → c.backupAllowed → BackupFits c cfg s)
    : (backUp c cfg s = s
        ∧ (cfg.backupEnabled → c.backupAllowed → c.backup ≠ none → c.Due cfg cfg.backupHour →
          s.BackupMarked (day (c.nowAfter cfg))))
      ∨ ∃ run : BackupRun, ¬s.BackupMarked (day (c.nowAfter cfg))
        ∧ hourOn (day (c.nowAfter cfg)) cfg.backupHour ≤ c.nowAfter cfg
        ∧ day (s.clock + run.startedAfter + run.length) = day (c.nowAfter cfg)
        ∧ backUp c cfg s = { s with
            clock := s.clock + run.startedAfter + run.length
            lastBackupAt := some (s.clock + run.startedAfter + run.length)
            backups :=
              { day := day (c.nowAfter cfg), hour := some cfg.backupHour,
                startedAt := s.clock + run.startedAfter } :: s.backups } := by
  by_cases hdue : cfg.backupEnabled ∧ c.Due cfg cfg.backupHour ∧ c.backupAllowed
  · cases hrun : c.backup with
    | none => exact .inl ⟨by simp only [backUp, if_pos hdue, hrun], fun _ _ h => absurd rfl h⟩
    | some run =>
        by_cases hmarked : s.BackupMarked (day (c.nowAfter cfg))
        · exact .inl ⟨by simp only [backUp, if_pos hdue, hrun, if_pos hmarked],
            fun _ _ _ _ => hmarked⟩
        · obtain ⟨hkeeps, hruns⟩ := hfits hdue.1 hdue.2.2
          obtain ⟨hwritten, hfinished⟩ := hruns hdue.2.1 hmarked run hrun
          have hearly := (hkeeps.notEarly hdue.2.1).resolve_right hmarked
          refine .inr ⟨run, hmarked, hearly, hfinished, ?_⟩
          simp only [backUp, if_pos hdue, hrun, if_neg hmarked, hwritten, if_true]
  · exact .inl ⟨by simp only [backUp, if_neg hdue], fun he ha _ hd => absurd ⟨he, hd, ha⟩ hdue⟩

theorem Timely.backUp (hs : Timely s) (hclock : c.nowAfter cfg ≤ s.clock)
    (hfits : cfg.backupEnabled → c.backupAllowed → BackupFits c cfg s)
    : Timely (backUp c cfg s)
      ∧ (Scheduler.backUp c cfg s).notifications = s.notifications
      ∧ (cfg.backupEnabled → c.backupAllowed → c.backup ≠ none →
        hourOn (day c.now) cfg.backupHour ≤ c.now →
          RanOn (Scheduler.backUp c cfg s).backups (day c.now)) := by
  have hwoken := c.now_le_nowAfter cfg
  rcases backUp_cases hfits with ⟨hsame, hmarked⟩ | ⟨run, hfree, hhour, hfinished, hrun⟩
  · rw [hsame]
    refine ⟨hs, rfl, fun henabled hallowed hready hstarted => ?_⟩
    rcases (hfits henabled hallowed).1.notMissed hstarted with hday | hran
    · rw [← hday]
      exact hs.backups.known _
        (hmarked henabled hallowed hready (Nat.le_trans hstarted hwoken))
    · exact hran
  · have hlater : s.clock ≤ s.clock + run.startedAfter + run.length :=
      Nat.le_trans (Nat.le_add_right _ _) (Nat.le_add_right _ _)
    rw [hrun]
    refine ⟨⟨hs.notifications.later hlater, ?_⟩, rfl, fun henabled hallowed _ hstarted => ?_⟩
    · refine hs.backups.run (hfinished ▸ day_le_day hlater) (fun _ => hfree) ?_ (fun d hd => ?_)
        (congrArg some hfinished) (Nat.le_of_eq hfinished.symm)
      · rintro _ ⟨⟩
        exact Nat.le_trans hhour (Nat.le_trans hclock (Nat.le_add_right _ _))
      · exact .inl ((Option.some.inj hd).symm.trans hfinished)
    · rcases (hfits henabled hallowed).1.notMissed hstarted with hday | ⟨r, hr, hran⟩
      · exact ⟨_, List.mem_cons_self, hday⟩
      · exact ⟨r, List.mem_cons_of_mem _ hr, hran⟩

-- Runs of the scheduler

theorem Timely.cycle (hs : Timely s) (hadmitted : Admitted s (.cycle c))
    (h : step (.cycle c) s = .ok t)
    : Timely t ∧ CaughtUp c t := by
  cases hsettings : c.settings with
  | none =>
      simp only [step, hsettings, bind_eq_ok, require_eq_ok, pure_eq_ok] at h
      obtain ⟨_, hlater, rfl⟩ := h
      have hclock : s.clock ≤ c.now + c.work + second :=
        Nat.le_trans hlater (Nat.le_trans (Nat.le_add_right _ _) (Nat.le_add_right _ _))
      refine ⟨⟨hs.notifications.later hclock, hs.backups.later hclock⟩, fun cfg hcfg => ?_⟩
      simp [hsettings] at hcfg
  | some cfg =>
      simp only [step, hsettings, bind_eq_ok, require_eq_ok, pure_eq_ok] at h
      obtain ⟨_, hlater, rfl⟩ := h
      obtain ⟨hnotification, hbackup⟩ := hadmitted cfg hsettings
      have hclock := Nat.le_trans hlater (c.now_le_nowAfter cfg)
      have hwoken : Timely { s with clock := c.nowAfter cfg } :=
        ⟨hs.notifications.later hclock, hs.backups.later hclock⟩
      obtain ⟨hnotified, hcaught⟩ := hwoken.notify rfl hnotification
      obtain ⟨hbacked, hsame, hcaught'⟩ := hnotified.backUp (le_clock_notify rfl) hbackup
      refine ⟨hbacked, fun cfg' hcfg' => ?_⟩
      obtain rfl : cfg = cfg' := Option.some.inj (hsettings.symm.trans hcfg')
      exact ⟨hsame ▸ hcaught, hcaught'⟩

theorem Timely.step (hs : Timely s) {event : Event} (hadmitted : Admitted s event)
    (h : step event s = .ok t)
    : Timely t := by
  cases event with
  | cycle c => exact (hs.cycle hadmitted h).1
  | sendNow start run =>
      simp only [Scheduler.step, bind_eq_ok, require_eq_ok, pure_eq_ok] at h
      obtain ⟨_, hlater, rfl⟩ := h
      exact hs.runDailyNotifications hlater (fun hn => absurd rfl hn) (fun _ hh => by cases hh)
        hadmitted
  | resetPortfolio =>
      obtain rfl := Except.ok.inj h
      refine ⟨⟨fun d hd => ?_, by simp, fun d hd => ?_, ⟨by simp, .nil⟩⟩, hs.backups⟩
      · simp [NotificationMarked] at hd
      · simp [NotificationMarked] at hd

theorem Timely.init : Timely {} :=
  ⟨⟨fun _ hd => by simp [NotificationMarked] at hd, by simp,
      fun _ hd => by simp [NotificationMarked] at hd, ⟨by simp, .nil⟩⟩,
    ⟨fun _ hd => by simp [BackupMarked] at hd, by simp,
      fun _ hd => by simp [BackupMarked] at hd, ⟨by simp, .nil⟩⟩⟩

/-- In a run whose events all fit, both jobs are punctual, and each cycle leaves the jobs of
the day on which it started done.
-/
theorem jobs_atTheirHour {s : Scheduler} (h : Reachable step Admitted {} s)
    : Punctual s.notifications ∧ Punctual s.backups
      ∧ ∀ c t, Admitted s (.cycle c) → step (.cycle c) s = .ok t → CaughtUp c t := by
  have hs : Timely s := h.invariant Timely.init fun _ _ _ hs hadmitted hstep =>
    hs.step hadmitted hstep
  exact ⟨hs.notifications.punctual, hs.backups.punctual, fun c t hadmitted hstep =>
    (hs.cycle hadmitted hstep).2⟩

/-- A cycle with the default settings that sends for a second as soon as it wakes. -/
def plainCycle (now : Instant) : Cycle where
  now := now
  work := 0
  settings := some {}
  overslept := 0
  notificationsAllowed := true
  notification := some { claimedAfter := 0, length := second, succeeded := true }
  backupAllowed := true
  backup := none

/-- The first cycle after half past seven sends for its day. -/
theorem jobs_atTheirHour_morning
    : ∃ s, runAll step [.cycle (plainCycle (hourOn 1 7 + 1800 * second))] {} = some s
      ∧ RanOn s.notifications 1 ∧ Punctual s.notifications := by
  obtain ⟨s, hs⟩ : ∃ s, runAll step [.cycle (plainCycle (hourOn 1 7 + 1800 * second))] {} = some s :=
    Option.isSome_iff_exists.mp (by decide)
  have hadmitted : ∀ u : Scheduler, ∀ event ∈ [Event.cycle (plainCycle (hourOn 1 7 + 1800 * second))],
      Admitted u event := by
    intro u event hevent
    obtain rfl := List.mem_singleton.mp hevent
    intro cfg hcfg
    obtain rfl : SchedulerSettings.mk 7 2 false = cfg := Option.some.inj hcfg
    refine ⟨fun _ => ⟨⟨fun _ => .inl (by decide), fun _ => .inl (by decide)⟩, fun _ _ =>
      ⟨_, rfl, by decide, fun _ => by decide⟩⟩, fun h => absurd h (by decide)⟩
  have hran : (runAll step [.cycle (plainCycle (hourOn 1 7 + 1800 * second))] {}).map
      (·.notifications.map (·.day)) = some [1] := by decide
  rw [hs, Option.map_some, Option.some.injEq] at hran
  have hreached : Reachable step Admitted {} s := .of_runAll .start hadmitted hs
  obtain ⟨r, hr, hr1⟩ : ∃ r ∈ s.notifications, r.day = 1 :=
    List.mem_map.mp (hran ▸ List.mem_singleton_self 1)
  exact ⟨s, hs, ⟨r, hr, hr1⟩, (jobs_atTheirHour hreached).1⟩

/-- A cycle that starts half a minute before midnight sends for the new day at once, almost
seven hours before its hour.
-/
theorem jobs_early_afterMidnight
    : ¬∀ s, Reachable step (fun _ _ => True) {} s →
        Punctual s.notifications ∧ Punctual s.backups
          ∧ ∀ c t, step (.cycle c) s = .ok t → CaughtUp c t := by
  intro hclaim
  obtain ⟨s, hs⟩ : ∃ s, runAll step [.cycle (plainCycle (hourOn 0 23 + 3570 * second))] {} = some s :=
    Option.isSome_iff_exists.mp (by decide)
  have hran : (runAll step [.cycle (plainCycle (hourOn 0 23 + 3570 * second))] {}).map
      (·.notifications) = some [⟨1, some 7, hourOn 1 0 + 30 * second⟩] := by decide
  rw [hs, Option.map_some, Option.some.injEq] at hran
  have hpunctual := (hclaim s (.of_runAll .start (fun _ _ _ => trivial) hs)).1.atHour
  rw [hran] at hpunctual
  exact absurd (hpunctual _ (List.mem_singleton_self _) 7 rfl) (by decide)

end Scheduler

end LicenseTrack
