import LicenseTrack.Library.Runs
import LicenseTrack.Model.Text
import Mathlib.Logic.Function.Basic

/-! Notification runs: each claims the run slot of the settings row, refreshes its claim before
every message, and stores its outcome as it gives the slot back. The runs take turns between the
statements of the database, the messages and the readings of the clock.
-/

namespace LicenseTrack

open Library

namespace Notification

/-- The states of a run that its summary names. -/
inductive Status
  | noWork
  | success
  | someDelivered
  | blocked
  | failed
  | skipped
deriving DecidableEq

/-- To whom a message or a blocked delivery goes. -/
inductive Role
  | budgetOwner
  | secondaryContact
  | manager
  | configuration
  | run
deriving DecidableEq

/-- `_blocked_delivery`. The reason is always the domain. -/
structure BlockedDelivery where
  recipient : String
  role : Role
deriving DecidableEq

/-- What `_delivery_error` returns. -/
structure DeliveryError where
  recipient : Option String
  role : Role
  message : String
deriving DecidableEq

/-- What `_notification_summary` returns, with the status entered later, and the reason of a skipped
run.
-/
structure Summary where
  status : Status := .failed
  reason : Option String := none
  budgetOwnerEmailsSent : Nat := 0
  digestSent : Bool := false
  totalNotifications : Nat := 0
  intendedMessages : Nat := 0
  errors : List DeliveryError := []
  blocked : List BlockedDelivery := []
  blockedOwnerCount : Nat := 0
  blockedSecondaryContactCount : Nat := 0
  blockedManagerCount : Nat := 0
deriving DecidableEq

/-- `_persistable_summary`. -/
structure PersistedSummary where
  status : Status
  totalNotifications : Nat
  intendedMessages : Nat
  budgetOwnerEmailsSent : Nat
  digestSent : Bool
  blockedOwnerCount : Nat
  blockedSecondaryContactCount : Nat
  blockedManagerCount : Nat
  blocked : List BlockedDelivery
  errorCount : Nat
deriving DecidableEq

/-- `_persistable_summary`. -/
def Summary.persistable (summary : Summary) : PersistedSummary where
  status := summary.status
  totalNotifications := summary.totalNotifications
  intendedMessages := summary.intendedMessages
  budgetOwnerEmailsSent := summary.budgetOwnerEmailsSent
  digestSent := summary.digestSent
  blockedOwnerCount := summary.blockedOwnerCount
  blockedSecondaryContactCount := summary.blockedSecondaryContactCount
  blockedManagerCount := summary.blockedManagerCount
  blocked := summary.blocked.take 100
  errorCount := summary.errors.length

/-- `notification_run_succeeded`, for summaries with a status. -/
def Summary.succeeded (summary : Summary) : Bool :=
  summary.status == .success || summary.status == .noWork

/-- What the settings keep of the last outcome of a run. -/
structure Outcome where
  lastNotificationStatus : Option Status
  lastNotificationAt : Option Nat
  lastNotificationSummary : Option PersistedSummary
  lastNotificationSentDate : Option Nat
deriving DecidableEq

/-- The columns of the settings row that runs write. Times are in microseconds, dates in days, and
a token is the number of the run that drew it, since no other run draws the same.
-/
structure Settings where
  notificationRunToken : Option Nat
  notificationRunStartedAt : Option Nat
  lastNotificationAttemptDate : Option Nat
  outcome : Outcome
deriving DecidableEq

/-- `_RUN_LOCK_STALE_AFTER`. -/
def runLockStaleAfter : Nat := 15 * 60 * 1000000

/-- `datetime.date()`. -/
def dateOf (now : Nat) : Nat := now / (24 * 60 * 60 * 1000000)

/-- Whether the row is claimed by the `UPDATE` of `_claim_notification_run`. -/
def Settings.claimable (settings : Settings) (now : Nat) : Bool :=
  settings.notificationRunToken.isNone
    || settings.notificationRunStartedAt.all (fun startedAt => startedAt + runLockStaleAfter < now)

/-- `_claim_notification_run`. -/
def Settings.claim (settings : Settings) (token now : Nat) : Settings :=
  { settings with
    notificationRunToken := some token
    notificationRunStartedAt := some now
    lastNotificationAttemptDate := some (dateOf now) }

/-- `_refresh_notification_run`. -/
def Settings.refresh (settings : Settings) (now : Nat) : Settings :=
  { settings with notificationRunStartedAt := some now }

/-- `_finalize_notification_run`. -/
def Settings.finalize (settings : Settings) (summary : Summary) (now : Nat) : Settings :=
  { settings with
    notificationRunToken := none
    notificationRunStartedAt := none
    outcome :=
      {
        lastNotificationStatus := some summary.status
        lastNotificationAt := some now
        lastNotificationSummary := some summary.persistable
        lastNotificationSentDate :=
          if summary.succeeded then some (dateOf now)
          else settings.outcome.lastNotificationSentDate
      } }

-- Delivery

/-- A licence of a message, as far as its recipients depend on it. -/
structure LicenseEntry where
  secondaryContacts : List (Option String)

/-- What `_classify_notifications` returns: the licences of each budget owner, and the type of
every notification.
-/
structure Classified where
  expiringByOwner : List (String × List LicenseEntry)
  allNotifications : List String

/-- The settings that a delivery reads, with `is_email_domain_allowed` for the configured
domains.
-/
structure Config where
  smtpHost : String
  emailEnabled : Bool
  managerEmail : Option String
  isEmailDomainAllowed : String → Bool

/-- `gs.manager_email`, nothing where it is empty. -/
def Config.manager (config : Config) : Option String :=
  config.managerEmail.filter (fun email => email != "")

/-- `MANAGER_DIGEST_ALERT_TYPES`. -/
def managerDigestAlertTypes : List String :=
  ["expired", "expiring", "notice_due", "incomplete", "support_expiring", "support_expired"]

/-- `has_manager_notifications`. -/
def Classified.hasManagerNotifications (classified : Classified) : Bool :=
  classified.allNotifications.any managerDigestAlertTypes.contains

/-- The contacts that no recipient so far is, case folded, each once. -/
def newContacts (u : Unicode) : List (Option String) → List String → List String
  | [], _ => []
  | contact :: rest, seen =>
      let normalized := strip (contact.getD "")
      if normalized = "" ∨ u.casefold normalized ∈ seen then newContacts u rest seen
      else normalized :: newContacts u rest (u.casefold normalized :: seen)

/-- `_budget_owner_cc_candidates`. -/
def budgetOwnerCcCandidates (u : Unicode) (ownerEmail : String) (licenses : List LicenseEntry)
    (managerEmail : Option String) : List (Role × String) :=
  let contacts := newContacts u (licenses.flatMap (·.secondaryContacts)) [u.casefold ownerEmail]
  let seen := u.casefold ownerEmail :: contacts.map u.casefold
  let manager := strip (managerEmail.getD "")
  contacts.map (fun contact => (.secondaryContact, contact))
    ++ if manager = "" ∨ u.casefold manager ∈ seen then [] else [(.manager, manager)]

/-- The text of an exception on one line. -/
def oneLine (detail : String) : String :=
  strip (String.ofList (detail.toList.map fun c => if c = '\r' ∨ c = '\n' then ' ' else c))

/-- `_delivery_error`. -/
def deliveryError (recipient : Option String) (role : Role) (detail : String) : DeliveryError where
  recipient := recipient
  role := role
  message :=
    if oneLine detail = "" then "Delivery failed"
    else String.ofList ((oneLine detail).toList.take 300)

/-- `_status_for_summary`. -/
def Summary.statusFor (summary : Summary) : Status :=
  let delivered := summary.budgetOwnerEmailsSent + summary.digestSent.toNat
  let hasBlocked := !summary.blocked.isEmpty
  let hasErrors := !summary.errors.isEmpty
  if summary.totalNotifications = 0 then .noWork
  else if summary.intendedMessages = 0 then .failed
  else if !hasBlocked && !hasErrors && delivered == summary.intendedMessages then .success
  else if delivered ≠ 0 then .someDelivered
  else if hasBlocked && !hasErrors then .blocked
  else .failed

/-- A message that a delivery comes to. -/
inductive Message
  | budgetOwner (ownerEmail : String) (licenses : List LicenseEntry)
  | digest (managerEmail : String)

/-- A delivery: what it read, the messages it has still to come to, and its summary. -/
structure Delivery where
  config : Config
  classified : Classified
  remaining : List Message
  summary : Summary

/-- `_deliver_notifications`, up to its loop. -/
def Delivery.start (config : Config) (classified : Classified) : Delivery where
  config := config
  classified := classified
  remaining :=
    classified.expiringByOwner.map (fun owner => .budgetOwner owner.1 owner.2)
      ++ if classified.hasManagerNotifications then config.manager.toList.map .digest else []
  summary :=
    {
      totalNotifications := classified.allNotifications.length
      intendedMessages := classified.expiringByOwner.length
    }

/-- The recipients of a budget owner's message that are blocked, counted. -/
def Summary.block (summary : Summary) (config : Config) (ownerEmail : String)
    (candidates : List (Role × String)) : Summary :=
  let blocked := candidates.filter (fun candidate => !config.isEmailDomainAllowed candidate.2)
  let ownerAllowed := config.isEmailDomainAllowed ownerEmail
  { summary with
    blocked := summary.blocked ++ (if ownerAllowed then [] else [⟨ownerEmail, .budgetOwner⟩])
      ++ blocked.map (fun candidate => ⟨candidate.2, candidate.1⟩)
    blockedOwnerCount := summary.blockedOwnerCount + (!ownerAllowed).toNat
    blockedSecondaryContactCount := summary.blockedSecondaryContactCount
      + blocked.countP (fun candidate => candidate.1 == .secondaryContact)
    blockedManagerCount := summary.blockedManagerCount
      + blocked.countP (fun candidate => candidate.1 != .secondaryContact) }

/-- The summary after a message was sent or its sending failed. -/
def Summary.record (summary : Summary) (role : Role) (recipient : String) (error : Option String)
    : Summary :=
  match error with
  | some detail =>
      { summary with errors := summary.errors ++ [deliveryError (some recipient) role detail] }
  | none =>
      match role with
      | .manager => { summary with digestSent := true }
      | _ => { summary with budgetOwnerEmailsSent := summary.budgetOwnerEmailsSent + 1 }

/-- The end of `_deliver_notifications`. -/
def Delivery.complete (d : Delivery) : Summary :=
  let summary :=
    if d.classified.hasManagerNotifications && d.config.manager.isNone then
      { d.summary with
        errors := d.summary.errors
          ++ [deliveryError none .manager "Manager digest recipient is not configured"] }
    else d.summary
  let summary :=
    if summary.totalNotifications > 0 ∧ summary.intendedMessages = 0 ∧ summary.errors = [] then
      { summary with
        errors := [deliveryError none .configuration "No notification recipients are configured"] }
    else summary
  { summary with status := summary.statusFor }

/-- The summary of a delivery that an exception ended. -/
def interrupted (detail : String) : Summary :=
  { status := .failed, errors := [deliveryError none .run detail] }

-- Runs

/-- How a run ended. -/
inductive Ending
  | settingsNotConfigured
  | conflict
  | stored (summary : Summary)
  | superseded (summary : Summary)
  | raised (detail : String)
  | unstored (summary : Summary)
  | crashed

/-- Where `run_daily_notifications` is. -/
inductive Run
  | notStarted
  | claiming
  | claimAt (now : Nat)
  | claimed
  | classifying (config : Config)
  | refreshing (d : Delivery)
  | refreshAt (d : Delivery) (now : Nat)
  | sending (d : Delivery) (role : Role) (recipient : String) (cc : List String)
  | finalizing (summary : Summary)
  | storeAt (summary : Summary) (now : Nat)
  | ended (ending : Ending)

/-- The next message of a delivery, or its end. -/
def Delivery.loop (d : Delivery) : Run :=
  match d.remaining with
  | [] => .finalizing d.complete
  | _ :: _ => .refreshing d

/-- What follows the refreshed claim for a message. -/
def Delivery.address (u : Unicode) (d : Delivery) : Run :=
  match d.remaining with
  | [] => d.loop
  | .budgetOwner ownerEmail licenses :: rest =>
      let candidates := budgetOwnerCcCandidates u ownerEmail licenses d.config.managerEmail
      let d :=
        { d with remaining := rest, summary := d.summary.block d.config ownerEmail candidates }
      if d.config.isEmailDomainAllowed ownerEmail then
        .sending d .budgetOwner ownerEmail
          ((candidates.filter (fun candidate => d.config.isEmailDomainAllowed candidate.2)).map
            Prod.snd)
      else d.loop
  | .digest managerEmail :: rest =>
      let summary := { d.summary with intendedMessages := d.summary.intendedMessages + 1 }
      if d.config.isEmailDomainAllowed managerEmail then
        .sending { d with remaining := rest, summary := summary } .manager managerEmail []
      else
        Delivery.loop
          { d with
            remaining := rest
            summary :=
              { summary with
                blocked := summary.blocked ++ [⟨managerEmail, .manager⟩]
                blockedManagerCount := summary.blockedManagerCount + 1 } }

/-- What a run does with the configuration it reads after its claim. -/
def configured (config : Config) : Run :=
  if config.smtpHost = "" then
    .finalizing { status := .skipped, reason := some "smtp_not_configured" }
  else if config.emailEnabled = false then
    .finalizing { status := .skipped, reason := some "email_disabled" }
  else .classifying config

/-- What happens in the installation: claims, refreshes with the token they found, messages and
stored outcomes.
-/
inductive Event
  | claimed (run : Nat)
  | refreshed (run : Nat) (holder : Option Nat)
  | sent (run : Nat) (recipient : String) (cc : List String)
  | stored (run : Nat)

/-- The run of an event. -/
def Event.run : Event → Nat
  | .claimed run | .refreshed run _ | .sent run _ _ | .stored run => run

/-- The clock, the settings row, the runs by number and the events, the latest first. -/
structure System where
  clock : Nat
  settings : Option Settings
  runs : Nat → Run
  log : List Event

/-- The token of the settings row. -/
def System.token (s : System) : Option Nat := s.settings.bind (·.notificationRunToken)

/-- The outcome that the settings row keeps. -/
def System.outcome (s : System) : Option Outcome := s.settings.map (·.outcome)

/-- The system with one run gone on. -/
def System.goOn (s : System) (i : Nat) (run : Run) : System :=
  { s with runs := Function.update s.runs i run }

/-- A turn: the clock advances, a run takes its next step with what it reads or receives there, the
statement or the function it executes raises an exception, or its process ends.
-/
inductive Turn
  | tick (elapsed : Nat)
  | start (run : Nat)
  | readClock (run : Nat)
  | execute (run : Nat)
  | reload (run : Nat) (config : Config)
  | classify (run : Nat) (classified : Classified)
  | send (run : Nat) (error : Option String)
  | throw (run : Nat) (detail : String)
  | crash (run : Nat)

/-- The `UPDATE` a run executes with its commit, one transaction each. -/
def System.execute (u : Unicode) (s : System) (i : Nat) : Except PUnit.{1} System :=
  match s.runs i with
  | .claimAt now =>
      match s.settings.filter (fun settings => settings.claimable now) with
      | some settings =>
          .ok
            { s.goOn i .claimed with
              settings := some (settings.claim i now)
              log := .claimed i :: s.log }
      | none => .ok (s.goOn i (.ended .conflict))
  | .refreshAt d now =>
      let log := .refreshed i s.token :: s.log
      if s.token = some i then
        .ok
          { s.goOn i (d.address u) with
            settings := s.settings.map (fun settings => settings.refresh now)
            log := log }
      else
        .ok
          { s.goOn i (.finalizing (interrupted "Notification run lease ownership was lost")) with
            log := log }
  | .storeAt summary now =>
      if s.token = some i then
        .ok
          { s.goOn i (.ended (.stored summary)) with
            settings := s.settings.map (fun settings => settings.finalize summary now)
            log := .stored i :: s.log }
      else .ok (s.goOn i (.ended (.superseded summary)))
  | _ => .error ⟨⟩

/-- Where an exception takes a run: a delivery catches it and goes on to its end. -/
def Run.thrown (detail : String) : Run → Run
  | .notStarted => .notStarted
  | .claiming | .claimAt _ | .claimed => .ended (.raised detail)
  | .classifying _ | .refreshing _ | .refreshAt _ _ | .sending _ _ _ _ =>
      .finalizing (interrupted detail)
  | .finalizing summary | .storeAt summary _ => .ended (.unstored summary)
  | .ended ending => .ended ending

/-- The system after a turn; an error stands for a turn that is not the run's next. -/
def step (u : Unicode) (turn : Turn) (s : System) : Except PUnit.{1} System :=
  match turn with
  | .tick elapsed => .ok { s with clock := s.clock + elapsed }
  | .start i =>
      match s.runs i with
      | .notStarted =>
          if s.settings.isNone then .ok (s.goOn i (.ended .settingsNotConfigured))
          else .ok (s.goOn i .claiming)
      | _ => .error ⟨⟩
  | .readClock i =>
      match s.runs i with
      | .claiming => .ok (s.goOn i (.claimAt s.clock))
      | .refreshing d => .ok (s.goOn i (.refreshAt d s.clock))
      | .finalizing summary => .ok (s.goOn i (.storeAt summary s.clock))
      | _ => .error ⟨⟩
  | .execute i => s.execute u i
  | .reload i config =>
      match s.runs i with
      | .claimed => .ok (s.goOn i (configured config))
      | _ => .error ⟨⟩
  | .classify i classified =>
      match s.runs i with
      | .classifying config => .ok (s.goOn i (Delivery.start config classified).loop)
      | _ => .error ⟨⟩
  | .send i error =>
      match s.runs i with
      | .sending d role recipient cc =>
          let d := { d with summary := d.summary.record role recipient error }
          .ok { s.goOn i d.loop with log := .sent i recipient cc :: s.log }
      | _ => .error ⟨⟩
  | .throw i detail =>
      match s.runs i with
      | .notStarted | .ended _ => .error ⟨⟩
      | run => .ok (s.goOn i (run.thrown detail))
  | .crash i =>
      match s.runs i with
      | .notStarted | .ended _ => .error ⟨⟩
      | _ => .ok (s.goOn i (.ended .crashed))

end Notification

end LicenseTrack
