import LicenseTrack.Library.Runs
import LicenseTrack.Library.Table
import Mathlib.Data.List.Sort
import Mathlib.Logic.Function.Basic

/-! Webhook dispatchers: each reads the clock once, selects the deliveries that are due, and for one
after the other claims it, posts it without a transaction and stores the outcome. The dispatchers
take turns between their transactions, the posts and the passing of time.
-/

namespace LicenseTrack

open Library

namespace Webhooks

/-- The states of a delivery. -/
inductive DeliveryStatus
  | pending
  | processing
  | succeeded
  | failed
deriving DecidableEq

/-- A row of `webhook_deliveries`. Times are in microseconds, and a token is the number of the
dispatcher that drew it: it draws another one for each delivery, and claims none twice.
-/
structure WebhookDelivery where
  endpointId : Nat
  eventType : String
  payload : String
  status : DeliveryStatus := .pending
  attempts : Nat := 0
  claimToken : Option Nat := none
  claimedAt : Option Nat := none
  nextAttemptAt : Option Nat := none
  responseStatus : Option Nat := none
  responseBody : Option String := none
  error : Option String := none
  createdAt : Nat
  deliveredAt : Option Nat := none
deriving DecidableEq

/-- What a dispatcher reads and writes of a row of `webhook_endpoints`. -/
structure WebhookEndpoint where
  url : String
  secret : String
  isActive : Bool
  lastSuccessAt : Option Nat := none
  lastFailureAt : Option Nat := none
deriving DecidableEq

/-- `MAX_WEBHOOK_ATTEMPTS`. -/
def maxWebhookAttempts : Nat := 5

/-- The microseconds of a minute. -/
def minute : Nat := 60 * 1000000

/-- `WEBHOOK_CLAIM_TIMEOUT`. -/
def webhookClaimTimeout : Nat := 5 * minute

/-- Whether a delivery is eligible, for the clock as the dispatcher read it at its start. -/
def WebhookDelivery.eligible (row : WebhookDelivery) (now : Nat) : Bool :=
  (row.status == .pending && row.nextAttemptAt.all (· ≤ now))
    || (row.status == .processing && row.claimedAt.all (· + webhookClaimTimeout ≤ now))

/-- The claim of a delivery. -/
def WebhookDelivery.claim (row : WebhookDelivery) (token now : Nat) : WebhookDelivery :=
  { row with status := .processing, claimToken := some token, claimedAt := some now }

/-- What a post comes to: a response, or an exception with its text. -/
inductive PostResult
  | responded (statusCode : Nat) (body : String)
  | raised (detail : String)
deriving DecidableEq

/-- The failure of a post, none for a response of success. -/
def PostResult.failure : PostResult → Option String
  | .responded statusCode _ =>
      if 200 ≤ statusCode ∧ statusCode < 300 then none else some s!"HTTP {statusCode}"
  | .raised detail => some (String.ofList (detail.toList.take 2000))

/-- The error of a delivery whose endpoint is gone or switched off. -/
def inactiveEndpoint : String := "Webhook endpoint is inactive or missing"

/-- The row once its post was successful. -/
def WebhookDelivery.succeed (row : WebhookDelivery) (result : PostResult) (now : Nat)
    : WebhookDelivery :=
  { row with
    attempts := row.attempts + 1
    claimToken := none
    claimedAt := none
    responseStatus :=
      match result with
      | .responded statusCode _ => some statusCode
      | .raised _ => none
    responseBody :=
      match result with
      | .responded _ body => some (String.ofList (body.toList.take 2000))
      | .raised _ => none
    error := none
    status := .succeeded
    deliveredAt := some now
    nextAttemptAt := none }

/-- The row once its post has failed. -/
def WebhookDelivery.fail (row : WebhookDelivery) (failure : String) (now : Nat)
    : WebhookDelivery :=
  let attempts := row.attempts + 1
  let row :=
    { row with attempts := attempts, claimToken := none, claimedAt := none, error := some failure }
  if attempts ≥ maxWebhookAttempts ∨ failure = inactiveEndpoint then
    { row with status := .failed, nextAttemptAt := none }
  else { row with status := .pending, nextAttemptAt := some (now + attempts * (5 * minute)) }

/-- The row with the outcome of its post. -/
def WebhookDelivery.finalize (row : WebhookDelivery) (result : PostResult) (now : Nat)
    : WebhookDelivery :=
  match result.failure with
  | none => row.succeed result now
  | some failure => row.fail failure now

-- Dispatchers

/-- The rest of a dispatch: the clock it read at its start, the selected deliveries it has still to
come to, and how many it has delivered.
-/
structure Batch where
  now : Nat
  remaining : List Nat
  deliveredCount : Nat
deriving DecidableEq

/-- Where `dispatch_pending_webhooks` is. -/
inductive Dispatcher
  | notStarted
  | selecting (now limit : Nat)
  | claiming (delivery : Nat) (batch : Batch)
  | loading (delivery : Nat) (batch : Batch)
  | posting (delivery : Nat) (url secret eventType payload : String) (batch : Batch)
  | finalizing (delivery : Nat) (result : PostResult) (batch : Batch)
  | ended (deliveredCount : Nat)
  | crashed
deriving DecidableEq

/-- The next delivery of a dispatch, or its end. -/
def Batch.loop (batch : Batch) : Dispatcher :=
  match batch.remaining with
  | [] => .ended batch.deliveredCount
  | delivery :: rest => .claiming delivery { batch with remaining := rest }

/-- What happened: a delivery was claimed or posted, with the clock at that moment. -/
inductive Event
  | claimed (dispatcher delivery clock : Nat)
  | posted (dispatcher delivery clock : Nat)
deriving DecidableEq

/-- The clock, the tables, the dispatchers by number and the events, the latest first. -/
structure System where
  clock : Nat
  deliveries : Table WebhookDelivery
  endpoints : Nat → Option WebhookEndpoint
  dispatchers : Nat → Dispatcher
  log : List Event

/-- A turn: time passes, a delivery is enqueued, an endpoint is written, or a dispatcher takes its
next step or dies.
-/
inductive Turn
  | tick (elapsed : Nat)
  | enqueue (endpointId : Nat) (eventType payload : String)
  | configure (endpointId : Nat) (endpoint : Option WebhookEndpoint)
  | start (dispatcher limit : Nat)
  | select (dispatcher : Nat)
  | claim (dispatcher : Nat)
  | load (dispatcher : Nat)
  | post (dispatcher : Nat) (result : PostResult)
  | finalize (dispatcher : Nat)
  | crash (dispatcher : Nat)

namespace System

/-- The system with one dispatcher gone on. -/
def goOn (s : System) (i : Nat) (dispatcher : Dispatcher) : System :=
  { s with dispatchers := Function.update s.dispatchers i dispatcher }

/-- The system with one row of the deliveries rewritten. -/
def write (s : System) (delivery : Nat) (f : WebhookDelivery → WebhookDelivery) : System :=
  { s with deliveries := s.deliveries.modify delivery f }

/-- The deliveries that are due, the oldest first. -/
def selectDue (s : System) (now limit : Nat) : List Nat :=
  (((s.deliveries.filter fun _ row => row.eligible now).entries.insertionSort
    fun a b => a.2.createdAt < b.2.createdAt ∨ (a.2.createdAt = b.2.createdAt ∧ a.1 ≤ b.1)).map
      Prod.fst).take limit

/-- The `UPDATE` of a claim, with its commit. -/
def claim (s : System) (i delivery : Nat) (batch : Batch) : System :=
  match (s.deliveries.get? delivery).filter (·.eligible batch.now) with
  | some _ =>
      { (s.write delivery (·.claim i batch.now)).goOn i (.loading delivery batch) with
        log := .claimed i delivery s.clock :: s.log }
  | none => s.goOn i batch.loop

/-- The snapshot of a claimed delivery and its endpoint. -/
def load (s : System) (i delivery : Nat) (batch : Batch) : System :=
  match (s.deliveries.get? delivery).filter (·.claimToken == some i) with
  | none => s.goOn i batch.loop
  | some row =>
      match (s.endpoints row.endpointId).filter (·.isActive) with
      | none => s.goOn i (.finalizing delivery (.raised inactiveEndpoint) batch)
      | some endpoint =>
          s.goOn i
            (.posting delivery endpoint.url endpoint.secret row.eventType row.payload batch)

/-- The transaction that stores the outcome of a post. -/
def finalize (s : System) (i delivery : Nat) (result : PostResult) (batch : Batch) : System :=
  match (s.deliveries.get? delivery).filter (·.claimToken == some i) with
  | none => s.goOn i batch.loop
  | some row =>
      let stamped := fun endpoint : WebhookEndpoint =>
        if result.failure = none then { endpoint with lastSuccessAt := some s.clock }
        else { endpoint with lastFailureAt := some s.clock }
      { (s.write delivery (·.finalize result s.clock)).goOn i
          { batch with deliveredCount := batch.deliveredCount + 1 }.loop with
        endpoints :=
          Function.update s.endpoints row.endpointId
            ((s.endpoints row.endpointId).map stamped) }

end System

/-- The system after a turn; an error stands for a turn that is not the dispatcher's next. -/
def step (turn : Turn) (s : System) : Except PUnit.{1} System :=
  match turn with
  | .tick elapsed => .ok { s with clock := s.clock + elapsed }
  | .enqueue endpointId eventType payload =>
      .ok
        { s with
          deliveries :=
            s.deliveries.insert
              {
                endpointId := endpointId
                eventType := eventType
                payload := payload
                createdAt := s.clock
              } }
  | .configure endpointId endpoint =>
      .ok { s with endpoints := Function.update s.endpoints endpointId endpoint }
  | .start i limit =>
      match s.dispatchers i with
      | .notStarted => .ok (s.goOn i (.selecting s.clock limit))
      | _ => .error ⟨⟩
  | .select i =>
      match s.dispatchers i with
      | .selecting now limit => .ok (s.goOn i (Batch.loop ⟨now, s.selectDue now limit, 0⟩))
      | _ => .error ⟨⟩
  | .claim i =>
      match s.dispatchers i with
      | .claiming delivery batch => .ok (s.claim i delivery batch)
      | _ => .error ⟨⟩
  | .load i =>
      match s.dispatchers i with
      | .loading delivery batch => .ok (s.load i delivery batch)
      | _ => .error ⟨⟩
  | .post i result =>
      match s.dispatchers i with
      | .posting delivery _ _ _ _ batch =>
          .ok
            { s.goOn i (.finalizing delivery result batch) with
              log := .posted i delivery s.clock :: s.log }
      | _ => .error ⟨⟩
  | .finalize i =>
      match s.dispatchers i with
      | .finalizing delivery result batch => .ok (s.finalize i delivery result batch)
      | _ => .error ⟨⟩
  | .crash i => .ok (s.goOn i .crashed)

end Webhooks

end LicenseTrack
