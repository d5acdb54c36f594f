import LicenseTrack.Library.Runs
import Mathlib.Logic.Function.Basic

/-! Runners of the evidence transfer of one converted order: the transfer after the conversion,
manual retries and the sweeps of the scheduler. They claim the order, copy the documents, store how
that ended and release the claim, and take turns between their transactions.
-/

namespace LicenseTrack

open Library

namespace EvidenceTransfer

/-- `EvidenceTransferStatus`. -/
inductive Status
  | pending
  | complete
  | failed
  | escalated
deriving DecidableEq

/-- The columns of a converted order that runners read and write. Times are in microseconds, and a
token is the number of the runner that drew it, since no other runner draws the same.
-/
structure Order where
  evidenceTransferStatus : Status
  evidenceTransferDetail : Option String
  evidenceTransferFailedAt : Option Nat
  evidenceTransferAttempts : Nat
  evidenceInvoiceRequired : Bool
  evidenceTransferClaimToken : Option Nat
  evidenceTransferClaimedAt : Option Nat
deriving DecidableEq

/-- `EVIDENCE_CLAIM_TIMEOUT`. -/
def evidenceClaimTimeout : Nat := 15 * 60 * 1000000

/-- `MAX_EVIDENCE_SWEEP_ATTEMPTS`. -/
def maxEvidenceSweepAttempts : Nat := 5

/-- `INVOICE_MISSING_DETAIL`. -/
def invoiceMissingDetail : String :=
  "Required invoice evidence is missing. Upload the invoice on the pending order, then retry the evidence transfer."

/-- Whether a status is one of `_RETRYABLE_EVIDENCE_STATUSES`. -/
def Status.retryable (status : Status) : Bool := status != .complete

/-- Whether the `UPDATE` of `claim_evidence_transfer` matches the order. -/
def Order.claimable (order : Order) (now : Nat) : Bool :=
  order.evidenceTransferStatus.retryable
    && order.evidenceTransferClaimedAt.all (· + evidenceClaimTimeout ≤ now)

/-- `claim_evidence_transfer`. -/
def Order.claim (order : Order) (token now : Nat) : Order :=
  { order with
    evidenceTransferClaimToken := some token
    evidenceTransferClaimedAt := some now }

/-- `release_evidence_transfer`. -/
def Order.release (order : Order) (token : Nat) : Order :=
  if order.evidenceTransferClaimToken = some token then
    { order with evidenceTransferClaimToken := none, evidenceTransferClaimedAt := none }
  else order

/-- `_mark_evidence_transfer_complete`. -/
def Order.markComplete (order : Order) : Order :=
  { order with
    evidenceTransferStatus := .complete
    evidenceTransferDetail := none
    evidenceTransferFailedAt := none }

/-- `_mark_evidence_transfer_failed`. -/
def Order.markFailed (order : Order) (detail : String) (now : Nat) : Order :=
  { order with
    evidenceTransferStatus := .failed
    evidenceTransferDetail := some detail
    evidenceTransferFailedAt := some now }

/-- The escalation of a sweep, with the detail where it writes one. -/
def Order.escalate (order : Order) (detail : Option String) : Order :=
  { order with
    evidenceTransferStatus := .escalated
    evidenceTransferDetail := detail.or order.evidenceTransferDetail }

-- Runners

/-- How a runner ended. -/
inductive Ending
  | finished
  | notStuck
  | busy
  | escalated
  | refused (status : Nat) (detail : String)
  | raised (detail : String)
  | crashed
deriving DecidableEq

/-- Where a runner is. A retry answers with a conflict where the order is busy, the others are
silent.
-/
inductive Runner
  | notStarted
  | retryChecking
  | sweepChecking (attempts : Nat)
  | sweepAttempting (attempts : Nat)
  | sweepEscalating (detail : Option String)
  | claiming (raisesOnBusy : Bool)
  | claimAt (raisesOnBusy : Bool) (now : Nat)
  | transferring
  | completing
  | marking
  | failing (detail : String)
  | releasing
  | ended (ending : Ending)
deriving DecidableEq

/-- Whether a runner has claimed the order and will still store how its transfer ended. -/
def Runner.isAtWork : Runner → Bool
  | .transferring | .completing | .marking | .failing _ => true
  | _ => false

/-- What happened that the sweeps count. -/
inductive Event
  | attempted (sweep : Nat)
  | escalated (sweep : Nat)
deriving DecidableEq

/-- The clock, the order, the runners by number and the events, the latest first. -/
structure System where
  clock : Nat
  order : Order
  runners : Nat → Runner
  log : List Event

/-- A turn: time passes, a runner begins, takes its next step with what it finds there, meets an
exception or dies.
-/
inductive Turn
  | tick (elapsed : Nat)
  | transferAfterConversion (runner : Nat)
  | retry (runner : Nat)
  | sweep (runner : Nat)
  | requireInvoice (runner : Nat) (stored : Bool)
  | readClock (runner : Nat)
  | execute (runner : Nat)
  | transfer (runner : Nat) (error : Option String)
  | throw (runner : Nat) (detail : String)
  | crash (runner : Nat)

/-- What a sweep does with an order whose invoice is not missing. -/
def sweepAttempt (attempts : Nat) : Runner :=
  if attempts + 1 > maxEvidenceSweepAttempts then .sweepEscalating none
  else .sweepAttempting attempts

/-- What follows `require_invoice_evidence`, for an order that requires an invoice or not. -/
def Runner.invoiceChecked (required stored : Bool) : Runner → Option Runner
  | .retryChecking =>
      if required && !stored then some (.ended (.refused 409 invoiceMissingDetail))
      else some (.claiming true)
  | .sweepChecking attempts =>
      if required && !stored then some (.sweepEscalating (some invoiceMissingDetail))
      else some (sweepAttempt attempts)
  | .completing =>
      if required && !stored then some (.failing s!"RuntimeError: {invoiceMissingDetail}")
      else some .marking
  | _ => none

/-- Where an exception takes a runner: what the `try` covers is stored as a failure, and the claim is
released in any case.
-/
def Runner.thrown (detail : String) : Runner → Option Runner
  | .notStarted | .ended _ => none
  | .retryChecking | .sweepChecking _ | .sweepAttempting _ | .sweepEscalating _ | .claiming _
  | .claimAt _ _ | .releasing => some (.ended (.raised detail))
  | .transferring | .completing | .marking => some (.failing detail)
  | .failing _ => some .releasing

namespace System

/-- The system with one runner gone on. -/
def goOn (s : System) (i : Nat) (runner : Runner) : System :=
  { s with runners := Function.update s.runners i runner }

/-- The transaction that a runner executes next. -/
def execute (s : System) (i : Nat) : Option System :=
  match s.runners i with
  | .claimAt raisesOnBusy now =>
      if s.order.claimable now then
        some { s.goOn i .transferring with order := s.order.claim i now }
      else if raisesOnBusy then
        some (s.goOn i
          (.ended (.refused 409 "An evidence transfer for this order is already running")))
      else some (s.goOn i (.ended .busy))
  | .marking => some { s.goOn i .releasing with order := s.order.markComplete }
  | .failing detail =>
      some { s.goOn i .releasing with order := s.order.markFailed detail s.clock }
  | .releasing => some { s.goOn i (.ended .finished) with order := s.order.release i }
  | .sweepAttempting attempts =>
      some
        { s.goOn i (.claiming false) with
          order := { s.order with evidenceTransferAttempts := attempts + 1 }
          log := .attempted i :: s.log }
  | .sweepEscalating detail =>
      some
        { s.goOn i (.ended .escalated) with
          order := s.order.escalate detail
          log := .escalated i :: s.log }
  | _ => none

end System

/-- The system after a turn; an error stands for a turn that is not the runner's next. -/
def step (turn : Turn) (s : System) : Except PUnit.{1} System :=
  match turn with
  | .tick elapsed => .ok { s with clock := s.clock + elapsed }
  | .transferAfterConversion i =>
      match s.runners i with
      | .notStarted => .ok (s.goOn i (.claiming false))
      | _ => .error ⟨⟩
  | .retry i =>
      match s.runners i with
      | .notStarted =>
          if s.order.evidenceTransferStatus.retryable then .ok (s.goOn i .retryChecking)
          else .ok (s.goOn i (.ended (.refused 409 "Evidence transfer is not in a retryable state")))
      | _ => .error ⟨⟩
  | .sweep i =>
      match s.runners i with
      | .notStarted =>
          if s.order.evidenceTransferStatus = .pending ∨ s.order.evidenceTransferStatus = .failed then
            .ok (s.goOn i (.sweepChecking s.order.evidenceTransferAttempts))
          else .ok (s.goOn i (.ended .notStuck))
      | _ => .error ⟨⟩
  | .requireInvoice i stored =>
      match (s.runners i).invoiceChecked s.order.evidenceInvoiceRequired stored with
      | some runner => .ok (s.goOn i runner)
      | none => .error ⟨⟩
  | .readClock i =>
      match s.runners i with
      | .claiming raisesOnBusy => .ok (s.goOn i (.claimAt raisesOnBusy s.clock))
      | _ => .error ⟨⟩
  | .execute i =>
      match s.execute i with
      | some t => .ok t
      | none => .error ⟨⟩
  | .transfer i error =>
      match s.runners i with
      | .transferring =>
          match error with
          | none => .ok (s.goOn i .completing)
          | some detail => .ok (s.goOn i (.failing detail))
      | _ => .error ⟨⟩
  | .throw i detail =>
      match (s.runners i).thrown detail with
      | some runner => .ok (s.goOn i runner)
      | none => .error ⟨⟩
  | .crash i => .ok (s.goOn i (.ended .crashed))

end EvidenceTransfer

end LicenseTrack
