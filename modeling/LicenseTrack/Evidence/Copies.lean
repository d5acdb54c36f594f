import LicenseTrack.Library.Runs
import LicenseTrack.Library.Table
import LicenseTrack.Model.Text
import Mathlib.Logic.Function.Basic

/-! Runs that copy the quote documents of an order to its procurement documents: each reads the rows
once, stores a file for every document that lacks one, and commits the rows at its end. Runs take
turns between their reads, the files and the commit, and any step may fail.
-/

namespace LicenseTrack

open Library

namespace EvidenceCopies

/-- What a run reads of a row of `sourcing_quote_documents`. -/
structure QuoteDocument where
  sourcingRequestId : Nat
  filename : String
  category : String
  targetSourcingItemId : Option Nat
  sharedUpload : Bool
  originalFilename : String
  mimeType : String
deriving DecidableEq

/-- What a run reads of a row of `sourcing_items`. -/
structure SourcingItem where
  sourcingRequestId : Option Nat
  pendingOrderId : Option Nat
deriving DecidableEq

/-- `ProcurementDocumentCategory`. -/
inductive Category
  | quote
  | purchaseOrder
  | invoice
  | eula
  | entitlement
deriving DecidableEq

/-- `ProcurementDocumentCategory(value)`, none for a `ValueError`. -/
def Category.ofString? (value : String) : Option Category :=
  if value = "quote" then some .quote
  else if value = "purchase_order" then some .purchaseOrder
  else if value = "invoice" then some .invoice
  else if value = "eula" then some .eula
  else if value = "entitlement" then some .entitlement
  else none

/-- A row of `procurement_documents`, as far as runs read or write it. -/
structure Document where
  poNumber : String
  sharedPoNumber : Option String
  targetSourcingItemId : Option Nat
  pendingOrderId : Option Nat
  sourceSourcingQuoteDocumentId : Option Nat
  filename : String
  originalFilename : String
  fileSize : Nat
  mimeType : String
  category : Category
  uploadedBy : Option Nat
deriving DecidableEq

/-- Whether a row is the copy of a quote document for an order. -/
def Document.isCopy (row : Document) (orderId quote : Nat) : Bool :=
  row.pendingOrderId == some orderId && row.sourceSourcingQuoteDocumentId == some quote

/-- A change that a run holds in its session until it commits. -/
inductive Change
  | insert (row : Document)
  | repair (key : Nat) (filename originalFilename mimeType : String) (fileSize : Nat)
deriving DecidableEq

/-- A row with a new file. -/
def Document.repaired (row : Document) (filename originalFilename mimeType : String)
    (fileSize : Nat)
    : Document :=
  { row with
    filename := filename
    originalFilename := originalFilename
    fileSize := fileSize
    mimeType := mimeType }

/-- Whether a new row breaks `uq_procurement_document_pending_quote_source`. -/
def breaksUnique (documents : Table Document) (row : Document) : Bool :=
  documents.entries.any fun entry =>
    entry.2.pendingOrderId.isSome && entry.2.sourceSourcingQuoteDocumentId.isSome
      && entry.2.pendingOrderId == row.pendingOrderId
      && entry.2.sourceSourcingQuoteDocumentId == row.sourceSourcingQuoteDocumentId

/-- The rows after a change, none where it breaks the unique constraint. -/
def Change.apply (documents : Table Document) : Change → Option (Table Document)
  | .insert row => if breaksUnique documents row then none else some (documents.insert row)
  | .repair key filename originalFilename mimeType fileSize =>
      some (documents.modify key (·.repaired filename originalFilename mimeType fileSize))

/-- The rows after all changes of a commit. -/
def applyChanges : List Change → Table Document → Option (Table Document)
  | [], documents => some documents
  | change :: rest, documents => (change.apply documents).bind (applyChanges rest)

-- Runs

/-- What a run has read and gathered: the order, its lines, the rows as it saw them, the quote
documents it has still to come to, and the changes and files so far.
-/
structure Copying where
  orderId : Nat
  poNumber : String
  userId : Option Nat
  orderItemIds : List Nat
  seen : Table Document
  remaining : List Nat
  changes : List Change
  storedPaths : List String

/-- The row that a run takes for the copy of a quote document, from those it saw. -/
def Copying.existing (c : Copying) (quote : Nat) : Option (Nat × Document) :=
  (c.seen.entries.filter fun entry => entry.2.isCopy c.orderId quote).getLast?

/-- Where `copy_quote_documents_to_procurement_documents` is. -/
inductive Run
  | notStarted
  | reading (orderId : Nat) (poNumber : String) (userId : Option Nat)
  | copying (c : Copying)
  | saving (c : Copying)
  | recording (c : Copying) (storedPath : String) (fileSize : Nat)
  | cleaning (paths : List String)
  | succeeded (orderId : Nat)
  | failed
  | crashed

/-- Who drew the name of a stored file: it was there before, or a run drew it. -/
inductive Origin
  | before
  | drawnBy (run : Nat)
deriving DecidableEq

/-- The tables, the files by their path, where the paths that were ever in use come from, and the
runs by number.
-/
structure System where
  quotes : Table QuoteDocument
  items : Table SourcingItem
  documents : Table Document
  files : String → Option (List UInt8)
  origin : String → Option Origin
  runs : Nat → Run

/-- A turn: a run begins, takes its next step, meets an exception or dies. -/
inductive Turn
  | start (run orderId : Nat) (poNumber : String) (userId : Option Nat)
  | read (run : Nat)
  | advance (run : Nat)
  | save (run : Nat) (path : String)
  | record (run : Nat)
  | commit (run : Nat)
  | clean (run : Nat) (deleted : Bool)
  | throw (run : Nat)
  | crash (run : Nat)

namespace System

/-- The lines of an order. -/
def itemsOf (s : System) (orderId : Nat) : List Nat :=
  s.items.select fun _ item => item.pendingOrderId == some orderId

/-- The sourcing requests of an order's lines. -/
def requestsOf (s : System) (orderId : Nat) : List Nat :=
  (s.items.filter fun _ item => item.pendingOrderId == some orderId).entries.filterMap
    (·.2.sourcingRequestId)

/-- Whether a quote document is one of an order: it belongs to a request of the order, and if it has
a target line, that is a line of the order.
-/
def Eligible (s : System) (orderId quote : Nat) : Prop :=
  ∃ row, s.quotes.get? quote = some row ∧ row.sourcingRequestId ∈ s.requestsOf orderId
    ∧ ∀ target, row.targetSourcingItemId = some target → target ∈ s.itemsOf orderId

/-- The system with one run gone on. -/
def goOn (s : System) (i : Nat) (run : Run) : System :=
  { s with runs := Function.update s.runs i run }

/-- The run once it has read its rows. -/
def read (s : System) (orderId : Nat) (poNumber : String) (userId : Option Nat) : Run :=
  .copying
    {
      orderId := orderId
      poNumber := poNumber
      userId := userId
      orderItemIds := s.itemsOf orderId
      seen := s.documents
      remaining := s.quotes.select fun _ row => (s.requestsOf orderId).contains row.sourcingRequestId
      changes := []
      storedPaths := []
    }

/-- The start of the loop's body, for the next quote document. -/
def advance (s : System) (c : Copying) (quote : Nat) (rest : List Nat) : Run :=
  match s.quotes.get? quote with
  | none => .cleaning c.storedPaths
  | some row =>
      if row.targetSourcingItemId.any (fun target => !c.orderItemIds.contains target) then
        .copying { c with remaining := rest }
      else if (c.existing quote).any (fun entry => (s.files entry.2.filename).isSome) then
        .copying { c with remaining := rest }
      else if (s.files row.filename).isNone then .cleaning c.storedPaths
      else .saving c

/-- The rest of the loop's body: the change for a quote document whose copy was stored. -/
def record (s : System) (c : Copying) (quote : Nat) (rest : List Nat) (storedPath : String)
    (fileSize : Nat)
    : Run :=
  match s.quotes.get? quote with
  | none => .cleaning c.storedPaths
  | some row =>
      match c.existing quote with
      | some entry =>
          .copying
            { c with
              remaining := rest
              changes := c.changes
                ++ [.repair entry.1 storedPath row.originalFilename row.mimeType fileSize]
              storedPaths := c.storedPaths ++ [storedPath] }
      | none =>
          match Category.ofString? (if row.category = "" then "quote" else row.category) with
          | none => .cleaning c.storedPaths
          | some category =>
              let sharedPoNumber := (some (strip c.poNumber)).filter (· != "")
              .copying
                { c with
                  remaining := rest
                  changes := c.changes ++
                    [.insert
                      {
                        poNumber := c.poNumber
                        pendingOrderId := some c.orderId
                        filename := storedPath
                        originalFilename := row.originalFilename
                        fileSize := fileSize
                        mimeType := row.mimeType
                        category := category
                        targetSourcingItemId := row.targetSourcingItemId
                        sharedPoNumber := if row.sharedUpload then sharedPoNumber else none
                        sourceSourcingQuoteDocumentId := some quote
                        uploadedBy := c.userId
                      }]
                  storedPaths := c.storedPaths ++ [storedPath] }

end System

/-- The system after a turn; an error stands for a turn that is not the run's next. -/
def step (turn : Turn) (s : System) : Except PUnit.{1} System :=
  match turn with
  | .start i orderId poNumber userId =>
      match s.runs i with
      | .notStarted => .ok (s.goOn i (.reading orderId poNumber userId))
      | _ => .error ⟨⟩
  | .read i =>
      match s.runs i with
      | .reading orderId poNumber userId => .ok (s.goOn i (s.read orderId poNumber userId))
      | _ => .error ⟨⟩
  | .advance i =>
      match s.runs i with
      | .copying c =>
          match c.remaining with
          | [] => .error ⟨⟩
          | quote :: rest => .ok (s.goOn i (s.advance c quote rest))
      | _ => .error ⟨⟩
  | .save i path =>
      match s.runs i with
      | .saving c =>
          match (c.remaining.head?.bind s.quotes.get?).bind fun row => s.files row.filename with
          | none => .ok (s.goOn i (.cleaning c.storedPaths))
          | some content =>
              .ok
                { s.goOn i (.recording c path content.length) with
                  files := Function.update s.files path (some content)
                  origin := Function.update s.origin path (some (.drawnBy i)) }
      | _ => .error ⟨⟩
  | .record i =>
      match s.runs i with
      | .recording c storedPath fileSize =>
          match c.remaining with
          | [] => .error ⟨⟩
          | quote :: rest => .ok (s.goOn i (s.record c quote rest storedPath fileSize))
      | _ => .error ⟨⟩
  | .commit i =>
      match s.runs i with
      | .copying c =>
          match c.remaining with
          | [] =>
              match applyChanges c.changes s.documents with
              | some documents =>
                  .ok { s.goOn i (.succeeded c.orderId) with documents := documents }
              | none => .ok (s.goOn i (.cleaning c.storedPaths))
          | _ :: _ => .error ⟨⟩
      | _ => .error ⟨⟩
  | .clean i deleted =>
      match s.runs i with
      | .cleaning [] => .ok (s.goOn i .failed)
      | .cleaning (path :: rest) =>
          .ok
            { s.goOn i (.cleaning rest) with
              files := if deleted then Function.update s.files path none else s.files }
      | _ => .error ⟨⟩
  | .throw i =>
      match s.runs i with
      | .reading _ _ _ => .ok (s.goOn i .failed)
      | .copying c | .saving c | .recording c _ _ => .ok (s.goOn i (.cleaning c.storedPaths))
      | _ => .error ⟨⟩
  | .crash i =>
      match s.runs i with
      | .notStarted | .succeeded _ | .failed | .crashed => .error ⟨⟩
      | _ => .ok (s.goOn i .crashed)

end EvidenceCopies

end LicenseTrack
