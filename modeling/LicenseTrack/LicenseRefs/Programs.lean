import LicenseTrack.Library.Sessions
import LicenseTrack.Services.References

/-! The requests that create licences, statement by statement: what each writes before it reads the
sequence of licence references, and what its session keeps of the sequence row.
-/

namespace LicenseTrack

open Library

/-- A reference that was returned: the year of the call and the number drawn. -/
structure LicenseRef where
  year : Nat
  value : Nat
deriving DecidableEq

/-- The text of a reference. -/
def LicenseRef.text (ref : LicenseRef) : String := s!"LT-{ref.year}-{padReference ref.value}"

/-- The sequence row, where there is one, and the references returned by calls of this history,
the latest first.
-/
structure RefStore where
  sequence : Option Nat
  issued : List LicenseRef
deriving DecidableEq

/-- A statement of a creating request. Reads and writes are of tables other than the sequence, a
flush inserts a new licence, and a call draws a reference, its session still holding the sequence row
it has loaded before or not.
-/
inductive RefOp
  | read
  | write
  | flush
  | generate (year : Nat) (held : Bool)
  | savepoint
  | rollbackTo
  | commit
deriving DecidableEq

/-- What a session keeps: the number in the sequence row it has loaded, whether that row was changed
since the savepoint, and the data of the savepoint where it was changed.
-/
structure RefSession where
  cached : Option Nat := none
  changed : Bool := false
  saved : Option RefStore := none
deriving DecidableEq

/-- A request between two statements. -/
inductive RefProgram
  | running (session : RefSession) (ops : List RefOp)
  | adding (session : RefSession) (year : Nat) (ops : List RefOp)
  | raising (session : RefSession) (value year : Nat) (ops : List RefOp)
  | ended

/-- The next statement of a request. -/
def RefProgram.statement : RefProgram → Statement RefStore RefProgram
  | .running _ [] | .ended => .finished
  | .running session (.read :: ops) => .read fun _ => .running session ops
  | .running session (.write :: ops) => .write fun a => (a, .running session ops)
  | .running session (.flush :: ops) => .write fun a =>
      (a, .running { session with saved := some (session.saved.getD a) } ops)
  | .running session (.generate year held :: ops) => .read fun a =>
      -- a row that the session holds is not read again
      match (if held then session.cached else none).or a.sequence with
      | some value => .raising session value year ops
      | none => .adding session year ops
  | .adding session year ops => .write fun a =>
      ({ a with sequence := some 0 },
        .raising { session with cached := some 0, changed := true } 0 year ops)
  | .raising session value year ops => .write fun a =>
      ({ sequence := some (value + 1), issued := ⟨year, value + 1⟩ :: a.issued },
        .running { session with cached := some (value + 1), changed := true } ops)
  | .running session (.savepoint :: ops) =>
      .read fun _ => .running { session with changed := false, saved := none } ops
  | .running session (.rollbackTo :: ops) =>
      -- the rows changed since the savepoint expire
      let rolledBack : RefSession :=
        { cached := if session.changed then none else session.cached }
      match session.saved with
      | none => .read fun _ => .running rolledBack ops
      | some saved => .write fun _ => (saved, .running rolledBack ops)
  | .running session (.commit :: ops) =>
      .commit (.running { session with changed := false, saved := none } ops)

/-- A statement that is not about the sequence. -/
inductive OtherOp
  | read
  | write
deriving DecidableEq

/-- An other statement of a request. -/
def OtherOp.op : OtherOp → RefOp
  | .read => .read
  | .write => .write

/-- How one licence is created: the statements before its insertion, those up to the drawing of its
reference, and those after. A renewal that takes over its predecessor's reference draws none.
-/
structure LicenseScript where
  before : List OtherOp
  between : List OtherOp
  draw : Option (Nat × Bool)
  after : List OtherOp

/-- The creation of one licence, as `create_license_record`, `create_maintenance_for_parent`,
`create_purchase_license` and the renewal conversions do it: `db.add`, `db.flush`,
`sync_license_line`, then `generate_license_ref`.
-/
def LicenseScript.ops (script : LicenseScript) : List RefOp :=
  script.before.map OtherOp.op ++ .flush :: script.between.map OtherOp.op
    ++ script.draw.toList.map (fun draw => .generate draw.1 draw.2)
    ++ script.after.map OtherOp.op

/-- A row of `run_import_rows`: an update, or a creation. A row that fails at some statement is
rolled back to its savepoint.
-/
inductive ImportScript
  | update (others : List OtherOp) (failed : Bool)
  | create (script : LicenseScript) (failedAfter : Option Nat)

/-- The statements of an import row. -/
def ImportScript.ops : ImportScript → List RefOp
  | .update others failed =>
      .savepoint :: others.map OtherOp.op ++ if failed then [.rollbackTo] else []
  | .create script none => .savepoint :: script.ops
  | .create script (some n) => .savepoint :: script.ops.take n ++ [.rollbackTo]

/-- What a creating request does in its transaction. -/
inductive CreationBody
  | createLicense (script : LicenseScript)
  | createLicenseBatch (scripts : List LicenseScript)
  | createMaintenance (script : LicenseScript)
  | importRows (prepare : List OtherOp) (rows : List ImportScript)
  | convertOrder (scripts : List LicenseScript)
  | convertFreeware (scripts : List LicenseScript)

/-- The statements of the transaction. -/
def CreationBody.ops : CreationBody → List RefOp
  | .createLicense script | .createMaintenance script => script.ops
  | .createLicenseBatch scripts | .convertOrder scripts | .convertFreeware scripts =>
      scripts.flatMap LicenseScript.ops
  | .importRows prepare rows => prepare.map OtherOp.op ++ rows.flatMap ImportScript.ops

/-- A creating request. One that signs in with a token has committed the use of the token before,
and one that converts an order copies documents in transactions of their own afterwards.
-/
structure CreationRequest where
  byToken : Bool
  body : CreationBody
  afterwards : List (List OtherOp)

/-- The statements of a request, up to where it ends by itself. -/
def CreationRequest.ops (request : CreationRequest) : List RefOp :=
  (if request.byToken then [.write, .commit] else []) ++ (request.body.ops ++ .commit ::
    request.afterwards.flatMap (fun others => others.map OtherOp.op ++ [.commit]))

/-- Creating requests that have arrived, none of which has executed a statement. -/
def creating (sequence : Option Nat) (requests : Nat → CreationRequest)
    : Sessions RefStore RefProgram where
  committed := ⟨sequence, []⟩
  writer := none
  program i := .running {} (requests i).ops

end LicenseTrack
