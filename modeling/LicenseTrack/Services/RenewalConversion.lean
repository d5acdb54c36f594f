import LicenseTrack.Services.ConversionData

/-! Renewal successors made of order lines: one predecessor, several merged ones, and the
chains that were planned between the lines of one order.
-/

namespace LicenseTrack

open Library

/-- A successor of a maintenance record keeps its type, metric and parent. -/
def ConversionData.forPredecessor (d : ConversionData) (old : License) : ConversionData :=
  if old.licenseType = .maintenance then
    { d with
      licenseType := .maintenance
      licenseMetric := old.licenseMetric
      parentLicenseId := old.parentLicenseId
      isLegacyUnlinkedMaintenance :=
        old.isLegacyUnlinkedMaintenance && old.parentLicenseId.isNone }
  else { d with isLegacyUnlinkedMaintenance := false }

/-- The coverage class of a successor: the given one, else the default of its type. -/
def ConversionData.withCoverage (d : ConversionData) : ConversionData :=
  { d with
    maintenanceCoverage :=
      some (d.maintenanceCoverage.getD (defaultMaintenanceCoverage d.licenseType)) }

/-- Turns a `ValueError` into a client error whose text starts as told. -/
def asItemError {α : Type} (detailPrefix : String) (x : Except Failure α) : Except Failure α :=
  match x with
  | .error (.value message) => .error (.http 400 (detailPrefix ++ message))
  | other => other

/-- The stored licences among the given ones, in the order of the query. -/
def Store.storedAmong (s : Store) (ids : List Nat) : List (Nat × License) :=
  (s.licenses.filter (fun id _ => ids.contains id)).entries

/-- What the single and the coterm successor have in common: the checks of the predecessors,
the new row, its reference, the marks and the activations. The data of a row may still hold
the parent line of a maintenance purchase, which is no column of a licence.
-/
def createSuccessor (env : Env) (predecessorIds : List Nat) (cotermFromIds : Option (List Nat))
    (parentItemId : Option Nat) (row : License) (s : Store)
    : Except Failure (Nat × Store) := do
  (s.storedAmong predecessorIds).forM (fun entry =>
    assertPredecessorHasNoSuccessor entry.1 entry.2 none 409)
  assertSuccessorTerm ((s.storedAmong predecessorIds).map Prod.snd) row.startDate row.endDate
  let row :=
    { row with
      renewedFromId := predecessorIds.head?
      predecessorId := predecessorIds.head?
      cotermFromIds := cotermFromIds }
  require (parentItemId = none)
    (.database "TypeError: 'parent_sourcing_item_id' is an invalid keyword argument")
  let (id, s) ← insertLicense env.unicode row s
  let primaryRef := (predecessorIds.head?.bind s.license?).bind (·.licenseRef)
  let (ref, s) := chainReference env primaryRef s
  let s := s.modifyLicense id (fun l => { l with licenseRef := some ref })
  let s ← each (fun predecessorId => markPredecessorRenewed predecessorId id) predecessorIds s
  let s ← each (fun predecessorId => activateMaintenanceSuccessorForAllParents env predecessorId id)
    predecessorIds s
  pure (id, s)

/-- `_create_single_renewal_successor`. -/
def createSingleRenewalSuccessor (env : Env) (oldId : Nat) (parentItemId : Option Nat)
    (row : License) (s : Store)
    : Except Failure (Nat × Store) :=
  createSuccessor env [oldId] none parentItemId row s

/-- `_create_coterm_renewal_successor`. -/
def createCotermRenewalSuccessor (env : Env) (predecessorIds : List Nat)
    (parentItemId : Option Nat) (row : License) (s : Store)
    : Except Failure (Nat × Store) := do
  require (predecessorIds.all (fun id => (s.license? id).isSome) = true)
    (.http 404 (s!"Renewal predecessor(s) not found: "
      ++ s!"{predecessorIds.filter (fun id => (s.license? id).isNone)}"))
  createSuccessor env predecessorIds (some predecessorIds) parentItemId row s

/-- `create_renewal_successor_from_sourcing_item`. -/
def createRenewalSuccessorFromSourcingItem (env : Env) (item : SourcingItem) (oldId : Nat)
    (data : ConversionData) (missingLicenseDetail detailPrefix : String) (s : Store)
    : Except Failure (Nat × Store) := do
  let old ← found (s.license? oldId) (.http 404 missingLicenseDetail)
  let data := (data.forPredecessor old).withCoverage
  asItemError detailPrefix
    (assertCoverageAllowedForType data.licenseType (data.maintenanceCoverage.getD .unknown))
  asItemError detailPrefix (validateTermDateOrder data.startDate data.endDate)
  let (row, s) ← resolveRowReferences env.unicode data.toRow s
  if old.licenseType = .maintenance
      ∧ ¬ (old.isLegacyUnlinkedMaintenance = true ∧ old.parentLicenseId = none) then
    match old.parentLicenseId with
    | some parentId => do
        let _ ← asItemError detailPrefix (validateParentLicense s parentId)
    | none => throw (.http 400 (detailPrefix ++ "parent_license_id=None does not exist"))
  match item.cotermPredecessorIds.getD [] with
  | [] => createSingleRenewalSuccessor env oldId data.parentSourcingItemId row s
  | ids => createCotermRenewalSuccessor env ids data.parentSourcingItemId row s

-- Planned successors

/-- The lines of an order whose planned successor is the given line, in their order. -/
def incomingOf (items : List (Nat × SourcingItem)) (target : Nat) : List Nat :=
  (items.filter (fun entry => entry.2.successorSourcingItemId == some target)).map Prod.fst

/-- The lines of an order that a plan makes successors. -/
def plannedTargets (items : List (Nat × SourcingItem)) : List Nat :=
  (items.filterMap (fun entry => entry.2.successorSourcingItemId)).dedup

/-- The last stored licence that was made of a line. -/
def Store.licenseOfLine (s : Store) (itemId : Nat) : Option Nat :=
  (s.licenses.select (fun _ l => l.sourceSourcingItemId == some itemId)).getLast?

/-- `_NEVER_PLANNED_SUCCESSOR_TYPES`. -/
def LicenseType.isNeverPlanned : LicenseType → Bool
  | .freeware | .perpetual => true
  | _ => false

/-- A type that can stand in a planned chain. -/
def License.canBePlanned (l : License) : Bool :=
  isRenewableLicense l.licenseType l.isRenewable && !l.licenseType.isNeverPlanned

/-- Compares two predecessors by their start, those without one last. -/
def startsBefore (a b : Nat × License) : Bool :=
  match a.2.startDate, b.2.startDate with
  | some x, some y => x < y || (x == y && a.1 ≤ b.1)
  | some _, none => true
  | none, some _ => false
  | none, none => a.1 ≤ b.1

/-- The licences of the lines that precede a planned successor, the primary one first. -/
def plannedPredecessors (s : Store) (items : List (Nat × SourcingItem))
    (licenseOf : Nat → Option Nat) (target : Nat)
    : List (Nat × License) :=
  ((incomingOf items target).filterMap (fun source => do
    let id ← licenseOf source
    let l ← s.license? id
    some (id, l))).insertionSort (fun a b => startsBefore a b = true)

/-- What a planned successor requires of one predecessor. -/
def assertPlannedPredecessor (u : Unicode) (target : Nat) (publisher : String)
    (successor : License) (predecessor : Nat × License)
    : Except Failure PUnit := do
  assertPredecessorHasNoSuccessor predecessor.1 predecessor.2 none 409
  require (u.normalizeEntitlementIdentity predecessor.2.publisherName = publisher)
    (.http 422 s!"Line {target} must match predecessor publisher")
  require (predecessor.2.canBePlanned = true)
    (.http 422 s!"Line {target} follows a nonrenewable license")
  require (predecessor.2.licenseType = .maintenance ↔ successor.licenseType = .maintenance)
    (.http 422 s!"Line {target}: maintenance terms can only follow maintenance terms")

/-- One target of a round of `apply_planned_successor_links`. -/
def applyPlannedTarget (u : Unicode) (items : List (Nat × SourcingItem))
    (licenseOf : Nat → Option Nat) (target : Nat) (s : Store)
    : Except Failure Store := do
  let unlinked := Failure.http 409 "Every linked PO line must create one license"
  let successorId ← found (licenseOf target) unlinked
  let successor ← found (s.license? successorId) unlinked
  let predecessors := plannedPredecessors s items licenseOf target
  require (successor.renewedFromId = none ∧ successor.predecessorId = none)
    (.http 409 s!"Line {target} already has a predecessor")
  require (successor.canBePlanned = true)
    (.http 422 s!"Line {target} cannot be a renewal successor")
  let publisher := u.normalizeEntitlementIdentity successor.publisherName
  require (publisher ≠ "") (.http 422 s!"Line {target} needs a publisher")
  predecessors.forM (assertPlannedPredecessor u target publisher successor)
  assertSuccessorTerm (predecessors.map Prod.snd) successor.startDate successor.endDate
  let primary ← found predecessors.head? unlinked
  let s := s.modifyLicense successorId (fun l =>
    { l with
      renewedFromId := some primary.1
      predecessorId := some primary.1
      cotermFromIds :=
        if 1 < predecessors.length then some (predecessors.map Prod.fst) else l.cotermFromIds
      licenseRef := primary.2.licenseRef })
  each (fun predecessor => markPredecessorRenewed predecessor.1 successorId) predecessors s

/-- The targets whose sources are done, by identifier. -/
def readyTargets (items : List (Nat × SourcingItem)) (remaining : List Nat) : List Nat :=
  (remaining.filter (fun target =>
    (incomingOf items target).all (fun source => !remaining.contains source))).insertionSort
      (· ≤ ·)

/-- The rounds of `apply_planned_successor_links`. Each round takes the targets whose sources
are done, so one round per target is enough.
-/
def applyPlannedRounds (u : Unicode) (items : List (Nat × SourcingItem))
    (licenseOf : Nat → Option Nat)
    : Nat → List Nat → Store → Except Failure Store
  | _, [], s => .ok s
  | 0, _ :: _, _ => .error (.database "out of fuel")
  | fuel + 1, remaining, s => do
      let ready := readyTargets items remaining
      require (ready ≠ []) (.http 409 "Planned successor links contain a cycle")
      let s ← each (applyPlannedTarget u items licenseOf) ready s
      applyPlannedRounds u items licenseOf fuel
        (remaining.filter (fun target => !ready.contains target)) s

/-- `apply_planned_successor_links`. -/
def applyPlannedSuccessorLinks (u : Unicode) (items : List (Nat × SourcingItem)) (s : Store)
    : Except Failure Store := do
  let targets := plannedTargets items
  require (targets.all (fun target => items.any (·.1 == target)) = true)
    (.http 409 "A line has a successor outside this PO")
  let linked := targets ++ targets.flatMap (incomingOf items)
  require (linked.all (fun itemId => (s.licenseOfLine itemId).isSome) = true)
    (.http 409 "Every linked PO line must create one license")
  -- The licences are looked up once, before any link is written.
  let licenseOf := s.licenseOfLine
  let s ← applyPlannedRounds u items licenseOf targets.length targets s
  flush s

end LicenseTrack
