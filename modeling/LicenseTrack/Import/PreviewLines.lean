import LicenseTrack.Import.PoLines

/-! The purchase-order lines that the preview of an import announces, beside those that the run
gives. The preview plans the new records alone, over a copy of the register, so it is right as long
as the lines issued to updated licences do not matter for the new records behind them.
-/

namespace LicenseTrack

open Library

theorem annotateRow_isError {u : Unicode} {heads : List (Nat × License)} {row : ImportRow}
    (h : row.isError = true)
    : annotateRow u heads row = row := by
  rw [annotateRow, if_pos h]

theorem annotateRow_cases {u : Unicode} {heads : List (Nat × License)} {row : ImportRow}
    (h : (annotateRow u heads row).isError = false)
    : (annotateRow u heads row = { row with importAction := .create, matchedLicenseId := none }
        ∨ ∃ entry ∈ heads, annotateRow u heads row
            = { row with importAction := .update, matchedLicenseId := some entry.1 })
      ∧ row.isError = false := by
  have hrow : row.isError = false := by
    by_contra hc
    rw [annotateRow_isError (by simpa using hc)] at h
    exact hc h
  refine ⟨?_, hrow⟩
  unfold annotateRow at h ⊢
  rw [if_neg (by simp [hrow])] at h ⊢
  split at h
  · exact .inl rfl
  · next id l hmatch =>
      have hmem : (id, l) ∈ heads := List.mem_of_mem_filter (hmatch ▸ List.mem_singleton_self _)
      exact .inr ⟨(id, l), hmem, rfl⟩
  · simp [ImportRow.isError] at h

theorem annotateRow_licenseRef (u : Unicode) (heads : List (Nat × License)) (row : ImportRow)
    : (annotateRow u heads row).licenseRef = row.licenseRef := by
  unfold annotateRow
  split
  · rfl
  · split <;> rfl

theorem annotateRow_marked (u : Unicode) (heads : List (Nat × License)) {row : ImportRow}
    (h : row.isError = false) (action : ImportAction) (id : Option Nat)
    : annotateRow u heads { row with importAction := action, matchedLicenseId := id }
      = annotateRow u heads row := by
  have h' : ({ row with importAction := action, matchedLicenseId := id } : ImportRow).isError
      = false := h
  unfold annotateRow
  rw [h, h', if_neg Bool.false_ne_true, if_neg Bool.false_ne_true]
  rfl

theorem annotateRow_again {u : Unicode} {heads : List (Nat × License)} {row : ImportRow}
    (h : (annotateRow u heads row).isError = false)
    : annotateRow u heads (annotateRow u heads row) = annotateRow u heads row := by
  obtain ⟨hcases, hrow⟩ := annotateRow_cases h
  rcases hcases with he | ⟨entry, -, he⟩
  · conv_lhs => rw [he]
    exact annotateRow_marked u heads hrow _ _
  · conv_lhs => rw [he]
    exact annotateRow_marked u heads hrow _ _

theorem importRefs_of_valid {u : Unicode} {rows : List ImportRow}
    (h : ∀ row ∈ rows, row.isError = false)
    : importRefs u rows = (rows.map (·.refKey u)).filter (· ≠ "") := by
  have hall : rows.filter (fun row => !row.isError) = rows :=
    List.filter_eq_self.mpr fun row hrow => by simp [h row hrow]
  rw [importRefs, hall]

theorem annotateUpdateTargets_again {u : Unicode} {s : Store} {rows : List ImportRow}
    (h : ∀ row ∈ annotateUpdateTargets u s (annotateUpdateTargets u s rows), row.isError = false)
    : annotateUpdateTargets u s (annotateUpdateTargets u s rows)
      = annotateUpdateTargets u s rows := by
  have hmarked : ∀ row ∈ annotateUpdateTargets u s rows, row.isError = false := fun row hrow =>
    (annotateRow_cases (h _ (List.mem_map_of_mem hrow))).2
  have hrows : ∀ row ∈ rows, row.isError = false := fun row hrow =>
    (annotateRow_cases (hmarked _ (List.mem_map_of_mem hrow))).2
  have hkeys : (annotateUpdateTargets u s rows).map (·.refKey u) = rows.map (·.refKey u) := by
    rw [annotateUpdateTargets, List.map_map]
    exact List.map_congr_left fun row _ =>
      congrArg (fun ref : Option String => u.refKey (ref.getD "")) (annotateRow_licenseRef u _ row)
  have hrefs : importRefs u (annotateUpdateTargets u s rows) = importRefs u rows := by
    rw [importRefs_of_valid hmarked, importRefs_of_valid hrows, hkeys]
  calc annotateUpdateTargets u s (annotateUpdateTargets u s rows)
      = (annotateUpdateTargets u s rows).map
          (annotateRow u (updateHeads s (importRefs u rows))) := by
        rw [← hrefs]
        rfl
    _ = annotateUpdateTargets u s rows := by
        rw [annotateUpdateTargets, List.map_map]
        exact List.map_congr_left fun row hrow =>
          annotateRow_again (hmarked _ (List.mem_map_of_mem hrow))

variable {env : Env} {updateExisting : Bool} {skipped : List Nat}

theorem importTurn_cases (env : Env) (updateExisting : Bool) (skipped : List Nat)
    (run : ImportRun) (row : ImportRow)
    : (∃ outcome : RowOutcome, outcome.isImported = false
        ∧ importTurn env updateExisting skipped run row = run.note row outcome)
      ∨ row.rowNumber ∉ skipped ∧ row.isError = false
        ∧ ∃ store, importRow env run.progress (row.matched updateExisting) row.toParsedRow run.store
            = .ok store
          ∧ importTurn env updateExisting skipped run row
            = run.wrote env.unicode updateExisting row store := by
  unfold importTurn
  split
  · exact .inl ⟨_, rfl, rfl⟩
  · next hskipped =>
      split
      · exact .inl ⟨_, rfl, rfl⟩
      · next hvalid =>
          split
          · exact .inl ⟨_, rfl, rfl⟩
          · next store hstore =>
              exact .inr ⟨by simpa using hskipped, by simpa using hvalid, store, hstore, rfl⟩

theorem AllImported.before (rows : List ImportRow) {run : ImportRun}
    (h : (rows.foldl (importTurn env updateExisting skipped) run).AllImported)
    : run.AllImported := by
  induction rows generalizing run with
  | nil => exact h
  | cons row rest ih =>
      have hnext := ih h
      rcases importTurn_cases env updateExisting skipped run row
        with ⟨_, -, he⟩ | ⟨-, -, _, -, he⟩
      · rw [he] at hnext
        exact fun entry hentry => hnext entry (List.mem_cons_of_mem _ hentry)
      · rw [he] at hnext
        exact fun entry hentry => hnext entry (List.mem_cons_of_mem _ hentry)

theorem importTurn_imported {run : ImportRun} {row : ImportRow}
    (h : (importTurn env updateExisting skipped run row).AllImported)
    : row.isError = false
      ∧ match row.target updateExisting run.store with
        | none => importNewRow env run.progress row.toParsedRow run.store
            = .ok (importTurn env updateExisting skipped run row).store
        | some id => importUpdateRow env id row.toParsedRow run.store
            = .ok (importTurn env updateExisting skipped run row).store := by
  rcases importTurn_cases env updateExisting skipped run row
    with ⟨outcome, hnot, he⟩ | ⟨-, hvalid, store, hstore, he⟩
  · rw [he] at h
    exact absurd (h _ List.mem_cons_self) (by simp [hnot])
  · refine ⟨hvalid, ?_⟩
    rw [he]
    unfold importRow at hstore
    unfold ImportRow.target
    split at hstore
    · next id hid => simp only [hid, hstore, ImportRun.wrote]
    · next hid => simp only [hid, hstore, ImportRun.wrote]

-- Announced and given lines

variable (env updateExisting skipped)

/-- The lines that the run gives to its new records, each as it stands behind its row. -/
def linesGiven : ImportRun → List ImportRow → List (Option Nat)
  | _, [] => []
  | run, row :: rest =>
      let next := importTurn env updateExisting skipped run row
      match row.target updateExisting run.store with
      | none => next.store.heldLine run.store.licenses.nextKey :: linesGiven next rest
      | some _ => linesGiven next rest

/-- At each new record, the numbers that updated licences were issued before it on its purchase
order do not matter for its request. `given` are these numbers.
-/
def UpdatesDoNotMatter : ImportRun → (String → List Nat) → List ImportRow → Prop
  | _, _, [] => True
  | run, given, row :: rest =>
      let next := importTurn env updateExisting skipped run row
      match row.target updateExisting run.store with
      | none =>
          let poKey := env.unicode.normalizePoNumber row.poNumber
          (poKey ≠ "" → DoNotMatter (given poKey) (issuedNumbers run.store poKey) row.poLineNumber)
            ∧ UpdatesDoNotMatter next given rest
      | some _ =>
          UpdatesDoNotMatter next
            (fun poKey => given poKey ++ addedNumbers run.store next.store poKey) rest

variable {env updateExisting skipped}

/-- The plan's copy of the register holds what the run issued beside the given numbers. -/
structure PlanAgrees (used given : String → List Nat) (s : Store) : Prop where
  used : ∀ poKey n, n ∈ used poKey ↔ n ∈ otherNumbers (given poKey) (issuedNumbers s poKey)
  given : ∀ poKey, ∀ n ∈ given poKey, n ∈ issuedNumbers s poKey

namespace PlanAgrees

variable {used given : String → List Nat} {s t : Store}

theorem start (s : Store) : PlanAgrees (issuedNumbers s) (fun _ => []) s where
  used := fun poKey n => by simp [mem_otherNumbers]
  given := fun _ _ h => absurd h List.not_mem_nil

theorem update (h : PlanAgrees used given s)
    (hissues : Issues (fun poKey n => n ∈ addedNumbers s t poKey) s t)
    : PlanAgrees used (fun poKey => given poKey ++ addedNumbers s t poKey) t where
  used := fun poKey n => by
    rw [h.used, mem_otherNumbers, mem_otherNumbers, hissues.register, List.mem_append]
    constructor
    · rintro ⟨hn, hgiven⟩
      refine ⟨.inl hn, ?_⟩
      rintro (hc | hc)
      · exact hgiven hc
      · exact (mem_otherNumbers.mp hc).2 hn
    · rintro ⟨hn, hnot⟩
      exact ⟨hn.resolve_right fun hc => hnot (.inr hc), fun hc => hnot (.inl hc)⟩
  given := fun poKey n hn => by
    rw [hissues.register]
    rcases List.mem_append.mp hn with hn | hn
    · exact .inl (h.given poKey n hn)
    · exact .inr hn

theorem create_blank (h : PlanAgrees used given s) {u : Unicode} {row : ParsedRow}
    (hblank : u.normalizePoNumber row.poNumber = "") (hissues : Issues (IssuedTo u s row) s t)
    : PlanAgrees used given t := by
  have hsame : ∀ poKey n, n ∈ issuedNumbers t poKey ↔ n ∈ issuedNumbers s poKey := by
    intro poKey n
    rw [hissues.register, IssuedTo, newLine, if_pos hblank]
    simp
  constructor
  · intro poKey n
    rw [h.used, mem_otherNumbers, mem_otherNumbers, hsame]
  · intro poKey n hn
    rw [hsame]
    exact h.given poKey n hn

theorem create (h : PlanAgrees used given s) {u : Unicode} {row : ParsedRow}
    (hpo : u.normalizePoNumber row.poNumber ≠ "") (hissues : Issues (IssuedTo u s row) s t)
    : PlanAgrees
        (fun key => if key = u.normalizePoNumber row.poNumber then
          freeNumber (issuedNumbers s (u.normalizePoNumber row.poNumber)) row.poLineNumber :: used key
        else used key) given t := by
  have hissued : ∀ poKey n, n ∈ issuedNumbers t poKey ↔ n ∈ issuedNumbers s poKey
      ∨ poKey = u.normalizePoNumber row.poNumber
        ∧ n = freeNumber (issuedNumbers s (u.normalizePoNumber row.poNumber)) row.poLineNumber := by
    intro poKey n
    rw [hissues.register, IssuedTo, newLine, if_neg hpo, Option.some.injEq]
    exact or_congr_right (and_congr_right fun _ => eq_comm)
  constructor
  · intro poKey n
    rw [mem_otherNumbers, hissued]
    by_cases hkey : poKey = u.normalizePoNumber row.poNumber
    · rw [if_pos hkey, List.mem_cons, h.used, mem_otherNumbers]
      constructor
      · rintro (rfl | ⟨hn, hnot⟩)
        · exact ⟨.inr ⟨hkey, rfl⟩, fun hc =>
            freeNumber_not_mem _ _ (hkey ▸ h.given poKey _ hc)⟩
        · exact ⟨.inl hn, hnot⟩
      · rintro ⟨hn | ⟨-, rfl⟩, hnot⟩
        · exact .inr ⟨hn, hnot⟩
        · exact .inl rfl
    · rw [if_neg hkey, h.used, mem_otherNumbers]
      simp [hkey]
  · intro poKey n hn
    rw [hissued]
    exact .inl (h.given poKey n hn)

end PlanAgrees

/-- The row expects to become a new record. -/
def ImportRow.expectsNew (row : ImportRow) : Bool := !row.isError && row.importAction == .create

/-- What a row asks of its purchase order. -/
def ImportRow.lineRequest (row : ImportRow) : String × Option Nat :=
  (row.poNumber, row.poLineNumber)

/-- A row that is marked as an update names a stored licence. -/
def NamesTarget (updateExisting : Bool) (s : Store) (row : ImportRow) : Prop :=
  row.importAction = .update
    → ∃ id, row.matched updateExisting = some id ∧ (s.license? id).isSome = true

theorem target_of_create {row : ImportRow} (h : row.importAction = .create)
    (updateExisting : Bool) (s : Store)
    : row.target updateExisting s = none := by
  have hmatched : row.matched updateExisting = none := by
    rw [ImportRow.matched, h, if_neg (by simp)]
  rw [ImportRow.target, hmatched, Option.filter_none]

theorem target_of_update {row : ImportRow} {s : Store} (h : row.importAction = .update)
    (hmarked : NamesTarget updateExisting s row)
    : ∃ id, row.target updateExisting s = some id := by
  obtain ⟨id, hmatched, hstored⟩ := hmarked h
  exact ⟨id, by rw [ImportRow.target, hmatched, Option.filter_some, if_pos hstored]⟩

/-- The walk over the rows of a run, beside the plan: as long as they agree, the next new record
gets the planned line exactly where the numbers issued to updates do not matter for it. By induction
on the rows.
-/
theorem planLines_iff {rows : List ImportRow} {run : ImportRun} {used given : String → List Nat}
    (hagree : PlanAgrees used given run.store)
    (hmarked : ∀ row ∈ rows, NamesTarget updateExisting run.store row)
    (himported : (rows.foldl (importTurn env updateExisting skipped) run).AllImported)
    : planLines env.unicode used
        ((rows.filter (·.expectsNew)).map (·.lineRequest))
        = linesGiven env updateExisting skipped run rows
      ↔ UpdatesDoNotMatter env updateExisting skipped run given rows := by
  induction rows generalizing run used given with
  | nil => simp [planLines, linesGiven, UpdatesDoNotMatter]
  | cons row rest ih =>
      obtain ⟨hvalid, hstep⟩ := importTurn_imported (AllImported.before rest himported)
      have hrest : ∀ {issued : String → Nat → Prop},
          Issues issued run.store (importTurn env updateExisting skipped run row).store
          → ∀ other ∈ rest, NamesTarget updateExisting
              (importTurn env updateExisting skipped run row).store other := by
        intro issued hissues other hother haction
        obtain ⟨id, hmatched, hstored⟩ := hmarked other (List.mem_cons_of_mem _ hother) haction
        exact ⟨id, hmatched, hissues.stays id hstored⟩
      rcases haction : row.importAction with _ | _
      · have htarget := target_of_create haction updateExisting run.store
        have hnew : row.expectsNew = true := by simp [ImportRow.expectsNew, hvalid, haction]
        simp only [htarget] at hstep
        obtain ⟨hheld, hissues⟩ := importNewRow_line hstep
        have hrequest : row.lineRequest = (row.poNumber, row.poLineNumber) := rfl
        simp only [List.filter_cons_of_pos hnew, List.map_cons, linesGiven, UpdatesDoNotMatter,
          htarget, hrequest, planLines, hheld, newLine]
        by_cases hblank : env.unicode.normalizePoNumber row.poNumber = ""
        · rw [if_pos hblank, if_pos hblank, List.cons.injEq]
          have hnext := ih (hagree.create_blank hblank hissues) (hrest hissues) himported
          simpa only [true_and, hblank, ne_eq, not_true_eq_false, false_imp_iff] using hnext
        · rw [if_neg hblank, if_neg hblank, List.cons.injEq, Option.some.injEq,
            freeNumber_congr (hagree.used _), freeNumber_eq_iff (hagree.given _),
            imp_iff_right hblank]
          refine and_congr_right fun hstands => ?_
          have hnumber := (freeNumber_eq_iff (hagree.given _) row.poLineNumber).mpr hstands
          rw [hnumber]
          exact ih (hagree.create hblank hissues) (hrest hissues) himported
      · obtain ⟨id, htarget⟩ := target_of_update haction (hmarked row List.mem_cons_self)
        have hnew : ¬ row.expectsNew = true := by simp [ImportRow.expectsNew, haction]
        simp only [htarget] at hstep
        have hissues := importUpdateRow_line hstep
        simp only [List.filter_cons_of_neg hnew, linesGiven, UpdatesDoNotMatter, htarget]
        exact ih (hagree.update hissues) (hrest hissues) himported

-- Whole imports

theorem AllImported.valid {rows : List ImportRow} {run : ImportRun}
    (h : (rows.foldl (importTurn env updateExisting skipped) run).AllImported)
    : ∀ row ∈ rows, row.isError = false := by
  induction rows generalizing run with
  | nil => simp
  | cons row rest ih =>
      have hfirst := (importTurn_imported (AllImported.before rest h)).1
      exact List.forall_mem_cons.mpr ⟨hfirst, ih h⟩

theorem mem_maintenanceLast {rows : List ImportRow} {row : ImportRow}
    : row ∈ maintenanceLast rows ↔ row ∈ rows := by
  rw [maintenanceLast, List.mem_append, List.mem_filter, List.mem_filter]
  rcases hrow : row.isMaintenance <;> simp

theorem newRows_eq (rows : List ImportRow)
    : newRows rows = (maintenanceLast rows).filter (·.expectsNew) := by
  simp only [newRows, maintenanceLast, List.filter_append, List.filter_filter]
  congr 1
  · exact List.filter_congr fun row _ => Bool.and_comm _ _
  · exact List.filter_congr fun row _ => Bool.and_comm _ _

theorem markActions_namesTarget {u : Unicode} {s : Store} {rows : List ImportRow}
    (hparsed : ∀ row ∈ rows, row.importAction = .create) {row : ImportRow}
    (hrow : row ∈ markActions u updateExisting s rows) (hnot : row.isError = false)
    : NamesTarget updateExisting s row := by
  intro haction
  unfold markActions at hrow
  split at hrow
  · next hupdate =>
      obtain ⟨parsed, -, rfl⟩ := List.mem_map.mp hrow
      rcases (annotateRow_cases hnot).1 with he | ⟨⟨id, l⟩, hhead, he⟩
      · rw [he] at haction
        cases haction
      · refine ⟨id, ?_, ?_⟩
        · rw [ImportRow.matched, haction, he, hupdate]
          rfl
        · have hmem := Table.get?_eq_some.mpr (List.mem_of_mem_filter hhead)
          exact Option.isSome_of_eq_some hmem
  · rw [hparsed row hrow] at haction
    cases haction

variable (env updateExisting skipped)

/-- The lines that an import of marked rows gives to its new records. -/
def importedLines (rows : List ImportRow) (s : Store) : List (Option Nat) :=
  linesGiven env updateExisting (expandSkippedInferredRows rows skipped) { store := s }
    (maintenanceLast rows)

/-- In an import of marked rows, the numbers that updated licences are issued never matter for the
new records behind them.
-/
def UpdatesLeaveLines (rows : List ImportRow) (s : Store) : Prop :=
  UpdatesDoNotMatter env updateExisting (expandSkippedInferredRows rows skipped) { store := s }
    (fun _ => []) (maintenanceLast rows)

variable {env updateExisting skipped}

/-- The preview of a file whose rows are all imported plans the lines that the run gives, exactly
where the numbers that updated licences are issued do not matter for the new records behind them.
-/
theorem plannedLines_given {rows : List ImportRow} {s : Store}
    (hparsed : ∀ row ∈ rows, row.importAction = .create)
    (himported : (runImportRows env updateExisting
      (markActions env.unicode updateExisting s rows) skipped s).AllImported)
    : plannedLines env.unicode s (markActions env.unicode updateExisting s rows)
        = importedLines env updateExisting skipped
            (markActions env.unicode updateExisting s rows) s
      ↔ UpdatesLeaveLines env updateExisting skipped
          (markActions env.unicode updateExisting s rows) s := by
  -- The run marks the rows once more, to no effect.
  have hvalid := AllImported.valid himported
  simp only [mem_maintenanceLast] at hvalid
  have hagain : markActions env.unicode updateExisting s
      (markActions env.unicode updateExisting s rows)
        = markActions env.unicode updateExisting s rows := by
    unfold markActions at hvalid ⊢
    split
    · next hupdate =>
        simp only [if_pos hupdate] at hvalid
        exact annotateUpdateTargets_again hvalid
    · rfl
  unfold runImportRows at himported
  rw [hagain] at himported hvalid
  rw [plannedLines, planNewLines, newRows_eq]
  refine planLines_iff (.start s) (fun row hrow => ?_) himported
  have hmem := mem_maintenanceLast.mp hrow
  exact markActions_namesTarget hparsed hmem (hvalid row hmem)

/-- A stored licence on the first line of its purchase order. -/
def orderedStore : Store where
  licenses := Table.empty.insert
    { License.ofTerm .subscription none none with
      licenseRef := some "LT-1"
      poNumber := "PO-1"
      poLineId := some 1 }
  poLines := Table.empty.insert { poKey := "po-1", poNumber := "PO-1", lineNumber := 1 }

/-- A row that moves the stored licence to another purchase order. -/
def movingRow : ImportRow where
  rowNumber := 2
  licenseRef := some "LT-1"
  poNumber := "PO-2"

/-- A new record that asks for a line on that purchase order. -/
def joiningRow (requested : Nat) : ImportRow where
  rowNumber := 3
  publisherName := "Acme"
  softwareDescription := "Viewer"
  poNumber := "PO-2"
  poLineNumber := some requested

/-- The moved licence keeps the number 1, so a new record that asks for 5 gets it. -/
theorem plannedLines_given_moved
    : plannedLines .ascii orderedStore (markActions .ascii true orderedStore [movingRow, joiningRow 5])
        = importedLines (.onDay 100) true []
            (markActions .ascii true orderedStore [movingRow, joiningRow 5]) orderedStore
      ↔ UpdatesLeaveLines (.onDay 100) true []
          (markActions .ascii true orderedStore [movingRow, joiningRow 5]) orderedStore :=
  @plannedLines_given (.onDay 100) true [] [movingRow, joiningRow 5] orderedStore
    (by decide +kernel) (by decide +kernel)

/-- A new record that asks for 1 is announced to get it, without a warning, and gets 2. -/
theorem previewLine_taken
    : let rows := markActions .ascii true orderedStore [movingRow, joiningRow 1]
      (runImportRows (.onDay 100) true rows [] orderedStore).AllImported
        ∧ (addPoLineWarnings .ascii orderedStore rows).map (·.warnings) = [[], []]
        ∧ plannedLines .ascii orderedStore rows = [some 1]
        ∧ importedLines (.onDay 100) true [] rows orderedStore = [some 2] := by
  decide +kernel

end LicenseTrack
