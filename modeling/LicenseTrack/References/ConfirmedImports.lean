import LicenseTrack.References.DecidedImports

/-! Whole confirmed imports: the rows that the run resolves are those that the decisions were
validated for, so a validated import runs to its end exactly where each name without a decision is
clear when its turn comes, and then the cells of one candidate end with one record.
-/

namespace LicenseTrack.References

open Library

variable {env : Env} {ratio : String → String → Rat} {decisions : ReferenceDecisions}
  {updateExisting : Bool} {skipped : List Nat} {cells : List ReferenceCell}
  {tables₀ : ReferenceTables} {s : Store}

/-- The database and the code compare stored licence references alike. -/
def RefsReadAlike (u : Unicode) (s : Store) : Prop :=
  ∀ entry ∈ s.licenses.entries, ∀ ref, entry.2.licenseRef = some ref → sqlLower ref = u.refKey ref

instance (u : Unicode) (s : Store) : Decidable (RefsReadAlike u s) :=
  decidable_of_iff (∀ entry ∈ s.licenses.entries,
      entry.2.licenseRef.all (fun ref => sqlLower ref == u.refKey ref) = true)
    (forall_congr' fun entry => forall_congr' fun _ => by
      cases entry.2.licenseRef <;> simp)

theorem mem_importRefs {u : Unicode} {rows : List ImportRow} {row : ImportRow}
    (hrow : row ∈ rows) (hvalid : row.isError = false)
    : row.refKey u ∈ importRefs u rows ↔ row.refKey u ≠ "" := by
  simp only [importRefs, List.mem_filter, List.mem_map, decide_eq_true_eq, and_iff_right_iff_imp]
  exact fun _ => ⟨row, ⟨hrow, by simp [hvalid]⟩, rfl⟩

theorem heads_of_row {u : Unicode} (halike : RefsReadAlike u s) (refs : List String) (key : String)
    : (updateHeads s refs).filter (fun entry => u.refKey (entry.2.licenseRef.getD "") == key)
      = s.licenses.entries.filter (fun entry =>
          (entry.2.licenseRef.any (fun ref => u.refKey ref == key) && refs.contains key)
            && (!entry.2.isRetired && entry.2.renewedToId.isNone)) := by
  rw [updateHeads, List.filter_filter]
  refine List.filter_congr fun entry hentry => ?_
  rcases href : entry.2.licenseRef with _ | ref
  · simp
  · have hread := halike entry hentry ref href
    simp only [Option.getD_some, Option.any_some, hread]
    by_cases hkey : u.refKey ref = key
    · simp [hkey, Bool.and_assoc]
    · have hother : (u.refKey ref == key) = false := by simpa using hkey
      simp [hother]

theorem annotateRow_congr {u : Unicode} (halike : RefsReadAlike u s) {refs refs' : List String}
    {row : ImportRow} (h : refs.contains (row.refKey u) = refs'.contains (row.refKey u))
    : annotateRow u (updateHeads s refs) row = annotateRow u (updateHeads s refs') row := by
  unfold annotateRow
  rw [heads_of_row halike, heads_of_row halike, h]

theorem markActions_again {u : Unicode} (halike : RefsReadAlike u s) (rows : List ImportRow)
    : markActions u updateExisting s (markActions u updateExisting s rows)
      = markActions u updateExisting s rows := by
  unfold markActions
  split
  · unfold annotateUpdateTargets
    rw [List.map_map]
    refine List.map_congr_left fun row hrow => ?_
    rw [Function.comp_apply]
    rcases hmarked : (annotateRow u (updateHeads s (importRefs u rows)) row).isError with _ | _
    · have hvalid := (annotateRow_cases hmarked).2
      have hmem : annotateRow u (updateHeads s (importRefs u rows)) row
          ∈ rows.map (annotateRow u (updateHeads s (importRefs u rows))) := List.mem_map_of_mem hrow
      have hkey : (annotateRow u (updateHeads s (importRefs u rows)) row).refKey u
          = row.refKey u := by
        rw [ImportRow.refKey, ImportRow.refKey, annotateRow_licenseRef]
      have hrefs : (importRefs u (rows.map (annotateRow u (updateHeads s (importRefs u rows))))).contains
            (row.refKey u) = (importRefs u rows).contains (row.refKey u) := by
        have hsecond := mem_importRefs (u := u) hmem hmarked
        rw [hkey] at hsecond
        rw [Bool.eq_iff_iff, List.contains_iff_mem, List.contains_iff_mem, hsecond,
          mem_importRefs hrow hvalid]
      have hheads := annotateRow_congr halike hrefs
      conv_rhs => rw [← hheads]
      rcases (annotateRow_cases hmarked).1 with he | ⟨entry, -, he⟩
      · rw [he]
        exact annotateRow_marked u _ hvalid _ _
      · rw [he]
        exact annotateRow_marked u _ hvalid _ _
    · exact annotateRow_isError hmarked
  · rfl

theorem subset_expandOnce (rows : List ImportRow) (skipped : List Nat)
    : skipped ⊆ expandOnce rows skipped := by
  unfold expandOnce
  induction rows generalizing skipped with
  | nil => exact fun _ h => h
  | cons row rest ih =>
      rw [List.foldl_cons]
      refine List.Subset.trans ?_ (ih _)
      split
      · exact List.subset_cons_self _ _
      · exact fun _ h => h

theorem subset_expandSkipped (rows : List ImportRow) (skipped : List Nat)
    : skipped ⊆ expandSkippedInferredRows rows skipped := by
  unfold expandSkippedInferredRows
  generalize rows.length = passes
  induction passes generalizing skipped with
  | zero => exact fun _ h => h
  | succ n ih =>
      rw [Function.iterate_succ_apply]
      exact List.Subset.trans (subset_expandOnce rows skipped) (ih _)

theorem cellsToResolve_eq {row : ImportRow} {isUpdate : Bool}
    (h : isUpdate = true ↔ row.importAction = .update)
    : cellsToResolve isUpdate row = rowReferenceValues row := by
  unfold cellsToResolve rowReferenceValues
  congr 2
  by_cases hname : row.publisherName = ""
  · cases isUpdate <;> simp_all [orElse]
  · simp [hname, orElse]

-- Turns

/-- The cells of a row are clear when its turn comes. -/
def RowClear (env : Env) (ratio : String → String → Rat) (decisions : ReferenceDecisions)
    (updateExisting : Bool) (skipped : List Nat) (cells : List ReferenceCell)
    (state : ReferenceRun) (row : ImportRow)
    : Prop :=
  (skipped.contains row.rowNumber || row.isError) = true
    ∨ CellsClear env.unicode ratio decisions cells
        (cellsToResolve (row.target updateExisting state.run.store).isSome row) state.tables

/-- The rows of a run are clear, each when its turn comes. -/
def RowsClear (env : Env) (ratio : String → String → Rat) (decisions : ReferenceDecisions)
    (updateExisting : Bool) (skipped : List Nat) (cells : List ReferenceCell)
    : List ImportRow → ReferenceRun → Prop
  | [], _ => True
  | row :: rest, state =>
      RowClear env ratio decisions updateExisting skipped cells state row
        ∧ match referenceTurn env ratio decisions updateExisting skipped state row with
          | .ok next => RowsClear env ratio decisions updateExisting skipped cells rest next
          | .error _ => True

/-- A run so far: its directories have grown as expected, what was stored before is stored, and each
cell of a written row leads to the record that it ended with.
-/
structure RunSound (env : Env) (decisions : ReferenceDecisions) (cells : List ReferenceCell)
    (tables₀ : ReferenceTables) (s : Store) (state : ReferenceRun)
    : Prop where
  grown : TablesGrown env.unicode decisions cells tables₀ state.tables
  stays : KeepsRelated s state.run.store
  ended : ∀ r ∈ state.ended, CellLeadsTo env.unicode decisions state.tables r.1 r.2.2

/-- A row whose cells are prepared, if it is to be written. -/
def RowPrepared (env : Env) (ratio : String → String → Rat) (decisions : ReferenceDecisions)
    (updateExisting : Bool) (skipped : List Nat) (cells : List ReferenceCell)
    (tables₀ : ReferenceTables) (s : Store) (row : ImportRow)
    : Prop :=
  (skipped.contains row.rowNumber || row.isError) = true
    ∨ NamesTarget updateExisting s row
      ∧ ∀ cell ∈ rowReferenceValues row,
          CellPrepared env.unicode ratio decisions cells tables₀ cell

theorem target_isSome_iff {row : ImportRow} {t : Store} (hmarked : NamesTarget updateExisting s row)
    (hstays : KeepsRelated s t)
    : (row.target updateExisting t).isSome = true ↔ row.importAction = .update := by
  rcases haction : row.importAction with _ | _
  · simp [target_of_create haction]
  · have hstill : NamesTarget updateExisting t row := fun h => by
      obtain ⟨id, hmatched, hstored⟩ := hmarked h
      exact ⟨id, hmatched, hstays.isSome hstored⟩
    obtain ⟨id, hid⟩ := target_of_update haction hstill
    simp [hid]

theorem referenceTurn_resolves (hu : env.unicode.CleansOnce) (hsound : tables₀.Sound)
    {state : ReferenceRun} {row : ImportRow}
    (hrow : RowPrepared env ratio decisions updateExisting skipped cells tables₀ s row)
    (hstate : RunSound env decisions cells tables₀ s state)
    : ((∃ next, referenceTurn env ratio decisions updateExisting skipped state row = .ok next)
        ↔ RowClear env ratio decisions updateExisting skipped cells state row)
      ∧ ∀ next, referenceTurn env ratio decisions updateExisting skipped state row = .ok next
        → RunSound env decisions cells tables₀ s next := by
  unfold referenceTurn RowClear
  split
  · next hskip =>
      refine ⟨⟨fun _ => .inl hskip, fun _ => ⟨_, rfl⟩⟩, fun next hok => ?_⟩
      obtain rfl := Except.ok.inj hok
      exact ⟨hstate.grown,
        hstate.stays.trans (importTurn_related env updateExisting skipped _ _).1, hstate.ended⟩
  · next hactive =>
      obtain ⟨hmarked, hprepared⟩ := hrow.resolve_left hactive
      have hcells := cellsToResolve_eq (target_isSome_iff hmarked hstate.stays)
      dsimp only
      rw [hcells]
      obtain ⟨hsucceeds, hleads⟩ := resolveCells_resolves hu hsound hprepared hstate.grown
      rw [or_iff_right hactive, ← hsucceeds]
      rcases hresolve : resolveCells env.unicode ratio decisions (rowReferenceValues row)
        state.tables with failure | ⟨resolved, t⟩
      · simp
      · obtain ⟨hgrown, hkeeps, hled⟩ := hleads resolved t hresolve
        have hrelated := hstate.stays.trans
          (importTurn_related env updateExisting skipped state.run (withReferences resolved row)).1
        refine ⟨⟨fun _ => ⟨_, _, rfl⟩, fun _ => ?_⟩, fun next hok => ?_⟩
        · dsimp only
          split
          · exact ⟨_, rfl⟩
          · exact ⟨_, rfl⟩
        · dsimp only at hok
          split at hok
          · obtain rfl := Except.ok.inj hok
            refine ⟨hgrown, hrelated, fun r hr => ?_⟩
            rcases List.mem_append.mp hr with hr | hr
            · exact (hstate.ended r hr).mono hkeeps
            · exact hled r hr
          · obtain rfl := Except.ok.inj hok
            exact ⟨hstate.grown, hrelated, hstate.ended⟩

theorem referenceRun_resolves (hu : env.unicode.CleansOnce) (hsound : tables₀.Sound)
    {rows : List ImportRow}
    (hrows : ∀ row ∈ rows,
      RowPrepared env ratio decisions updateExisting skipped cells tables₀ s row)
    {state : ReferenceRun} (hstate : RunSound env decisions cells tables₀ s state)
    : ((∃ final, rows.foldlM (referenceTurn env ratio decisions updateExisting skipped) state
          = .ok final)
        ↔ RowsClear env ratio decisions updateExisting skipped cells rows state)
      ∧ ∀ final, rows.foldlM (referenceTurn env ratio decisions updateExisting skipped) state
          = .ok final
        → RunSound env decisions cells tables₀ s final := by
  induction rows generalizing state with
  | nil =>
      refine ⟨⟨fun _ => trivial, fun _ => ⟨state, rfl⟩⟩, fun final hok => ?_⟩
      obtain rfl : state = final := by simpa using hok
      exact hstate
  | cons row rest ih =>
      obtain ⟨hrow, hothers⟩ := List.forall_mem_cons.mp hrows
      obtain ⟨hsucceeds, hkeeps⟩ := referenceTurn_resolves hu hsound hrow hstate
      rw [List.foldlM_cons, RowsClear, ← hsucceeds]
      rcases hturn : referenceTurn env ratio decisions updateExisting skipped state row
        with failure | next
      · simp
      · obtain ⟨hrest, hfinal⟩ := ih hothers (hkeeps next hturn)
        rw [ok_bind]
        exact ⟨hrest.trans ⟨fun h => ⟨⟨next, rfl⟩, h⟩, fun h => h.2⟩, hfinal⟩

-- Whole imports

/-- Cells that were shown as one candidate ended with one record. -/
def OneRecordEach (u : Unicode) (final : ReferenceRun) : Prop :=
  ∀ a ∈ final.ended, ∀ b ∈ final.ended, b.1.key u = a.1.key u → a.2.2 = b.2.2

/-- The rows of a confirmed import and the rows that it skips, as the decisions are validated. -/
def validatedImport (env : Env) (ratio : String → String → Rat) (decisions : ReferenceDecisions)
    (updateExisting : Bool) (rows : List ImportRow) (skipped : List Nat) (tables : ReferenceTables)
    (s : Store)
    : Except Failure PUnit :=
  let rows := markActions env.unicode updateExisting s rows
  validateReferenceOverrides env.unicode ratio tables rows
    (expandSkippedInferredRows rows skipped) decisions

/-- A confirmed import behind the validation of its decisions. -/
def confirmedImport (env : Env) (ratio : String → String → Rat) (decisions : ReferenceDecisions)
    (updateExisting : Bool) (rows : List ImportRow) (skipped : List Nat) (tables : ReferenceTables)
    (s : Store)
    : Except Failure ReferenceRun :=
  let rows := markActions env.unicode updateExisting s rows
  runDecidedRows env ratio decisions updateExisting rows (expandSkippedInferredRows rows skipped)
    tables s

/-- When its turn comes, no name without a decision that nobody bears yet is similar to a record that
is stored under a display name that a candidate of the file was accepted under.
-/
def ImportClear (env : Env) (ratio : String → String → Rat) (decisions : ReferenceDecisions)
    (updateExisting : Bool) (rows : List ImportRow) (skipped : List Nat) (tables : ReferenceTables)
    (s : Store)
    : Prop :=
  let rows := markActions env.unicode updateExisting s rows
  let skips := expandSkippedInferredRows rows skipped
  RowsClear env ratio decisions updateExisting (expandSkippedInferredRows rows skips)
    (fileCells rows skips) (maintenanceLast rows) { tables := tables, run := { store := s } }

/-- An import whose decisions were accepted resolves every name to one record for each candidate,
without a conflict, exactly where each name without a decision is clear when its turn comes.
-/
theorem confirmedImport_resolves {rows : List ImportRow} (hu : env.unicode.CleansOnce)
    (hsound : tables₀.Sound) (hparsed : ∀ row ∈ rows, row.importAction = .create)
    (halike : RefsReadAlike env.unicode s)
    (hvalidated : validatedImport env ratio decisions updateExisting rows skipped tables₀ s = .ok ⟨⟩)
    : (∃ final, confirmedImport env ratio decisions updateExisting rows skipped tables₀ s = .ok final
        ∧ OneRecordEach env.unicode final)
      ↔ ImportClear env ratio decisions updateExisting rows skipped tables₀ s := by
  have hcells := cells_prepared hsound hvalidated
  unfold confirmedImport runDecidedRows ImportClear
  dsimp only
  rw [markActions_again halike]
  have hstart : RunSound env decisions (fileCells (markActions env.unicode updateExisting s rows)
      (expandSkippedInferredRows (markActions env.unicode updateExisting s rows) skipped)) tables₀ s
      { tables := tables₀, run := { store := s } } :=
    ⟨⟨.start hsound.1, .start hsound.2⟩, .refl s, fun _ hr => absurd hr List.not_mem_nil⟩
  have hrows : ∀ row ∈ maintenanceLast (markActions env.unicode updateExisting s rows),
      RowPrepared env ratio decisions updateExisting
        (expandSkippedInferredRows (markActions env.unicode updateExisting s rows)
          (expandSkippedInferredRows (markActions env.unicode updateExisting s rows) skipped))
        (fileCells (markActions env.unicode updateExisting s rows)
          (expandSkippedInferredRows (markActions env.unicode updateExisting s rows) skipped))
        tables₀ s row := by
    intro row hrow
    have hmem := mem_maintenanceLast.mp hrow
    unfold RowPrepared
    rw [or_iff_not_imp_left, Bool.or_eq_true, not_or]
    rintro ⟨hnot, hvalid⟩
    have hvalid : row.isError = false := by simpa using hvalid
    have hskipped : row.rowNumber ∉ expandSkippedInferredRows
        (markActions env.unicode updateExisting s rows) skipped := fun hc =>
      hnot (List.contains_iff_mem.mpr (subset_expandSkipped _ _ hc))
    refine ⟨markActions_namesTarget hparsed hmem hvalid, fun cell hcell => hcells cell ?_⟩
    refine List.mem_flatMap.mpr ⟨row, List.mem_filter.mpr ⟨hmem, ?_⟩, hcell⟩
    simp [hvalid, hskipped]
  obtain ⟨hsucceeds, hfinal⟩ := referenceRun_resolves hu hsound hrows hstart
  rw [← hsucceeds]
  refine ⟨fun ⟨final, hok, _⟩ => ⟨final, hok⟩, fun ⟨final, hok⟩ => ⟨final, hok, ?_⟩⟩
  intro a ha b hb hkey
  have hstate := hfinal final hok
  exact CellLeadsTo.unique hstate.grown hkey (hstate.ended a ha) (hstate.ended b hb)

/-- A new record of a publisher. -/
def publisherRow (rowNumber : Nat) (publisher : String) : ImportRow where
  rowNumber := rowNumber
  publisherName := publisher
  softwareDescription := "Editor"

/-- Contoso accepted under another display name. -/
def renamingContoso (displayName : String) : ReferenceDecisions := fun key =>
  if key = (.organization, "contoso") then
    some { action := .acceptNew, displayName := some displayName }
  else none

/-- The ratios of a sequence matcher for the names below. -/
def sampleRatio (left right : String) : Rat :=
  if left = right then 1
  else if left = "adobe" ∧ right = "adobe systems" ∨ left = "adobe systems" ∧ right = "adobe" then
    10 / 18
  else if left = "northwind" ∨ right = "northwind" then 2 / 14
  else 2 / 12

/-- No record is similar to the second publisher, so the import resolves both. -/
theorem confirmedImport_resolves_northwind
    : (∃ final, confirmedImport (.onDay 100) sampleRatio (renamingContoso "Northwind") false
          [publisherRow 2 "Contoso", publisherRow 3 "Adobe"] [] {} {} = .ok final
        ∧ OneRecordEach .ascii final)
      ↔ ImportClear (.onDay 100) sampleRatio (renamingContoso "Northwind") false
          [publisherRow 2 "Contoso", publisherRow 3 "Adobe"] [] {} {} :=
  confirmedImport_resolves Unicode.ascii_cleansOnce
    ⟨⟨fun _ _ _ h => (nomatch h), fun _ _ h => (nomatch h)⟩,
      ⟨fun _ _ _ h => (nomatch h), fun _ _ h => (nomatch h)⟩⟩
    (by decide +kernel) (by decide +kernel) (by decide +kernel)

/-- The decision is accepted, and the record that it creates makes the import refuse the publisher
behind it.
-/
theorem confirmedImport_refused
    : validatedImport (.onDay 100) sampleRatio (renamingContoso "Adobe Systems") false
          [publisherRow 2 "Contoso", publisherRow 3 "Adobe"] [] {} {} = .ok ⟨⟩
      ∧ (confirmedImport (.onDay 100) sampleRatio (renamingContoso "Adobe Systems") false
          [publisherRow 2 "Contoso", publisherRow 3 "Adobe"] [] {} {}).map (fun _ => ())
        = .error (.http 409
            "Organization 'Adobe' has possible duplicates and requires an import decision.") := by
  decide +kernel

end LicenseTrack.References
