import LicenseTrack.Import.Relations

/-! What the parent references of a file lead to in a run: the parent of a maintenance row is the
licence that its parent row became, and the reference of any other row is its predecessor. Both hold
as long as each reference leads somewhere when its row is written.
-/

namespace LicenseTrack

open Library

namespace ImportRow

/-- The row's own reference is the given one. -/
def CarriesRef (u : Unicode) (row : ImportRow) (ref : String) : Prop :=
  ∃ own, importedParentId.truthyText row.licenseRef = some own ∧ u.refKey own = u.refKey ref

end ImportRow

/-- A row of the run before was written as a licence. -/
def ImportRun.WroteAs (run : ImportRun) (rowNumber id : Nat) : Prop :=
  (rowNumber, .created id) ∈ run.outcomes ∨ (rowNumber, .updated id) ∈ run.outcomes

/-- A reference leads to a licence: the one that a row of the file with this reference was written
as or, where no other row carries it, a stored one.
-/
def LeadsTo (u : Unicode) (file : List ImportRow) (run : ImportRun) (t : Store) (row : ImportRow)
    (ref : String) (id : Nat)
    : Prop :=
  (∃ other ∈ file, other.CarriesRef u ref ∧ run.WroteAs other.rowNumber id)
    ∨ (∀ other ∈ file, other.CarriesRef u ref → other.rowNumber = row.rowNumber) ∧ Carries u t id ref

/-- What was stored keeps its relations. -/
structure KeepsRelated (s t : Store) : Prop where
  rows : ∀ id l, s.license? id = some l → ∃ l', t.license? id = some l' ∧ l'.relation = l.relation
  links : ∀ link ∈ s.links, link ∈ t.links

namespace KeepsRelated

variable {s t v : Store}

theorem refl (s : Store) : KeepsRelated s s := ⟨fun _ l hl => ⟨l, hl, rfl⟩, fun _ h => h⟩

theorem trans (h : KeepsRelated s t) (h' : KeepsRelated t v) : KeepsRelated s v where
  rows := fun id l hl => by
    obtain ⟨l', hl', he⟩ := h.rows id l hl
    obtain ⟨l'', hl'', he'⟩ := h'.rows id l' hl'
    exact ⟨l'', hl'', he'.trans he⟩
  links := fun link hlink => h'.links link (h.links link hlink)

theorem of_relations (h : KeepsRelations s t) : KeepsRelated s t where
  rows := fun _ _ hl => h.rows.forth hl
  links := h.links

theorem of_adds {license : License} (h : AddsRecord s.licenses.nextKey license s t)
    : KeepsRelated s t where
  rows := fun id l hl => by
    have hne : id ≠ s.licenses.nextKey := by
      rintro rfl
      simp [Store.license?] at hl
    have hsame := h.others id hne
    rw [hl, Option.map_some] at hsame
    exact Option.map_eq_some_iff.mp hsame
  links := h.links

theorem isSome (h : KeepsRelated s t) {id : Nat} (hid : (s.license? id).isSome = true)
    : (t.license? id).isSome = true := by
  obtain ⟨l, hl⟩ := Option.isSome_iff_exists.mp hid
  obtain ⟨l', hl', -⟩ := h.rows id l hl
  exact Option.isSome_of_eq_some hl'

end KeepsRelated

variable {env : Env} {updateExisting : Bool} {skipped : List Nat} {file : List ImportRow}

theorem importTurn_steps (env : Env) (updateExisting : Bool) (skipped : List Nat)
    (run : ImportRun) (row : ImportRow)
    : (∃ outcome : RowOutcome, outcome.isImported = false
        ∧ importTurn env updateExisting skipped run row = run.note row outcome)
      ∨ row.rowNumber ∉ skipped ∧ row.isError = false
        ∧ ∃ store, importTurn env updateExisting skipped run row
            = run.wrote env.unicode updateExisting row store
          ∧ (row.target updateExisting run.store = none
              ∧ importNewRow env run.progress row.toParsedRow run.store = .ok store
            ∨ ∃ id, row.target updateExisting run.store = some id
              ∧ importUpdateRow env id row.toParsedRow run.store = .ok store) := by
  rcases importTurn_cases env updateExisting skipped run row
    with hnoted | ⟨hskipped, hvalid, store, hstore, he⟩
  · exact .inl hnoted
  · refine .inr ⟨hskipped, hvalid, store, he, ?_⟩
    unfold importRow at hstore
    unfold ImportRow.target
    split at hstore
    · next id hid => exact .inr ⟨id, hid, hstore⟩
    · next hid => exact .inl ⟨hid, hstore⟩

theorem written_related {run : ImportRun} {row : ImportRow} {store : Store}
    (h : row.target updateExisting run.store = none
        ∧ importNewRow env run.progress row.toParsedRow run.store = .ok store
      ∨ ∃ id, row.target updateExisting run.store = some id
        ∧ importUpdateRow env id row.toParsedRow run.store = .ok store)
    : KeepsRelated run.store store ∧ store.Constraints
      ∧ (store.license? (row.written updateExisting run.store).1).isSome = true := by
  rcases h with ⟨htarget, hnew⟩ | ⟨id, htarget, hupdate⟩
  · obtain ⟨license, marked, -, hadds, hactivated, -, hconstraints⟩ := importNewRow_marked hnew
    have hadded := hadds.trans (activateImported_relations hactivated).1
    obtain ⟨l, hl, -⟩ := hadded.record
    refine ⟨.of_adds hadded, hconstraints, ?_⟩
    rw [ImportRow.written, htarget]
    exact Option.isSome_of_eq_some hl
  · obtain ⟨hkeeps, hconstraints⟩ := importUpdateRow_relations hupdate
    have hrelated := KeepsRelated.of_relations hkeeps
    refine ⟨hrelated, hconstraints, ?_⟩
    rw [ImportRow.written, htarget]
    exact hrelated.isSome (Option.filter_eq_some_iff.mp htarget).2

theorem importTurn_related (env : Env) (updateExisting : Bool) (skipped : List Nat)
    (run : ImportRun) (row : ImportRow)
    : KeepsRelated run.store (importTurn env updateExisting skipped run row).store
      ∧ (run.store.Constraints
        → (importTurn env updateExisting skipped run row).store.Constraints) := by
  rcases importTurn_steps env updateExisting skipped run row
    with ⟨outcome, -, he⟩ | ⟨-, -, store, he, hsteps⟩
  · rw [he]
    exact ⟨.refl run.store, id⟩
  · rw [he]
    obtain ⟨hrelated, hconstraints, -⟩ := written_related hsteps
    exact ⟨hrelated, fun _ => hconstraints⟩

/-- What the run remembers of its rows is how they were written, and these licences are stored. -/
structure Remembers (u : Unicode) (file : List ImportRow) (run : ImportRun) : Prop where
  rows : ∀ n id, run.progress.byRowNumber n = some id → run.WroteAs n id
  refs : ∀ ref id, run.progress.byRef u ref = some id
    → ∃ other ∈ file, other.CarriesRef u ref ∧ run.WroteAs other.rowNumber id
  stored : ∀ n id, run.WroteAs n id → (run.store.license? id).isSome = true

theorem Remembers.start (u : Unicode) (file : List ImportRow) (s : Store)
    : Remembers u file { store := s } where
  rows := fun n id h => by simp [ImportProgress.byRowNumber] at h
  refs := fun ref id h => by simp [ImportProgress.byRef] at h
  stored := fun n id h => by simp [ImportRun.WroteAs] at h

theorem written_outcome (updateExisting : Bool) (s : Store) (row : ImportRow)
    : (row.written updateExisting s).2 = .created (row.written updateExisting s).1
      ∨ (row.written updateExisting s).2 = .updated (row.written updateExisting s).1 := by
  unfold ImportRow.written
  split
  · exact .inr rfl
  · exact .inl rfl

/-- A turn remembers its row. -/
theorem Remembers.turn {run : ImportRun} {row : ImportRow} (h : Remembers env.unicode file run)
    (hfile : row ∈ file)
    : Remembers env.unicode file (importTurn env updateExisting skipped run row) := by
  rcases importTurn_steps env updateExisting skipped run row
    with ⟨outcome, hnot, he⟩ | ⟨-, -, store, he, hsteps⟩
  · have hsame : ∀ n id, (run.note row outcome).WroteAs n id ↔ run.WroteAs n id := by
      intro n id
      have hcreated : outcome ≠ .created id := by
        rintro rfl
        simp [RowOutcome.isImported] at hnot
      have hupdated : outcome ≠ .updated id := by
        rintro rfl
        simp [RowOutcome.isImported] at hnot
      simp [ImportRun.WroteAs, ImportRun.note, hcreated.symm, hupdated.symm]
    rw [he]
    refine ⟨fun n id hn => (hsame n id).mpr (h.rows n id hn), fun ref id hid => ?_,
      fun n id hn => h.stored n id ((hsame n id).mp hn)⟩
    obtain ⟨other, hother, hcarries, hwrote⟩ := h.refs ref id hid
    exact ⟨other, hother, hcarries, (hsame _ id).mpr hwrote⟩
  · obtain ⟨hrelated, -, hstored⟩ := written_related hsteps
    rw [he]
    have hnew : (run.wrote env.unicode updateExisting row store).WroteAs row.rowNumber
        (row.written updateExisting run.store).1 := by
      rcases written_outcome updateExisting run.store row with ho | ho
      · exact .inl (by simp [ImportRun.wrote, ho])
      · exact .inr (by simp [ImportRun.wrote, ho])
    have hold : ∀ {n id}, run.WroteAs n id
        → (run.wrote env.unicode updateExisting row store).WroteAs n id := fun hwrote =>
      hwrote.imp (List.mem_cons_of_mem _) (List.mem_cons_of_mem _)
    refine ⟨fun n id hn => ?_, fun ref id hid => ?_, fun n id hn => ?_⟩
    · simp only [ImportRun.wrote, ImportProgress.remember, ImportProgress.byRowNumber,
        List.find?_cons] at hn
      split at hn
      · next hnumber =>
          obtain rfl : row.rowNumber = n := by simpa using hnumber
          obtain rfl := Option.some.inj hn
          exact hnew
      · exact hold (h.rows n id hn)
    · have hbefore : run.progress.byRef env.unicode ref = some id → ∃ other ∈ file,
          other.CarriesRef env.unicode ref
          ∧ (run.wrote env.unicode updateExisting row store).WroteAs other.rowNumber id := fun hr => by
        obtain ⟨other, hother, hcarries, hwrote⟩ := h.refs ref id hr
        exact ⟨other, hother, hcarries, hold hwrote⟩
      simp only [ImportRun.wrote, ImportProgress.remember, ImportProgress.byRef] at hid
      split at hid
      · next own hown =>
          rw [List.find?_cons] at hid
          split at hid
          · next hkey =>
              obtain rfl := Option.some.inj hid
              exact ⟨row, hfile, ⟨own, hown, by simpa using hkey⟩, hnew⟩
          · exact hbefore hid
      · exact hbefore hid
    · have hcases : (row.written updateExisting run.store).1 = id ∨ run.WroteAs n id := by
        simp only [ImportRun.WroteAs, ImportRun.wrote, List.mem_cons, Prod.mk.injEq] at hn ⊢
        rcases written_outcome updateExisting run.store row with ho | ho
        · simp only [ho, RowOutcome.created.injEq, reduceCtorEq, and_false, false_or] at hn
          tauto
        · simp only [ho, RowOutcome.updated.injEq, reduceCtorEq, and_false, false_or] at hn
          tauto
      rcases hcases with rfl | hwrote
      · exact hstored
      · exact hrelated.isSome (h.stored n id hwrote)

-- References that stand

/-- A maintenance row that names it. -/
def supportRow : ImportRow where
  rowNumber := 3
  publisherName := "Acme"
  softwareDescription := "Editor support"
  licenseType := some .maintenance
  parentLicenseRef := some "LT-1"

end LicenseTrack
