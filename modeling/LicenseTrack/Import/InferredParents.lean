import LicenseTrack.Import.ParentDecisions
import LicenseTrack.Services.DuplicateDetection

/-! The parents that an import infers for its maintenance rows from the other rows of the file, and
where a row that can be imported has its parent from.
-/

namespace LicenseTrack.CsvImport

open Library References

variable {u : Unicode} {today : Date} {s : Store}

/-- The cells of a row that inference compares besides its names, and the row's own reference. -/
structure ParentCells where
  contractNumber : String
  poNumber : String
  licenseRef : Option String
deriving DecidableEq

/-- A row of the import as inference reads and writes it. -/
structure InferenceRow where
  row : ClassifiedRow
  cells : ParentCells
deriving DecidableEq

/-- A reference that counts as one. -/
def isFilled (ref : Option String) : Bool := ref.any (· != "")

/-- What `re.sub` leaves of a text of one line, for a pattern that ends where the line does. -/
def cutTail (tail : List Char → Bool) : List Char → List Char
  | [] => []
  | c :: rest => if tail (c :: rest) then [] else c :: cutTail tail rest

/-- The pattern of a dash and what follows `maintenance`. -/
def isDashedMaintenance (text : List Char) : Bool :=
  match text.dropWhile isSpace with
  | [] => false
  | c :: rest =>
      (c == '-' || c == '–' || c == '—')
        && "maintenance".toList.isPrefixOf (rest.dropWhile isSpace)

/-- The pattern of the last word `maintenance`. -/
def isMaintenanceWord (text : List Char) : Bool :=
  text.head?.any isSpace && text.dropWhile isSpace == "maintenance".toList

/-- The pattern of a closing `m` or `maintenance` with the separators in front. -/
def isMaintenanceMark (text : List Char) : Bool :=
  let mark := text.dropWhile (fun c => c == '-' || c == '_' || isSpace c)
  mark == ['m'] || mark == "maintenance".toList

/-- `_strip_maintenance_suffix`. -/
def stripMaintenanceSuffix (u : Unicode) (value : String) : List Char :=
  stripChars isSpace
    (cutTail isMaintenanceWord (cutTail isDashedMaintenance (u.normText value).toList))

/-- `_contract_parent_key`. -/
def contractParentKey (u : Unicode) (value : String) : List Char :=
  stripChars isSpace (cutTail isMaintenanceMark (u.normText value).toList)

/-- `_is_parent_candidate`. -/
def InferenceRow.isParentCandidate (own : InferenceRow) : Bool :=
  own.row.licenseType.any LicenseType.isMaintenanceParent
    && own.row.classification.importStatus != .error

/-- `_parent_match_score`. -/
def parentMatchScore (u : Unicode) (maintenance parent : InferenceRow) : Nat :=
  if u.normText maintenance.row.publisherName ≠ u.normText parent.row.publisherName then 0
  else
    let mDesc := stripMaintenanceSuffix u maintenance.row.softwareDescription
    let pDesc := stripMaintenanceSuffix u parent.row.softwareDescription
    let mContract := contractParentKey u maintenance.cells.contractNumber
    let pContract := contractParentKey u parent.cells.contractNumber
    1
      + (if mDesc ≠ [] ∧ mDesc = pDesc then 3
        else if mDesc ≠ [] ∧ pDesc ≠ [] ∧ (pDesc.isPrefixOf mDesc || mDesc.isPrefixOf pDesc) then 2
        else 0)
      + (if maintenance.cells.poNumber ≠ "" ∧ parent.cells.poNumber ≠ ""
            ∧ u.normText maintenance.cells.poNumber = u.normText parent.cells.poNumber then 3
        else 0)
      + (if mContract ≠ [] ∧ pContract ≠ [] ∧ mContract = pContract then 3 else 0)

/-- `_set_parent_error`. -/
def InferenceRow.setParentError (own : InferenceRow) (reason : String) : InferenceRow :=
  { own with
    row :=
      { own.row with
        classification := ⟨.error, none, false⟩
        validationErrors :=
          if own.row.validationErrors.any isParentRefError then own.row.validationErrors
          else own.row.validationErrors ++ [reason] } }

/-- A row gets an earlier row of the file as its parent. -/
def InferenceRow.linkTo (own parent : InferenceRow) : InferenceRow :=
  { own with
    row :=
      { own.row with
        parentImportRowNumber := some parent.row.rowNumber
        parentLicenseRef :=
          if isFilled parent.cells.licenseRef then parent.cells.licenseRef
          else own.row.parentLicenseRef
        warnings := own.row.warnings
          ++ [s!"Linked to parent row {parent.row.rowNumber} for maintenance import."] } }

/-- A maintenance row without a parent, that no decision leaves without one. -/
def InferenceRow.lacksParent (own : InferenceRow) : Bool :=
  own.row.licenseType == some .maintenance
    && !(own.row.selectedParentLicenseId.isSome
      || own.row.maintenanceParentAction == some .importLegacyUnlinked)
    && !isFilled own.row.parentLicenseRef

/-- The order of the matches: the higher score first, then the lower row number. -/
def matchBefore (a b : InferenceRow × Nat) : Bool :=
  b.2 < a.2 || (a.2 == b.2 && a.1.row.rowNumber ≤ b.1.row.rowNumber)

/-- The candidates that match a row well enough, in order. -/
def parentMatches (u : Unicode) (candidates : List InferenceRow) (own : InferenceRow)
    : List (InferenceRow × Nat) :=
  let others := candidates.filter (fun candidate => candidate.row.rowNumber != own.row.rowNumber)
  let scored := others.map (fun candidate => (candidate, parentMatchScore u own candidate))
  (scored.filter (fun entry => 5 ≤ entry.2)).mergeSort matchBefore

/-- One turn of the loop of `infer_batch_maintenance_parents`. -/
def inferParent (u : Unicode) (candidates : List InferenceRow) (own : InferenceRow)
    : InferenceRow :=
  if own.lacksParent then
    match parentMatches u candidates own with
    | [] =>
        own.setParentError ("Maintenance rows require a 'parent_license_ref' column or a matching "
          ++ "perpetual/oem/freeware parent row in the same import.")
    | (parent, bestScore) :: rest =>
        let bestMatches := ((parent, bestScore) :: rest).filter (fun entry => entry.2 == bestScore)
        if 1 < bestMatches.length then
          own.setParentError ("Maintenance parent is ambiguous; add a 'parent_license_ref' column "
            ++ "to choose the parent perpetual/oem/freeware license.")
        else if own.row.rowNumber < parent.row.rowNumber then
          own.setParentError
            (s!"Inferred maintenance parent row {parent.row.rowNumber} must appear before "
              ++ s!"maintenance row {own.row.rowNumber} in the import file.")
        else own.linkTo parent
  else own

/-- `infer_batch_maintenance_parents`. Its turns write to maintenance rows only, and these are no
candidates.
-/
def inferBatchMaintenanceParents (u : Unicode) (rows : List InferenceRow) : List InferenceRow :=
  rows.map (inferParent u (rows.filter InferenceRow.isParentCandidate))

/-- The start of `prepare_import_rows` on the rows of a file. -/
def prepareParents (u : Unicode) (today : Date) (s : Store)
    (overrides : List (Nat × ParentDecision)) (file : List (ClassifiedCells × ParentCells))
    : Except Failure (List InferenceRow) := do
  let decided ← applyImportRowOverrides u today s overrides
    (file.map (fun cells => finishRow u today cells.1))
  pure (inferBatchMaintenanceParents u (List.zipWith InferenceRow.mk decided (file.map Prod.snd)))

/-- Of the candidates, one matches a row well enough and better than all others. -/
structure BestParent (u : Unicode) (candidates : List InferenceRow) (own parent : InferenceRow)
    : Prop where
  candidate : parent ∈ candidates
  other : parent.row.rowNumber ≠ own.row.rowNumber
  score : 5 ≤ parentMatchScore u own parent
  best : ∀ rival ∈ candidates, rival.row.rowNumber ≠ own.row.rowNumber → rival ≠ parent →
    parentMatchScore u own rival < parentMatchScore u own parent

/-- The best match of a row stands before it in the file. -/
def EarlierParent (u : Unicode) (candidates : List InferenceRow) (own parent : InferenceRow)
    : Prop :=
  BestParent u candidates own parent ∧ parent.row.rowNumber < own.row.rowNumber

/-- What a row says about its parent. -/
def InferenceRow.parentLinks (own : InferenceRow) : Option Nat × Option Nat × Option String :=
  (own.row.selectedParentLicenseId, own.row.parentImportRowNumber, own.row.parentLicenseRef)

/-- Where a maintenance row has its parent from: it goes without one by a decision, a decision chose
a licence that can be one, the file names it, or it is the best match before the row in the file.
-/
inductive Parented (u : Unicode) (s : Store) (overrides : List (Nat × ParentDecision))
    (candidates : List InferenceRow) (cell : Option String) (own : InferenceRow)
    : Prop
  | unlinked (decided : (own.row.rowNumber, .importLegacyUnlinked) ∈ overrides)
      (links : own.parentLinks = (none, none, none))
  | chosen {id : Nat} {parent : License}
      (decided : (own.row.rowNumber, .linkExisting id) ∈ overrides)
      (valid : validateParentLicense s id = .ok parent)
      (links : own.parentLinks = (some id, none, parent.licenseRef))
  | named (undecided : own.row.rowNumber ∉ overrides.map Prod.fst) (filled : isFilled cell = true)
      (links : own.parentLinks = (none, none, cell))
  | inferred {parent : InferenceRow} (undecided : own.row.rowNumber ∉ overrides.map Prod.fst)
      (blank : isFilled cell = false) (earlier : EarlierParent u candidates own parent)
      (links : own.parentLinks = (none, some parent.row.rowNumber,
        if isFilled parent.cells.licenseRef then parent.cells.licenseRef else cell))

-- The best match

section Matches

variable (u) (candidates : List InferenceRow) (own : InferenceRow)

theorem mem_parentMatches (candidate : InferenceRow) (score : Nat)
    : (candidate, score) ∈ parentMatches u candidates own
      ↔ candidate ∈ candidates ∧ candidate.row.rowNumber ≠ own.row.rowNumber
        ∧ parentMatchScore u own candidate = score ∧ 5 ≤ score := by
  simp only [parentMatches, List.mem_mergeSort, List.mem_filter, List.mem_map, bne_iff_ne,
    decide_eq_true_eq, Prod.mk.injEq]
  constructor
  · rintro ⟨⟨_, ⟨hmem, hother⟩, rfl, hsame⟩, hscore⟩
    exact ⟨hmem, hother, hsame, hscore⟩
  · rintro ⟨hmem, hother, hsame, hscore⟩
    exact ⟨⟨candidate, ⟨hmem, hother⟩, rfl, hsame⟩, hscore⟩

theorem parentMatches_nodup (hnodup : candidates.Nodup)
    : (parentMatches u candidates own).Nodup := by
  refine (List.mergeSort_perm _ _).nodup_iff.mpr (List.Nodup.filter _ ?_)
  exact (hnodup.filter _).map fun _ _ h => congrArg Prod.fst h

theorem parentMatches_sorted
    : (parentMatches u candidates own).Pairwise (fun a b => b.2 ≤ a.2) := by
  refine (List.pairwise_mergeSort (fun a b c hab hbc => ?_) (fun a b => ?_) _).imp fun hab => ?_
  all_goals
    simp only [matchBefore, Bool.or_eq_true, Bool.and_eq_true, decide_eq_true_eq,
      beq_iff_eq] at *
    omega

/-- A row without a parent is linked to its best match where that stands before it, and refused
where there is no such match.
-/
theorem inferParent_cases (hnodup : candidates.Nodup) (hlacks : own.lacksParent = true)
    : (∃ parent, EarlierParent u candidates own parent
        ∧ inferParent u candidates own = own.linkTo parent)
      ∨ (¬(∃ parent, EarlierParent u candidates own parent)
        ∧ ∃ reason, inferParent u candidates own = own.setParentError reason) := by
  have hfound {parent : InferenceRow} (h : BestParent u candidates own parent)
      : (parent, parentMatchScore u own parent) ∈ parentMatches u candidates own :=
    (mem_parentMatches u candidates own _ _).mpr ⟨h.candidate, h.other, rfl, h.score⟩
  have hsorted := parentMatches_sorted u candidates own
  have hdistinct := parentMatches_nodup u candidates own hnodup
  have hmem := mem_parentMatches u candidates own
  unfold inferParent
  rw [if_pos hlacks]
  generalize parentMatches u candidates own = found at hfound hsorted hdistinct hmem ⊢
  cases found with
  | nil =>
      refine .inr ⟨?_, _, rfl⟩
      rintro ⟨parent, hbest, -⟩
      cases hfound hbest
  | cons first rest =>
      obtain ⟨parent, bestScore⟩ := first
      obtain ⟨hcandidate, hother, hbestScore, hscore⟩ := (hmem _ _).mp List.mem_cons_self
      have hbefore (candidate : InferenceRow) (score : Nat) (h : (candidate, score) ∈ rest)
          : score ≤ bestScore :=
        (List.pairwise_cons.mp hsorted).1 (candidate, score) h
      obtain ⟨hnew, -⟩ := List.nodup_cons.mp hdistinct
      have honly {best : InferenceRow} (h : BestParent u candidates own best) : best = parent := by
        by_contra hne
        have hless := h.best parent hcandidate hother (Ne.symm hne)
        rcases List.mem_cons.mp (hfound h) with hfirst | hlater
        · exact hne (congrArg Prod.fst hfirst)
        · have hleast := hbefore _ _ hlater
          omega
      dsimp only
      rw [List.filter_cons_of_pos (by simp), List.length_cons]
      split_ifs with htie hlate
      · refine .inr ⟨?_, _, rfl⟩
        rintro ⟨best, hbest, -⟩
        obtain rfl := honly hbest
        obtain ⟨⟨rival, score⟩, hrival⟩ :=
          List.exists_mem_of_length_pos (Nat.lt_of_succ_lt_succ htie)
        obtain ⟨hrest, hsame⟩ := List.mem_filter.mp hrival
        obtain rfl : score = bestScore := by simpa using hsame
        obtain ⟨hrivalCandidate, hrivalOther, hrivalScore, -⟩ :=
          (hmem _ _).mp (List.mem_cons_of_mem _ hrest)
        have hne : rival ≠ best := fun h => hnew (h ▸ hrest)
        have hless := hbest.best rival hrivalCandidate hrivalOther hne
        omega
      · refine .inr ⟨?_, _, rfl⟩
        rintro ⟨best, hbest, hearlier⟩
        obtain rfl := honly hbest
        omega
      · refine .inl ⟨parent, ⟨⟨hcandidate, hother, hbestScore.symm ▸ hscore, ?_⟩, ?_⟩, rfl⟩
        · intro rival hrival hrivalOther hne
          by_contra hnotLess
          have hmatch := (hmem rival _).mpr ⟨hrival, hrivalOther, rfl, by omega⟩
          rcases List.mem_cons.mp hmatch with hfirst | hlater
          · exact hne (congrArg Prod.fst hfirst)
          · have hleast := hbefore _ _ hlater
            refine htie (Nat.succ_lt_succ (List.length_pos_of_mem
              (List.mem_filter.mpr ⟨hlater, ?_⟩)))
            rw [beq_iff_eq]
            omega
        · omega

theorem inferParent_shape
    : inferParent u candidates own = own
      ∨ (∃ parent, inferParent u candidates own = own.linkTo parent)
      ∨ ∃ reason, inferParent u candidates own = own.setParentError reason := by
  unfold inferParent
  split
  · split
    · exact .inr (.inr ⟨_, rfl⟩)
    · dsimp only
      split_ifs
      · exact .inr (.inr ⟨_, rfl⟩)
      · exact .inr (.inr ⟨_, rfl⟩)
      · exact .inr (.inl ⟨_, rfl⟩)
  · exact .inl rfl

/-- What inference leaves as it is: the cells, and that a row has an error. -/
theorem inferParent_keeps
    : (inferParent u candidates own).row.rowNumber = own.row.rowNumber
      ∧ (inferParent u candidates own).row.licenseType = own.row.licenseType
      ∧ (∀ parent, EarlierParent u candidates (inferParent u candidates own) parent
        ↔ EarlierParent u candidates own parent)
      ∧ (own.row.classification.importStatus = .error →
        (inferParent u candidates own).row.classification.importStatus = .error) := by
  rcases inferParent_shape u candidates own with h | ⟨parent, h⟩ | ⟨reason, h⟩ <;> rw [h]
  · exact ⟨rfl, rfl, fun _ => .rfl, id⟩
  · refine ⟨rfl, rfl, fun parent => ⟨fun h => ?_, fun h => ?_⟩, id⟩ <;>
      exact ⟨⟨h.1.candidate, h.1.other, h.1.score, h.1.best⟩, h.2⟩
  · refine ⟨rfl, rfl, fun parent => ⟨fun h => ?_, fun h => ?_⟩, fun _ => rfl⟩ <;>
      exact ⟨⟨h.1.candidate, h.1.other, h.1.score, h.1.best⟩, h.2⟩

/-- Inference writes to maintenance rows only, which are no candidates before or after it. -/
theorem inferParent_candidate
    : (own.isParentCandidate = true → inferParent u candidates own = own)
      ∧ (inferParent u candidates own).isParentCandidate = own.isParentCandidate := by
  by_cases hlacks : own.lacksParent = true
  · have htype : own.row.licenseType = some .maintenance := by
      simp only [InferenceRow.lacksParent, Bool.and_eq_true, beq_iff_eq] at hlacks
      exact hlacks.1.1
    have hnone (row : InferenceRow) (h : row.row.licenseType = some .maintenance)
        : row.isParentCandidate = false := by
      simp [InferenceRow.isParentCandidate, h, LicenseType.isMaintenanceParent]
    have hkept := (inferParent_keeps u candidates own).2.1
    rw [hnone own htype, hnone _ (hkept.trans htype)]
    exact ⟨fun h => absurd h Bool.false_ne_true, rfl⟩
  · have hsame : inferParent u candidates own = own := if_neg hlacks
    rw [hsame]
    exact ⟨fun _ => rfl, rfl⟩

theorem candidates_inferBatch (rows : List InferenceRow)
    : (inferBatchMaintenanceParents u rows).filter InferenceRow.isParentCandidate
      = rows.filter InferenceRow.isParentCandidate := by
  have hmap (candidates l : List InferenceRow)
      : (l.map (inferParent u candidates)).filter InferenceRow.isParentCandidate
        = l.filter InferenceRow.isParentCandidate := by
    induction l with
    | nil => rfl
    | cons row l ih =>
        obtain ⟨hsame, hcandidate⟩ := inferParent_candidate u candidates row
        rw [List.map_cons, List.filter_cons, List.filter_cons, hcandidate, ih]
        split
        · next h => rw [hsame h]
        · rfl
  exact hmap _ rows

end Matches

-- Decisions in front of the inference

theorem warn_eq (row : ClassifiedRow) (warning : String)
    : ∃ warnings, row.warn warning = { row with warnings := warnings } := by
  unfold ClassifiedRow.warn
  split_ifs
  · exact ⟨row.warnings, rfl⟩
  · exact ⟨_, rfl⟩

theorem settle_eq (today : Date) (settled : String → Bool) (row : ClassifiedRow)
    : ∃ classification errors, row.settle today settled
        = { row with classification := classification, validationErrors := errors } := by
  unfold ClassifiedRow.settle
  dsimp only
  split_ifs
  · exact ⟨_, _, rfl⟩
  · exact ⟨row.classification, _, rfl⟩

/-- A decision settles the parent of a row that can be imported. -/
theorem decideParent_links {decision : ParentDecision} {row decided : ClassifiedRow}
    (cells : ParentCells) (h : decideParent u today s decision row = .ok decided)
    (himportable : decided.classification.importStatus ≠ .error)
    : (InferenceRow.mk decided cells).lacksParent = false
      ∧ (decision = .importLegacyUnlinked
          ∧ (InferenceRow.mk decided cells).parentLinks = (none, none, none)
        ∨ ∃ id parent, decision = .linkExisting id ∧ validateParentLicense s id = .ok parent
          ∧ (InferenceRow.mk decided cells).parentLinks = (some id, none, parent.licenseRef)) := by
  unfold decideParent at h
  split at h
  · obtain rfl := Except.ok.inj h
    exact absurd rfl himportable
  · cases decision with
    | importLegacyUnlinked =>
        dsimp only at h
        obtain ⟨classification, errors, hsettled⟩ := settle_eq today (isParentError u)
          { row with
            maintenanceParentAction := some .importLegacyUnlinked
            selectedParentLicenseId := none
            parentImportRowNumber := none
            parentLicenseRef := none }
        obtain ⟨warnings, hwarned⟩ :=
          warn_eq _ "Legacy unlinked maintenance selected during import."
        rw [hsettled, hwarned] at h
        obtain rfl := Except.ok.inj h
        exact ⟨by simp [InferenceRow.lacksParent], .inl ⟨rfl, rfl⟩⟩
    | linkExisting id =>
        dsimp only at h
        split at h
        · obtain rfl := Except.ok.inj h
          exact absurd rfl himportable
        · cases h
        · next parent hvalid =>
            have hchosen : ∃ classification errors warnings, decided
                = { row with
                    maintenanceParentAction := some .linkExisting
                    selectedParentLicenseId := some id
                    parentImportRowNumber := none
                    parentLicenseRef := parent.licenseRef
                    classification := classification
                    validationErrors := errors
                    warnings := warnings } := by
              obtain rfl := Except.ok.inj h
              obtain ⟨warnings, hwarned⟩ := warn_eq _ "Maintenance parent selected during import."
              rw [hwarned]
              split_ifs
              · obtain ⟨classification, errors, hsettled⟩ := settle_eq today isParentRefError _
                rw [hsettled]
                exact ⟨_, _, _, rfl⟩
              · exact ⟨_, _, _, rfl⟩
            obtain ⟨classification, errors, warnings, rfl⟩ := hchosen
            exact ⟨by simp [InferenceRow.lacksParent], .inr ⟨id, parent, rfl, hvalid, rfl⟩⟩

theorem forall₂_placed {file : List (ClassifiedCells × ParentCells)} {decided : List ClassifiedRow}
    {finish : ClassifiedCells → ClassifiedRow} {R : ClassifiedRow → ClassifiedRow → Prop}
    (h : List.Forall₂ R (file.map (fun cells => finish cells.1)) decided)
    : List.Forall₂ (fun cells own => R (finish cells.1) own.row ∧ own.cells = cells.2) file
        (List.zipWith InferenceRow.mk decided (file.map Prod.snd)) := by
  induction file generalizing decided with
  | nil =>
      cases h
      exact .nil
  | cons cells file ih =>
      cases h with
      | cons hrow hrest => exact .cons ⟨hrow, rfl⟩ (ih hrest)

theorem filled_of_undecided {cells : ClassifiedCells} {others : ParentCells}
    (htype : (finishRow u today cells).licenseType = some .maintenance)
    (hlacks : (InferenceRow.mk (finishRow u today cells) others).lacksParent = false)
    : isFilled cells.parentLicenseRef = true := by
  rw [InferenceRow.lacksParent, htype] at hlacks
  simpa [finishRow] using hlacks

section Rows

variable {overrides : List (Nat × ParentDecision)} {cells : ClassifiedCells × ParentCells}
  {row : ClassifiedRow} {candidates : List InferenceRow}

/-- A decided row is parented after the inference, if it can be imported. -/
theorem Decided.parented
    (hrow : Decided u today s overrides (finishRow u today cells.1) row)
    (hnodup : candidates.Nodup) (htype : row.licenseType = some .maintenance)
    (himportable : (inferParent u candidates ⟨row, cells.2⟩).row.classification.importStatus
      ≠ .error)
    : Parented u s overrides candidates cells.1.parentLicenseRef
        (inferParent u candidates ⟨row, cells.2⟩) := by
  obtain ⟨hkept, -, hearlier, herror⟩ := inferParent_keeps u candidates ⟨row, cells.2⟩
  have hnumber : (inferParent u candidates ⟨row, cells.2⟩).row.rowNumber = cells.1.rowNumber :=
    hkept.trans hrow.number
  have huntouched (h : (InferenceRow.mk row cells.2).lacksParent = false)
      : inferParent u candidates ⟨row, cells.2⟩ = ⟨row, cells.2⟩ :=
    if_neg (by rw [h]; exact Bool.false_ne_true)
  by_cases hdecision : cells.1.rowNumber ∈ overrides.map Prod.fst
  · obtain ⟨⟨number, decision⟩, hmem, rfl⟩ := List.mem_map.mp hdecision
    obtain ⟨hlacks, hlinks⟩ := decideParent_links cells.2 (hrow.decided decision hmem)
      fun h => himportable (herror h)
    rw [huntouched hlacks] at hnumber ⊢
    rcases hlinks with ⟨rfl, hlinks⟩ | ⟨id, parent, rfl, hvalid, hlinks⟩
    · exact .unlinked (hnumber ▸ hmem) hlinks
    · exact .chosen (hnumber ▸ hmem) hvalid hlinks
  · obtain rfl : row = finishRow u today cells.1 := hrow.undecided hdecision
    rw [← hnumber] at hdecision
    cases hlacks : (InferenceRow.mk (finishRow u today cells.1) cells.2).lacksParent with
    | false =>
        rw [huntouched hlacks] at hdecision ⊢
        exact .named hdecision (filled_of_undecided htype hlacks) rfl
    | true =>
        rcases inferParent_cases u _ _ hnodup hlacks with
          ⟨parent, hparent, hown⟩ | ⟨-, reason, hown⟩
        · refine .inferred hdecision ?_ ((hearlier parent).mpr hparent) (by rw [hown]; rfl)
          exact Bool.not_eq_true' _ |>.mp (Bool.and_eq_true_iff.mp hlacks).2
        · rw [hown] at himportable
          exact absurd rfl himportable

/-- A row without a decision and a reference is refused where nothing before it matches it best. -/
theorem Decided.refused_iff
    (hrow : Decided u today s overrides (finishRow u today cells.1) row)
    (hnodup : candidates.Nodup) (htype : row.licenseType = some .maintenance)
    (hdecision : cells.1.rowNumber ∉ overrides.map Prod.fst)
    (hblank : isFilled cells.1.parentLicenseRef = false)
    : (inferParent u candidates ⟨row, cells.2⟩).row.classification.importStatus = .error
      ↔ (finishRow u today cells.1).classification.importStatus = .error
        ∨ ¬∃ parent, EarlierParent u candidates (inferParent u candidates ⟨row, cells.2⟩)
            parent := by
  obtain rfl : row = finishRow u today cells.1 := hrow.undecided hdecision
  have hlacks : (InferenceRow.mk (finishRow u today cells.1) cells.2).lacksParent = true := by
    by_contra hsettled
    have hfilled := filled_of_undecided htype (Bool.not_eq_true _ |>.mp hsettled)
    rw [hblank] at hfilled
    cases hfilled
  simp only [(inferParent_keeps u candidates _).2.2.1]
  rcases inferParent_cases u _ _ hnodup hlacks with ⟨parent, hparent, hown⟩ | ⟨hnone, reason, hown⟩
  · rw [hown]
    exact ⟨.inl, fun h => h.resolve_right fun hnone => hnone ⟨parent, hparent⟩⟩
  · rw [hown]
    exact ⟨fun _ => .inr hnone, fun _ => rfl⟩

end Rows

/-- Every maintenance row that can be imported has its parent from a decision, from the file or from
the inference, and the inference refuses exactly the rows without a best match before them.
-/
theorem importable_parented {overrides : List (Nat × ParentDecision)}
    (hkeys : (overrides.map Prod.fst).Nodup) {file : List (ClassifiedCells × ParentCells)}
    (hnumbers : (file.map (·.1.rowNumber)).Nodup) {rows : List InferenceRow}
    (h : prepareParents u today s overrides file = .ok rows)
    : List.Forall₂ (fun cells own => own.row.licenseType = some .maintenance →
        (own.row.classification.importStatus ≠ .error →
          Parented u s overrides (rows.filter InferenceRow.isParentCandidate)
            cells.1.parentLicenseRef own)
        ∧ (cells.1.rowNumber ∉ overrides.map Prod.fst → isFilled cells.1.parentLicenseRef = false →
          (own.row.classification.importStatus = .error
            ↔ (finishRow u today cells.1).classification.importStatus = .error
              ∨ ¬∃ parent, EarlierParent u (rows.filter InferenceRow.isParentCandidate) own
                  parent))) file rows := by
  unfold prepareParents at h
  obtain ⟨decided, hdecided, h⟩ := bind_eq_ok.mp h
  obtain rfl := pure_eq_ok.mp h
  unfold applyImportRowOverrides at hdecided
  obtain ⟨_, -, hdecided⟩ := bind_eq_ok.mp hdecided
  have hfinished : ((file.map (fun cells => finishRow u today cells.1)).map (·.rowNumber))
      = file.map (·.1.rowNumber) := by
    rw [List.map_map]
    rfl
  have hplaced := forall₂_placed (decideRows_ok hkeys (hfinished ▸ hnumbers) hdecided)
  generalize List.zipWith InferenceRow.mk decided (file.map Prod.snd) = placed at hplaced ⊢
  have hsame : placed.map (·.row.rowNumber) = file.map (·.1.rowNumber) := by
    rw [← List.forall₂_eq_eq_eq, List.forall₂_map_left_iff, List.forall₂_map_right_iff]
    exact (hplaced.imp fun _ _ hrow => hrow.1.number).flip
  have hnodup : (placed.filter InferenceRow.isParentCandidate).Nodup :=
    (List.Nodup.of_map _ (hsame ▸ hnumbers)).filter _
  rw [candidates_inferBatch u, inferBatchMaintenanceParents, List.forall₂_map_right_iff]
  refine hplaced.imp ?_
  rintro cells ⟨row, own⟩ ⟨hrow, rfl⟩ htype
  rw [(inferParent_keeps u _ _).2.1] at htype
  exact ⟨hrow.parented hnodup htype, hrow.refused_iff hnodup htype⟩

/-- A perpetual licence and the maintenance on the same order. -/
def supportedFile : List (ClassifiedCells × ParentCells) :=
  [(⟨1, "Acme", "Editor", none, some .perpetual, none, none, [], []⟩, ⟨"", "PO-1", some "LT-1"⟩),
    (⟨2, "ACME", "Editor - Maintenance 2026", none, some .maintenance, none, none, [], []⟩,
      ⟨"", "po-1", none⟩)]

theorem importable_parented_supportedFile
    : ∃ first second, prepareParents .ascii 20 {} [] supportedFile = .ok [first, second]
        ∧ second.parentLinks = (none, some 1, some "LT-1")
        ∧ EarlierParent .ascii ([first, second].filter InferenceRow.isParentCandidate) second
            first := by
  obtain ⟨first, second, hrun⟩ : ∃ first second,
      prepareParents .ascii 20 {} [] supportedFile = .ok [first, second] := ⟨_, _, rfl⟩
  have hlinks : (prepareParents .ascii 20 {} [] supportedFile).map
      (fun rows => rows.map InferenceRow.parentLinks)
      = .ok [(none, none, none), (none, some 1, some "LT-1")] := by
    decide +kernel
  have hfacts : (prepareParents .ascii 20 {} [] supportedFile).map (fun rows => rows.map fun own =>
        (own.row.licenseType, own.row.classification.importStatus))
      = .ok [(some .perpetual, .active), (some .maintenance, .active)] := by
    decide +kernel
  rw [hrun] at hlinks hfacts
  obtain ⟨-, hlinked⟩ : _ ∧ second.parentLinks = _ := by simpa [Except.map] using hlinks
  obtain ⟨-, htype, hstatus⟩ : _ ∧ second.row.licenseType = _ ∧ _ := by
    simpa [Except.map] using hfacts
  have hrows := importable_parented (by decide) (by decide) hrun
  obtain ⟨-, hrest⟩ := List.forall₂_cons.mp hrows
  obtain ⟨hsecond, -⟩ := List.forall₂_cons.mp hrest
  cases (hsecond htype).1 (by rw [hstatus]; decide) with
  | unlinked decided => cases decided
  | chosen decided => cases decided
  | named _ filled => cases filled
  | inferred _ _ earlier =>
      rcases List.mem_cons.mp (List.mem_of_mem_filter earlier.1.candidate) with rfl | hmem
      · exact ⟨_, second, hrun, hlinked, earlier⟩
      · obtain rfl := List.mem_singleton.mp hmem
        exact absurd rfl earlier.1.other

end LicenseTrack.CsvImport
