import LicenseTrack.Services.CsvColumns
import LicenseTrack.Services.ImportReferences

/-! The lifecycle that a file gives its maintenance rows, and what the parent decisions of an import
make of it: the classification of a row, and its restoration where a decision settles the row's
errors.
-/

namespace LicenseTrack.CsvImport

open Library References

variable {u : Unicode} {today : Date} {s : Store}

/-- The values of `import_status`. -/
inductive ImportStatus
  | error
  | legacyIncomplete
  | legacyExempt
  | active
deriving DecidableEq

/-- What a row is imported as. -/
structure Classification where
  importStatus : ImportStatus
  lifecycleStatus : Option String
  isCompletenessExempt : Bool
deriving DecidableEq

/-- The cells of a row that its classification reads, with what the cell parsers reported: any error
of theirs also raises one of their flags.
-/
structure ClassifiedCells where
  rowNumber : Nat
  publisherName : String
  softwareDescription : String
  dbEndDate : Option Date
  licenseType : Option LicenseType
  parentLicenseRef : Option String
  lifecycleStatus : Option String
  cellErrors : List String
  warnings : List String
deriving DecidableEq

/-- `_normalise_enum_value`. -/
def normaliseEnumValue (u : Unicode) (raw : String) : String := joinHeader (u.lower (strip raw))

/-- The explicit lifecycle of a row, in a file with a column for it. -/
def ClassifiedCells.explicitLifecycle (u : Unicode) (cells : ClassifiedCells) : Option String :=
  cells.lifecycleStatus.map (fun text => normaliseEnumValue u (strip text))

/-- Lifecycle values that make a row legacy. -/
def isLegacyLifecycle (lifecycle : String) : Bool := lifecycle == "legacy" || lifecycle == "renewed"

/-- A term has ended before today. -/
def endInPast (today : Date) (endDate : Option Date) : Bool := endDate.any (· < today)

/-- `_classify_row`. -/
def classifyRow (today : Date) (publisherName softwareDescription : String)
    (dbEndDate : Option Date) (licenseType : Option LicenseType) (explicitLifecycle : Option String)
    : Classification :=
  if publisherName = "" ∧ softwareDescription = "" then ⟨.error, none, false⟩
  else match explicitLifecycle with
    | some lifecycle =>
        if isLegacyLifecycle lifecycle then
          if publisherName = "" ∨ softwareDescription = "" then
            ⟨.legacyIncomplete, some "legacy", false⟩
          else ⟨.legacyExempt, some "legacy", true⟩
        else ⟨.active, none, false⟩
    | none =>
        let ended := !licenseType.any LicenseType.isMaintenanceParent && endInPast today dbEndDate
        if ended ∧ (publisherName = "" ∨ softwareDescription = "") then
          ⟨.legacyIncomplete, some "legacy", false⟩
        else if ended then ⟨.legacyExempt, some "legacy", true⟩
        else ⟨.active, none, false⟩

/-- What `_classify_row` gives for the cells of a row. -/
def ClassifiedCells.classification (u : Unicode) (today : Date) (cells : ClassifiedCells)
    : Classification :=
  classifyRow today cells.publisherName cells.softwareDescription cells.dbEndDate cells.licenseType
    (cells.explicitLifecycle u)

/-- `maintenance_parent_action`. -/
inductive ParentAction
  | linkExisting
  | importLegacyUnlinked
deriving DecidableEq

/-- A row of the import, as far as parent decisions read and write it. -/
structure ClassifiedRow where
  rowNumber : Nat
  publisherName : String
  softwareDescription : String
  dbEndDate : Option Date
  licenseType : Option LicenseType
  parentLicenseRef : Option String
  classification : Classification
  validationErrors : List String
  warnings : List String
  maintenanceParentAction : Option ParentAction := none
  selectedParentLicenseId : Option Nat := none
  parentImportRowNumber : Option Nat := none
deriving DecidableEq

/-- The errors of a row that lacks a name. -/
def bothNamesMissing : String :=
  "Both publisher_name and software_description are missing; row cannot be imported"

def publisherNameMissing : String := "publisher_name is missing"

def softwareDescriptionMissing : String := "software_description is missing"

/-- The errors about names that follow the classification of a row. -/
def nameErrors (status : ImportStatus) (publisherName softwareDescription : String)
    : List String :=
  match status with
  | .error =>
      if publisherName = "" ∧ softwareDescription = "" then [bothNamesMissing] else []
  | .legacyIncomplete | .active =>
      (if publisherName = "" then [publisherNameMissing] else [])
        ++ (if softwareDescription = "" then [softwareDescriptionMissing] else [])
  | .legacyExempt => []

/-- The end of `_parse_row`, from the classification on. -/
def finishRow (u : Unicode) (today : Date) (cells : ClassifiedCells) : ClassifiedRow :=
  let classified := cells.classification u today
  {
    rowNumber := cells.rowNumber
    publisherName := cells.publisherName
    softwareDescription := cells.softwareDescription
    dbEndDate := cells.dbEndDate
    licenseType := cells.licenseType
    parentLicenseRef := cells.parentLicenseRef
    classification :=
      if cells.cellErrors ≠ [] then { classified with importStatus := .error } else classified
    validationErrors := cells.cellErrors
      ++ nameErrors classified.importStatus cells.publisherName cells.softwareDescription
    warnings := cells.warnings
      ++ (if cells.explicitLifecycle u = some "pending_renewal" then
          ["renewal state is not imported"] else [])
  }

-- Parent decisions

/-- A decision about the parent of a maintenance row. -/
inductive ParentDecision
  | linkExisting (parentLicenseId : Nat)
  | importLegacyUnlinked
deriving DecidableEq

/-- `_restore_import_status`. -/
def restoreImportStatus (today : Date) (row : ClassifiedRow) : ClassifiedRow :=
  let ended := endInPast today row.dbEndDate
  { row with
    classification :=
      if ended ∧ (row.publisherName = "" ∨ row.softwareDescription = "") then
        ⟨.legacyIncomplete, some "legacy", false⟩
      else if ended then ⟨.legacyExempt, some "legacy", true⟩
      else ⟨.active, none, false⟩ }

/-- An error about the reference of a parent. -/
def isParentRefError (error : String) : Bool := containsText "parent_license_ref" error

/-- An error about a maintenance parent. -/
def isParentError (u : Unicode) (error : String) : Bool :=
  isParentRefError error || containsText "maintenance parent" (u.lower error)

/-- Adds a warning that the row does not carry yet. -/
def ClassifiedRow.warn (row : ClassifiedRow) (warning : String) : ClassifiedRow :=
  if warning ∈ row.warnings then row else { row with warnings := row.warnings ++ [warning] }

/-- Records an error that keeps a row out of the import. -/
def ClassifiedRow.refuse (row : ClassifiedRow) (error : String) : ClassifiedRow :=
  { row with
    validationErrors := row.validationErrors ++ [error]
    classification := { row.classification with importStatus := .error } }

/-- Drops errors of a kind, and restores the status of a row that has no other ones. -/
def ClassifiedRow.settle (today : Date) (settled : String → Bool) (row : ClassifiedRow)
    : ClassifiedRow :=
  let row := { row with validationErrors := row.validationErrors.filter (fun e => !settled e) }
  if row.validationErrors = [] then restoreImportStatus today row else row

/-- One turn of the loop of `apply_import_row_overrides`. -/
def decideParent (u : Unicode) (today : Date) (s : Store) (decision : ParentDecision)
    (row : ClassifiedRow)
    : Except Failure ClassifiedRow :=
  if row.licenseType ≠ some .maintenance then
    .ok (row.refuse "Parent license selection is only valid for maintenance rows.")
  else match decision with
    | .importLegacyUnlinked =>
        let row :=
          { row with
            maintenanceParentAction := some .importLegacyUnlinked
            selectedParentLicenseId := none
            parentImportRowNumber := none
            parentLicenseRef := none }
        .ok ((row.settle today (isParentError u)).warn
          "Legacy unlinked maintenance selected during import.")
    | .linkExisting parentLicenseId =>
        let row :=
          { row with
            maintenanceParentAction := some .linkExisting
            selectedParentLicenseId := none
            parentImportRowNumber := none }
        match validateParentLicense s parentLicenseId with
        | .error (.value message) => .ok (row.refuse message)
        | .error failure => .error failure
        | .ok parent =>
            let row :=
              { row with
                selectedParentLicenseId := some parentLicenseId
                parentLicenseRef := parent.licenseRef }
            let row :=
              if row.classification.importStatus = .error
                  ∧ row.validationErrors.any isParentRefError = true then
                row.settle today isParentRefError
              else row
            .ok (row.warn "Maintenance parent selected during import.")

/-- Decides a row in place, the last one of its number. -/
def decideRow (u : Unicode) (today : Date) (s : Store) (number : Nat) (decision : ParentDecision)
    : List ClassifiedRow → Except Failure (List ClassifiedRow)
  | [] => .ok []
  | row :: rest =>
      if row.rowNumber = number ∧ rest.all (fun later => later.rowNumber != number) = true then do
        let decided ← decideParent u today s decision row
        pure (decided :: rest)
      else do
        let rest ← decideRow u today s number decision rest
        pure (row :: rest)

/-- `apply_import_row_overrides`. -/
def applyImportRowOverrides (u : Unicode) (today : Date) (s : Store)
    (overrides : List (Nat × ParentDecision)) (rows : List ClassifiedRow)
    : Except Failure (List ClassifiedRow) := do
  let unknown := (overrides.map Prod.fst).filter (fun number => !rows.any (·.rowNumber == number))
  require (unknown = [])
    (.http 422 ("row_overrides_json contains rowNumber values not present in the CSV: "
      ++ s!"{unknown.mergeSort}"))
  overrides.foldlM (fun rows entry => decideRow u today s entry.1 entry.2 rows) rows

-- Turns of the loop

theorem decideRow_ok {number : Nat} {decision : ParentDecision} {rows rows' : List ClassifiedRow}
    (hnumbers : (rows.map (·.rowNumber)).Nodup)
    (h : decideRow u today s number decision rows = .ok rows')
    : List.Forall₂ (fun row row' =>
        if row.rowNumber = number then decideParent u today s decision row = .ok row'
        else row' = row) rows rows' := by
  induction rows generalizing rows' with
  | nil =>
      obtain rfl := Except.ok.inj h
      exact .nil
  | cons row rest ih =>
      obtain ⟨hnew, hrest⟩ := List.nodup_cons.mp hnumbers
      rw [decideRow] at h
      split at h
      · next hrow =>
          obtain ⟨decided, hdecided, h⟩ := bind_eq_ok.mp h
          obtain rfl := pure_eq_ok.mp h
          refine .cons (by rw [if_pos hrow.1]; exact hdecided) ?_
          refine List.forall₂_same.mpr fun later hlater => ?_
          have hne := List.all_eq_true.mp hrow.2 later hlater
          rw [if_neg (by simpa using hne)]
      · next hrow =>
          obtain ⟨rest', hrest', h⟩ := bind_eq_ok.mp h
          obtain rfl := pure_eq_ok.mp h
          refine .cons ?_ (ih hrest hrest')
          rw [if_neg]
          intro hnumber
          refine hrow ⟨hnumber, List.all_eq_true.mpr fun later hlater => ?_⟩
          have hne : later.rowNumber ≠ number := fun hsame =>
            hnew (List.mem_map.mpr ⟨later, hlater, hsame.trans hnumber.symm⟩)
          simpa using hne

theorem decideParent_rowNumber {decision : ParentDecision} {row row' : ClassifiedRow}
    (h : decideParent u today s decision row = .ok row')
    : row'.rowNumber = row.rowNumber := by
  have hwarn : ∀ (row : ClassifiedRow) warning, (row.warn warning).rowNumber = row.rowNumber := by
    intro row warning
    unfold ClassifiedRow.warn
    split_ifs <;> rfl
  have hsettle : ∀ (row : ClassifiedRow) settled,
      (row.settle today settled).rowNumber = row.rowNumber := by
    intro row settled
    unfold ClassifiedRow.settle
    dsimp only
    split_ifs <;> rfl
  unfold decideParent at h
  split at h
  · rw [← Except.ok.inj h]
    rfl
  · split at h
    · rw [← Except.ok.inj h, hwarn, hsettle]
    · dsimp only at h
      split at h
      · rw [← Except.ok.inj h]
        rfl
      · cases h
      · rw [← Except.ok.inj h, hwarn]
        split_ifs
        · rw [hsettle]
        · rfl

/-- What the decisions of an import make of a row: the one of its number decides it. -/
structure Decided (u : Unicode) (today : Date) (s : Store) (overrides : List (Nat × ParentDecision))
    (row row' : ClassifiedRow)
    : Prop where
  number : row'.rowNumber = row.rowNumber
  decided : ∀ decision, (row.rowNumber, decision) ∈ overrides →
    decideParent u today s decision row = .ok row'
  undecided : row.rowNumber ∉ overrides.map Prod.fst → row' = row

theorem forall₂_comp {α β γ : Type} {R : α → β → Prop} {S : β → γ → Prop} {as : List α}
    {bs : List β} {cs : List γ} (hab : List.Forall₂ R as bs) (hbc : List.Forall₂ S bs cs)
    : List.Forall₂ (fun a c => ∃ b, R a b ∧ S b c) as cs := by
  induction hab generalizing cs with
  | nil =>
      cases hbc
      exact .nil
  | cons hfirst _ ih =>
      cases hbc with
      | cons hsecond hrest => exact .cons ⟨_, hfirst, hsecond⟩ (ih hrest)

theorem decideRows_ok {overrides : List (Nat × ParentDecision)}
    (hkeys : (overrides.map Prod.fst).Nodup) {rows rows' : List ClassifiedRow}
    (hnumbers : (rows.map (·.rowNumber)).Nodup)
    (h : overrides.foldlM (fun rows entry => decideRow u today s entry.1 entry.2 rows) rows
      = .ok rows')
    : List.Forall₂ (Decided u today s overrides) rows rows' := by
  induction overrides generalizing rows with
  | nil =>
      obtain rfl := pure_eq_ok.mp h
      exact List.forall₂_same.mpr fun row _ =>
        ⟨rfl, fun _ hmem => absurd hmem List.not_mem_nil, fun _ => rfl⟩
  | cons entry rest ih =>
      obtain ⟨hnew, hrest⟩ := List.nodup_cons.mp hkeys
      rw [List.foldlM_cons] at h
      obtain ⟨mid, hfirst, h⟩ := bind_eq_ok.mp h
      have hturn := decideRow_ok hnumbers hfirst
      have hnumber : List.Forall₂ (fun row row' => row'.rowNumber = row.rowNumber) rows mid := by
        refine hturn.imp fun row row' hrow => ?_
        split at hrow
        · exact decideParent_rowNumber hrow
        · rw [hrow]
      have hmap : mid.map (·.rowNumber) = rows.map (·.rowNumber) := by
        rw [← List.forall₂_eq_eq_eq, List.forall₂_map_left_iff, List.forall₂_map_right_iff]
        exact hnumber.flip
      refine (forall₂_comp hturn (ih hrest (by rw [hmap]; exact hnumbers) h)).imp ?_
      rintro row row' ⟨between, hrow, hlater⟩
      by_cases hkey : row.rowNumber = entry.1
      · rw [if_pos hkey] at hrow
        have hsame := decideParent_rowNumber hrow
        have hkept : row' = between := hlater.undecided (by rw [hsame, hkey]; exact hnew)
        refine ⟨by rw [hkept, hsame], fun decision hmem => ?_, fun hnot => ?_⟩
        · rcases List.mem_cons.mp hmem with hentry | hmem
          · rw [hkept, ← hrow, ← hentry]
          · exact absurd (List.mem_map.mpr ⟨_, hmem, hkey⟩) hnew
        · exact absurd (by rw [List.map_cons, hkey]; exact List.mem_cons_self) hnot
      · rw [if_neg hkey] at hrow
        subst hrow
        refine ⟨hlater.number, fun decision hmem => ?_, fun hnot => ?_⟩
        · rcases List.mem_cons.mp hmem with hentry | hmem
          · exact absurd (congrArg Prod.fst hentry) hkey
          · exact hlater.decided decision hmem
        · exact hlater.undecided fun hmem => hnot (List.mem_cons_of_mem _ hmem)

-- Restored rows

/-- `str.lower` maps ASCII letters as SQLite does. -/
def LowersAscii (u : Unicode) : Prop :=
  ∀ text : String, text.toList.all (fun c => c.toNat < 128) = true → u.lower text = sqlLower text

/-- A decision leaves no error of a row, and restores its status. -/
def Restores (u : Unicode) (s : Store) (decision : ParentDecision) (row : ClassifiedRow) : Prop :=
  match decision with
  | .importLegacyUnlinked => row.validationErrors.all (isParentError u) = true
  | .linkExisting parentLicenseId =>
      (∃ parent, validateParentLicense s parentLicenseId = .ok parent)
        ∧ row.classification.importStatus = .error
        ∧ row.validationErrors.any isParentRefError = true
        ∧ row.validationErrors.all isParentRefError = true

/-- The lifecycle column of a row says something else than its end date. -/
def ColumnDisagrees (u : Unicode) (today : Date) (cells : ClassifiedCells) : Prop :=
  ∃ lifecycle, cells.explicitLifecycle u = some lifecycle
    ∧ isLegacyLifecycle lifecycle ≠ endInPast today cells.dbEndDate

theorem mem_nameErrors {status : ImportStatus} {publisherName softwareDescription error : String}
    (h : error ∈ nameErrors status publisherName softwareDescription)
    : error = bothNamesMissing ∨ error = publisherNameMissing
      ∨ error = softwareDescriptionMissing := by
  have hone : error ∈ (if publisherName = "" then [publisherNameMissing] else [])
      ++ (if softwareDescription = "" then [softwareDescriptionMissing] else []) →
      error = publisherNameMissing ∨ error = softwareDescriptionMissing := by
    intro h
    rcases List.mem_append.mp h with h | h
    · split_ifs at h
      · exact .inl (List.mem_singleton.mp h)
      · cases h
    · split_ifs at h
      · exact .inr (List.mem_singleton.mp h)
      · cases h
  cases status with
  | error =>
      rw [nameErrors] at h
      split_ifs at h
      · exact .inl (List.mem_singleton.mp h)
      · cases h
  | legacyIncomplete => exact .inr (hone h)
  | legacyExempt => cases h
  | active => exact .inr (hone h)

theorem nameErrors_not_parent (hlower : LowersAscii u) {status : ImportStatus}
    {publisherName softwareDescription error : String}
    (h : error ∈ nameErrors status publisherName softwareDescription)
    : isParentError u error = false := by
  have hall : ∀ error, error = bothNamesMissing ∨ error = publisherNameMissing
      ∨ error = softwareDescriptionMissing →
      error.toList.all (fun c => c.toNat < 128) = true ∧ isParentRefError error = false
        ∧ containsText "maintenance parent" (sqlLower error) = false := by
    rintro error (rfl | rfl | rfl) <;> decide +kernel
  obtain ⟨hascii, href, hparent⟩ := hall error (mem_nameErrors h)
  rw [isParentError, hlower error hascii, href, hparent, Bool.or_false]

theorem nameErrors_ne_nil (u : Unicode) (today : Date) {cells : ClassifiedCells}
    (h : cells.publisherName = "" ∨ cells.softwareDescription = "")
    : nameErrors (cells.classification u today).importStatus cells.publisherName
        cells.softwareDescription ≠ [] := by
  unfold ClassifiedCells.classification classifyRow
  by_cases hboth : cells.publisherName = "" ∧ cells.softwareDescription = ""
  · rw [if_pos hboth]
    simp [nameErrors, hboth]
  · have hone : ∀ status, status = ImportStatus.legacyIncomplete ∨ status = .active →
        nameErrors status cells.publisherName cells.softwareDescription ≠ [] := by
      rintro status (rfl | rfl) <;> rcases h with h | h <;> simp [nameErrors, h]
    rw [if_neg hboth]
    apply hone
    split
    · split_ifs <;> simp
    · dsimp only
      split_ifs with hincomplete hended
      · exact .inl rfl
      · exact absurd ⟨hended, h⟩ hincomplete
      · exact .inr rfl

theorem finishRow_named (hlower : LowersAscii u) {cells : ClassifiedCells}
    (h : (finishRow u today cells).validationErrors.all (isParentError u) = true)
    : cells.publisherName ≠ "" ∧ cells.softwareDescription ≠ "" := by
  by_contra hmissing
  have hlacks : cells.publisherName = "" ∨ cells.softwareDescription = "" := by
    by_contra hnone
    exact hmissing ⟨fun hp => hnone (.inl hp), fun hd => hnone (.inr hd)⟩
  obtain ⟨error, rest, herrors⟩ := List.exists_cons_of_ne_nil (nameErrors_ne_nil u today hlacks)
  have hmem : error ∈ nameErrors (cells.classification u today).importStatus cells.publisherName
      cells.softwareDescription := by
    rw [herrors]
    exact List.mem_cons_self
  have hparent := List.all_eq_true.mp h error (List.mem_append_right _ hmem)
  rw [nameErrors_not_parent hlower hmem] at hparent
  cases hparent

/-- The classification that the restoration gives a row with both names. -/
def restoredClassification (today : Date) (endDate : Option Date) : Classification :=
  if endInPast today endDate then ⟨.legacyExempt, some "legacy", true⟩ else ⟨.active, none, false⟩

theorem restoreImportStatus_named {row : ClassifiedRow} (hpublisher : row.publisherName ≠ "")
    (hdescription : row.softwareDescription ≠ "")
    : (restoreImportStatus today row).classification = restoredClassification today row.dbEndDate := by
  simp [restoreImportStatus, restoredClassification, hpublisher, hdescription]

theorem restoredClassification_eq_iff {cells : ClassifiedCells}
    (htype : cells.licenseType = some .maintenance) (hpublisher : cells.publisherName ≠ "")
    (hdescription : cells.softwareDescription ≠ "")
    : restoredClassification today cells.dbEndDate = cells.classification u today
      ↔ ¬ColumnDisagrees u today cells := by
  have hnames : ¬(cells.publisherName = "" ∧ cells.softwareDescription = "") :=
    fun h => hpublisher h.1
  have hlacks : ¬(cells.publisherName = "" ∨ cells.softwareDescription = "") :=
    fun h => h.elim hpublisher hdescription
  unfold ColumnDisagrees ClassifiedCells.classification classifyRow
  rw [if_neg hnames]
  rcases hlifecycle : cells.explicitLifecycle u with _ | lifecycle
  · simp [restoredClassification, htype, hlacks, LicenseType.isMaintenanceParent]
  · simp only [if_neg hlacks, restoredClassification, Option.some.injEq, exists_eq_left']
    rcases isLegacyLifecycle lifecycle <;> rcases endInPast today cells.dbEndDate <;> simp

@[simp] theorem warn_classification (row : ClassifiedRow) (warning : String)
    : (row.warn warning).classification = row.classification := by
  unfold ClassifiedRow.warn
  split_ifs <;> rfl

theorem settle_classification (settled : String → Bool) (row : ClassifiedRow)
    : (row.settle today settled).classification
      = if row.validationErrors.all settled then (restoreImportStatus today row).classification
        else row.classification := by
  have hnone : row.validationErrors.filter (fun e => !settled e) = []
      ↔ row.validationErrors.all settled = true := by
    rw [List.filter_eq_nil_iff, List.all_eq_true]
    simp
  unfold ClassifiedRow.settle
  dsimp only
  by_cases hall : row.validationErrors.all settled = true
  · rw [if_pos (hnone.mpr hall), if_pos hall]
    rfl
  · rw [if_neg (fun h => hall (hnone.mp h)), if_neg hall]

theorem finishRow_classification (u : Unicode) (today : Date) (cells : ClassifiedCells)
    : (finishRow u today cells).classification = cells.classification u today
      ∨ (finishRow u today cells).classification.importStatus = .error := by
  unfold finishRow
  dsimp only
  split_ifs
  · exact .inr rfl
  · exact .inl rfl

theorem kept_iff {row : ClassifiedRow} {cells : ClassifiedCells}
    (h : row.classification = (finishRow u today cells).classification)
    : row.classification.importStatus ≠ .error →
        row.classification = cells.classification u today := by
  intro himportable
  rcases finishRow_classification u today cells with hsame | herror
  · exact h.trans hsame
  · rw [h] at himportable
    exact absurd herror himportable

theorem restored_iff (hlower : LowersAscii u) {cells : ClassifiedCells}
    (htype : cells.licenseType = some .maintenance) {row : ClassifiedRow}
    (hall : (finishRow u today cells).validationErrors.all (isParentError u) = true)
    (h : row.classification = restoredClassification today cells.dbEndDate)
    : (row.classification.importStatus ≠ .error →
        row.classification = cells.classification u today)
      ↔ ¬ColumnDisagrees u today cells := by
  obtain ⟨hpublisher, hdescription⟩ := finishRow_named hlower hall
  have himportable : (restoredClassification today cells.dbEndDate).importStatus ≠ .error := by
    unfold restoredClassification
    split_ifs <;> simp
  rw [h, ← restoredClassification_eq_iff htype hpublisher hdescription]
  exact ⟨fun hkeeps => hkeeps himportable, fun hsame _ => hsame⟩

/-- What a decision does to the lifecycle of a maintenance row. -/
theorem decideParent_keeps (hlower : LowersAscii u) {cells : ClassifiedCells}
    (htype : cells.licenseType = some .maintenance) {decision : ParentDecision}
    {row : ClassifiedRow}
    (h : decideParent u today s decision (finishRow u today cells) = .ok row)
    : (row.classification.importStatus ≠ .error →
        row.classification = cells.classification u today)
      ↔ ¬(Restores u s decision (finishRow u today cells) ∧ ColumnDisagrees u today cells) := by
  have hmaintenance : (finishRow u today cells).licenseType = some .maintenance := htype
  have hnamed : (finishRow u today cells).validationErrors.all (isParentError u) = true →
      cells.publisherName ≠ "" ∧ cells.softwareDescription ≠ "" := finishRow_named hlower
  unfold decideParent at h
  rw [if_neg (by rw [hmaintenance]; simp)] at h
  cases decision with
  | importLegacyUnlinked =>
      obtain rfl := Except.ok.inj h
      change _ ↔ ¬((finishRow u today cells).validationErrors.all (isParentError u) = true ∧ _)
      by_cases hall : (finishRow u today cells).validationErrors.all (isParentError u) = true
      · rw [restored_iff hlower htype hall]
        · simp [hall]
        · rw [warn_classification, settle_classification, if_pos hall]
          exact restoreImportStatus_named (hnamed hall).1 (hnamed hall).2
      · refine ⟨fun _ hrestores => hall hrestores.1, fun _ => kept_iff ?_⟩
        rw [warn_classification, settle_classification, if_neg hall]
  | linkExisting parentLicenseId =>
      dsimp only at h
      rcases hparent : validateParentLicense s parentLicenseId with failure | parent
      · have hinvalid : ¬Restores u s (.linkExisting parentLicenseId) (finishRow u today cells) := by
          rintro ⟨⟨parent, hvalid⟩, -⟩
          rw [hparent] at hvalid
          cases hvalid
        rw [hparent] at h
        split at h
        · obtain rfl := Except.ok.inj h
          exact ⟨fun _ hrestores => hinvalid hrestores.1, fun _ himportable => absurd rfl himportable⟩
        · cases h
        · next heq => cases heq
      · rw [hparent] at h
        dsimp only at h
        obtain rfl := Except.ok.inj h
        by_cases hsettles : (finishRow u today cells).classification.importStatus = .error
            ∧ (finishRow u today cells).validationErrors.any isParentRefError = true
        · by_cases hall : (finishRow u today cells).validationErrors.all isParentRefError = true
          · have hrestores : Restores u s (.linkExisting parentLicenseId) (finishRow u today cells) :=
              ⟨⟨parent, hparent⟩, hsettles.1, hsettles.2, hall⟩
            have hparents : (finishRow u today cells).validationErrors.all (isParentError u)
                = true := by
              rw [List.all_eq_true] at hall ⊢
              intro error herror
              rw [isParentError, hall error herror, Bool.true_or]
            rw [restored_iff hlower htype hparents]
            · simp [hrestores]
            · rw [warn_classification, if_pos hsettles, settle_classification, if_pos hall]
              exact restoreImportStatus_named (hnamed hparents).1 (hnamed hparents).2
          · refine ⟨fun _ hrestores => hall hrestores.1.2.2.2, fun _ => kept_iff ?_⟩
            rw [warn_classification, if_pos hsettles, settle_classification, if_neg hall]
        · refine ⟨fun _ hrestores => hsettles ⟨hrestores.1.2.1, hrestores.1.2.2.1⟩, fun _ =>
            kept_iff ?_⟩
          rw [warn_classification, if_neg hsettles]

/-- Parent decisions keep the lifecycle that a file gives its importable maintenance rows, exactly
for the rows that no decision restores against their lifecycle column.
-/
theorem parentDecisions_keepLifecycle (hlower : LowersAscii u) {file : List ClassifiedCells}
    (hnumbers : (file.map (·.rowNumber)).Nodup) {overrides : List (Nat × ParentDecision)}
    (hkeys : (overrides.map Prod.fst).Nodup) {rows : List ClassifiedRow}
    (h : applyImportRowOverrides u today s overrides (file.map (finishRow u today)) = .ok rows)
    : List.Forall₂ (fun cells row => cells.licenseType = some .maintenance →
        ∀ decision, (cells.rowNumber, decision) ∈ overrides →
          ((row.classification.importStatus ≠ .error →
              row.classification = cells.classification u today)
            ↔ ¬(Restores u s decision (finishRow u today cells)
                ∧ ColumnDisagrees u today cells))) file rows := by
  obtain ⟨_, -, h⟩ := bind_eq_ok.mp h
  have hdecided := decideRows_ok hkeys (by rw [List.map_map]; exact hnumbers) h
  rw [List.forall₂_map_left_iff] at hdecided
  exact hdecided.imp fun cells row hrow htype decision hmem =>
    decideParent_keeps hlower htype (hrow.decided decision hmem)

/-- A support term that ended on day 10, with the lifecycle that the file states, if any. -/
def supportRow (lifecycle : Option String) : ClassifiedCells where
  rowNumber := 1
  publisherName := "Northwind"
  softwareDescription := "Premium support"
  dbEndDate := some 10
  licenseType := some .maintenance
  parentLicenseRef := none
  lifecycleStatus := lifecycle
  cellErrors := []
  warnings := []

theorem lowersAscii_ascii : LowersAscii .ascii := fun _ _ => rfl

/-- A file without a lifecycle column: the ended term stays legacy. -/
theorem parentDecisions_keepLifecycle_noColumn
    : ∃ row, applyImportRowOverrides .ascii 20 {} [(1, .importLegacyUnlinked)]
          [finishRow .ascii 20 (supportRow none)] = .ok [row]
        ∧ row.classification.importStatus = .legacyExempt
        ∧ row.classification = (supportRow none).classification .ascii 20 := by
  have hrun : applyImportRowOverrides .ascii 20 {} [(1, .importLegacyUnlinked)]
      ([supportRow none].map (finishRow .ascii 20))
      = .ok [((({ finishRow .ascii 20 (supportRow none) with
            maintenanceParentAction := some .importLegacyUnlinked } : ClassifiedRow).settle 20
          (isParentError .ascii)).warn "Legacy unlinked maintenance selected during import.")] := by
    rfl
  have hkeeps := parentDecisions_keepLifecycle lowersAscii_ascii (by decide) (by decide) hrun
  refine ⟨_, hrun, by decide +kernel, ?_⟩
  cases hkeeps with
  | cons hrow _ =>
      refine (hrow rfl .importLegacyUnlinked List.mem_cons_self).mpr ?_ (by decide +kernel)
      rintro ⟨-, lifecycle, hlifecycle, -⟩
      cases hlifecycle

/-- A file that states an active lifecycle for an ended term: the decision makes it legacy. -/
theorem parentDecisions_overrideColumn
    : ¬∀ (cells : ClassifiedCells) (decision : ParentDecision) (row : ClassifiedRow),
        cells.licenseType = some .maintenance →
        applyImportRowOverrides .ascii 20 {} [(cells.rowNumber, decision)]
          [finishRow .ascii 20 cells] = .ok [row] →
        row.classification.importStatus ≠ .error →
        row.classification = cells.classification .ascii 20 := by
  intro h
  have hrow := h (supportRow (some "active")) .importLegacyUnlinked _ rfl rfl (by decide +kernel)
  revert hrow
  decide +kernel

end LicenseTrack.CsvImport
