import LicenseTrack.CustomFields.Values

/-! How custom values carry over from a licence to its successor: through the snapshot of a
renewal, the edits of its line, a merge of lines, and the conversion.
-/

namespace LicenseTrack

open Library

theorem valueRows_definition {f : FieldFormats} {s : CustomFieldStore}
    {values : List CustomFieldValueItem} {rows : List ValueRow}
    (h : valueRows f s values = .ok rows)
    : ∀ row ∈ rows, s.definitions.get? row.definitionId = some row.definition := by
  induction values generalizing rows with
  | nil =>
      cases h
      simp
  | cons item rest ih =>
      obtain ⟨definition, hdefinition, h⟩ := bind_eq_ok.mp h
      obtain ⟨value, -, h⟩ := bind_eq_ok.mp h
      obtain ⟨others, hothers, h⟩ := bind_eq_ok.mp h
      obtain rfl := pure_eq_ok.mp h
      intro row hrow
      rcases List.mem_cons.mp hrow with rfl | hrow
      · exact found_eq_ok.mp hdefinition
      · exact ih hothers row hrow

theorem valueRows_ids {f : FieldFormats} {s : CustomFieldStore}
    {values : List CustomFieldValueItem} {rows : List ValueRow}
    (h : valueRows f s values = .ok rows)
    : rows.map (·.definitionId) = values.map (·.customFieldDefId) := by
  induction values generalizing rows with
  | nil =>
      cases h
      rfl
  | cons item rest ih =>
      obtain ⟨definition, -, h⟩ := bind_eq_ok.mp h
      obtain ⟨value, -, h⟩ := bind_eq_ok.mp h
      obtain ⟨others, hothers, h⟩ := bind_eq_ok.mp h
      obtain rfl := pure_eq_ok.mp h
      simp [ih hothers]

theorem valueRows_of_definitions {f : FieldFormats} {s t : CustomFieldStore}
    (h : t.definitions = s.definitions) (values : List CustomFieldValueItem)
    : valueRows f t values = valueRows f s values := by
  induction values with
  | nil => rfl
  | cons item rest ih => simp only [valueRows, h, ih]

theorem validatedValueRows_of_definitions {f : FieldFormats} {s t : CustomFieldStore}
    (h : t.definitions = s.definitions) (values : List CustomFieldValueItem)
    : validatedValueRows f t values = validatedValueRows f s values := by
  simp only [validatedValueRows, h, valueRows_of_definitions h]

theorem validatedValueRows_ok {f : FieldFormats} {s : CustomFieldStore}
    {values : List CustomFieldValueItem} {rows : List ValueRow}
    (h : validatedValueRows f s values = .ok rows)
    : (rows.map (·.definitionId)).Nodup
      ∧ ∀ row ∈ rows, s.definitions.get? row.definitionId = some row.definition := by
  obtain ⟨_, hnodup, h⟩ := bind_eq_ok.mp h
  obtain ⟨_, -, h⟩ := bind_eq_ok.mp h
  rw [valueRows_ids h]
  exact ⟨require_eq_ok.mp hnodup, valueRows_definition h⟩

/-- The value that a list of rows has for a field. -/
def rowValue (rows : List ValueRow) (definitionId : Nat) : Option FieldValue :=
  (rows.find? (fun row => row.definitionId == definitionId)).map (·.value)

theorem FieldValues.add_of_not_mem {rows : List ValueRow} {id : Nat}
    (h : ∀ row ∈ rows, row.definitionId ≠ id) (values : FieldValues)
    : values.add rows id = values id := by
  induction rows generalizing values with
  | nil => rfl
  | cons row rest ih =>
      obtain ⟨hrow, hrest⟩ := List.forall_mem_cons.mp h
      rw [FieldValues.add, List.foldl_cons]
      change FieldValues.add _ rest id = _
      rw [ih hrest]
      simp [hrow.symm]

theorem FieldValues.add_none {rows : List ValueRow}
    (h : (rows.map (·.definitionId)).Nodup) (id : Nat)
    : FieldValues.add (fun _ => none) rows id = rowValue rows id := by
  have hgeneral : ∀ values : FieldValues, values id = none →
      values.add rows id = rowValue rows id := by
    induction rows with
    | nil =>
        intro values hnone
        exact hnone
    | cons row rest ih =>
        intro values hnone
        obtain ⟨hnew, hrest⟩ := List.nodup_cons.mp h
        rw [FieldValues.add, List.foldl_cons]
        change FieldValues.add _ rest id = _
        by_cases hid : row.definitionId = id
        · have hothers : ∀ other ∈ rest, other.definitionId ≠ id := by
            intro other hother he
            exact hnew (List.mem_map.mpr ⟨other, hother, he.trans hid.symm⟩)
          rw [FieldValues.add_of_not_mem hothers]
          simp [rowValue, hid]
        · rw [ih hrest _ (by simpa [Ne.symm hid] using hnone)]
          simp [rowValue, hid]
  exact hgeneral _ rfl

theorem rowValue_filter {rows : List ValueRow} {p : ValueRow → Bool} {id : Nat}
    (h : ∀ row ∈ rows, row.definitionId = id → p row = true)
    : rowValue (rows.filter p) id = rowValue rows id := by
  induction rows with
  | nil => rfl
  | cons row rest ih =>
      obtain ⟨hrow, hrest⟩ := List.forall_mem_cons.mp h
      by_cases hid : row.definitionId = id
      · simp [rowValue, hrow hid, hid]
      · have hrec : rowValue (rest.filter p) id = rowValue rest id := ih hrest
        by_cases hp : p row = true
        · simpa [rowValue, hp, hid] using hrec
        · simpa [rowValue, hp, hid] using hrec

theorem rowValue_withoutHidden {s : CustomFieldStore} {rows : List ValueRow} {id : Nat}
    (hrows : ∀ row ∈ rows, s.definitions.get? row.definitionId = some row.definition)
    (h : s.behaves .hide id = false)
    : rowValue (withoutHidden rows) id = rowValue rows id := by
  apply rowValue_filter
  intro row hrow hid
  have hstored := hrows row hrow
  rw [hid] at hstored
  simpa [CustomFieldStore.behaves, hstored] using h

theorem rowValue_withoutHidden_of_hidden {s : CustomFieldStore} {rows : List ValueRow} {id : Nat}
    (hrows : ∀ row ∈ rows, s.definitions.get? row.definitionId = some row.definition)
    (h : s.behaves .hide id = true)
    : rowValue (withoutHidden rows) id = none := by
  unfold rowValue withoutHidden
  rw [Option.map_eq_none_iff, List.find?_eq_none]
  intro row hrow hid
  obtain ⟨hmem, hkept⟩ := List.mem_filter.mp hrow
  have hstored := hrows row hmem
  rw [beq_iff_eq.mp hid] at hstored
  have hhide : row.definition.renewalBehavior = .hide := by
    simpa [CustomFieldStore.behaves, hstored] using h
  simp [hhide] at hkept

-- Converting a line

/-- What a conversion submits for a field. -/
def submittedValue (f : FieldFormats) (s : CustomFieldStore) (values : List CustomFieldValueItem)
    (definitionId : Nat)
    : Option FieldValue :=
  match validatedValueRows f s values with
  | .ok rows => rowValue rows definitionId
  | .error _ => none

theorem CustomFieldStore.behaves_ne {s : CustomFieldStore} {behavior other : RenewalBehavior}
    {id : Nat} (h : s.behaves behavior id = true) (hne : behavior ≠ other)
    : s.behaves other id = false := by
  unfold CustomFieldStore.behaves at *
  cases hdefinition : s.definitions.get? id with
  | none => rfl
  | some definition =>
      have hbehavior : definition.renewalBehavior = behavior := by
        simpa [hdefinition] using h
      simp [hbehavior, hne]

theorem transferSourcingValues_copy {s : CustomFieldStore} {line : FieldLine} {id : Nat}
    (h : s.behaves .copy id = true)
    : transferSourcingValues s line id = line.values id := by
  unfold CustomFieldStore.behaves at h
  obtain ⟨definition, hdefinition, hbehavior⟩ := Option.any_eq_true _ _ |>.mp h
  have hcopy : definition.renewalBehavior = .copy := beq_iff_eq.mp hbehavior
  simp [transferSourcingValues, hdefinition, hcopy]

theorem convertFields_value {f : FieldFormats} {s t : CustomFieldStore} {itemId : Nat}
    {values : List CustomFieldValueItem} (h : convertFields f itemId values s = .ok t)
    : ∃ line, s.lines.get? itemId = some line
      ∧ (values = [] → ∀ id,
          t.licenseValue s.licenses.nextKey id = transferSourcingValues s line id)
      ∧ (values ≠ [] → ∃ rows, validatedValueRows f s values = .ok rows
          ∧ ∀ id, t.licenseValue s.licenses.nextKey id
            = rowValue (if line.renewalForLicenseId.isSome then withoutHidden rows else rows) id) := by
  obtain ⟨line, hline, h⟩ := bind_eq_ok.mp h
  refine ⟨line, found_eq_ok.mp hline, ?_, ?_⟩
  · intro hnone id
    rw [if_pos hnone] at h
    obtain rfl := pure_eq_ok.mp h
    simp [CustomFieldStore.licenseValue, Table.get?_insert]
  · intro hsome
    rw [if_neg hsome] at h
    obtain ⟨rows, hrows, h⟩ := bind_eq_ok.mp h
    obtain rfl := pure_eq_ok.mp h
    have hsame : validatedValueRows f
        { s with licenses := s.licenses.insert (fun _ => none) } values
          = validatedValueRows f s values := by
      apply validatedValueRows_of_definitions
      rfl
    refine ⟨rows, hsame.symm.trans hrows, ?_⟩
    intro id
    have hnodup := (validatedValueRows_ok hrows).1
    have hwritten : ((if line.renewalForLicenseId.isSome then withoutHidden rows
        else rows).map (·.definitionId)).Nodup := by
      split
      · exact (List.filter_sublist.map _).nodup hnodup
      · exact hnodup
    simp only [CustomFieldStore.licenseValue, Table.get?_modify_self, Table.get?_insert, if_true,
      Option.map_some, Option.bind_some]
    exact FieldValues.add_none hwritten id

theorem convertFields_hidden {f : FieldFormats} {s t : CustomFieldStore} {itemId : Nat}
    {values : List CustomFieldValueItem} {line : FieldLine} {id : Nat}
    (h : convertFields f itemId values s = .ok t) (hline : s.lines.get? itemId = some line)
    (hrenewal : line.renewalForLicenseId.isSome = true) (hhide : s.behaves .hide id = true)
    : t.licenseValue s.licenses.nextKey id = none := by
  obtain ⟨line', hline', hnone, hsome⟩ := convertFields_value h
  rw [hline] at hline'
  cases hline'
  by_cases hvalues : values = []
  · obtain ⟨definition, hdefinition, hbehavior⟩ := Option.any_eq_true _ _ |>.mp hhide
    have hhidden : definition.renewalBehavior = .hide := beq_iff_eq.mp hbehavior
    have hnotnone : line.renewalForLicenseId.isNone = false := by
      rw [Option.isNone_eq_false_iff]
      exact hrenewal
    rw [hnone hvalues]
    simp [transferSourcingValues, hdefinition, hhidden, hnotnone]
  · obtain ⟨rows, hrows, hvalue⟩ := hsome hvalues
    rw [hvalue, if_pos hrenewal]
    exact rowValue_withoutHidden_of_hidden (validatedValueRows_ok hrows).2 hhide

theorem convertFields_copy {f : FieldFormats} {s t : CustomFieldStore} {itemId : Nat}
    {values : List CustomFieldValueItem} {line : FieldLine} {id : Nat}
    (h : convertFields f itemId values s = .ok t) (hline : s.lines.get? itemId = some line)
    (hcopy : s.behaves .copy id = true)
    : t.licenseValue s.licenses.nextKey id
      = if values = [] then line.values id else submittedValue f s values id := by
  obtain ⟨line', hline', hnone, hsome⟩ := convertFields_value h
  rw [hline] at hline'
  cases hline'
  by_cases hvalues : values = []
  · rw [if_pos hvalues, hnone hvalues, transferSourcingValues_copy hcopy]
  · obtain ⟨rows, hrows, hvalue⟩ := hsome hvalues
    rw [if_neg hvalues, hvalue, submittedValue, hrows]
    split
    · exact rowValue_withoutHidden (validatedValueRows_ok hrows).2
        (CustomFieldStore.behaves_ne hcopy (by decide))
    · rfl

theorem keptValues_add_of_not_shown {f : FieldFormats} {s : CustomFieldStore}
    {values : List CustomFieldValueItem} {rows : List ValueRow}
    (hrows : validatedValueRows f s values = .ok rows) {id : Nat} (h : s.shown id = false)
    (line : FieldLine)
    : (keptValues true s line.values).add (lineRows true line rows) id = line.values id := by
  have hothers : ∀ row ∈ lineRows true line rows, row.definitionId ≠ id := by
    intro row hrow hid
    have hshown : row ∈ rows ∧ row.definition.showOnSourcingForms = true := by
      unfold lineRows at hrow
      rw [if_pos rfl] at hrow
      split at hrow
      · exact List.mem_filter.mp (List.mem_of_mem_filter hrow)
      · exact List.mem_filter.mp hrow
    have hstored := (validatedValueRows_ok hrows).2 row hshown.1
    rw [hid] at hstored
    simp [CustomFieldStore.shown, hstored, hshown.2] at h
  rw [FieldValues.add_of_not_mem hothers]
  simp [keptValues, h]

theorem replaceValues_ne {f : FieldFormats} {respect : Bool} {itemId item : Nat}
    {values : List CustomFieldValueItem} {s t : CustomFieldStore}
    (h : replaceValuesForSourcingItem f respect itemId values s = .ok t) (hne : item ≠ itemId)
    : t.lines.get? item = s.lines.get? item := by
  obtain ⟨rows, -, h⟩ := bind_eq_ok.mp h
  obtain rfl := pure_eq_ok.mp h
  exact Table.get?_modify_ne _ _ hne

theorem editLine_ne {f : FieldFormats} {respect : Bool} {itemId item : Nat}
    {values : Option (List CustomFieldValueItem)} {s t : CustomFieldStore}
    (h : editLine f respect itemId values s = .ok t) (hne : item ≠ itemId)
    : t.lines.get? item = s.lines.get? item := by
  obtain ⟨_, -, h⟩ := bind_eq_ok.mp h
  cases values with
  | none =>
      obtain rfl := pure_eq_ok.mp h
      rfl
  | some values => exact replaceValues_ne h hne

theorem editLine_stored {f : FieldFormats} {respect : Bool} {itemId item : Nat}
    {values : Option (List CustomFieldValueItem)} {s t : CustomFieldStore}
    (h : editLine f respect itemId values s = .ok t) (hitem : ∃ line, s.lines.get? item = some line)
    : ∃ line, t.lines.get? item = some line := by
  by_cases hne : item = itemId
  · obtain ⟨_, -, h⟩ := bind_eq_ok.mp h
    obtain ⟨line, hline⟩ := hitem
    cases values with
    | none =>
        obtain rfl := pure_eq_ok.mp h
        exact ⟨line, hline⟩
    | some values =>
        obtain ⟨rows, -, h⟩ := bind_eq_ok.mp h
        obtain rfl := pure_eq_ok.mp h
        exact ⟨_, by rw [hne, Table.get?_modify_self, ← hne, hline, Option.map_some]⟩
  · rw [editLine_ne h hne]
    exact hitem

theorem editSourcingLine_not_shown {f : FieldFormats} {itemId : Nat}
    {values : Option (List CustomFieldValueItem)} {s t : CustomFieldStore}
    (h : editLine f true itemId values s = .ok t) {id : Nat} (hshown : s.shown id = false)
    (item : Nat)
    : t.lineValue item id = s.lineValue item id := by
  by_cases hitem : item = itemId
  · obtain ⟨line, hline, h⟩ := bind_eq_ok.mp h
    cases values with
    | none =>
        obtain rfl := pure_eq_ok.mp h
        rfl
    | some values =>
        obtain ⟨rows, hrows, h⟩ := bind_eq_ok.mp h
        obtain rfl := pure_eq_ok.mp h
        rw [hitem]
        simp only [CustomFieldStore.lineValue, Table.get?_modify_self, found_eq_ok.mp hline,
          Option.map_some, Option.bind_some]
        exact keptValues_add_of_not_shown hrows hshown line
  · unfold CustomFieldStore.lineValue
    rw [editLine_ne h hitem]

-- A run that leaves a field of a line alone

/-- Whether a turn leaves a field of a line alone: the field is copied on renewal, no values are
submitted for the line on a form that shows the field, and the line stays.
-/
def leavesField (itemId definitionId : Nat) (s : CustomFieldStore) (turn : FieldTurn) : Bool :=
  s.behaves .copy definitionId
    && match turn with
      | .editSourcingLine id (some _) => id != itemId || !s.shown definitionId
      | .editOrderLine id (some _) => id != itemId
      | .removeLine id => id != itemId
      | .merge ids _ => !ids.contains itemId
      | _ => true

/-- The line is stored, and while the field is copied on renewal it has a value for it. -/
def HoldsValue (itemId definitionId : Nat) (value : Option FieldValue) (s : CustomFieldStore)
    : Prop :=
  ∃ line, s.lines.get? itemId = some line
    ∧ (s.behaves .copy definitionId = true → line.values definitionId = value)

namespace HoldsValue

variable {f : FieldFormats} {itemId definitionId : Nat} {value : Option FieldValue}
  {s t : CustomFieldStore}

theorem of_line (hs : HoldsValue itemId definitionId value s)
    (hcopy : s.behaves .copy definitionId = true)
    (h : t.lines.get? itemId = s.lines.get? itemId)
    : HoldsValue itemId definitionId value t := by
  obtain ⟨line, hline, hvalue⟩ := hs
  exact ⟨line, h.trans hline, fun _ => hvalue hcopy⟩

theorem of_value (hs : HoldsValue itemId definitionId value s)
    (hcopy : s.behaves .copy definitionId = true) {line' : FieldLine}
    (hline' : t.lines.get? itemId = some line')
    (h : t.lineValue itemId definitionId = s.lineValue itemId definitionId)
    : HoldsValue itemId definitionId value t := by
  obtain ⟨line, hline, hvalue⟩ := hs
  refine ⟨line', hline', fun _ => ?_⟩
  simpa [CustomFieldStore.lineValue, hline, hline', hvalue hcopy] using h

theorem stored (hs : HoldsValue itemId definitionId value s)
    : ∃ line, s.lines.get? itemId = some line := by
  obtain ⟨line, hline, -⟩ := hs
  exact ⟨line, hline⟩

theorem ne_nextKey (hs : HoldsValue itemId definitionId value s) : itemId ≠ s.lines.nextKey := by
  obtain ⟨line, hline, -⟩ := hs
  exact (Table.lt_nextKey_of_get? hline).ne

theorem of_insert (hs : HoldsValue itemId definitionId value s) (line : FieldLine)
    : (s.lines.insert line).get? itemId = s.lines.get? itemId := by
  rw [Table.get?_insert, if_neg hs.ne_nextKey]

theorem of_deleteDefinition (hs : HoldsValue itemId definitionId value s)
    (hcopy : s.behaves .copy definitionId = true) (deleted : Nat)
    : HoldsValue itemId definitionId value (deleteDefinition deleted s) := by
  obtain ⟨line, hline, hvalue⟩ := hs
  refine ⟨{ line with values := FieldValues.without line.values deleted }, ?_, ?_⟩
  · simp [deleteDefinition, hline]
  · intro hstays
    by_cases hsame : definitionId = deleted
    · simp [CustomFieldStore.behaves, deleteDefinition, hsame] at hstays
    · simp [FieldValues.without, hsame, hvalue hcopy]

theorem of_editSourcingLine {edited : Nat} {values : Option (List CustomFieldValueItem)}
    (hs : HoldsValue itemId definitionId value s)
    (hleaves : leavesField itemId definitionId s (.editSourcingLine edited values) = true)
    (h : editLine f true edited values s = .ok t)
    : HoldsValue itemId definitionId value t := by
  obtain ⟨hcopy, hturn⟩ := Bool.and_eq_true _ _ |>.mp hleaves
  by_cases hitem : itemId = edited
  · cases values with
    | none =>
        obtain ⟨_, -, h⟩ := bind_eq_ok.mp h
        obtain rfl := pure_eq_ok.mp h
        exact hs
    | some values =>
        have hshown : s.shown definitionId = false := by
          simpa [hitem] using hturn
        obtain ⟨line', hline'⟩ := editLine_stored h hs.stored
        exact hs.of_value hcopy hline' (editSourcingLine_not_shown h hshown itemId)
  · exact hs.of_line hcopy (editLine_ne h hitem)

theorem of_editOrderLine {edited : Nat} {values : Option (List CustomFieldValueItem)}
    (hs : HoldsValue itemId definitionId value s)
    (hleaves : leavesField itemId definitionId s (.editOrderLine edited values) = true)
    (h : editLine f false edited values s = .ok t)
    : HoldsValue itemId definitionId value t := by
  obtain ⟨hcopy, hturn⟩ := Bool.and_eq_true _ _ |>.mp hleaves
  cases values with
  | none =>
      obtain ⟨_, -, h⟩ := bind_eq_ok.mp h
      obtain rfl := pure_eq_ok.mp h
      exact hs
  | some values =>
      have hitem : itemId ≠ edited := Ne.symm (bne_iff_ne.mp hturn)
      exact hs.of_line hcopy (editLine_ne h hitem)

theorem of_mergeCoterm {ids : List Nat} {primaryId : Nat}
    (hs : HoldsValue itemId definitionId value s)
    (hleaves : leavesField itemId definitionId s (.merge ids primaryId) = true)
    (h : mergeCoterm ids primaryId s = .ok t)
    : HoldsValue itemId definitionId value t := by
  obtain ⟨hcopy, hturn⟩ := Bool.and_eq_true _ _ |>.mp hleaves
  obtain ⟨_, -, h⟩ := bind_eq_ok.mp h
  obtain ⟨_, -, h⟩ := bind_eq_ok.mp h
  obtain ⟨_, -, h⟩ := bind_eq_ok.mp h
  obtain rfl := pure_eq_ok.mp h
  apply hs.of_line hcopy
  have hstored := hs
  obtain ⟨line, hline, -⟩ := hstored
  simp only [Table.get?_filter, hs.of_insert, hline]
  simpa using hturn

theorem step (hs : HoldsValue itemId definitionId value s) {turn : FieldTurn}
    (hleaves : leavesField itemId definitionId s turn = true)
    (h : turn.apply f s = .ok t)
    : HoldsValue itemId definitionId value t := by
  obtain ⟨hcopy, hturn⟩ := Bool.and_eq_true _ _ |>.mp hleaves
  cases turn with
  | define definition =>
      cases h
      exact hs.of_line hcopy rfl
  | redefine id behavior shown =>
      cases h
      exact hs.of_line hcopy rfl
  | undefine id =>
      cases h
      exact hs.of_deleteDefinition hcopy id
  | createLicense values =>
      obtain ⟨rows, -, h⟩ := bind_eq_ok.mp h
      obtain rfl := pure_eq_ok.mp h
      exact hs.of_line hcopy rfl
  | writeLicense id values =>
      obtain ⟨rows, -, h⟩ := bind_eq_ok.mp h
      obtain rfl := pure_eq_ok.mp h
      exact hs.of_line hcopy rfl
  | removeLicense id =>
      cases h
      exact hs.of_line hcopy rfl
  | createLine sourcing values =>
      apply hs.of_line hcopy
      rw [replaceValues_ne h hs.ne_nextKey]
      exact hs.of_insert _
  | initiate licenseId =>
      obtain ⟨predecessor, -, h⟩ := bind_eq_ok.mp h
      obtain rfl := pure_eq_ok.mp h
      exact hs.of_line hcopy (hs.of_insert _)
  | editSourcingLine edited values => exact hs.of_editSourcingLine hleaves h
  | editOrderLine edited values => exact hs.of_editOrderLine hleaves h
  | merge ids primaryId => exact hs.of_mergeCoterm hleaves h
  | removeLine id =>
      cases h
      apply hs.of_line hcopy
      have hne : itemId ≠ id := Ne.symm (bne_iff_ne.mp hturn)
      obtain ⟨line, hline, -⟩ := hs
      simp [hline, hne]
  | convert id values =>
      apply hs.of_line hcopy
      obtain ⟨line, -, h⟩ := bind_eq_ok.mp h
      split at h
      · obtain rfl := pure_eq_ok.mp h
        rfl
      · obtain ⟨rows, -, h⟩ := bind_eq_ok.mp h
        obtain rfl := pure_eq_ok.mp h
        rfl

end HoldsValue

/-- What a renewal line takes over for a field when it begins: the predecessor's value, or the
value that the merged lines have in common.
-/
def carriedValue (begin : FieldTurn) (s : CustomFieldStore) (definitionId : Nat)
    : Option FieldValue :=
  match begin with
  | .initiate licenseId => s.licenseValue licenseId definitionId
  | .merge ids _ =>
      commonValue ((mergedLines s ids).filterMap (fun id => s.lineValue id definitionId))
  | _ => none

/-- Whether a turn begins a renewal line. -/
def FieldTurn.beginsRenewal : FieldTurn → Bool
  | .initiate _ => true
  | .merge _ _ => true
  | _ => false

theorem nextKey_not_merged {s : CustomFieldStore} {ids : List Nat}
    (h : ids.filter (fun id => (s.lines.get? id).isNone) = [])
    : ids.contains s.lines.nextKey = false := by
  rw [List.contains_eq_mem, decide_eq_false_iff_not]
  intro hmem
  have hstored := List.filter_eq_nil_iff.mp h _ hmem
  simp at hstored

theorem beginsRenewal_holds {f : FieldFormats} {begin : FieldTurn} {s t : CustomFieldStore}
    {definitionId : Nat} (hbegin : begin.beginsRenewal = true) (h : begin.apply f s = .ok t)
    (hcopy : s.behaves .copy definitionId = true)
    : HoldsValue s.lines.nextKey definitionId (carriedValue begin s definitionId) t := by
  cases begin with
  | initiate licenseId =>
      obtain ⟨values, hvalues, h⟩ := bind_eq_ok.mp h
      obtain rfl := pure_eq_ok.mp h
      refine ⟨_, (Table.get?_insert _ _ _).trans (if_pos rfl), fun _ => ?_⟩
      simp [snapshotRenewalValues, hcopy, carriedValue, CustomFieldStore.licenseValue,
        found_eq_ok.mp hvalues]
  | merge ids primaryId =>
      obtain ⟨_, -, h⟩ := bind_eq_ok.mp h
      obtain ⟨_, hmissing, h⟩ := bind_eq_ok.mp h
      obtain ⟨_, -, h⟩ := bind_eq_ok.mp h
      obtain rfl := pure_eq_ok.mp h
      have hnew := nextKey_not_merged (require_eq_ok.mp hmissing)
      have hline : ∀ line : FieldLine,
          ((s.lines.insert line).filter (fun id _ => !ids.contains id)).get? s.lines.nextKey
            = some line := by
        intro line
        rw [Table.get?_filter, Table.get?_insert, if_pos rfl, hnew]
        rfl
      refine ⟨_, hline _, fun _ => ?_⟩
      obtain ⟨definition, hdefinition, hbehavior⟩ := Option.any_eq_true _ _ |>.mp hcopy
      have hcopied : definition.renewalBehavior = .copy := beq_iff_eq.mp hbehavior
      simp [mergeSourcingValues, hdefinition, hcopied, carriedValue]
  | define | redefine | undefine | createLicense | writeLicense | removeLicense | createLine
    | editSourcingLine | editOrderLine | removeLine | convert => cases hbegin

-- The rule

/-- Custom values carry over by their rule. The licence that a renewal line is converted to
holds no value of a field that is hidden then. For a field that is copied throughout, and on a
line that no form showing the field submits values for, it holds what the line took over when it
began, and where the conversion submits values exactly the submitted one. An edit on a sourcing
form never changes the values of fields that such forms do not show.
-/
theorem customFields_carryOver (f : FieldFormats)
    : (∀ s t itemId values line definitionId,
        FieldTurn.apply f (.convert itemId values) s = .ok t →
        s.lines.get? itemId = some line → line.renewalForLicenseId.isSome = true →
        s.behaves .hide definitionId = true →
        t.licenseValue s.licenses.nextKey definitionId = none)
      ∧ (∀ s begun last t begin values definitionId,
          begin.beginsRenewal = true → begin.apply f s = .ok begun →
          s.behaves .copy definitionId = true →
          Reachable (FieldTurn.apply f)
            (fun u turn => leavesField s.lines.nextKey definitionId u turn = true) begun last →
          last.behaves .copy definitionId = true →
          FieldTurn.apply f (.convert s.lines.nextKey values) last = .ok t →
          t.licenseValue last.licenses.nextKey definitionId
            = if values = [] then carriedValue begin s definitionId
              else submittedValue f last values definitionId)
      ∧ ∀ s t itemId values definitionId,
          FieldTurn.apply f (.editSourcingLine itemId values) s = .ok t →
          s.shown definitionId = false →
          ∀ item, t.lineValue item definitionId = s.lineValue item definitionId := by
  refine ⟨?_, ?_, ?_⟩
  · intro s t itemId values line definitionId h hline hrenewal hhide
    exact convertFields_hidden h hline hrenewal hhide
  · intro s begun last t begin values definitionId hbegin hbegun hcopy hrun hlast hconvert
    have hholds : HoldsValue s.lines.nextKey definitionId (carriedValue begin s definitionId)
        last := by
      apply hrun.invariant
      · exact beginsRenewal_holds hbegin hbegun hcopy
      · intro u v turn hu hleaves hstep
        exact hu.step hleaves hstep
    obtain ⟨line, hline, hvalue⟩ := hholds
    rw [convertFields_copy hconvert hline hlast, hvalue hlast]
  · intro s t itemId values definitionId h hshown item
    exact editSourcingLine_not_shown h hshown item

/-- Formats under which no text is a date. -/
def dateless : FieldFormats where
  unicode := .ascii
  isoDate _ := none

/-- Two copied text fields, the first not on sourcing forms, and a licence with both. -/
def copiedFields : CustomFieldStore where
  definitions := (Table.empty.insert
    { fieldType := "text", renewalBehavior := .copy, showOnSourcingForms := false }).insert
    { fieldType := "text", renewalBehavior := .copy }
  licenses := Table.empty.insert (fun id =>
    if id = 1 then some ⟨some "a", none⟩ else if id = 2 then some ⟨some "b", none⟩ else none)

/-- The first field survives an edit on a sourcing form, which does not show it, and is carried
over.
-/
theorem customFields_carryOver_edited
    : ∃ begun last t,
        FieldTurn.apply dateless (.initiate 1) copiedFields = .ok begun
        ∧ FieldTurn.apply dateless (.editSourcingLine 1 (some [])) begun = .ok last
        ∧ FieldTurn.apply dateless (.convert 1 []) last = .ok t
        ∧ t.licenseValue last.licenses.nextKey 1 = some ⟨some "a", none⟩ := by
  obtain ⟨t, ht⟩ := exists_ok
    (x := FieldTurn.apply dateless (.initiate 1) copiedFields
      >>= FieldTurn.apply dateless (.editSourcingLine 1 (some []))
      >>= FieldTurn.apply dateless (.convert 1 []))
    (by decide +kernel)
  obtain ⟨last, hlast, hconvert⟩ := bind_eq_ok.mp ht
  obtain ⟨begun, hbegun, hedit⟩ := bind_eq_ok.mp hlast
  have hleaves : (FieldTurn.apply dateless (.initiate 1) copiedFields).map
      (fun u => leavesField 1 1 u (.editSourcingLine 1 (some []))) = .ok true := by
    decide +kernel
  have hcopied : (FieldTurn.apply dateless (.initiate 1) copiedFields
      >>= FieldTurn.apply dateless (.editSourcingLine 1 (some []))).map
      (fun u => u.behaves .copy 1) = .ok true := by
    decide +kernel
  rw [hbegun] at hleaves
  rw [hlast] at hcopied
  refine ⟨begun, last, t, hbegun, hedit, hconvert, ?_⟩
  have hrun : Reachable (FieldTurn.apply dateless)
      (fun u turn => leavesField 1 1 u turn = true) begun last :=
    .step _ .start (Except.ok.inj hleaves) hedit
  exact (customFields_carryOver dateless).2.1 copiedFields begun last t (.initiate 1) [] 1 rfl
    hbegun rfl hrun (Except.ok.inj hcopied) hconvert

/-- A conversion that submits the first field only drops the second, which was not edited. -/
theorem customFields_dropped
    : (runAll (FieldTurn.apply dateless)
          [.initiate 1, .convert 1 [{ customFieldDefId := 1, valueText := some (.text "a") }]]
          copiedFields).map
        (fun t => (t.behaves .copy 2, t.licenseValue 1 2, t.lineValue 1 2, t.licenseValue 2 2))
      = some (true, some ⟨some "b", none⟩, some ⟨some "b", none⟩, none) := by
  decide +kernel

end LicenseTrack
