import LicenseTrack.Library.Outcome
import LicenseTrack.Services.CsvColumns

/-! A file whose headers are the native column names, read without a mapping and under the mapping of
each column to its field. The two readings collect different data from a row, since one keeps blank
cells and white space, but the row parser sees the same cells.
-/

namespace LicenseTrack.CsvImport

open Library

variable {u : Unicode}

theorem stripChars_cons {c : Char} (hc : isSpace c = true) (text : List Char)
    : stripChars isSpace (c :: text) = stripChars isSpace text := by
  rw [stripChars, List.dropWhile_cons_of_pos hc, stripChars]

theorem stripChars_concat {c : Char} (hc : isSpace c = true) (text : List Char)
    : stripChars isSpace (text ++ [c]) = stripChars isSpace text := by
  unfold stripChars
  rw [List.dropWhile_append]
  split
  · next hempty => simp [List.isEmpty_iff.mp hempty, hc]
  · rw [List.reverse_append, List.reverse_singleton, List.singleton_append,
      List.dropWhile_cons_of_pos hc]

/-- The parts of a contact cell, up to the white space around them. -/
def separatedParts (text : List Char) : List (List Char) :=
  (text.splitOnP isContactSeparator).map (stripChars isSpace)

theorem separator_of_space {c : Char} (hc : isSpace c = true) : isContactSeparator c = false := by
  rw [isContactSeparator, Bool.or_eq_false_iff]
  constructor
  · refine beq_eq_false_iff_ne.mpr ?_
    rintro rfl
    exact absurd hc (by decide)
  · refine beq_eq_false_iff_ne.mpr ?_
    rintro rfl
    exact absurd hc (by decide)

theorem noSeparator_concat {c : Char} (hc : isContactSeparator c = false) {front : List Char}
    (hfront : ∀ d ∈ front, isContactSeparator d = false)
    : ∀ d ∈ front ++ [c], isContactSeparator d = false := by
  intro d hd
  rcases List.mem_append.mp hd with hd | hd
  · exact hfront d hd
  · rw [List.mem_singleton.mp hd]
    exact hc

theorem separatedParts_cons {c : Char} (hc : isSpace c = true) (front text : List Char)
    (hfront : ∀ d ∈ front, isContactSeparator d = false)
    : separatedParts (c :: (front ++ text)) = separatedParts (front ++ text) := by
  have hcfront : ∀ d ∈ c :: front, isContactSeparator d = false :=
    List.forall_mem_cons.mpr ⟨separator_of_space hc, hfront⟩
  induction text generalizing front with
  | nil =>
      rw [List.append_nil, separatedParts, separatedParts, List.splitOnP_eq_singleton hcfront,
        List.splitOnP_eq_singleton hfront]
      simp [stripChars_cons hc]
  | cons d rest ih =>
      by_cases hd : isContactSeparator d = true
      · rw [← List.cons_append, separatedParts, separatedParts,
          List.splitOnP_append_cons _ _ hd, List.splitOnP_append_cons _ _ hd,
          List.splitOnP_eq_singleton hcfront, List.splitOnP_eq_singleton hfront]
        simp [stripChars_cons hc]
      · have hnext := noSeparator_concat (Bool.eq_false_iff.mpr hd) hfront
        have happend : front ++ d :: rest = (front ++ [d]) ++ rest := by simp
        rw [happend]
        exact ih (front ++ [d]) hnext
          (List.forall_mem_cons.mpr ⟨separator_of_space hc, hnext⟩)

theorem separatedParts_concat {c : Char} (hc : isSpace c = true) (front text : List Char)
    (hfront : ∀ d ∈ front, isContactSeparator d = false)
    : separatedParts (front ++ text ++ [c]) = separatedParts (front ++ text) := by
  induction text generalizing front with
  | nil =>
      have hfrontc := noSeparator_concat (separator_of_space hc) hfront
      rw [List.append_nil, separatedParts, separatedParts, List.splitOnP_eq_singleton hfrontc,
        List.splitOnP_eq_singleton hfront]
      simp [stripChars_concat hc]
  | cons d rest ih =>
      by_cases hd : isContactSeparator d = true
      · have hrest := ih [] (fun _ h => absurd h List.not_mem_nil)
        rw [List.nil_append, separatedParts, separatedParts] at hrest
        rw [List.append_assoc, List.cons_append, separatedParts, separatedParts,
          List.splitOnP_append_cons _ _ hd, List.splitOnP_append_cons _ _ hd, List.map_append,
          List.map_append, hrest]
      · have happend : front ++ d :: rest = (front ++ [d]) ++ rest := by simp
        rw [happend]
        exact ih (front ++ [d]) (noSeparator_concat (Bool.eq_false_iff.mpr hd) hfront)

theorem contactParts_strip (value : String) : contactParts (strip value) = contactParts value := by
  have hdrop : ∀ text : List Char, separatedParts (text.dropWhile isSpace) = separatedParts text := by
    intro text
    induction text with
    | nil => rfl
    | cons c rest ih =>
        by_cases hc : isSpace c = true
        · rw [List.dropWhile_cons_of_pos hc, ih]
          exact (separatedParts_cons hc [] rest (fun _ h => absurd h List.not_mem_nil)).symm
        · rw [List.dropWhile_cons_of_neg hc]
  have hrdrop : ∀ text : List Char,
      separatedParts (List.rdropWhile isSpace text) = separatedParts text := by
    intro text
    induction text using List.reverseRecOn with
    | nil => rfl
    | append_singleton front c ih =>
        by_cases hc : isSpace c = true
        · rw [List.rdropWhile_concat_pos _ _ _ hc, ih]
          exact (separatedParts_concat hc [] front (fun _ h => absurd h List.not_mem_nil)).symm
        · rw [List.rdropWhile_concat_neg _ _ _ hc]
  have hstrip : separatedParts (stripChars isSpace value.toList) = separatedParts value.toList :=
    (hrdrop _).trans (hdrop _)
  unfold contactParts strip
  rw [String.toList_ofList]
  exact congrArg (List.filter (· ≠ [])) hstrip

theorem contactParts_blank {value : String} (h : strip value = "") : contactParts value = [] := by
  rw [← contactParts_strip, h]
  decide

-- Cells of a row

/-- Data of one row from which the row parser reads the same cells, with the same custom cells. -/
structure SameCells (d e : RowData) : Prop where
  text : ∀ field, fieldText d field = fieldText e field
  contacts : (d.lists "secondary_contacts").flatMap contactParts
    = (e.lists "secondary_contacts").flatMap contactParts
  lifecycle : (d.texts "lifecycle_status").isSome = (e.texts "lifecycle_status").isSome
  custom : d.custom = e.custom

theorem SameCells.rowCells {d e : RowData} (h : SameCells d e) (u : Unicode)
    : rowCells u d = rowCells u e := by
  unfold CsvImport.rowCells splitSecondaryContactValues
  rw [h.contacts, h.lifecycle, funext h.text]

/-- A column that holds several values. -/
def IsMulti (target : String) : Prop := target ∈ multiValueTargets

theorem SameCells.assembleCell {d e : RowData} (h : SameCells d e) (row : RawRow)
    {column : String × String} (hfree : ¬IsMulti column.2 → e.texts column.2 = none)
    : SameCells (assembleCell false row d column) (assembleCell true row e column) := by
  unfold CsvImport.assembleCell
  dsimp only
  split
  · split
    · exact ⟨h.text, h.contacts, h.lifecycle, by rw [h.custom]⟩
    · exact h
  · rw [if_neg (by simp)]
    simp only [Bool.true_and, if_true, Bool.false_eq_true, if_false]
    by_cases hmulti : column.2 ∈ multiValueTargets
    · simp only [if_pos hmulti]
      have hname : column.2 = "secondary_contacts" := by simpa [multiValueTargets] using hmulti
      split
      · next hblank =>
          simp only [Bool.and_eq_true, beq_iff_eq] at hblank
          refine ⟨h.text, ?_, h.lifecycle, h.custom⟩
          dsimp only
          rw [hname, Function.update_self, List.flatMap_append, h.contacts]
          simp [contactParts_blank hblank.1]
      · refine ⟨h.text, ?_, h.lifecycle, h.custom⟩
        dsimp only
        rw [hname, Function.update_self, Function.update_self, List.flatMap_append,
          List.flatMap_append, h.contacts]
        simp [contactParts_strip]
    · simp only [if_neg hmulti]
      split
      · next hblank =>
          simp only [Bool.and_eq_true, beq_iff_eq, bne_iff_ne] at hblank
          refine ⟨fun field => ?_, h.contacts, ?_, h.custom⟩
          · by_cases hfield : field = column.2
            · subst hfield
              simp [fieldText, hfree hmulti, hblank.1, show strip "" = "" from by decide]
            · simpa [fieldText, Function.update_of_ne hfield] using h.text field
          · rw [← h.lifecycle]
            simp [Function.update_of_ne (Ne.symm hblank.2)]
      · refine ⟨fun field => ?_, h.contacts, ?_, h.custom⟩
        · by_cases hfield : field = column.2
          · subst hfield
            simp [fieldText, strip_strip]
          · simpa [fieldText, Function.update_of_ne hfield] using h.text field
        · by_cases hfield : "lifecycle_status" = column.2
          · simp [hfield]
          · simpa [Function.update_of_ne hfield] using h.lifecycle

theorem assembleCell_texts (omitBlank : Bool) (row : RawRow) (d : RowData) {column : String × String}
    {field : String} (h : column.2 ≠ field)
    : (assembleCell omitBlank row d column).texts field = d.texts field := by
  unfold assembleCell
  dsimp only
  split_ifs <;> simp [Function.update_of_ne (Ne.symm h)]

theorem SameCells.foldl (row : RawRow) {columns : List (String × String)}
    (hdistinct : columns.Pairwise (fun a b => ¬IsMulti b.2 → a.2 ≠ b.2)) {d e : RowData}
    (h : SameCells d e) (hfree : ∀ c ∈ columns, ¬IsMulti c.2 → e.texts c.2 = none)
    : SameCells (columns.foldl (CsvImport.assembleCell false row) d)
        (columns.foldl (CsvImport.assembleCell true row) e) := by
  induction columns generalizing d e with
  | nil => exact h
  | cons column rest ih =>
      obtain ⟨hfirst, hrest⟩ := List.pairwise_cons.mp hdistinct
      refine ih hrest (h.assembleCell row (hfree column List.mem_cons_self)) fun c hc hmulti => ?_
      rw [assembleCell_texts true row e (hfirst c hc hmulti)]
      exact hfree c (List.mem_cons_of_mem _ hc) hmulti

theorem parseRows_agree {ρ : Type} (u : Unicode) (parseCells : Nat → RowCells → ρ)
    {columns : List (String × String)}
    (hdistinct : columns.Pairwise (fun a b => ¬IsMulti b.2 → a.2 ≠ b.2)) (rows : List RawRow)
    : parseRows u parseCells false columns rows = parseRows u parseCells true columns rows := by
  have hsame : ∀ row, SameCells (assembleImportRow false row columns)
      (assembleImportRow true row columns) := fun row =>
    SameCells.foldl row hdistinct ⟨fun _ => rfl, rfl, rfl, rfl⟩ fun _ _ _ => rfl
  unfold parseRows
  simp only [fun row => (hsame row).rowCells u, fun row => (hsame row).custom]

-- Native columns

/-- The names of the native columns. -/
def nativeHeaders : List String := csvFields.map (·.header)

/-- The field of the same name as a column. -/
def nativeField (header : String) : Option String :=
  (csvFields.find? (·.header == header)).bind (·.target)

/-- The mapping that sends each column to the field of the same name. -/
def nativeMapping (headers : List String) : List (String × String) :=
  headers.filterMap (fun header => (nativeField header).map (fun target => (header, target)))

/-- Lower case leaves lower-case letters, digits and underscores as they are. -/
def Lowers (u : Unicode) : Prop :=
  ∀ text : String, text.toList.all (fun c => isHeaderChar c || c == '_') = true → u.lower text = text

theorem names_normalised (hu : Lowers u) {field : CsvField} (hfield : field ∈ csvFields)
    {name : String} (hname : name ∈ field.names)
    : normaliseHeader u name = name := by
  have hall : ∀ field ∈ csvFields, ∀ name ∈ field.names, strip name = name
      ∧ name.toList.all (fun c => isHeaderChar c || c == '_') = true ∧ joinHeader name = name := by
    decide +kernel
  obtain ⟨hstrip, hchars, hjoin⟩ := hall field hfield name hname
  rw [normaliseHeader, hstrip, hu name hchars, hjoin]

theorem names_congr {field : CsvField}
    (hnames : ∀ name ∈ field.names, normaliseHeader u name = name) (normalized : String)
    : field.names.any (fun name => normaliseHeader u name == normalized)
      = field.names.any (· == normalized) := by
  rw [Bool.eq_iff_iff, List.any_eq_true, List.any_eq_true]
  refine exists_congr fun name => and_congr_right fun hname => ?_
  rw [hnames name hname]

theorem find?_names {fields : List CsvField}
    (hnames : ∀ field ∈ fields, ∀ name ∈ field.names, normaliseHeader u name = name)
    (normalized : String)
    : fields.find? (fun field => field.target.isSome
        && field.names.any (fun name => normaliseHeader u name == normalized))
      = fields.find? (fun field => field.target.isSome && field.names.any (· == normalized)) := by
  rw [← List.head?_filter, ← List.head?_filter, List.filter_congr fun field hfield => by
    rw [names_congr (hnames field hfield)]]

theorem headerMap_eq (hu : Lowers u) (normalized : String)
    : headerMap u normalized = (csvFields.reverse.find? (fun field => field.target.isSome
        && field.names.any (· == normalized))).bind (·.target) := by
  rw [headerMap, find?_names fun field hfield name hname =>
    names_normalised hu (List.mem_reverse.mp hfield) hname]

theorem isIgnoredHeader_native (hu : Lowers u) {field : CsvField} (hfield : field ∈ csvFields)
    (htarget : field.target = none)
    : isIgnoredHeader u field.header = true := by
  refine List.any_eq_true.mpr ⟨field, hfield, ?_⟩
  rw [names_congr fun name hname => names_normalised hu hfield hname]
  simp [htarget, CsvField.names]

theorem nativeField_eq {field : CsvField} (h : field ∈ csvFields)
    : nativeField field.header = field.target := by
  have hall : ∀ field ∈ csvFields, csvFields.find? (·.header == field.header) = some field := by
    decide +kernel
  rw [nativeField, hall field h, Option.bind_some]

theorem columnTarget_native (hu : Lowers u) (customHeaders : String → Option String)
    {header : String} (h : header ∈ nativeHeaders)
    : columnTarget u customHeaders header = nativeField header := by
  have hmap : ∀ field ∈ csvFields,
      (csvFields.reverse.find? (fun other => other.target.isSome
        && other.names.any (· == field.header))).bind (·.target) = field.target := by
    decide +kernel
  obtain ⟨field, hfield, rfl⟩ := List.mem_map.mp h
  unfold columnTarget
  rw [names_normalised hu hfield List.mem_cons_self, nativeField_eq hfield]
  dsimp only
  rw [headerMap_eq hu, hmap field hfield]
  rcases htarget : field.target with _ | target
  · dsimp only
    rw [isIgnoredHeader_native hu hfield htarget, if_pos rfl]
  · rfl

theorem nativeField_distinct {a b target : String} (ha : a ∈ nativeHeaders) (hb : b ∈ nativeHeaders)
    (hat : nativeField a = some target) (hbt : nativeField b = some target)
    : a = b := by
  have hall : ∀ f ∈ csvFields, f.target.isSome = true
      → csvFields.find? (·.target == f.target) = some f := by
    decide +kernel
  obtain ⟨f, hf, rfl⟩ := List.mem_map.mp ha
  obtain ⟨g, hg, rfl⟩ := List.mem_map.mp hb
  rw [nativeField_eq hf] at hat
  rw [nativeField_eq hg] at hbt
  have hfirst := hall f hf (by rw [hat]; rfl)
  have hsecond := hall g hg (by rw [hbt]; rfl)
  rw [hat] at hfirst
  rw [hbt] at hsecond
  rw [Option.some.inj (hfirst.symm.trans hsecond)]

theorem nativeField_ne {header target : String} (h : header ∈ nativeHeaders)
    (ht : nativeField header = some target)
    : target ≠ "" := by
  have hall : ∀ field ∈ csvFields, field.target ≠ some "" := by decide +kernel
  obtain ⟨field, hfield, rfl⟩ := List.mem_map.mp h
  rintro rfl
  exact hall field hfield ((nativeField_eq hfield).symm.trans ht)

theorem mapHeader_native (hu : Lowers u) (customHeaders : String → Option String) {header : String}
    (hheader : header ∈ nativeHeaders) (state : HeaderState)
    (hfree : ∀ entry ∈ state.targetToHeader, nativeField header ≠ some entry.1)
    : ∃ next, mapHeader u customHeaders state header = .ok next
        ∧ next.headerMapping = state.headerMapping ++ nativeMapping [header]
        ∧ ∀ entry ∈ next.targetToHeader,
          entry ∈ state.targetToHeader ∨ nativeField header = some entry.1 := by
  unfold mapHeader
  rw [columnTarget_native hu customHeaders hheader]
  rcases htarget : nativeField header with _ | target
  · exact ⟨state, rfl, by simp [nativeMapping, htarget], fun _ => .inl⟩
  · have hne := nativeField_ne hheader htarget
    have hmapping : nativeMapping [header] = [(header, target)] := by
      simp [nativeMapping, htarget]
    simp only [Option.filter_some, decide_eq_true_eq, ne_eq, hne, not_false_eq_true, if_true]
    rw [hmapping]
    split
    · exact ⟨_, rfl, rfl, fun _ => .inl⟩
    · have hnone : state.targetToHeader.find? (·.1 == target) = none := by
        refine List.find?_eq_none.mpr fun entry hentry hkey => hfree entry hentry ?_
        rw [htarget, ← beq_iff_eq.mp hkey]
      rw [hnone]
      refine ⟨_, rfl, rfl, fun entry hentry => ?_⟩
      rcases List.mem_cons.mp hentry with rfl | hentry
      · exact .inr rfl
      · exact .inl hentry

theorem mapHeaders_native (hu : Lowers u) (customHeaders : String → Option String)
    {headers : List String} (hnative : ∀ h ∈ headers, h ∈ nativeHeaders) (hnodup : headers.Nodup)
    (state : HeaderState)
    (hfree : ∀ entry ∈ state.targetToHeader, ∀ h ∈ headers, nativeField h ≠ some entry.1)
    : ∃ final, headers.foldlM (mapHeader u customHeaders) state = .ok final
        ∧ final.headerMapping = state.headerMapping ++ nativeMapping headers := by
  induction headers generalizing state with
  | nil => exact ⟨state, rfl, by simp [nativeMapping]⟩
  | cons header rest ih =>
      obtain ⟨hheader, hothers⟩ := List.forall_mem_cons.mp hnative
      obtain ⟨hnew, hrest⟩ := List.nodup_cons.mp hnodup
      obtain ⟨next, hnext, hmapped, htargets⟩ := mapHeader_native hu customHeaders hheader state
        fun entry hentry => hfree entry hentry header List.mem_cons_self
      -- No later header has the field of this one.
      have hfree' : ∀ entry ∈ next.targetToHeader, ∀ h ∈ rest, nativeField h ≠ some entry.1 := by
        intro entry hentry h hh hsame
        rcases htargets entry hentry with hentry | htarget
        · exact hfree entry hentry h (List.mem_cons_of_mem _ hh) hsame
        · refine hnew ?_
          rwa [nativeField_distinct hheader (hothers h hh) htarget hsame]
      obtain ⟨final, hfinal, hall⟩ := ih hothers hrest next hfree'
      refine ⟨final, ?_, ?_⟩
      · rw [List.foldlM_cons, hnext]
        exact hfinal
      · have hjoined : nativeMapping (header :: rest) = nativeMapping [header] ++ nativeMapping rest :=
          List.filterMap_append (l := [header])
        rw [hall, hmapped, hjoined, List.append_assoc]

theorem nativeMapping_distinct {headers : List String} (hnative : ∀ h ∈ headers, h ∈ nativeHeaders)
    (hnodup : headers.Nodup)
    : (nativeMapping headers).Pairwise (fun a b => ¬IsMulti b.2 → a.2 ≠ b.2) := by
  refine List.pairwise_filterMap.mpr ?_
  refine hnodup.imp_of_mem fun {a b} ha hb hne => ?_
  intro x hx y hy _ hsame
  obtain ⟨target, hat, rfl⟩ := Option.map_eq_some_iff.mp hx
  obtain ⟨target', hbt, rfl⟩ := Option.map_eq_some_iff.mp hy
  obtain rfl : target = target' := hsame
  exact hne (nativeField_distinct (hnative a ha) (hnative b hb) hat hbt)

theorem lowers_ascii : Lowers .ascii := by
  intro text h
  have hsame : text.toList.map Char.toLower = text.toList := by
    conv_rhs => rw [← List.map_id text.toList]
    refine List.map_congr_left fun c hc => ?_
    have hplain := List.all_eq_true.mp h c hc
    refine (dif_neg ?_ : c.toLower = c)
    rintro ⟨hlow, hhigh⟩
    simp only [isHeaderChar, Bool.or_eq_true, Bool.and_eq_true, decide_eq_true_eq, beq_iff_eq]
      at hplain
    have hA : 65 ≤ c.val.toNat := UInt32.le_iff_toNat_le.mp hlow
    have hZ : c.val.toNat ≤ 90 := UInt32.le_iff_toNat_le.mp hhigh
    rcases hplain with (⟨ha, -⟩ | ⟨-, h9⟩) | rfl
    · have : 97 ≤ c.val.toNat := UInt32.le_iff_toNat_le.mp ha
      omega
    · have : c.val.toNat ≤ 57 := UInt32.le_iff_toNat_le.mp h9
      omega
    · exact absurd hhigh (by decide)
  change String.ofList (text.toList.map Char.toLower) = text
  rw [hsame, String.ofList_toList]

/-- A file whose headers are native column names, in any order, is read alike without a mapping and
under the mapping that sends each column to the field of the same name: both readings fail alike, or
give the same rows and the same custom cells.
-/
theorem mappedImport_agrees {κ ρ : Type} (hu : Lowers u)
    {csvRecords : κ → Except String (List (List String))} {contents : κ} {headers : List String}
    {rows : List (List String)} (hrecords : csvRecords contents = .ok (headers :: rows))
    (hnative : ∀ h ∈ headers, h ∈ nativeHeaders) (parseCells : Nat → RowCells → ρ)
    (customHeaders : String → Option String)
    : parseCsv u csvRecords parseCells customHeaders contents
      = parseMappedCsv u csvRecords parseCells (nativeMapping headers) contents := by
  unfold parseCsv parseMappedCsv
  rw [hrecords, ok_bind, ok_bind, readCsvDictRows]
  dsimp only
  split
  · next hnodup =>
      obtain ⟨final, hfinal, hmapped⟩ := mapHeaders_native hu customHeaders hnative hnodup
        {} fun _ h => absurd h List.not_mem_nil
      have hmapping : final.headerMapping = nativeMapping headers := by simpa using hmapped
      rw [ok_bind, ok_bind, hfinal, ok_bind, hmapping,
        parseRows_agree u parseCells (nativeMapping_distinct hnative hnodup)]
  · rfl

/-- A file with white space around its cells, a short record and several contacts. -/
theorem mappedImport_agrees_contacts
    : parseCsv .ascii (fun records : List (List String) => .ok records)
        (fun number cells => (number, cells.text "software_description", cells.secondaryContacts))
        (fun _ => none)
        [["secondary_contacts", "software_description"], [" a@x ; b@x, A@x", " Editor "], [""]]
      = parseMappedCsv .ascii (fun records : List (List String) => .ok records)
        (fun number cells => (number, cells.text "software_description", cells.secondaryContacts))
        (nativeMapping ["secondary_contacts", "software_description"])
        [["secondary_contacts", "software_description"], [" a@x ; b@x, A@x", " Editor "], [""]] :=
  mappedImport_agrees lowers_ascii rfl (by decide +kernel) _ _

end LicenseTrack.CsvImport
