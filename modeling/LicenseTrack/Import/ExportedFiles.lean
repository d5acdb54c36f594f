import LicenseTrack.Services.CsvExports

/-! Exported files as the import reads them. The export of all columns comes back cell for cell,
formula guards included, unless a cell has a carriage return that no quotes protect, or the file ends
in an empty line; the export of the backend always comes back.
-/

namespace LicenseTrack.CsvExport

open Library
open LicenseTrack.CsvImport
open LicenseTrack.Installer (isLineBreak splitLines splitLinesFrom splitLines_cons
  splitLinesFrom_plain)

/-- The characters of a header line that leave its delimiter to the commas. -/
def isPlainChar (c : Char) : Bool := !isLineBreak c && c != ';' && c != '\t' && c != '='

theorem isLineBreak_of_plain {c : Char} (h : isPlainChar c = true) : isLineBreak c = false := by
  simp only [isPlainChar, Bool.and_eq_true, Bool.not_eq_true'] at h
  exact h.1.1.1

theorem plain_ne {c : Char} (h : isPlainChar c = true)
    : c ≠ ';' ∧ c ≠ '\t' ∧ c ≠ '=' ∧ c ≠ '\n' ∧ c ≠ '\r' := by
  refine ⟨?_, ?_, ?_, ?_, ?_⟩ <;>
    · rintro rfl
      revert h
      decide

theorem fieldCount_le {line : List Char} (plain : ∀ c ∈ line, isPlainChar c = true)
    {delimiter : Delimiter} (hdelimiter : delimiter ≠ .comma) {count : Nat}
    (hcount : fieldCount line delimiter = some count)
    : count ≤ 1 := by
  unfold fieldCount at hcount
  split at hcount
  · next found hfirst =>
    obtain ⟨record, rfl, rfl⟩ := Option.map_eq_some_iff.mp hcount
    have hne : ∀ c ∈ line, c ≠ delimiter.dialect.delimiter ∧ c ≠ '\n' ∧ c ≠ '\r' := by
      intro c hc
      obtain ⟨hsemicolon, htab, -, hfeed, hreturn⟩ := plain_ne (plain c hc)
      refine ⟨?_, hfeed, hreturn⟩
      cases delimiter
      case comma => exact absurd rfl hdelimiter
      case semicolon => exact hsemicolon
      case tab => exact htab
    rcases eq_or_ne line [] with rfl | hline
    · cases hfirst
    · have hlast : line.getLast? ≠ some '\n' := fun h =>
        (hne '\n' (List.mem_of_getLast? h)).2.1 rfl
      have hevents : textEvents line = line.flatMap charEvents ++ [.lineEnd] := by
        rw [textEvents, if_neg (by simp [hline, hlast])]
      rw [firstRecord, hevents] at hfirst
      exact first_single hne rfl (by decide) hfirst
  · cases hcount

theorem greaterCount_mem (candidates : List (Nat × Delimiter)) (first : Nat × Delimiter)
    : candidates.foldl greaterCount first ∈ first :: candidates := by
  induction candidates generalizing first with
  | nil => exact List.mem_cons_self
  | cons next candidates ih =>
      have hmem := ih (greaterCount first next)
      rw [List.foldl_cons]
      rcases List.mem_cons.mp hmem with hfirst | hlater
      · rw [hfirst]
        unfold greaterCount
        split
        · exact List.mem_cons_of_mem _ List.mem_cons_self
        · exact List.mem_cons_self
      · exact List.mem_cons_of_mem _ (List.mem_cons_of_mem _ hlater)

theorem lineDelimiter_plain {line : List Char} (plain : ∀ c ∈ line, isPlainChar c = true)
    : lineDelimiter line = .comma := by
  unfold lineDelimiter
  split
  · next hmany =>
    by_contra hdelimiter
    have hbest : bestCandidate line ∈ candidates line := by
      have hmem := greaterCount_mem (candidates line) ((candidates line).headD (1, .comma))
      cases hline : candidates line with
      | nil =>
          rw [bestCandidate, hline] at hdelimiter
          exact absurd rfl hdelimiter
      | cons candidate others =>
          rw [hline] at hmem
          rw [bestCandidate, hline]
          rcases List.mem_cons.mp hmem with heq | hmem
          · rw [heq]
            exact List.mem_cons_self
          · exact hmem
    obtain ⟨delimiter, -, hcount⟩ := List.mem_filterMap.mp hbest
    obtain ⟨count, hcount, heq⟩ := Option.map_eq_some_iff.mp hcount
    rw [← heq] at hmany hdelimiter
    exact absurd (fieldCount_le plain hdelimiter hcount) (Nat.not_le.mpr hmany)
  · rfl

-- The text of a file

theorem mem_of_mem_stripChars {space : Char → Bool} {text : List Char} {c : Char}
    (h : c ∈ stripChars space text) : c ∈ text := by
  rw [stripChars, List.mem_reverse] at h
  have hback := List.mem_reverse.mp ((List.dropWhile_sublist _).subset h)
  exact (List.dropWhile_sublist _).subset hback

theorem separatorDirective_none {line : List Char} (h : '=' ∉ line)
    : separatorDirective line = none := by
  unfold separatorDirective
  split
  · next s e p c rest =>
    exact absurd (by simp) h
  · rfl

/-- A first line with plain characters that are not all blank, and what follows it. -/
structure PlainStart (line rest : List Char) : Prop where
  chars : ∀ c ∈ line, isPlainChar c = true
  visible : ∃ c ∈ line, isSpace c = false
  ends : rest = [] ∨ ∃ more, rest = '\r' :: more

theorem PlainStart.takeWhile {line rest : List Char} (h : PlainStart line rest)
    : (line ++ rest).takeWhile (fun c => !isLineBreak c) = line := by
  have hline : ∀ c ∈ line, (!isLineBreak c) = true := fun c hc => by
    rw [isLineBreak_of_plain (h.chars c hc)]
    rfl
  rw [List.takeWhile_append_of_pos hline]
  rcases h.ends with rfl | ⟨more, rfl⟩
  · exact List.append_nil _
  · exact List.append_nil _

theorem PlainStart.directive {line rest : List Char} (h : PlainStart line rest)
    : stripExcelSeparatorDirective (line ++ rest) = (line ++ rest, none) := by
  have hequals : '=' ∉ stripChars isSpace line := fun hmem =>
    (plain_ne (h.chars '=' (mem_of_mem_stripChars hmem))).2.2.1 rfl
  simp only [stripExcelSeparatorDirective, h.takeWhile, separatorDirective_none hequals]

theorem PlainStart.delimiter {line rest : List Char} (h : PlainStart line rest)
    : detectCsvDelimiter (line ++ rest) = .comma := by
  have hbreaks : ∀ c ∈ line, isLineBreak c = false := fun c hc =>
    isLineBreak_of_plain (h.chars c hc)
  obtain ⟨visible, hmem, hspace⟩ := h.visible
  have hblank : line.all isSpace = false := List.all_eq_false.mpr ⟨visible, hmem, by simp [hspace]⟩
  have hsplit : ∃ lines, splitLines (line ++ rest) = line :: lines := by
    rcases h.ends with rfl | ⟨more, rfl⟩
    · refine ⟨[], ?_⟩
      have hne : line ≠ [] := List.ne_nil_of_mem hmem
      rw [splitLines, splitLinesFrom_plain hbreaks, List.nil_append, splitLinesFrom,
        if_neg (by simpa using hne)]
    · exact ⟨_, splitLines_cons hbreaks (by decide) more⟩
  obtain ⟨lines, hsplit⟩ := hsplit
  rw [detectCsvDelimiter, hsplit, List.find?_cons_of_pos (by simp [hblank])]
  exact lineDelimiter_plain h.chars

theorem readCsvDictRows_cons_iff {header : List String} {rows : List (List String)}
    {headers : List String} {dicts : List RawRow}
    : readCsvDictRows (header :: rows) = .ok (headers, dicts)
      ↔ header.Nodup ∧ headers = header ∧ dicts = rows.map (rawRow header) := by
  unfold readCsvDictRows
  split
  · next hnil => cases hnil
  · next first later hcons =>
    obtain ⟨rfl, rfl⟩ := List.cons.inj hcons
    split
    · next hnodup => simp [hnodup, eq_comm]
    · next hnodup => simp [hnodup]

theorem readCsvFile_eq_ok_iff {contents : ByteArray} {line rest : List Char}
    (hplain : PlainStart line rest) (hdecoded : decodeCsv contents = line ++ rest)
    {headers : List String} (hne : headers ≠ []) {dicts : List RawRow}
    : readCsvFile contents = .ok (headers, dicts)
      ↔ ∃ records, readRecords Delimiter.comma.dialect (line ++ rest) = .ok records
        ∧ readCsvDictRows (records.map recordTexts) = .ok (headers, dicts) := by
  simp only [readCsvFile, hdecoded, hplain.directive, Option.getD_none, hplain.delimiter]
  constructor
  · intro hread
    split at hread
    · cases hread
    · exact absurd (Prod.mk.inj (Except.ok.inj hread)).1.symm hne
    · split at hread
      · cases hread
      · split at hread
        · cases hread
        · next records hrecords =>
          refine ⟨records, hrecords, ?_⟩
          cases hdicts : readCsvDictRows (records.map recordTexts) with
          | error message => simp [hdicts, Except.mapError] at hread
          | ok found => simpa [hdicts, Except.mapError] using hread
  · rintro ⟨records, hrecords, hdicts⟩
    have hfirst := first_of_read hrecords
    rcases records with _ | ⟨header, rows⟩
    · exact absurd (Prod.mk.inj (Except.ok.inj hdicts)).1.symm hne
    · rw [List.map_cons] at hdicts
      have hheader : readCsvDictRows [recordTexts header] = .ok (recordTexts header, []) :=
        readCsvDictRows_cons_iff.mpr ⟨(readCsvDictRows_cons_iff.mp hdicts).1, rfl, rfl⟩
      have hrecord : firstRecord Delimiter.comma.dialect (line ++ rest) = .ok (some header) := hfirst
      simp [hrecord, hheader, hrecords, hdicts, Except.mapError]

-- Rows beside their headers

theorem rawRow_getElem {headers : List String} (nodup : headers.Nodup) (row : List String) {i : Nat}
    (h : i < headers.length)
    : rawRow headers row headers[i] = some (row.getD i "") := by
  induction headers generalizing row i with
  | nil => exact absurd h (Nat.not_lt_zero i)
  | cons header headers ih =>
      obtain ⟨hheader, hnodup⟩ := List.nodup_cons.mp nodup
      -- the row without its first cell
      have hpad : row ++ List.replicate ((header :: headers).length - row.length) ""
          = row.getD 0 ""
            :: (row.tail ++ List.replicate (headers.length - row.tail.length) "") := by
        cases row with
        | nil => rfl
        | cons cell row => simp
      cases i with
      | zero =>
          rw [rawRow, hpad, List.zip_cons_cons, List.find?_cons_of_pos (by simp)]
          rfl
      | succ i =>
          have hi : i < headers.length := Nat.lt_of_succ_lt_succ h
          have hne : (header == headers[i]) = false := by
            rw [beq_eq_false_iff_ne]
            exact fun heq => hheader (heq ▸ List.getElem_mem hi)
          have hlater := ih hnodup row.tail hi
          have hcell : row.getD (i + 1) "" = row.tail.getD i "" := by cases row <;> rfl
          rw [hcell, ← hlater, rawRow, hpad, List.zip_cons_cons,
            List.find?_cons_of_neg (by simp [hne])]
          rfl

theorem rawRow_of_not_mem {headers : List String} (row : List String) {header : String}
    (h : header ∉ headers)
    : rawRow headers row header = none := by
  rw [rawRow, Option.map_eq_none_iff, List.find?_eq_none]
  rintro ⟨found, cell⟩ hmem heq
  exact h (beq_iff_eq.mp heq ▸ (List.of_mem_zip hmem).1)

theorem rawRow_eq_iff {headers : List String} (nodup : headers.Nodup) {a b : List String}
    : rawRow headers a = rawRow headers b
      ↔ ∀ i < headers.length, a.getD i "" = b.getD i "" := by
  constructor
  · intro h i hi
    have hcell := congrFun h headers[i]
    rwa [rawRow_getElem nodup a hi, rawRow_getElem nodup b hi, Option.some.injEq] at hcell
  · intro h
    funext header
    by_cases hmem : header ∈ headers
    · obtain ⟨i, hi, rfl⟩ := List.getElem_of_mem hmem
      rw [rawRow_getElem nodup a hi, rawRow_getElem nodup b hi, h i hi]
    · rw [rawRow_of_not_mem a hmem, rawRow_of_not_mem b hmem]

theorem getD_recordTexts (record : List (List Char)) (i : Nat)
    : (recordTexts record).getD i "" = String.ofList (record.getD i []) :=
  List.getD_map record [] String.ofList

theorem rawRow_recordTexts_iff {headers : List String} (nodup : headers.Nodup)
    {record fields : List (List Char)} (hlength : fields.length = headers.length)
    : rawRow headers (recordTexts record) = rawRow headers (recordTexts fields)
      ↔ Shows record fields := by
  rw [rawRow_eq_iff nodup, Shows, hlength]
  refine forall₂_congr fun i _ => ?_
  rw [getD_recordTexts, getD_recordTexts]
  exact String.ofList_inj

theorem map_rawRow_iff {headers : List String} (nodup : headers.Nodup)
    {records rows : List (List (List Char))} (hlength : ∀ row ∈ rows, row.length = headers.length)
    : records.map (fun record => rawRow headers (recordTexts record))
        = rows.map (fun row => rawRow headers (recordTexts row))
      ↔ List.Forall₂ Shows records rows := by
  induction rows generalizing records with
  | nil => simp [List.forall₂_nil_right_iff]
  | cons row rows ih =>
      obtain ⟨hrow, hrows⟩ := List.forall_mem_cons.mp hlength
      cases records with
      | nil => simp
      | cons record records =>
          rw [List.map_cons, List.map_cons, List.cons.injEq, rawRow_recordTexts_iff nodup hrow,
            ih hrows, List.forall₂_cons]

theorem readCsvDictRows_shows_iff {header : List (List Char)} {rows : List (List (List Char))}
    (nodup : (recordTexts header).Nodup) (hne : header ≠ [])
    (hlength : ∀ row ∈ rows, row.length = header.length) (records : List (List (List Char)))
    : readCsvDictRows (records.map recordTexts)
        = .ok (recordTexts header,
            rows.map (fun row => rawRow (recordTexts header) (recordTexts row)))
      ↔ ∃ later, records = header :: later ∧ List.Forall₂ Shows later rows := by
  have hwidth : ∀ row ∈ rows, row.length = (recordTexts header).length := fun row hrow =>
    (hlength row hrow).trans (List.length_map _).symm
  have hinj : Function.Injective recordTexts :=
    List.map_injective_iff.mpr fun _ _ => String.ofList_inj.mp
  rcases records with _ | ⟨record, later⟩
  · refine iff_of_false (fun h => hne ?_) (by simp)
    exact List.map_eq_nil_iff.mp (Prod.mk.inj (Except.ok.inj h)).1.symm
  · rw [List.map_cons, readCsvDictRows_cons_iff, List.map_map]
    constructor
    · rintro ⟨-, hheader, hrows⟩
      obtain rfl := hinj hheader
      exact ⟨later, rfl, (map_rawRow_iff nodup hwidth).mp hrows.symm⟩
    · rintro ⟨later, hcons, hshows⟩
      obtain ⟨rfl, rfl⟩ := List.cons.inj hcons
      exact ⟨nodup, rfl, ((map_rawRow_iff nodup hwidth).mpr hshows).symm⟩

-- The browser's file

theorem browserQuotes_eq_false {cell : List Char}
    : browserQuotes cell = false ↔ ',' ∉ cell ∧ '"' ∉ cell ∧ '\n' ∉ cell := by
  simp [browserQuotes, and_assoc]

theorem quotes_browserQuotes : Quotes Delimiter.comma.dialect browserQuotes where
  delimiter h := (browserQuotes_eq_false.mp h).1
  quote h := (browserQuotes_eq_false.mp h).2.1
  feed h := (browserQuotes_eq_false.mp h).2.2

/-- A cell that the import reads as it was guarded: the reader allows its length, and some other
character has it quoted where it has a carriage return.
-/
structure Survives (cell : String) : Prop where
  short : (guardedCell cell).length ≤ fieldSizeLimit
  quoted : '\r' ∈ cell.toList → ',' ∈ cell.toList ∨ '"' ∈ cell.toList ∨ '\n' ∈ cell.toList

instance (cell : String) : Decidable (Survives cell) :=
  decidable_of_iff
    ((guardedCell cell).length ≤ fieldSizeLimit
      ∧ ('\r' ∈ cell.toList → ',' ∈ cell.toList ∨ '"' ∈ cell.toList ∨ '\n' ∈ cell.toList))
    ⟨fun h => ⟨h.1, h.2⟩, fun h => ⟨h.1, h.2⟩⟩

theorem mem_guardedCell {cell : String} {c : Char} (hc : c ≠ '\'')
    : c ∈ (guardedCell cell).toList ↔ c ∈ cell.toList := by
  unfold guardedCell
  split
  · rw [String.toList_append]
    simp [hc]
  · rfl

theorem survives_iff (cell : String)
    : Survives cell
      ↔ Readable Delimiter.comma.dialect browserQuotes (guardedCell cell).toList := by
  have hquoted : ('\r' ∈ cell.toList →
        ',' ∈ cell.toList ∨ '"' ∈ cell.toList ∨ '\n' ∈ cell.toList)
      ↔ (browserQuotes (guardedCell cell).toList = false → '\r' ∉ (guardedCell cell).toList) := by
    rw [browserQuotes_eq_false, mem_guardedCell (by decide), mem_guardedCell (by decide),
      mem_guardedCell (by decide), mem_guardedCell (by decide)]
    tauto
  constructor
  · rintro ⟨hshort, hreturn⟩
    exact ⟨String.length_toList ▸ hshort, hquoted.mp hreturn⟩
  · rintro ⟨hshort, hreturn⟩
    exact ⟨String.length_toList ▸ hshort, hquoted.mpr hreturn⟩

/-- A header that leaves the file to its commas: nothing in it divides fields or lines, something of
it shows, and it is no formula.
-/
structure PlainHeader (header : String) : Prop where
  chars : header.toList.all isPlainChar = true
  visible : header.toList.all isSpace = false
  unguarded : guardedCell header = header

/-- The cells of the browser's file. -/
def browserCells (row : List String) : List (List Char) := row.map (fun cell => (guardedCell cell).toList)

theorem recordTexts_browserCells (row : List String)
    : recordTexts (browserCells row) = row.map guardedCell := by
  simp [recordTexts, browserCells]

theorem decodeCsv_toUTF8 (text : List Char)
    : decodeCsv (String.ofList text).toUTF8 = withoutMark text := by
  have hdecoded (s : String) : String.fromUTF8? s.toUTF8 = some s := by
    unfold String.fromUTF8?
    exact dif_pos s.isValidUTF8
  rw [decodeCsv, hdecoded]
  exact congrArg withoutMark String.toList_ofList

theorem plainStart_writeFields {headers : List String} (hne : headers ≠ [])
    (plain : ∀ header ∈ headers, PlainHeader header) (quoted : List Char → Bool)
    {rest : List Char} (hends : rest = [] ∨ ∃ more, rest = '\r' :: more)
    : PlainStart (writeFields Delimiter.comma.dialect quoted (headers.map String.toList)) rest := by
  refine ⟨?_, ?_, hends⟩
  · intro c hc
    obtain rfl | rfl | ⟨cell, hcell, hc⟩ := mem_writeFields hc
    · decide
    · decide
    · obtain ⟨header, hheader, rfl⟩ := List.mem_map.mp hcell
      exact List.all_eq_true.mp (plain header hheader).chars c hc
  · obtain ⟨header, hheader⟩ := List.exists_mem_of_ne_nil headers hne
    obtain ⟨c, hc, hspace⟩ := List.all_eq_false.mp (plain header hheader).visible
    exact ⟨c, mem_writeFields_of_mem (List.mem_map_of_mem hheader) hc, by simpa using hspace⟩

theorem browserCells_headers {headers : List String}
    (plain : ∀ header ∈ headers, PlainHeader header)
    : browserCells headers = headers.map String.toList :=
  List.map_congr_left fun header hheader => by rw [(plain header hheader).unguarded]

theorem plainStart_joinLines {headers : List String} (hne : headers ≠ [])
    (plain : ∀ header ∈ headers, PlainHeader header) (rows : List (List (List Char)))
    : ∃ line rest, PlainStart line rest
      ∧ joinLines Delimiter.comma.dialect (fun _ => browserQuotes) (browserCells headers :: rows)
        = line ++ rest := by
  obtain ⟨rest, hjoined, hends⟩ :
      ∃ rest, joinLines Delimiter.comma.dialect (fun _ => browserQuotes) (browserCells headers :: rows)
          = writeFields Delimiter.comma.dialect browserQuotes (browserCells headers) ++ rest
        ∧ (rest = [] ∨ ∃ more, rest = '\r' :: more) :=
    joinLines_cons (browserCells headers) rows
  refine ⟨_, rest, ?_, hjoined⟩
  rw [browserCells_headers plain]
  exact plainStart_writeFields hne plain browserQuotes hends

theorem guardedCell_eq_empty {cell : String} : guardedCell cell = "" ↔ cell = "" := by
  unfold guardedCell
  split
  · next hformula =>
    refine iff_of_false (by simp) fun hempty => ?_
    rw [hempty] at hformula
    revert hformula
    decide
  · rfl

theorem shown_browserCells (row : List String)
    : shown browserQuotes (browserCells row) = if row = [""] then [] else browserCells row := by
  have hsingle : browserCells row = [[]] ↔ row = [""] := by
    simp [browserCells, List.map_eq_singleton_iff, guardedCell_eq_empty]
  exact if_congr ((and_iff_left rfl).trans hsingle) rfl rfl

theorem headers_ne_blank {headers : List String}
    (plain : ∀ header ∈ headers, PlainHeader header) : headers ≠ [""] := by
  rintro rfl
  have hvisible := (plain "" List.mem_cons_self).visible
  revert hvisible
  decide

theorem shown_last {headers : List String} (plain : ∀ header ∈ headers, PlainHeader header)
    {rows front : List (List String)} {last : List String}
    (hne : ∀ row ∈ headers :: rows, row ≠ []) (hwritten : headers :: rows = front ++ [last])
    : shown browserQuotes (browserCells last) ≠ [] ↔ rows.getLast? ≠ some [""] := by
  have hlast : browserCells last ≠ [] := by
    simpa [browserCells] using hne last (hwritten ▸ List.mem_append_right _ List.mem_cons_self)
  have hshown : shown browserQuotes (browserCells last) ≠ [] ↔ last ≠ [""] := by
    rw [shown_browserCells]
    split
    · next hblank => exact iff_of_false (fun h => h rfl) (fun h => h hblank)
    · next hblank => exact iff_of_true hlast hblank
  rw [hshown]
  cases front with
  | nil =>
      obtain ⟨hheaders, hrows⟩ := List.cons.inj hwritten
      rw [← hheaders, hrows]
      exact iff_of_true (headers_ne_blank plain) (by simp)
  | cons first front =>
      have hrows : rows = front ++ [last] := (List.cons.inj hwritten).2
      rw [hrows, List.getLast?_concat, Ne, Ne, Option.some.injEq]

theorem readRecords_browser_iff {headers : List String}
    (plain : ∀ header ∈ headers, PlainHeader header) {rows : List (List String)}
    (hne : ∀ row ∈ headers :: rows, row ≠ [])
    : (∃ records, readRecords Delimiter.comma.dialect (joinLines Delimiter.comma.dialect
          (fun _ => browserQuotes) (browserCells headers :: rows.map browserCells)) = .ok records
        ∧ ∃ later, records = browserCells headers :: later
          ∧ List.Forall₂ Shows later (rows.map browserCells))
      ↔ (∀ row ∈ headers :: rows, ∀ cell ∈ row, Survives cell) ∧ rows.getLast? ≠ some [""] := by
  obtain ⟨front, last, hwritten⟩ : ∃ front last, headers :: rows = front ++ [last] :=
    ⟨_, _, (List.dropLast_append_getLast (List.cons_ne_nil headers rows)).symm⟩
  have hcells : browserCells headers :: rows.map browserCells
      = front.map browserCells ++ [browserCells last] := by
    rw [← List.map_cons, hwritten, List.map_append, List.map_singleton]
  have hnonempty : ∀ fields ∈ front.map browserCells ++ [browserCells last], fields ≠ [] := by
    rw [← hcells, ← List.map_cons]
    intro fields hfields
    obtain ⟨row, hrow, rfl⟩ := List.mem_map.mp hfields
    simpa [browserCells] using hne row hrow
  have hsurvive : (∀ row ∈ headers :: rows, ∀ cell ∈ row, Survives cell)
      ↔ ∀ fields ∈ front.map browserCells ++ [browserCells last], ∀ field ∈ fields,
        Readable Delimiter.comma.dialect browserQuotes field := by
    rw [← hcells, ← List.map_cons]
    simp only [List.forall_mem_map, browserCells, survives_iff]
  rw [hsurvive, ← shown_last plain hne hwritten]
  constructor
  · rintro ⟨records, hread, later, rfl, hshows⟩
    have hall : List.Forall₂ Shows (browserCells headers :: later)
        (front.map browserCells ++ [browserCells last]) :=
      hcells ▸ .cons (.refl _) hshows
    rw [hcells] at hread
    exact readable_of_joinLines (fun _ => quotes_browserQuotes) hnonempty hread hall
  · rintro ⟨hreadable, hlast⟩
    have hread := readRecords_joinLines (fun _ => quotes_browserQuotes) hnonempty hreadable hlast
    rw [← hcells, List.map_cons, shown_browserCells, if_neg (headers_ne_blank plain)] at hread
    refine ⟨_, hread, _, rfl, ?_⟩
    rw [List.forall₂_map_left_iff, List.forall₂_same]
    exact fun fields _ => shows_shown browserQuotes fields

/-- With plain and distinct headers the import reads the rows of the file, guards included, exactly
when every cell survives and the last row is not one empty cell.
-/
theorem readCsvFile_exportFilteredCsv_iff {stable : Bool} {columns : List ExportColumn}
    (hcolumns : columns ≠ []) (nodup : (columns.map (exportHeader stable)).Nodup)
    (plain : ∀ header ∈ columns.map (exportHeader stable), PlainHeader header)
    {dataRows : List (List String)} (hwidth : ∀ row ∈ dataRows, row.length = columns.length)
    : readCsvFile (exportFilteredCsv stable columns dataRows).toUTF8
        = .ok (columns.map (exportHeader stable),
            dataRows.map (fun row => rawRow (columns.map (exportHeader stable))
              (row.map guardedCell)))
      ↔ (∀ row ∈ columns.map (exportHeader stable) :: dataRows, ∀ cell ∈ row, Survives cell)
        ∧ dataRows.getLast? ≠ some [""] := by
  have hlength : (columns.map (exportHeader stable)).length = columns.length := List.length_map _
  have hdecoded : decodeCsv (exportFilteredCsv stable columns dataRows).toUTF8
      = joinLines Delimiter.comma.dialect (fun _ => browserQuotes)
          (browserCells (columns.map (exportHeader stable)) :: dataRows.map browserCells) :=
    decodeCsv_toUTF8 _
  generalize columns.map (exportHeader stable) = headers at *
  have hne : headers ≠ [] := List.ne_nil_of_length_pos (hlength ▸ List.length_pos_of_ne_nil hcolumns)
  have hrows : ∀ row ∈ headers :: dataRows, row ≠ [] := by
    intro row hrow
    rcases List.mem_cons.mp hrow with rfl | hrow
    · exact hne
    · exact List.ne_nil_of_length_pos (hwidth row hrow ▸ List.length_pos_of_ne_nil hcolumns)
  have hheader : recordTexts (browserCells headers) = headers := by
    rw [recordTexts_browserCells]
    exact (List.map_congr_left fun header hheader => (plain header hheader).unguarded).trans
      (List.map_id _)
  have hdicts : dataRows.map (fun row => rawRow headers (row.map guardedCell))
      = (dataRows.map browserCells).map (fun row => rawRow headers (recordTexts row)) := by
    simp only [List.map_map, Function.comp_def, recordTexts_browserCells]
  have hcells : ∀ row ∈ dataRows.map browserCells, row.length = (browserCells headers).length := by
    intro cells hcells
    obtain ⟨row, hrow, rfl⟩ := List.mem_map.mp hcells
    simp [browserCells, hwidth row hrow, hlength]
  obtain ⟨line, rest, hstart, hjoined⟩ := plainStart_joinLines hne plain (dataRows.map browserCells)
  have hshows := readCsvDictRows_shows_iff (hheader.symm ▸ nodup)
    (by simpa [browserCells] using hne) hcells
  rw [hheader] at hshows
  rw [readCsvFile_eq_ok_iff hstart (hdecoded.trans hjoined) hne, hdicts, ← hjoined,
    ← readRecords_browser_iff plain hrows]
  simp only [hshows]

-- The columns of the full export

/-- `PlainHeader`, computed. -/
def isPlainHeader (header : String) : Bool :=
  header.toList.all isPlainChar && !header.toList.all isSpace && guardedCell header == header

theorem plainHeader_of {header : String} (h : isPlainHeader header = true) : PlainHeader header := by
  simp only [isPlainHeader, Bool.and_eq_true, Bool.not_eq_true', beq_iff_eq] at h
  exact ⟨h.1.1, h.1.2, h.2⟩

theorem mem_joinHeader {text : String} {c : Char} (h : c ∈ (joinHeader text).toList)
    : isHeaderChar c = true ∨ c = '_' := by
  have hmem {pieces : List (List Char)} (hc : c ∈ ['_'].intercalate pieces)
      : c = '_' ∨ ∃ piece ∈ pieces, c ∈ piece := by
    induction pieces with
    | nil => cases hc
    | cons piece pieces ih =>
        cases pieces with
        | nil => exact .inr ⟨piece, List.mem_cons_self, by simpa using hc⟩
        | cons next pieces =>
            rw [List.intercalate_cons_of_ne_nil (List.cons_ne_nil _ _), List.mem_append,
              List.mem_append, List.mem_singleton] at hc
            rcases hc with (hc | rfl) | hc
            · exact .inr ⟨piece, List.mem_cons_self, hc⟩
            · exact .inl rfl
            · obtain hc | ⟨found, hfound, hc⟩ := ih hc
              · exact .inl hc
              · exact .inr ⟨found, List.mem_cons_of_mem _ hfound, hc⟩
  rw [joinHeader, String.toList_intercalate, List.map_map] at h
  obtain hc | ⟨piece, hpiece, hc⟩ := hmem h
  · exact .inr hc
  · obtain ⟨run, hrun, rfl⟩ := List.mem_map.mp hpiece
    rw [Function.comp_apply, String.toList_ofList] at hc
    have hkept : c ∈ (text.toList.splitOnP (fun c => !isHeaderChar c)).flatten :=
      List.mem_flatten.mpr ⟨run, (List.mem_filter.mp hrun).1, hc⟩
    rw [flatten_splitOnP] at hkept
    exact .inl (by simpa using (List.mem_filter.mp hkept).2)

theorem isPlainChar_of_headerChar {c : Char} (h : isHeaderChar c = true) : isPlainChar c = true := by
  have hrange : 97 ≤ c.toNat ∧ c.toNat ≤ 122 ∨ 48 ≤ c.toNat ∧ c.toNat ≤ 57 := by
    simp only [isHeaderChar, Bool.or_eq_true, Bool.and_eq_true, decide_eq_true_eq] at h
    exact h
  have hapart (other : Char) (hother : other.toNat < 48 ∨ 57 < other.toNat ∧ other.toNat < 97)
      : (c != other) = true := by
    rw [bne_iff_ne]
    rintro rfl
    omega
  have hbreak : isLineBreak c = false := by
    simp only [isLineBreak, List.contains_eq_mem, decide_eq_false_iff_not, List.mem_cons,
      List.not_mem_nil, or_false]
    omega
  simp only [isPlainChar, hbreak, Bool.not_false, Bool.true_and,
    hapart ';' (by decide), hapart '\t' (by decide), hapart '=' (by decide)]

theorem plainHeader_generateFieldKey (u : Unicode) (name : String)
    : PlainHeader (generateFieldKey u name) := by
  have hkey : (generateFieldKey u name).toList = 'c' :: 'f' :: '_' :: (joinHeader (u.lower name)).toList := by
    rw [generateFieldKey, String.toList_append]
    rfl
  refine ⟨?_, ?_, ?_⟩
  · rw [hkey, List.all_eq_true]
    intro c hc
    simp only [List.mem_cons] at hc
    rcases hc with rfl | rfl | rfl | hc
    · decide
    · decide
    · decide
    · rcases mem_joinHeader hc with hchar | rfl
      · exact isPlainChar_of_headerChar hchar
      · decide
  · rw [hkey]
    rfl
  · rw [guardedCell, hkey, List.dropWhile_cons_of_neg (by decide)]
    rfl

theorem exportHeader_customFieldColumn (u : Unicode) (name : String)
    : exportHeader true (customFieldColumn name (generateFieldKey u name))
      = generateFieldKey u name := by
  have hne : (generateFieldKey u name != "") = true := by
    rw [bne_iff_ne, generateFieldKey]
    simp
  simp [exportHeader, customFieldColumn, hne]

theorem builtInHeaders
    : (∀ column ∈ columnDefs.filter (·.key != "select"),
        isPlainHeader (exportHeader true column) = true
        ∧ "cf_".toList.isPrefixOf (exportHeader true column).toList = false)
      ∧ ((columnDefs.filter (·.key != "select")).map (exportHeader true)).Nodup := by
  decide +kernel

theorem plainHeader_fullExport {u : Unicode} {customFields : List String} {column : ExportColumn}
    (h : column ∈ fullExportColumns u customFields)
    : PlainHeader (exportHeader true column) := by
  rcases List.mem_append.mp h with hbuiltIn | hcustom
  · exact plainHeader_of (builtInHeaders.1 column hbuiltIn).1
  · obtain ⟨name, -, rfl⟩ := List.mem_map.mp hcustom
    rw [exportHeader_customFieldColumn]
    exact plainHeader_generateFieldKey u name

theorem exportHeader_injOn {u : Unicode} {customFields : List String}
    (hkeys : (customFields.map (generateFieldKey u)).Nodup) {a b : ExportColumn}
    (ha : a ∈ fullExportColumns u customFields) (hb : b ∈ fullExportColumns u customFields)
    (h : exportHeader true a = exportHeader true b)
    : a = b := by
  have hstart (name : String) : "cf_".toList.isPrefixOf (generateFieldKey u name).toList = true := by
    rw [generateFieldKey, String.toList_append]
    simp
  rcases List.mem_append.mp ha with ha | ha <;> rcases List.mem_append.mp hb with hb | hb
  · exact List.inj_on_of_nodup_map builtInHeaders.2 ha hb h
  · obtain ⟨name, -, rfl⟩ := List.mem_map.mp hb
    have hother := (builtInHeaders.1 a ha).2
    rw [h, exportHeader_customFieldColumn, hstart] at hother
    cases hother
  · obtain ⟨name, -, rfl⟩ := List.mem_map.mp ha
    have hother := (builtInHeaders.1 b hb).2
    rw [← h, exportHeader_customFieldColumn, hstart] at hother
    cases hother
  · obtain ⟨name, hname, rfl⟩ := List.mem_map.mp ha
    obtain ⟨other, hotherName, rfl⟩ := List.mem_map.mp hb
    rw [exportHeader_customFieldColumn, exportHeader_customFieldColumn] at h
    rw [List.inj_on_of_nodup_map hkeys hname hotherName h]

/-- The file that exports all columns, whichever of them are chosen and in whichever order, is read
by the import as the same headers and rows, guards included, exactly when no unquoted cell has a
carriage return, no cell is longer than the reader allows, and the last row is not one empty cell.
-/
theorem fullExport_readBack_iff {u : Unicode} {customFields : List String}
    (hkeys : (customFields.map (generateFieldKey u)).Nodup) {columns : List ExportColumn}
    (hne : columns ≠ []) (nodup : columns.Nodup)
    (hcolumns : ∀ column ∈ columns, column ∈ fullExportColumns u customFields)
    {dataRows : List (List String)} (hwidth : ∀ row ∈ dataRows, row.length = columns.length)
    : readCsvFile (exportFilteredCsv true columns dataRows).toUTF8
        = .ok (columns.map (exportHeader true),
            dataRows.map (fun row => rawRow (columns.map (exportHeader true)) (row.map guardedCell)))
      ↔ (∀ row ∈ columns.map (exportHeader true) :: dataRows, ∀ cell ∈ row, Survives cell)
        ∧ dataRows.getLast? ≠ some [""] := by
  refine readCsvFile_exportFilteredCsv_iff hne (nodup.map_on fun a ha b hb h => ?_) ?_ hwidth
  · exact exportHeader_injOn hkeys (hcolumns a ha) (hcolumns b hb) h
  · intro header hheader
    obtain ⟨column, hcolumn, rfl⟩ := List.mem_map.mp hheader
    exact plainHeader_fullExport (hcolumns column hcolumn)

/-- A formula with a comma comes back with its apostrophe. -/
theorem fullExport_readBack_iff_formula
    : readCsvFile (exportFilteredCsv true
          [⟨"notes", "Notes", none⟩, customFieldColumn "Cost Owner" "cf_cost_owner"]
          [["=1,\r2", "Ada"]]).toUTF8
        = .ok (["notes", "cf_cost_owner"], [rawRow ["notes", "cf_cost_owner"] ["'=1,\r2", "Ada"]]) :=
  have hkeys : (["Cost Owner"].map (generateFieldKey Unicode.ascii)).Nodup := by decide +kernel
  (fullExport_readBack_iff hkeys (by decide) (by decide) (by decide +kernel) (by decide)).mpr
    ⟨by decide +kernel, by decide⟩

end LicenseTrack.CsvExport
