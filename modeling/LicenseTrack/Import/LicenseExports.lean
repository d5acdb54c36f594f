import LicenseTrack.Import.ExportedFiles

/-! The backend's export as the import reads it, and its formula guard beside the one of the browser.
The writer quotes carriage returns too, so every file comes back; the two guards part where white
space in front of a formula is white space for one of them only.
-/

namespace LicenseTrack.CsvExport

open Library
open LicenseTrack.CsvImport

theorem writerQuotes_eq_false {record : List (List Char)} {field : List Char}
    : writerQuotes record field = false
      ↔ record ≠ [[]] ∧ ',' ∉ field ∧ '"' ∉ field ∧ '\r' ∉ field ∧ '\n' ∉ field := by
  simp [writerQuotes, and_assoc]

theorem quotes_writerQuotes (record : List (List Char))
    : Quotes Delimiter.comma.dialect (writerQuotes record) where
  delimiter h := (writerQuotes_eq_false.mp h).2.1
  quote h := (writerQuotes_eq_false.mp h).2.2.1
  feed h := (writerQuotes_eq_false.mp h).2.2.2.2

theorem readable_writerQuotes_iff {record : List (List Char)} {field : List Char}
    : Readable Delimiter.comma.dialect (writerQuotes record) field
      ↔ field.length ≤ fieldSizeLimit :=
  ⟨fun h => h.short, fun h => ⟨h, fun hquoted => (writerQuotes_eq_false.mp hquoted).2.2.2.1⟩⟩

theorem shown_writerQuotes (record : List (List Char))
    : shown (writerQuotes record) record = record := by
  refine if_neg fun h => ?_
  exact (writerQuotes_eq_false.mp h.2).1 h.1

/-- The fields of a row of values. -/
def valueFields (row : List CsvValue) : List (List Char) := row.map (fun value => value.printed.toList)

/-- The values of a row as the file has them. -/
def exportedTexts (row : List CsvValue) : List String :=
  (safeCsvRow row).map CsvValue.printed

theorem recordTexts_valueFields (row : List CsvValue)
    : recordTexts (valueFields row) = row.map CsvValue.printed := by
  simp [recordTexts, valueFields]

theorem valueFields_headers (headers : List String)
    : valueFields (headers.map CsvValue.text) = headers.map String.toList := by
  simp [valueFields, CsvValue.printed]

theorem licenseExportHeaders_plain
    : (∀ header ∈ licenseExportHeaders, isPlainHeader header = true)
      ∧ licenseExportHeaders.Nodup := by
  decide +kernel

theorem exportLicenses_text (rows : List (List CsvValue))
    : ∃ more, writeRows (licenseExportHeaders.map CsvValue.text :: rows.map safeCsvRow)
        = writeFields Delimiter.comma.dialect
            (writerQuotes (licenseExportHeaders.map String.toList))
            (licenseExportHeaders.map String.toList) ++ '\r' :: more := by
  refine ⟨'\n' :: writeRows (rows.map safeCsvRow), ?_⟩
  have hheaders := valueFields_headers licenseExportHeaders
  simp only [valueFields] at hheaders
  simp only [writeRows, List.map_cons, writeLines, List.flatMap_cons, hheaders, List.append_assoc,
    List.cons_append, List.nil_append]

theorem withoutMark_exportLicenses (rows : List (List CsvValue))
    : withoutMark (writeRows (licenseExportHeaders.map CsvValue.text :: rows.map safeCsvRow))
      = writeRows (licenseExportHeaders.map CsvValue.text :: rows.map safeCsvRow) := by
  obtain ⟨more, htext⟩ := exportLicenses_text rows
  have hfront : (writeFields Delimiter.comma.dialect
      (writerQuotes (licenseExportHeaders.map String.toList))
      (licenseExportHeaders.map String.toList)).head? = some 'L' := by decide +kernel
  rw [htext]
  cases hline : writeFields Delimiter.comma.dialect
      (writerQuotes (licenseExportHeaders.map String.toList))
      (licenseExportHeaders.map String.toList) with
  | nil =>
      rw [hline] at hfront
      cases hfront
  | cons first line =>
      rw [hline] at hfront
      obtain rfl := Option.some.inj hfront
      rfl

theorem readRecords_writeRows_iff {header : List CsvValue} {rows : List (List CsvValue)}
    (hne : ∀ row ∈ header :: rows, row ≠ [])
    (hshort : ∀ field ∈ valueFields header, field.length ≤ fieldSizeLimit)
    : (∃ records, readRecords Delimiter.comma.dialect (writeRows (header :: rows)) = .ok records
        ∧ ∃ later, records = valueFields header :: later
          ∧ List.Forall₂ Shows later (rows.map valueFields))
      ↔ ∀ row ∈ rows, ∀ field ∈ valueFields row, field.length ≤ fieldSizeLimit := by
  have hnonempty : ∀ fields ∈ (header :: rows).map valueFields, fields ≠ [] := by
    intro fields hfields
    obtain ⟨row, hrow, rfl⟩ := List.mem_map.mp hfields
    simpa [valueFields] using hne row hrow
  have hall : (∀ row ∈ rows, ∀ field ∈ valueFields row, field.length ≤ fieldSizeLimit)
      ↔ ∀ fields ∈ (header :: rows).map valueFields, ∀ field ∈ fields,
        Readable Delimiter.comma.dialect (writerQuotes fields) field := by
    simp only [readable_writerQuotes_iff, List.forall_mem_map, List.forall_mem_cons]
    exact (and_iff_right hshort).symm
  rw [hall]
  constructor
  · rintro ⟨records, hread, later, rfl, hshows⟩
    exact readable_of_writeLines quotes_writerQuotes hnonempty hread (.cons (.refl _) hshows)
  · intro hreadable
    have hread := readRecords_writeLines quotes_writerQuotes hnonempty hreadable
    simp only [shown_writerQuotes, List.map_id'] at hread
    refine ⟨_, hread, _, List.map_cons, ?_⟩
    exact List.forall₂_same.mpr fun fields _ => .refl fields

/-- The file of the backend's export is read by the import as its headers and the values of its rows
behind their guard, whatever characters they have, exactly when none is longer than the reader
allows.
-/
theorem exportLicenses_readBack_iff {rows : List (List CsvValue)}
    (hwidth : ∀ row ∈ rows, row.length = licenseExportHeaders.length)
    : readCsvFile (exportLicenses rows).toUTF8
        = .ok (licenseExportHeaders,
            rows.map (fun row => rawRow licenseExportHeaders (exportedTexts row)))
      ↔ ∀ row ∈ rows, ∀ text ∈ exportedTexts row, text.length ≤ fieldSizeLimit := by
  obtain ⟨more, htext⟩ := exportLicenses_text rows
  have hplain : ∀ header ∈ licenseExportHeaders, PlainHeader header := fun header hheader =>
    plainHeader_of (licenseExportHeaders_plain.1 header hheader)
  have hfollows : '\r' :: more = [] ∨ ∃ later, '\r' :: more = '\r' :: later := .inr ⟨more, rfl⟩
  have hdecoded : decodeCsv (exportLicenses rows).toUTF8
      = writeRows (licenseExportHeaders.map CsvValue.text :: rows.map safeCsvRow) :=
    (decodeCsv_toUTF8 _).trans (withoutMark_exportLicenses rows)
  have hheader : recordTexts (valueFields (licenseExportHeaders.map CsvValue.text))
      = licenseExportHeaders := by
    rw [recordTexts_valueFields, List.map_map]
    exact List.map_id _
  have hdicts : rows.map (fun row => rawRow licenseExportHeaders (exportedTexts row))
      = ((rows.map safeCsvRow).map valueFields).map
          (fun row => rawRow licenseExportHeaders (recordTexts row)) := by
    simp only [List.map_map, Function.comp_def, recordTexts_valueFields, exportedTexts]
  have hcells : ∀ row ∈ (rows.map safeCsvRow).map valueFields,
      row.length = (valueFields (licenseExportHeaders.map CsvValue.text)).length := by
    intro fields hfields
    obtain ⟨values, hvalues, rfl⟩ := List.mem_map.mp hfields
    obtain ⟨row, hrow, rfl⟩ := List.mem_map.mp hvalues
    simp [valueFields, safeCsvRow, hwidth row hrow]
  have hne : ∀ row ∈ licenseExportHeaders.map CsvValue.text :: rows.map safeCsvRow, row ≠ [] := by
    intro row hrow
    rcases List.mem_cons.mp hrow with rfl | hrow
    · exact List.cons_ne_nil _ _
    · obtain ⟨values, hvalues, rfl⟩ := List.mem_map.mp hrow
      refine List.ne_nil_of_length_pos ?_
      rw [safeCsvRow, List.length_map, hwidth values hvalues]
      decide
  have hshort : ∀ field ∈ valueFields (licenseExportHeaders.map CsvValue.text),
      field.length ≤ fieldSizeLimit := by
    have hlimit : ∀ header ∈ licenseExportHeaders, header.length ≤ fieldSizeLimit := by
      decide +kernel
    intro field hfield
    rw [valueFields_headers] at hfield
    obtain ⟨header, hheader, rfl⟩ := List.mem_map.mp hfield
    exact String.length_toList ▸ hlimit header hheader
  have hheaders : licenseExportHeaders ≠ [] := by decide
  have hfields : valueFields (licenseExportHeaders.map CsvValue.text) ≠ [] := by
    rw [valueFields_headers]
    exact fun h => hheaders (List.map_eq_nil_iff.mp h)
  have hshows := readCsvDictRows_shows_iff (hheader.symm ▸ licenseExportHeaders_plain.2) hfields hcells
  rw [hheader] at hshows
  have hstart := plainStart_writeFields hheaders hplain
    (writerQuotes (licenseExportHeaders.map String.toList)) hfollows
  rw [readCsvFile_eq_ok_iff hstart (hdecoded.trans htext) hheaders, hdicts, ← htext]
  simp only [hshows]
  rw [readRecords_writeRows_iff hne hshort, List.forall_mem_map]
  simp only [valueFields, exportedTexts, List.forall_mem_map, String.length_toList]

/-- Texts that look like formulas come back with an apostrophe, numbers and line breaks as they are. -/
theorem exportLicenses_readBack_iff_formula
    : readCsvFile (exportLicenses [.number "-5" :: .text "=A1" :: .text "a\rb"
          :: List.replicate 40 .none]).toUTF8
        = .ok (licenseExportHeaders, [rawRow licenseExportHeaders
            ("-5" :: "'=A1" :: "a\rb" :: List.replicate 40 "")]) :=
  (exportLicenses_readBack_iff (by decide)).mpr (by decide +kernel)

-- The two guards

/-- What stands in front of the first character that begins formulas. -/
def formulaFront (value : String) : List Char := value.toList.takeWhile (fun c => !isFormulaStart c)

theorem formula_found_iff {space starts : Char → Bool}
    (hstarts : ∀ c, isFormulaStart c = true → starts c = true ∧ space c = false)
    (hothers : ∀ c, isFormulaStart c = false → starts c = true → space c = true) (text : List Char)
    : (text.dropWhile space).head?.any starts = true
      ↔ text.all (fun c => !isFormulaStart c) = false
        ∧ (text.takeWhile (fun c => !isFormulaStart c)).all space = true := by
  induction text with
  | nil => simp
  | cons c text ih =>
      cases hformula : isFormulaStart c with
      | true =>
          obtain ⟨hstart, hspace⟩ := hstarts c hformula
          simp [hspace, hstart, hformula]
      | false =>
          cases hspace : space c with
          | true => simpa [hspace, hformula] using ih
          | false =>
              have hstart : starts c = false := by
                by_contra h
                have hother := hothers c hformula (by simpa using h)
                rw [hspace] at hother
                cases hother
              simp [hspace, hstart, hformula]

theorem guardedCell_eq_iff (value : String)
    : guardedCell value ≠ value
      ↔ value.toList.all (fun c => !isFormulaStart c) = false
        ∧ (formulaFront value).all jsSpace = true := by
  have hstarts : ∀ c, isFormulaStart c = true → isFormulaStart c = true ∧ jsSpace c = false := by
    intro c hc
    refine ⟨hc, ?_⟩
    simp only [isFormulaStart, Bool.or_eq_true, beq_iff_eq] at hc
    rcases hc with ((rfl | rfl) | rfl) | rfl <;> decide
  have hfound := formula_found_iff hstarts (fun c hc hstart => by simp [hc] at hstart) value.toList
  rw [formulaFront, ← hfound, guardedCell]
  split
  · next h => simp [h, String.append_eq_right_iff]
  · next h => simp [h]

theorem escapeCsvFormula_ne_iff (value : String)
    : (escapeCsvFormula (.text value)).printed ≠ value
      ↔ value.toList.all (fun c => !isFormulaStart c) = false
        ∧ (formulaFront value).all isSpace = true := by
  have hstarts : ∀ c, isFormulaStart c = true
      → formulaPrefixes.contains c = true ∧ isSpace c = false := by
    intro c hc
    simp only [isFormulaStart, Bool.or_eq_true, beq_iff_eq] at hc
    rcases hc with ((rfl | rfl) | rfl) | rfl <;> decide
  have hothers : ∀ c, isFormulaStart c = false → formulaPrefixes.contains c = true
      → isSpace c = true := by
    intro c hc hprefix
    simp only [formulaPrefixes, List.contains_eq_mem, decide_eq_true_eq, List.mem_cons,
      List.not_mem_nil, or_false] at hprefix
    rcases hprefix with rfl | rfl | rfl | rfl | rfl | rfl <;> revert hc <;> decide
  have hfound := formula_found_iff hstarts hothers value.toList
  rw [formulaFront, ← hfound, escapeCsvFormula]
  split
  · next h => simp [h, CsvValue.printed, String.append_eq_right_iff]
  · next h => simp [h, CsvValue.printed]

theorem guards_cases (value : String)
    : (guardedCell value = value ∨ guardedCell value = "'" ++ value)
      ∧ ((escapeCsvFormula (.text value)).printed = value
        ∨ (escapeCsvFormula (.text value)).printed = "'" ++ value) := by
  constructor
  · unfold guardedCell
    split
    · exact .inr rfl
    · exact .inl rfl
  · simp only [escapeCsvFormula]
    split
    · exact .inr rfl
    · exact .inl rfl

/-- The exports of the browser and of the backend guard a text alike exactly when nothing in it begins
a formula, or what stands in front is white space for both of them or for neither.
-/
theorem guards_agree_iff (value : String)
    : guardedCell value = (escapeCsvFormula (.text value)).printed
      ↔ value.toList.all (fun c => !isFormulaStart c) = true
        ∨ (formulaFront value).all jsSpace = (formulaFront value).all isSpace := by
  obtain ⟨hbrowser, hbackend⟩ := guards_cases value
  have hne : "'" ++ value ≠ value := by
    rw [Ne, String.append_eq_right_iff]
    decide
  have hsame : guardedCell value = (escapeCsvFormula (.text value)).printed
      ↔ (guardedCell value ≠ value ↔ (escapeCsvFormula (.text value)).printed ≠ value) := by
    rcases hbrowser with hbrowser | hbrowser <;> rcases hbackend with hbackend | hbackend <;>
      simp [hbrowser, hbackend, hne, hne.symm]
  rw [hsame, guardedCell_eq_iff, escapeCsvFormula_ne_iff]
  generalize value.toList.all (fun c => !isFormulaStart c) = unlike
  generalize (formulaFront value).all jsSpace = browser
  generalize (formulaFront value).all isSpace = backend
  cases unlike <;> cases browser <;> cases backend <;> decide

/-- A file separator in front of a formula is white space for the backend only. -/
example : guardedCell "\x1c=1" = "\x1c=1"
    ∧ escapeCsvFormula (.text "\x1c=1") = .text "'\x1c=1" := by
  decide +kernel

end LicenseTrack.CsvExport
