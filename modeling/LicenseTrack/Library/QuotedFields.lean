import Mathlib.Data.List.Forall2
import Mathlib.Data.List.GetD
import LicenseTrack.Library.Outcome

/-! Records of fields that a separator divides and quotes protect: the reader as the state machine
of a common reader of such files, writers that choose which fields they quote, and what the reader
makes of the text of a writer.
-/

namespace Library

/-- What divides the fields of a record, and how long a field can be. -/
structure Dialect where
  delimiter : Char
  limit : Nat
  ne_quote : delimiter ≠ '"'
  ne_return : delimiter ≠ '\r'
  ne_feed : delimiter ≠ '\n'

/-- Where a reader stands between two characters. -/
inductive Place where
  | startRecord
  | startField
  | inField
  | inQuotes
  | quoteInQuotes
  | eatLineEnd
deriving DecidableEq

/-- Why a reader gives up. -/
inductive ReadFault where
  | strayLineBreak
  | tooLong
deriving DecidableEq

/-- A reader with the field it reads and the fields before it. -/
structure FieldReader where
  place : Place
  field : List Char
  fields : List (List Char)
deriving DecidableEq

/-- A reader in front of a record. -/
def FieldReader.fresh : FieldReader := ⟨.startRecord, [], []⟩

/-- What a reader is given: the characters of a line, and the end of the line after them. -/
inductive LineEvent where
  | char (c : Char)
  | lineEnd
deriving DecidableEq

/-- Another character of the field. -/
def FieldReader.add (d : Dialect) (r : FieldReader) (place : Place) (c : Char)
    : Except ReadFault FieldReader :=
  if d.limit ≤ r.field.length then .error .tooLong
  else .ok ⟨place, r.field ++ [c], r.fields⟩

/-- The end of the field. -/
def FieldReader.save (r : FieldReader) (place : Place) : FieldReader :=
  ⟨place, [], r.fields ++ [r.field]⟩

/-- The first character of a field, or the end of an empty one. -/
def FieldReader.begin (d : Dialect) (r : FieldReader) (c : Char) : Except ReadFault FieldReader :=
  if c = '\n' ∨ c = '\r' then .ok (r.save .eatLineEnd)
  else if c = '"' then .ok { r with place := .inQuotes }
  else if c = d.delimiter then .ok (r.save .startField)
  else r.add d .inField c

/-- A character where the reader stands. -/
def FieldReader.step (d : Dialect) (r : FieldReader) (c : Char) : Except ReadFault FieldReader :=
  match r.place with
  | .startRecord =>
      if c = '\n' ∨ c = '\r' then .ok { r with place := .eatLineEnd }
      else r.begin d c
  | .startField => r.begin d c
  | .inField =>
      if c = '\n' ∨ c = '\r' then .ok (r.save .eatLineEnd)
      else if c = d.delimiter then .ok (r.save .startField)
      else r.add d .inField c
  | .inQuotes =>
      if c = '"' then .ok { r with place := .quoteInQuotes }
      else r.add d .inQuotes c
  | .quoteInQuotes =>
      if c = '"' then r.add d .inQuotes c
      else if c = d.delimiter then .ok (r.save .startField)
      else if c = '\n' ∨ c = '\r' then .ok (r.save .eatLineEnd)
      else r.add d .inField c
  | .eatLineEnd =>
      if c = '\n' ∨ c = '\r' then .ok r else .error .strayLineBreak

/-- The end of a line, which ends the record unless quotes are open. -/
def FieldReader.endLine (r : FieldReader) : FieldReader :=
  match r.place with
  | .startRecord | .inQuotes => r
  | .startField | .inField | .quoteInQuotes => r.save .startRecord
  | .eatLineEnd => { r with place := .startRecord }

/-- The records that a reader takes from what it is given. An open field at the end is a record. -/
def FieldReader.read (d : Dialect) : FieldReader → List LineEvent
    → Except ReadFault (List (List (List Char)))
  | r, [] =>
      .ok (if r.field ≠ [] ∨ r.place = .inQuotes then [r.fields ++ [r.field]] else [])
  | r, .char c :: rest =>
      match r.step d c with
      | .ok r' => read d r' rest
      | .error fault => .error fault
  | r, .lineEnd :: rest =>
      if r.endLine.place = .startRecord then
        (read d .fresh rest).map (r.endLine.fields :: ·)
      else read d r.endLine rest

/-- A character, and the end of the line that it ends. -/
def charEvents (c : Char) : List LineEvent :=
  if c = '\n' then [.char c, .lineEnd] else [.char c]

/-- The lines of a text with their line feeds, as they are given to a reader. -/
def textEvents (text : List Char) : List LineEvent :=
  text.flatMap charEvents
    ++ (if text = [] ∨ text.getLast? = some '\n' then [] else [.lineEnd])

/-- The records of a text. -/
def readRecords (d : Dialect) (text : List Char) : Except ReadFault (List (List (List Char))) :=
  FieldReader.fresh.read d (textEvents text)

/-- A quoted field doubles its quotes. -/
def doubleQuote (c : Char) : List Char := if c = '"' then ['"', '"'] else [c]

/-- A field as a writer gives it. -/
def writeField (quoted : List Char → Bool) (field : List Char) : List Char :=
  if quoted field then '"' :: field.flatMap doubleQuote ++ ['"'] else field

/-- The fields of a record, with the delimiter between them. -/
def writeFields (d : Dialect) (quoted : List Char → Bool) : List (List Char) → List Char
  | [] => []
  | [field] => writeField quoted field
  | field :: next :: rest =>
      writeField quoted field ++ d.delimiter :: writeFields d quoted (next :: rest)

/-- Records with a carriage return and a line feed after each. What is quoted can depend on the
record.
-/
def writeLines (d : Dialect) (quoting : List (List Char) → List Char → Bool)
    (records : List (List (List Char))) : List Char :=
  records.flatMap (fun fields => writeFields d (quoting fields) fields ++ ['\r', '\n'])

/-- A writer quotes what would otherwise end a field, carriage returns apart. -/
structure Quotes (d : Dialect) (quoted : List Char → Bool) : Prop where
  delimiter : ∀ {field}, quoted field = false → d.delimiter ∉ field
  quote : ∀ {field}, quoted field = false → '"' ∉ field
  feed : ∀ {field}, quoted field = false → '\n' ∉ field

/-- A field that a reader gets back: it is not too long, and its carriage returns are quoted. -/
structure Readable (d : Dialect) (quoted : List Char → Bool) (field : List Char) : Prop where
  short : field.length ≤ d.limit
  protected_returns : quoted field = false → '\r' ∉ field

/-- A record as it is read: the one empty field that no quotes show is no field. -/
def shown (quoted : List Char → Bool) (fields : List (List Char)) : List (List Char) :=
  if fields = [[]] ∧ quoted [] = false then [] else fields

/-- A record has the given fields, where what it lacks counts as empty. -/
def Shows (record fields : List (List Char)) : Prop :=
  ∀ i < fields.length, record.getD i [] = fields.getD i []

-- Reading a field

variable {d : Dialect} {quoted : List Char → Bool} {quoting : List (List Char) → List Char → Bool}

@[simp] theorem charEvents_feed : charEvents '\n' = [.char '\n', .lineEnd] := rfl

theorem charEvents_of_ne {c : Char} (h : c ≠ '\n') : charEvents c = [.char c] := if_neg h

theorem read_char {r : FieldReader} (r' : FieldReader) {c : Char} (h : r.step d c = .ok r')
    (rest : List LineEvent)
    : r.read d (.char c :: rest) = r'.read d rest := by
  simp only [FieldReader.read, h]

theorem read_plain {text : List Char} (plain : ∀ c ∈ text, c ≠ d.delimiter ∧ c ≠ '\n' ∧ c ≠ '\r')
    {field : List Char} (short : field.length + text.length ≤ d.limit)
    (fields : List (List Char)) (rest : List LineEvent)
    : FieldReader.read d ⟨.inField, field, fields⟩ (text.flatMap charEvents ++ rest)
      = FieldReader.read d ⟨.inField, field ++ text, fields⟩ rest := by
  induction text generalizing field with
  | nil => simp
  | cons c text ih =>
      obtain ⟨hdelimiter, hfeed, hreturn⟩ := plain c List.mem_cons_self
      rw [List.length_cons] at short
      have hstep : FieldReader.step d ⟨.inField, field, fields⟩ c
          = .ok ⟨.inField, field ++ [c], fields⟩ := by
        simp only [FieldReader.step, FieldReader.add, hdelimiter, hfeed, hreturn, or_self, if_false]
        exact if_neg (by omega)
      rw [List.flatMap_cons, charEvents_of_ne hfeed, List.append_assoc, List.singleton_append,
        read_char _ hstep, ih (fun c hc => plain c (List.mem_cons_of_mem _ hc)), List.append_assoc,
        List.singleton_append]
      rw [List.length_append, List.length_singleton]
      omega

theorem read_quoted {text : List Char} {field : List Char}
    (short : field.length + text.length ≤ d.limit)
    (fields : List (List Char)) (rest : List LineEvent)
    : FieldReader.read d ⟨.inQuotes, field, fields⟩
        ((text.flatMap doubleQuote).flatMap charEvents ++ rest)
      = FieldReader.read d ⟨.inQuotes, field ++ text, fields⟩ rest := by
  induction text generalizing field with
  | nil => simp
  | cons c text ih =>
      rw [List.length_cons] at short
      have hadd (place : Place) : FieldReader.add d ⟨place, field, fields⟩ .inQuotes c
          = .ok ⟨.inQuotes, field ++ [c], fields⟩ := if_neg (by change ¬ d.limit ≤ field.length; omega)
      have hnext := @ih (field ++ [c])
        (by rw [List.length_append, List.length_singleton]; omega)
      rw [List.append_assoc, List.singleton_append] at hnext
      by_cases hquote : c = '"'
      · subst hquote
        have hopen : FieldReader.step d ⟨.inQuotes, field, fields⟩ '"'
            = .ok ⟨.quoteInQuotes, field, fields⟩ := rfl
        have hpair : FieldReader.step d ⟨.quoteInQuotes, field, fields⟩ '"'
            = .ok ⟨.inQuotes, field ++ ['"'], fields⟩ := hadd _
        simp only [List.flatMap_cons, doubleQuote, if_pos,
          charEvents_of_ne (show '"' ≠ '\n' by decide),
          List.cons_append, List.nil_append]
        rw [read_char _ hopen, read_char _ hpair, hnext]
      · have hstep : FieldReader.step d ⟨.inQuotes, field, fields⟩ c
            = .ok ⟨.inQuotes, field ++ [c], fields⟩ := by
          simp only [FieldReader.step, hquote, if_false, hadd]
        simp only [List.flatMap_cons, doubleQuote, if_neg hquote, List.flatMap_append,
          List.flatMap_nil, List.append_nil, List.append_assoc]
        by_cases hfeed : c = '\n'
        · subst hfeed
          rw [charEvents_feed, List.cons_append, read_char _ hstep, List.cons_append,
            List.nil_append, ← hnext]
          rfl
        · rw [charEvents_of_ne hfeed, List.singleton_append, read_char _ hstep, hnext]

/-- A place in front of a field. -/
def Place.Front (place : Place) : Prop := place = .startRecord ∨ place = .startField

theorem step_front {place : Place} (front : place.Front) {fields : List (List Char)} {c : Char}
    (hfeed : c ≠ '\n') (hreturn : c ≠ '\r')
    : FieldReader.step d ⟨place, [], fields⟩ c = FieldReader.begin d ⟨place, [], fields⟩ c := by
  rcases front with rfl | rfl <;> simp [FieldReader.step, hfeed, hreturn]

theorem read_unquoted {text : List Char}
    (plain : ∀ c ∈ text, c ≠ d.delimiter ∧ c ≠ '\n' ∧ c ≠ '\r') (hquote : '"' ∉ text)
    (short : text.length ≤ d.limit) {place : Place} (front : place.Front)
    (fields : List (List Char)) (rest : List LineEvent)
    : FieldReader.read d ⟨place, [], fields⟩ (text.flatMap charEvents ++ rest)
      = FieldReader.read d ⟨if text = [] then place else .inField, text, fields⟩ rest := by
  cases text with
  | nil => simp
  | cons c text =>
      obtain ⟨hdelimiter, hfeed, hreturn⟩ := plain c List.mem_cons_self
      have hne : c ≠ '"' := fun h => hquote (h ▸ List.mem_cons_self)
      rw [List.length_cons] at short
      have hstep : FieldReader.step d ⟨place, [], fields⟩ c = .ok ⟨.inField, [c], fields⟩ := by
        rw [step_front front hfeed hreturn]
        simp only [FieldReader.begin, FieldReader.add, hfeed, hreturn, hne, hdelimiter,
          or_self, if_false]
        exact if_neg (by change ¬ d.limit ≤ 0; omega)
      rw [if_neg (List.cons_ne_nil c text), List.flatMap_cons, charEvents_of_ne hfeed,
        List.append_assoc, List.singleton_append, read_char _ hstep,
        read_plain (fun x hx => plain x (List.mem_cons_of_mem _ hx))]
      · rfl
      · rw [List.length_singleton]
        omega

/-- Where a reader stands behind a field that it began at a place. -/
def placeAfter (quoted : List Char → Bool) (place : Place) (field : List Char) : Place :=
  if quoted field then .quoteInQuotes else if field = [] then place else .inField

theorem read_field (quotes : Quotes d quoted) {field : List Char} (readable : Readable d quoted field)
    {place : Place} (front : place.Front) (fields : List (List Char)) (rest : List LineEvent)
    : FieldReader.read d ⟨place, [], fields⟩
        ((writeField quoted field).flatMap charEvents ++ rest)
      = FieldReader.read d ⟨placeAfter quoted place field, field, fields⟩ rest := by
  unfold writeField placeAfter
  cases hquoted : quoted field with
  | true =>
      have hopen : FieldReader.step d ⟨place, [], fields⟩ '"' = .ok ⟨.inQuotes, [], fields⟩ := by
        rw [step_front front (by decide) (by decide)]
        rfl
      have hclose : FieldReader.step d ⟨.inQuotes, field, fields⟩ '"'
          = .ok ⟨.quoteInQuotes, field, fields⟩ := rfl
      have hshort : ([] : List Char).length + field.length ≤ d.limit := by
        simpa using readable.short
      simp only [if_pos, List.cons_append, List.flatMap_cons, List.flatMap_append, List.flatMap_nil,
        List.append_nil, charEvents_of_ne (show '"' ≠ '\n' by decide), List.nil_append,
        List.append_assoc]
      rw [read_char _ hopen, read_quoted hshort, List.nil_append]
      exact read_char _ hclose rest
  | false =>
      rw [if_neg Bool.false_ne_true, if_neg Bool.false_ne_true]
      refine read_unquoted (fun c hc => ?_) (quotes.quote hquoted) readable.short front fields rest
      exact ⟨fun h => quotes.delimiter hquoted (h ▸ hc), fun h => quotes.feed hquoted (h ▸ hc),
        fun h => readable.protected_returns hquoted (h ▸ hc)⟩

-- Reading a record

/-- A reader behind a field, quotes closed. -/
structure FieldReader.Behind (r : FieldReader) : Prop where
  not_inQuotes : r.place ≠ .inQuotes
  not_eating : r.place ≠ .eatLineEnd
  front : r.place.Front → r.field = []

/-- The record of a reader when its line ends. -/
def FieldReader.closed (r : FieldReader) : List (List Char) :=
  if r.place = .startRecord then r.fields else r.fields ++ [r.field]

theorem FieldReader.Behind.delimiter {r : FieldReader} (h : r.Behind)
    : r.step d d.delimiter = .ok (r.save .startField) := by
  obtain ⟨place, field, fields⟩ := r
  have hinQuotes := h.not_inQuotes
  have heating := h.not_eating
  cases place <;>
    simp_all [FieldReader.step, FieldReader.begin, FieldReader.save, d.ne_quote, d.ne_return,
      d.ne_feed]

/-- What ends a record behind its last field. -/
def Closes (d : Dialect) (closing : List LineEvent) : Prop :=
  ∀ (r : FieldReader), r.Behind → ∀ rest,
    r.read d (closing ++ rest) = (FieldReader.fresh.read d rest).map (r.closed :: ·)

theorem closes_lineEnd : Closes d [.lineEnd] := by
  intro r h rest
  obtain ⟨place, field, fields⟩ := r
  have hinQuotes := h.not_inQuotes
  have heating := h.not_eating
  cases place <;>
    simp_all [FieldReader.read, FieldReader.endLine, FieldReader.save, FieldReader.closed]

theorem closes_return : Closes d (['\r', '\n'].flatMap charEvents) := by
  intro r h rest
  obtain ⟨place, field, fields⟩ := r
  have hinQuotes := h.not_inQuotes
  have heating := h.not_eating
  have hevents : ['\r', '\n'].flatMap charEvents ++ rest
      = .char '\r' :: .char '\n' :: .lineEnd :: rest := rfl
  rw [hevents]
  have heat (kept : List (List Char)) : FieldReader.read d ⟨.eatLineEnd, [], kept⟩
      (.char '\n' :: .lineEnd :: rest) = (FieldReader.fresh.read d rest).map (kept :: ·) := by
    rw [read_char ⟨.eatLineEnd, [], kept⟩ rfl]
    simp [FieldReader.read, FieldReader.endLine]
  cases place with
  | startRecord =>
      obtain rfl : field = [] := h.front (.inl rfl)
      rw [read_char ⟨.eatLineEnd, [], fields⟩ rfl, heat]
      rfl
  | startField =>
      rw [read_char ⟨.eatLineEnd, [], fields ++ [field]⟩ rfl, heat]
      rfl
  | inField =>
      rw [read_char ⟨.eatLineEnd, [], fields ++ [field]⟩ rfl, heat]
      rfl
  | inQuotes => exact absurd rfl hinQuotes
  | quoteInQuotes =>
      have hstep : FieldReader.step d ⟨.quoteInQuotes, field, fields⟩ '\r'
          = .ok ⟨.eatLineEnd, [], fields ++ [field]⟩ := by
        simp [FieldReader.step, FieldReader.save, d.ne_return.symm]
      rw [read_char _ hstep, heat]
      rfl
  | eatLineEnd => exact absurd rfl heating

theorem placeAfter_behind (quoted : List Char → Bool) {place : Place} (front : place.Front)
    (field : List Char) (fields : List (List Char))
    : FieldReader.Behind ⟨placeAfter quoted place field, field, fields⟩ := by
  unfold placeAfter
  split
  · exact ⟨nofun, nofun, by simp [Place.Front]⟩
  · split
    · next h =>
        rcases front with rfl | rfl
        · exact ⟨nofun, nofun, fun _ => h⟩
        · exact ⟨nofun, nofun, fun _ => h⟩
    · exact ⟨nofun, nofun, by simp [Place.Front]⟩

theorem read_field_delimiter (quotes : Quotes d quoted) {field : List Char}
    (readable : Readable d quoted field) {place : Place} (front : place.Front)
    (fields : List (List Char)) (text : List Char) (rest : List LineEvent)
    : FieldReader.read d ⟨place, [], fields⟩
        ((writeField quoted field ++ d.delimiter :: text).flatMap charEvents ++ rest)
      = FieldReader.read d ⟨.startField, [], fields ++ [field]⟩
          (text.flatMap charEvents ++ rest) := by
  rw [List.flatMap_append, List.flatMap_cons, charEvents_of_ne d.ne_feed, List.append_assoc,
    List.append_assoc, read_field quotes readable front, List.singleton_append]
  exact read_char _ (placeAfter_behind quoted front field fields).delimiter _

theorem read_fields (quotes : Quotes d quoted) {front : List (List Char)} {last : List Char}
    (readable : ∀ field ∈ front ++ [last], Readable d quoted field) {place : Place}
    (hplace : place.Front) (before : List (List Char)) (rest : List LineEvent)
    : FieldReader.read d ⟨place, [], before⟩
        ((writeFields d quoted (front ++ [last])).flatMap charEvents ++ rest)
      = FieldReader.read d
          ⟨placeAfter quoted (if front = [] then place else .startField) last, last, before ++ front⟩
          rest := by
  induction front generalizing place before with
  | nil =>
      rw [List.append_nil, if_pos rfl]
      exact read_field quotes (readable last List.mem_cons_self) hplace before rest
  | cons field front ih =>
      have hstart : Place.Front .startField := .inr rfl
      have hfront := ih (fun f hf => readable f (List.mem_cons_of_mem _ hf)) hstart (before ++ [field])
      rw [if_neg (List.cons_ne_nil field front)]
      have hwritten : writeFields d quoted (field :: front ++ [last])
          = writeField quoted field ++ d.delimiter :: writeFields d quoted (front ++ [last]) := by
        cases front <;> rfl
      rw [hwritten, read_field_delimiter quotes (readable field List.mem_cons_self) hplace, hfront,
        List.append_assoc, List.singleton_append, ite_self]

theorem read_record (quotes : Quotes d quoted) {closing : List LineEvent} (closes : Closes d closing)
    {fields : List (List Char)} (nonempty : fields ≠ [])
    (readable : ∀ field ∈ fields, Readable d quoted field) (rest : List LineEvent)
    : FieldReader.fresh.read d ((writeFields d quoted fields).flatMap charEvents ++ (closing ++ rest))
      = (FieldReader.fresh.read d rest).map (shown quoted fields :: ·) := by
  obtain ⟨front, last, rfl⟩ : ∃ front last, fields = front ++ [last] :=
    ⟨_, _, (List.dropLast_append_getLast nonempty).symm⟩
  have hplace : (if front = [] then Place.startRecord else .startField).Front := by
    split
    · exact .inl rfl
    · exact .inr rfl
  have hstart : Place.Front .startRecord := .inl rfl
  have hread := read_fields quotes readable hstart [] (closing ++ rest)
  rw [FieldReader.fresh, hread, closes _ (placeAfter_behind quoted hplace last _), List.nil_append]
  have hclosed : FieldReader.closed
      ⟨placeAfter quoted (if front = [] then .startRecord else .startField) last, last, front⟩
      = shown quoted (front ++ [last]) := by
    unfold FieldReader.closed shown placeAfter
    rcases eq_or_ne front [] with rfl | hfront
    · cases hq : quoted last <;> rcases eq_or_ne last [] with rfl | hlast <;> simp_all
    · cases hq : quoted last <;> rcases eq_or_ne last [] with rfl | hlast <;>
        simp_all [List.append_eq_singleton_iff]
  rw [hclosed]
  rfl

-- Fields that are not read back

/-- A reader whose fields are no longer than it allows. -/
structure FieldReader.Short (d : Dialect) (r : FieldReader) : Prop where
  field : r.field.length ≤ d.limit
  fields : ∀ field ∈ r.fields, field.length ≤ d.limit

theorem FieldReader.Short.place {r : FieldReader} (h : r.Short d) (place : Place)
    : FieldReader.Short d { r with place := place } :=
  ⟨h.field, h.fields⟩

theorem FieldReader.Short.save {r : FieldReader} (h : r.Short d) (place : Place)
    : (r.save place).Short d := by
  refine ⟨Nat.zero_le _, fun field hfield => ?_⟩
  rcases List.mem_append.mp hfield with hfield | hfield
  · exact h.fields field hfield
  · exact List.mem_singleton.mp hfield ▸ h.field

theorem FieldReader.Short.add {r r' : FieldReader} {place : Place} {c : Char} (h : r.Short d)
    (added : r.add d place c = .ok r') : r'.Short d := by
  unfold FieldReader.add at added
  split at added
  · cases added
  · next hlimit =>
      obtain rfl := Except.ok.inj added
      refine ⟨?_, h.fields⟩
      rw [List.length_append, List.length_singleton]
      omega

theorem FieldReader.Short.begin {r r' : FieldReader} {c : Char} (h : r.Short d)
    (begun : r.begin d c = .ok r') : r'.Short d := by
  unfold FieldReader.begin at begun
  split at begun
  · exact Except.ok.inj begun ▸ h.save _
  split at begun
  · exact Except.ok.inj begun ▸ h.place _
  split at begun
  · exact Except.ok.inj begun ▸ h.save _
  · exact h.add begun

theorem FieldReader.Short.step {r r' : FieldReader} {c : Char} (h : r.Short d)
    (stepped : r.step d c = .ok r') : r'.Short d := by
  obtain ⟨place, field, fields⟩ := r
  cases place <;> simp only [FieldReader.step] at stepped
  case startRecord =>
    split at stepped
    · exact Except.ok.inj stepped ▸ h.place _
    · exact h.begin stepped
  case startField => exact h.begin stepped
  case inField =>
    split at stepped
    · exact Except.ok.inj stepped ▸ h.save _
    split at stepped
    · exact Except.ok.inj stepped ▸ h.save _
    · exact h.add stepped
  case inQuotes =>
    split at stepped
    · exact Except.ok.inj stepped ▸ h.place _
    · exact h.add stepped
  case quoteInQuotes =>
    split at stepped
    · exact h.add stepped
    split at stepped
    · exact Except.ok.inj stepped ▸ h.save _
    split at stepped
    · exact Except.ok.inj stepped ▸ h.save _
    · exact h.add stepped
  case eatLineEnd =>
    split at stepped
    · exact Except.ok.inj stepped ▸ h
    · cases stepped

theorem FieldReader.Short.endLine {r : FieldReader} (h : r.Short d) : r.endLine.Short d := by
  obtain ⟨place, field, fields⟩ := r
  cases place
  case startRecord | inQuotes => exact h
  case startField | inField | quoteInQuotes => exact h.save _
  case eatLineEnd => exact h.place _

theorem FieldReader.Short.read {r : FieldReader} (h : r.Short d) {events : List LineEvent}
    {records : List (List (List Char))} (hread : r.read d events = .ok records)
    : ∀ fields ∈ records, ∀ field ∈ fields, field.length ≤ d.limit := by
  induction events generalizing r records with
  | nil =>
      rw [FieldReader.read] at hread
      obtain rfl := Except.ok.inj hread
      intro fields hfields
      split at hfields
      · obtain rfl := List.mem_singleton.mp hfields
        exact (h.save .startRecord).fields
      · cases hfields
  | cons event events ih =>
      cases event with
      | char c =>
          rw [FieldReader.read] at hread
          cases hstep : r.step d c with
          | ok r' =>
              rw [hstep] at hread
              exact ih (h.step hstep) hread
          | error fault =>
              rw [hstep] at hread
              cases hread
      | lineEnd =>
          rw [FieldReader.read] at hread
          split at hread
          · obtain ⟨later, hlater, rfl⟩ := map_eq_ok.mp hread
            intro fields hfields
            rcases List.mem_cons.mp hfields with rfl | hfields
            · exact h.endLine.fields
            · exact ih ⟨Nat.zero_le _, fun _ h => absurd h List.not_mem_nil⟩ hlater fields hfields
          · exact ih h.endLine hread

theorem read_eatLineEnd {fields : List (List Char)} {events : List LineEvent}
    {records : List (List (List Char))}
    (hread : FieldReader.read d ⟨.eatLineEnd, [], fields⟩ events = .ok records)
    : ∀ record ∈ records.head?, record = fields := by
  induction events generalizing records with
  | nil =>
      obtain rfl := Except.ok.inj hread
      simp
  | cons event events ih =>
      cases event with
      | char c =>
          rw [FieldReader.read] at hread
          by_cases hbreak : c = '\n' ∨ c = '\r'
          · have hstep : FieldReader.step d ⟨.eatLineEnd, [], fields⟩ c
                = .ok ⟨.eatLineEnd, [], fields⟩ := if_pos hbreak
            rw [hstep] at hread
            exact ih hread
          · have hstep : FieldReader.step d ⟨.eatLineEnd, [], fields⟩ c
                = .error .strayLineBreak := if_neg hbreak
            rw [hstep] at hread
            cases hread
      | lineEnd =>
          rw [FieldReader.read] at hread
          obtain ⟨later, -, rfl⟩ := map_eq_ok.mp hread
          intro record hrecord
          exact (Option.mem_some_iff.mp hrecord).symm

theorem read_stray (quotes : Quotes d quoted) {field : List Char} (hquoted : quoted field = false)
    (hreturn : '\r' ∈ field) (short : field.length ≤ d.limit) {place : Place} (front : place.Front)
    {before : List (List Char)} (hbefore : place = .startRecord → before = [])
    {rest : List LineEvent} {records : List (List (List Char))}
    (hread : FieldReader.read d ⟨place, [], before⟩
      ((writeField quoted field).flatMap charEvents ++ rest) = .ok records)
    : ∀ record ∈ records.head?, record.getD before.length [] ≠ field := by
  obtain ⟨text, more, rfl, htext⟩ := List.eq_append_cons_of_mem hreturn
  have hplain : ∀ c ∈ text, c ≠ d.delimiter ∧ c ≠ '\n' ∧ c ≠ '\r' := by
    intro c hc
    have hmem : c ∈ text ++ '\r' :: more := List.mem_append_left _ hc
    exact ⟨fun h => quotes.delimiter hquoted (h ▸ hmem), fun h => quotes.feed hquoted (h ▸ hmem),
      fun h => htext (h ▸ hc)⟩
  have hquote : '"' ∉ text := fun h => quotes.quote hquoted (List.mem_append_left _ h)
  have hlength : text.length ≤ d.limit := by
    rw [List.length_append] at short
    omega
  rw [writeField, hquoted, if_neg Bool.false_ne_true, List.flatMap_append, List.flatMap_cons,
    charEvents_of_ne (by decide), List.append_assoc, List.append_assoc,
    read_unquoted hplain hquote hlength front, List.singleton_append] at hread
  -- the fields that the record has when the line break is met
  have hstep : ∃ kept, FieldReader.step d
      ⟨if text = [] then place else .inField, text, before⟩ '\r' = .ok ⟨.eatLineEnd, [], kept⟩
        ∧ kept.getD before.length [] = text := by
    rcases eq_or_ne text [] with rfl | hne
    · rw [if_pos rfl]
      rcases front with rfl | rfl
      · obtain rfl := hbefore rfl
        exact ⟨[], rfl, rfl⟩
      · exact ⟨before ++ [[]], rfl, by simp⟩
    · rw [if_neg hne]
      exact ⟨before ++ [text], rfl, by simp⟩
  obtain ⟨kept, hstep, hkept⟩ := hstep
  rw [read_char _ hstep] at hread
  intro record hrecord
  rw [read_eatLineEnd hread record hrecord, hkept]
  exact fun h => htext (h ▸ hreturn)

theorem read_unreadable (quotes : Quotes d quoted) {fields : List (List Char)}
    (short : ∀ field ∈ fields, field.length ≤ d.limit)
    (unreadable : ¬ ∀ field ∈ fields, Readable d quoted field) {place : Place}
    (hplace : place.Front) {before : List (List Char)}
    (hbefore : place = .startRecord → before = []) {rest : List LineEvent}
    {records : List (List (List Char))}
    (hread : FieldReader.read d ⟨place, [], before⟩
      ((writeFields d quoted fields).flatMap charEvents ++ rest) = .ok records)
    : ∀ record ∈ records.head?, ¬ Shows record (before ++ fields) := by
  induction fields generalizing place before with
  | nil => exact absurd (fun _ h => absurd h List.not_mem_nil) unreadable
  | cons field fields ih =>
      by_cases hfield : Readable d quoted field
      · cases fields with
        | nil =>
            exact absurd (fun f hf => List.mem_singleton.mp hf ▸ hfield) unreadable
        | cons next fields =>
            have hlater : ¬ ∀ f ∈ next :: fields, Readable d quoted f := fun h =>
              unreadable (List.forall_mem_cons.mpr ⟨hfield, h⟩)
            rw [writeFields, read_field_delimiter quotes hfield hplace] at hread
            have hstart : Place.Front .startField := .inr rfl
            have hnext := ih (fun f hf => short f (List.mem_cons_of_mem _ hf)) hlater hstart nofun hread
            rwa [List.append_assoc, List.singleton_append] at hnext
      · have hshort := short field List.mem_cons_self
        obtain ⟨hquoted, hreturn⟩ : quoted field = false ∧ '\r' ∈ field := by
          by_contra hfine
          exact hfield ⟨hshort, fun hq hr => hfine ⟨hq, hr⟩⟩
        have hwritten : ∃ text, (writeFields d quoted (field :: fields)).flatMap charEvents ++ rest
            = (writeField quoted field).flatMap charEvents ++ text := by
          cases fields with
          | nil => exact ⟨rest, rfl⟩
          | cons next fields =>
              refine ⟨(d.delimiter :: writeFields d quoted (next :: fields)).flatMap charEvents ++ rest,
                ?_⟩
              rw [writeFields, List.flatMap_append, List.append_assoc]
        obtain ⟨text, hwritten⟩ := hwritten
        rw [hwritten] at hread
        intro record hrecord hshows
        refine read_stray quotes hquoted hreturn hshort hplace hbefore hread record hrecord ?_
        rw [hshows before.length (by simp)]
        simp

theorem Shows.refl (fields : List (List Char)) : Shows fields fields := fun _ _ => rfl

theorem shows_shown (quoted : List Char → Bool) (fields : List (List Char))
    : Shows (shown quoted fields) fields := by
  unfold shown
  split
  · next h =>
      rw [h.1]
      intro i hi
      obtain rfl : i = 0 := by simpa using hi
      rfl
  · exact .refl fields

theorem readable_of_record (quotes : Quotes d quoted) {closing : List LineEvent}
    (closes : Closes d closing) {fields : List (List Char)} (nonempty : fields ≠ [])
    {rest : List LineEvent} {records more : List (List (List Char))}
    (hread : FieldReader.fresh.read d
      ((writeFields d quoted fields).flatMap charEvents ++ (closing ++ rest)) = .ok records)
    (hrecords : List.Forall₂ Shows records (fields :: more))
    : (∀ field ∈ fields, Readable d quoted field)
      ∧ ∃ later, FieldReader.fresh.read d rest = .ok later ∧ List.Forall₂ Shows later more := by
  obtain ⟨record, records, hshows, hlater, rfl⟩ := List.forall₂_cons_right_iff.mp hrecords
  have hfresh : FieldReader.fresh.Short d :=
    ⟨Nat.zero_le _, fun _ h => absurd h List.not_mem_nil⟩
  have hrecord := hfresh.read hread record List.mem_cons_self
  have hshort : ∀ field ∈ fields, field.length ≤ d.limit := by
    intro field hfield
    obtain ⟨i, hi, rfl⟩ := List.getElem_of_mem hfield
    have hcell := hshows i hi
    rw [List.getD_eq_getElem _ _ hi] at hcell
    rw [← hcell]
    rcases Nat.lt_or_ge i record.length with hlt | hge
    · rw [List.getD_eq_getElem _ _ hlt]
      exact hrecord _ (List.getElem_mem hlt)
    · rw [List.getD_eq_default _ _ hge]
      exact Nat.zero_le _
  by_cases hreadable : ∀ field ∈ fields, Readable d quoted field
  · rw [read_record quotes closes nonempty hreadable] at hread
    obtain ⟨later, hrest, hcons⟩ := map_eq_ok.mp hread
    exact ⟨hreadable, later, hrest, (List.cons.inj hcons).2 ▸ hlater⟩
  · exact absurd hshows
      (read_unreadable quotes hshort hreadable (.inl rfl) (fun _ => rfl) hread record rfl)

theorem events_writeLines_cons (fields : List (List Char)) (written : List (List (List Char)))
    (rest : List LineEvent)
    : (writeLines d quoting (fields :: written)).flatMap charEvents ++ rest
      = (writeFields d (quoting fields) fields).flatMap charEvents
        ++ (['\r', '\n'].flatMap charEvents
          ++ ((writeLines d quoting written).flatMap charEvents ++ rest)) := by
  simp only [writeLines, List.flatMap_cons, List.flatMap_append, List.append_assoc]

theorem read_lines (quotes : ∀ fields, Quotes d (quoting fields))
    {written : List (List (List Char))} (nonempty : ∀ fields ∈ written, fields ≠ [])
    (readable : ∀ fields ∈ written, ∀ field ∈ fields, Readable d (quoting fields) field)
    (rest : List LineEvent)
    : FieldReader.fresh.read d ((writeLines d quoting written).flatMap charEvents ++ rest)
      = (FieldReader.fresh.read d rest).map
          (written.map (fun fields => shown (quoting fields) fields) ++ ·) := by
  induction written with
  | nil => cases h : FieldReader.fresh.read d rest <;> simp [writeLines, h, Except.map]
  | cons fields written ih =>
      obtain ⟨hfields, hwritten⟩ := List.forall_mem_cons.mp nonempty
      obtain ⟨hreadable, hlater⟩ := List.forall_mem_cons.mp readable
      rw [events_writeLines_cons, read_record (quotes fields) closes_return hfields hreadable,
        ih hwritten hlater]
      cases FieldReader.fresh.read d rest <;> rfl

theorem readable_of_lines (quotes : ∀ fields, Quotes d (quoting fields))
    {written : List (List (List Char))} (nonempty : ∀ fields ∈ written, fields ≠ [])
    {rest : List LineEvent} {records more : List (List (List Char))}
    (hread : FieldReader.fresh.read d ((writeLines d quoting written).flatMap charEvents ++ rest)
      = .ok records)
    (hrecords : List.Forall₂ Shows records (written ++ more))
    : (∀ fields ∈ written, ∀ field ∈ fields, Readable d (quoting fields) field)
      ∧ ∃ later, FieldReader.fresh.read d rest = .ok later ∧ List.Forall₂ Shows later more := by
  induction written generalizing records with
  | nil => exact ⟨fun _ h => absurd h List.not_mem_nil, records, hread, hrecords⟩
  | cons fields written ih =>
      obtain ⟨hfields, hwritten⟩ := List.forall_mem_cons.mp nonempty
      rw [events_writeLines_cons] at hread
      obtain ⟨hreadable, later, hlater, hshows⟩ :=
        readable_of_record (quotes fields) closes_return hfields hread hrecords
      obtain ⟨hall, hrest⟩ := ih hwritten hlater hshows
      exact ⟨List.forall_mem_cons.mpr ⟨hreadable, hall⟩, hrest⟩

-- Whole texts

/-- Records with a carriage return and a line feed between them. -/
def joinLines (d : Dialect) (quoting : List (List Char) → List Char → Bool)
    (records : List (List (List Char))) : List Char :=
  ['\r', '\n'].intercalate (records.map (fun fields => writeFields d (quoting fields) fields))

theorem joinLines_concat (records : List (List (List Char))) (last : List (List Char))
    : joinLines d quoting (records ++ [last])
      = writeLines d quoting records ++ writeFields d (quoting last) last := by
  unfold joinLines writeLines
  induction records with
  | nil => simp
  | cons fields records ih =>
      have hne : (records ++ [last]).map (fun f => writeFields d (quoting f) f) ≠ [] := by simp
      rw [List.cons_append, List.map_cons, List.intercalate_cons_of_ne_nil hne, ih,
        List.flatMap_cons]
      simp

theorem textEvents_writeLines (records : List (List (List Char))) (text : List Char)
    : textEvents (writeLines d quoting records ++ text)
      = (writeLines d quoting records).flatMap charEvents ++ textEvents text := by
  rcases eq_or_ne text [] with rfl | htext
  · have hend : writeLines d quoting records = []
        ∨ (writeLines d quoting records).getLast? = some '\n' := by
      rcases List.eq_nil_or_concat records with rfl | ⟨front, last, rfl⟩
      · exact .inl rfl
      · refine .inr ?_
        rw [List.concat_eq_append, writeLines, List.flatMap_append, List.flatMap_cons,
          List.flatMap_nil, List.append_nil, ← List.append_assoc,
          List.getLast?_append_of_ne_nil _ (List.cons_ne_nil _ _)]
        rfl
    simp [textEvents, hend]
  · have hne : writeLines d quoting records ++ text ≠ [] :=
      List.append_ne_nil_of_right_ne_nil _ htext
    simp only [textEvents, List.flatMap_append, List.getLast?_append_of_ne_nil _ htext, hne, htext,
      false_or, List.append_assoc]

theorem getLast?_writeField (quotes : Quotes d quoted) (field : List Char)
    : (writeField quoted field).getLast? ≠ some '\n' := by
  unfold writeField
  cases hquoted : quoted field with
  | true =>
      rw [if_pos rfl, List.getLast?_append_of_ne_nil _ (List.cons_ne_nil _ _)]
      decide
  | false => exact fun h => quotes.feed hquoted (List.mem_of_getLast? h)

theorem getLast?_writeFields (quotes : Quotes d quoted) (fields : List (List Char))
    : (writeFields d quoted fields).getLast? ≠ some '\n' := by
  induction fields with
  | nil => simp [writeFields]
  | cons field fields ih =>
      cases fields with
      | nil => exact getLast?_writeField quotes field
      | cons next fields =>
          rw [writeFields, List.getLast?_append_of_ne_nil _ (List.cons_ne_nil _ _)]
          rcases eq_or_ne (writeFields d quoted (next :: fields)) [] with hnil | hne
          · rw [hnil]
            exact fun h => d.ne_feed (Option.some.inj h)
          · rwa [List.getLast?_cons_of_ne_nil hne]

theorem writeFields_eq_nil_iff {fields : List (List Char)} (nonempty : fields ≠ [])
    : writeFields d quoted fields = [] ↔ shown quoted fields = [] := by
  cases fields with
  | nil => exact absurd rfl nonempty
  | cons field fields =>
      cases fields with
      | cons next fields => simp [writeFields, shown]
      | nil =>
          cases hquoted : quoted field <;> rcases eq_or_ne field [] with rfl | hfield <;>
            simp_all [writeFields, writeField, shown]

theorem readRecords_writeLines (quotes : ∀ fields, Quotes d (quoting fields))
    {written : List (List (List Char))} (nonempty : ∀ fields ∈ written, fields ≠ [])
    (readable : ∀ fields ∈ written, ∀ field ∈ fields, Readable d (quoting fields) field)
    : readRecords d (writeLines d quoting written)
      = .ok (written.map (fun fields => shown (quoting fields) fields)) := by
  rw [readRecords, ← List.append_nil (writeLines d quoting written), textEvents_writeLines,
    read_lines quotes nonempty readable]
  exact congrArg Except.ok (List.append_nil _)

theorem readable_of_writeLines (quotes : ∀ fields, Quotes d (quoting fields))
    {written : List (List (List Char))} (nonempty : ∀ fields ∈ written, fields ≠ [])
    {records : List (List (List Char))}
    (hread : readRecords d (writeLines d quoting written) = .ok records)
    (hrecords : List.Forall₂ Shows records written)
    : ∀ fields ∈ written, ∀ field ∈ fields, Readable d (quoting fields) field := by
  rw [readRecords, ← List.append_nil (writeLines d quoting written), textEvents_writeLines] at hread
  rw [← List.append_nil written] at hrecords
  exact (readable_of_lines quotes nonempty hread hrecords).1

theorem textEvents_writeFields (quotes : Quotes d quoted) {fields : List (List Char)}
    (htext : writeFields d quoted fields ≠ [])
    : textEvents (writeFields d quoted fields)
      = (writeFields d quoted fields).flatMap charEvents ++ ([.lineEnd] ++ []) := by
  rw [textEvents, if_neg (by simp [htext, getLast?_writeFields quotes fields]), List.append_nil]

theorem readRecords_joinLines (quotes : ∀ fields, Quotes d (quoting fields))
    {front : List (List (List Char))} {last : List (List Char)}
    (nonempty : ∀ fields ∈ front ++ [last], fields ≠ [])
    (readable : ∀ fields ∈ front ++ [last], ∀ field ∈ fields, Readable d (quoting fields) field)
    (hshown : shown (quoting last) last ≠ [])
    : readRecords d (joinLines d quoting (front ++ [last]))
      = .ok ((front ++ [last]).map (fun fields => shown (quoting fields) fields)) := by
  obtain ⟨hfront, hlast⟩ := List.forall_mem_append.mp nonempty
  obtain ⟨hfrontReadable, hlastReadable⟩ := List.forall_mem_append.mp readable
  rw [List.forall_mem_singleton] at hlast hlastReadable
  have htext : writeFields d (quoting last) last ≠ [] := fun h =>
    hshown ((writeFields_eq_nil_iff hlast).mp h)
  rw [readRecords, joinLines_concat, textEvents_writeLines, read_lines quotes hfront hfrontReadable,
    textEvents_writeFields (quotes last) htext,
    read_record (quotes last) closes_lineEnd hlast hlastReadable, List.map_append]
  rfl

theorem readable_of_joinLines (quotes : ∀ fields, Quotes d (quoting fields))
    {front : List (List (List Char))} {last : List (List Char)}
    (nonempty : ∀ fields ∈ front ++ [last], fields ≠ []) {records : List (List (List Char))}
    (hread : readRecords d (joinLines d quoting (front ++ [last])) = .ok records)
    (hrecords : List.Forall₂ Shows records (front ++ [last]))
    : (∀ fields ∈ front ++ [last], ∀ field ∈ fields, Readable d (quoting fields) field)
      ∧ shown (quoting last) last ≠ [] := by
  obtain ⟨hfront, hlast⟩ := List.forall_mem_append.mp nonempty
  rw [List.forall_mem_singleton] at hlast
  rw [readRecords, joinLines_concat, textEvents_writeLines] at hread
  obtain ⟨hfrontReadable, later, hlater, hshows⟩ := readable_of_lines quotes hfront hread hrecords
  by_cases hshown : shown (quoting last) last = []
  · have htext := (writeFields_eq_nil_iff (d := d) hlast).mpr hshown
    rw [htext] at hlater
    obtain rfl : [] = later := Except.ok.inj hlater
    exact absurd hshows.length_eq (by simp)
  · have htext : writeFields d (quoting last) last ≠ [] := fun h =>
      hshown ((writeFields_eq_nil_iff hlast).mp h)
    rw [textEvents_writeFields (quotes last) htext] at hlater
    have hlastReadable := (readable_of_record (quotes last) closes_lineEnd hlast hlater hshows).1
    refine ⟨List.forall_mem_append.mpr ⟨hfrontReadable, ?_⟩, hshown⟩
    rwa [List.forall_mem_singleton]

-- The first record

/-- The first record that a reader takes, none where nothing is left. -/
def FieldReader.first (d : Dialect) : FieldReader → List LineEvent
    → Except ReadFault (Option (List (List Char)))
  | r, [] =>
      .ok (if r.field ≠ [] ∨ r.place = .inQuotes then some (r.fields ++ [r.field]) else none)
  | r, .char c :: rest =>
      match r.step d c with
      | .ok r' => first d r' rest
      | .error fault => .error fault
  | r, .lineEnd :: rest =>
      if r.endLine.place = .startRecord then .ok (some r.endLine.fields)
      else first d r.endLine rest

/-- The first record of a text. -/
def firstRecord (d : Dialect) (text : List Char) : Except ReadFault (Option (List (List Char))) :=
  FieldReader.fresh.first d (textEvents text)

theorem first_of_read {r : FieldReader} {events : List LineEvent}
    {records : List (List (List Char))} (hread : r.read d events = .ok records)
    : r.first d events = .ok records.head? := by
  induction events generalizing r with
  | nil =>
      obtain rfl := Except.ok.inj hread
      rw [FieldReader.first]
      split <;> rfl
  | cons event events ih =>
      cases event with
      | char c =>
          rw [FieldReader.read] at hread
          rw [FieldReader.first]
          cases hstep : r.step d c with
          | ok r' =>
              rw [hstep] at hread
              exact ih hread
          | error fault =>
              rw [hstep] at hread
              cases hread
      | lineEnd =>
          rw [FieldReader.read] at hread
          rw [FieldReader.first]
          split at hread
          · next hplace =>
              obtain ⟨later, -, rfl⟩ := map_eq_ok.mp hread
              exact if_pos hplace
          · next hplace =>
              rw [if_neg hplace]
              exact ih hread

theorem step_fields {r r' : FieldReader} {c : Char}
    (hdelimiter : c ≠ d.delimiter) (hfeed : c ≠ '\n') (hreturn : c ≠ '\r')
    (hplace : r.place ≠ .eatLineEnd) (hstep : r.step d c = .ok r')
    : r'.fields = r.fields ∧ r'.place ≠ .eatLineEnd := by
  have hadd : ∀ {place : Place}, r.add d place c = .ok r' → place ≠ .eatLineEnd →
      r'.fields = r.fields ∧ r'.place ≠ .eatLineEnd := by
    intro place hadded hne
    unfold FieldReader.add at hadded
    split at hadded
    · cases hadded
    · obtain rfl := Except.ok.inj hadded
      exact ⟨rfl, hne⟩
  have hbegin : r.begin d c = .ok r' → r'.fields = r.fields ∧ r'.place ≠ .eatLineEnd := by
    intro hbegun
    simp only [FieldReader.begin, hfeed, hreturn, hdelimiter, or_self, if_false] at hbegun
    split at hbegun
    · obtain rfl := Except.ok.inj hbegun
      exact ⟨rfl, nofun⟩
    · exact hadd hbegun nofun
  obtain ⟨place, field, fields⟩ := r
  cases place <;>
    simp only [FieldReader.step, hfeed, hreturn, hdelimiter, or_self, if_false] at hstep
  case startRecord | startField => exact hbegin hstep
  case inField => exact hadd hstep nofun
  case inQuotes =>
    split at hstep
    · obtain rfl := Except.ok.inj hstep
      exact ⟨rfl, nofun⟩
    · exact hadd hstep nofun
  case quoteInQuotes =>
    split at hstep
    · exact hadd hstep nofun
    · exact hadd hstep nofun
  case eatLineEnd => exact absurd rfl hplace

theorem first_single {line : List Char}
    (plain : ∀ c ∈ line, c ≠ d.delimiter ∧ c ≠ '\n' ∧ c ≠ '\r') {r : FieldReader}
    (hfields : r.fields = []) (hplace : r.place ≠ .eatLineEnd) {record : List (List Char)}
    (hfirst : r.first d (line.flatMap charEvents ++ [.lineEnd]) = .ok (some record))
    : record.length ≤ 1 := by
  induction line generalizing r with
  | nil =>
      obtain ⟨place, field, fields⟩ := r
      obtain rfl : fields = [] := hfields
      cases place
      case startRecord =>
        obtain rfl := Option.some.inj (Except.ok.inj hfirst)
        exact Nat.zero_le 1
      case startField | inField | quoteInQuotes =>
        obtain rfl := Option.some.inj (Except.ok.inj hfirst)
        exact Nat.le_refl 1
      case inQuotes =>
        have hopen : FieldReader.first d ⟨.inQuotes, field, []⟩ [.lineEnd]
            = .ok (some [field]) := by
          simp [FieldReader.first, FieldReader.endLine]
        obtain rfl := Option.some.inj (Except.ok.inj (hopen.symm.trans hfirst))
        exact Nat.le_refl 1
      case eatLineEnd => exact absurd rfl hplace
  | cons c line ih =>
      obtain ⟨hdelimiter, hfeed, hreturn⟩ := plain c List.mem_cons_self
      rw [List.flatMap_cons, charEvents_of_ne hfeed, List.append_assoc, List.singleton_append,
        FieldReader.first] at hfirst
      cases hstep : r.step d c with
      | error fault =>
          rw [hstep] at hfirst
          cases hfirst
      | ok r' =>
          rw [hstep] at hfirst
          obtain ⟨hkept, hne⟩ := step_fields hdelimiter hfeed hreturn hplace hstep
          exact ih (fun x hx => plain x (List.mem_cons_of_mem _ hx)) (hkept.trans hfields) hne hfirst

theorem mem_writeField {field : List Char} {c : Char} (h : c ∈ writeField quoted field)
    : c = '"' ∨ c ∈ field := by
  unfold writeField at h
  split at h
  · rw [List.cons_append, List.mem_cons, List.mem_append, List.mem_flatMap,
      List.mem_singleton] at h
    rcases h with rfl | ⟨x, hx, hc⟩ | rfl
    · exact .inl rfl
    · unfold doubleQuote at hc
      split at hc
      · exact .inl (by simpa using hc)
      · exact .inr (List.mem_singleton.mp hc ▸ hx)
    · exact .inl rfl
  · exact .inr h

theorem mem_writeFields {fields : List (List Char)} {c : Char} (h : c ∈ writeFields d quoted fields)
    : c = d.delimiter ∨ c = '"' ∨ ∃ field ∈ fields, c ∈ field := by
  induction fields with
  | nil => cases h
  | cons field fields ih =>
      have hfield (hc : c ∈ writeField quoted field)
          : c = d.delimiter ∨ c = '"' ∨ ∃ f ∈ field :: fields, c ∈ f :=
        (mem_writeField hc).imp_right (fun hc => ⟨field, List.mem_cons_self, hc⟩) |> .inr
      cases fields with
      | nil => exact hfield h
      | cons next fields =>
          rw [writeFields, List.mem_append, List.mem_cons] at h
          rcases h with h | rfl | h
          · exact hfield h
          · exact .inl rfl
          · obtain hc | hc | ⟨f, hf, hc⟩ := ih h
            · exact .inl hc
            · exact .inr (.inl hc)
            · exact .inr (.inr ⟨f, List.mem_cons_of_mem _ hf, hc⟩)

theorem mem_writeFields_of_mem {fields : List (List Char)} {field : List Char}
    (hfield : field ∈ fields) {c : Char} (hc : c ∈ field)
    : c ∈ writeFields d quoted fields := by
  have hwritten : c ∈ writeField quoted field := by
    unfold writeField
    split
    · refine List.mem_append_left _ (List.mem_cons_of_mem _ (List.mem_flatMap.mpr ⟨c, hc, ?_⟩))
      unfold doubleQuote
      split
      · next heq => exact heq ▸ List.mem_cons_self
      · exact List.mem_cons_self
    · exact hc
  induction fields with
  | nil => cases hfield
  | cons first fields ih =>
      cases fields with
      | nil => exact List.mem_singleton.mp hfield ▸ hwritten
      | cons next fields =>
          rw [writeFields, List.mem_append, List.mem_cons]
          rcases List.mem_cons.mp hfield with rfl | hfield
          · exact .inl hwritten
          · exact .inr (.inr (ih hfield))

theorem joinLines_cons (fields : List (List Char)) (records : List (List (List Char)))
    : ∃ rest, joinLines d quoting (fields :: records) = writeFields d (quoting fields) fields ++ rest
      ∧ (rest = [] ∨ ∃ more, rest = '\r' :: more) := by
  cases records with
  | nil => exact ⟨[], by simp [joinLines], .inl rfl⟩
  | cons next records =>
      refine ⟨'\r' :: '\n' :: joinLines d quoting (next :: records), ?_, .inr ⟨_, rfl⟩⟩
      rw [joinLines, List.map_cons, List.intercalate_cons_of_ne_nil (by simp)]
      simp [joinLines]

end Library
