import LicenseTrack.Model.Store

/-! The invoice numbers of a licence as one cell of a file: how an export writes them and how they
are read back. JSON texts are written and read by a parameter.
-/

namespace LicenseTrack

/-- A decoded JSON value, as far as the cells tell values apart. -/
inductive JsonValue
  | text (value : String)
  | array (items : List JsonValue)
  | other

/-- `json.dumps` on lists of texts and `json.loads`, which may raise a `ValueError`. -/
structure JsonCodec where
  dumps : List String → String
  loads : String → Option JsonValue

/-- `INVOICE_LIST_PREFIX`. -/
def invoiceListPrefix : String := "LT-INVOICES:"

/-- `str.startswith`. -/
def startsWith (value start : String) : Bool := start.toList.isPrefixOf value.toList

/-- `str.removeprefix`, on a text that starts so. -/
def removePrefix (value start : String) : String :=
  String.ofList (value.toList.drop start.toList.length)

/-- `_normalize_invoice_values`, after the values that were read before. -/
def normalizeInvoiceValues : List String → List JsonValue → Except Failure (List String)
  | normalized, [] => .ok normalized
  | normalized, .text item :: rest =>
      let invoiceNumber := strip item
      if invoiceNumber = "" ∨ invoiceNumber ∈ normalized then normalizeInvoiceValues normalized rest
      else normalizeInvoiceValues (normalized ++ [invoiceNumber]) rest
  | _, _ :: _ => .error (.value "Invoice number lists may contain only text values")

/-- `_parse_invoice_list`. -/
def parseInvoiceList (json : JsonCodec) (value : String) : Except Failure (List String) :=
  match json.loads value with
  | none => .error (.value "Invoice number list must contain valid JSON")
  | some (.array items) => normalizeInvoiceValues [] items
  | some _ => .error (.value "Invoice number list must be a JSON array")

/-- `serialize_invoice_cell`. -/
def serializeInvoiceCell (json : JsonCodec) (invoiceNumbers : List String) (invoiceNumber : String)
    : String :=
  if 1 < invoiceNumbers.length then invoiceListPrefix ++ json.dumps invoiceNumbers
  else invoiceNumber

/-- The items of a bare array of two or more, which older exports wrote. -/
def legacyInvoiceList (json : JsonCodec) (value : String) : Option (List JsonValue) :=
  if startsWith value "[" then
    match json.loads value with
    | some (.array items) => if 1 < items.length then some items else none
    | _ => none
  else none

/-- `parse_invoice_cell`. -/
def parseInvoiceCell (json : JsonCodec) (value : String) : Except Failure (List String) :=
  if startsWith value invoiceListPrefix then
    parseInvoiceList json (removePrefix value invoiceListPrefix)
  else match legacyInvoiceList json value with
    | some items => normalizeInvoiceValues [] items
    | none => .ok (if value = "" then [] else [value])

theorem normalizeInvoiceValues_texts {normalized list : List String}
    (hnodup : (normalized ++ list).Nodup) (htrimmed : ∀ item ∈ list, strip item = item ∧ item ≠ "")
    : normalizeInvoiceValues normalized (list.map .text) = .ok (normalized ++ list) := by
  induction list generalizing normalized with
  | nil => simp [normalizeInvoiceValues]
  | cons item rest ih =>
      obtain ⟨⟨hstrip, hne⟩, hrest⟩ := List.forall_mem_cons.mp htrimmed
      have hnew : item ∉ normalized := fun hmem =>
        (List.nodup_append.mp hnodup).2.2 item hmem item List.mem_cons_self rfl
      rw [List.append_cons] at hnodup ⊢
      rw [List.map_cons, normalizeInvoiceValues, hstrip, if_neg (by simp [hne, hnew])]
      exact ih hnodup hrest

theorem mem_normalizeInvoiceValues {normalized numbers : List String} {items : List JsonValue}
    (h : normalizeInvoiceValues normalized items = .ok numbers)
    : ∀ number ∈ numbers, number ∈ normalized ∨ ∃ item, .text item ∈ items ∧ strip item = number := by
  induction items generalizing normalized with
  | nil =>
      obtain rfl := Except.ok.inj h
      exact fun number hnumber => .inl hnumber
  | cons value rest ih =>
      intro number hnumber
      have hlater : ∀ {item}, .text item ∈ rest ∧ strip item = number →
          ∃ item, .text item ∈ value :: rest ∧ strip item = number :=
        fun hitem => ⟨_, List.mem_cons_of_mem _ hitem.1, hitem.2⟩
      cases value with
      | text item =>
          rw [normalizeInvoiceValues] at h
          split at h
          · rcases ih h number hnumber with hmem | ⟨_, hitem⟩
            · exact .inl hmem
            · exact .inr (hlater hitem)
          · rcases ih h number hnumber with hmem | ⟨_, hitem⟩
            · rcases List.mem_append.mp hmem with hmem | hmem
              · exact .inl hmem
              · exact .inr ⟨item, List.mem_cons_self, (List.mem_singleton.mp hmem).symm⟩
            · exact .inr (hlater hitem)
      | array _ => cases h
      | other => cases h

theorem strip_length_le (text : String) : (strip text).length ≤ text.length := by
  rw [← String.length_toList, ← String.length_toList, strip, String.toList_ofList]
  exact ((List.rdropWhile_prefix isSpace _).length_le).trans
    (List.dropWhile_suffix isSpace).length_le

theorem removePrefix_append (start rest : String) : removePrefix (start ++ rest) start = rest := by
  simp [removePrefix]

theorem startsWith_append (start rest : String) : startsWith (start ++ rest) start = true := by
  simp [startsWith]

theorem removePrefix_length_le (value start : String)
    : (removePrefix value start).length ≤ value.length := by
  rw [← String.length_toList, ← String.length_toList, removePrefix, String.toList_ofList]
  exact (List.drop_sublist _ _).length_le

-- The round trip

/-- Invoice numbers as a licence holds them: distinct, trimmed and not blank, with the primary one
first.
-/
structure InvoiceNumbers (list : List String) (first : String) : Prop where
  distinct : list.Nodup
  trimmed : ∀ item ∈ list, strip item = item ∧ item ≠ ""
  primary : list.headD "" = first

/-- Whether an identifier that stands alone is taken for a list: it starts as one that an export
writes, or it is a JSON array of two or more.
-/
def TakenForList (json : JsonCodec) (identifier : String) : Prop :=
  startsWith identifier invoiceListPrefix = true ∨ (legacyInvoiceList json identifier).isSome = true

/-- Texts inside a JSON array are shorter than its encoding. -/
def JsonCodec.Quotes (json : JsonCodec) : Prop :=
  ∀ {text : String} {items : List JsonValue} {item : String}, json.loads text = some (.array items) →
    .text item ∈ items → item.length < text.length

theorem normalizeInvoiceValues_ne {json : JsonCodec} (hquotes : json.Quotes) {text : String}
    {items : List JsonValue} (hloads : json.loads text = some (.array items)) {identifier : String}
    (hlength : text.length ≤ identifier.length)
    : normalizeInvoiceValues [] items ≠ .ok [identifier] := by
  intro h
  rcases mem_normalizeInvoiceValues h identifier List.mem_cons_self with hmem | ⟨item, hitem, hstrip⟩
  · cases hmem
  · have hshort := hquotes hloads hitem
    have hstripped := strip_length_le item
    rw [hstrip] at hstripped
    omega

theorem legacyInvoiceList_some {json : JsonCodec} {value : String} {items : List JsonValue}
    (h : legacyInvoiceList json value = some items)
    : json.loads value = some (.array items) := by
  unfold legacyInvoiceList at h
  split at h
  · split at h
    · next hloads =>
        split at h
        · rw [hloads, Option.some.inj h]
        · cases h
    · cases h
  · cases h

theorem parseInvoiceCell_single {json : JsonCodec} (hquotes : json.Quotes) {identifier : String}
    (hne : identifier ≠ "")
    : parseInvoiceCell json identifier = .ok [identifier] ↔ ¬TakenForList json identifier := by
  unfold parseInvoiceCell TakenForList
  by_cases hstart : startsWith identifier invoiceListPrefix = true
  · rw [if_pos hstart]
    refine ⟨fun h => ?_, fun h => absurd (.inl hstart) h⟩
    unfold parseInvoiceList at h
    split at h
    · cases h
    · next items hloads =>
        exact absurd h (normalizeInvoiceValues_ne hquotes hloads (removePrefix_length_le _ _))
    · cases h
  · rw [if_neg hstart]
    rcases hlegacy : legacyInvoiceList json identifier with _ | items
    · simp [hstart, hne]
    · have hread := normalizeInvoiceValues_ne hquotes (legacyInvoiceList_some hlegacy) le_rfl
      exact ⟨fun h => absurd h hread, fun h => absurd (.inr rfl) h⟩

theorem parseInvoiceCell_list {json : JsonCodec} {list : List String} {first : String}
    (hround : json.loads (json.dumps list) = some (.array (list.map .text)))
    (hlist : InvoiceNumbers list first) (hlength : 1 < list.length)
    : parseInvoiceCell json (serializeInvoiceCell json list first) = .ok list := by
  rw [serializeInvoiceCell, if_pos hlength, parseInvoiceCell, startsWith_append, if_pos rfl,
    removePrefix_append, parseInvoiceList, hround]
  exact @normalizeInvoiceValues_texts [] list hlist.distinct hlist.trimmed

/-- The invoice numbers of a licence survive the export and the import exactly where they are two or
more, or none, or where the only one is not taken for a list.
-/
theorem invoiceCell_roundTrip {json : JsonCodec} (hquotes : json.Quotes) {list : List String}
    {first : String} (hround : json.loads (json.dumps list) = some (.array (list.map .text)))
    (hlist : InvoiceNumbers list first)
    : parseInvoiceCell json (serializeInvoiceCell json list first) = .ok list
      ↔ list.length ≠ 1 ∨ ¬TakenForList json first := by
  match list, hlist with
  | [], hlist =>
      obtain rfl := hlist.primary
      refine ⟨fun _ => .inl (by simp), fun _ => ?_⟩
      rfl
  | [identifier], hlist =>
      obtain rfl := hlist.primary
      have hne := (hlist.trimmed identifier List.mem_cons_self).2
      have hsingle := parseInvoiceCell_single hquotes hne
      simpa [serializeInvoiceCell] using hsingle
  | _ :: _ :: _, hlist =>
      exact ⟨fun _ => .inl (by simp), fun _ => parseInvoiceCell_list hround hlist (by simp)⟩

/-- A codec for a list of two invoice numbers, one that looks like a written list, and a number. -/
def sampleJson : JsonCodec where
  dumps list :=
    if list = ["LT-INVOICES:7"] then "[\"LT-INVOICES:7\"]" else "[\"INV-1\", \"INV-2\"]"
  loads text :=
    if text = "[\"INV-1\", \"INV-2\"]" then some (.array [.text "INV-1", .text "INV-2"])
    else if text = "[\"LT-INVOICES:7\"]" then some (.array [.text "LT-INVOICES:7"])
    else if text = "7" then some .other
    else none

theorem sampleJson_quotes : sampleJson.Quotes := by
  intro text items item hloads hitem
  unfold sampleJson at hloads
  dsimp only at hloads
  split at hloads
  · next htext =>
      obtain rfl := JsonValue.array.inj (Option.some.inj hloads)
      rw [htext]
      simp only [List.mem_cons, JsonValue.text.injEq, List.not_mem_nil, or_false] at hitem
      rcases hitem with rfl | rfl <;> decide
  · split at hloads
    · next htext =>
        obtain rfl := JsonValue.array.inj (Option.some.inj hloads)
        rw [htext]
        obtain rfl := JsonValue.text.inj (List.mem_singleton.mp hitem)
        decide
    · split at hloads <;> cases hloads

theorem invoiceCell_roundTrip_two
    : parseInvoiceCell sampleJson (serializeInvoiceCell sampleJson ["INV-1", "INV-2"] "INV-1")
      = .ok ["INV-1", "INV-2"] :=
  (@invoiceCell_roundTrip sampleJson sampleJson_quotes ["INV-1", "INV-2"] "INV-1" rfl
    ⟨by decide, by decide, rfl⟩).mpr (.inl (by decide))

/-- An identifier that starts like a written list is not read back. -/
theorem invoiceCell_prefixed
    : ¬∀ (json : JsonCodec) (list : List String) (first : String), json.Quotes →
        json.loads (json.dumps list) = some (.array (list.map .text)) →
        InvoiceNumbers list first →
        parseInvoiceCell json (serializeInvoiceCell json list first) = .ok list := by
  intro h
  have hread := h sampleJson ["LT-INVOICES:7"] "LT-INVOICES:7" sampleJson_quotes rfl
    ⟨by decide, by decide, rfl⟩
  have hraised : parseInvoiceCell sampleJson
      (serializeInvoiceCell sampleJson ["LT-INVOICES:7"] "LT-INVOICES:7")
      = .error (.value "Invoice number list must be a JSON array") := rfl
  rw [hraised] at hread
  cases hread

end LicenseTrack
