import LicenseTrack.Evidence.Copies

/-! Overlapping runs that copy evidence leave one copy of each quote document of an order: a run
commits a row and its file together or not at all, and no file of a row is deleted.
-/

namespace LicenseTrack

open Library

namespace EvidenceCopies

/-- A run stores a file under a name that was never in use: `uuid4` does not repeat itself. -/
def Draws (s : System) : Turn → Prop
  | .save _ path => s.origin path = none
  | _ => True

instance (s : System) : (turn : Turn) → Decidable (Draws s turn)
  | .save _ path => inferInstanceAs (Decidable (s.origin path = none))
  | .start _ _ _ _ | .read _ | .advance _ | .record _ | .commit _ | .clean _ _ | .throw _
  | .crash _ => inferInstanceAs (Decidable True)

/-- The systems that turns lead to. -/
abbrev Reached (start s : System) : Prop := Reachable step Draws start s

/-- A table with one copy of each document at most. -/
def Unique (documents : Table Document) : Prop :=
  ∀ orderId quote key key' row row', documents.get? key = some row →
    documents.get? key' = some row' → row.isCopy orderId quote = true →
    row'.isCopy orderId quote = true → key = key'

/-- An installation in which no run has begun: the unique constraint holds, and all names in use
were there before.
-/
structure System.Installed (s : System) : Prop where
  unique : Unique s.documents
  rows : ∀ key row, s.documents.get? key = some row → s.origin row.filename = some .before
  quotes : ∀ key row, s.quotes.get? key = some row → s.origin row.filename = some .before
  files : ∀ path, (s.files path).isSome → s.origin path = some .before
  origins : ∀ path origin, s.origin path = some origin → origin = .before
  runs : ∀ i, s.runs i = .notStarted

/-- An order has a copy of a quote document whose file exists. -/
def Covered (s : System) (orderId quote : Nat) : Prop :=
  ∃ key row, s.documents.get? key = some row ∧ row.isCopy orderId quote = true
    ∧ (s.files row.filename).isSome

-- Changes

/-- The path of the file that a change refers to. -/
def Change.path : Change → String
  | .insert row => row.filename
  | .repair _ filename _ _ _ => filename

/-- A row for the same order and quote document. -/
def Document.SameCopy (row row' : Document) : Prop :=
  row'.pendingOrderId = row.pendingOrderId
    ∧ row'.sourceSourcingQuoteDocumentId = row.sourceSourcingQuoteDocumentId

theorem Document.SameCopy.isCopy {row row' : Document} (h : row.SameCopy row')
    (orderId quote : Nat)
    : row'.isCopy orderId quote = row.isCopy orderId quote := by
  unfold Document.isCopy
  rw [h.1, h.2]

theorem Document.SameCopy.trans {row row' row'' : Document} (h : row.SameCopy row')
    (h' : row'.SameCopy row'')
    : row.SameCopy row'' :=
  ⟨h'.1.trans h.1, h'.2.trans h.2⟩

/-- What changes make of the rows: each row stays a copy of the same document, with its file or one
of a change, and a new row is one that a change inserts.
-/
structure Changed (changes : List Change) (before after : Table Document) : Prop where
  kept : ∀ key row, before.get? key = some row → ∃ row', after.get? key = some row'
    ∧ row.SameCopy row'
    ∧ (row'.filename = row.filename ∨ ∃ change ∈ changes, change.path = row'.filename)
  fresh : ∀ key row', after.get? key = some row' → before.get? key = none →
    ∃ row, .insert row ∈ changes ∧ row.SameCopy row'
      ∧ ∃ change ∈ changes, change.path = row'.filename

theorem Changed.nil (documents : Table Document) : Changed [] documents documents where
  kept := fun _ row h => ⟨row, h, ⟨rfl, rfl⟩, .inl rfl⟩
  fresh := fun _ _ h hnone => by rw [hnone] at h; cases h

theorem Changed.cons {change : Change} {rest : List Change} {before middle after : Table Document}
    (h : Changed [change] before middle) (h' : Changed rest middle after)
    : Changed (change :: rest) before after where
  kept := fun key row hrow => by
    obtain ⟨row', hrow', hsame, hfile⟩ := h.kept key row hrow
    obtain ⟨row'', hrow'', hsame', hfile'⟩ := h'.kept key row' hrow'
    refine ⟨row'', hrow'', hsame.trans hsame', ?_⟩
    rcases hfile' with he | ⟨other, ho, hp⟩
    · rw [he]
      refine hfile.imp_right fun ⟨other, ho, hp⟩ => ⟨other, ?_, hp⟩
      exact List.mem_cons.mpr (.inl (List.mem_singleton.mp ho))
    · exact .inr ⟨other, List.mem_cons_of_mem _ ho, hp⟩
  fresh := fun key row'' hrow'' hnone => by
    cases hmiddle : middle.get? key with
    | none =>
        obtain ⟨row, hinsert, hsame, other, ho, hp⟩ := h'.fresh key row'' hrow'' hmiddle
        exact ⟨row, List.mem_cons_of_mem _ hinsert, hsame, other, List.mem_cons_of_mem _ ho, hp⟩
    | some row' =>
        obtain ⟨row, hinsert, hsame, other, ho, hp⟩ := h.fresh key row' hmiddle hnone
        obtain ⟨last, hlast, hsame', hfile⟩ := h'.kept key row' hmiddle
        obtain rfl := Option.some.inj (hrow''.symm.trans hlast)
        refine ⟨row, ?_, hsame.trans hsame', ?_⟩
        · exact List.mem_cons.mpr (.inl (List.mem_singleton.mp hinsert))
        · rcases hfile with he | ⟨other', ho', hp'⟩
          · exact ⟨other, List.mem_cons.mpr (.inl (List.mem_singleton.mp ho)), hp.trans he.symm⟩
          · exact ⟨other', List.mem_cons_of_mem _ ho', hp'⟩

theorem breaksUnique_of_isCopy {documents : Table Document} {key orderId quote : Nat}
    {row row' : Document} (hrow : documents.get? key = some row)
    (hcopy : row.isCopy orderId quote = true) (hcopy' : row'.isCopy orderId quote = true)
    : breaksUnique documents row' = true := by
  simp only [Document.isCopy, Bool.and_eq_true, beq_iff_eq] at hcopy hcopy'
  refine List.any_eq_true.mpr ⟨(key, row), Table.get?_eq_some.mp hrow, ?_⟩
  simp [hcopy.1, hcopy.2, hcopy'.1, hcopy'.2]

theorem Change.apply_changed {change : Change} {before after : Table Document}
    (h : change.apply before = some after)
    : Changed [change] before after := by
  cases change with
  | insert row =>
      simp only [Change.apply] at h
      split at h
      · cases h
      · obtain rfl := Option.some.inj h
        constructor
        · intro key row' hrow'
          refine ⟨row', ?_, ⟨rfl, rfl⟩, .inl rfl⟩
          rw [Table.get?_insert, if_neg (Nat.ne_of_lt (Table.lt_nextKey_of_get? hrow'))]
          exact hrow'
        · intro key row' hrow' hnone
          rw [Table.get?_insert] at hrow'
          split at hrow'
          · obtain rfl := Option.some.inj hrow'
            exact ⟨row, List.mem_cons_self, ⟨rfl, rfl⟩, .insert row, List.mem_cons_self, rfl⟩
          · rw [hnone] at hrow'
            cases hrow'
  | repair repaired filename originalFilename mimeType fileSize =>
      obtain rfl := Option.some.inj h
      constructor
      · intro key row hrow
        rw [Table.get?_modify, hrow, Option.map_some]
        split
        · exact ⟨_, rfl, ⟨rfl, rfl⟩, .inr ⟨_, List.mem_cons_self, rfl⟩⟩
        · exact ⟨row, rfl, ⟨rfl, rfl⟩, .inl rfl⟩
      · intro key row' hrow' hnone
        rw [Table.get?_modify, hnone] at hrow'
        cases hrow'

theorem applyChanges_changed {changes : List Change} {before after : Table Document}
    (h : applyChanges changes before = some after)
    : Changed changes before after := by
  induction changes generalizing before with
  | nil =>
      obtain rfl := Option.some.inj h
      exact .nil before
  | cons change rest ih =>
      obtain ⟨middle, hmiddle, hafter⟩ := Option.bind_eq_some_iff.mp h
      exact (Change.apply_changed hmiddle).cons (ih hafter)

theorem Change.apply_unique {change : Change} {before after : Table Document}
    (hunique : Unique before) (h : change.apply before = some after)
    : Unique after := by
  intro orderId quote key key' row row' hrow hrow' hcopy hcopy'
  cases change with
  | insert inserted =>
      simp only [Change.apply] at h
      split at h
      · cases h
      · next hfree =>
          obtain rfl := Option.some.inj h
          rw [Table.get?_insert] at hrow hrow'
          split at hrow
          · next hk =>
              split at hrow'
              · next hk' => exact hk.trans hk'.symm
              · obtain rfl := Option.some.inj hrow
                exact absurd (breaksUnique_of_isCopy hrow' hcopy' hcopy) hfree
          · split at hrow'
            · obtain rfl := Option.some.inj hrow'
              exact absurd (breaksUnique_of_isCopy hrow hcopy hcopy') hfree
            · exact hunique orderId quote key key' row row' hrow hrow' hcopy hcopy'
  | repair repaired filename originalFilename mimeType fileSize =>
      obtain rfl := Option.some.inj h
      rw [Table.get?_modify, Option.map_eq_some_iff] at hrow hrow'
      obtain ⟨old, hold, rfl⟩ := hrow
      obtain ⟨old', hold', rfl⟩ := hrow'
      have hsame : ∀ (k : Nat) (d : Document), (if k = repaired then
          d.repaired filename originalFilename mimeType fileSize else d).isCopy orderId quote
            = d.isCopy orderId quote := by
        intro k d
        split <;> rfl
      rw [hsame] at hcopy hcopy'
      exact hunique orderId quote key key' old old' hold hold' hcopy hcopy'

theorem applyChanges_unique {changes : List Change} {before after : Table Document}
    (hunique : Unique before) (h : applyChanges changes before = some after)
    : Unique after := by
  induction changes generalizing before with
  | nil =>
      obtain rfl := Option.some.inj h
      exact hunique
  | cons change rest ih =>
      obtain ⟨middle, hmiddle, hafter⟩ := Option.bind_eq_some_iff.mp h
      exact ih (Change.apply_unique hunique hmiddle) hafter

theorem applyChanges_inserted {changes : List Change} {before after : Table Document}
    (h : applyChanges changes before = some after) {row : Document}
    (hinsert : .insert row ∈ changes)
    : ∃ key row', after.get? key = some row' ∧ row.SameCopy row'
        ∧ ∃ change ∈ changes, change.path = row'.filename := by
  induction changes generalizing before with
  | nil => cases hinsert
  | cons change rest ih =>
      obtain ⟨middle, hmiddle, hafter⟩ := Option.bind_eq_some_iff.mp h
      rcases List.mem_cons.mp hinsert with rfl | hinsert
      · simp only [Change.apply] at hmiddle
        split at hmiddle
        · cases hmiddle
        · obtain rfl := Option.some.inj hmiddle
          obtain ⟨row', hrow', hsame, hfile⟩ := (applyChanges_changed hafter).kept before.nextKey row
            (by rw [Table.get?_insert, if_pos rfl])
          refine ⟨before.nextKey, row', hrow', hsame, ?_⟩
          rcases hfile with he | ⟨other, ho, hp⟩
          · exact ⟨.insert row, List.mem_cons_self, he.symm⟩
          · exact ⟨other, List.mem_cons_of_mem _ ho, hp⟩
      · obtain ⟨key, row', hrow', hsame, other, ho, hp⟩ := ih hafter hinsert
        exact ⟨key, row', hrow', hsame, other, List.mem_cons_of_mem _ ho, hp⟩

theorem applyChanges_repaired {changes : List Change} {before after : Table Document}
    (h : applyChanges changes before = some after) {key : Nat} {row : Document}
    (hrow : before.get? key = some row) {filename originalFilename mimeType : String}
    {fileSize : Nat} (hrepair : .repair key filename originalFilename mimeType fileSize ∈ changes)
    : ∃ row', after.get? key = some row' ∧ row.SameCopy row'
        ∧ ∃ change ∈ changes, change.path = row'.filename := by
  induction changes generalizing before row with
  | nil => cases hrepair
  | cons change rest ih =>
      obtain ⟨middle, hmiddle, hafter⟩ := Option.bind_eq_some_iff.mp h
      obtain ⟨row', hrow', hsame, hfile⟩ := (Change.apply_changed hmiddle).kept key row hrow
      rcases List.mem_cons.mp hrepair with rfl | hrepair
      · obtain ⟨row'', hrow'', hsame', hfile'⟩ := (applyChanges_changed hafter).kept key row' hrow'
        refine ⟨row'', hrow'', hsame.trans hsame', ?_⟩
        rcases hfile' with he | ⟨other, ho, hp⟩
        · have hname : row'.filename = filename := by
            obtain rfl := Option.some.inj hmiddle
            rw [Table.get?_modify_self, hrow, Option.map_some] at hrow'
            obtain rfl := Option.some.inj hrow'
            rfl
          exact ⟨_, List.mem_cons_self, hname.symm.trans he.symm⟩
        · exact ⟨other, List.mem_cons_of_mem _ ho, hp⟩
      · obtain ⟨row'', hrow'', hsame', other, ho, hp⟩ := ih hafter hrow' hrepair
        exact ⟨row'', hrow'', hsame.trans hsame', other, List.mem_cons_of_mem _ ho, hp⟩

-- What other runs leave

/-- What a turn keeps of the rows, the files of the rows and the names in use. -/
structure Extends (s t : System) : Prop where
  quotes : t.quotes = s.quotes
  items : t.items = s.items
  rows : ∀ key row, s.documents.get? key = some row → ∃ row', t.documents.get? key = some row'
    ∧ row.SameCopy row' ∧ ((s.files row.filename).isSome → (t.files row'.filename).isSome)
  origin : ∀ path origin, s.origin path = some origin → t.origin path = some origin
  created : ∀ path origin, s.origin path = some origin → (t.files path).isSome →
    (s.files path).isSome

/-- The files of a run that a turn keeps. -/
def KeepsFiles (i : Nat) (s t : System) : Prop :=
  ∀ path, s.origin path = some (.drawnBy i) → (s.files path).isSome → (t.files path).isSome

/-- A change of a run is for a document of its order, with a file of its own. -/
def ChangeSound (s : System) (i orderId : Nat) (change : Change) : Prop :=
  s.origin change.path = some (.drawnBy i) ∧ (s.files change.path).isSome
  ∧ match change with
    | .insert row => ∃ quote, row.isCopy orderId quote = true ∧ s.Eligible orderId quote
    | .repair key _ _ _ _ =>
        ∃ quote row, s.documents.get? key = some row ∧ row.isCopy orderId quote = true

/-- A change leaves a copy of a document for an order. -/
def Change.Covers (s : System) (orderId quote : Nat) : Change → Prop
  | .insert row => row.isCopy orderId quote = true
  | .repair key _ _ _ _ => ∃ row, s.documents.get? key = some row ∧ row.isCopy orderId quote = true

/-- What holds of what a run has read and gathered. -/
structure CopyingSound (s : System) (i : Nat) (c : Copying) : Prop where
  items : c.orderItemIds = s.itemsOf c.orderId
  seen : ∀ key row, c.seen.get? key = some row → ∃ row', s.documents.get? key = some row'
    ∧ row.SameCopy row' ∧ ((s.files row.filename).isSome → (s.files row'.filename).isSome)
  known : ∀ key row, c.seen.get? key = some row → ∃ origin, s.origin row.filename = some origin
  requested : ∀ quote ∈ c.remaining, ∃ row, s.quotes.get? quote = some row
    ∧ row.sourcingRequestId ∈ s.requestsOf c.orderId
  changes : ∀ change ∈ c.changes, ChangeSound s i c.orderId change
  stored : ∀ path ∈ c.storedPaths, s.origin path = some (.drawnBy i)
  done : ∀ quote, s.Eligible c.orderId quote → quote ∉ c.remaining →
    Covered s c.orderId quote ∨ ∃ change ∈ c.changes, change.Covers s c.orderId quote

/-- What holds of a run. -/
def RunSound (s : System) (i : Nat) : Run → Prop
  | .copying c => CopyingSound s i c
  | .saving c =>
      CopyingSound s i c ∧ ∀ quote rest, c.remaining = quote :: rest → s.Eligible c.orderId quote
  | .recording c storedPath _ =>
      (CopyingSound s i c
        ∧ ∀ quote rest, c.remaining = quote :: rest → s.Eligible c.orderId quote)
      ∧ s.origin storedPath = some (.drawnBy i) ∧ (s.files storedPath).isSome
  | .cleaning paths => ∀ path ∈ paths, s.origin path = some (.drawnBy i)
  | .succeeded orderId => ∀ quote, s.Eligible orderId quote → Covered s orderId quote
  | .notStarted | .reading _ _ _ | .failed | .crashed => True

variable {s t : System} {i j orderId quote : Nat} {c : Copying} {rest : List Nat} {run : Run}

theorem Extends.itemsOf (h : Extends s t) (orderId : Nat) : t.itemsOf orderId = s.itemsOf orderId := by
  simp only [System.itemsOf, h.items]

theorem Extends.requestsOf (h : Extends s t) (orderId : Nat)
    : t.requestsOf orderId = s.requestsOf orderId := by
  simp only [System.requestsOf, h.items]

theorem Extends.eligible (h : Extends s t) : t.Eligible orderId quote ↔ s.Eligible orderId quote := by
  simp only [System.Eligible, h.quotes, h.requestsOf, h.itemsOf]

theorem Covered.extend (hc : Covered s orderId quote) (h : Extends s t) : Covered t orderId quote := by
  obtain ⟨key, row, hrow, hcopy, hfile⟩ := hc
  obtain ⟨row', hrow', hsame, hkept⟩ := h.rows key row hrow
  exact ⟨key, row', hrow', (hsame.isCopy _ _).trans hcopy, hkept hfile⟩

theorem ChangeSound.extend {change : Change} (hc : ChangeSound s i orderId change)
    (h : Extends s t) (hkeeps : KeepsFiles i s t)
    : ChangeSound t i orderId change := by
  obtain ⟨horigin, hfile, hcase⟩ := hc
  refine ⟨h.origin _ _ horigin, hkeeps _ horigin hfile, ?_⟩
  cases change with
  | insert row =>
      obtain ⟨quote, hcopy, heligible⟩ := hcase
      exact ⟨quote, hcopy, h.eligible.mpr heligible⟩
  | repair key filename originalFilename mimeType fileSize =>
      obtain ⟨quote, row, hrow, hcopy⟩ := hcase
      obtain ⟨row', hrow', hsame, -⟩ := h.rows key row hrow
      exact ⟨quote, row', hrow', (hsame.isCopy _ _).trans hcopy⟩

theorem Change.Covers.extend {change : Change} (hc : change.Covers s orderId quote)
    (h : Extends s t)
    : change.Covers t orderId quote := by
  cases change with
  | insert row => exact hc
  | repair key filename originalFilename mimeType fileSize =>
      obtain ⟨row, hrow, hcopy⟩ := hc
      obtain ⟨row', hrow', hsame, -⟩ := h.rows key row hrow
      exact ⟨row', hrow', (hsame.isCopy _ _).trans hcopy⟩

theorem CopyingSound.extend (hc : CopyingSound s i c) (h : Extends s t) (hkeeps : KeepsFiles i s t)
    : CopyingSound t i c where
  items := hc.items.trans (h.itemsOf _).symm
  seen := fun key row hrow => by
    obtain ⟨row', hrow', hsame, hfile⟩ := hc.seen key row hrow
    obtain ⟨row'', hrow'', hsame', hfile'⟩ := h.rows key row' hrow'
    obtain ⟨origin, horigin⟩ := hc.known key row hrow
    exact ⟨row'', hrow'', hsame.trans hsame',
      fun hexists => hfile' (hfile (h.created _ _ horigin hexists))⟩
  known := fun key row hrow => by
    obtain ⟨origin, horigin⟩ := hc.known key row hrow
    exact ⟨origin, h.origin _ _ horigin⟩
  requested := fun quote hq => by
    rw [h.quotes, h.requestsOf]
    exact hc.requested quote hq
  changes := fun change hchange => (hc.changes change hchange).extend h hkeeps
  stored := fun path hpath => h.origin _ _ (hc.stored path hpath)
  done := fun quote heligible hquote =>
    (hc.done quote (h.eligible.mp heligible) hquote).imp (·.extend h)
      fun ⟨change, hchange, hcovers⟩ => ⟨change, hchange, hcovers.extend h⟩

theorem RunSound.extend (hr : RunSound s i run) (h : Extends s t) (hkeeps : KeepsFiles i s t)
    : RunSound t i run := by
  cases run with
  | copying c => exact CopyingSound.extend hr h hkeeps
  | saving c =>
      exact ⟨hr.1.extend h hkeeps, fun quote rest he => h.eligible.mpr (hr.2 quote rest he)⟩
  | recording c storedPath fileSize =>
      obtain ⟨⟨hc, hhead⟩, horigin, hfile⟩ := hr
      exact ⟨⟨hc.extend h hkeeps, fun quote rest he => h.eligible.mpr (hhead quote rest he)⟩,
        h.origin _ _ horigin, hkeeps _ horigin hfile⟩
  | cleaning paths => exact fun path hpath => h.origin _ _ (hr path hpath)
  | succeeded orderId =>
      exact fun quote heligible => (hr quote (h.eligible.mp heligible)).extend h
  | notStarted | reading _ _ _ | failed | crashed => trivial

-- The steps of a run

theorem CopyingSound.pop (hc : CopyingSound s i c) (hremaining : c.remaining = quote :: rest)
    (hquote : s.Eligible c.orderId quote → Covered s c.orderId quote)
    : CopyingSound s i { c with remaining := rest } where
  items := hc.items
  seen := hc.seen
  known := hc.known
  requested := fun other ho => hc.requested other (hremaining ▸ List.mem_cons_of_mem _ ho)
  changes := hc.changes
  stored := hc.stored
  done := fun other heligible ho => by
    by_cases he : other = quote
    · subst he
      exact .inl (hquote heligible)
    · refine hc.done other heligible ?_
      rw [hremaining]
      exact fun hm => ho ((List.mem_cons.mp hm).resolve_left he)

theorem existing_some {entry : Nat × Document} (h : c.existing quote = some entry)
    : c.seen.get? entry.1 = some entry.2 ∧ entry.2.isCopy c.orderId quote = true := by
  obtain ⟨hmem, hcopy⟩ := List.mem_filter.mp (List.mem_of_getLast? h)
  exact ⟨Table.get?_eq_some.mpr hmem, hcopy⟩

theorem CopyingSound.advance (hc : CopyingSound s i c) (hremaining : c.remaining = quote :: rest)
    : RunSound s i (s.advance c quote rest) := by
  obtain ⟨row, hrow, hrequest⟩ := hc.requested quote (hremaining ▸ List.mem_cons_self)
  simp only [System.advance, hrow]
  split
  · next htarget =>
      refine hc.pop hremaining fun heligible => ?_
      obtain ⟨row', hrow', -, hmember⟩ := heligible
      obtain rfl := Option.some.inj (hrow.symm.trans hrow')
      cases ht : row.targetSourcingItemId with
      | none => simp [ht] at htarget
      | some target =>
          have hitem := hmember target ht
          rw [← hc.items] at hitem
          simp [ht, hitem] at htarget
  · next htarget =>
      split
      · next hexists =>
          refine hc.pop hremaining fun _ => ?_
          cases hexisting : c.existing quote with
          | none => simp [hexisting] at hexists
          | some entry =>
              obtain ⟨hseen, hcopy⟩ := existing_some hexisting
              obtain ⟨row', hrow', hsame, hfile⟩ := hc.seen entry.1 entry.2 hseen
              refine ⟨entry.1, row', hrow', (hsame.isCopy _ _).trans hcopy, hfile ?_⟩
              simpa [hexisting] using hexists
      · split
        · exact hc.stored
        · refine ⟨hc, fun quote' rest' he => ?_⟩
          obtain ⟨rfl, -⟩ := List.cons.inj (hremaining.symm.trans he)
          refine ⟨row, hrow, hrequest, fun target ht => ?_⟩
          rw [← hc.items]
          simpa [ht] using htarget

/-- The rest of the loop's body. -/
theorem CopyingSound.record (hc : CopyingSound s i c) (hremaining : c.remaining = quote :: rest)
    (heligible : s.Eligible c.orderId quote) {storedPath : String} (fileSize : Nat)
    (horigin : s.origin storedPath = some (.drawnBy i)) (hfile : (s.files storedPath).isSome)
    : RunSound s i (s.record c quote rest storedPath fileSize) := by
  -- The gathered changes and files, once one more change covers the document.
  have hgathered : ∀ change : Change, change.path = storedPath →
      ChangeSound s i c.orderId change → change.Covers s c.orderId quote →
      CopyingSound s i { c with
        remaining := rest
        changes := c.changes ++ [change]
        storedPaths := c.storedPaths ++ [storedPath] } := by
    intro change hpath hsound hcovers
    constructor
    · exact hc.items
    · exact hc.seen
    · exact hc.known
    · exact fun other ho => hc.requested other (hremaining ▸ List.mem_cons_of_mem _ ho)
    · intro other ho
      rcases List.mem_append.mp ho with ho | ho
      · exact hc.changes other ho
      · exact List.mem_singleton.mp ho ▸ hsound
    · intro path hp
      rcases List.mem_append.mp hp with hp | hp
      · exact hc.stored path hp
      · exact List.mem_singleton.mp hp ▸ horigin
    · intro other hother ho
      by_cases he : other = quote
      · subst he
        exact .inr ⟨change, List.mem_append_right _ List.mem_cons_self, hcovers⟩
      · have hout : other ∉ c.remaining := by
          rw [hremaining]
          exact fun hm => ho ((List.mem_cons.mp hm).resolve_left he)
        exact (hc.done other hother hout).imp_right
          fun ⟨change, hm, hcover⟩ => ⟨change, List.mem_append_left _ hm, hcover⟩
  obtain ⟨row, hrow, -⟩ := hc.requested quote (hremaining ▸ List.mem_cons_self)
  simp only [System.record, hrow]
  split
  · next entry hexisting =>
      obtain ⟨hseen, hcopy⟩ := existing_some hexisting
      obtain ⟨row', hrow', hsame, -⟩ := hc.seen entry.1 entry.2 hseen
      have hcopy' : row'.isCopy c.orderId quote = true := (hsame.isCopy _ _).trans hcopy
      exact hgathered _ rfl ⟨horigin, hfile, quote, row', hrow', hcopy'⟩ ⟨row', hrow', hcopy'⟩
  · split
    · exact hc.stored
    · have hcopy : ∀ category sharedPoNumber, Document.isCopy
          {
            poNumber := c.poNumber
            pendingOrderId := some c.orderId
            filename := storedPath
            originalFilename := row.originalFilename
            fileSize := fileSize
            mimeType := row.mimeType
            category := category
            targetSourcingItemId := row.targetSourcingItemId
            sharedPoNumber := sharedPoNumber
            sourceSourcingQuoteDocumentId := some quote
            uploadedBy := c.userId
          } c.orderId quote = true := by
        intro category sharedPoNumber
        simp [Document.isCopy]
      exact hgathered _ rfl ⟨horigin, hfile, quote, hcopy _ _, heligible⟩ (hcopy _ _)

-- The invariant

/-- What holds between the turns, for the installation at the start. -/
structure Sound (start s : System) : Prop where
  unique : Unique s.documents
  rows : ∀ key row, s.documents.get? key = some row → ∃ origin, s.origin row.filename = some origin
  owned : ∀ key row i, s.documents.get? key = some row →
    s.origin row.filename = some (.drawnBy i) → ∃ orderId, s.runs i = .succeeded orderId
  files : ∀ path, (s.files path).isSome → ∃ origin, s.origin path = some origin
  copied : ∀ key row orderId quote, s.documents.get? key = some row →
    row.isCopy orderId quote = true → start.documents.get? key = none → s.Eligible orderId quote
  runs : ∀ i, RunSound s i (s.runs i)
  quotes : ∀ key row, s.quotes.get? key = some row → s.origin row.filename = some .before

variable {start : System}

theorem sound_installed (h : start.Installed) : Sound start start where
  unique := h.unique
  rows := fun key row hrow => ⟨_, h.rows key row hrow⟩
  owned := fun key row i hrow horigin => by
    rw [h.rows key row hrow] at horigin
    cases horigin
  files := fun path hpath => ⟨_, h.files path hpath⟩
  copied := fun key row orderId quote hrow _ hnone => by
    rw [hnone] at hrow
    cases hrow
  runs := fun i => by
    rw [h.runs i]
    trivial
  quotes := h.quotes

theorem extends_goOn (s : System) (i : Nat) (run : Run) : Extends s (s.goOn i run) where
  quotes := rfl
  items := rfl
  rows := fun _ row hrow => ⟨row, hrow, ⟨rfl, rfl⟩, id⟩
  origin := fun _ _ h => h
  created := fun _ _ _ h => h

theorem Sound.goOn (h : Sound start s) (hactive : ∀ orderId, s.runs i ≠ .succeeded orderId)
    (hr : RunSound s i run)
    : Sound start (s.goOn i run) where
  unique := h.unique
  rows := h.rows
  owned := fun key row k hrow horigin => by
    obtain ⟨orderId, hk⟩ := h.owned key row k hrow horigin
    refine ⟨orderId, ?_⟩
    simp only [System.goOn]
    rw [Function.update_of_ne]
    · exact hk
    · rintro rfl
      exact hactive orderId hk
  files := h.files
  copied := h.copied
  runs := fun k => by
    have hrun : RunSound s k ((s.goOn i run).runs k) := by
      by_cases hk : k = i
      · subst hk
        simpa only [System.goOn, Function.update_self] using hr
      · simpa only [System.goOn, Function.update_of_ne hk] using h.runs k
    exact hrun.extend (extends_goOn s i run) fun _ _ hfile => hfile
  quotes := h.quotes

theorem extends_save (h : Sound start s) {path : String} (hpath : s.origin path = none)
    (content : List UInt8) (run : Run)
    : Extends s { s.goOn i run with
        files := Function.update s.files path (some content)
        origin := Function.update s.origin path (some (.drawnBy i)) } where
  quotes := rfl
  items := rfl
  rows := fun key row hrow => by
    refine ⟨row, hrow, ⟨rfl, rfl⟩, fun hfile => ?_⟩
    obtain ⟨origin, horigin⟩ := h.rows key row hrow
    have hne : row.filename ≠ path := fun he => by rw [he, hpath] at horigin; cases horigin
    simpa only [Function.update_of_ne hne] using hfile
  origin := fun other origin horigin => by
    have hne : other ≠ path := fun he => by rw [he, hpath] at horigin; cases horigin
    simpa only [Function.update_of_ne hne] using horigin
  created := fun other origin horigin hfile => by
    have hne : other ≠ path := fun he => by rw [he, hpath] at horigin; cases horigin
    simpa only [Function.update_of_ne hne] using hfile

theorem keepsFiles_save (path : String) (content : List UInt8) (run : Run) (k : Nat)
    : KeepsFiles k s { s.goOn i run with
        files := Function.update s.files path (some content)
        origin := Function.update s.origin path (some (.drawnBy i)) } := by
  intro other _ hfile
  by_cases he : other = path
  · subst he
    simp only [Function.update_self, Option.isSome_some]
  · simpa only [Function.update_of_ne he] using hfile

theorem Sound.save (h : Sound start s) (hrun : s.runs i = .saving c) {path : String}
    (hpath : s.origin path = none) (content : List UInt8)
    : Sound start { s.goOn i (.recording c path content.length) with
        files := Function.update s.files path (some content)
        origin := Function.update s.origin path (some (.drawnBy i)) } := by
  have hextends := extends_save (i := i) h hpath content (.recording c path content.length)
  have hkeeps := keepsFiles_save (s := s) (i := i) path content (.recording c path content.length)
  constructor
  · exact h.unique
  · intro key row hrow
    obtain ⟨origin, horigin⟩ := h.rows key row hrow
    exact ⟨origin, hextends.origin _ _ horigin⟩
  · intro key row k hrow horigin
    obtain ⟨origin, hbefore⟩ := h.rows key row hrow
    obtain rfl := Option.some.inj ((hextends.origin _ _ hbefore).symm.trans horigin)
    obtain ⟨orderId, hk⟩ := h.owned key row k hrow hbefore
    refine ⟨orderId, ?_⟩
    simp only [System.goOn]
    rw [Function.update_of_ne]
    · exact hk
    · rintro rfl
      rw [hrun] at hk
      cases hk
  · intro other hfile
    by_cases he : other = path
    · exact ⟨.drawnBy i, by simp only [he, Function.update_self]⟩
    · simp only [Function.update_of_ne he] at hfile ⊢
      exact h.files other hfile
  · exact fun key row orderId quote hrow hcopy hnone =>
      hextends.eligible.mpr (h.copied key row orderId quote hrow hcopy hnone)
  · intro k
    by_cases hk : k = i
    · subst hk
      have hbefore := h.runs k
      rw [hrun] at hbefore
      obtain ⟨hc, hhead⟩ := hbefore
      simp only [System.goOn, Function.update_self]
      refine ⟨⟨hc.extend hextends (hkeeps k), fun quote rest he => ?_⟩, ?_, ?_⟩
      · exact hextends.eligible.mpr (hhead quote rest he)
      · simp only [Function.update_self]
      · simp only [Function.update_self, Option.isSome_some]
    · simp only [System.goOn, Function.update_of_ne hk]
      exact (h.runs k).extend hextends (hkeeps k)
  · exact fun key row hrow => hextends.origin _ _ (h.quotes key row hrow)

theorem Sound.clean (h : Sound start s) {path : String} {paths : List String}
    (hrun : s.runs i = .cleaning (path :: paths))
    : Sound start { s.goOn i (.cleaning paths) with files := Function.update s.files path none } := by
  have howned : ∀ other ∈ path :: paths, s.origin other = some (.drawnBy i) := by
    have hbefore := h.runs i
    rw [hrun] at hbefore
    exact hbefore
  have hunused : ∀ key row, s.documents.get? key = some row → row.filename ≠ path := by
    intro key row hrow he
    obtain ⟨orderId, hk⟩ := h.owned key row i hrow (he ▸ howned path List.mem_cons_self)
    rw [hrun] at hk
    cases hk
  have hextends : Extends s
      { s.goOn i (.cleaning paths) with files := Function.update s.files path none } := by
    constructor
    · rfl
    · rfl
    · intro key row hrow
      refine ⟨row, hrow, ⟨rfl, rfl⟩, fun hfile => ?_⟩
      simpa only [Function.update_of_ne (hunused key row hrow)] using hfile
    · exact fun other origin horigin => horigin
    · intro other origin _ hfile
      by_cases he : other = path
      · simp [he] at hfile
      · simpa only [Function.update_of_ne he] using hfile
  constructor
  · exact h.unique
  · exact h.rows
  · have hrest : RunSound s i (.cleaning paths) :=
      fun other ho => howned other (List.mem_cons_of_mem _ ho)
    exact (h.goOn (by rw [hrun]; exact fun _ => Run.noConfusion) hrest).owned
  · intro other hfile
    by_cases he : other = path
    · simp [he] at hfile
    · simp only [Function.update_of_ne he] at hfile
      exact h.files other hfile
  · exact fun key row orderId quote hrow hcopy hnone =>
      hextends.eligible.mpr (h.copied key row orderId quote hrow hcopy hnone)
  · intro k
    by_cases hk : k = i
    · subst hk
      simp only [System.goOn, Function.update_self]
      exact fun other ho => howned other (List.mem_cons_of_mem _ ho)
    · simp only [System.goOn, Function.update_of_ne hk]
      refine (h.runs k).extend hextends fun other horigin hfile => ?_
      have hne : other ≠ path := by
        rintro rfl
        rw [howned other List.mem_cons_self] at horigin
        exact hk (Origin.drawnBy.inj (Option.some.inj horigin)).symm
      simpa only [Function.update_of_ne hne] using hfile
  · exact h.quotes

/-- A run commits rows with its own files. -/
theorem Sound.commit (h : Sound start s) (hrun : s.runs i = .copying c)
    (hremaining : c.remaining = []) {documents : Table Document}
    (happlied : applyChanges c.changes s.documents = some documents)
    : Sound start { s.goOn i (.succeeded c.orderId) with documents := documents } := by
  have hc : CopyingSound s i c := by
    have hbefore := h.runs i
    rw [hrun] at hbefore
    exact hbefore
  have hchanged := applyChanges_changed happlied
  have hfiles : ∀ change ∈ c.changes, s.origin change.path = some (.drawnBy i)
      ∧ (s.files change.path).isSome :=
    fun change hm => ⟨(hc.changes change hm).1, (hc.changes change hm).2.1⟩
  have hextends : Extends s { s.goOn i (.succeeded c.orderId) with documents := documents } := by
    constructor
    · rfl
    · rfl
    · intro key row hrow
      obtain ⟨row', hrow', hsame, hfile⟩ := hchanged.kept key row hrow
      refine ⟨row', hrow', hsame, fun hexists => ?_⟩
      rcases hfile with he | ⟨change, hm, hp⟩
      · simpa only [System.goOn, he] using hexists
      · simpa only [System.goOn, ← hp] using (hfiles change hm).2
    · exact fun other origin horigin => horigin
    · exact fun other origin _ hfile => hfile
  have hrowFile : ∀ key row', documents.get? key = some row' →
      (∃ row, s.documents.get? key = some row ∧ row'.filename = row.filename)
        ∨ ∃ change ∈ c.changes, change.path = row'.filename := by
    intro key row' hrow'
    cases hbefore : s.documents.get? key with
    | none =>
        obtain ⟨-, -, -, hfile⟩ := hchanged.fresh key row' hrow' hbefore
        exact .inr hfile
    | some row =>
        obtain ⟨row'', hrow'', -, hfile⟩ := hchanged.kept key row hbefore
        obtain rfl := Option.some.inj (hrow'.symm.trans hrow'')
        exact hfile.imp_left fun he => ⟨row, rfl, he⟩
  constructor
  · exact applyChanges_unique h.unique happlied
  · intro key row' hrow'
    rcases hrowFile key row' hrow' with ⟨row, hrow, he⟩ | ⟨change, hm, hp⟩
    · exact he ▸ h.rows key row hrow
    · exact ⟨_, hp ▸ (hfiles change hm).1⟩
  · intro key row' k hrow' horigin
    by_cases hk : k = i
    · subst hk
      exact ⟨c.orderId, by simp only [System.goOn, Function.update_self]⟩
    · rcases hrowFile key row' hrow' with ⟨row, hrow, he⟩ | ⟨change, hm, hp⟩
      · obtain ⟨orderId, hsucceeded⟩ := h.owned key row k hrow (he ▸ horigin)
        exact ⟨orderId, by simpa only [System.goOn, Function.update_of_ne hk] using hsucceeded⟩
      · have hown := (hfiles change hm).1
        rw [hp] at hown
        exact absurd (Origin.drawnBy.inj (Option.some.inj (horigin.symm.trans hown))) hk
  · exact h.files
  · intro key row' orderId quote hrow' hcopy hnone
    rw [hextends.eligible]
    cases hbefore : s.documents.get? key with
    | none =>
        obtain ⟨row, hinsert, hsame, -⟩ := hchanged.fresh key row' hrow' hbefore
        obtain ⟨-, -, quote', hcopy', heligible⟩ := hc.changes _ hinsert
        have hboth := (hsame.isCopy orderId quote).symm.trans hcopy
        simp only [Document.isCopy, Bool.and_eq_true, beq_iff_eq] at hboth hcopy'
        obtain rfl := Option.some.inj (hboth.1.symm.trans hcopy'.1)
        obtain rfl := Option.some.inj (hboth.2.symm.trans hcopy'.2)
        exact heligible
    | some row =>
        obtain ⟨row'', hrow'', hsame, -⟩ := hchanged.kept key row hbefore
        obtain rfl := Option.some.inj (hrow'.symm.trans hrow'')
        exact h.copied key row orderId quote hbefore ((hsame.isCopy _ _).symm.trans hcopy) hnone
  · intro k
    by_cases hk : k = i
    · subst hk
      simp only [System.goOn, Function.update_self]
      intro quote heligible
      have hout : quote ∉ c.remaining := by simp [hremaining]
      rcases hc.done quote (hextends.eligible.mp heligible) hout with hcovered | ⟨change, hm, hcovers⟩
      · exact hcovered.extend hextends
      · have hcommitted : ∃ key row', documents.get? key = some row'
            ∧ row'.isCopy c.orderId quote = true
            ∧ ∃ change ∈ c.changes, change.path = row'.filename := by
          cases change with
          | insert row =>
              obtain ⟨key, row', hrow', hsame, hfile⟩ := applyChanges_inserted happlied hm
              exact ⟨key, row', hrow', (hsame.isCopy _ _).trans hcovers, hfile⟩
          | repair key filename originalFilename mimeType fileSize =>
              obtain ⟨row, hrow, hcopy⟩ := hcovers
              obtain ⟨row', hrow', hsame, hfile⟩ := applyChanges_repaired happlied hrow hm
              exact ⟨key, row', hrow', (hsame.isCopy _ _).trans hcopy, hfile⟩
        obtain ⟨key, row', hrow', hcopy, change', hm', hp⟩ := hcommitted
        exact ⟨key, row', hrow', hcopy, hp ▸ (hfiles change' hm').2⟩
    · simp only [System.goOn, Function.update_of_ne hk]
      exact (h.runs k).extend hextends fun _ _ hfile => hfile
  · exact h.quotes

theorem Sound.read (h : Sound start s) (orderId : Nat) (poNumber : String) (userId : Option Nat)
    : RunSound s i (s.read orderId poNumber userId) := by
  constructor
  · rfl
  · exact fun key row hrow => ⟨row, hrow, ⟨rfl, rfl⟩, id⟩
  · exact fun key row hrow => h.rows key row hrow
  · intro quote hquote
    obtain ⟨row, hrow, hrequest⟩ := Table.mem_select.mp hquote
    exact ⟨row, hrow, List.contains_iff_mem.mp hrequest⟩
  · exact fun change hm => absurd hm List.not_mem_nil
  · exact fun path hm => absurd hm List.not_mem_nil
  · intro quote heligible hout
    obtain ⟨row, hrow, hrequest, -⟩ := heligible
    exact absurd (Table.mem_select.mpr ⟨row, hrow, List.contains_iff_mem.mpr hrequest⟩) hout

/-- Every turn keeps what holds between the turns. -/
theorem step_sound (h : Sound start s) {turn : Turn} (hdraws : Draws s turn)
    (ht : step turn s = .ok t)
    : Sound start t := by
  have hactive : ∀ {run : Run} (k : Nat), s.runs k = run → (∀ orderId, run ≠ .succeeded orderId) →
      ∀ orderId, s.runs k ≠ .succeeded orderId :=
    fun k hrun hne orderId he => hne orderId (hrun.symm.trans he)
  cases turn with
  | start k orderId poNumber userId =>
      simp only [step] at ht
      split at ht
      · next hrun =>
          obtain rfl := Except.ok.inj ht
          exact h.goOn (hactive k hrun fun _ => Run.noConfusion) trivial
      · cases ht
  | read k =>
      simp only [step] at ht
      split at ht
      · next orderId poNumber userId hrun =>
          obtain rfl := Except.ok.inj ht
          exact h.goOn (hactive k hrun fun _ => Run.noConfusion) (h.read orderId poNumber userId)
      · cases ht
  | advance k =>
      simp only [step] at ht
      split at ht
      · next c hrun =>
          split at ht
          · cases ht
          · next quote rest hremaining =>
              obtain rfl := Except.ok.inj ht
              have hbefore := h.runs k
              rw [hrun] at hbefore
              exact h.goOn (hactive k hrun fun _ => Run.noConfusion)
                (CopyingSound.advance hbefore hremaining)
      · cases ht
  | save k path =>
      simp only [step] at ht
      split at ht
      · next c hrun =>
          split at ht
          · obtain rfl := Except.ok.inj ht
            have hbefore := h.runs k
            rw [hrun] at hbefore
            exact h.goOn (hactive k hrun fun _ => Run.noConfusion) hbefore.1.stored
          · next content _ =>
              obtain rfl := Except.ok.inj ht
              exact h.save hrun hdraws content
      · cases ht
  | record k =>
      simp only [step] at ht
      split at ht
      · next c storedPath fileSize hrun =>
          split at ht
          · cases ht
          · next quote rest hremaining =>
              obtain rfl := Except.ok.inj ht
              have hbefore := h.runs k
              rw [hrun] at hbefore
              obtain ⟨⟨hc, hhead⟩, horigin, hfile⟩ := hbefore
              exact h.goOn (hactive k hrun fun _ => Run.noConfusion)
                (hc.record hremaining (hhead quote rest hremaining) fileSize horigin hfile)
      · cases ht
  | commit k =>
      simp only [step] at ht
      split at ht
      · next c hrun =>
          split at ht
          · next hremaining =>
              split at ht
              · next documents happlied =>
                  obtain rfl := Except.ok.inj ht
                  exact h.commit hrun hremaining happlied
              · obtain rfl := Except.ok.inj ht
                have hbefore := h.runs k
                rw [hrun] at hbefore
                exact h.goOn (hactive k hrun fun _ => Run.noConfusion) (CopyingSound.stored hbefore)
          · cases ht
      · cases ht
  | clean k deleted =>
      simp only [step] at ht
      split at ht
      · next hrun =>
          obtain rfl := Except.ok.inj ht
          exact h.goOn (hactive k hrun fun _ => Run.noConfusion) trivial
      · next path paths hrun =>
          obtain rfl := Except.ok.inj ht
          cases deleted with
          | true => exact h.clean hrun
          | false =>
              have hbefore := h.runs k
              rw [hrun] at hbefore
              have hrest : RunSound s k (.cleaning paths) :=
                fun other ho => hbefore other (List.mem_cons_of_mem _ ho)
              exact h.goOn (hactive k hrun fun _ => Run.noConfusion) hrest
      · cases ht
  | throw k =>
      have hbefore := h.runs k
      simp only [step] at ht
      split at ht
      · next hrun =>
          obtain rfl := Except.ok.inj ht
          exact h.goOn (hactive k hrun fun _ => Run.noConfusion) trivial
      · next c hrun =>
          obtain rfl := Except.ok.inj ht
          rw [hrun] at hbefore
          exact h.goOn (hactive k hrun fun _ => Run.noConfusion) (CopyingSound.stored hbefore)
      · next c hrun =>
          obtain rfl := Except.ok.inj ht
          rw [hrun] at hbefore
          exact h.goOn (hactive k hrun fun _ => Run.noConfusion) hbefore.1.stored
      · next c storedPath fileSize hrun =>
          obtain rfl := Except.ok.inj ht
          rw [hrun] at hbefore
          exact h.goOn (hactive k hrun fun _ => Run.noConfusion) hbefore.1.1.stored
      · cases ht
  | crash k =>
      simp only [step] at ht
      split at ht
      · cases ht
      · cases ht
      · cases ht
      · cases ht
      · next hsucceeded _ _ =>
          obtain rfl := Except.ok.inj ht
          exact h.goOn hsucceeded trivial

theorem reached_sound (hstart : start.Installed) (h : Reached start s) : Sound start s :=
  h.invariant (sound_installed hstart) fun _ _ _ hs hdraws ht => step_sound hs hdraws ht

-- Evidence is copied once

/-- Rows are written by nothing but the commit of a run that thereby succeeds, and files that rows
refer to are neither deleted nor overwritten.
-/
def WritesOnSuccess (s : System) (turn : Turn) (t : System) : Prop :=
  (t.documents = s.documents
    ∨ ∃ i orderId, turn = .commit i ∧ t.runs i = .succeeded orderId)
  ∧ (∀ key row, s.documents.get? key = some row → (s.files row.filename).isSome →
      t.files row.filename = s.files row.filename)
  ∧ ∀ key row, s.quotes.get? key = some row → t.files row.filename = s.files row.filename

theorem WritesOnSuccess.of_files {turn : Turn}
    (hdocuments : t.documents = s.documents
      ∨ ∃ i orderId, turn = .commit i ∧ t.runs i = .succeeded orderId)
    (hfiles : t.files = s.files)
    : WritesOnSuccess s turn t :=
  ⟨hdocuments, fun _ _ _ _ => by rw [hfiles], fun _ _ _ => by rw [hfiles]⟩

theorem Sound.writesOnSuccess (h : Sound start s) {turn : Turn} (hdraws : Draws s turn)
    (ht : step turn s = .ok t)
    : WritesOnSuccess s turn t := by
  cases turn with
  | start _ _ _ _ | read _ | advance _ | record _ | throw _ | crash _ =>
      simp only [step] at ht
      repeat' split at ht
      all_goals first
        | (obtain rfl := Except.ok.inj ht; exact .of_files (.inl rfl) rfl)
        | cases ht
  | save k path =>
      simp only [step] at ht
      split at ht
      · split at ht
        · obtain rfl := Except.ok.inj ht
          exact .of_files (.inl rfl) rfl
        · obtain rfl := Except.ok.inj ht
          refine ⟨.inl rfl, fun key row hrow _ => ?_, fun key row hrow => ?_⟩
          · obtain ⟨origin, horigin⟩ := h.rows key row hrow
            exact Function.update_of_ne (fun he => by rw [he, hdraws] at horigin; cases horigin) _ _
          · have horigin := h.quotes key row hrow
            exact Function.update_of_ne (fun he => by rw [he, hdraws] at horigin; cases horigin) _ _
      · cases ht
  | commit k =>
      simp only [step] at ht
      split at ht
      · next c hrun =>
          split at ht
          · split at ht
            · obtain rfl := Except.ok.inj ht
              refine .of_files (.inr ⟨k, c.orderId, rfl, ?_⟩) rfl
              simp only [System.goOn, Function.update_self]
            · obtain rfl := Except.ok.inj ht
              exact .of_files (.inl rfl) rfl
          · cases ht
      · cases ht
  | clean k deleted =>
      have hbefore := h.runs k
      simp only [step] at ht
      split at ht
      · obtain rfl := Except.ok.inj ht
        exact .of_files (.inl rfl) rfl
      · next path paths hrun =>
          obtain rfl := Except.ok.inj ht
          rw [hrun] at hbefore
          have hown : s.origin path = some (.drawnBy k) := hbefore path List.mem_cons_self
          cases deleted with
          | false => exact .of_files (.inl rfl) rfl
          | true =>
              refine ⟨.inl rfl, fun key row hrow _ => ?_, fun key row hrow => ?_⟩
              · refine Function.update_of_ne (fun he => ?_) _ _
                obtain ⟨orderId, hsucceeded⟩ := h.owned key row k hrow (he ▸ hown)
                rw [hrun] at hsucceeded
                cases hsucceeded
              · refine Function.update_of_ne (fun he => ?_) _ _
                have horigin := h.quotes key row hrow
                rw [he, hown] at horigin
                cases horigin
      · cases ht

/-- Evidence is copied exactly once. In every run of any number of overlapping transfers, an order
has at most one copy of a quote document; once a transfer of the order has succeeded, each quote
document of the order has one, and its file exists; what was copied is a document of the order; and
only a transfer that succeeds writes rows, while no file of a row is deleted.
-/
theorem evidence_copiedOnce (hstart : start.Installed) (h : Reached start s)
    : Unique s.documents
      ∧ (∀ i orderId, s.runs i = .succeeded orderId → ∀ quote, s.Eligible orderId quote →
          ∃ key row, s.documents.get? key = some row ∧ row.isCopy orderId quote = true
            ∧ (s.files row.filename).isSome)
      ∧ (∀ key row orderId quote, s.documents.get? key = some row →
          row.isCopy orderId quote = true → start.documents.get? key = none →
          s.Eligible orderId quote)
      ∧ ∀ turn t, Draws s turn → step turn s = .ok t → WritesOnSuccess s turn t := by
  have hsound := reached_sound hstart h
  refine ⟨hsound.unique, fun i orderId hsucceeded quote heligible => ?_, hsound.copied,
    fun turn t hdraws ht => hsound.writesOnSuccess hdraws ht⟩
  have hrun := hsound.runs i
  rw [hsucceeded] at hrun
  exact hrun quote heligible

/-- An order with one line, whose request has one quote. -/
def oneQuote : System where
  quotes := Table.empty.insert
    {
      sourcingRequestId := 1
      filename := "quotes/offer.pdf"
      category := "quote"
      targetSourcingItemId := some 1
      sharedUpload := false
      originalFilename := "offer.pdf"
      mimeType := "application/pdf"
    }
  items := Table.empty.insert { sourcingRequestId := some 1, pendingOrderId := some 1 }
  documents := Table.empty
  files := fun path => if path = "quotes/offer.pdf" then some [37, 80, 68, 70] else none
  origin := fun path => if path = "quotes/offer.pdf" then some .before else none
  runs := fun _ => .notStarted

theorem oneQuote_installed : oneQuote.Installed where
  unique := fun _ _ _ _ _ _ h _ _ _ => by cases h
  rows := fun _ _ h => by cases h
  quotes := fun key row h => by
    simp only [oneQuote, Table.get?_insert, Table.get?_empty] at h
    split at h
    · obtain rfl := Option.some.inj h
      rfl
    · cases h
  files := fun path h => by
    simp only [oneQuote] at h ⊢
    split
    · rfl
    · next hne =>
        rw [if_neg hne] at h
        cases h
  origins := fun path origin h => by
    simp only [oneQuote] at h
    split at h
    · exact (Option.some.inj h).symm
    · cases h
  runs := fun _ => rfl

/-- A transfer of the order, from its start to its commit. -/
def oneTransfer : List Turn :=
  [.start 0 1 "PO-1" none, .read 0, .advance 0, .save 0 "procurement/1.pdf", .record 0, .commit 0]

theorem evidence_copiedOnce_transferred
    : ∃ s, Reached oneQuote s ∧ s.runs 0 = .succeeded 1
        ∧ (∃ key row, s.documents.get? key = some row ∧ row.isCopy 1 1 = true
            ∧ (s.files row.filename).isSome)
        ∧ Unique s.documents := by
  obtain ⟨s, hs⟩ : ∃ s, runAdmitted step Draws oneTransfer oneQuote = some s :=
    Option.isSome_iff_exists.mp (by decide +kernel)
  have hreached : Reached oneQuote s := Reachable.of_runAdmitted .start hs
  have hsucceeded : s.runs 0 = .succeeded 1 := by
    have hrun : (runAdmitted step Draws oneTransfer oneQuote).map (·.runs 0)
        = some (.succeeded 1) := rfl
    simpa only [hs, Option.map_some, Option.some.injEq] using hrun
  have heligible : s.Eligible 1 1 := by
    have hquotes : (runAdmitted step Draws oneTransfer oneQuote).map (·.quotes)
        = some oneQuote.quotes := rfl
    have hitems : (runAdmitted step Draws oneTransfer oneQuote).map (·.items)
        = some oneQuote.items := rfl
    simp only [hs, Option.map_some, Option.some.injEq] at hquotes hitems
    simp only [System.Eligible, System.requestsOf, System.itemsOf, hquotes, hitems]
    exact ⟨_, rfl, by decide +kernel, fun target ht => by cases ht; decide +kernel⟩
  have honce := evidence_copiedOnce oneQuote_installed hreached
  exact ⟨s, hreached, hsucceeded, honce.2.1 0 1 hsucceeded 1 heligible, honce.1⟩

end EvidenceCopies

end LicenseTrack
