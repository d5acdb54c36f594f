import LicenseTrack.Services.DuplicateDetection

/-! When the warnings about a file's rows name every duplicate: the indexes leave no match out, but
the search of an update row ends at another licence of its own reference.
-/

namespace LicenseTrack

open Library

namespace Import

variable {u : Unicode} {s : Store} {rows : List ImportRow} {row : ImportRow}
  {existing : List (Nat × License)}

/-- The licence carries the row's LT Ref. -/
def CarriesRef (u : Unicode) (row : ImportRow) (l : License) : Prop :=
  u.normText (row.licenseRef.getD "") ≠ ""
    ∧ u.normText (l.licenseRef.getD "") = u.normText (row.licenseRef.getD "")

instance (u : Unicode) (row : ImportRow) (l : License) : Decidable (CarriesRef u row l) :=
  inferInstanceAs (Decidable (_ ∧ _))

/-- `_match_duplicate` matches the row and the licence. -/
def Resembles (u : Unicode) (row : ImportRow) (l : License) : Prop :=
  (matchDuplicate (rowMatchValues u row) (licenseMatchValues u l)).isSome = true

/-- A stored licence that is not retired matches the row by a pairwise rule; the licences of its own
reference do not count for a row that updates one.
-/
def MatchesLicense (u : Unicode) (s : Store) (row : ImportRow) : Prop :=
  ∃ entry ∈ s.licenses.entries, entry.2.isRetired = false
    ∧ (CarriesRef u row entry.2 ∨ Resembles u row entry.2)
    ∧ (row.importAction = .update → ¬CarriesRef u row entry.2)

/-- An earlier row without errors matches the row. -/
def MatchesEarlierRow (u : Unicode) (rows : List ImportRow) (row : ImportRow) : Prop :=
  ∃ earlier ∈ rows, earlier.isError = false ∧ earlier.rowNumber < row.rowNumber
    ∧ (matchDuplicate (rowMatchValues u row) (rowMatchValues u earlier)).isSome = true

/-- What the warnings about a file promise. -/
structure WarningsComplete (u : Unicode) (s : Store) (rows : List ImportRow) : Prop where
  /-- A row is warned of a stored licence just if one matches. -/
  license
    : ∀ warned ∈ addDuplicateWarnings u s rows,
        warned.1.isError = false
        → ((∃ warning ∈ warned.2, warning.type = .existingLicense)
          ↔ MatchesLicense u s warned.1)
  /-- A row is warned of an earlier row just if one matches. -/
  earlierRow
    : ∀ warned ∈ addDuplicateWarnings u s rows,
        warned.1.isError = false
        → ((∃ warning ∈ warned.2, warning.type = .importRow)
          ↔ MatchesEarlierRow u rows warned.1)
  /-- The order in which the licences are read does not matter. -/
  anyOrder
    : ∀ listed : List (Nat × License),
        listed.Perm (existingLicenses u s rows)
        → ∀ row ∈ rows,
            row.isError = false
            → (scanLicenses u row [] (licenseCandidates u listed row)).isSome
              = (scanLicenses u row [] (licenseCandidates u (existingLicenses u s rows) row)).isSome

/-- A row updates no licence, or no licence outside its own reference resembles it, or no licence
but the one that it updates carries its reference and another one resembles it.
-/
def SearchUndisturbed (u : Unicode) (s : Store) (row : ImportRow) : Prop :=
  row.importAction = .update
  → (∃ entry ∈ s.licenses.entries, entry.2.isRetired = false
      ∧ Resembles u row entry.2 ∧ ¬CarriesRef u row entry.2)
  → (∀ entry ∈ s.licenses.entries, entry.2.isRetired = false
        → CarriesRef u row entry.2
        → row.matchedLicenseId = some entry.1)
      ∧ ∃ entry ∈ s.licenses.entries, entry.2.isRetired = false
          ∧ Resembles u row entry.2 ∧ row.matchedLicenseId ≠ some entry.1

theorem matchDuplicate_isSome {row candidate : MatchValues}
    (h : (matchDuplicate row candidate).isSome = true)
    : (row.externalRef ≠ "" ∧ row.externalRef = candidate.externalRef)
      ∨ (row.publisherName ≠ "" ∧ row.softwareDescription ≠ "")
        ∧ candidate.identity = row.identity := by
  rw [matchDuplicate] at h
  split at h
  case isTrue hexternal => exact .inl hexternal
  case isFalse =>
    split at h
    case isTrue => cases h
    case isFalse hfilled =>
      split at h
      case isTrue => cases h
      case isFalse hsame =>
        rw [not_or] at hfilled hsame
        refine .inr ⟨⟨hfilled.1, hfilled.2⟩, ?_⟩
        rw [MatchValues.identity, MatchValues.identity, not_not.1 hsame.1, not_not.1 hsame.2]

theorem mem_licenseCandidates {entry : Nat × License}
    : entry ∈ licenseCandidates u existing row
      ↔ entry ∈ existing
        ∧ (CarriesRef u row entry.2
          ∨ ((licenseMatchValues u entry.2).externalRef ≠ ""
            ∧ (licenseMatchValues u entry.2).externalRef = (rowMatchValues u row).externalRef)
          ∨ (licenseMatchValues u entry.2).identity = (rowMatchValues u row).identity) := by
  rw [licenseCandidates, CarriesRef]
  by_cases href : u.normText (row.licenseRef.getD "") = ""
  · simp [href, and_or_left]
  · simp [href, and_or_left]

theorem mem_licenseCandidates_of_match {entry : Nat × License} (hentry : entry ∈ existing)
    (h : CarriesRef u row entry.2 ∨ Resembles u row entry.2)
    : entry ∈ licenseCandidates u existing row := by
  refine mem_licenseCandidates.2 ⟨hentry, ?_⟩
  rcases h with hcarries | hresembles
  · exact .inl hcarries
  · rcases matchDuplicate_isSome hresembles with ⟨hne, heq⟩ | ⟨-, hidentity⟩
    · exact .inr (.inl ⟨heq ▸ hne, heq.symm⟩)
    · exact .inr (.inr hidentity)

theorem mem_existingLicenses_of_match {entry : Nat × License} (hrow : row ∈ rows)
    (herror : row.isError = false) (hentry : entry ∈ s.licenses.entries)
    (hretired : entry.2.isRetired = false)
    (h : CarriesRef u row entry.2 ∨ Resembles u row entry.2)
    : entry ∈ existingLicenses u s rows := by
  have hneeded : (rows.filter (fun row => !row.isError)).any (fun row =>
      (u.normText row.publisherName ≠ "" ∧ u.normText row.softwareDescription ≠ "")
        ∨ u.normText (row.licenseRef.getD "") ≠ ""
        ∨ u.normText (row.externalRef.getD "") ≠ "") = true := by
    refine List.any_eq_true.2 ⟨row, List.mem_filter.2 ⟨hrow, by simp [herror]⟩, ?_⟩
    rw [decide_eq_true_eq]
    rcases h with hcarries | hresembles
    · exact .inr (.inl hcarries.1)
    · rcases matchDuplicate_isSome hresembles with ⟨hne, -⟩ | ⟨hfilled, -⟩
      · exact .inr (.inr hne)
      · exact .inl hfilled
  rw [existingLicenses, if_pos hneeded]
  exact List.mem_filter.2 ⟨hentry, by simp [hretired]⟩

theorem of_mem_existingLicenses {entry : Nat × License} (h : entry ∈ existingLicenses u s rows)
    : entry ∈ s.licenses.entries ∧ entry.2.isRetired = false := by
  rw [existingLicenses] at h
  split at h
  · exact ⟨(List.mem_filter.1 h).1, by simpa using (List.mem_filter.1 h).2⟩
  · cases h

-- The search among the licences

/-- What the search decides at a candidate: nothing, or the warning that it ends with. -/
def verdict (u : Unicode) (row : ImportRow) (entry : Nat × License)
    : Option (Option DuplicateWarning) :=
  if row.importAction = .update ∧ row.matchedLicenseId = some entry.1 then none
  else
    match matchByLicenseRef u row entry.1 entry.2 with
    | some warning => some (if row.importAction ≠ .update then some warning else none)
    | none =>
        (matchDuplicate (rowMatchValues u row) (licenseMatchValues u entry.2)).map
          (fun found => some (licenseWarning entry.1 entry.2 found))

theorem scanLicenses_eq {candidates : List (Nat × License)} {seen : List Nat}
    (hkeys : ∀ a ∈ candidates, ∀ b ∈ candidates, a.1 = b.1 → a = b)
    (hseen : ∀ entry ∈ candidates, entry.1 ∈ seen → verdict u row entry = none)
    : scanLicenses u row seen candidates = (candidates.findSome? (verdict u row)).join := by
  induction candidates generalizing seen with
  | nil => rfl
  | cons entry rest ih =>
    obtain ⟨id, l⟩ := entry
    have hkeys' : ∀ a ∈ rest, ∀ b ∈ rest, a.1 = b.1 → a = b := fun a ha b hb =>
      hkeys a (List.mem_cons_of_mem _ ha) b (List.mem_cons_of_mem _ hb)
    have hpass : verdict u row (id, l) = none →
        ∀ entry ∈ rest, entry.1 ∈ id :: seen → verdict u row entry = none := by
      intro hnone entry hentry hmem
      rcases List.mem_cons.1 hmem with hid | hmem
      · rw [hkeys entry (List.mem_cons_of_mem _ hentry) (id, l) List.mem_cons_self hid, hnone]
      · exact hseen entry (List.mem_cons_of_mem _ hentry) hmem
    rw [scanLicenses, List.findSome?_cons]
    split
    case isTrue hmem =>
      rw [hseen (id, l) List.mem_cons_self hmem]
      exact ih hkeys' (fun entry hentry => hseen entry (List.mem_cons_of_mem _ hentry))
    case isFalse =>
      split
      case isTrue hown =>
        have hnone : verdict u row (id, l) = none := if_pos hown
        rw [hnone]
        exact ih hkeys' (hpass hnone)
      case isFalse hown =>
        rcases href : matchByLicenseRef u row id l with _ | warning
        · rcases hfound : matchDuplicate (rowMatchValues u row) (licenseMatchValues u l)
            with _ | found
          · have hnone : verdict u row (id, l) = none := by
              simp only [verdict, if_neg hown, href, hfound, Option.map_none]
            rw [hnone]
            exact ih hkeys' (hpass hnone)
          · simp only [verdict, if_neg hown, href, hfound, Option.map_some, Option.join_some]
        · simp only [verdict, if_neg hown, href, Option.join_some]

theorem matchByLicenseRef_eq_none {id : Nat} {l : License} (h : ¬CarriesRef u row l)
    : matchByLicenseRef u row id l = none := by
  rw [CarriesRef, not_and_or, not_not] at h
  rw [matchByLicenseRef, if_pos]
  exact h.imp_right fun hne heq => hne heq.symm

theorem matchByLicenseRef_isSome {id : Nat} {l : License} (h : CarriesRef u row l)
    : ∃ warning, matchByLicenseRef u row id l = some warning := by
  rw [matchByLicenseRef, if_neg]
  · exact ⟨_, rfl⟩
  · rintro (hblank | hne)
    · exact h.1 hblank
    · exact hne h.2.symm

theorem verdict_own {entry : Nat × License} (hupdate : row.importAction = .update)
    (hown : row.matchedLicenseId = some entry.1)
    : verdict u row entry = none :=
  if_pos ⟨hupdate, hown⟩

theorem verdict_carries {entry : Nat × License}
    (hown : ¬(row.importAction = .update ∧ row.matchedLicenseId = some entry.1))
    (h : CarriesRef u row entry.2)
    : ∃ warning, verdict u row entry
        = some (if row.importAction ≠ .update then some warning else none) := by
  obtain ⟨warning, hwarning⟩ := @matchByLicenseRef_isSome u row entry.1 entry.2 h
  exact ⟨warning, by simp only [verdict, if_neg hown, hwarning]⟩

theorem verdict_not_carries {entry : Nat × License}
    (hown : ¬(row.importAction = .update ∧ row.matchedLicenseId = some entry.1))
    (h : ¬CarriesRef u row entry.2)
    : verdict u row entry
      = (matchDuplicate (rowMatchValues u row) (licenseMatchValues u entry.2)).map
        (fun found => some (licenseWarning entry.1 entry.2 found)) := by
  simp only [verdict, if_neg hown, matchByLicenseRef_eq_none h]

theorem join_findSome?_isSome {α β : Type} {f : α → Option (Option β)} {candidates : List α}
    (h : ∀ a ∈ candidates, f a ≠ some none)
    : (candidates.findSome? f).join.isSome = true ↔ ∃ a ∈ candidates, (f a).isSome = true := by
  rw [← List.findSome?_isSome_iff]
  rcases hfound : candidates.findSome? f with _ | _ | b
  · simp
  · obtain ⟨a, ha, hfa⟩ := List.exists_of_findSome?_eq_some hfound
    exact absurd hfa (h a ha)
  · simp

theorem scan_newRecord (hkeys : ∀ a ∈ existing, ∀ b ∈ existing, a.1 = b.1 → a = b)
    (hnew : row.importAction ≠ .update)
    : (scanLicenses u row [] (licenseCandidates u existing row)).isSome = true
      ↔ ∃ entry ∈ existing, CarriesRef u row entry.2 ∨ Resembles u row entry.2 := by
  have hown : ∀ entry : Nat × License,
      ¬(row.importAction = .update ∧ row.matchedLicenseId = some entry.1) :=
    fun _ h => hnew h.1
  have hmem : ∀ entry ∈ licenseCandidates u existing row, entry ∈ existing :=
    fun _ h => (mem_licenseCandidates.1 h).1
  have hdecides : ∀ entry : Nat × License, (verdict u row entry).isSome = true
      ↔ CarriesRef u row entry.2 ∨ Resembles u row entry.2 := by
    intro entry
    by_cases hcarries : CarriesRef u row entry.2
    · obtain ⟨warning, hverdict⟩ := verdict_carries (hown entry) hcarries
      simp [hverdict, hcarries]
    · rw [verdict_not_carries (hown entry) hcarries, Option.isSome_map]
      exact (or_iff_right hcarries).symm
  rw [scanLicenses_eq (fun a ha b hb => hkeys a (hmem a ha) b (hmem b hb)) (by simp),
    join_findSome?_isSome]
  · constructor
    · rintro ⟨entry, hentry, hsome⟩
      exact ⟨entry, hmem entry hentry, (hdecides entry).1 hsome⟩
    · rintro ⟨entry, hentry, hmatch⟩
      exact ⟨entry, mem_licenseCandidates_of_match hentry hmatch, (hdecides entry).2 hmatch⟩
  · intro entry _ hnone
    by_cases hcarries : CarriesRef u row entry.2
    · obtain ⟨warning, hverdict⟩ := verdict_carries (hown entry) hcarries
      rw [hverdict, if_pos hnew] at hnone
      cases hnone
    · rw [verdict_not_carries (hown entry) hcarries] at hnone
      obtain ⟨_, _, h⟩ := Option.map_eq_some_iff.1 hnone
      cases h

/-- An update row is warned of a licence just if one other than its own resembles it, and no
other licence carries its reference.
-/
theorem scan_update (hkeys : ∀ a ∈ existing, ∀ b ∈ existing, a.1 = b.1 → a = b)
    (hupdate : row.importAction = .update)
    : (scanLicenses u row [] (licenseCandidates u existing row)).isSome = true
      ↔ (∀ entry ∈ existing, CarriesRef u row entry.2 → row.matchedLicenseId = some entry.1)
        ∧ ∃ entry ∈ existing, Resembles u row entry.2 ∧ row.matchedLicenseId ≠ some entry.1 := by
  have hmem : ∀ entry ∈ licenseCandidates u existing row, entry ∈ existing :=
    fun _ h => (mem_licenseCandidates.1 h).1
  have hstops : ∀ entry : Nat × License, CarriesRef u row entry.2 →
      row.matchedLicenseId ≠ some entry.1 → verdict u row entry = some none := by
    intro entry hcarries hother
    obtain ⟨warning, hverdict⟩ := verdict_carries (fun h => hother h.2) hcarries
    rw [hverdict, if_neg (not_not.2 hupdate)]
  rw [scanLicenses_eq (fun a ha b hb => hkeys a (hmem a ha) b (hmem b hb)) (by simp)]
  by_cases hshared : ∀ entry ∈ existing, CarriesRef u row entry.2
      → row.matchedLicenseId = some entry.1
  · have hdecides : ∀ entry ∈ existing, (verdict u row entry).isSome = true
        ↔ Resembles u row entry.2 ∧ row.matchedLicenseId ≠ some entry.1 := by
      intro entry hentry
      by_cases hown : row.matchedLicenseId = some entry.1
      · simp [verdict_own hupdate hown, hown]
      · rw [verdict_not_carries (fun h => hown h.2) (fun h => hown (hshared entry hentry h)),
          Option.isSome_map]
        exact (and_iff_left hown).symm
    rw [join_findSome?_isSome]
    · constructor
      · rintro ⟨entry, hentry, hsome⟩
        exact ⟨hshared, entry, hmem entry hentry, (hdecides entry (hmem entry hentry)).1 hsome⟩
      · rintro ⟨-, entry, hentry, hmatch⟩
        exact ⟨entry, mem_licenseCandidates_of_match hentry (.inr hmatch.1),
          (hdecides entry hentry).2 hmatch⟩
    · intro entry hentry hnone
      by_cases hown : row.matchedLicenseId = some entry.1
      · rw [verdict_own hupdate hown] at hnone
        cases hnone
      · rw [verdict_not_carries (fun h => hown h.2)
          (fun h => hown (hshared entry (hmem entry hentry) h))] at hnone
        obtain ⟨_, _, h⟩ := Option.map_eq_some_iff.1 hnone
        cases h
  · refine iff_of_false ?_ fun h => hshared h.1
    push Not at hshared
    obtain ⟨other, hother, hcarries, hid⟩ := hshared
    -- The bucket of the reference comes first, and every licence in it passes or ends the search.
    have hbucket : (existing.filter (fun entry =>
        u.normText (entry.2.licenseRef.getD "") = u.normText (row.licenseRef.getD ""))).findSome?
          (verdict u row) = some none := by
      rcases hfound : (existing.filter (fun entry =>
        u.normText (entry.2.licenseRef.getD "") = u.normText (row.licenseRef.getD ""))).findSome?
          (verdict u row) with _ | decided
      · have hnone := List.findSome?_eq_none_iff.1 hfound other
          (List.mem_filter.2 ⟨hother, by simpa using hcarries.2⟩)
        rw [hstops other hcarries hid] at hnone
        cases hnone
      · obtain ⟨entry, hentry, hverdict⟩ := List.exists_of_findSome?_eq_some hfound
        have hsame : CarriesRef u row entry.2 :=
          ⟨hcarries.1, by simpa using (List.mem_filter.1 hentry).2⟩
        by_cases hown : row.matchedLicenseId = some entry.1
        · rw [verdict_own hupdate hown] at hverdict
          cases hverdict
        · rw [hfound, ← hverdict, hstops entry hsame hown]
    rw [licenseCandidates, if_pos hcarries.1, List.append_assoc, List.findSome?_append, hbucket]
    simp

theorem scanRows_isSome {candidates : List ImportRow}
    (hsorted : candidates.Pairwise (fun a b => a.rowNumber ≤ b.rowNumber))
    : (scanRows u row candidates).isSome = true
      ↔ ∃ earlier ∈ candidates, earlier.isError = false ∧ earlier.rowNumber < row.rowNumber
          ∧ (matchDuplicate (rowMatchValues u row) (rowMatchValues u earlier)).isSome = true := by
  induction candidates with
  | nil => simp [scanRows]
  | cons head rest ih =>
    obtain ⟨hhead, hrest⟩ := List.pairwise_cons.1 hsorted
    rw [scanRows, List.exists_mem_cons_iff]
    split
    case isTrue hlate =>
      refine iff_of_false (by simp) ?_
      rintro (⟨-, hlt, -⟩ | ⟨earlier, hearlier, -, hlt, -⟩)
      · exact absurd hlt (Nat.not_lt.2 hlate)
      · exact absurd hlt (Nat.not_lt.2 (Nat.le_trans hlate (hhead earlier hearlier)))
    case isFalse hearly =>
      split
      case isTrue herror =>
        rw [ih hrest]
        exact (or_iff_right fun h => by rw [h.1] at herror; cases herror).symm
      case isFalse herror =>
        rcases hfound : matchDuplicate (rowMatchValues u row) (rowMatchValues u head)
          with _ | found
        · rw [ih hrest]
          exact (or_iff_right fun h => by cases h.2.2).symm
        · exact iff_of_true rfl (.inl ⟨by simpa using herror, Nat.not_le.1 hearly, rfl⟩)

theorem mem_rowCandidates {earlier : ImportRow}
    : earlier ∈ rowCandidates u rows row
      ↔ earlier ∈ rows ∧ earlier.isError = false
        ∧ ((rowMatchValues u earlier).identity = (rowMatchValues u row).identity
          ∨ ((rowMatchValues u earlier).externalRef ≠ ""
            ∧ (rowMatchValues u earlier).externalRef = (rowMatchValues u row).externalRef)) := by
  simp only [rowCandidates, List.mem_mergeSort, List.mem_append, List.mem_filter,
    Bool.not_eq_true', decide_eq_true_eq, and_assoc, and_or_left]

theorem scanRows_rowCandidates
    : (scanRows u row (rowCandidates u rows row)).isSome = true
      ↔ MatchesEarlierRow u rows row := by
  have hsorted : (rowCandidates u rows row).Pairwise (fun a b => a.rowNumber ≤ b.rowNumber) := by
    rw [rowCandidates]
    refine (List.pairwise_mergeSort ?_ ?_ _).imp fun h => of_decide_eq_true h
    · intro a b c hab hbc
      exact decide_eq_true (Nat.le_trans (of_decide_eq_true hab) (of_decide_eq_true hbc))
    · intro a b
      simpa using Nat.le_total a.rowNumber b.rowNumber
  rw [scanRows_isSome hsorted, MatchesEarlierRow]
  constructor
  · rintro ⟨earlier, hearlier, hmatch⟩
    exact ⟨earlier, (mem_rowCandidates.1 hearlier).1, hmatch⟩
  · rintro ⟨earlier, hearlier, herror, hlt, hmatch⟩
    refine ⟨earlier, mem_rowCandidates.2 ⟨hearlier, herror, ?_⟩, herror, hlt, hmatch⟩
    rcases matchDuplicate_isSome hmatch with ⟨hne, heq⟩ | ⟨-, hidentity⟩
    · exact .inr ⟨heq ▸ hne, heq.symm⟩
    · exact .inl hidentity

-- The warnings of a file

theorem matchByLicenseRef_type {id : Nat} {l : License} {warning : DuplicateWarning}
    (h : matchByLicenseRef u row id l = some warning)
    : warning.type = .existingLicense := by
  rw [matchByLicenseRef] at h
  split at h
  · cases h
  · rw [← Option.some.inj h]

theorem scanLicenses_type {warning : DuplicateWarning} {seen : List Nat}
    {candidates : List (Nat × License)}
    (h : scanLicenses u row seen candidates = some warning)
    : warning.type = .existingLicense := by
  induction candidates generalizing seen with
  | nil => cases h
  | cons entry rest ih =>
    rw [scanLicenses] at h
    split at h
    case isTrue => exact ih h
    case isFalse =>
      split at h
      case isTrue => exact ih h
      case isFalse =>
        rcases href : matchByLicenseRef u row entry.1 entry.2 with _ | found
        · simp only [href] at h
          rcases hfound : matchDuplicate (rowMatchValues u row) (licenseMatchValues u entry.2)
            with _ | found
          · simp only [hfound] at h
            exact ih h
          · simp only [hfound, Option.some.injEq] at h
            rw [← h, licenseWarning]
        · simp only [href] at h
          split at h
          · rw [← Option.some.inj h]
            exact matchByLicenseRef_type href
          · cases h

theorem scanRows_type {warning : DuplicateWarning} {candidates : List ImportRow}
    (h : scanRows u row candidates = some warning)
    : warning.type = .importRow := by
  induction candidates with
  | nil => cases h
  | cons earlier rest ih =>
    rw [scanRows] at h
    split at h
    · cases h
    · split at h
      · exact ih h
      · rcases hfound : matchDuplicate (rowMatchValues u row) (rowMatchValues u earlier)
          with _ | found
        · simp only [hfound] at h
          exact ih h
        · simp only [hfound, Option.some.injEq] at h
          rw [← h, rowWarning]

theorem mem_addDuplicateWarnings {warned : ImportRow × List DuplicateWarning}
    (h : warned ∈ addDuplicateWarnings u s rows) (herror : warned.1.isError = false)
    : warned.1 ∈ rows
      ∧ warned.2
        = (scanLicenses u warned.1 []
            (licenseCandidates u (existingLicenses u s rows) warned.1)).toList
          ++ (scanRows u warned.1 (rowCandidates u rows warned.1)).toList := by
  rw [addDuplicateWarnings, List.mem_map] at h
  obtain ⟨row, hrow, heq⟩ := h
  split at heq
  case isTrue hrowError =>
    rw [← heq, hrowError] at herror
    cases herror
  case isFalse =>
    rw [← heq]
    exact ⟨hrow, rfl⟩

theorem exists_warning_iff {found foundRow : Option DuplicateWarning}
    (hfound : ∀ warning, found = some warning → warning.type = .existingLicense)
    (hfoundRow : ∀ warning, foundRow = some warning → warning.type = .importRow)
    : ((∃ warning ∈ found.toList ++ foundRow.toList, warning.type = .existingLicense)
        ↔ found.isSome = true)
      ∧ ((∃ warning ∈ found.toList ++ foundRow.toList, warning.type = .importRow)
        ↔ foundRow.isSome = true) := by
  rcases found with _ | warning <;> rcases foundRow with _ | warning'
  · simp
  · simp [hfoundRow warning' rfl]
  · simp [hfound warning rfl]
  · simp [hfound warning rfl, hfoundRow warning' rfl]

theorem existingLicenses_keys
    : ∀ a ∈ existingLicenses u s rows, ∀ b ∈ existingLicenses u s rows, a.1 = b.1 → a = b := by
  intro a ha b hb hid
  have ha' := Table.get?_eq_some.2 (of_mem_existingLicenses ha).1
  have hb' := Table.get?_eq_some.2 (of_mem_existingLicenses hb).1
  rw [hid, hb'] at ha'
  exact Prod.ext hid (Option.some.inj ha').symm

/-- The search among the loaded licences, in whatever order, depends on the stored ones only. -/
theorem scan_isSome_iff {listed : List (Nat × License)}
    (hlisted : listed.Perm (existingLicenses u s rows))
    (hrow : row ∈ rows) (herror : row.isError = false)
    : (scanLicenses u row [] (licenseCandidates u listed row)).isSome = true
      ↔ MatchesLicense u s row
        ∧ (row.importAction = .update
          → (∀ entry ∈ s.licenses.entries, entry.2.isRetired = false
              → CarriesRef u row entry.2 → row.matchedLicenseId = some entry.1)
            ∧ ∃ entry ∈ s.licenses.entries, entry.2.isRetired = false
                ∧ Resembles u row entry.2 ∧ row.matchedLicenseId ≠ some entry.1) := by
  have hmem : ∀ entry, entry ∈ listed →
      entry ∈ s.licenses.entries ∧ entry.2.isRetired = false :=
    fun entry h => of_mem_existingLicenses (hlisted.mem_iff.1 h)
  have hof : ∀ entry ∈ s.licenses.entries, entry.2.isRetired = false →
      CarriesRef u row entry.2 ∨ Resembles u row entry.2 → entry ∈ listed :=
    fun entry hentry hretired h =>
      hlisted.mem_iff.2 (mem_existingLicenses_of_match hrow herror hentry hretired h)
  have hkeys : ∀ a ∈ listed, ∀ b ∈ listed, a.1 = b.1 → a = b := fun a ha b hb =>
    existingLicenses_keys a (hlisted.mem_iff.1 ha) b (hlisted.mem_iff.1 hb)
  by_cases hupdate : row.importAction = .update
  · rw [scan_update hkeys hupdate]
    constructor
    · rintro ⟨hown, entry, hentry, hresembles, hother⟩
      have hstored := hmem entry hentry
      refine ⟨⟨entry, hstored.1, hstored.2, .inr hresembles,
        fun _ hcarries => hother (hown entry hentry hcarries)⟩, fun _ => ⟨?_, ?_⟩⟩
      · intro entry hentry hretired hcarries
        exact hown entry (hof entry hentry hretired (.inl hcarries)) hcarries
      · exact ⟨entry, hstored.1, hstored.2, hresembles, hother⟩
    · rintro ⟨-, hundisturbed⟩
      obtain ⟨hown, entry, hentry, hretired, hresembles, hother⟩ := hundisturbed hupdate
      refine ⟨?_, entry, hof entry hentry hretired (.inr hresembles), hresembles, hother⟩
      exact fun entry hentry hcarries => hown entry (hmem entry hentry).1 (hmem entry hentry).2
        hcarries
  · rw [scan_newRecord hkeys hupdate]
    constructor
    · rintro ⟨entry, hentry, hmatch⟩
      have hstored := hmem entry hentry
      exact ⟨⟨entry, hstored.1, hstored.2, hmatch, fun h => absurd h hupdate⟩,
        fun h => absurd h hupdate⟩
    · rintro ⟨⟨entry, hentry, hretired, hmatch, -⟩, -⟩
      exact ⟨entry, hof entry hentry hretired hmatch, hmatch⟩

/-- The warnings about a file are complete just if the search of no row is disturbed by another
licence of the row's own reference.
-/
theorem warningsComplete_iff (u : Unicode) (s : Store) (rows : List ImportRow)
    : WarningsComplete u s rows
      ↔ ∀ row ∈ rows, row.isError = false → SearchUndisturbed u s row := by
  constructor
  · intro hcomplete row hrow herror hupdate hothers
    have hwarned : (row,
        (scanLicenses u row [] (licenseCandidates u (existingLicenses u s rows) row)).toList
          ++ (scanRows u row (rowCandidates u rows row)).toList)
        ∈ addDuplicateWarnings u s rows := by
      rw [addDuplicateWarnings]
      exact List.mem_map.2 ⟨row, hrow, if_neg (by simp [herror])⟩
    have hflag := (exists_warning_iff (fun _ => scanLicenses_type)
      (fun _ => scanRows_type)).1.symm.trans (hcomplete.license _ hwarned herror)
    have hmatch : MatchesLicense u s row := by
      obtain ⟨entry, hentry, hretired, hresembles, hcarries⟩ := hothers
      exact ⟨entry, hentry, hretired, .inr hresembles, fun _ => hcarries⟩
    exact ((scan_isSome_iff (List.Perm.refl _) hrow herror).1 (hflag.2 hmatch)).2 hupdate
  · intro hundisturbed
    refine
      {
        license := fun warned hwarned herror => ?_
        earlierRow := fun warned hwarned herror => ?_
        anyOrder := fun listed hlisted row hrow herror => ?_
      }
    · obtain ⟨hrow, heq⟩ := mem_addDuplicateWarnings hwarned herror
      rw [heq, (exists_warning_iff (fun _ => scanLicenses_type) (fun _ => scanRows_type)).1,
        scan_isSome_iff (List.Perm.refl _) hrow herror]
      refine and_iff_left_of_imp fun hmatch hupdate => hundisturbed _ hrow herror hupdate ?_
      obtain ⟨entry, hentry, hretired, hrule, hcarries⟩ := hmatch
      exact ⟨entry, hentry, hretired, hrule.resolve_left (hcarries hupdate), hcarries hupdate⟩
    · obtain ⟨hrow, heq⟩ := mem_addDuplicateWarnings hwarned herror
      rw [heq, (exists_warning_iff (fun _ => scanLicenses_type) (fun _ => scanRows_type)).2]
      exact scanRows_rowCandidates
    · rw [Bool.eq_iff_iff, scan_isSome_iff hlisted hrow herror,
        scan_isSome_iff (List.Perm.refl _) hrow herror]

/-- Two terms of one chain under `LT-1`, and another licence of the same software and contract. -/
def chainAndTwin : Store where
  licenses :=
    ((Table.empty.insert
      { License.ofTerm .subscription (some 1) (some 100) with
        licenseRef := some "LT-1"
        renewedToId := some 2 }).insert
      { License.ofTerm .subscription (some 101) (some 200) with
        licenseRef := some "LT-1"
        predecessorId := some 1 }).insert
      { License.ofTerm .subscription (some 101) (some 200) with
        publisherName := "Acme"
        softwareDescription := "Editor"
        contractNumber := "C-7"
        licenseRef := some "LT-2" }

/-- The row of a file that updates the newest term of the chain. -/
def chainUpdate : ImportRow where
  publisherName := "Acme"
  softwareDescription := "Editor"
  contractNumber := "C-7"
  licenseRef := some "LT-1"
  rowNumber := 2
  importAction := .update
  matchedLicenseId := some 2

/-- The other licence matches the row, but the search has ended at the earlier term. -/
theorem not_warningsComplete_chainUpdate
    : ¬WarningsComplete .ascii chainAndTwin [chainUpdate] := by
  intro hcomplete
  have hwarned : (chainUpdate,
      (scanLicenses .ascii chainUpdate [] (licenseCandidates .ascii
          (existingLicenses .ascii chainAndTwin [chainUpdate]) chainUpdate)).toList
        ++ (scanRows .ascii chainUpdate (rowCandidates .ascii [chainUpdate] chainUpdate)).toList)
      ∈ addDuplicateWarnings .ascii chainAndTwin [chainUpdate] := List.mem_singleton.2 rfl
  have hmatch : MatchesLicense .ascii chainAndTwin chainUpdate :=
    ⟨(3, _), List.mem_cons_of_mem _ (List.mem_cons_of_mem _ List.mem_cons_self), rfl,
      .inr (by rw [Resembles]; decide +kernel), fun _ => by decide +kernel⟩
  have hfound := (exists_warning_iff (fun _ => scanLicenses_type)
    (fun _ => scanRows_type)).1.1 ((hcomplete.license _ hwarned rfl).2 hmatch)
  have hnone : scanLicenses .ascii chainUpdate [] (licenseCandidates .ascii
      (existingLicenses .ascii chainAndTwin [chainUpdate]) chainUpdate) = none := by
    decide +kernel
  rw [hnone] at hfound
  cases hfound

end Import

end LicenseTrack
