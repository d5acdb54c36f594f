import LicenseTrack.Import.RowEffect
import LicenseTrack.Services.ImportRun
import LicenseTrack.Support.Requests

/-! The purchase-order lines of an import: what each row of the run does to the register of issued
numbers.
-/

namespace LicenseTrack

open Library

theorem foldr_max_le_iff {numbers : List Nat} {bound : Nat}
    : numbers.foldr max 0 ≤ bound ↔ ∀ n ∈ numbers, n ≤ bound := by
  induction numbers with
  | nil => simp
  | cons head rest ih => simp [ih]

theorem foldr_max_congr {a b : List Nat} (h : ∀ n, n ∈ a ↔ n ∈ b)
    : a.foldr max 0 = b.foldr max 0 := by
  apply Nat.le_antisymm
  · exact foldr_max_le_iff.mpr fun n hn => foldr_max_le_iff.mp le_rfl n ((h n).mp hn)
  · exact foldr_max_le_iff.mpr fun n hn => foldr_max_le_iff.mp le_rfl n ((h n).mpr hn)

theorem freeNumber_congr {a b : List Nat} (h : ∀ n, n ∈ a ↔ n ∈ b) (requested : Option Nat)
    : freeNumber a requested = freeNumber b requested := by
  have hcontains : ∀ n, a.contains n = b.contains n := fun n => by
    rw [Bool.eq_iff_iff, List.contains_iff_mem, List.contains_iff_mem, h n]
  cases requested with
  | none => simp only [freeNumber, foldr_max_congr h]
  | some n => simp only [freeNumber, foldr_max_congr h, hcontains n]

theorem freeNumber_not_mem (taken : List Nat) (requested : Option Nat)
    : freeNumber taken requested ∉ taken := by
  have hnext : taken.foldr max 0 + 1 ∉ taken := fun hmem =>
    absurd (foldr_max_le_iff.mp le_rfl _ hmem) (by omega)
  unfold freeNumber
  split
  · split_ifs with hfree
    · simp only [Bool.and_eq_true, Bool.not_eq_true', decide_eq_true_eq, List.contains_eq_mem,
        decide_eq_false_iff_not] at hfree
      exact hfree.2
    · exact hnext
  · exact hnext

/-- The numbers that are issued beside the given ones. -/
def otherNumbers (given issued : List Nat) : List Nat :=
  issued.filter (fun n => !given.contains n)

theorem mem_otherNumbers {given issued : List Nat} {n : Nat}
    : n ∈ otherNumbers given issued ↔ n ∈ issued ∧ n ∉ given := by
  simp [otherNumbers]

/-- Some issued numbers do not matter for a request: they are not the one it names, where that is
free beside them, and none is above all others, where it takes the next number.
-/
def DoNotMatter (given issued : List Nat) (requested : Option Nat) : Prop :=
  match requested with
  | some n =>
      if 0 < n ∧ n ∉ otherNumbers given issued then n ∉ given
      else ∀ m ∈ given, m ≤ (otherNumbers given issued).foldr max 0
  | none => ∀ m ∈ given, m ≤ (otherNumbers given issued).foldr max 0

instance (given issued : List Nat) (requested : Option Nat)
    : Decidable (DoNotMatter given issued requested) := by
  unfold DoNotMatter
  split <;> infer_instance

theorem highest_eq_iff {given issued : List Nat} (hgiven : ∀ n ∈ given, n ∈ issued)
    : (otherNumbers given issued).foldr max 0 = issued.foldr max 0
      ↔ ∀ m ∈ given, m ≤ (otherNumbers given issued).foldr max 0 := by
  constructor
  · intro he m hm
    rw [he]
    exact foldr_max_le_iff.mp le_rfl m (hgiven m hm)
  · intro hbelow
    apply Nat.le_antisymm
    · exact foldr_max_le_iff.mpr fun n hn =>
        foldr_max_le_iff.mp le_rfl n (mem_otherNumbers.mp hn).1
    · refine foldr_max_le_iff.mpr fun n hn => ?_
      by_cases hmem : n ∈ given
      · exact hbelow n hmem
      · exact foldr_max_le_iff.mp le_rfl n (mem_otherNumbers.mpr ⟨hn, hmem⟩)

theorem freeNumber_eq_iff {given issued : List Nat} (hgiven : ∀ n ∈ given, n ∈ issued)
    (requested : Option Nat)
    : freeNumber (otherNumbers given issued) requested = freeNumber issued requested
      ↔ DoNotMatter given issued requested := by
  have hnext : (otherNumbers given issued).foldr max 0 + 1 = issued.foldr max 0 + 1
      ↔ ∀ m ∈ given, m ≤ (otherNumbers given issued).foldr max 0 := by
    rw [Nat.add_right_cancel_iff, highest_eq_iff hgiven]
  cases requested with
  | none => exact hnext
  | some n =>
      simp only [freeNumber, DoNotMatter, Bool.and_eq_true, Bool.not_eq_true', decide_eq_true_eq,
        List.contains_eq_mem, decide_eq_false_iff_not]
      by_cases hfree : 0 < n ∧ n ∉ otherNumbers given issued
      · rw [if_pos hfree, if_pos hfree]
        by_cases hmem : n ∈ given
        · -- The number is taken, so the run goes above everything issued.
          have hissued := hgiven n hmem
          have hle := foldr_max_le_iff.mp le_rfl n hissued
          rw [if_neg (fun hc => hc.2 hissued)]
          exact ⟨fun he => absurd he (by omega), fun hn => absurd hmem hn⟩
        · have hnot : n ∉ issued := fun hissued =>
            hfree.2 (mem_otherNumbers.mpr ⟨hissued, hmem⟩)
          rw [if_pos ⟨hfree.1, hnot⟩]
          exact ⟨fun _ => hmem, fun _ => rfl⟩
      · have htaken : ¬ (0 < n ∧ n ∉ issued) := fun hc =>
          hfree ⟨hc.1, fun hmem => hc.2 (mem_otherNumbers.mp hmem).1⟩
        rw [if_neg hfree, if_neg hfree, if_neg htaken]
        exact hnext

theorem issuedNumbers_congr {s t : Store} (h : t.poLines = s.poLines) (poKey : String)
    : issuedNumbers t poKey = issuedNumbers s poKey := by
  unfold issuedNumbers
  rw [h]

@[simp] theorem issuedNumbers_modifyLicense (s : Store) (id : Nat) (f : License → License)
    (poKey : String)
    : issuedNumbers (s.modifyLicense id f) poKey = issuedNumbers s poKey := rfl

theorem mem_issuedNumbers_insert {s t : Store} {line : PoLineRegister}
    (h : t.poLines = s.poLines.insert line) {poKey : String} {n : Nat}
    : n ∈ issuedNumbers t poKey
      ↔ n ∈ issuedNumbers s poKey ∨ poKey = line.poKey ∧ n = line.lineNumber := by
  unfold issuedNumbers
  rw [h, Table.insert, List.filter_append, List.map_append, List.mem_append]
  by_cases hkey : line.poKey = poKey
  · simp [hkey]
  · simp [hkey, Ne.symm hkey]

theorem allocateLine_poLines (u : Unicode) (poNumber : String) (requested : Option Nat)
    (s : Store)
    : (allocateLine u poNumber requested s).2.poLines
      = s.poLines.insert
          {
            poKey := u.normalizePoNumber poNumber
            poNumber := joinWords poNumber
            lineNumber :=
              freeNumber (issuedNumbers s (u.normalizePoNumber poNumber)) requested
          } := by
  cases requested <;> rfl

/-- The number of the line that a licence holds. -/
def Store.heldLine (s : Store) (id : Nat) : Option Nat :=
  (((s.license? id).bind (·.poLineId)).bind s.poLines.get?).map (·.lineNumber)

/-- A step that leaves the register, and the licences as far as the view shows them. -/
structure SameRegister {β : Type} (view : License → β) (s t : Store) : Prop where
  rows : s.licenses.Agrees view t.licenses
  register : t.poLines = s.poLines

namespace SameRegister

variable {β : Type} {view : License → β} {s t v : Store}

theorem refl (s : Store) : SameRegister view s s := ⟨Table.Agrees.refl _ _, rfl⟩

theorem trans (h : SameRegister view s t) (h' : SameRegister view t v) : SameRegister view s v :=
  ⟨h.rows.trans h'.rows, h'.register.trans h.register⟩

theorem of_modify {id : Nat} {f : License → License} (h : ∀ l, view (f l) = view l)
    : SameRegister view s (s.modifyLicense id f) :=
  ⟨Table.Agrees.of_modify h, rfl⟩

theorem stays (h : SameRegister view s t) (id : Nat)
    : (t.license? id).isSome = (s.license? id).isSome := by
  simpa [Store.license?] using congrArg Option.isSome (h.rows id)

theorem heldLine {s t : Store} (h : SameRegister (·.poLineId) s t) (id : Nat)
    : t.heldLine id = s.heldLine id := by
  have hrow := h.rows id
  unfold Store.heldLine
  rw [h.register]
  change (t.license? id).map _ = (s.license? id).map _ at hrow
  rcases hs : s.license? id with _ | l <;> rcases ht : t.license? id with _ | l'
  · rfl
  · simp [hs, ht] at hrow
  · simp [hs, ht] at hrow
  · rw [hs, ht, Option.map_some, Option.map_some, Option.some.injEq] at hrow
    simp [hrow]

end SameRegister

theorem OnlyMaintenance.sameRegister {s t : Store} (h : OnlyMaintenance s t)
    : SameRegister (fun _ => ()) s t :=
  ⟨h.core.coarsen (fun _ => ()), by rw [h.rest]⟩

-- New records

theorem activateMaintenanceForParent_register {env : Env} {maintenanceId parentId : Nat}
    {s t : Store} (h : activateMaintenanceForParent env maintenanceId parentId s = .ok t)
    : SameRegister (·.poLineId) s t := by
  obtain ⟨-, -, history, rfl, -⟩ := activateMaintenanceForParent_ok h
  refine ⟨Table.Agrees.of_mapRows fun id l => ?_, rfl⟩
  unfold activatedRow
  split_ifs <;> rfl

theorem activateImported_register {env : Env} {progress : ImportProgress} {id : Nat}
    {license : License} {refs : List String} {s t : Store}
    (h : activateImported env progress id license refs s = .ok t)
    : SameRegister (·.poLineId) s t := by
  unfold activateImported at h
  split at h
  · have hfurther : ∀ {a b : Store}, each (activateImportedParent env progress id) refs a = .ok b
        → SameRegister (·.poLineId) a b := fun hloop => by
      refine each_relates SameRegister.refl SameRegister.trans (fun ref _ a b hab => ?_) hloop
      unfold activateImportedParent at hab
      split at hab
      · obtain ⟨_, -, hab⟩ := bind_eq_ok.mp hab
        exact activateMaintenanceForParent_register hab
      · obtain ⟨_, -, hab⟩ := bind_eq_ok.mp hab
        exact activateMaintenanceForParent_register hab
    split at h
    · obtain ⟨v, hfirst, hrest⟩ := bind_eq_ok.mp h
      exact (activateMaintenanceForParent_register hfirst).trans (hfurther hrest)
    · obtain ⟨v, hsame, hrest⟩ := bind_eq_ok.mp h
      obtain rfl := pure_eq_ok.mp hsame
      exact hfurther hrest
  · obtain rfl := Except.ok.inj h
    exact .refl s

theorem buildLicense_purchase {u : Unicode} {s : Store} {row : ParsedRow}
    {parentOverride : Option Nat} {license : License}
    (h : buildLicense u s row parentOverride = .ok license)
    : license.poNumber = row.poNumber ∧ license.poLineId = none
      ∧ license.sourceSourcingItemId = none := by
  simp only [buildLicense, bind_eq_ok, pure_eq_ok] at h
  obtain ⟨-, -, _, -, _, -, rfl⟩ := h
  exact ⟨rfl, rfl, rfl⟩

theorem syncLicenseLine_first {u : Unicode} {id : Nat} {requested : Option Nat} {s : Store}
    {l : License} (hl : s.license? id = some l) (hline : l.poLineId = none)
    (hsource : l.sourceSourcingItemId = none)
    : syncLicenseLine u id requested s
      = if u.normalizePoNumber l.poNumber = "" then
          s.modifyLicense id (fun l => { l with poLineId := none })
        else
          (allocateLine u l.poNumber requested s).2.modifyLicense id
            (fun l => { l with poLineId := some s.poLines.nextKey }) := by
  have hnone : sourceLine? s l (u.normalizePoNumber l.poNumber) = none := by
    simp [sourceLine?, hsource]
  unfold syncLicenseLine
  rw [hl]
  simp only [hline, Option.bind_none, Option.map_none, reduceCtorEq, if_false, hnone,
    Option.or_none]
  rfl

/-- The number that a new record gets on its purchase order, none where it names none. -/
def newLine (u : Unicode) (s : Store) (row : ParsedRow) : Option Nat :=
  if u.normalizePoNumber row.poNumber = "" then none
  else some (freeNumber (issuedNumbers s (u.normalizePoNumber row.poNumber)) row.poLineNumber)

/-- What a row does to the register and to the licences that stand. -/
structure Issues (issued : String → Nat → Prop) (s t : Store) : Prop where
  register : ∀ poKey n, n ∈ issuedNumbers t poKey ↔ n ∈ issuedNumbers s poKey ∨ issued poKey n
  stays : ∀ id, (s.license? id).isSome = true → (t.license? id).isSome = true

theorem isSome_modifyLicense (s : Store) (changed : Nat) (f : License → License) (id : Nat)
    : ((s.modifyLicense changed f).license? id).isSome = (s.license? id).isSome := by
  rw [Store.license?_modifyLicense]
  split <;> simp

/-- The number that a new record on a purchase order issues. -/
def IssuedTo (u : Unicode) (s : Store) (row : ParsedRow) (poKey : String) (n : Nat) : Prop :=
  poKey = u.normalizePoNumber row.poNumber ∧ newLine u s row = some n

theorem syncLicenseLine_issues {u : Unicode} {id : Nat} {row : ParsedRow} {s : Store} {l : License}
    (hl : s.license? id = some l) (hline : l.poLineId = none)
    (hsource : l.sourceSourcingItemId = none) (hpo : l.poNumber = row.poNumber)
    : (syncLicenseLine u id row.poLineNumber s).heldLine id = newLine u s row
      ∧ Issues (IssuedTo u s row) s (syncLicenseLine u id row.poLineNumber s) := by
  rw [syncLicenseLine_first hl hline hsource, hpo]
  by_cases hblank : u.normalizePoNumber row.poNumber = ""
  · have hnone : newLine u s row = none := by rw [newLine, if_pos hblank]
    rw [if_pos hblank, hnone]
    refine ⟨?_, ⟨fun poKey n => ?_, fun other hother => ?_⟩⟩
    · rw [Store.heldLine, Store.license?_modifyLicense_self, hl, Option.map_some, Option.bind_some,
        Option.bind_none, Option.map_none]
    · rw [issuedNumbers_modifyLicense]
      exact ⟨.inl, fun hn => hn.resolve_right fun hissued =>
        absurd (hnone.symm.trans hissued.2) (by simp)⟩
    · rw [isSome_modifyLicense]
      exact hother
  · have hsome : newLine u s row = some (freeNumber
        (issuedNumbers s (u.normalizePoNumber row.poNumber)) row.poLineNumber) := by
      rw [newLine, if_neg hblank]
    have hissued := allocateLine_poLines u row.poNumber row.poLineNumber s
    have hlicenses : (allocateLine u row.poNumber row.poLineNumber s).2.licenses = s.licenses := rfl
    rw [if_neg hblank, hsome]
    generalize (allocateLine u row.poNumber row.poLineNumber s).2 = v at hissued hlicenses ⊢
    have hv : v.license? id = some l := (congrArg (·.get? id) hlicenses).trans hl
    refine ⟨?_, ⟨fun poKey n => ?_, fun other hother => ?_⟩⟩
    · have hline := Table.get?_insert s.poLines
        {
          poKey := u.normalizePoNumber row.poNumber
          poNumber := joinWords row.poNumber
          lineNumber := freeNumber (issuedNumbers s (u.normalizePoNumber row.poNumber))
            row.poLineNumber
        } s.poLines.nextKey
      rw [← hissued, if_pos rfl] at hline
      rw [Store.heldLine, Store.license?_modifyLicense_self, hv, Option.map_some, Option.bind_some,
        Option.bind_some]
      exact congrArg (Option.map (·.lineNumber)) hline
    · rw [issuedNumbers_modifyLicense, mem_issuedNumbers_insert hissued, IssuedTo, hsome, Option.some.injEq]
      exact or_congr_right (and_congr_right fun _ => eq_comm)
    · rw [isSome_modifyLicense, Store.license?, hlicenses]
      exact hother

theorem importNewRow_line {env : Env} {progress : ImportProgress} {row : ParsedRow} {s t : Store}
    (h : importNewRow env progress row s = .ok t)
    : t.heldLine s.licenses.nextKey = newLine env.unicode s row
      ∧ Issues (IssuedTo env.unicode s row) s t := by
  obtain ⟨license, marked, hbuild, hmarked, hactivated, -, -⟩ := importNewRow_ok h
  obtain ⟨hpo, hline, hsource⟩ := buildLicense_purchase hbuild
  have hl : ({ s with licenses := s.licenses.insert license } : Store).license? s.licenses.nextKey
      = some license := by
    simp [Store.license?, Table.get?_insert]
  obtain ⟨hheld, hissues⟩ := syncLicenseLine_issues (u := env.unicode) hl hline hsource hpo
  -- What follows the numbering keeps the numbers.
  have hrest : SameRegister (·.poLineId)
      (syncLicenseLine env.unicode s.licenses.nextKey row.poLineNumber
        { s with licenses := s.licenses.insert license }) t := by
    refine SameRegister.trans (t := registerNewRow env row license s) ?_ ?_
    · exact ⟨Table.Agrees.of_modify fun _ => rfl, rfl⟩
    · refine SameRegister.trans ?_ (activateImported_register hactivated)
      rcases hmarked with rfl | ⟨predecessorId, -, rfl⟩
      · exact .refl _
      · exact .of_modify fun _ => rfl
  refine ⟨(hrest.heldLine _).trans hheld, ⟨fun poKey n => ?_, fun other hother => ?_⟩⟩
  · rw [issuedNumbers_congr hrest.register]
    exact hissues.register poKey n
  · rw [hrest.stays]
    apply hissues.stays
    rw [Store.license?, Table.get?_insert]
    split
    · rfl
    · exact hother

theorem importSupport_register {u : Unicode} {id : Nat} {row : ParsedRow} {l : License}
    {s t : Store} (h : importSupport u id row l s = .ok t)
    : SameRegister (fun _ => ()) s t := by
  rcases importSupport_cases h with ⟨-, -, rfl⟩ | rfl
  · exact SameRegister.trans (.of_modify fun _ => rfl)
      (recordIncludedSupportExit_only u id _ _).sameRegister
  · exact .refl _

theorem applyImportUpdate_register {u : Unicode} {id : Nat} {row : ParsedRow} {l : License}
    {s t : Store} (h : applyImportUpdate u id row l s = .ok t)
    : SameRegister (fun _ => ()) s t := by
  obtain ⟨f, imported, -, -, himported, rfl⟩ := applyImportUpdate_ran h
  have hwritten : SameRegister (fun _ => ()) s (s.modifyLicense id f) :=
    .of_modify (f := f) fun _ => rfl
  have hdefaulted : SameRegister (fun _ => ()) imported
      (imported.modifyLicense id (syncSupportDefaults u)) :=
    .of_modify (f := syncSupportDefaults u) fun _ => rfl
  have hdefaults := (hwritten.trans (importSupport_register himported)).trans hdefaulted
  split
  · exact hdefaults.trans (OnlyMaintenance.foldl
      (fun s parentId => syncParentMirrorFields_only u parentId s) _ _).sameRegister
  · exact hdefaults

/-- The numbers that appeared on a purchase order between two stores. -/
def addedNumbers (s t : Store) (poKey : String) : List Nat :=
  otherNumbers (issuedNumbers s poKey) (issuedNumbers t poKey)

theorem syncLicenseLine_grows (u : Unicode) (id : Nat) (requested : Option Nat) (s : Store)
    {poKey : String} {n : Nat} (hn : n ∈ issuedNumbers s poKey)
    : n ∈ issuedNumbers (syncLicenseLine u id requested s) poKey := by
  unfold syncLicenseLine
  split
  · exact hn
  · dsimp only
    split_ifs
    · exact hn
    · exact hn
    · split
      · exact hn
      · rw [issuedNumbers_modifyLicense,
          mem_issuedNumbers_insert (allocateLine_poLines u _ _ s)]
        exact .inl hn

theorem importUpdateRow_line {env : Env} {id : Nat} {row : ParsedRow} {s t : Store}
    (h : importUpdateRow env id row s = .ok t)
    : Issues (fun poKey n => n ∈ addedNumbers s t poKey) s t := by
  simp only [importUpdateRow, bind_eq_ok, found_eq_ok, flush_eq_ok] at h
  obtain ⟨l, -, v, hupdate, rfl, -⟩ := h
  have hupdated := applyImportUpdate_register hupdate
  refine ⟨fun poKey n => ?_, fun other hother => ?_⟩
  · rw [addedNumbers, mem_otherNumbers]
    constructor
    · intro hn
      by_cases hs : n ∈ issuedNumbers s poKey
      · exact .inl hs
      · exact .inr ⟨hn, hs⟩
    · rintro (hn | ⟨hn, -⟩)
      · rw [← issuedNumbers_congr hupdated.register] at hn
        exact syncLicenseLine_grows env.unicode id none v hn
      · exact hn
  · have hkept := hupdated.stays other
    rw [hother] at hkept
    have hnumbered := congrArg Option.isSome
      ((syncLicenseLine_only env.unicode id none v).rows other)
    rw [Option.isSome_map, Option.isSome_map] at hnumbered
    exact hnumbered.trans hkept

end LicenseTrack
