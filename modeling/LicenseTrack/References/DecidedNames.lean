import LicenseTrack.References.Naming
import LicenseTrack.Services.ImportReferences

/-! What resolving names under the decisions of an import does to one directory. The records that it
holds beside those before the import are active, without aliases, and named as an undecided candidate
or as a display name that a candidate was accepted under.
-/

namespace LicenseTrack.References

open Library

namespace Directory

variable {ρ : Type} {d t : Directory ρ} {u : Unicode} {ratio : String → String → Rat}

theorem mem_referenceRecords {entry : Nat × Reference ρ}
    : entry ∈ d.referenceRecords ↔ d.records.get? entry.1 = some entry.2 := by
  rw [referenceRecords, List.mem_insertionSort, Table.get?_eq_some]

theorem mem_aliasesOf {id : Nat} {a : Alias}
    : a ∈ d.aliasesOf id ↔ a.ownerId = id ∧ ∃ aliasId, d.aliases.get? aliasId = some a := by
  simp only [aliasesOf, List.mem_filter, List.mem_map, beq_iff_eq, Table.get?_eq_some]
  constructor
  · rintro ⟨⟨⟨aliasId, _⟩, hentry, rfl⟩, howner⟩
    exact ⟨howner, aliasId, hentry⟩
  · rintro ⟨howner, aliasId, hentry⟩
    exact ⟨⟨(aliasId, a), hentry, rfl⟩, howner⟩

theorem names_iff_bears {id : Nat} {r : Reference ρ} (hr : d.records.get? id = some r) {key : String}
    : d.Names key id ↔ (r.normalizedName == key
        || (d.aliasesOf id).any (·.normalizedName == key)) = true := by
  simp only [Names, hr, Option.some.injEq, exists_eq_left', Bool.or_eq_true, beq_iff_eq,
    List.any_eq_true, mem_aliasesOf]
  refine or_congr_right ⟨?_, ?_⟩
  · rintro ⟨aliasId, a, ha, howner, hkey⟩
    exact ⟨a, ⟨howner, aliasId, ha⟩, hkey⟩
  · rintro ⟨a, ⟨howner, aliasId, ha⟩, hkey⟩
    exact ⟨aliasId, a, ha, howner, hkey⟩

theorem matchRecord_some {key : String} {id : Nat} {r : Reference ρ}
    (h : d.matchRecord key = some (id, r))
    : d.records.get? id = some r ∧ d.Names key id := by
  have hr : d.records.get? id = some r := mem_referenceRecords.mp (List.mem_of_find?_eq_some h)
  have hbears := List.find?_some h
  exact ⟨hr, (names_iff_bears hr).mpr hbears⟩

theorem matchRecord_none (hd : d.Owned) {key : String} (h : d.matchRecord key = none) (id : Nat)
    : ¬d.Names key id := by
  intro hnames
  obtain ⟨r, hr⟩ : ∃ r, d.records.get? id = some r := by
    rcases hnames with ⟨r, hr, -⟩ | ⟨aliasId, a, ha, rfl, -⟩
    · exact ⟨r, hr⟩
    · exact hd aliasId a ha
  have hnot := List.find?_eq_none.mp h (id, r) (mem_referenceRecords.mpr hr)
  exact hnot ((names_iff_bears hr).mp hnames)

theorem le_foldl_max {α : Type} (f : α → Rat) (list : List α) (score : Rat)
    : score ≤ list.foldl (fun best a => max best (f a)) score := by
  induction list generalizing score with
  | nil => exact le_refl score
  | cons a rest ih => exact (le_max_left score (f a)).trans (ih _)

theorem similarityScore_le (key : String) (entry : Nat × Reference ρ)
    : similarityScore ratio key entry.2.normalizedName
      ≤ d.recordSimilarityScore ratio key entry :=
  le_foldl_max _ _ _

theorem possibleMatches_isEmpty {key : String}
    : (d.possibleMatches ratio key).isEmpty = true
      ↔ ∀ id r, d.records.get? id = some r
        → d.recordSimilarityScore ratio key (id, r) < similarityThreshold := by
  have hempty : ∀ list : List (Nat × Reference ρ),
      ((list.insertionSort (fun a b =>
        d.recordSimilarityScore ratio key b < d.recordSimilarityScore ratio key a
          ∨ d.recordSimilarityScore ratio key a = d.recordSimilarityScore ratio key b
            ∧ a.2.name ≤ b.2.name)).take 3).isEmpty = true ↔ list = [] := by
    intro list
    rw [List.isEmpty_iff, List.take_eq_nil_iff]
    constructor
    · rintro (h | h)
      · exact absurd h (by decide)
      · simpa [List.length_insertionSort] using congrArg List.length h
    · rintro rfl
      exact .inr rfl
  rw [possibleMatches, hempty, List.filter_eq_nil_iff]
  constructor
  · intro h id r hr
    simpa using h (id, r) (mem_referenceRecords.mpr hr)
  · intro h entry hentry
    simpa using h entry.1 entry.2 (mem_referenceRecords.mp hentry)

end Directory

-- Grown directories

/-- The canonical name of a record and whether it is active. -/
def Reference.standing {ρ : Type} (r : Reference ρ) : String × String × Bool :=
  (r.name, r.normalizedName, r.isActive)

/-- A directory after some names of an import were resolved: `undecided` are the names of candidates
without a decision, `accepted` the display names that candidates were accepted under.
-/
structure Directory.Grown {ρ : Type} (undecided accepted : List String) (d₀ d : Directory ρ)
    : Prop where
  sound : d.Sound
  aliases : d.aliases = d₀.aliases
  kept : ∀ id r, d₀.records.get? id = some r
    → ∃ r', d.records.get? id = some r' ∧ r'.standing = r.standing
  added : ∀ id r, d.records.get? id = some r → d₀.records.get? id = none
    → r.isActive = true ∧ (r.normalizedName ∈ undecided ∨ r.normalizedName ∈ accepted)

/-- No record that is stored under an accepted display name is similar to the name. -/
def Directory.ClearOfAccepted {ρ : Type} (d : Directory ρ) (ratio : String → String → Rat)
    (accepted : List String) (key : String)
    : Prop :=
  ∀ entry ∈ d.records.entries, entry.2.normalizedName ∈ accepted
    → similarityScore ratio key entry.2.normalizedName < similarityThreshold

instance {ρ : Type} (d : Directory ρ) (ratio : String → String → Rat) (accepted : List String)
    (key : String)
    : Decidable (d.ClearOfAccepted ratio accepted key) := by
  unfold Directory.ClearOfAccepted
  infer_instance

namespace Directory.Grown

variable {ρ : Type} {undecided accepted : List String} {d₀ d t : Directory ρ} {u : Unicode}
  {ratio : String → String → Rat} {referenceTexts : ReferenceTexts}

theorem start (hd : d₀.Sound) : Grown undecided accepted d₀ d₀ where
  sound := hd
  aliases := rfl
  kept := fun _ r hr => ⟨r, hr, rfl⟩
  added := fun id r hr hnone => by simp [hnone] at hr

theorem names_before (h : Grown undecided accepted d₀ d) {id : Nat} {r : Reference ρ}
    (hr : d₀.records.get? id = some r) {key : String} (hnames : d.Names key id)
    : d₀.Names key id := by
  obtain ⟨r', hr', hsame⟩ := h.kept id r hr
  simp only [Reference.standing, Prod.mk.injEq] at hsame
  rcases hnames with ⟨r'', hr'', hkey⟩ | halias
  · obtain rfl : r' = r'' := Option.some.inj (hr'.symm.trans hr'')
    exact .inl ⟨r, hr, hsame.2.1 ▸ hkey⟩
  · rw [h.aliases] at halias
    exact .inr halias

theorem find_active (h : Grown undecided accepted d₀ d) {key : String}
    (hactive : ∀ id r, d₀.records.get? id = some r → d₀.Names key id → r.isActive = true)
    {id : Nat} {r : Reference ρ} (hfound : d.find key = some (id, r))
    : r.isActive = true := by
  obtain ⟨hr, hnames⟩ := find_some hfound
  rcases hbefore : d₀.records.get? id with _ | r₀
  · exact (h.added id r hr hbefore).1
  · obtain ⟨r', hr', hsame⟩ := h.kept id r₀ hbefore
    obtain rfl : r = r' := Option.some.inj (hr.symm.trans hr')
    simp only [Reference.standing, Prod.mk.injEq] at hsame
    exact hsame.2.2.trans (hactive id r₀ hbefore (h.names_before hbefore hnames))

theorem touched (h : Grown undecided accepted d₀ d) (touch : ρ → ρ) (id : Nat)
    : Grown undecided accepted d₀ (d.touched touch id) where
  sound := h.sound.modifyRecord fun _ => rfl
  aliases := h.aliases
  kept := fun other r hr => by
    obtain ⟨r', hr', hsame⟩ := h.kept other r hr
    refine ⟨_, by rw [Directory.touched, Table.get?_modify, hr', Option.map_some], ?_⟩
    split
    · exact hsame
    · exact hsame
  added := fun other r hr hnone => by
    rw [Directory.touched, Table.get?_modify] at hr
    obtain ⟨r', hr', rfl⟩ := Option.map_eq_some_iff.mp hr
    obtain ⟨hactive, hname⟩ := h.added other r' hr' hnone
    split
    · exact ⟨hactive, hname⟩
    · exact ⟨hactive, hname⟩

theorem names_touched {touch : ρ → ρ} {id : Nat} {key : String} {other : Nat}
    : (d.touched touch id).Names key other ↔ d.Names key other :=
  names_modifyRecord (f := fun r => { r with roles := touch r.roles }) fun _ => rfl

theorem inserted (h : Grown undecided accepted d₀ d) {r : Reference ρ} (hactive : r.isActive = true)
    (hname : r.normalizedName ∈ undecided ∨ r.normalizedName ∈ accepted)
    (hsound : Directory.Sound { d with records := d.records.insert r })
    : Grown undecided accepted d₀ { d with records := d.records.insert r } where
  sound := hsound
  aliases := h.aliases
  kept := fun id r₀ hr₀ => by
    obtain ⟨r', hr', hsame⟩ := h.kept id r₀ hr₀
    refine ⟨r', ?_, hsame⟩
    rw [Table.get?_insert, if_neg (Nat.ne_of_lt (Table.lt_nextKey_of_get? hr')), hr']
  added := fun id r' hr' hnone => by
    rw [Table.get?_insert] at hr'
    split at hr'
    · obtain rfl := Option.some.inj hr'
      exact ⟨hactive, hname⟩
    · exact h.added id r' hr' hnone

theorem resolve (h : Grown undecided accepted d₀ d) {touch : ρ → ρ} {roles : ρ} {value : String}
    (hname : d.find (nameKey u value) = none → nameKey u value ∈ undecided
      ∨ nameKey u value ∈ accepted)
    {id : Nat} (hresolve : d.resolve u referenceTexts touch roles true value = .ok (id, t))
    : Grown undecided accepted d₀ t ∧ t.Names (nameKey u value) id
      ∧ ∀ key other, d.Names key other → t.Names key other := by
  have hsound := h.sound.resolve hresolve
  simp only [Directory.resolve, bind_eq_ok, cleanName_eq_ok] at hresolve
  obtain ⟨_, ⟨-, rfl⟩, hresolve⟩ := hresolve
  split at hresolve
  · next id' r hfound =>
      simp only [bind_eq_ok, require_eq_ok, pure_eq_ok] at hresolve
      obtain ⟨_, -, heq⟩ := hresolve
      obtain ⟨rfl, rfl⟩ := Prod.mk.inj heq
      exact ⟨h.touched touch id', names_touched.mpr (find_some hfound).2,
        fun _ _ hnames => names_touched.mpr hnames⟩
  · next hnone =>
      simp only [bind_eq_ok, require_eq_ok, Directory.flushRecord, pure_eq_ok] at hresolve
      obtain ⟨_, -, _, -, heq⟩ := hresolve
      obtain ⟨rfl, rfl⟩ := Prod.mk.inj heq
      exact ⟨h.inserted rfl (hname hnone) hsound, names_insertRecord.mpr (.inr ⟨rfl, rfl⟩),
        fun _ _ hnames => names_insertRecord.mpr (.inl hnames)⟩

theorem resolve_succeeds (h : Grown undecided accepted d₀ d) (referenceTexts : ReferenceTexts)
    (touch : ρ → ρ) (roles : ρ) {value : String} (hclean : u.cleanReferenceName value ≠ "")
    (hactive : ∀ id r, d.find (nameKey u value) = some (id, r) → r.isActive = true)
    : ∃ id t, d.resolve u referenceTexts touch roles true value = .ok (id, t) := by
  have hcleaned : cleanName u value = .ok (u.cleanReferenceName value) :=
    cleanName_eq_ok.mpr ⟨hclean, rfl⟩
  rw [Directory.resolve, hcleaned, ok_bind]
  rcases hfound : d.find (nameKey u value) with _ | ⟨id, r⟩
  · have hfree : d.records.select (fun _ other =>
        other.normalizedName == u.normalizeReferenceName (u.cleanReferenceName value)) = [] := by
      refine List.eq_nil_iff_forall_not_mem.mpr fun id hid => ?_
      obtain ⟨r, hr, hkey⟩ := Table.mem_select.mp hid
      exact find_none h.sound.owned hfound id (.inl ⟨r, hr, by simpa [nameKey] using hkey⟩)
    simp only [nameKey] at hfound
    rw [hfound]
    exact ⟨_, _, (require_bind rfl _).trans (require_bind hfree _)⟩
  · have hok := hactive id r hfound
    simp only [nameKey] at hfound
    rw [hfound]
    exact ⟨_, _, require_bind hok _⟩

theorem possibleMatches_iff (hd : d₀.Sound) (h : Grown undecided accepted d₀ d) {key : String}
    (hbefore : (d₀.possibleMatches ratio key).isEmpty = true)
    (hbatch : ∀ other ∈ undecided, other ≠ key
      → similarityScore ratio key other < similarityThreshold)
    (hnone : d.find key = none)
    : (d.possibleMatches ratio key).isEmpty = true ↔ d.ClearOfAccepted ratio accepted key := by
  rw [possibleMatches_isEmpty]
  constructor
  · rintro hlow ⟨id, r⟩ hentry -
    exact (similarityScore_le key (id, r)).trans_lt (hlow id r (Table.get?_eq_some.mpr hentry))
  · intro hclear id r hr
    have haliases : d.aliasesOf id = d₀.aliasesOf id := by rw [aliasesOf, aliasesOf, h.aliases]
    rcases hstored : d₀.records.get? id with _ | r₀
    · have hnoAlias : d.aliasesOf id = [] := by
        rw [haliases]
        refine List.eq_nil_iff_forall_not_mem.mpr fun a ha => ?_
        obtain ⟨rfl, aliasId, ha⟩ := mem_aliasesOf.mp ha
        obtain ⟨r', hr'⟩ := hd.owned aliasId a ha
        simp [hstored] at hr'
      rw [recordSimilarityScore, hnoAlias, List.foldl_nil]
      rcases (h.added id r hr hstored).2 with hundecided | haccepted
      · refine hbatch _ hundecided fun he => ?_
        exact find_none h.sound.owned hnone id (.inl ⟨r, hr, he⟩)
      · exact hclear (id, r) (Table.get?_eq_some.mp hr) haccepted
    · obtain ⟨r', hr', hsame⟩ := h.kept id r₀ hstored
      obtain rfl : r = r' := Option.some.inj (hr.symm.trans hr')
      simp only [Reference.standing, Prod.mk.injEq] at hsame
      have hlow := possibleMatches_isEmpty.mp hbefore id r₀ hstored
      rw [recordSimilarityScore] at hlow ⊢
      rwa [haliases, hsame.2.1]

end Directory.Grown

end LicenseTrack.References
