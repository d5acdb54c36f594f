import LicenseTrack.Import.ParentReferences
import LicenseTrack.References.ValidatedDecisions

/-! A confirmed import under validated decisions. It can only be aborted at a name without a decision
that nobody bears yet, and only by a record that the run itself stored under an accepted display name.
-/

namespace LicenseTrack.References

open Library

variable {u : Unicode} {ratio : String → String → Rat} {decisions : ReferenceDecisions}
  {cells : List ReferenceCell} {tables₀ tables : ReferenceTables}

/-- Both directories after some names of an import were resolved. -/
structure TablesGrown (u : Unicode) (decisions : ReferenceDecisions) (cells : List ReferenceCell)
    (tables₀ tables : ReferenceTables)
    : Prop where
  organizations : Directory.Grown (undecidedNames u decisions cells .organization)
    (acceptedNames u decisions cells .organization) tables₀.organizations tables.organizations
  costCentres : Directory.Grown (undecidedNames u decisions cells .costCentre)
    (acceptedNames u decisions cells .costCentre) tables₀.costCentres tables.costCentres

/-- Every record keeps its names. -/
structure KeepsEveryName (tables tables' : ReferenceTables) : Prop where
  organizations : ∀ key id, tables.organizations.Names key id → tables'.organizations.Names key id
  costCentres : ∀ key id, tables.costCentres.Names key id → tables'.costCentres.Names key id

theorem KeepsEveryName.trans {tables' tables'' : ReferenceTables}
    (h : KeepsEveryName tables tables') (h' : KeepsEveryName tables' tables'')
    : KeepsEveryName tables tables'' where
  organizations := fun key id hnames => h'.organizations key id (h.organizations key id hnames)
  costCentres := fun key id hnames => h'.costCentres key id (h.costCentres key id hnames)

/-- A cell without a decision, whose name nobody bears yet, is clear of the records that are stored
under accepted display names.
-/
def CellClear (u : Unicode) (ratio : String → String → Rat) (decisions : ReferenceDecisions)
    (cells : List ReferenceCell) (tables : ReferenceTables) (cell : ReferenceCell)
    : Prop :=
  decisions (cell.key u) = none
    → match cell.column.kind with
      | .organization => tables.organizations.NameClear ratio
          (acceptedNames u decisions cells .organization) (nameKey u cell.value)
      | .costCentre => tables.costCentres.NameClear ratio
          (acceptedNames u decisions cells .costCentre) (nameKey u cell.value)

/-- The record that a cell leads to. -/
def CellLeadsTo (u : Unicode) (decisions : ReferenceDecisions) (tables : ReferenceTables)
    (cell : ReferenceCell) (id : Nat)
    : Prop :=
  match cell.column.kind with
  | .organization =>
      Directory.LeadsTo u (decisions (cell.key u)) cell.value tables.organizations id
  | .costCentre =>
      Directory.LeadsTo u (decisions (cell.key u)) cell.value tables.costCentres id

theorem CellLeadsTo.mono {tables' : ReferenceTables} (hkeeps : KeepsEveryName tables tables')
    {cell : ReferenceCell} {id : Nat} (h : CellLeadsTo u decisions tables cell id)
    : CellLeadsTo u decisions tables' cell id := by
  unfold CellLeadsTo at h ⊢
  split at h
  · exact h.mono hkeeps.organizations
  · exact h.mono hkeeps.costCentres

theorem CellLeadsTo.unique (hgrown : TablesGrown u decisions cells tables₀ tables)
    {cell other : ReferenceCell} (hkey : other.key u = cell.key u) {id id' : Nat}
    (h : CellLeadsTo u decisions tables cell id) (h' : CellLeadsTo u decisions tables other id')
    : id = id' := by
  have hparts := hkey
  rw [ReferenceCell.key_eq, ReferenceCell.key_eq] at hparts
  obtain ⟨hkind, hname⟩ := Prod.mk.inj hparts
  unfold CellLeadsTo at h h'
  rw [hkey, hkind] at h'
  split at h
  · next hk =>
      rw [hk] at h'
      exact h.unique hgrown.organizations.sound hname h'
  · next hk =>
      rw [hk] at h'
      exact h.unique hgrown.costCentres.sound hname h'

theorem map_succeeds {σ τ : Type} (put : τ → ReferenceTables) {result : Except Failure (σ × τ)}
    : (∃ found t, (fun r => (r.1, put r.2)) <$> result = .ok (found, t))
      ↔ ∃ found d, result = .ok (found, d) := by
  simp only [map_eq_ok]
  constructor
  · rintro ⟨found, t, ⟨found', d⟩, hd, -⟩
    exact ⟨found', d, hd⟩
  · rintro ⟨found, d, hd⟩
    exact ⟨found, put d, (found, d), hd, rfl⟩

theorem resolveCell_resolves (hu : u.CleansOnce) (hsound : tables₀.Sound)
    (hgrown : TablesGrown u decisions cells tables₀ tables) {cell : ReferenceCell}
    (hprepared : CellPrepared u ratio decisions cells tables₀ cell)
    : ((∃ found t, resolveCell u ratio decisions cell tables = .ok (found, t))
        ↔ CellClear u ratio decisions cells tables cell)
      ∧ ∀ found t, resolveCell u ratio decisions cell tables = .ok (found, t)
        → TablesGrown u decisions cells tables₀ t ∧ CellLeadsTo u decisions t cell found.2
          ∧ KeepsEveryName tables t := by
  have hlookup : candidateKey u cell.column.kind cell.value = cell.key u := by
    rw [candidateKey, normalize_eq_nameKey hu, ReferenceCell.key_eq]
  unfold CellPrepared at hprepared
  unfold resolveCell CellClear
  simp only [hlookup]
  unfold CellLeadsTo
  rcases hkind : cell.column.kind with _ | _
  · simp only [hkind] at hprepared
    have hresolves := hprepared.resolves organizationTexts organizationDecisionTexts
      (·.withColumn cell.column) (OrganizationRoles.withColumn cell.column ⟨false, false⟩) hu
      hsound.1 hgrown.organizations
    refine ⟨(map_succeeds fun d => { tables with organizations := d }).trans hresolves.succeeds,
      fun found t hok => ?_⟩
    obtain ⟨⟨found', d⟩, hd, he⟩ := map_eq_ok.mp hok
    obtain ⟨rfl, rfl⟩ := Prod.mk.inj he
    obtain ⟨hnext, hleads, hkeeps⟩ := hresolves.leads found' d hd
    exact ⟨⟨hnext, hgrown.costCentres⟩, hleads, ⟨hkeeps, fun _ _ hnames => hnames⟩⟩
  · simp only [hkind] at hprepared
    have hresolves := hprepared.resolves costCentreTexts costCentreDecisionTexts id () hu
      hsound.2 hgrown.costCentres
    refine ⟨(map_succeeds fun d => { tables with costCentres := d }).trans hresolves.succeeds,
      fun found t hok => ?_⟩
    obtain ⟨⟨found', d⟩, hd, he⟩ := map_eq_ok.mp hok
    obtain ⟨rfl, rfl⟩ := Prod.mk.inj he
    obtain ⟨hnext, hleads, hkeeps⟩ := hresolves.leads found' d hd
    exact ⟨⟨hgrown.organizations, hnext⟩, hleads, ⟨fun _ _ hnames => hnames, hkeeps⟩⟩

/-- The cells of a row are clear, each behind the one before. -/
def CellsClear (u : Unicode) (ratio : String → String → Rat) (decisions : ReferenceDecisions)
    (cells : List ReferenceCell)
    : List ReferenceCell → ReferenceTables → Prop
  | [], _ => True
  | cell :: rest, tables =>
      CellClear u ratio decisions cells tables cell
        ∧ match resolveCell u ratio decisions cell tables with
          | .ok (_, tables) => CellsClear u ratio decisions cells rest tables
          | .error _ => True

/-- The prepared cells of a row resolve exactly where they are clear, by induction on the cells. -/
theorem resolveCells_resolves (hu : u.CleansOnce) (hsound : tables₀.Sound) {row : List ReferenceCell}
    (hprepared : ∀ cell ∈ row, CellPrepared u ratio decisions cells tables₀ cell)
    (hgrown : TablesGrown u decisions cells tables₀ tables)
    : ((∃ resolved t, resolveCells u ratio decisions row tables = .ok (resolved, t))
        ↔ CellsClear u ratio decisions cells row tables)
      ∧ ∀ resolved t, resolveCells u ratio decisions row tables = .ok (resolved, t)
        → TablesGrown u decisions cells tables₀ t ∧ KeepsEveryName tables t
          ∧ ∀ r ∈ resolved, CellLeadsTo u decisions t r.1 r.2.2 := by
  induction row generalizing tables with
  | nil =>
      refine ⟨⟨fun _ => trivial, fun _ => ⟨[], tables, rfl⟩⟩, fun resolved t hok => ?_⟩
      obtain ⟨rfl, rfl⟩ := Prod.mk.inj (Except.ok.inj hok)
      exact ⟨hgrown, ⟨fun _ _ h => h, fun _ _ h => h⟩, fun _ h => absurd h List.not_mem_nil⟩
  | cons cell rest ih =>
      obtain ⟨hcell, hothers⟩ := List.forall_mem_cons.mp hprepared
      obtain ⟨hsucceeds, hleads⟩ := resolveCell_resolves hu hsound hgrown hcell
      rw [CellsClear, ← hsucceeds]
      rcases hfirst : resolveCell u ratio decisions cell tables with failure | ⟨found, next⟩
      · rw [hfirst] at hsucceeds
        simp [resolveCells, hfirst]
      · obtain ⟨hnext, hled, hkeeps⟩ := hleads found next hfirst
        obtain ⟨hrest, hrestLeads⟩ := ih hothers hnext
        have hunfold : ∀ resolved t, resolveCells u ratio decisions (cell :: rest) tables
            = .ok (resolved, t) ↔ ∃ others,
              resolveCells u ratio decisions rest next = .ok (others, t)
                ∧ (cell, found) :: others = resolved := by
          intro resolved t
          rw [resolveCells, hfirst, ok_bind]
          dsimp only
          rw [bind_eq_ok]
          constructor
          · rintro ⟨⟨others, t'⟩, hok, he⟩
            simp only [pure_eq_ok, Prod.mk.injEq] at he
            obtain ⟨rfl, rfl⟩ := he
            exact ⟨others, hok, rfl⟩
          · rintro ⟨others, hok, rfl⟩
            exact ⟨(others, t), hok, rfl⟩
        refine ⟨?_, ?_⟩
        · constructor
          · rintro ⟨resolved, t, hok⟩
            obtain ⟨others, hok, -⟩ := (hunfold resolved t).mp hok
            exact ⟨⟨found, next, rfl⟩, hrest.mp ⟨others, t, hok⟩⟩
          · rintro ⟨-, hclear⟩
            obtain ⟨others, t, hok⟩ := hrest.mpr hclear
            exact ⟨_, t, (hunfold _ t).mpr ⟨others, hok, rfl⟩⟩
        · intro resolved t hok
          obtain ⟨others, hrestOk, rfl⟩ := (hunfold resolved t).mp hok
          obtain ⟨hfinal, hkeepsRest, hledRest⟩ := hrestLeads others t hrestOk
          exact ⟨hfinal, hkeeps.trans hkeepsRest,
            List.forall_mem_cons.mpr ⟨hled.mono hkeepsRest, hledRest⟩⟩

end LicenseTrack.References
