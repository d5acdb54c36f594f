import LicenseTrack.References.DecidedCells

/-! What the validation of the decisions of an import leaves: every cell of a row that is to be
written has a candidate, and the name and the decision of each cell are prepared for the run.
-/

namespace LicenseTrack.References

open Library

variable {u : Unicode} {ratio : String → String → Rat}

theorem foldlM_each {σ α : Type} {step : σ → α → Except Failure σ} {P : σ → Prop}
    (hback : ∀ s a t, step s a = .ok t → P t → P s) {list : List α} {s t : σ}
    (h : list.foldlM step s = .ok t) (ht : P t)
    : P s ∧ ∀ a ∈ list, ∃ before after, step before a = .ok after ∧ P after := by
  induction list generalizing s with
  | nil =>
      obtain rfl : s = t := by simpa using h
      exact ⟨ht, fun _ ha => absurd ha List.not_mem_nil⟩
  | cons a rest ih =>
      rw [List.foldlM_cons] at h
      obtain ⟨next, hstep, hrest⟩ := bind_eq_ok.mp h
      obtain ⟨hnext, hothers⟩ := ih hrest
      exact ⟨hback s a next hstep hnext,
        List.forall_mem_cons.mpr ⟨⟨s, next, hstep, hnext⟩, hothers⟩⟩

theorem ReferenceCell.key_eq (u : Unicode) (cell : ReferenceCell)
    : cell.key u = (cell.column.kind, nameKey u cell.value) :=
  rfl

/-- A candidate is known by the comparable form of its name. -/
def Candidate.WellKeyed (u : Unicode) (c : Candidate) : Prop :=
  c.candidateKey = (c.kind, u.normalizeReferenceName c.proposedName)

theorem addCandidates_ok {cells : List ReferenceCell} {before candidates : List Candidate}
    (hbefore : ∀ c ∈ before, c.WellKeyed u)
    (h : cells.foldlM (addCandidate u) before = .ok candidates)
    : (∀ c ∈ candidates, c.WellKeyed u) ∧ (∀ c ∈ before, c ∈ candidates)
      ∧ ∀ cell ∈ cells, u.cleanReferenceName cell.value ≠ ""
        ∧ ∃ c ∈ candidates, c.candidateKey = cell.key u := by
  induction cells generalizing before with
  | nil =>
      obtain rfl : before = candidates := by simpa using h
      exact ⟨hbefore, fun _ hc => hc, fun _ hc => absurd hc List.not_mem_nil⟩
  | cons cell rest ih =>
      rw [List.foldlM_cons] at h
      obtain ⟨next, hadd, hrest⟩ := bind_eq_ok.mp h
      simp only [addCandidate, bind_eq_ok, cleanName_eq_ok] at hadd
      obtain ⟨_, ⟨hclean, rfl⟩, hadd⟩ := hadd
      have hnext : (∀ c ∈ next, c.WellKeyed u) ∧ (∀ c ∈ before, c ∈ next)
          ∧ ∃ c ∈ next, c.candidateKey = cell.key u := by
        split at hadd
        · next hany =>
            obtain rfl := pure_eq_ok.mp hadd
            obtain ⟨c, hc, hkey⟩ := List.any_eq_true.mp hany
            exact ⟨hbefore, fun _ hc => hc, c, hc, beq_iff_eq.mp hkey⟩
        · obtain rfl := pure_eq_ok.mp hadd
          refine ⟨fun c hc => ?_, fun c hc => List.mem_append_left _ hc,
            _, List.mem_append_right _ (List.mem_singleton_self _), rfl⟩
          rcases List.mem_append.mp hc with hc | hc
          · exact hbefore c hc
          · obtain rfl := List.mem_singleton.mp hc
            rfl
      obtain ⟨hkeyed, hkept, hcells⟩ := ih hnext.1 hrest
      refine ⟨hkeyed, fun c hc => hkept c (hnext.2.1 c hc), ?_⟩
      obtain ⟨c, hc, hkey⟩ := hnext.2.2
      exact List.forall_mem_cons.mpr ⟨⟨hclean, c, hkept c hc, hkey⟩, hcells⟩

-- One candidate

namespace Directory

variable {ρ : Type} {d : Directory ρ} {undecided accepted : List String}
  {decision : Option ReferenceDecision} {value : String}

theorem preparedUndecided_of_status (hd : d.Sound) {candidates : List Candidate} {c : Candidate}
    (hkey : u.normalizeReferenceName c.proposedName = nameKey u value)
    (hexpected : nameKey u value ∈ undecided)
    (hbatch : ∀ other ∈ undecided, other ≠ nameKey u value → ∃ o ∈ candidates,
      o.kind = c.kind ∧ o.candidateKey ≠ c.candidateKey
        ∧ u.normalizeReferenceName o.proposedName = other)
    (hduplicate : d.candidateStatus u ratio candidates c ≠ .possibleDuplicate)
    (hinactive : d.candidateStatus u ratio candidates c ≠ .inactiveConflict)
    : PreparedUndecided u ratio undecided d value := by
  simp only [candidateStatus, hkey] at hduplicate hinactive
  rcases hmatch : d.matchRecord (nameKey u value) with _ | ⟨id, r⟩
  · have hfree := matchRecord_none hd.owned hmatch
    simp only [hmatch] at hduplicate
    split at hduplicate
    · next hnew =>
        rw [Bool.and_eq_true] at hnew
        refine ⟨fun id r _ hnames => absurd hnames (hfree id), hexpected, fun _ => hnew.1, ?_⟩
        intro _ other hother hne
        obtain ⟨o, ho, hkind, hkeys, rfl⟩ := hbatch other hother hne
        have hnot := List.filter_eq_nil_iff.mp (List.isEmpty_iff.mp hnew.2) o ho
        simpa [hkind, hkeys, hkey] using hnot
    · exact absurd rfl hduplicate
  · obtain ⟨hr, hnames⟩ := matchRecord_some hmatch
    simp only [hmatch] at hinactive
    have hactive : r.isActive = true := by
      by_contra hc
      rw [if_neg hc] at hinactive
      exact hinactive rfl
    have hfound : d.find (nameKey u value) ≠ none := fun hc => find_none hd.owned hc id hnames
    refine ⟨fun other r' hr' hnames' => ?_, hexpected, fun hc => absurd hc hfound,
      fun hc => absurd hc hfound⟩
    obtain rfl := hd.unambiguous hnames' hnames
    obtain rfl := Option.some.inj (hr.symm.trans hr')
    exact hactive

theorem validateTarget_ok {decision : ReferenceDecision}
    (h : d.validateTarget u decision = .ok ⟨⟩)
    : ∃ id r, PreparedTarget u d decision id r := by
  unfold validateTarget at h
  dsimp only at h
  split at h
  · cases h
  · next id htarget =>
      simp only [bind_eq_ok, require_eq_ok] at h
      obtain ⟨_, hblank, h⟩ := h
      split at h
      · cases h
      · next r hr =>
          simp only [bind_eq_ok, require_eq_ok, cleanName_eq_ok] at h
          obtain ⟨_, ⟨hclean, rfl⟩, _, hname, hactive⟩ := h
          refine ⟨id, r, htarget, fun hc => hblank ?_, hclean, hr, hname, hactive⟩
          rw [hc]
          decide

theorem validateDisplayName_ok (hd : d.Sound) {c : Candidate} {decision : ReferenceDecision}
    {plan plan' : ReferencePlan} (h : d.validateDisplayName u c decision plan = .ok plan')
    (hexpected : nameKey u (decision.displayName.getD "") ∈ accepted)
    : PreparedDisplayName u accepted d decision ∧ plan'.missing = plan.missing := by
  simp only [validateDisplayName, bind_eq_ok, require_eq_ok, cleanName_eq_ok, pure_eq_ok] at h
  obtain ⟨_, hblank, _, ⟨hclean, rfl⟩, _, -, _, hfree, rfl⟩ := h
  refine ⟨⟨fun hc => hblank ?_, hclean, ?_, hexpected⟩, rfl⟩
  · rw [hc]
    decide
  · exact matchRecord_none hd.owned (Option.isNone_iff_eq_none.mp hfree)

theorem validateCandidate_missing {c : Candidate} {status : CandidateStatus}
    {plan plan' : ReferencePlan}
    (h : d.validateCandidate u c status decision plan = .ok plan') (hmissing : plan'.missing = [])
    : plan.missing = [] := by
  unfold validateCandidate at h
  split at h
  · split at h
    · obtain rfl := pure_eq_ok.mp h
      simp at hmissing
    · obtain rfl := pure_eq_ok.mp h
      exact hmissing
  · obtain ⟨_, -, h⟩ := bind_eq_ok.mp h
    obtain ⟨_, -, h⟩ := bind_eq_ok.mp h
    split at h
    · obtain ⟨_, -, h⟩ := bind_eq_ok.mp h
      obtain rfl := pure_eq_ok.mp h
      exact hmissing
    · simp only [validateDisplayName, bind_eq_ok, pure_eq_ok] at h
      obtain ⟨_, -, _, -, _, -, _, -, rfl⟩ := h
      exact hmissing

theorem prepared_of_validated (hd : d.Sound) {candidates : List Candidate} {c : Candidate}
    {plan plan' : ReferencePlan} (hclean : u.cleanReferenceName value ≠ "")
    (hkey : u.normalizeReferenceName c.proposedName = nameKey u value)
    (hundecided : decision = none → nameKey u value ∈ undecided)
    (hbatch : ∀ other ∈ undecided, other ≠ nameKey u value → ∃ o ∈ candidates,
      o.kind = c.kind ∧ o.candidateKey ≠ c.candidateKey
        ∧ u.normalizeReferenceName o.proposedName = other)
    (haccepted : ∀ accepting, decision = some accepting → accepting.action ≠ .mapExisting
      → nameKey u (accepting.displayName.getD "") ∈ accepted)
    (h : d.validateCandidate u c (d.candidateStatus u ratio candidates c) decision plan = .ok plan')
    (hmissing : plan'.missing = [])
    : Prepared u ratio undecided accepted d decision value := by
  refine ⟨hclean, ?_⟩
  unfold validateCandidate at h
  rcases decision with _ | decision
  · dsimp only at h
    split at h
    · obtain rfl := pure_eq_ok.mp h
      simp at hmissing
    · next hnot =>
        rw [not_or] at hnot
        exact preparedUndecided_of_status hd hkey (hundecided rfl) hbatch hnot.1 hnot.2
  · dsimp only at h ⊢
    obtain ⟨_, -, h⟩ := bind_eq_ok.mp h
    obtain ⟨_, -, h⟩ := bind_eq_ok.mp h
    split at h
    · next hmap =>
        obtain ⟨_, htarget, -⟩ := bind_eq_ok.mp h
        rw [if_pos hmap]
        exact validateTarget_ok htarget
    · next hmap =>
        rw [if_neg hmap]
        exact (validateDisplayName_ok hd h (haccepted decision rfl hmap)).1

end Directory

-- A whole file

/-- The cells of the rows that are to be written. -/
def fileCells (rows : List ImportRow) (skipped : List Nat) : List ReferenceCell :=
  (activeRows rows skipped).flatMap rowReferenceValues

/-- The names of one kind that no decision was taken for. -/
def undecidedNames (u : Unicode) (decisions : ReferenceDecisions) (cells : List ReferenceCell)
    (kind : ReferenceKind)
    : List String :=
  (cells.filter (fun cell => cell.column.kind == kind && (decisions (cell.key u)).isNone)).map
    (fun cell => nameKey u cell.value)

/-- The display names that candidates of one kind were accepted under. -/
def acceptedNames (u : Unicode) (decisions : ReferenceDecisions) (cells : List ReferenceCell)
    (kind : ReferenceKind)
    : List String :=
  (((cells.filter (·.column.kind == kind)).filterMap (fun cell => decisions (cell.key u))).filter
    (·.action != .mapExisting)).map (fun decision => nameKey u (decision.displayName.getD ""))

/-- The tables of an import are sound. -/
def ReferenceTables.Sound (tables : ReferenceTables) : Prop :=
  tables.organizations.Sound ∧ tables.costCentres.Sound

/-- The name and the decision of a cell are prepared. -/
def CellPrepared (u : Unicode) (ratio : String → String → Rat) (decisions : ReferenceDecisions)
    (cells : List ReferenceCell) (tables : ReferenceTables) (cell : ReferenceCell)
    : Prop :=
  let kind := cell.column.kind
  let undecided := undecidedNames u decisions cells kind
  let accepted := acceptedNames u decisions cells kind
  match kind with
  | .organization => Directory.Prepared u ratio undecided accepted tables.organizations
      (decisions (cell.key u)) cell.value
  | .costCentre => Directory.Prepared u ratio undecided accepted tables.costCentres
      (decisions (cell.key u)) cell.value

/-- Every cell of a validated file is prepared. -/
theorem cells_prepared {tables : ReferenceTables} (hsound : tables.Sound) {rows : List ImportRow}
    {skipped : List Nat} {decisions : ReferenceDecisions}
    (h : validateReferenceOverrides u ratio tables rows skipped decisions = .ok ⟨⟩)
    : ∀ cell ∈ fileCells rows skipped,
        CellPrepared u ratio decisions (fileCells rows skipped) tables cell := by
  simp only [validateReferenceOverrides, buildReferenceSummary, bind_eq_ok, require_eq_ok,
    pure_eq_ok] at h
  obtain ⟨_, ⟨candidates, hcandidates, rfl⟩, plan, hplan, hmissing⟩ := h
  have hcells : (((activeRows rows skipped).filter (rowCanBeReferenceCandidate u)).flatMap
      rowReferenceValues) = fileCells rows skipped := by
    rw [fileCells, List.filter_eq_self.mpr]
    intro row hrow
    have hvalid := (List.mem_filter.mp hrow).2
    rw [Bool.and_eq_true] at hvalid
    simp [rowCanBeReferenceCandidate, hvalid.1]
  rw [hcells] at hcandidates
  obtain ⟨hkeyed, -, hshown⟩ := addCandidates_ok (fun _ hc => absurd hc List.not_mem_nil) hcandidates
  have heach := (foldlM_each (P := fun plan : ReferencePlan => plan.missing = [])
    (fun plan entry plan' hstep hnext => by
      unfold ReferenceTables.validateCandidate at hstep
      dsimp only at hstep
      split at hstep
      · exact Directory.validateCandidate_missing hstep hnext
      · exact Directory.validateCandidate_missing hstep hnext) hplan hmissing).2
  intro cell hcell
  obtain ⟨hclean, c, hc, hckey⟩ := hshown cell hcell
  obtain ⟨before, after, hstep, hafter⟩ := heach (c, tables.candidateStatus u ratio candidates c)
    (List.mem_map_of_mem ((List.mem_insertionSort _).mpr hc))
  have hpair := (hkeyed c hc).symm.trans hckey
  simp only [ReferenceCell.key, candidateKey, Prod.mk.injEq] at hpair
  have hkind : c.kind = cell.column.kind := hpair.1
  have hkey : u.normalizeReferenceName c.proposedName = nameKey u cell.value := hpair.2
  have hundecided : decisions (cell.key u) = none
      → nameKey u cell.value ∈ undecidedNames u decisions (fileCells rows skipped)
        cell.column.kind := fun hnone =>
    List.mem_map.mpr ⟨cell, List.mem_filter.mpr ⟨hcell, by simp [hnone]⟩, rfl⟩
  have haccepted : ∀ accepting, decisions (cell.key u) = some accepting
      → accepting.action ≠ .mapExisting → nameKey u (accepting.displayName.getD "")
        ∈ acceptedNames u decisions (fileCells rows skipped) cell.column.kind := by
    intro accepting hdecision hmap
    refine List.mem_map.mpr ⟨accepting, List.mem_filter.mpr ⟨?_, by simpa using hmap⟩, rfl⟩
    exact List.mem_filterMap.mpr ⟨cell, List.mem_filter.mpr ⟨hcell, by simp⟩, hdecision⟩
  have hbatch : ∀ other ∈ undecidedNames u decisions (fileCells rows skipped) cell.column.kind,
      other ≠ nameKey u cell.value → ∃ o ∈ candidates, o.kind = c.kind
        ∧ o.candidateKey ≠ c.candidateKey ∧ u.normalizeReferenceName o.proposedName = other := by
    intro other hother hne
    obtain ⟨otherCell, hmem, rfl⟩ := List.mem_map.mp hother
    obtain ⟨hmem, hsame⟩ := List.mem_filter.mp hmem
    obtain ⟨-, o, ho, hokey⟩ := hshown otherCell hmem
    have hopair := (hkeyed o ho).symm.trans hokey
    simp only [ReferenceCell.key, candidateKey, Prod.mk.injEq] at hopair
    have hokind : otherCell.column.kind = cell.column.kind := by
      rw [Bool.and_eq_true, beq_iff_eq] at hsame
      exact hsame.1
    refine ⟨o, ho, hopair.1.trans (hokind.trans hkind.symm), fun hc => hne ?_, hopair.2⟩
    rw [hokey, hckey, ReferenceCell.key_eq, ReferenceCell.key_eq] at hc
    exact (Prod.mk.inj hc).2
  unfold ReferenceTables.validateCandidate ReferenceTables.candidateStatus at hstep
  dsimp only at hstep
  rw [hckey] at hstep
  unfold CellPrepared
  dsimp only
  rcases hcolumn : cell.column.kind with _ | _
  · rw [hcolumn] at hkind hundecided haccepted hbatch
    rw [hkind] at hstep
    exact Directory.prepared_of_validated hsound.1 hclean hkey hundecided hbatch haccepted hstep
      hafter
  · rw [hcolumn] at hkind hundecided haccepted hbatch
    rw [hkind] at hstep
    exact Directory.prepared_of_validated hsound.2 hclean hkey hundecided hbatch haccepted hstep
      hafter

end LicenseTrack.References
