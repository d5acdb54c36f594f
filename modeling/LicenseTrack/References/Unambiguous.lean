import LicenseTrack.Library.Runs
import LicenseTrack.References.Naming
import LicenseTrack.References.ReferenceStore

/-! No request makes a name ambiguous, so every name leads to at most one record. -/

namespace LicenseTrack.References

open Library

namespace ReferenceStore

variable {s t : ReferenceStore} {u : Unicode}

theorem committed_eq_ok {body : ReferenceStore → Except Raised ReferenceStore}
    : committed (beginNested body s) = .ok t ↔ body s = .ok t := by
  cases h : body s <;> simp [committed, beginNested, h]

theorem transferOrganizationAliases_ok {target : Nat} {names : List String}
    (h : each (transferOrganizationAlias u target) names s = .ok t)
    : ∃ d, each (fun name d => Directory.addAlias d u organizationTexts target name) names
        s.organizations = .ok d
      ∧ t = { s with organizations := d } := by
  refine each_through ReferenceStore.organizations
    (fun d s => { s with organizations := d }) (fun _ _ => rfl) (fun _ _ _ => rfl)
    (fun _ => rfl) (fun name s t hstep => ?_) h
  simp only [transferOrganizationAlias, bind_eq_ok, raising_eq_ok, pure_eq_ok] at hstep
  obtain ⟨d, hd, rfl⟩ := hstep
  exact ⟨d, hd, rfl⟩

theorem transferCostCentreAliases_ok {target : Nat} {names : List String}
    (h : each (transferCostCentreAlias u target) names s = .ok t)
    : ∃ d, each (fun name d => Directory.addAlias d u costCentreTexts target name) names
        s.costCentres = .ok d
      ∧ t = { s with costCentres := d } := by
  refine each_through ReferenceStore.costCentres
    (fun d s => { s with costCentres := d }) (fun _ _ => rfl) (fun _ _ _ => rfl)
    (fun _ => rfl) (fun name s t hstep => ?_) h
  simp only [transferCostCentreAlias, bind_eq_ok, raising_eq_ok, pure_eq_ok] at hstep
  obtain ⟨d, hd, rfl⟩ := hstep
  exact ⟨d, hd, rfl⟩

theorem transferAccesses_ok {target : Nat} {name : String} {ids : List Nat}
    (h : each (transferAccess target name) ids s = .ok t)
    : ∃ mirrors, each (fun accessId (m : Mirrors) => do
          (m.moveAccess target name accessId).accessConstraint
          pure (m.moveAccess target name accessId)) ids s.mirrors = .ok mirrors
      ∧ t = { s with mirrors := mirrors } := by
  refine each_through ReferenceStore.mirrors
    (fun m s => { s with mirrors := m }) (fun _ _ => rfl) (fun _ _ _ => rfl)
    (fun _ => rfl) (fun name s t hstep => ?_) h
  simp only [transferAccess, bind_eq_ok, raising_eq_ok, pure_eq_ok] at hstep
  obtain ⟨_, hconstraint, rfl⟩ := hstep
  exact ⟨_, bind_eq_ok.mpr ⟨_, hconstraint, rfl⟩, rfl⟩

/-- What a merge of organisations that succeeds went through. -/
structure OrganizationsMerged (u : Unicode) (s t : ReferenceStore) (source target : Nat) : Prop where
  ne : source ≠ target
  parts : ∃ from' into transferNames d,
    s.organizations.records.get? source = some from'
    ∧ s.organizations.records.get? target = some into
    ∧ s.organizations.validateAliasTransfer u organizationTexts source target
        into.normalizedName [] (s.organizations.ownNames source from') = .ok transferNames
    ∧ each (fun name d => Directory.addAlias d u organizationTexts target name) transferNames
        (s.absorbOrganization source target from'.roles).organizations = .ok d
    ∧ t = { s with
        organizations := d
        mirrors := (s.mirrors.repointOrganization source target).syncOrganization target into.name }

theorem mergeOrganizationsBody_ok {source target : Nat}
    (h : mergeOrganizationsBody u source target s = .ok t)
    : OrganizationsMerged u s t source target := by
  simp only [mergeOrganizationsBody, bind_eq_ok, raising_eq_ok, found_eq_ok, require_eq_ok,
    pure_eq_ok] at h
  obtain ⟨from', hfrom, into, hinto, _, hne, _, -, names, hnames, moved, hmoved, rfl⟩ := h
  obtain ⟨d, hd, rfl⟩ := transferOrganizationAliases_ok hmoved
  exact ⟨hne, from', into, names, d, hfrom, hinto, hnames, hd, rfl⟩

/-- What a merge of cost centres that succeeds went through. -/
structure CostCentresMerged (u : Unicode) (s t : ReferenceStore) (source target : Nat) : Prop where
  ne : source ≠ target
  parts : ∃ from' into transferNames assigned d mirrors,
    s.costCentres.records.get? source = some from'
    ∧ s.costCentres.records.get? target = some into
    ∧ s.costCentres.validateAliasTransfer u costCentreTexts source target
        into.normalizedName [] (s.costCentres.ownNames source from') = .ok transferNames
    ∧ each (fun accessId (m : Mirrors) => do
          (m.moveAccess target into.name accessId).accessConstraint
          pure (m.moveAccess target into.name accessId))
        (s.mirrors.viewers.select fun _ a => a.costCentreId == some source)
        { s.mirrors with
          licenses := s.mirrors.licenses.mapRows fun _ l =>
            { l with costCentre := l.costCentre.repoint source target } } = .ok assigned
    ∧ each (fun name d => Directory.addAlias d u costCentreTexts target name) transferNames
        (s.costCentres.remove source) = .ok d
    ∧ assigned.syncCostCentre target into.name = .ok mirrors
    ∧ t = { s with costCentres := d, mirrors := mirrors }

theorem mergeCostCentresBody_ok {source target : Nat}
    (h : mergeCostCentresBody u source target s = .ok t)
    : CostCentresMerged u s t source target := by
  simp only [mergeCostCentresBody, bind_eq_ok, raising_eq_ok, found_eq_ok, require_eq_ok,
    pure_eq_ok] at h
  obtain ⟨from', hfrom, into, hinto, _, hne, _, -, names, hnames, assigned, hassigned, moved,
    hmoved, mirrors, hmirrors, rfl⟩ := h
  obtain ⟨viewers, hviewers, rfl⟩ := transferAccesses_ok hassigned
  obtain ⟨d, hd, rfl⟩ := transferCostCentreAliases_ok hmoved
  exact ⟨hne, from', into, names, viewers, d, mirrors, hfrom, hinto, hnames, hviewers, hd,
    hmirrors, rfl⟩

theorem sound_absorb (hs : s.organizations.Sound) {source target : Nat} (hne : source ≠ target)
    (roles : OrganizationRoles) {into : Reference OrganizationRoles}
    (hinto : s.organizations.records.get? target = some into)
    : (s.absorbOrganization source target roles).organizations.Sound
      ∧ ∃ r, (s.absorbOrganization source target roles).organizations.records.get? target = some r := by
  refine ⟨Directory.Sound.remove (Directory.Sound.modifyRecord hs ?_) source, ?_⟩
  · exact fun _ => rfl
  · simp [absorbOrganization, Directory.remove, hinto, Ne.symm hne]

-- Runs

/-- Both directories are sound. -/
structure NamesSound (s : ReferenceStore) : Prop where
  organizations : s.organizations.Sound
  costCentres : s.costCentres.Sound

theorem NamesSound.updateOrganization (hs : s.NamesSound) {id : Nat} {name : Option String}
    {isPublisher isSupplier : Option Bool}
    (h : updateOrganization u id name isPublisher isSupplier s = .ok t)
    : t.NamesSound := by
  cases name with
  | none =>
      simp only [ReferenceStore.updateOrganization, bind_eq_ok, found_eq_ok, require_eq_ok,
        pure_eq_ok] at h
      obtain ⟨organization, -, _, -, _, -, _, -, _, rfl, rfl⟩ := h
      exact ⟨hs.organizations.modifyRecord fun _ => rfl, hs.costCentres⟩
  | some name =>
      simp only [ReferenceStore.updateOrganization, bind_eq_ok, found_eq_ok, require_eq_ok,
        pure_eq_ok] at h
      obtain ⟨organization, hstored, _, -, _, -, _, -, directory, hdirectory, _, rfl, rfl⟩ := h
      have hrenamed : directory.Sound := hs.organizations.updateName hstored hdirectory
      exact ⟨hrenamed.modifyRecord fun _ => rfl, hs.costCentres⟩

theorem NamesSound.updateCostCentre (hs : s.NamesSound) {id : Nat} {name : Option String}
    (h : updateCostCentre u id name s = .ok t)
    : t.NamesSound := by
  simp only [ReferenceStore.updateCostCentre, bind_eq_ok, found_eq_ok] at h
  obtain ⟨costCentre, hstored, h⟩ := h
  cases name with
  | none =>
      obtain rfl := pure_eq_ok.mp h
      exact hs
  | some name =>
      simp only [bind_eq_ok, pure_eq_ok] at h
      obtain ⟨directory, hdirectory, mirrors, -, rfl⟩ := h
      exact ⟨hs.organizations, hs.costCentres.updateName hstored hdirectory⟩

theorem NamesSound.mergeOrganizations (hs : s.NamesSound) {source target : Nat}
    (h : OrganizationsMerged u s t source target)
    : t.NamesSound := by
  obtain ⟨hne, from', into, names, d, -, hinto, -, hd, rfl⟩ := h
  obtain ⟨habsorbed, r, hr⟩ := sound_absorb hs.organizations hne from'.roles hinto
  exact ⟨(Directory.addAliases_ok habsorbed hr hd).1, hs.costCentres⟩

theorem NamesSound.mergeCostCentres (hs : s.NamesSound) {source target : Nat}
    (h : CostCentresMerged u s t source target)
    : t.NamesSound := by
  obtain ⟨hne, from', into, names, viewers, d, mirrors, -, hinto, -, -, hd, -, rfl⟩ := h
  have hr : (s.costCentres.remove source).records.get? target = some into := by
    simp [Directory.remove, hinto, Ne.symm hne]
  exact ⟨hs.organizations, (Directory.addAliases_ok (hs.costCentres.remove source) hr hd).1⟩

/-- Each request keeps both directories sound. -/
theorem NamesSound.step (hs : s.NamesSound) {request : Request} (h : step u request s = .ok t)
    : t.NamesSound := by
  obtain ⟨horganizations, hcostCentres⟩ := hs
  cases request with
  | resolveOrganization value role createIfMissing =>
      simp only [ReferenceStore.step, resolveOrganization, bind_eq_ok, pure_eq_ok] at h
      obtain ⟨⟨id, d⟩, hd, rfl⟩ := h
      exact ⟨horganizations.resolve hd, hcostCentres⟩
  | createOrganization name roles =>
      simp only [ReferenceStore.step, createOrganization, bind_eq_ok, require_eq_ok,
        pure_eq_ok] at h
      obtain ⟨_, -, ⟨id, d⟩, hd, rfl⟩ := h
      exact ⟨horganizations.create hd, hcostCentres⟩
  | updateOrganization id name isPublisher isSupplier =>
      exact NamesSound.updateOrganization ⟨horganizations, hcostCentres⟩ h
  | addOrganizationAlias id name =>
      simp only [ReferenceStore.step, addOrganizationAlias, bind_eq_ok, found_eq_ok,
        pure_eq_ok] at h
      obtain ⟨r, hr, d, hd, rfl⟩ := h
      exact ⟨horganizations.addAlias hr hd, hcostCentres⟩
  | deleteOrganizationAlias aliasId =>
      simp only [ReferenceStore.step, deleteOrganizationAlias, bind_eq_ok, pure_eq_ok] at h
      obtain ⟨d, hd, rfl⟩ := h
      exact ⟨horganizations.deleteAlias hd, hcostCentres⟩
  | setOrganizationActive id active =>
      simp only [ReferenceStore.step, setOrganizationActive, bind_eq_ok, pure_eq_ok] at h
      obtain ⟨d, hd, rfl⟩ := h
      exact ⟨horganizations.setActive hd, hcostCentres⟩
  | deleteOrganization id =>
      simp only [ReferenceStore.step, deleteOrganization, bind_eq_ok, require_eq_ok,
        pure_eq_ok] at h
      obtain ⟨_, -, _, -, rfl⟩ := h
      exact ⟨horganizations.remove id, hcostCentres⟩
  | mergeOrganizations source target =>
      exact NamesSound.mergeOrganizations ⟨horganizations, hcostCentres⟩
        (mergeOrganizationsBody_ok (committed_eq_ok.mp h))
  | resolveCostCentre value createIfMissing =>
      simp only [ReferenceStore.step, resolveCostCentre, bind_eq_ok, pure_eq_ok] at h
      obtain ⟨⟨id, d⟩, hd, rfl⟩ := h
      exact ⟨horganizations, hcostCentres.resolve hd⟩
  | createCostCentre name =>
      simp only [ReferenceStore.step, createCostCentre, bind_eq_ok, pure_eq_ok] at h
      obtain ⟨⟨id, d⟩, hd, rfl⟩ := h
      exact ⟨horganizations, hcostCentres.create hd⟩
  | updateCostCentre id name =>
      exact NamesSound.updateCostCentre ⟨horganizations, hcostCentres⟩ h
  | addCostCentreAlias id name =>
      simp only [ReferenceStore.step, addCostCentreAlias, bind_eq_ok, found_eq_ok,
        pure_eq_ok] at h
      obtain ⟨r, hr, d, hd, rfl⟩ := h
      exact ⟨horganizations, hcostCentres.addAlias hr hd⟩
  | deleteCostCentreAlias aliasId =>
      simp only [ReferenceStore.step, deleteCostCentreAlias, bind_eq_ok, pure_eq_ok] at h
      obtain ⟨d, hd, rfl⟩ := h
      exact ⟨horganizations, hcostCentres.deleteAlias hd⟩
  | setCostCentreActive id active =>
      simp only [ReferenceStore.step, setCostCentreActive, bind_eq_ok, pure_eq_ok] at h
      obtain ⟨d, hd, rfl⟩ := h
      exact ⟨horganizations, hcostCentres.setActive hd⟩
  | deleteCostCentre id =>
      simp only [ReferenceStore.step, deleteCostCentre, bind_eq_ok, require_eq_ok,
        pure_eq_ok] at h
      obtain ⟨_, -, _, -, rfl⟩ := h
      exact ⟨horganizations, hcostCentres.remove id⟩
  | mergeCostCentres source target =>
      exact NamesSound.mergeCostCentres ⟨horganizations, hcostCentres⟩
        (mergeCostCentresBody_ok (committed_eq_ok.mp h))
  | writeMirrors mirrors =>
      obtain rfl := Except.ok.inj h
      exact ⟨horganizations, hcostCentres⟩

/-- The stores that some sequence of requests leads to. -/
abbrev Reached (u : Unicode) (s : ReferenceStore) : Prop :=
  Reachable (step u) (fun _ _ => True) {} s

theorem Reached.namesSound (h : Reached u s) : s.NamesSound := by
  refine h.invariant ⟨⟨?_, ?_⟩, ⟨?_, ?_⟩⟩ fun _ _ _ hs _ hstep => hs.step hstep
  · rintro key id id' (⟨r, hr, -⟩ | ⟨aliasId, a, ha, -⟩)
    · simp at hr
    · simp at ha
  · intro aliasId a ha
    simp at ha
  · rintro key id id' (⟨r, hr, -⟩ | ⟨aliasId, a, ha, -⟩)
    · simp at hr
    · simp at ha
  · intro aliasId a ha
    simp at ha

/-- In every reached store a normalised name belongs to one organisation at most and to one cost
centre at most, which is then the one that looking it up finds.
-/
theorem names_unambiguous (h : Reached u s)
    : (∀ key id id', s.organizations.Names key id → s.organizations.Names key id' → id = id')
      ∧ (∀ key id, (s.organizations.find key).map Prod.fst = some id ↔ s.organizations.Names key id)
      ∧ (∀ key id id', s.costCentres.Names key id → s.costCentres.Names key id' → id = id')
      ∧ ∀ key id, (s.costCentres.find key).map Prod.fst = some id ↔ s.costCentres.Names key id := by
  have hs := h.namesSound
  exact ⟨fun _ _ _ h₁ h₂ => hs.organizations.unambiguous h₁ h₂,
    fun _ _ => Directory.find_iff hs.organizations.unambiguous hs.organizations.owned,
    fun _ _ _ h₁ h₂ => hs.costCentres.unambiguous h₁ h₂,
    fun _ _ => Directory.find_iff hs.costCentres.unambiguous hs.costCentres.owned⟩

/-- An organisation that was renamed is found under its old name. -/
theorem names_unambiguous_renamed
    : ∃ s, runAll (step .ascii)
          [.createOrganization "Old" ⟨true, false⟩, .updateOrganization 1 (some "New") none none]
          {} = some s
        ∧ (s.organizations.find "old").map Prod.fst = some 1
        ∧ ∀ id, s.organizations.Names "old" id → id = 1 := by
  obtain ⟨s, hs⟩ : ∃ s, runAll (step .ascii)
      [.createOrganization "Old" ⟨true, false⟩, .updateOrganization 1 (some "New") none none]
      {} = some s := Option.isSome_iff_exists.mp (by decide +kernel)
  have hfound : (runAll (step .ascii)
      [.createOrganization "Old" ⟨true, false⟩, .updateOrganization 1 (some "New") none none]
      {}).map (fun s => (s.organizations.find "old").map Prod.fst) = some (some 1) := by
    decide +kernel
  rw [hs, Option.map_some, Option.some.injEq] at hfound
  have hnames := names_unambiguous (.of_runAll .start (fun _ _ _ => trivial) hs)
  exact ⟨s, hs, hfound, fun id hid => hnames.1 "old" id 1 hid ((hnames.2.1 "old" 1).mp hfound)⟩

end ReferenceStore

end LicenseTrack.References
