import LicenseTrack.References.DecidedNames

/-! A cell of an import resolves under its decision, as the validation expects, up to one case: a
name without a decision that nobody bears yet is refused where a record that was created under an
accepted display name is similar to it.
-/

namespace LicenseTrack.References

open Library

theorem normalize_eq_nameKey {u : Unicode} (hu : u.CleansOnce) (value : String)
    : u.normalizeReferenceName value = nameKey u value :=
  congrArg u.casefold (hu value).symm

theorem nameKey_clean {u : Unicode} (hu : u.CleansOnce) (value : String)
    : nameKey u (u.cleanReferenceName value) = nameKey u value :=
  congrArg u.normalizeReferenceName (hu value)

namespace Directory

variable {ρ : Type} {undecided accepted : List String} {d₀ d t : Directory ρ} {u : Unicode}
  {ratio : String → String → Rat} {referenceTexts : ReferenceTexts} {texts : DecisionTexts}
  {touch : ρ → ρ} {roles : ρ} {decision : Option ReferenceDecision} {value : String}

/-- A name without a decision is borne by active records only, or it is new: no stored record and no
other undecided name is similar to it.
-/
structure PreparedUndecided (u : Unicode) (ratio : String → String → Rat) (undecided : List String)
    (d₀ : Directory ρ) (value : String)
    : Prop where
  active : ∀ id r, d₀.records.get? id = some r → d₀.Names (nameKey u value) id → r.isActive = true
  expected : nameKey u value ∈ undecided
  stored : d₀.find (nameKey u value) = none
    → (d₀.possibleMatches ratio (nameKey u value)).isEmpty = true
  batch : d₀.find (nameKey u value) = none → ∀ other ∈ undecided, other ≠ nameKey u value
    → similarityScore ratio (nameKey u value) other < similarityThreshold

/-- The target of a decision is stored and active, under the name that the preview showed. -/
structure PreparedTarget (u : Unicode) (d₀ : Directory ρ) (decision : ReferenceDecision)
    (id : Nat) (r : Reference ρ)
    : Prop where
  target : decision.targetId = some id
  named : decision.targetName.getD "" ≠ ""
  clean : u.cleanReferenceName (decision.targetName.getD "") ≠ ""
  stored : d₀.records.get? id = some r
  name : r.name = u.cleanReferenceName (decision.targetName.getD "")
  active : r.isActive = true

/-- The display name of a decision is not blank and belongs to no stored record. -/
structure PreparedDisplayName (u : Unicode) (accepted : List String) (d₀ : Directory ρ)
    (decision : ReferenceDecision)
    : Prop where
  named : decision.displayName.getD "" ≠ ""
  clean : u.cleanReferenceName (decision.displayName.getD "") ≠ ""
  free : ∀ id, ¬d₀.Names (nameKey u (decision.displayName.getD "")) id
  expected : nameKey u (decision.displayName.getD "") ∈ accepted

/-- What the validation leaves of a cell's name and its decision. -/
def Prepared (u : Unicode) (ratio : String → String → Rat) (undecided accepted : List String)
    (d₀ : Directory ρ) (decision : Option ReferenceDecision) (value : String)
    : Prop :=
  u.cleanReferenceName value ≠ ""
    ∧ match decision with
      | none => PreparedUndecided u ratio undecided d₀ value
      | some decision =>
          if decision.action = .mapExisting then ∃ id r, PreparedTarget u d₀ decision id r
          else PreparedDisplayName u accepted d₀ decision

/-- The record that a cell leads to under its decision. -/
def LeadsTo (u : Unicode) (decision : Option ReferenceDecision) (value : String) (d : Directory ρ)
    (id : Nat)
    : Prop :=
  match decision with
  | none => d.Names (nameKey u value) id
  | some decision =>
      if decision.action = .mapExisting then decision.targetId = some id
      else d.Names (nameKey u (decision.displayName.getD "")) id

/-- A name that nobody bears yet is clear of the accepted display names. -/
def NameClear (ratio : String → String → Rat) (accepted : List String) (d : Directory ρ)
    (key : String)
    : Prop :=
  d.find key = none → d.ClearOfAccepted ratio accepted key

instance (ratio : String → String → Rat) (accepted : List String) (d : Directory ρ) (key : String)
    : Decidable (d.NameClear ratio accepted key) :=
  if h : (d.find key).isNone then
    decidable_of_iff (d.ClearOfAccepted ratio accepted key)
      ⟨fun hc _ => hc, fun hc => hc (Option.isNone_iff_eq_none.mp h)⟩
  else .isTrue fun hc => absurd (by rw [hc]; rfl) h

theorem Grown.names_kept (h : Grown undecided accepted d₀ d) {id : Nat} {key : String}
    (hnames : d₀.Names key id)
    : d.Names key id := by
  rcases hnames with ⟨r, hr, hkey⟩ | halias
  · obtain ⟨r', hr', hsame⟩ := h.kept id r hr
    simp only [Reference.standing, Prod.mk.injEq] at hsame
    exact .inl ⟨r', hr', hsame.2.1.trans hkey⟩
  · rw [← h.aliases] at halias
    exact .inr halias

theorem LeadsTo.mono (hmono : ∀ key id, d.Names key id → t.Names key id) {id : Nat}
    (h : LeadsTo u decision value d id)
    : LeadsTo u decision value t id := by
  unfold LeadsTo at h ⊢
  split at h
  · exact hmono _ _ h
  · split at h
    · next hmap => rwa [if_pos hmap]
    · next hmap => rw [if_neg hmap]; exact hmono _ _ h

theorem LeadsTo.unique (hd : d.Sound) {id other : Nat} (h : LeadsTo u decision value d id)
    {value' : String} (hkey : nameKey u value' = nameKey u value)
    (h' : LeadsTo u decision value' d other)
    : id = other := by
  unfold LeadsTo at h h'
  split at h
  · rw [hkey] at h'
    exact hd.unambiguous h h'
  · next decision =>
      split at h
      · next hmap =>
          simp only [if_pos hmap] at h'
          exact Option.some.inj (h.symm.trans h')
      · next hmap =>
          simp only [if_neg hmap] at h'
          exact hd.unambiguous h h'

-- Resolving one value

theorem PreparedTarget.mapped (h : Grown undecided accepted d₀ d) {decision : ReferenceDecision}
    {id : Nat} {r : Reference ρ} (hp : PreparedTarget u d₀ decision id r)
    (texts : DecisionTexts)
    : ∃ r', d.records.get? id = some r'
      ∧ d.mappedOverrideTarget u texts decision = .ok (id, r') := by
  obtain ⟨r', hr', hsame⟩ := h.kept id r hp.stored
  simp only [Reference.standing, Prod.mk.injEq] at hsame
  have hcleaned : cleanName u (decision.targetName.getD "")
      = .ok (u.cleanReferenceName (decision.targetName.getD "")) :=
    cleanName_eq_ok.mpr ⟨hp.clean, rfl⟩
  refine ⟨r', hr', ?_⟩
  unfold mappedOverrideTarget
  simp only [hp.target, hr']
  rw [require_bind hp.named, hcleaned, ok_bind, require_bind (hsame.1.trans hp.name),
    require_bind (hsame.2.2.trans hp.active)]
  rfl

theorem resolveValue_mapping (h : Grown undecided accepted d₀ d) {mapping : ReferenceDecision}
    (hclean : u.cleanReferenceName value ≠ "") (hmap : mapping.action = .mapExisting)
    {id : Nat} {r : Reference ρ} (hp : PreparedTarget u d₀ mapping id r)
    (ratio : String → String → Rat) (referenceTexts : ReferenceTexts) (texts : DecisionTexts)
    (touch : ρ → ρ) (roles : ρ)
    : ∃ name, d.resolveValue u ratio referenceTexts texts touch roles (some mapping) value
      = .ok ((name, id), d.touched touch id) := by
  obtain ⟨r', hr', hmapped⟩ := hp.mapped h texts
  have hcleaned : cleanName u value = .ok (u.cleanReferenceName value) :=
    cleanName_eq_ok.mpr ⟨hclean, rfl⟩
  have hfilter : (some mapping).filter (·.action == .mapExisting) = some mapping := by
    simp [Option.filter, hmap]
  refine ⟨r'.name, ?_⟩
  unfold resolveValue
  rw [hcleaned, ok_bind, hfilter]
  dsimp only
  rw [hmapped, ok_bind]
  rfl

theorem checkResolvable_ok (hu : u.CleansOnce) (h : Grown undecided accepted d₀ d)
    (texts : DecisionTexts) (cleaned : String) {name : String}
    (hactive : ∀ id r, d₀.records.get? id = some r → d₀.Names (nameKey u name) id
      → r.isActive = true)
    : d.checkResolvable u ratio texts decision cleaned name = .ok ⟨⟩
      ↔ (decision = none → d.find (nameKey u name) = none
        → (d.possibleMatches ratio (nameKey u name)).isEmpty = true) := by
  unfold checkResolvable
  simp only [normalize_eq_nameKey hu]
  split
  · next id r hfound =>
      have hok := h.find_active hactive hfound
      simp [hok, hfound]
  · next hnone =>
      rw [require_eq_ok]
      rcases decision with _ | decision <;> simp [hnone]

theorem resolveNamed_ok (h : Grown undecided accepted d₀ d) (referenceTexts : ReferenceTexts)
    (touch : ρ → ρ) (roles : ρ) {name : String}
    (hblank : u.cleanReferenceName name ≠ "")
    (hactive : ∀ id r, d₀.records.get? id = some r → d₀.Names (nameKey u name) id
      → r.isActive = true)
    (hexpected : nameKey u name ∈ undecided ∨ nameKey u name ∈ accepted)
    : ∃ found t, d.resolveNamed u referenceTexts touch roles name = .ok (found, t)
      ∧ Grown undecided accepted d₀ t ∧ t.Names (nameKey u name) found.2
      ∧ ∀ key other, d.Names key other → t.Names key other := by
  obtain ⟨id, e, hresolve⟩ := h.resolve_succeeds referenceTexts touch roles hblank
    fun id r hr => h.find_active hactive hr
  obtain ⟨hgrown, hnames, hmono⟩ := h.resolve (fun _ => hexpected) hresolve
  have hresolved : d.resolveNamed u referenceTexts touch roles name
      = .ok ((((e.records.get? id).map (·.name)).getD "", id), e.touched touch id) := by
    rw [resolveNamed, hresolve, ok_bind]
    rfl
  exact ⟨_, _, hresolved, hgrown.touched touch id, Grown.names_touched.mpr hnames,
    fun key other hother => Grown.names_touched.mpr (hmono key other hother)⟩

theorem resolveValue_named (hu : u.CleansOnce) (h : Grown undecided accepted d₀ d)
    (ratio : String → String → Rat) (referenceTexts : ReferenceTexts) (texts : DecisionTexts)
    (touch : ρ → ρ) (roles : ρ) (hclean : u.cleanReferenceName value ≠ "")
    (hfilter : decision.filter (·.action == .mapExisting) = none)
    {name : String} (hname : overrideResolutionValue (u.cleanReferenceName value) decision = name)
    (hblank : u.cleanReferenceName name ≠ "")
    (hactive : ∀ id r, d₀.records.get? id = some r → d₀.Names (nameKey u name) id
      → r.isActive = true)
    (hexpected : nameKey u name ∈ undecided ∨ nameKey u name ∈ accepted)
    : ((∃ found t, d.resolveValue u ratio referenceTexts texts touch roles decision value
          = .ok (found, t))
        ↔ (decision = none → d.find (nameKey u name) = none
          → (d.possibleMatches ratio (nameKey u name)).isEmpty = true))
      ∧ ∀ found t, d.resolveValue u ratio referenceTexts texts touch roles decision value
          = .ok (found, t)
        → Grown undecided accepted d₀ t ∧ t.Names (nameKey u name) found.2
          ∧ ∀ key other, d.Names key other → t.Names key other := by
  have hcleaned : cleanName u value = .ok (u.cleanReferenceName value) :=
    cleanName_eq_ok.mpr ⟨hclean, rfl⟩
  obtain ⟨found, t, hresolved, hgrown, hnames, hmono⟩ := resolveNamed_ok h
    referenceTexts touch roles hblank hactive hexpected
  have hunfold : d.resolveValue u ratio referenceTexts texts touch roles decision value
      = (d.checkResolvable u ratio texts decision (u.cleanReferenceName value) name
          >>= fun _ => .ok (found, t)) := by
    unfold resolveValue
    rw [hcleaned, ok_bind, hfilter]
    dsimp only
    rw [hname, hresolved]
  rw [hunfold, ← checkResolvable_ok hu h texts (u.cleanReferenceName value) hactive]
  constructor
  · constructor
    · rintro ⟨found', t', hok⟩
      obtain ⟨_, hcheck, -⟩ := bind_eq_ok.mp hok
      exact hcheck
    · intro hcheck
      exact ⟨found, t, bind_eq_ok.mpr ⟨_, hcheck, rfl⟩⟩
  · intro found' t' hok
    obtain ⟨_, -, he⟩ := bind_eq_ok.mp hok
    obtain ⟨rfl, rfl⟩ := Prod.mk.inj (Except.ok.inj he)
    exact ⟨hgrown, hnames, hmono⟩

/-- What resolving a prepared value does. -/
structure Resolves (u : Unicode) (ratio : String → String → Rat) (undecided accepted : List String)
    (d₀ d : Directory ρ) (decision : Option ReferenceDecision) (value : String)
    (result : Except Failure ((String × Nat) × Directory ρ))
    : Prop where
  succeeds : (∃ found t, result = .ok (found, t))
    ↔ (decision = none → d.NameClear ratio accepted (nameKey u value))
  leads : ∀ found t, result = .ok (found, t)
    → Grown undecided accepted d₀ t ∧ LeadsTo u decision value t found.2
      ∧ ∀ key other, d.Names key other → t.Names key other

/-- A prepared value resolves as its decision says, where an undecided name is clear. -/
theorem Prepared.resolves (hp : Prepared u ratio undecided accepted d₀ decision value)
    (referenceTexts : ReferenceTexts) (texts : DecisionTexts) (touch : ρ → ρ) (roles : ρ)
    (hu : u.CleansOnce) (hd : d₀.Sound) (h : Grown undecided accepted d₀ d)
    : Resolves u ratio undecided accepted d₀ d decision value
        (d.resolveValue u ratio referenceTexts texts touch roles decision value) := by
  obtain ⟨hclean, hp⟩ := hp
  rcases decision with _ | decision
  · have hblank : u.cleanReferenceName (u.cleanReferenceName value) ≠ "" := by rwa [hu value]
    have hname : overrideResolutionValue (u.cleanReferenceName value) none
        = u.cleanReferenceName value := rfl
    obtain ⟨hsucceeds, hleads⟩ := resolveValue_named hu h ratio referenceTexts texts touch roles
      hclean rfl hname hblank (by rw [nameKey_clean hu]; exact hp.active)
      (by rw [nameKey_clean hu]; exact .inl hp.expected)
    rw [nameKey_clean hu] at hsucceeds
    simp only [nameKey_clean hu] at hleads
    refine ⟨hsucceeds.trans ?_, hleads⟩
    refine forall_congr' fun _ => forall_congr' fun hnone => ?_
    have hbefore : d₀.find (nameKey u value) = none := by
      by_contra hc
      obtain ⟨⟨id, r⟩, hfound⟩ := Option.ne_none_iff_exists'.mp hc
      exact find_none h.sound.owned hnone id (h.names_kept (find_some hfound).2)
    exact h.possibleMatches_iff hd (hp.stored hbefore) (hp.batch hbefore) hnone
  · have hdecided : some decision ≠ none := Option.some_ne_none decision
    by_cases hmap : decision.action = .mapExisting
    · simp only [if_pos hmap] at hp
      obtain ⟨id, r, hp⟩ := hp
      obtain ⟨name, hresolved⟩ := resolveValue_mapping h hclean hmap hp ratio referenceTexts texts
        touch roles
      rw [hresolved]
      refine ⟨⟨fun _ hc => absurd hc hdecided, fun _ => ⟨_, _, rfl⟩⟩, fun found t hok => ?_⟩
      obtain ⟨rfl, rfl⟩ := Prod.mk.inj (Except.ok.inj hok)
      refine ⟨h.touched touch id, ?_, fun _ _ hnames => Grown.names_touched.mpr hnames⟩
      simp only [LeadsTo, if_pos hmap, hp.target]
    · simp only [if_neg hmap] at hp
      have hname : overrideResolutionValue (u.cleanReferenceName value) (some decision)
          = decision.displayName.getD "" := by
        simp only [overrideResolutionValue, if_neg hmap, orElse, if_neg hp.named]
      obtain ⟨hsucceeds, hleads⟩ := resolveValue_named hu h ratio referenceTexts texts touch roles
        hclean (by simp [Option.filter, hmap]) hname hp.clean
        (fun id _ _ hnames => absurd hnames (hp.free id)) (.inr hp.expected)
      refine ⟨hsucceeds.trans ?_, ?_⟩
      · exact ⟨fun _ hc => absurd hc hdecided, fun _ hc => absurd hc hdecided⟩
      · intro found t hok
        obtain ⟨hgrown, hnames, hmono⟩ := hleads found t hok
        refine ⟨hgrown, ?_, hmono⟩
        simpa only [LeadsTo, if_neg hmap] using hnames

end Directory

end LicenseTrack.References
