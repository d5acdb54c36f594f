import LicenseTrack.Chains.Runs

/-! The two ends of a renewal: a step that writes an edge on both of them, with the status and the
reference that go with it, keeps the chains of all licences in agreement.
-/

namespace LicenseTrack

open Library

/-- The predecessors that chain columns name. -/
def LicenseChain.predecessors (x : LicenseChain) : List Nat :=
  x.renewedFromId.toList ++ x.predecessorId.toList ++ x.cotermFromIds.getD []

/-- The chain columns of the stored licences. -/
def Store.chains (s : Store) (id : Nat) : Option LicenseChain :=
  (s.license? id).map (·.toLicenseChain)

/-- Chain columns that hold a reference. -/
def LicenseChain.Named (x : LicenseChain) : Prop := x.licenseRef ≠ none ∧ x.licenseRef ≠ some ""

theorem LicenseChain.primary_mem {x : LicenseChain} {id : Nat}
    (h : x.renewedFromId = some id ∨ x.predecessorId = some id)
    : id ∈ x.predecessors := by
  rw [LicenseChain.predecessors]
  rcases h with h | h <;> simp [h]

theorem LicenseChain.Named.truthy {x : LicenseChain} (h : x.Named)
    : ∃ ref, x.licenseRef = some ref ∧ LicenseTrack.truthy x.licenseRef = some ref := by
  obtain ⟨ref, href⟩ := Option.ne_none_iff_exists'.mp h.1
  have hblank := h.2
  rw [href] at hblank
  refine ⟨ref, href, ?_⟩
  rw [href, LicenseTrack.truthy, Option.filter_some, if_pos]
  simpa using hblank

/-- One licence names the other as its predecessor. -/
def NamesPredecessor (chains : Nat → Option LicenseChain) (a b : Nat) : Prop :=
  ∃ y, chains b = some y ∧ a ∈ y.predecessors

/-- Chains whose edges both ends record. The last three fields carry the others through a run: a
licence without a primary predecessor has none at all, an adopted successor has its predecessor
alone, and every licence has a reference to hand on.
-/
structure Reciprocal (chains : Nat → Option LicenseChain) : Prop where
  edges : ∀ a x, chains a = some x → ∀ b, x.renewedToId = some b ↔ NamesPredecessor chains a b
  stored : ∀ a b, NamesPredecessor chains a b → ∃ x, chains a = some x
  status : ∀ a x, chains a = some x → (x.renewedToId ≠ none ↔ x.lifecycleStatus = some .renewed)
  reference : ∀ b y, chains b = some y → ∀ a, y.renewedFromId = some a ∨ y.predecessorId = some a
    → ∀ x, chains a = some x → y.licenseRef = x.licenseRef
  coterm : ∀ b y, chains b = some y → y.renewedFromId = none → y.predecessorId = none
    → y.predecessors = []
  linked : ∀ a x, chains a = some x → x.existingSuccessorLinkedAt ≠ none
    → ∃ b y, x.renewedToId = some b ∧ chains b = some y ∧ y.cotermFromIds.getD [] = []
        ∧ ∀ p ∈ y.predecessors, p = a
  named : ∀ a x, chains a = some x → x.Named

section

variable {chains chains' : Nat → Option LicenseChain}

theorem Reciprocal.not_named (h : Reciprocal chains) {a : Nat} {x : LicenseChain}
    (hx : chains a = some x) (hnone : x.renewedToId = none) (b : Nat)
    : ¬ NamesPredecessor chains a b := fun hnames => by
  have hto := (h.edges a x hx b).mpr hnames
  rw [hnone] at hto
  cases hto

theorem Reciprocal.not_linked (h : Reciprocal chains) {a : Nat} {x : LicenseChain}
    (hx : chains a = some x) (hnone : x.renewedToId = none)
    : x.existingSuccessorLinkedAt = none := by
  by_contra hlinked
  obtain ⟨b, _, hto, -⟩ := h.linked a x hx hlinked
  rw [hnone] at hto
  cases hto

-- New edges

/-- A predecessor after its renewal. -/
structure MarksRenewed (predecessorIds : List Nat) (b : Nat) (y x x' : LicenseChain) (a : Nat)
    : Prop where
  renewedFrom : x'.renewedFromId = x.renewedFromId
  predecessor : x'.predecessorId = x.predecessorId
  coterm : x'.cotermFromIds = x.cotermFromIds
  reference : x'.licenseRef = x.licenseRef
  renewedTo : x'.renewedToId = some b
  status : x'.lifecycleStatus = some .renewed
  linked : x'.existingSuccessorLinkedAt = x.existingSuccessorLinkedAt
    ∨ y.cotermFromIds.getD [] = [] ∧ predecessorIds = [a]

theorem MarksRenewed.predecessors {predecessorIds : List Nat} {a b : Nat} {y x x' : LicenseChain}
    (h : MarksRenewed predecessorIds b y x x' a)
    : x'.predecessors = x.predecessors := by
  simp only [LicenseChain.predecessors, h.renewedFrom, h.predecessor, h.coterm]

/-- Licences without a successor become the predecessors of one that was in no renewal, or that is
new.
-/
structure AddsRenewal (predecessorIds : List Nat) (b : Nat) (y : LicenseChain)
    (chains chains' : Nat → Option LicenseChain)
    : Prop where
  apart : b ∉ predecessorIds
  free : ∀ p ∈ predecessorIds, ∃ x, chains p = some x ∧ x.renewedToId = none
  outside : ∀ old, chains b = some old → old.renewedToId = none ∧ old.predecessors = []
  successor : chains' b = some y
  records : ∀ p, p ∈ y.predecessors ↔ p ∈ predecessorIds
  coterm : y.renewedFromId = none → y.predecessorId = none → y.predecessors = []
  renewedTo : y.renewedToId = none
  status : y.lifecycleStatus ≠ some .renewed
  linked : y.existingSuccessorLinkedAt = none
  named : y.Named
  reference : ∀ p, y.renewedFromId = some p ∨ y.predecessorId = some p
    → ∀ x, chains p = some x → y.licenseRef = x.licenseRef
  back : ∀ a x', a ≠ b → chains' a = some x' → ∃ x, chains a = some x
    ∧ (a ∈ predecessorIds → MarksRenewed predecessorIds b y x x' a)
    ∧ (a ∉ predecessorIds → x' = x)
  forth : ∀ a, a ≠ b → (∃ x, chains a = some x) → ∃ x', chains' a = some x'

namespace AddsRenewal

variable {predecessorIds : List Nat} {b : Nat} {y : LicenseChain}

theorem names_iff (h : AddsRenewal predecessorIds b y chains chains') (a c : Nat)
    : NamesPredecessor chains' a c
      ↔ c = b ∧ a ∈ predecessorIds ∨ c ≠ b ∧ NamesPredecessor chains a c := by
  by_cases hc : c = b
  · subst hc
    simp only [NamesPredecessor, h.successor, Option.some.injEq, exists_eq_left', h.records,
      true_and, ne_eq, not_true_eq_false, false_and, or_false]
  · simp only [hc, false_and, false_or, ne_eq, not_false_eq_true, true_and]
    have hkeep : ∀ x x', chains c = some x → chains' c = some x'
        → x'.predecessors = x.predecessors := fun x x' hx hx' => by
      obtain ⟨old, hold, hmarked, hsame⟩ := h.back c x' hc hx'
      obtain rfl := Option.some.inj (hx.symm.trans hold)
      by_cases hm : c ∈ predecessorIds
      · exact (hmarked hm).predecessors
      · rw [hsame hm]
    constructor
    · rintro ⟨x', hx', ha⟩
      obtain ⟨x, hx, -⟩ := h.back c x' hc hx'
      exact ⟨x, hx, hkeep x x' hx hx' ▸ ha⟩
    · rintro ⟨x, hx, ha⟩
      obtain ⟨x', hx'⟩ := h.forth c hc ⟨x, hx⟩
      exact ⟨x', hx', (hkeep x x' hx hx').symm ▸ ha⟩

/-- New edges that both ends record keep the chains in agreement. -/
theorem reciprocal (h : AddsRenewal predecessorIds b y chains chains') (hs : Reciprocal chains)
    : Reciprocal chains' := by
  have hunnamed : ∀ c, ¬ NamesPredecessor chains b c := fun c hnames => by
    obtain ⟨old, hold⟩ := hs.stored b c hnames
    exact hs.not_named hold (h.outside old hold).1 c hnames
  have hreference : ∀ a x x', a ≠ b → chains a = some x → chains' a = some x'
      → x'.licenseRef = x.licenseRef := fun a x x' hne hx hx' => by
    obtain ⟨old, hold, hmarked, hsame⟩ := h.back a x' hne hx'
    obtain rfl := Option.some.inj (hx.symm.trans hold)
    by_cases hm : a ∈ predecessorIds
    · exact (hmarked hm).reference
    · rw [hsame hm]
  constructor
  case edges =>
    intro a x' hx' c
    rw [h.names_iff]
    by_cases hab : a = b
    · subst hab
      obtain rfl := Option.some.inj (h.successor.symm.trans hx')
      simp [h.renewedTo, h.apart, hunnamed]
    · obtain ⟨x, hx, hmarked, hsame⟩ := h.back a x' hab hx'
      by_cases hm : a ∈ predecessorIds
      · obtain ⟨free, hfree, hnone⟩ := h.free a hm
        obtain rfl := Option.some.inj (hx.symm.trans hfree)
        simp [(hmarked hm).renewedTo, hm, hs.not_named hx hnone, eq_comm]
      · obtain rfl := hsame hm
        rw [hs.edges a _ hx c]
        refine ⟨fun hnames => .inr ⟨?_, hnames⟩, fun hnames => ?_⟩
        · rintro rfl
          obtain ⟨old, hold, ha⟩ := hnames
          rw [(h.outside old hold).2] at ha
          cases ha
        · exact (hnames.resolve_left fun hnew => hm hnew.2).2
  case stored =>
    intro a c hnames
    rcases (h.names_iff a c).mp hnames with ⟨rfl, ha⟩ | ⟨-, hnames⟩
    · obtain ⟨x, hx, -⟩ := h.free a ha
      exact h.forth a (fun he => h.apart (he ▸ ha)) ⟨x, hx⟩
    · by_cases hab : a = b
      · exact ⟨y, hab ▸ h.successor⟩
      · exact h.forth a hab (hs.stored a c hnames)
  case status =>
    intro a x' hx'
    by_cases hab : a = b
    · subst hab
      obtain rfl := Option.some.inj (h.successor.symm.trans hx')
      simp [h.renewedTo, h.status]
    · obtain ⟨x, hx, hmarked, hsame⟩ := h.back a x' hab hx'
      by_cases hm : a ∈ predecessorIds
      · simp [(hmarked hm).renewedTo, (hmarked hm).status]
      · obtain rfl := hsame hm
        exact hs.status a _ hx
  case reference =>
    intro c z hz a ha x' hx'
    by_cases hc : c = b
    · subst hc
      obtain rfl := Option.some.inj (h.successor.symm.trans hz)
      have hmem : a ∈ predecessorIds := (h.records a).mp (LicenseChain.primary_mem ha)
      have hne : a ≠ c := fun he => h.apart (he ▸ hmem)
      obtain ⟨x, hx, -⟩ := h.back a x' hne hx'
      exact (h.reference a ha x hx).trans (hreference a x x' hne hx hx').symm
    · obtain ⟨old, hold, hmarked, hsame⟩ := h.back c z hc hz
      have hfrom : old.renewedFromId = some a ∨ old.predecessorId = some a := by
        by_cases hm : c ∈ predecessorIds
        · rwa [← (hmarked hm).renewedFrom, ← (hmarked hm).predecessor]
        · rwa [← hsame hm]
      have hnames : NamesPredecessor chains a c := ⟨old, hold, LicenseChain.primary_mem hfrom⟩
      have hne : a ≠ b := fun he => hunnamed c (he ▸ hnames)
      obtain ⟨x, hx, -⟩ := h.back a x' hne hx'
      rw [hreference c old z hc hold hz, hs.reference c old hold a hfrom x hx,
        hreference a x x' hne hx hx']
  case coterm =>
    intro c z hz hfrom hpredecessor
    by_cases hc : c = b
    · subst hc
      obtain rfl := Option.some.inj (h.successor.symm.trans hz)
      exact h.coterm hfrom hpredecessor
    · obtain ⟨old, hold, hmarked, hsame⟩ := h.back c z hc hz
      by_cases hm : c ∈ predecessorIds
      · rw [(hmarked hm).predecessors]
        exact hs.coterm c old hold ((hmarked hm).renewedFrom ▸ hfrom)
          ((hmarked hm).predecessor ▸ hpredecessor)
      · obtain rfl := hsame hm
        exact hs.coterm c _ hold hfrom hpredecessor
  case linked =>
    intro a x' hx' hlinked
    by_cases hab : a = b
    · subst hab
      obtain rfl := Option.some.inj (h.successor.symm.trans hx')
      exact absurd h.linked hlinked
    · obtain ⟨x, hx, hmarked, hsame⟩ := h.back a x' hab hx'
      by_cases hm : a ∈ predecessorIds
      · obtain ⟨free, hfree, hnone⟩ := h.free a hm
        obtain rfl := Option.some.inj (hx.symm.trans hfree)
        rcases (hmarked hm).linked with hkept | ⟨hcoterm, rfl⟩
        · exact absurd (hkept.trans (hs.not_linked hx hnone)) hlinked
        · exact ⟨b, y, (hmarked hm).renewedTo, h.successor, hcoterm,
            fun p hp => List.mem_singleton.mp ((h.records p).mp hp)⟩
      · obtain rfl := hsame hm
        obtain ⟨c, z, hto, hz, hcoterm, honly⟩ := hs.linked a _ hx hlinked
        have hnames := (hs.edges a _ hx c).mp hto
        have hc : c ≠ b := by
          rintro rfl
          obtain ⟨old, hold, ha⟩ := hnames
          rw [(h.outside old hold).2] at ha
          cases ha
        obtain ⟨z', hz'⟩ := h.forth c hc ⟨z, hz⟩
        obtain ⟨old, hold, hmarked', hsame'⟩ := h.back c z' hc hz'
        obtain rfl := Option.some.inj (hz.symm.trans hold)
        refine ⟨c, z', hto, hz', ?_⟩
        by_cases hcm : c ∈ predecessorIds
        · rw [(hmarked' hcm).coterm, (hmarked' hcm).predecessors]
          exact ⟨hcoterm, honly⟩
        · rw [hsame' hcm]
          exact ⟨hcoterm, honly⟩
  case named =>
    intro a x' hx'
    by_cases hab : a = b
    · subst hab
      obtain rfl := Option.some.inj (h.successor.symm.trans hx')
      exact h.named
    · obtain ⟨x, hx, -⟩ := h.back a x' hab hx'
      rw [LicenseChain.Named, hreference a x x' hab hx hx']
      exact hs.named a x hx

end AddsRenewal


-- Removed edges

/-- An adopted successor leaves the predecessor that was alone in adopting it. -/
structure RemovesRenewal (a b : Nat) (x y x' y' : LicenseChain)
    (chains chains' : Nat → Option LicenseChain)
    : Prop where
  predecessor : chains a = some x
  linked : x.existingSuccessorLinkedAt ≠ none
  renewedTo : x.renewedToId = some b
  successor : chains b = some y
  unrenewed : y.renewedToId = none
  predecessor' : chains' a = some x'
  successor' : chains' b = some y'
  withdrawn : x' = { x with
    lifecycleStatus := none
    renewedToId := none
    existingSuccessorLinkedAt := none
    existingSuccessorLinkedByEmail := x'.existingSuccessorLinkedByEmail
    existingSuccessorMaintenanceState := x'.existingSuccessorMaintenanceState
    existingSuccessorOriginalRef := x'.existingSuccessorOriginalRef }
  freed : y' = { y with
    renewedFromId := none
    predecessorId := none
    licenseRef := y'.licenseRef
    licenseRefAliases := y'.licenseRefAliases }
  named : y'.Named
  others : ∀ c, c ≠ a → c ≠ b → chains' c = chains c

namespace RemovesRenewal

variable {a b : Nat} {x y x' y' : LicenseChain}

theorem names_iff (h : RemovesRenewal a b x y x' y' chains chains') (hs : Reciprocal chains)
    (p c : Nat)
    : NamesPredecessor chains' p c ↔ c ≠ b ∧ NamesPredecessor chains p c := by
  by_cases hcb : c = b
  · subst hcb
    obtain ⟨c', y₀, hto, hy₀, hcoterm, -⟩ := hs.linked a x h.predecessor h.linked
    obtain rfl := Option.some.inj (h.renewedTo.symm.trans hto)
    obtain rfl := Option.some.inj (h.successor.symm.trans hy₀)
    have hnone : y'.predecessors = [] := by
      rw [h.freed]
      simpa [LicenseChain.predecessors] using hcoterm
    simp [NamesPredecessor, h.successor', hnone]
  · by_cases hca : c = a
    · subst hca
      have hkept : x'.predecessors = x.predecessors := by
        rw [h.withdrawn]
        rfl
      simp [NamesPredecessor, h.predecessor, h.predecessor', hkept, hcb]
    · simp [NamesPredecessor, h.others c hca hcb, hcb]

theorem back (h : RemovesRenewal a b x y x' y' chains chains') {c : Nat} {z' : LicenseChain}
    (hz' : chains' c = some z')
    : c = a ∧ z' = x' ∨ c = b ∧ z' = y' ∨ c ≠ a ∧ c ≠ b ∧ chains c = some z' := by
  by_cases hca : c = a
  · subst hca
    exact .inl ⟨rfl, Option.some.inj (hz'.symm.trans h.predecessor')⟩
  · by_cases hcb : c = b
    · subst hcb
      exact .inr (.inl ⟨rfl, Option.some.inj (hz'.symm.trans h.successor')⟩)
    · exact .inr (.inr ⟨hca, hcb, (h.others c hca hcb) ▸ hz'⟩)

/-- An edge that both ends drop leaves the chains in agreement. -/
theorem reciprocal (h : RemovesRenewal a b x y x' y' chains chains') (hs : Reciprocal chains)
    : Reciprocal chains' := by
  have hunnamed := hs.not_named h.successor h.unrenewed
  have honly : ∀ p, NamesPredecessor chains p b → p = a := fun p hnames => by
    obtain ⟨c', y₀, hto, hy₀, -, honly⟩ := hs.linked a x h.predecessor h.linked
    obtain rfl := Option.some.inj (h.renewedTo.symm.trans hto)
    obtain ⟨y₁, hy₁, hp⟩ := hnames
    obtain rfl := Option.some.inj (hy₀.symm.trans hy₁)
    exact honly p hp
  have hreference : ∀ c z z', c ≠ b → chains c = some z → chains' c = some z'
      → z'.licenseRef = z.licenseRef := fun c z z' hcb hz hz' => by
    rcases h.back hz' with ⟨rfl, rfl⟩ | ⟨hc, -⟩ | ⟨-, -, hold⟩
    · obtain rfl := Option.some.inj (hz.symm.trans h.predecessor)
      rw [h.withdrawn]
    · exact absurd hc hcb
    · rw [Option.some.inj (hz.symm.trans hold)]
  constructor
  case edges =>
    intro p z' hz' c
    rw [h.names_iff hs]
    rcases h.back hz' with ⟨rfl, rfl⟩ | ⟨rfl, rfl⟩ | ⟨hpa, hpb, hold⟩
    · rw [h.withdrawn]
      simp only [reduceCtorEq, false_iff, not_and]
      intro hcb hnames
      have hto := (hs.edges p x h.predecessor c).mpr hnames
      exact hcb (Option.some.inj (hto.symm.trans h.renewedTo))
    · rw [h.freed]
      simp [h.unrenewed, hunnamed]
    · rw [hs.edges p z' hold c]
      refine ⟨fun hnames => ⟨fun hcb => ?_, hnames⟩, fun hnames => hnames.2⟩
      exact hpa (honly p (hcb ▸ hnames))
  case stored =>
    intro p c hnames
    have hnames := ((h.names_iff hs p c).mp hnames).2
    by_cases hpa : p = a
    · exact ⟨x', hpa ▸ h.predecessor'⟩
    · by_cases hpb : p = b
      · exact ⟨y', hpb ▸ h.successor'⟩
      · rw [h.others p hpa hpb]
        exact hs.stored p c hnames
  case status =>
    intro p z' hz'
    rcases h.back hz' with ⟨rfl, rfl⟩ | ⟨rfl, rfl⟩ | ⟨hpa, hpb, hold⟩
    · rw [h.withdrawn]
      simp
    · rw [h.freed]
      exact hs.status p y h.successor
    · exact hs.status p z' hold
  case reference =>
    intro c z' hz' p hp w' hw'
    have hnames : NamesPredecessor chains' p c := ⟨z', hz', LicenseChain.primary_mem hp⟩
    obtain ⟨hcb, hnames⟩ := (h.names_iff hs p c).mp hnames
    have hpb : p ≠ b := fun he => hunnamed c (he ▸ hnames)
    obtain ⟨w, hw⟩ := hs.stored p c hnames
    obtain ⟨z, hz, -⟩ := hnames
    have hfrom : z.renewedFromId = some p ∨ z.predecessorId = some p := by
      rcases h.back hz' with ⟨rfl, rfl⟩ | ⟨hc, -⟩ | ⟨-, -, hold⟩
      · obtain rfl := Option.some.inj (hz.symm.trans h.predecessor)
        rwa [h.withdrawn] at hp
      · exact absurd hc hcb
      · rwa [Option.some.inj (hz.symm.trans hold)]
    rw [hreference c z z' hcb hz hz', hs.reference c z hz p hfrom w hw,
      hreference p w w' hpb hw hw']
  case coterm =>
    intro c z' hz' hfrom hpredecessor
    rcases h.back hz' with ⟨rfl, rfl⟩ | ⟨rfl, rfl⟩ | ⟨hca, hcb, hold⟩
    · rw [h.withdrawn] at hfrom hpredecessor ⊢
      exact hs.coterm c x h.predecessor hfrom hpredecessor
    · refine List.eq_nil_iff_forall_not_mem.mpr fun p hp => ?_
      exact ((h.names_iff hs p c).mp ⟨z', hz', hp⟩).1 rfl
    · exact hs.coterm c z' hold hfrom hpredecessor
  case linked =>
    intro p z' hz' hlinked
    rcases h.back hz' with ⟨rfl, rfl⟩ | ⟨rfl, rfl⟩ | ⟨hpa, hpb, hold⟩
    · rw [h.withdrawn] at hlinked
      exact absurd rfl hlinked
    · rw [h.freed] at hlinked
      exact absurd (hs.not_linked h.successor h.unrenewed) hlinked
    · obtain ⟨c, w, hto, hw, hcoterm, hsole⟩ := hs.linked p z' hold hlinked
      have hnames := (hs.edges p z' hold c).mp hto
      have hcb : c ≠ b := fun he => hpa (honly p (he ▸ hnames))
      by_cases hca : c = a
      · subst hca
        obtain rfl := Option.some.inj (hw.symm.trans h.predecessor)
        refine ⟨c, x', hto, h.predecessor', ?_⟩
        rw [h.withdrawn]
        exact ⟨hcoterm, hsole⟩
      · exact ⟨c, w, hto, (h.others c hca hcb).trans hw, hcoterm, hsole⟩
  case named =>
    intro c z' hz'
    rcases h.back hz' with ⟨rfl, rfl⟩ | ⟨rfl, rfl⟩ | ⟨hca, hcb, hold⟩
    · rw [h.withdrawn]
      exact hs.named c x h.predecessor
    · exact h.named
    · exact hs.named c z' hold

end RemovesRenewal

-- Rows outside renewals

/-- Chain columns of a licence outside every renewal. -/
structure LicenseChain.Outside (x : LicenseChain) : Prop where
  renewedTo : x.renewedToId = none
  predecessors : x.predecessors = []
  status : x.lifecycleStatus ≠ some .renewed
  linked : x.existingSuccessorLinkedAt = none
  named : x.Named

/-- Rows come and go outside the renewals, and the others keep their chain columns, but for the
status of a licence that has no successor.
-/
structure KeepsRenewals (chains chains' : Nat → Option LicenseChain) : Prop where
  back : ∀ a x', chains' a = some x' → x'.Outside ∧ chains a = none
    ∨ ∃ x, chains a = some x ∧ x' = { x with lifecycleStatus := x'.lifecycleStatus }
        ∧ (x'.lifecycleStatus = x.lifecycleStatus
          ∨ x.renewedToId = none ∧ x'.lifecycleStatus ≠ some .renewed)
  forth : ∀ a x, chains a = some x → (∃ x', chains' a = some x')
    ∨ x.renewedToId = none ∧ x.predecessors = []

theorem predecessors_of_status {x x' : LicenseChain}
    (h : x' = { x with lifecycleStatus := x'.lifecycleStatus })
    : x'.predecessors = x.predecessors := by
  rw [h]
  rfl

theorem KeepsRenewals.names_iff (h : KeepsRenewals chains chains') (a b : Nat)
    : NamesPredecessor chains' a b ↔ NamesPredecessor chains a b := by
  constructor
  · rintro ⟨y', hy', ha⟩
    rcases h.back b y' hy' with ⟨hout, -⟩ | ⟨y, hy, hsame, -⟩
    · rw [hout.predecessors] at ha
      cases ha
    · exact ⟨y, hy, predecessors_of_status hsame ▸ ha⟩
  · rintro ⟨y, hy, ha⟩
    rcases h.forth b y hy with ⟨y', hy'⟩ | ⟨-, hnone⟩
    · rcases h.back b y' hy' with ⟨-, hmissing⟩ | ⟨old, hold, hsame, -⟩
      · rw [hy] at hmissing
        cases hmissing
      · obtain rfl := Option.some.inj (hy.symm.trans hold)
        exact ⟨y', hy', (predecessors_of_status hsame).symm ▸ ha⟩
    · rw [hnone] at ha
      cases ha

/-- Rows outside the renewals leave the chains in agreement. -/
theorem KeepsRenewals.reciprocal (h : KeepsRenewals chains chains') (hs : Reciprocal chains)
    : Reciprocal chains' := by
  constructor
  case edges =>
    intro a x' hx' b
    rw [h.names_iff]
    rcases h.back a x' hx' with ⟨hout, hmissing⟩ | ⟨x, hx, hsame, -⟩
    · rw [hout.renewedTo]
      simp only [reduceCtorEq, false_iff]
      intro hnames
      obtain ⟨x, hx⟩ := hs.stored a b hnames
      rw [hmissing] at hx
      cases hx
    · rw [hsame]
      exact hs.edges a x hx b
  case stored =>
    intro a b hnames
    have hnames := (h.names_iff a b).mp hnames
    obtain ⟨x, hx⟩ := hs.stored a b hnames
    rcases h.forth a x hx with hkept | ⟨hnone, -⟩
    · exact hkept
    · exact absurd hnames (hs.not_named hx hnone b)
  case status =>
    intro a x' hx'
    rcases h.back a x' hx' with ⟨hout, -⟩ | ⟨x, hx, hsame, hstatus⟩
    · simp [hout.renewedTo, hout.status]
    · have hto : x'.renewedToId = x.renewedToId := by rw [hsame]
      rcases hstatus with hstatus | ⟨hnone, hother⟩
      · rw [hto, hstatus]
        exact hs.status a x hx
      · simp [hto, hnone, hother]
  case reference =>
    intro b y' hy' a ha x' hx'
    rcases h.back b y' hy' with ⟨hout, -⟩ | ⟨y, hy, hsame, -⟩
    · have hmem := LicenseChain.primary_mem ha
      rw [hout.predecessors] at hmem
      cases hmem
    · have hfrom : y.renewedFromId = some a ∨ y.predecessorId = some a := by
        rwa [hsame] at ha
      have hnames : NamesPredecessor chains a b := ⟨y, hy, LicenseChain.primary_mem hfrom⟩
      rcases h.back a x' hx' with ⟨-, hmissing⟩ | ⟨x, hx, hsame', -⟩
      · obtain ⟨x, hx⟩ := hs.stored a b hnames
        rw [hmissing] at hx
        cases hx
      · rw [hsame, hsame']
        exact hs.reference b y hy a hfrom x hx
  case coterm =>
    intro b y' hy' hfrom hpredecessor
    rcases h.back b y' hy' with ⟨hout, -⟩ | ⟨y, hy, hsame, -⟩
    · exact hout.predecessors
    · rw [hsame] at hfrom hpredecessor ⊢
      exact hs.coterm b y hy hfrom hpredecessor
  case linked =>
    intro a x' hx' hlinked
    rcases h.back a x' hx' with ⟨hout, -⟩ | ⟨x, hx, hsame, -⟩
    · exact absurd hout.linked hlinked
    · rw [hsame] at hlinked ⊢
      obtain ⟨b, y, hto, hy, hcoterm, honly⟩ := hs.linked a x hx hlinked
      have hnames := (hs.edges a x hx b).mp hto
      obtain ⟨y', hy', -⟩ := (h.names_iff a b).mpr hnames
      rcases h.back b y' hy' with ⟨-, hmissing⟩ | ⟨old, hold, hsame', -⟩
      · rw [hy] at hmissing
        cases hmissing
      · obtain rfl := Option.some.inj (hy.symm.trans hold)
        refine ⟨b, y', hto, hy', ?_⟩
        rw [hsame']
        exact ⟨hcoterm, honly⟩
  case named =>
    intro a x' hx'
    rcases h.back a x' hx' with ⟨hout, -⟩ | ⟨x, hx, hsame, -⟩
    · exact hout.named
    · rw [hsame]
      exact hs.named a x hx

end

-- Stores

theorem Store.chains_eq_some {s : Store} {id : Nat} {x : LicenseChain}
    : s.chains id = some x ↔ ∃ l, s.license? id = some l ∧ l.toLicenseChain = x :=
  Option.map_eq_some_iff

theorem Store.chains_of_license {s : Store} {id : Nat} {l : License} (h : s.license? id = some l)
    : s.chains id = some l.toLicenseChain := by
  rw [Store.chains, h, Option.map_some]

theorem chains_of_agrees {s t : Store}
    (h : s.licenses.Agrees (fun l : License => l.toLicenseChain) t.licenses)
    : t.chains = s.chains :=
  funext h

theorem SameCore.chains {s t : Store} (h : SameCore s t) : t.chains = s.chains :=
  chains_of_agrees (h.coarsen fun core => core.2.2.2)

theorem markRow_marks {predecessorIds : List Nat} {b a : Nat} {old : License} {y : LicenseChain}
    (h : a ∈ predecessorIds)
    : MarksRenewed predecessorIds b y old.toLicenseChain
        (markRow predecessorIds b a old).toLicenseChain a := by
  rw [markRow, if_pos h]
  exact ⟨rfl, rfl, rfl, rfl, rfl, rfl, .inl rfl⟩

theorem markRow_outside {predecessorIds : List Nat} {b a : Nat} {old : License}
    (h : a ∉ predecessorIds)
    : markRow predecessorIds b a old = old :=
  if_neg h

/-- A licence that is made adds the renewals of the licences that its line renews. -/
theorem LicenseMade.addsRenewal {s t : Store} {id : Nat} {predecessorIds : List Nat}
    {row : License} (h : LicenseMade s t id predecessorIds row) (hs : Reciprocal s.chains)
    : AddsRenewal predecessorIds id row.toLicenseChain s.chains t.chains := by
  have hmissing : s.chains id = none := by
    cases hx : s.chains id with
    | none => rfl
    | some x =>
        obtain ⟨l, hl, -⟩ := Store.chains_eq_some.mp hx
        exact absurd hl h.added.not_stored
  have hapart : id ∉ predecessorIds := fun hm => by
    obtain ⟨l, hl, -⟩ := h.stored id hm
    exact h.added.not_stored hl
  have hnew : t.chains id = some row.toLicenseChain := by
    obtain ⟨l, hl, hcore⟩ := h.added.new_stored
    rw [markRow_outside hapart] at hcore
    rw [Store.chains_of_license hl, License.core_chain hcore]
  have hprimary : ∀ p, row.renewedFromId = some p ∨ row.predecessorId = some p
      → predecessorIds.head? = some p := fun p hp => by
    rcases hp with hp | hp
    · exact h.renews.renewedFrom.symm.trans hp
    · exact h.renews.predecessor.symm.trans hp
  constructor
  case apart => exact hapart
  case free =>
    intro p hp
    obtain ⟨l, hl, hnone, -⟩ := h.stored p hp
    exact ⟨_, Store.chains_of_license hl, hnone⟩
  case outside =>
    intro old hold
    rw [hmissing] at hold
    cases hold
  case successor => exact hnew
  case records => exact h.renews.mem
  case coterm =>
    intro hfrom hpredecessor
    refine List.eq_nil_iff_forall_not_mem.mpr fun p hp => ?_
    have hm := (h.renews.mem p).mp hp
    have hhead : predecessorIds.head? = none := h.renews.renewedFrom.symm.trans hfrom
    rw [List.head?_eq_none_iff.mp hhead] at hm
    cases hm
  case renewedTo => exact h.renews.renewedTo
  case status => simp [h.renews.status]
  case linked => exact h.renews.linked
  case named => exact h.reference
  case reference =>
    intro p hp x hx
    obtain ⟨l, hl, rfl⟩ := Store.chains_eq_some.mp hx
    obtain ⟨ref, href, htruthy⟩ := (hs.named p _ hx).truthy
    refine (h.sharedReference p (hprimary p hp) ref ?_).trans href.symm
    rw [hl, Option.bind_some]
    exact htruthy
  case back =>
    intro a x' hne hx'
    obtain ⟨l, hl, rfl⟩ := Store.chains_eq_some.mp hx'
    rcases h.added.row_back hl with ⟨he, -⟩ | ⟨-, old, hold, hcore⟩
    · exact absurd he hne
    · refine ⟨old.toLicenseChain, Store.chains_of_license hold, fun hm => ?_, fun hm => ?_⟩
      · rw [License.core_chain hcore]
        exact markRow_marks hm
      · rw [License.core_chain hcore, markRow_outside hm]
  case forth =>
    rintro a - ⟨x, hx⟩
    obtain ⟨l, hl, -⟩ := Store.chains_eq_some.mp hx
    obtain ⟨l', hl', -⟩ := h.added.row_forth hl
    exact ⟨_, Store.chains_of_license hl'⟩

/-- A planned link adds the renewals of the licences of a target's sources, where the target's own
licence has no successor yet.
-/
theorem PlannedLink.addsRenewal {items : List (Nat × SourcingItem)} {licenseOf : Nat → Option Nat}
    {target successorId : Nat} {s t : Store} {successor : License}
    {predecessors : List (Nat × License)} {primary : Nat × License}
    (h : PlannedLink items licenseOf target s t successorId successor predecessors primary)
    (hapart : successorId ∉ predecessors.map Prod.fst) (hfree : successor.renewedToId = none)
    (hs : Reciprocal s.chains)
    : AddsRenewal (predecessors.map Prod.fst) successorId
        (License.planned predecessors primary successor).toLicenseChain s.chains t.chains := by
  have hsuccessor := Store.chains_of_license h.successor_eq
  have hnone : successor.predecessorIds = [] :=
    hs.coterm successorId _ hsuccessor h.unrenewed.1 h.unrenewed.2
  have hcoterm : successor.cotermFromIds.getD [] = [] := by
    rw [License.predecessorIds, License.cotermIds] at hnone
    exact (List.append_eq_nil_iff.mp hnone).2
  have hstored : ∀ p ∈ predecessors, s.license? p.1 = some p.2 := fun p hp => by
    rw [h.predecessors_eq, mem_plannedPredecessors] at hp
    exact hp.1
  have hprimary := List.mem_of_mem_head? h.head
  have hrow : ∀ a, t.license? a = (s.license? a).map (fun l =>
      markRow (predecessors.map Prod.fst) successorId a
        (if a = successorId then License.planned predecessors primary l else l)) := fun a => by
    rw [h.result, Store.license?_mapLicenses, Store.license?_modifyLicense, Option.map_map]
    rfl
  constructor
  case apart => exact hapart
  case free =>
    intro p hp
    obtain ⟨entry, hentry, rfl⟩ := List.mem_map.mp hp
    exact ⟨_, Store.chains_of_license (hstored entry hentry), (h.extended entry hentry).1⟩
  case outside =>
    intro old hold
    obtain rfl := Option.some.inj (hsuccessor.symm.trans hold)
    exact ⟨hfree, hnone⟩
  case successor =>
    refine Store.chains_of_license ?_
    rw [hrow, h.successor_eq, Option.map_some, if_pos rfl, markRow_outside hapart]
  case records =>
    intro p
    have hmem : primary.1 ∈ predecessors.map Prod.fst := List.mem_map_of_mem hprimary
    simp only [LicenseChain.predecessors, License.planned, Option.toList_some, List.cons_append,
      List.nil_append, List.mem_cons]
    split
    · simp only [Option.getD_some]
      constructor
      · rintro (rfl | rfl | hp)
        · exact hmem
        · exact hmem
        · exact hp
      · exact fun hp => .inr (.inr hp)
    · next hlength =>
        rw [hcoterm]
        obtain rfl : predecessors = [primary] := by
          rcases predecessors with _ | ⟨first, _ | ⟨second, rest⟩⟩
          · cases hprimary
          · rw [List.mem_singleton.mp hprimary]
          · simp at hlength
        simp
  case coterm =>
    intro hfrom
    cases hfrom
  case renewedTo => exact hfree
  case status =>
    intro hrenewed
    exact (hs.status successorId _ hsuccessor).mpr hrenewed hfree
  case linked =>
    have hnone := hs.not_linked hsuccessor hfree
    exact hnone
  case named =>
    have hnamed := hs.named primary.1 _ (Store.chains_of_license (hstored primary hprimary))
    exact hnamed
  case reference =>
    intro p hp x hx
    obtain rfl : primary.1 = p := by
      rcases hp with hp | hp <;> exact Option.some.inj hp
    obtain rfl := Option.some.inj
      ((Store.chains_of_license (hstored primary hprimary)).symm.trans hx)
    rfl
  case back =>
    intro a x' hne hx'
    obtain ⟨l, hl, rfl⟩ := Store.chains_eq_some.mp hx'
    rw [hrow, Option.map_eq_some_iff] at hl
    obtain ⟨old, hold, rfl⟩ := hl
    rw [if_neg hne]
    exact ⟨_, Store.chains_of_license hold, markRow_marks, fun hm => by rw [markRow_outside hm]⟩
  case forth =>
    rintro a - ⟨x, hx⟩
    obtain ⟨l, hl, -⟩ := Store.chains_eq_some.mp hx
    refine ⟨_, Store.chains_of_license (l := markRow (predecessors.map Prod.fst) successorId a
      (if a = successorId then License.planned predecessors primary l else l)) ?_⟩
    rw [hrow, hl, Option.map_some]

/-- An adoption adds one renewal. -/
theorem Adoption.addsRenewal {env : Env} {s t : Store} {predecessorId successorId : Nat}
    {predecessor successor : License} {r : AdoptionRecord}
    (h : Adoption env s t predecessorId successorId predecessor successor r)
    (hs : Reciprocal s.chains)
    : AddsRenewal [predecessorId] successorId
        (successor.asSuccessor predecessorId r.chainRef).toLicenseChain s.chains t.chains := by
  have hfacts := h.candidate
  have hpredecessor := Store.chains_of_license h.foundPredecessor
  have hsuccessor := Store.chains_of_license h.foundSuccessor
  have hrow : ∀ a, t.chains a = (s.license? a).map (fun l =>
      (chainedRow env predecessorId successorId successor.licenseRef r.chainRef r.state a
        l).toLicenseChain) := fun a => by
    have ha := h.core.coarsen (fun core => core.2.2.2) a
    rw [Table.get?_mapRows, Option.map_map] at ha
    exact ha
  have hcoterm : successor.cotermFromIds.getD [] = [] := hfacts.coterm
  constructor
  case apart => simpa using hfacts.distinct
  case free =>
    intro p hp
    obtain rfl := List.mem_singleton.mp hp
    exact ⟨_, hpredecessor, hfacts.renewedTo⟩
  case outside =>
    intro old hold
    obtain rfl := Option.some.inj (hsuccessor.symm.trans hold)
    refine ⟨hfacts.successorRenewedTo, ?_⟩
    simp [LicenseChain.predecessors, hfacts.renewedFrom, hfacts.predecessorId, hcoterm]
  case successor =>
    rw [hrow, h.foundSuccessor, Option.map_some, chainedRow, if_neg hfacts.distinct, if_pos rfl]
  case records =>
    intro p
    simp [LicenseChain.predecessors, License.asSuccessor, hcoterm]
  case coterm =>
    intro hfrom
    cases hfrom
  case renewedTo => exact hfacts.successorRenewedTo
  case status =>
    intro hrenewed
    have hnone : successor.lifecycleStatus = some .renewed := hrenewed
    rw [hfacts.successorLifecycle] at hnone
    cases hnone
  case linked =>
    have hnone := hs.not_linked hsuccessor hfacts.successorRenewedTo
    exact hnone
  case named => exact ⟨by simp [License.asSuccessor], by simp [License.asSuccessor, h.chainRef]⟩
  case reference =>
    intro p hp x hx
    obtain rfl : predecessorId = p := by
      rcases hp with hp | hp <;> exact Option.some.inj hp
    obtain rfl := Option.some.inj (hpredecessor.symm.trans hx)
    obtain ⟨ref, href, htruthy⟩ := (hs.named predecessorId _ hpredecessor).truthy
    have hkept : r.chainRef = ref := h.chainRefKept ref htruthy
    simp only [License.asSuccessor, hkept, href]
  case back =>
    intro a x' hne hx'
    rw [hrow, Option.map_eq_some_iff] at hx'
    obtain ⟨old, hold, rfl⟩ := hx'
    refine ⟨_, Store.chains_of_license hold, fun hm => ?_, fun hm => ?_⟩
    · rw [chainedRow, if_pos (List.mem_singleton.mp hm)]
      refine ⟨rfl, rfl, rfl, rfl, rfl, rfl, .inr ⟨hcoterm, ?_⟩⟩
      rw [List.mem_singleton.mp hm]
    · rw [chainedRow, if_neg (by simpa using hm), if_neg hne]
  case forth =>
    rintro a - ⟨x, hx⟩
    obtain ⟨l, hl, -⟩ := Store.chains_eq_some.mp hx
    rw [hrow, hl]
    exact ⟨_, rfl⟩

theorem Undoing.removesRenewal {s t : Store} {predecessorId successorId : Nat}
    {predecessor successor : License}
    (h : Undoing s t predecessorId successorId predecessor successor) (hs : Reciprocal s.chains)
    : ∃ x' y', RemovesRenewal predecessorId successorId predecessor.toLicenseChain
        successor.toLicenseChain x' y' s.chains t.chains := by
  have hrow : ∀ a, t.chains a = (s.license? a).map (fun l =>
      (unlinkedRow predecessorId successorId predecessor.existingSuccessorOriginalRef a
        l).toLicenseChain) := fun a => by
    have ha := h.core.coarsen (fun core => core.2.2.2) a
    rw [Table.get?_mapRows, Option.map_map] at ha
    exact ha
  have hne : successorId ≠ predecessorId := by
    rintro rfl
    obtain rfl := Option.some.inj (h.foundPredecessor.symm.trans h.foundSuccessor)
    have hnone := h.unrenewed
    rw [h.renewedTo] at hnone
    cases hnone
  refine ⟨predecessor.withoutSnapshot.withdrawn.toLicenseChain,
    (successor.freed predecessor.existingSuccessorOriginalRef).toLicenseChain, ?_⟩
  constructor
  case predecessor => exact Store.chains_of_license h.foundPredecessor
  case linked => exact h.linked
  case renewedTo => exact h.renewedTo
  case successor => exact Store.chains_of_license h.foundSuccessor
  case unrenewed => exact h.unrenewed
  case predecessor' =>
    rw [hrow, h.foundPredecessor, Option.map_some, unlinkedRow, if_pos rfl, if_neg hne.symm]
  case successor' =>
    rw [hrow, h.foundSuccessor, Option.map_some, unlinkedRow, if_neg hne, if_pos rfl]
  case withdrawn => rfl
  case freed => rfl
  case named =>
    have hnamed := hs.named successorId _ (Store.chains_of_license h.foundSuccessor)
    simp only [LicenseChain.Named, License.freed]
    split
    · next hformer =>
        obtain ⟨ref, href⟩ := Option.isSome_iff_exists.mp hformer
        rw [truthy, Option.filter_eq_some_iff] at href
        rw [href.1]
        simpa using href.2
    · exact hnamed
  case others =>
    intro c hca hcb
    rw [hrow, Store.chains]
    refine congrArg (Option.map · (s.license? c)) (funext fun l => ?_)
    rw [unlinkedRow, if_neg hca, if_neg hcb]

theorem BesideChains.keepsRenewals {s t : Store} (h : BesideChains s t)
    : KeepsRenewals s.chains t.chains := by
  constructor
  · intro a x' hx'
    obtain ⟨l, hl, rfl⟩ := Store.chains_eq_some.mp hx'
    cases hx : s.chains a with
    | none =>
        left
        rcases h.added a l hl with ⟨old, hold⟩ | hnew
        · rw [Store.chains_of_license hold] at hx
          cases hx
        · exact ⟨⟨hnew.renewedTo, hnew.predecessors, hnew.status, hnew.linked, hnew.reference⟩, rfl⟩
    | some x =>
        right
        obtain ⟨old, hold, rfl⟩ := Store.chains_eq_some.mp hx
        obtain ⟨l', hl', hbeside, hstatus⟩ := h.kept a old hold
        obtain rfl := Option.some.inj (hl.symm.trans hl')
        refine ⟨_, rfl, ?_, hstatus⟩
        have hsame := congrArg (fun chain : LicenseChain =>
          { chain with lifecycleStatus := l.lifecycleStatus }) hbeside
        exact hsame
  · intro a x hx
    obtain ⟨l, hl, -⟩ := Store.chains_eq_some.mp hx
    obtain ⟨l', hl', -⟩ := h.kept a l hl
    exact .inl ⟨_, Store.chains_of_license hl'⟩

end LicenseTrack
