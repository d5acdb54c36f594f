import LicenseTrack.Library.Digraph
import LicenseTrack.Library.Sorting
import LicenseTrack.Services.OrderConversion

/-! The order in which a batch conversion converts postponed maintenance lines, and the parents that
they inherit from the lines planned before them.
-/

namespace LicenseTrack

open Library List

variable {items : List (Nat × SourcingItem)} {postponed : List (Nat × ConversionData)}

/-- A line whose planned successor is another line. -/
def PlannedBefore (items : List (Nat × SourcingItem)) (source target : Nat) : Prop :=
  source ∈ incomingOf items target

/-- The length of the chain before a line that goes back to the last-listed predecessor each time. -/
inductive ChainLength (items : List (Nat × SourcingItem)) : Nat → Nat → Prop
  | first {itemId} (h : (incomingOf items itemId).getLast? = none) : ChainLength items itemId 0
  | next {itemId previous n} (h : (incomingOf items itemId).getLast? = some previous)
      (before : ChainLength items previous n)
      : ChainLength items itemId (n + 1)

theorem ChainLength.unique {itemId m n : Nat} (h : ChainLength items itemId m)
    (h' : ChainLength items itemId n)
    : m = n := by
  induction h generalizing n with
  | first hnone =>
      cases h' with
      | first _ => rfl
      | next hsome _ =>
          rw [hnone] at hsome
          cases hsome
  | next hsome _ ih =>
      cases h' with
      | first hnone =>
          rw [hnone] at hsome
          cases hsome
      | next hsome' hbefore =>
          rw [hsome, Option.some.injEq] at hsome'
          subst hsome'
          rw [ih hbefore]

theorem length_le_of_targets {seen : List Nat} (hnodup : seen.Nodup)
    (htargets : ∀ target ∈ seen, incomingOf items target ≠ [])
    : seen.length ≤ items.length := by
  have hsub : seen ⊆ items.filterMap (fun entry => entry.2.successorSourcingItemId) := by
    intro target hmem
    obtain ⟨source, rest, hsources⟩ := exists_cons_of_ne_nil (htargets target hmem)
    have hsource : source ∈ incomingOf items target := by
      rw [hsources]
      exact mem_cons_self
    obtain ⟨entry, hentry, -⟩ := mem_map.mp hsource
    obtain ⟨hentry, hsuccessor⟩ := mem_filter.mp hentry
    exact mem_filterMap.mpr ⟨entry, hentry, beq_iff_eq.mp hsuccessor⟩
  exact (subperm_of_subset hnodup hsub).length_le.trans (length_filterMap_le _ _)

theorem chainDepth_length (hacyclic : Acyclic (PlannedBefore items)) (fuel : Nat) {seen : List Nat}
    {itemId : Nat} (hnodup : seen.Nodup)
    (hseen : ∀ later ∈ seen, Relation.TransGen (PlannedBefore items) itemId later
      ∧ incomingOf items later ≠ [])
    (hfuel : items.length < fuel + seen.length)
    : ChainLength items itemId (chainDepth items fuel seen itemId) := by
  induction fuel generalizing seen itemId with
  | zero =>
      have hle := length_le_of_targets hnodup fun later hlater => (hseen later hlater).2
      omega
  | succ fuel ih =>
      rw [chainDepth, predecessorLine]
      rcases hprevious : (incomingOf items itemId).getLast? with _ | previous
      · exact .first hprevious
      · have hedge : PlannedBefore items previous itemId := mem_of_getLast? hprevious
        have hnew : itemId ∉ seen := fun hmem => hacyclic itemId (hseen itemId hmem).1
        dsimp only
        rw [if_neg hnew]
        refine .next hprevious (ih (nodup_cons.mpr ⟨hnew, hnodup⟩) (fun later hlater => ?_) ?_)
        · rcases mem_cons.mp hlater with rfl | hlater
          · exact ⟨.single hedge, ne_nil_of_mem hedge⟩
          · exact ⟨.head hedge (hseen later hlater).1, (hseen later hlater).2⟩
        · rw [length_cons]
          omega

theorem chainDepth_of_acyclic (hacyclic : Acyclic (PlannedBefore items)) (itemId : Nat)
    : ChainLength items itemId (chainDepth items (items.length + 1) [] itemId) :=
  chainDepth_length hacyclic _ nodup_nil (fun _ h => absurd h not_mem_nil) (by simp)

/-- Every planned predecessor comes before its successor. -/
def ChainOrdered (items : List (Nat × SourcingItem)) (order : List (Nat × ConversionData)) : Prop :=
  ∀ source ∈ order, ∀ target ∈ order, PlannedBefore items source.1 target.1 →
    [source, target] <+ order

/-- The chain before each line is longer than those before its planned predecessors, or as long where
the predecessor was submitted first.
-/
def LongerChains (items : List (Nat × SourcingItem)) (postponed : List (Nat × ConversionData))
    : Prop :=
  ∀ source ∈ postponed, ∀ target ∈ postponed, PlannedBefore items source.1 target.1 →
    ∀ {m n}, ChainLength items source.1 m → ChainLength items target.1 n →
      m < n ∨ m = n ∧ [source, target] <+ postponed

theorem maintenanceChainOrder_perm (items : List (Nat × SourcingItem))
    (postponed : List (Nat × ConversionData))
    : (maintenanceChainOrder items postponed).Perm postponed :=
  perm_insertionSort _ _

theorem maintenanceChainOrder_ordered (hacyclic : Acyclic (PlannedBefore items))
    (hids : (postponed.map Prod.fst).Nodup)
    : ChainOrdered items (maintenanceChainOrder items postponed) ↔ LongerChains items postponed := by
  have hmem : ∀ line, line ∈ maintenanceChainOrder items postponed ↔ line ∈ postponed :=
    fun line => (maintenanceChainOrder_perm items postponed).mem_iff
  have hpair : ∀ {source target : Nat × ConversionData}, source ∈ postponed → target ∈ postponed →
      PlannedBefore items source.1 target.1 → ([source, target] <+ maintenanceChainOrder items postponed
        ↔ ∀ {m n}, ChainLength items source.1 m → ChainLength items target.1 n →
            m < n ∨ m = n ∧ [source, target] <+ postponed) := by
    intro source target hsource htarget hedge
    have hne : source ≠ target := by
      rintro rfl
      exact hacyclic source.1 (.single hedge)
    have hsorted := pair_sublist_sortedBy
      (fun line : Nat × ConversionData => chainDepth items (items.length + 1) [] line.1)
      (Nodup.of_map _ hids) hsource htarget hne
    refine hsorted.trans ⟨fun h m n hm hn => ?_, fun h => ?_⟩
    · rw [hm.unique (chainDepth_of_acyclic hacyclic source.1),
        hn.unique (chainDepth_of_acyclic hacyclic target.1)]
      exact h
    · exact h (chainDepth_of_acyclic hacyclic source.1) (chainDepth_of_acyclic hacyclic target.1)
  constructor
  · intro h source hsource target htarget hedge
    exact (hpair hsource htarget hedge).mp
      (h source ((hmem source).mpr hsource) target ((hmem target).mpr htarget) hedge)
  · intro h source hsource target htarget hedge
    have hsource := (hmem source).mp hsource
    have htarget := (hmem target).mp htarget
    exact (hpair hsource htarget hedge).mpr (h source hsource target htarget hedge)

-- Inherited parents

/-- A parent that the data of a line ask for. -/
inductive ChainParent
  | license (id : Nat)
  | line (itemId : Nat)
deriving DecidableEq

/-- The parent that two fields name, the licence before the line. -/
def chainParentOf : Option Nat → Option Nat → Option ChainParent
  | some id, _ => some (.license id)
  | none, some itemId => some (.line itemId)
  | none, none => none

/-- The parent that the data of a line ask for, if any. -/
def ConversionData.chainParent? (data : ConversionData) : Option ChainParent :=
  chainParentOf data.parentLicenseId data.parentSourcingItemId

/-- The parents that the converted lines asked for, after one more. -/
def resolveTurn (items : List (Nat × SourcingItem)) (resolved : List (Nat × Option Nat × Option Nat))
    (line : Nat × ConversionData)
    : List (Nat × Option Nat × Option Nat) :=
  let data := inheritChainParent items resolved line.1 line.2
  (line.1, data.parentLicenseId, data.parentSourcingItemId) :: resolved

/-- The parents that lines asked for, converted one after the other. -/
def resolvedAfter (items : List (Nat × SourcingItem)) (lines : List (Nat × ConversionData))
    : List (Nat × Option Nat × Option Nat) :=
  lines.foldl (resolveTurn items) []

/-- The parent that a converted line asked for. -/
def resolvedParent? (resolved : List (Nat × Option Nat × Option Nat)) (itemId : Nat)
    : Option ChainParent :=
  (resolved.find? (fun entry => entry.1 == itemId)).bind (fun entry =>
    chainParentOf entry.2.1 entry.2.2)

theorem inheritChainParent_parent (items : List (Nat × SourcingItem))
    (resolved : List (Nat × Option Nat × Option Nat)) (itemId : Nat) (data : ConversionData)
    : (inheritChainParent items resolved itemId data).chainParent?
      = data.chainParent?.or ((incomingOf items itemId).head?.bind (resolvedParent? resolved)) := by
  unfold inheritChainParent
  by_cases hown : data.parentLicenseId ≠ none ∨ data.parentSourcingItemId ≠ none
  · rw [if_pos hown]
    have hsome : data.chainParent? ≠ none := by
      unfold ConversionData.chainParent?
      rcases hlicense : data.parentLicenseId with _ | id <;>
        rcases hline : data.parentSourcingItemId with _ | line <;>
        simp_all [chainParentOf]
    obtain ⟨parent, hparent⟩ := Option.ne_none_iff_exists'.mp hsome
    rw [hparent, Option.some_or]
  · rw [if_neg hown]
    have hnone : data.parentLicenseId = none ∧ data.parentSourcingItemId = none := by
      simpa using hown
    have hchain : data.chainParent? = none := by
      rw [ConversionData.chainParent?, hnone.1, hnone.2]
      rfl
    rw [hchain, Option.none_or]
    rcases hfirst : (incomingOf items itemId).head? with _ | source
    · rw [Option.bind_none]
      exact hchain
    · rw [Option.bind_some, Option.bind_some, resolvedParent?]
      rcases hfind : resolved.find? (fun entry => entry.1 == source) with _ | ⟨key, license, line⟩
      · simpa only [hfind, Option.bind_none] using hchain
      · rcases license with _ | id
        · rcases line with _ | lineId
          · simpa only [hfind, Option.bind_some, chainParentOf] using hchain
          · simp [hfind, ConversionData.chainParent?, chainParentOf, hnone.1]
        · simp [hfind, ConversionData.chainParent?, chainParentOf]

/-- Each line without a parent of its own asks for one of its converted predecessors' parents,
whenever one of them asked for a parent.
-/
def ParentsInherited (items : List (Nat × SourcingItem)) (order : List (Nat × ConversionData))
    : Prop :=
  ∀ converted line rest, order = converted ++ line :: rest → line.2.chainParent? = none →
    (∃ source, PlannedBefore items source line.1
      ∧ (resolvedParent? (resolvedAfter items converted) source).isSome = true) →
    ∃ source parent, PlannedBefore items source line.1
      ∧ resolvedParent? (resolvedAfter items converted) source = some parent
      ∧ (inheritChainParent items (resolvedAfter items converted) line.1 line.2).chainParent?
          = some parent

/-- The parent that a postponed line leads to: its own, or the one that its first-listed predecessor
leads to.
-/
inductive LeadsToParent (items : List (Nat × SourcingItem)) (postponed : List (Nat × ConversionData))
    : Nat → ChainParent → Prop
  | own {line parent} (member : line ∈ postponed) (h : line.2.chainParent? = some parent)
    : LeadsToParent items postponed line.1 parent
  | inherited {line source parent} (member : line ∈ postponed) (none : line.2.chainParent? = none)
    (first : (incomingOf items line.1).head? = some source)
    (before : LeadsToParent items postponed source parent)
    : LeadsToParent items postponed line.1 parent

/-- A line without a parent of its own has a first-listed predecessor that leads to a parent, if any
of its predecessors does.
-/
def FirstLeads (items : List (Nat × SourcingItem)) (postponed : List (Nat × ConversionData)) : Prop :=
  ∀ line ∈ postponed, line.2.chainParent? = none → ∀ {source parent},
    PlannedBefore items source line.1 → LeadsToParent items postponed source parent →
      ∃ first parent', (incomingOf items line.1).head? = some first
        ∧ LeadsToParent items postponed first parent'

theorem resolvedAfter_concat (items : List (Nat × SourcingItem))
    (lines : List (Nat × ConversionData)) (line : Nat × ConversionData) (itemId : Nat)
    : resolvedParent? (resolvedAfter items (lines ++ [line])) itemId
      = if itemId = line.1 then
          (inheritChainParent items (resolvedAfter items lines) line.1 line.2).chainParent?
        else resolvedParent? (resolvedAfter items lines) itemId := by
  rw [resolvedAfter, foldl_append, foldl_cons, foldl_nil, ← resolvedAfter, resolveTurn,
    resolvedParent?, find?_cons]
  by_cases hid : itemId = line.1
  · rw [if_pos hid, hid, beq_self_eq_true]
    rfl
  · rw [if_neg hid, beq_eq_false_iff_ne.mpr (Ne.symm hid)]
    rfl

theorem resolvedParent?_converted {lines : List (Nat × ConversionData)} {itemId : Nat}
    (h : (resolvedParent? (resolvedAfter items lines) itemId).isSome = true)
    : itemId ∈ lines.map Prod.fst := by
  induction lines using List.reverseRecOn with
  | nil => cases h
  | append_singleton lines line ih =>
      rw [resolvedAfter_concat] at h
      rw [map_append, mem_append]
      split_ifs at h with hid
      · exact .inr (by simp [hid])
      · exact .inl (ih h)

theorem leadsTo_iff (hids : (postponed.map Prod.fst).Nodup) {line : Nat × ConversionData}
    (hline : line ∈ postponed) {parent : ChainParent}
    : LeadsToParent items postponed line.1 parent
      ↔ line.2.chainParent? = some parent
        ∨ line.2.chainParent? = none ∧ ∃ source, (incomingOf items line.1).head? = some source
            ∧ LeadsToParent items postponed source parent := by
  constructor
  · intro h
    generalize hid : line.1 = itemId at h
    cases h with
    | own member h =>
        obtain rfl := inj_on_of_nodup_map hids hline member hid
        exact .inl h
    | inherited member hnone hfirst hbefore =>
        obtain rfl := inj_on_of_nodup_map hids hline member hid
        exact .inr ⟨hnone, _, hfirst, hbefore⟩
  · rintro (h | ⟨hnone, source, hfirst, hbefore⟩)
    · exact .own hline h
    · exact .inherited hline hnone hfirst hbefore

theorem LeadsToParent.member {itemId : Nat} {parent : ChainParent}
    (h : LeadsToParent items postponed itemId parent)
    : ∃ line ∈ postponed, line.1 = itemId := by
  cases h with
  | own member _ => exact ⟨_, member, rfl⟩
  | inherited member _ _ _ => exact ⟨_, member, rfl⟩

section

variable {order : List (Nat × ConversionData)}

theorem ChainOrdered.converted (hordered : ChainOrdered items order)
    (hids : (order.map Prod.fst).Nodup) {converted rest : List (Nat × ConversionData)}
    {line : Nat × ConversionData} (horder : order = converted ++ line :: rest)
    {source : Nat × ConversionData} (hsource : source ∈ order)
    (hedge : PlannedBefore items source.1 line.1)
    : source ∈ converted := by
  have hline : line ∈ order := by
    rw [horder]
    exact mem_append_right _ mem_cons_self
  have hpair := hordered source hsource line hline hedge
  have hnodup : order.Nodup := Nodup.of_map _ hids
  rw [horder] at hpair hnodup
  exact mem_of_pair_sublist hnodup hpair

theorem resolvedParent?_leadsTo (hids : (order.map Prod.fst).Nodup)
    (hordered : ChainOrdered items order) {converted rest : List (Nat × ConversionData)}
    (horder : order = converted ++ rest) {line : Nat × ConversionData} (hline : line ∈ converted)
    (parent : ChainParent)
    : resolvedParent? (resolvedAfter items converted) line.1 = some parent
      ↔ LeadsToParent items order line.1 parent := by
  induction converted using List.reverseRecOn generalizing rest line parent with
  | nil => cases hline
  | append_singleton converted last ih =>
      have hsplit : order = converted ++ last :: rest := by rw [horder, append_assoc, singleton_append]
      have hmember : ∀ l ∈ converted ++ [last], l ∈ order := fun l hl => by
        rw [horder]
        exact mem_append_left _ hl
      rw [resolvedAfter_concat]
      by_cases hlast : line.1 = last.1
      · obtain rfl := inj_on_of_nodup_map hids (hmember line hline)
          (hmember last (mem_append_right _ (mem_singleton.mpr rfl))) hlast
        rw [if_pos rfl, inheritChainParent_parent, leadsTo_iff hids (hmember line hline)]
        rcases hown : line.2.chainParent? with _ | own
        · rw [Option.none_or, Option.bind_eq_some_iff]
          simp only [reduceCtorEq, false_or, true_and]
          refine exists_congr fun source => and_congr_right fun hfirst => ?_
          -- The first-listed predecessor was converted if it asks for a parent, or leads to one.
          constructor
          · intro hasked
            obtain ⟨l, hl, rfl⟩ := mem_map.mp (resolvedParent?_converted (by rw [hasked]; rfl))
            exact (ih hsplit hl parent).mp hasked
          · intro hleads
            obtain ⟨l, hl, rfl⟩ := hleads.member
            have hconverted := hordered.converted hids hsplit hl (mem_of_head? hfirst)
            exact (ih hsplit hconverted parent).mpr hleads
        · simp
      · rw [if_neg hlast]
        refine ih hsplit ?_ parent
        rcases mem_append.mp hline with hl | hl
        · exact hl
        · exact absurd (congrArg Prod.fst (mem_singleton.mp hl)) hlast

theorem parentsInherited_iff (hids : (order.map Prod.fst).Nodup)
    (hordered : ChainOrdered items order)
    : ParentsInherited items order ↔ FirstLeads items order := by
  have hasks : ∀ {converted line rest}, order = converted ++ line :: rest → ∀ {source parent},
      PlannedBefore items source line.1 →
        (resolvedParent? (resolvedAfter items converted) source = some parent
          ↔ LeadsToParent items order source parent) := by
    intro converted line rest hsplit source parent hedge
    constructor
    · intro hasked
      obtain ⟨l, hl, rfl⟩ := mem_map.mp (resolvedParent?_converted (by rw [hasked]; rfl))
      exact (resolvedParent?_leadsTo hids hordered hsplit hl parent).mp hasked
    · intro hleads
      obtain ⟨l, hl, rfl⟩ := hleads.member
      have hconverted := hordered.converted hids hsplit hl hedge
      exact (resolvedParent?_leadsTo hids hordered hsplit hconverted parent).mpr hleads
  constructor
  · intro h line hline hnone source parent hedge hleads
    obtain ⟨converted, rest, hsplit⟩ := append_of_mem hline
    obtain ⟨first, parent', -, -, hdata⟩ := h converted line rest hsplit hnone
      ⟨source, hedge, by rw [(hasks hsplit hedge).mpr hleads]; rfl⟩
    rw [inheritChainParent_parent, hnone, Option.none_or, Option.bind_eq_some_iff] at hdata
    obtain ⟨head, hhead, hasked⟩ := hdata
    exact ⟨head, parent', hhead, (hasks hsplit (mem_of_head? hhead)).mp hasked⟩
  · intro h converted line rest hsplit hnone
    rintro ⟨source, hedge, hasked⟩
    have hline : line ∈ order := by
      rw [hsplit]
      exact mem_append_right _ mem_cons_self
    obtain ⟨parent, hparent⟩ := Option.isSome_iff_exists.mp hasked
    obtain ⟨first, parent', hfirst, hleads⟩ := h line hline hnone hedge
      ((hasks hsplit hedge).mp hparent)
    have hfirstEdge : PlannedBefore items first line.1 := mem_of_head? hfirst
    have hgiven := (hasks hsplit hfirstEdge).mpr hleads
    refine ⟨first, parent', hfirstEdge, hgiven, ?_⟩
    rw [inheritChainParent_parent, hnone, Option.none_or, hfirst, Option.bind_some, hgiven]

end

theorem LeadsToParent.perm {order : List (Nat × ConversionData)} (hperm : order.Perm postponed)
    {itemId : Nat} {parent : ChainParent} (h : LeadsToParent items order itemId parent)
    : LeadsToParent items postponed itemId parent := by
  induction h with
  | own member h => exact .own (hperm.mem_iff.mp member) h
  | inherited member hnone hfirst _ ih => exact .inherited (hperm.mem_iff.mp member) hnone hfirst ih

theorem firstLeads_perm {order : List (Nat × ConversionData)} (hperm : order.Perm postponed)
    : FirstLeads items order ↔ FirstLeads items postponed := by
  have hone : ∀ {a b : List (Nat × ConversionData)}, a.Perm b → FirstLeads items a →
      FirstLeads items b := by
    intro a b hab h line hline hnone source parent hedge hleads
    obtain ⟨first, parent', hfirst, hleads'⟩ := h line (hab.mem_iff.mpr hline) hnone hedge
      (hleads.perm hab.symm)
    exact ⟨first, parent', hfirst, hleads'.perm hab⟩
  exact ⟨hone hperm, hone hperm.symm⟩

/-- The chain order of an order without planned cycles is a permutation, and it puts every planned
predecessor before its successor and hands the parents on exactly where the chains are long enough
and the first-listed predecessors lead to the parents.
-/
theorem maintenanceChainOrder_handsOn (hacyclic : Acyclic (PlannedBefore items))
    (hids : (postponed.map Prod.fst).Nodup)
    : ((maintenanceChainOrder items postponed).Perm postponed
        ∧ ChainOrdered items (maintenanceChainOrder items postponed)
        ∧ ParentsInherited items (maintenanceChainOrder items postponed))
      ↔ LongerChains items postponed ∧ FirstLeads items postponed := by
  have hperm := maintenanceChainOrder_perm items postponed
  have hids' : ((maintenanceChainOrder items postponed).map Prod.fst).Nodup :=
    (hperm.map Prod.fst).nodup_iff.mpr hids
  have hordered := maintenanceChainOrder_ordered hacyclic hids
  constructor
  · rintro ⟨-, hchain, hinherited⟩
    exact ⟨hordered.mp hchain,
      (firstLeads_perm hperm).mp ((parentsInherited_iff hids' hchain).mp hinherited)⟩
  · rintro ⟨hlonger, hleads⟩
    have hchain := hordered.mpr hlonger
    exact ⟨hperm, hchain,
      (parentsInherited_iff hids' hchain).mpr ((firstLeads_perm hperm).mpr hleads)⟩

-- Two branches into one line

/-- A line of an order with the line planned after it. -/
def plannedLine (successor : Option Nat) : SourcingItem where
  publisherName := "Northwind"
  softwareDescription := "Premium support"
  licenseType := some .maintenance
  successorSourcingItemId := successor

/-- Lines 1 and 2 form one branch into line 4, line 3 the other. -/
def twoBranches : List (Nat × SourcingItem) :=
  [(1, plannedLine (some 2)), (2, plannedLine (some 4)), (3, plannedLine (some 4)),
    (4, plannedLine none)]

/-- The data of a maintenance line with the parent that it names. -/
def supportData (parentLicenseId : Option Nat) : ConversionData where
  publisherName := "Northwind"
  softwareDescription := "Premium support"
  licenseType := .maintenance
  parentLicenseId := parentLicenseId

/-- Line 1 names its parent, the others name none. -/
def branchLine (itemId : Nat) : Nat × ConversionData :=
  (itemId, supportData (if itemId = 1 then some 9 else none))

theorem twoBranches_edges {source target : Nat} (h : PlannedBefore twoBranches source target)
    : (source = 1 ∧ target = 2) ∨ (source = 2 ∧ target = 4) ∨ (source = 3 ∧ target = 4) := by
  obtain ⟨entry, hentry, rfl⟩ := mem_map.mp h
  obtain ⟨hentry, hsuccessor⟩ := mem_filter.mp hentry
  rw [beq_iff_eq] at hsuccessor
  simp only [twoBranches, mem_cons, not_mem_nil, or_false] at hentry
  rcases hentry with rfl | rfl | rfl | rfl
  · exact .inl ⟨rfl, (Option.some.inj hsuccessor).symm⟩
  · exact .inr (.inl ⟨rfl, (Option.some.inj hsuccessor).symm⟩)
  · exact .inr (.inr ⟨rfl, (Option.some.inj hsuccessor).symm⟩)
  · cases hsuccessor

theorem twoBranches_acyclic : Acyclic (PlannedBefore twoBranches) := by
  have hlt : ∀ {a b}, Relation.TransGen (PlannedBefore twoBranches) a b → a < b := by
    intro a b h
    induction h with
    | single hab =>
        have := twoBranches_edges hab
        omega
    | tail _ hbc ih =>
        have := twoBranches_edges hbc
        omega
  exact fun a h => Nat.lt_irrefl a (hlt h)

/-- Submitted in the order of the lines, both branches come before line 4, which inherits. -/
theorem maintenanceChainOrder_handsOn_twoBranches
    : ChainOrdered twoBranches (maintenanceChainOrder twoBranches ([1, 2, 3, 4].map branchLine))
      ∧ ParentsInherited twoBranches
          (maintenanceChainOrder twoBranches ([1, 2, 3, 4].map branchLine)) := by
  have hlength : ∀ {itemId n}, ChainLength twoBranches itemId n →
      n = chainDepth twoBranches 5 [] itemId := fun h =>
    h.unique (chainDepth_of_acyclic twoBranches_acyclic _)
  refine ((maintenanceChainOrder_handsOn twoBranches_acyclic (by decide)).mpr ⟨?_, ?_⟩).2
  · intro source hsource target htarget hedge m n hm hn
    obtain ⟨a, ha, rfl⟩ := mem_map.mp hsource
    obtain ⟨b, hb, rfl⟩ := mem_map.mp htarget
    rw [hlength hm, hlength hn]
    rcases twoBranches_edges hedge with ⟨ha', hb'⟩ | ⟨ha', hb'⟩ | ⟨ha', hb'⟩
    · obtain rfl : a = 1 := ha'
      obtain rfl : b = 2 := hb'
      exact .inl (by decide)
    · obtain rfl : a = 2 := ha'
      obtain rfl : b = 4 := hb'
      have hpair : [2, 4] <+ [1, 2, 3, 4] := (((Sublist.refl [4]).cons 3).cons_cons 2).cons 1
      exact .inr ⟨by decide, hpair.map branchLine⟩
    · obtain rfl : a = 3 := ha'
      obtain rfl : b = 4 := hb'
      exact .inl (by decide)
  · intro line hline _ source parent hedge _
    have hparent : LeadsToParent twoBranches ([1, 2, 3, 4].map branchLine) 1 (.license 9) :=
      @LeadsToParent.own twoBranches _ (branchLine 1) (.license 9) (by simp) rfl
    have hsecond : LeadsToParent twoBranches ([1, 2, 3, 4].map branchLine) 2 (.license 9) :=
      @LeadsToParent.inherited twoBranches _ (branchLine 2) 1 (.license 9) (by simp) rfl rfl hparent
    obtain ⟨b, hb, rfl⟩ := mem_map.mp hline
    rcases twoBranches_edges hedge with ⟨-, hb'⟩ | ⟨-, hb'⟩ | ⟨-, hb'⟩
    · obtain rfl : b = 2 := hb'
      exact ⟨1, _, rfl, hparent⟩
    · obtain rfl : b = 4 := hb'
      exact ⟨2, _, rfl, hsecond⟩
    · obtain rfl : b = 4 := hb'
      exact ⟨2, _, rfl, hsecond⟩

/-- Submitted with line 4 first, line 4 is sorted before line 2: the walk back from line 4 follows the
short branch.
-/
theorem maintenanceChainOrder_successorFirst
    : ¬∀ (items : List (Nat × SourcingItem)) (postponed : List (Nat × ConversionData)),
        Acyclic (PlannedBefore items) → (postponed.map Prod.fst).Nodup →
        (maintenanceChainOrder items postponed).Perm postponed
          ∧ ChainOrdered items (maintenanceChainOrder items postponed)
          ∧ ParentsInherited items (maintenanceChainOrder items postponed) := by
  intro h
  obtain ⟨hperm, hordered, -⟩ := h twoBranches ([4, 2, 1, 3].map branchLine) twoBranches_acyclic
    (by decide)
  have hpair := hordered (branchLine 2) (hperm.mem_iff.mpr (by simp)) (branchLine 4)
    (hperm.mem_iff.mpr (by simp)) (by decide : 2 ∈ incomingOf twoBranches 4)
  have hids : (maintenanceChainOrder twoBranches ([4, 2, 1, 3].map branchLine)).map Prod.fst
      = [1, 3, 4, 2] := by
    decide +kernel
  have hsecond := hpair.map Prod.fst
  rw [hids] at hsecond
  exact not_pair_sublist (by decide) hsecond (((Sublist.refl [4, 2]).cons 3).cons 1)

end LicenseTrack
