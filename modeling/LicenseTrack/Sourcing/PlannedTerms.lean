import LicenseTrack.Library.Digraph
import LicenseTrack.Sourcing.ConvertedRequests

/-! The planned next terms of sourcing lines, over every run: the lines that a plan joins stay in
one request and one order, with one publisher, and no plan leads back to its start.
-/

namespace LicenseTrack

open Library

/-- What a plan reads of a line. -/
structure PlannedTerm where
  request : Option Nat
  order : Option Nat
  successor : Option Nat
  publisher : String
  isMaintenance : Bool
deriving DecidableEq

/-- A line as a plan reads it. -/
def SourcingItem.term (u : Unicode) (item : SourcingItem) : PlannedTerm where
  request := item.sourcingRequestId
  order := item.pendingOrderId
  successor := item.successorSourcingItemId
  publisher := u.normalizeEntitlementIdentity item.publisherName
  isMaintenance := item.licenseType == some .maintenance

/-- Two lines that a plan may join. -/
structure PlannedTerm.Together (x y : PlannedTerm) : Prop where
  request : x.request = y.request
  placed : x.request ≠ none
  order : x.order = y.order
  publisher : x.publisher = y.publisher
  maintenance : x.isMaintenance = y.isMaintenance

/-- A line without the references to deleted lines. -/
def SourcingItem.withoutDeleted (deleted : List Nat) (item : SourcingItem) : SourcingItem :=
  { item with
    parentSourcingItemId := item.parentSourcingItemId.filter (!deleted.contains ·)
    successorSourcingItemId := item.successorSourcingItemId.filter (!deleted.contains ·) }

/-- One line has the other as its planned next term. -/
def Planned (s : Store) (a b : Nat) : Prop :=
  ∃ item, s.items.get? a = some item ∧ item.successorSourcingItemId = some b

/-- The invariant: both ends of every plan are stored and belong together, and every walk along the
plans ends.
-/
structure PlannedTerms (u : Unicode) (s : Store) : Prop where
  ends : ∀ a x b, s.items.get? a = some x → x.successorSourcingItemId = some b
    → ∃ y, s.items.get? b = some y ∧ (x.term u).Together (y.term u)
  walks : ∀ a, Acc (fun b a => Planned s a b) a

namespace PlannedTerms

variable {u : Unicode} {s t : Store}

theorem acyclic (h : PlannedTerms u s) : Acyclic (Planned s) := .of_walks h.walks

theorem step (h : PlannedTerms u s)
    (links : ∀ a x' b, t.items.get? a = some x' → x'.successorSourcingItemId = some b
      → ∃ x, s.items.get? a = some x ∧ x.successorSourcingItemId = some b
        ∧ ∀ y, s.items.get? b = some y → (x.term u).Together (y.term u)
          → ∃ y', t.items.get? b = some y' ∧ (x'.term u).Together (y'.term u))
    : PlannedTerms u t where
  ends := fun a x' b hx' hb => by
    obtain ⟨x, hx, hxb, hkept⟩ := links a x' b hx' hb
    obtain ⟨y, hy, htogether⟩ := h.ends a x b hx hxb
    exact hkept y hy htogether
  walks := fun a => by
    refine Subrelation.accessible ?_ (h.walks a)
    rintro b a ⟨x', hx', hb⟩
    obtain ⟨x, hx, hxb, -⟩ := links a x' b hx' hb
    exact ⟨x, hx, hxb⟩

theorem of_agrees (h : PlannedTerms u s) (hagree : s.items.Agrees (SourcingItem.term u) t.items)
    : PlannedTerms u t := by
  refine h.step fun a x' b hx' hb => ?_
  obtain ⟨x, hx, hterm⟩ := hagree.back hx'
  refine ⟨x, hx, ?_, fun y hy htogether => ?_⟩
  · have hsame : x'.successorSourcingItemId = x.successorSourcingItemId :=
      congrArg PlannedTerm.successor hterm
    exact hsame.symm.trans hb
  · obtain ⟨y', hy', hterm'⟩ := hagree.forth hy
    exact ⟨y', hy', hterm.symm ▸ hterm'.symm ▸ htogether⟩

theorem of_items (h : PlannedTerms u s) (hitems : t.items = s.items) : PlannedTerms u t := by
  refine h.of_agrees ?_
  rw [hitems]
  exact Table.Agrees.refl _ _

theorem of_standing (h : PlannedTerms u s) (hkeeps : KeepsStanding s t) : PlannedTerms u t :=
  h.of_agrees (hkeeps.lines.coarsen (SourcingItem.term u))

theorem term_eq {item item' : SourcingItem} (h : StaysPut item item')
    (hplaced : item.sourcingRequestId ≠ none)
    : item'.term u = item.term u := by
  obtain ⟨hrequest, hpublisher⟩ := h.placed hplaced
  simp only [SourcingItem.term, hrequest, hpublisher, h.order, h.successor, h.type]

theorem of_quiet (h : PlannedTerms u s) (hquiet : QuietStep s t) : PlannedTerms u t := by
  refine h.step fun a x' b hx' hb => ?_
  rcases hx : s.items.get? a with _ | x
  · obtain ⟨-, hnone⟩ := hquiet.added a x' hx' hx
    rw [hnone] at hb
    cases hb
  · obtain ⟨row, hrow, hput⟩ := hquiet.kept a x hx
    obtain rfl := Option.some.inj (hrow.symm.trans hx')
    refine ⟨x, rfl, hput.successor.symm.trans hb, fun y hy htogether => ?_⟩
    obtain ⟨y', hy', hput'⟩ := hquiet.kept b y hy
    refine ⟨y', hy', ?_⟩
    have hplaced : y.sourcingRequestId ≠ none := fun hnone =>
      htogether.placed (htogether.request.trans hnone)
    rw [term_eq hput htogether.placed, term_eq hput' hplaced]
    exact htogether

theorem of_deleteItems (h : PlannedTerms u s) (gone : Nat → SourcingItem → Bool)
    : PlannedTerms u (s.deleteItems gone) := by
  have hrow : ∀ id, (s.deleteItems gone).items.get? id
      = ((s.items.get? id).filter (fun item => !gone id item)).map
          (SourcingItem.withoutDeleted (s.items.select gone)) := fun id => by
    rw [Store.deleteItems, Table.get?_mapRows, Table.get?_filter]
    rfl
  refine h.step fun a x' b hx' hb => ?_
  rw [hrow] at hx'
  obtain ⟨x, hx, rfl⟩ := Option.map_eq_some_iff.mp hx'
  obtain ⟨hstored, -⟩ := Option.filter_eq_some_iff.mp hx
  obtain ⟨hxb, hkept⟩ := Option.filter_eq_some_iff.mp hb
  refine ⟨x, hstored, hxb, fun y hy htogether =>
    ⟨y.withoutDeleted (s.items.select gone), ?_, htogether.request, htogether.placed,
      htogether.order, htogether.publisher, htogether.maintenance⟩⟩
  have hstays : (!gone b y) = true := by
    rw [Bool.not_eq_true']
    by_contra hgone
    rw [Bool.not_eq_false] at hgone
    have hmem := List.contains_iff_mem.mpr (Table.mem_select.mpr ⟨y, hy, hgone⟩)
    rw [hmem] at hkept
    cases hkept
  rw [hrow, hy, Option.filter_some, if_pos hstays, Option.map_some]

theorem of_unlinked (h : PlannedTerms u s) (itemId : Nat)
    (hothers : ∀ id, id ≠ itemId
      → (t.items.get? id).map (SourcingItem.term u) = (s.items.get? id).map (SourcingItem.term u))
    (hout : ∀ x', t.items.get? itemId = some x' → x'.successorSourcingItemId = none)
    (hin : ∀ a x, s.items.get? a = some x → x.successorSourcingItemId ≠ some itemId)
    : PlannedTerms u t := by
  refine h.step fun a x' b hx' hb => ?_
  have ha : a ≠ itemId := fun he => by
    rw [hout x' (he ▸ hx')] at hb
    cases hb
  have hsame := hothers a ha
  rw [hx', Option.map_some] at hsame
  obtain ⟨x, hx, hterm⟩ := Option.map_eq_some_iff.mp hsame.symm
  have hsuccessor : x.successorSourcingItemId = x'.successorSourcingItemId :=
    congrArg PlannedTerm.successor hterm
  have hxb := hsuccessor.trans hb
  refine ⟨x, hx, hxb, fun y hy htogether => ?_⟩
  have hsame' := hothers b (fun he => hin a x hx (he ▸ hxb))
  rw [hy, Option.map_some] at hsame'
  obtain ⟨y', hy', hterm'⟩ := Option.map_eq_some_iff.mp hsame'
  exact ⟨y', hy', hterm ▸ hterm'.symm ▸ htogether⟩

end PlannedTerms

-- Setting a plan

theorem acc_of_walkEnds {next : Nat → Option Nat} {fuel : Nat} {seen : List Nat} {a : Nat}
    (h : walkEnds next fuel seen (some a) = true)
    : Acc (fun b a => next a = some b) a := by
  induction fuel generalizing seen a with
  | zero => cases h
  | succ fuel ih =>
      rw [walkEnds, Bool.and_eq_true] at h
      refine .intro a fun b hb => ?_
      have hrest : walkEnds next fuel (a :: seen) (some b) = true := by
        rw [← hb]
        exact h.2
      exact ih hrest

/-- What the checks of a plan establish of the lines that it joins. -/
structure PlanChecked (u : Unicode) (ids : List Nat) (successorId : Option Nat) (requestId : Nat)
    (orderId : Option Nat) (s : Store)
    : Prop where
  placed : ∀ id, id ∈ ids ∨ successorId = some id → ∃ item, s.items.get? id = some item
    ∧ item.sourcingRequestId = some requestId ∧ item.pendingOrderId = orderId
  distinct : ∀ b, successorId = some b → b ∉ ids
  terms : ∀ a x b y, a ∈ ids → successorId = some b → s.items.get? a = some x
    → s.items.get? b = some y
    → u.normalizeEntitlementIdentity x.publisherName = u.normalizeEntitlementIdentity y.publisherName
      ∧ (x.licenseType = some .maintenance ↔ y.licenseType = some .maintenance)
  walks : ∃ next : Nat → Option Nat, ∀ a x, s.items.get? a = some x
    → x.sourcingRequestId = some requestId → x.pendingOrderId = orderId
    → next a = (planTerm ids successorId a x).successorSourcingItemId
      ∧ Acc (fun b a => next a = some b) a

theorem walks_of_assertAcyclic {s : Store} {lines : List (Nat × SourcingItem)} {ids : List Nat}
    {successorId : Option Nat} {r : PUnit.{1}} (hlines : ∀ entry ∈ lines, entry ∈ s.items.entries)
    (h : assertAcyclic lines (fun id => if ids.contains id then some successorId else none) = .ok r)
    : ∃ next : Nat → Option Nat, ∀ a x, (a, x) ∈ lines
      → next a = (planTerm ids successorId a x).successorSourcingItemId
        ∧ Acc (fun b a => next a = some b) a := by
  rw [assertAcyclic, require_eq_ok] at h
  refine ⟨_, fun a x hmem => ⟨?_, acc_of_walkEnds (List.all_eq_true.mp h (a, x) hmem)⟩⟩
  have hfound : lines.find? (fun entry => entry.1 == a) = some (a, x) := by
    rcases hentry : lines.find? (fun entry => entry.1 == a) with _ | entry
    · exact absurd (List.find?_eq_none.mp hentry (a, x) hmem) (by simp)
    · obtain ⟨key, row⟩ := entry
      have hkey := List.find?_some (p := fun entry : Nat × SourcingItem => entry.1 == a) hentry
      obtain rfl : key = a := beq_iff_eq.mp hkey
      have hrow := Table.get?_eq_some.mpr (hlines _ (List.mem_of_find?_eq_some hentry))
      have hx := Table.get?_eq_some.mpr (hlines _ hmem)
      rw [hentry, Option.some.inj (hrow.symm.trans hx)]
  rw [hfound, Option.bind_some, planTerm]
  split <;> rfl

theorem purchaseLines_ok {s : Store} {requestId : Nat} {orderId : Option Nat}
    {selected lines : List (Nat × SourcingItem)}
    (h : purchaseLines s requestId orderId selected = .ok lines)
    : (∀ entry ∈ lines, entry ∈ s.items.entries)
      ∧ ∀ a x, s.items.get? a = some x → x.sourcingRequestId = some requestId
        → x.pendingOrderId = orderId → (a, x) ∈ lines := by
  unfold purchaseLines at h
  split at h
  · simp only [bind_eq_ok, pure_eq_ok] at h
    obtain ⟨-, -, rfl⟩ := h
    refine ⟨fun entry hentry => (List.mem_filter.mp hentry).1, fun a x hx hrequest _ => ?_⟩
    exact List.mem_filter.mpr ⟨Table.get?_eq_some.mp hx, beq_iff_eq.mpr hrequest⟩
  · next orderId =>
    simp only [bind_eq_ok, pure_eq_ok] at h
    obtain ⟨-, -, rfl⟩ := h
    refine ⟨fun entry hentry => ?_, fun a x hx _ horder => ?_⟩
    · have hrow := Table.get?_eq_some.mpr hentry
      rw [Table.get?_filter] at hrow
      exact Table.get?_eq_some.mp (Option.filter_eq_some_iff.mp hrow).1
    · refine Table.get?_eq_some.mp ?_
      rw [Table.get?_filter, hx, Option.filter_some, if_pos (beq_iff_eq.mpr horder)]

theorem checkTerms_ok {u : Unicode} {successor : SourcingItem}
    {predecessors : List (Nat × SourcingItem)} {r : PUnit.{1}}
    (h : checkTerms u successor predecessors = .ok r) {entry : Nat × SourcingItem}
    (hentry : entry ∈ predecessors)
    : u.normalizeEntitlementIdentity entry.2.publisherName
        = u.normalizeEntitlementIdentity successor.publisherName
      ∧ (entry.2.licenseType = some .maintenance ↔ successor.licenseType = some .maintenance) := by
  simp only [checkTerms, bind_eq_ok] at h
  obtain ⟨-, -, -, -, h⟩ := h
  have hchecked := forM_eq_ok.mp h entry hentry
  simp only [bind_eq_ok, require_eq_ok] at hchecked
  obtain ⟨-, hpublisher, -, -, hmaintenance⟩ := hchecked
  exact ⟨hpublisher, hmaintenance⟩

theorem setPlannedSuccessors_checked {u : Unicode} {ids : List Nat} {successorId : Option Nat}
    {s t : Store} (h : setPlannedSuccessors u ids successorId s = .ok t)
    : ∃ requestId orderId, PlanChecked u ids successorId requestId orderId s := by
  simp only [setPlannedSuccessors, bind_eq_ok, require_eq_ok, found_eq_ok] at h
  obtain ⟨-, -, -, hstored, -, hdistinct, -, -, first, -, requestId, -, -, hrequest, -, horder,
    lines, hlines, _, hterms, _, hwalks, -⟩ := h
  obtain ⟨hsubset, hmem⟩ := purchaseLines_ok hlines
  have hloaded : ∀ (list : List Nat) id item, id ∈ list → s.items.get? id = some item
      → (id, item) ∈ list.filterMap (fun id => (s.items.get? id).map (fun item => (id, item))) :=
    fun list id item hid hitem => List.mem_filterMap.mpr ⟨id, hid, by rw [hitem, Option.map_some]⟩
  refine ⟨requestId, first.2.pendingOrderId, fun id hid => ?_, fun b hb hmem => ?_,
    fun a x b y ha hb hx hy => ?_, ?_⟩
  · have hid' : id ∈ ids ++ successorId.toList :=
      List.mem_append.mpr (hid.imp_right fun he => by rw [he]; exact List.mem_singleton_self id)
    obtain ⟨item, hitem⟩ := Option.isSome_iff_exists.mp (List.all_eq_true.mp hstored id hid')
    have hselected := hloaded _ id item hid' hitem
    exact ⟨item, hitem, beq_iff_eq.mp (List.all_eq_true.mp hrequest _ hselected),
      beq_iff_eq.mp (List.all_eq_true.mp horder _ hselected)⟩
  · rw [hb, Option.all_some, Bool.not_eq_true'] at hdistinct
    rw [List.contains_iff_mem.mpr hmem] at hdistinct
    cases hdistinct
  · rw [hb, Option.bind_some, hy, Option.map_some, Option.elim_some] at hterms
    have hchecked := checkTerms_ok hterms (hloaded ids a x ha hx)
    exact hchecked
  · obtain ⟨next, hnext⟩ := walks_of_assertAcyclic hsubset hwalks
    exact ⟨next, fun a x hx hin hordered => hnext a x (hmem a x hx hin hordered)⟩

theorem planTerm_term (u : Unicode) (ids : List Nat) (successorId : Option Nat) (id : Nat)
    (item : SourcingItem)
    : (planTerm ids successorId id item).term u
      = { item.term u with
          successor := (planTerm ids successorId id item).successorSourcingItemId } := by
  unfold planTerm
  split <;> rfl

theorem PlannedTerm.Together.withSuccessor {x y : PlannedTerm} (h : x.Together y)
    (successor successor' : Option Nat)
    : PlannedTerm.Together { x with successor := successor } { y with successor := successor' } :=
  ⟨h.request, h.placed, h.order, h.publisher, h.maintenance⟩

theorem setPlannedSuccessors_planned {u : Unicode} {ids : List Nat} {successorId : Option Nat}
    {s t : Store} (hs : PlannedTerms u s) (h : setPlannedSuccessors u ids successorId s = .ok t)
    : PlannedTerms u t := by
  obtain ⟨requestId, orderId, hchecked⟩ := setPlannedSuccessors_checked h
  obtain rfl := setPlannedSuccessors_ok h
  have hunplanned : ∀ a, a ∉ ids → ∀ x, planTerm ids successorId a x = x := fun a ha x => by
    rw [planTerm, if_neg fun hmem => ha (List.contains_iff_mem.mp hmem)]
  have hplanned : ∀ a, a ∈ ids → ∀ x,
      (planTerm ids successorId a x).successorSourcingItemId = successorId := fun a ha x => by
    rw [planTerm, if_pos (List.contains_iff_mem.mpr ha)]
  -- Both ends of a plan, old or new, belong together before the step.
  have hends : ∀ a x b, s.items.get? a = some x
      → (planTerm ids successorId a x).successorSourcingItemId = some b
      → ∃ y, s.items.get? b = some y ∧ (x.term u).Together (y.term u) := by
    intro a x b hx hb
    by_cases ha : a ∈ ids
    · rw [hplanned a ha] at hb
      obtain ⟨x', hx', hrequest, horder⟩ := hchecked.placed a (.inl ha)
      obtain rfl := Option.some.inj (hx.symm.trans hx')
      obtain ⟨y, hy, hrequest', horder'⟩ := hchecked.placed b (.inr hb)
      obtain ⟨hpublisher, hmaintenance⟩ := hchecked.terms a x b y ha hb hx hy
      refine ⟨y, hy, hrequest.trans hrequest'.symm, ?_, horder.trans horder'.symm, hpublisher, ?_⟩
      · exact fun hnone => by rw [SourcingItem.term, hrequest] at hnone; cases hnone
      · rw [Bool.eq_iff_iff]
        simp only [SourcingItem.term, beq_iff_eq]
        exact hmaintenance
    · rw [hunplanned a ha] at hb
      exact hs.ends a x b hx hb
  have hrow : ∀ a, ({ s with items := s.items.mapRows (planTerm ids successorId) } : Store).items.get? a
      = (s.items.get? a).map (planTerm ids successorId a) := fun a => Table.get?_mapRows _ _ _
  refine ⟨fun a x' b hx' hb => ?_, fun a => ?_⟩
  · rw [hrow] at hx'
    obtain ⟨x, hx, rfl⟩ := Option.map_eq_some_iff.mp hx'
    obtain ⟨y, hy, htogether⟩ := hends a x b hx hb
    refine ⟨planTerm ids successorId b y, by rw [hrow, hy, Option.map_some], ?_⟩
    rw [planTerm_term, planTerm_term]
    exact htogether.withSuccessor _ _
  · obtain ⟨next, hnext⟩ := hchecked.walks
    refine walks_of_region (Planned s) (fun a b => next a = some b)
      (fun a => ∃ x, s.items.get? a = some x ∧ x.sourcingRequestId = some requestId
        ∧ x.pendingOrderId = orderId) hs.walks ?_ ?_ ?_ a
    · rintro a ⟨x, hx, hrequest, horder⟩
      exact (hnext a x hx hrequest horder).2
    · rintro a b ⟨x, hx, hrequest, horder⟩ ⟨x', hx', hb⟩
      rw [hrow, hx] at hx'
      obtain rfl := Option.some.inj hx'
      obtain ⟨y, hy, htogether⟩ := hends a x b hx hb
      refine ⟨(hnext a x hx hrequest horder).1.trans hb, y, hy, ?_, ?_⟩
      · exact htogether.request.symm.trans hrequest
      · exact htogether.order.symm.trans horder
    · rintro a b houtside ⟨x', hx', hb⟩
      rw [hrow] at hx'
      obtain ⟨x, hx, rfl⟩ := Option.map_eq_some_iff.mp hx'
      have ha : a ∉ ids := fun hmem => by
        obtain ⟨x'', hx'', hin⟩ := hchecked.placed a (.inl hmem)
        exact houtside ⟨x'', hx'', hin⟩
      rw [hunplanned a ha] at hb
      exact ⟨x, hx, hb⟩

theorem replacePlannedPredecessors_planned {u : Unicode} {ids : List Nat} {successorId : Nat}
    {s t : Store} (hs : PlannedTerms u s) (h : replacePlannedPredecessors u ids successorId s = .ok t)
    : PlannedTerms u t := by
  obtain ⟨v, hv, h⟩ := replacePlannedPredecessors_ok h
  have hvs : PlannedTerms u v := by
    rcases hv with rfl | ⟨removed, hv⟩
    · exact hs
    · exact setPlannedSuccessors_planned hs hv
  rcases h with rfl | h
  · exact hvs
  · exact setPlannedSuccessors_planned hvs h

-- Edits

/-- A line as an edit leaves it for the plans: its publisher's name as it resolves, and its type. -/
structure LineEdited (u : Unicode) (s : Store) (edit : Option SourcingItemUpdate)
    (item item' : SourcingItem)
    : Prop where
  request : item'.sourcingRequestId = item.sourcingRequestId
  order : item'.pendingOrderId = item.pendingOrderId
  successor : item'.successorSourcingItemId = item.successorSourcingItemId
  publisher : item'.publisherName
    = ((edit.bind (·.publisherName)).map (publisherNamed u s)).getD item.publisherName
  type : item'.licenseType = (edit.map (·.rest.licenseType)).getD item.licenseType

namespace LineEdited

variable {u : Unicode} {s t : Store} {edit : Option SourcingItemUpdate} {a b c : SourcingItem}

theorem of_standing (h : b.standing = a.standing) : LineEdited u s none a b where
  request := congrArg (·.sourcingRequestId) h
  order := congrArg (·.pendingOrderId) h
  successor := congrArg (·.successorSourcingItemId) h
  publisher := congrArg (·.publisherName) h
  type := congrArg (·.licenseType) h

theorem after (h : LineEdited u t none a b) (h' : LineEdited u s edit b c)
    : LineEdited u s edit a c where
  request := h'.request.trans h.request
  order := h'.order.trans h.order
  successor := h'.successor.trans h.successor
  publisher := h'.publisher.trans (congrArg _ h.publisher)
  type := h'.type.trans (congrArg _ h.type)

theorem before (h : LineEdited u s edit a b) (h' : LineEdited u t none b c)
    : LineEdited u s edit a c where
  request := h'.request.trans h.request
  order := h'.order.trans h.order
  successor := h'.successor.trans h.successor
  publisher := h'.publisher.trans h.publisher
  type := h'.type.trans h.type

theorem term (h : LineEdited u s edit a b)
    : b.term u = { a.term u with
        publisher := u.normalizeEntitlementIdentity
          (((edit.bind (·.publisherName)).map (publisherNamed u s)).getD a.publisherName)
        isMaintenance := (edit.map (·.rest.licenseType)).getD a.licenseType == some .maintenance } := by
  simp only [SourcingItem.term, h.request, h.order, h.successor, h.publisher, h.type]

theorem recorded (h : LineEdited u t edit a b) (hnames : KeepsNames s t)
    (hrecorded : (edit.bind (·.publisherName)).all (fun name =>
      (findOrganization s (u.normalizeReferenceName (u.cleanReferenceName name))).isSome) = true)
    : LineEdited u s edit a b where
  request := h.request
  order := h.order
  successor := h.successor
  publisher := by
    rw [h.publisher]
    rcases hname : edit.bind (·.publisherName) with _ | name
    · rfl
    · rw [hname, Option.all_some] at hrecorded
      rw [Option.map_some, Option.map_some, hnames.named hrecorded]
  type := h.type

end LineEdited

/-- What the plans will read of an edited line: its publisher and whether it is maintenance. -/
def SourcingItem.editedTerms (u : Unicode) (s : Store) (edit : Option SourcingItemUpdate)
    (item : SourcingItem)
    : String × Bool :=
  (u.normalizeEntitlementIdentity
      (((edit.bind (·.publisherName)).map (publisherNamed u s)).getD item.publisherName),
    (edit.map (·.rest.licenseType)).getD item.licenseType == some .maintenance)

/-- Whether edits give both ends of every plan the same publisher, and leave them both maintenance
or both not.
-/
def Store.editsKeepTerms (u : Unicode) (s : Store) (edit : Nat → Option SourcingItemUpdate) : Bool :=
  s.items.entries.all (fun entry => entry.2.successorSourcingItemId.all (fun b =>
    (s.items.get? b).all (fun next =>
      entry.2.editedTerms u s (edit entry.1) == next.editedTerms u s (edit b))))

/-- Whether the publishers that edits name for the ends of plans are on record. -/
def Store.namesRecorded (u : Unicode) (s : Store) (edit : Nat → Option SourcingItemUpdate) : Bool :=
  s.items.entries.all (fun entry => entry.2.successorSourcingItemId.all (fun b =>
    [entry.1, b].all (fun id => ((edit id).bind (·.publisherName)).all (fun name =>
      (findOrganization s (u.normalizeReferenceName (u.cleanReferenceName name))).isSome))))

theorem PlannedTerms.of_edits {u : Unicode} {s t : Store} {edit : Nat → Option SourcingItemUpdate}
    (h : PlannedTerms u s) (hkeep : s.editsKeepTerms u edit = true)
    (hback : ∀ id x', t.items.get? id = some x' → ∃ x, s.items.get? id = some x
      ∧ x.successorSourcingItemId = x'.successorSourcingItemId)
    (hends : ∀ a x b y, s.items.get? a = some x → x.successorSourcingItemId = some b
      → s.items.get? b = some y
      → (∃ x', t.items.get? a = some x' ∧ LineEdited u s (edit a) x x')
        ∧ ∃ y', t.items.get? b = some y' ∧ LineEdited u s (edit b) y y')
    : PlannedTerms u t := by
  refine h.step fun a x' b hx' hb => ?_
  obtain ⟨x, hx, hsuccessor⟩ := hback a x' hx'
  refine ⟨x, hx, hsuccessor.trans hb, fun y hy htogether => ?_⟩
  obtain ⟨⟨row, hrow, hedited⟩, y', hy', hedited'⟩ := hends a x b y hx (hsuccessor.trans hb) hy
  obtain rfl := Option.some.inj (hrow.symm.trans hx')
  have hterms := List.all_eq_true.mp hkeep _ (Table.get?_eq_some.mp hx)
  rw [hsuccessor, hb, Option.all_some, hy, Option.all_some, beq_iff_eq] at hterms
  obtain ⟨hpublisher, hmaintenance⟩ := Prod.mk.inj hterms
  refine ⟨y', hy', ?_⟩
  rw [hedited.term, hedited'.term]
  exact ⟨htogether.request, htogether.placed, htogether.order, hpublisher, hmaintenance⟩

/-- The edit of one line. -/
def editOf (itemId : Nat) (p : SourcingItemUpdate) (id : Nat) : Option SourcingItemUpdate :=
  if id = itemId then some p else none

theorem applySourcingItemUpdate_edited {u : Unicode} {itemId : Nat} {item : SourcingItem}
    {requestId : Option Nat} {p : SourcingLineEdit} {s t : Store}
    (hitem : s.items.get? itemId = some item)
    (h : applySourcingItemUpdate u itemId item requestId p s = .ok t)
    : KeepsNames s t
      ∧ (∀ id x', t.items.get? id = some x' → ∃ x, s.items.get? id = some x)
      ∧ ∀ id x, s.items.get? id = some x → ∃ x', t.items.get? id = some x'
        ∧ LineEdited u s (editOf itemId p.columns id) x x' := by
  obtain ⟨publisher, v, hv, hpublisher, ht, hnames⟩ := applySourcingItemUpdate_ok h
  have hrow : ∀ id, (v.modifyItem itemId (p.writeRow publisher)).items.get? id
      = (v.items.get? id).map (fun row => if id = itemId then p.writeRow publisher row else row) :=
    Table.get?_modify _ _ _
  refine ⟨hnames, fun id x' hx' => ?_, fun id x hx => ?_⟩
  · obtain ⟨row, hmodified, -⟩ := ht.lines.back hx'
    rw [hrow] at hmodified
    obtain ⟨old, hold, -⟩ := Option.map_eq_some_iff.mp hmodified
    obtain ⟨x, hx, -⟩ := hv.lines.back hold
    exact ⟨x, hx⟩
  · obtain ⟨row, hstored, hstanding⟩ := hv.lines.forth hx
    have hmodified := hrow id
    rw [hstored, Option.map_some] at hmodified
    obtain ⟨x', hx', hstanding'⟩ := ht.lines.forth hmodified
    refine ⟨x', hx', LineEdited.before ?_ (.of_standing (u := u) (s := s) hstanding')⟩
    have hkept : LineEdited u s none x row := .of_standing hstanding
    unfold editOf
    by_cases hid : id = itemId
    · subst hid
      obtain rfl := Option.some.inj (hitem.symm.trans hx)
      rw [if_pos rfl, if_pos rfl]
      refine hkept.after ⟨rfl, rfl, rfl, ?_, rfl⟩
      simp only [SourcingLineEdit.writeRow, SourcingItemUpdate.writeRow, Option.bind_some]
      rcases hname : p.columns.publisherName with _ | name
      · rfl
      · rw [hname] at hpublisher
        exact hpublisher
    · rw [if_neg hid, if_neg hid]
      exact hkept

theorem updateSourcingItem_planned {env : Env} {itemId : Nat} {p : SourcingLineEdit} {s t : Store}
    (hs : PlannedTerms env.unicode s)
    (hkeep : s.editsKeepTerms env.unicode (editOf itemId p.columns) = true)
    (h : updateSourcingItem env itemId p s = .ok t)
    : PlannedTerms env.unicode t := by
  simp only [updateSourcingItem, bind_eq_ok, found_eq_ok] at h
  obtain ⟨item, hitem, -, -, -, -, h⟩ := h
  obtain ⟨-, hback, hrows⟩ := applySourcingItemUpdate_edited hitem h
  refine hs.of_edits hkeep (fun id x' hx' => ?_) fun a x b y hx _ hy => ⟨hrows a x hx, hrows b y hy⟩
  obtain ⟨x, hx⟩ := hback id x' hx'
  obtain ⟨row, hrow, hedited⟩ := hrows id x hx
  obtain rfl := Option.some.inj (hrow.symm.trans hx')
  exact ⟨x, hx, hedited.successor.symm⟩

theorem updatePendingOrderItem_planned {env : Env} {orderId itemId : Nat}
    {p : SourcingItemUpdate} {s t : Store} (hs : PlannedTerms env.unicode s)
    (hkeep : s.editsKeepTerms env.unicode (editOf itemId p) = true)
    (h : updatePendingOrderItem env orderId itemId p s = .ok t)
    : PlannedTerms env.unicode t := by
  simp only [updatePendingOrderItem, bind_eq_ok, pure_eq_ok] at h
  obtain ⟨loaded, -, item, -, -, -, ⟨resolved, v⟩, hresolved, -, -, rfl⟩ := h
  have hv : v.items = s.items ∧ ∀ name, p.publisherName = some name
      → resolved.publisherName = publisherNamed env.unicode s name := by
    simp only [SourcingItemUpdate.resolve] at hresolved
    split at hresolved
    · refine ⟨(resolveSourcingItemReferences_ok hresolved).1.items, fun name hname => ?_⟩
      simp only [resolveSourcingItemReferences, bind_eq_ok] at hresolved
      obtain ⟨-, -, ⟨publisher, id, w⟩, hr, hresolved⟩ := hresolved
      have hpublisher := (resolveOrganization_named hr).1
      rw [hname, Option.getD_some] at hpublisher
      split at hresolved
      · obtain ⟨rfl, -⟩ := Prod.mk.inj (pure_eq_ok.mp hresolved)
        exact hpublisher
      · simp only [bind_eq_ok, pure_eq_ok, Prod.mk.injEq] at hresolved
        obtain ⟨-, -, rfl, -⟩ := hresolved
        exact hpublisher
    · next hnone =>
        obtain ⟨-, rfl⟩ := Prod.mk.inj (Except.ok.inj hresolved)
        refine ⟨rfl, fun name hname => absurd (.inl ?_) hnone⟩
        rw [hname]
        rfl
  have hrow : ∀ id, (v.modifyItem itemId (p.writeRow resolved)).items.get? id
      = (s.items.get? id).map (fun row => if id = itemId then p.writeRow resolved row else row) := by
    rw [← hv.1]
    exact Table.get?_modify _ _ _
  have hedited : ∀ id x, LineEdited env.unicode s (editOf itemId p id) x
      (if id = itemId then p.writeRow resolved x else x) := by
    intro id x
    unfold editOf
    split
    · refine ⟨rfl, rfl, rfl, ?_, rfl⟩
      simp only [SourcingItemUpdate.writeRow, Option.bind_some]
      rcases hname : p.publisherName with _ | name
      · rfl
      · exact hv.2 name hname
    · exact .of_standing rfl
  refine hs.of_edits hkeep (fun id x' hx' => ?_) fun a x b y hx _ hy => ⟨?_, ?_⟩
  · rw [hrow] at hx'
    obtain ⟨x, hx, rfl⟩ := Option.map_eq_some_iff.mp hx'
    exact ⟨x, hx, (hedited id x).successor.symm⟩
  · exact ⟨_, by rw [hrow, hx, Option.map_some], hedited a x⟩
  · exact ⟨_, by rw [hrow, hy, Option.map_some], hedited b y⟩

/-- The edit that a list of edits makes of a line. -/
def editIn (edits : List (Nat × SourcingLineEdit)) (id : Nat) : Option SourcingItemUpdate :=
  (edits.find? (fun edit => edit.1 == id)).map (·.2.columns)

theorem editIn_cons (head : Nat × SourcingLineEdit) (rest : List (Nat × SourcingLineEdit)) (id : Nat)
    : editIn (head :: rest) id = if head.1 = id then some head.2.columns else editIn rest id := by
  unfold editIn
  rw [List.find?_cons]
  by_cases hid : head.1 = id
  · rw [beq_iff_eq.mpr hid, if_pos hid]
    rfl
  · rw [beq_eq_false_iff_ne.mpr hid, if_neg hid]

theorem applyRequestLineUpdates_edited {u : Unicode} {requestId : Nat}
    {edits : List (Nat × SourcingLineEdit)} {s t : Store} (hnodup : (edits.map Prod.fst).Nodup)
    (h : each (applyRequestLineUpdate u requestId) edits s = .ok t)
    : (∀ id x', t.items.get? id = some x' → ∃ x, s.items.get? id = some x)
      ∧ ∀ id x, s.items.get? id = some x → ∃ x' v, t.items.get? id = some x' ∧ KeepsNames s v
        ∧ LineEdited u v (editIn edits id) x x' := by
  induction edits generalizing s with
  | nil =>
      obtain rfl : s = t := by simpa [each] using h
      exact ⟨fun id x' hx' => ⟨x', hx'⟩, fun id x hx => ⟨x, s, hx, .refl s, .of_standing rfl⟩⟩
  | cons head rest ih =>
      obtain ⟨v, hv, ht⟩ := bind_eq_ok.mp h
      simp only [applyRequestLineUpdate, bind_eq_ok, found_eq_ok] at hv
      obtain ⟨item, hitem, hv⟩ := hv
      obtain ⟨hhead, hnodup⟩ := List.nodup_cons.mp hnodup
      obtain ⟨hnames, hback, hrows⟩ := applySourcingItemUpdate_edited hitem hv
      obtain ⟨hback', hrows'⟩ := ih hnodup ht
      refine ⟨fun id x' hx' => ?_, fun id x hx => ?_⟩
      · obtain ⟨row, hrow⟩ := hback' id x' hx'
        exact hback id row hrow
      · obtain ⟨row, hrow, hedited⟩ := hrows id x hx
        obtain ⟨x', w, hx', hkept, hedited'⟩ := hrows' id row hrow
        rw [editIn_cons]
        by_cases hid : head.1 = id
        · have hnone : editIn rest id = none := by
            refine Option.map_eq_none_iff.mpr (List.find?_eq_none.mpr fun edit hedit he => hhead ?_)
            rw [hid, ← beq_iff_eq.mp he]
            exact List.mem_map.mpr ⟨edit, hedit, rfl⟩
          rw [hnone] at hedited'
          rw [editOf, if_pos hid.symm] at hedited
          rw [if_pos hid]
          exact ⟨x', s, hx', .refl s, hedited.before hedited'⟩
        · rw [editOf, if_neg (Ne.symm hid)] at hedited
          rw [if_neg hid]
          exact ⟨x', w, hx', hnames.trans hkept, hedited.after hedited'⟩

theorem applySourcingRequestWorkflowUpdate_planned {env : Env} {requestId : Nat}
    {p : SourcingRequestUpdate} {s t : Store} (hs : PlannedTerms env.unicode s)
    (hkeep : s.editsKeepTerms env.unicode (editIn p.items) = true)
    (hrecorded : s.namesRecorded env.unicode (editIn p.items) = true)
    (h : applySourcingRequestWorkflowUpdate env requestId p s = .ok t)
    : PlannedTerms env.unicode t := by
  simp only [applySourcingRequestWorkflowUpdate, bind_eq_ok, require_eq_ok] at h
  obtain ⟨-, -, -, -, -, hnodup, -, -, v, hv, h⟩ := h
  obtain ⟨hstanding, hnames⟩ := applySourcingRequestUpdate_ok hv
  obtain ⟨hback, hrows⟩ := applyRequestLineUpdates_edited hnodup h
  have hrow : ∀ id x, s.items.get? id = some x → ∃ x' w, t.items.get? id = some x'
      ∧ KeepsNames s w ∧ LineEdited env.unicode w (editIn p.items id) x x' := fun id x hx => by
    obtain ⟨row, hstored, hsame⟩ := hstanding.lines.forth hx
    obtain ⟨x', w, hx', hkept, hedited⟩ := hrows id row hstored
    have hunedited : LineEdited env.unicode s none x row := .of_standing hsame
    exact ⟨x', w, hx', hnames.trans hkept, hunedited.after hedited⟩
  refine hs.of_edits hkeep (fun id x' hx' => ?_) fun a x b y hx hb hy => ?_
  · obtain ⟨row, hstored⟩ := hback id x' hx'
    obtain ⟨x, hx, -⟩ := hstanding.lines.back hstored
    obtain ⟨x'', w, hx'', -, hedited⟩ := hrow id x hx
    obtain rfl := Option.some.inj (hx''.symm.trans hx')
    exact ⟨x, hx, hedited.successor.symm⟩
  · have hends := List.all_eq_true.mp hrecorded _ (Table.get?_eq_some.mp hx)
    rw [hb, Option.all_some] at hends
    obtain ⟨x', w, hx', hkept, hedited⟩ := hrow a x hx
    obtain ⟨y', w', hy', hkept', hedited'⟩ := hrow b y hy
    exact ⟨⟨x', hx', hedited.recorded hkept (List.all_eq_true.mp hends a (by simp))⟩,
      ⟨y', hy', hedited'.recorded hkept' (List.all_eq_true.mp hends b (by simp))⟩⟩

-- Deletions, cancellations and conversions

theorem requireNoPlannedLinks_ok {s : Store} {itemId : Nat} {item : SourcingItem} {r : PUnit}
    (h : requireNoPlannedLinks s itemId item = .ok r)
    : item.successorSourcingItemId = none
      ∧ ∀ a x, s.items.get? a = some x → x.successorSourcingItemId ≠ some itemId := by
  rw [requireNoPlannedLinks, require_eq_ok] at h
  refine ⟨h.1, fun a x hx => ?_⟩
  exact bne_iff_ne.mp (List.all_eq_true.mp h.2 _ (Table.get?_eq_some.mp hx))

namespace PlannedTerms

variable {u : Unicode} {s t : Store}

theorem of_statuses (h : PlannedTerms u s) {f : Nat → SourcingItem → SourcingItem}
    (hitems : t.items = s.items.mapRows f) (hrow : ∀ id item, (f id item).term u = item.term u)
    : PlannedTerms u t := by
  refine h.of_agrees ?_
  rw [hitems]
  exact Table.Agrees.of_mapRows hrow

theorem of_refresh (h : PlannedTerms u s) (requestId : Nat)
    : PlannedTerms u (refreshSourcingRequestStatus requestId s) :=
  h.of_items (refreshSourcingRequestStatus_items requestId s).1

theorem foldl {α : Type} {step : Store → α → Store}
    (hstep : ∀ s a, PlannedTerms u s → PlannedTerms u (step s a)) (list : List α)
    (h : PlannedTerms u s)
    : PlannedTerms u (list.foldl step s) := by
  induction list generalizing s with
  | nil => exact h
  | cons head rest ih => exact ih (hstep s head h)

end PlannedTerms

variable {env : Env} {s t : Store}

theorem deleteSourcingItem_planned {u : Unicode} {itemId : Nat} (hs : PlannedTerms u s)
    (h : deleteSourcingItem itemId s = .ok t)
    : PlannedTerms u t := by
  simp only [deleteSourcingItem, bind_eq_ok] at h
  obtain ⟨item, -, -, -, -, -, h⟩ := h
  have hdeleted := (hs.of_deleteItems (fun id _ => id == itemId)).of_quiet
    (clearRenewals_quiet item.predecessorIds _)
  split at h
  · obtain rfl := pure_eq_ok.mp h
    split
    · exact hdeleted.of_refresh _
    · exact hdeleted
  · obtain rfl := pure_eq_ok.mp h
    exact hdeleted

theorem deleteSourcingRequest_planned {u : Unicode} {requestId : Nat} (hs : PlannedTerms u s)
    (h : deleteSourcingRequest requestId s = .ok t)
    : PlannedTerms u t := by
  simp only [deleteSourcingRequest, bind_eq_ok, pure_eq_ok] at h
  obtain ⟨-, -, -, -, -, -, rfl⟩ := h
  have hdeleted := hs.of_deleteItems (fun _ item => item.sourcingRequestId == some requestId)
  refine PlannedTerms.of_quiet ?_ (clearRenewals_quiet _ _)
  exact hdeleted.of_items rfl

theorem cancelSourcingRequest_planned {u : Unicode} {requestId : Nat} (hs : PlannedTerms u s)
    (h : cancelSourcingRequest requestId s = .ok t)
    : PlannedTerms u t := by
  simp only [cancelSourcingRequest, bind_eq_ok, pure_eq_ok] at h
  obtain ⟨-, -, -, -, rfl⟩ := h
  refine PlannedTerms.of_quiet ?_ (clearRenewals_quiet _ _)
  refine hs.of_statuses (f := fun _ item =>
    if item.sourcingRequestId = some requestId ∧ item.status = .sourcing then
      { item with status := .cancelled }
    else item) rfl fun _ item => ?_
  split <;> rfl

theorem cancelPendingOrder_planned {u : Unicode} {orderId : Nat} (hs : PlannedTerms u s)
    (h : cancelPendingOrder orderId s = .ok t)
    : PlannedTerms u t := by
  simp only [cancelPendingOrder, bind_eq_ok, pure_eq_ok] at h
  obtain ⟨-, -, rfl⟩ := h
  refine PlannedTerms.of_quiet ?_ (clearRenewals_quiet _ _)
  refine hs.of_statuses (f := fun _ item =>
    if item.pendingOrderId = some orderId then { item with status := .cancelled } else item) rfl
    fun _ item => ?_
  split <;> rfl

theorem cancelRenewal_planned {u : Unicode} {licenseId : Nat} (hs : PlannedTerms u s)
    (h : cancelRenewal env licenseId s = .ok t)
    : PlannedTerms u t := by
  simp only [cancelRenewal, bind_eq_ok, pure_eq_ok] at h
  obtain ⟨-, -, -, -, ⟨requestIds, v⟩, hv, rfl⟩ := h
  have hlines : PlannedTerms u v := by
    refine each_keeps (P := fun made : List Nat × Store => PlannedTerms u made.2)
      (fun itemId _ a b ha hstep => ?_) hs hv
    simp only [cancelRenewalLine, bind_eq_ok, found_eq_ok] at hstep
    obtain ⟨item, hitem, -, -, hstep⟩ := hstep
    have hcancelled : ∀ v : Store, PlannedTerms u v → PlannedTerms u
        (v.modifyItem itemId (fun item => { item with status := .cancelled })) := fun v hv => by
      refine hv.of_statuses (f := fun id item =>
        if id = itemId then { item with status := .cancelled } else item) rfl fun _ item => ?_
      split <;> rfl
    split at hstep
    · next requestId hrequest =>
        obtain rfl := (Except.ok.inj hstep).symm
        exact hcancelled a.2 ha
    · next hnone =>
        simp only [bind_eq_ok, pure_eq_ok] at hstep
        obtain ⟨⟨requestId, w⟩, hensure, rfl⟩ := hstep
        exact hcancelled w (ha.of_quiet
          ((ensureSourcingRequestForItem_ok hensure hitem).quiet hitem hnone))
  refine PlannedTerms.of_items (PlannedTerms.foldl (fun s requestId hs => ?_) requestIds hlines) rfl
  exact (hs.of_refresh requestId).of_quiet (clearPendingRenewalIfNoOpenSourcing_quiet licenseId _)

theorem mergeCotermSourcingItems_planned {u : Unicode} {itemIds : List Nat} {columns : SourcingItem}
    (hs : PlannedTerms u s) (h : mergeCotermSourcingItems env itemIds columns s = .ok t)
    : PlannedTerms u t := by
  simp only [mergeCotermSourcingItems, bind_eq_ok, pure_eq_ok] at h
  obtain ⟨-, -, -, -, -, -, -, -, -, -, -, -, -, -, v, hadded, rfl⟩ := h
  have hdeleted := (hs.of_quiet (addLineWithRequest_quiet hadded rfl)).of_deleteItems
    (fun id _ => itemIds.contains id)
  exact hdeleted.of_items rfl

theorem deletePendingOrderItem_planned {u : Unicode} {orderId itemId : Nat} (hs : PlannedTerms u s)
    (h : deletePendingOrderItem orderId itemId s = .ok t)
    : PlannedTerms u t := by
  simp only [deletePendingOrderItem, bind_eq_ok, pure_eq_ok] at h
  obtain ⟨loaded, -, item, -, _, hunlinked, rfl⟩ := h
  refine PlannedTerms.of_quiet ?_ (clearRenewals_quiet _ _)
  have hdeleted : PlannedTerms u { s with items := s.items.filter (fun id _ => id != itemId) } := by
    refine hs.of_unlinked itemId (fun id hid => ?_) (fun x' hx' => ?_)
      (requireNoPlannedLinks_ok hunlinked).2
    · rw [Table.get?_filter]
      rcases s.items.get? id with _ | row
      · rfl
      · rw [Option.filter_some, if_pos (bne_iff_ne.mpr hid)]
    · rw [Table.get?_filter] at hx'
      obtain ⟨-, hkept⟩ := Option.filter_eq_some_iff.mp hx'
      exact absurd rfl (bne_iff_ne.mp hkept)
  split
  · exact hdeleted.of_items rfl
  · exact hdeleted

theorem deletePendingOrder_planned {u : Unicode} {orderId : Nat} (hs : PlannedTerms u s)
    (h : deletePendingOrder orderId s = .ok t)
    : PlannedTerms u t := by
  simp only [deletePendingOrder, bind_eq_ok, pure_eq_ok] at h
  obtain ⟨_, -, -, -, rfl⟩ := h
  have hterm : ∀ item : SourcingItem, (if item.pendingOrderId = some orderId then
        { item with status := .sourcing, pendingOrderId := none } else item).term u
      = { item.term u with
          order := if item.pendingOrderId = some orderId then none else item.pendingOrderId } :=
    fun item => by split <;> rfl
  refine hs.step fun a x' b hx' hb => ?_
  rw [Table.get?_mapRows] at hx'
  obtain ⟨x, hx, rfl⟩ := Option.map_eq_some_iff.mp hx'
  refine ⟨x, hx, ?_, fun y hy htogether => ⟨_, by rw [Table.get?_mapRows, hy]; rfl, ?_⟩⟩
  · split at hb <;> exact hb
  · rw [hterm, hterm]
    refine ⟨htogether.request, htogether.placed, ?_, htogether.publisher, htogether.maintenance⟩
    have horder : x.pendingOrderId = y.pendingOrderId := htogether.order
    rw [horder]

theorem convertSourcingItem_planned {u : Unicode} {itemId : Nat} {target : ConversionTarget}
    (hs : PlannedTerms u s) (h : convertSourcingItem env itemId target s = .ok t)
    : PlannedTerms u t := by
  simp only [convertSourcingItem, bind_eq_ok, found_eq_ok, pure_eq_ok] at h
  obtain ⟨item, hitem, -, -, ⟨requestId, v⟩, hensure, -, -, _, hunlinked, w, hresolve,
    ⟨orderId, x⟩, horder, -, -, rfl⟩ := h
  obtain ⟨hstored, -⟩ := Option.filter_eq_some_iff.mp hitem
  have hensured := ensureSourcingRequestForItem_ok hensure hstored
  have hkeeps := (resolveRequestSupplier_standing hresolve).trans
    (resolveConversionOrder_standing horder).1
  have hsync := syncOrderLines_standing env.unicode orderId (attachLine orderId x itemId)
  refine PlannedTerms.of_refresh ?_ requestId
  refine PlannedTerms.of_standing ?_ hsync
  obtain ⟨hsuccessor, hin⟩ := requireNoPlannedLinks_ok hunlinked
  have hother : ∀ id, id ≠ itemId → (attachLine orderId x itemId).items.get? id = x.items.get? id :=
    fun id hid => Table.get?_modify_ne _ _ hid
  refine hs.of_unlinked itemId (fun id hid => ?_) (fun x' hx' => ?_) fun a row hrow => ?_
  · rw [hother id hid, ← hensured.others id hid]
    exact (hkeeps.lines.coarsen (SourcingItem.term u)) id
  · simp only [attachLine, Store.modifyItem] at hx'
    rw [Table.get?_modify_self] at hx'
    obtain ⟨row, hrow, rfl⟩ := Option.map_eq_some_iff.mp hx'
    obtain ⟨middle, hmiddle, hstanding⟩ := hkeeps.lines.back hrow
    obtain ⟨ensured, hget, -, -, -, hsame, -⟩ := hensured.row
    obtain rfl := Option.some.inj (hget.symm.trans hmiddle)
    have hkept : row.successorSourcingItemId = ensured.successorSourcingItemId :=
      congrArg (·.successorSourcingItemId) hstanding
    exact hkept.trans (hsame.trans hsuccessor)
  · by_cases ha : a = itemId
    · subst ha
      obtain rfl := Option.some.inj (hstored.symm.trans hrow)
      rw [hsuccessor]
      exact (Option.some_ne_none a).symm
    · exact hin a row ((hensured.others a ha).trans hrow)

theorem convertFreewareSourcingItems_planned {u : Unicode} {itemIds : List Nat}
    (hs : PlannedTerms u s) (h : convertFreewareSourcingItems env itemIds s = .ok t)
    : PlannedTerms u t := by
  simp only [convertFreewareSourcingItems, bind_eq_ok, pure_eq_ok] at h
  obtain ⟨-, -, v, hitems, rfl⟩ := h
  refine PlannedTerms.foldl (fun s requestId hs => hs.of_refresh requestId) _ ?_
  refine hs.of_statuses (convertFreewareItems_ok hitems).items fun id item => ?_
  unfold markConverted
  split <;> rfl

/-- Whether the conversion of a request attaches both ends of every plan to the order, or neither. -/
def Store.attachesTogether (u : Unicode) (s : Store) (requestId : Nat) : Bool :=
  s.items.entries.all (fun entry => entry.2.successorSourcingItemId.all (fun b =>
    (s.items.get? b).all (fun next =>
      entry.2.isOpenPurchase u requestId == next.isOpenPurchase u requestId)))

theorem RequestConverted.planned {u u' : Unicode} {requestId orderId : Nat}
    (h : RequestConverted u requestId orderId s t) (hs : PlannedTerms u' s)
    (htogether : s.attachesTogether u requestId = true)
    : PlannedTerms u' t := by
  have hterm : ∀ item : SourcingItem, (if item.isOpenPurchase u requestId then item.attached orderId
        else item).term u'
      = { item.term u' with
          order := if item.isOpenPurchase u requestId then some orderId else item.pendingOrderId } :=
    fun item => by split <;> rfl
  have hattached : PlannedTerms u' { s with items := s.items.mapRows (fun _ item =>
      if item.isOpenPurchase u requestId then item.attached orderId else item) } := by
    refine hs.step fun a x' b hx' hb => ?_
    rw [Table.get?_mapRows] at hx'
    obtain ⟨x, hx, rfl⟩ := Option.map_eq_some_iff.mp hx'
    have hsuccessor : x.successorSourcingItemId = some b := by
      split at hb <;> exact hb
    refine ⟨x, hx, hsuccessor, fun y hy hends => ⟨_, by rw [Table.get?_mapRows, hy]; rfl, ?_⟩⟩
    rw [hterm, hterm]
    refine ⟨hends.request, hends.placed, ?_, hends.publisher, hends.maintenance⟩
    have hboth := List.all_eq_true.mp htogether _ (Table.get?_eq_some.mp hx)
    rw [hsuccessor, Option.all_some, hy, Option.all_some, beq_iff_eq] at hboth
    have horder : x.pendingOrderId = y.pendingOrderId := hends.order
    rw [hboth, horder]
  exact hattached.of_agrees (h.lines.coarsen (SourcingItem.term u'))

theorem convertSourcingRequestWorkflow_planned {u : Unicode} {requestId : Nat}
    {target : ConversionTarget} (hs : PlannedTerms u s)
    (htogether : s.attachesTogether env.unicode requestId = true)
    (h : convertSourcingRequestWorkflow env requestId target s = .ok t)
    : PlannedTerms u t := by
  simp only [convertSourcingRequestWorkflow, bind_eq_ok] at h
  obtain ⟨v, hv, h⟩ := h
  obtain ⟨orderId, hrequest⟩ := convertSourcingRequest_converted hv
  have hvs := hrequest.planned hs htogether
  split at h
  · obtain rfl := pure_eq_ok.mp h
    exact hvs
  · exact convertFreewareSourcingItems_planned hvs h

-- Runs

/-- The condition on a request: an edit keeps what the ends of every plan share, where an edit of a
whole request names publishers on record for them; and the conversion of a request attaches both
ends of every plan to the order, or neither.
-/
def SourcingAction.keepsTerms (s : Store) : Env × SourcingAction → Bool
  | (env, .editItem itemId edit) => s.editsKeepTerms env.unicode (editOf itemId edit.columns)
  | (env, .editOrderLine _ itemId edit) => s.editsKeepTerms env.unicode (editOf itemId edit)
  | (env, .editRequest _ edit) =>
      s.editsKeepTerms env.unicode (editIn edit.items)
        && s.namesRecorded env.unicode (editIn edit.items)
  | (env, .convertRequest requestId _) => s.attachesTogether env.unicode requestId
  | _ => true

theorem SourcingAction.run_planned {action : SourcingAction}
    (hs : PlannedTerms env.unicode s) (hkeep : SourcingAction.keepsTerms s (env, action) = true)
    (h : SourcingAction.run (env, action) s = .ok t)
    : PlannedTerms env.unicode t := by
  cases action with
  | createItem => exact hs.of_quiet (createSourcingItem_quiet h)
  | createRequest => exact hs.of_quiet (createSourcingRequest_quiet h)
  | addLine =>
      obtain ⟨v, hquiet, rfl | ⟨itemId, hplanned⟩⟩ := addSourcingRequestItem_quiet h
      · exact hs.of_quiet hquiet
      · exact setPlannedSuccessors_planned (hs.of_quiet hquiet) hplanned
  | initiateRenewal => exact hs.of_quiet (initiateLicenseRenewal_quiet h)
  | startSupport => exact hs.of_quiet (startSupportRenewal_quiet h)
  | backfill => exact hs.of_quiet (backfillMissingSourcingRequests_quiet h)
  | editItem => exact updateSourcingItem_planned hs hkeep h
  | editRequest =>
      obtain ⟨hterms, hrecorded⟩ := Bool.and_eq_true_iff.mp hkeep
      exact applySourcingRequestWorkflowUpdate_planned hs hterms hrecorded h
  | setSuccessors => exact setPlannedSuccessors_planned hs h
  | replacePredecessors => exact replacePlannedPredecessors_planned hs h
  | mergeItems => exact mergeCotermSourcingItems_planned hs h
  | deleteItem => exact deleteSourcingItem_planned hs h
  | deleteRequest => exact deleteSourcingRequest_planned hs h
  | cancelRequest => exact cancelSourcingRequest_planned hs h
  | cancelLicenseRenewal => exact cancelRenewal_planned hs h
  | convertItem => exact convertSourcingItem_planned hs h
  | convertRequest => exact convertSourcingRequestWorkflow_planned hs hkeep h
  | convertFreeItem =>
      simp only [SourcingAction.run, convertFreewareSourcingItem, bind_eq_ok] at h
      obtain ⟨-, -, h⟩ := h
      exact convertFreewareSourcingItems_planned hs h
  | convertFreeRequest =>
      simp only [SourcingAction.run, convertFreewareSourcingRequest, bind_eq_ok] at h
      obtain ⟨-, -, -, -, h⟩ := h
      exact convertFreewareSourcingItems_planned hs h
  | createOrder => exact hs.of_quiet (createPendingOrder_quiet h)
  | editOrder => exact hs.of_quiet (applyPendingOrderUpdate_quiet h)
  | addOrderLines => exact hs.of_quiet (addPendingOrderItemsBulk_quiet h)
  | editOrderLine => exact updatePendingOrderItem_planned hs hkeep h
  | deleteOrderLine => exact deletePendingOrderItem_planned hs h
  | deleteOrder => exact deletePendingOrder_planned hs h
  | cancelOrder => exact cancelPendingOrder_planned hs h

/-- What it means that the planned next terms form a forest inside one request or order: no plan
leads back to its start, and the two ends of each are stored lines of one request and one order (or
of none), with one publisher, both of them maintenance or neither.
-/
structure PlansFormForest (u : Unicode) (s : Store) : Prop where
  acyclic : Acyclic (Planned s)
  ends : ∀ a x b, s.items.get? a = some x → x.successorSourcingItemId = some b
    → ∃ y requestId, s.items.get? b = some y
      ∧ x.sourcingRequestId = some requestId ∧ y.sourcingRequestId = some requestId
      ∧ x.pendingOrderId = y.pendingOrderId
      ∧ u.normalizeEntitlementIdentity x.publisherName = u.normalizeEntitlementIdentity y.publisherName
      ∧ (x.licenseType = some .maintenance ↔ y.licenseType = some .maintenance)

theorem PlannedTerms.forest {u : Unicode} (h : PlannedTerms u s) : PlansFormForest u s where
  acyclic := h.acyclic
  ends := fun a x b hx hb => by
    obtain ⟨y, hy, htogether⟩ := h.ends a x b hx hb
    obtain ⟨requestId, hrequest⟩ := Option.ne_none_iff_exists'.mp htogether.placed
    refine ⟨y, requestId, hy, hrequest, htogether.request.symm.trans hrequest, htogether.order,
      htogether.publisher, ?_⟩
    have hsame := Bool.eq_iff_iff.mp htogether.maintenance
    simp only [SourcingItem.term, beq_iff_eq] at hsame
    exact hsame

theorem PlannedTerms.of_none {u : Unicode}
    (h : s.items.entries.all (fun entry => entry.2.successorSourcingItemId.isNone) = true)
    : PlannedTerms u s := by
  have hnone : ∀ a x b, s.items.get? a = some x → x.successorSourcingItemId ≠ some b :=
    fun a x b hx hb => by
      have hrow := List.all_eq_true.mp h _ (Table.get?_eq_some.mp hx)
      dsimp only at hrow
      rw [hb] at hrow
      cases hrow
  refine ⟨fun a x b hx hb => absurd hb (hnone a x b hx), fun a => .intro a ?_⟩
  rintro b ⟨x, hx, hb⟩
  exact absurd hb (hnone a x b hx)

/-- In every run whose edits keep what the ends of every plan share, and whose conversions of
requests take both ends of a plan or neither, the planned next terms form a forest.
-/
theorem plannedTerms_formForest {u : Unicode} {start : Store} (hstart : PlannedTerms u start)
    (h : Reachable SourcingAction.run
      (fun s request => request.1.unicode = u ∧ SourcingAction.keepsTerms s request = true) start s)
    : PlansFormForest u s := by
  refine PlannedTerms.forest (h.invariant hstart ?_)
  rintro s t ⟨env, action⟩ hs ⟨rfl, hkeep⟩ hran
  exact SourcingAction.run_planned hs hkeep hran

/-- A store with one open request of two subscription lines. -/
def twoTerms : Store where
  requests := Table.empty.insert { supplier := some "Acme" }
  items :=
    (Table.empty.insert
      {
        sourcingRequestId := some 1
        publisherName := "Acme"
        softwareDescription := "First year"
        licenseType := some .subscription
      }).insert
      {
        sourcingRequestId := some 1
        publisherName := "Acme"
        softwareDescription := "Second year"
        licenseType := some .subscription
      }

/-- The edit that renames the publisher of a subscription line. -/
def renamePublisher (name : String) : SourcingLineEdit where
  columns :=
    {
      publisherName := some name
      rest :=
        {
          publisherName := name
          softwareDescription := "First year"
          licenseType := some .subscription
        }
    }

/-- A plan outlasts an edit that spells the publisher anew, and the conversion of its request. -/
theorem plannedTerms_formForest_twoTerms
    : ∃ s, Planned s 1 2 ∧ (s.orders.get? 1).isSome = true ∧ PlansFormForest Unicode.ascii s := by
  have hrun : (runAdmitted SourcingAction.run
      (fun s request => SourcingAction.keepsTerms s request = true)
      [(.onDay 20000, .setSuccessors [1] (some 2)),
        (.onDay 20000, .editItem 1 (renamePublisher "ACME")), (.onDay 20001, .convertRequest 1 {})]
      twoTerms).map (fun s => ((s.items.get? 1).bind (·.successorSourcingItemId),
        (s.orders.get? 1).isSome)) = some (some 2, true) := by
    decide +kernel
  obtain ⟨s, hs, hrow⟩ := Option.map_eq_some_iff.mp hrun
  obtain ⟨hplanned, horder⟩ := Prod.mk.inj hrow
  refine ⟨s, Option.bind_eq_some_iff.mp hplanned, horder, plannedTerms_formForest
    (.of_none (by decide)) (.of_runAdmitted_among .start (fun request hrequest => ?_) hs)⟩
  simp only [List.mem_cons, List.not_mem_nil, or_false] at hrequest
  rcases hrequest with rfl | rfl | rfl <;> rfl

/-- An edit gives one end of a plan another publisher. -/
theorem plannedTerms_otherPublisher
    : PlannedTerms Unicode.ascii twoTerms
      ∧ ∃ s, Reachable SourcingAction.run (fun _ request => request.1.unicode = Unicode.ascii)
          twoTerms s ∧ ¬ PlansFormForest Unicode.ascii s := by
  refine ⟨.of_none (by decide), ?_⟩
  have hrun : (runAll SourcingAction.run
      [(.onDay 20000, .setSuccessors [1] (some 2)),
        (.onDay 20000, .editItem 1 (renamePublisher "Other"))]
      twoTerms).map (fun s => ((s.items.get? 1).bind (·.successorSourcingItemId),
        (s.items.get? 1).map (fun x => Unicode.ascii.normalizeEntitlementIdentity x.publisherName),
        (s.items.get? 2).map (fun y => Unicode.ascii.normalizeEntitlementIdentity y.publisherName)))
      = some (some 2, some "other", some "acme") := by
    decide +kernel
  obtain ⟨s, hs, hrow⟩ := Option.map_eq_some_iff.mp hrun
  simp only [Prod.mk.injEq] at hrow
  obtain ⟨hplanned, hfirst, hsecond⟩ := hrow
  refine ⟨s, .of_runAll .start (fun _ request hrequest => ?_) hs, fun hforest => ?_⟩
  · simp only [List.mem_cons, List.not_mem_nil, or_false] at hrequest
    rcases hrequest with rfl | rfl <;> rfl
  · obtain ⟨x, hx, hb⟩ := Option.bind_eq_some_iff.mp hplanned
    obtain ⟨y, -, hy, -, -, -, hpublisher, -⟩ := hforest.ends 1 x 2 hx hb
    rw [hx, Option.map_some, hpublisher] at hfirst
    rw [hy, Option.map_some, hfirst] at hsecond
    exact absurd (Option.some.inj hsecond) (by decide)

end LicenseTrack
