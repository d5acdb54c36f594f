import LicenseTrack.Chains.Runs
import LicenseTrack.Conversion.ChainOrder

/-! What the planned links of an order leave on the licences: every line that is planned before
another is renewed by it, and every successor carries on the reference of its chain.
-/

namespace LicenseTrack

open Library Relation

variable {u : Unicode} {items : List (Nat × SourcingItem)} {s t : Store}

theorem mem_plannedTargets {target : Nat}
    : target ∈ plannedTargets items ↔ ∃ source, PlannedBefore items source target := by
  simp only [plannedTargets, List.mem_dedup, List.mem_filterMap, Prod.exists, PlannedBefore,
    mem_incomingOf]

/-- The licences of the lines before a target, the primary one first. -/
def plannedIds (s : Store) (items : List (Nat × SourcingItem)) (target : Nat) : List Nat :=
  (plannedPredecessors s items s.licenseOfLine target).map Prod.fst

/-- The licence at the end of the chain of primary predecessors of a line. -/
inductive PrimaryRoot (s : Store) (items : List (Nat × SourcingItem)) : Nat → Nat → Prop
  | root {itemId id} (h : incomingOf items itemId = []) (hid : s.licenseOfLine itemId = some id)
    : PrimaryRoot s items itemId id
  | next {itemId source primary id} (hprimary : (plannedIds s items itemId).head? = some primary)
    (hsource : s.licenseOfLine source = some primary) (h : PrimaryRoot s items source id)
    : PrimaryRoot s items itemId id

/-- What a planned link writes on the successor of a target. -/
structure LinkedAs (s : Store) (items : List (Nat × SourcingItem)) (target : Nat) (l l' : License)
    : Prop where
  primary : ∃ primary, (plannedIds s items target).head? = some primary
    ∧ l'.renewedFromId = some primary ∧ l'.predecessorId = some primary
  several : 1 < (plannedIds s items target).length
    → l'.cotermFromIds = some (plannedIds s items target)
  single : (plannedIds s items target).length ≤ 1 → l'.cotermFromIds = l.cotermFromIds
  reference : ∃ root row, PrimaryRoot s items target root ∧ s.license? root = some row
    ∧ l'.licenseRef = row.licenseRef

/-- What a comparison of predecessors reads. -/
def startOf (p : Nat × License) : Nat × Option Date := (p.1, p.2.startDate)

/-- The comparison of predecessors, on what it reads. -/
def startsFirst (a b : Nat × Option Date) : Bool :=
  match a.2, b.2 with
  | some x, some y => x < y || (x == y && a.1 ≤ b.1)
  | some _, none => true
  | none, some _ => false
  | none, none => a.1 ≤ b.1

theorem plannedPredecessors_ids {v : Store} {licenseOf : Nat → Option Nat}
    (h : ∀ id, (v.license? id).map (·.startDate) = (s.license? id).map (·.startDate)) (target : Nat)
    : (plannedPredecessors v items licenseOf target).map Prod.fst
      = (plannedPredecessors s items licenseOf target).map Prod.fst := by
  have hsorted : ∀ list : List (Nat × License),
      (list.insertionSort (fun a b => startsBefore a b = true)).map startOf
        = (list.map startOf).insertionSort (fun a b => startsFirst a b = true) := fun list =>
    List.map_insertionSort _ _ startOf list fun _ _ _ _ => Iff.rfl
  have hrows : (((incomingOf items target).filterMap (fun source => do
        let id ← licenseOf source
        let l ← v.license? id
        some (id, l))).map startOf)
      = (((incomingOf items target).filterMap (fun source => do
        let id ← licenseOf source
        let l ← s.license? id
        some (id, l))).map startOf) := by
    rw [List.map_filterMap, List.map_filterMap]
    refine congrArg (fun f => (incomingOf items target).filterMap f) (funext fun source => ?_)
    rcases licenseOf source with _ | id
    · rfl
    · have hid := h id
      rcases hv : v.license? id with _ | l <;> rcases hs : s.license? id with _ | l' <;>
        simp_all [startOf]
  have hfst : ∀ list : List (Nat × License), list.map Prod.fst = (list.map startOf).map Prod.fst :=
    fun list => by rw [List.map_map]; rfl
  rw [plannedPredecessors, plannedPredecessors, hfst, hsorted, hrows, ← hsorted, ← hfst]

-- Some targets done

/-- A licence before its planned links and after those of some targets. -/
structure PlannedRow (s : Store) (items : List (Nat × SourcingItem)) (done : List Nat) (id : Nat)
    (l l' : License) : Prop where
  marked : ∀ target ∈ done, ∀ source, PlannedBefore items source target
    → s.licenseOfLine source = some id → l.renewedToId = none ∧ l'.lifecycleStatus = some .renewed
      ∧ ∃ successorId, s.licenseOfLine target = some successorId ∧ l'.renewedToId = some successorId
  unmarked : (∀ target ∈ done, ∀ source, PlannedBefore items source target
    → s.licenseOfLine source ≠ some id)
    → l'.lifecycleStatus = l.lifecycleStatus ∧ l'.renewedToId = l.renewedToId
  linked : ∀ target ∈ done, s.licenseOfLine target = some id → LinkedAs s items target l l'
  unlinked : (∀ target ∈ done, s.licenseOfLine target ≠ some id)
    → l'.renewedFromId = l.renewedFromId ∧ l'.predecessorId = l.predecessorId
      ∧ l'.cotermFromIds = l.cotermFromIds ∧ l'.licenseRef = l.licenseRef
  rest : { l' with
      lifecycleStatus := l.lifecycleStatus
      renewedToId := l.renewedToId
      renewedFromId := l.renewedFromId
      predecessorId := l.predecessorId
      cotermFromIds := l.cotermFromIds
      licenseRef := l.licenseRef } = l

/-- A store before its planned links and after those of some targets. -/
structure PlannedRun (s : Store) (items : List (Nat × SourcingItem)) (done : List Nat) (v : Store)
    : Prop where
  targets : ∀ target ∈ done, target ∈ plannedTargets items
  stored : ∀ id, s.license? id = none → v.license? id = none
  rows : ∀ id l, s.license? id = some l →
    ∃ l', v.license? id = some l' ∧ PlannedRow s items done id l l'
  tables : { v with licenses := s.licenses } = s

theorem PlannedRow.refl (id : Nat) (l : License) : PlannedRow s items [] id l l where
  marked := by simp
  unmarked := fun _ => ⟨rfl, rfl⟩
  linked := by simp
  unlinked := fun _ => ⟨rfl, rfl, rfl, rfl⟩
  rest := rfl

theorem PlannedRun.start : PlannedRun s items [] s where
  targets := by simp
  stored := fun _ h => h
  rows := fun id l h => ⟨l, h, .refl id l⟩
  tables := rfl

theorem PlannedRun.row {done : List Nat} {v : Store} (h : PlannedRun s items done v) {id : Nat}
    {l' : License} (hv : v.license? id = some l')
    : ∃ l, s.license? id = some l ∧ PlannedRow s items done id l l' := by
  rcases hs : s.license? id with _ | l
  · rw [h.stored id hs] at hv
    cases hv
  · obtain ⟨row, hrow, hplanned⟩ := h.rows id l hs
    obtain rfl : row = l' := Option.some.inj (hrow.symm.trans hv)
    exact ⟨l, rfl, hplanned⟩

theorem PlannedRow.startDate {done : List Nat} {id : Nat} {l l' : License}
    (h : PlannedRow s items done id l l')
    : l'.startDate = l.startDate := by
  have hstart := congrArg (fun row : License => row.startDate) h.rest
  exact hstart

theorem PlannedRun.predecessors {done : List Nat} {v : Store} (h : PlannedRun s items done v)
    (target : Nat)
    : (plannedPredecessors v items s.licenseOfLine target).map Prod.fst = plannedIds s items target :=
  plannedPredecessors_ids (fun id => by
    rcases hs : s.license? id with _ | l
    · rw [h.stored id hs]
    · obtain ⟨l', hv, hrow⟩ := h.rows id l hs
      rw [hv, Option.map_some, Option.map_some, hrow.startDate]) target

theorem PlannedRun.reference {done : List Nat} {v : Store} (h : PlannedRun s items done v)
    {source id : Nat} {l' : License} (hv : v.license? id = some l')
    (hline : s.licenseOfLine source = some id)
    (hdone : source ∈ plannedTargets items → source ∈ done)
    : ∃ root row, PrimaryRoot s items source root ∧ s.license? root = some row
      ∧ l'.licenseRef = row.licenseRef := by
  obtain ⟨l, hl, hrow⟩ := h.row hv
  by_cases htarget : source ∈ plannedTargets items
  · exact (hrow.linked source (hdone htarget) hline).reference
  · refine ⟨id, l, .root ?_ hline, hl, (hrow.unlinked fun target hm he => ?_).2.2.2⟩
    · refine List.eq_nil_iff_forall_not_mem.mpr fun before hbefore => htarget ?_
      exact mem_plannedTargets.mpr ⟨before, hbefore⟩
    · rw [licenseOfLine_injective hline he] at htarget
      exact htarget (h.targets target hm)

-- One target more

section OneMore

variable {done : List Nat} {target id : Nat} {l l' : License}

theorem PlannedRow.other (h : PlannedRow s items done id l l')
    (hsource : ∀ source, PlannedBefore items source target → s.licenseOfLine source ≠ some id)
    (htarget : s.licenseOfLine target ≠ some id)
    : PlannedRow s items (target :: done) id l l' where
  marked := fun other ho source hb hline => by
    rcases List.mem_cons.mp ho with rfl | ho
    · exact absurd hline (hsource source hb)
    · exact h.marked other ho source hb hline
  unmarked := fun hall => h.unmarked fun other ho => hall other (List.mem_cons_of_mem _ ho)
  linked := fun other ho hline => by
    rcases List.mem_cons.mp ho with rfl | ho
    · exact absurd hline htarget
    · exact h.linked other ho hline
  unlinked := fun hall => h.unlinked fun other ho => hall other (List.mem_cons_of_mem _ ho)
  rest := h.rest

theorem PlannedRow.predecessor {successorId source : Nat} (h : PlannedRow s items done id l l')
    (hnone : l'.renewedToId = none) (htarget : s.licenseOfLine target ≠ some id)
    (hsuccessor : s.licenseOfLine target = some successorId)
    (hbefore : PlannedBefore items source target) (hline : s.licenseOfLine source = some id)
    : PlannedRow s items (target :: done) id l
        { l' with lifecycleStatus := some .renewed, renewedToId := some successorId } := by
  have hfresh : ∀ other ∈ done, ∀ source, PlannedBefore items source other
      → s.licenseOfLine source ≠ some id := fun other ho source hb he => by
    obtain ⟨-, -, _, -, hsome⟩ := h.marked other ho source hb he
    rw [hnone] at hsome
    cases hsome
  refine ⟨fun other ho source' hb he => ?_, fun hall => ?_, fun other ho he => ?_, fun hall => ?_,
    h.rest⟩
  · rcases List.mem_cons.mp ho with rfl | ho
    · exact ⟨(h.unmarked hfresh).2.symm.trans hnone, rfl, successorId, hsuccessor, rfl⟩
    · exact absurd he (hfresh other ho source' hb)
  · exact absurd hline (hall target List.mem_cons_self source hbefore)
  · rcases List.mem_cons.mp ho with rfl | ho
    · exact absurd he htarget
    · have hlinked := h.linked other ho he
      exact ⟨hlinked.primary, hlinked.several, hlinked.single, hlinked.reference⟩
  · exact h.unlinked fun other ho => hall other (List.mem_cons_of_mem _ ho)

theorem PlannedRow.successor {predecessors : List (Nat × License)} {primary : Nat × License}
    (h : PlannedRow s items done id l l') (hline : s.licenseOfLine target = some id)
    (hfresh : ∀ other ∈ done, s.licenseOfLine other ≠ some id)
    (hself : ∀ source, PlannedBefore items source target → s.licenseOfLine source ≠ some id)
    (hids : predecessors.map Prod.fst = plannedIds s items target)
    (hhead : predecessors.head? = some primary)
    (hreference : ∃ root row, PrimaryRoot s items target root ∧ s.license? root = some row
      ∧ primary.2.licenseRef = row.licenseRef)
    : PlannedRow s items (target :: done) id l (License.planned predecessors primary l') := by
  have hlength : (plannedIds s items target).length = predecessors.length := by
    rw [← hids, List.length_map]
  obtain ⟨-, -, hcoterm, -⟩ := h.unlinked hfresh
  refine ⟨fun other ho source hb he => ?_, fun hall => ?_, fun other ho he => ?_, fun hall => ?_,
    h.rest⟩
  · rcases List.mem_cons.mp ho with rfl | ho
    · exact absurd he (hself source hb)
    · exact h.marked other ho source hb he
  · exact h.unmarked fun other ho => hall other (List.mem_cons_of_mem _ ho)
  · rcases List.mem_cons.mp ho with rfl | ho
    · refine ⟨⟨primary.1, ?_, rfl, rfl⟩, fun hmany => ?_, fun hone => ?_, hreference⟩
      · rw [← hids, List.head?_map, hhead]
        rfl
      · rw [hlength] at hmany
        rw [License.planned, ← hids]
        exact if_pos hmany
      · rw [hlength] at hone
        exact (if_neg (Nat.not_lt.mpr hone)).trans hcoterm
    · exact absurd he (hfresh other ho)
  · exact absurd hline (hall target List.mem_cons_self)

end OneMore

/-- One target more. -/
theorem PlannedRun.step {done : List Nat} {target : Nat} {v w : Store}
    (h : PlannedRun s items done v) (htarget : target ∈ plannedTargets items)
    (hself : target ∉ incomingOf items target)
    (hsources : ∀ source ∈ incomingOf items target, source ∈ plannedTargets items → source ∈ done)
    (hstep : applyPlannedTarget u items s.licenseOfLine target v = .ok w)
    : PlannedRun s items (target :: done) w := by
  obtain ⟨successorId, successor, predecessors, primary, link⟩ := applyPlannedTarget_ok hstep
  have hids : predecessors.map Prod.fst = plannedIds s items target := by
    rw [link.predecessors_eq]
    exact h.predecessors target
  have hw : ∀ id, w.license? id = (v.license? id).map (fun l =>
      markRow (predecessors.map Prod.fst) successorId id
        (if id = successorId then License.planned predecessors primary l else l)) := fun id => by
    rw [link.result, Store.license?_mapLicenses, Store.license?_modifyLicense, Option.map_map]
    rfl
  have hmem : ∀ p, p ∈ predecessors ↔ v.license? p.1 = some p.2
      ∧ ∃ source ∈ incomingOf items target, s.licenseOfLine source = some p.1 := fun p => by
    rw [link.predecessors_eq, mem_plannedPredecessors]
  have hself' : ∀ source, PlannedBefore items source target
      → s.licenseOfLine source ≠ some successorId := fun source hb he => by
    rw [licenseOfLine_injective he link.target_eq] at hb
    exact hself hb
  have hfresh : ∀ other ∈ done, s.licenseOfLine other ≠ some successorId := fun other ho he => by
    obtain ⟨l, -, hrow⟩ := h.row link.successor_eq
    obtain ⟨_, -, hsome, -⟩ := (hrow.linked other ho he).primary
    rw [link.unrenewed.1] at hsome
    cases hsome
  refine ⟨fun other ho => ?_, fun id hid => ?_, fun id l hl => ?_, ?_⟩
  · rcases List.mem_cons.mp ho with rfl | ho
    · exact htarget
    · exact h.targets other ho
  · rw [hw, h.stored id hid]
    rfl
  · obtain ⟨l', hv, hrow⟩ := h.rows id l hl
    refine ⟨_, by rw [hw, hv, Option.map_some], ?_⟩
    by_cases hid : id = successorId
    · subst hid
      have hnot : id ∉ predecessors.map Prod.fst := fun hm => by
        obtain ⟨p, hp, rfl⟩ := List.mem_map.mp hm
        obtain ⟨-, source, hsource, he⟩ := (hmem p).mp hp
        exact hself' source hsource he
      rw [markRow, if_neg hnot, if_pos rfl]
      refine hrow.successor link.target_eq hfresh hself' hids link.head ?_
      obtain ⟨hprimary, source, hsource, he⟩ :=
        (hmem primary).mp (List.mem_of_head? link.head)
      obtain ⟨root, row, hroot, hstored, href⟩ := h.reference hprimary he (hsources source hsource)
      refine ⟨root, row, .next ?_ he hroot, hstored, href⟩
      rw [← hids, List.head?_map, link.head]
      rfl
    · have hother : s.licenseOfLine target ≠ some id := fun he =>
        hid (Option.some.inj (he.symm.trans link.target_eq))
      rw [markRow, if_neg hid]
      split
      · next hm =>
          obtain ⟨p, hp, rfl⟩ := List.mem_map.mp hm
          obtain ⟨hp', source, hsource, he⟩ := (hmem p).mp hp
          obtain rfl : l' = p.2 := Option.some.inj (hv.symm.trans hp')
          exact hrow.predecessor (link.extended p hp).1 hother link.target_eq hsource he
      · next hm =>
          refine hrow.other (fun source hb he => hm ?_) hother
          exact List.mem_map.mpr ⟨(id, l'), (hmem (id, l')).mpr ⟨hv, source, hb, he⟩, rfl⟩
  · rw [link.result]
    exact h.tables

-- All targets done

theorem applyPlannedSuccessorLinks_acyclic (h : applyPlannedSuccessorLinks u items s = .ok t)
    : Acyclic (PlannedBefore items) := by
  obtain ⟨done, hall, hdone⟩ := applyPlannedSuccessorLinks_inOrder
    (P := fun done _ => ∀ target ∈ done, Acc (PlannedBefore items) target)
    (fun done target _ _ hdone _ _ _ hsources _ other ho => by
      rcases List.mem_cons.mp ho with rfl | ho
      · refine ⟨_, fun source hb => ?_⟩
        by_cases htarget : source ∈ plannedTargets items
        · exact hdone source (hsources source hb htarget)
        · exact ⟨_, fun before hb' => absurd (mem_plannedTargets.mpr ⟨before, hb'⟩) htarget⟩
      · exact hdone other ho) (by simp) h
  have hacc : ∀ itemId, Acc (PlannedBefore items) itemId := fun itemId => by
    by_cases htarget : itemId ∈ plannedTargets items
    · exact hdone itemId (hall itemId htarget)
    · exact ⟨_, fun before hb => absurd (mem_plannedTargets.mpr ⟨before, hb⟩) htarget⟩
  have hwell : WellFounded (TransGen (PlannedBefore items)) := WellFounded.transGen ⟨hacc⟩
  exact fun itemId hcycle => hwell.asymmetric _ _ hcycle hcycle

/-- What the planned links of an order leave of a store. -/
structure PlanApplied (s : Store) (items : List (Nat × SourcingItem)) (t : Store) : Prop where
  acyclic : Acyclic (PlannedBefore items)
  inside : ∀ source target, PlannedBefore items source target → target ∈ items.map Prod.fst
  /-- The licence of each predecessor had no successor, and is renewed to the planned one. -/
  renewed : ∀ source target, PlannedBefore items source target →
    ∃ id successorId l l', s.licenseOfLine source = some id
      ∧ s.licenseOfLine target = some successorId ∧ s.license? id = some l ∧ t.license? id = some l'
      ∧ l.renewedToId = none ∧ l'.lifecycleStatus = some .renewed
      ∧ l'.renewedToId = some successorId
  linked : ∀ source target, PlannedBefore items source target →
    ∃ successorId l l', s.licenseOfLine target = some successorId ∧ s.license? successorId = some l
      ∧ t.license? successorId = some l' ∧ LinkedAs s items target l l'
  /-- The licences without a part in the plan stay as they are. -/
  others : ∀ id, (∀ source target, PlannedBefore items source target →
      s.licenseOfLine source ≠ some id ∧ s.licenseOfLine target ≠ some id) →
    t.license? id = s.license? id
  /-- A first line keeps its own chain, and a last line stays without a mark. -/
  ends : ∀ id l l', s.license? id = some l → t.license? id = some l' →
    ((∀ source target, PlannedBefore items source target → s.licenseOfLine source ≠ some id) →
      l'.lifecycleStatus = l.lifecycleStatus ∧ l'.renewedToId = l.renewedToId)
    ∧ ((∀ source target, PlannedBefore items source target → s.licenseOfLine target ≠ some id) →
      l'.renewedFromId = l.renewedFromId ∧ l'.predecessorId = l.predecessorId
        ∧ l'.cotermFromIds = l.cotermFromIds ∧ l'.licenseRef = l.licenseRef)
  columns : ∀ id l l', s.license? id = some l → t.license? id = some l' →
    { l' with
      lifecycleStatus := l.lifecycleStatus
      renewedToId := l.renewedToId
      renewedFromId := l.renewedFromId
      predecessorId := l.predecessorId
      cotermFromIds := l.cotermFromIds
      licenseRef := l.licenseRef } = l
  tables : { t with licenses := s.licenses } = s

theorem applyPlannedSuccessorLinks_licensed (h : applyPlannedSuccessorLinks u items s = .ok t)
    {source target : Nat} (hb : PlannedBefore items source target)
    : (∃ id l, s.licenseOfLine source = some id ∧ s.license? id = some l)
      ∧ ∃ id l, s.licenseOfLine target = some id ∧ s.license? id = some l := by
  simp only [applyPlannedSuccessorLinks, bind_eq_ok, require_eq_ok] at h
  obtain ⟨_, -, _, hlicensed, -⟩ := h
  rw [List.all_eq_true] at hlicensed
  have htarget := mem_plannedTargets.mpr ⟨source, hb⟩
  have hfound : ∀ itemId ∈ plannedTargets items ++ (plannedTargets items).flatMap (incomingOf items),
      ∃ id l, s.licenseOfLine itemId = some id ∧ s.license? id = some l := fun itemId hm => by
    obtain ⟨id, hid⟩ := Option.isSome_iff_exists.mp (hlicensed itemId hm)
    obtain ⟨⟨l, hl, -⟩, -⟩ := licenseOfLine_eq_some.mp hid
    exact ⟨id, l, hid, hl⟩
  exact ⟨hfound source (List.mem_append_right _ (List.mem_flatMap.mpr ⟨target, htarget, hb⟩)),
    hfound target (List.mem_append_left _ htarget)⟩

/-- The planned links of an order are applied only where they form no cycle and stay within the
order. Each predecessor is then renewed once, to its planned successor, and each successor has the
reference at the root of its chain and lists its predecessors where it has several.
-/
theorem applyPlannedSuccessorLinks_applied (u : Unicode) (items : List (Nat × SourcingItem))
    (s t : Store) (h : applyPlannedSuccessorLinks u items s = .ok t)
    : PlanApplied s items t := by
  obtain ⟨done, hall, hrun⟩ := applyPlannedSuccessorLinks_inOrder (P := PlannedRun s items)
    (fun _ _ _ _ hv hm _ hself hsources hstep => hv.step hm hself hsources hstep) .start h
  have hdone : ∀ {source target}, PlannedBefore items source target → target ∈ done :=
    fun hb => hall _ (mem_plannedTargets.mpr ⟨_, hb⟩)
  have hbefore : ∀ {target}, target ∈ done → ∃ source, PlannedBefore items source target :=
    fun hm => mem_plannedTargets.mp (hrun.targets _ hm)
  refine ⟨applyPlannedSuccessorLinks_acyclic h, fun source target hb => ?_, fun source target hb => ?_,
    fun source target hb => ?_, fun id hnone => ?_, fun id l l' hl hl' => ?_,
    fun id l l' hl hl' => ?_, hrun.tables⟩
  · exact applyPlannedSuccessorLinks_targets h target (mem_plannedTargets.mpr ⟨source, hb⟩)
  · obtain ⟨⟨id, l, hid, hl⟩, -⟩ := applyPlannedSuccessorLinks_licensed h hb
    obtain ⟨l', hl', hrow⟩ := hrun.rows id l hl
    obtain ⟨hnone, hstatus, successorId, hsuccessor, hto⟩ :=
      hrow.marked target (hdone hb) source hb hid
    exact ⟨id, successorId, l, l', hid, hsuccessor, hl, hl', hnone, hstatus, hto⟩
  · obtain ⟨-, id, l, hid, hl⟩ := applyPlannedSuccessorLinks_licensed h hb
    obtain ⟨l', hl', hrow⟩ := hrun.rows id l hl
    exact ⟨id, l, l', hid, hl, hl', hrow.linked target (hdone hb) hid⟩
  · rcases hl : s.license? id with _ | l
    · exact hrun.stored id hl
    · obtain ⟨l', hl', hrow⟩ := hrun.rows id l hl
      obtain ⟨hstatus, hto⟩ := hrow.unmarked fun target _ source hb => (hnone source target hb).1
      obtain ⟨hfrom, hpredecessor, hcoterm, href⟩ := hrow.unlinked fun target hm => by
        obtain ⟨source, hb⟩ := hbefore hm
        exact (hnone source target hb).2
      rw [hl', ← hrow.rest, ← hstatus, ← hto, ← hfrom, ← hpredecessor, ← hcoterm, ← href]
  · obtain ⟨row, hrow, hplanned⟩ := hrun.rows id l hl
    obtain rfl : row = l' := Option.some.inj (hrow.symm.trans hl')
    refine ⟨fun hnone => hplanned.unmarked fun target _ source hb => hnone source target hb,
      fun hnone => hplanned.unlinked fun target hm => ?_⟩
    obtain ⟨source, hb⟩ := hbefore hm
    exact hnone source target hb
  · obtain ⟨row, hrow, hplanned⟩ := hrun.rows id l hl
    obtain rfl : row = l' := Option.some.inj (hrow.symm.trans hl')
    exact hplanned.rest

/-- A licence of a line, for a hundred days. -/
def lineLicense (itemId start : Nat) : License :=
  { License.ofTerm .subscription (some start) (some (start + 99)) with
    sourceSourcingItemId := some itemId
    licenseRef := some s!"LT-{itemId}" }

/-- The licences of two branches of terms that one term follows. -/
def branchStore : Store where
  licenses := (((Table.empty.insert (lineLicense 1 1)).insert (lineLicense 2 101)).insert
    (lineLicense 3 101)).insert (lineLicense 4 201)

/-- The plan of two branches is applied to their licences. -/
theorem applyPlannedSuccessorLinks_applied_branches
    : ∃ t, applyPlannedSuccessorLinks .ascii twoBranches branchStore = .ok t
      ∧ PlanApplied branchStore twoBranches t := by
  obtain ⟨t, ht⟩ : ∃ t, applyPlannedSuccessorLinks .ascii twoBranches branchStore = .ok t :=
    exists_ok (by decide +kernel)
  exact ⟨t, ht, applyPlannedSuccessorLinks_applied .ascii twoBranches branchStore t ht⟩

/-- Two terms, of which the second has a list of predecessors of an earlier purchase. -/
def listedStore : Store where
  licenses := (Table.empty.insert (lineLicense 1 1)).insert
    { lineLicense 2 101 with cotermFromIds := some [7, 8] }

/-- A successor with one planned predecessor keeps the list that it had. -/
theorem applyPlannedSuccessorLinks_listKept
    : ¬∀ (u : Unicode) (items : List (Nat × SourcingItem)) (s t : Store),
        applyPlannedSuccessorLinks u items s = .ok t →
        ∀ target ∈ plannedTargets items, ∀ successorId, s.licenseOfLine target = some successorId →
          ∀ l', t.license? successorId = some l' →
            ∀ id, id ∈ l'.predecessorIds ↔ id ∈ plannedIds s items target := by
  intro h
  obtain ⟨t, ht⟩ : ∃ t, applyPlannedSuccessorLinks .ascii [(1, plannedLine (some 2)),
      (2, plannedLine none)] listedStore = .ok t := exists_ok (by decide +kernel)
  have hlist : (t.license? 2).any (fun l' => l'.predecessorIds.contains 7) = true := by
    have hrun : (applyPlannedSuccessorLinks .ascii [(1, plannedLine (some 2)),
        (2, plannedLine none)] listedStore).toOption.any (fun v =>
          (v.license? 2).any (fun l' => l'.predecessorIds.contains 7)) = true := by
      decide +kernel
    rw [ht] at hrun
    exact hrun
  rcases hl' : t.license? 2 with _ | l'
  · rw [hl'] at hlist
    cases hlist
  · rw [hl'] at hlist
    have hplanned := (h _ _ _ t ht 2 (by decide) 2 (by decide +kernel) l' hl' 7).mp
      (List.contains_iff_mem.mp hlist)
    exact absurd hplanned (by decide +kernel)

end LicenseTrack
