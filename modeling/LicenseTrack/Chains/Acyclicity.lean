import LicenseTrack.Chains.Adoption
import LicenseTrack.Services.Request

/-! Renewal chains along whole runs: which edges a conversion adds, and when no request closes a
cycle.
-/

namespace LicenseTrack

open Library Relation

/-- The edges close no cycle, and join stored licences. -/
structure ChainsSound (s : Store) : Prop where
  acyclic : Acyclic (ChainEdge s)
  ends : EndsStored s

theorem ChainsSound.of_fewer {s t : Store} (h : ChainsSound s)
    (hedges : ∀ a b, ChainEdge t a b → ChainEdge s a b)
    (hrows : ∀ id l, s.license? id = some l → ∃ l', t.license? id = some l')
    : ChainsSound t where
  acyclic := h.acyclic.mono hedges
  ends := fun a b he => by
    obtain ⟨⟨l, hl⟩, l', hl'⟩ := h.ends a b (hedges a b he)
    exact ⟨hrows a l hl, hrows b l' hl'⟩

theorem licenseOfLine_eq_some {s : Store} {itemId id : Nat}
    : s.licenseOfLine itemId = some id
      ↔ (∃ l, s.license? id = some l ∧ l.sourceSourcingItemId = some itemId)
        ∧ ∀ other l, s.license? other = some l → l.sourceSourcingItemId = some itemId
          → other ≤ id := by
  unfold Store.licenseOfLine
  rw [Table.getLast?_select]
  simp only [beq_iff_eq, Store.license?]

theorem licenseOfLine_injective {s : Store} {a b id : Nat} (ha : s.licenseOfLine a = some id)
    (hb : s.licenseOfLine b = some id)
    : a = b := by
  obtain ⟨⟨l, hl, hla⟩, -⟩ := licenseOfLine_eq_some.mp ha
  obtain ⟨⟨l', hl', hlb⟩, -⟩ := licenseOfLine_eq_some.mp hb
  obtain rfl : l = l' := Option.some.inj (hl.symm.trans hl')
  exact Option.some.inj (hla.symm.trans hlb)

-- The lines of a conversion

/-- What the work on some lines does to the chains. New licences have the keys from the next one
on, and every new edge leads from a licence that a line renews to a new one.
-/
structure LinesEffect (items : List (Nat × SourcingItem)) (made : List Nat) (s t : Store)
    : Prop where
  nextKey : s.licenses.nextKey ≤ t.licenses.nextKey
  edges : ∀ a b, ChainEdge t a b
    → ChainEdge s a b ∨ (s.licenses.nextKey ≤ b ∧ ∃ entry ∈ items, a ∈ entry.2.renewedIds)
  kept : ∀ id l, s.license? id = some l
    → ∃ l', t.license? id = some l' ∧ l'.sourceSourcingItemId = l.sourceSourcingItemId
  added : ∀ id l, t.license? id = some l
    → (∃ l', s.license? id = some l') ∨ s.licenses.nextKey ≤ id
  covers : ∀ itemId ∈ made, ∃ id l, s.licenses.nextKey ≤ id ∧ t.license? id = some l
    ∧ l.sourceSourcingItemId = some itemId

namespace LinesEffect

variable {items : List (Nat × SourcingItem)} {made made' : List Nat} {s t v : Store}

theorem refl (items : List (Nat × SourcingItem)) (s : Store) : LinesEffect items [] s s where
  nextKey := Nat.le_refl _
  edges := fun _ _ he => .inl he
  kept := fun _ l hl => ⟨l, hl, rfl⟩
  added := fun _ l hl => .inl ⟨l, hl⟩
  covers := by simp

theorem trans (h : LinesEffect items made s t) (h' : LinesEffect items made' t v)
    : LinesEffect items (made ++ made') s v where
  nextKey := Nat.le_trans h.nextKey h'.nextKey
  edges := fun a b he => by
    rcases h'.edges a b he with he | ⟨hb, hentry⟩
    · exact h.edges a b he
    · exact .inr ⟨Nat.le_trans h.nextKey hb, hentry⟩
  kept := fun id l hl => by
    obtain ⟨l', hl', hsource⟩ := h.kept id l hl
    obtain ⟨l'', hl'', hsource'⟩ := h'.kept id l' hl'
    exact ⟨l'', hl'', hsource'.trans hsource⟩
  added := fun id l hl => by
    rcases h'.added id l hl with ⟨l', hl'⟩ | hid
    · exact h.added id l' hl'
    · exact .inr (Nat.le_trans h.nextKey hid)
  covers := fun itemId hm => by
    rcases List.mem_append.mp hm with hm | hm
    · obtain ⟨id, l, hid, hl, hsource⟩ := h.covers itemId hm
      obtain ⟨l', hl', hsource'⟩ := h'.kept id l hl
      exact ⟨id, l', hid, hl', hsource'.trans hsource⟩
    · obtain ⟨id, l, hid, hl, hsource⟩ := h'.covers itemId hm
      exact ⟨id, l, Nat.le_trans h.nextKey hid, hl, hsource⟩

theorem of_licenses (items : List (Nat × SourcingItem)) (h : t.licenses = s.licenses)
    : LinesEffect items [] s t := by
  have hrow : ∀ id, t.license? id = s.license? id := fun id => by
    unfold Store.license?
    rw [h]
  refine ⟨by rw [h], fun a b he => .inl ?_, fun id l hl => ⟨l, hrow id ▸ hl, rfl⟩,
    fun id l hl => .inl ⟨l, hrow id ▸ hl⟩, by simp⟩
  exact ChainEdge.of_agrees t.licenses (Table.Agrees.refl _ _) h.symm he

theorem of_modifyItem (items : List (Nat × SourcingItem)) (s : Store) (itemId : Nat)
    (f : SourcingItem → SourcingItem)
    : LinesEffect items [] s (s.modifyItem itemId f) :=
  of_licenses items rfl

end LinesEffect

theorem markRow_source (predecessorIds : List Nat) (successorId id : Nat) (l : License)
    : (markRow predecessorIds successorId id l).sourceSourcingItemId = l.sourceSourcingItemId := by
  unfold markRow
  split <;> rfl

theorem source_of_core {a b : License} (h : b.core = a.core)
    : b.sourceSourcingItemId = a.sourceSourcingItemId :=
  congrArg (·.sourceSourcingItemId) (License.core_purchase h)

theorem LicenseAdded.linesEffect {s t : Store} {id : Nat} {predecessorIds : List Nat}
    {row : License} (h : LicenseAdded s t id predecessorIds row) (items : List (Nat × SourcingItem))
    (hitems : ∀ a ∈ predecessorIds, ∃ entry ∈ items, a ∈ entry.2.renewedIds)
    : LinesEffect items row.sourceSourcingItemId.toList s t where
  nextKey := by
    have hk := h.core.nextKey
    rw [Table.nextKey_mapRows, Table.nextKey_insert] at hk
    omega
  edges := fun a b he => by
    rcases h.chainEdge he with he | ⟨ha, rfl⟩
    · exact .inl he
    · exact .inr ⟨Nat.le_of_eq h.id_eq.symm, hitems a ha⟩
  kept := fun key l hl => by
    obtain ⟨l', hl', hv⟩ := h.row_forth hl
    exact ⟨l', hl', (source_of_core hv).trans (markRow_source _ _ _ _)⟩
  added := fun key l hl => by
    rcases h.row_back hl with ⟨rfl, -⟩ | ⟨-, old, hold, -⟩
    · exact .inr (Nat.le_of_eq h.id_eq.symm)
    · exact .inl ⟨old, hold⟩
  covers := fun itemId hm => by
    obtain ⟨l, hl, hv⟩ := h.new_stored
    refine ⟨id, l, Nat.le_of_eq h.id_eq.symm, hl, ?_⟩
    rw [source_of_core hv, markRow_source]
    simpa using hm

theorem LinesConverted.linesEffect {items : List (Nat × SourcingItem)}
    {data : Option (Nat × SourcingItem) → ConversionData → Prop} {s t : Store} {made : List Nat}
    (h : LinesConverted items data s made t)
    : LinesEffect items made s t := by
  induction h with
  | done s => exact .refl items s
  | line loaded _ step source _ _ _ ih =>
      have hstep := step.added.linesEffect items fun a ha => ⟨_, loaded, ha⟩
      rw [source] at hstep
      exact hstep.trans ih
  | form _ step source _ _ _ ih =>
      have hstep := step.added.linesEffect items (by simp)
      rw [source] at hstep
      exact hstep.trans ih
  | mark _ _ _ ih =>
      exact (LinesEffect.of_modifyItem items _ _ _).trans ih

theorem LicenseAdded.chainsSound {s t : Store} {id : Nat} {predecessorIds : List Nat}
    {row : License} (h : LicenseAdded s t id predecessorIds row) (hs : ChainsSound s)
    : ChainsSound t where
  acyclic := by
    have hadded := hs.acyclic.add_edges_into_sink (· ∈ predecessorIds) id
      (fun x he => by
        obtain ⟨⟨l, hl⟩, -⟩ := hs.ends id x he
        exact h.not_stored hl)
      (fun hm => by
        obtain ⟨l, hl, -⟩ := h.stored id hm
        exact h.not_stored hl)
    exact hadded.mono fun a b he => h.chainEdge he
  ends := fun a b he => by
    have hkeep : ∀ key, (∃ l, s.license? key = some l) → ∃ l, t.license? key = some l :=
      fun key ⟨l, hl⟩ => (h.row_forth hl).imp fun _ hrow => hrow.1
    rcases h.chainEdge he with he | ⟨ha, rfl⟩
    · exact ⟨hkeep a (hs.ends a b he).1, hkeep b (hs.ends a b he).2⟩
    · obtain ⟨l, hl, -⟩ := h.stored a ha
      exact ⟨hkeep a ⟨l, hl⟩, h.new_stored.imp fun _ hrow => hrow.1⟩

theorem ChainsSound.of_licenses {s t : Store} (h : ChainsSound s) (he : t.licenses = s.licenses)
    : ChainsSound t :=
  h.of_fewer
    (fun _ _ hedge => ChainEdge.of_agrees t.licenses (Table.Agrees.refl _ _) he.symm hedge)
    fun id l hl => ⟨l, by
      unfold Store.license? at hl ⊢
      rw [he]
      exact hl⟩

theorem LinesConverted.chainsSound {items : List (Nat × SourcingItem)}
    {data : Option (Nat × SourcingItem) → ConversionData → Prop} {s t : Store} {made : List Nat}
    (h : LinesConverted items data s made t) (hs : ChainsSound s)
    : ChainsSound t :=
  h.keeps (P := ChainsSound) (fun _ _ _ _ _ hs _ hmade => hmade.added.chainsSound hs)
    (fun _ _ hs => hs.of_licenses rfl) hs

-- The planned links of a conversion

/-- Every licence that a line renews exists. -/
def RenewsStored (s : Store) (items : List (Nat × SourcingItem)) : Prop :=
  ∀ entry ∈ items, ∀ id ∈ entry.2.renewedIds, ∃ l, s.license? id = some l

/-- No recorded path leads from the licence that a line already became to a licence that one of
the lines renews, or that another of them became.
-/
def LeadsNotBack (s : Store) (items : List (Nat × SourcingItem)) (target : Nat) : Prop :=
  ∀ id, s.licenseOfLine target = some id → ∀ reached, ReflTransGen (ChainEdge s) id reached →
    ∀ entry ∈ items, reached ∉ entry.2.renewedIds
      ∧ (entry.1 ≠ target → s.licenseOfLine entry.1 ≠ some reached)

theorem LeadsNotBack.of_licenses {s t : Store} (he : t.licenses = s.licenses)
    {items : List (Nat × SourcingItem)} {target : Nat} (h : LeadsNotBack s items target)
    : LeadsNotBack t items target := by
  have hlines : t.licenseOfLine = s.licenseOfLine := by
    unfold Store.licenseOfLine
    rw [he]
  have hedges : ∀ a b, ChainEdge t a b → ChainEdge s a b := fun a b =>
    ChainEdge.of_agrees t.licenses (Table.Agrees.refl _ _) he.symm
  rw [LeadsNotBack, hlines]
  exact fun id hid reached hr => h id hid reached (ReflTransGen.mono hedges _ _ hr)

/-- The edges of a plan into the targets that are done. -/
def PlanEdge (items : List (Nat × SourcingItem)) (licenseOf : Nat → Option Nat)
    (done : List Nat) (a b : Nat)
    : Prop :=
  ∃ target ∈ done, ∃ source ∈ incomingOf items target,
    licenseOf source = some a ∧ licenseOf target = some b

/-- What holds between two targets of a plan, whose work on the lines ended in the given store. -/
structure PlanSound (items : List (Nat × SourcingItem)) (s : Store) (done : List Nat) (v : Store)
    : Prop where
  sound : ChainsSound v
  edges : ∀ a b, ChainEdge v a b
    → ChainEdge s a b ∨ PlanEdge items s.licenseOfLine done a b

theorem mem_incomingOf {items : List (Nat × SourcingItem)} {target source : Nat}
    : source ∈ incomingOf items target
      ↔ ∃ item, (source, item) ∈ items ∧ item.successorSourcingItemId = some target := by
  simp only [incomingOf, List.mem_map, List.mem_filter, beq_iff_eq, Prod.exists]
  exact ⟨fun ⟨_, item, ⟨hm, ht⟩, hs⟩ => ⟨item, hs ▸ hm, ht⟩,
    fun ⟨item, hm, ht⟩ => ⟨source, item, ⟨hm, ht⟩, rfl⟩⟩

theorem EndsStored.reached {s : Store} (h : EndsStored s) {a b : Nat}
    (ha : ∃ l, s.license? a = some l) (hr : ReflTransGen (ChainEdge s) a b)
    : ∃ l, s.license? b = some l := by
  rcases ReflTransGen.cases_tail hr with rfl | ⟨c, -, hc⟩
  · exact ha
  · exact (h c b hc).2

namespace LinesEffect

variable {items : List (Nat × SourcingItem)} {made : List Nat} {s t : Store}

theorem licenseOfLine_old (h : LinesEffect items made s t) {itemId id : Nat}
    (hline : t.licenseOfLine itemId = some id) (hid : id < s.licenses.nextKey)
    : s.licenseOfLine itemId = some id := by
  obtain ⟨⟨l, hl, hsource⟩, hmax⟩ := licenseOfLine_eq_some.mp hline
  refine licenseOfLine_eq_some.mpr ⟨?_, fun other row hrow hrowSource => ?_⟩
  · rcases h.added id l hl with ⟨old, hold⟩ | hnew
    · obtain ⟨l', hl', hkept⟩ := h.kept id old hold
      obtain rfl : l = l' := Option.some.inj (hl.symm.trans hl')
      exact ⟨old, hold, hkept.symm.trans hsource⟩
    · omega
  · obtain ⟨row', hrow', hkept⟩ := h.kept other row hrow
    exact hmax other row' hrow' (hkept.trans hrowSource)

theorem licenseOfLine_new (h : LinesEffect items made s t) {itemId id : Nat}
    (hmade : itemId ∈ made) (hline : t.licenseOfLine itemId = some id)
    : s.licenses.nextKey ≤ id := by
  obtain ⟨new, l, hnew, hl, hsource⟩ := h.covers itemId hmade
  have hle := (licenseOfLine_eq_some.mp hline).2 new l hl hsource
  omega

/-- No path leads from the licence of a target to the licence of one of its sources, when the
target is not the source of a target that is done. A new licence is a sink; from an old one
every path stays among the old edges, by the condition on the plan.
-/
theorem reaches_no_source (h : LinesEffect items made s t) (hs : ChainsSound s)
    (hstored : RenewsStored s items) {done : List Nat} {v : Store}
    (hplan : PlanSound items t done v) {target successorId : Nat}
    (hback : target ∉ made → LeadsNotBack s items target)
    (hdone : ∀ other ∈ done, target ∉ incomingOf items other)
    (hself : target ∉ incomingOf items target)
    (htarget : t.licenseOfLine target = some successorId) {source a : Nat}
    (hsource : source ∈ incomingOf items target) (ha : t.licenseOfLine source = some a)
    : ¬ ReflTransGen (ChainEdge v) successorId a := by
  intro hr
  by_cases hnew : s.licenses.nextKey ≤ successorId
  · have hsink : ∀ x, ¬ ChainEdge v successorId x := fun x he => by
      rcases hplan.edges _ _ he with he | ⟨other, ho, line, hline, hlic, -⟩
      · rcases h.edges _ _ he with he | ⟨-, entry, hentry, hm⟩
        · obtain ⟨⟨l, hl⟩, -⟩ := hs.ends _ _ he
          exact absurd (Table.lt_nextKey_of_get? hl) (Nat.not_lt.mpr hnew)
        · obtain ⟨l, hl⟩ := hstored entry hentry _ hm
          exact absurd (Table.lt_nextKey_of_get? hl) (Nat.not_lt.mpr hnew)
      · exact hdone other ho (licenseOfLine_injective hlic htarget ▸ hline)
    obtain rfl := Acyclic.reaches_only_self hsink hr
    exact hself (licenseOfLine_injective ha htarget ▸ hsource)
  · have hold := h.licenseOfLine_old htarget (Nat.lt_of_not_le hnew)
    have hnot : target ∉ made := fun hm => hnew (h.licenseOfLine_new hm htarget)
    have hback := hback hnot successorId hold
    have hstays : ∀ {x line other : Nat}, ReflTransGen (ChainEdge s) successorId x
        → line ∈ incomingOf items other → line ≠ target → t.licenseOfLine line ≠ some x := by
      intro x line other hx hline hne hlic
      obtain ⟨item, hitem, -⟩ := mem_incomingOf.mp hline
      obtain ⟨l, hl⟩ := hs.ends.reached
        ((licenseOfLine_eq_some.mp hold).1.imp fun _ hrow => hrow.1) hx
      exact (hback x hx _ hitem).2 hne
        (h.licenseOfLine_old hlic (Table.lt_nextKey_of_get? hl))
    have hwithin : ReflTransGen (ChainEdge s) successorId a := by
      refine Acyclic.reaches_within (fun x y =>
          (s.licenses.nextKey ≤ y ∧ ∃ entry ∈ items, x ∈ entry.2.renewedIds)
            ∨ PlanEdge items t.licenseOfLine done x y)
        (ReflTransGen.mono (fun x y he => ?_) _ _ hr) fun x y hx => ?_
      · rcases hplan.edges x y he with he | he
        · rcases h.edges x y he with he | he
          · exact .inl he
          · exact .inr (.inl he)
        · exact .inr (.inr he)
      · rintro (⟨-, entry, hentry, hm⟩ | ⟨other, ho, line, hline, hlic, -⟩)
        · exact (hback x hx entry hentry).1 hm
        · exact hstays hx hline (fun he => hdone other ho (he ▸ hline)) hlic
    exact hstays hwithin hsource (fun he => hself (he ▸ hsource)) ha

end LinesEffect

theorem PlannedLink.kept {items : List (Nat × SourcingItem)} {licenseOf : Nat → Option Nat}
    {target successorId : Nat} {s t : Store} {successor : License}
    {predecessors : List (Nat × License)} {primary : Nat × License}
    (h : PlannedLink items licenseOf target s t successorId successor predecessors primary)
    {id : Nat} (hl : ∃ l, s.license? id = some l)
    : ∃ l, t.license? id = some l := by
  obtain ⟨l, hl⟩ := hl
  rw [h.result, Store.license?_mapLicenses, Store.license?_modifyLicense, hl]
  exact ⟨_, rfl⟩

theorem applyPlannedSuccessorLinks_sound {u : Unicode} {items : List (Nat × SourcingItem)}
    {made : List Nat} {s t v : Store} (hlines : LinesEffect items made s t)
    (hs : ChainsSound s) (ht : ChainsSound t) (hstored : RenewsStored s items)
    (hback : ∀ target ∈ plannedTargets items, target ∉ made → LeadsNotBack s items target)
    (h : applyPlannedSuccessorLinks u items t = .ok v)
    : ChainsSound v := by
  have hstart : PlanSound items t [] t := ⟨ht, fun _ _ he => .inl he⟩
  suffices hsteps : ∃ done, PlanSound items t done v from hsteps.elim fun _ hdone => hdone.sound
  refine applyPlannedSuccessorLinks_keeps
    (fun done target before after hplan hm hother hself hstep => ?_) hstart h
  obtain ⟨successorId, successor, predecessors, primary, link⟩ := applyPlannedTarget_ok hstep
  have hnew : ∀ a ∈ predecessors.map Prod.fst,
      (∃ l, before.license? a = some l) ∧ ∃ source ∈ incomingOf items target,
        t.licenseOfLine source = some a := fun a ha => by
    obtain ⟨p, hp, rfl⟩ := List.mem_map.mp ha
    rw [link.predecessors_eq, mem_plannedPredecessors] at hp
    exact ⟨⟨p.2, hp.1⟩, hp.2⟩
  refine ⟨⟨?_, fun a b he => ?_⟩, fun a b he => ?_⟩
  · refine (hplan.sound.acyclic.add_edges (· ∈ predecessors.map Prod.fst) successorId
      fun a ha => ?_).mono fun a b he => link.chainEdge he
    obtain ⟨-, source, hsource, hlic⟩ := hnew a ha
    exact hlines.reaches_no_source hs hstored hplan (hback target hm) hother hself
      link.target_eq hsource hlic
  · rcases link.chainEdge he with he | ⟨ha, rfl⟩
    · exact ⟨link.kept (hplan.sound.ends a b he).1, link.kept (hplan.sound.ends a b he).2⟩
    · exact ⟨link.kept (hnew a ha).1, link.kept ⟨successor, link.successor_eq⟩⟩
  · rcases link.chainEdge he with he | ⟨ha, rfl⟩
    · rcases hplan.edges a b he with he | ⟨other, ho, line, hline⟩
      · exact .inl he
      · exact .inr ⟨other, List.mem_cons_of_mem _ ho, line, hline⟩
    · obtain ⟨-, source, hsource, hlic⟩ := hnew a ha
      exact .inr ⟨target, by simp, source, hsource, hlic, link.target_eq⟩

theorem OrderConverted.chainsSound {u : Unicode} {loaded : LoadedOrder}
    {data : Option (Nat × SourcingItem) → ConversionData → Prop} {made : List Nat}
    {statuses : List SourcingStatus} {s t : Store}
    (h : OrderConverted u loaded data made statuses s t) (hs : ChainsSound s)
    (hstored : RenewsStored s loaded.items)
    (hback : ∀ target ∈ plannedTargets loaded.items, target ∉ made
      → LeadsNotBack s loaded.items target)
    : ChainsSound t := by
  obtain ⟨lined, planned, hlines, hplanned, rfl, -⟩ := h.work
  have hlocked := hs.of_licenses (t := { s with
    orders := s.orders.modify loaded.id
      (fun order => { order with notes := loaded.order.notes }) }) rfl
  have hplanned := applyPlannedSuccessorLinks_sound hlines.linesEffect hlocked
    (hlines.chainsSound hlocked) hstored
    (fun target hm hnot => by
      refine LeadsNotBack.of_licenses (s := s) ?_ (hback target hm hnot)
      rfl) hplanned
  refine hplanned.of_licenses ?_
  unfold refreshOrderStatus
  dsimp only
  split_ifs <;> rfl

end LicenseTrack
