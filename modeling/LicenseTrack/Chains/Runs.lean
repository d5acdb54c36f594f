import LicenseTrack.Chains.Acyclicity

/-! Runs in which requests that write renewal chains alternate with any other work of the
installation.
-/

namespace LicenseTrack

open Library

/-- Every licence that some line renews exists. A line's renewed licence is a foreign key, the
licences of a merged line are loaded before they are written, and a licence with open renewal
work cannot be deleted.
-/
def LinesRenewStored (s : Store) : Prop :=
  ∀ itemId item, s.items.get? itemId = some item → ∀ id ∈ item.renewedIds,
    ∃ l, s.license? id = some l

/-- The chain columns of a licence, its status apart. -/
def License.chainBesideStatus (l : License) : LicenseChain :=
  { l.toLicenseChain with lifecycleStatus := none }

/-- A licence outside every chain. -/
structure License.Unlinked (l : License) : Prop where
  renewedTo : l.renewedToId = none
  predecessors : l.predecessorIds = []
  status : l.lifecycleStatus ≠ some .renewed
  reference : l.licenseRef ≠ none ∧ l.licenseRef ≠ some ""
  linked : l.existingSuccessorLinkedAt = none

/-- Work beside the chains: it may write everything but the chain columns, add licences outside
every chain, and mark a licence that has no successor as pending or take the mark away.
-/
structure BesideChains (s t : Store) : Prop where
  kept : ∀ id l, s.license? id = some l → ∃ l', t.license? id = some l'
    ∧ l'.chainBesideStatus = l.chainBesideStatus
    ∧ (l'.lifecycleStatus = l.lifecycleStatus
      ∨ (l.renewedToId = none ∧ l'.lifecycleStatus ≠ some .renewed))
  added : ∀ id l, t.license? id = some l → (∃ old, s.license? id = some old) ∨ l.Unlinked
  lines : LinesRenewStored t

/-- A step of a run: a request, or other work and what it leaves. -/
inductive ChainStep
  | request (env : Env) (sent : Request)
  | beside (t : Store)

def ChainStep.run : ChainStep → Store → Except Failure Store
  | .request env sent, s => sent.run env s
  | .beside t, _ => .ok t

/-- A step is admitted when its request is, and when other work stays beside the chains. -/
def ChainStep.Admitted (admits : Store → Env → Request → Prop) (s : Store) : ChainStep → Prop
  | .request env sent => admits s env sent
  | .beside t => BesideChains s t

/-- The states that admitted requests lead to, with other work in between. -/
abbrev ChainsReached (admits : Store → Env → Request → Prop) (start s : Store) : Prop :=
  Reachable ChainStep.run (ChainStep.Admitted admits) start s

theorem chainLinks_of_beside {l l' : License} (h : l'.chainBesideStatus = l.chainBesideStatus)
    : l'.chainLinks = l.chainLinks := by
  have hto := congrArg (·.renewedToId) h
  have hfrom := congrArg (·.renewedFromId) h
  have hpredecessor := congrArg (·.predecessorId) h
  have hcoterm := congrArg (·.cotermFromIds) h
  simp only [License.chainBesideStatus] at hto hfrom hpredecessor hcoterm
  simp only [License.chainLinks, License.predecessorIds, License.cotermIds, hto, hfrom,
    hpredecessor, hcoterm]

theorem BesideChains.row_back {s t : Store} (h : BesideChains s t) {id : Nat} {l : License}
    (hl : t.license? id = some l)
    : (∃ old, s.license? id = some old ∧ l.chainBesideStatus = old.chainBesideStatus
        ∧ (l.lifecycleStatus = old.lifecycleStatus
          ∨ (old.renewedToId = none ∧ l.lifecycleStatus ≠ some .renewed)))
      ∨ l.Unlinked := by
  rcases h.added id l hl with ⟨old, hold⟩ | hnew
  · obtain ⟨l', hl', hchain⟩ := h.kept id old hold
    obtain rfl : l = l' := Option.some.inj (hl.symm.trans hl')
    exact .inl ⟨old, hold, hchain⟩
  · exact .inr hnew

theorem BesideChains.chainEdge {s t : Store} (h : BesideChains s t) {a b : Nat}
    (he : ChainEdge t a b)
    : ChainEdge s a b := by
  cases he with
  | successor l stored renewed =>
      rcases h.row_back stored with ⟨old, hold, hchain, -⟩ | hnew
      · exact .successor old hold
          ((congrArg Prod.fst (chainLinks_of_beside hchain)).symm.trans renewed)
      · rw [hnew.renewedTo] at renewed
        cases renewed
  | predecessor l stored renews =>
      rcases h.row_back stored with ⟨old, hold, hchain, -⟩ | hnew
      · have hp : l.predecessorIds = old.predecessorIds :=
          congrArg Prod.snd (chainLinks_of_beside hchain)
        exact .predecessor old hold (hp ▸ renews)
      · rw [hnew.predecessors] at renews
        cases renews

theorem BesideChains.rows {s t : Store} (h : BesideChains s t) {id : Nat} {l : License}
    (hl : s.license? id = some l)
    : ∃ l', t.license? id = some l' :=
  (h.kept id l hl).imp fun _ hrow => hrow.1

theorem LinesRenewStored.of_kept {s t : Store} (h : LinesRenewStored s)
    (hitems : s.items.Agrees SourcingItem.renewedIds t.items)
    (hrows : ∀ id l, s.license? id = some l → ∃ l', t.license? id = some l')
    : LinesRenewStored t := fun itemId item hitem id hid => by
  obtain ⟨old, hold, hrenewed⟩ := hitems.back hitem
  obtain ⟨l, hl⟩ := h itemId old hold id (hrenewed ▸ hid)
  exact hrows id l hl

theorem LinesRenewStored.order {s : Store} (h : LinesRenewStored s) (orderId : Nat)
    : RenewsStored s (s.orderItems orderId) := fun entry he id hid => by
  have hstored := Table.get?_eq_some.mpr he
  rw [Table.get?_filter, Option.filter_eq_some_iff] at hstored
  exact h entry.1 entry.2 hstored.1 id hid

theorem LinesConverted.renewedIds {items : List (Nat × SourcingItem)}
    {data : Option (Nat × SourcingItem) → ConversionData → Prop} {s t : Store} {made : List Nat}
    (h : LinesConverted items data s made t)
    : s.items.Agrees SourcingItem.renewedIds t.items :=
  h.keeps (P := fun v => s.items.Agrees SourcingItem.renewedIds v.items)
    (fun _ _ _ _ _ hv _ hmade => hmade.items ▸ hv)
    (fun _ _ hv => hv.trans (Table.Agrees.of_modify fun _ => rfl)) (Table.Agrees.refl _ _)

theorem applyPlannedSuccessorLinks_kept {u : Unicode} {items : List (Nat × SourcingItem)}
    {s t : Store} (h : applyPlannedSuccessorLinks u items s = .ok t)
    : t.items = s.items ∧ ∀ id, (∃ l, s.license? id = some l) → ∃ l, t.license? id = some l := by
  obtain ⟨-, hdone⟩ := applyPlannedSuccessorLinks_keeps (P := fun _ v => v.items = s.items
      ∧ ∀ id, (∃ l, s.license? id = some l) → ∃ l, v.license? id = some l)
    (fun _ _ v w hv _ _ _ hstep => by
      obtain ⟨_, _, _, _, link⟩ := applyPlannedTarget_ok hstep
      refine ⟨?_, fun id hl => link.kept (hv.2 id hl)⟩
      rw [link.result]
      exact hv.1) ⟨rfl, fun _ hl => hl⟩ h
  exact hdone

theorem applyPlannedSuccessorLinks_targets {u : Unicode} {items : List (Nat × SourcingItem)}
    {s t : Store} (h : applyPlannedSuccessorLinks u items s = .ok t)
    : ∀ target ∈ plannedTargets items, target ∈ items.map Prod.fst := by
  simp only [applyPlannedSuccessorLinks, bind_eq_ok, require_eq_ok] at h
  obtain ⟨_, hinside, -⟩ := h
  intro target hm
  obtain ⟨entry, he, hk⟩ := List.any_eq_true.mp (List.all_eq_true.mp hinside target hm)
  exact (beq_iff_eq.mp hk) ▸ List.mem_map_of_mem he

theorem OrderConverted.linesRenewStored {u : Unicode} {loaded : LoadedOrder}
    {data : Option (Nat × SourcingItem) → ConversionData → Prop} {made : List Nat}
    {statuses : List SourcingStatus} {s t : Store}
    (h : OrderConverted u loaded data made statuses s t) (hs : LinesRenewStored s)
    : LinesRenewStored t := by
  obtain ⟨lined, planned, hlines, hplanned, rfl, -⟩ := h.work
  obtain ⟨hitems, hrows⟩ := applyPlannedSuccessorLinks_kept hplanned
  have hend : LinesRenewStored planned := hs.of_kept (hitems ▸ hlines.renewedIds) fun id l hl =>
    hrows id ((hlines.linesEffect.kept id l hl).imp fun _ hrow => hrow.1)
  unfold refreshOrderStatus
  dsimp only
  split_ifs <;> exact hend

end LicenseTrack
