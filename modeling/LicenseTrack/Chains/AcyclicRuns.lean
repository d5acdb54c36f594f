import LicenseTrack.Chains.Runs

/-! Runs of repairs, conversions, adoptions and their undoing: under which condition on each
request no renewal chain ever closes.
-/

namespace LicenseTrack

open Library Relation

/-- A repaired row leads forward: no recorded path leads back to it from its new successor, from
it to one of its new predecessors, or from the one to the other. The paths run over what the
other rows record, in any of the four columns.
-/
structure LeadsForward (s : Store) (id : Nat) (repaired : License) : Prop where
  successor : ∀ b, repaired.renewedToId = some b → ¬ ReflTransGen (OtherEdge s id) b id
  predecessor : ∀ a ∈ repaired.predecessorIds, ¬ ReflTransGen (OtherEdge s id) id a
  through : ∀ a ∈ repaired.predecessorIds, ∀ b, repaired.renewedToId = some b
    → ¬ ReflTransGen (OtherEdge s id) b a

/-- The requests that write the renewal chains. -/
def Request.WritesChains : Request → Prop
  | .repairLifecycle .. | .convertOrder .. | .convertOrderInBatch .. | .linkSuccessor ..
  | .unlinkSuccessor .. => True
  | _ => False

/-- What a request needs, to lead no chain back: a repair that its row leads forward, an adoption
that the successor does not lead to the predecessor already, and a batch conversion that no
planned successor with a licence of its own leads back into the order.
-/
def Request.LeadsForward (s : Store) : Request → Prop
  | .repairLifecycle id repair =>
      ∀ l, s.license? id = some l → LicenseTrack.LeadsForward s id (repair.applyTo l)
  | .linkSuccessor predecessorId successorId =>
      ¬ ReflTransGen (ChainEdge s) successorId predecessorId
  | .convertOrderInBatch orderId _ =>
      ∀ target ∈ plannedTargets (s.orderItems orderId), LeadsNotBack s (s.orderItems orderId) target
  | _ => True

-- Steps

/-- Chains that are sound, in a store whose lines renew stored licences. -/
structure ChainInvariant (s : Store) : Prop where
  sound : ChainsSound s
  lines : LinesRenewStored s

theorem license?_of_agrees {rows : Table License} {t : Store} {β : Type} {view : License → β}
    (h : rows.Agrees view t.licenses) {id : Nat} (hl : ∃ l, rows.get? id = some l)
    : ∃ l, t.license? id = some l :=
  let ⟨_, hl⟩ := hl
  (h.forth hl).imp fun _ hrow => hrow.1

theorem ChainInvariant.repair {id : Nat} {repair : LifecycleRepair} {s t : Store}
    (hs : ChainInvariant s) (hforward : (Request.repairLifecycle id repair).LeadsForward s)
    (h : applyLicenseLifecycleRepair id repair s = .ok t)
    : ChainInvariant t := by
  obtain ⟨l, hl, rfl, htargets⟩ := applyLicenseLifecycleRepair_ok h
  have hlf := hforward l hl
  have hkept : ∀ key, (∃ row, s.license? key = some row)
      → ∃ row, (s.modifyLicense id repair.applyTo).license? key = some row := fun key ⟨row, hrow⟩ => by
    rw [Store.license?_modifyLicense, hrow]
    exact ⟨_, rfl⟩
  refine ⟨⟨?_, fun a b he => ?_⟩, hs.lines.of_kept (Table.Agrees.refl _ _)
    fun key row hrow => hkept key ⟨row, hrow⟩⟩
  · have hothers : Acyclic (OtherEdge s id) := hs.sound.acyclic.mono fun _ _ => OtherEdge.chainEdge
    have hadded := hothers.add_at_node (· ∈ (repair.applyTo l).predecessorIds) id
      (repair.applyTo l).renewedToId hlf.successor hlf.predecessor
      fun a b ha hb => hlf.through a ha b hb
    exact hadded.mono fun a b he => ChainEdge.of_modify hl he
  · have hneighbour : ∀ target ∈ (repair.applyTo l).neighbours,
        ∃ row, (s.modifyLicense id repair.applyTo).license? target = some row :=
      fun target ht => hkept target (htargets target ht)
    rcases ChainEdge.of_modify hl he with he | ⟨rfl, hb⟩ | ⟨ha, rfl⟩
    · exact ⟨hkept a (hs.sound.ends a b he.chainEdge).1, hkept b (hs.sound.ends a b he.chainEdge).2⟩
    · exact ⟨hkept a ⟨l, hl⟩, hneighbour b (by simp [License.neighbours, hb])⟩
    · exact ⟨hneighbour a (by simp [License.neighbours, ha]), hkept b ⟨l, hl⟩⟩

theorem ChainInvariant.link {env : Env} {predecessorId successorId : Nat} {s t : Store}
    (hs : ChainInvariant s)
    (hforward : (Request.linkSuccessor predecessorId successorId).LeadsForward s)
    (h : linkExistingSuccessor env predecessorId successorId s = .ok t)
    : ChainInvariant t := by
  obtain ⟨predecessor, successor, r, adoption⟩ := linkExistingSuccessor_ok h
  have hkept : ∀ key, (∃ row, s.license? key = some row) → ∃ row, t.license? key = some row :=
    fun key ⟨row, hrow⟩ => license?_of_agrees adoption.core ⟨_, by
      rw [Table.get?_mapRows]
      exact congrArg (Option.map _) hrow⟩
  refine ⟨⟨?_, fun a b he => ?_⟩, hs.lines.of_kept ?_ fun key row hrow => hkept key ⟨row, hrow⟩⟩
  · refine (hs.sound.acyclic.add_edges (· = predecessorId) successorId fun a ha => ?_).mono
      fun a b he => adoption.chainEdge he
    subst ha
    exact hforward
  · rcases adoption.chainEdge he with he | ⟨rfl, rfl⟩
    · exact ⟨hkept a (hs.sound.ends a b he).1, hkept b (hs.sound.ends a b he).2⟩
    · exact ⟨hkept a ⟨_, adoption.foundPredecessor⟩, hkept b ⟨_, adoption.foundSuccessor⟩⟩
  · rw [adoption.result]
    exact Table.Agrees.refl _ _

theorem ChainInvariant.unlink {env : Env} {predecessorId : Nat} {s t : Store}
    (hs : ChainInvariant s) (h : unlinkExistingSuccessor env predecessorId s = .ok t)
    : ChainInvariant t := by
  obtain ⟨successorId, predecessor, successor, undoing⟩ := unlinkExistingSuccessor_ok h
  have hkept : ∀ key row, s.license? key = some row → ∃ row, t.license? key = some row :=
    fun key row hrow => license?_of_agrees undoing.core ⟨_, by
      rw [Table.get?_mapRows]
      exact congrArg (Option.map _) hrow⟩
  exact ⟨hs.sound.of_fewer (fun _ _ => undoing.chainEdge) hkept,
    hs.lines.of_kept (undoing.items ▸ Table.Agrees.refl _ _) hkept⟩

theorem ChainInvariant.converted {u : Unicode} {loaded : LoadedOrder}
    {data : Option (Nat × SourcingItem) → ConversionData → Prop} {made : List Nat}
    {statuses : List SourcingStatus} {s t : Store} (hs : ChainInvariant s)
    (hloaded : loaded.items = s.orderItems loaded.id)
    (h : OrderConverted u loaded data made statuses s t)
    (hback : ∀ target ∈ plannedTargets loaded.items, target ∉ made
      → LeadsNotBack s loaded.items target)
    : ChainInvariant t := by
  exact ⟨h.chainsSound hs.sound (hloaded ▸ hs.lines.order loaded.id) hback,
    h.linesRenewStored hs.lines⟩

theorem ChainInvariant.beside {s t : Store} (hs : ChainInvariant s) (h : BesideChains s t)
    : ChainInvariant t :=
  ⟨hs.sound.of_fewer (fun _ _ => h.chainEdge) fun _ _ => h.rows, h.lines⟩

theorem ChainInvariant.step {env : Env} {request : Request} {s t : Store}
    (hs : ChainInvariant s) (hwrites : request.WritesChains) (hforward : request.LeadsForward s)
    (h : request.run env s = .ok t)
    : ChainInvariant t := by
  cases request with
  | repairLifecycle id repair => exact hs.repair hforward h
  | linkSuccessor predecessorId successorId => exact hs.link hforward h
  | unlinkSuccessor predecessorId => exact hs.unlink h
  | convertOrder orderId form submitted =>
      obtain ⟨p, hp, hcommit⟩ := bind_eq_ok.mp h
      have hloaded := prepareConversion_ok hp
      have hconverted := commitConversion_ok hcommit
      obtain ⟨_, _, -, hplanned, -⟩ := hconverted.work
      refine hs.converted hloaded.items hconverted fun target hm hnot => ?_
      exact absurd (applyPlannedSuccessorLinks_targets hplanned target hm) hnot
  | convertOrderInBatch orderId payload =>
      obtain ⟨p, hp, hcommit⟩ := bind_eq_ok.mp h
      obtain ⟨hloaded, -, -⟩ := prepareBatch_ok hp
      obtain ⟨made, -, hconverted⟩ := commitBatch_ok hcommit
      refine hs.converted hloaded.items hconverted fun target hm _ => ?_
      rw [hloaded.items, hloaded.id_eq] at hm ⊢
      exact hforward target hm
  | _ => exact hwrites.elim

/-- Renewal chains stay acyclic along every run whose requests lead forward. -/
theorem chains_acyclic_of_leadsForward {start s : Store} (hnone : ∀ a b, ¬ ChainEdge start a b)
    (hlines : LinesRenewStored start)
    (h : ChainsReached (fun s _ request => request.WritesChains ∧ request.LeadsForward s) start s)
    : Acyclic (ChainEdge s) := by
  have hstart : ChainInvariant start :=
    ⟨⟨.of_empty hnone, fun a b he => absurd he (hnone a b)⟩, hlines⟩
  refine (h.invariant hstart fun s t step hs hadmits hran => ?_).sound.acyclic
  cases step with
  | request env request => exact hs.step hadmits.1 hadmits.2 hran
  | beside v =>
      obtain rfl := Except.ok.inj hran
      exact hs.beside hadmits

/-- Two licences without links. -/
def twoLicenses : Store where
  licenses := (Table.empty.insert (License.ofTerm .subscription (some 1) (some 100))).insert
    (License.ofTerm .subscription (some 101) (some 200))

theorem twoLicenses_links {id : Nat} {l : License} (h : twoLicenses.license? id = some l)
    : l.renewedToId = none ∧ l.predecessorIds = [] := by
  have hm := Table.get?_eq_some.mp h
  simp only [twoLicenses, Table.insert, Table.empty, List.nil_append, List.singleton_append,
    List.mem_cons, Prod.mk.injEq, List.not_mem_nil, or_false] at hm
  rcases hm with ⟨-, rfl⟩ | ⟨-, rfl⟩ <;> exact ⟨rfl, rfl⟩

theorem twoLicenses_noEdge (a b : Nat) : ¬ ChainEdge twoLicenses a b := by
  rintro (⟨l, stored, renewed⟩ | ⟨l, stored, renews⟩)
  · rw [(twoLicenses_links stored).1] at renewed
    cases renewed
  · rw [(twoLicenses_links stored).2] at renews
    cases renews

/-- A repair that makes the first licence the predecessor of the second leads forward. -/
theorem chains_acyclic_twoLicenses
    : ∃ t, Request.run (.onDay 50) (.repairLifecycle 2 { predecessorId := some (some 1) })
          twoLicenses = .ok t
        ∧ Acyclic (ChainEdge t) := by
  obtain ⟨t, ht⟩ : ∃ t, Request.run (.onDay 50)
      (.repairLifecycle 2 { predecessorId := some (some 1) }) twoLicenses = .ok t :=
    exists_ok (by decide)
  have hforward : (Request.repairLifecycle 2 { predecessorId := some (some 1) }).LeadsForward
      twoLicenses := by
    rintro l hl
    obtain rfl := Option.some.inj hl
    refine ⟨by simp [LifecycleRepair.applyTo, License.ofTerm], fun a ha hr => ?_,
      by simp [LifecycleRepair.applyTo, License.ofTerm]⟩
    obtain rfl : a = 1 := by
      simpa [LifecycleRepair.applyTo, License.predecessorIds, License.cotermIds,
        License.ofTerm] using ha
    have hself := Acyclic.reaches_only_self
      (fun x he => twoLicenses_noEdge 2 x he.chainEdge) hr
    omega
  refine ⟨t, ht, chains_acyclic_of_leadsForward twoLicenses_noEdge ?_
    (.step (.request (.onDay 50) (.repairLifecycle 2 { predecessorId := some (some 1) }))
      .start ⟨trivial, hforward⟩ ht)⟩
  intro itemId item hitem
  cases hitem

/-- Two accepted repairs close a loop: each licence is made the predecessor of the other, in a
column that the check for cycles does not read.
-/
theorem chains_loop_twoRepairs
    : ¬ ∀ start s, (∀ a b, ¬ ChainEdge start a b) → LinesRenewStored start
        → ChainsReached (fun _ _ request => request.WritesChains) start s
        → Acyclic (ChainEdge s) := by
  intro hclaim
  obtain ⟨s, hs⟩ : ∃ s, Request.run (.onDay 50)
      (.repairLifecycle 2 { predecessorId := some (some 1) }) twoLicenses = .ok s :=
    exists_ok (by decide)
  obtain ⟨t, ht⟩ : ∃ t, (Request.run (.onDay 50)
      (.repairLifecycle 2 { predecessorId := some (some 1) }) twoLicenses
        >>= Request.run (.onDay 50) (.repairLifecycle 1 { predecessorId := some (some 2) }))
        = .ok t :=
    exists_ok (by decide)
  have hlinks : (Request.run (.onDay 50)
      (.repairLifecycle 2 { predecessorId := some (some 1) }) twoLicenses
        >>= Request.run (.onDay 50) (.repairLifecycle 1 { predecessorId := some (some 2) })).map
        (fun t => ((t.license? 1).map (·.predecessorIds), (t.license? 2).map (·.predecessorIds)))
      = .ok (some [2], some [1]) := by decide
  rw [hs] at ht hlinks
  rw [ht] at hlinks
  obtain ⟨h₁, h₂⟩ := Prod.mk.inj (Except.ok.inj hlinks)
  obtain ⟨l₁, hl₁, hp₁⟩ := Option.map_eq_some_iff.mp h₁
  obtain ⟨l₂, hl₂, hp₂⟩ := Option.map_eq_some_iff.mp h₂
  have hloop : TransGen (ChainEdge t) 1 1 :=
    .tail (.single (.predecessor l₂ hl₂ (by simp [hp₂]))) (.predecessor l₁ hl₁ (by simp [hp₁]))
  refine hclaim twoLicenses t twoLicenses_noEdge (fun itemId item hitem => by cases hitem) ?_ 1 hloop
  exact .step (.request (.onDay 50) (.repairLifecycle 1 { predecessorId := some (some 2) }))
    (.step (.request (.onDay 50) (.repairLifecycle 2 { predecessorId := some (some 1) }))
      .start trivial hs) trivial ht

end LicenseTrack
