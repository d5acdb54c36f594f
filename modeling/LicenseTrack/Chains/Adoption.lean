import LicenseTrack.Chains.Edges

/-! What adopting a successor, undoing it and the admin repair write on the licences of a chain.
-/

namespace LicenseTrack

open Library Relation

theorem adoptedRow_core (env : Env) (s : Store) {predecessorId successorId : Nat}
    (formerRef : Option String) (parents : List Nat) (r : AdoptionRecord) (id : Nat) (l : License)
    : (adoptedRow env s predecessorId successorId formerRef parents r id l).core
      = (chainedRow env predecessorId successorId formerRef r.chainRef r.state id l).core := by
  unfold adoptedRow chainedRow
  split
  · rfl
  · split
    · rfl
    · split <;> rfl

theorem Adoption.core {env : Env} {s t : Store} {predecessorId successorId : Nat}
    {predecessor successor : License} {r : AdoptionRecord}
    (h : Adoption env s t predecessorId successorId predecessor successor r)
    : (s.licenses.mapRows (chainedRow env predecessorId successorId successor.licenseRef r.chainRef
        r.state)).Agrees License.core t.licenses := by
  intro key
  rw [h.result]
  simp only [adoptedStore, Table.get?_mapRows, Option.map_map]
  exact congrArg (Option.map · (s.licenses.get? key))
    (funext fun l => adoptedRow_core env s successor.licenseRef _ r key l)

theorem Adoption.chainEdge {env : Env} {s t : Store} {predecessorId successorId : Nat}
    {predecessor successor : License} {r : AdoptionRecord}
    (h : Adoption env s t predecessorId successorId predecessor successor r) {a b : Nat}
    (he : ChainEdge t a b)
    : ChainEdge s a b ∨ (a = predecessorId ∧ b = successorId) := by
  cases he with
  | successor l stored renewed =>
      obtain ⟨row, hrow, hv⟩ := h.core.back stored
      rw [Table.get?_mapRows, Option.map_eq_some_iff] at hrow
      obtain ⟨old, hold, rfl⟩ := hrow
      rw [License.core_chain hv] at renewed
      simp only [chainedRow] at renewed
      split at renewed
      · next ha => exact .inr ⟨ha, (Option.some.inj renewed).symm⟩
      · split at renewed <;> exact .inl (.successor old hold renewed)
  | predecessor l stored renews =>
      obtain ⟨row, hrow, hv⟩ := h.core.back stored
      rw [Table.get?_mapRows, Option.map_eq_some_iff] at hrow
      obtain ⟨old, hold, rfl⟩ := hrow
      have hp := congrArg Prod.snd (chainLinks_of_core hv)
      simp only [License.chainLinks] at hp
      rw [hp] at renews
      simp only [chainedRow] at renews
      split at renews
      · exact .inl (.predecessor old hold renews)
      · split at renews
        · next hb =>
            subst hb
            obtain rfl : old = successor := Option.some.inj (hold.symm.trans h.foundSuccessor)
            simp only [License.predecessorIds, License.asSuccessor, License.cotermIds,
              Option.toList_some, List.mem_append, List.mem_singleton] at renews
            rcases renews with (rfl | rfl) | hc
            · exact .inr ⟨rfl, rfl⟩
            · exact .inr ⟨rfl, rfl⟩
            · exact .inl (.predecessor old hold (List.mem_append_right _ hc))
        · exact .inl (.predecessor old hold renews)

-- Undoing

/-- The rows after undoing, up to the bookkeeping. -/
def unlinkedRow (predecessorId successorId : Nat) (formerRef : Option String) (id : Nat)
    (l : License)
    : License :=
  if id = predecessorId then
    (if id = successorId then l.withoutSnapshot.freed formerRef else l.withoutSnapshot).withdrawn
  else if id = successorId then l.freed formerRef
  else l

theorem restoreParent_only {env : Env} {successorId : Nat} {entry : ParentSnapshot} {s t : Store}
    (h : restoreParent env successorId entry s = .ok t)
    : OnlyMaintenance s t := by
  obtain ⟨parent, hchecks⟩ := restoreParent_checks h
  obtain ⟨history, he, -⟩ := restoreParent_eq env hchecks
  obtain rfl := Except.ok.inj (he.symm.trans h)
  refine ⟨?_, by unfold Store.unlinkedFor; split <;> rfl⟩
  exact Table.Agrees.of_modify fun _ => rfl

theorem withoutSnapshot_core {a b : License} (h : b.core = a.core)
    : b.withoutSnapshot.core = a.withoutSnapshot.core := by
  simp only [License.core, License.withoutSnapshot, Prod.mk.injEq] at h ⊢
  simp_all

theorem restoreExistingMaintenanceLink_ok {env : Env} {predecessorId successorId : Nat}
    {s t : Store} (h : restoreExistingMaintenanceLink env predecessorId successorId s = .ok t)
    : (s.licenses.modify predecessorId (·.withoutSnapshot)).Agrees License.core t.licenses
      ∧ t.items = s.items := by
  unfold restoreExistingMaintenanceLink at h
  split at h
  · next hnone =>
      obtain rfl := Except.ok.inj h
      rw [Table.modify_eq_self fun l hl => ?_]
      · exact ⟨Table.Agrees.refl _ _, rfl⟩
      · have hl' : s.license? predecessorId = some l := hl
        rw [hl', Option.bind_some] at hnone
        simp [License.withoutSnapshot, ← hnone]
  · next snapshot _ =>
      simp only [bind_eq_ok, pure_eq_ok] at h
      obtain ⟨v, hv, rfl⟩ := h
      have hv := each_only (fun _ _ _ _ => restoreParent_only) hv
      have hparent : v.licenses.Agrees License.core
          (v.licenses.modify successorId (·.withSavedParent snapshot)) :=
        Table.Agrees.of_modify fun _ => rfl
      exact ⟨(hv.core.trans hparent).modify predecessorId fun _ _ => withoutSnapshot_core,
        hv.items⟩

/-- What undoing an adoption requires and does. -/
structure Undoing (s t : Store) (predecessorId successorId : Nat) (predecessor successor : License)
    : Prop where
  foundPredecessor : s.license? predecessorId = some predecessor
  linked : predecessor.existingSuccessorLinkedAt ≠ none
  renewedTo : predecessor.renewedToId = some successorId
  foundSuccessor : s.license? successorId = some successor
  unrenewed : successor.renewedToId = none
  core : (s.licenses.mapRows (unlinkedRow predecessorId successorId
    predecessor.existingSuccessorOriginalRef)).Agrees License.core t.licenses
  items : t.items = s.items

theorem freed_core {a b : License} (h : b.core = a.core) (formerRef : Option String)
    : (b.freed formerRef).core = (a.freed formerRef).core := by
  have hc := License.core_chain h
  simp only [License.core, License.freed, Prod.mk.injEq] at h ⊢
  simp_all

theorem withdrawn_core {a b : License} (h : b.core = a.core)
    : b.withdrawn.core = a.withdrawn.core := by
  simp only [License.core, License.withdrawn, Prod.mk.injEq] at h ⊢
  simp_all

theorem unlinkExistingSuccessor_ok {env : Env} {predecessorId : Nat} {s t : Store}
    (h : unlinkExistingSuccessor env predecessorId s = .ok t)
    : ∃ successorId predecessor successor,
        Undoing s t predecessorId successorId predecessor successor := by
  simp only [unlinkExistingSuccessor, bind_eq_ok, found_eq_ok, require_eq_ok, flush_eq_ok] at h
  obtain ⟨predecessor, hp, _, hlinked, successorId, hto, successor, hq, _, hun, _, -, v, hv, rfl,
    -⟩ := h
  obtain ⟨hcore, hitems⟩ := restoreExistingMaintenanceLink_ok hv
  refine ⟨successorId, predecessor, successor, hp, hlinked, hto, hq, hun, ?_, hitems⟩
  have hrows := (hcore.modify successorId (fun _ _ hab =>
    freed_core hab predecessor.existingSuccessorOriginalRef)).modify predecessorId
      fun _ _ => withdrawn_core
  refine Table.Agrees.trans (fun key => ?_) hrows
  simp only [Table.modify, Table.get?_mapRows, Option.map_map]
  refine congrArg (Option.map · (s.licenses.get? key)) (funext fun l => ?_)
  simp only [Function.comp, unlinkedRow]
  split_ifs <;> rfl

theorem Undoing.chainEdge {s t : Store} {predecessorId successorId : Nat}
    {predecessor successor : License}
    (h : Undoing s t predecessorId successorId predecessor successor) {a b : Nat}
    (he : ChainEdge t a b)
    : ChainEdge s a b := by
  have hlinks (id : Nat) (l : License) (formerRef : Option String)
      : ((unlinkedRow predecessorId successorId formerRef id l).renewedToId = l.renewedToId
          ∨ (unlinkedRow predecessorId successorId formerRef id l).renewedToId = none)
        ∧ ∀ p, p ∈ (unlinkedRow predecessorId successorId formerRef id l).predecessorIds
          → p ∈ l.predecessorIds := by
    unfold unlinkedRow
    split_ifs <;>
      simp [License.withoutSnapshot, License.freed, License.withdrawn, License.predecessorIds,
        License.cotermIds]
    all_goals exact fun p hp => .inr (.inr hp)
  cases he with
  | successor l stored renewed =>
      obtain ⟨row, hrow, hv⟩ := h.core.back stored
      rw [Table.get?_mapRows, Option.map_eq_some_iff] at hrow
      obtain ⟨old, hold, rfl⟩ := hrow
      rw [License.core_chain hv] at renewed
      rcases (hlinks a old predecessor.existingSuccessorOriginalRef).1 with hr | hr
      · exact .successor old hold (hr ▸ renewed)
      · rw [hr] at renewed
        cases renewed
  | predecessor l stored renews =>
      obtain ⟨row, hrow, hv⟩ := h.core.back stored
      rw [Table.get?_mapRows, Option.map_eq_some_iff] at hrow
      obtain ⟨old, hold, rfl⟩ := hrow
      have hp := congrArg Prod.snd (chainLinks_of_core hv)
      simp only [License.chainLinks] at hp
      rw [hp] at renews
      exact .predecessor old hold ((hlinks b old _).2 a renews)

/-- The licences that a row is linked to, on either side. -/
def License.neighbours (l : License) : List Nat := l.renewedToId.toList ++ l.predecessorIds

theorem applyLicenseLifecycleRepair_ok {id : Nat} {repair : LifecycleRepair} {s t : Store}
    (h : applyLicenseLifecycleRepair id repair s = .ok t)
    : ∃ l, s.license? id = some l ∧ t = s.modifyLicense id repair.applyTo
        ∧ ∀ target ∈ (repair.applyTo l).neighbours, ∃ row, s.license? target = some row := by
  simp only [applyLicenseLifecycleRepair, bind_eq_ok, found_eq_ok, require_eq_ok,
    flush_eq_ok] at h
  obtain ⟨l, hl, _, -, _, htargets, _, -, rfl, -⟩ := h
  refine ⟨l, hl, rfl, fun target ht => ?_⟩
  simp only [validateRepairTargets, bind_eq_ok, require_eq_ok] at htargets
  obtain ⟨_, -, _, -, hstored⟩ := htargets
  refine Option.isSome_iff_exists.mp (hstored target ?_)
  simp only [License.neighbours, License.predecessorIds, List.mem_append] at ht ⊢
  tauto

/-- An edge that a licence other than the given one records. -/
inductive OtherEdge (s : Store) (id a b : Nat) : Prop
  | successor (l : License) (other : a ≠ id) (stored : s.license? a = some l)
      (renewed : l.renewedToId = some b)
  | predecessor (l : License) (other : b ≠ id) (stored : s.license? b = some l)
      (renews : a ∈ l.predecessorIds)

theorem OtherEdge.chainEdge {s : Store} {id a b : Nat} (h : OtherEdge s id a b)
    : ChainEdge s a b := by
  cases h with
  | successor l _ stored renewed => exact .successor l stored renewed
  | predecessor l _ stored renews => exact .predecessor l stored renews

theorem ChainEdge.of_modify {s : Store} {id : Nat} {f : License → License} {l : License}
    (hl : s.license? id = some l) {a b : Nat} (he : ChainEdge (s.modifyLicense id f) a b)
    : OtherEdge s id a b ∨ (a = id ∧ (f l).renewedToId = some b)
      ∨ (a ∈ (f l).predecessorIds ∧ b = id) := by
  cases he with
  | successor row stored renewed =>
      rw [Store.license?_modifyLicense, Option.map_eq_some_iff] at stored
      obtain ⟨old, hold, rfl⟩ := stored
      split at renewed
      · next ha =>
          obtain rfl : old = l := Option.some.inj ((ha ▸ hold).symm.trans hl)
          exact .inr (.inl ⟨ha, renewed⟩)
      · next ha => exact .inl (.successor old ha hold renewed)
  | predecessor row stored renews =>
      rw [Store.license?_modifyLicense, Option.map_eq_some_iff] at stored
      obtain ⟨old, hold, rfl⟩ := stored
      split at renews
      · next hb =>
          obtain rfl : old = l := Option.some.inj ((hb ▸ hold).symm.trans hl)
          exact .inr (.inr ⟨renews, hb⟩)
      · next hb => exact .inl (.predecessor old hb hold renews)

end LicenseTrack
