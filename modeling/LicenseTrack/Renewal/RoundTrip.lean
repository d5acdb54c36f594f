import LicenseTrack.Renewal.LinkUnlink

/-! Adopting an existing successor and undoing it at once gives the store back exactly when
the adoption is reversible.
-/

namespace LicenseTrack

open Library

theorem withdrawn_asPredecessor (env : Env) (successorId : Nat) (formerRef : Option String)
    {l : License} (hlife : l.lifecycleStatus = none) (hto : l.renewedToId = none)
    (hat : l.existingSuccessorLinkedAt = none) (hby : l.existingSuccessorLinkedByEmail = none)
    (hformer : l.existingSuccessorOriginalRef = none)
    (hstate : l.existingSuccessorMaintenanceState = none)
    : (l.asPredecessor env successorId formerRef none).withdrawn = l := by
  obtain ⟨details, terms, purchase, mirror, standing, chain⟩ := l
  obtain ⟨life, renewedFrom, renewedTo, pred, coterm, ref, aliases, linkedAt, linkedBy, saved,
    original⟩ := chain
  simp only at hlife hto hat hby hformer hstate
  subst hlife hto hat hby hformer hstate
  rfl

theorem aliases_restored_iff {aliases : List String} {former chainRef : String}
    (hf : former ≠ "")
    : (aliasesAfterLink aliases (some former) chainRef).filter (· ≠ former) = aliases
      ↔ former ∉ aliases := by
  have hfilter : (aliasesAfterLink aliases (some former) chainRef).filter (· ≠ former)
      = aliases.filter (· ≠ former) := by
    simp only [aliasesAfterLink, truthy, Option.filter, hf, ne_eq, not_false_eq_true,
      decide_true, if_true]
    split <;> simp
  rw [hfilter, List.filter_eq_self]
  constructor
  · exact fun h hm => by simpa using h former hm
  · intro h a ha
    have hne : a ≠ former := fun he => h (he ▸ ha)
    simpa using hne

theorem freed_asSuccessor_iff (predecessorId : Nat) {chainRef : String} {l : License}
    (hblank : chainRef ≠ "") (hfrom : l.renewedFromId = none) (hpred : l.predecessorId = none)
    : ((l.asSuccessor predecessorId chainRef).freed l.licenseRef).toLicenseChain = l.toLicenseChain
      ↔ ∃ ref, truthy l.licenseRef = some ref ∧ ref ∉ l.licenseRefAliases := by
  obtain ⟨details, terms, purchase, mirror, standing, chain⟩ := l
  obtain ⟨life, renewedFrom, renewedTo, pred, coterm, ref, aliases, linkedAt, linkedBy, state,
    original⟩ := chain
  simp only at hfrom hpred
  subst hfrom hpred
  simp only [License.asSuccessor, License.freed, LicenseChain.mk.injEq, true_and, and_true]
  rcases ht : truthy ref with _ | former
  · constructor
    · rintro ⟨href, -⟩
      simp only [Option.isSome_none, Bool.false_eq_true, if_false] at href
      rw [← href] at ht
      simp [truthy, hblank] at ht
    · rintro ⟨_, hnone, -⟩
      cases hnone
  · have hf : ref = some former ∧ former ≠ "" := by
      simpa [truthy, Option.filter_eq_some_iff] using ht
    obtain ⟨rfl, hne⟩ := hf
    simp only [Option.isSome_some, if_true, true_and, Option.some.injEq, exists_eq_left']
    exact aliases_restored_iff hne

-- The parents

section Parents

variable {env env' : Env} {s t : Store} {predecessorId successorId : Nat}
  {predecessor successor : License} {r : AdoptionRecord}

theorem restoredMirror_adopted
    (h : Adoption env s t predecessorId successorId predecessor successor r)
    {entry : ParentSnapshot}
    (he : entry ∈ snapshotParents s predecessorId successorId predecessor) {parent row : License}
    (hp : s.license? entry.id = some parent)
    (hrow : row = parent.withMirror ((s.withLink successorId entry.id).recomputedMirror env
      entry.id parent.toMaintenanceMirror))
    : restoredMirror env' t successorId entry row
      = if (s.withLink successorId entry.id).chosenRecord env entry.id
            parent.toMaintenanceMirror = some successorId then parent.toMaintenanceMirror
        else s.recomputedMirror env' entry.id row.toMaintenanceMirror := by
  subst hrow
  obtain ⟨-, -, parent', hp', hvalues⟩ := mem_snapshotParents.mp he
  obtain rfl := Option.some.inj (hp.symm.trans hp')
  have hactive : (parent.withMirror ((s.withLink successorId entry.id).recomputedMirror env
        entry.id parent.toMaintenanceMirror)).hasActive successorId
      = decide ((s.withLink successorId entry.id).chosenRecord env entry.id
          parent.toMaintenanceMirror = some successorId) := by
    unfold License.hasActive
    rw [License.withMirror_mirror, Store.recomputedMirror_active]
    exact Bool.beq_eq_decide_eq _ _
  have hrecords : SameRecords s (t.unlinkedFor successorId entry) := by
    unfold SameRecords
    rw [unlinkedFor_licenses]
    exact h.records
  unfold restoredMirror
  rw [hactive]
  by_cases hc : (s.withLink successorId entry.id).chosenRecord env entry.id
      parent.toMaintenanceMirror = some successorId
  · simp [hc, hvalues]
  · simp only [hc, decide_false, Bool.false_eq_true, if_false]
    unfold Store.recomputedMirror Store.chosenRecord
    rw [h.candidates he, hrecords.syncedMirror]

/-- Past its checks, a parent gets its mirror back exactly when it is reversible. -/
theorem parent_restored_iff
    (h : Adoption env s t predecessorId successorId predecessor successor r)
    (hu : env'.unicode = env.unicode) {entry : ParentSnapshot}
    (he : entry ∈ snapshotParents s predecessorId successorId predecessor) {parent row : License}
    (hp : s.license? entry.id = some parent)
    (hrow : row = parent.withMirror ((s.withLink successorId entry.id).recomputedMirror env
      entry.id parent.toMaintenanceMirror))
    (htrow : t.license? entry.id = some row)
    : RestoreChecks t successorId entry row
        ∧ restoredMirror env' t successorId entry row = parent.toMaintenanceMirror
      ↔ ParentReversible env env' s successorId entry.id parent.toMaintenanceMirror := by
  obtain ⟨-, -, parent', hp', hvalues⟩ := mem_snapshotParents.mp he
  obtain rfl := Option.some.inj (hp.symm.trans hp')
  rw [restoredMirror_adopted h he hp hrow]
  have hany : ∀ id, (t.license? id).any (fun l => !l.isRetired)
      = (s.license? id).any (fun l => !l.isRetired) := fun id => by
    rcases hs : s.license? id with _ | l
    · have ht : t.license? id = none := Table.Agrees.missing h.records hs
      rw [ht]
    · obtain ⟨l', ht, hv⟩ := Table.Agrees.forth h.records hs
      have ht' : t.license? id = some l' := ht
      have hret : l'.isRetired = l.isRetired := congrArg Prod.snd hv
      simp [ht', hret]
  have hact : row.activeMaintenanceId = (s.withLink successorId entry.id).chosenRecord env
      entry.id parent.toMaintenanceMirror := by
    rw [hrow, License.withMirror_mirror, Store.recomputedMirror_active]
  have hhas : row.hasActive successorId = true ↔ (s.withLink successorId entry.id).chosenRecord env
      entry.id parent.toMaintenanceMirror = some successorId := by
    simp only [License.hasActive, beq_iff_eq]
    rw [hact]
  unfold ParentReversible
  by_cases hc : (s.withLink successorId entry.id).chosenRecord env entry.id
      parent.toMaintenanceMirror = some successorId
  · simp only [hc, if_true, and_true, true_and, ne_eq, not_true_eq_false, false_and, or_false]
    constructor
    · intro hchecks id hid
      rw [← hany]
      exact hchecks.previous (hhas.mpr hc) id (by rw [hvalues]; exact hid)
    · intro hprev
      refine ⟨htrow, .inl (hact.trans hc), fun _ id hid => ?_⟩
      rw [hany]
      exact hprev id (by rw [← hvalues]; exact hid)
  · simp only [hc, if_false, false_and, ne_eq, not_false_eq_true, true_and, false_or]
    -- The active record stays; then the adoption only synchronised the mirror.
    have hsynced : (s.withLink successorId entry.id).chosenRecord env entry.id
          parent.toMaintenanceMirror = parent.activeMaintenanceId
        → row.toMaintenanceMirror = s.syncedMirror env.unicode parent.toMaintenanceMirror := by
      intro hkept
      rw [hrow, License.withMirror_mirror]
      unfold Store.recomputedMirror
      rw [hkept]
      rfl
    constructor
    · rintro ⟨hchecks, hmirror⟩
      have hkept : (s.withLink successorId entry.id).chosenRecord env entry.id
          parent.toMaintenanceMirror = parent.activeMaintenanceId := by
        rcases hchecks.active with ha | ha
        · exact absurd (hact.symm.trans ha) hc
        · rw [← hact, ha, hvalues]
      have hrowActive : row.activeMaintenanceId = parent.activeMaintenanceId := hact.trans hkept
      have hchosen : s.chosenRecord env' entry.id parent.toMaintenanceMirror
          = parent.activeMaintenanceId := by
        have := congrArg MaintenanceMirror.activeMaintenanceId hmirror
        rw [Store.recomputedMirror_active] at this
        unfold Store.chosenRecord at this ⊢
        rwa [hrowActive] at this
      refine ⟨hkept, hchosen, ?_⟩
      have hback : s.syncedMirror env'.unicode row.toMaintenanceMirror
          = parent.toMaintenanceMirror := by
        rw [← hmirror]
        unfold Store.recomputedMirror Store.chosenRecord
        unfold Store.chosenRecord at hchosen
        rw [hrowActive, hchosen, ← hrowActive]
      rw [hu, hsynced hkept, syncedMirror_idem] at hback
      exact hback
    · rintro ⟨hkept, hchosen, hsame⟩
      have hrowMirror : row.toMaintenanceMirror = parent.toMaintenanceMirror :=
        (hsynced hkept).trans hsame
      refine ⟨⟨htrow, .inr ?_, fun ha => absurd (hhas.mp ha) hc⟩, ?_⟩
      · rw [hact, hkept, hvalues]
      · rw [hrowMirror]
        unfold Store.recomputedMirror
        rw [hchosen, hu]
        exact hsame

end Parents

-- Undoing as one update

/-- The store with both licences of an adoption freed from each other. -/
def Store.undone (s : Store) (predecessorId successorId : Nat) (formerRef : Option String)
    : Store :=
  (s.modifyLicense successorId (·.freed formerRef)).modifyLicense predecessorId (·.withdrawn)

section Undoing

variable {env env' : Env} {s t u x : Store} {predecessorId successorId : Nat}
  {predecessor successor : License} {r : AdoptionRecord}

theorem unlink_run (h : Adoption env s t predecessorId successorId predecessor successor r)
    : unlinkExistingSuccessor env' predecessorId t
      = restoreExistingMaintenanceLink env' predecessorId successorId t >>= fun x =>
          flush (x.undone predecessorId successorId successor.licenseRef) := by
  have hstate : ¬ (predecessor.licenseType = .maintenance ∧ r.state = none) := by
    rintro ⟨hm, hn⟩
    rw [h.state hm] at hn
    cases hn
  have hlast : successor.renewedToId = none := h.candidate.successorRenewedTo
  unfold unlinkExistingSuccessor
  rw [h.predecessor_row]
  simp only [found, ok_bind]
  rw [require_bind (by simp [License.asPredecessor])]
  simp only [License.asPredecessor, ok_bind]
  rw [h.successor_row]
  simp only [ok_bind]
  rw [require_bind (by simpa [License.asSuccessor, License.activatedFor] using hlast)]
  exact require_bind hstate _

theorem restoreParent_chain {entry : ParentSnapshot}
    (h : restoreParent env successorId entry s = .ok t)
    : Table.Agrees License.toLicenseChain s.licenses t.licenses := by
  obtain ⟨parent, hchecks⟩ := restoreParent_checks h
  obtain ⟨history, heq, -⟩ := restoreParent_eq env hchecks
  obtain rfl := Except.ok.inj (heq.symm.trans h)
  exact Table.Agrees.of_modify fun _ => rfl

theorem withoutSnapshot_chain {a b : License} (h : a.toLicenseChain = b.toLicenseChain)
    : a.withoutSnapshot.toLicenseChain = b.withoutSnapshot.toLicenseChain := by
  simp only [License.withoutSnapshot, h]

theorem restoreExistingMaintenanceLink_chain
    (h : restoreExistingMaintenanceLink env predecessorId successorId s = .ok x) {id : Nat}
    {l : License} (hl : s.license? id = some l)
    : ∃ l', x.license? id = some l' ∧ l'.toLicenseChain
        = (if id = predecessorId then l.withoutSnapshot else l).toLicenseChain := by
  unfold restoreExistingMaintenanceLink at h
  split at h
  · next hnone =>
      obtain rfl := Except.ok.inj h
      refine ⟨l, hl, ?_⟩
      split
      · next he =>
          subst he
          have hstate : l.existingSuccessorMaintenanceState = none := by simpa [hl] using hnone
          simp only [License.withoutSnapshot]
          rw [← hstate]
      · rfl
  · next snapshot hsome =>
      simp only [bind_eq_ok, pure_eq_ok] at h
      obtain ⟨y, heach, rfl⟩ := h
      have hagrees : Table.Agrees License.toLicenseChain s.licenses y.licenses :=
        each_keeps (P := fun y => Table.Agrees License.toLicenseChain s.licenses y.licenses)
          (fun _ _ _ _ hs hstep => hs.trans (restoreParent_chain hstep))
          (Table.Agrees.refl _ _) heach
      obtain ⟨l', hl', hchain⟩ := hagrees.forth hl
      have hy : y.license? id = some l' := hl'
      let saved := if id = successorId then l'.withSavedParent snapshot else l'
      have hsaved : saved.toLicenseChain = l.toLicenseChain := by
        unfold saved
        split <;> exact hchain
      refine ⟨if id = predecessorId then saved.withoutSnapshot else saved, ?_, ?_⟩
      · rw [Store.license?_modifyLicense, Store.license?_modifyLicense]
        simp only [Store.license?] at hy ⊢
        rw [hy]
        rfl
      · split
        · exact withoutSnapshot_chain hsaved
        · exact hsaved

theorem rows_reversible (h : Adoption env s t predecessorId successorId predecessor successor r)
    (hx : restoreExistingMaintenanceLink env' predecessorId successorId t = .ok x)
    (hu : (x.undone predecessorId successorId successor.licenseRef).licenses = s.licenses)
    : (predecessor.existingSuccessorLinkedAt = none
        ∧ predecessor.existingSuccessorLinkedByEmail = none
        ∧ predecessor.existingSuccessorOriginalRef = none
        ∧ predecessor.existingSuccessorMaintenanceState = none)
      ∧ ∃ ref, truthy successor.licenseRef = some ref ∧ ref ∉ successor.licenseRefAliases := by
  have hne := h.candidate.distinct
  have hrow : ∀ id, (x.undone predecessorId successorId successor.licenseRef).license? id
      = s.license? id := fun id => congrArg (Table.get? · id) hu
  constructor
  · obtain ⟨l, hl, hchain⟩ := restoreExistingMaintenanceLink_chain hx h.predecessor_row
    have hback : l.withdrawn = predecessor := by
      have := (hrow predecessorId).trans h.foundPredecessor
      simpa [Store.undone, Store.license?_modifyLicense, hl, Ne.symm hne] using this
    rw [if_pos rfl] at hchain
    have hstate : l.existingSuccessorMaintenanceState = none :=
      congrArg LicenseChain.existingSuccessorMaintenanceState hchain
    rw [← hback]
    exact ⟨rfl, rfl, rfl, hstate⟩
  · obtain ⟨l, hl, hchain⟩ := restoreExistingMaintenanceLink_chain hx h.successor_row
    have hback : l.freed successor.licenseRef = successor := by
      have := (hrow successorId).trans h.foundSuccessor
      simpa [Store.undone, Store.license?_modifyLicense, hl, hne] using this
    rw [if_neg hne] at hchain
    have hsame : ((successor.asSuccessor predecessorId r.chainRef).freed
          successor.licenseRef).toLicenseChain
        = (l.freed successor.licenseRef).toLicenseChain := by
      simp only [License.freed, hchain]
      rfl
    rw [hback] at hsame
    exact (freed_asSuccessor_iff predecessorId h.chainRef h.candidate.renewedFrom
      h.candidate.predecessorId).mp hsame

/-- A store in which coverage is as before the adoption, and only the chain is still linked. -/
structure CoverageRestored (env : Env) (s x : Store) (predecessorId successorId : Nat)
    (predecessor successor : License) (chainRef : String)
    : Prop where
  predecessor : x.license? predecessorId
    = some (predecessor.asPredecessor env successorId successor.licenseRef none)
  successor : x.license? successorId = some (successor.asSuccessor predecessorId chainRef)
  others : ∀ id, id ≠ predecessorId → id ≠ successorId → x.license? id = s.license? id
  links : x.links = s.links
  history : x.history = s.history

theorem CoverageRestored.undo
    (hx : CoverageRestored env s x predecessorId successorId predecessor successor r.chainRef)
    (h : Adoption env s t predecessorId successorId predecessor successor r)
    (hr : LinkReversible env env' s predecessorId successorId predecessor successor)
    (hs : s.Constraints)
    : ∃ u, flush (x.undone predecessorId successorId successor.licenseRef) = .ok u
        ∧ Restored s u := by
  have hne := h.candidate.distinct
  have hpredecessor := withdrawn_asPredecessor env successorId successor.licenseRef
    h.candidate.lifecycle h.candidate.renewedTo hr.linkedAt hr.linkedBy hr.originalRef hr.state
  have hsuccessor : (successor.asSuccessor predecessorId r.chainRef).freed successor.licenseRef
      = successor := by
    have hchain := (freed_asSuccessor_iff predecessorId h.chainRef
      h.candidate.renewedFrom h.candidate.predecessorId).mpr hr.ref
    exact congrArg (fun chain => { successor with toLicenseChain := chain }) hchain
  have hlicenses : (x.undone predecessorId successorId successor.licenseRef).licenses
      = s.licenses := by
    ext id : 1
    change Store.license? (x.undone predecessorId successorId successor.licenseRef) id
      = s.license? id
    rw [Store.undone, Store.license?_modifyLicense, Store.license?_modifyLicense]
    by_cases hip : id = predecessorId
    · subst hip
      rw [hx.predecessor, h.foundPredecessor]
      simp [Ne.symm hne, hpredecessor]
    · by_cases hiq : id = successorId
      · subst hiq
        rw [hx.successor, h.foundSuccessor]
        simp [hne, hsuccessor]
      · rw [hx.others id hip hiq]
        simp [hip, hiq]
  refine ⟨_, flush_eq_ok.mpr ⟨rfl, ?_⟩, ⟨hlicenses, hx.links, hx.history⟩⟩
  refine ⟨fun id l hl => hs.licenses id l ?_, fun link hl => hs.links link (hx.links ▸ hl)⟩
  rw [← hl]
  exact congrArg (Table.get? · id) hlicenses.symm

theorem coverageRestored_of_other
    (h : Adoption env s t predecessorId successorId predecessor successor r)
    (hm : predecessor.licenseType ≠ .maintenance)
    (hstate : predecessor.existingSuccessorMaintenanceState = none)
    : CoverageRestored env s t predecessorId successorId predecessor successor r.chainRef := by
  have hparents : adoptionParents s predecessorId predecessor = [] := by
    simp [adoptionParents, hm]
  have hrow := h.row
  have hsuccessor := h.successor_row
  rw [hparents, activatedFor_nil] at hsuccessor
  refine ⟨?_, hsuccessor, fun id hip hiq => ?_, ?_, ?_⟩
  · rw [← h.noState hm hstate]
    exact h.predecessor_row
  · rw [hrow id, hparents]
    cases s.license? id <;> simp [adoptedRow, hip, hiq]
  · rw [h.links, hparents]
    simp
  · have hhistory : t.history = r.history := by rw [h.result]; rfl
    rw [hhistory]
    ext id : 1
    rcases hid : r.history.get? id with _ | row
    · rcases hs : s.history.get? id with _ | old
      · rfl
      · exact absurd (h.history.kept id old hs) (by simp [hid])
    · rcases hs : s.history.get? id with _ | old
      · have hfresh := h.history.fresh id row hid hs
        rw [hparents] at hfresh
        cases hfresh
      · rw [← hid]
        exact h.history.kept id old hs

section Maintenance

variable (h : Adoption env s t predecessorId successorId predecessor successor r)
  (hm : predecessor.licenseType = .maintenance)

include h hm

theorem saved_snapshot
    : (t.license? predecessorId).bind (·.existingSuccessorMaintenanceState)
      = some (adoptionSnapshot s predecessorId successorId predecessor successor r.history) := by
  rw [h.predecessor_row, ← h.state hm]
  rfl

theorem snapshot_row {entry : ParentSnapshot}
    (he : entry ∈ snapshotParents s predecessorId successorId predecessor)
    : ∃ parent, s.license? entry.id = some parent
        ∧ t.license? entry.id = some (parent.withMirror
            ((s.withLink successorId entry.id).recomputedMirror env entry.id
              parent.toMaintenanceMirror)) := by
  obtain ⟨-, -, parent, hp, -⟩ := mem_snapshotParents.mp he
  exact ⟨parent, hp, h.parent_row ((snapshotParents_ids successorId hm).mp ⟨entry, he, rfl⟩) hp⟩

omit h in
theorem snapshot_find (successorId : Nat) {id : Nat} (hid : id ∈ adoptionParents s predecessorId predecessor)
    : ∃ entry ∈ snapshotParents s predecessorId successorId predecessor, entry.id = id
        ∧ (snapshotParents s predecessorId successorId predecessor).find? (·.id == id)
          = some entry := by
  obtain ⟨entry, he, heq⟩ := (snapshotParents_ids successorId hm).mpr hid
  obtain ⟨first, hfind⟩ : ∃ first, (snapshotParents s predecessorId successorId
      predecessor).find? (·.id == id) = some first :=
    Option.isSome_iff_exists.mp (List.find?_isSome.mpr ⟨entry, he, by simpa using heq⟩)
  exact ⟨first, List.mem_of_find?_eq_some hfind, by simpa using List.find?_some hfind, hfind⟩

theorem restore_run
    : restoreExistingMaintenanceLink env' predecessorId successorId t
      = each (restoreParent env' successorId)
          (snapshotParents s predecessorId successorId predecessor) t >>= fun y => pure
        ((({ y with
              history := y.history.filter (fun id _ => !(adoptionSnapshot s predecessorId
                successorId predecessor successor r.history).addedHistoryIds.contains id) }
            : Store).modifyLicense successorId (·.withSavedParent (adoptionSnapshot s predecessorId
                successorId predecessor successor r.history))).modifyLicense predecessorId
              (·.withoutSnapshot)) := by
  unfold restoreExistingMaintenanceLink
  rw [saved_snapshot h hm]
  rfl

/-- A reversible adoption of a maintenance record gives coverage back. -/
theorem coverageRestored_of_maintenance (hu : env'.unicode = env.unicode)
    (hr : LinkReversible env env' s predecessorId successorId predecessor successor)
    : ∃ x, restoreExistingMaintenanceLink env' predecessorId successorId t = .ok x
        ∧ CoverageRestored env s x predecessorId successorId predecessor successor
            r.chainRef := by
  have hne := h.candidate.distinct
  have hreversible : ∀ entry ∈ snapshotParents s predecessorId successorId predecessor,
      ∀ parent, s.license? entry.id = some parent
        → ParentReversible env env' s successorId entry.id parent.toMaintenanceMirror :=
    fun entry he => hr.parents _ ((snapshotParents_ids successorId hm).mp ⟨entry, he, rfl⟩)
  have heach := restoreAll_eq env' successorId
    (snapshotParents_nodup s predecessorId successorId predecessor) (s := t) (by
      intro entry he
      obtain ⟨parent, hp, hrow⟩ := snapshot_row h hm he
      have hrev := hreversible entry he parent hp
      obtain ⟨hchecks, -⟩ := (parent_restored_iff h hu he hp rfl hrow).mpr hrev
      refine ⟨_, hchecks, ?_⟩
      rcases hrev with ⟨hc, -⟩ | ⟨-, hc, hkept, -⟩
      · left
        unfold License.hasActive
        rw [License.withMirror_mirror, Store.recomputedMirror_active, hc]
        exact beq_self_eq_true _
      · right
        unfold Store.chosenRecord at hkept ⊢
        rw [h.candidates he, License.withMirror_mirror, Store.recomputedMirror_active, hc]
        exact hkept)
  rw [restore_run h hm, heach]
  refine ⟨_, rfl, ?_⟩
  have hrows : ∀ id, ((t.licenses.mapRows (restoredRows env' t successorId
        (snapshotParents s predecessorId successorId predecessor))).get? id)
      = (t.license? id).map (restoredRows env' t successorId
        (snapshotParents s predecessorId successorId predecessor) id) :=
    fun id => Table.get?_mapRows _ _ _
  have houtside : ∀ id, id ∉ adoptionParents s predecessorId predecessor → ∀ l,
      restoredRows env' t successorId
        (snapshotParents s predecessorId successorId predecessor) id l = l := by
    intro id hid l
    have hnone : (snapshotParents s predecessorId successorId predecessor).find? (·.id == id)
        = none :=
      List.find?_eq_none.mpr fun entry he heq =>
        hid ((snapshotParents_ids successorId hm).mp ⟨entry, he, by simpa using heq⟩)
    simp [restoredRows, hnone]
  have hinside : ∀ id ∈ adoptionParents s predecessorId predecessor,
      (t.license? id).map (restoredRows env' t successorId
        (snapshotParents s predecessorId successorId predecessor) id) = s.license? id := by
    intro id hid
    obtain ⟨entry, he, rfl, hfind⟩ := snapshot_find hm successorId hid
    obtain ⟨parent, hp, hrow⟩ := snapshot_row h hm he
    obtain ⟨-, hmirror⟩ := (parent_restored_iff h hu he hp rfl hrow).mpr
      (hreversible entry he parent hp)
    simp [hrow, hp, restoredRows, hfind, hmirror]
  refine ⟨?_, ?_, fun id hip hiq => ?_, h.links_restored hm, ?_⟩
  · rw [Store.license?_modifyLicense, Store.license?_modifyLicense, Store.license?, hrows,
      h.predecessor_row]
    simp [Ne.symm hne, houtside _ h.predecessor_notMem, License.withoutSnapshot,
      License.asPredecessor]
  · rw [Store.license?_modifyLicense, Store.license?_modifyLicense, Store.license?, hrows,
      h.successor_row]
    simp [hne, houtside _ h.successor_notMem, License.withSavedParent, License.activatedFor,
      License.asSuccessor, adoptionSnapshot]
  · rw [Store.license?_modifyLicense, Store.license?_modifyLicense, Store.license?, hrows]
    by_cases hid : id ∈ adoptionParents s predecessorId predecessor
    · rw [hinside id hid]
      simp [hip, hiq]
    · rw [h.row id]
      cases s.license? id <;> simp [adoptedRow, hip, hiq, hid, houtside id hid]
  · have hhistory : t.history = r.history := by rw [h.result]; rfl
    simp only [Store.modifyLicense]
    rw [hhistory]
    exact h.history_restored hm

theorem parents_reversible (hu : env'.unicode = env.unicode)
    (hx : restoreExistingMaintenanceLink env' predecessorId successorId t = .ok x)
    (hback : (x.undone predecessorId successorId successor.licenseRef).licenses = s.licenses)
    {id : Nat} (hid : id ∈ adoptionParents s predecessorId predecessor) {parent : License}
    (hp : s.license? id = some parent)
    : ParentReversible env env' s successorId id parent.toMaintenanceMirror := by
  rw [restore_run h hm] at hx
  simp only [bind_eq_ok, pure_eq_ok] at hx
  obtain ⟨y, heach, rfl⟩ := hx
  obtain ⟨hchecks, history, rfl⟩ :=
    restoreAll_ok (snapshotParents_nodup s predecessorId successorId predecessor) heach
  have hip : id ≠ predecessorId := fun he => h.predecessor_notMem (he ▸ hid)
  have hiq : id ≠ successorId := fun he => h.successor_notMem (he ▸ hid)
  obtain ⟨entry, he, rfl, hfind⟩ := snapshot_find hm successorId hid
  obtain ⟨parent', hp', hrow⟩ := snapshot_row h hm he
  obtain rfl := Option.some.inj (hp.symm.trans hp')
  obtain ⟨row, hcheck⟩ := hchecks entry he
  obtain rfl := Option.some.inj (hrow.symm.trans hcheck.found)
  refine (parent_restored_iff h hu he hp rfl hrow).mp ⟨hcheck, ?_⟩
  have hfinal := congrArg (Table.get? · entry.id) hback
  change Store.license? (Store.undone _ predecessorId successorId _) entry.id
    = s.license? entry.id at hfinal
  rw [hp, Store.undone, Store.license?_modifyLicense, Store.license?_modifyLicense,
    Store.license?_modifyLicense, Store.license?_modifyLicense] at hfinal
  have hmapped : Option.map (restoredRows env' t successorId
      (snapshotParents s predecessorId successorId predecessor) entry.id)
        (t.license? entry.id) = some parent := by
    simpa [hip, hiq, Store.license?] using hfinal
  rw [hrow] at hmapped
  have := congrArg License.toMaintenanceMirror (Option.some.inj hmapped)
  simpa [restoredRows, hfind] using this

end Maintenance

end Undoing

-- The round trip

/-- Undoing an adoption right after it succeeds and gives the licences, the links and the
coverage history back exactly when the adoption is reversible.
-/
theorem unlink_after_link_iff {env env' : Env} {s t : Store} {predecessorId successorId : Nat}
    {predecessor successor : License} (hu : env'.unicode = env.unicode) (hs : s.Constraints)
    (hp : s.license? predecessorId = some predecessor)
    (hq : s.license? successorId = some successor)
    (hlink : linkExistingSuccessor env predecessorId successorId s = .ok t)
    : (∃ u, unlinkExistingSuccessor env' predecessorId t = .ok u ∧ Restored s u)
      ↔ LinkReversible env env' s predecessorId successorId predecessor successor := by
  obtain ⟨predecessor', successor', r, h⟩ := linkExistingSuccessor_ok hlink
  obtain rfl := Option.some.inj (hp.symm.trans h.foundPredecessor)
  obtain rfl := Option.some.inj (hq.symm.trans h.foundSuccessor)
  rw [unlink_run h]
  constructor
  · rintro ⟨u, hunlink, hrestored⟩
    obtain ⟨x, hx, hflush⟩ := bind_eq_ok.mp hunlink
    obtain ⟨rfl, -⟩ := flush_eq_ok.mp hflush
    obtain ⟨⟨hat, hby, hformer, hstate⟩, href⟩ := rows_reversible h hx hrestored.licenses
    refine ⟨hat, hby, hformer, hstate, href, fun id hid parent hparent => ?_⟩
    have hm : predecessor.licenseType = .maintenance := by
      by_contra hm
      simp [adoptionParents, hm] at hid
    exact parents_reversible h hm hu hx hrestored.licenses hid hparent
  · intro hr
    by_cases hm : predecessor.licenseType = .maintenance
    · obtain ⟨x, hx, hcoverage⟩ := coverageRestored_of_maintenance h hm hu hr
      rw [hx]
      exact hcoverage.undo h hr hs
    · have hcoverage := coverageRestored_of_other h hm hr.state
      have hnone : restoreExistingMaintenanceLink env' predecessorId successorId t = .ok t := by
        unfold restoreExistingMaintenanceLink
        rw [h.predecessor_row]
        simp [License.asPredecessor, h.noState hm hr.state]
      rw [hnone]
      exact hcoverage.undo h hr hs

/-- A maintenance record of the sample store. -/
def yearlySupport (startDate endDate : Date) (ref : String) : License :=
  { License.ofTerm .maintenance (some startDate) (some endDate) with
    parentLicenseId := some 1, licenseRef := some ref }

/-- A perpetual licence with maintenance records for three years, the first one active. -/
def threeYears : Store where
  licenses :=
    (((Table.empty.insert
      ((License.ofTerm .perpetual (some 1) none).withMirror
        (mirrorOf .ascii 2 (yearlySupport 1 100 "LT-2026-00002")))).insert
      (yearlySupport 1 100 "LT-2026-00002")).insert
      (yearlySupport 101 200 "LT-2026-00003")).insert
      (yearlySupport 201 300 "LT-2026-00004")
  links := [⟨2, 1⟩, ⟨3, 1⟩, ⟨4, 1⟩]

/-- Within the first year, adopting the third record for the first one leaves no trace. -/
theorem unlink_after_link_threeYears
    : ∃ t, linkExistingSuccessor (.onDay 90) 2 4 threeYears = .ok t
        ∧ ∃ u, unlinkExistingSuccessor (.onDay 90) 2 t = .ok u ∧ Restored threeYears u := by
  obtain ⟨t, ht⟩ : ∃ t, linkExistingSuccessor (.onDay 90) 2 4 threeYears = .ok t :=
    exists_ok (by decide)
  refine ⟨t, ht, (unlink_after_link_iff rfl ?_ rfl rfl ht).mpr ?_⟩
  · exact Store.violated?_eq_none.mp (by decide)
  · refine ⟨rfl, rfl, rfl, rfl, ⟨_, rfl, by decide⟩, fun id hid parent hp => ?_⟩
    have hparents : adoptionParents threeYears 2 (yearlySupport 1 100 "LT-2026-00002") = [1] := by
      decide
    rw [hparents, List.mem_singleton] at hid
    subst hid
    obtain rfl := Option.some.inj hp
    exact .inr ⟨by decide, by decide, by decide, by decide⟩

/-- Once the second year has begun and the daily hand-over has not run yet, the adoption makes
the second record active, and undoing is refused.
-/
theorem unlink_refused_threeYears
    : (linkExistingSuccessor (.onDay 105) 2 4 threeYears).isOk = true
      ∧ ¬ ∃ u, (linkExistingSuccessor (.onDay 105) 2 4 threeYears
          >>= unlinkExistingSuccessor (.onDay 105) 2) = .ok u ∧ Restored threeYears u := by
  refine ⟨by decide, ?_⟩
  rintro ⟨u, hu, -⟩
  have hfails : (linkExistingSuccessor (.onDay 105) 2 4 threeYears
      >>= unlinkExistingSuccessor (.onDay 105) 2).isOk = false := by decide
  rw [hu] at hfails
  cases hfails

end LicenseTrack
