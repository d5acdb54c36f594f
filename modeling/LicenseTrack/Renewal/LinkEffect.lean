import LicenseTrack.Maintenance.Effects
import LicenseTrack.Services.ExistingSuccessor

/-! What adopting an existing successor does to the store, written as one update. -/

namespace LicenseTrack

open Library

/-- The parents that an adoption activates the successor for. -/
def adoptionParents (s : Store) (predecessorId : Nat) (predecessor : License) : List Nat :=
  if predecessor.licenseType = .maintenance then
    (activationParentIds s predecessorId predecessor).filter (fun id => (s.license? id).isSome)
  else []

/-- The parts of an adoption's result that do not follow from the two rows alone. -/
structure AdoptionRecord where
  chainRef : String
  sequence : Nat
  history : Table CoverageHistory
  state : Option MaintenanceLinkSnapshot

/-- A predecessor after its adoption of a successor. -/
def License.asPredecessor (env : Env) (successorId : Nat) (formerRef : Option String)
    (state : Option MaintenanceLinkSnapshot) (l : License)
    : License :=
  { l with
    lifecycleStatus := some .renewed
    renewedToId := some successorId
    existingSuccessorLinkedAt := some env.now
    existingSuccessorLinkedByEmail := some env.actorEmail
    existingSuccessorOriginalRef := formerRef
    existingSuccessorMaintenanceState := state }

/-- A successor after its adoption, without its relation to parents. -/
def License.asSuccessor (predecessorId : Nat) (chainRef : String) (l : License) : License :=
  { l with
    renewedFromId := some predecessorId
    predecessorId := some predecessorId
    licenseRef := some chainRef
    licenseRefAliases := aliasesAfterLink l.licenseRefAliases l.licenseRef chainRef }

/-- The rows after an adoption. -/
def adoptedRow (env : Env) (s : Store) (predecessorId successorId : Nat)
    (formerRef : Option String) (parents : List Nat) (r : AdoptionRecord) (id : Nat) (l : License)
    : License :=
  if id = predecessorId then l.asPredecessor env successorId formerRef r.state
  else if id = successorId then (l.asSuccessor predecessorId r.chainRef).activatedFor parents
  else if id ∈ parents then
    l.withMirror ((s.withLink successorId id).recomputedMirror env id l.toMaintenanceMirror)
  else l

/-- The store after an adoption. -/
def adoptedStore (env : Env) (s : Store) (predecessorId successorId : Nat)
    (formerRef : Option String) (parents : List Nat) (r : AdoptionRecord)
    : Store :=
  { s with
    licenses := s.licenses.mapRows
      (adoptedRow env s predecessorId successorId formerRef parents r)
    links := linkAll successorId parents s.links
    history := r.history
    licenseRefSequence := r.sequence }

/-- The parents as the snapshot of an adoption lists them. -/
def snapshotParents (s : Store) (predecessorId successorId : Nat) (predecessor : License)
    : List ParentSnapshot :=
  (s.licenses.filter
      (fun id _ => (snapshotParentIds s predecessorId predecessor).contains id)).entries.map
    (fun entry => ParentSnapshot.mk entry.1 (!(s.linkedParents successorId).contains entry.1)
      entry.2.toMaintenanceMirror)

/-- The snapshot that an adoption leaves on a maintenance predecessor. -/
def adoptionSnapshot (s : Store) (predecessorId successorId : Nat) (predecessor successor : License)
    (history : Table CoverageHistory)
    : MaintenanceLinkSnapshot where
  parents := snapshotParents s predecessorId successorId predecessor
  primary := successor.parentLicenseId
  legacy := successor.isLegacyUnlinkedMaintenance
  addedHistoryIds :=
    (historyOf { s with history := history }
        ((snapshotParents s predecessorId successorId predecessor).map (·.id))).filter
      (fun id =>
        !(historyOf s (snapshotParentIds s predecessorId predecessor)).contains id)

theorem map_filter_entries_mapRows {β : Type} (t : Table License) (p : Nat → Bool)
    (f : Nat → License → License) (g : Nat → MaintenanceMirror → β)
    (hf : ∀ id l, (f id l).toMaintenanceMirror = l.toMaintenanceMirror)
    : ((t.mapRows f).filter (fun id _ => p id)).entries.map
          (fun entry => g entry.1 entry.2.toMaintenanceMirror)
      = (t.filter (fun id _ => p id)).entries.map
          (fun entry => g entry.1 entry.2.toMaintenanceMirror) := by
  simp only [Table.filter, Table.mapRows, List.filter_map, List.map_map, Function.comp_def, hf]

-- Inversion

/-- What a candidate check that passed says about the two licences, as far as the links need
it.
-/
structure CandidateFacts (predecessorId successorId : Nat) (predecessor successor : License)
    : Prop where
  distinct : successorId ≠ predecessorId
  lifecycle : predecessor.lifecycleStatus = none
  renewedTo : predecessor.renewedToId = none
  successorLifecycle : successor.lifecycleStatus = none
  renewedFrom : successor.renewedFromId = none
  predecessorId : successor.predecessorId = none
  coterm : successor.cotermIds = []
  successorRenewedTo : successor.renewedToId = none
  maintenance : predecessor.licenseType = .maintenance → successor.licenseType = .maintenance

theorem assertExistingSuccessorCandidate_ok {env : Env} {predecessorId successorId : Nat}
    {predecessor successor : License}
    (h : assertExistingSuccessorCandidate env predecessorId successorId predecessor successor
      = .ok ⟨⟩)
    : CandidateFacts predecessorId successorId predecessor successor := by
  simp only [assertExistingSuccessorCandidate, assertPredecessorHasNoSuccessor, bind_eq_ok,
    require_eq_ok, not_or, not_not] at h
  obtain ⟨-, -, -, ⟨-, -, hlife⟩, -, -, -, hto, -, hne, -, ⟨-, -, hslife⟩, -,
    ⟨hfrom, hpred, hcot⟩, -, hsto, -, -, -, hm, -⟩ := h
  exact {
    distinct := hne
    lifecycle := hlife
    renewedTo := by simpa using hto
    successorLifecycle := hslife
    renewedFrom := hfrom
    predecessorId := hpred
    coterm := hcot
    successorRenewedTo := hsto
    maintenance := fun ht => by simpa using fun hs => hm ⟨ht, hs⟩
  }

theorem chainReference_eq (env : Env) (ref : Option String) (s : Store)
    : ∃ chainRef n, chainReference env ref s = (chainRef, { s with licenseRefSequence := n })
        ∧ chainRef ≠ "" ∧ ∀ old, truthy ref = some old → chainRef = old := by
  unfold chainReference
  rcases hr : truthy ref with _ | old
  · exact ⟨_, _, rfl, generateLicenseRef_ne env s, by simp⟩
  · refine ⟨old, s.licenseRefSequence, rfl, ?_, by simp⟩
    unfold truthy at hr
    simpa using (Option.filter_eq_some_iff.mp hr).2

/-- The rows once both ends of the chain are written and before coverage is. -/
def chainedRow (env : Env) (predecessorId successorId : Nat) (formerRef : Option String)
    (chainRef : String) (state : Option MaintenanceLinkSnapshot) (id : Nat) (l : License)
    : License :=
  if id = predecessorId then l.asPredecessor env successorId formerRef state
  else if id = successorId then l.asSuccessor predecessorId chainRef
  else l

/-- The store once both ends of the chain are written. -/
def chainedStore (env : Env) (s : Store) (predecessorId successorId : Nat)
    (formerRef : Option String) (chainRef : String) (state : Option MaintenanceLinkSnapshot)
    (n : Nat)
    : Store :=
  { s with
    licenses := s.licenses.mapRows
      (chainedRow env predecessorId successorId formerRef chainRef state)
    licenseRefSequence := n }

section Chained

variable {env : Env} {s : Store} {predecessorId successorId : Nat}
  {predecessor successor : License} {chainRef : String} {n : Nat}
  {state : Option MaintenanceLinkSnapshot}

theorem chainSteps_eq (hne : successorId ≠ predecessorId)
    (hp : s.license? predecessorId = some predecessor)
    (hs : s.license? successorId = some successor)
    : ((({ (s.modifyLicense successorId (fun l =>
            { l with renewedFromId := some predecessorId, predecessorId := some predecessorId })
          ).modifyLicense predecessorId (fun l =>
            { l with lifecycleStatus := some .pendingRenewal })
        with licenseRefSequence := n }).modifyLicense predecessorId (fun l =>
            { l with lifecycleStatus := some .renewed, renewedToId := some successorId })
          ).modifyLicense predecessorId (fun l =>
            { l with
              existingSuccessorLinkedAt := some env.now
              existingSuccessorLinkedByEmail := some env.actorEmail
              existingSuccessorOriginalRef := successor.licenseRef })
          ).modifyLicense successorId (fun l =>
            { l with
              renewedFromId := some predecessorId
              predecessorId := some predecessorId
              licenseRef := some chainRef
              licenseRefAliases :=
                aliasesAfterLink successor.licenseRefAliases successor.licenseRef chainRef })
      = chainedStore env s predecessorId successorId successor.licenseRef chainRef
          predecessor.existingSuccessorMaintenanceState n := by
  simp only [Store.modifyLicense, chainedStore]
  congr 1
  ext id : 1
  simp only [Table.get?_modify, Table.get?_mapRows, Option.map_map]
  rcases hid : s.licenses.get? id with _ | l
  · rfl
  · simp only [Option.map_some, Function.comp, Option.some.injEq, chainedRow]
    by_cases hip : id = predecessorId
    · subst hip
      obtain rfl : l = predecessor := Option.some.inj (hid.symm.trans hp)
      simp [Ne.symm hne, License.asPredecessor]
    · by_cases hq : id = successorId
      · subst hq
        obtain rfl : l = successor := Option.some.inj (hid.symm.trans hs)
        simp [hip, License.asSuccessor]
      · simp [hip, hq]

theorem chainedRow_keeps (formerRef : Option String) (id : Nat) (l : License)
    : (chainedRow env predecessorId successorId formerRef chainRef state id
          l).toMaintenanceMirror = l.toMaintenanceMirror
      ∧ (chainedRow env predecessorId successorId formerRef chainRef state id
          l).supportRecord = l.supportRecord := by
  unfold chainedRow
  split
  · exact ⟨rfl, rfl⟩
  · split <;> exact ⟨rfl, rfl⟩

theorem chainedStore_predecessor (hp : s.license? predecessorId = some predecessor)
    : (chainedStore env s predecessorId successorId successor.licenseRef chainRef state
          n).license? predecessorId
      = some (predecessor.asPredecessor env successorId successor.licenseRef state) := by
  have : s.licenses.get? predecessorId = some predecessor := hp
  simp [chainedStore, Store.license?, this, chainedRow]

theorem chainedStore_successor (hne : successorId ≠ predecessorId)
    (hq : s.license? successorId = some successor)
    : (chainedStore env s predecessorId successorId successor.licenseRef chainRef state
          n).license? successorId
      = some (successor.asSuccessor predecessorId chainRef) := by
  have : s.licenses.get? successorId = some successor := hq
  simp [chainedStore, Store.license?, this, chainedRow, hne]

theorem chainedStore_modify (state state' : Option MaintenanceLinkSnapshot)
    : (chainedStore env s predecessorId successorId successor.licenseRef chainRef state
          n).modifyLicense predecessorId (fun l =>
            { l with existingSuccessorMaintenanceState := state' })
      = chainedStore env s predecessorId successorId successor.licenseRef chainRef state' n := by
  simp only [chainedStore, Store.modifyLicense]
  congr 1
  ext id : 1
  simp only [Table.get?_modify, Table.get?_mapRows, Option.map_map]
  congr 1
  funext l
  by_cases hip : id = predecessorId <;> simp [chainedRow, hip, License.asPredecessor]

/-- The snapshot before coverage changes, still with the history rows that existed. -/
def openSnapshot (s : Store) (predecessorId successorId : Nat) (predecessor successor : License)
    : MaintenanceLinkSnapshot where
  historyBefore := some (historyOf s (snapshotParentIds s predecessorId predecessor))
  parents := snapshotParents s predecessorId successorId predecessor
  primary := successor.parentLicenseId
  legacy := successor.isLegacyUnlinkedMaintenance

theorem snapshotExistingMaintenanceLink_eq (hne : successorId ≠ predecessorId)
    (hp : s.license? predecessorId = some predecessor)
    (hq : s.license? successorId = some successor)
    : snapshotExistingMaintenanceLink predecessorId successorId
        (chainedStore env s predecessorId successorId successor.licenseRef chainRef state n)
      = chainedStore env s predecessorId successorId successor.licenseRef chainRef
          (if predecessor.licenseType = .maintenance then
            some (openSnapshot s predecessorId successorId predecessor successor)
          else state) n := by
  unfold snapshotExistingMaintenanceLink
  rw [chainedStore_predecessor hp, chainedStore_successor hne hq]
  have hparents : ((chainedStore env s predecessorId successorId successor.licenseRef chainRef
        state n).licenses.filter (fun id _ =>
          (snapshotParentIds s predecessorId predecessor).contains id)).entries.map
            (fun entry => ParentSnapshot.mk entry.1
              (!(s.linkedParents successorId).contains entry.1) entry.2.toMaintenanceMirror)
      = snapshotParents s predecessorId successorId predecessor :=
    map_filter_entries_mapRows s.licenses _ _
      (fun id m => ParentSnapshot.mk id (!(s.linkedParents successorId).contains id) m)
      (fun id l => (chainedRow_keeps _ id l).1)
  by_cases hm : predecessor.licenseType = .maintenance
  · have hm' : (predecessor.asPredecessor env successorId successor.licenseRef
        state).licenseType = .maintenance := hm
    simp only [hm, hm', ne_eq, not_true_eq_false, if_false, if_true]
    refine Eq.trans ?_ (chainedStore_modify state
      (some (openSnapshot s predecessorId successorId predecessor successor)))
    rw [openSnapshot, ← hparents]
    rfl
  · have hm' : (predecessor.asPredecessor env successorId successor.licenseRef
        state).licenseType ≠ .maintenance := hm
    simp [hm, hm']

end Chained

/-- What a successful adoption requires and does. -/
structure Adoption (env : Env) (s t : Store) (predecessorId successorId : Nat)
    (predecessor successor : License) (r : AdoptionRecord)
    : Prop where
  foundPredecessor : s.license? predecessorId = some predecessor
  foundSuccessor : s.license? successorId = some successor
  candidate : CandidateFacts predecessorId successorId predecessor successor
  chainRef : r.chainRef ≠ ""
  chainRefKept : ∀ old, truthy predecessor.licenseRef = some old → r.chainRef = old
  result : t = adoptedStore env s predecessorId successorId successor.licenseRef
    (adoptionParents s predecessorId predecessor) r
  constraints : t.Constraints
  history : HistoryGrows (· ∈ adoptionParents s predecessorId predecessor) s.history r.history
  parents : ∀ id ∈ adoptionParents s predecessorId predecessor,
    ∃ parent, s.license? id = some parent ∧ parent.licenseType.isMaintenanceParent = true
  live : adoptionParents s predecessorId predecessor ≠ []
    → successor.isLiveMaintenance = true
  state : predecessor.licenseType = .maintenance
    → r.state = some (adoptionSnapshot s predecessorId successorId predecessor successor r.history)
  noState : predecessor.licenseType ≠ .maintenance
    → predecessor.existingSuccessorMaintenanceState = none → r.state = none

theorem adoptionParents_congr {s t : Store} {predecessorId : Nat} {a b : License}
    (hlinks : t.links = s.links) (hrows : ∀ id, (t.license? id).isSome = (s.license? id).isSome)
    (hparent : b.parentLicenseId = a.parentLicenseId) (htype : b.licenseType = a.licenseType)
    : adoptionParents t predecessorId b = adoptionParents s predecessorId a := by
  unfold adoptionParents activationParentIds Store.linkedParents
  rw [hlinks, hparent, htype]
  simp only [hrows]

theorem adoptionParents_nodup (s : Store) (predecessorId : Nat) (predecessor : License)
    : (adoptionParents s predecessorId predecessor).Nodup := by
  unfold adoptionParents activationParentIds
  split
  · refine List.Nodup.filter _ ?_
    refine List.Nodup.append (by cases predecessor.parentLicenseId <;> simp) ?_ ?_
    · exact (List.perm_insertionSort _ _).nodup_iff.mpr
        ((List.nodup_dedup _).filter _)
    · intro id hid hsorted
      have hm := (List.perm_insertionSort _ _).mem_iff.mp hsorted
      have hpar : predecessor.parentLicenseId = some id := by
        cases hp : predecessor.parentLicenseId <;> simp_all
      simpa [hpar] using (List.mem_filter.mp hm).2
  · exact List.nodup_nil

theorem activateForAllParents_ok {env : Env} {predecessorId successorId : Nat} {s t : Store}
    {predecessor : License} (hp : s.license? predecessorId = some predecessor)
    (h : activateMaintenanceSuccessorForAllParents env predecessorId successorId s = .ok t)
    : each (fun p => activateMaintenanceForParent env successorId p)
        (adoptionParents s predecessorId predecessor) s = .ok t := by
  unfold activateMaintenanceSuccessorForAllParents at h
  rw [hp] at h
  unfold adoptionParents
  by_cases hm : predecessor.licenseType = .maintenance
  · simpa [hm] using h
  · simpa [hm, each] using h

/-- A successful adoption, as one update of the store. -/
theorem linkExistingSuccessor_ok {env : Env} {predecessorId successorId : Nat} {s t : Store}
    (h : linkExistingSuccessor env predecessorId successorId s = .ok t)
    : ∃ predecessor successor r,
        Adoption env s t predecessorId successorId predecessor successor r := by
  simp only [linkExistingSuccessor, bind_eq_ok, found_eq_ok] at h
  obtain ⟨predecessor, hp, successor, hq, ⟨⟩, hcand, s₁, hreserve, h⟩ := h
  have facts := assertExistingSuccessorCandidate_ok hcand
  have hne := facts.distinct
  simp only [reserveExistingSuccessorLink, bind_eq_ok, found_eq_ok, require_eq_ok,
    pure_eq_ok] at hreserve
  obtain ⟨-, -, -, -, -, -, -, -, rfl⟩ := hreserve
  obtain ⟨chainRef, n, hchain, hblank, hkept⟩ := chainReference_eq env predecessor.licenseRef
    ((s.modifyLicense successorId (fun l =>
        { l with renewedFromId := some predecessorId, predecessorId := some predecessorId })
      ).modifyLicense predecessorId (fun l => { l with lifecycleStatus := some .pendingRenewal }))
  rw [hchain] at h
  clear hchain
  simp only [markPredecessorRenewed, bind_eq_ok, found_eq_ok, require_eq_ok, pure_eq_ok,
    assertPredecessorHasNoSuccessor] at h
  obtain ⟨-, ⟨-, -, -, -, rfl⟩, s₃, hactivate, s₄, hfinish, hflush⟩ := h
  rw [chainSteps_eq hne hp hq, snapshotExistingMaintenanceLink_eq hne hp hq] at hactivate
  generalize hst : (if predecessor.licenseType = .maintenance then
      some (openSnapshot s predecessorId successorId predecessor successor)
    else predecessor.existingSuccessorMaintenanceState) = state at hactivate
  have hrows : ∀ id, ((chainedStore env s predecessorId successorId successor.licenseRef chainRef
      state n).license? id).isSome = (s.license? id).isSome := fun id => by
    simp [chainedStore, Store.license?]
  have hsame : SameRecords s (chainedStore env s predecessorId successorId successor.licenseRef
      chainRef state n) :=
    Table.Agrees.of_mapRows fun id l => (chainedRow_keeps _ id l).2
  have heach := activateForAllParents_ok (chainedStore_predecessor hp) hactivate
  have hadoption : adoptionParents (chainedStore env s predecessorId successorId
        successor.licenseRef chainRef state n) predecessorId
        (predecessor.asPredecessor env successorId successor.licenseRef state)
      = adoptionParents s predecessorId predecessor :=
    adoptionParents_congr rfl hrows rfl rfl
  rw [hadoption] at heach
  obtain ⟨hparents, hlive, history, rfl, hgrows⟩ :=
    activateAll_ok (adoptionParents_nodup s predecessorId predecessor) heach
  have heligible : ∀ id ∈ adoptionParents s predecessorId predecessor, ∃ parent,
      s.license? id = some parent ∧ parent.licenseType.isMaintenanceParent = true := by
    intro id hid
    obtain ⟨row, hrow, he⟩ := hparents id hid
    obtain ⟨old, hold, hv⟩ := Table.Agrees.back hsame hrow
    have hterms : row.toLicenseTerms = old.toLicenseTerms := congrArg Prod.fst hv
    exact ⟨old, hold, by rw [← hterms]; exact he⟩
  have hpm : predecessorId ∉ adoptionParents s predecessorId predecessor := by
    intro hm
    obtain ⟨parent, hpar, he⟩ := heligible _ hm
    obtain rfl := Option.some.inj (hp.symm.trans hpar)
    unfold adoptionParents at hm
    split at hm
    · next ht =>
        rw [ht] at he
        cases he
    · simp at hm
  have hmerge : ∀ state', (chainedStore env s predecessorId successorId successor.licenseRef
        chainRef state' n).licenses.mapRows (activatedRows env
          (chainedStore env s predecessorId successorId successor.licenseRef chainRef state n)
          successorId (adoptionParents s predecessorId predecessor))
      = s.licenses.mapRows (adoptedRow env s predecessorId successorId successor.licenseRef
          (adoptionParents s predecessorId predecessor)
          ⟨chainRef, n, history, state'⟩) := by
    intro state'
    simp only [chainedStore, Table.mapRows_mapRows]
    congr 1
    funext id l
    simp only [chainedRow, activatedRows, adoptedRow]
    by_cases hip : id = predecessorId
    · subst hip
      simp [Ne.symm hne, hpm]
    · by_cases hiq : id = successorId
      · simp [hiq, hne]
      · by_cases hm : id ∈ adoptionParents s predecessorId predecessor
        · have hrecords : SameRecords (s.withLink successorId id)
              ((chainedStore env s predecessorId successorId successor.licenseRef chainRef state
                n).withLink successorId id) := hsame
          simp only [hip, hiq, hm, if_true, if_false]
          rw [← hrecords.recomputedMirror rfl]
          rfl
        · simp [hip, hiq, hm]
  have hresnapshot : ∀ state', (s.licenses.mapRows (adoptedRow env s predecessorId successorId
        successor.licenseRef (adoptionParents s predecessorId predecessor)
        ⟨chainRef, n, history, state⟩)).modify predecessorId (fun l =>
          { l with existingSuccessorMaintenanceState := state' })
      = s.licenses.mapRows (adoptedRow env s predecessorId successorId successor.licenseRef
          (adoptionParents s predecessorId predecessor) ⟨chainRef, n, history, state'⟩) := by
    intro state'
    ext id : 1
    simp only [Table.get?_modify, Table.get?_mapRows, Option.map_map]
    congr 1
    funext l
    by_cases hip : id = predecessorId <;> simp [adoptedRow, hip, License.asPredecessor]
  have hstate : (({ chainedStore env s predecessorId successorId successor.licenseRef chainRef
        state n with
          licenses := (chainedStore env s predecessorId successorId successor.licenseRef chainRef
            state n).licenses.mapRows (activatedRows env (chainedStore env s predecessorId
              successorId successor.licenseRef chainRef state n) successorId
              (adoptionParents s predecessorId predecessor))
          links := linkAll successorId (adoptionParents s predecessorId predecessor)
            (chainedStore env s predecessorId successorId successor.licenseRef chainRef state
              n).links
          history := history } : Store).license? predecessorId).bind
        (·.existingSuccessorMaintenanceState) = state := by
    have : s.licenses.get? predecessorId = some predecessor := hp
    rw [hmerge]
    simp [Store.license?, this, adoptedRow, License.asPredecessor]
  have build : ∀ r : AdoptionRecord, r.chainRef = chainRef → r.history = history
      → t = adoptedStore env s predecessorId successorId successor.licenseRef
          (adoptionParents s predecessorId predecessor) r
      → t.Constraints
      → (predecessor.licenseType = .maintenance → r.state
          = some (adoptionSnapshot s predecessorId successorId predecessor successor history))
      → (predecessor.licenseType ≠ .maintenance
          → predecessor.existingSuccessorMaintenanceState = none → r.state = none)
      → Adoption env s t predecessorId successorId predecessor successor r := by
    rintro r rfl rfl ht hc hm hs
    exact {
      foundPredecessor := hp
      foundSuccessor := hq
      candidate := facts
      chainRef := hblank
      chainRefKept := hkept
      result := ht
      constraints := hc
      history := hgrows
      parents := heligible
      live := fun hn => by
        obtain ⟨record, hr, hl⟩ := hlive hn
        obtain rfl := Option.some.inj (hr.symm.trans (chainedStore_successor hne hq))
        exact hl
      state := hm
      noState := hs
    }
  unfold finishExistingMaintenanceSnapshot at hfinish
  rw [hstate] at hfinish
  rcases state with _ | snapshot
  · obtain rfl := Except.ok.inj hfinish
    obtain ⟨rfl, hc⟩ := flush_eq_ok.mp hflush
    refine ⟨predecessor, successor, ⟨chainRef, n, history, none⟩, build _ rfl rfl ?_ hc ?_ ?_⟩
    · rw [hmerge]
      rfl
    · intro hm
      simp [hm] at hst
    · exact fun _ _ => rfl
  · simp only [bind_eq_ok, flush_eq_ok, found_eq_ok, pure_eq_ok] at hfinish
    obtain ⟨_, ⟨rfl, -⟩, before, hbefore, rfl⟩ := hfinish
    obtain ⟨rfl, hc⟩ := flush_eq_ok.mp hflush
    let final : MaintenanceLinkSnapshot :=
      { snapshot with
        historyBefore := none
        addedHistoryIds :=
          (historyOf { s with history := history } (snapshot.parents.map (·.id))).filter
            (fun id => !before.contains id) }
    refine ⟨predecessor, successor, ⟨chainRef, n, history, some final⟩,
      build _ rfl rfl ?_ hc ?_ ?_⟩
    · simp only [Store.modifyLicense]
      rw [hmerge, hresnapshot]
      rfl
    · intro hm
      obtain rfl : openSnapshot s predecessorId successorId predecessor successor = snapshot := by
        simpa [hm] using hst
      obtain rfl := Option.some.inj hbefore
      rfl
    · intro hm hs
      simp [hm, hs] at hst

end LicenseTrack
