import LicenseTrack.Maintenance.CoverageRule
import LicenseTrack.Services.LicenseUpdate

/-! What the maintenance operations leave a parent's coverage, and when its active record is the
one that the rule picks.
-/

namespace LicenseTrack

open Library

/-- An operation on one maintenance record. -/
inductive SupportOperation
  /-- A record is added to a parent. -/
  | add (maintenanceId parentId : Nat)
  /-- An update writes the term, the retirement and, where it mentions it, the parent. -/
  | update (maintenanceId : Nat) (startDate endDate : Option Date) (isRetired : Bool)
      (requested : Option (Option Nat))
  /-- A record is detached from a parent. -/
  | detach (maintenanceId parentId : Nat)
  /-- A record is retired. -/
  | retire (maintenanceId : Nat)

namespace SupportOperation

/-- The record that an operation is about. -/
def maintenanceId : SupportOperation → Nat
  | .add id _ => id
  | .update id _ _ _ _ => id
  | .detach id _ => id
  | .retire id => id

/-- The parent that an operation links the record to. -/
def target? : SupportOperation → Option Nat
  | .add _ parentId => some parentId
  | .update _ _ _ isRetired requested => if isRetired then none else requested.bind id
  | _ => none

/-- The row of an updated record before its relationships are reconciled. -/
def writeRow (startDate endDate : Option Date) (isRetired : Bool)
    (requested : Option (Option Nat)) (l : License)
    : License :=
  { l with
    startDate := startDate
    endDate := endDate
    isRetired := isRetired
    parentLicenseId := requested.getD l.parentLicenseId }

/-- What an operation does to the store; an update ends as `apply_license_update` does. -/
def run (env : Env) : SupportOperation → Store → Except Failure Store
  | .add id parentId, s => activateMaintenanceForParent env id parentId s
  | .update id startDate endDate isRetired requested, s => do
      let l ← found (s.license? id) (.http 404 "License not found")
      let s := s.modifyLicense id (writeRow startDate endDate isRetired requested)
      let s ← reconcileMaintenanceRelationshipsAfterUpdate env id l.parentLicenseId requested s
      pure (syncActiveMaintenanceParentIfNeeded env.unicode id s)
  | .detach id parentId, s => .ok (detachMaintenanceFromParent id parentId true s)
  | .retire id, s => .ok (retireMaintenanceLicense id s)

/-- An operation on a maintenance record that is linked to a parent, or is to be. -/
structure About (op : SupportOperation) (s : Store) (parentId : Nat) : Prop where
  record : ∃ l, s.license? op.maintenanceId = some l ∧ l.licenseType = .maintenance
  parent : ∃ l, s.license? parentId = some l ∧ l.licenseType.isMaintenanceParent = true
    ∧ l.isRetired = false
  linked : MaintenanceLink.mk op.maintenanceId parentId ∈ s.links ∨ op.target? = some parentId

theorem About.ne {op : SupportOperation} {s : Store} {parentId : Nat} (h : op.About s parentId)
    : parentId ≠ op.maintenanceId := by
  rintro he
  obtain ⟨l, hl, htype⟩ := h.record
  obtain ⟨parent, hp, helig, -⟩ := h.parent
  rw [← he, hp] at hl
  obtain rfl := Option.some.inj hl
  rw [htype] at helig
  cases helig

end SupportOperation

/-- A parent's records and active record once one record is taken away. -/
def coverageWithout (id : Nat) (c : List (Nat × MaintenanceTerm) × Option Nat)
    : List (Nat × MaintenanceTerm) × Option Nat :=
  (c.1.filter (fun candidate => candidate.1 != id), c.2.filter (· != id))

/-- A parent's records once one of them has another term. -/
def coverageWithTerm (id : Nat) (term : MaintenanceTerm)
    (c : List (Nat × MaintenanceTerm) × Option Nat)
    : List (Nat × MaintenanceTerm) × Option Nat :=
  (c.1.map (fun candidate => if candidate.1 = id then (id, term) else candidate), c.2)

theorem coverageWithout_withTerm (id : Nat) (term : MaintenanceTerm)
    (c : List (Nat × MaintenanceTerm) × Option Nat)
    : coverageWithout id (coverageWithTerm id term c) = coverageWithout id c := by
  unfold coverageWithout coverageWithTerm
  refine Prod.ext ?_ rfl
  dsimp only
  induction c.1 with
  | nil => rfl
  | cons head rest ih =>
      rw [List.map_cons]
      by_cases hid : head.1 = id
      · simp [hid, ih]
      · simp [hid, ih]

/-- Whether the rule would leave the active record of a coverage. -/
def SettledCoverage (today : Date) (c : List (Nat × MaintenanceTerm) × Option Nat) : Prop :=
  chooseActiveMaintenance c.1 c.2 today = c.2

/-- The records and the active one that an operation leaves to a parent, or none where it
recomputes the parent.
-/
def SupportOperation.leaves (s : Store) (parentId : Nat)
    : SupportOperation → Option (List (Nat × MaintenanceTerm) × Option Nat)
  | .add _ target => if target = parentId then none else some (s.coverage parentId)
  | .update id startDate endDate isRetired requested =>
      let edited := coverageWithTerm id ⟨isRetired, startDate, endDate⟩ (s.coverage parentId)
      let previous := (s.license? id).bind (·.parentLicenseId)
      if isRetired then some (coverageWithout id (s.coverage parentId))
      else match requested with
        | none => some edited
        | some target =>
            if previous = target then some edited
            else if target = some parentId then none
            else if previous = some parentId then some (coverageWithout id (s.coverage parentId))
            else some edited
  | .detach id target =>
      if target = parentId then some (coverageWithout id (s.coverage parentId))
      else some (s.coverage parentId)
  | .retire id => some (coverageWithout id (s.coverage parentId))

/-- The condition on the state before an operation: a parent that is not recomputed must have as
active record the one that the rule picks among the records left to it.
-/
def SupportOperation.KeepsRule (today : Date) (op : SupportOperation) (s : Store) (parentId : Nat)
    : Prop :=
  ∀ c, op.leaves s parentId = some c → SettledCoverage today c

-- The effect of each step

theorem Store.candidates_eq {s t : Store} {parentId : Nat} (h : SameRecords s t)
    (hl : t.linkedRecords parentId = s.linkedRecords parentId)
    : t.candidates parentId = s.candidates parentId := by
  unfold Store.candidates
  rw [hl]
  exact congrArg (List.filterMap · _) (funext h.candidate?)

theorem Store.activeMaintenance?_congr {s t : Store} {parentId : Nat}
    (h : t.license? parentId = s.license? parentId)
    : t.activeMaintenance? parentId = s.activeMaintenance? parentId := by
  unfold Store.activeMaintenance?
  rw [h]

theorem Store.candidate?_id {s : Store} {id : Nat} {c : Nat × MaintenanceTerm}
    (h : s.candidate? id = some c)
    : c.1 = id := by
  unfold Store.candidate? at h
  obtain ⟨l, -, h⟩ := Option.bind_eq_some_iff.mp h
  split at h
  · obtain rfl := Option.some.inj h
    rfl
  · cases h

theorem Store.candidates_without {s t : Store} {id parentId : Nat}
    (hrecords : ∀ key, key ≠ id → t.candidate? key = s.candidate? key)
    (hl : t.linkedRecords parentId = (s.linkedRecords parentId).filter (· != id))
    : t.candidates parentId
      = (s.candidates parentId).filter (fun candidate => candidate.1 != id) := by
  unfold Store.candidates
  rw [hl, List.filter_filterMap, List.filterMap_filter]
  refine List.filterMap_congr fun key _ => ?_
  by_cases hk : key = id
  · subst hk
    rcases hc : s.candidate? key with _ | c
    · simp
    · simp [Store.candidate?_id hc, Option.filter]
  · rw [hrecords key hk]
    rcases hc : s.candidate? key with _ | c
    · simp
    · simp [hk, Store.candidate?_id hc, Option.filter]

theorem linkedRecords_deleteLinks (s : Store) (p : MaintenanceLink → Bool) (parentId : Nat)
    : (s.deleteLinks p).linkedRecords parentId
      = (s.links.filter (fun link => link.parentLicenseId == parentId && !p link)).map
          (·.maintenanceLicenseId) := by
  simp only [Store.linkedRecords, Store.deleteLinks, List.filter_filter]

theorem linkedRecords_without {s : Store} {p : MaintenanceLink → Bool} {id parentId : Nat}
    (hp : ∀ link ∈ s.links, link.parentLicenseId = parentId
      → p link = (link.maintenanceLicenseId == id))
    : (s.deleteLinks p).linkedRecords parentId = (s.linkedRecords parentId).filter (· != id) := by
  rw [linkedRecords_deleteLinks, Store.linkedRecords, List.filter_map, List.filter_filter]
  refine congrArg (List.map _) (List.filter_congr fun link hm => ?_)
  by_cases hparent : link.parentLicenseId = parentId
  · simp [hp link hm hparent, hparent, bne]
  · rw [beq_eq_false_iff_ne.mpr hparent, Bool.false_and, Bool.and_false]

theorem activeMaintenance?_cleared {s t : Store} {id parentId : Nat}
    (h : t.license? parentId = (s.license? parentId).map (fun parent =>
      if parent.hasActive id then parent.clearActive else parent))
    : t.activeMaintenance? parentId = (s.activeMaintenance? parentId).filter (· != id) := by
  unfold Store.activeMaintenance?
  rw [h]
  rcases s.license? parentId with _ | parent
  · rfl
  · by_cases hactive : parent.hasActive id = true
    · have hid : parent.activeMaintenanceId = some id := by simpa [License.hasActive] using hactive
      simp [hactive, hid, License.clearActive, MaintenanceMirror.cleared, License.withMirror,
        Option.filter]
    · rcases hid : parent.activeMaintenanceId with _ | active
      · simp [hactive, hid]
      · have hne : active ≠ id := fun he => hactive (by simp [License.hasActive, hid, he])
        simp [hactive, hid, hne, Option.filter]

theorem detachMaintenanceFromParent_records (id parentId : Nat) (updatePrimary : Bool) (s : Store)
    : SameRecords s (detachMaintenanceFromParent id parentId updatePrimary s) := by
  refine SameRecords.trans (t := s.deleteLinks (· == ⟨id, parentId⟩)) (SameRecords.refl s) ?_
  refine SameRecords.trans (SameRecords.of_modify fun l => ?_) (SameRecords.of_modify fun l => ?_)
  · split <;> rfl
  · split <;> rfl

theorem detachMaintenanceFromParent_coverage {id parentId : Nat} (updatePrimary : Bool)
    (s : Store) (hne : parentId ≠ id)
    : (detachMaintenanceFromParent id parentId updatePrimary s).coverage parentId
      = coverageWithout id (s.coverage parentId) := by
  have hsame := detachMaintenanceFromParent_records id parentId updatePrimary s
  refine Prod.ext (Store.candidates_without (fun key _ => hsame.candidate? key) ?_)
    (activeMaintenance?_cleared ?_)
  · exact linkedRecords_without fun link _ hparent => by
      cases link
      simp_all [Bool.beq_eq_decide_eq]
  · simp only [detachMaintenanceFromParent]
    rw [Store.license?_modifyLicense_ne _ _ hne, Store.license?_modifyLicense_self]
    rfl

theorem detachMaintenanceFromParent_coverage_ne {id parentId other : Nat} (updatePrimary : Bool)
    (s : Store) (hne : other ≠ id) (ho : other ≠ parentId)
    : (detachMaintenanceFromParent id parentId updatePrimary s).coverage other
      = s.coverage other := by
  have hsame := detachMaintenanceFromParent_records id parentId updatePrimary s
  refine Prod.ext (Store.candidates_eq hsame ?_) (Store.activeMaintenance?_congr ?_)
  · refine (linkedRecords_deleteLinks s _ other).trans ?_
    refine congrArg (List.map _) (List.filter_congr fun link _ => ?_)
    by_cases hparent : link.parentLicenseId = other
    · cases link
      simp_all
    · simp [hparent]
  · simp only [detachMaintenanceFromParent]
    rw [Store.license?_modifyLicense_ne _ _ hne, Store.license?_modifyLicense_ne _ _ ho]
    rfl

theorem retireMaintenanceLicense_coverage {id parentId : Nat} {s : Store} (hne : parentId ≠ id)
    (hlinked : MaintenanceLink.mk id parentId ∈ s.links)
    : (retireMaintenanceLicense id s).coverage parentId
      = coverageWithout id (s.coverage parentId) := by
  have hmem : (s.parentsOf id).contains parentId = true := by
    have hl : parentId ∈ s.linkedParents id :=
      List.mem_map.mpr ⟨_, List.mem_filter.mpr ⟨hlinked, by simp⟩, rfl⟩
    simp only [Store.parentsOf, List.contains_iff_mem]
    split
    · split
      · exact hl
      · exact List.mem_append_left _ hl
    · exact hl
  refine Prod.ext (Store.candidates_without (fun key hk => ?_) ?_) (activeMaintenance?_cleared ?_)
  · have hrow : (retireMaintenanceLicense id s).license? key
        = (s.license? key).map (fun parent =>
            if (s.parentsOf id).contains key && parent.hasActive id then parent.clearActive
            else parent) := by
      simp only [retireMaintenanceLicense]
      rw [Store.license?_modifyLicense_ne _ _ hk, Store.license?_mapLicenses]
      rfl
    unfold Store.candidate?
    rw [hrow]
    rcases s.license? key with _ | l
    · rfl
    · simp only [Option.map_some, Option.bind_some]
      split <;> rfl
  · exact linkedRecords_without fun link _ _ => rfl
  · simp only [retireMaintenanceLicense]
    rw [Store.license?_modifyLicense_ne _ _ hne, Store.license?_mapLicenses, hmem]
    simp only [Bool.true_and]
    rfl

theorem modifyLicense_coverage {s : Store} {id parentId : Nat} {l : License}
    {f : License → License} (hne : parentId ≠ id) (hl : s.license? id = some l)
    (htype : l.licenseType = .maintenance) (hf : (f l).licenseType = .maintenance)
    : (s.modifyLicense id f).coverage parentId
      = coverageWithTerm id (f l).term (s.coverage parentId) := by
  refine Prod.ext ?_ (Store.activeMaintenance?_congr (Store.license?_modifyLicense_ne _ _ hne))
  change (s.linkedRecords parentId).filterMap _ = ((s.linkedRecords parentId).filterMap _).map _
  rw [List.map_filterMap]
  refine List.filterMap_congr fun key _ => ?_
  by_cases hk : key = id
  · subst hk
    simp [Store.candidate?, hl, htype, hf]
  · have hrow : (s.modifyLicense id f).candidate? key = s.candidate? key := by
      unfold Store.candidate?
      rw [Store.license?_modifyLicense_ne _ _ hk]
    rw [hrow]
    rcases hc : s.candidate? key with _ | c
    · rfl
    · simp [Store.candidate?_id hc, hk]

theorem modifyLicense_coverage_same {s : Store} {id parentId : Nat} {f : License → License}
    (hne : parentId ≠ id) (hf : ∀ l, (f l).supportRecord = l.supportRecord)
    : (s.modifyLicense id f).coverage parentId = s.coverage parentId :=
  Prod.ext (Store.candidates_eq (SameRecords.of_modify hf) rfl)
    (Store.activeMaintenance?_congr (Store.license?_modifyLicense_ne _ _ hne))

/-- What an activation does to the parent it recomputes, and to every other one. -/
theorem activateMaintenanceForParent_coverage {env : Env} {id target parentId : Nat}
    {s t : Store} (h : activateMaintenanceForParent env id target s = .ok t)
    (hne : parentId ≠ id)
    : (target = parentId → t.activeMaintenance? parentId
          = chooseActiveMaintenance (t.candidates parentId) (s.activeMaintenance? parentId)
              env.today)
      ∧ (target ≠ parentId → t.coverage parentId = s.coverage parentId) := by
  obtain ⟨-, ⟨parent, hp, -, -, -⟩, history, rfl, -⟩ := activateMaintenanceForParent_ok h
  constructor
  · rintro rfl
    have hrecords : SameRecords s { s with
        licenses := s.licenses.mapRows (activatedRow env s id target)
        links := withLink s.links ⟨id, target⟩
        history := history } := SameRecords.activatedRow
    have hsame : SameRecords (s.withLink id target) { s with
        licenses := s.licenses.mapRows (activatedRow env s id target)
        links := withLink s.links ⟨id, target⟩
        history := history } := hrecords
    have hlinks : Store.linkedRecords { s with
          licenses := s.licenses.mapRows (activatedRow env s id target)
          links := withLink s.links ⟨id, target⟩
          history := history } target
        = (s.withLink id target).linkedRecords target := by
      unfold Store.linkedRecords
      rfl
    have hcandidates := Store.candidates_eq hsame hlinks
    have hp' : s.licenses.get? target = some parent := hp
    rw [hcandidates]
    unfold Store.activeMaintenance? Store.license?
    rw [Table.get?_mapRows, hp']
    simp only [Option.map_some, Option.bind_some, activatedRow, if_neg hne, if_true,
      License.withMirror_mirror, Store.recomputedMirror_active]
    rfl
  · intro ho
    have hsame : SameRecords s { s with
        licenses := s.licenses.mapRows (activatedRow env s id target)
        links := withLink s.links ⟨id, target⟩
        history := history } := SameRecords.activatedRow
    have hlinks : (s.withLink id target).linkedRecords parentId = s.linkedRecords parentId := by
      unfold Store.linkedRecords Store.withLink withLink
      split
      · rfl
      · simp [ho]
    have hrow : (s.licenses.mapRows (activatedRow env s id target)).get? parentId
        = s.licenses.get? parentId := by
      rw [Table.get?_mapRows]
      cases s.licenses.get? parentId with
      | none => rfl
      | some l => simp [activatedRow, hne, Ne.symm ho]
    exact Prod.ext (Store.candidates_eq hsame hlinks) (Store.activeMaintenance?_congr hrow)

theorem syncParentMirrorFields_coverage {u : Unicode} {s : Store} {id parentId : Nat}
    {record : License} (hr : s.license? id = some record)
    (hlive : record.isLiveMaintenance = true)
    (hactive : (s.license? parentId).any (·.hasActive id) = true) (other : Nat)
    : (syncParentMirrorFields u parentId s).coverage other = s.coverage other := by
  have hsame : SameRecords s (syncParentMirrorFields u parentId s) :=
    SameRecords.of_modify fun _ => rfl
  have hlinks : (syncParentMirrorFields u parentId s).linkedRecords other
      = s.linkedRecords other := rfl
  refine Prod.ext (Store.candidates_eq hsame hlinks) ?_
  change (syncParentMirrorFields u parentId s).activeMaintenance? other
    = s.activeMaintenance? other
  unfold Store.activeMaintenance? syncParentMirrorFields
  rw [Store.license?_modifyLicense]
  rcases hp : s.license? other with _ | parent
  · rfl
  · by_cases ho : other = parentId
    · subst ho
      rw [hp] at hactive
      have hid : parent.activeMaintenanceId = some id := by simpa [License.hasActive] using hactive
      simp [Store.syncedMirror, hid, hr, hlive, mirrorOf]
    · simp [ho]

theorem syncActiveMaintenance_coverage {u : Unicode} {s : Store} {id : Nat} {record : License}
    (hr : s.license? id = some record) (hlive : record.isLiveMaintenance = true) (other : Nat)
    : (syncActiveMaintenanceParentIfNeeded u id s).coverage other = s.coverage other := by
  have hfold : ∀ (parents : List Nat) (t : Store),
      (∃ record, t.license? id = some record ∧ record.isLiveMaintenance = true) →
      (parents.foldl (fun s parentId =>
          if (s.license? parentId).any (·.hasActive id) then syncParentMirrorFields u parentId s
          else s) t).coverage other = t.coverage other := by
    intro parents
    induction parents with
    | nil => exact fun _ _ => rfl
    | cons head rest ih =>
        rintro t ⟨row, hrow, hrowLive⟩
        rw [List.foldl_cons]
        split
        · next hactive =>
            rw [ih]
            · exact syncParentMirrorFields_coverage hrow hrowLive hactive other
            · have hsame : SameRecords t (syncParentMirrorFields u head t) :=
                SameRecords.of_modify fun _ => rfl
              obtain ⟨row', hrow', hv⟩ := Table.Agrees.forth hsame hrow
              exact ⟨row', hrow', (isLiveMaintenance_congr hv).trans hrowLive⟩
        · exact ih t ⟨row, hrow, hrowLive⟩
  unfold syncActiveMaintenanceParentIfNeeded
  simp only [hr]
  split
  · exact hfold _ s ⟨record, hr, hlive⟩
  · rfl

theorem syncActiveMaintenance_retired (u : Unicode) (id : Nat) (s : Store)
    : syncActiveMaintenanceParentIfNeeded u id (retireMaintenanceLicense id s)
      = retireMaintenanceLicense id s := by
  have hlinks : (retireMaintenanceLicense id s).linkedParents id = [] := by
    simp only [retireMaintenanceLicense, Store.linkedParents, Store.modifyLicense,
      Store.mapLicenses, Store.deleteLinks, List.filter_filter]
    simp
  have hprimary : ((retireMaintenanceLicense id s).license? id).bind (·.parentLicenseId)
      = none := by
    simp only [retireMaintenanceLicense]
    rw [Store.license?_modifyLicense_self]
    rcases Store.license? _ id <;> rfl
  have hparents : (retireMaintenanceLicense id s).storedParentsOf id = [] := by
    unfold Store.storedParentsOf Store.parentsOf
    rw [hprimary, hlinks]
    rfl
  unfold syncActiveMaintenanceParentIfNeeded
  rw [hparents]
  split
  · split <;> rfl
  · rfl

-- Re-parenting

/-- The first step of moving a record: it leaves its previous parent, where that one is stored. -/
def detachPrevious (id : Nat) (previous target : Option Nat) (s : Store) : Store :=
  match previous with
  | some old =>
      if previous ≠ target ∧ (s.license? old).isSome then detachMaintenanceFromParent id old false s
      else s
  | none => s

theorem detachPrevious_coverage {s : Store} {id parentId : Nat} {previous target : Option Nat}
    {parent : License} (hne : parentId ≠ id) (hp : s.license? parentId = some parent)
    (hmoved : previous ≠ target)
    : (detachPrevious id previous target s).coverage parentId
      = if previous = some parentId then coverageWithout id (s.coverage parentId)
        else s.coverage parentId := by
  rcases previous with _ | old
  · rfl
  · by_cases ho : old = parentId
    · subst ho
      simp only [detachPrevious, hp, Option.isSome_some, hmoved, ne_eq, not_false_eq_true,
        and_self, if_true]
      exact detachMaintenanceFromParent_coverage false s hne
    · have hother : ¬ some old = some parentId := fun he => ho (Option.some.inj he)
      rw [if_neg hother]
      simp only [detachPrevious]
      split
      · exact detachMaintenanceFromParent_coverage_ne false s hne (Ne.symm ho)
      · rfl

theorem reconcile_moved {env : Env} {s t : Store} {id : Nat} {previous target : Option Nat}
    {record : License} (hr : s.license? id = some record)
    (hlive : record.isLiveMaintenance = true) (hmoved : previous ≠ target)
    (h : reconcileMaintenanceRelationshipsAfterUpdate env id previous (some target) s = .ok t)
    : (target = none ∧ t = detachPrevious id previous target s)
      ∨ ∃ new active, target = some new
        ∧ activateMaintenanceForParent env id new (detachPrevious id previous target s)
          = .ok active
        ∧ t = active.modifyLicense id (fun l => { l with parentLicenseId := some new }) := by
  obtain ⟨htype, hret⟩ : record.licenseType = .maintenance ∧ record.isRetired = false := by
    simpa [License.isLiveMaintenance] using hlive
  simp only [reconcileMaintenanceRelationshipsAfterUpdate, bind_eq_ok, found_eq_ok] at h
  obtain ⟨row, hrow, h⟩ := h
  obtain rfl := Option.some.inj (hr.symm.trans hrow)
  rw [if_neg (by simp [htype]), if_neg (by simp [hret])] at h
  cases target with
  | none => exact .inl ⟨rfl, (pure_eq_ok.mp h).symm⟩
  | some new =>
      dsimp only at h
      rw [if_pos hmoved] at h
      obtain ⟨-, -, h⟩ := bind_eq_ok.mp h
      obtain ⟨active, hactive, h⟩ := bind_eq_ok.mp h
      exact .inr ⟨new, active, rfl, hactive, (pure_eq_ok.mp h).symm⟩

theorem reconcile_moved_records {env : Env} {s t : Store} {id : Nat} {previous target : Option Nat}
    {record : License} (hr : s.license? id = some record)
    (hlive : record.isLiveMaintenance = true) (hmoved : previous ≠ target)
    (h : reconcileMaintenanceRelationshipsAfterUpdate env id previous (some target) s = .ok t)
    : SameRecords s t := by
  have hdetached : SameRecords s (detachPrevious id previous target s) := by
    unfold detachPrevious
    split
    · split
      · exact detachMaintenanceFromParent_records id _ false s
      · exact SameRecords.refl s
    · exact SameRecords.refl s
  rcases reconcile_moved hr hlive hmoved h with ⟨rfl, rfl⟩ | ⟨new, active, rfl, hactive, rfl⟩
  · exact hdetached
  · obtain ⟨-, -, history, rfl, -⟩ := activateMaintenanceForParent_ok hactive
    exact (hdetached.trans SameRecords.activatedRow).trans (SameRecords.of_modify fun _ => rfl)

theorem reconcile_moved_coverage {env : Env} {s t : Store} {id parentId : Nat}
    {previous target : Option Nat} {record parent : License} (hne : parentId ≠ id)
    (hr : s.license? id = some record) (hlive : record.isLiveMaintenance = true)
    (hp : s.license? parentId = some parent) (hmoved : previous ≠ target)
    (h : reconcileMaintenanceRelationshipsAfterUpdate env id previous (some target) s = .ok t)
    : (target = some parentId → t.activeMaintenance? parentId
          = chooseActiveMaintenance (t.candidates parentId) (s.activeMaintenance? parentId)
              env.today)
      ∧ (target ≠ some parentId → t.coverage parentId
          = if previous = some parentId then coverageWithout id (s.coverage parentId)
            else s.coverage parentId) := by
  have hdetached := detachPrevious_coverage hne hp hmoved
  rcases reconcile_moved hr hlive hmoved h with ⟨rfl, rfl⟩ | ⟨new, active, rfl, hactive, rfl⟩
  · exact ⟨fun h => absurd h.symm (Option.some_ne_none parentId), fun _ => hdetached⟩
  · obtain ⟨hsame, hother⟩ := activateMaintenanceForParent_coverage hactive hne
    have hkept := modifyLicense_coverage_same (s := active) hne
      (f := fun l => { l with parentLicenseId := some new }) fun _ => rfl
    constructor
    · rintro he
      obtain rfl := Option.some.inj he
      rw [if_neg hmoved] at hdetached
      have hbefore : (detachPrevious id previous (some new) s).activeMaintenance? new
          = s.activeMaintenance? new := congrArg Prod.snd hdetached
      refine (congrArg Prod.snd hkept).trans ((hsame rfl).trans ?_)
      rw [hbefore]
      exact congrArg (chooseActiveMaintenance · _ _) (congrArg Prod.fst hkept).symm
    · intro he
      exact (hkept.trans (hother fun h => he (congrArg some h))).trans hdetached

theorem reconcile_unmoved {env : Env} {s t : Store} {id : Nat} {previous : Option Nat}
    {requested : Option (Option Nat)} {record : License} (hr : s.license? id = some record)
    (hlive : record.isLiveMaintenance = true) (hkeep : ∀ target, requested = some target →
      previous = target)
    (h : reconcileMaintenanceRelationshipsAfterUpdate env id previous requested s = .ok t)
    : t = s := by
  obtain ⟨htype, hret⟩ : record.licenseType = .maintenance ∧ record.isRetired = false := by
    simpa [License.isLiveMaintenance] using hlive
  simp only [reconcileMaintenanceRelationshipsAfterUpdate, bind_eq_ok, found_eq_ok] at h
  obtain ⟨row, hrow, h⟩ := h
  obtain rfl := Option.some.inj (hr.symm.trans hrow)
  rw [if_neg (by simp [htype]), if_neg (by simp [hret])] at h
  cases requested with
  | none => exact (pure_eq_ok.mp h).symm
  | some target =>
      obtain rfl := hkeep target rfl
      cases previous with
      | none => exact (pure_eq_ok.mp h).symm
      | some old =>
          simp only [ne_eq, not_true_eq_false, false_and, if_false] at h
          exact (pure_eq_ok.mp h).symm

theorem reconcile_retired {env : Env} {s t : Store} {id : Nat} {previous : Option Nat}
    {requested : Option (Option Nat)} {record : License} (hr : s.license? id = some record)
    (htype : record.licenseType = .maintenance) (hret : record.isRetired = true)
    (h : reconcileMaintenanceRelationshipsAfterUpdate env id previous requested s = .ok t)
    : t = retireMaintenanceLicense id s := by
  simp only [reconcileMaintenanceRelationshipsAfterUpdate, bind_eq_ok, found_eq_ok] at h
  obtain ⟨row, hrow, h⟩ := h
  obtain rfl := Option.some.inj (hr.symm.trans hrow)
  rw [if_neg (by simp [htype]), if_pos hret] at h
  exact (pure_eq_ok.mp h).symm

-- The rule after an operation

namespace SupportOperation

/-- What an update does to a parent that the record is linked to, or is to be. -/
theorem update_coverage {env : Env} {s t : Store} {id parentId : Nat}
    {startDate endDate : Option Date} {isRetired : Bool} {requested : Option (Option Nat)}
    (h : (update id startDate endDate isRetired requested).run env s = .ok t)
    (about : (update id startDate endDate isRetired requested).About s parentId)
    : match (update id startDate endDate isRetired requested).leaves s parentId with
      | some c => t.coverage parentId = c
      | none => t.activeMaintenance? parentId
          = chooseActiveMaintenance (t.candidates parentId) (s.activeMaintenance? parentId)
              env.today := by
  have hne : parentId ≠ id := about.ne
  obtain ⟨l, hl, htype⟩ := about.record
  obtain ⟨parent, hp, -, -⟩ := about.parent
  have hl' : s.license? id = some l := hl
  simp only [run, bind_eq_ok, found_eq_ok, pure_eq_ok] at h
  obtain ⟨_, hfound, reconciled, hreconcile, rfl⟩ := h
  obtain rfl := Option.some.inj (hl'.symm.trans hfound)
  have hrow : (s.modifyLicense id (writeRow startDate endDate isRetired requested)).license? id
      = some (writeRow startDate endDate isRetired requested l) := by
    rw [Store.license?_modifyLicense_self, hl']
    rfl
  have hedited := modifyLicense_coverage hne hl' htype
    (f := writeRow startDate endDate isRetired requested) htype
  have hparent : (s.modifyLicense id (writeRow startDate endDate isRetired requested)).license?
      parentId = some parent := by
    rw [Store.license?_modifyLicense_ne _ _ hne]
    exact hp
  simp only [leaves, hl', Option.bind_some]
  cases isRetired with
  | true =>
      obtain rfl := reconcile_retired hrow htype rfl hreconcile
      have hlinked : MaintenanceLink.mk id parentId ∈ s.links :=
        about.linked.elim (fun hm => hm) (fun htarget => by cases htarget)
      rw [if_pos rfl, syncActiveMaintenance_retired]
      dsimp only
      rw [retireMaintenanceLicense_coverage hne (by exact hlinked), hedited,
        coverageWithout_withTerm]
  | false =>
      have hlive : (writeRow startDate endDate false requested l).isLiveMaintenance = true := by
        have htype' : (writeRow startDate endDate false requested l).licenseType
            = .maintenance := htype
        simp only [License.isLiveMaintenance]
        rw [htype']
        rfl
      rw [if_neg (by simp)]
      by_cases hkeep : ∀ target, requested = some target → l.parentLicenseId = target
      · obtain rfl := reconcile_unmoved hrow hlive hkeep hreconcile
        have hsync := syncActiveMaintenance_coverage (u := env.unicode) hrow hlive parentId
        cases requested with
        | none => exact hsync.trans hedited
        | some target =>
            dsimp only
            rw [if_pos (hkeep target rfl)]
            exact hsync.trans hedited
      · push Not at hkeep
        obtain ⟨target, rfl, hmoved⟩ := hkeep
        obtain ⟨row, hrow', hv⟩ :=
          Table.Agrees.forth (reconcile_moved_records hrow hlive hmoved hreconcile) hrow
        have hsync := syncActiveMaintenance_coverage (u := env.unicode) hrow'
          ((isLiveMaintenance_congr hv).trans hlive) parentId
        obtain ⟨hsame, hother⟩ := reconcile_moved_coverage hne hrow hlive hparent hmoved hreconcile
        dsimp only
        rw [if_neg hmoved]
        by_cases hp' : target = some parentId
        · rw [if_pos hp']
          dsimp only
          have hbefore := congrArg Prod.snd hedited
          refine (congrArg Prod.snd hsync).trans ((hsame hp').trans ?_)
          refine (congrArg (chooseActiveMaintenance _ · _) hbefore).trans ?_
          exact congrArg (chooseActiveMaintenance · _ _) (congrArg Prod.fst hsync).symm
        · rw [if_neg hp']
          have hleft := hsync.trans (hother hp')
          by_cases hprevious : l.parentLicenseId = some parentId
          · rw [if_pos hprevious, hedited, coverageWithout_withTerm] at hleft
            rw [if_pos hprevious]
            exact hleft
          · rw [if_neg hprevious, hedited] at hleft
            rw [if_neg hprevious]
            exact hleft

theorem run_coverage {env : Env} {op : SupportOperation} {s t : Store} {parentId : Nat}
    (h : op.run env s = .ok t) (about : op.About s parentId)
    : match op.leaves s parentId with
      | some c => t.coverage parentId = c
      | none => t.activeMaintenance? parentId
          = chooseActiveMaintenance (t.candidates parentId) (s.activeMaintenance? parentId)
              env.today := by
  cases op with
  | add id target =>
      obtain ⟨hsame, hother⟩ := activateMaintenanceForParent_coverage h about.ne
      by_cases ht : target = parentId
      · simp only [leaves, ht, if_true]
        exact hsame ht
      · simp only [leaves, ht, if_false]
        exact hother ht
  | update id startDate endDate isRetired requested => exact update_coverage h about
  | detach id target =>
      have hne : parentId ≠ id := about.ne
      obtain rfl := Except.ok.inj h
      by_cases ht : target = parentId
      · simp only [leaves, ht, if_true]
        exact detachMaintenanceFromParent_coverage true s hne
      · simp only [leaves, ht, if_false]
        exact detachMaintenanceFromParent_coverage_ne true s hne (Ne.symm ht)
  | retire id =>
      obtain rfl := Except.ok.inj h
      refine retireMaintenanceLicense_coverage about.ne ?_
      rcases about.linked with hm | hadd
      · exact hm
      · cases hadd

theorem leaves_choice {op : SupportOperation} {s : Store} {parentId : Nat} (today : Date)
    {c : List (Nat × MaintenanceTerm) × Option Nat} (h : op.leaves s parentId = some c)
    : chooseActiveMaintenance c.1 (s.activeMaintenance? parentId) today
      = chooseActiveMaintenance c.1 c.2 today := by
  have hwithout : ∀ id, chooseActiveMaintenance (coverageWithout id (s.coverage parentId)).1
        (s.activeMaintenance? parentId) today
      = chooseActiveMaintenance (coverageWithout id (s.coverage parentId)).1
          (coverageWithout id (s.coverage parentId)).2 today := fun id => by
    change _ = chooseActiveMaintenance _ ((s.activeMaintenance? parentId).filter (· != id)) today
    rcases s.activeMaintenance? parentId with _ | active
    · rfl
    · by_cases ha : active = id
      · subst ha
        rw [chooseActiveMaintenance_of_not_candidate today fun c hc => by
          simpa using (List.mem_filter.mp hc).2]
        simp [Option.filter]
      · simp [Option.filter, ha]
  cases op with
  | add id target =>
      simp only [leaves] at h
      split at h
      · cases h
      · obtain rfl := Option.some.inj h
        rfl
  | update id startDate endDate isRetired requested =>
      simp only [leaves] at h
      split at h
      · obtain rfl := Option.some.inj h
        exact hwithout id
      · cases requested with
        | none =>
            obtain rfl := Option.some.inj h
            rfl
        | some target =>
            dsimp only at h
            split at h
            · obtain rfl := Option.some.inj h
              rfl
            · split at h
              · cases h
              · split at h
                · obtain rfl := Option.some.inj h
                  exact hwithout id
                · obtain rfl := Option.some.inj h
                  rfl
  | detach id target =>
      simp only [leaves] at h
      split at h
      · obtain rfl := Option.some.inj h
        exact hwithout id
      · obtain rfl := Option.some.inj h
        rfl
  | retire id =>
      obtain rfl := Option.some.inj h
      exact hwithout id

/-- After an operation the active record of a parent is the one that the rule picks, and the
hand-over of the same day leaves it, exactly when the operation recomputes the parent or leaves
it records among which the rule keeps the active one.
-/
theorem followsRule_iff {env : Env} {op : SupportOperation} {s t : Store} {parentId : Nat}
    (h : op.run env s = .ok t) (about : op.About s parentId)
    : (FollowsRule env.today s t parentId
        ∧ ∀ later : Env, later.today = env.today →
          (handOverDueMaintenance later t).activeMaintenance? parentId
            = t.activeMaintenance? parentId)
      ↔ op.KeepsRule env.today s parentId := by
  have hcoverage := run_coverage h about
  have hrule : FollowsRule env.today s t parentId ↔ op.KeepsRule env.today s parentId := by
    rw [FollowsRule, ruleChoice_eq, KeepsRule]
    rcases hleaves : op.leaves s parentId with _ | c
    · rw [hleaves] at hcoverage
      refine ⟨fun _ c hc => ?_, fun _ => hcoverage⟩
      cases hc
    · rw [hleaves] at hcoverage
      have hcandidates : t.candidates parentId = c.1 := congrArg Prod.fst hcoverage
      have hactive : t.activeMaintenance? parentId = c.2 := congrArg Prod.snd hcoverage
      rw [hcandidates, hactive, leaves_choice env.today hleaves]
      constructor
      · rintro hkeeps c' hc'
        obtain rfl := Option.some.inj hc'
        exact hkeeps.symm
      · intro hkeeps
        exact (hkeeps c rfl).symm
  rw [← hrule]
  constructor
  · exact And.left
  · intro hfollows
    refine ⟨hfollows, fun later hday => handOverDueMaintenance_settled later ?_⟩
    rw [hday]
    exact hfollows.settled

/-- A perpetual licence and two records for overlapping terms, not linked yet. -/
def twoUnlinked : Store where
  licenses :=
    ((Table.empty.insert (License.ofTerm .perpetual (some 1) none)).insert
      { License.ofTerm .maintenance (some 1) (some 100) with
        isLegacyUnlinkedMaintenance := true }).insert
      { License.ofTerm .maintenance (some 40) (some 200) with
        isLegacyUnlinkedMaintenance := true }

/-- The licence with the first record linked and active. -/
def firstLinked : Store where
  licenses :=
    ((Table.empty.insert
      ((License.ofTerm .perpetual (some 1) none).withMirror
        (mirrorOf .ascii 2 (License.ofTerm .maintenance (some 1) (some 100))))).insert
      { License.ofTerm .maintenance (some 1) (some 100) with parentLicenseId := some 1 }).insert
      { License.ofTerm .maintenance (some 40) (some 200) with
        isLegacyUnlinkedMaintenance := true }
  links := [⟨2, 1⟩]

/-- Adding the second record recomputes the licence, so the rule holds after it. -/
theorem followsRule_firstLinked
    : ∃ t, (add 3 1).run (.onDay 50) firstLinked = .ok t
        ∧ FollowsRule 50 firstLinked t 1
        ∧ t.activeMaintenance? 1 = some 2 := by
  obtain ⟨t, ht⟩ : ∃ t, (add 3 1).run (.onDay 50) firstLinked = .ok t := exists_ok (by decide)
  have about : (add 3 1).About firstLinked 1 :=
    ⟨⟨_, rfl, rfl⟩, ⟨_, rfl, rfl, rfl⟩, .inr rfl⟩
  have hkeeps : (add 3 1).KeepsRule (Env.onDay 50).today firstLinked 1 := by
    intro _ hc
    cases hc
  refine ⟨t, ht, ((followsRule_iff ht about).mpr hkeeps).1, ?_⟩
  have hactive : ((add 3 1).run (.onDay 50) firstLinked).toOption.bind
      (·.activeMaintenance? 1) = some 2 := by decide
  rw [ht] at hactive
  exact hactive

/-- The licence with both records linked and the first one active. -/
def bothLinked : Store where
  licenses :=
    ((Table.empty.insert
      ((License.ofTerm .perpetual (some 1) none).withMirror
        (mirrorOf .ascii 2 (License.ofTerm .maintenance (some 1) (some 100))))).insert
      { License.ofTerm .maintenance (some 1) (some 100) with parentLicenseId := some 1 }).insert
      { License.ofTerm .maintenance (some 40) (some 200) with parentLicenseId := some 1 }
  links := [⟨2, 1⟩, ⟨3, 1⟩]

/-- Once both records are added, retiring the active one leaves the licence without an active
record, although the other covers the day; the hand-over of the same day makes it active.
-/
theorem rule_lost_bothLinked
    : ((add 2 1).run (.onDay 50) twoUnlinked >>= (add 3 1).run (.onDay 50)) = .ok bothLinked
        ∧ (retire 2).About bothLinked 1
        ∧ ∃ t, (retire 2).run (.onDay 50) bothLinked = .ok t
          ∧ ¬ FollowsRule 50 bothLinked t 1
          ∧ (handOverDueMaintenance (.onDay 50) t).activeMaintenance? 1
            ≠ t.activeMaintenance? 1 := by
  refine ⟨rfl, ⟨⟨_, rfl, rfl⟩, ⟨_, rfl, rfl, rfl⟩, .inl (by decide)⟩, _, rfl, ?_, by decide⟩
  have hactive : (retireMaintenanceLicense 2 bothLinked).activeMaintenance? 1 = none := by decide
  have hrule : ruleChoice 50 bothLinked (retireMaintenanceLicense 2 bothLinked) 1 = some 3 := by
    decide
  rw [FollowsRule, hactive, hrule]
  intro hsame
  cases hsame

end SupportOperation

end LicenseTrack
