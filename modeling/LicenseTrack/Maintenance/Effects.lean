import LicenseTrack.Services.MaintenanceService

/-! What the maintenance operations change, written as one update of the store: which rows,
which columns, and what stays.
-/

namespace LicenseTrack

open Library

/-- The columns of a record that its parents' mirrors and the choice of the active record
depend on.
-/
def License.supportRecord (l : License) : LicenseTerms × Bool := (l.toLicenseTerms, l.isRetired)

/-- Two stores whose licences look alike as support records. -/
def SameRecords (s t : Store) : Prop := s.licenses.Agrees License.supportRecord t.licenses

theorem SameRecords.refl (s : Store) : SameRecords s s := Table.Agrees.refl _ _

theorem SameRecords.trans {s t v : Store} (h : SameRecords s t) (h' : SameRecords t v)
    : SameRecords s v :=
  Table.Agrees.trans h h'

theorem SameRecords.of_modify {s : Store} {id : Nat} {f : License → License}
    (h : ∀ l, (f l).supportRecord = l.supportRecord)
    : SameRecords s (s.modifyLicense id f) :=
  Table.Agrees.of_modify h

theorem mirrorOf_congr {u : Unicode} {id : Nat} {a b : License}
    (h : a.supportRecord = b.supportRecord)
    : mirrorOf u id a = mirrorOf u id b := by
  have ht : a.toLicenseTerms = b.toLicenseTerms := congrArg Prod.fst h
  simp only [mirrorOf]
  rw [ht]

theorem isLiveMaintenance_congr {a b : License} (h : a.supportRecord = b.supportRecord)
    : a.isLiveMaintenance = b.isLiveMaintenance := by
  have ht : a.toLicenseTerms = b.toLicenseTerms := congrArg Prod.fst h
  have hr : a.isRetired = b.isRetired := congrArg Prod.snd h
  simp only [License.isLiveMaintenance]
  rw [ht, hr]

theorem SameRecords.syncedMirror {s t : Store} (h : SameRecords s t) (u : Unicode)
    (m : MaintenanceMirror)
    : t.syncedMirror u m = s.syncedMirror u m := by
  unfold Store.syncedMirror
  cases m.activeMaintenanceId with
  | none => rfl
  | some id =>
      rcases hs : s.license? id with _ | a
      · have ht : t.license? id = none := Table.Agrees.missing h hs
        simp [hs, ht]
      · obtain ⟨b, ht, hv⟩ := Table.Agrees.forth h hs
        have ht' : t.license? id = some b := ht
        simp [hs, ht', isLiveMaintenance_congr hv, mirrorOf_congr hv]

theorem SameRecords.candidate? {s t : Store} (h : SameRecords s t) (id : Nat)
    : t.candidate? id = s.candidate? id := by
  unfold Store.candidate?
  rcases hs : s.license? id with _ | a
  · have ht : t.license? id = none := Table.Agrees.missing h hs
    simp [ht]
  · obtain ⟨b, ht, hv⟩ := Table.Agrees.forth h hs
    have ht' : t.license? id = some b := ht
    have hterms : b.toLicenseTerms = a.toLicenseTerms := congrArg Prod.fst hv
    have hretired : b.isRetired = a.isRetired := congrArg Prod.snd hv
    simp only [ht', Option.bind_some, License.term]
    rw [hterms, hretired]

theorem SameRecords.candidates {s t : Store} (h : SameRecords s t) (hl : t.links = s.links)
    (parentId : Nat)
    : t.candidates parentId = s.candidates parentId := by
  unfold Store.candidates Store.linkedRecords
  rw [hl]
  exact congrArg (List.filterMap · _) (funext h.candidate?)

theorem syncedMirror_idem (u : Unicode) (s : Store) (m : MaintenanceMirror)
    : s.syncedMirror u (s.syncedMirror u m) = s.syncedMirror u m := by
  unfold Store.syncedMirror
  rcases hm : m.activeMaintenanceId with _ | id
  · simp [MaintenanceMirror.cleared]
  · rcases hs : s.license? id with _ | child
    · simp [MaintenanceMirror.cleared, hs]
    · by_cases hc : child.isLiveMaintenance <;> simp [MaintenanceMirror.cleared, mirrorOf, hs, hc]

theorem syncedMirror_cases (u : Unicode) (s : Store) (m : MaintenanceMirror)
    : (∃ id child, m.activeMaintenanceId = some id ∧ s.license? id = some child
        ∧ child.isLiveMaintenance = true ∧ s.syncedMirror u m = mirrorOf u id child)
      ∨ s.syncedMirror u m = m.cleared := by
  unfold Store.syncedMirror
  rcases hm : m.activeMaintenanceId with _ | id
  · exact .inr rfl
  · rcases hs : s.license? id with _ | child
    · exact .inr (by simp [hs])
    · by_cases hc : child.isLiveMaintenance
      · exact .inl ⟨id, child, rfl, hs, hc, by simp [hs, hc]⟩
      · exact .inr (by simp [hs, hc])

/-- A later history keeps every earlier row, and each row it adds belongs to one of the given
parents.
-/
structure HistoryGrows (parents : Nat → Prop) (h h' : Table CoverageHistory) : Prop where
  kept : ∀ id row, h.get? id = some row → h'.get? id = some row
  fresh : ∀ id row, h'.get? id = some row → h.get? id = none → parents row.parentLicenseId

namespace HistoryGrows

variable {parents : Nat → Prop} {h h' h'' : Table CoverageHistory}

theorem refl (parents : Nat → Prop) (h : Table CoverageHistory) : HistoryGrows parents h h where
  kept _ _ hr := hr
  fresh _ _ hr hn := by rw [hr] at hn; cases hn

theorem trans (first : HistoryGrows parents h h') (second : HistoryGrows parents h' h'')
    : HistoryGrows parents h h'' where
  kept id row hr := second.kept id row (first.kept id row hr)
  fresh id row hr hn := by
    rcases hm : h'.get? id with _ | middle
    · exact second.fresh id row hr hm
    · obtain rfl := Option.some.inj ((second.kept id middle hm).symm.trans hr)
      exact first.fresh id middle hm hn

theorem mono {more : Nat → Prop} (hle : ∀ id, parents id → more id)
    (grows : HistoryGrows parents h h')
    : HistoryGrows more h h' where
  kept := grows.kept
  fresh id row hr hn := hle _ (grows.fresh id row hr hn)

theorem insert {row : CoverageHistory} (hp : parents row.parentLicenseId)
    : HistoryGrows parents h (h.insert row) where
  kept id old hr := by
    rw [Table.get?_insert, if_neg]
    · exact hr
    · rintro rfl
      simp at hr
  fresh id new hr hn := by
    rw [Table.get?_insert] at hr
    split at hr
    · obtain rfl := Option.some.inj hr
      exact hp
    · rw [hr] at hn
      cases hn

end HistoryGrows

theorem snapshotCoveragePeriod_eq (row : CoverageHistory) (s : Store)
    : ∃ h, snapshotCoveragePeriod row s = { s with history := h }
        ∧ HistoryGrows (· = row.parentLicenseId) s.history h := by
  simp only [snapshotCoveragePeriod]
  split
  · exact ⟨s.history, rfl, .refl _ _⟩
  · exact ⟨_, rfl, .insert rfl⟩

theorem snapshotIncludedSupport_eq (parentId : Nat) (s : Store)
    : ∃ h, snapshotIncludedSupport parentId s = { s with history := h }
        ∧ HistoryGrows (· = parentId) s.history h := by
  unfold snapshotIncludedSupport
  split
  · split
    · exact snapshotCoveragePeriod_eq (includedSupportPeriod parentId _) s
    · exact ⟨s.history, rfl, .refl _ _⟩
  · exact ⟨s.history, rfl, .refl _ _⟩

theorem snapshotBeforeSwitch_eq (u : Unicode) (parentId : Nat) (s : Store)
    : ∃ h, snapshotBeforeSwitch u parentId s = { s with history := h }
        ∧ HistoryGrows (· = parentId) s.history h := by
  have unchanged : ∃ h, s = { s with history := h } ∧ HistoryGrows (· = parentId) s.history h :=
    ⟨s.history, rfl, .refl _ _⟩
  unfold snapshotBeforeSwitch
  split
  · exact unchanged
  · split
    · split
      · exact snapshotIncludedSupport_eq parentId s
      · exact unchanged
    · split
      · exact snapshotCoveragePeriod_eq (maintenanceRecordPeriod u parentId _ _) s
      · exact unchanged

/-- The active record that the rule chooses for a parent. -/
def Store.chosenRecord (env : Env) (s : Store) (parentId : Nat) (m : MaintenanceMirror)
    : Option Nat :=
  chooseActiveMaintenance (s.candidates parentId) m.activeMaintenanceId env.today

/-- The mirror of a parent after its recomputation. -/
def Store.recomputedMirror (env : Env) (s : Store) (parentId : Nat) (m : MaintenanceMirror)
    : MaintenanceMirror :=
  s.syncedMirror env.unicode { m with activeMaintenanceId := s.chosenRecord env parentId m }

theorem SameRecords.recomputedMirror {s t : Store} (h : SameRecords s t) (hl : t.links = s.links)
    (env : Env) (parentId : Nat) (m : MaintenanceMirror)
    : t.recomputedMirror env parentId m = s.recomputedMirror env parentId m := by
  unfold Store.recomputedMirror Store.chosenRecord
  rw [h.candidates hl, h.syncedMirror]

theorem recomputeActiveMaintenance_eq (env : Env) {parentId : Nat} {s : Store} {parent : License}
    (hp : s.license? parentId = some parent)
    : ∃ h, recomputeActiveMaintenance env parentId s
          = { s with
              licenses := s.licenses.modify parentId
                (·.withMirror (s.recomputedMirror env parentId parent.toMaintenanceMirror))
              history := h }
        ∧ HistoryGrows (· = parentId) s.history h
        ∧ (s.chosenRecord env parentId parent.toMaintenanceMirror = parent.activeMaintenanceId
            → h = s.history) := by
  have rewrite_row : ∀ f : License → License,
      s.licenses.modify parentId f = s.licenses.modify parentId (fun _ => f parent) := fun f => by
    ext key : 1
    rw [Table.get?_modify, Table.get?_modify]
    rcases hk : s.licenses.get? key with _ | row
    · rfl
    · by_cases he : key = parentId
      · subst he
        obtain rfl : row = parent := Option.some.inj (hk.symm.trans hp)
        simp
      · simp [he]
  unfold recomputeActiveMaintenance
  simp only [hp]
  split
  · next hc =>
      refine ⟨s.history, ?_, .refl _ _, fun _ => rfl⟩
      simp only [syncParentMirrorFields, Store.modifyLicense]
      rw [rewrite_row, rewrite_row (·.withMirror _)]
      simp only [Store.recomputedMirror, Store.chosenRecord, hc]
  · next hc =>
      obtain ⟨h, hs, hg⟩ := snapshotBeforeSwitch_eq env.unicode parentId s
      refine ⟨h, ?_, hg, fun he => absurd he hc⟩
      have hr : SameRecords s (Store.modifyLicense { s with history := h } parentId (fun l =>
          { l with
            activeMaintenanceId :=
              chooseActiveMaintenance (s.candidates parentId) parent.activeMaintenanceId
                env.today })) :=
        Table.Agrees.of_modify fun _ => rfl
      simp only [hs, syncParentMirrorFields]
      simp only [hr.syncedMirror]
      simp only [Store.modifyLicense, Table.modify_modify]
      rw [rewrite_row, rewrite_row (·.withMirror _)]
      rfl

theorem chooseActiveMaintenance_mem {candidates : List (Nat × MaintenanceTerm)}
    {current : Option Nat} {today : Date} {id : Nat}
    (h : chooseActiveMaintenance candidates current today = some id)
    : ∃ term, (id, term) ∈ candidates ∧ term.isRetired = false := by
  have of_live : ∀ c ∈ candidates.filter (fun c => !c.2.isRetired), c.1 = id →
      ∃ term, (id, term) ∈ candidates ∧ term.isRetired = false := by
    rintro ⟨key, term⟩ hc rfl
    obtain ⟨hm, hr⟩ := List.mem_filter.mp hc
    exact ⟨term, hm, by simpa using hr⟩
  simp only [chooseActiveMaintenance] at h
  split at h
  · obtain ⟨c, hc, he⟩ := Option.map_eq_some_iff.mp h
    exact of_live c (List.mem_of_find?_eq_some hc) he
  · split at h
    · next c hc => exact of_live c (List.mem_filter.mp (pick_mem hc)).1 (Option.some.inj h)
    · split at h
      · next c hc => exact of_live c (List.mem_filter.mp (pick_mem hc)).1 (Option.some.inj h)
      · obtain ⟨c, hc, he⟩ := Option.map_eq_some_iff.mp h
        exact of_live c (List.mem_filter.mp (pick_mem hc)).1 he

theorem Store.chosenRecord_some {env : Env} {s : Store} {parentId id : Nat}
    {m : MaintenanceMirror} (h : s.chosenRecord env parentId m = some id)
    : id ∈ s.linkedRecords parentId
      ∧ ∃ l, s.license? id = some l ∧ l.isLiveMaintenance = true := by
  obtain ⟨term, hm, hr⟩ := chooseActiveMaintenance_mem h
  obtain ⟨key, hk, hc⟩ := List.mem_filterMap.mp hm
  unfold Store.candidate? at hc
  obtain ⟨l, hl, hc⟩ := Option.bind_eq_some_iff.mp hc
  split at hc
  · next ht =>
      obtain ⟨rfl, rfl⟩ : key = id ∧ l.term = term := by simpa using hc
      refine ⟨hk, l, hl, ?_⟩
      have hret : l.isRetired = false := hr
      simp [License.isLiveMaintenance, ht, hret]
  · cases hc

theorem Store.recomputedMirror_active (env : Env) (s : Store) (parentId : Nat)
    (m : MaintenanceMirror)
    : (s.recomputedMirror env parentId m).activeMaintenanceId
      = s.chosenRecord env parentId m := by
  unfold Store.recomputedMirror Store.syncedMirror
  rcases hc : s.chosenRecord env parentId m with _ | id
  · rfl
  · obtain ⟨-, l, hl, hlive⟩ := Store.chosenRecord_some hc
    simp [hl, hlive, mirrorOf]

-- Linking and activation

/-- The link table with a link, which is added when it is missing. -/
def withLink (links : List MaintenanceLink) (link : MaintenanceLink) : List MaintenanceLink :=
  if link ∈ links then links else links ++ [link]

/-- The store with a maintenance link. -/
def Store.withLink (s : Store) (maintenanceId parentId : Nat) : Store :=
  { s with links := LicenseTrack.withLink s.links ⟨maintenanceId, parentId⟩ }

theorem mem_withLink {links : List MaintenanceLink} {link other : MaintenanceLink}
    : other ∈ withLink links link ↔ other ∈ links ∨ other = link := by
  unfold withLink
  split
  · next h => exact ⟨.inl, fun ho => ho.elim id (fun he => he ▸ h)⟩
  · simp

theorem linkMaintenanceToParent_ok {maintenanceId parentId : Nat} {s t : Store}
    (h : linkMaintenanceToParent maintenanceId parentId s = .ok t)
    : (∃ record, s.license? maintenanceId = some record ∧ record.isLiveMaintenance = true)
      ∧ (∃ parent, s.license? parentId = some parent
          ∧ parent.licenseType.isMaintenanceParent = true ∧ parent.isRetired = false
          ∧ parent.retirementScheduled = false)
      ∧ t = s.withLink maintenanceId parentId := by
  simp only [linkMaintenanceToParent, assertParentTypeEligible, assertParentNotRetired,
    bind_eq_ok, found_eq_ok, require_eq_ok] at h
  obtain ⟨record, hr, parent, hp, -, htype, -, hret, -, helig, -, hpar, h⟩ := h
  refine ⟨⟨record, hr, by simp [License.isLiveMaintenance, htype, hret]⟩,
    ⟨parent, hp, helig, by simpa using fun hc => hpar (.inl hc),
      by simpa using fun hc => hpar (.inr hc)⟩, ?_⟩
  unfold Store.withLink withLink
  split at h
  · next hm =>
      obtain rfl := pure_eq_ok.mp h
      simp [hm]
  · next hm =>
      obtain ⟨rfl, -⟩ := flush_eq_ok.mp h
      simp [hm]

/-- The rows after an activation: the record's standing and the parent's mirror change. -/
def activatedRow (env : Env) (s : Store) (maintenanceId parentId : Nat) (id : Nat) (l : License)
    : License :=
  if id = maintenanceId then l.activated parentId
  else if id = parentId then
    l.withMirror
      ((s.withLink maintenanceId parentId).recomputedMirror env parentId l.toMaintenanceMirror)
  else l

/-- A successful activation, as one update of the store. -/
theorem activateMaintenanceForParent_ok {env : Env} {maintenanceId parentId : Nat} {s t : Store}
    (h : activateMaintenanceForParent env maintenanceId parentId s = .ok t)
    : (∃ record, s.license? maintenanceId = some record ∧ record.isLiveMaintenance = true)
      ∧ (∃ parent, s.license? parentId = some parent
          ∧ parent.licenseType.isMaintenanceParent = true ∧ parent.isRetired = false
          ∧ parent.retirementScheduled = false)
      ∧ ∃ history, t = { s with
            licenses := s.licenses.mapRows (activatedRow env s maintenanceId parentId)
            links := withLink s.links ⟨maintenanceId, parentId⟩
            history := history }
        ∧ HistoryGrows (· = parentId) s.history history := by
  simp only [activateMaintenanceForParent, bind_eq_ok, pure_eq_ok] at h
  obtain ⟨s₁, hlink, rfl⟩ := h
  obtain ⟨hrecord, ⟨parent, hp, helig, hret, hsched⟩, rfl⟩ := linkMaintenanceToParent_ok hlink
  refine ⟨hrecord, ⟨parent, hp, helig, hret, hsched⟩, ?_⟩
  have hne : parentId ≠ maintenanceId := by
    rintro rfl
    obtain ⟨record, hr, hlive⟩ := hrecord
    obtain rfl := Option.some.inj (hr.symm.trans hp)
    simp only [License.isLiveMaintenance, Bool.and_eq_true, beq_iff_eq] at hlive
    rw [hlive.1] at helig
    cases helig
  have hsame : SameRecords (s.withLink maintenanceId parentId)
      ((s.withLink maintenanceId parentId).modifyLicense maintenanceId (·.activated parentId)) :=
    SameRecords.of_modify fun _ => rfl
  have hp' : ((s.withLink maintenanceId parentId).modifyLicense maintenanceId
      (·.activated parentId)).license? parentId = some parent := by
    rw [Store.license?_modifyLicense_ne _ _ hne]
    exact hp
  obtain ⟨history, heq, hgrows, -⟩ := recomputeActiveMaintenance_eq env hp'
  rw [hsame.recomputedMirror rfl] at heq
  refine ⟨history, ?_, hgrows⟩
  rw [heq]
  have hrows : ((s.withLink maintenanceId parentId).modifyLicense maintenanceId
        (·.activated parentId)).licenses.modify parentId
          (·.withMirror ((s.withLink maintenanceId parentId).recomputedMirror env parentId
            parent.toMaintenanceMirror))
      = s.licenses.mapRows (activatedRow env s maintenanceId parentId) := by
    ext id : 1
    simp only [Store.modifyLicense, Store.withLink, Table.get?_modify, Table.get?_mapRows,
      Option.map_map]
    rcases hid : s.licenses.get? id with _ | l
    · rfl
    · by_cases hip : id = parentId
      · subst hip
        obtain rfl : l = parent := Option.some.inj (hid.symm.trans hp)
        simp [activatedRow, hne, Store.withLink]
      · by_cases him : id = maintenanceId
        · subst him
          simp [activatedRow, hip]
        · simp [activatedRow, hip, him]
  rw [hrows]
  rfl

-- Activation for several parents

/-- The link table with one record linked to each of some parents. -/
def linkAll (maintenanceId : Nat) (parents : List Nat) (links : List MaintenanceLink)
    : List MaintenanceLink :=
  parents.foldl (fun links parentId => withLink links ⟨maintenanceId, parentId⟩) links

theorem linkAll_eq {maintenanceId : Nat} {parents : List Nat} (hn : parents.Nodup)
    (links : List MaintenanceLink)
    : linkAll maintenanceId parents links
      = links ++ (parents.filter (fun p => MaintenanceLink.mk maintenanceId p ∉ links)).map
          (MaintenanceLink.mk maintenanceId) := by
  unfold linkAll
  induction parents generalizing links with
  | nil => simp
  | cons head rest ih =>
      obtain ⟨hhead, hrest⟩ := List.nodup_cons.mp hn
      rw [List.foldl_cons, ih hrest]
      unfold withLink
      split
      · next hm => simp [hm]
      · next hm =>
          have hkeep : rest.filter (fun p => MaintenanceLink.mk maintenanceId p
                ∉ links ++ [⟨maintenanceId, head⟩])
              = rest.filter (fun p => MaintenanceLink.mk maintenanceId p ∉ links) :=
            List.filter_congr fun p hp => by
              have : p ≠ head := fun he => hhead (he ▸ hp)
              simp [this]
          rw [hkeep]
          simp [hm]

/-- What activations for several parents write on the record itself. -/
def License.activatedFor (parents : List Nat) (record : License) : License :=
  { record with
    parentLicenseId := record.parentLicenseId.or parents.head?
    isLegacyUnlinkedMaintenance :=
      if parents = [] then record.isLegacyUnlinkedMaintenance else false }

@[simp] theorem activatedFor_nil (record : License) : record.activatedFor [] = record := by
  simp [License.activatedFor]

theorem activatedFor_cons (head : Nat) (rest : List Nat) (record : License)
    : (record.activated head).activatedFor rest = record.activatedFor (head :: rest) := by
  cases hp : record.parentLicenseId <;>
    simp [License.activated, License.activatedFor, hp]

/-- The rows after activations for several parents. -/
def activatedRows (env : Env) (s : Store) (maintenanceId : Nat) (parents : List Nat) (id : Nat)
    (l : License)
    : License :=
  if id = maintenanceId then l.activatedFor parents
  else if id ∈ parents then
    l.withMirror ((s.withLink maintenanceId id).recomputedMirror env id l.toMaintenanceMirror)
  else l

theorem SameRecords.activatedRow {env : Env} {s : Store} {maintenanceId parentId : Nat}
    {links : List MaintenanceLink} {history : Table CoverageHistory}
    : SameRecords s { s with
        licenses := s.licenses.mapRows (activatedRow env s maintenanceId parentId)
        links := links
        history := history } :=
  Table.Agrees.of_mapRows fun id l => by
    unfold LicenseTrack.activatedRow
    split
    · rfl
    · split <;> rfl

/-- Successful activations for distinct parents, as one update of the store, by induction on
the parents: each recomputation reads only its own parent's links.
-/
theorem activateAll_ok {env : Env} {maintenanceId : Nat} {parents : List Nat}
    (hn : parents.Nodup) {s t : Store}
    (h : each (fun p => activateMaintenanceForParent env maintenanceId p) parents s = .ok t)
    : (∀ p ∈ parents, ∃ parent, s.license? p = some parent
          ∧ parent.licenseType.isMaintenanceParent = true)
      ∧ (parents ≠ [] → ∃ record, s.license? maintenanceId = some record
          ∧ record.isLiveMaintenance = true)
      ∧ ∃ history, t = { s with
            licenses := s.licenses.mapRows (activatedRows env s maintenanceId parents)
            links := linkAll maintenanceId parents s.links
            history := history }
        ∧ HistoryGrows (· ∈ parents) s.history history := by
  induction parents generalizing s with
  | nil =>
      obtain rfl : s = t := by simpa [each] using h
      refine ⟨by simp, by simp, s.history, ?_, .refl _ _⟩
      have : s.licenses.mapRows (activatedRows env s maintenanceId []) = s.licenses :=
        Table.mapRows_eq_self fun id l _ => by simp [activatedRows]
      rw [this]
      rfl
  | cons head rest ih =>
      obtain ⟨hhead, hrest⟩ := List.nodup_cons.mp hn
      obtain ⟨s₁, h₁, h⟩ := bind_eq_ok.mp h
      obtain ⟨hrecord, ⟨parent, hp, helig, -, -⟩, history₁, hs₁, hg₁⟩ :=
        activateMaintenanceForParent_ok h₁
      obtain ⟨hparents, -, history, ht, hg⟩ := ih hrest h
      have hsame : SameRecords s s₁ := hs₁ ▸ SameRecords.activatedRow
      have hlive : ∀ p parent, s.license? p = some parent
          → parent.licenseType.isMaintenanceParent = true → p ≠ maintenanceId := by
        rintro p parent hp helig rfl
        obtain ⟨record, hr, hlive⟩ := hrecord
        obtain rfl := Option.some.inj (hr.symm.trans hp)
        simp only [License.isLiveMaintenance, Bool.and_eq_true, beq_iff_eq] at hlive
        rw [hlive.1] at helig
        cases helig
      refine ⟨?_, fun _ => hrecord, history, ?_, ?_⟩
      · intro p hm
        rcases List.mem_cons.mp hm with rfl | hm
        · exact ⟨parent, hp, helig⟩
        · obtain ⟨row, hrow, he⟩ := hparents p hm
          obtain ⟨old, hold, hv⟩ := Table.Agrees.back hsame hrow
          have hterms : row.toLicenseTerms = old.toLicenseTerms := congrArg Prod.fst hv
          exact ⟨old, hold, by rw [← hterms]; exact he⟩
      · have hmirror : ∀ id ∈ rest, ∀ m,
            (s₁.withLink maintenanceId id).recomputedMirror env id m
              = (s.withLink maintenanceId id).recomputedMirror env id m := by
          intro id hid m
          have hne : head ≠ id := fun he => hhead (he ▸ hid)
          have hrecords : SameRecords (s.withLink maintenanceId id)
              (s₁.withLink maintenanceId id) := hsame
          have hcand : (s₁.withLink maintenanceId id).candidates id
              = (s.withLink maintenanceId id).candidates id := by
            unfold Store.candidates
            have hlinks : (s₁.withLink maintenanceId id).linkedRecords id
                = (s.withLink maintenanceId id).linkedRecords id := by
              rw [hs₁]
              unfold Store.linkedRecords Store.withLink withLink
              by_cases hm : MaintenanceLink.mk maintenanceId head ∈ s.links
              · simp [hm]
              · by_cases hm' : MaintenanceLink.mk maintenanceId id ∈ s.links
                · simp [hm, hm', hne]
                · simp [hm, hm', hne, Ne.symm hne]
            rw [hlinks]
            exact congrArg (List.filterMap · _) (funext hrecords.candidate?)
          unfold Store.recomputedMirror Store.chosenRecord
          rw [hcand, hrecords.syncedMirror]
        rw [ht, hs₁]
        have hrows : (s.licenses.mapRows (activatedRow env s maintenanceId head)).mapRows
              (activatedRows env s₁ maintenanceId rest)
            = s.licenses.mapRows (activatedRows env s maintenanceId (head :: rest)) := by
          rw [Table.mapRows_mapRows]
          ext id : 1
          rw [Table.get?_mapRows, Table.get?_mapRows]
          rcases hid : s.licenses.get? id with _ | l
          · rfl
          · simp only [Option.map_some, Option.some.injEq, activatedRow, activatedRows]
            by_cases hm : id = maintenanceId
            · simp [hm, activatedFor_cons]
            · by_cases hh : id = head
              · subst hh
                simp [hm, hhead]
              · by_cases hr : id ∈ rest
                · simp [hm, hh, hr, hmirror id hr]
                · simp [hm, hh, hr]
        have hlinks : linkAll maintenanceId rest s₁.links
            = linkAll maintenanceId (head :: rest) s.links := by
          rw [hs₁]
          rfl
        rw [hs₁] at hrows hlinks
        simp only at hrows hlinks
        rw [hrows, hlinks]
      · rw [hs₁] at hg
        exact (hg₁.mono fun id he => List.mem_cons.mpr (.inl he)).trans
          (hg.mono fun id he => List.mem_cons_of_mem _ he)

end LicenseTrack
