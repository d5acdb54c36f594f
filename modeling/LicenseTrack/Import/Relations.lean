import LicenseTrack.Import.PreviewLines

/-! The relations of licences in an import: what a row leaves of the links, the predecessors and the
references that stand, and which parents a new maintenance record is linked to.
-/

namespace LicenseTrack

open Library

/-- What the import of other rows never writes on a licence. -/
def License.relation (l : License) : LicenseType × Option String × Option Nat :=
  (l.licenseType, l.licenseRef, l.predecessorId)

/-- A step that keeps the relations of the licences and loses no link. -/
structure KeepsRelations (s t : Store) : Prop where
  rows : s.licenses.Agrees License.relation t.licenses
  links : ∀ link ∈ s.links, link ∈ t.links

namespace KeepsRelations

variable {s t v : Store}

theorem refl (s : Store) : KeepsRelations s s := ⟨Table.Agrees.refl _ _, fun _ h => h⟩

theorem trans (h : KeepsRelations s t) (h' : KeepsRelations t v) : KeepsRelations s v :=
  ⟨h.rows.trans h'.rows, fun link hlink => h'.links link (h.links link hlink)⟩

theorem of_modify {id : Nat} {f : License → License} (h : ∀ l, (f l).relation = l.relation)
    : KeepsRelations s (s.modifyLicense id f) :=
  ⟨Table.Agrees.of_modify h, fun _ hlink => hlink⟩

theorem of_write {id : Nat} {f : License → License} {l : License} (hl : s.license? id = some l)
    (h : (f l).relation = l.relation)
    : KeepsRelations s (s.modifyLicense id f) where
  rows := fun key => by
    change (Option.map _ ((s.modifyLicense id f).license? key)) = Option.map _ (s.license? key)
    by_cases he : key = id
    · rw [he, Store.license?_modifyLicense_self, hl, Option.map_some, Option.map_some,
        Option.map_some, h]
    · rw [Store.license?_modifyLicense_ne _ _ he]
  links := fun _ hlink => hlink

theorem of_bookkeeping (h : OnlyMaintenance s t) (hlinks : t.links = s.links)
    : KeepsRelations s t where
  rows := h.core.coarsen (fun core => (core.2.1.licenseType, core.2.2.2.licenseRef,
    core.2.2.2.predecessorId))
  links := fun _ hlink => hlinks ▸ hlink

end KeepsRelations

theorem activateMaintenanceForParent_relations {env : Env} {maintenanceId parentId : Nat}
    {s t : Store} (h : activateMaintenanceForParent env maintenanceId parentId s = .ok t)
    : KeepsRelations s t ∧ ⟨maintenanceId, parentId⟩ ∈ t.links := by
  obtain ⟨-, -, history, rfl, -⟩ := activateMaintenanceForParent_ok h
  refine ⟨⟨Table.Agrees.of_mapRows fun id l => ?_, fun link hlink => mem_withLink.mpr (.inl hlink)⟩,
    mem_withLink.mpr (.inr rfl)⟩
  unfold activatedRow
  split_ifs <;> rfl

/-- A stored licence carries a reference. -/
def Carries (u : Unicode) (s : Store) (id : Nat) (ref : String) : Prop :=
  ∃ l, s.license? id = some l ∧ l.licenseRef.any (fun stored => sqlLower stored == u.refKey ref) = true

/-- A stored licence of a type that maintenance can attach to carries a reference. -/
def EligibleParent (u : Unicode) (s : Store) (ref : String) (id : Nat) : Prop :=
  ∃ l, s.license? id = some l ∧ l.licenseType.isMaintenanceParent = true
    ∧ l.licenseRef.any (fun stored => sqlLower stored == u.refKey ref) = true

theorem mem_licensesByRef {u : Unicode} {s : Store} {ref : String} {entry : Nat × License}
    : entry ∈ licensesByRef u s ref ↔ s.license? entry.1 = some entry.2
        ∧ entry.2.licenseRef.any (fun stored => sqlLower stored == u.refKey ref) = true := by
  rw [licensesByRef, List.mem_filter, ← Table.get?_eq_some]
  rfl

theorem resolveMaintenanceParentRef_ok {u : Unicode} {s : Store} {ref : String} {id : Nat}
    (h : resolveMaintenanceParentRef u s ref = .ok id)
    : EligibleParent u s ref id := by
  unfold resolveMaintenanceParentRef at h
  dsimp only at h
  split at h
  · obtain ⟨_, hthrow, -⟩ := bind_eq_ok.mp h
    exact absurd hthrow throw_ne_ok
  · next first rest hmatches =>
      obtain ⟨_, hfirst, h⟩ := bind_eq_ok.mp h
      obtain rfl := pure_eq_ok.mp hfirst
      split at h
      · next parent hone =>
          obtain rfl := pure_eq_ok.mp h
          have hmem : parent ∈ (first :: rest).filter
              (fun entry => (validateParentLicense s entry.1).isOk) :=
            hone ▸ List.mem_singleton_self _
          obtain ⟨hin, hvalid⟩ := List.mem_filter.mp hmem
          obtain ⟨hstored, href⟩ := mem_licensesByRef.mp (hmatches ▸ hin)
          obtain ⟨l, hl⟩ := exists_ok hvalid
          simp only [validateParentLicense, assertParentTypeEligible, bind_eq_ok, found_eq_ok,
            require_eq_ok] at hl
          obtain ⟨_, hl, _, htype, -⟩ := hl
          obtain rfl := Option.some.inj (hstored.symm.trans hl)
          exact ⟨_, hstored, htype, href⟩
      · split_ifs at h
      · cases h

-- Activations

/-- What a further parent of a record is: the licence that a row of the file with this reference
became, or else a stored one of an eligible type that carries it.
-/
def FurtherParent (u : Unicode) (progress : ImportProgress) (s : Store) (ref : String) (id : Nat)
    : Prop :=
  progress.byRef u ref = some id ∨ progress.byRef u ref = none ∧ EligibleParent u s ref id

theorem activateImportedParent_relations {env : Env} {progress : ImportProgress} {id : Nat}
    {ref : String} {s t : Store} (h : activateImportedParent env progress id ref s = .ok t)
    : KeepsRelations s t
      ∧ ∃ parentId, ⟨id, parentId⟩ ∈ t.links
          ∧ FurtherParent env.unicode progress s ref parentId := by
  unfold activateImportedParent at h
  split at h
  · next parentId hknown =>
      obtain ⟨_, -, h⟩ := bind_eq_ok.mp h
      obtain ⟨hkeeps, hlink⟩ := activateMaintenanceForParent_relations h
      exact ⟨hkeeps, parentId, hlink, .inl hknown⟩
  · next hunknown =>
      obtain ⟨parentId, hresolved, h⟩ := bind_eq_ok.mp h
      obtain ⟨hkeeps, hlink⟩ := activateMaintenanceForParent_relations h
      exact ⟨hkeeps, parentId, hlink, .inr ⟨hunknown, resolveMaintenanceParentRef_ok hresolved⟩⟩

theorem activateFurther_relations {env : Env} {progress : ImportProgress} {id : Nat}
    {refs : List String} {s t : Store}
    (h : each (activateImportedParent env progress id) refs s = .ok t)
    : KeepsRelations s t
      ∧ ∀ ref ∈ refs, ∃ parentId v, ⟨id, parentId⟩ ∈ t.links ∧ KeepsRelations s v
          ∧ FurtherParent env.unicode progress v ref parentId := by
  induction refs generalizing s with
  | nil =>
      obtain rfl : s = t := by simpa [each] using h
      exact ⟨.refl s, by simp⟩
  | cons head rest ih =>
      obtain ⟨v, hfirst, hrest⟩ := bind_eq_ok.mp h
      obtain ⟨hkeeps, parentId, hlink, hparent⟩ := activateImportedParent_relations hfirst
      obtain ⟨hkeeps', hothers⟩ := ih hrest
      refine ⟨hkeeps.trans hkeeps', List.forall_mem_cons.mpr ⟨?_, fun ref href => ?_⟩⟩
      · exact ⟨parentId, s, hkeeps'.links _ hlink, .refl s, hparent⟩
      · obtain ⟨other, w, hlink', hw, hother⟩ := hothers ref href
        exact ⟨other, w, hlink', hkeeps.trans hw, hother⟩

theorem activateImported_relations {env : Env} {progress : ImportProgress} {id : Nat}
    {license : License} {refs : List String} {s t : Store}
    (h : activateImported env progress id license refs s = .ok t)
    : KeepsRelations s t
      ∧ ∀ parentId, license.licenseType = .maintenance → license.parentLicenseId = some parentId
        → (s.license? parentId).isSome = true
        → ⟨id, parentId⟩ ∈ t.links
          ∧ ∀ ref ∈ refs, ∃ furtherId v, ⟨id, furtherId⟩ ∈ t.links ∧ KeepsRelations s v
              ∧ FurtherParent env.unicode progress v ref furtherId := by
  unfold activateImported at h
  split at h
  · next parentId htype hparent =>
      split at h
      · obtain ⟨v, hfirst, hrest⟩ := bind_eq_ok.mp h
        obtain ⟨hkeeps, hlink⟩ := activateMaintenanceForParent_relations hfirst
        obtain ⟨hkeeps', hothers⟩ := activateFurther_relations hrest
        refine ⟨hkeeps.trans hkeeps', fun other _ hother _ => ?_⟩
        obtain rfl := Option.some.inj (hparent.symm.trans hother)
        refine ⟨hkeeps'.links _ hlink, fun ref href => ?_⟩
        obtain ⟨furtherId, w, hlink', hw, hfurther⟩ := hothers ref href
        exact ⟨furtherId, w, hlink', hkeeps.trans hw, hfurther⟩
      · next hmissing =>
          obtain ⟨v, hsame, hrest⟩ := bind_eq_ok.mp h
          obtain rfl := pure_eq_ok.mp hsame
          refine ⟨(activateFurther_relations hrest).1, fun other _ hother hstored => ?_⟩
          obtain rfl := Option.some.inj (hparent.symm.trans hother)
          exact absurd hstored hmissing
  · next hnot =>
      obtain rfl := Except.ok.inj h
      exact ⟨.refl s, fun parentId htype hparent _ => absurd hparent (hnot parentId htype)⟩

-- New records

/-- The store behind a new record, against the one before: the others keep their relations, the
links stay, and the record has the type and the predecessor that were built.
-/
structure AddsRecord (id : Nat) (license : License) (s t : Store) : Prop where
  others : ∀ other, other ≠ id
    → (t.license? other).map License.relation = (s.license? other).map License.relation
  links : ∀ link ∈ s.links, link ∈ t.links
  record : ∃ l, t.license? id = some l ∧ l.licenseType = license.licenseType
    ∧ l.predecessorId = license.predecessorId

theorem AddsRecord.trans {id : Nat} {license : License} {s t v : Store}
    (h : AddsRecord id license s t) (h' : KeepsRelations t v)
    : AddsRecord id license s v where
  others := fun other hne => (h'.rows other).trans (h.others other hne)
  links := fun link hlink => h'.links link (h.links link hlink)
  record := by
    obtain ⟨l, hl, htype, hpredecessor⟩ := h.record
    obtain ⟨l', hl', hrelation⟩ := h'.rows.forth hl
    simp only [License.relation, Prod.mk.injEq] at hrelation
    exact ⟨l', hl', hrelation.1.trans htype, hrelation.2.2.trans hpredecessor⟩

theorem syncLicenseLine_relations (u : Unicode) (id : Nat) (requested : Option Nat) (s : Store)
    : KeepsRelations s (syncLicenseLine u id requested s) where
  rows := (syncLicenseLine_only u id requested s).rows.coarsen License.relation
  links := fun link hlink => by
    rw [(syncLicenseLine_only u id requested s).rest]
    exact hlink

theorem registerNewRow_adds (env : Env) (row : ParsedRow) (license : License) (s : Store)
    : AddsRecord s.licenses.nextKey license s (registerNewRow env row license s) := by
  have hnumbered := syncLicenseLine_relations env.unicode s.licenses.nextKey row.poLineNumber
    { s with licenses := s.licenses.insert license }
  have hinserted : AddsRecord s.licenses.nextKey license s
      { s with licenses := s.licenses.insert license } := by
    refine ⟨fun other hne => ?_, fun _ hlink => hlink, license, ?_, rfl, rfl⟩
    · rw [Store.license?, Table.get?_insert, if_neg hne]
      rfl
    · rw [Store.license?, Table.get?_insert, if_pos rfl]
  have hadded := hinserted.trans hnumbered
  obtain ⟨l, hl, htype, hpredecessor⟩ := hadded.record
  unfold registerNewRow
  generalize syncLicenseLine env.unicode s.licenses.nextKey row.poLineNumber
    { s with licenses := s.licenses.insert license } = v at hadded hl ⊢
  refine ⟨fun other hne => ?_, hadded.links, ?_⟩
  · rw [assignLicenseRef, Store.license?_modifyLicense_ne _ _ hne]
    exact hadded.others other hne
  · have href : (assignLicenseRef env s.licenses.nextKey v).license? s.licenses.nextKey
        = some { l with licenseRef := some (generateLicenseRef env v).1 } := by
      rw [assignLicenseRef, Store.license?_modifyLicense_self]
      change Option.map _ (v.license? s.licenses.nextKey) = _
      rw [hl]
      rfl
    exact ⟨_, href, htype, hpredecessor⟩

theorem EligibleParent.before {u : Unicode} {id parentId : Nat} {license : License} {ref : String}
    {s t : Store} (hadds : AddsRecord id license s t) (htype : license.licenseType = .maintenance)
    (h : EligibleParent u t ref parentId)
    : EligibleParent u s ref parentId := by
  obtain ⟨l, hl, heligible, href⟩ := h
  have hne : parentId ≠ id := by
    rintro rfl
    obtain ⟨record, hrecord, hrecordType, -⟩ := hadds.record
    obtain rfl := Option.some.inj (hl.symm.trans hrecord)
    rw [hrecordType, htype] at heligible
    cases heligible
  have hsame := hadds.others parentId hne
  rw [hl, Option.map_some] at hsame
  obtain ⟨old, hold, hrelation⟩ := Option.map_eq_some_iff.mp hsame.symm
  simp only [License.relation, Prod.mk.injEq] at hrelation
  exact ⟨old, hold, hrelation.1 ▸ heligible, hrelation.2.1 ▸ href⟩

theorem buildLicense_refs {u : Unicode} {s : Store} {row : ParsedRow} {parentOverride : Option Nat}
    {license : License} (h : buildLicense u s row parentOverride = .ok license)
    : resolveRowRef u s (row.licenseType.getD .subscription) row parentOverride
        = .ok (license.parentLicenseId, license.predecessorId)
      ∧ license.licenseType = row.licenseType.getD .subscription
      ∧ (row.maintenanceParentAction = none → license.isLegacyUnlinkedMaintenance = false) := by
  simp only [buildLicense, bind_eq_ok, pure_eq_ok] at h
  obtain ⟨⟨parentId, predecessorId⟩, hresolved, _, -, _, -, rfl⟩ := h
  refine ⟨hresolved, rfl, fun haction => ?_⟩
  simp [haction]

theorem importNewRow_marked {env : Env} {progress : ImportProgress} {row : ParsedRow} {s t : Store}
    (h : importNewRow env progress row s = .ok t)
    : ∃ license marked,
        buildLicense env.unicode s row (importedParentId env.unicode progress row) = .ok license
        ∧ AddsRecord s.licenses.nextKey license s marked
        ∧ activateImported env progress s.licenses.nextKey license row.parentLicenseRefs marked
          = .ok t
        ∧ ({ s with licenses := s.licenses.insert license } : Store).Constraints
        ∧ t.Constraints := by
  obtain ⟨license, marked, hbuild, hmarked, hactivated, hinserted, hconstraints⟩ := importNewRow_ok h
  have hregistered := registerNewRow_adds env row license s
  refine ⟨license, marked, hbuild, ?_, hactivated, hinserted, hconstraints⟩
  rcases hmarked with rfl | ⟨predecessorId, -, rfl⟩
  · exact hregistered
  · exact hregistered.trans (.of_modify fun _ => rfl)

theorem recordIncludedSupportExit_links (u : Unicode) (id : Nat) (previous : MaintenanceCoverage)
    (s : Store)
    : (recordIncludedSupportExit u id previous s).links = s.links := by
  unfold recordIncludedSupportExit
  split
  · split_ifs
    · rfl
    · rfl
    · obtain ⟨history, he, -⟩ := snapshotIncludedSupport_eq id s
      rw [he]
      rfl
  · rfl

theorem importSupport_relations {u : Unicode} {id : Nat} {row : ParsedRow} {l : License}
    {s t : Store} (h : importSupport u id row l s = .ok t)
    : KeepsRelations s t := by
  rcases importSupport_cases h with ⟨-, -, rfl⟩ | rfl
  · have hwritten : KeepsRelations s
        (s.modifyLicense id (fun l => l.withMirror (row.writeSupport l.toMaintenanceMirror))) :=
      .of_modify (f := fun l => l.withMirror (row.writeSupport l.toMaintenanceMirror)) fun _ => rfl
    exact hwritten.trans (.of_bookkeeping (recordIncludedSupportExit_only u id _ _)
      (recordIncludedSupportExit_links u id _ _))
  · exact .refl _

theorem syncMirrors_relations (u : Unicode) (parents : List Nat) (s : Store)
    : KeepsRelations s (parents.foldl (fun s parentId => syncParentMirrorFields u parentId s) s) := by
  induction parents generalizing s with
  | nil => exact .refl s
  | cons head rest ih =>
      refine KeepsRelations.trans ?_ (ih (syncParentMirrorFields u head s))
      exact .of_bookkeeping (syncParentMirrorFields_only u head s) rfl

theorem importUpdateRow_relations {env : Env} {id : Nat} {row : ParsedRow} {s t : Store}
    (h : importUpdateRow env id row s = .ok t)
    : KeepsRelations s t ∧ t.Constraints := by
  simp only [importUpdateRow, bind_eq_ok, found_eq_ok, flush_eq_ok] at h
  obtain ⟨l, hl, v, hupdate, rfl, hconstraints⟩ := h
  obtain ⟨f, imported, hsupport, hchain, himported, rfl⟩ := applyImportUpdate_ran hupdate
  have htype : (f l).licenseType = l.licenseType := congrArg Prod.fst hsupport
  have hrelation : (f l).relation = l.relation := by
    simp only [License.relation, htype, hchain]
  have hwritten : KeepsRelations s (s.modifyLicense id f) := .of_write hl hrelation
  have hdefaulted : KeepsRelations imported
      (imported.modifyLicense id (syncSupportDefaults env.unicode)) :=
    .of_modify (f := syncSupportDefaults env.unicode) fun _ => rfl
  have hupdated := (hwritten.trans (importSupport_relations himported)).trans hdefaulted
  refine ⟨KeepsRelations.trans ?_ (syncLicenseLine_relations env.unicode id none _), hconstraints⟩
  split
  · exact hupdated.trans (syncMirrors_relations env.unicode _ _)
  · exact hupdated

end LicenseTrack
