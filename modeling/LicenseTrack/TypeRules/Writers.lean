import LicenseTrack.Chains.Adoption
import LicenseTrack.Import.RowEffect
import LicenseTrack.Import.UpdateFrame
import LicenseTrack.Support.Requests
import LicenseTrack.Retirement.UnderRenewalRuns

/-! What the type of a licence determines of its terms, and which requests on single licences
keep to it: creation, update, patch, import and the work that writes no terms at all.
-/

namespace LicenseTrack

open Library

/-- Terms in which each field that the type determines is as the type says. -/
structure LicenseTerms.Typed (t : LicenseTerms) : Prop where
  endDate : t.licenseType.isNonExpiring = true → t.endDate = none
  prices : t.licenseType = .freeware → t.unitPrice = "" ∧ t.totalPoPrice = ""
  renewable : t.isRenewable ≠ none → t.licenseType.isRenewalOptIn = true
  description : t.typeDescription ≠ none → t.licenseType = .other

/-- Every stored licence fits its type. -/
def TypedLicenses (s : Store) : Prop := ∀ id l, s.license? id = some l → l.toLicenseTerms.Typed

theorem normaliseTypeOptInFields_typed {t : LicenseTerms}
    (hend : t.licenseType.isNonExpiring = true → t.endDate = none)
    (hprices : t.licenseType = .freeware → t.unitPrice = "" ∧ t.totalPoPrice = "")
    : (normaliseTypeOptInFields t).Typed where
  endDate := hend
  prices := hprices
  renewable := fun hset => by
    by_contra hopt
    exact hset (if_neg hopt)
  description := fun hset => by
    by_contra hother
    exact hset (if_neg hother)

theorem normaliseLicenseTypeFields_typed (t : LicenseTerms)
    : (normaliseLicenseTypeFields t).Typed :=
  normaliseTypeOptInFields_typed (fun hexpires => if_pos hexpires)
    fun hfree => ⟨if_pos hfree, if_pos hfree⟩

theorem typed_of_maintenance {t : LicenseTerms} (htype : t.licenseType = .maintenance)
    (hrenewable : t.isRenewable = none) (hdescription : t.typeDescription = none)
    : t.Typed where
  endDate := fun h => by
    rw [htype] at h
    cases h
  prices := fun h => by
    rw [htype] at h
    cases h
  renewable := fun hset => absurd hrenewable hset
  description := fun hset => absurd hdescription hset

namespace TypedLicenses

variable {s t : Store}

theorem of_agrees (hs : TypedLicenses s)
    (h : s.licenses.Agrees (fun l : License => l.toLicenseTerms) t.licenses)
    : TypedLicenses t := by
  intro id l hl
  obtain ⟨old, hold, he⟩ := Table.Agrees.back h hl
  exact he ▸ hs id old hold

theorem of_core (hs : TypedLicenses s) (h : SameCore s t) : TypedLicenses t :=
  hs.of_agrees (h.coarsen (fun core => core.2.1))

theorem of_licenses (hs : TypedLicenses s) (h : t.licenses = s.licenses) : TypedLicenses t :=
  hs.of_agrees (h ▸ Table.Agrees.refl _ _)

theorem modify (hs : TypedLicenses s) {id : Nat} {f : License → License}
    (h : ∀ l, s.license? id = some l → l.toLicenseTerms.Typed → (f l).toLicenseTerms.Typed)
    : TypedLicenses (s.modifyLicense id f) := by
  intro key l hl
  rw [Store.license?_modifyLicense] at hl
  obtain ⟨old, hold, rfl⟩ := Option.map_eq_some_iff.mp hl
  split
  · next hk =>
      subst hk
      exact h old hold (hs key old hold)
  · exact hs key old hold

theorem insert (hs : TypedLicenses s) {row : License} (h : row.toLicenseTerms.Typed)
    : TypedLicenses { s with licenses := s.licenses.insert row } := by
  intro id l hl
  unfold Store.license? at hl
  rw [Table.get?_insert] at hl
  split at hl
  · obtain rfl := Option.some.inj hl
    exact h
  · exact hs id l hl

theorem insertLicense {u : Unicode} {row : License} {id : Nat} (hs : TypedLicenses s)
    (hrow : row.toLicenseTerms.Typed) (h : insertLicense u row s = .ok (id, t))
    : TypedLicenses t := by
  obtain ⟨-, -, -, hnumbers⟩ := insertLicense_ok h
  exact (hs.insert hrow).of_core hnumbers.core

theorem assignLicenseRef (hs : TypedLicenses s) (env : Env) (id : Nat)
    : TypedLicenses (assignLicenseRef env id s) := by
  have hissued : TypedLicenses (generateLicenseRef env s).2 := hs.of_licenses rfl
  exact hissued.modify fun _ _ htyped => htyped

end TypedLicenses

-- Creation

/-- Data that leave the fields of Service and Other licences empty. -/
def License.LeavesOptIns (row : License) : Prop :=
  row.isRenewable = none ∧ row.typeDescription = none

theorem TypedLicenses.createMaintenance {env : Env} {parentId : Nat} {row : License}
    {s t : Store} {id : Nat} (hs : TypedLicenses s) (hrow : row.LeavesOptIns)
    (h : createMaintenanceForParent env parentId row s = .ok (id, t))
    : TypedLicenses t := by
  simp only [createMaintenanceForParent, bind_eq_ok, pure_eq_ok, Prod.mk.injEq] at h
  obtain ⟨⟨resolved, v⟩, hresolved, _, -, ⟨newId, inserted⟩, hinsert, activated, hactivated, -,
    rfl⟩ := h
  obtain ⟨⟨details, rfl⟩, hv⟩ := resolveRowReferences_ok hresolved
  have hrecord : (maintenanceRow parentId (row.withDetails details)).toLicenseTerms.Typed :=
    typed_of_maintenance rfl hrow.1 hrow.2
  have hinserted := (hs.of_licenses hv.licenses).insertLicense hrecord hinsert
  exact (hinserted.assignLicenseRef env newId).of_core
    (activateMaintenanceForParent_only hactivated).core

theorem TypedLicenses.createRecord {env : Env} {bundleId : Option String}
    {payload : LicenseCreate} {s t : Store} {id : Nat} (hs : TypedLicenses s)
    (hrow : payload.row.licenseType = .maintenance → payload.row.LeavesOptIns)
    (h : createLicenseRecord env bundleId payload s = .ok (id, t))
    : TypedLicenses t := by
  simp only [createLicenseRecord, bind_eq_ok] at h
  obtain ⟨_, -, h⟩ := h
  split at h
  · next hmaintenance =>
      unfold createMaintenanceRecord at h
      split at h
      · simp at h
      · next firstParent extraParents _ =>
          simp only [bind_eq_ok, pure_eq_ok, Prod.mk.injEq] at h
          obtain ⟨_, -, ⟨resolved, v⟩, hresolved, contract, -, ⟨newId, created⟩, hcreated, linked,
            hlinked, -, rfl⟩ := h
          obtain ⟨⟨details, rfl⟩, hv⟩ := resolveRowReferences_ok hresolved
          refine each_keeps (P := TypedLicenses)
            (fun _ _ _ _ hv h => hv.of_core (activateMaintenanceForParent_only h).core) ?_ hlinked
          refine (hs.of_licenses hv.licenses).createMaintenance ?_ hcreated
          have hinvoices : ∀ row : License, row.LeavesOptIns → (syncInvoiceNumbers row).LeavesOptIns
              := fun row hleaves => by
            unfold syncInvoiceNumbers
            split
            · exact hleaves
            · split <;> exact hleaves
          exact hinvoices _ (hrow hmaintenance)
  · simp only [createPlainRecord, bind_eq_ok, pure_eq_ok, Prod.mk.injEq] at h
    obtain ⟨_, -, _, -, ⟨resolved, v⟩, hresolved, _, -, _, -, _, -, contract, -,
      ⟨newId, inserted⟩, hinsert, -, rfl⟩ := h
    obtain ⟨⟨details, rfl⟩, hv⟩ := resolveRowReferences_ok hresolved
    exact ((hs.of_licenses hv.licenses).insertLicense (normaliseLicenseTypeFields_typed _)
      hinsert).assignLicenseRef env newId

theorem TypedLicenses.createBatchLines {env : Env} {bundleId : Option String}
    {items : List LicenseBatchCreateItem} {created : List Nat} {s t : Store}
    (hs : TypedLicenses s)
    (hitems : ∀ item ∈ items, item.license.row.licenseType = .maintenance →
      item.license.row.LeavesOptIns)
    (h : createBatchLines env bundleId items created s = .ok t)
    : TypedLicenses t := by
  induction items generalizing created s with
  | nil =>
      obtain rfl := Except.ok.inj h
      exact hs
  | cons item rest ih =>
      simp only [LicenseTrack.createBatchLines, bind_eq_ok] at h
      obtain ⟨⟨id, v⟩, hrecord, h⟩ := h
      -- The parent that an earlier line names is no term.
      have hpayload : (item.payload created).row.toLicenseTerms = item.license.row.toLicenseTerms
          := by
        unfold LicenseBatchCreateItem.payload
        split <;> rfl
      have hrow : (item.payload created).row.licenseType = .maintenance →
          (item.payload created).row.LeavesOptIns := by
        unfold License.LeavesOptIns
        rw [hpayload]
        exact hitems item List.mem_cons_self
      exact ih (hs.createRecord hrow hrecord)
        (fun other hm => hitems other (List.mem_cons_of_mem _ hm)) h

-- Update

theorem syncActiveMaintenanceParentIfNeeded_only (u : Unicode) (id : Nat) (s : Store)
    : OnlyMaintenance s (syncActiveMaintenanceParentIfNeeded u id s) := by
  unfold syncActiveMaintenanceParentIfNeeded
  split
  · split
    · refine OnlyMaintenance.foldl (fun v parentId => ?_) _ s
      split
      · exact syncParentMirrorFields_only u parentId v
      · exact .refl v
    · exact .refl s
  · exact .refl s

theorem detachAllMaintenanceRelationships_only (id : Nat) (s : Store)
    : OnlyMaintenance s (detachAllMaintenanceRelationships id s) :=
  (OnlyMaintenance.foldl (fun v parentId => detachMaintenanceFromParent_only id parentId true v)
    (s.storedParentsOf id) s).trans (.of_modify fun _ => rfl)

theorem reconcileMaintenanceRelationshipsAfterUpdate_only {env : Env} {id : Nat}
    {previous : Option Nat} {requested : Option (Option Nat)} {s t : Store}
    (h : reconcileMaintenanceRelationshipsAfterUpdate env id previous requested s = .ok t)
    : OnlyMaintenance s t := by
  simp only [reconcileMaintenanceRelationshipsAfterUpdate, bind_eq_ok, found_eq_ok] at h
  obtain ⟨l, -, h⟩ := h
  split at h
  · obtain rfl := pure_eq_ok.mp h
    apply OnlyMaintenance.trans (t := if previous ≠ none ∨ l.parentLicenseId ≠ none then
        detachAllMaintenanceRelationships id s else s)
    · split
      · exact detachAllMaintenanceRelationships_only id s
      · exact .refl s
    · exact .of_modify fun _ => rfl
  · split at h
    · obtain rfl := pure_eq_ok.mp h
      exact retireMaintenanceLicense_only id s
    · cases requested with
      | none =>
          obtain rfl := pure_eq_ok.mp h
          exact .refl s
      | some target =>
          -- The record leaves its previous parent before it moves to its new one, if any.
          have hleft : ∀ old, OnlyMaintenance s
              (if previous ≠ target ∧ (s.license? old).isSome then
                detachMaintenanceFromParent id old false s else s) := by
            intro old
            split
            · exact detachMaintenanceFromParent_only id old false s
            · exact .refl s
          have hmoved : ∀ v parentId, OnlyMaintenance s v →
              (if previous ≠ some parentId then do
                let _ ← validateParentLicense v parentId
                let s ← activateMaintenanceForParent env id parentId v
                pure (s.modifyLicense id (fun l => { l with parentLicenseId := some parentId }))
              else pure v) = Except.ok t → OnlyMaintenance s t := by
            intro v parentId hv hrest
            split at hrest
            · simp only [bind_eq_ok, pure_eq_ok] at hrest
              obtain ⟨_, -, w, hactivated, rfl⟩ := hrest
              exact (hv.trans (activateMaintenanceForParent_only hactivated)).trans
                (.of_modify fun _ => rfl)
            · obtain rfl := pure_eq_ok.mp hrest
              exact hv
          cases previous <;> cases target <;> simp only at h
          · obtain rfl := pure_eq_ok.mp h
            exact .refl s
          · exact hmoved _ _ (.refl s) h
          · obtain rfl := pure_eq_ok.mp h
            exact hleft _
          · exact hmoved _ _ (hleft _) h

theorem TypedLicenses.update {env : Env} {id : Nat} {p : LicenseUpdate} {s t : Store}
    (hs : TypedLicenses s) (h : updateLicense env id p s = .ok t)
    : TypedLicenses t := by
  simp only [updateLicense, bind_eq_ok, flush_eq_ok] at h
  obtain ⟨p, -, _, h, rfl, -⟩ := h
  obtain ⟨l, hran⟩ := applyLicenseUpdate_ran h
  obtain ⟨details, v, hrefs, -, w, hw, -, reconciled, hreconciled, rfl⟩ := hran.ran
  have hv : TypedLicenses v := hs.of_licenses (resolveLicenseReferenceUpdates_only hrefs).licenses
  have hsnapshot : TypedLicenses (if p.licenseType.isSome then
      snapshotIncludedSupportBeforeTypeChange id (p.writeTerms l).licenseType v else v) := by
    split
    · exact hv.of_licenses (snapshotIncludedSupportBeforeTypeChange_licenses _ _ _)
    · exact hv
  have hrow : ∀ w, TypedLicenses w → TypedLicenses (w.modifyLicense id
      (p.writeRow details (p.writeTerms l) (p.override env id l v) (p.retirement env l))) :=
    fun _ hw => hw.modify fun _ _ _ => normaliseLicenseTypeFields_typed _
  have hwrittenRow : TypedLicenses (p.writtenRow env id l details v) := by
    simp only [LicenseUpdate.writtenRow]
    split
    · exact (hrow _ hsnapshot).of_core (syncLicenseLine_only env.unicode id none _).core
    · exact hrow _ hsnapshot
  have hwritten : TypedLicenses (p.written env id l details v) := by
    have hsupport : TypedLicenses ((p.writtenRow env id l details v).modifyLicense id
        (syncSupportDefaults env.unicode)) := hwrittenRow.modify fun _ _ htyped => htyped
    exact hsupport.of_core (recordIncludedSupportExit_only env.unicode id _ _).core
  have hcontract : TypedLicenses w := by
    rcases hw with rfl | ⟨contract, -, rfl⟩
    · exact hwritten
    · exact hwritten.modify fun _ _ htyped => htyped
  have hreconciled := reconcileMaintenanceRelationshipsAfterUpdate_only hreconciled
  exact hcontract.of_core
    (hreconciled.trans (syncActiveMaintenanceParentIfNeeded_only env.unicode id _)).core

-- Patch

/-- A patch that gives a free licence no price. -/
def LicensePatch.PricesNoFreeware (l : License) : LicensePatch → Prop
  | .plain .unitPrice value => l.licenseType = .freeware → value.getD "" = ""
  | .plain .totalPoPrice value => l.licenseType = .freeware → value.getD "" = ""
  | _ => True

theorem setPlain_typed {l : License} {field : PlainPatchField} {value : Option String}
    (hl : l.toLicenseTerms.Typed) (hprice : LicensePatch.PricesNoFreeware l (.plain field value))
    : (l.setPlain field value).toLicenseTerms.Typed := by
  cases field with
  | unitPrice =>
      exact ⟨hl.endDate, fun hfree => ⟨hprice hfree, (hl.prices hfree).2⟩, hl.renewable,
        hl.description⟩
  | totalPoPrice =>
      exact ⟨hl.endDate, fun hfree => ⟨(hl.prices hfree).1, hprice hfree⟩, hl.renewable,
        hl.description⟩
  | _ => exact ⟨hl.endDate, hl.prices, hl.renewable, hl.description⟩

theorem setDate_typed {l : License} (hl : l.toLicenseTerms.Typed) (field : DatePatchField)
    (value : Option Date)
    : (l.setDate field value).toLicenseTerms.Typed := by
  cases field with
  | endDate => exact ⟨fun hexpires => if_pos hexpires, hl.prices, hl.renewable, hl.description⟩
  | _ => exact ⟨hl.endDate, hl.prices, hl.renewable, hl.description⟩

theorem TypedLicenses.patchField {u : Unicode} {id : Nat} {patch : LicensePatch} {l : License}
    {s t : Store} (hs : TypedLicenses s) (hl : s.license? id = some l)
    (hprice : patch.PricesNoFreeware l) (h : patchField u id patch l s = .ok t)
    : TypedLicenses t := by
  cases patch with
  | plain field value =>
      obtain rfl := Except.ok.inj h
      refine hs.modify fun old hold htyped => ?_
      obtain rfl := Option.some.inj (hold.symm.trans hl)
      exact setPlain_typed htyped hprice
  | licenseMetric value =>
      obtain rfl := Except.ok.inj h
      exact hs.modify fun _ _ htyped => htyped
  | date field value =>
      simp only [LicenseTrack.patchField, bind_eq_ok, pure_eq_ok] at h
      obtain ⟨_, -, rfl⟩ := h
      exact hs.modify fun _ _ htyped => setDate_typed htyped field value
  | time field value =>
      obtain rfl := Except.ok.inj h
      exact hs.modify fun _ _ htyped => by cases field <;> exact htyped
  | licenseType value =>
      simp only [LicenseTrack.patchField, bind_eq_ok, pure_eq_ok] at h
      obtain ⟨newType, -, _, -, rfl⟩ := h
      have hsnapshot := hs.of_licenses
        (snapshotIncludedSupportBeforeTypeChange_licenses id newType s)
      exact hsnapshot.modify fun _ _ _ => normaliseLicenseTypeFields_typed _
  | maintenanceCoverage value =>
      simp only [LicenseTrack.patchField, bind_eq_ok, pure_eq_ok] at h
      obtain ⟨coverage, -, _, -, rfl⟩ := h
      have hwritten : TypedLicenses (s.modifyLicense id (fun l =>
          { l with maintenanceCoverage := coverage })) := hs.modify fun _ _ htyped => htyped
      exact hwritten.of_core (recordIncludedSupportExit_only u id _ _).core
  | contractNumber value =>
      simp only [LicenseTrack.patchField, bind_eq_ok, pure_eq_ok] at h
      obtain ⟨contract, -, rfl⟩ := h
      have hnumber : TypedLicenses (s.modifyLicense id (fun l =>
          { l with contractNumber := value.getD "" })) := hs.modify fun _ _ htyped => htyped
      exact hnumber.modify fun _ _ htyped => htyped
  | invoiceNumber value =>
      obtain rfl := Except.ok.inj h
      exact hs.modify fun _ _ htyped => htyped
  | poNumber value =>
      obtain rfl := Except.ok.inj h
      refine TypedLicenses.of_core ?_ (syncLicenseLine_only u id none _).core
      exact hs.modify fun _ _ htyped => htyped
  | currency value =>
      obtain rfl := Except.ok.inj h
      exact hs.modify fun _ _ htyped => htyped
  | reference field value =>
      have hwritten : ∀ details v, OnlyReferences s v →
          TypedLicenses (v.modifyLicense id (·.withDetails details)) := fun details v hv =>
        (hs.of_licenses hv.licenses).modify fun _ _ htyped => htyped
      cases field
      all_goals
        simp only [LicenseTrack.patchField, patchReference, bind_eq_ok, pure_eq_ok] at h
        obtain ⟨⟨details, v⟩, hresolve, rfl⟩ := h
      · exact hwritten details v (resolvePublisher_only hresolve)
      · exact hwritten details v (resolveSupplier_only hresolve)
      · exact hwritten details v (resolveCostCentreField_only hresolve)

theorem TypedLicenses.patch {env : Env} {id : Nat} {patch : LicensePatch} {s t : Store}
    (hs : TypedLicenses s)
    (hprice : ∀ l, s.license? id = some l → patch.PricesNoFreeware l)
    (h : patchLicense env id patch s = .ok t)
    : TypedLicenses t := by
  simp only [patchLicense, applyLicenseFieldPatch, bind_eq_ok, flush_eq_ok, found_eq_ok] at h
  obtain ⟨_, ⟨_, -, l, hl, patched, hpatched, row, -, h⟩, rfl, -⟩ := h
  replace h := pure_eq_ok.mp (of_optional_check h)
  have hfield := hs.patchField hl (hprice l hl) hpatched
  have hdefaults : TypedLicenses (patched.modifyLicense id (fun row =>
      syncSupportDefaults env.unicode
        (if l.endDate ≠ row.endDate then row.rescheduled env.today else row))) :=
    hfield.modify fun row _ htyped => by
      change (if l.endDate ≠ row.endDate then row.rescheduled env.today else row).toLicenseTerms.Typed
      split <;> exact htyped
  subst h
  refine TypedLicenses.of_core ?_ (syncActiveMaintenanceParentIfNeeded_only env.unicode id _).core
  split
  · exact hdefaults.of_core (retireMaintenanceLicense_only id _).core
  · exact hdefaults

/-- A row of a file that becomes a free licence only without a price. -/
def ParsedRow.AddsFreewareUnpriced (row : ParsedRow) : Prop :=
  row.licenseType = some .freeware → row.unitPrice = ""

theorem buildLicense_typed {u : Unicode} {s : Store} {row : ParsedRow} {parent : Option Nat}
    {license : License} (hprice : row.AddsFreewareUnpriced)
    (h : buildLicense u s row parent = .ok license)
    : license.toLicenseTerms.Typed := by
  simp only [buildLicense, bind_eq_ok, pure_eq_ok] at h
  obtain ⟨_, -, _, -, _, -, rfl⟩ := h
  refine normaliseTypeOptInFields_typed (fun hexpires => if_pos hexpires) fun hfree => ⟨?_, rfl⟩
  apply hprice
  cases htype : row.licenseType with
  | none =>
      simp [htype] at hfree
  | some licenseType => simpa [htype] using hfree

theorem TypedLicenses.importNewRow {env : Env} {progress : ImportProgress} {row : ParsedRow}
    {s t : Store} (hs : TypedLicenses s) (hprice : row.AddsFreewareUnpriced)
    (h : importNewRow env progress row s = .ok t)
    : TypedLicenses t := by
  obtain ⟨license, marked, hbuild, hmarked, hactivated, -, -⟩ := importNewRow_ok h
  have hregistered : TypedLicenses (registerNewRow env row license s) :=
    ((hs.insert (buildLicense_typed hprice hbuild)).of_core
      (syncLicenseLine_only env.unicode _ _ _).core).assignLicenseRef env _
  refine TypedLicenses.of_core ?_ (activateImported_only hactivated).core
  rcases hmarked with rfl | ⟨predecessorId, -, rfl⟩
  · exact hregistered
  · exact hregistered.modify fun _ _ htyped => htyped

theorem writeTerms_typed {row : ParsedRow} {l : License} (hl : l.toLicenseTerms.Typed)
    (hprice : l.licenseType = .freeware → row.unitPrice = "")
    : (row.writeTerms l).Typed := by
  refine normaliseTypeOptInFields_typed (fun hexpires => ?_) fun hfree => ?_
  · have hexpires : l.licenseType.isNonExpiring = true := hexpires
    exact (if_pos hexpires).trans (hl.endDate hexpires)
  · obtain ⟨hunit, htotal⟩ := hl.prices hfree
    exact ⟨by simp [orStored, hprice hfree, hunit], htotal⟩

theorem TypedLicenses.importUpdateRow {env : Env} {id : Nat} {row : ParsedRow} {s t : Store}
    (hs : TypedLicenses s)
    (hprice : ∀ l, s.license? id = some l → l.licenseType = .freeware → row.unitPrice = "")
    (h : importUpdateRow env id row s = .ok t)
    : TypedLicenses t := by
  simp only [LicenseTrack.importUpdateRow, bind_eq_ok, found_eq_ok, flush_eq_ok] at h
  obtain ⟨l, hl, v, hv, rfl, -⟩ := h
  obtain ⟨invoices, contractId, override, imported, -, hsupport, hv⟩ :=
    applyImportUpdate_written hv
  refine TypedLicenses.of_core ?_ (syncLicenseLine_only env.unicode id none v).core
  have hwritten : TypedLicenses (s.modifyLicense id (fun l₀ =>
      { row.written invoices contractId override l with
        toMaintenanceMirror := l₀.toMaintenanceMirror
        toLicenseStanding := l₀.toLicenseStanding
        toLicenseChain := l₀.toLicenseChain
        poLineId := l₀.poLineId
        pendingOrderId := l₀.pendingOrderId
        procurementBundleId := l₀.procurementBundleId
        sourceSourcingItemId := l₀.sourceSourcingItemId })) :=
    hs.modify fun _ _ _ => writeTerms_typed (hs id l hl) (hprice l hl)
  have himported : TypedLicenses imported := by
    rcases importSupport_cases hsupport with ⟨-, -, rfl⟩ | rfl
    · refine TypedLicenses.of_core ?_ (recordIncludedSupportExit_only env.unicode id _ _).core
      exact hwritten.modify fun _ _ htyped => htyped
    · exact hwritten
  have hdefaults : TypedLicenses (imported.modifyLicense id (syncSupportDefaults env.unicode)) :=
    himported.modify fun _ _ htyped => htyped
  rw [hv]
  split
  · exact hdefaults.of_core (OnlyMaintenance.foldl
      (fun w parentId => syncParentMirrorFields_only env.unicode parentId w) _ _).core
  · exact hdefaults

-- Deletion, retirement and chains

theorem TypedLicenses.deleteLoaded {ids : List Nat} {s t : Store} (hs : TypedLicenses s)
    (h : deleteLoadedLicenseRecords ids s = .ok t)
    : TypedLicenses t := by
  simp only [deleteLoadedLicenseRecords, bind_eq_ok, flush_eq_ok, pure_eq_ok] at h
  obtain ⟨_, -, flushed, ⟨rfl, -⟩, rfl⟩ := h
  intro id l hl
  simp only [cascadeDelete, Store.license?, Store.mapLicenses, Table.get?_filter,
    Table.get?_mapRows, prepareMaintenanceRelationshipsForDelete, Store.deleteLinks,
    Option.map_map] at hl
  rw [Option.filter_eq_some_iff, Option.map_eq_some_iff] at hl
  obtain ⟨⟨old, hold, rfl⟩, hremains⟩ := hl
  have hstays : ids.contains id = false := by simpa using hremains
  have hreferences : ∀ row : License,
      (row.withoutReferences ids).toLicenseTerms = row.toLicenseTerms := fun row => by
    unfold License.withoutReferences
    dsimp only
    split <;> rfl
  have hparents : ∀ (remaining : List Nat) (row : License),
      (row.withRemainingParents remaining).toLicenseTerms = row.toLicenseTerms :=
      fun remaining row => by
    unfold License.withRemainingParents
    split
    · rfl
    · split <;> rfl
  simp only [Function.comp_apply, hstays, Bool.false_eq_true, if_false, false_and, hreferences]
  split
  · rw [hparents]
    exact hs id old hold
  · exact hs id old hold

theorem TypedLicenses.delete {id : Nat} {s t : Store} (hs : TypedLicenses s)
    (h : deleteLicense id s = .ok t)
    : TypedLicenses t := by
  simp only [deleteLicense, bind_eq_ok, flush_eq_ok] at h
  obtain ⟨_, -, _, h, rfl, -⟩ := h
  exact hs.deleteLoaded h

theorem TypedLicenses.bulkDelete {ids : List Nat} {s t : Store} (hs : TypedLicenses s)
    (h : bulkDeleteLicenses ids s = .ok t)
    : TypedLicenses t := by
  simp only [bulkDeleteLicenses] at h
  split at h
  · obtain rfl := pure_eq_ok.mp h
    exact hs
  · simp only [bind_eq_ok, flush_eq_ok] at h
    obtain ⟨_, h, rfl, -⟩ := h
    exact hs.deleteLoaded h

theorem TypedLicenses.retireDue {env : Env} {s t : Store} (hs : TypedLicenses s)
    (h : retireDueLicenses env s = .ok t)
    : TypedLicenses t := by
  simp only [retireDueLicenses, flush_eq_ok] at h
  obtain ⟨rfl, -⟩ := h
  have hdue : OnlyMaintenance s
      ((s.licenses.select (fun _ l => l.isRetirementDue env.today)).foldl retireDueLicense s) :=
    OnlyMaintenance.foldl (fun v id => retireDueLicense_only id v) _ s
  refine (hs.of_core hdue.core).of_core ?_
  exact Table.Agrees.of_mapRows fun id l => by split <;> rfl

theorem TypedLicenses.link {env : Env} {predecessorId successorId : Nat} {s t : Store}
    (hs : TypedLicenses s) (h : linkExistingSuccessor env predecessorId successorId s = .ok t)
    : TypedLicenses t := by
  obtain ⟨predecessor, successor, r, hadoption⟩ := linkExistingSuccessor_ok h
  rw [hadoption.result]
  refine hs.of_agrees (Table.Agrees.of_mapRows fun id l => ?_)
  unfold adoptedRow
  split_ifs <;> rfl

theorem TypedLicenses.unlink {env : Env} {predecessorId : Nat} {s t : Store}
    (hs : TypedLicenses s) (h : unlinkExistingSuccessor env predecessorId s = .ok t)
    : TypedLicenses t := by
  obtain ⟨successorId, predecessor, successor, hundoing⟩ := unlinkExistingSuccessor_ok h
  refine hs.of_agrees (Table.Agrees.trans (Table.Agrees.of_mapRows fun id l => ?_)
    (hundoing.core.coarsen (fun core => core.2.1)))
  unfold unlinkedRow
  split_ifs <;> rfl

theorem TypedLicenses.repair {id : Nat} {repair : LifecycleRepair} {s t : Store}
    (hs : TypedLicenses s) (h : applyLicenseLifecycleRepair id repair s = .ok t)
    : TypedLicenses t := by
  obtain ⟨l, -, rfl, -⟩ := applyLicenseLifecycleRepair_ok h
  exact hs.modify fun _ _ htyped => htyped

theorem TypedLicenses.setPoTotalOverride {u : Unicode} {id : Nat} {value : Option String}
    {s t : Store} (hs : TypedLicenses s) (h : applyPoTotalOverride u id value s = .ok t)
    : TypedLicenses t := by
  simp only [applyPoTotalOverride, bind_eq_ok, pure_eq_ok] at h
  obtain ⟨l, -, _, -, key, -, rfl⟩ := h
  have hterms : ∀ (matched : Bool) (row : License),
      (if matched then { row with poTotalOverride := value } else row).toLicenseTerms
        = row.toLicenseTerms := fun matched row => by cases matched <;> rfl
  have hkept : s.licenses.Agrees (fun l : License => l.toLicenseTerms)
      (s.licenses.mapRows (fun i l =>
        if matchesIdentity u key i l then { l with poTotalOverride := value } else l)) :=
    Table.Agrees.of_mapRows fun i row => hterms (matchesIdentity u key i row) row
  exact hs.of_agrees hkept

end LicenseTrack
