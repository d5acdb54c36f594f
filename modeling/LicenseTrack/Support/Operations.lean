import LicenseTrack.Support.Periods

/-! The work on maintenance records loses no period: a mirror is overwritten only after a
snapshot, or where an active record shows that the licence holds no period.
-/

namespace LicenseTrack

open Library

variable {u : Unicode} {watched : Nat → Prop}

theorem syncParentMirrorFields_keeps {parentId : Nat} {s : Store}
    (h : ∀ l, s.license? parentId = some l → l.activeMaintenanceId ≠ none)
    : KeepsPeriods u watched s (syncParentMirrorFields u parentId s) := by
  apply KeepsPeriods.of_modify
  intro l hl hgood
  refine ⟨.synced s l _, fun _ p hp => ?_⟩
  exact absurd hp (hgood.not_holds (h l hl) p)

theorem clearActive_keeps {l : License} (hgood : GoodSupport u l)
    (hactive : l.activeMaintenanceId ≠ none)
    : GoodSupport u l.clearActive
      ∧ (∀ p, l.HoldsPeriod p → l.clearActive.HoldsPeriod p) :=
  ⟨.clearActive l, fun p hp => absurd hp (hgood.not_holds hactive p)⟩

theorem hasActive_active {l : License} {id : Nat} (h : l.hasActive id = true)
    : l.activeMaintenanceId ≠ none := by
  intro hnone
  rw [License.hasActive, hnone] at h
  cases h

theorem recomputeActiveMaintenance_keeps {env : Env} {parentId : Nat} {s : Store}
    (hlive : ∃ c ∈ s.candidates parentId, c.2.isRetired = false)
    : KeepsPeriods env.unicode watched s (recomputeActiveMaintenance env parentId s) := by
  rcases hp : s.license? parentId with _ | parent
  · simp only [recomputeActiveMaintenance, hp]
    exact .refl s
  · simp only [recomputeActiveMaintenance, hp]
    split
    · next hsame =>
        apply syncParentMirrorFields_keeps
        intro l hl hnone
        obtain rfl := Option.some.inj (hp.symm.trans hl)
        rw [hnone, chooseActiveMaintenance_eq_none] at hsame
        obtain ⟨c, hc, hretired⟩ := hlive
        rw [hsame c hc] at hretired
        cases hretired
    · apply (snapshotBeforeSwitch_keeps env.unicode parentId s).then_write
      · intro id hid
        rw [syncParentMirrorFields, Store.license?_modifyLicense_ne _ _ hid,
          Store.license?_modifyLicense_ne _ _ hid]
      · rfl
      · intro _ l hl
        rw [syncParentMirrorFields, Store.license?_modifyLicense_self] at hl
        obtain ⟨middle, -, rfl⟩ := Option.map_eq_some_iff.mp hl
        exact .synced _ _ _
      · intro hs p _ hholds hc
        exact snapshotBeforeSwitch_records hs hholds hc

-- Operations on one record

theorem activateMaintenanceForParent_keeps {env : Env} {maintenanceId parentId : Nat}
    {s t : Store} (h : activateMaintenanceForParent env maintenanceId parentId s = .ok t)
    : KeepsPeriods env.unicode watched s t := by
  simp only [activateMaintenanceForParent, bind_eq_ok, pure_eq_ok] at h
  obtain ⟨linked, hl, rfl⟩ := h
  obtain ⟨⟨record, hrecord, hlive⟩, -, rfl⟩ := linkMaintenanceToParent_ok hl
  have hlinked : KeepsPeriods env.unicode watched s ((s.withLink maintenanceId parentId).modifyLicense
      maintenanceId (·.activated parentId)) :=
    .of_support (Table.Agrees.of_modify fun _ => rfl) rfl
  apply hlinked.trans
  apply recomputeActiveMaintenance_keeps
  obtain ⟨htype, hretired⟩ : record.licenseType = .maintenance ∧ record.isRetired = false := by
    simpa [License.isLiveMaintenance] using hlive
  refine ⟨(maintenanceId, (record.activated parentId).term), ?_, hretired⟩
  apply List.mem_filterMap.mpr
  refine ⟨maintenanceId, ?_, ?_⟩
  · apply List.mem_map.mpr
    refine ⟨⟨maintenanceId, parentId⟩, List.mem_filter.mpr ⟨?_, by simp⟩, rfl⟩
    exact mem_withLink.mpr (.inr rfl)
  · have hstored : (s.withLink maintenanceId parentId).license? maintenanceId = some record :=
      hrecord
    rw [Store.candidate?, Store.license?_modifyLicense_self, hstored, Option.map_some,
      Option.bind_some]
    exact if_pos htype

theorem detachMaintenanceFromParent_keeps (maintenanceId parentId : Nat) (updatePrimary : Bool)
    (s : Store)
    : KeepsPeriods u watched s
        (detachMaintenanceFromParent maintenanceId parentId updatePrimary s) := by
  have hlinks : KeepsPeriods u watched s (s.deleteLinks (· == ⟨maintenanceId, parentId⟩)) :=
    .of_support (Table.Agrees.refl _ _) rfl
  have hcleared : KeepsPeriods u watched (s.deleteLinks (· == ⟨maintenanceId, parentId⟩))
      ((s.deleteLinks (· == ⟨maintenanceId, parentId⟩)).modifyLicense parentId (fun parent =>
        if parent.hasActive maintenanceId then parent.clearActive else parent)) := by
    apply KeepsPeriods.of_modify
    intro l _ hgood
    split
    · next hactive =>
        obtain ⟨hnew, hkept⟩ := clearActive_keeps hgood (hasActive_active hactive)
        exact ⟨hnew, fun _ => hkept⟩
    · exact ⟨hgood, fun _ _ hp => hp⟩
  apply (hlinks.trans hcleared).trans
  refine .of_support (Table.Agrees.of_modify fun l => ?_) rfl
  split <;> rfl

theorem retireMaintenanceLicense_keeps (maintenanceId : Nat) (s : Store)
    : KeepsPeriods u watched s (retireMaintenanceLicense maintenanceId s) := by
  simp only [retireMaintenanceLicense]
  have hlinks : KeepsPeriods u watched s
      (s.deleteLinks (·.maintenanceLicenseId == maintenanceId)) :=
    .of_support (Table.Agrees.refl _ _) rfl
  apply hlinks.trans
  have hcleared : KeepsPeriods u watched (s.deleteLinks (·.maintenanceLicenseId == maintenanceId))
      ((s.deleteLinks (·.maintenanceLicenseId == maintenanceId)).mapLicenses (fun id parent =>
        if (s.parentsOf maintenanceId).contains id && parent.hasActive maintenanceId then
          parent.clearActive
        else parent)) := by
    apply KeepsPeriods.of_mapLicenses
    intro id l _ hgood
    split
    · next hactive =>
        obtain ⟨hnew, hkept⟩ :=
          clearActive_keeps hgood (hasActive_active (Bool.and_eq_true_iff.mp hactive).2)
        exact ⟨hnew, fun _ => hkept⟩
    · exact ⟨hgood, fun _ _ hp => hp⟩
  apply hcleared.trans
  exact .of_support (Table.Agrees.of_modify fun _ => rfl) rfl

theorem disableRecord_keeps (parentId : Nat) (s : Store) (maintenanceId : Nat)
    : KeepsPeriods u watched s (disableRecord parentId s maintenanceId) := by
  have hdetached : KeepsPeriods u watched s
      (detachMaintenanceFromParent maintenanceId parentId true s) :=
    detachMaintenanceFromParent_keeps maintenanceId parentId true s
  simp only [disableRecord]
  split
  · apply hdetached.trans
    exact .of_support (Table.Agrees.of_modify fun _ => rfl) rfl
  · exact hdetached

theorem disableMaintenanceForParent_keeps (parentId : Nat) (s : Store)
    : KeepsPeriods u watched s (disableMaintenanceForParent u parentId s) := by
  simp only [disableMaintenanceForParent]
  have hsnapshot : KeepsPeriods u watched s (snapshotBeforeSwitch u parentId s) :=
    snapshotBeforeSwitch_keeps u parentId s
  have hrecords : KeepsPeriods u watched (snapshotBeforeSwitch u parentId s)
      (((snapshotBeforeSwitch u parentId s).linkedRecords parentId).foldl (disableRecord parentId)
        (snapshotBeforeSwitch u parentId s)) :=
    .foldl (disableRecord_keeps parentId) _ _
  apply (hsnapshot.trans hrecords).then_write
  · exact fun id hid => Store.license?_modifyLicense_ne _ _ hid
  · rfl
  · intro _ l hl
    rw [Store.license?_modifyLicense_self] at hl
    obtain ⟨middle, -, rfl⟩ := Option.map_eq_some_iff.mp hl
    exact .clearActive middle
  · intro hs p _ hholds hc
    exact hrecords.recorded (snapshotBeforeSwitch_records hs hholds hc)

theorem syncActiveMaintenanceParentIfNeeded_keeps (id : Nat) (s : Store)
    : KeepsPeriods u watched s (syncActiveMaintenanceParentIfNeeded u id s) := by
  unfold syncActiveMaintenanceParentIfNeeded
  split
  · split
    · apply KeepsPeriods.foldl
      intro s parentId
      split
      · next hany =>
          apply syncParentMirrorFields_keeps
          intro l hl
          rw [hl, Option.any_some] at hany
          exact hasActive_active hany
      · exact .refl s
    · exact .refl s
  · exact .refl s

theorem detachAllMaintenanceRelationships_keeps (id : Nat) (s : Store)
    : KeepsPeriods u watched s (detachAllMaintenanceRelationships id s) := by
  have hdetached : KeepsPeriods u watched s ((s.storedParentsOf id).foldl
      (fun s parentId => detachMaintenanceFromParent id parentId true s) s) :=
    .foldl (fun s parentId => detachMaintenanceFromParent_keeps id parentId true s) _ _
  apply hdetached.trans
  exact .of_support (Table.Agrees.of_modify fun _ => rfl) rfl

theorem reconcileMaintenanceRelationshipsAfterUpdate_keeps {env : Env} {id : Nat}
    {previous : Option Nat} {requested : Option (Option Nat)} {s t : Store}
    (h : reconcileMaintenanceRelationshipsAfterUpdate env id previous requested s = .ok t)
    : KeepsPeriods env.unicode watched s t := by
  simp only [reconcileMaintenanceRelationshipsAfterUpdate, bind_eq_ok, found_eq_ok] at h
  obtain ⟨l, hl, h⟩ := h
  split at h
  · obtain rfl := pure_eq_ok.mp h
    refine KeepsPeriods.trans (t := if previous ≠ none ∨ l.parentLicenseId ≠ none then
      detachAllMaintenanceRelationships id s else s) ?_ ?_
    · split
      · exact detachAllMaintenanceRelationships_keeps id s
      · exact .refl s
    · exact .of_support (Table.Agrees.of_modify fun _ => rfl) rfl
  · split at h
    · obtain rfl := pure_eq_ok.mp h
      exact retireMaintenanceLicense_keeps id s
    · cases requested with
      | none =>
          obtain rfl := pure_eq_ok.mp h
          exact .refl s
      | some target =>
          have hleft : ∀ parentId, KeepsPeriods env.unicode watched s
              (if previous ≠ target ∧ (s.license? parentId).isSome then
                detachMaintenanceFromParent id parentId false s else s) := by
            intro parentId
            split
            · exact detachMaintenanceFromParent_keeps id parentId false s
            · exact .refl s
          have hmoved : ∀ {v w : Store} {parentId : Nat}, KeepsPeriods env.unicode watched s v →
              activateMaintenanceForParent env id parentId v = .ok w →
              KeepsPeriods env.unicode watched s
                (w.modifyLicense id (fun l => { l with parentLicenseId := some parentId })) := by
            intro v w parentId hv hw
            apply (hv.trans (activateMaintenanceForParent_keeps hw)).trans
            exact .of_support (Table.Agrees.of_modify fun _ => rfl) rfl
          cases target with
          | none =>
              obtain rfl := pure_eq_ok.mp h
              cases previous with
              | none => exact .refl s
              | some parentId => exact hleft parentId
          | some parentId =>
              dsimp only at h
              split at h
              · simp only [bind_eq_ok, pure_eq_ok] at h
                obtain ⟨_, -, w, hw, rfl⟩ := h
                cases previous with
                | none => exact hmoved (.refl s) hw
                | some old => exact hmoved (hleft old) hw
              · obtain rfl := pure_eq_ok.mp h
                cases previous with
                | none => exact .refl s
                | some old => exact hleft old

end LicenseTrack
