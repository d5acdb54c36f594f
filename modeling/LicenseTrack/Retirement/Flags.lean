import LicenseTrack.Conversion.LineEffect
import LicenseTrack.Maintenance.Effects
import LicenseTrack.Services.LicenseDelete

/-! The two retirement columns of a licence: what keeps them exclusive, and that the maintenance
work beside a licence keeps them so.
-/

namespace LicenseTrack

open Library

/-- Retired and scheduled exclude each other, and a scheduled licence has an end date. -/
structure SoundRetirement (l : License) : Prop where
  exclusive : ¬ (l.isRetired = true ∧ l.retirementScheduled = true)
  dated : l.retirementScheduled = true → l.endDate ≠ none

/-- Sound retirement columns, and a coverage class that an active record has written. The second
part is what the delayed and the immediate retirement of a record need to agree.
-/
structure SoundLicense (l : License) : Prop extends SoundRetirement l where
  tracked : l.activeMaintenanceId ≠ none → l.maintenanceCoverage = .separatelyTracked

/-- Every stored licence is sound. -/
def SoundLicenses (s : Store) : Prop := ∀ id l, s.license? id = some l → SoundLicense l

/-- The columns that soundness reads. -/
def License.flags (l : License) : Bool × Bool × Option Date × Option MaintenanceCoverage :=
  (l.isRetired, l.retirementScheduled, l.endDate,
    l.activeMaintenanceId.map (fun _ => l.maintenanceCoverage))

namespace SoundRetirement

theorem of_unscheduled {l : License} (h : l.retirementScheduled = false) : SoundRetirement l where
  exclusive := by
    rintro ⟨-, hs⟩
    rw [h] at hs
    cases hs
  dated := fun hs => by
    rw [h] at hs
    cases hs

theorem unscheduled {l : License} (h : SoundRetirement l) (hr : l.isRetired = true)
    : l.retirementScheduled = false := by
  rcases hs : l.retirementScheduled with _ | _
  · rfl
  · exact absurd ⟨hr, hs⟩ h.exclusive

theorem of_normalized {l new : License} (hs : SoundRetirement l) (today : Date)
    (requested : Option Bool) (endDateGiven : Bool)
    (hgiven : endDateGiven = false → new.endDate = l.endDate)
    (hretired : new.isRetired = (normalizeRetirementUpdate today l.retirementScheduled requested
        new.endDate endDateGiven).isRetired.getD l.isRetired)
    (hscheduled : new.retirementScheduled = (normalizeRetirementUpdate today l.retirementScheduled
        requested new.endDate endDateGiven).retirementScheduled.getD l.retirementScheduled)
    : SoundRetirement new := by
  unfold normalizeRetirementUpdate at hretired hscheduled
  rcases requested with _ | _ | _
  · rcases hsched : l.retirementScheduled with _ | _
    · refine .of_unscheduled ?_
      simpa [hsched] using hscheduled
    · rcases endDateGiven with _ | _
      · have hlive : l.isRetired = false := by
          rcases hr : l.isRetired with _ | _
          · rfl
          · exact absurd ⟨hr, hsched⟩ hs.exclusive
        refine ⟨?_, fun _ => ?_⟩
        · simp [hretired, hsched, hlive]
        · rw [hgiven rfl]
          exact hs.dated hsched
      · rcases hend : new.endDate with _ | finish
        · refine .of_unscheduled ?_
          simpa [hsched, hend] using hscheduled
        · refine ⟨?_, fun _ => by simp [hend]⟩
          simp [hretired, hscheduled, hsched, hend]
  · refine .of_unscheduled ?_
    simpa using hscheduled
  · rcases hend : new.endDate with _ | finish
    · refine .of_unscheduled ?_
      simpa [hend] using hscheduled
    · by_cases hle : today ≤ finish
      · refine ⟨?_, fun _ => by simp [hend]⟩
        simp [hretired, hend, hle]
      · refine .of_unscheduled ?_
        simpa [hend, hle] using hscheduled

theorem congr {a b : License} (h : SoundRetirement a) (he : b.flags = a.flags)
    : SoundRetirement b := by
  obtain ⟨hretired, hscheduled, hend, -⟩ : b.isRetired = a.isRetired
      ∧ b.retirementScheduled = a.retirementScheduled ∧ b.endDate = a.endDate
      ∧ b.activeMaintenanceId.map (fun _ => b.maintenanceCoverage)
        = a.activeMaintenanceId.map (fun _ => a.maintenanceCoverage) := by
    simpa [License.flags] using he
  constructor
  · rw [hretired, hscheduled]
    exact h.exclusive
  · rw [hscheduled, hend]
    exact h.dated

end SoundRetirement

namespace SoundLicense

theorem congr {a b : License} (h : SoundLicense a) (he : b.flags = a.flags) : SoundLicense b := by
  refine ⟨h.toSoundRetirement.congr he, fun hactive => ?_⟩
  have hcoverage : b.activeMaintenanceId.map (fun _ => b.maintenanceCoverage)
      = a.activeMaintenanceId.map (fun _ => a.maintenanceCoverage) :=
    congrArg (fun flags => flags.2.2.2) he
  obtain ⟨record, hrecord⟩ := Option.ne_none_iff_exists'.mp hactive
  rw [hrecord, Option.map_some, eq_comm, Option.map_eq_some_iff] at hcoverage
  obtain ⟨other, hother, hc⟩ := hcoverage
  rw [← hc]
  exact h.tracked (by simp [hother])

theorem withMirror {l : License} (h : SoundLicense l) {m : MaintenanceMirror}
    (hm : m.activeMaintenanceId ≠ none → m.maintenanceCoverage = .separatelyTracked)
    : SoundLicense (l.withMirror m) :=
  ⟨⟨h.exclusive, h.dated⟩, hm⟩

theorem clearActive {l : License} (h : SoundLicense l) : SoundLicense l.clearActive :=
  h.withMirror fun hactive => absurd rfl hactive

end SoundLicense

namespace SoundLicenses

variable {s t : Store}

theorem of_agrees (hs : SoundLicenses s) (h : s.licenses.Agrees License.flags t.licenses)
    : SoundLicenses t := by
  intro id l hl
  obtain ⟨old, hold, he⟩ := Table.Agrees.back h hl
  exact (hs id old hold).congr he

theorem of_licenses (hs : SoundLicenses s) (h : t.licenses = s.licenses) : SoundLicenses t :=
  hs.of_agrees (h ▸ Table.Agrees.refl _ _)

theorem modify (hs : SoundLicenses s) {id : Nat} {f : License → License}
    (h : ∀ l, s.license? id = some l → SoundLicense l → SoundLicense (f l))
    : SoundLicenses (s.modifyLicense id f) := by
  intro key l hl
  rw [Store.license?_modifyLicense] at hl
  obtain ⟨old, hold, rfl⟩ := Option.map_eq_some_iff.mp hl
  split
  · next hk =>
      subst hk
      exact h old hold (hs key old hold)
  · exact hs key old hold

theorem mapLicenses (hs : SoundLicenses s) {f : Nat → License → License}
    (h : ∀ id l, s.license? id = some l → SoundLicense l → SoundLicense (f id l))
    : SoundLicenses (s.mapLicenses f) := by
  intro id l hl
  rw [Store.license?_mapLicenses] at hl
  obtain ⟨old, hold, rfl⟩ := Option.map_eq_some_iff.mp hl
  exact h id old hold (hs id old hold)

theorem insert (hs : SoundLicenses s) {row : License} (h : SoundLicense row)
    : SoundLicenses { s with licenses := s.licenses.insert row } := by
  intro id l hl
  unfold Store.license? at hl
  rw [Table.get?_insert] at hl
  split at hl
  · obtain rfl := Option.some.inj hl
    exact h
  · exact hs id l hl

theorem foldl {α : Type} {step : Store → α → Store}
    (h : ∀ s a, SoundLicenses s → SoundLicenses (step s a)) (list : List α) (hs : SoundLicenses s)
    : SoundLicenses (list.foldl step s) := by
  induction list generalizing s with
  | nil => exact hs
  | cons head rest ih =>
      rw [List.foldl_cons]
      exact ih (h s head hs)

end SoundLicenses

theorem syncedMirror_tracked (u : Unicode) (s : Store) (m : MaintenanceMirror)
    (h : (s.syncedMirror u m).activeMaintenanceId ≠ none)
    : (s.syncedMirror u m).maintenanceCoverage = .separatelyTracked := by
  rcases syncedMirror_cases u s m with ⟨id, child, -, -, -, he⟩ | he
  · rw [he]
    rfl
  · rw [he] at h
    exact absurd rfl h

theorem SoundLicenses.syncParentMirrorFields {s : Store} (hs : SoundLicenses s) (u : Unicode)
    (parentId : Nat)
    : SoundLicenses (syncParentMirrorFields u parentId s) :=
  hs.modify fun _ _ h => h.withMirror (syncedMirror_tracked u s _)

theorem snapshotIncludedSupport_licenses (parentId : Nat) (s : Store)
    : (snapshotIncludedSupport parentId s).licenses = s.licenses := by
  obtain ⟨history, he, -⟩ := snapshotIncludedSupport_eq parentId s
  rw [he]

theorem SoundLicenses.recomputeActiveMaintenance {s : Store} (hs : SoundLicenses s) (env : Env)
    (parentId : Nat)
    : SoundLicenses (recomputeActiveMaintenance env parentId s) := by
  rcases hp : s.license? parentId with _ | parent
  · simp only [LicenseTrack.recomputeActiveMaintenance, hp]
    exact hs
  · obtain ⟨history, he, -⟩ := recomputeActiveMaintenance_eq env hp
    rw [he]
    have hmirror : SoundLicenses (s.modifyLicense parentId
        (·.withMirror (s.recomputedMirror env parentId parent.toMaintenanceMirror))) :=
      hs.modify fun _ _ h => h.withMirror (syncedMirror_tracked env.unicode s _)
    exact hmirror.of_licenses rfl

-- Maintenance work

theorem SoundLicenses.activate {env : Env} {maintenanceId parentId : Nat} {s t : Store}
    (hs : SoundLicenses s) (h : activateMaintenanceForParent env maintenanceId parentId s = .ok t)
    : SoundLicenses t := by
  simp only [activateMaintenanceForParent, bind_eq_ok, pure_eq_ok] at h
  obtain ⟨linked, hl, rfl⟩ := h
  obtain ⟨-, -, rfl⟩ := linkMaintenanceToParent_ok hl
  have hlinked : SoundLicenses (s.withLink maintenanceId parentId) := hs.of_licenses rfl
  apply SoundLicenses.recomputeActiveMaintenance
  exact hlinked.modify fun l _ h => h.congr rfl

theorem SoundLicenses.detach {s : Store} (hs : SoundLicenses s) (maintenanceId parentId : Nat)
    (updatePrimary : Bool)
    : SoundLicenses (detachMaintenanceFromParent maintenanceId parentId updatePrimary s) := by
  have hlinks : SoundLicenses (s.deleteLinks (· == ⟨maintenanceId, parentId⟩)) :=
    hs.of_licenses rfl
  have hcleared : SoundLicenses ((s.deleteLinks (· == ⟨maintenanceId, parentId⟩)).modifyLicense
      parentId (fun parent =>
        if parent.hasActive maintenanceId then parent.clearActive else parent)) := by
    refine hlinks.modify fun l _ h => ?_
    split
    · exact h.clearActive
    · exact h
  refine hcleared.modify fun l _ h => ?_
  split
  · exact h.congr rfl
  · exact h

theorem SoundLicenses.retire {s : Store} (hs : SoundLicenses s) {maintenanceId : Nat}
    (h : ∀ l, s.license? maintenanceId = some l → l.retirementScheduled = false)
    : SoundLicenses (retireMaintenanceLicense maintenanceId s) := by
  simp only [retireMaintenanceLicense]
  have hlinks : SoundLicenses (s.deleteLinks (·.maintenanceLicenseId == maintenanceId)) :=
    hs.of_licenses rfl
  refine (hlinks.mapLicenses fun id l _ hl => ?_).modify fun l hl hsound => ?_
  · split
    · exact hl.clearActive
    · exact hl
  · rw [Store.license?_mapLicenses] at hl
    obtain ⟨old, hold, rfl⟩ := Option.map_eq_some_iff.mp hl
    have hunscheduled := h old hold
    refine ⟨.of_unscheduled ?_, hsound.tracked⟩
    dsimp only
    split
    · exact hunscheduled
    · exact hunscheduled

theorem SoundLicenses.syncActive {s : Store} (hs : SoundLicenses s) (u : Unicode) (id : Nat)
    : SoundLicenses (syncActiveMaintenanceParentIfNeeded u id s) := by
  unfold syncActiveMaintenanceParentIfNeeded
  split
  · split
    · refine SoundLicenses.foldl (fun s parentId hs => ?_) _ hs
      split
      · exact hs.syncParentMirrorFields u parentId
      · exact hs
    · exact hs
  · exact hs

/-- Reconciling sound licences keeps them sound: a record that is retired is not scheduled. -/
theorem SoundLicenses.reconcile {env : Env} {id : Nat} {previous : Option Nat}
    {requested : Option (Option Nat)} {s t : Store} (hs : SoundLicenses s)
    (h : reconcileMaintenanceRelationshipsAfterUpdate env id previous requested s = .ok t)
    : SoundLicenses t := by
  simp only [reconcileMaintenanceRelationshipsAfterUpdate, bind_eq_ok, found_eq_ok] at h
  obtain ⟨l, hl, h⟩ := h
  split at h
  · obtain rfl := pure_eq_ok.mp h
    refine SoundLicenses.modify (s := if previous ≠ none ∨ l.parentLicenseId ≠ none then
        detachAllMaintenanceRelationships id s else s) ?_ fun _ _ h => h.congr rfl
    split
    · have hdetached := SoundLicenses.foldl (fun s parentId hs =>
        SoundLicenses.detach hs id parentId true) (s.storedParentsOf id) hs
      exact hdetached.modify fun _ _ h => h.congr rfl
    · exact hs
  · split at h
    · next hretired =>
        obtain rfl := pure_eq_ok.mp h
        refine hs.retire fun row hrow => ?_
        obtain rfl := Option.some.inj (hl.symm.trans hrow)
        exact (hs id l hl).unscheduled hretired
    · cases requested with
      | none =>
          obtain rfl := pure_eq_ok.mp h
          exact hs
      | some target =>
          -- The record leaves its previous parent before it moves to its new one, if any.
          have hleft : ∀ old, SoundLicenses
              (if previous ≠ target ∧ (s.license? old).isSome then
                detachMaintenanceFromParent id old false s else s) := by
            intro old
            split
            · exact hs.detach id old false
            · exact hs
          have hmoved : ∀ v parentId, SoundLicenses v →
              (if previous ≠ some parentId then do
                let _ ← validateParentLicense v parentId
                let s ← activateMaintenanceForParent env id parentId v
                pure (s.modifyLicense id (fun l => { l with parentLicenseId := some parentId }))
              else pure v) = Except.ok t → SoundLicenses t := by
            intro v parentId hv hrest
            split at hrest
            · simp only [bind_eq_ok, pure_eq_ok] at hrest
              obtain ⟨-, -, active, hactive, rfl⟩ := hrest
              exact (hv.activate hactive).modify fun _ _ h => h.congr rfl
            · obtain rfl := pure_eq_ok.mp hrest
              exact hv
          cases target with
          | none =>
              cases previous with
              | none =>
                  obtain rfl := pure_eq_ok.mp h
                  exact hs
              | some old =>
                  obtain rfl := pure_eq_ok.mp h
                  exact hleft old
          | some parentId =>
              cases previous with
              | none => exact hmoved s parentId hs h
              | some old => exact hmoved _ parentId (hleft old) h

end LicenseTrack
