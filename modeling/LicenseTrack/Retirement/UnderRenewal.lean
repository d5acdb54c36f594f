import LicenseTrack.Retirement.Runs
import LicenseTrack.Services.RenewalStart

/-! Licences under renewal are not retired: what a step must keep, and that the work around
maintenance keeps it but for the records that it retires.
-/

namespace LicenseTrack

open Library

/-- Retired, or scheduled for retirement. -/
def License.leaving (l : License) : Bool := l.isRetired || l.retirementScheduled

/-- No licence under renewal is retired or scheduled for retirement. -/
def NoneLeavingUnderRenewal (s : Store) : Prop :=
  ∀ id l, s.license? id = some l → l.leaving = true → renewalInProgress s id l = false

/-- No stored licence under the key is under renewal. -/
def NotUnderRenewal (s : Store) (id : Nat) : Prop :=
  ∀ l, s.license? id = some l → renewalInProgress s id l = false

theorem renewalInProgress_eq_false {s : Store} {id : Nat} {l : License}
    : renewalInProgress s id l = false
      ↔ l.lifecycleStatus ≠ some .pendingRenewal ∧ ¬ hasOpenSupportRenewal s id = true := by
  simp only [renewalInProgress, Bool.or_eq_false_iff, beq_eq_false_iff_ne, Bool.not_eq_true]

theorem hasOpenSupportRenewal_iff {s : Store} {id : Nat}
    : hasOpenSupportRenewal s id = true
      ↔ ∃ itemId item, s.items.get? itemId = some item
        ∧ item.maintenanceParentLicenseId = some id ∧ item.status ≠ .cancelled
        ∧ ∀ key l, s.license? key = some l → l.sourceSourcingItemId ≠ some itemId := by
  simp only [hasOpenSupportRenewal, List.any_eq_true, Bool.and_eq_true, Bool.not_eq_true',
    List.any_eq_false, beq_iff_eq, bne_iff_ne, Prod.exists, Prod.forall, Store.license?,
    Table.get?_eq_some, and_assoc]

theorem hasOpenSupportRenewal_of_agrees {s t : Store} {id : Nat} (hitems : t.items = s.items)
    (hsources : s.licenses.Agrees (·.sourceSourcingItemId) t.licenses)
    (h : hasOpenSupportRenewal t id = true)
    : hasOpenSupportRenewal s id = true := by
  rw [hasOpenSupportRenewal_iff] at h ⊢
  obtain ⟨itemId, item, hitem, hparent, hstatus, hunconverted⟩ := h
  refine ⟨itemId, item, hitems ▸ hitem, hparent, hstatus, ?_⟩
  intro key old hold hsource
  obtain ⟨new, hnew, he⟩ := Table.Agrees.forth hsources hold
  exact hunconverted key new hnew (he.trans hsource)

/-- The columns that the renewal of a licence, its retirement and the conversion of a line read. -/
def License.renewalStanding (l : License)
    : Bool × Bool × Option LifecycleStatus × Option Nat :=
  (l.isRetired, l.retirementScheduled, l.lifecycleStatus, l.sourceSourcingItemId)

/-- A row that becomes neither pending nor, unless it is retired by the step, leaving. -/
structure RowKept (retired : Prop) (old new : License) : Prop where
  pending : new.lifecycleStatus = some .pendingRenewal → old.lifecycleStatus = some .pendingRenewal
  leaving : new.leaving = true → old.leaving = true ∨ retired

namespace RowKept

variable {retired : Prop} {a b c : License}

theorem trans (h : RowKept retired a b) (h' : RowKept retired b c) : RowKept retired a c where
  pending hc := h.pending (h'.pending hc)
  leaving hc := (h'.leaving hc).elim h.leaving .inr

theorem of_standing (h : b.renewalStanding = a.renewalStanding) : RowKept retired a b := by
  have hretired : b.isRetired = a.isRetired := congrArg (·.1) h
  have hscheduled : b.retirementScheduled = a.retirementScheduled := congrArg (·.2.1) h
  have hstatus : b.lifecycleStatus = a.lifecycleStatus := congrArg (·.2.2.1) h
  constructor
  · intro hb
    rw [← hstatus, hb]
  · intro hb
    left
    rwa [License.leaving, ← hretired, ← hscheduled]

end RowKept

/-- A step that opens no support renewal, starts no renewal, and retires or schedules the given
licences only.
-/
structure RenewalsKept (retires : Nat → Prop) (s t : Store) : Prop where
  items : t.items = s.items
  sources : s.licenses.Agrees (·.sourceSourcingItemId) t.licenses
  rows : ∀ id new, t.license? id = some new →
    ∃ old, s.license? id = some old ∧ RowKept (retires id) old new

/-- No licence. -/
def nobody : Nat → Prop := fun _ => False

namespace RenewalsKept

variable {retires : Nat → Prop} {s t v : Store}

theorem of_agrees (hitems : t.items = s.items)
    (h : s.licenses.Agrees License.renewalStanding t.licenses)
    : RenewalsKept retires s t where
  items := hitems
  sources := h.coarsen (·.2.2.2)
  rows id new hnew := by
    obtain ⟨old, hold, he⟩ := Table.Agrees.back h hnew
    exact ⟨old, hold, .of_standing he⟩

theorem of_eq (hitems : t.items = s.items) (h : t.licenses = s.licenses)
    : RenewalsKept retires s t :=
  .of_agrees hitems (h ▸ Table.Agrees.refl _ _)

theorem refl (s : Store) : RenewalsKept retires s s := .of_eq rfl rfl

theorem trans (h : RenewalsKept retires s t) (h' : RenewalsKept retires t v)
    : RenewalsKept retires s v where
  items := h'.items.trans h.items
  sources := h.sources.trans h'.sources
  rows id new hnew := by
    obtain ⟨middle, hmiddle, hrow'⟩ := h'.rows id new hnew
    obtain ⟨old, hold, hrow⟩ := h.rows id middle hmiddle
    exact ⟨old, hold, hrow.trans hrow'⟩

theorem mono {more : Nat → Prop} (hle : ∀ id, retires id → more id) (h : RenewalsKept retires s t)
    : RenewalsKept more s t where
  items := h.items
  sources := h.sources
  rows id new hnew := by
    obtain ⟨old, hold, hrow⟩ := h.rows id new hnew
    exact ⟨old, hold, hrow.pending, fun hleaving => (hrow.leaving hleaving).imp_right (hle id)⟩

theorem of_nobody (h : RenewalsKept nobody s t) : RenewalsKept retires s t :=
  h.mono fun _ hfalse => hfalse.elim

theorem mapLicenses {f : Nat → License → License}
    (hsource : ∀ id l, (f id l).sourceSourcingItemId = l.sourceSourcingItemId)
    (h : ∀ id l, s.license? id = some l → RowKept (retires id) l (f id l))
    : RenewalsKept retires s (s.mapLicenses f) where
  items := rfl
  sources := Table.Agrees.of_mapRows hsource
  rows id new hnew := by
    rw [Store.license?_mapLicenses] at hnew
    obtain ⟨old, hold, rfl⟩ := Option.map_eq_some_iff.mp hnew
    exact ⟨old, hold, h id old hold⟩

theorem modify {id : Nat} {f : License → License}
    (hsource : ∀ l, (f l).sourceSourcingItemId = l.sourceSourcingItemId)
    (h : ∀ l, s.license? id = some l → RowKept (retires id) l (f l))
    : RenewalsKept retires s (s.modifyLicense id f) := by
  apply mapLicenses
  · intro key l
    split
    · exact hsource l
    · rfl
  · intro key l hl
    split
    · next hk =>
        subst hk
        exact h l hl
    · exact .of_standing rfl

theorem modify_same {id : Nat} {f : License → License}
    (h : ∀ l, (f l).renewalStanding = l.renewalStanding)
    : RenewalsKept retires s (s.modifyLicense id f) :=
  .of_agrees rfl (Table.Agrees.of_modify h)

theorem foldl {α : Type} {step : Store → α → Store} {list : List α}
    (h : ∀ a ∈ list, ∀ s, RenewalsKept retires s (step s a)) (s : Store)
    : RenewalsKept retires s (list.foldl step s) := by
  induction list generalizing s with
  | nil => exact .refl s
  | cons head rest ih =>
      rw [List.foldl_cons]
      have hhead := h head List.mem_cons_self s
      exact hhead.trans (ih (fun a ha => h a (List.mem_cons_of_mem _ ha)) _)

theorem clear (h : RenewalsKept retires s t) {id : Nat} {old new : License}
    (hrow : RowKept (retires id) old new) (hclear : renewalInProgress s id old = false)
    : renewalInProgress t id new = false := by
  obtain ⟨hstatus, hclosed⟩ := renewalInProgress_eq_false.mp hclear
  apply renewalInProgress_eq_false.mpr
  constructor
  · intro hpending
    exact hstatus (hrow.pending hpending)
  · intro hopen
    exact hclosed (hasOpenSupportRenewal_of_agrees h.items h.sources hopen)

end RenewalsKept

theorem NoneLeavingUnderRenewal.kept {s t : Store} (hs : NoneLeavingUnderRenewal s)
    (h : RenewalsKept (NotUnderRenewal s) s t)
    : NoneLeavingUnderRenewal t := by
  intro id new hnew hleaving
  obtain ⟨old, hold, hrow⟩ := h.rows id new hnew
  apply h.clear hrow
  cases hrow.leaving hleaving with
  | inl hbefore => exact hs id old hold hbefore
  | inr hspared => exact hspared old hold

-- Maintenance work

namespace RenewalsKept

variable {retires : Nat → Prop} {s t : Store}

theorem snapshotIncludedSupport (parentId : Nat) (s : Store)
    : RenewalsKept nobody s (snapshotIncludedSupport parentId s) := by
  obtain ⟨history, he, -⟩ := snapshotIncludedSupport_eq parentId s
  rw [he]
  exact .of_eq rfl rfl

theorem syncParentMirrorFields (u : Unicode) (parentId : Nat) (s : Store)
    : RenewalsKept nobody s (syncParentMirrorFields u parentId s) :=
  .modify_same fun _ => rfl

theorem recomputeActiveMaintenance (env : Env) (parentId : Nat) (s : Store)
    : RenewalsKept nobody s (recomputeActiveMaintenance env parentId s) := by
  cases hp : s.license? parentId with
  | none =>
      simp only [LicenseTrack.recomputeActiveMaintenance, hp]
      exact .refl s
  | some parent =>
      obtain ⟨history, he, -⟩ := recomputeActiveMaintenance_eq env hp
      rw [he]
      exact .of_agrees rfl (Table.Agrees.of_modify fun _ => rfl)

theorem activate {env : Env} {maintenanceId parentId : Nat} {s t : Store}
    (h : activateMaintenanceForParent env maintenanceId parentId s = .ok t)
    : RenewalsKept nobody s t := by
  simp only [activateMaintenanceForParent, bind_eq_ok, pure_eq_ok] at h
  obtain ⟨linked, hl, rfl⟩ := h
  obtain ⟨-, -, rfl⟩ := linkMaintenanceToParent_ok hl
  have hlinked : RenewalsKept nobody s (s.withLink maintenanceId parentId) := .of_eq rfl rfl
  have hactivated : RenewalsKept nobody (s.withLink maintenanceId parentId)
      ((s.withLink maintenanceId parentId).modifyLicense maintenanceId (·.activated parentId)) := by
    apply modify_same
    intro l
    rfl
  exact (hlinked.trans hactivated).trans (recomputeActiveMaintenance env parentId _)

theorem detach (maintenanceId parentId : Nat) (updatePrimary : Bool) (s : Store)
    : RenewalsKept nobody s (detachMaintenanceFromParent maintenanceId parentId updatePrimary s) := by
  have hlinks : RenewalsKept nobody s (s.deleteLinks (· == ⟨maintenanceId, parentId⟩)) :=
    .of_eq rfl rfl
  refine (hlinks.trans (.modify_same fun l => ?_)).trans (.modify_same fun l => ?_)
  · split <;> rfl
  · split <;> rfl

theorem retire (maintenanceId : Nat) (s : Store)
    : RenewalsKept (· = maintenanceId) s (retireMaintenanceLicense maintenanceId s) := by
  unfold retireMaintenanceLicense
  dsimp only
  have hlinks : RenewalsKept (· = maintenanceId) s
      (s.deleteLinks (·.maintenanceLicenseId == maintenanceId)) := .of_eq rfl rfl
  refine (hlinks.trans ?_).trans (.modify ?_ ?_)
  · apply RenewalsKept.mapLicenses
    · intro id l
      split <;> rfl
    · intro id l _
      apply RowKept.of_standing
      split <;> rfl
  · intro l
    rfl
  · intro l _
    exact ⟨fun hp => hp, fun _ => .inr rfl⟩

theorem retire_retired {maintenanceId : Nat} {s : Store} {l : License}
    (hl : s.license? maintenanceId = some l) (hretired : l.isRetired = true)
    : RenewalsKept nobody s (retireMaintenanceLicense maintenanceId s) where
  items := (retire maintenanceId s).items
  sources := (retire maintenanceId s).sources
  rows id new hnew := by
    obtain ⟨old, hold, hrow⟩ := (retire maintenanceId s).rows id new hnew
    refine ⟨old, hold, hrow.pending, fun hleaving => .inl ?_⟩
    rcases hrow.leaving hleaving with h | rfl
    · exact h
    · obtain rfl := Option.some.inj (hl.symm.trans hold)
      simp [License.leaving, hretired]

theorem syncActive (u : Unicode) (id : Nat) (s : Store)
    : RenewalsKept nobody s (syncActiveMaintenanceParentIfNeeded u id s) := by
  unfold syncActiveMaintenanceParentIfNeeded
  split
  · split
    · refine RenewalsKept.foldl (fun parentId _ s => ?_) s
      split
      · exact syncParentMirrorFields u parentId s
      · exact .refl s
    · exact .refl s
  · exact .refl s

/-- Reconciling retires no licence that is not retired already. -/
theorem reconcile {env : Env} {id : Nat} {previous : Option Nat}
    {requested : Option (Option Nat)} {s t : Store}
    (h : reconcileMaintenanceRelationshipsAfterUpdate env id previous requested s = .ok t)
    : RenewalsKept nobody s t := by
  simp only [reconcileMaintenanceRelationshipsAfterUpdate, bind_eq_ok, found_eq_ok] at h
  obtain ⟨l, hl, h⟩ := h
  split at h
  · obtain rfl := pure_eq_ok.mp h
    refine RenewalsKept.trans (t := if previous ≠ none ∨ l.parentLicenseId ≠ none then
        detachAllMaintenanceRelationships id s else s) ?_ (.modify_same fun _ => rfl)
    split
    · have hdetached : RenewalsKept nobody s ((s.storedParentsOf id).foldl
          (fun s parentId => detachMaintenanceFromParent id parentId true s) s) :=
        RenewalsKept.foldl (fun parentId _ s => detach id parentId true s) s
      exact hdetached.trans (.modify_same fun _ => rfl)
    · exact .refl s
  · split at h
    · next hretired =>
        obtain rfl := pure_eq_ok.mp h
        exact retire_retired hl hretired
    · cases requested with
      | none =>
          obtain rfl := pure_eq_ok.mp h
          exact .refl s
      | some target =>
          -- The record leaves its previous parent before it moves to its new one, if any.
          have hleft : ∀ old, RenewalsKept nobody s
              (if previous ≠ target ∧ (s.license? old).isSome then
                detachMaintenanceFromParent id old false s else s) := by
            intro old
            split
            · exact detach id old false s
            · exact .refl s
          have hmoved : ∀ v parentId, RenewalsKept nobody s v →
              (if previous ≠ some parentId then do
                let _ ← validateParentLicense v parentId
                let s ← activateMaintenanceForParent env id parentId v
                pure (s.modifyLicense id (fun l => { l with parentLicenseId := some parentId }))
              else pure v) = Except.ok t → RenewalsKept nobody s t := by
            intro v parentId hv hrest
            split at hrest
            · simp only [bind_eq_ok, pure_eq_ok] at hrest
              obtain ⟨-, -, active, hactive, rfl⟩ := hrest
              exact (hv.trans (activate hactive)).trans (.modify_same fun _ => rfl)
            · obtain rfl := pure_eq_ok.mp hrest
              exact hv
          cases target with
          | none =>
              cases previous with
              | none =>
                  obtain rfl := pure_eq_ok.mp h
                  exact .refl s
              | some old =>
                  obtain rfl := pure_eq_ok.mp h
                  exact hleft old
          | some parentId =>
              cases previous with
              | none => exact hmoved s parentId (.refl s) h
              | some old => exact hmoved _ parentId (hleft old) h

theorem includedSupportExit (u : Unicode) (id : Nat) (previous : MaintenanceCoverage) (s : Store)
    : RenewalsKept nobody s (recordIncludedSupportExit u id previous s) := by
  unfold recordIncludedSupportExit
  split
  · split_ifs
    · exact .refl s
    · exact .refl s
    · exact (snapshotIncludedSupport id s).trans (syncParentMirrorFields u id _)
  · exact .refl s

theorem snapshotBeforeTypeChange (id : Nat) (newType : LicenseType) (s : Store)
    : RenewalsKept nobody s (snapshotIncludedSupportBeforeTypeChange id newType s) := by
  unfold snapshotIncludedSupportBeforeTypeChange
  split
  · split
    · exact snapshotIncludedSupport id s
    · exact .refl s
  · exact .refl s

theorem syncSupport (u : Unicode) (id : Nat) (s : Store)
    : RenewalsKept nobody s (s.modifyLicense id (syncSupportDefaults u)) :=
  .modify_same fun _ => rfl

theorem of_references (h : OnlyReferences s t) : RenewalsKept retires s t :=
  .of_eq h.items h.licenses

theorem of_numbers (h : OnlyNumbers s t) : RenewalsKept retires s t :=
  .of_agrees h.items (h.rows.coarsen License.renewalStanding)

end RenewalsKept

end LicenseTrack
