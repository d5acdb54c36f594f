import LicenseTrack.Maintenance.Effects
import LicenseTrack.Services.ExistingSuccessor

/-! Maintenance bookkeeping stays in its own columns: whatever it does to mirrors, links,
parents, retirement and history, the rest of every licence and every other table is left as
it was.
-/

namespace LicenseTrack

open Library

/-- What maintenance bookkeeping and the numbering of purchase-order lines never write on a
licence.
-/
def License.core (l : License) : LicenseDetails × LicenseTerms × LicensePurchase × LicenseChain :=
  (l.toLicenseDetails, l.toLicenseTerms, { l.toLicensePurchase with poLineId := none },
    l.toLicenseChain)

namespace License

variable {a b : License}

theorem core_details (h : b.core = a.core) : b.toLicenseDetails = a.toLicenseDetails :=
  congrArg Prod.fst h

theorem core_terms (h : b.core = a.core) : b.toLicenseTerms = a.toLicenseTerms :=
  congrArg (fun core => core.2.1) h

theorem core_purchase (h : b.core = a.core)
    : { b.toLicensePurchase with poLineId := none }
      = { a.toLicensePurchase with poLineId := none } :=
  congrArg (fun core => core.2.2.1) h

theorem core_chain (h : b.core = a.core) : b.toLicenseChain = a.toLicenseChain :=
  congrArg (fun core => core.2.2.2) h

end License

/-- Two stores with the same licences up to maintenance bookkeeping. -/
def SameCore (s t : Store) : Prop := s.licenses.Agrees License.core t.licenses

/-- A step that writes mirrors, parents, retirement, links and history only. -/
structure OnlyMaintenance (s t : Store) : Prop where
  core : SameCore s t
  rest : t = { s with licenses := t.licenses, links := t.links, history := t.history }

namespace OnlyMaintenance

variable {s t v : Store}

theorem refl (s : Store) : OnlyMaintenance s s := ⟨Table.Agrees.refl _ _, rfl⟩

theorem trans (h : OnlyMaintenance s t) (h' : OnlyMaintenance t v) : OnlyMaintenance s v := by
  refine ⟨h.core.trans h'.core, ?_⟩
  rw [h'.rest, h.rest]

theorem items (h : OnlyMaintenance s t) : t.items = s.items := by rw [h.rest]

theorem orders (h : OnlyMaintenance s t) : t.orders = s.orders := by rw [h.rest]

theorem requests (h : OnlyMaintenance s t) : t.requests = s.requests := by rw [h.rest]

theorem of_modify {id : Nat} {f : License → License} (h : ∀ l, (f l).core = l.core)
    : OnlyMaintenance s (s.modifyLicense id f) :=
  ⟨Table.Agrees.of_modify h, rfl⟩

theorem of_mapLicenses {f : Nat → License → License} (h : ∀ id l, (f id l).core = l.core)
    : OnlyMaintenance s (s.mapLicenses f) :=
  ⟨Table.Agrees.of_mapRows h, rfl⟩

theorem of_links (links : List MaintenanceLink) : OnlyMaintenance s { s with links := links } :=
  ⟨Table.Agrees.refl _ _, rfl⟩

theorem of_history (history : Table CoverageHistory)
    : OnlyMaintenance s { s with history := history } :=
  ⟨Table.Agrees.refl _ _, rfl⟩

theorem foldl {α : Type} {step : Store → α → Store} (h : ∀ s a, OnlyMaintenance s (step s a))
    (list : List α) (s : Store)
    : OnlyMaintenance s (list.foldl step s) := by
  induction list generalizing s with
  | nil => exact refl s
  | cons head rest ih => exact (h s head).trans (ih (step s head))

end OnlyMaintenance

-- The operations

theorem syncParentMirrorFields_only (u : Unicode) (parentId : Nat) (s : Store)
    : OnlyMaintenance s (syncParentMirrorFields u parentId s) :=
  .of_modify fun _ => rfl

theorem snapshotIncludedSupport_only (parentId : Nat) (s : Store)
    : OnlyMaintenance s (snapshotIncludedSupport parentId s) := by
  obtain ⟨history, he, -⟩ := snapshotIncludedSupport_eq parentId s
  rw [he]
  exact .of_history history

theorem snapshotBeforeSwitch_only (u : Unicode) (parentId : Nat) (s : Store)
    : OnlyMaintenance s (snapshotBeforeSwitch u parentId s) := by
  obtain ⟨history, he, -⟩ := snapshotBeforeSwitch_eq u parentId s
  rw [he]
  exact .of_history history

theorem recordIncludedSupportExit_only (u : Unicode) (parentId : Nat)
    (previous : MaintenanceCoverage) (s : Store)
    : OnlyMaintenance s (recordIncludedSupportExit u parentId previous s) := by
  unfold recordIncludedSupportExit
  split
  · split_ifs
    · exact .refl s
    · exact .refl s
    · exact (snapshotIncludedSupport_only parentId s).trans (syncParentMirrorFields_only u _ _)
  · exact .refl s

theorem recomputeActiveMaintenance_only (env : Env) (parentId : Nat) (s : Store)
    : OnlyMaintenance s (recomputeActiveMaintenance env parentId s) := by
  rcases hp : s.license? parentId with _ | parent
  · simp only [recomputeActiveMaintenance, hp]
    exact .refl s
  · obtain ⟨history, he, -⟩ := recomputeActiveMaintenance_eq env hp
    rw [he]
    exact ⟨Table.Agrees.of_modify fun _ => rfl, rfl⟩

theorem linkMaintenanceToParent_only {maintenanceId parentId : Nat} {s t : Store}
    (h : linkMaintenanceToParent maintenanceId parentId s = .ok t)
    : OnlyMaintenance s t := by
  obtain ⟨-, -, rfl⟩ := linkMaintenanceToParent_ok h
  exact .of_links _

theorem activateMaintenanceForParent_only {env : Env} {maintenanceId parentId : Nat} {s t : Store}
    (h : activateMaintenanceForParent env maintenanceId parentId s = .ok t)
    : OnlyMaintenance s t := by
  simp only [activateMaintenanceForParent, bind_eq_ok, pure_eq_ok] at h
  obtain ⟨linked, hl, rfl⟩ := h
  refine ((linkMaintenanceToParent_only hl).trans ?_).trans
    (recomputeActiveMaintenance_only env parentId _)
  exact .of_modify fun _ => rfl

theorem each_only {α : Type} {step : α → Store → Except Failure Store} {list : List α}
    (hstep : ∀ a ∈ list, ∀ s t, step a s = .ok t → OnlyMaintenance s t) {s t : Store}
    (h : each step list s = .ok t)
    : OnlyMaintenance s t :=
  each_relates OnlyMaintenance.refl OnlyMaintenance.trans hstep h

theorem activateMaintenanceSuccessorForAllParents_only {env : Env}
    {predecessorId successorId : Nat} {s t : Store}
    (h : activateMaintenanceSuccessorForAllParents env predecessorId successorId s = .ok t)
    : OnlyMaintenance s t := by
  unfold activateMaintenanceSuccessorForAllParents at h
  split at h
  · obtain rfl := Except.ok.inj h
    exact .refl s
  · split at h
    · obtain rfl := Except.ok.inj h
      exact .refl s
    · exact each_only (fun _ _ _ _ => activateMaintenanceForParent_only) h

theorem handOverDueMaintenance_only (env : Env) (s : Store)
    : OnlyMaintenance s (handOverDueMaintenance env s) := by
  unfold handOverDueMaintenance
  dsimp only
  split_ifs
  · exact .refl s
  · exact .foldl (fun s parentId => recomputeActiveMaintenance_only env parentId s) _ s

theorem detachMaintenanceFromParent_only (maintenanceId parentId : Nat) (updatePrimary : Bool)
    (s : Store)
    : OnlyMaintenance s (detachMaintenanceFromParent maintenanceId parentId updatePrimary s) := by
  unfold detachMaintenanceFromParent
  refine ((OnlyMaintenance.of_links _).trans (.of_modify fun l => ?_)).trans
    (.of_modify fun l => ?_)
  · split <;> rfl
  · split <;> rfl

theorem retireMaintenanceLicense_only (maintenanceId : Nat) (s : Store)
    : OnlyMaintenance s (retireMaintenanceLicense maintenanceId s) := by
  unfold retireMaintenanceLicense
  refine ((OnlyMaintenance.of_links _).trans (.of_mapLicenses fun id l => ?_)).trans
    (.of_modify fun l => rfl)
  split <;> rfl

theorem disableMaintenanceForParent_only (u : Unicode) (parentId : Nat) (s : Store)
    : OnlyMaintenance s (disableMaintenanceForParent u parentId s) := by
  have turn : ∀ s id, OnlyMaintenance s (disableRecord parentId s id) := fun s id => by
    unfold disableRecord
    dsimp only
    split
    · exact (detachMaintenanceFromParent_only _ _ _ _).trans (.of_modify fun _ => rfl)
    · exact detachMaintenanceFromParent_only _ _ _ _
  unfold disableMaintenanceForParent
  exact ((snapshotBeforeSwitch_only u parentId s).trans (.foldl turn _ _)).trans
    (.of_modify fun _ => rfl)

end LicenseTrack
