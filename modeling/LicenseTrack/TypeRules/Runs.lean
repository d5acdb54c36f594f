import LicenseTrack.TypeRules.Conversions

/-! Runs in which licences are created, written, imported and made of lines: the writers that do
not normalise what they store keep every licence true to its type only on some inputs.
-/

namespace LicenseTrack

open Library

/-- The requests that keep each licence true to its type: a maintenance record is created without
the fields of other types, a free licence gets no price by patch or import, and each renewal fits
the type of its successor.
-/
def Request.KeepsTyped (s : Store) : Request → Prop
  | .create payload => payload.row.licenseType = .maintenance → payload.row.LeavesOptIns
  | .createBatch items => ∀ item ∈ items, item.license.row.licenseType = .maintenance →
      item.license.row.LeavesOptIns
  | .createMaintenance _ row => row.LeavesOptIns
  | .patch id change => ∀ l, s.license? id = some l → change.PricesNoFreeware l
  | .importCsvRow _ matched row =>
      match matched.filter (fun id => (s.license? id).isSome) with
      | some id => ∀ l, s.license? id = some l → l.licenseType = .freeware → row.unitPrice = ""
      | none => row.AddsFreewareUnpriced
  | .convertOrder orderId form submitted => ∀ entry ∈ s.orderItems orderId,
      LineRenewsTyped s form
        (if 1 < (s.orderItems orderId).length then submitted.filter (· ∉ perLineFields)
          else submitted) entry.2
  | .convertOrderInBatch orderId payload => ∀ line ∈ payload, ∀ item,
      (line.sourcingItemId, item) ∈ s.orderItems orderId →
        LineRenewsTyped s line.form line.submitted item
  | _ => True

/-- Each such request keeps every licence true to its type. -/
theorem TypedLicenses.run {env : Env} {request : Request} {s t : Store} (hs : TypedLicenses s)
    (hkeeps : request.KeepsTyped s) (h : request.run env s = .ok t)
    : TypedLicenses t := by
  cases request with
  | create payload =>
      simp only [Request.run, createLicense, bind_eq_ok, flush_eq_ok] at h
      obtain ⟨⟨id, v⟩, hrecord, rfl, -⟩ := h
      exact hs.createRecord hkeeps hrecord
  | createBatch items =>
      simp only [Request.run, createLicenseBatch, bind_eq_ok, flush_eq_ok] at h
      obtain ⟨v, hlines, rfl, -⟩ := h
      exact hs.createBatchLines hkeeps hlines
  | update id payload => exact hs.update h
  | patch id change => exact hs.patch hkeeps h
  | setPoTotalOverride id value => exact hs.setPoTotalOverride h
  | delete id => exact hs.delete h
  | bulkDelete ids => exact hs.bulkDelete h
  | importCsvRow progress matched row =>
      simp only [Request.run, importRow] at h
      simp only [Request.KeepsTyped] at hkeeps
      split at h
      · next id hmatched =>
          rw [hmatched] at hkeeps
          exact hs.importUpdateRow hkeeps h
      · next hnone =>
          rw [hnone] at hkeeps
          exact hs.importNewRow hkeeps h
  | createMaintenance parentId row =>
      simp only [Request.run, bind_eq_ok, flush_eq_ok] at h
      obtain ⟨⟨id, v⟩, hcreated, rfl, -⟩ := h
      exact hs.createMaintenance hkeeps hcreated
  | linkMaintenance maintenanceId parentId =>
      exact hs.of_core (linkMaintenanceToParent_only h).core
  | activateMaintenance maintenanceId parentId =>
      simp only [Request.run, bind_eq_ok, flush_eq_ok] at h
      obtain ⟨v, hactivated, rfl, -⟩ := h
      exact hs.of_core (activateMaintenanceForParent_only hactivated).core
  | recomputeMaintenance parentId =>
      obtain ⟨rfl, -⟩ := flush_eq_ok.mp h
      exact hs.of_core (recomputeActiveMaintenance_only env parentId s).core
  | detachMaintenance maintenanceId parentId =>
      obtain ⟨rfl, -⟩ := flush_eq_ok.mp h
      exact hs.of_core (detachMaintenanceFromParent_only maintenanceId parentId true s).core
  | retireMaintenance maintenanceId =>
      obtain ⟨rfl, -⟩ := flush_eq_ok.mp h
      exact hs.of_core (retireMaintenanceLicense_only maintenanceId s).core
  | disableMaintenance parentId =>
      obtain ⟨rfl, -⟩ := flush_eq_ok.mp h
      exact hs.of_core (disableMaintenanceForParent_only env.unicode parentId s).core
  | handOverMaintenance =>
      obtain ⟨rfl, -⟩ := flush_eq_ok.mp h
      exact hs.of_core (handOverDueMaintenance_only env s).core
  | retireDue => exact hs.retireDue h
  | convertOrder orderId form submitted =>
      simp only [Request.run, convertPendingOrderToLicenses, bind_eq_ok] at h
      obtain ⟨p, hprepared, h⟩ := h
      obtain ⟨hid, -, hitems, -⟩ := prepareConversion_ok hprepared
      obtain ⟨rfl, rfl⟩ := prepareConversion_form hprepared
      rw [hid] at hitems
      refine (commitConversion_typed (fun entry hentry => ?_) h).typed hs
      rw [PreparedConversion.lineFields, hitems]
      exact hkeeps entry (hitems ▸ hentry)
  | convertOrderInBatch orderId payload =>
      simp only [Request.run, batchConvertPendingOrderToLicenses, bind_eq_ok] at h
      obtain ⟨p, hprepared, h⟩ := h
      obtain ⟨⟨hid, -, hitems, -⟩, rfl, -⟩ := prepareBatch_ok hprepared
      rw [hid] at hitems
      refine (commitBatch_typed (fun line hline item hitem => ?_) h).typed hs
      exact hkeeps line hline item (hitems ▸ LoadedOrder.item?_mem hitem)
  | linkSuccessor predecessorId successorId => exact hs.link h
  | unlinkSuccessor predecessorId => exact hs.unlink h
  | repairLifecycle id repair => exact hs.repair h

/-- A step of a run: a request on licences, the conversion of free lines, or other work and what it
leaves.
-/
inductive TypedStep
  | request (env : Env) (sent : Request)
  | convertFreeware (env : Env) (itemIds : List Nat)
  | beside (t : Store)

def TypedStep.run : TypedStep → Store → Except Failure Store
  | .request env sent, s => sent.run env s
  | .convertFreeware env itemIds, s => do
      let s ← convertFreewareSourcingItems env itemIds s
      flush s
  | .beside t, _ => .ok t

/-- Work beside the terms: each licence that it leaves was stored, with the same terms. -/
def BesideTerms (s t : Store) : Prop :=
  ∀ id l, t.license? id = some l →
    ∃ old, s.license? id = some old ∧ l.toLicenseTerms = old.toLicenseTerms

/-- A step is admitted when its request is, and when other work writes no terms. -/
def TypedStep.Admitted (admits : Store → Request → Prop) (s : Store) : TypedStep → Prop
  | .request _ sent => admits s sent
  | .convertFreeware _ _ => True
  | .beside t => BesideTerms s t

/-- The states that admitted steps lead to. -/
abbrev TermsReached (admits : Store → Request → Prop) (start s : Store) : Prop :=
  Reachable TypedStep.run (TypedStep.Admitted admits) start s

/-- Where every request keeps the licences true to their types, every reachable state stores
licences that fit their types.
-/
theorem reached_typed {start s : Store} (hstart : TypedLicenses start)
    (h : TermsReached (fun s request => request.KeepsTyped s) start s)
    : TypedLicenses s := by
  refine Reachable.invariant hstart (fun s t step hs hadmitted hrun => ?_) h
  cases step with
  | request env sent => exact hs.run hadmitted hrun
  | convertFreeware env itemIds =>
      simp only [TypedStep.run, bind_eq_ok, flush_eq_ok] at hrun
      obtain ⟨v, hitems, rfl, -⟩ := hrun
      exact (convertFreewareSourcingItems_typed hitems).typed hs
  | beside t' =>
      obtain rfl := Except.ok.inj hrun
      intro id l hl
      obtain ⟨old, hold, he⟩ := hadmitted id l hl
      exact he ▸ hs id old hold

/-- The entry of a free licence. -/
def freeEntry : TypedStep :=
  .request (.onDay 1) (.create { row := License.ofTerm .freeware (some 1) (some 100) })

theorem typedLicenses_empty : TypedLicenses {} := fun _ _ hl => by cases hl

/-- A free licence entered with an end date and renamed by a patch fits its type. -/
theorem reached_typed_freeEntry
    : ∃ s l, runAll TypedStep.run
          [freeEntry, .request (.onDay 1) (.patch 1 (.plain .quantity (some "3")))] {} = some s
        ∧ s.license? 1 = some l ∧ l.licenseType = .freeware ∧ l.quantity = "3"
        ∧ l.toLicenseTerms.Typed := by
  obtain ⟨s, hs⟩ : ∃ s, runAll TypedStep.run
      [freeEntry, .request (.onDay 1) (.patch 1 (.plain .quantity (some "3")))] {} = some s :=
    Option.isSome_iff_exists.mp (by decide +kernel)
  have hrow : (runAll TypedStep.run
      [freeEntry, .request (.onDay 1) (.patch 1 (.plain .quantity (some "3")))] {}).bind
        (fun s => (s.license? 1).map (fun l => (l.licenseType, l.quantity)))
      = some (.freeware, "3") := by decide +kernel
  rw [hs, Option.bind_some] at hrow
  obtain ⟨l, hl, he⟩ := Option.map_eq_some_iff.mp hrow
  obtain ⟨htype, hquantity⟩ := Prod.mk.inj he
  refine ⟨s, l, hs, hl, htype, hquantity, ?_⟩
  refine reached_typed typedLicenses_empty (.of_runAll .start (fun v step hm => ?_) hs) 1 l hl
  rcases List.mem_cons.mp hm with rfl | hm
  · intro hmaintenance
    cases hmaintenance
  · obtain rfl := List.mem_singleton.mp hm
    exact fun _ _ => trivial

/-- A patch gives a free licence a price. -/
theorem reached_typed_pricedFreeware
    : ¬ ∀ s, TermsReached (fun _ _ => True) {} s → TypedLicenses s := by
  intro hclaim
  obtain ⟨s, hs⟩ : ∃ s, runAll TypedStep.run
      [freeEntry, .request (.onDay 1) (.patch 1 (.plain .unitPrice (some "10")))] {} = some s :=
    Option.isSome_iff_exists.mp (by decide +kernel)
  have hrow : (runAll TypedStep.run
      [freeEntry, .request (.onDay 1) (.patch 1 (.plain .unitPrice (some "10")))] {}).bind
        (fun s => (s.license? 1).map (fun l => (l.licenseType, l.unitPrice)))
      = some (.freeware, "10") := by decide +kernel
  rw [hs, Option.bind_some] at hrow
  obtain ⟨l, hl, he⟩ := Option.map_eq_some_iff.mp hrow
  obtain ⟨htype, hprice⟩ := Prod.mk.inj he
  have hreached : TermsReached (fun _ _ => True) {} s := by
    refine .of_runAll .start (fun v step hm => ?_) hs
    rcases List.mem_cons.mp hm with rfl | hm
    · trivial
    · obtain rfl := List.mem_singleton.mp hm
      trivial
  have hblank := ((hclaim s hreached 1 l hl).prices htype).1
  rw [hprice] at hblank
  exact absurd hblank (by decide)

end LicenseTrack
