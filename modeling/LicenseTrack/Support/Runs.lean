import LicenseTrack.Support.Requests

/-! Runs of the requests that touch included support: no period of included support is lost
without a row of the history, except where a row with its dates and another cost is there already
or where an import changes the period as it ends it.
-/

namespace LicenseTrack

open Library

/-- The requests that touch the support of a licence. -/
inductive SupportRequest
  | create (payload : LicenseCreate)
  | createBatch (items : List LicenseBatchCreateItem)
  | update (id : Nat) (payload : LicenseUpdate)
  | patch (id : Nat) (change : LicensePatch)
  | enterSupport (id : Nat) (payload : IncludedSupportUpdate)
  | activateMaintenance (maintenanceId parentId : Nat)
  | detachMaintenance (maintenanceId parentId : Nat)
  | retireMaintenance (maintenanceId : Nat)
  | disableMaintenance (parentId : Nat)
  | importUpdate (id : Nat) (row : ParsedRow)

namespace SupportRequest

/-- What a request commits, or how it fails. -/
def run (env : Env) : SupportRequest → Store → Except Failure Store
  | .create payload, s => createLicense env payload s
  | .createBatch items, s => createLicenseBatch env items s
  | .update id payload, s => updateLicense env id payload s
  | .patch id change, s => patchLicense env id change s
  | .enterSupport id payload, s => updateIncludedSupport env.unicode id payload s
  | .activateMaintenance maintenanceId parentId, s => do
      let s ← activateMaintenanceForParent env maintenanceId parentId s
      flush s
  | .detachMaintenance maintenanceId parentId, s =>
      flush (detachMaintenanceFromParent maintenanceId parentId true s)
  | .retireMaintenance maintenanceId, s => flush (retireMaintenanceLicense maintenanceId s)
  | .disableMaintenance parentId, s => flush (disableMaintenanceForParent env.unicode parentId s)
  | .importUpdate id row, s => importUpdateRow env id row s

/-- A request that edits the period of a licence which stays included: an entry, or an import row
with support cells that does not end included support.
-/
def Edits (id : Nat) : SupportRequest → Prop
  | .enterSupport target _ => target = id
  | .importUpdate target row => target = id ∧ hasMaintenanceUpdateValues row = true
      ∧ row.maintenanceCoverage.getD .included = .included
  | _ => False

/-- An import row that ends included support leaves the dates and the cost in its other cells. -/
def LeavesPeriod (id : Nat) (l : License) : SupportRequest → Prop
  | .importUpdate target row => target = id →
      row.maintenanceCoverage.getD .included ≠ .included → row.importedPeriod l = l.period
  | _ => True

variable {u : Unicode} {s t : Store}

theorem run_keeps {env : Env} {request : SupportRequest} {watched : Nat → Prop}
    (hwatched : ∀ id, watched id → ¬ request.Edits id
      ∧ ∀ l, s.license? id = some l → request.LeavesPeriod id l)
    (h : request.run env s = .ok t)
    : KeepsPeriods env.unicode watched s t := by
  cases request with
  | create payload =>
      simp only [run, createLicense, bind_eq_ok, flush_eq_ok] at h
      obtain ⟨⟨created, v⟩, hrecord, rfl, -⟩ := h
      exact createLicenseRecord_keeps hrecord
  | createBatch items =>
      simp only [run, createLicenseBatch, bind_eq_ok, flush_eq_ok] at h
      obtain ⟨v, hlines, rfl, -⟩ := h
      exact createBatchLines_keeps hlines
  | update target payload => exact updateLicense_keeps h
  | patch target change => exact patchLicense_keeps h
  | enterSupport target payload =>
      obtain ⟨hgood, hhistory, hkept⟩ := updateIncludedSupport_keeps h
      refine ⟨hgood, hhistory, fun hs key p hk => hkept hs key p ?_⟩
      rintro rfl
      exact (hwatched key hk).1 rfl
  | activateMaintenance maintenanceId parentId =>
      simp only [run, bind_eq_ok, flush_eq_ok] at h
      obtain ⟨v, hactivated, rfl, -⟩ := h
      exact activateMaintenanceForParent_keeps hactivated
  | detachMaintenance maintenanceId parentId =>
      obtain ⟨rfl, -⟩ := flush_eq_ok.mp h
      exact detachMaintenanceFromParent_keeps maintenanceId parentId true s
  | retireMaintenance maintenanceId =>
      obtain ⟨rfl, -⟩ := flush_eq_ok.mp h
      exact retireMaintenanceLicense_keeps maintenanceId s
  | disableMaintenance parentId =>
      obtain ⟨rfl, -⟩ := flush_eq_ok.mp h
      exact disableMaintenanceForParent_keeps parentId s
  | importUpdate target row =>
      have hstored : ∃ stored, s.license? target = some stored := by
        simp only [run, importUpdateRow, bind_eq_ok, found_eq_ok] at h
        obtain ⟨stored, hstored, -⟩ := h
        exact ⟨stored, hstored⟩
      obtain ⟨stored, hstored⟩ := hstored
      refine importUpdateRow_keeps hstored (fun hk hcells => ?_) h
      obtain ⟨hedits, hleaves⟩ := hwatched target hk
      have hends : row.maintenanceCoverage.getD .included ≠ .included :=
        fun hstays => hedits ⟨rfl, hcells, hstays⟩
      exact ⟨hends, hleaves stored hstored rfl hends⟩

theorem run_edits {env : Env} {request : SupportRequest} {id : Nat} {p : SupportPeriod}
    (hs : SupportGood env.unicode s) (hp : s.Holds id p) (hedits : request.Edits id)
    (h : request.run env s = .ok t)
    : t.StaysIncluded id := by
  obtain ⟨l, hl, hholds⟩ := hp
  cases request with
  | enterSupport target payload =>
      obtain rfl : target = id := hedits
      exact updateIncludedSupport_stays h
  | importUpdate target row =>
      obtain ⟨rfl, -, hstays⟩ := hedits
      exact importUpdateRow_stays hl hholds ((hs target l hl).inactive hholds) hstays h
  | create _ | createBatch _ | update _ _ | patch _ _ | activateMaintenance _ _
  | detachMaintenance _ _ | retireMaintenance _ | disableMaintenance _ => exact hedits.elim

end SupportRequest

/-- A request with the surroundings it meets. -/
abbrev DatedSupportRequest := Env × SupportRequest

/-- A state reached by these requests under one text library. -/
abbrev SupportReached (u : Unicode) (start s : Store) : Prop :=
  Reachable (fun request : DatedSupportRequest => request.2.run request.1)
    (fun _ request => request.1.unicode = u) start s

theorem SupportReached.good {u : Unicode} {start s : Store} (hstart : SupportGood u start)
    (h : SupportReached u start s)
    : SupportGood u s := by
  refine h.invariant hstart fun s t request hs hu hran => ?_
  have hkeeps : KeepsPeriods request.1.unicode (fun _ => False) s t :=
    SupportRequest.run_keeps (fun _ hfalse => hfalse.elim) hran
  subst hu
  exact hkeeps.good hs

/-- In every state of a run, a request keeps the period of a licence or edits it in place, or
the history has the period afterwards: unless the history had one with its dates and another cost,
or the request is an import row that changes the period as it ends it.
-/
theorem includedSupport_recorded {start s t : Store} {env : Env} {request : SupportRequest}
    {id : Nat} {l : License} (hstart : SupportGood env.unicode start)
    (h : SupportReached env.unicode start s) (hran : request.run env s = .ok t)
    (hl : s.license? id = some l) (hparent : l.licenseType.isMaintenanceParent = true)
    (hincluded : l.maintenanceCoverage = .included)
    (hstored : hasIncludedSupportData l.toMaintenanceMirror = true)
    (hagree : s.CostsAgree id l.period) (hleaves : request.LeavesPeriod id l)
    : (t.Holds id l.period ∨ (request.Edits id ∧ t.StaysIncluded id))
      ∨ t.Recorded id l.period := by
  have hs := h.good hstart
  have hholds : s.Holds id l.period := ⟨l, hl, hparent, hincluded, hstored, rfl⟩
  by_cases hedits : request.Edits id
  · exact .inl (.inr ⟨hedits, SupportRequest.run_edits hs hholds hedits hran⟩)
  · have hkeeps : KeepsPeriods env.unicode (· = id) s t := by
      refine SupportRequest.run_keeps (fun key hk => ?_) hran
      subst hk
      refine ⟨hedits, fun l' hl' => ?_⟩
      obtain rfl := Option.some.inj (hl.symm.trans hl')
      exact hleaves
    rcases hkeeps.kept hs id l.period rfl hholds hagree with ⟨hkept, -⟩ | hrecorded
    · exact .inl (.inl hkept)
    · exact .inr hrecorded

/-- A licence with included support for days 1 to 100 at the cost of 10. -/
def includedParent : Store where
  licenses :=
    Table.empty.insert ((License.ofTerm .perpetual (some 1) none).withMirror
      {
        maintenanceCoverage := .included
        maintenanceStartDate := some 1
        maintenanceEndDate := some 100
        maintenancePricingBasis := some .flat
        maintenanceCost := some "10"
      })

theorem includedParent_good : SupportGood .ascii includedParent := by
  intro id l hl
  have hcases : (id, l) ∈ includedParent.licenses.entries := Table.get?_eq_some.mp hl
  simp only [includedParent, Table.insert, Table.empty, List.nil_append, List.mem_singleton,
    Prod.mk.injEq] at hcases
  obtain ⟨-, rfl⟩ := hcases
  exact ⟨fun hactive => absurd rfl hactive, fun _ => rfl⟩

/-- Coverage that is no longer included leaves the period in the history. -/
theorem includedSupport_recorded_patch
    : ∃ t, (SupportRequest.patch 1 (.maintenanceCoverage (some "unknown"))).run (.onDay 5)
          includedParent = .ok t
        ∧ t.Recorded 1 ⟨some 1, some 100, some "10"⟩ := by
  obtain ⟨t, ht⟩ : ∃ t, (SupportRequest.patch 1 (.maintenanceCoverage (some "unknown"))).run
      (.onDay 5) includedParent = .ok t := exists_ok (by decide +kernel)
  have hcoverage : ((SupportRequest.patch 1 (.maintenanceCoverage (some "unknown"))).run
      (.onDay 5) includedParent).toOption.bind (fun t => (t.license? 1).map
        (·.maintenanceCoverage)) = some .unknown := by decide +kernel
  rw [ht] at hcoverage
  have hleft : ∀ l, t.license? 1 = some l → l.maintenanceCoverage ≠ .included := by
    intro l hl hincluded
    rw [Except.toOption, Option.bind_some, hl, Option.map_some, hincluded] at hcoverage
    cases hcoverage
  obtain ⟨l, hl, hparent, hincluded, hstored, hperiod⟩ : ∃ l, includedParent.license? 1 = some l
      ∧ l.licenseType.isMaintenanceParent = true ∧ l.maintenanceCoverage = .included
      ∧ hasIncludedSupportData l.toMaintenanceMirror = true
      ∧ l.period = ⟨some 1, some 100, some "10"⟩ := ⟨_, rfl, rfl, rfl, by decide, rfl⟩
  have hagree : includedParent.CostsAgree 1 l.period := by
    intro key row hrow
    cases hrow
  refine ⟨t, ht, ?_⟩
  rw [← hperiod]
  rcases includedSupport_recorded includedParent_good .start ht hl hparent hincluded hstored hagree
    trivial with (⟨after, hafter, hholds⟩ | ⟨hedits, -⟩) | hrecorded
  · exact absurd hholds.included (hleft after hafter)
  · exact hedits.elim
  · exact hrecorded

/-- The period is recorded, entered again at the cost of 20, and ended again. -/
def enteredTwice : List DatedSupportRequest :=
  [(.onDay 5, .patch 1 (.maintenanceCoverage (some "unknown"))),
    (.onDay 5, .patch 1 (.maintenanceCoverage (some "included"))),
    (.onDay 5, .enterSupport 1
      { maintenanceStartDate := some 1, maintenanceEndDate := some 100,
        maintenanceCost := some "20" })]

/-- A period with the dates of a recorded one and another cost is lost. -/
theorem includedSupport_lost_enteredTwice
    : ¬ ∀ (start s t : Store) (env : Env) (request : SupportRequest) (id : Nat) (l : License),
        SupportGood env.unicode start → SupportReached env.unicode start s →
        request.run env s = .ok t → s.license? id = some l →
        l.licenseType.isMaintenanceParent = true → l.maintenanceCoverage = .included →
        hasIncludedSupportData l.toMaintenanceMirror = true →
        (t.Holds id l.period ∨ (request.Edits id ∧ t.StaysIncluded id))
          ∨ t.Recorded id l.period := by
  intro hclaim
  obtain ⟨s, hs⟩ : ∃ s, runAll (fun request : DatedSupportRequest => request.2.run request.1)
      enteredTwice includedParent = some s := Option.isSome_iff_exists.mp (by decide +kernel)
  have hbefore : (runAll (fun request : DatedSupportRequest => request.2.run request.1)
      enteredTwice includedParent).bind (fun s => (s.license? 1).map (fun l =>
        (l.licenseType, l.maintenanceCoverage, hasIncludedSupportData l.toMaintenanceMirror,
          l.period))) = some (.perpetual, .included, true, ⟨some 1, some 100, some "20"⟩) := by
    decide +kernel
  have hlast : (runAll (fun request : DatedSupportRequest => request.2.run request.1)
      enteredTwice includedParent).map (fun s =>
        (((SupportRequest.patch 1 (.maintenanceCoverage (some "unknown"))).run (.onDay 5) s).isOk,
          ((SupportRequest.patch 1 (.maintenanceCoverage (some "unknown"))).run (.onDay 5)
            s).toOption.map (fun t => ((t.license? 1).map (·.maintenanceCoverage),
              t.history.entries.map (·.2.cost)))))
        = some (true, some (some .unknown, [some "10"])) := by
    decide +kernel
  rw [hs] at hbefore hlast
  obtain ⟨l, hl, hrow⟩ := Option.map_eq_some_iff.mp hbefore
  obtain ⟨htype, hincluded, hstored, hperiod⟩ : l.licenseType = .perpetual
      ∧ l.maintenanceCoverage = .included ∧ hasIncludedSupportData l.toMaintenanceMirror = true
      ∧ l.period = ⟨some 1, some 100, some "20"⟩ := by simpa using hrow
  obtain ⟨hok, hafter⟩ := Prod.mk.inj (Option.some.inj hlast)
  obtain ⟨t, hran⟩ := exists_ok hok
  rw [hran] at hafter
  obtain ⟨hcoverage, hcosts⟩ := Prod.mk.inj (Option.some.inj hafter)
  have hreached : SupportReached .ascii includedParent s := by
    refine .of_runAll .start (fun v request hm => ?_) hs
    simp only [enteredTwice, List.mem_cons, List.not_mem_nil, or_false] at hm
    rcases hm with rfl | rfl | rfl <;> rfl
  rcases hclaim includedParent s t (.onDay 5) _ 1 l includedParent_good hreached hran hl
    (by rw [htype]; rfl) hincluded hstored
    with (⟨after, hafterRow, hholds⟩ | ⟨hedits, -⟩) | ⟨key, row, hrow, -, he⟩
  · rw [hafterRow, Option.map_some, hholds.included] at hcoverage
    cases hcoverage
  · exact hedits.elim
  · have hmem : row.cost ∈ t.history.entries.map (·.2.cost) :=
      List.mem_map_of_mem (Table.get?_eq_some.mp hrow)
    have hcost : row.cost = some "20" := by
      rw [hperiod] at he
      exact congrArg SupportPeriod.cost he
    rw [hcosts, hcost, List.mem_singleton] at hmem
    exact absurd hmem (by decide)

end LicenseTrack
