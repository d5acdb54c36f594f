import LicenseTrack.Conversion.LineEffect
import LicenseTrack.Services.CsvImport

/-! What a row of an import does to the licences: it adds one, or rewrites one.
-/

namespace LicenseTrack

open Library

/-- The store after a new record is inserted, numbered and given its reference. -/
def registerNewRow (env : Env) (row : ParsedRow) (license : License) (s : Store) : Store :=
  assignLicenseRef env s.licenses.nextKey
    (syncLicenseLine env.unicode s.licenses.nextKey row.poLineNumber
      { s with licenses := s.licenses.insert license })

theorem importNewRow_ok {env : Env} {progress : ImportProgress} {row : ParsedRow} {s t : Store}
    (h : importNewRow env progress row s = .ok t)
    : ∃ license marked,
        buildLicense env.unicode s row (importedParentId env.unicode progress row) = .ok license
        ∧ (marked = registerNewRow env row license s
          ∨ ∃ predecessorId, license.predecessorId = some predecessorId
              ∧ marked = (registerNewRow env row license s).modifyLicense predecessorId (fun l =>
                { l with
                  lifecycleStatus := some .renewed
                  renewedToId := some s.licenses.nextKey }))
        ∧ activateImported env progress s.licenses.nextKey license row.parentLicenseRefs marked
          = .ok t
        ∧ ({ s with licenses := s.licenses.insert license } : Store).Constraints
        ∧ t.Constraints := by
  simp only [importNewRow, bind_eq_ok, flush_eq_ok] at h
  obtain ⟨license, hbuild, v, ⟨rfl, hinserted⟩, h⟩ := h
  split at h
  · next predecessorId hpredecessor =>
      split at h
      · simp only [bind_eq_ok, markPredecessorRenewed, found_eq_ok, pure_eq_ok, flush_eq_ok] at h
        obtain ⟨_, ⟨_, -, _, -, rfl⟩, _, hactivated, rfl, hfinal⟩ := h
        exact ⟨license, _, hbuild, .inr ⟨predecessorId, hpredecessor, rfl⟩, hactivated, hinserted,
          hfinal⟩
      · simp only [bind_eq_ok, pure_eq_ok, flush_eq_ok] at h
        obtain ⟨_, rfl, _, hactivated, rfl, hfinal⟩ := h
        exact ⟨license, _, hbuild, .inl rfl, hactivated, hinserted, hfinal⟩
  · simp only [bind_eq_ok, pure_eq_ok, flush_eq_ok] at h
    obtain ⟨_, rfl, _, hactivated, rfl, hfinal⟩ := h
    exact ⟨license, _, hbuild, .inl rfl, hactivated, hinserted, hfinal⟩

theorem activateImported_only {env : Env} {progress : ImportProgress} {id : Nat}
    {license : License} {refs : List String} {s t : Store}
    (h : activateImported env progress id license refs s = .ok t)
    : OnlyMaintenance s t := by
  unfold activateImported at h
  split at h
  · have hfurther : ∀ {v w : Store}, each (activateImportedParent env progress id) refs v = .ok w
        → OnlyMaintenance v w := fun hloop => by
      refine each_only (fun ref _ x y hstep => ?_) hloop
      unfold activateImportedParent at hstep
      split at hstep
      · obtain ⟨_, -, hstep⟩ := bind_eq_ok.mp hstep
        exact activateMaintenanceForParent_only hstep
      · obtain ⟨_, -, hstep⟩ := bind_eq_ok.mp hstep
        exact activateMaintenanceForParent_only hstep
    split at h
    · obtain ⟨v, hfirst, hrest⟩ := bind_eq_ok.mp h
      exact (activateMaintenanceForParent_only hfirst).trans (hfurther hrest)
    · obtain ⟨v, hsame, hrest⟩ := bind_eq_ok.mp h
      obtain rfl := pure_eq_ok.mp hsame
      exact hfurther hrest
  · obtain rfl := Except.ok.inj h
    exact .refl s

end LicenseTrack
