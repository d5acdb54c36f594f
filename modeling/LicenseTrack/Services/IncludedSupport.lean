import LicenseTrack.Services.LicenseUpdate

/-! The entry of an included support period on a licence. -/

namespace LicenseTrack

open Library

/-- The body of an entry. -/
structure IncludedSupportUpdate where
  maintenanceStartDate : Option Date := none
  maintenanceEndDate : Option Date := none
  maintenancePricingBasis : MaintenancePricingBasis := .flat
  maintenanceQuantity : Option String := none
  maintenanceUnitPrice : Option String := none
  maintenanceCost : Option String := none
deriving DecidableEq

/-- The schema's check of an amount, blank ones being dropped. -/
def canonicalAmount (u : Unicode) (amount : Option String) : Except Failure (Option String) :=
  match amount with
  | none => .ok none
  | some text =>
      if text = "" then .ok none
      else do
        require (u.isCanonicalMoney text = true)
          (.http 422 "Amounts must be plain decimal strings (e.g. '1234.50').")
        pure (some text)

/-- The checks of the request schema. -/
def IncludedSupportUpdate.validated (u : Unicode) (p : IncludedSupportUpdate)
    : Except Failure IncludedSupportUpdate := do
  let quantity ← canonicalAmount u p.maintenanceQuantity
  let unitPrice ← canonicalAmount u p.maintenanceUnitPrice
  let cost ← canonicalAmount u p.maintenanceCost
  require (¬ p.maintenanceStartDate.any (fun start => p.maintenanceEndDate.any (· < start)) = true)
    (.http 422 "Maintenance end date cannot be before its start date.")
  pure { p with
    maintenanceQuantity := quantity
    maintenanceUnitPrice := unitPrice
    maintenanceCost := cost }

/-- The mirror that an entry writes, before the support defaults. -/
def IncludedSupportUpdate.writeMirror (p : IncludedSupportUpdate) (m : MaintenanceMirror)
    : MaintenanceMirror :=
  let perUnit := p.maintenancePricingBasis = .perUnit
  { m with
    maintenanceStartDate := p.maintenanceStartDate
    maintenanceEndDate := p.maintenanceEndDate
    maintenancePricingBasis := some p.maintenancePricingBasis
    maintenanceQuantity := if perUnit then p.maintenanceQuantity else none
    maintenanceUnitPrice := if perUnit then p.maintenanceUnitPrice else none
    maintenanceCost := p.maintenanceCost }

/-- `apply_included_support_update`. -/
def applyIncludedSupportUpdate (u : Unicode) (id : Nat) (p : IncludedSupportUpdate) (s : Store)
    : Except Failure Store := do
  let l ← found (s.license? id) (.http 404 "License not found")
  require (l.licenseType.isMaintenanceParent = true)
    (.http 400 "Included maintenance can only be edited on perpetual, OEM or freeware licenses")
  require (l.maintenanceCoverage = .included)
    (.http 400 "Set coverage to Included before editing the maintenance period")
  require (l.activeMaintenanceId = none)
    (.http 409
      "Maintenance is tracked on a linked maintenance record; edit that record instead")
  pure (s.modifyLicense id (fun l =>
    syncSupportDefaults u (l.withMirror (p.writeMirror l.toMaintenanceMirror))))

/-- The entry request: its schema, the entry and the commit. -/
def updateIncludedSupport (u : Unicode) (id : Nat) (p : IncludedSupportUpdate) (s : Store)
    : Except Failure Store := do
  let p ← p.validated u
  let s ← applyIncludedSupportUpdate u id p s
  flush s

end LicenseTrack
