import LicenseTrack.Services.Request
import LicenseTrack.Services.SourcingConversion

/-! Starting a renewal: of a licence, and of the included support of a licence. Each creates the
sourcing line that the renewal is procured with.
-/

namespace LicenseTrack

open Library

/-- The calendar that new terms are computed with. -/
structure Calendar where
  /-- The same day of the next year, or 28 February; none in the last year of the calendar. -/
  sameDayNextYear : Date → Option Date
  /-- The day before the same day of the next year, or before 1 March. -/
  dayBeforeNextAnniversary : Date → Date

/-- `db.add` of a line and its request: the line's key is the next one. -/
def addLineWithRequest (u : Unicode) (item : SourcingItem) (s : Store) : Except Failure Store := do
  let itemId := s.items.nextKey
  let (_, s) ← ensureSourcingRequestForItem u itemId item { s with items := s.items.insert item }
  pure s

/-- `_reserve_renewal_transition`, for a licence as it was loaded. -/
def reserveRenewalTransition (id : Nat) (l : License) (s : Store) : Except Failure Store := do
  let _ : Unit ← require ((s.license? id).any (fun row =>
      row.lifecycleStatus == l.lifecycleStatus && row.renewedToId.isNone && !row.isRetired
        && !row.retirementScheduled) = true)
    (.http 409 "Renewal already initiated for this license")
  pure (s.modifyLicense id (fun row => { row with lifecycleStatus := some .pendingRenewal }))

/-- `_ANNUAL_CONTINUATION_LICENSE_TYPES`. -/
def LicenseType.continuesAnnually (type : LicenseType) : Bool :=
  type == .subscription || type == .saas || type == .maintenance

/-- `_suggest_annual_continuation_term`. -/
def suggestAnnualContinuationTerm (calendar : Calendar) (l : License)
    : Option Date × Option Date :=
  if l.licenseType.continuesAnnually then
    match l.endDate with
    | none => (none, none)
    | some finish =>
        match calendar.sameDayNextYear finish with
        | none => (none, none)
        | some next => (some (finish + 1), some next)
  else (none, none)

/-- `value or None` of a text. -/
def textOrNone (text : String) : Option String := if text = "" then none else some text

/-- `value or "1"` of a text. -/
def textOrOne (text : String) : String := if text = "" then "1" else text

/-- `build_renewal_sourcing_item`, with the keys of its publisher and supplier. -/
def buildRenewalSourcingItem (u : Unicode) (calendar : Calendar) (id : Nat) (l : License)
    : Except Failure SourcingItem := do
  assertCoverageAllowedForType l.licenseType l.maintenanceCoverage
  let term := suggestAnnualContinuationTerm calendar l
  pure
    {
      publisherName := l.publisherName
      publisherId := l.publisherId
      softwareDescription := l.softwareDescription
      licenseType := some l.licenseType
      licenseMetric := some l.licenseMetric
      portalUrl := l.portalUrl
      isRenewable := l.isRenewable
      typeDescription := l.typeDescription
      maintenanceCoverage := some l.maintenanceCoverage
      quantity := textOrNone l.quantity
      quantityPerUnit := some (textOrOne l.quantityPerUnit)
      skuCode := textOrNone l.skuCode
      estimatedUnitPrice := textOrNone l.unitPrice
      estimatedTotalPrice := u.calcLineTotal l.quantity l.unitPrice
      currency := l.currency
      supplier := textOrNone l.supplier
      supplierId := l.supplierId
      contactEmail := textOrNone l.contactEmail
      costCentre := textOrNone l.costCentre
      budgetOwnerEmail := textOrNone l.budgetOwnerEmail
      secondaryContacts := l.secondaryContacts
      contractNumber := textOrNone l.contractNumber
      startDate := term.1
      endDate := term.2
      status := .sourcing
      renewalForLicenseId := some id
    }

/-- `initiate_renewal`, up to its commit. -/
def initiateLicenseRenewal (env : Env) (calendar : Calendar) (id : Nat) (s : Store)
    : Except Failure Store := do
  let l ← found (s.license? id) (.http 404 "License not found")
  assertCanInitiateRenewal env true id l
  let s ← reserveRenewalTransition id l s
  let item ← buildRenewalSourcingItem env.unicode calendar id l
  let s ← addLineWithRequest env.unicode item s
  flush s

/-- `_previous_cost`. -/
def previousCost (u : Unicode) (l : License) : Option String :=
  match u.parseMoney (l.maintenanceCost.getD "") with
  | .amount cost => if cost.negative || cost.coefficient = 0 then none else some cost.format
  | _ => none

/-- The line of a support renewal, whose notes name the licence. -/
def supportRenewalItem (u : Unicode) (calendar : Calendar) (id : Nat) (l : License)
    (supportEnd : Date)
    : SourcingItem :=
  let start := supportEnd + 1
  {
    publisherName := l.publisherName
    publisherId := l.publisherId
    softwareDescription := l.softwareDescription ++ " Maintenance"
    licenseType := some .maintenance
    licenseMetric := some l.licenseMetric
    maintenanceCoverage := some .notApplicable
    quantity := textOrNone l.quantity
    quantityPerUnit := some (textOrOne l.quantityPerUnit)
    estimatedTotalPrice := previousCost u l
    currency := l.currency
    supplier := textOrNone l.supplier
    supplierId := l.supplierId
    contactEmail := textOrNone l.contactEmail
    costCentre := textOrNone l.costCentre
    budgetOwnerEmail := textOrNone l.budgetOwnerEmail
    secondaryContacts := l.secondaryContacts
    startDate := some start
    endDate := some (calendar.dayBeforeNextAnniversary start)
    notes := some (s!"Maintenance renewal for "
      ++ s!"{((l.licenseRef.bind textOrNone).getD l.softwareDescription)}.")
    status := .sourcing
    maintenanceParentLicenseId := some id
  }

/-- `start_support_renewal`, up to its commit. -/
def startSupportRenewal (env : Env) (calendar : Calendar) (id : Nat) (s : Store)
    : Except Failure Store := do
  let parent ← found (s.license? id) (.http 404 "License not found")
  let _ : Unit ← require (parent.licenseType.isMaintenanceParent = true)
    (.http 400 "Maintenance renewal applies to perpetual, OEM and freeware licenses")
  let _ : Unit ← require (parent.maintenanceCoverage = .included)
    (.http 400 "This license has no included maintenance period with an end date")
  let supportEnd ← found parent.maintenanceEndDate
    (.http 400 "This license has no included maintenance period with an end date")
  let _ : Unit ← require (¬ (parent.isRetired = true ∨ parent.retirementScheduled = true
      ∨ parent.lifecycleStatus = some .legacy))
    (.http 409 "Retired, retirement-scheduled or legacy licenses cannot start a maintenance renewal")
  let _ : Unit ← require (hasOpenSupportRenewal s id = false)
    (.http 409 "A maintenance renewal is already in progress for this license")
  let s ← addLineWithRequest env.unicode
    (supportRenewalItem env.unicode calendar id parent supportEnd) s
  flush s

/-- A start of a renewal, or another request. -/
inductive RenewalTurn
  | initiate (calendar : Calendar) (id : Nat)
  | startSupport (calendar : Calendar) (id : Nat)
  | request (sent : Request)

/-- What a turn commits, in its surroundings, or how it fails. -/
def RenewalTurn.run : Env × RenewalTurn → Store → Except Failure Store
  | (env, .initiate calendar id), s => initiateLicenseRenewal env calendar id s
  | (env, .startSupport calendar id), s => startSupportRenewal env calendar id s
  | (env, .request sent), s => sent.run env s

end LicenseTrack
