import LicenseTrack.Services.OrderConversion

/-! Where the data of a converted licence come from: each field is the submitted one, else the first
value that the order, the line or the renewed licence has for it, else that of the form.
-/

namespace LicenseTrack

open Library

variable {u : Unicode} {data : ConversionData} {submitted : List ConversionField}
  {item : SourcingItem} {old : Option License} {order : PendingOrder}

/-- A field's value: the form's where the field is submitted, else the first candidate that is
present, else the form's.
-/
structure Takes {α : Type} (given : Prop) (form : α) (candidates : List (Option α)) (value : α)
    : Prop where
  submitted : given → value = form
  candidate
    : ¬given
      → ∀ before first after,
          candidates = before ++ some first :: after
          → (∀ missing ∈ before, missing = none)
          → value = first
  default : ¬given → (∀ missing ∈ candidates, missing = none) → value = form

/-- A field that may be empty takes its value so. -/
def TakesOption {α : Type} (given : Prop) (form : Option α) (candidates : List (Option α))
    (value : Option α)
    : Prop :=
  Takes given form (candidates.map (Option.map some)) value

/-- The renewed licence's text in a column, where it has one. -/
def textOf (old : Option License) (column : License → String) : Option String :=
  (old.map column).bind textCandidate

/-- Lines that renew several licences do not carry the allocation of the first over. -/
def allocationOf (item : SourcingItem) (old : Option License) (column : License → String)
    : Option String :=
  if (item.cotermPredecessorIds.getD []).length < 2 then textOf old column else none

/-- The parents that a line offers: its own, for maintenance, then that of the renewed record. -/
def parentCandidates (licenseType : LicenseType) (item : SourcingItem) (old : Option License)
    : List (Option Nat) :=
  [if licenseType = .maintenance then item.maintenanceParentLicenseId else none,
    old.bind (fun l => if l.licenseType = .maintenance then l.parentLicenseId else none)]

/-- Where each field of a licence's data comes from, notes and request date aside. -/
structure LinePrecedence (u : Unicode) (data : ConversionData) (submitted : List ConversionField)
    (item : SourcingItem) (old : Option License) (order : PendingOrder) (out : ConversionData)
    : Prop where
  publisherName : Takes (.publisherName ∈ submitted) data.publisherName
    [textCandidate item.publisherName, textOf old (·.publisherName)] out.publisherName
  softwareDescription : Takes (.softwareDescription ∈ submitted) data.softwareDescription
    [textCandidate item.softwareDescription, textOf old (·.softwareDescription)]
    out.softwareDescription
  licenseType : Takes (.licenseType ∈ submitted) data.licenseType
    [item.licenseType, old.map (·.licenseType)] out.licenseType
  licenseMetric : Takes (.licenseMetric ∈ submitted) data.licenseMetric
    [item.licenseMetric, old.map (·.licenseMetric)] out.licenseMetric
  portalUrl : TakesOption (.portalUrl ∈ submitted) data.portalUrl
    [truthy item.portalUrl, old.bind (fun l => truthy l.portalUrl)] out.portalUrl
  isRenewable : TakesOption (.isRenewable ∈ submitted) data.isRenewable
    [item.isRenewable, old.bind (·.isRenewable)] out.isRenewable
  typeDescription : TakesOption (.typeDescription ∈ submitted) data.typeDescription
    [truthy item.typeDescription, old.bind (fun l => truthy l.typeDescription)] out.typeDescription
  quantity : Takes (.quantity ∈ submitted) data.quantity
    [truthy item.quantity, textOf old (·.quantity)] out.quantity
  quantityPerUnit : Takes (.quantityPerUnit ∈ submitted) data.quantityPerUnit
    [truthy item.quantityPerUnit, textOf old (·.quantityPerUnit)] out.quantityPerUnit
  skuCode : Takes (.skuCode ∈ submitted) data.skuCode
    [truthy item.skuCode, textOf old (·.skuCode)] out.skuCode
  /-- Prices and the term come from the line only. -/
  unitPrice : Takes (.unitPrice ∈ submitted) data.unitPrice [truthy item.estimatedUnitPrice]
    out.unitPrice
  totalPoPrice : out.totalPoPrice = data.totalPoPrice
  currency : Takes (.currency ∈ submitted) data.currency
    [textCandidate item.currency, textOf old (·.currency)] out.currency
  startDate : TakesOption (.startDate ∈ submitted) data.startDate [item.startDate] out.startDate
  endDate : TakesOption (.endDate ∈ submitted) data.endDate [item.endDate] out.endDate
  supplier : Takes (.supplier ∈ submitted) data.supplier
    [truthy order.supplier, truthy item.supplier, textOf old (·.supplier)] out.supplier
  contactEmail : Takes (.contactEmail ∈ submitted) data.contactEmail [truthy item.contactEmail]
    out.contactEmail
  noticeDate : TakesOption (.noticeDate ∈ submitted) data.noticeDate [item.noticeDate]
    out.noticeDate
  purchaseDate : TakesOption (.purchaseDate ∈ submitted) data.purchaseDate [item.purchaseDate]
    out.purchaseDate
  contractNumber : Takes (.contractNumber ∈ submitted) data.contractNumber
    [truthy item.contractNumber, textOf old (·.contractNumber)] out.contractNumber
  poNumber : Takes (.poNumber ∈ submitted) data.poNumber [textCandidate (strip order.poNumber)]
    out.poNumber
  procurementReference : Takes (.procurementReference ∈ submitted) data.procurementReference
    [textCandidate order.procurementReference, textOf old (·.procurementReference)]
    out.procurementReference
  invoiceNumber : Takes (.invoiceNumber ∈ submitted) data.invoiceNumber [truthy item.invoiceNumber]
    out.invoiceNumber
  externalRef : TakesOption (.externalRef ∈ submitted) data.externalRef [truthy item.externalRef]
    out.externalRef
  costCentre : Takes (.costCentre ∈ submitted) data.costCentre
    [truthy item.costCentre, allocationOf item old (·.costCentre)] out.costCentre
  budgetOwnerEmail : Takes (.budgetOwnerEmail ∈ submitted) data.budgetOwnerEmail
    [truthy item.budgetOwnerEmail, allocationOf item old (·.budgetOwnerEmail)]
    out.budgetOwnerEmail
  /-- The contacts of a line count as present, even where it has none. -/
  secondaryContacts : Takes (.secondaryContacts ∈ submitted) data.secondaryContacts
    [some item.secondaryContacts] out.secondaryContacts
  parentLicenseId : TakesOption (.parentLicenseId ∈ submitted) data.parentLicenseId
    (parentCandidates out.licenseType item old) out.parentLicenseId
  parentSourcingItemId : TakesOption (.parentSourcingItemId ∈ submitted) data.parentSourcingItemId
    [item.parentSourcingItemId] out.parentSourcingItemId
  maintenanceCoverage : TakesOption (.maintenanceCoverage ∈ submitted) data.maintenanceCoverage
    [item.maintenanceCoverage, old.map (·.maintenanceCoverage)] out.maintenanceCoverage
  maintenancePricingBasis : TakesOption (.maintenancePricingBasis ∈ submitted)
    data.maintenancePricingBasis
    [item.maintenancePricingBasis, old.bind (·.maintenancePricingBasis)]
    out.maintenancePricingBasis
  maintenanceQuantity : TakesOption (.maintenanceQuantity ∈ submitted) data.maintenanceQuantity
    [truthy item.maintenanceQuantity, old.bind (fun l => truthy l.maintenanceQuantity)]
    out.maintenanceQuantity
  maintenanceUnitPrice : TakesOption (.maintenanceUnitPrice ∈ submitted) data.maintenanceUnitPrice
    [truthy item.maintenanceUnitPrice] out.maintenanceUnitPrice
  /-- Included support that is not submitted itself follows a submitted start. -/
  supportStart
    : if out.maintenanceCoverage = some .included ∧ .maintenanceStartDate ∉ submitted
          ∧ .startDate ∈ submitted then
        out.maintenanceStartDate = out.startDate
      else
        TakesOption (.maintenanceStartDate ∈ submitted) data.maintenanceStartDate
          [item.maintenanceStartDate, old.bind (·.maintenanceStartDate)] out.maintenanceStartDate
  supportEnd
    : if out.maintenanceCoverage = some .included ∧ .maintenanceEndDate ∉ submitted
          ∧ .endDate ∈ submitted then
        out.maintenanceEndDate = out.endDate
      else
        TakesOption (.maintenanceEndDate ∈ submitted) data.maintenanceEndDate
          [item.maintenanceEndDate, old.bind (·.maintenanceEndDate)] out.maintenanceEndDate
  /-- Its cost follows a submitted quantity or price, where these have a total. -/
  supportCost
    : if out.maintenanceCoverage = some .included ∧ .maintenanceCost ∉ submitted
          ∧ (.quantity ∈ submitted ∨ .unitPrice ∈ submitted)
          ∧ (u.calcLineTotal out.quantity out.unitPrice).isSome = true then
        out.maintenanceCost = u.calcLineTotal out.quantity out.unitPrice
      else
        TakesOption (.maintenanceCost ∈ submitted) data.maintenanceCost
          [truthy item.maintenanceCost] out.maintenanceCost
  /-- What the purchase as a whole decides stays. -/
  purchase
    : out.pendingOrderId = data.pendingOrderId ∧ out.poTotalOverride = data.poTotalOverride
      ∧ out.sourceSourcingItemId = data.sourceSourcingItemId
      ∧ out.isLegacyUnlinkedMaintenance = data.isLegacyUnlinkedMaintenance

theorem findSome?_id_append {α : Type} {first : α} {before after : List (Option α)}
    (h : ∀ missing ∈ before, missing = none)
    : (before ++ some first :: after).findSome? id = some first := by
  induction before with
  | nil => rfl
  | cons head rest ih =>
    rw [h head List.mem_cons_self]
    exact ih fun missing hmem => h missing (List.mem_cons_of_mem _ hmem)

theorem takes_fallback {α : Type} (field : ConversionField) (form : α)
    (candidates : List (Option α))
    : Takes (field ∈ submitted) form candidates
        (fallback (submitted.contains field) form candidates) where
  submitted := fun h => by simp [fallback, h]
  candidate := fun hgiven before first after heq hmissing => by
    rw [fallback, if_neg (by simpa using hgiven), heq, findSome?_id_append hmissing]
    rfl
  default := fun hgiven hmissing => by
    have hnone : candidates.findSome? id = none := List.findSome?_eq_none_iff.2 hmissing
    rw [fallback, if_neg (by simpa using hgiven), hnone]
    rfl

theorem findSome?_map_some {α : Type} (candidates : List (Option α))
    : (candidates.map (Option.map some)).findSome? id = (candidates.findSome? id).map some := by
  induction candidates with
  | nil => rfl
  | cons head rest ih => rcases head with _ | a <;> simp_all

theorem fallbackOption_eq {α : Type} (given : Bool) (form : Option α)
    (candidates : List (Option α))
    : fallbackOption given form candidates
      = fallback given form (candidates.map (Option.map some)) := by
  rw [fallbackOption, fallback, findSome?_map_some]
  rcases candidates.findSome? id with _ | a <;> rfl

theorem takes_fallbackOption {α : Type} (field : ConversionField) (form : Option α)
    (candidates : List (Option α))
    : TakesOption (field ∈ submitted) form candidates
        (fallbackOption (submitted.contains field) form candidates) := by
  rw [TakesOption, fallbackOption_eq]
  exact takes_fallback field form _

theorem takes_parent (form : Option Nat) (licenseType : LicenseType) (item : SourcingItem)
    (old : Option License)
    : TakesOption (.parentLicenseId ∈ submitted) form (parentCandidates licenseType item old)
        (if licenseType = .maintenance then
          fallbackOption (submitted.contains .parentLicenseId)
            (fallbackOption (submitted.contains .parentLicenseId) form
              [old.bind (fun l => if l.licenseType = .maintenance then l.parentLicenseId else none)])
            [item.maintenanceParentLicenseId]
        else
          fallbackOption (submitted.contains .parentLicenseId) form
            [old.bind (fun l => if l.licenseType = .maintenance then l.parentLicenseId else none)]) := by
  have hsearch := @takes_fallbackOption submitted _ .parentLicenseId form
    (parentCandidates licenseType item old)
  generalize hown : old.bind (fun l =>
    if l.licenseType = .maintenance then l.parentLicenseId else none) = own at *
  rw [parentCandidates, hown] at hsearch ⊢
  generalize item.maintenanceParentLicenseId = line at *
  by_cases hgiven : ConversionField.parentLicenseId ∈ submitted
    <;> by_cases htype : licenseType = .maintenance
    <;> rcases line with _ | parent <;> rcases own with _ | parent'
    <;> simpa [fallbackOption, hgiven, htype] using hsearch

theorem followSubmittedTerm_eq (u : Unicode) (submitted : List ConversionField)
    (form : ConversionForm)
    : ∃ start finish cost,
        followSubmittedTerm u submitted form
          = { form with
              maintenanceStartDate := start
              maintenanceEndDate := finish
              maintenanceCost := cost }
        ∧ (start = if form.maintenanceCoverage = some .included
              ∧ .maintenanceStartDate ∉ submitted ∧ .startDate ∈ submitted then form.startDate
            else form.maintenanceStartDate)
        ∧ (finish = if form.maintenanceCoverage = some .included
              ∧ .maintenanceEndDate ∉ submitted ∧ .endDate ∈ submitted then form.endDate
            else form.maintenanceEndDate)
        ∧ (cost = if form.maintenanceCoverage = some .included ∧ .maintenanceCost ∉ submitted
              ∧ (.quantity ∈ submitted ∨ .unitPrice ∈ submitted)
              ∧ (u.calcLineTotal form.quantity form.unitPrice).isSome = true then
              u.calcLineTotal form.quantity form.unitPrice
            else form.maintenanceCost) := by
  rw [followSubmittedTerm]
  split
  case isTrue hother => exact ⟨_, _, _, rfl, by simp [hother], by simp [hother], by simp [hother]⟩
  case isFalse hincluded =>
    rw [not_not] at hincluded
    refine ⟨_, _, _, rfl, by simp [hincluded], by simp [hincluded], ?_⟩
    rcases u.calcLineTotal form.quantity form.unitPrice with _ | total
    · simp
    · simp [hincluded]

-- Lines

/-- Conversions of one order that differ in their other lines only, and in their number at most
beyond one.
-/
structure SameButLines (p p' : PreparedConversion) : Prop where
  id : p'.loaded.id = p.loaded.id
  order : p'.loaded.order = p.loaded.order
  form : p'.form = p.form
  submitted : p'.submitted = p.submitted
  override : p'.inheritedOverride = p.inheritedOverride
  several : 1 < p'.loaded.items.length ↔ 1 < p.loaded.items.length

/-- How the lines of an order become the data of licences. -/
structure LineData (u : Unicode) : Prop where
  precedence
    : ∀ data submitted item old order,
        LinePrecedence u data submitted item old order
          (buildPendingOrderItemLicenseData u data submitted item old order)
  /-- The other lines have no part in what a form gives to a line. -/
  apart
    : ∀ p p',
        SameButLines p p'
        → p'.sharedData u = p.sharedData u ∧ p'.lineFields = p.lineFields
  apartInBatch
    : ∀ (p p' : PreparedBatch) line item s,
        p'.loaded.id = p.loaded.id
        → p'.loaded.order = p.loaded.order
        → prepareBatchLine u p' line item s = prepareBatchLine u p line item s

/-- The data of a line follow the precedence, whatever the other lines of its order are. -/
theorem lineData (u : Unicode) : LineData u where
  precedence := fun data submitted item old order => by
    obtain ⟨start, finish, cost, heq, hstart, hfinish, hcost⟩ := followSubmittedTerm_eq u submitted
      (completeFromLine data.toConversionForm submitted item old order)
    rw [buildPendingOrderItemLicenseData, heq]
    exact
      {
        publisherName := takes_fallback _ _ _
        softwareDescription := takes_fallback _ _ _
        licenseType := takes_fallback _ _ _
        licenseMetric := takes_fallback _ _ _
        portalUrl := takes_fallbackOption _ _ _
        isRenewable := takes_fallbackOption _ _ _
        typeDescription := takes_fallbackOption _ _ _
        quantity := takes_fallback _ _ _
        quantityPerUnit := takes_fallback _ _ _
        skuCode := takes_fallback _ _ _
        unitPrice := takes_fallback _ _ _
        totalPoPrice := rfl
        currency := takes_fallback _ _ _
        startDate := takes_fallbackOption _ _ _
        endDate := takes_fallbackOption _ _ _
        supplier := takes_fallback _ _ _
        contactEmail := takes_fallback _ _ _
        noticeDate := takes_fallbackOption _ _ _
        purchaseDate := takes_fallbackOption _ _ _
        contractNumber := takes_fallback _ _ _
        poNumber := takes_fallback _ _ _
        procurementReference := takes_fallback _ _ _
        invoiceNumber := takes_fallback _ _ _
        externalRef := takes_fallbackOption _ _ _
        costCentre := takes_fallback _ _ _
        budgetOwnerEmail := takes_fallback _ _ _
        secondaryContacts := takes_fallback _ _ _
        parentLicenseId := takes_parent _ _ _ _
        parentSourcingItemId := takes_fallbackOption _ _ _
        maintenanceCoverage := takes_fallbackOption _ _ _
        maintenancePricingBasis := takes_fallbackOption _ _ _
        maintenanceQuantity := takes_fallbackOption _ _ _
        maintenanceUnitPrice := takes_fallbackOption _ _ _
        supportStart := by
          rw [hstart]
          split
          · rfl
          · exact takes_fallbackOption _ _ _
        supportEnd := by
          rw [hfinish]
          split
          · rfl
          · exact takes_fallbackOption _ _ _
        supportCost := by
          rw [hcost]
          split
          · rfl
          · exact takes_fallbackOption _ _ _
        purchase := ⟨rfl, rfl, rfl, rfl⟩
      }
  apart := fun p p' h => by
    constructor
    · rw [PreparedConversion.sharedData, PreparedConversion.sharedData, h.id, h.order, h.form,
        h.submitted, h.override]
    · rw [PreparedConversion.lineFields, PreparedConversion.lineFields, h.submitted]
      exact if_congr h.several rfl rfl
  apartInBatch := fun p p' line item s hid horder => by
    rw [prepareBatchLine, prepareBatchLine, hid, horder]

/-- A perpetual licence whose support from day 100 on is included, and a form with a start. -/
theorem support_followsTerm_perpetual
    : let item : SourcingItem :=
        { publisherName := "Acme"
          softwareDescription := "Editor"
          licenseType := some .perpetual
          maintenanceCoverage := some .included
          maintenanceStartDate := some 100
          maintenanceEndDate := some 464 }
      let data : ConversionData :=
        { publisherName := "", softwareDescription := "", startDate := some 500 }
      let order : PendingOrder := { poNumber := "PO-1" }
      let out := buildPendingOrderItemLicenseData .ascii data [.startDate] item none order
      out.licenseType.isBundledSupport = false
        ∧ ¬TakesOption (.maintenanceStartDate ∈ [ConversionField.startDate])
            data.maintenanceStartDate [item.maintenanceStartDate] out.maintenanceStartDate := by
  intro item data order out
  refine ⟨by decide +kernel, fun h => ?_⟩
  have hline := h.candidate (by decide) [] (some 100) [] rfl (by simp)
  have hterm : out.maintenanceStartDate = some 500 := by decide +kernel
  rw [hterm] at hline
  cases hline

end LicenseTrack
