import LicenseTrack.Support.Requests

/-! What an imported row changes of the licence that it updates: the columns of its filled cells, and
what is derived from them, as long as the stored licence is in the form that the update computes.
-/

namespace LicenseTrack

open Library

variable {u : Unicode} {id : Nat} {row : ParsedRow} {l : License} {s t : Store}

/-- The row has no cell that support is derived from. -/
structure ParsedRow.LeavesSupport (row : ParsedRow) : Prop where
  support : hasMaintenanceUpdateValues row = false
  quantity : row.quantity = ""
  unitPrice : row.unitPrice = ""
  startDate : row.startDate = none
  endDate : row.endDate = none

/-- A cell that may be missing has no text. -/
def EmptyCell (cell : Option String) : Prop := cell.filter (· ≠ "") = none

/-- The columns whose cells are empty stay, and so do those that no cell stands for. -/
structure RowFrame (row : ParsedRow) (l l' : License) : Prop where
  publisher : row.publisherName = ""
    → l'.publisherName = l.publisherName ∧ l'.publisherId = l.publisherId
  software : row.softwareDescription = "" → l'.softwareDescription = l.softwareDescription
  metric : row.licenseMetric = none → l'.licenseMetric = l.licenseMetric
  portalUrl : EmptyCell row.portalUrl → l'.portalUrl = l.portalUrl
  skuCode : row.skuCode = "" → l'.skuCode = l.skuCode
  notice : row.noticeDate = none
    → l'.noticeDate = l.noticeDate ∧ l'.noticeHandledAt = l.noticeHandledAt
      ∧ l'.noticeHandledByUserId = l.noticeHandledByUserId
  contract : row.contractNumber = ""
    → l'.contractNumber = l.contractNumber ∧ l'.contractId = l.contractId
  procurement : row.procurementReference = "" → l'.procurementReference = l.procurementReference
  invoice : row.invoiceNumber = ""
    → l'.invoiceNumber = l.invoiceNumber ∧ l'.invoiceNumbers = l.invoiceNumbers
  requestDate : row.requestDate = none → l'.requestDate = l.requestDate
  purchaseDate : row.purchaseDate = none → l'.purchaseDate = l.purchaseDate
  contactEmail : row.contactEmail = "" → l'.contactEmail = l.contactEmail
  supplier : row.supplier = "" → l'.supplier = l.supplier ∧ l'.supplierId = l.supplierId
  costCentre : row.costCentre = ""
    → l'.costCentre = l.costCentre ∧ l'.costCentreId = l.costCentreId
  budgetOwner : row.budgetOwnerEmail = "" → l'.budgetOwnerEmail = l.budgetOwnerEmail
  contacts : row.secondaryContacts = [] → l'.secondaryContacts = l.secondaryContacts
  notes : EmptyCell row.notes → l'.notes = l.notes
  externalRef : EmptyCell row.externalRef → l'.externalRef = l.externalRef
  quantity : row.quantity = "" → l'.quantity = l.quantity
  quantityPerUnit : row.quantityPerUnit = "" → l'.quantityPerUnit = l.quantityPerUnit
  unitPrice : row.unitPrice = "" → l'.unitPrice = l.unitPrice
  startDate : row.startDate = none → l'.startDate = l.startDate
  endDate : row.endDate = none → l'.endDate = l.endDate
  poNumber : row.poNumber = "" → l'.poNumber = l.poNumber
  currency : row.currencyDefaulted = true ∨ row.currency = "" → l'.currency = l.currency
  override : row.poNumber = "" ∧ (row.currencyDefaulted = true ∨ row.currency = "")
    → l'.poTotalOverride = l.poTotalOverride
  /-- Type, references, lifecycle and chain are never touched. -/
  licenseType : l'.licenseType = l.licenseType
  chain : l'.toLicenseChain = l.toLicenseChain
  standing : l'.toLicenseStanding = l.toLicenseStanding
  others
    : l'.totalPoPrice = l.totalPoPrice ∧ l'.poLineId = l.poLineId
      ∧ l'.pendingOrderId = l.pendingOrderId ∧ l'.procurementBundleId = l.procurementBundleId
      ∧ l'.sourceSourcingItemId = l.sourceSourcingItemId ∧ l'.lastSyncedAt = l.lastSyncedAt
      ∧ l'.syncStatus = l.syncStatus ∧ l'.isCompletenessExempt = l.isCompletenessExempt
      ∧ l'.renewalNotificationsEnabled = l.renewalNotificationsEnabled

/-- All cells of the row are blank, apart from the reference. -/
def ParsedRow.IsBlank (row : ParsedRow) : Prop :=
  ∃ ref, row = { licenseRef := ref, currencyDefaulted := true }

/-- What an import update promises to leave. -/
structure ImportFrame (id : Nat) (row : ParsedRow) (l : License) (s t : Store) (l' : License)
    : Prop where
  stored : t.license? id = some l'
  columns : RowFrame row l l'
  renewable : row.isRenewable = none → l'.isRenewable = l.isRenewable
  description : EmptyCell row.typeDescription → l'.typeDescription = l.typeDescription
  support : row.LeavesSupport → l'.toMaintenanceMirror = l.toMaintenanceMirror
  /-- Of the other licences, only the mirrors of support may follow. -/
  mirrors
    : ∀ other ≠ id,
        (t.license? other).map (fun p => p.withMirror l.toMaintenanceMirror)
            = (s.license? other).map (fun p => p.withMirror l.toMaintenanceMirror)
          ∧ (row.LeavesSupport → t.license? other = s.license? other)
  tables : { t with licenses := s.licenses, history := s.history } = s
  history : row.LeavesSupport → t.history = s.history
  /-- A blank row changes nothing. -/
  blank : row.IsBlank → l' = l

/-- A mirror that points to its own record follows it. -/
def selfSynced (u : Unicode) (s : Store) (id : Nat) (licenseType : LicenseType)
    (m : MaintenanceMirror)
    : MaintenanceMirror :=
  if licenseType = .maintenance ∧ m.activeMaintenanceId = some id then s.syncedMirror u m else m

/-- The support columns that an update leaves of stored ones, where no cell changes them. -/
def recomputedMirror (u : Unicode) (s : Store) (id : Nat) (l : License) : MaintenanceMirror :=
  selfSynced u s id l.licenseType
    (applyIncludedSupportDefaults u l.toLicenseTerms l.toMaintenanceMirror)

/-- What an update computes of empty cells is what the licence and its parents hold already. -/
structure Settled (u : Unicode) (s : Store) (id : Nat) (row : ParsedRow) (l : License) : Prop where
  renewable : row.isRenewable = none
    → (normaliseTypeOptInFields l.toLicenseTerms).isRenewable = l.isRenewable
  description : EmptyCell row.typeDescription
    → (normaliseTypeOptInFields l.toLicenseTerms).typeDescription = l.typeDescription
  support : row.LeavesSupport → recomputedMirror u s id l = l.toMaintenanceMirror
  parents
    : row.LeavesSupport
      → l.licenseType = .maintenance
      → ∀ other parent,
          other ≠ id
          → s.license? other = some parent
          → parent.hasActive id = true
          → s.syncedMirror u parent.toMaintenanceMirror = parent.toMaintenanceMirror

-- The columns beside support

/-- The licence with the columns beside support written. -/
def ParsedRow.written (row : ParsedRow) (invoices : String × List String)
    (contractId : Option Nat) (override : Option String) (l : License)
    : License :=
  { l with
    toLicenseDetails := { row.writeDetails invoices l with contractId := contractId }
    toLicenseTerms := row.writeTerms l
    poNumber := orStored row.poNumber l.poNumber
    currency := if row.currencyDefaulted then l.currency else orStored row.currency l.currency
    poTotalOverride := override }

/-- What the written columns take from elsewhere than the row and the licence. -/
structure WrittenFrom (row : ParsedRow) (l : License) (invoices : String × List String)
    (contractId : Option Nat) (override : Option String)
    : Prop where
  invoices : row.invoiceNumber = "" → invoices = (l.invoiceNumber, l.invoiceNumbers)
  contract : row.contractNumber = "" → contractId = l.contractId
  override : row.poNumber = "" ∧ (row.currencyDefaulted = true ∨ row.currency = "")
    → override = l.poTotalOverride

/-- The steps of an import update, with the columns that it writes. -/
theorem applyImportUpdate_written (h : applyImportUpdate u id row l s = .ok t)
    : ∃ invoices contractId override imported,
        WrittenFrom row l invoices contractId override
        ∧ importSupport u id row l (s.modifyLicense id (fun l₀ =>
            { row.written invoices contractId override l with
              toMaintenanceMirror := l₀.toMaintenanceMirror
              toLicenseStanding := l₀.toLicenseStanding
              toLicenseChain := l₀.toLicenseChain
              poLineId := l₀.poLineId
              pendingOrderId := l₀.pendingOrderId
              procurementBundleId := l₀.procurementBundleId
              sourceSourcingItemId := l₀.sourceSourcingItemId })) = .ok imported
        ∧ t = if l.licenseType = .maintenance then
            (mirroringParents id (imported.modifyLicense id (syncSupportDefaults u))).foldl
              (fun s parentId => syncParentMirrorFields u parentId s)
              (imported.modifyLicense id (syncSupportDefaults u))
          else imported.modifyLicense id (syncSupportDefaults u) := by
  simp only [applyImportUpdate, bind_eq_ok, require_eq_ok] at h
  obtain ⟨_, -, invoices, hinvoices, h⟩ := h
  have hkept : row.invoiceNumber = "" → invoices = (l.invoiceNumber, l.invoiceNumbers) := by
    intro hempty
    rw [importedInvoices, if_pos hempty] at hinvoices
    exact (Except.ok.inj hinvoices).symm
  have hoverride : row.poNumber = "" ∧ (row.currencyDefaulted = true ∨ row.currency = "") →
      (if orStored row.poNumber l.poNumber ≠ l.poNumber
          ∨ (if row.currencyDefaulted = true then l.currency
            else orStored row.currency l.currency) ≠ l.currency then
        resolveReassignedPoTotalOverride u s id l (orStored row.poNumber l.poNumber)
          (if row.currencyDefaulted = true then l.currency else orStored row.currency l.currency)
      else l.poTotalOverride) = l.poTotalOverride := by
    rintro ⟨hpo, hcurrency⟩
    refine if_neg ?_
    rcases hcurrency with hcurrency | hcurrency <;> simp [orStored, hpo, hcurrency]
  -- The contract is resolved only where the row names one.
  split at h
  case' isFalse =>
    simp only [bind_eq_ok] at h
    obtain ⟨contractId, -, h⟩ := h
  all_goals
    replace h := of_optional_check h
    simp only [bind_eq_ok, found_eq_ok] at h
    obtain ⟨imported, himported, written, -, h⟩ := h
    replace h := of_optional_check h
    refine ⟨invoices, _, _, imported, ⟨hkept, ?_, hoverride⟩, himported, ?_⟩
  case isTrue.refine_1 => exact fun _ => rfl
  case isFalse.refine_1 => exact fun hempty => absurd hempty ‹_›
  all_goals
    by_cases hmaintenance : l.licenseType = .maintenance
    · rw [if_pos hmaintenance] at h ⊢
      exact (pure_eq_ok.mp h).symm
    · rw [if_neg hmaintenance] at h ⊢
      exact (pure_eq_ok.mp h).symm

theorem written_frame {invoices : String × List String} {contractId : Option Nat}
    {override : Option String} (m : MaintenanceMirror)
    (hfrom : WrittenFrom row l invoices contractId override)
    : RowFrame row l ((row.written invoices contractId override l).withMirror m) where
  publisher := fun h => ⟨if_pos h, if_pos h⟩
  software := fun h => if_pos h
  metric := fun h => congrArg (fun cell => Option.getD cell l.licenseMetric) h
  portalUrl := fun h => congrArg (fun cell => Option.or cell l.portalUrl) h
  skuCode := fun h => if_pos h
  notice := fun h => by
    have hsame : row.noticeDate.or l.noticeDate = l.noticeDate := by rw [h, Option.none_or]
    exact ⟨hsame, if_pos hsame, if_pos hsame⟩
  contract := fun h => ⟨if_pos h, hfrom.contract h⟩
  procurement := fun h => if_pos h
  invoice := fun h => ⟨congrArg Prod.fst (hfrom.invoices h), congrArg Prod.snd (hfrom.invoices h)⟩
  requestDate := fun h => congrArg (fun cell => Option.or cell l.requestDate) h
  purchaseDate := fun h => congrArg (fun cell => Option.or cell l.purchaseDate) h
  contactEmail := fun h => if_pos h
  supplier := fun h => ⟨if_pos h, if_pos h⟩
  costCentre := fun h => ⟨if_pos h, if_pos h⟩
  budgetOwner := fun h => if_pos h
  contacts := fun h => if_pos h
  notes := fun h => congrArg (fun cell => Option.or cell l.notes) h
  externalRef := fun h => congrArg (fun cell => Option.or cell l.externalRef) h
  quantity := fun h => if_pos h
  quantityPerUnit := fun h => if_pos h
  unitPrice := fun h => if_pos h
  startDate := fun h => congrArg (fun cell => Option.or cell l.startDate) h
  endDate := fun h => by
    change (if l.licenseType.isNonExpiring then l.endDate else row.endDate.or l.endDate) = l.endDate
    rw [h, Option.none_or, ite_self]
  poNumber := fun h => if_pos h
  currency := fun h => by
    change (if row.currencyDefaulted then l.currency else orStored row.currency l.currency)
      = l.currency
    rcases h with h | h
    · rw [if_pos h]
    · rw [orStored, if_pos h, ite_self]
  override := fun h => hfrom.override h
  licenseType := rfl
  chain := rfl
  standing := rfl
  others := ⟨rfl, rfl, rfl, rfl, rfl, rfl, rfl, rfl, rfl⟩

/-- What the mirror of a parent takes from its record. -/
def License.mirrored (l : License)
    : LicenseType × Bool × Option Date × Option Date × String × String :=
  (l.licenseType, l.isRetired, l.startDate, l.endDate, l.quantity, l.unitPrice)

theorem mirrored_congr {a b : License} (h : b.mirrored = a.mirrored)
    : mirrorOf u id b = mirrorOf u id a ∧ b.isLiveMaintenance = a.isLiveMaintenance := by
  simp only [License.mirrored, Prod.mk.injEq] at h
  obtain ⟨htype, hretired, hstart, hend, hquantity, hprice⟩ := h
  constructor
  · rw [mirrorOf, mirrorOf, hstart, hend, hquantity, hprice]
  · rw [License.isLiveMaintenance, License.isLiveMaintenance, htype, hretired]

theorem syncedMirror_congr {m : MaintenanceMirror}
    (h : ∀ childId, m.activeMaintenanceId = some childId
      → (t.license? childId).map License.mirrored = (s.license? childId).map License.mirrored)
    : t.syncedMirror u m = s.syncedMirror u m := by
  rw [Store.syncedMirror, Store.syncedMirror]
  rcases hactive : m.activeMaintenanceId with _ | childId
  · rfl
  · have hchild := h childId hactive
    rcases ht : t.license? childId with _ | child <;> rcases hs : s.license? childId with _ | child'
    · simp only [ht, hs]
    · rw [ht, hs] at hchild
      cases hchild
    · rw [ht, hs] at hchild
      cases hchild
    · rw [ht, hs, Option.map_some, Option.map_some, Option.some.injEq] at hchild
      obtain ⟨hmirror, hlive⟩ := @mirrored_congr u childId child' child hchild
      simp only [ht, hs, hmirror, hlive]

theorem license?_syncMirrors {parents : List Nat} (hnodup : parents.Nodup) (s : Store) (key : Nat)
    : (parents.foldl (fun s parentId => syncParentMirrorFields u parentId s) s).license? key
      = (s.license? key).map (fun parent =>
          if key ∈ parents then parent.withMirror (s.syncedMirror u parent.toMaintenanceMirror)
          else parent) := by
  induction parents generalizing s with
  | nil => simp
  | cons head rest ih =>
    obtain ⟨hhead, hrest⟩ := List.nodup_cons.1 hnodup
    have hsame : ∀ m, (syncParentMirrorFields u head s).syncedMirror u m = s.syncedMirror u m := by
      intro m
      refine syncedMirror_congr fun childId _ => ?_
      rw [syncParentMirrorFields, Store.license?_modifyLicense, Option.map_map]
      congr 1
      funext child
      dsimp only [Function.comp_apply]
      split <;> rfl
    rw [List.foldl_cons, ih hrest]
    simp only [hsame]
    rw [syncParentMirrorFields, Store.license?_modifyLicense, Option.map_map]
    congr 1
    funext parent
    by_cases hkey : key = head
    · simp [hkey, hhead]
    · simp [hkey]

theorem syncMirrors_tables (u : Unicode) (parents : List Nat) (s : Store)
    : ∃ licenses,
        parents.foldl (fun s parentId => syncParentMirrorFields u parentId s) s
          = { s with licenses := licenses } := by
  induction parents generalizing s with
  | nil => exact ⟨s.licenses, rfl⟩
  | cons head rest ih =>
    obtain ⟨licenses, heq⟩ := ih (syncParentMirrorFields u head s)
    exact ⟨licenses, heq⟩

theorem applyIncludedSupportDefaults_congr {terms terms' : LicenseTerms} (m : MaintenanceMirror)
    (htype : terms'.licenseType = terms.licenseType) (hquantity : terms'.quantity = terms.quantity)
    (hprice : terms'.unitPrice = terms.unitPrice) (hstart : terms'.startDate = terms.startDate)
    (hend : terms'.endDate = terms.endDate)
    : applyIncludedSupportDefaults u terms' m = applyIncludedSupportDefaults u terms m := by
  simp only [applyIncludedSupportDefaults, applyBundledIncludedSupportDefaults, htype, hquantity,
    hprice, hstart, hend]

-- The result

theorem importSupport_row {v w : Store} {written : License}
    (hwritten : v.license? id = some written)
    (hmirror : written.toMaintenanceMirror = l.toMaintenanceMirror)
    (h : importSupport u id row l v = .ok w)
    : (∃ m, w.license? id = some (written.withMirror m)
          ∧ (row.LeavesSupport → m = l.toMaintenanceMirror))
        ∧ (∀ other ≠ id, w.license? other = v.license? other)
        ∧ { w with licenses := v.licenses, history := v.history } = v
        ∧ (row.LeavesSupport → w = v) := by
  rcases importSupport_cases h with ⟨-, hcells, rfl⟩ | rfl
  · have hnot : ¬row.LeavesSupport := fun hleaves => by
      rw [hleaves.support] at hcells
      cases hcells
    have hrow : (v.modifyLicense id (fun l => l.withMirror
        (row.writeSupport l.toMaintenanceMirror))).license? id
          = some (written.withMirror (row.writeSupport written.toMaintenanceMirror)) := by
      rw [Store.license?_modifyLicense_self, hwritten, Option.map_some]
    rcases recordIncludedSupportExit_cases u l.maintenanceCoverage hrow with
      ⟨-, he⟩ | ⟨-, -, -, he⟩
    · rw [he]
      exact ⟨⟨_, hrow, fun hleaves => absurd hleaves hnot⟩,
        fun other hne => Store.license?_modifyLicense_ne _ _ hne, rfl,
        fun hleaves => absurd hleaves hnot⟩
    · obtain ⟨history, hsnapshot, -⟩ := snapshotIncludedSupport_eq id
        (v.modifyLicense id (fun l => l.withMirror (row.writeSupport l.toMaintenanceMirror)))
      have hexit : ∀ (x : Store) (f : MaintenanceMirror → MaintenanceMirror),
          x.license? id = some (written.withMirror (row.writeSupport written.toMaintenanceMirror))
          → (x.modifyLicense id (fun p => p.withMirror (f p.toMaintenanceMirror))).license? id
            = some (written.withMirror (f (row.writeSupport written.toMaintenanceMirror))) := by
        intro x f hx
        rw [Store.license?_modifyLicense_self, hx]
        rfl
      rw [he, hsnapshot]
      refine ⟨⟨_, hexit _ _ hrow, fun hleaves => absurd hleaves hnot⟩, fun other hne => ?_, rfl,
        fun hleaves => absurd hleaves hnot⟩
      rw [Store.license?_modifyLicense_ne _ _ hne]
      exact Store.license?_modifyLicense_ne _ _ hne
  · exact ⟨⟨_, by rw [hwritten, ← hmirror]; rfl, fun _ => rfl⟩, fun _ _ => rfl, rfl, fun _ => rfl⟩

/-- A parent's row after the mirrors of a maintenance record are synchronised. -/
def syncedRow (u : Unicode) (s : Store) (id : Nat) (isMaintenance : Bool) (parent : License)
    : License :=
  if isMaintenance = true ∧ parent.hasActive id = true then
    parent.withMirror (s.syncedMirror u parent.toMaintenanceMirror)
  else parent

theorem license?_syncedParents (u : Unicode) (l : License) (s : Store) (key : Nat)
    : (if l.licenseType = .maintenance then
          (mirroringParents id s).foldl (fun s parentId => syncParentMirrorFields u parentId s) s
        else s).license? key
      = (s.license? key).map (syncedRow u s id (l.licenseType == .maintenance)) := by
  by_cases hmaintenance : l.licenseType = .maintenance
  · have hnodup : (mirroringParents id s).Nodup := (Table.keys_increase _).imp Nat.ne_of_lt
    rw [if_pos hmaintenance, license?_syncMirrors hnodup]
    rcases hkey : s.license? key with _ | parent
    · rfl
    · have hmem : key ∈ mirroringParents id s ↔ parent.hasActive id = true := by
        rw [mirroringParents, Table.mem_select]
        constructor
        · rintro ⟨parent', hparent', hactive⟩
          obtain rfl := Option.some.inj (hkey.symm.trans hparent')
          exact hactive
        · exact fun hactive => ⟨parent, hkey, hactive⟩
      simp [syncedRow, hmem, hmaintenance]
  · rw [if_neg hmaintenance]
    rcases s.license? key with _ | parent
    · rfl
    · simp [syncedRow, hmaintenance]

theorem syncedRow_withMirror (u : Unicode) (s : Store) (id : Nat) (l written : License)
    (m : MaintenanceMirror)
    : syncedRow u s id (l.licenseType == .maintenance) (written.withMirror m)
      = written.withMirror (selfSynced u s id l.licenseType m) := by
  have hactive : (written.withMirror m).hasActive id = (m.activeMaintenanceId == some id) := rfl
  rw [syncedRow, selfSynced, hactive]
  by_cases h : l.licenseType = .maintenance ∧ m.activeMaintenanceId = some id
  · rw [if_pos h, if_pos (by simpa using h)]
    rfl
  · rw [if_neg h, if_neg (by simpa using h)]

theorem syncedParents_tables (u : Unicode) (id : Nat) (l : License) (s : Store)
    : ∃ licenses,
        (if l.licenseType = .maintenance then
            (mirroringParents id s).foldl (fun s parentId => syncParentMirrorFields u parentId s) s
          else s)
          = { s with licenses := licenses } := by
  split
  · exact syncMirrors_tables u _ s
  · exact ⟨s.licenses, rfl⟩

/-- What an import update leaves of every licence. -/
theorem applyImportUpdate_result (hl : s.license? id = some l)
    (h : applyImportUpdate u id row l s = .ok t)
    : ∃ invoices contractId override m,
        WrittenFrom row l invoices contractId override
        ∧ t.license? id = some ((row.written invoices contractId override l).withMirror m)
        ∧ (row.LeavesSupport → m = recomputedMirror u s id l)
        ∧ (∃ v : Store, (row.LeavesSupport → ∀ m, v.syncedMirror u m = s.syncedMirror u m)
          ∧ ∀ other ≠ id, t.license? other
            = (s.license? other).map (syncedRow u v id (l.licenseType == .maintenance)))
        ∧ { t with licenses := s.licenses, history := s.history } = s
        ∧ (row.LeavesSupport → t.history = s.history) := by
  obtain ⟨invoices, contractId, override, imported, hfrom, himported, rfl⟩ :=
    applyImportUpdate_written h
  generalize hwritten : row.written invoices contractId override l = written at himported
  have hstored : (s.modifyLicense id (fun l₀ =>
      { written with
        toMaintenanceMirror := l₀.toMaintenanceMirror
        toLicenseStanding := l₀.toLicenseStanding
        toLicenseChain := l₀.toLicenseChain
        poLineId := l₀.poLineId
        pendingOrderId := l₀.pendingOrderId
        procurementBundleId := l₀.procurementBundleId
        sourceSourcingItemId := l₀.sourceSourcingItemId })).license? id = some written := by
    rw [Store.license?_modifyLicense_self, hl, ← hwritten]
    rfl
  have hmirror : written.toMaintenanceMirror = l.toMaintenanceMirror := by rw [← hwritten]; rfl
  obtain ⟨⟨m, hrow, hsame⟩, hothers, htables, hleft⟩ := importSupport_row hstored hmirror himported
  have hframe := fun m => hwritten ▸ @written_frame row l invoices contractId override m hfrom
  have hstore : { imported with licenses := s.licenses, history := s.history } = s :=
    congrArg (fun v : Store => { v with licenses := s.licenses }) htables
  have hhistory : row.LeavesSupport → imported.history = s.history := fun hleaves => by
    rw [hleft hleaves]
    rfl
  have hdefaulted : (imported.modifyLicense id (syncSupportDefaults u)).license? id
      = some (written.withMirror (applyIncludedSupportDefaults u written.toLicenseTerms m)) := by
    rw [Store.license?_modifyLicense_self, hrow]
    rfl
  have hkept : ∀ other ≠ id, (imported.modifyLicense id (syncSupportDefaults u)).license? other
      = s.license? other := by
    intro other hne
    rw [Store.license?_modifyLicense_ne _ _ hne, hothers other hne,
      Store.license?_modifyLicense_ne _ _ hne]
  have hdefaults : row.LeavesSupport →
      applyIncludedSupportDefaults u written.toLicenseTerms m
        = applyIncludedSupportDefaults u l.toLicenseTerms l.toMaintenanceMirror := by
    intro hleaves
    have hcolumns := hframe m
    rw [hsame hleaves]
    exact applyIncludedSupportDefaults_congr _ hcolumns.licenseType
      (hcolumns.quantity hleaves.quantity) (hcolumns.unitPrice hleaves.unitPrice)
      (hcolumns.startDate hleaves.startDate) (hcolumns.endDate hleaves.endDate)
  have hchild : row.LeavesSupport →
      ∀ m, (imported.modifyLicense id (syncSupportDefaults u)).syncedMirror u m
        = s.syncedMirror u m := by
    intro hleaves support
    refine syncedMirror_congr fun childId _ => ?_
    by_cases hid : childId = id
    · rw [hid, hl, hdefaulted, Option.map_some, Option.map_some]
      generalize applyIncludedSupportDefaults u written.toLicenseTerms m = m'
      have hcolumns := hframe m'
      have hretired := congrArg LicenseStanding.isRetired hcolumns.standing
      rw [License.mirrored, License.mirrored, hcolumns.licenseType, hretired,
        hcolumns.startDate hleaves.startDate, hcolumns.endDate hleaves.endDate,
        hcolumns.quantity hleaves.quantity, hcolumns.unitPrice hleaves.unitPrice]
    · rw [hkept childId hid]
  generalize hd : imported.modifyLicense id (syncSupportDefaults u) = d at *
  have hdstore : { d with licenses := s.licenses, history := s.history } = s := by
    rw [← hd]
    exact hstore
  have hdhistory : row.LeavesSupport → d.history = s.history := by
    rw [← hd]
    exact hhistory
  obtain ⟨licenses, hsynced⟩ := syncedParents_tables u id l d
  refine ⟨invoices, contractId, override,
    selfSynced u d id l.licenseType (applyIncludedSupportDefaults u written.toLicenseTerms m),
    hfrom, ?_, fun hleaves => ?_, ⟨d, hchild, fun other hne => ?_⟩, ?_, fun hleaves => ?_⟩
  · rw [license?_syncedParents, hdefaulted, hwritten, Option.map_some,
      syncedRow_withMirror u d id l written]
  · rw [hdefaults hleaves, recomputedMirror, selfSynced, selfSynced, hchild hleaves]
  · rw [license?_syncedParents, hkept other hne]
  · rw [hsynced]
    exact hdstore
  · rw [hsynced]
    exact hdhistory hleaves

-- When the frame holds

theorem written_renewable (invoices : String × List String) (contractId : Option Nat)
    (override : Option String) (h : row.isRenewable = none)
    : (row.written invoices contractId override l).isRenewable
      = (normaliseTypeOptInFields l.toLicenseTerms).isRenewable := by
  change (if l.licenseType.isRenewalOptIn then row.isRenewable.or l.isRenewable else none) = _
  rw [h, Option.none_or]
  rfl

theorem written_description (invoices : String × List String) (contractId : Option Nat)
    (override : Option String) (h : EmptyCell row.typeDescription)
    : (row.written invoices contractId override l).typeDescription
      = (normaliseTypeOptInFields l.toLicenseTerms).typeDescription := by
  change (if l.licenseType = .other then
      cleanTypeDescription ((row.typeDescription.filter (· ≠ "")).or l.typeDescription)
    else none) = _
  rw [h, Option.none_or]
  rfl

theorem IsBlank.leavesSupport (h : row.IsBlank) : row.LeavesSupport := by
  obtain ⟨ref, rfl⟩ := h
  exact ⟨rfl, rfl, rfl, rfl, rfl⟩

theorem written_blank {invoices : String × List String} {contractId : Option Nat}
    {override : Option String} (hblank : row.IsBlank)
    (hfrom : WrittenFrom row l invoices contractId override)
    (hrenewable : (row.written invoices contractId override l).isRenewable = l.isRenewable)
    (hdescription : (row.written invoices contractId override l).typeDescription
      = l.typeDescription)
    : row.written invoices contractId override l = l := by
  obtain ⟨ref, rfl⟩ := hblank
  have hinvoices := hfrom.invoices rfl
  have hcontract := hfrom.contract rfl
  have hoverride := hfrom.override ⟨rfl, .inl rfl⟩
  subst hinvoices hcontract hoverride
  generalize hwritten : ParsedRow.written _ _ _ _ _ = written at *
  have hcolumns : written
      = { l with
          isRenewable := written.isRenewable
          typeDescription := written.typeDescription } := by
    rw [← hwritten]
    simp [ParsedRow.written, ParsedRow.writeDetails, ParsedRow.writeTerms,
      normaliseTypeOptInFields, orStored]
  rw [hcolumns, hrenewable, hdescription]

/-- An import update leaves what its filled cells do not write, just if what it computes of empty
cells is stored already.
-/
theorem importFrame_iff (hl : s.license? id = some l)
    (h : applyImportUpdate u id row l s = .ok t)
    : (∃ l', ImportFrame id row l s t l') ↔ Settled u s id row l := by
  obtain ⟨invoices, contractId, override, m, hfrom, hstored, hm, ⟨v, hv, hothers⟩, htables, hhistory⟩ :=
    applyImportUpdate_result hl h
  constructor
  · rintro ⟨l', hframe⟩
    obtain rfl := Option.some.inj (hstored.symm.trans hframe.stored)
    refine
      {
        renewable := fun hnone => ?_
        description := fun hempty => ?_
        support := fun hleaves => ?_
        parents := fun hleaves hmaintenance other parent hne hparent hactive => ?_
      }
    · rw [← written_renewable invoices contractId override hnone]
      exact hframe.renewable hnone
    · rw [← written_description invoices contractId override hempty]
      exact hframe.description hempty
    · rw [← hm hleaves]
      exact hframe.support hleaves
    · have hsame := (hframe.mirrors other hne).2 hleaves
      rw [hothers other hne, hparent, Option.map_some, Option.some.injEq, syncedRow,
        if_pos (by simp [hmaintenance, hactive]), hv hleaves] at hsame
      exact congrArg License.toMaintenanceMirror hsame
  · intro hsettled
    have hrenewable : row.isRenewable = none →
        (row.written invoices contractId override l).isRenewable = l.isRenewable := fun hnone => by
      rw [written_renewable invoices contractId override hnone]
      exact hsettled.renewable hnone
    have hdescription : EmptyCell row.typeDescription →
        (row.written invoices contractId override l).typeDescription = l.typeDescription :=
      fun hempty => by
        rw [written_description invoices contractId override hempty]
        exact hsettled.description hempty
    have hsupport : row.LeavesSupport → m = l.toMaintenanceMirror := fun hleaves =>
      (hm hleaves).trans (hsettled.support hleaves)
    refine ⟨(row.written invoices contractId override l).withMirror m,
      {
        stored := hstored
        columns := written_frame m hfrom
        renewable := hrenewable
        description := hdescription
        support := hsupport
        mirrors := fun other hne => ⟨?_, fun hleaves => ?_⟩
        tables := htables
        history := hhistory
        blank := fun hblank => ?_
      }⟩
    · rw [hothers other hne, Option.map_map]
      congr 1
      funext parent
      rw [Function.comp_apply, syncedRow]
      split <;> rfl
    · rw [hothers other hne]
      rcases hparent : s.license? other with _ | parent
      · rfl
      · rw [Option.map_some, syncedRow]
        split
        case isTrue hactive =>
          rw [hv hleaves, hsettled.parents hleaves (by simpa using hactive.1) other parent hne
            hparent hactive.2]
          rfl
        case isFalse => rfl
    · have hleaves := IsBlank.leavesSupport hblank
      have hrow := hblank
      obtain ⟨ref, hrow⟩ := hrow
      rw [hsupport hleaves, written_blank hblank hfrom (hrenewable (by rw [hrow]))
        (hdescription (by rw [hrow]; rfl))]
      rfl

/-- A perpetual licence with support of 1200, priced by the unit without a price. -/
def unpricedSupport : License :=
  { License.ofTerm .perpetual (some 1) none with
    licenseRef := some "LT-1"
    maintenanceCoverage := .included
    maintenancePricingBasis := some .perUnit
    maintenanceQuantity := some "10"
    maintenanceCost := some "1200" }

/-- The store of this licence. -/
def unpricedStore : Store where
  licenses := Table.empty.insert unpricedSupport

/-- A row that names the licence and has no other cell. -/
def blankRow : ParsedRow where
  licenseRef := some "LT-1"
  currencyDefaulted := true

theorem blankRow_runs
    : ∃ t, applyImportUpdate .ascii 1 blankRow unpricedSupport unpricedStore = .ok t
      ∧ (t.license? 1).bind (·.maintenanceCost) = none := by
  have hrun : (applyImportUpdate .ascii 1 blankRow unpricedSupport unpricedStore).toOption.any
      (fun t => decide ((t.license? 1).bind (·.maintenanceCost) = none)) = true := by
    decide +kernel
  rcases h : applyImportUpdate .ascii 1 blankRow unpricedSupport unpricedStore with failure | t
  · rw [h] at hrun
    cases hrun
  · rw [h] at hrun
    exact ⟨t, rfl, of_decide_eq_true hrun⟩

theorem importFrame_iff_blankRow
    : ∃ t, applyImportUpdate .ascii 1 blankRow unpricedSupport unpricedStore = .ok t
      ∧ ((∃ l', ImportFrame 1 blankRow unpricedSupport unpricedStore t l')
        ↔ Settled .ascii unpricedStore 1 blankRow unpricedSupport) := by
  obtain ⟨t, h, -⟩ := blankRow_runs
  exact ⟨t, h, importFrame_iff (by decide +kernel) h⟩

/-- The blank row takes the cost of support away. -/
theorem not_importFrame_blankRow
    : ∃ t, applyImportUpdate .ascii 1 blankRow unpricedSupport unpricedStore = .ok t
      ∧ ¬∃ l', ImportFrame 1 blankRow unpricedSupport unpricedStore t l' := by
  obtain ⟨t, h, hcost⟩ := blankRow_runs
  refine ⟨t, h, fun ⟨l', hframe⟩ => ?_⟩
  rw [hframe.stored, hframe.blank ⟨_, rfl⟩] at hcost
  cases hcost

end LicenseTrack
