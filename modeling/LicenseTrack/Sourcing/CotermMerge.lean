import LicenseTrack.Money.DecimalSums
import LicenseTrack.Services.PoTotalOverride
import LicenseTrack.Services.SourcingWorkflows

/-! The line that a co-term merge builds of several renewal lines: the predecessors of all of them,
and their quantities and prices in one.
-/

namespace LicenseTrack

open Library

variable {u : Unicode} {s : Store} {items : List (Nat × SourcingItem)}

/-- `common_nonblank`, of the values that are not blank. -/
def commonNonblank {α : Type} [DecidableEq α] (values : List (Option α)) : Option α :=
  match values.filterMap id with
  | [] => none
  | first :: rest => if rest.all (· == first) then some first else none

/-- `common_nonblank` of texts. -/
def commonText (values : List (Option String)) : Option String := commonNonblank (values.map truthy)

/-- `_common_nonblank_identity`. -/
def commonNonblankIdentity (u : Unicode) (values : List (Option String)) : Option String :=
  let cleaned := values.map (fun value => truthy (value.map strip))
  if cleaned.all Option.isSome then
    match cleaned.filterMap id with
    | [] => none
    | first :: rest => if rest.all (fun value => u.casefold value == u.casefold first) then some first else none
  else none

/-- The supplier record that the requests of the lines have in common, or else the lines. -/
def commonSupplierId (s : Store) (items : List (Nat × SourcingItem)) : Option Nat :=
  let ids := items.map (fun entry =>
    match entry.2.sourcingRequestId.bind s.requests.get? with
    | some request => request.supplierId
    | none => entry.2.supplierId)
  if ids.all Option.isSome then commonNonblank ids else none

/-- The contact that the requests of the lines have in common, or else the lines. -/
def commonContact (u : Unicode) (s : Store) (items : List (Nat × SourcingItem)) : Option String :=
  commonNonblankIdentity u (items.map (fun entry =>
    match entry.2.sourcingRequestId.bind s.requests.get? with
    | some request => request.contactEmail
    | none => entry.2.contactEmail))

/-- Whether `parse_money` takes a text. -/
def readsAsMoney (u : Unicode) (text : Option String) : Bool :=
  u.parseMoney (text.getD "") != .invalid

/-- What `parse_money` makes of a text that it takes. -/
def moneyOf (u : Unicode) (text : Option String) : Option Decimal :=
  match u.parseMoney (text.getD "") with
  | .amount value => some value
  | _ => none

/-- The total of a line: its own, or that of its quantity and unit price. -/
def mergedValue (u : Unicode) (item : SourcingItem) : Option Decimal :=
  (moneyOf u item.estimatedTotalPrice).or
    ((moneyOf u item.estimatedUnitPrice).map
      (((moneyOf u item.quantity).getD Decimal.zero).mul ·))

/-- The sum of the quantities, a missing one counting as zero. -/
def mergedQuantity (u : Unicode) (items : List (Nat × SourcingItem)) : Decimal :=
  Decimal.sum (items.map (fun entry => (moneyOf u entry.2.quantity).getD Decimal.zero))

/-- The totals of the lines, where each has one. -/
def mergedValues (u : Unicode) (items : List (Nat × SourcingItem)) : Option (List Decimal) :=
  let values := items.map (fun entry => mergedValue u entry.2)
  if values.all Option.isSome then some (values.filterMap id) else none

/-- The unit price that all lines share as a number. -/
def commonUnitPrice (u : Unicode) (items : List (Nat × SourcingItem)) (primary : SourcingItem)
    : Option String :=
  match items.map (fun entry => moneyOf u entry.2.estimatedUnitPrice) with
  | some first :: rest =>
      if rest.all (fun price => price.any (first.sameNumber ·)) then primary.estimatedUnitPrice
      else none
  | _ => none

-- The merged line

/-- The predecessors of the lines, each once and the earliest first. -/
def cotermPredecessors (s : Store) (items : List (Nat × SourcingItem)) : List Nat :=
  cotermOrder s (items.flatMap (fun entry => entry.2.predecessorIds)).dedup

/-- The line that renews the primary predecessor itself. -/
def primaryLine (items : List (Nat × SourcingItem)) (primaryId : Nat) : Option (Nat × SourcingItem) :=
  items.find? (fun entry => entry.2.renewalForLicenseId == some primaryId)

/-- The type of a line, by default that of the licence which it renews. -/
def lineType (s : Store) (primary : License) (item : SourcingItem) : LicenseType :=
  item.licenseType.getD ((item.renewalForLicenseId.bind s.license?).getD primary).licenseType

/-- Lines in one explicit currency. -/
def SharedCurrency (u : Unicode) (items : List (Nat × SourcingItem)) : Prop :=
  (items.map (fun entry => u.normalizeCurrency entry.2.currency)).dedup.length = 1
    ∧ "" ∉ items.map (fun entry => u.normalizeCurrency entry.2.currency)

instance : Decidable (SharedCurrency u items) := by
  unfold SharedCurrency
  infer_instance

/-- Lines of one licence type. -/
def SharedType (s : Store) (primary : License) (items : List (Nat × SourcingItem)) : Prop :=
  (items.map (fun entry => lineType s primary entry.2)).dedup.length = 1

instance {primary : License} : Decidable (SharedType s primary items) := by
  unfold SharedType
  infer_instance

/-- `merged_total_price`. -/
def mergedTotalPrice (u : Unicode) (items : List (Nat × SourcingItem))
    : Except Failure (Option String) :=
  match mergedValues u items with
  | none => .ok none
  | some values => do
      let total ← found (Decimal.sum values).quantizeCents (.database "decimal.InvalidOperation")
      pure (some total.format)

/-- `build_merged_sourcing_item`, before the names are resolved to reference records. -/
def buildMergedSourcingItem (env : Env) (s : Store) (items : List (Nat × SourcingItem))
    : Except Failure SourcingItem := do
  let u := env.unicode
  let predecessorIds := cotermPredecessors s items
  let primaryId ← found predecessorIds.head? (.database "list index out of range")
  let primaryPred ← found (s.license? primaryId) (.database "list index out of range")
  -- `next` over the lines, without a default.
  let primary ← found (primaryLine items primaryId) (.database "coroutine raised StopIteration")
  let item := primary.2
  let licenseType := item.licenseType.getD primaryPred.licenseType
  let coverage := item.maintenanceCoverage.getD primaryPred.maintenanceCoverage
  assertCoverageAllowedForType licenseType coverage
  require (items.all (fun entry => readsAsMoney u entry.2.estimatedUnitPrice) = true)
    (.value "Non-canonical money value")
  require (SharedCurrency u items) (.http 409 "Coterm lines must use one explicit currency")
  require (SharedType s primaryPred items) (.http 409 "Coterm lines must use the same license type")
  require (items.all (fun entry => readsAsMoney u entry.2.quantity) = true)
    (.value "Non-canonical money value")
  require (items.all (fun entry => readsAsMoney u entry.2.estimatedTotalPrice) = true)
    (.value "Non-canonical money value")
  let total ← mergedTotalPrice u items
  let quantity := mergedQuantity u items
  let supplier := (commonSupplierId s items).bind (fun id =>
    (s.organizations.get? id).map (fun organization => (id, organization.name)))
  let texts (column : SourcingItem → Option String) : Option String :=
    commonText (items.map (fun entry => column entry.2))
  let dates (column : SourcingItem → Option Date) : Option Date :=
    commonNonblank (items.map (fun entry => column entry.2))
  pure
    {
      publisherName := item.publisherName
      softwareDescription := item.softwareDescription
      licenseType := some licenseType
      licenseMetric := item.licenseMetric.or (some primaryPred.licenseMetric)
      portalUrl := texts (·.portalUrl)
      isRenewable := item.isRenewable
      typeDescription := texts (·.typeDescription)
      maintenanceCoverage := some coverage
      quantity := if quantity.coefficient = 0 then none else some quantity.format
      quantityPerUnit := texts (·.quantityPerUnit)
      skuCode := texts (·.skuCode)
      estimatedUnitPrice := commonUnitPrice u items item
      estimatedTotalPrice := total
      currency := item.currency
      supplier := supplier.map Prod.snd
      supplierId := supplier.map Prod.fst
      contactEmail := supplier.bind (fun _ => commonContact u s items)
      startDate := dates (·.startDate)
      endDate := dates (·.endDate)
      noticeDate := dates (·.noticeDate)
      purchaseDate := dates (·.purchaseDate)
      contractNumber := texts (·.contractNumber)
      invoiceNumber := texts (·.invoiceNumber)
      externalRef := texts (·.externalRef)
      costCentre := texts (·.costCentre)
      budgetOwnerEmail := texts (·.budgetOwnerEmail)
      secondaryContacts := (commonNonblank (items.map (fun entry =>
        if entry.2.secondaryContacts = [] then none else some entry.2.secondaryContacts))).getD []
      notes := texts (·.notes)
      status := .sourcing
      createdAt := env.now
      renewalForLicenseId := some primaryId
      cotermPredecessorIds := some predecessorIds
    }

/-- A failure that no client error stands for. -/
def Failure.Unexpected : Failure → Prop
  | .http _ _ => False
  | _ => True

/-- A computation that ends in an unexpected failure. -/
def Crashes {α : Type} : Except Failure α → Prop
  | .ok _ => False
  | .error failure => failure.Unexpected

theorem crashes_found {α β : Type} {x : Option α} {failure : Failure} {f : α → Except Failure β}
    : Crashes (found x failure >>= f)
      ↔ (x = none ∧ failure.Unexpected) ∨ ∃ a, x = some a ∧ Crashes (f a) := by
  cases x with
  | none => simp [found, Crashes]
  | some a => simp [found]

theorem crashes_require {β : Type} {p : Prop} [Decidable p] {failure : Failure}
    {f : PUnit → Except Failure β}
    : Crashes (require p failure >>= f)
      ↔ (¬p ∧ failure.Unexpected) ∨ p ∧ Crashes (f PUnit.unit) := by
  unfold require
  split
  · next hp => simp [hp]
  · next hp => simp [hp, Crashes]

theorem crashes_pure {α : Type} (a : α) : ¬Crashes (pure a : Except Failure α) := fun h => h

theorem crashes_mergedTotalPrice {β : Type} {f : Option String → Except Failure β}
    (hf : ∀ total, ¬Crashes (f total))
    : Crashes (mergedTotalPrice u items >>= f)
      ↔ ∃ values, mergedValues u items = some values ∧ (Decimal.sum values).quantizeCents = none := by
  unfold mergedTotalPrice
  rcases hvalues : mergedValues u items with _ | values
  · simp only [ok_bind, reduceCtorEq, false_and, exists_false, iff_false]
    exact hf none
  · dsimp only
    rcases hcents : (Decimal.sum values).quantizeCents with _ | cents
    · simp [found, hcents, Crashes, Failure.Unexpected]
    · simp only [found, ok_bind, pure_bind, Option.some.injEq, exists_eq_left', hcents, reduceCtorEq,
        iff_false]
      exact hf _

-- What a merge owes

/-- What a merged line takes over from its lines. -/
structure MergesLines (u : Unicode) (s : Store) (items : List (Nat × SourcingItem))
    (merged : SourcingItem) : Prop where
  nodup : (merged.cotermPredecessorIds.getD []).Nodup
  union : ∀ id, id ∈ merged.cotermPredecessorIds.getD []
    ↔ ∃ entry ∈ items, id ∈ entry.2.predecessorIds
  primary : ∃ primaryId ∈ merged.cotermPredecessorIds.getD [],
    merged.renewalForLicenseId = some primaryId
      ∧ ∀ other ∈ merged.cotermPredecessorIds.getD [], cotermBefore s primaryId other = true
  quantity : merged.quantity = if (mergedQuantity u items).coefficient = 0 then none
    else some (mergedQuantity u items).format
  /-- The sum of the quantities is their sum as numbers, unless a partial sum is rounded. -/
  quantities : Decimal.SumFits .zero
      (items.map (fun entry => (moneyOf u entry.2.quantity).getD Decimal.zero)) →
    (mergedQuantity u items).toRat
      = (items.map (fun entry => ((moneyOf u entry.2.quantity).getD Decimal.zero).toRat)).sum
  total : ∀ values, mergedValues u items = some values →
    ∃ cents : Decimal, merged.estimatedTotalPrice = some cents.format ∧ cents.exponent = -2
      ∧ |cents.toRat - (Decimal.sum values).toRat| ≤ 1 / 200
      ∧ (Decimal.SumFits .zero values → (Decimal.sum values).toRat = (values.map Decimal.toRat).sum)

/-- Lines whose merge does not fail: one of them renews the earliest predecessor itself, its coverage
suits its type, and the amounts are canonical and not too large.
-/
structure CotermBuilds (u : Unicode) (s : Store) (items : List (Nat × SourcingItem)) : Prop where
  primary : ∃ entry ∈ items, entry.2.renewalForLicenseId = (cotermPredecessors s items).head?
  coverage : ∀ primaryId ∈ (cotermPredecessors s items).head?, ∀ l ∈ s.license? primaryId,
    ∀ entry ∈ primaryLine items primaryId,
      entry.2.maintenanceCoverage.getD l.maintenanceCoverage = .separatelyTracked →
        (entry.2.licenseType.getD l.licenseType).isMaintenanceParent = true
  prices : ∀ entry ∈ items, readsAsMoney u entry.2.estimatedUnitPrice = true
  amounts : ∀ primaryId ∈ (cotermPredecessors s items).head?, ∀ l ∈ s.license? primaryId,
    SharedCurrency u items → SharedType s l items →
      (∀ entry ∈ items, readsAsMoney u entry.2.quantity = true
        ∧ readsAsMoney u entry.2.estimatedTotalPrice = true)
      ∧ ∀ values, mergedValues u items = some values → (Decimal.sum values).quantizeCents ≠ none

theorem mem_cotermPredecessors {id : Nat}
    : id ∈ cotermPredecessors s items ↔ ∃ entry ∈ items, id ∈ entry.2.predecessorIds := by
  rw [cotermPredecessors, cotermOrder, List.mem_mergeSort, List.mem_dedup, List.mem_flatMap]

theorem cotermPredecessors_nodup : (cotermPredecessors s items).Nodup := by
  rw [cotermPredecessors, cotermOrder, (List.mergeSort_perm _ _).nodup_iff]
  exact List.nodup_dedup _

theorem cotermPredecessors_head {primaryId : Nat}
    (h : (cotermPredecessors s items).head? = some primaryId)
    : ∀ other ∈ cotermPredecessors s items, cotermBefore s primaryId other = true := by
  have hchain : ∀ x y z a b c : Nat, (x < y ∨ x = y ∧ a ≤ b) → (y < z ∨ y = z ∧ b ≤ c)
      → (x < z ∨ x = z ∧ a ≤ c) := by omega
  have heither : ∀ x y a b : Nat, (x < y ∨ x = y ∧ a ≤ b) ∨ (y < x ∨ y = x ∧ b ≤ a) := by omega
  have htrans : ∀ a b c, cotermBefore s a b = true → cotermBefore s b c = true
      → cotermBefore s a c = true := fun a b c hab hbc => by
    simp only [cotermBefore, Bool.or_eq_true, decide_eq_true_eq, Bool.and_eq_true, beq_iff_eq]
      at hab hbc ⊢
    exact hchain _ _ _ _ _ _ hab hbc
  have htotal : ∀ a b, (cotermBefore s a b || cotermBefore s b a) = true := fun a b => by
    simp only [cotermBefore, Bool.or_eq_true, decide_eq_true_eq, Bool.and_eq_true, beq_iff_eq]
    exact heither _ _ _ _
  have hsorted : (cotermPredecessors s items).Pairwise (fun a b => cotermBefore s a b = true) :=
    List.pairwise_mergeSort htrans htotal _
  have hself : cotermBefore s primaryId primaryId = true := by
    simpa using htotal primaryId primaryId
  obtain ⟨rest, hlist⟩ := List.head?_eq_some_iff.mp h
  rw [hlist] at hsorted ⊢
  intro other hm
  rcases List.mem_cons.mp hm with rfl | hm
  · exact hself
  · exact (List.pairwise_cons.mp hsorted).1 other hm

theorem buildMergedSourcingItem_ok {env : Env} {merged : SourcingItem}
    (h : buildMergedSourcingItem env s items = .ok merged)
    : ∃ primaryId, (cotermPredecessors s items).head? = some primaryId
        ∧ merged.renewalForLicenseId = some primaryId
        ∧ merged.cotermPredecessorIds = some (cotermPredecessors s items)
        ∧ merged.quantity = (if (mergedQuantity env.unicode items).coefficient = 0 then none
            else some (mergedQuantity env.unicode items).format)
        ∧ mergedTotalPrice env.unicode items = .ok merged.estimatedTotalPrice := by
  simp only [buildMergedSourcingItem, bind_eq_ok, found_eq_ok, require_eq_ok, pure_eq_ok] at h
  obtain ⟨primaryId, hprimary, primaryPred, -, primary, -, _, -, _, -, _, -, _, -, _, -, _, -,
    total, htotal, rfl⟩ := h
  exact ⟨primaryId, hprimary, rfl, rfl, rfl, htotal⟩

theorem buildMergedSourcingItem_merges {env : Env} {merged : SourcingItem}
    (h : buildMergedSourcingItem env s items = .ok merged)
    : MergesLines env.unicode s items merged := by
  obtain ⟨primaryId, hprimary, hrenews, hlist, hquantity, htotal⟩ := buildMergedSourcingItem_ok h
  have hids : merged.cotermPredecessorIds.getD [] = cotermPredecessors s items := by
    rw [hlist, Option.getD_some]
  refine ⟨?_, fun id => ?_, ⟨primaryId, ?_, hrenews, ?_⟩, hquantity, fun hfits => ?_,
    fun values hvalues => ?_⟩
  · rw [hids]
    exact cotermPredecessors_nodup
  · rw [hids]
    exact mem_cotermPredecessors
  · rw [hids]
    exact List.mem_of_head? hprimary
  · rw [hids]
    exact cotermPredecessors_head hprimary
  · rw [mergedQuantity, Decimal.toRat_sum hfits, List.map_map]
    rfl
  · simp only [mergedTotalPrice, hvalues, bind_eq_ok, found_eq_ok, pure_eq_ok] at htotal
    obtain ⟨cents, hcents, hformat⟩ := htotal
    obtain ⟨hexponent, hnear⟩ := Decimal.quantizeCents_near hcents
    exact ⟨cents, hformat.symm, hexponent, hnear, Decimal.toRat_sum⟩

theorem cotermPredecessors_stored (hne : items ≠ [])
    (hrenewals : ∀ entry ∈ items, entry.2.renewalForLicenseId.isSome = true)
    (hstored : ∀ entry ∈ items, ∀ id ∈ entry.2.predecessorIds, (s.license? id).isSome = true)
    : ∃ primaryId l, (cotermPredecessors s items).head? = some primaryId
      ∧ s.license? primaryId = some l := by
  obtain ⟨entry, rest, rfl⟩ := List.exists_cons_of_ne_nil hne
  obtain ⟨id, hid⟩ := Option.isSome_iff_exists.mp (hrenewals entry List.mem_cons_self)
  have hmem : id ∈ cotermPredecessors s (entry :: rest) := by
    refine mem_cotermPredecessors.mpr ⟨entry, List.mem_cons_self, ?_⟩
    simp [SourcingItem.predecessorIds, hid]
  obtain ⟨primaryId, others, hlist⟩ := List.exists_cons_of_ne_nil (List.ne_nil_of_mem hmem)
  have hfirst : primaryId ∈ cotermPredecessors s (entry :: rest) := by simp [hlist]
  obtain ⟨line, hline, hprimary⟩ := mem_cotermPredecessors.mp hfirst
  obtain ⟨l, hl⟩ := Option.isSome_iff_exists.mp (hstored line hline primaryId hprimary)
  exact ⟨primaryId, l, by rw [hlist]; rfl, hl⟩

theorem crashes_buildMergedSourcingItem {env : Env} {primaryId : Nat} {l : License}
    (hprimary : (cotermPredecessors s items).head? = some primaryId)
    (hl : s.license? primaryId = some l)
    : Crashes (buildMergedSourcingItem env s items) ↔
      primaryLine items primaryId = none
      ∨ ∃ entry, primaryLine items primaryId = some entry
        ∧ (¬(entry.2.maintenanceCoverage.getD l.maintenanceCoverage = .separatelyTracked →
            (entry.2.licenseType.getD l.licenseType).isMaintenanceParent = true)
          ∨ (¬∀ entry ∈ items, readsAsMoney env.unicode entry.2.estimatedUnitPrice = true)
          ∨ SharedCurrency env.unicode items ∧ SharedType s l items
            ∧ ((¬∀ entry ∈ items, readsAsMoney env.unicode entry.2.quantity = true)
              ∨ (¬∀ entry ∈ items, readsAsMoney env.unicode entry.2.estimatedTotalPrice = true)
              ∨ ∃ values, mergedValues env.unicode items = some values
                ∧ (Decimal.sum values).quantizeCents = none)) := by
  have hhttp : ∀ status detail, ¬(Failure.http status detail).Unexpected := fun _ _ h => h
  have hvalue : ∀ message, (Failure.value message).Unexpected := fun _ => trivial
  have hdatabase : ∀ message, (Failure.database message).Unexpected := fun _ => trivial
  have hor : ∀ p q : Prop, (¬p ∨ p ∧ q) ↔ (¬p ∨ q) := fun p q => by
    rw [or_and_left, and_iff_right (Classical.em p).symm]
  simp only [buildMergedSourcingItem, crashes_found, crashes_require, assertCoverageAllowedForType,
    crashes_mergedTotalPrice (fun _ => crashes_pure _), hprimary, hl, hhttp, hvalue, hdatabase,
    Option.some.injEq, reduceCtorEq, false_or, and_true, and_false, exists_eq_left',
    List.all_eq_true, hor]

theorem primaryLine_isSome {primaryId : Nat}
    : (∃ entry, primaryLine items primaryId = some entry)
      ↔ ∃ entry ∈ items, entry.2.renewalForLicenseId = some primaryId := by
  rw [← Option.isSome_iff_exists, primaryLine, List.find?_isSome]
  simp only [beq_iff_eq]

/-- A merge of renewal lines whose predecessors are stored does not fail unexpectedly, and the merged
line takes over what the lines have, exactly where one of the lines renews the earliest predecessor
itself, the coverage suits the type, and the amounts are canonical and not too large.
-/
theorem buildMergedSourcingItem_merges_iff (env : Env) (s : Store) (items : List (Nat × SourcingItem))
    (hne : items ≠ []) (hrenewals : ∀ entry ∈ items, entry.2.renewalForLicenseId.isSome = true)
    (hstored : ∀ entry ∈ items, ∀ id ∈ entry.2.predecessorIds, (s.license? id).isSome = true)
    : (¬Crashes (buildMergedSourcingItem env s items)
        ∧ ∀ merged, buildMergedSourcingItem env s items = .ok merged →
          MergesLines env.unicode s items merged)
      ↔ CotermBuilds env.unicode s items := by
  rw [and_iff_left fun merged hmerged => buildMergedSourcingItem_merges hmerged]
  obtain ⟨primaryId, l, hprimary, hl⟩ := cotermPredecessors_stored hne hrenewals hstored
  have hfirst : ∀ id, id ∈ (cotermPredecessors s items).head? → id = primaryId := fun id hid =>
    Option.some.inj (hid.symm.trans hprimary)
  have hlicense : ∀ other, other ∈ s.license? primaryId → other = l := fun other hother =>
    Option.some.inj (hother.symm.trans hl)
  rw [crashes_buildMergedSourcingItem hprimary hl]
  constructor
  · intro hbuilds
    obtain ⟨hfound, hrest⟩ := not_or.mp hbuilds
    obtain ⟨entry, hentry⟩ := Option.ne_none_iff_exists'.mp hfound
    have hchecks := fun hfailure => hrest ⟨entry, hentry, hfailure⟩
    obtain ⟨hcoverage, hchecks⟩ := not_or.mp hchecks
    obtain ⟨hprices, hamounts⟩ := not_or.mp hchecks
    refine ⟨?_, ?_, not_not.mp hprices, ?_⟩
    · rw [hprimary]
      exact primaryLine_isSome.mp ⟨entry, hentry⟩
    · intro id hid other hother line hline
      obtain rfl := hfirst id hid
      obtain rfl := hlicense other hother
      obtain rfl := Option.some.inj (hline.symm.trans hentry)
      exact not_not.mp hcoverage
    · intro id hid other hother hcurrency htype
      obtain rfl := hfirst id hid
      obtain rfl := hlicense other hother
      obtain ⟨hquantities, htotals⟩ := not_or.mp fun hfailure => hamounts ⟨hcurrency, htype, hfailure⟩
      obtain ⟨htotals, hlarge⟩ := not_or.mp htotals
      exact ⟨fun line hline => ⟨not_not.mp hquantities line hline, not_not.mp htotals line hline⟩,
        fun values hvalues hnone => hlarge ⟨values, hvalues, hnone⟩⟩
  · rintro ⟨hline, hcoverage, hprices, hamounts⟩
    rw [hprimary] at hline
    rintro (hnone | ⟨entry, hentry, hfails | hfails | ⟨hcurrency, htype, hfails⟩⟩)
    · obtain ⟨entry, hentry⟩ := primaryLine_isSome.mpr hline
      cases hnone.symm.trans hentry
    · exact hfails (hcoverage primaryId hprimary l hl entry hentry)
    · exact hfails hprices
    · obtain ⟨hcanonical, hlarge⟩ := hamounts primaryId hprimary l hl hcurrency htype
      obtain hfails | hfails | ⟨values, hvalues, hnone⟩ := hfails
      · exact hfails fun line hmem => (hcanonical line hmem).1
      · exact hfails fun line hmem => (hcanonical line hmem).2
      · exact hlarge values hvalues hnone

/-- A line for two units at ten euros, which renews one licence. -/
def plainRenewal (licenseId : Nat) : SourcingItem where
  publisherName := "Acme"
  softwareDescription := "Editor"
  quantity := some "2"
  estimatedUnitPrice := some "10.00"
  renewalForLicenseId := some licenseId

/-- Three licences, of which the second starts on a given day. -/
def renewedStore (secondStart : Date) : Store where
  licenses := ((Table.empty.insert (License.ofTerm .subscription (some 11) (some 99))).insert
    (License.ofTerm .subscription (some secondStart) (some 99))).insert
      (License.ofTerm .subscription (some 31) (some 99))

theorem cotermPredecessors_plain
    : cotermPredecessors (renewedStore 21) [(1, plainRenewal 1), (2, plainRenewal 2)] = [1, 2] := by
  have hbefore : cotermBefore (renewedStore 21) 1 2 = true := by decide +kernel
  have hids : ([(1, plainRenewal 1), (2, plainRenewal 2)].flatMap
      (fun entry => entry.2.predecessorIds)).dedup = [1, 2] := by decide +kernel
  rw [cotermPredecessors, hids, cotermOrder]
  simp [List.mergeSort, hbefore]

theorem buildMergedSourcingItem_plain
    : ∃ merged, buildMergedSourcingItem (.onDay 40) (renewedStore 21)
        [(1, plainRenewal 1), (2, plainRenewal 2)] = .ok merged := by
  refine exists_ok ?_
  rw [buildMergedSourcingItem, cotermPredecessors_plain]
  decide +kernel

theorem buildMergedSourcingItem_merges_iff_plain
    : CotermBuilds .ascii (renewedStore 21) [(1, plainRenewal 1), (2, plainRenewal 2)] := by
  refine (buildMergedSourcingItem_merges_iff (.onDay 40) (renewedStore 21)
    [(1, plainRenewal 1), (2, plainRenewal 2)] (by decide) (by decide +kernel)
    (by decide +kernel)).mp ⟨?_, fun merged hmerged => buildMergedSourcingItem_merges hmerged⟩
  obtain ⟨merged, hmerged⟩ := buildMergedSourcingItem_plain
  rw [hmerged]
  exact crashes_pure merged

/-- The second licence is moved before the first, which the merged line renews: the next merge of
that line fails.
-/
theorem buildMergedSourcingItem_movedStart
    : ∃ merged, buildMergedSourcingItem (.onDay 40) (renewedStore 21)
        [(1, plainRenewal 1), (2, plainRenewal 2)] = .ok merged
      ∧ Crashes (buildMergedSourcingItem (.onDay 40) (renewedStore 1)
        [(3, plainRenewal 3), (4, merged)]) := by
  obtain ⟨merged, hmerged⟩ := buildMergedSourcingItem_plain
  refine ⟨merged, hmerged, ?_⟩
  obtain ⟨primaryId, hprimary, hrenews, hlist, -⟩ := buildMergedSourcingItem_ok hmerged
  rw [cotermPredecessors_plain] at hprimary hlist
  obtain rfl := Option.some.inj hprimary
  have hids : ([(3, plainRenewal 3), (4, merged)].flatMap
      (fun entry => entry.2.predecessorIds)).dedup = [3, 1, 2] := by
    simp only [List.flatMap_cons, List.flatMap_nil, SourcingItem.predecessorIds, hrenews, hlist,
      plainRenewal]
    decide +kernel
  have hbefore : cotermBefore (renewedStore 1) 3 1 = false
      ∧ cotermBefore (renewedStore 1) 1 2 = false
      ∧ cotermBefore (renewedStore 1) 3 2 = false := by decide +kernel
  have hsorted : cotermPredecessors (renewedStore 1) [(3, plainRenewal 3), (4, merged)]
      = [2, 1, 3] := by
    rw [cotermPredecessors, hids, cotermOrder]
    simp [List.mergeSort, hbefore]
  refine (crashes_buildMergedSourcingItem (by rw [hsorted]; rfl) rfl).mpr (.inl ?_)
  simp [primaryLine, hrenews, plainRenewal]

end LicenseTrack
