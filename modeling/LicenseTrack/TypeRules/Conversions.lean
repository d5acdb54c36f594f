import LicenseTrack.Conversion.PlannedEffect
import LicenseTrack.Sourcing.OnePath
import LicenseTrack.TypeRules.Writers

/-! The conversion of order lines and of free lines: a purchase always fits its type, a renewal
where what the form, the line and the licence give its successor does.
-/

namespace LicenseTrack

open Library

/-- Work that leaves the terms of the stored licences, and stores licences that fit their types. -/
structure TypedWork (s t : Store) : Prop where
  kept : ∀ id l, s.license? id = some l →
    ∃ l', t.license? id = some l' ∧ l'.toLicenseTerms = l.toLicenseTerms
  typed : TypedLicenses s → TypedLicenses t

namespace TypedWork

variable {s t v : Store}

theorem of_agrees (h : s.licenses.Agrees (fun l : License => l.toLicenseTerms) t.licenses)
    : TypedWork s t where
  kept := fun _ _ hl => h.forth hl
  typed := fun hs => hs.of_agrees h

theorem of_licenses (h : t.licenses = s.licenses) : TypedWork s t :=
  .of_agrees (h ▸ Table.Agrees.refl _ _)

theorem refl (s : Store) : TypedWork s s := .of_licenses rfl

theorem trans (h : TypedWork s t) (h' : TypedWork t v) : TypedWork s v where
  kept := fun id l hl => by
    obtain ⟨middle, hmiddle, he⟩ := h.kept id l hl
    obtain ⟨l', hl', he'⟩ := h'.kept id middle hmiddle
    exact ⟨l', hl', he'.trans he⟩
  typed := fun hs => h'.typed (h.typed hs)

theorem of_made {id : Nat} {predecessorIds : List Nat} {row : License}
    (h : LicenseMade s t id predecessorIds row) (hrow : row.toLicenseTerms.Typed)
    : TypedWork s t := by
  have hmarks : (s.licenses.insert row).Agrees (fun l : License => l.toLicenseTerms)
      ((s.licenses.insert row).mapRows (markRow predecessorIds id)) :=
    Table.Agrees.of_mapRows fun key l => by
      unfold markRow
      split <;> rfl
  have hterms : (s.licenses.insert row).Agrees (fun l : License => l.toLicenseTerms) t.licenses :=
    hmarks.trans (h.core.coarsen (fun core => core.2.1))
  refine ⟨fun key l hl => hterms.forth ?_, fun hs => (hs.insert hrow).of_agrees hterms⟩
  rw [Table.get?_insert, if_neg (Nat.ne_of_lt (Table.lt_nextKey_of_get? hl))]
  exact hl

theorem of_mark {entry : Nat × SourcingItem} (h : markItemConverted entry s = .ok t)
    : TypedWork s t := by
  unfold markItemConverted at h
  split at h
  · obtain rfl := Except.ok.inj h
    exact .refl s
  · simp only [writeItem, bind_eq_ok, require_eq_ok, pure_eq_ok] at h
    obtain ⟨_, -, rfl⟩ := h
    exact .of_licenses rfl

theorem of_planned {u : Unicode} {items : List (Nat × SourcingItem)}
    (h : applyPlannedSuccessorLinks u items s = .ok t)
    : TypedWork s t := by
  obtain ⟨-, hdone⟩ := applyPlannedSuccessorLinks_keeps
    (P := fun _ v => s.licenses.Agrees (fun l : License => l.toLicenseTerms) v.licenses)
    (fun _ _ v w hv _ _ _ hstep => by
      obtain ⟨successorId, _, predecessors, primary, hlink⟩ := applyPlannedTarget_ok hstep
      rw [hlink.result]
      have hplanned : v.licenses.Agrees (fun l : License => l.toLicenseTerms)
          (v.licenses.modify successorId (License.planned predecessors primary)) :=
        Table.Agrees.of_modify fun _ => rfl
      refine (hv.trans hplanned).trans (Table.Agrees.of_mapRows fun key l => ?_)
      unfold markRow
      split <;> rfl)
    (Table.Agrees.refl _ _) h
  exact .of_agrees hdone

theorem of_orderStatus (loaded : LoadedOrder) (statuses : List SourcingStatus) (s : Store)
    : TypedWork s (refreshOrderStatus loaded statuses s) := by
  unfold refreshOrderStatus
  dsimp only
  split_ifs <;> exact .of_licenses rfl

end TypedWork

-- What a renewal stores

/-- The type that a renewal gives a successor: the one of a maintenance record, else the one that
the form submits, else the line's, else the licence's.
-/
def successorType (form : ConversionForm) (submitted : List ConversionField) (item : SourcingItem)
    (old : LicenseTerms)
    : LicenseType :=
  if old.licenseType = .maintenance then .maintenance
  else fallback (submitted.contains .licenseType) form.licenseType
    [item.licenseType, some old.licenseType]

/-- A renewal whose successor expires and gets an opt-in field only where its type has one. -/
structure RenewsTyped (form : ConversionForm) (submitted : List ConversionField)
    (item : SourcingItem) (old : LicenseTerms)
    : Prop where
  expires : (successorType form submitted item old).isNonExpiring = false
  renewable : (successorType form submitted item old).isRenewalOptIn = true
    ∨ fallbackOption (submitted.contains .isRenewable) form.isRenewable
        [item.isRenewable, old.isRenewable] = none
  description : successorType form submitted item old = .other
    ∨ fallbackOption (submitted.contains .typeDescription) form.typeDescription
        [truthy item.typeDescription, truthy old.typeDescription] = none

/-- The columns of conversion data that the type determines. -/
def ConversionForm.typeFields (form : ConversionForm)
    : LicenseType × Option Bool × Option String :=
  (form.licenseType, form.isRenewable, form.typeDescription)

theorem buildPendingOrderItemLicenseData_typeFields (u : Unicode) (data : ConversionData)
    (submitted : List ConversionField) (item : SourcingItem) (old : Option License)
    (order : PendingOrder)
    : (buildPendingOrderItemLicenseData u data submitted item old order).typeFields
      = (completeFromLine data.toConversionForm submitted item old order).typeFields := by
  have hterm : ∀ form, (followSubmittedTerm u submitted form).typeFields = form.typeFields :=
      fun form => by
    unfold followSubmittedTerm
    split <;> rfl
  exact hterm (completeFromLine data.toConversionForm submitted item old order)

theorem enforceOrderSupplier_typeFields {u : Unicode} {form form' : ConversionForm}
    {submitted : List ConversionField} {orderSupplier : Option String} {detailPrefix : String}
    (h : enforceOrderSupplier u form submitted orderSupplier detailPrefix = .ok form')
    : form'.typeFields = form.typeFields := by
  unfold enforceOrderSupplier at h
  dsimp only at h
  split at h
  · obtain rfl := pure_eq_ok.mp h
    rfl
  · simp only [bind_eq_ok, pure_eq_ok] at h
    obtain ⟨_, -, rfl⟩ := h
    rfl

theorem sharedData_typeFields {u : Unicode} {p : PreparedConversion} {shared : ConversionData}
    (h : p.sharedData u = .ok shared)
    : shared.typeFields = p.form.typeFields := by
  simp only [PreparedConversion.sharedData, bind_eq_ok, pure_eq_ok] at h
  obtain ⟨form, hform, rfl⟩ := h
  have hsupplier := enforceOrderSupplier_typeFields hform
  exact hsupplier

theorem renewalTerms_typed {form complete : ConversionForm} {submitted : List ConversionField}
    {item : SourcingItem} {old : License} {order : PendingOrder} {d : ConversionData}
    (hrenews : RenewsTyped form submitted item old.toLicenseTerms)
    (hcomplete : complete.typeFields = form.typeFields)
    (hd : d.typeFields = (completeFromLine complete submitted item (some old) order).typeFields)
    : (renewalTerms old d).Typed := by
  simp only [ConversionForm.typeFields, Prod.mk.injEq] at hcomplete hd
  obtain ⟨htypeForm, hrenewableForm, hdescriptionForm⟩ := hcomplete
  obtain ⟨htype, hrenewable, hdescription⟩ := hd
  have hsuccessor : (renewalTerms old d).licenseType
      = successorType form submitted item old.toLicenseTerms := by
    have hstored : (renewalTerms old d).licenseType
        = if old.licenseType = .maintenance then .maintenance else d.licenseType := by
      unfold renewalTerms ConversionData.forPredecessor
      split <;> rfl
    rw [hstored, successorType, htype, ← htypeForm]
    rfl
  have hoptIn : (renewalTerms old d).isRenewable
      = fallbackOption (submitted.contains .isRenewable) form.isRenewable
        [item.isRenewable, old.isRenewable] := by
    have hstored : (renewalTerms old d).isRenewable = d.isRenewable := by
      unfold renewalTerms ConversionData.forPredecessor
      split <;> rfl
    rw [hstored, hrenewable, ← hrenewableForm]
    rfl
  have htext : (renewalTerms old d).typeDescription
      = fallbackOption (submitted.contains .typeDescription) form.typeDescription
        [truthy item.typeDescription, truthy old.typeDescription] := by
    have hstored : (renewalTerms old d).typeDescription = d.typeDescription := by
      unfold renewalTerms ConversionData.forPredecessor
      split <;> rfl
    rw [hstored, hdescription, ← hdescriptionForm]
    rfl
  have hexpires := hrenews.expires
  rw [← hsuccessor] at hexpires
  constructor
  · intro hnever
    rw [hexpires] at hnever
    cases hnever
  · intro hfree
    rw [hfree] at hexpires
    cases hexpires
  · intro hset
    rw [hsuccessor]
    exact hrenews.renewable.resolve_right fun hnone => hset (hoptIn.trans hnone)
  · intro hset
    rw [hsuccessor]
    exact hrenews.description.resolve_right fun hnone => hset (htext.trans hnone)

theorem purchaseTerms_typed (d : ConversionData) : (purchaseTerms d).Typed := by
  have htyped := normaliseLicenseTypeFields_typed d.toRow.toLicenseTerms
  exact ⟨htyped.endDate, htyped.prices, htyped.renewable, htyped.description⟩

-- Conversions

/-- The licence that a line renews is stored, and its renewal fits the type. -/
def LineRenewsTyped (s : Store) (form : ConversionForm) (submitted : List ConversionField)
    (item : SourcingItem)
    : Prop :=
  ∀ oldId, item.renewalForLicenseId = some oldId →
    ∃ old, s.license? oldId = some old ∧ RenewsTyped form submitted item old.toLicenseTerms

theorem LineRenewsTyped.mono {s t : Store} {form : ConversionForm}
    {submitted : List ConversionField} {item : SourcingItem}
    (h : LineRenewsTyped s form submitted item) (ht : TypedWork s t)
    : LineRenewsTyped t form submitted item := by
  intro oldId hrenewal
  obtain ⟨old, hold, hrenews⟩ := h oldId hrenewal
  obtain ⟨later, hlater, he⟩ := ht.kept oldId old hold
  exact ⟨later, hlater, he ▸ hrenews⟩

theorem renewedLicense_some {s : Store} {item : SourcingItem} {oldId : Nat}
    {detail : Nat → String} {old : Option License}
    (h : renewedLicense s item detail = .ok old) (hrenewal : item.renewalForLicenseId = some oldId)
    : old = s.license? oldId := by
  simp only [renewedLicense, hrenewal, bind_eq_ok, found_eq_ok, pure_eq_ok] at h
  obtain ⟨l, hl, rfl⟩ := h
  exact hl.symm

theorem TypedWork.of_line {env : Env} {itemId id : Nat} {item : SourcingItem}
    {created : List (Nat × Nat)} {d : ConversionData} {missing detailPrefix : String}
    {form complete : ConversionForm} {submitted : List ConversionField} {s t : Store}
    (order : PendingOrder)
    (h : createPreparedConversionLicense env itemId (some item) created d missing detailPrefix s
      = .ok (id, t))
    (hrenews : LineRenewsTyped s form submitted item)
    (hcomplete : complete.typeFields = form.typeFields)
    (hd : ∀ oldId, item.renewalForLicenseId = some oldId →
      d.typeFields
        = (completeFromLine complete submitted item (s.license? oldId) order).typeFields)
    : TypedWork s t := by
  obtain ⟨row, hmade, hterms, -⟩ := createPreparedConversionLicense_made h
  refine .of_made hmade ?_
  rcases hterms with hterms | ⟨line, oldId, old, hline, hrenewal, hold, hterms⟩
  · rw [hterms]
    exact purchaseTerms_typed d
  · obtain rfl := Option.some.inj hline
    obtain ⟨stored, hstored, hfits⟩ := hrenews oldId hrenewal
    obtain rfl := Option.some.inj (hold.symm.trans hstored)
    rw [hterms]
    exact renewalTerms_typed hfits hcomplete (hold ▸ hd oldId hrenewal)

theorem convertLine_typed {env : Env} {p : PreparedConversion} {shared : ConversionData}
    {entry : Nat × SourcingItem} {s t : Store} (hshared : p.sharedData env.unicode = .ok shared)
    (hrenews : LineRenewsTyped s p.form p.lineFields entry.2)
    (h : convertLine env p shared entry s = .ok t)
    : TypedWork s t := by
  obtain ⟨itemId, item⟩ := entry
  simp only [convertLine, bind_eq_ok] at h
  obtain ⟨old, hold, h⟩ := h
  have hcreate : ∃ id, createPreparedConversionLicense env itemId (some item) []
      { buildPendingOrderItemLicenseData env.unicode shared p.lineFields item old p.loaded.order with
        sourceSourcingItemId := some itemId }
      s!"License {item.renewalForLicenseId.getD 0} not found for renewal" "" s = .ok (id, t) := by
    split at h
    · obtain ⟨_, -, ⟨id, v⟩, hc, rfl⟩ := by simpa only [bind_eq_ok, pure_eq_ok] using h
      exact ⟨id, hc⟩
    · obtain ⟨⟨id, v⟩, hc, rfl⟩ := by simpa only [bind_eq_ok, pure_eq_ok] using h
      exact ⟨id, hc⟩
  obtain ⟨id, hcreate⟩ := hcreate
  refine TypedWork.of_line p.loaded.order hcreate hrenews
    (sharedData_typeFields hshared) fun oldId hrenewal => ?_
  rw [← renewedLicense_some hold hrenewal]
  exact buildPendingOrderItemLicenseData_typeFields _ _ _ _ _ _

theorem prepareConversion_form {u : Unicode} {orderId : Nat} {form : ConversionForm}
    {submitted : List ConversionField} {s : Store} {p : PreparedConversion}
    (h : prepareConversion u orderId form submitted s = .ok p)
    : p.form = form ∧ p.submitted = submitted := by
  simp only [prepareConversion, bind_eq_ok] at h
  obtain ⟨loaded, -, _, -, h⟩ := h
  split at h
  · obtain ⟨_, -, he⟩ := bind_eq_ok.mp h
    rw [← Except.ok.inj he]
    exact ⟨rfl, rfl⟩
  · rw [← Except.ok.inj h]
    exact ⟨rfl, rfl⟩

theorem commitConversion_typed {env : Env} {p : PreparedConversion} {s t : Store}
    (hrenews : ∀ entry ∈ p.loaded.items, LineRenewsTyped s p.form p.lineFields entry.2)
    (h : commitConversion env p s = .ok t)
    : TypedWork s t := by
  simp only [commitConversion, bind_eq_ok, flush_eq_ok] at h
  obtain ⟨s₀, hlock, shared, hshared, s₁, hlines, s₂, hmarks, s₃, hplanned, rfl, -⟩ := h
  obtain ⟨-, rfl⟩ := lockOpenPendingOrder_ok hlock
  have hlocked : TypedWork s { s with
      orders := s.orders.modify p.loaded.id
        (fun order => { order with notes := p.loaded.order.notes }) } := .of_licenses rfl
  have hlines : TypedWork s s₁ := by
    unfold convertLoadedLines at hlines
    split at hlines
    · simp only [bind_eq_ok, pure_eq_ok] at hlines
      obtain ⟨⟨id, v⟩, hcreate, rfl⟩ := hlines
      obtain ⟨row, hmade, hterms, -⟩ := createPreparedConversionLicense_made hcreate
      refine hlocked.trans (.of_made hmade ?_)
      rcases hterms with hterms | ⟨line, _, _, hline, -⟩
      · rw [hterms]
        exact purchaseTerms_typed shared
      · cases hline
    · -- Each line finds its licence as it was when the order was loaded.
      refine each_keeps (P := TypedWork s) (fun entry hentry v w hv hstep => ?_) hlocked hlines
      exact hv.trans (convertLine_typed hshared ((hrenews entry hentry).mono hv) hstep)
  have hmarks : TypedWork s₁ s₂ :=
    each_relates TypedWork.refl TypedWork.trans (fun _ _ _ _ hstep => .of_mark hstep) hmarks
  exact ((hlines.trans hmarks).trans (.of_planned hplanned)).trans (.of_orderStatus _ _ _)

/-- The postponed lines of a batch renew nothing. -/
def PostponesPurchases (p : PreparedBatch) (progress : BatchProgress) : Prop :=
  ∀ entry ∈ progress.postponed, ∀ item, p.loaded.item? entry.1 = some item →
    item.renewalForLicenseId = none

theorem convertBatchLine_typed {env : Env} {p : PreparedBatch} {line : BatchConvertItem}
    {progress progress' : BatchProgress}
    (hrenews : ∀ item, p.loaded.item? line.sourcingItemId = some item →
      LineRenewsTyped progress.store line.form line.submitted item)
    (hpostponed : PostponesPurchases p progress)
    (h : convertBatchLine env p line progress = .ok progress')
    : TypedWork progress.store progress'.store ∧ PostponesPurchases p progress' := by
  simp only [convertBatchLine, bind_eq_ok, found_eq_ok] at h
  obtain ⟨item, hitem, data, hprepare, h⟩ := h
  split at h
  · next hwaits =>
      obtain rfl := pure_eq_ok.mp h
      refine ⟨.refl _, fun entry hm other hother => ?_⟩
      rcases List.mem_append.mp hm with hm | hm
      · exact hpostponed entry hm other hother
      · obtain rfl := List.mem_singleton.mp hm
        obtain rfl := Option.some.inj (hitem.symm.trans hother)
        exact hwaits.1
  · simp only [bind_eq_ok, pure_eq_ok] at h
    obtain ⟨⟨id, v⟩, hcreate, w, hmark, rfl⟩ := h
    refine ⟨TypedWork.trans ?_ (.of_mark hmark), hpostponed⟩
    simp only [prepareBatchLine, bind_eq_ok, pure_eq_ok] at hprepare
    obtain ⟨form, hform, old, hold, _, -, rfl⟩ := hprepare
    refine TypedWork.of_line p.loaded.order hcreate (hrenews item hitem)
      (enforceOrderSupplier_typeFields hform) fun oldId hrenewal => ?_
    rw [← renewedLicense_some hold hrenewal]
    refine Eq.trans ?_ (buildPendingOrderItemLicenseData_typeFields env.unicode
      { toConversionForm := form } line.submitted item old p.loaded.order)
    split <;> rfl

theorem convertPostponedLine_typed {env : Env} {p : PreparedBatch} {line : Nat × ConversionData}
    {progress progress' : BatchProgress}
    (hfresh : ∀ item, p.loaded.item? line.1 = some item → item.renewalForLicenseId = none)
    (h : convertPostponedLine env p line progress = .ok progress')
    : TypedWork progress.store progress'.store := by
  simp only [convertPostponedLine, bind_eq_ok, found_eq_ok, pure_eq_ok] at h
  obtain ⟨item, hitem, ⟨id, v⟩, hcreate, w, hmark, rfl⟩ := h
  obtain ⟨row, hmade, hterms, -⟩ := createPreparedConversionLicense_made hcreate
  refine TypedWork.trans (.of_made hmade ?_) (.of_mark hmark)
  rcases hterms with hterms | ⟨other, oldId, _, hother, hrenewal, -⟩
  · rw [hterms]
    exact purchaseTerms_typed _
  · obtain rfl := Option.some.inj hother
    rw [hfresh item hitem] at hrenewal
    cases hrenewal

theorem commitBatch_typed {env : Env} {p : PreparedBatch} {s t : Store}
    (hrenews : ∀ line ∈ p.payload, ∀ item, p.loaded.item? line.sourcingItemId = some item →
      LineRenewsTyped s line.form line.submitted item)
    (h : commitBatch env p s = .ok t)
    : TypedWork s t := by
  simp only [commitBatch, bind_eq_ok, flush_eq_ok] at h
  obtain ⟨s₀, hlock, _, -, first, hfirst, second, hsecond, s₃, hplanned, rfl, -⟩ := h
  obtain ⟨-, rfl⟩ := lockOpenPendingOrder_ok hlock
  obtain ⟨hconverted, hpostponed⟩ : TypedWork s first.store ∧ PostponesPurchases p first := by
    refine each_keeps
      (P := fun progress => TypedWork s progress.store ∧ PostponesPurchases p progress)
      (fun line hline progress progress' hbefore hstep => ?_)
      ⟨.of_licenses rfl, fun _ hm => absurd hm List.not_mem_nil⟩ hfirst
    have hnow := fun item hitem => (hrenews line hline item hitem).mono hbefore.1
    obtain ⟨hwork, hlater⟩ := convertBatchLine_typed hnow hbefore.2 hstep
    exact ⟨hbefore.1.trans hwork, hlater⟩
  have hlast : TypedWork first.store second.store := by
    refine each_relates (R := fun a b : BatchProgress => TypedWork a.store b.store)
      (fun progress => .refl progress.store) TypedWork.trans
      (fun line hline _ _ hstep => convertPostponedLine_typed (hpostponed line ?_) hstep) hsecond
    exact (List.perm_insertionSort _ _).mem_iff.mp hline
  exact ((hconverted.trans hlast).trans (.of_planned hplanned)).trans (.of_orderStatus _ _ _)

theorem convertFreewareItem_typed {env : Env} {itemId : Nat} {s t : Store}
    (h : convertFreewareItem env itemId s = .ok t)
    : TypedWork s t := by
  simp only [convertFreewareItem, bind_eq_ok, require_eq_ok, found_eq_ok, pure_eq_ok] at h
  obtain ⟨item, -, _, -, _, -, _, -, _, -, ⟨licenseId, v⟩, hcreate, rfl⟩ := h
  obtain ⟨row, hmade, hterms, -⟩ := createPurchaseLicense_made hcreate
  have hmadeTyped : TypedWork s v := .of_made hmade (hterms ▸ purchaseTerms_typed _)
  exact hmadeTyped.trans (.of_agrees (Table.Agrees.of_modify fun _ => rfl))

theorem convertFreewareSourcingItems_typed {env : Env} {itemIds : List Nat} {s t : Store}
    (h : convertFreewareSourcingItems env itemIds s = .ok t)
    : TypedWork s t := by
  simp only [convertFreewareSourcingItems, bind_eq_ok, pure_eq_ok] at h
  obtain ⟨_, -, v, hitems, rfl⟩ := h
  have hlines : TypedWork s v := each_relates TypedWork.refl TypedWork.trans
    (fun _ _ _ _ hstep => convertFreewareItem_typed hstep) hitems
  have hstatuses : ∀ (ids : List Nat) (v : Store),
      (ids.foldl (fun s requestId => refreshSourcingRequestStatus requestId s) v).licenses
        = v.licenses := by
    intro ids
    induction ids with
    | nil => exact fun v => rfl
    | cons head rest ih =>
        intro v
        rw [List.foldl_cons, ih, (refreshSourcingRequestStatus_items head v).2]
  exact hlines.trans (.of_licenses (hstatuses _ v))

end LicenseTrack
