import LicenseTrack.Library.Runs
import LicenseTrack.Sourcing.Steps

/-! The requests that work on sourcing lines, sourcing requests and pending orders, and which of
them are quiet.
-/

namespace LicenseTrack

open Library

/-- A request that works on sourcing lines, with what its sender submits. -/
inductive SourcingAction
  | createItem (payload : SourcingItemCreate)
  | createRequest (payload : SourcingRequestCreate)
  | addLine (requestId : Nat) (payload : SourcingItemCreate)
  | initiateRenewal (calendar : Calendar) (licenseId : Nat)
  | startSupport (calendar : Calendar) (licenseId : Nat)
  | backfill
  | editItem (itemId : Nat) (edit : SourcingLineEdit)
  | editRequest (requestId : Nat) (edit : SourcingRequestUpdate)
  | setSuccessors (predecessorIds : List Nat) (successorId : Option Nat)
  | replacePredecessors (predecessorIds : List Nat) (successorId : Nat)
  | mergeItems (itemIds : List Nat) (columns : SourcingItem)
  | deleteItem (itemId : Nat)
  | deleteRequest (requestId : Nat)
  | cancelRequest (requestId : Nat)
  | cancelLicenseRenewal (licenseId : Nat)
  | convertItem (itemId : Nat) (target : ConversionTarget)
  | convertRequest (requestId : Nat) (target : ConversionTarget)
  | convertFreeItem (itemId : Nat)
  | convertFreeRequest (requestId : Nat)
  | createOrder (payload : PendingOrderCreate)
  | editOrder (orderId : Nat) (payload : PendingOrderUpdate)
  | addOrderLines (orderId : Nat) (lines : List SourcingItemCreate)
  | editOrderLine (orderId itemId : Nat) (payload : SourcingItemUpdate)
  | deleteOrderLine (orderId itemId : Nat)
  | deleteOrder (orderId : Nat)
  | cancelOrder (orderId : Nat)

/-- What a request commits, in its surroundings, or how it fails. -/
def SourcingAction.run : Env × SourcingAction → Store → Except Failure Store
  | (env, .createItem payload), s => createSourcingItem env payload s
  | (env, .createRequest payload), s => createSourcingRequest env payload s
  | (env, .addLine requestId payload), s => addSourcingRequestItem env requestId payload s
  | (env, .initiateRenewal calendar id), s => initiateLicenseRenewal env calendar id s
  | (env, .startSupport calendar id), s => startSupportRenewal env calendar id s
  | (env, .backfill), s => backfillMissingSourcingRequests env.unicode s
  | (env, .editItem itemId edit), s => updateSourcingItem env itemId edit s
  | (env, .editRequest requestId edit), s => applySourcingRequestWorkflowUpdate env requestId edit s
  | (env, .setSuccessors ids successorId), s => setPlannedSuccessors env.unicode ids successorId s
  | (env, .replacePredecessors ids successorId), s =>
      replacePlannedPredecessors env.unicode ids successorId s
  | (env, .mergeItems itemIds columns), s => mergeCotermSourcingItems env itemIds columns s
  | (_, .deleteItem itemId), s => deleteSourcingItem itemId s
  | (_, .deleteRequest requestId), s => deleteSourcingRequest requestId s
  | (_, .cancelRequest requestId), s => cancelSourcingRequest requestId s
  | (env, .cancelLicenseRenewal licenseId), s => cancelRenewal env licenseId s
  | (env, .convertItem itemId target), s => convertSourcingItem env itemId target s
  | (env, .convertRequest requestId target), s =>
      convertSourcingRequestWorkflow env requestId target s
  | (env, .convertFreeItem itemId), s => convertFreewareSourcingItem env itemId s
  | (env, .convertFreeRequest requestId), s => convertFreewareSourcingRequest env requestId s
  | (env, .createOrder payload), s => createPendingOrder env payload s
  | (env, .editOrder orderId payload), s => applyPendingOrderUpdate env orderId payload s
  | (env, .addOrderLines orderId lines), s => addPendingOrderItemsBulk env orderId lines s
  | (env, .editOrderLine orderId itemId payload), s =>
      updatePendingOrderItem env orderId itemId payload s
  | (_, .deleteOrderLine orderId itemId), s => deletePendingOrderItem orderId itemId s
  | (_, .deleteOrder orderId), s => deletePendingOrder orderId s
  | (_, .cancelOrder orderId), s => cancelPendingOrder orderId s

-- Quiet requests

theorem createSourcingItem_quiet {env : Env} {p : SourcingItemCreate} {s t : Store}
    (h : createSourcingItem env p s = .ok t)
    : QuietStep s t := by
  simp only [createSourcingItem, bind_eq_ok, require_eq_ok] at h
  obtain ⟨-, -, h⟩ := h
  exact addLineWithRequest_quiet h rfl

theorem insertResolved_quiet {u : Unicode} {item resolved : SourcingItem} {s v : Store}
    (h : resolveSourcingItemReferences u item s = .ok (resolved, v))
    (hsuccessor : item.successorSourcingItemId = none)
    : QuietStep s { v with items := v.items.insert resolved } := by
  refine (QuietStep.of_only (resolveSourcingItemReferences_ok h).1).trans
    (QuietStep.of_insertItem v ?_)
  simp only [resolveSourcingItemReferences, bind_eq_ok, require_eq_ok] at h
  obtain ⟨-, -, ⟨publisher, publisherId, w⟩, -, h⟩ := h
  split at h
  · obtain ⟨rfl, -⟩ := Prod.mk.inj (pure_eq_ok.mp h)
    exact hsuccessor
  · simp only [bind_eq_ok, pure_eq_ok, Prod.mk.injEq] at h
    obtain ⟨⟨name, id, x⟩, -, rfl, -⟩ := h
    exact hsuccessor

theorem addRequestItem_quiet {u : Unicode} {item : SourcingItem} {itemId : Nat} {s t : Store}
    (h : addRequestItem u item s = .ok (itemId, t)) (hsuccessor : item.successorSourcingItemId = none)
    : QuietStep s t := by
  simp only [addRequestItem, bind_eq_ok, pure_eq_ok, Prod.mk.injEq] at h
  obtain ⟨⟨resolved, v⟩, hresolved, -, rfl⟩ := h
  exact insertResolved_quiet hresolved hsuccessor

theorem adoptIdentity_only {u : Unicode} {entry : SourcingRequestLine} {draft draft' : RequestDraft}
    (h : adoptIdentity u entry draft = .ok draft')
    : OnlyReferences draft.store draft'.store := by
  unfold adoptIdentity at h
  split at h
  · obtain rfl := pure_eq_ok.mp h
    exact .refl _
  · simp only [bind_eq_ok, pure_eq_ok] at h
    obtain ⟨⟨supplier, v⟩, hsupplier, -, -, -, -, rfl⟩ := h
    exact resolveSupplierCandidate_only hsupplier

theorem lineRequest_quiet {u : Unicode} {notes : Option String} {requestId targetId : Nat}
    {request target : SourcingRequest} {entry : SourcingRequestLine} {s t : Store}
    (h : lineRequest u notes requestId request entry s = .ok (targetId, target, t))
    : QuietStep s t := by
  unfold lineRequest at h
  split at h
  · simp only [pure_eq_ok, Prod.mk.injEq] at h
    obtain ⟨-, -, rfl⟩ := h
    exact .refl _
  · simp only [bind_eq_ok] at h
    obtain ⟨⟨resolved, v⟩, hresolved, h⟩ := h
    have hv := QuietStep.of_only (resolveSupplierCandidate_only hresolved)
    dsimp only at h
    generalize (if resolved.2.isNone = true then (request.supplier, request.supplierId)
      else resolved) = supplier at h
    split at h
    · simp only [pure_eq_ok, Prod.mk.injEq] at h
      obtain ⟨-, -, rfl⟩ := h
      exact hv.trans (QuietStep.of_insertRequest v SourcingStatus.noConfusion)
    · simp only [bind_eq_ok, pure_eq_ok, Prod.mk.injEq] at h
      obtain ⟨-, -, -, -, rfl⟩ := h
      exact hv

theorem createSourcingRequest_quiet {env : Env} {p : SourcingRequestCreate} {s t : Store}
    (h : createSourcingRequest env p s = .ok t)
    : QuietStep s t := by
  simp only [createSourcingRequest, bind_eq_ok, pure_eq_ok] at h
  obtain ⟨-, -, -, -, ⟨supplier, v⟩, hsupplier, draft, hdraft, ⟨made, w⟩, hlines, rfl⟩ := h
  have hadopted : OnlyReferences v draft.store :=
    each_relates (R := fun a b : RequestDraft => OnlyReferences a.store b.store)
      (fun a => .refl a.store) (fun h₁ h₂ => h₁.trans h₂)
      (fun _ _ _ _ hstep => adoptIdentity_only hstep) hdraft
  have hmade := each_relates (R := fun a b : List Nat × Store => QuietStep a.2 b.2)
    (fun a => .refl a.2) (fun h₁ h₂ => h₁.trans h₂)
    (fun entry _ a b hstep => by
      simp only [createRequestLine, bind_eq_ok, pure_eq_ok] at hstep
      obtain ⟨-, -, ⟨targetId, target, x⟩, htarget, ⟨itemId, y⟩, hitem, rfl⟩ := hstep
      exact (lineRequest_quiet htarget).trans (addRequestItem_quiet hitem rfl)) hlines
  exact (((QuietStep.of_only (resolveSupplierCandidate_only hsupplier)).trans
    (QuietStep.of_only hadopted)).trans
    (QuietStep.of_insertRequest draft.store SourcingStatus.noConfusion)).trans hmade

theorem addSourcingRequestItem_quiet {env : Env} {requestId : Nat} {p : SourcingItemCreate}
    {s t : Store} (h : addSourcingRequestItem env requestId p s = .ok t)
    : ∃ v, QuietStep s v ∧ (t = v ∨ ∃ itemId,
        setPlannedSuccessors env.unicode p.successorOfItemIds (some itemId) v = .ok t) := by
  simp only [addSourcingRequestItem, bind_eq_ok, found_eq_ok] at h
  obtain ⟨_, -, _, -, v, hresolve, ⟨proposed, w⟩, hproposed, request, -, _, -, _, -, request', -,
    ⟨itemId, x⟩, hadded, h⟩ := h
  have hw : QuietStep s w := (QuietStep.of_standing (resolveRequestSupplier_standing hresolve)).trans
    (.of_only (resolveSupplierCandidate_only hproposed))
  have hx : QuietStep s x := by
    refine QuietStep.trans (t := _) ?_ (addRequestItem_quiet hadded rfl)
    split
    · exact hw.trans (.of_standing (synchronizeRequestIdentity_standing _ _ _ _ _))
    · split
      · exact hw.trans (.of_standing (synchronizeRequestIdentity_standing _ _ _ _ _))
      · exact hw
  refine ⟨x, hx, ?_⟩
  split at h
  · exact .inl (pure_eq_ok.mp h).symm
  · simp only [bind_eq_ok] at h
    obtain ⟨_, -, h⟩ := h
    exact .inr ⟨itemId, h⟩

theorem initiateLicenseRenewal_quiet {env : Env} {calendar : Calendar} {id : Nat} {s t : Store}
    (h : initiateLicenseRenewal env calendar id s = .ok t)
    : QuietStep s t := by
  simp only [initiateLicenseRenewal, reserveRenewalTransition, buildRenewalSourcingItem,
    bind_eq_ok, pure_eq_ok, flush_eq_ok] at h
  obtain ⟨_, -, _, -, v, ⟨_, -, rfl⟩, item, ⟨_, -, rfl⟩, w, hadded, rfl, -⟩ := h
  refine QuietStep.trans ?_ (addLineWithRequest_quiet hadded rfl)
  exact .of_eq rfl rfl

theorem startSupportRenewal_quiet {env : Env} {calendar : Calendar} {id : Nat} {s t : Store}
    (h : startSupportRenewal env calendar id s = .ok t)
    : QuietStep s t := by
  simp only [startSupportRenewal, bind_eq_ok, flush_eq_ok] at h
  obtain ⟨_, -, _, -, _, -, _, -, _, -, _, -, v, hadded, rfl, -⟩ := h
  exact addLineWithRequest_quiet hadded rfl

theorem addPendingOrderItemsBulk_quiet {env : Env} {orderId : Nat} {lines : List SourcingItemCreate}
    {s t : Store} (h : addPendingOrderItemsBulk env orderId lines s = .ok t)
    : QuietStep s t := by
  simp only [addPendingOrderItemsBulk, bind_eq_ok, pure_eq_ok] at h
  obtain ⟨-, -, -, -, v, hlines, rfl⟩ := h
  refine QuietStep.trans (QuietStep.of_each (fun line _ a b hstep => ?_) hlines)
    (.of_standing (syncOrderLines_standing _ _ _))
  simp only [addPendingOrderItem, buildPendingOrderItem, bind_eq_ok, pure_eq_ok] at hstep
  obtain ⟨-, -, item, ⟨-, -, rfl⟩, ⟨resolved, w⟩, hresolved, rfl⟩ := hstep
  exact insertResolved_quiet hresolved rfl

theorem createPendingOrder_quiet {env : Env} {p : PendingOrderCreate} {s t : Store}
    (h : createPendingOrder env p s = .ok t)
    : QuietStep s t := by
  simp only [createPendingOrder, bind_eq_ok] at h
  obtain ⟨⟨⟨supplier, supplierId⟩, v⟩, hsupplier, h⟩ := h
  have hv := QuietStep.of_only (resolveSupplierColumns_only hsupplier)
  split at h
  · obtain rfl := pure_eq_ok.mp h
    exact hv.trans (.of_eq rfl rfl)
  · refine hv.trans (QuietStep.trans ?_ (addPendingOrderItemsBulk_quiet h))
    exact .of_eq rfl rfl

theorem applyPendingOrderUpdate_quiet {env : Env} {orderId : Nat} {p : PendingOrderUpdate}
    {s t : Store} (h : applyPendingOrderUpdate env orderId p s = .ok t)
    : QuietStep s t := by
  simp only [applyPendingOrderUpdate, bind_eq_ok, pure_eq_ok] at h
  obtain ⟨-, -, -, -, ⟨supplier, v⟩, hsupplier, -, -, -, -, rfl⟩ := h
  have hv := QuietStep.of_only (resolveSupplierColumns_only hsupplier)
  have hwritten : ∀ w : Store, QuietStep v w
      → QuietStep s (if p.poNumber.isSome then syncOrderLines env.unicode orderId w else w) := by
    intro w hw
    split
    · exact (hv.trans hw).trans (.of_standing (syncOrderLines_standing _ _ _))
    · exact hv.trans hw
  refine hwritten _ ?_
  split
  · next email _ =>
    refine QuietStep.of_rows (f := fun _ item =>
      if item.pendingOrderId = some orderId ∧ item.status ≠ .cancelled then
        { item with contactEmail := cleanProcurementIdentity email }
      else item) rfl rfl fun _ item _ => ?_
    split <;> exact ⟨rfl, rfl, rfl, rfl, fun _ => ⟨rfl, rfl⟩⟩
  · exact .of_eq rfl rfl

theorem clearPendingRenewalIfNoOpenSourcing_quiet (id : Nat) (s : Store)
    : QuietStep s (clearPendingRenewalIfNoOpenSourcing id s) := by
  unfold clearPendingRenewalIfNoOpenSourcing
  dsimp only
  split <;> exact .of_eq rfl rfl

theorem backfillMissingSourcingRequests_quiet {u : Unicode} {s t : Store}
    (h : backfillMissingSourcingRequests u s = .ok t)
    : QuietStep s t := by
  unfold backfillMissingSourcingRequests at h
  have hmissing : ∀ id ∈ s.items.select (fun _ item => item.sourcingRequestId.isNone),
      ∃ item, s.items.get? id = some item ∧ item.sourcingRequestId = none := fun id hid => by
    obtain ⟨item, hitem, hnone⟩ := Table.mem_select.mp hid
    exact ⟨item, hitem, Option.isNone_iff_eq_none.mp hnone⟩
  have hnodup : (s.items.select (fun _ item => item.sourcingRequestId.isNone)).Nodup :=
    (Table.keys_increase _).imp Nat.ne_of_lt
  generalize s.items.select (fun _ item => item.sourcingRequestId.isNone) = ids at h hmissing hnodup
  induction ids generalizing s with
  | nil =>
      obtain rfl : s = t := by simpa [each] using h
      exact .refl s
  | cons head rest ih =>
      obtain ⟨v, hv, ht⟩ := bind_eq_ok.mp h
      simp only [bind_eq_ok, found_eq_ok, pure_eq_ok] at hv
      obtain ⟨item, hitem, ⟨requestId, w⟩, hensure, rfl⟩ := hv
      have hensured := ensureSourcingRequestForItem_ok hensure hitem
      obtain ⟨other, hother, hnone⟩ := hmissing head List.mem_cons_self
      obtain rfl := Option.some.inj (hitem.symm.trans hother)
      obtain ⟨hhead, hnodup⟩ := List.nodup_cons.mp hnodup
      refine (hensured.quiet hitem hnone).trans (ih ht (fun id hid => ?_) hnodup)
      obtain ⟨row, hrow, hrowNone⟩ := hmissing id (List.mem_cons_of_mem _ hid)
      exact ⟨row, (hensured.others id (fun he => hhead (he ▸ hid))).trans hrow, hrowNone⟩

end LicenseTrack
