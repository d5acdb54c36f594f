import LicenseTrack.Retirement.UnderRenewalRuns
import LicenseTrack.Sourcing.Runs

/-! When a sourcing request is called converted: over every run, as long as no step takes away the
last converted line of a request that is closed, or closes a request without one.
-/

namespace LicenseTrack

open Library

/-- Every request that is called converted has a converted line. -/
def ConvertedHaveLines (s : Store) : Prop :=
  ∀ requestId request, s.requests.get? requestId = some request → request.status = .converted
    → s.hasLine requestId .converted = true

namespace ConvertedHaveLines

variable {s t : Store}

theorem step (h : ConvertedHaveLines s)
    (requests : ∀ requestId request', t.requests.get? requestId = some request'
      → request'.status = .converted
      → (∃ request, s.requests.get? requestId = some request ∧ request.status = .converted)
        ∨ t.hasLine requestId .converted = true)
    (lines : ∀ requestId request, s.requests.get? requestId = some request
      → request.status = .converted → (t.requests.get? requestId).any (·.status == .converted) = true
      → s.hasLine requestId .converted = true → t.hasLine requestId .converted = true)
    : ConvertedHaveLines t := by
  intro requestId request' hrequest' hconverted
  rcases requests requestId request' hrequest' hconverted with ⟨request, hrequest, hstatus⟩ | hline
  · refine lines requestId request hrequest hstatus ?_ (h requestId request hrequest hstatus)
    rw [hrequest', Option.any_some, hconverted]
    rfl
  · exact hline

theorem of_quiet (h : ConvertedHaveLines s) (hquiet : QuietStep s t) : ConvertedHaveLines t := by
  refine h.step (fun requestId request' hrequest' hconverted => ?_)
    fun _ _ _ _ _ hline => hquiet.hasLine hline
  rcases hquiet.requests requestId request' hrequest' with ⟨request, hrequest, hstatus⟩ | hline
  · exact .inl ⟨request, hrequest, hstatus ▸ hconverted⟩
  · exact .inr (hline hconverted)

theorem of_lines (h : ConvertedHaveLines s) (hrequests : t.requests = s.requests)
    (hlines : ∀ id item, s.items.get? id = some item → item.status = .converted
      → ∃ item', t.items.get? id = some item' ∧ item'.status = .converted
        ∧ item'.sourcingRequestId = item.sourcingRequestId)
    : ConvertedHaveLines t := by
  refine h.step (fun requestId request' hrequest' hconverted =>
    .inl ⟨request', hrequests ▸ hrequest', hconverted⟩) fun requestId _ _ _ _ hline => ?_
  obtain ⟨id, item, hitem, hrequest, hstatus⟩ := hasLine_iff.mp hline
  obtain ⟨item', hitem', hstatus', hrequest'⟩ := hlines id item hitem hstatus
  exact hasLine_iff.mpr ⟨id, item', hitem', hrequest'.trans hrequest, hstatus'⟩

theorem of_mapItems (h : ConvertedHaveLines s) {f : Nat → SourcingItem → SourcingItem}
    (hitems : t.items = s.items.mapRows f) (hrequests : t.requests = s.requests)
    (hrow : ∀ id item, s.items.get? id = some item → item.status = .converted
      → (f id item).status = .converted ∧ (f id item).sourcingRequestId = item.sourcingRequestId)
    : ConvertedHaveLines t := by
  refine h.of_lines hrequests fun id item hitem hstatus => ?_
  exact ⟨f id item, by simp [hitems, hitem], hrow id item hitem hstatus⟩

theorem of_refresh (h : ConvertedHaveLines s) {requestId : Nat}
    (hline : s.hasLine requestId .sourcing = true ∨ s.hasLine requestId .converted = true)
    : ConvertedHaveLines (refreshSourcingRequestStatus requestId s) := by
  rw [refreshSourcingRequestStatus_eq]
  split
  · exact h
  · next hopen =>
      have hconverted := hline.resolve_left hopen
      intro key request hrequest hstatus
      rw [Store.modifyRequest, Table.get?_modify] at hrequest
      obtain ⟨old, hold, rfl⟩ := Option.map_eq_some_iff.mp hrequest
      by_cases hkey : key = requestId
      · subst hkey
        exact hconverted
      · rw [if_neg hkey] at hstatus
        exact h key old hold hstatus

end ConvertedHaveLines

-- Edits and plans

/-- The rows after a plan: the predecessors name their next term. -/
def planTerm (predecessorIds : List Nat) (successorId : Option Nat) (id : Nat) (item : SourcingItem)
    : SourcingItem :=
  if predecessorIds.contains id then { item with successorSourcingItemId := successorId } else item

theorem setPlannedSuccessors_ok {u : Unicode} {predecessorIds : List Nat} {successorId : Option Nat}
    {s t : Store} (h : setPlannedSuccessors u predecessorIds successorId s = .ok t)
    : t = { s with items := s.items.mapRows (planTerm predecessorIds successorId) } := by
  simp only [setPlannedSuccessors, bind_eq_ok, pure_eq_ok] at h
  obtain ⟨-, -, -, -, -, -, -, -, -, -, -, -, -, -, -, -, -, -, -, -, -, -, -, -, rfl⟩ := h
  rfl

theorem setPlannedSuccessors_converted {u : Unicode} {predecessorIds : List Nat}
    {successorId : Option Nat} {s t : Store} (hs : ConvertedHaveLines s)
    (h : setPlannedSuccessors u predecessorIds successorId s = .ok t)
    : ConvertedHaveLines t := by
  obtain rfl := setPlannedSuccessors_ok h
  refine hs.of_mapItems (f := planTerm predecessorIds successorId) rfl rfl
    fun id item _ hstatus => ?_
  unfold planTerm
  split <;> exact ⟨hstatus, rfl⟩

theorem replacePlannedPredecessors_ok {u : Unicode} {predecessorIds : List Nat} {successorId : Nat}
    {s t : Store} (h : replacePlannedPredecessors u predecessorIds successorId s = .ok t)
    : ∃ v, (v = s ∨ ∃ removed, setPlannedSuccessors u removed none s = .ok v)
      ∧ (t = v ∨ setPlannedSuccessors u predecessorIds (some successorId) v = .ok t) := by
  have hlast : ∀ v, (if predecessorIds = [] then pure v
        else setPlannedSuccessors u predecessorIds (some successorId) v) = Except.ok t
      → t = v ∨ setPlannedSuccessors u predecessorIds (some successorId) v = .ok t := by
    intro v hv
    split at hv
    · exact .inl (pure_eq_ok.mp hv).symm
    · exact .inr hv
  simp only [replacePlannedPredecessors, bind_eq_ok] at h
  obtain ⟨-, -, -, -, h⟩ := h
  split at h
  · exact ⟨s, .inl rfl, hlast s h⟩
  · obtain ⟨v, hv, h⟩ := bind_eq_ok.mp h
    exact ⟨v, .inr ⟨_, hv⟩, hlast v h⟩

theorem replacePlannedPredecessors_converted {u : Unicode} {predecessorIds : List Nat}
    {successorId : Nat} {s t : Store} (hs : ConvertedHaveLines s)
    (h : replacePlannedPredecessors u predecessorIds successorId s = .ok t)
    : ConvertedHaveLines t := by
  obtain ⟨v, hv, h⟩ := replacePlannedPredecessors_ok h
  have hvs : ConvertedHaveLines v := by
    rcases hv with rfl | ⟨removed, hv⟩
    · exact hs
    · exact setPlannedSuccessors_converted hs hv
  rcases h with rfl | h
  · exact hvs
  · exact setPlannedSuccessors_converted hvs h

theorem assertSourcingItemEditable_ok {s : Store} {item : SourcingItem} {r : PUnit}
    (h : assertSourcingItemEditable s item = .ok r)
    : item.status = .sourcing ∧ item.pendingOrderId = none := by
  simp only [assertSourcingItemEditable, bind_eq_ok, require_eq_ok] at h
  obtain ⟨-, hconverted, -, hcancelled, -⟩ := h
  push Not at hconverted
  refine ⟨?_, hconverted.2⟩
  cases hstatus : item.status
  · rfl
  · exact absurd hstatus hconverted.1
  · exact absurd hstatus hcancelled

theorem applySourcingItemUpdate_ok {u : Unicode} {itemId : Nat} {item : SourcingItem}
    {requestId : Option Nat} {p : SourcingLineEdit} {s t : Store}
    (h : applySourcingItemUpdate u itemId item requestId p s = .ok t)
    : ∃ publisher v, KeepsStanding s v
      ∧ publisher.1 = (p.columns.publisherName.map (publisherNamed u s)).getD item.publisherName
      ∧ KeepsStanding (v.modifyItem itemId (p.writeRow publisher)) t
      ∧ KeepsNames s t := by
  simp only [applySourcingItemUpdate, bind_eq_ok] at h
  obtain ⟨⟨publisher, v⟩, hpublisher, w, hrequest, ⟨supplier, x⟩, hsupplier, -, -, h⟩ := h
  have hv : OnlyReferences s v ∧ KeepsNames s v
      ∧ publisher.1 = (p.columns.publisherName.map (publisherNamed u s)).getD item.publisherName := by
    unfold SourcingLineEdit.resolvePublisher at hpublisher
    split at hpublisher
    · next hnone =>
        obtain ⟨rfl, rfl⟩ := Prod.mk.inj (Except.ok.inj hpublisher)
        exact ⟨.refl _, .refl _, by rw [hnone]; rfl⟩
    · next name hname =>
        simp only [bind_eq_ok, pure_eq_ok, Prod.mk.injEq] at hpublisher
        obtain ⟨-, -, ⟨resolved, id, y⟩, hr, rfl, rfl⟩ := hpublisher
        obtain ⟨hresolved, hnames⟩ := resolveOrganization_named hr
        exact ⟨resolveOrganization_only hr, hnames, by rw [hname]; exact hresolved⟩
  have hw : KeepsStanding v w ∧ KeepsNames v w := by
    rcases requestId with _ | requestId
    · obtain rfl := Except.ok.inj hrequest
      exact ⟨.refl _, .refl _⟩
    · exact ⟨resolveRequestSupplier_standing hrequest, resolveRequestSupplier_names hrequest⟩
  have hnames := (hv.2.1.trans hw.2).trans (resolveSupplierColumns_names hsupplier)
  refine ⟨publisher, x, (hv.1.keepsStanding.trans hw.1).trans
    (resolveSupplierColumns_only hsupplier).keepsStanding, hv.2.2, ?_⟩
  split at h
  · obtain rfl := pure_eq_ok.mp h
    refine ⟨synchronizeRequestIdentity_standing _ _ _ _ _, hnames.trans (KeepsNames.trans ?_
      (synchronizeRequestIdentity_names _ _ _ _ _))⟩
    exact .of_eq rfl rfl
  · obtain rfl := pure_eq_ok.mp h
    refine ⟨KeepsStanding.of_modifyItem _ itemId fun _ => rfl, hnames.trans ?_⟩
    exact .of_eq rfl rfl

theorem applySourcingItemUpdate_converted {u : Unicode} {itemId : Nat} {item : SourcingItem}
    {requestId : Option Nat} {p : SourcingLineEdit} {s t : Store} (hs : ConvertedHaveLines s)
    (h : applySourcingItemUpdate u itemId item requestId p s = .ok t)
    (hline : p.status = none
      ∨ ∀ row, s.items.get? itemId = some row → row.status ≠ .converted)
    : ConvertedHaveLines t := by
  obtain ⟨publisher, v, hv, -, hwritten, -⟩ := applySourcingItemUpdate_ok h
  have hvs := hs.of_quiet (.of_standing hv)
  have hmodified : ConvertedHaveLines (v.modifyItem itemId (p.writeRow publisher)) := by
    refine hvs.of_mapItems (f := fun id item => if id = itemId then p.writeRow publisher item else item)
      rfl rfl fun id row hrow hstatus => ?_
    split
    · next he =>
        subst he
        rcases hline with hnone | hopen
        · refine ⟨?_, rfl⟩
          simp only [SourcingLineEdit.writeRow, hnone, Option.getD_none]
          exact hstatus
        · obtain ⟨old, hold, hstanding⟩ := hv.lines.back hrow
          have hsame : row.status = old.status := congrArg (·.status) hstanding
          exact absurd (hsame ▸ hstatus) (hopen old hold)
    · exact ⟨hstatus, rfl⟩
  exact hmodified.of_quiet (.of_standing hwritten)

theorem updateSourcingItem_converted {env : Env} {itemId : Nat} {p : SourcingLineEdit} {s t : Store}
    (hs : ConvertedHaveLines s) (h : updateSourcingItem env itemId p s = .ok t)
    : ConvertedHaveLines t := by
  simp only [updateSourcingItem, bind_eq_ok, found_eq_ok] at h
  obtain ⟨item, hitem, _, heditable, -, -, h⟩ := h
  refine applySourcingItemUpdate_converted hs h (.inr fun row hrow hstatus => ?_)
  obtain rfl := Option.some.inj (hitem.symm.trans hrow)
  rw [(assertSourcingItemEditable_ok heditable).1] at hstatus
  cases hstatus

theorem applySourcingRequestUpdate_ok {u : Unicode} {requestId : Nat}
    {p : SourcingRequestUpdate} {s t : Store}
    (h : applySourcingRequestUpdate u requestId p s = .ok t)
    : KeepsStanding s t ∧ KeepsNames s t := by
  simp only [applySourcingRequestUpdate, bind_eq_ok, pure_eq_ok] at h
  obtain ⟨v, hv, ⟨supplier, w⟩, hsupplier, rfl⟩ := h
  have hnotes := KeepsStanding.of_modifyRequest
    (f := fun r => { r with notes := p.notes.getD r.notes }) s requestId fun _ => rfl
  refine ⟨((hnotes.trans (resolveRequestSupplier_standing hv)).trans
    (resolveSupplierColumns_only hsupplier).keepsStanding).trans
    (synchronizeRequestIdentity_standing _ _ _ _ _), KeepsNames.trans ?_
    (((resolveRequestSupplier_names hv).trans (resolveSupplierColumns_names hsupplier)).trans
      (synchronizeRequestIdentity_names _ _ _ _ _))⟩
  exact .of_eq rfl rfl

theorem applySourcingRequestWorkflowUpdate_converted {env : Env} {requestId : Nat}
    {p : SourcingRequestUpdate} {s t : Store} (hs : ConvertedHaveLines s)
    (h : applySourcingRequestWorkflowUpdate env requestId p s = .ok t)
    : ConvertedHaveLines t := by
  simp only [applySourcingRequestWorkflowUpdate, bind_eq_ok] at h
  obtain ⟨-, -, -, -, -, -, -, -, v, hv, h⟩ := h
  refine each_keeps (P := ConvertedHaveLines) (fun edit _ a b ha hstep => ?_)
    (hs.of_quiet (.of_standing (applySourcingRequestUpdate_ok hv).1)) h
  simp only [applyRequestLineUpdate, bind_eq_ok] at hstep
  obtain ⟨item, -, hstep⟩ := hstep
  exact applySourcingItemUpdate_converted ha hstep (.inl rfl)

theorem updatePendingOrderItem_converted {env : Env} {orderId itemId : Nat}
    {p : SourcingItemUpdate} {s t : Store} (hs : ConvertedHaveLines s)
    (h : updatePendingOrderItem env orderId itemId p s = .ok t)
    : ConvertedHaveLines t := by
  simp only [updatePendingOrderItem, bind_eq_ok, pure_eq_ok] at h
  obtain ⟨loaded, -, item, -, -, -, ⟨resolved, v⟩, hresolved, -, -, rfl⟩ := h
  have hv : OnlyReferences s v := by
    simp only [SourcingItemUpdate.resolve] at hresolved
    split at hresolved
    · exact (resolveSourcingItemReferences_ok hresolved).1
    · obtain ⟨-, rfl⟩ := Prod.mk.inj (Except.ok.inj hresolved)
      exact .refl s
  refine (hs.of_quiet (.of_only hv)).of_mapItems
    (f := fun id item => if id = itemId then p.writeRow resolved item else item) rfl rfl
    fun id row _ hstatus => ?_
  split <;> exact ⟨hstatus, rfl⟩

-- Deletions and cancellations

theorem deleteItems_row {s : Store} {gone : Nat → SourcingItem → Bool} {id : Nat}
    {item : SourcingItem} (hitem : s.items.get? id = some item) (hkept : gone id item = false)
    : ∃ item', (s.deleteItems gone).items.get? id = some item' ∧ item'.status = item.status
      ∧ item'.sourcingRequestId = item.sourcingRequestId := by
  simp only [Store.deleteItems, Table.get?_mapRows, Table.get?_filter, hitem]
  rw [Option.filter_some, if_pos (by rw [hkept]; rfl)]
  exact ⟨_, rfl, rfl, rfl⟩

theorem ConvertedHaveLines.of_deleteItems {s : Store} {gone : Nat → SourcingItem → Bool}
    (h : ConvertedHaveLines s)
    (hgone : ∀ id item, s.items.get? id = some item → item.status = .converted
      → gone id item = false)
    : ConvertedHaveLines (s.deleteItems gone) := by
  refine h.of_lines rfl fun id item hitem hstatus => ?_
  obtain ⟨item', hitem', hstatus', hrequest'⟩ := deleteItems_row hitem (hgone id item hitem hstatus)
  exact ⟨item', hitem', hstatus'.trans hstatus, hrequest'⟩

theorem clearRenewals_quiet (ids : List Nat) (s : Store)
    : QuietStep s (ids.foldl (fun s id => clearPendingRenewalIfNoOpenSourcing id s) s) :=
  QuietStep.foldl (fun s id => clearPendingRenewalIfNoOpenSourcing_quiet id s) ids s

theorem deleteSourcingItem_converted {itemId : Nat} {s t : Store} (hs : ConvertedHaveLines s)
    (h : deleteSourcingItem itemId s = .ok t)
    : ConvertedHaveLines t := by
  simp only [deleteSourcingItem, bind_eq_ok, found_eq_ok] at h
  obtain ⟨item, hitem, _, heditable, -, -, h⟩ := h
  have hdeleted : ConvertedHaveLines (s.deleteItems (fun id _ => id == itemId)) := by
    refine hs.of_deleteItems fun id row hrow hstatus => ?_
    by_contra hid
    rw [Bool.not_eq_false, beq_iff_eq] at hid
    subst hid
    obtain rfl := Option.some.inj (hitem.symm.trans hrow)
    rw [(assertSourcingItemEditable_ok heditable).1] at hstatus
    cases hstatus
  have hcleared := hdeleted.of_quiet (clearRenewals_quiet item.predecessorIds _)
  split at h
  · obtain rfl := pure_eq_ok.mp h
    split
    · next hline => exact hcleared.of_refresh (.inr hline)
    · exact hcleared
  · obtain rfl := pure_eq_ok.mp h
    exact hcleared

theorem deleteSourcingRequest_converted {requestId : Nat} {s t : Store}
    (hs : ConvertedHaveLines s) (h : deleteSourcingRequest requestId s = .ok t)
    : ConvertedHaveLines t := by
  simp only [deleteSourcingRequest, bind_eq_ok, require_eq_ok, pure_eq_ok] at h
  obtain ⟨-, -, -, -, -, hnone, rfl⟩ := h
  refine ConvertedHaveLines.of_quiet ?_ (clearRenewals_quiet _ _)
  have hdeleted : ConvertedHaveLines
      (s.deleteItems (fun _ item => item.sourcingRequestId == some requestId)) := by
    refine hs.of_deleteItems fun id row hrow hstatus => ?_
    by_contra hin
    rw [Bool.not_eq_false, beq_iff_eq] at hin
    rw [hasLine_iff.mpr ⟨id, row, hrow, hin, hstatus⟩] at hnone
    cases hnone
  intro key request hrequest hstatus
  rw [Table.get?_filter] at hrequest
  exact hdeleted key request (Option.filter_eq_some_iff.mp hrequest).1 hstatus

theorem cancelSourcingRequest_converted {requestId : Nat} {s t : Store}
    (hs : ConvertedHaveLines s) (h : cancelSourcingRequest requestId s = .ok t)
    : ConvertedHaveLines t := by
  simp only [cancelSourcingRequest, bind_eq_ok, pure_eq_ok] at h
  obtain ⟨-, -, -, -, rfl⟩ := h
  refine ConvertedHaveLines.of_quiet ?_ (clearRenewals_quiet _ _)
  have hclosed : ConvertedHaveLines (s.modifyRequest requestId (fun r =>
      { r with status := .cancelled })) := by
    intro key request hrequest hstatus
    rw [Store.modifyRequest, Table.get?_modify] at hrequest
    obtain ⟨old, hold, rfl⟩ := Option.map_eq_some_iff.mp hrequest
    split at hstatus
    · cases hstatus
    · exact hs key old hold hstatus
  refine hclosed.of_mapItems (f := fun _ item =>
    if item.sourcingRequestId = some requestId ∧ item.status = .sourcing then
      { item with status := .cancelled }
    else item) rfl rfl fun id item _ hstatus => ?_
  rw [if_neg (by rw [hstatus]; rintro ⟨-, ⟨⟩⟩)]
  exact ⟨hstatus, rfl⟩

theorem deletePendingOrder_converted {orderId : Nat} {s t : Store} (hs : ConvertedHaveLines s)
    (h : deletePendingOrder orderId s = .ok t)
    : ConvertedHaveLines t := by
  simp only [deletePendingOrder, getPendingOrder, bind_eq_ok, pure_eq_ok] at h
  obtain ⟨_, ⟨_, -, rfl⟩, -, -, rfl⟩ := h
  intro requestId request' hrequest' hconverted
  rw [Table.get?_mapRows] at hrequest'
  obtain ⟨request, hrequest, rfl⟩ := Option.map_eq_some_iff.mp hrequest'
  split at hconverted
  · cases hconverted
  · next hunaffected =>
      obtain ⟨id, item, hitem, hin, hstatus⟩ :=
        hasLine_iff.mp (hs requestId request hrequest hconverted)
      have hoff : item.pendingOrderId ≠ some orderId := fun horder => by
        refine hunaffected (List.contains_iff_mem.mpr (List.mem_filterMap.mpr ⟨(id, item), ?_, hin⟩))
        refine Table.get?_eq_some.mp ?_
        rw [Table.get?_filter, hitem, Option.filter_some, if_pos (beq_iff_eq.mpr horder)]
      refine hasLine_iff.mpr ⟨id, item, ?_, hin, hstatus⟩
      rw [Table.get?_mapRows, hitem, Option.map_some, if_neg hoff]

theorem mergeCotermSourcingItems_converted {env : Env} {itemIds : List Nat}
    {columns : SourcingItem} {s t : Store} (hs : ConvertedHaveLines s)
    (h : mergeCotermSourcingItems env itemIds columns s = .ok t)
    : ConvertedHaveLines t := by
  simp only [mergeCotermSourcingItems, bind_eq_ok, require_eq_ok, pure_eq_ok] at h
  obtain ⟨-, -, -, hstored, -, hopen, -, -, -, -, -, -, -, -, v, hadded, rfl⟩ := h
  have hquiet := addLineWithRequest_quiet hadded rfl
  have hdeleted : ConvertedHaveLines (v.deleteItems (fun id _ => itemIds.contains id)) := by
    refine (hs.of_quiet hquiet).of_deleteItems fun id row hrow hstatus => ?_
    by_contra hid
    rw [Bool.not_eq_false] at hid
    obtain ⟨item, hitem⟩ := Option.isSome_iff_exists.mp
      (List.all_eq_true.mp hstored id (List.contains_iff_mem.mp hid))
    obtain ⟨row', hrow', hput⟩ := hquiet.kept id item hitem
    obtain rfl := Option.some.inj (hrow.symm.trans hrow')
    have hmem : (id, item) ∈ (s.items.filter (fun id _ => itemIds.contains id)).entries := by
      refine Table.get?_eq_some.mp ?_
      rw [Table.get?_filter, hitem, Option.filter_some, if_pos hid]
    have hsourcing := beq_iff_eq.mp (List.all_eq_true.mp hopen _ hmem)
    rw [hput.status, hsourcing] at hstatus
    cases hstatus
  intro key request hrequest hstatus
  rw [Table.get?_filter] at hrequest
  exact hdeleted key request (Option.filter_eq_some_iff.mp hrequest).1 hstatus

-- Conversions

theorem RequestEnsured.converted {itemId requestId : Nat} {item : SourcingItem} {s t : Store}
    (h : RequestEnsured itemId requestId item s t) (hs : ConvertedHaveLines s)
    (hitem : s.items.get? itemId = some item) (hstatus : item.status = .sourcing)
    : ConvertedHaveLines t := by
  refine hs.step (fun key request' hrequest' hconverted => .inl ?_) fun key _ _ _ _ hline => ?_
  · rcases h.requests with ⟨-, hagree⟩ | ⟨-, -, created, hcreated, hinserted⟩
    · obtain ⟨old, hold, hsame⟩ := hagree.back hrequest'
      exact ⟨old, hold, hsame ▸ hconverted⟩
    · rw [hinserted, Table.get?_insert] at hrequest'
      split at hrequest'
      · obtain rfl := Option.some.inj hrequest'
        rw [hcreated, hstatus] at hconverted
        cases hconverted
      · exact ⟨request', hrequest', hconverted⟩
  · obtain ⟨id, row, hrow, hin, hrowStatus⟩ := hasLine_iff.mp hline
    have hid : id ≠ itemId := fun he => by
      rw [he, hitem] at hrow
      obtain rfl := Option.some.inj hrow
      rw [hstatus] at hrowStatus
      cases hrowStatus
    exact hasLine_iff.mpr ⟨id, row, (h.others id hid).trans hrow, hin, hrowStatus⟩

theorem attachLine_converted {orderId itemId : Nat} {s : Store} (hs : ConvertedHaveLines s)
    : ConvertedHaveLines (attachLine orderId s itemId) := by
  refine hs.of_mapItems (f := fun id item => if id = itemId then
    { item with
      pendingOrderId := some orderId
      status := .converted
      supplier := (s.orders.get? orderId).bind (·.supplier)
      supplierId := (s.orders.get? orderId).bind (·.supplierId) } else item) rfl rfl
    fun id item _ hstatus => ?_
  split
  · exact ⟨rfl, rfl⟩
  · exact ⟨hstatus, rfl⟩

theorem convertSourcingItem_converted {env : Env} {itemId : Nat} {target : ConversionTarget}
    {s t : Store} (hs : ConvertedHaveLines s) (h : convertSourcingItem env itemId target s = .ok t)
    : ConvertedHaveLines t := by
  simp only [convertSourcingItem, bind_eq_ok, found_eq_ok, pure_eq_ok] at h
  obtain ⟨item, hitem, -, -, ⟨requestId, v⟩, hensure, -, -, -, -, w, hresolve, ⟨orderId, x⟩, horder,
    -, -, rfl⟩ := h
  obtain ⟨hstored, hopen⟩ := Option.filter_eq_some_iff.mp hitem
  have hensured := ensureSourcingRequestForItem_ok hensure hstored
  have hkeeps := (resolveRequestSupplier_standing hresolve).trans
    (resolveConversionOrder_standing horder).1
  have hx := (hensured.converted hs hstored (beq_iff_eq.mp hopen)).of_quiet (.of_standing hkeeps)
  have hsync := syncOrderLines_standing env.unicode orderId (attachLine orderId x itemId)
  refine ((attachLine_converted hx).of_quiet (.of_standing hsync)).of_refresh (.inr ?_)
  rw [hsync.hasLine, hasLine_iff]
  obtain ⟨row, hrow, hrequest, -⟩ := hensured.row
  obtain ⟨row', hrow', hstanding⟩ := hkeeps.lines.forth hrow
  have hsame : row'.sourcingRequestId = row.sourcingRequestId := congrArg (·.sourcingRequestId) hstanding
  obtain ⟨attached, hattached, hin, hstatus⟩ : ∃ attached,
      (attachLine orderId x itemId).items.get? itemId = some attached
        ∧ attached.sourcingRequestId = row'.sourcingRequestId ∧ attached.status = .converted := by
    simp only [attachLine, Store.modifyItem]
    rw [Table.get?_modify_self, hrow']
    exact ⟨_, rfl, rfl, rfl⟩
  exact ⟨itemId, attached, hattached, hin.trans (hsame.trans hrequest), hstatus⟩

theorem RequestConverted.converted {u : Unicode} {requestId orderId : Nat} {s t : Store}
    (h : RequestConverted u requestId orderId s t) (hs : ConvertedHaveLines s)
    : ConvertedHaveLines t := by
  have hrow : ∀ id item, s.items.get? id = some item → ∃ row, t.items.get? id = some row
      ∧ row.sourcingRequestId = item.sourcingRequestId
      ∧ row.status = if item.isOpenPurchase u requestId then .converted else item.status := by
    intro id item hitem
    obtain ⟨row, hrow, hstanding⟩ := WorkflowConverted.middleRow h hitem
    refine ⟨row, hrow, ?_, ?_⟩
    · have hrequest := congrArg (·.sourcingRequestId) hstanding
      split at hrequest <;> exact hrequest
    · split
      · next hpurchase =>
          rw [if_pos hpurchase] at hstanding
          exact congrArg (·.status) hstanding
      · next hpurchase =>
          rw [if_neg hpurchase] at hstanding
          exact congrArg (·.status) hstanding
  refine hs.step (fun key request' hrequest' hconverted => ?_) fun key _ _ _ _ hline => ?_
  · by_cases hkey : key = requestId
    · subst hkey
      obtain ⟨id, item, hitem, hpurchase⟩ := h.purchase
      obtain ⟨row, hget, hrequest, hstatus⟩ := hrow id item hitem
      rw [if_pos hpurchase] at hstatus
      simp only [SourcingItem.isOpenPurchase, Bool.and_eq_true, beq_iff_eq] at hpurchase
      exact .inr (hasLine_iff.mpr ⟨id, row, hget, hrequest.trans hpurchase.1.1, hstatus⟩)
    · have hsame := h.requests key
      rw [if_neg fun hboth => hkey hboth.1, hrequest', Option.map_some] at hsame
      obtain ⟨request, hrequest, hstatus⟩ := Option.map_eq_some_iff.mp hsame.symm
      exact .inl ⟨request, hrequest, hstatus.trans hconverted⟩
  · obtain ⟨id, item, hitem, hin, hstatus⟩ := hasLine_iff.mp hline
    obtain ⟨row, hget, hrequest, hrowStatus⟩ := hrow id item hitem
    refine hasLine_iff.mpr ⟨id, row, hget, hrequest.trans hin, ?_⟩
    rw [hrowStatus, hstatus, ite_self]

theorem refreshEach_converted {after : Store → Store} (hafter : ∀ s, QuietStep s (after s))
    {ids : List Nat} {s : Store} (hs : ConvertedHaveLines s)
    (hlines : ∀ id ∈ ids, s.hasLine id .sourcing = true ∨ s.hasLine id .converted = true)
    : ConvertedHaveLines (ids.foldl (fun s id => after (refreshSourcingRequestStatus id s)) s) := by
  induction ids generalizing s with
  | nil => exact hs
  | cons head rest ih =>
      have hquiet := hafter (refreshSourcingRequestStatus head s)
      refine ih ((hs.of_refresh (hlines head List.mem_cons_self)).of_quiet hquiet) fun id hid => ?_
      have hitems := (refreshSourcingRequestStatus_items head s).1
      have hsame : ∀ status, (refreshSourcingRequestStatus head s).hasLine id status
          = s.hasLine id status := fun status => by simp only [Store.hasLine, hitems]
      rcases hlines id (List.mem_cons_of_mem head hid) with hline | hline
      · exact .inl (hquiet.hasLine ((hsame .sourcing).trans hline))
      · exact .inr (hquiet.hasLine ((hsame .converted).trans hline))

theorem convertFreewareSourcingItems_converted {env : Env} {itemIds : List Nat} {s t : Store}
    (hs : ConvertedHaveLines s) (h : convertFreewareSourcingItems env itemIds s = .ok t)
    : ConvertedHaveLines t := by
  simp only [convertFreewareSourcingItems, bind_eq_ok, pure_eq_ok] at h
  obtain ⟨-, -, v, hitems, rfl⟩ := h
  have hfree := convertFreewareItems_ok hitems
  have hv : ConvertedHaveLines v := by
    refine hs.of_mapItems hfree.items hfree.requests fun id item _ hstatus => ?_
    unfold markConverted
    split
    · exact ⟨rfl, rfl⟩
    · exact ⟨hstatus, rfl⟩
  refine refreshEach_converted QuietStep.refl hv fun requestId hrequest => .inr ?_
  obtain ⟨id, hid, hrequest⟩ := List.mem_filterMap.mp hrequest
  obtain ⟨row, hrow, hin⟩ := Option.bind_eq_some_iff.mp hrequest
  refine hasLine_iff.mpr ⟨id, row, hrow, hin, ?_⟩
  rw [hfree.items, Table.get?_mapRows] at hrow
  obtain ⟨item, -, rfl⟩ := Option.map_eq_some_iff.mp hrow
  rw [markConverted, if_pos hid]

theorem convertSourcingRequestWorkflow_convertedLines {env : Env} {requestId : Nat}
    {target : ConversionTarget} {s t : Store} (hs : ConvertedHaveLines s)
    (h : convertSourcingRequestWorkflow env requestId target s = .ok t)
    : ConvertedHaveLines t := by
  simp only [convertSourcingRequestWorkflow, bind_eq_ok] at h
  obtain ⟨v, hv, h⟩ := h
  obtain ⟨orderId, hrequest⟩ := convertSourcingRequest_converted hv
  have hvs := hrequest.converted hs
  split at h
  · obtain rfl := pure_eq_ok.mp h
    exact hvs
  · exact convertFreewareSourcingItems_converted hvs h

-- Steps under a condition

/-- Whether every request that is called converted has a converted line apart from some lines. -/
def Store.convertedBeyond (s : Store) (gone : Nat → SourcingItem → Bool) : Bool :=
  s.requests.entries.all (fun request =>
    request.2.status != .converted || s.items.entries.any (fun entry =>
      entry.2.sourcingRequestId == some request.1 && entry.2.status == .converted
        && !gone entry.1 entry.2))

/-- Whether every line that cancelling the renewal of a licence cancels has a request, and leaves it
a converted line or an open one.
-/
def Store.cancelLeavesLines (s : Store) (licenseId : Nat) : Bool :=
  s.items.entries.all (fun entry =>
    !(entry.2.status == .sourcing && entry.2.predecessorIds.contains licenseId)
      || entry.2.sourcingRequestId.any (fun requestId =>
        s.items.entries.any (fun other => other.2.sourcingRequestId == some requestId
          && (other.2.status == .converted
            || (other.2.status == .sourcing && !other.2.predecessorIds.contains licenseId)))))

/-- The condition on a request: where it takes lines away, a converted or an open line stays in every
request that it closes or that is closed.
-/
def SourcingAction.leavesLines (s : Store) : Env × SourcingAction → Bool
  | (_, .cancelLicenseRenewal licenseId) => s.cancelLeavesLines licenseId
  | (_, .deleteOrderLine _ itemId) => s.convertedBeyond (fun id _ => id == itemId)
  | (_, .cancelOrder orderId) =>
      s.convertedBeyond (fun _ item => item.pendingOrderId == some orderId)
  | _ => true

theorem Store.convertedBeyond_line {s : Store} {gone : Nat → SourcingItem → Bool}
    (h : s.convertedBeyond gone = true) {requestId : Nat} {request : SourcingRequest}
    (hrequest : s.requests.get? requestId = some request) (hstatus : request.status = .converted)
    : ∃ id item, s.items.get? id = some item ∧ item.sourcingRequestId = some requestId
      ∧ item.status = .converted ∧ gone id item = false := by
  have hrow := List.all_eq_true.mp h _ (Table.get?_eq_some.mp hrequest)
  simp only [hstatus, Bool.or_eq_true, List.any_eq_true, Prod.exists, Bool.and_eq_true, beq_iff_eq,
    Bool.not_eq_true'] at hrow
  obtain ⟨id, item, hmem, ⟨hin, hconverted⟩, hkept⟩ := hrow.resolve_left (by decide)
  exact ⟨id, item, Table.get?_eq_some.mpr hmem, hin, hconverted, hkept⟩

theorem deletePendingOrderItem_converted {orderId itemId : Nat} {s t : Store}
    (hleft : s.convertedBeyond (fun id _ => id == itemId) = true)
    (h : deletePendingOrderItem orderId itemId s = .ok t)
    : ConvertedHaveLines t := by
  simp only [deletePendingOrderItem, bind_eq_ok, pure_eq_ok] at h
  obtain ⟨loaded, -, item, -, -, -, rfl⟩ := h
  refine ConvertedHaveLines.of_quiet ?_ (clearRenewals_quiet _ _)
  have hdeleted : ConvertedHaveLines
      { s with items := s.items.filter (fun id _ => id != itemId) } := by
    intro requestId request hrequest hstatus
    obtain ⟨id, row, hrow, hin, hconverted, hkept⟩ := s.convertedBeyond_line hleft hrequest hstatus
    refine hasLine_iff.mpr ⟨id, row, ?_, hin, hconverted⟩
    rw [Table.get?_filter, hrow, Option.filter_some, if_pos]
    rw [bne, hkept]
    rfl
  split
  · exact hdeleted.of_quiet (.of_eq rfl rfl)
  · exact hdeleted

theorem cancelPendingOrder_converted {orderId : Nat} {s t : Store}
    (hleft : s.convertedBeyond (fun _ item => item.pendingOrderId == some orderId) = true)
    (h : cancelPendingOrder orderId s = .ok t)
    : ConvertedHaveLines t := by
  simp only [cancelPendingOrder, bind_eq_ok, pure_eq_ok] at h
  obtain ⟨loaded, -, rfl⟩ := h
  refine ConvertedHaveLines.of_quiet ?_ (clearRenewals_quiet _ _)
  intro requestId request hrequest hstatus
  obtain ⟨id, row, hrow, hin, hconverted, hkept⟩ := s.convertedBeyond_line hleft hrequest hstatus
  refine hasLine_iff.mpr ⟨id, row, ?_, hin, hconverted⟩
  dsimp only
  rw [Table.get?_mapRows, hrow, Option.map_some,
    if_neg fun horder => by rw [horder, beq_self_eq_true] at hkept; cases hkept]

/-- A line as a cancelled renewal leaves it. -/
def SourcingItem.cancelled (item : SourcingItem) : SourcingItem := { item with status := .cancelled }

theorem cancelRenewalLine_ok {u : Unicode} {itemId requestId : Nat} {item : SourcingItem}
    {done requestIds : List Nat} {s t : Store} (hitem : s.items.get? itemId = some item)
    (hrequest : item.sourcingRequestId = some requestId)
    (h : cancelRenewalLine u itemId (done, s) = .ok (requestIds, t))
    : requestIds = done ++ [requestId] ∧ t = s.modifyItem itemId SourcingItem.cancelled := by
  simp only [cancelRenewalLine, bind_eq_ok, found_eq_ok] at h
  obtain ⟨row, hrow, -, -, h⟩ := h
  obtain rfl := Option.some.inj (hrow.symm.trans hitem)
  rw [hrequest] at h
  obtain ⟨rfl, rfl⟩ := Prod.mk.inj (Except.ok.inj h)
  exact ⟨rfl, rfl⟩

/-- The lines of a cancelled renewal, by induction on them: those outside the list stay as they are,
and the requests that will be refreshed are those of the list.
-/
theorem cancelRenewalLines_ok {u : Unicode} {lines done requestIds : List Nat} {s t : Store}
    (hs : ConvertedHaveLines s)
    (hlines : ∀ id ∈ lines, ∃ item, s.items.get? id = some item ∧ item.status ≠ .converted
      ∧ item.sourcingRequestId ≠ none)
    (h : each (cancelRenewalLine u) lines (done, s) = .ok (requestIds, t))
    : ConvertedHaveLines t
      ∧ (∀ id, id ∉ lines → t.items.get? id = s.items.get? id)
      ∧ ∀ requestId ∈ requestIds, requestId ∈ done ∨ ∃ id ∈ lines, ∃ item,
          s.items.get? id = some item ∧ item.sourcingRequestId = some requestId := by
  induction lines generalizing done s with
  | nil =>
      obtain ⟨rfl, rfl⟩ : done = requestIds ∧ s = t := by simpa [each] using h
      exact ⟨hs, fun _ _ => rfl, fun _ hrequest => .inl hrequest⟩
  | cons head rest ih =>
      obtain ⟨⟨done', v⟩, hv, ht⟩ := bind_eq_ok.mp h
      obtain ⟨item, hitem, hopen, hplaced⟩ := hlines head List.mem_cons_self
      obtain ⟨requestId, hrequest⟩ := Option.ne_none_iff_exists'.mp hplaced
      obtain ⟨rfl, rfl⟩ := cancelRenewalLine_ok hitem hrequest hv
      have hrows : ∀ id, (s.modifyItem head SourcingItem.cancelled).items.get? id
          = (s.items.get? id).map (fun item => if id = head then item.cancelled else item) :=
        Table.get?_modify s.items head SourcingItem.cancelled
      have hcancelled : ConvertedHaveLines (s.modifyItem head SourcingItem.cancelled) := by
        refine hs.of_mapItems (f := fun id item => if id = head then item.cancelled else item) rfl rfl
          fun id other hother hconverted => ?_
        rw [if_neg fun he => ?_]
        · exact ⟨hconverted, rfl⟩
        · rw [he, hitem] at hother
          obtain rfl := Option.some.inj hother
          exact hopen hconverted
      have hrest : ∀ id ∈ rest, ∃ item, (s.modifyItem head SourcingItem.cancelled).items.get? id
          = some item ∧ item.status ≠ .converted ∧ item.sourcingRequestId ≠ none := fun id hid => by
        obtain ⟨row, hrow, hrowOpen, hrowPlaced⟩ := hlines id (List.mem_cons_of_mem _ hid)
        refine ⟨_, (hrows id).trans (congrArg _ hrow), ?_, ?_⟩
        · split
          · exact SourcingStatus.noConfusion
          · exact hrowOpen
        · split <;> exact hrowPlaced
      obtain ⟨hconverted, hothers, hrequests⟩ := ih hcancelled hrest ht
      refine ⟨hconverted, fun id hid => ?_, fun key hkey => ?_⟩
      · rw [List.mem_cons, not_or] at hid
        exact (hothers id hid.2).trans (Table.get?_modify_ne _ _ hid.1)
      · rcases hrequests key hkey with hdone | ⟨id, hid, row', hrow', hin⟩
        · rcases List.mem_append.mp hdone with hdone | hlast
          · exact .inl hdone
          · obtain rfl := List.mem_singleton.mp hlast
            exact .inr ⟨head, List.mem_cons_self, item, hitem, hrequest⟩
        · rw [hrows] at hrow'
          obtain ⟨row, hrow, rfl⟩ := Option.map_eq_some_iff.mp hrow'
          refine .inr ⟨id, List.mem_cons_of_mem _ hid, row, hrow, ?_⟩
          split at hin <;> exact hin

theorem Store.cancelLeavesLines_line {s : Store} {licenseId id : Nat} {item : SourcingItem}
    (h : s.cancelLeavesLines licenseId = true) (hitem : s.items.get? id = some item)
    (hopen : item.status = .sourcing) (hcovers : item.predecessorIds.contains licenseId = true)
    : ∃ requestId, item.sourcingRequestId = some requestId
      ∧ ∃ other row, s.items.get? other = some row ∧ row.sourcingRequestId = some requestId
        ∧ (row.status = .converted
          ∨ (row.status = .sourcing ∧ row.predecessorIds.contains licenseId = false)) := by
  have hrow := List.all_eq_true.mp h _ (Table.get?_eq_some.mp hitem)
  dsimp only at hrow
  rw [hopen, hcovers, Bool.or_eq_true, Option.any_eq_true] at hrow
  obtain ⟨requestId, hrequest, hleft⟩ := hrow.resolve_left (by decide)
  refine ⟨requestId, hrequest, ?_⟩
  simp only [List.any_eq_true, Prod.exists, Bool.and_eq_true, beq_iff_eq, Bool.or_eq_true,
    Bool.not_eq_true'] at hleft
  obtain ⟨other, row, hmem, hin, hstatus⟩ := hleft
  exact ⟨other, row, Table.get?_eq_some.mpr hmem, hin, hstatus⟩

/-- A cancelled renewal whose lines leave others in their requests. -/
theorem cancelRenewal_converted {env : Env} {licenseId : Nat} {s t : Store}
    (hs : ConvertedHaveLines s) (hleft : s.cancelLeavesLines licenseId = true)
    (h : cancelRenewal env licenseId s = .ok t)
    : ConvertedHaveLines t := by
  simp only [cancelRenewal, bind_eq_ok, pure_eq_ok] at h
  obtain ⟨-, -, -, -, ⟨requestIds, v⟩, hv, rfl⟩ := h
  have hlisted : ∀ id, id ∈ s.items.select (fun _ item =>
      item.status == .sourcing && item.predecessorIds.contains licenseId)
      ↔ ∃ item, s.items.get? id = some item ∧ item.status = .sourcing
        ∧ item.predecessorIds.contains licenseId = true := fun id => by
    simp only [Table.mem_select, Bool.and_eq_true, beq_iff_eq]
  have hopen : ∀ id ∈ s.items.select (fun _ item =>
      item.status == .sourcing && item.predecessorIds.contains licenseId),
      ∃ item, s.items.get? id = some item ∧ item.status ≠ .converted
        ∧ item.sourcingRequestId ≠ none := fun id hid => by
    obtain ⟨item, hitem, hopen, hcovers⟩ := (hlisted id).mp hid
    obtain ⟨requestId, hrequest, -⟩ := s.cancelLeavesLines_line hleft hitem hopen hcovers
    refine ⟨item, hitem, ?_, ?_⟩
    · rw [hopen]
      exact SourcingStatus.noConfusion
    · rw [hrequest]
      exact Option.some_ne_none _
  obtain ⟨hconverted, hothers, hrequests⟩ := cancelRenewalLines_ok hs hopen hv
  refine ConvertedHaveLines.of_quiet (refreshEach_converted
    (clearPendingRenewalIfNoOpenSourcing_quiet licenseId) hconverted fun key hkey => ?_)
    (.of_eq rfl rfl)
  obtain ⟨id, hid, item, hitem, hrequest⟩ := (hrequests key hkey).resolve_left List.not_mem_nil
  obtain ⟨row, hrow, hrowOpen, hcovers⟩ := (hlisted id).mp hid
  obtain rfl := Option.some.inj (hrow.symm.trans hitem)
  obtain ⟨requestId, hrequest', other, left, hother, hin, hstatus⟩ :=
    s.cancelLeavesLines_line hleft hrow hrowOpen hcovers
  obtain rfl := Option.some.inj (hrequest'.symm.trans hrequest)
  -- The line that is left is not one of those that are cancelled.
  have hkept : v.items.get? other = some left := by
    refine (hothers other fun hcancelled => ?_).trans hother
    obtain ⟨row', hrow', hrowOpen', hcovers'⟩ := (hlisted other).mp hcancelled
    obtain rfl := Option.some.inj (hrow'.symm.trans hother)
    rcases hstatus with hconverted' | ⟨-, hnot⟩
    · rw [hrowOpen'] at hconverted'
      cases hconverted'
    · rw [hcovers'] at hnot
      cases hnot
  rcases hstatus with hstatus | ⟨hstatus, -⟩
  · exact .inr (hasLine_iff.mpr ⟨other, left, hkept, hin, hstatus⟩)
  · exact .inl (hasLine_iff.mpr ⟨other, left, hkept, hin, hstatus⟩)

-- Runs

theorem SourcingAction.run_converted {request : Env × SourcingAction} {s t : Store}
    (hs : ConvertedHaveLines s) (hleft : SourcingAction.leavesLines s request = true)
    (h : SourcingAction.run request s = .ok t)
    : ConvertedHaveLines t := by
  obtain ⟨env, action⟩ := request
  cases action with
  | createItem => exact hs.of_quiet (createSourcingItem_quiet h)
  | createRequest => exact hs.of_quiet (createSourcingRequest_quiet h)
  | addLine =>
      obtain ⟨v, hquiet, rfl | ⟨itemId, hplanned⟩⟩ := addSourcingRequestItem_quiet h
      · exact hs.of_quiet hquiet
      · exact setPlannedSuccessors_converted (hs.of_quiet hquiet) hplanned
  | initiateRenewal => exact hs.of_quiet (initiateLicenseRenewal_quiet h)
  | startSupport => exact hs.of_quiet (startSupportRenewal_quiet h)
  | backfill => exact hs.of_quiet (backfillMissingSourcingRequests_quiet h)
  | editItem => exact updateSourcingItem_converted hs h
  | editRequest => exact applySourcingRequestWorkflowUpdate_converted hs h
  | setSuccessors => exact setPlannedSuccessors_converted hs h
  | replacePredecessors => exact replacePlannedPredecessors_converted hs h
  | mergeItems => exact mergeCotermSourcingItems_converted hs h
  | deleteItem => exact deleteSourcingItem_converted hs h
  | deleteRequest => exact deleteSourcingRequest_converted hs h
  | cancelRequest => exact cancelSourcingRequest_converted hs h
  | cancelLicenseRenewal => exact cancelRenewal_converted hs hleft h
  | convertItem => exact convertSourcingItem_converted hs h
  | convertRequest => exact convertSourcingRequestWorkflow_convertedLines hs h
  | convertFreeItem =>
      simp only [SourcingAction.run, convertFreewareSourcingItem, bind_eq_ok] at h
      obtain ⟨-, -, h⟩ := h
      exact convertFreewareSourcingItems_converted hs h
  | convertFreeRequest =>
      simp only [SourcingAction.run, convertFreewareSourcingRequest, bind_eq_ok] at h
      obtain ⟨-, -, -, -, h⟩ := h
      exact convertFreewareSourcingItems_converted hs h
  | createOrder => exact hs.of_quiet (createPendingOrder_quiet h)
  | editOrder => exact hs.of_quiet (applyPendingOrderUpdate_quiet h)
  | addOrderLines => exact hs.of_quiet (addPendingOrderItemsBulk_quiet h)
  | editOrderLine => exact updatePendingOrderItem_converted hs h
  | deleteOrderLine => exact deletePendingOrderItem_converted hleft h
  | deleteOrder => exact deletePendingOrder_converted hs h
  | cancelOrder => exact cancelPendingOrder_converted hleft h

/-- What it means that a request is called converted only if something was converted. -/
structure HonestStatus (s : Store) (requestId : Nat) (request : SourcingRequest) : Prop where
  converted : request.status = .converted → ∃ id item, s.items.get? id = some item
    ∧ item.sourcingRequestId = some requestId ∧ item.status = .converted
  cancelled : (∀ id item, s.items.get? id = some item → item.sourcingRequestId = some requestId
    → item.status = .cancelled) → request.status ≠ .converted

theorem ConvertedHaveLines.honest {s : Store} (hs : ConvertedHaveLines s) {requestId : Nat}
    {request : SourcingRequest} (hrequest : s.requests.get? requestId = some request)
    : HonestStatus s requestId request := by
  have hline := fun hstatus => hasLine_iff.mp (hs requestId request hrequest hstatus)
  refine ⟨hline, fun hcancelled hstatus => ?_⟩
  obtain ⟨id, item, hitem, hin, hconverted⟩ := hline hstatus
  rw [hcancelled id item hitem hin] at hconverted
  cases hconverted

/-- In every run whose steps leave a converted or an open line in each request that they close or
take lines from, a request is called converted only if one of its lines is.
-/
theorem converted_onlyWithLine {start s : Store} (hstart : ConvertedHaveLines start)
    (h : Reachable SourcingAction.run
      (fun s request => SourcingAction.leavesLines s request = true) start s)
    {requestId : Nat} {request : SourcingRequest}
    (hrequest : s.requests.get? requestId = some request)
    : HonestStatus s requestId request := by
  refine ConvertedHaveLines.honest ?_ hrequest
  refine h.invariant hstart fun s t action hs hleft hran => ?_
  exact SourcingAction.run_converted hs hleft hran

theorem ConvertedHaveLines.of_noneClosed {s : Store}
    (h : s.requests.entries.all (fun entry => entry.2.status != .converted) = true)
    : ConvertedHaveLines s := by
  intro requestId request hrequest hstatus
  have hopen := List.all_eq_true.mp h _ (Table.get?_eq_some.mp hrequest)
  dsimp only at hopen
  rw [hstatus] at hopen
  cases hopen

/-- The line of an order is deleted whose request has a second converted line. -/
theorem converted_onlyWithLine_secondLine
    : ∃ s request, (s.requests.get? 1 = some request ∧ request.status = .converted)
      ∧ HonestStatus s 1 request := by
  have hrun : (runAdmitted SourcingAction.run
      (fun s request => SourcingAction.leavesLines s request = true)
      [(.onDay 20000, .convertRequest 1 {}), (.onDay 20001, .deleteOrderLine 1 1)]
      (mixedRequest none)).bind (fun s => (s.requests.get? 1).map (·.status)) = some .converted := by
    decide +kernel
  obtain ⟨s, hs, hrow⟩ := Option.bind_eq_some_iff.mp hrun
  obtain ⟨request, hrequest, hstatus⟩ := Option.map_eq_some_iff.mp hrow
  exact ⟨s, request, ⟨hrequest, hstatus⟩, converted_onlyWithLine
    (.of_noneClosed (by decide)) (.of_runAdmitted .start hs) hrequest⟩

/-- A cancelled renewal leaves its request converted with one line, which is cancelled. -/
theorem cancelledRenewal_converted
    : ConvertedHaveLines renewableServices
      ∧ ∃ s request, Reachable SourcingAction.run (fun _ _ => True) renewableServices s
        ∧ s.requests.get? 1 = some request ∧ ¬ HonestStatus s 1 request := by
  refine ⟨.of_noneClosed rfl, ?_⟩
  have hrun : (runAll SourcingAction.run
      [(.onDay 60, .initiateRenewal commonYears 1), (.onDay 61, .cancelLicenseRenewal 1)]
      renewableServices).bind (fun s => (s.requests.get? 1).map (fun request =>
        (request.status, s.items.entries.map (·.2.status)))) = some (.converted, [.cancelled]) := by
    decide +kernel
  obtain ⟨s, hs, hrow⟩ := Option.bind_eq_some_iff.mp hrun
  obtain ⟨request, hrequest, hstatus⟩ := Option.map_eq_some_iff.mp hrow
  obtain ⟨hconverted, hlines⟩ := Prod.mk.inj hstatus
  refine ⟨s, request, .of_runAll .start (fun _ _ _ => trivial) hs, hrequest, fun hhonest => ?_⟩
  obtain ⟨id, item, hitem, -, hline⟩ := hhonest.converted hconverted
  have hmem : item.status ∈ s.items.entries.map (·.2.status) :=
    List.mem_map.mpr ⟨(id, item), Table.get?_eq_some.mp hitem, rfl⟩
  rw [hlines, List.mem_singleton, hline] at hmem
  cases hmem

end LicenseTrack
