import LicenseTrack.Library.Runs
import LicenseTrack.Orders.LineCurrencies

/-! Orders with a manual total over whole runs: which requests keep the lines of such an order in
one currency.
-/

namespace LicenseTrack

open Library

theorem addPendingOrderItem_oneCurrency {env : Env} {orderId : Nat} {line : SourcingItemCreate}
    {s t : Store} (hs : OneCurrency env.unicode s)
    (h : addPendingOrderItem env orderId line s = .ok t)
    : OneCurrency env.unicode t := by
  simp only [addPendingOrderItem, buildPendingOrderItem, bind_eq_ok, require_eq_ok,
    pure_eq_ok] at h
  obtain ⟨_, hcheck, item, ⟨-, -, hitem⟩, ⟨resolved, v⟩, hresolved, rfl⟩ := h
  obtain ⟨hv, hplace⟩ := resolveSourcingItemReferences_ok hresolved
  refine hs.step orderId (· = env.unicode.normalizeCurrency line.row.currency)
    hv.keepsLines.totals ?_ (fits_of_check hcheck)
  rintro key c ⟨id, row, hrow, horder, hstatus, hcurrency, hne⟩
  rw [Table.get?_insert] at hrow
  split at hrow
  · obtain rfl := Option.some.inj hrow
    have hplaced : resolved.placement = (some orderId, .converted, line.row.currency) := by
      rw [hplace, ← hitem]
      rfl
    obtain ⟨ho, -, hc⟩ : resolved.pendingOrderId = some orderId ∧ resolved.status = .converted
        ∧ resolved.currency = line.row.currency := by
      simpa [SourcingItem.placement] using hplaced
    rw [ho] at horder
    exact .inr ⟨(Option.some.inj horder).symm, by rw [← hcurrency, hc]⟩
  · exact .inl (hv.keepsLines.liveIn ⟨id, row, hrow, horder, hstatus, hcurrency, hne⟩)

theorem addPendingOrderItemsBulk_oneCurrency {env : Env} {orderId : Nat}
    {lines : List SourcingItemCreate} {s t : Store} (hs : OneCurrency env.unicode s)
    (h : addPendingOrderItemsBulk env orderId lines s = .ok t)
    : OneCurrency env.unicode t := by
  simp only [addPendingOrderItemsBulk, bind_eq_ok, require_eq_ok, pure_eq_ok] at h
  obtain ⟨-, -, -, -, v, hadded, rfl⟩ := h
  have hv : OneCurrency env.unicode v :=
    each_keeps (fun line _ _ _ hs h => addPendingOrderItem_oneCurrency hs h) hs hadded
  exact hv.of_keeps (syncOrderLines_keeps _ _ _)

/-- A new order has no manual total. -/
theorem createPendingOrder_oneCurrency {env : Env} {p : PendingOrderCreate} {s t : Store}
    (hs : OneCurrency env.unicode s) (h : createPendingOrder env p s = .ok t)
    : OneCurrency env.unicode t := by
  simp only [createPendingOrder, bind_eq_ok] at h
  obtain ⟨⟨⟨supplier, supplierId⟩, v⟩, hsupplier, h⟩ := h
  have hv := hs.of_keeps (resolveSupplierColumns_only hsupplier).keepsLines
  split at h
  · obtain rfl := pure_eq_ok.mp h
    exact hv.of_keeps (.of_insertOrder v rfl)
  · refine addPendingOrderItemsBulk_oneCurrency ?_ h
    exact hv.of_keeps (.of_insertOrder v rfl)

theorem manualTotal_update {p : PendingOrderUpdate} {supplier : Option String × Option Nat}
    {s : Store} {orderId key : Nat}
    (hkeep : key ≠ orderId ∨ p.total.getD none = none)
    (h : Store.manualTotal { s with orders := s.orders.modify orderId (p.writeRow supplier) } key
      ≠ none)
    : s.manualTotal key ≠ none := by
  unfold Store.manualTotal at h ⊢
  rw [Table.get?_modify] at h
  rcases hk : s.orders.get? key with _ | order
  · simp [hk] at h
  · rw [hk] at h
    by_cases he : key = orderId
    · have hnone := hkeep.resolve_left (fun hne => hne he)
      rcases ht : p.total with _ | total
      · simpa [he, PendingOrderUpdate.writeRow, ht] using h
      · rw [ht, Option.getD_some] at hnone
        simp [he, PendingOrderUpdate.writeRow, ht, hnone, truthy] at h
    · simpa [he] using h

theorem OneCurrency.of_total {u : Unicode} {p : PendingOrderUpdate}
    {supplier : Option String × Option Nat} {orderId : Nat} {s t : Store} (hs : OneCurrency u s)
    (hkeeps : KeepsLines { s with orders := s.orders.modify orderId (p.writeRow supplier) } t)
    (htotal : p.total.getD none = none ∨ (pendingOrderLineCurrencies u t orderId).length ≤ 1)
    : OneCurrency u t := by
  intro key ht a b ha hb
  by_cases hset : key = orderId ∧ p.total.getD none ≠ none
  · obtain ⟨rfl, hset⟩ := hset
    exact pendingOrderLineCurrencies_length_le_one (htotal.resolve_left hset) ha hb
  · have hkeep : key ≠ orderId ∨ p.total.getD none = none := by
      by_contra hne
      push Not at hne
      exact hset hne
    exact hs key (manualTotal_update hkeep (hkeeps.totals key ht)) a b (hkeeps.liveIn ha)
      (hkeeps.liveIn hb)

theorem applyPendingOrderUpdate_oneCurrency {env : Env} {orderId : Nat} {p : PendingOrderUpdate}
    {s t : Store} (hs : OneCurrency env.unicode s)
    (h : applyPendingOrderUpdate env orderId p s = .ok t)
    : OneCurrency env.unicode t := by
  simp only [applyPendingOrderUpdate, bind_eq_ok, require_eq_ok, pure_eq_ok] at h
  obtain ⟨-, -, -, -, ⟨supplier, v⟩, hsupplier, -, -, -, htotal, rfl⟩ := h
  have hv := hs.of_keeps (resolveSupplierColumns_only hsupplier).keepsLines
  rcases hp : p.contactEmail with _ | email
  · simp only [hp] at htotal ⊢
    have hwritten := hv.of_total (.refl _) htotal
    split
    · exact hwritten.of_keeps (syncOrderLines_keeps _ _ _)
    · exact hwritten
  · simp only [hp] at htotal ⊢
    have hwritten := hv.of_total
      (KeepsLines.of_mapItems _ fun _ item => by split <;> rfl) htotal
    split
    · exact hwritten.of_keeps (syncOrderLines_keeps _ _ _)
    · exact hwritten

theorem deletePendingOrder_oneCurrency {u : Unicode} {orderId : Nat} {s t : Store}
    (hs : OneCurrency u s) (h : deletePendingOrder orderId s = .ok t)
    : OneCurrency u t := by
  simp only [deletePendingOrder, bind_eq_ok, require_eq_ok, pure_eq_ok] at h
  obtain ⟨-, -, -, -, rfl⟩ := h
  refine hs.step orderId (fun _ => False) (fun key ht => ?_) (fun key c hc => .inl ?_)
    (.inr (.inl fun _ hfalse => hfalse.elim))
  · unfold Store.manualTotal at ht ⊢
    rw [Table.get?_filter] at ht
    rcases hk : s.orders.get? key with _ | order
    · simp [hk] at ht
    · rw [hk] at ht
      by_cases he : key = orderId
      · simp [he, Option.filter] at ht
      · simpa [he, Option.filter] using ht
  · obtain ⟨id, item, hitem, horder, hstatus, hcurrency, hne⟩ := hc
    rw [Table.get?_mapRows] at hitem
    obtain ⟨row, hrow, rfl⟩ := Option.map_eq_some_iff.mp hitem
    split at horder
    · cases horder
    · next hother =>
        rw [if_neg hother] at hstatus hcurrency
        exact ⟨id, row, hrow, horder, hstatus, hcurrency, hne⟩

-- Lines

theorem findOrderItem_ok {s : Store} {orderId itemId : Nat} {action : String}
    {loaded : LoadedOrder} {item : SourcingItem}
    (hloaded : editablePendingOrder s orderId action = .ok loaded)
    (h : findOrderItem loaded itemId = .ok item)
    : s.items.get? itemId = some item ∧ item.pendingOrderId = some orderId := by
  simp only [editablePendingOrder, getPendingOrder, bind_eq_ok, require_eq_ok, pure_eq_ok] at hloaded
  obtain ⟨_, ⟨_, -, rfl⟩, -, -, rfl⟩ := hloaded
  simp only [findOrderItem, found_eq_ok] at h
  obtain ⟨⟨id, row⟩, hfind, rfl⟩ := Option.map_eq_some_iff.mp h
  have hid : id = itemId := by simpa using List.find?_some hfind
  subst hid
  have hm := Table.get?_eq_some.mpr (List.mem_of_find?_eq_some hfind)
  rw [Table.get?_filter] at hm
  obtain ⟨hrow, horder⟩ := Option.filter_eq_some_iff.mp hm
  exact ⟨hrow, by simpa using horder⟩

/-- A line's new currency fits its order. -/
theorem updatePendingOrderItem_oneCurrency {env : Env} {orderId itemId : Nat}
    {p : SourcingItemUpdate} {s t : Store} (hs : OneCurrency env.unicode s)
    (h : updatePendingOrderItem env orderId itemId p s = .ok t)
    : OneCurrency env.unicode t := by
  simp only [updatePendingOrderItem, bind_eq_ok, require_eq_ok, pure_eq_ok] at h
  obtain ⟨loaded, hloaded, item, hitem, _, hcheck, ⟨resolved, v⟩, hresolved, -, hnull, rfl⟩ := h
  obtain ⟨hstored, horder⟩ := findOrderItem_ok hloaded hitem
  have hv : OnlyReferences s v := by
    simp only [SourcingItemUpdate.resolve] at hresolved
    split at hresolved
    · exact (resolveSourcingItemReferences_ok hresolved).1
    · obtain ⟨-, rfl⟩ := Prod.mk.inj (Except.ok.inj hresolved)
      exact .refl s
  have hlines : ∀ key c, LiveIn env.unicode (v.modifyItem itemId (p.writeRow resolved)) key c
      → LiveIn env.unicode s key c
        ∨ (key = orderId ∧ ∃ currency, p.currency = some (some currency)
            ∧ c = env.unicode.normalizeCurrency currency) := by
    rintro key c ⟨id, row, hrow, hkey, hstatus, hcurrency, hne⟩
    simp only [Store.modifyItem] at hrow
    rw [Table.get?_modify, hv.items] at hrow
    obtain ⟨old, hold, rfl⟩ := Option.map_eq_some_iff.mp hrow
    by_cases hid : id = itemId
    · subst hid
      obtain rfl := Option.some.inj (hstored.symm.trans hold)
      simp only [if_true, SourcingItemUpdate.writeRow] at hkey hstatus hcurrency
      rcases hp : p.currency with _ | value
      · rw [hp] at hcurrency
        exact .inl ⟨id, item, hstored, hkey, hstatus, hcurrency, hne⟩
      · rcases value with _ | currency
        · exact absurd hp hnull
        · rw [hp] at hcurrency
          exact .inr ⟨Option.some.inj (hkey.symm.trans horder), currency, rfl, hcurrency.symm⟩
    · simp only [hid, if_false] at hkey hstatus hcurrency
      exact .inl ⟨id, old, hold, hkey, hstatus, hcurrency, hne⟩
  refine hs.step orderId _ (fun key ht => hv.keepsLines.totals key ht) hlines ?_
  rcases hp : p.currency with _ | value
  · exact .inr (.inl fun c hc => by obtain ⟨_, hc, -⟩ := hc; cases hc)
  · rcases value with _ | currency
    · exact absurd hp hnull
    · simp only [SourcingItemUpdate.checkCurrency, hp] at hcheck
      rcases fits_of_check hcheck with hnone | hall | ⟨hempty, -⟩
      · exact .inl hnone
      · refine .inr (.inl fun c hc => ?_)
        obtain ⟨_, hsome, rfl⟩ := hc
        obtain rfl := Option.some.inj (Option.some.inj hsome)
        exact hall _ rfl
      · refine .inr (.inr ⟨hempty, fun c d hc hd => ?_⟩)
        obtain ⟨_, hsome, rfl⟩ := hc
        obtain ⟨_, hsome', rfl⟩ := hd
        obtain rfl := Option.some.inj (Option.some.inj hsome)
        obtain rfl := Option.some.inj (Option.some.inj hsome')
        rfl

theorem clearPendingRenewalIfNoOpenSourcing_keeps (id : Nat) (s : Store)
    : KeepsLines s (clearPendingRenewalIfNoOpenSourcing id s) := by
  simp only [clearPendingRenewalIfNoOpenSourcing]
  split
  · exact .refl s
  · exact .of_eq rfl rfl

theorem deletePendingOrderItem_oneCurrency {u : Unicode} {orderId itemId : Nat} {s t : Store}
    (hs : OneCurrency u s) (h : deletePendingOrderItem orderId itemId s = .ok t)
    : OneCurrency u t := by
  simp only [deletePendingOrderItem, requireNoPlannedLinks, bind_eq_ok, require_eq_ok,
    pure_eq_ok] at h
  obtain ⟨loaded, -, item, -, -, -, rfl⟩ := h
  have hfewer : OneCurrency u { s with items := s.items.filter (fun id _ => id != itemId) } := by
    refine hs.step orderId (fun _ => False) (fun _ ht => ht) (fun key c hc => .inl ?_)
      (.inr (.inl fun _ hfalse => hfalse.elim))
    obtain ⟨id, row, hrow, hkey, hstatus, hcurrency, hne⟩ := hc
    rw [Table.get?_filter] at hrow
    exact ⟨id, row, (Option.filter_eq_some_iff.mp hrow).1, hkey, hstatus, hcurrency, hne⟩
  refine OneCurrency.of_keeps ?_ (KeepsLines.foldl
    (fun s id => clearPendingRenewalIfNoOpenSourcing_keeps id s) _ _)
  split
  · exact hfewer.of_keeps (KeepsLines.of_modifyOrder _ orderId fun _ => rfl)
  · exact hfewer

-- The order of a conversion

theorem resolveRequestSupplier_ok {u : Unicode} {requestId : Nat} {s t : Store}
    (h : resolveRequestSupplier u requestId s = .ok t)
    : t.items = s.items ∧ t.orders = s.orders ∧ t.licenses = s.licenses := by
  simp only [resolveRequestSupplier, bind_eq_ok, found_eq_ok] at h
  obtain ⟨request, -, h⟩ := h
  split at h
  · obtain rfl := pure_eq_ok.mp h
    exact ⟨rfl, rfl, rfl⟩
  · simp only [bind_eq_ok, pure_eq_ok] at h
    obtain ⟨⟨name, id, v⟩, hr, rfl⟩ := h
    have hv := resolveOrganization_only hr
    exact ⟨hv.items, hv.orders, hv.licenses⟩

theorem synchronizeOpenRequestIdentity_keeps (u : Unicode) (requestId : Nat)
    (supplier : Option String) (supplierId : Option Nat) (s : Store)
    : KeepsLines s (synchronizeOpenRequestIdentity u requestId supplier supplierId s) := by
  unfold synchronizeOpenRequestIdentity
  split
  · exact .refl s
  · refine KeepsLines.trans (t := s.modifyRequest requestId _) (.of_eq rfl rfl)
      (KeepsLines.of_mapItems _ fun _ item => ?_)
    split <;> rfl

theorem ensureSourcingRequestForItem_keeps {u : Unicode} {itemId requestId : Nat}
    {item : SourcingItem} {s t : Store}
    (h : ensureSourcingRequestForItem u itemId item s = .ok (requestId, t))
    : KeepsLines s t := by
  simp only [ensureSourcingRequestForItem, bind_eq_ok] at h
  obtain ⟨⟨resolved, v⟩, hresolved, h⟩ := h
  have hv := (resolveSourcingItemReferences_ok hresolved).1.keepsLines
  split at h
  · simp only [bind_eq_ok, pure_eq_ok, Prod.mk.injEq] at h
    obtain ⟨w, hw, -, rfl⟩ := h
    obtain ⟨hitems, horders, -⟩ := resolveRequestSupplier_ok hw
    exact (hv.trans (.of_eq hitems horders)).trans (KeepsLines.of_modifyItem w itemId fun _ => rfl)
  · obtain ⟨-, rfl⟩ := Prod.mk.inj (pure_eq_ok.mp h)
    refine hv.trans (KeepsLines.trans ?_ (KeepsLines.of_modifyItem _ itemId fun _ => rfl))
    exact .of_eq rfl rfl

theorem resolveExistingOrder_keeps {u : Unicode} {orderId requestId : Nat} {s t : Store}
    (h : resolveExistingOrder u orderId requestId s = .ok t)
    : KeepsLines s t := by
  simp only [resolveExistingOrder, lockOpenPendingOrder, bind_eq_ok, require_eq_ok, found_eq_ok,
    pure_eq_ok] at h
  obtain ⟨order, -, -, -, locked, ⟨-, -, rfl⟩, supplier, -, ⟨name, id, v⟩, hr, -, -, rfl⟩ := h
  have hlocked : KeepsLines s { s with
      orders := s.orders.modify orderId (fun o => { o with notes := order.notes }) } :=
    KeepsLines.of_modifyOrder s orderId fun _ => rfl
  exact (hlocked.trans (resolveOrganization_only hr).keepsLines).trans
    (KeepsLines.of_modifyOrder v orderId fun _ => rfl)

theorem resolveConversionOrder_ok {u : Unicode} {requestId orderId : Nat}
    {target : ConversionTarget} {candidates : List (Option String)} {notes : Option String}
    {s t : Store}
    (h : resolveConversionOrder u requestId target candidates notes s = .ok (orderId, t))
    : KeepsLines s t ∧ orderId = target.pendingOrderId.getD s.orders.nextKey := by
  simp only [resolveConversionOrder] at h
  cases hp : target.pendingOrderId with
  | some existing =>
      rw [hp] at h
      simp only [bind_eq_ok, pure_eq_ok, Prod.mk.injEq] at h
      obtain ⟨v, hv, rfl, rfl⟩ := h
      exact ⟨(resolveExistingOrder_keeps hv).trans
        (synchronizeOpenRequestIdentity_keeps _ _ _ _ _), rfl⟩
  | none =>
      rw [hp] at h
      simp only [bind_eq_ok, pure_eq_ok, Prod.mk.injEq] at h
      obtain ⟨v, hv, rfl, rfl⟩ := h
      refine ⟨KeepsLines.trans ?_ (synchronizeOpenRequestIdentity_keeps _ _ _ _ _), rfl⟩
      simp only [createConversionOrder, bind_eq_ok, found_eq_ok, pure_eq_ok] at hv
      obtain ⟨supplier, -, ⟨name, id, w⟩, hr, rfl⟩ := hv
      exact (resolveOrganization_only hr).keepsLines.trans (KeepsLines.of_insertOrder w rfl)

/-- A new order has no manual total. -/
theorem manualTotal_nextKey (s : Store) : s.manualTotal s.orders.nextKey = none := by
  unfold Store.manualTotal
  simp

theorem refreshSourcingRequestStatus_keeps (requestId : Nat) (s : Store)
    : KeepsLines s (refreshSourcingRequestStatus requestId s) := by
  unfold refreshSourcingRequestStatus
  split
  · exact .refl s
  · exact .of_eq rfl rfl

-- Attaching lines

theorem attachLines_row {orderId : Nat} (ids : List Nat) {s : Store} {id : Nat}
    {row : SourcingItem}
    (h : (ids.foldl (attachLine orderId) s).items.get? id = some row)
    : ∃ old, s.items.get? id = some old ∧ row.currency = old.currency
      ∧ (row.placement = old.placement ∨ (id ∈ ids ∧ row.pendingOrderId = some orderId)) := by
  induction ids generalizing s with
  | nil => exact ⟨row, h, rfl, .inl rfl⟩
  | cons head rest ih =>
      rw [List.foldl_cons] at h
      obtain ⟨middle, hmiddle, hcurrency, hplace⟩ := ih h
      simp only [attachLine, Store.modifyItem] at hmiddle
      rw [Table.get?_modify] at hmiddle
      obtain ⟨old, hold, rfl⟩ := Option.map_eq_some_iff.mp hmiddle
      by_cases hid : id = head
      · rw [if_pos hid] at hcurrency hplace
        refine ⟨old, hold, hcurrency, .inr ⟨hid ▸ List.mem_cons_self, ?_⟩⟩
        rcases hplace with hplace | ⟨-, horder⟩
        · exact congrArg Prod.fst hplace
        · exact horder
      · rw [if_neg hid] at hcurrency hplace
        exact ⟨old, hold, hcurrency,
          hplace.imp_right fun ⟨hm, horder⟩ => ⟨List.mem_cons_of_mem _ hm, horder⟩⟩

theorem attachLines_orders (orderId : Nat) (ids : List Nat) (s : Store)
    : (ids.foldl (attachLine orderId) s).orders = s.orders := by
  induction ids generalizing s with
  | nil => rfl
  | cons head rest ih => exact (ih _).trans rfl

/-- The currencies of some lines. -/
def Joins (u : Unicode) (s : Store) (ids : List Nat) (currency : String) : Prop :=
  ∃ id ∈ ids, ∃ item, s.items.get? id = some item
    ∧ u.normalizeCurrency item.currency = currency ∧ currency ≠ ""

theorem attachLines_oneCurrency {u : Unicode} {orderId : Nat} {ids : List Nat} {s : Store}
    (hs : OneCurrency u s) (fits : FitsOrder u s orderId (Joins u s ids))
    : OneCurrency u (ids.foldl (attachLine orderId) s) := by
  refine hs.step orderId (Joins u s ids) (fun key ht => ?_) ?_ fits
  · unfold Store.manualTotal at ht ⊢
    rwa [attachLines_orders] at ht
  · rintro key c ⟨id, row, hrow, hkey, hstatus, hcurrency, hne⟩
    obtain ⟨old, hold, hcur, hplace | ⟨hm, horder⟩⟩ := attachLines_row ids hrow
    · obtain ⟨ho, hst, -⟩ : row.pendingOrderId = old.pendingOrderId ∧ row.status = old.status
          ∧ row.currency = old.currency := by
        simpa [SourcingItem.placement] using hplace
      exact .inl ⟨id, old, hold, ho ▸ hkey, hst ▸ hstatus, hcur ▸ hcurrency, hne⟩
    · exact .inr ⟨Option.some.inj (hkey.symm.trans horder), id, hm, old, hold,
        hcur ▸ hcurrency, hne⟩

theorem KeepsLines.currency {s t : Store} (h : KeepsLines s t) {id : Nat}
    {item row : SourcingItem} (hs : s.items.get? id = some item) (ht : t.items.get? id = some row)
    : row.currency = item.currency := by
  obtain ⟨old, hold, hv⟩ := h.lines.back ht
  obtain rfl := Option.some.inj (hs.symm.trans hold)
  exact congrArg (fun p => p.2.2) hv

theorem convertSourcingItem_oneCurrency {env : Env} {itemId : Nat} {target : ConversionTarget}
    {s t : Store} (hs : OneCurrency env.unicode s)
    (h : convertSourcingItem env itemId target s = .ok t)
    : OneCurrency env.unicode t := by
  simp only [convertSourcingItem, requireNoPlannedLinks, bind_eq_ok, require_eq_ok, found_eq_ok,
    pure_eq_ok] at h
  obtain ⟨item, hitem, -, -, ⟨requestId, v⟩, hensure, -, -, -, -, w, hresolve, ⟨orderId, x⟩, horder,
    _, hcheck, rfl⟩ := h
  obtain ⟨hitems, horders, -⟩ := resolveRequestSupplier_ok hresolve
  have hkeeps : KeepsLines s x := ((ensureSourcingRequestForItem_keeps hensure).trans
    (.of_eq hitems horders)).trans (resolveConversionOrder_ok horder).1
  have hstored : s.items.get? itemId = some item := (Option.filter_eq_some_iff.mp hitem).1
  have hattached : OneCurrency env.unicode ([itemId].foldl (attachLine orderId) x) := by
    refine attachLines_oneCurrency (hs.of_keeps hkeeps) ?_
    have hjoins : ∀ c, Joins env.unicode x [itemId] c
        → c = env.unicode.normalizeCurrency item.currency := by
      rintro c ⟨id, hid, row, hrow, hcurrency, -⟩
      obtain rfl := List.mem_singleton.mp hid
      rw [← hcurrency, hkeeps.currency hstored hrow]
    rcases fits_of_check hcheck with hnone | hall | ⟨hempty, hagree⟩
    · exact .inl hnone
    · exact .inr (.inl fun c hc => hall c (hjoins c hc))
    · exact .inr (.inr ⟨hempty, fun c d hc hd => hagree c d (hjoins c hc) (hjoins d hd)⟩)
  exact (hattached.of_keeps (syncOrderLines_keeps _ _ _)).of_keeps
    (refreshSourcingRequestStatus_keeps _ _)

/-- The condition under which a request's open lines may all join an order: it is new or has no
manual total, one of its lines names a currency already, or they name one currency only.
-/
def RequestFits (u : Unicode) (s : Store) (requestId : Nat) (target : ConversionTarget) : Prop :=
  ∀ orderId, target.pendingOrderId = some orderId → s.manualTotal orderId ≠ none
    → pendingOrderLineCurrencies u s orderId = []
    → ∀ a ∈ purchaseItems u s requestId, ∀ b ∈ purchaseItems u s requestId,
      u.normalizeCurrency a.2.currency ≠ "" → u.normalizeCurrency b.2.currency ≠ ""
      → u.normalizeCurrency a.2.currency = u.normalizeCurrency b.2.currency

/-- The lines of a converted request are each checked against the order as it was before. -/
theorem convertSourcingRequest_oneCurrency {env : Env} {requestId : Nat}
    {target : ConversionTarget} {s t : Store} (hs : OneCurrency env.unicode s)
    (hfits : RequestFits env.unicode s requestId target)
    (h : convertSourcingRequest env requestId target s = .ok t)
    : OneCurrency env.unicode t := by
  simp only [convertSourcingRequest, bind_eq_ok, require_eq_ok, found_eq_ok, pure_eq_ok] at h
  obtain ⟨request, -, v, hresolve, -, -, ⟨orderId, x⟩, horder, _, hchecks, rfl⟩ := h
  obtain ⟨hitems, horders, -⟩ := resolveRequestSupplier_ok hresolve
  have hv : KeepsLines s v := .of_eq hitems horders
  obtain ⟨hx, rfl⟩ := resolveConversionOrder_ok horder
  have hpurchase : purchaseItems env.unicode v requestId
      = purchaseItems env.unicode s requestId := by
    unfold purchaseItems
    rw [hitems]
  rw [hpurchase] at hchecks ⊢
  rw [forM_eq_ok] at hchecks
  have hstored : ∀ entry ∈ purchaseItems env.unicode s requestId,
      s.items.get? entry.1 = some entry.2 := fun entry he =>
    Table.get?_eq_some.mpr (List.mem_filter.mp he).1
  have hjoins : ∀ c, Joins env.unicode x
        ((purchaseItems env.unicode s requestId).map Prod.fst) c
      → ∃ entry ∈ purchaseItems env.unicode s requestId,
        env.unicode.normalizeCurrency entry.2.currency = c ∧ c ≠ "" := by
    rintro c ⟨id, hid, row, hrow, hcurrency, hne⟩
    obtain ⟨entry, he, rfl⟩ := List.mem_map.mp hid
    exact ⟨entry, he, by rw [← hcurrency, (hv.trans hx).currency (hstored entry he) hrow], hne⟩
  refine OneCurrency.of_keeps (OneCurrency.of_keeps ?_ (syncOrderLines_keeps _ _ _))
    (refreshSourcingRequestStatus_keeps _ _)
  refine attachLines_oneCurrency (hs.of_keeps (hv.trans hx)) ?_
  by_cases hnone : x.manualTotal (target.pendingOrderId.getD v.orders.nextKey) = none
  · exact .inl hnone
  · have hbefore := hx.totals _ hnone
    cases hp : target.pendingOrderId with
    | none =>
        rw [hp] at hbefore
        exact absurd (manualTotal_nextKey v) hbefore
    | some existing =>
        simp only [hp, Option.getD_some] at hchecks hnone hbefore ⊢
        by_cases hempty : pendingOrderLineCurrencies env.unicode x existing = []
        · have hlive : ∀ c, ¬ LiveIn env.unicode x existing c := fun c hc => by
            rw [← mem_pendingOrderLineCurrencies, hempty] at hc
            cases hc
          refine .inr (.inr ⟨hlive, fun c d hc hd => ?_⟩)
          obtain ⟨a, ha, rfl, hane⟩ := hjoins c hc
          obtain ⟨b, hb, rfl, hbne⟩ := hjoins d hd
          refine hfits existing hp ((hv.totals _ hbefore)) ?_ a ha b hb hane hbne
          refine List.eq_nil_iff_forall_not_mem.mpr fun c hc => ?_
          rw [mem_pendingOrderLineCurrencies] at hc
          exact hlive c ((hv.trans hx).symm_liveIn hc)
        · refine .inr (.inl fun c hc => ?_)
          obtain ⟨entry, he, rfl, -⟩ := hjoins c hc
          rcases assertLineCurrencyFitsPendingOrder_ok (hchecks entry he) with h | h | h
          · exact absurd h hnone
          · exact absurd h hempty
          · exact h

-- Runs

/-- Work beside the orders: it sets no manual total and adds no line to an order. -/
structure BesideOrders (u : Unicode) (s t : Store) : Prop where
  totals : ∀ orderId, t.manualTotal orderId ≠ none → s.manualTotal orderId ≠ none
  lines : ∀ orderId c, LiveIn u t orderId c → LiveIn u s orderId c

/-- A step of a run: a request that writes orders, or other work and what it leaves. -/
inductive OrderStep
  | request (env : Env) (sent : OrderRequest)
  | beside (t : Store)

def OrderStep.run : OrderStep → Store → Except Failure Store
  | .request env sent, s => sent.run env s
  | .beside t, _ => .ok t

/-- The condition on a request: only the conversion of a whole request has one. -/
def OrderRequest.FitsOrders (u : Unicode) (s : Store) : OrderRequest → Prop
  | .convertRequest requestId target => RequestFits u s requestId target
  | _ => True

/-- A step is admitted when its request satisfies a condition under the installation's Unicode
tables, and when other work stays beside the orders.
-/
def OrderStep.Admitted (u : Unicode) (condition : Store → OrderRequest → Prop) (s : Store)
    : OrderStep → Prop
  | .request env sent => env.unicode = u ∧ condition s sent
  | .beside t => BesideOrders u s t

theorem OrderRequest.run_oneCurrency {env : Env} {request : OrderRequest} {s t : Store}
    (hs : OneCurrency env.unicode s) (hfits : request.FitsOrders env.unicode s)
    (h : request.run env s = .ok t)
    : OneCurrency env.unicode t := by
  cases request with
  | create payload => exact createPendingOrder_oneCurrency hs h
  | update orderId payload => exact applyPendingOrderUpdate_oneCurrency hs h
  | addLines orderId lines => exact addPendingOrderItemsBulk_oneCurrency hs h
  | updateLine orderId itemId payload => exact updatePendingOrderItem_oneCurrency hs h
  | deleteLine orderId itemId => exact deletePendingOrderItem_oneCurrency hs h
  | convertItem itemId target => exact convertSourcingItem_oneCurrency hs h
  | convertRequest requestId target => exact convertSourcingRequest_oneCurrency hs hfits h
  | delete orderId => exact deletePendingOrder_oneCurrency hs h

/-- In every run whose whole-request conversions satisfy the condition, each order with a manual
total has its lines in one currency.
-/
theorem oneCurrency_reached {u : Unicode} {start s : Store} (hstart : OneCurrency u start)
    (h : Reachable OrderStep.run (OrderStep.Admitted u (fun s r => r.FitsOrders u s)) start s)
    : OneCurrency u s := by
  refine h.invariant hstart fun s t step hs hadmitted hrun => ?_
  cases step with
  | request env sent =>
      obtain ⟨rfl, hfits⟩ := hadmitted
      exact OrderRequest.run_oneCurrency hs hfits hrun
  | beside t' =>
      obtain rfl := Except.ok.inj hrun
      intro orderId ht a b ha hb
      exact hs orderId (hadmitted.totals orderId ht) a b (hadmitted.lines orderId a ha)
        (hadmitted.lines orderId b hb)

/-- A sourcing request with one line in euro and one in dollars. -/
def twoQuotes : Store where
  requests := Table.empty.insert { supplier := some "Acme" }
  items :=
    (Table.empty.insert
      {
        publisherName := "Acme"
        softwareDescription := "Editor"
        currency := "EUR"
        sourcingRequestId := some 1
      }).insert
      {
        publisherName := "Acme"
        softwareDescription := "Viewer"
        currency := "USD"
        sourcingRequestId := some 1
      }

theorem twoQuotes_oneCurrency : OneCurrency .ascii twoQuotes :=
  fun _ htotal => absurd rfl htotal

/-- An order that gets its manual total before it has lines, and then one of the two lines. -/
def totalThenLine : List OrderStep :=
  [.request (.onDay 50) (.create { poNumber := "PO-1", supplier := some "Acme" }),
    .request (.onDay 50) (.update 1 { poTotalOverride := some (some "1000") }),
    .request (.onDay 50) (.convertItem 1 { pendingOrderId := some 1 })]

/-- The order then has a manual total and its lines in one currency. -/
theorem oneCurrency_totalThenLine
    : ∃ s, runAll OrderStep.run totalThenLine twoQuotes = some s
        ∧ s.manualTotal 1 = some "1000" ∧ OneCurrency .ascii s := by
  obtain ⟨s, hs⟩ : ∃ s, runAll OrderStep.run totalThenLine twoQuotes = some s :=
    Option.isSome_iff_exists.mp (by decide +kernel)
  have htotal : (runAll OrderStep.run totalThenLine twoQuotes).map (·.manualTotal 1)
      = some (some "1000") := by decide +kernel
  rw [hs] at htotal
  refine ⟨s, hs, Option.some.inj htotal, oneCurrency_reached twoQuotes_oneCurrency
    (.of_runAll .start (fun _ step hm => ?_) hs)⟩
  simp only [totalThenLine, List.mem_cons, List.not_mem_nil, or_false] at hm
  rcases hm with rfl | rfl | rfl <;> exact ⟨rfl, trivial⟩

/-- The same order with both lines, attached by the conversion of the whole request. -/
def totalThenRequest : List OrderStep :=
  [.request (.onDay 50) (.create { poNumber := "PO-1", supplier := some "Acme" }),
    .request (.onDay 50) (.update 1 { poTotalOverride := some (some "1000") }),
    .request (.onDay 50) (.convertRequest 1 { pendingOrderId := some 1 })]

/-- Without the condition an order with a manual total ends with lines in two currencies. -/
theorem twoCurrencies_totalThenRequest
    : ¬ ∀ start s, OneCurrency .ascii start
        → Reachable OrderStep.run (OrderStep.Admitted .ascii (fun _ _ => True)) start s
        → OneCurrency .ascii s := by
  intro hclaim
  obtain ⟨s, hs⟩ : ∃ s, runAll OrderStep.run totalThenRequest twoQuotes = some s :=
    Option.isSome_iff_exists.mp (by decide +kernel)
  have hstate : (runAll OrderStep.run totalThenRequest twoQuotes).map (fun s =>
      (s.manualTotal 1, pendingOrderLineCurrencies .ascii s 1))
      = some (some "1000", ["EUR", "USD"]) := by decide +kernel
  rw [hs] at hstate
  obtain ⟨htotal, hcurrencies⟩ := Prod.mk.inj (Option.some.inj hstate)
  have hone := hclaim twoQuotes s twoQuotes_oneCurrency
    (.of_runAll .start (fun _ step hm => by
      simp only [totalThenRequest, List.mem_cons, List.not_mem_nil, or_false] at hm
      rcases hm with rfl | rfl | rfl <;> exact ⟨rfl, trivial⟩) hs)
  have heq : "EUR" = "USD" := by
    refine hone 1 ?_ _ _ (mem_pendingOrderLineCurrencies.mp ?_)
      (mem_pendingOrderLineCurrencies.mp ?_)
    · rw [htotal]
      exact Option.some_ne_none _
    · rw [hcurrencies]
      simp
    · rw [hcurrencies]
      simp
  exact absurd heq (by decide)

end LicenseTrack
