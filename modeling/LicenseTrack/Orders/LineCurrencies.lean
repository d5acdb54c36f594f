import LicenseTrack.Conversion.LineEffect
import LicenseTrack.Services.SourcingConversion

/-! The currencies of an order's lines, and what each step of an order request does to them.
-/

namespace LicenseTrack

open Library

/-- The manual total of an order, an empty text counting as none. -/
def Store.manualTotal (s : Store) (orderId : Nat) : Option String :=
  (s.orders.get? orderId).bind (fun order => truthy order.poTotalOverride)

/-- Some line of an order that is not cancelled names a currency. -/
def LiveIn (u : Unicode) (s : Store) (orderId : Nat) (currency : String) : Prop :=
  ∃ id item, s.items.get? id = some item ∧ item.pendingOrderId = some orderId
    ∧ item.status ≠ .cancelled ∧ u.normalizeCurrency item.currency = currency ∧ currency ≠ ""

/-- Every order with a manual total has its lines in one currency. -/
def OneCurrency (u : Unicode) (s : Store) : Prop :=
  ∀ orderId, s.manualTotal orderId ≠ none → ∀ a b, LiveIn u s orderId a → LiveIn u s orderId b
    → a = b

theorem mem_pendingOrderLineCurrencies {u : Unicode} {s : Store} {orderId : Nat}
    {currency : String}
    : currency ∈ pendingOrderLineCurrencies u s orderId ↔ LiveIn u s orderId currency := by
  unfold pendingOrderLineCurrencies LiveIn
  simp only [List.mem_dedup, List.mem_filter, List.mem_map, decide_eq_true_eq]
  constructor
  · rintro ⟨⟨⟨id, item⟩, hm, rfl⟩, hne⟩
    have hget := Table.get?_eq_some.mpr hm
    rw [Table.get?_filter] at hget
    obtain ⟨hitem, hlive⟩ := Option.filter_eq_some_iff.mp hget
    simp only [Bool.and_eq_true, beq_iff_eq, bne_iff_ne] at hlive
    exact ⟨id, item, hitem, hlive.1, hlive.2, rfl, hne⟩
  · rintro ⟨id, item, hitem, horder, hstatus, rfl, hne⟩
    refine ⟨⟨(id, item), Table.get?_eq_some.mp ?_, rfl⟩, hne⟩
    rw [Table.get?_filter, hitem]
    simp [Option.filter, horder, hstatus]

theorem pendingOrderLineCurrencies_length_le_one {u : Unicode} {s : Store} {orderId : Nat}
    (h : (pendingOrderLineCurrencies u s orderId).length ≤ 1) {a b : String}
    (ha : LiveIn u s orderId a) (hb : LiveIn u s orderId b)
    : a = b := by
  rw [← mem_pendingOrderLineCurrencies] at ha hb
  match hlist : pendingOrderLineCurrencies u s orderId with
  | [] => simp [hlist] at ha
  | [c] =>
      rw [hlist, List.mem_singleton] at ha hb
      rw [ha, hb]
  | _ :: _ :: _ =>
      rw [hlist] at h
      simp at h

theorem assertLineCurrencyFitsPendingOrder_ok {u : Unicode} {s : Store} {orderId : Nat}
    {currency : String} {r : PUnit}
    (h : assertLineCurrencyFitsPendingOrder u s orderId currency = .ok r)
    : s.manualTotal orderId = none ∨ pendingOrderLineCurrencies u s orderId = []
      ∨ LiveIn u s orderId (u.normalizeCurrency currency) := by
  simp only [assertLineCurrencyFitsPendingOrder, require_eq_ok] at h
  rw [mem_pendingOrderLineCurrencies] at h
  exact h

-- Steps that keep the lines

/-- What the currencies of an order read of a line. -/
def SourcingItem.placement (item : SourcingItem) : Option Nat × SourcingStatus × String :=
  (item.pendingOrderId, item.status, item.currency)

/-- A step that keeps every line's placement and sets no manual total. -/
structure KeepsLines (s t : Store) : Prop where
  lines : s.items.Agrees SourcingItem.placement t.items
  totals : ∀ orderId, t.manualTotal orderId ≠ none → s.manualTotal orderId ≠ none

namespace KeepsLines

variable {s t v : Store}

theorem refl (s : Store) : KeepsLines s s := ⟨Table.Agrees.refl _ _, fun _ h => h⟩

theorem trans (h : KeepsLines s t) (h' : KeepsLines t v) : KeepsLines s v where
  lines := h.lines.trans h'.lines
  totals := fun orderId ht => h.totals orderId (h'.totals orderId ht)

theorem of_eq (hitems : t.items = s.items) (horders : t.orders = s.orders) : KeepsLines s t where
  lines := by
    rw [hitems]
    exact Table.Agrees.refl _ _
  totals := fun orderId ht => by
    unfold Store.manualTotal at ht ⊢
    rw [← horders]
    exact ht

theorem of_modifyItem (s : Store) (itemId : Nat) {f : SourcingItem → SourcingItem}
    (h : ∀ item, (f item).placement = item.placement)
    : KeepsLines s (s.modifyItem itemId f) where
  lines := Table.Agrees.of_modify h
  totals := fun _ ht => ht

theorem of_mapItems (s : Store) {f : Nat → SourcingItem → SourcingItem}
    (h : ∀ id item, (f id item).placement = item.placement)
    : KeepsLines s { s with items := s.items.mapRows f } where
  lines := Table.Agrees.of_mapRows h
  totals := fun _ ht => ht

theorem of_modifyOrder (s : Store) (orderId : Nat) {f : PendingOrder → PendingOrder}
    (h : ∀ order, (f order).poTotalOverride = order.poTotalOverride)
    : KeepsLines s { s with orders := s.orders.modify orderId f } where
  lines := Table.Agrees.refl _ _
  totals := fun key ht => by
    unfold Store.manualTotal at ht ⊢
    rw [Table.get?_modify] at ht
    rcases hk : s.orders.get? key with _ | order
    · simp [hk] at ht
    · rw [hk] at ht
      by_cases he : key = orderId
      · simpa [he, h] using ht
      · simpa [he] using ht

theorem of_insertOrder (s : Store) {order : PendingOrder} (h : order.poTotalOverride = none)
    : KeepsLines s { s with orders := s.orders.insert order } where
  lines := Table.Agrees.refl _ _
  totals := fun key ht => by
    unfold Store.manualTotal at ht ⊢
    rw [Table.get?_insert] at ht
    split at ht
    · simp [h, truthy] at ht
    · exact ht

theorem liveIn (h : KeepsLines s t) {u : Unicode} {orderId : Nat} {currency : String}
    (hl : LiveIn u t orderId currency)
    : LiveIn u s orderId currency := by
  obtain ⟨id, item, hitem, horder, hstatus, hcurrency, hne⟩ := hl
  obtain ⟨row, hrow, hv⟩ := h.lines.back hitem
  obtain ⟨ho, hs, hc⟩ : item.pendingOrderId = row.pendingOrderId ∧ item.status = row.status
      ∧ item.currency = row.currency := by
    simpa [SourcingItem.placement] using hv
  exact ⟨id, row, hrow, ho ▸ horder, hs ▸ hstatus, hc ▸ hcurrency, hne⟩

theorem symm_liveIn (h : KeepsLines s t) {u : Unicode} {orderId : Nat} {currency : String}
    (hl : LiveIn u s orderId currency)
    : LiveIn u t orderId currency := by
  obtain ⟨id, item, hitem, horder, hstatus, hcurrency, hne⟩ := hl
  obtain ⟨row, hrow, hv⟩ := h.lines.forth hitem
  obtain ⟨ho, hs, hc⟩ : row.pendingOrderId = item.pendingOrderId ∧ row.status = item.status
      ∧ row.currency = item.currency := by
    simpa [SourcingItem.placement] using hv
  exact ⟨id, row, hrow, ho.trans horder, hs ▸ hstatus, by rw [hc]; exact hcurrency, hne⟩

end KeepsLines

/-- A line that joins an order fits it when the order has no manual total, when another line
already names its currency, or when no line names one and all that join agree.
-/
def FitsOrder (u : Unicode) (s : Store) (orderId : Nat) (joins : String → Prop) : Prop :=
  s.manualTotal orderId = none ∨ (∀ c, joins c → LiveIn u s orderId c)
    ∨ ((∀ c, ¬ LiveIn u s orderId c) ∧ ∀ c d, joins c → joins d → c = d)

theorem OneCurrency.step {u : Unicode} {s t : Store} (h : OneCurrency u s) (target : Nat)
    (joins : String → Prop)
    (totals : ∀ orderId, t.manualTotal orderId ≠ none → s.manualTotal orderId ≠ none)
    (lines : ∀ orderId c, LiveIn u t orderId c
      → LiveIn u s orderId c ∨ (orderId = target ∧ joins c))
    (fits : FitsOrder u s target joins)
    : OneCurrency u t := by
  intro orderId ht a b ha hb
  have hs := totals orderId ht
  rcases lines orderId a ha with ha | ⟨rfl, ha⟩
  · rcases lines orderId b hb with hb | ⟨rfl, hb⟩
    · exact h orderId hs a b ha hb
    · rcases fits with hnone | hall | ⟨hempty, -⟩
      · exact absurd hnone hs
      · exact h orderId hs a b ha (hall b hb)
      · exact absurd ha (hempty a)
  · rcases lines orderId b hb with hb | ⟨-, hb⟩
    · rcases fits with hnone | hall | ⟨hempty, -⟩
      · exact absurd hnone hs
      · exact h orderId hs a b (hall a ha) hb
      · exact absurd hb (hempty b)
    · rcases fits with hnone | hall | ⟨-, hagree⟩
      · exact absurd hnone hs
      · exact h orderId hs a b (hall a ha) (hall b hb)
      · exact hagree a b ha hb

theorem OneCurrency.of_keeps {u : Unicode} {s t : Store} (h : OneCurrency u s)
    (hk : KeepsLines s t)
    : OneCurrency u t :=
  fun orderId ht a b ha hb => h orderId (hk.totals orderId ht) a b (hk.liveIn ha) (hk.liveIn hb)

theorem fits_of_check {u : Unicode} {s : Store} {orderId : Nat} {currency : String} {r : PUnit}
    (h : assertLineCurrencyFitsPendingOrder u s orderId currency = .ok r)
    : FitsOrder u s orderId (· = u.normalizeCurrency currency) := by
  rcases assertLineCurrencyFitsPendingOrder_ok h with hnone | hempty | hlive
  · exact .inl hnone
  · refine .inr (.inr ⟨fun c hc => ?_, fun c d hc hd => hc.trans hd.symm⟩)
    rw [← mem_pendingOrderLineCurrencies, hempty] at hc
    cases hc
  · exact .inr (.inl fun c hc => hc ▸ hlive)

theorem OnlyReferences.keepsLines {s t : Store} (h : OnlyReferences s t) : KeepsLines s t :=
  .of_eq (by rw [h]) (by rw [h])

theorem resolveSupplierColumns_only {u : Unicode} {supplier : Option String}
    {columns : Option String × Option Nat} {s t : Store}
    (h : resolveSupplierColumns u supplier s = .ok (columns, t))
    : OnlyReferences s t := by
  simp only [resolveSupplierColumns] at h
  split at h
  · obtain ⟨-, rfl⟩ := Prod.mk.inj (Except.ok.inj h)
    rfl
  · simp only [bind_eq_ok, pure_eq_ok, Prod.mk.injEq] at h
    obtain ⟨⟨name, id, v⟩, hr, -, rfl⟩ := h
    exact resolveOrganization_only hr

theorem resolveSourcingItemReferences_ok {u : Unicode} {item resolved : SourcingItem}
    {s t : Store} (h : resolveSourcingItemReferences u item s = .ok (resolved, t))
    : OnlyReferences s t ∧ resolved.placement = item.placement := by
  simp only [resolveSourcingItemReferences, bind_eq_ok, require_eq_ok] at h
  obtain ⟨-, -, ⟨publisher, publisherId, v⟩, hpublisher, h⟩ := h
  have hv := resolveOrganization_only hpublisher
  split at h
  · obtain ⟨rfl, rfl⟩ := Prod.mk.inj (pure_eq_ok.mp h)
    exact ⟨hv, rfl⟩
  · simp only [bind_eq_ok, pure_eq_ok, Prod.mk.injEq] at h
    obtain ⟨⟨name, id, w⟩, hsupplier, rfl, rfl⟩ := h
    exact ⟨hv.trans (resolveOrganization_only hsupplier), rfl⟩

theorem issueOrderLine_keeps (u : Unicode) (poNumber : String) (requested : Option Nat)
    (itemId : Nat) (s : Store)
    : KeepsLines s (issueOrderLine u poNumber requested itemId s) := by
  have hissued : KeepsLines s (allocateLine u poNumber requested s).2 := .of_eq rfl rfl
  refine hissued.trans (KeepsLines.of_modifyItem _ itemId fun item => ?_)
  rfl

theorem KeepsLines.foldl {α : Type} {step : Store → α → Store}
    (h : ∀ s a, KeepsLines s (step s a)) (list : List α) (s : Store)
    : KeepsLines s (list.foldl step s) := by
  induction list generalizing s with
  | nil => exact .refl s
  | cons head rest ih =>
      rw [List.foldl_cons]
      exact (h s head).trans (ih (step s head))

theorem syncOrderLines_keeps (u : Unicode) (orderId : Nat) (s : Store)
    : KeepsLines s (syncOrderLines u orderId s) := by
  unfold syncOrderLines
  split
  · exact .refl s
  · dsimp only
    split
    · refine KeepsLines.foldl (fun s (entry : Nat × SourcingItem) =>
        KeepsLines.of_modifyItem s entry.1 fun item => ?_) _ s
      rfl
    · exact (KeepsLines.foldl (fun s entry => issueOrderLine_keeps _ _ _ _ s) _ s).trans
        (KeepsLines.foldl (fun s entry => issueOrderLine_keeps _ _ _ _ s) _ _)

end LicenseTrack
