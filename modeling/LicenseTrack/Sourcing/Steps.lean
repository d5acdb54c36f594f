import LicenseTrack.Sourcing.OnePath

/-! Quiet steps: requests that add lines and requests, and otherwise leave every line where it
stands.
-/

namespace LicenseTrack

open Library

/-- A line that stays where it is. Only a line without a request may get one, and its publisher's
name may be spelled anew with it.
-/
structure StaysPut (item item' : SourcingItem) : Prop where
  status : item'.status = item.status
  order : item'.pendingOrderId = item.pendingOrderId
  successor : item'.successorSourcingItemId = item.successorSourcingItemId
  type : item'.licenseType = item.licenseType
  placed : item.sourcingRequestId ≠ none → item'.sourcingRequestId = item.sourcingRequestId
    ∧ item'.publisherName = item.publisherName

namespace StaysPut

theorem refl (item : SourcingItem) : StaysPut item item := ⟨rfl, rfl, rfl, rfl, fun _ => ⟨rfl, rfl⟩⟩

theorem trans {a b c : SourcingItem} (h : StaysPut a b) (h' : StaysPut b c) : StaysPut a c where
  status := h'.status.trans h.status
  order := h'.order.trans h.order
  successor := h'.successor.trans h.successor
  type := h'.type.trans h.type
  placed := fun ha => by
    obtain ⟨hrequest, hpublisher⟩ := h.placed ha
    obtain ⟨hrequest', hpublisher'⟩ := h'.placed (hrequest ▸ ha)
    exact ⟨hrequest'.trans hrequest, hpublisher'.trans hpublisher⟩

theorem of_standing {item item' : SourcingItem} (h : item'.standing = item.standing)
    : StaysPut item item' where
  status := congrArg (·.status) h
  order := congrArg (·.pendingOrderId) h
  successor := congrArg (·.successorSourcingItemId) h
  type := congrArg (·.licenseType) h
  placed := fun _ =>
    ⟨congrArg (·.sourcingRequestId) h, congrArg (·.publisherName) h⟩

end StaysPut

/-- A step that adds lines without a next term, and requests that are not closed unless a line of
theirs is converted, and leaves the rest where it stands.
-/
structure QuietStep (s t : Store) : Prop where
  kept : ∀ id item, s.items.get? id = some item
    → ∃ item', t.items.get? id = some item' ∧ StaysPut item item'
  added : ∀ id item', t.items.get? id = some item' → s.items.get? id = none
    → s.items.nextKey ≤ id ∧ item'.successorSourcingItemId = none
  requests : ∀ id request', t.requests.get? id = some request'
    → (∃ request, s.requests.get? id = some request ∧ request'.status = request.status)
      ∨ (request'.status = .converted → t.hasLine id .converted = true)
  nextKey : s.items.nextKey ≤ t.items.nextKey

namespace QuietStep

variable {s t v : Store}

theorem hasLine (h : QuietStep s t) {requestId : Nat} {status : SourcingStatus}
    (hs : s.hasLine requestId status = true)
    : t.hasLine requestId status = true := by
  obtain ⟨id, item, hitem, hrequest, hstatus⟩ := hasLine_iff.mp hs
  obtain ⟨item', hitem', hput⟩ := h.kept id item hitem
  refine hasLine_iff.mpr ⟨id, item', hitem', ?_, hput.status.trans hstatus⟩
  rw [(hput.placed (by rw [hrequest]; exact Option.some_ne_none _)).1, hrequest]

theorem refl (s : Store) : QuietStep s s where
  kept := fun _ item hitem => ⟨item, hitem, .refl item⟩
  added := fun _ _ ht hs => by
    rw [hs] at ht
    cases ht
  requests := fun _ request hrequest => .inl ⟨request, hrequest, rfl⟩
  nextKey := Nat.le_refl _

theorem trans (h : QuietStep s t) (h' : QuietStep t v) : QuietStep s v where
  kept := fun id item hitem => by
    obtain ⟨middle, hmiddle, hput⟩ := h.kept id item hitem
    obtain ⟨item', hitem', hput'⟩ := h'.kept id middle hmiddle
    exact ⟨item', hitem', hput.trans hput'⟩
  added := fun id item' hitem' hnone => by
    rcases hmiddle : t.items.get? id with _ | middle
    · obtain ⟨hle, hsuccessor⟩ := h'.added id item' hitem' hmiddle
      exact ⟨Nat.le_trans h.nextKey hle, hsuccessor⟩
    · obtain ⟨hle, hsuccessor⟩ := h.added id middle hmiddle hnone
      obtain ⟨row, hrow, hput⟩ := h'.kept id middle hmiddle
      obtain rfl := Option.some.inj (hitem'.symm.trans hrow)
      exact ⟨hle, hput.successor.trans hsuccessor⟩
  requests := fun id request' hrequest' => by
    rcases h'.requests id request' hrequest' with ⟨middle, hmiddle, hstatus⟩ | hline
    · rcases h.requests id middle hmiddle with ⟨request, hrequest, hstatus'⟩ | hline
      · exact .inl ⟨request, hrequest, hstatus.trans hstatus'⟩
      · exact .inr fun hconverted => h'.hasLine (hline (hstatus ▸ hconverted))
    · exact .inr hline
  nextKey := Nat.le_trans h.nextKey h'.nextKey

theorem of_standing (h : KeepsStanding s t) : QuietStep s t where
  kept := fun id item hitem => by
    obtain ⟨item', hitem', hstanding⟩ := h.lines.forth hitem
    exact ⟨item', hitem', .of_standing hstanding⟩
  added := fun id item' hitem' hnone => by
    rw [h.lines.missing hnone] at hitem'
    cases hitem'
  requests := fun id request' hrequest' => by
    obtain ⟨request, hrequest, hstatus⟩ := h.requests.back hrequest'
    exact .inl ⟨request, hrequest, hstatus⟩
  nextKey := Nat.le_of_eq h.lines.nextKey.symm

theorem of_eq (hitems : t.items = s.items) (hrequests : t.requests = s.requests) : QuietStep s t :=
  .of_standing (.of_eq hitems hrequests)

theorem of_only (h : OnlyReferences s t) : QuietStep s t := .of_eq h.items h.requests

theorem of_rows {f : Nat → SourcingItem → SourcingItem} (hitems : t.items = s.items.mapRows f)
    (hrequests : t.requests = s.requests)
    (h : ∀ id item, s.items.get? id = some item → StaysPut item (f id item))
    : QuietStep s t where
  kept := fun id item hitem => ⟨f id item, by simp [hitems, hitem], h id item hitem⟩
  added := fun id item' hitem' hnone => by
    simp [hitems, hnone] at hitem'
  requests := fun _ request hrequest => .inl ⟨request, hrequests ▸ hrequest, rfl⟩
  nextKey := by rw [hitems, Table.nextKey_mapRows]

theorem of_insertItem (s : Store) {item : SourcingItem} (h : item.successorSourcingItemId = none)
    : QuietStep s { s with items := s.items.insert item } where
  kept := fun id row hrow => by
    refine ⟨row, ?_, .refl row⟩
    rw [Table.get?_insert, if_neg (Nat.ne_of_lt (Table.lt_nextKey_of_get? hrow))]
    exact hrow
  added := fun id row hrow hnone => by
    rw [Table.get?_insert] at hrow
    split at hrow
    · next he =>
        obtain rfl := Option.some.inj hrow
        exact ⟨Nat.le_of_eq he.symm, h⟩
    · rw [hnone] at hrow
      cases hrow
  requests := fun _ request hrequest => .inl ⟨request, hrequest, rfl⟩
  nextKey := by
    rw [Table.nextKey_insert]
    exact Nat.le_succ _

theorem of_insertRequest (s : Store) {request : SourcingRequest} (h : request.status ≠ .converted)
    : QuietStep s { s with requests := s.requests.insert request } where
  kept := fun _ item hitem => ⟨item, hitem, .refl item⟩
  added := fun id item hitem hnone => by
    rw [hnone] at hitem
    cases hitem
  requests := fun id row hrow => by
    rw [Table.get?_insert] at hrow
    split at hrow
    · obtain rfl := Option.some.inj hrow
      exact .inr fun hconverted => absurd hconverted h
    · exact .inl ⟨row, hrow, rfl⟩
  nextKey := Nat.le_refl _

theorem of_each {α : Type} {step : α → Store → Except Failure Store} {list : List α}
    (hstep : ∀ a ∈ list, ∀ s t, step a s = .ok t → QuietStep s t)
    (h : each step list s = .ok t)
    : QuietStep s t :=
  each_relates QuietStep.refl (fun h₁ h₂ => h₁.trans h₂) hstep h

theorem foldl {α : Type} {step : Store → α → Store} (h : ∀ s a, QuietStep s (step s a))
    (list : List α) (s : Store)
    : QuietStep s (list.foldl step s) := by
  induction list generalizing s with
  | nil => exact .refl s
  | cons head rest ih =>
      rw [List.foldl_cons]
      exact (h s head).trans (ih (step s head))

end QuietStep

-- The request of a line

/-- What giving a line a request does. -/
structure RequestEnsured (itemId requestId : Nat) (item : SourcingItem) (s t : Store) : Prop where
  others : ∀ id, id ≠ itemId → t.items.get? id = s.items.get? id
  row : ∃ row, t.items.get? itemId = some row ∧ row.sourcingRequestId = some requestId
    ∧ row.status = item.status ∧ row.pendingOrderId = item.pendingOrderId
    ∧ row.successorSourcingItemId = item.successorSourcingItemId
    ∧ row.licenseType = item.licenseType
  requests : (item.sourcingRequestId = some requestId
      ∧ s.requests.Agrees SourcingRequest.status t.requests)
    ∨ (item.sourcingRequestId.filter (fun id => (s.requests.get? id).isSome) = none
      ∧ requestId = s.requests.nextKey
      ∧ ∃ request : SourcingRequest, request.status = item.status
        ∧ t.requests = s.requests.insert request)
  nextKey : t.items.nextKey = s.items.nextKey

theorem ensureSourcingRequestForItem_ok {u : Unicode} {itemId requestId : Nat}
    {item : SourcingItem} {s t : Store}
    (h : ensureSourcingRequestForItem u itemId item s = .ok (requestId, t))
    (hitem : s.items.get? itemId = some item)
    : RequestEnsured itemId requestId item s t := by
  simp only [ensureSourcingRequestForItem, bind_eq_ok] at h
  obtain ⟨⟨resolved, v⟩, hresolved, h⟩ := h
  have hv := (resolveSourcingItemReferences_ok hresolved).1
  split at h
  · next request hrequest =>
      simp only [bind_eq_ok, pure_eq_ok, Prod.mk.injEq] at h
      obtain ⟨w, hw, rfl, rfl⟩ := h
      obtain ⟨hitems, -, -⟩ := resolveRequestSupplier_ok hw
      have hw' := hitems.trans hv.items
      obtain ⟨hsome, -⟩ := Option.filter_eq_some_iff.mp hrequest
      refine ⟨fun id hid => ?_, ?_, .inl ⟨hsome, ?_⟩, ?_⟩
      · simp only [Store.modifyItem]
        rw [Table.get?_modify_ne _ _ hid, hw']
      · simp only [Store.modifyItem]
        rw [Table.get?_modify_self, hw', hitem]
        exact ⟨_, rfl, hsome, rfl, rfl, rfl, rfl⟩
      · have hkeeps := (resolveRequestSupplier_standing hw).requests
        rw [hv.requests] at hkeeps
        exact hkeeps
      · exact (Table.nextKey_modify _ _ _).trans (congrArg Table.nextKey hw')
  · next hnone =>
      obtain ⟨rfl, rfl⟩ := Prod.mk.inj (pure_eq_ok.mp h)
      rw [hv.requests] at hnone
      refine ⟨fun id hid => ?_, ?_, .inr ⟨hnone, by rw [hv.requests], ?_⟩, ?_⟩
      · simp only [Store.modifyItem]
        rw [Table.get?_modify_ne _ _ hid, hv.items]
      · simp only [Store.modifyItem]
        rw [Table.get?_modify_self, hv.items, hitem]
        exact ⟨_, rfl, rfl, rfl, rfl, rfl, rfl⟩
      · rw [← hv.requests]
        refine ⟨_, ?_, rfl⟩
        rfl
      · exact (Table.nextKey_modify _ _ _).trans (congrArg Table.nextKey hv.items)

theorem RequestEnsured.quiet {itemId requestId : Nat} {item : SourcingItem} {s t : Store}
    (h : RequestEnsured itemId requestId item s t) (hitem : s.items.get? itemId = some item)
    (hnone : item.sourcingRequestId = none)
    : QuietStep s t := by
  obtain ⟨row, hrow, hrequest, hstatus, horder, hsuccessor, htype⟩ := h.row
  refine ⟨fun id other hother => ?_, fun id other hother hmissing => ?_, fun id request hreq => ?_,
    Nat.le_of_eq h.nextKey.symm⟩
  · by_cases hid : id = itemId
    · subst hid
      obtain rfl := Option.some.inj (hitem.symm.trans hother)
      exact ⟨row, hrow, hstatus, horder, hsuccessor, htype, fun hsome => absurd hnone hsome⟩
    · exact ⟨other, (h.others id hid).trans hother, .refl other⟩
  · by_cases hid : id = itemId
    · rw [hid, hitem] at hmissing
      cases hmissing
    · rw [h.others id hid, hmissing] at hother
      cases hother
  · rcases h.requests with ⟨hsome, -⟩ | ⟨-, rfl, created, hcreated, hinserted⟩
    · rw [hnone] at hsome
      cases hsome
    · rw [hinserted, Table.get?_insert] at hreq
      split at hreq
      · next he =>
          obtain rfl := Option.some.inj hreq
          refine .inr fun hconverted => hasLine_iff.mpr ⟨itemId, row, hrow, ?_, ?_⟩
          · rw [hrequest, he]
          · rw [hstatus, ← hcreated, hconverted]
      · exact .inl ⟨request, hreq, rfl⟩

theorem addLineWithRequest_quiet {u : Unicode} {item : SourcingItem} {s t : Store}
    (h : addLineWithRequest u item s = .ok t) (hsuccessor : item.successorSourcingItemId = none)
    : QuietStep s t := by
  simp only [addLineWithRequest, bind_eq_ok, pure_eq_ok] at h
  obtain ⟨⟨requestId, v⟩, hensure, rfl⟩ := h
  have hstored : ({ s with items := s.items.insert item } : Store).items.get? s.items.nextKey
      = some item := by
    rw [Table.get?_insert, if_pos rfl]
  have hensured := ensureSourcingRequestForItem_ok hensure hstored
  obtain ⟨row, hrow, hrequest, hstatus, -, hrowSuccessor, -⟩ := hensured.row
  have hother : ∀ id, id ≠ s.items.nextKey → v.items.get? id = s.items.get? id := fun id hid => by
    rw [hensured.others id hid, Table.get?_insert, if_neg hid]
  refine ⟨fun id other hitem => ?_, fun id other hitem hmissing => ?_, fun id request hreq => ?_, ?_⟩
  · exact ⟨other, (hother id (Nat.ne_of_lt (Table.lt_nextKey_of_get? hitem))).trans hitem,
      .refl other⟩
  · by_cases hid : id = s.items.nextKey
    · subst hid
      obtain rfl := Option.some.inj (hrow.symm.trans hitem)
      exact ⟨Nat.le_refl _, hrowSuccessor.trans hsuccessor⟩
    · rw [hother id hid, hmissing] at hitem
      cases hitem
  · rcases hensured.requests with ⟨-, hagree⟩ | ⟨-, rfl, created, hcreated, hinserted⟩
    · obtain ⟨old, hold, hsame⟩ := hagree.back hreq
      exact .inl ⟨old, hold, hsame⟩
    · rw [hinserted, Table.get?_insert] at hreq
      split at hreq
      · next he =>
          obtain rfl := Option.some.inj hreq
          refine .inr fun hconverted => hasLine_iff.mpr ⟨_, row, hrow, ?_, ?_⟩
          · rw [hrequest, he]
          · rw [hstatus, ← hcreated, hconverted]
      · exact .inl ⟨request, hreq, rfl⟩
  · rw [hensured.nextKey, Table.nextKey_insert]
    exact Nat.le_succ _

end LicenseTrack
