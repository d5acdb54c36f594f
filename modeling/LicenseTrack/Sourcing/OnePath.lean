import LicenseTrack.Sourcing.Standing

/-! The conversion of a whole sourcing request: which of its open lines go onto the order, which of
them become licences, and which are left behind.
-/

namespace LicenseTrack

open Library

/-- An open line of a request that is bought with an order. -/
def SourcingItem.isOpenPurchase (u : Unicode) (requestId : Nat) (item : SourcingItem) : Bool :=
  item.sourcingRequestId == some requestId && item.status == .sourcing && !item.isDirectFreeware u

/-- The statuses of the requests after one of them has been refreshed. -/
def RefreshedRequest (requestId : Nat) (s t : Store) : Prop :=
  ∀ key, (t.requests.get? key).map (·.status)
    = if key = requestId ∧ t.hasLine requestId .sourcing = false then
        (s.requests.get? key).map (fun _ => .converted)
      else (s.requests.get? key).map (·.status)

theorem refreshSourcingRequestStatus_refreshed (requestId : Nat) (s : Store)
    : RefreshedRequest requestId s (refreshSourcingRequestStatus requestId s) := by
  intro key
  have hlines : (refreshSourcingRequestStatus requestId s).hasLine requestId .sourcing
      = s.hasLine requestId .sourcing := by
    unfold Store.hasLine
    rw [(refreshSourcingRequestStatus_items requestId s).1]
  rw [hlines, refreshSourcingRequestStatus_eq]
  rcases hopen : s.hasLine requestId .sourcing with _ | _
  · simp only [Bool.false_eq_true, if_false, and_true, Store.modifyRequest, Table.get?_modify,
      Option.map_map]
    by_cases hkey : key = requestId
    · simp only [hkey, if_true, Function.comp_def]
    · simp only [hkey, if_false, Function.comp_def]
  · simp

/-- What the order part of a conversion does to the lines, the requests and the licences. -/
structure RequestConverted (u : Unicode) (requestId orderId : Nat) (s t : Store) : Prop where
  wasOpen : ∃ request, s.requests.get? requestId = some request ∧ request.status = .sourcing
  purchase : ∃ id item, s.items.get? id = some item ∧ item.isOpenPurchase u requestId = true
  lines : (s.items.mapRows (fun _ item =>
      if item.isOpenPurchase u requestId then item.attached orderId else item)).Agrees
    SourcingItem.standing t.items
  requests : RefreshedRequest requestId s t
  licenses : t.licenses = s.licenses

theorem mem_purchaseItems {u : Unicode} {s : Store} {requestId : Nat} {id : Nat}
    : id ∈ (purchaseItems u s requestId).map Prod.fst
      ↔ ∃ item, s.items.get? id = some item ∧ item.isOpenPurchase u requestId = true := by
  simp only [purchaseItems, SourcingItem.isOpenPurchase, List.mem_map, List.mem_filter,
    Prod.exists, exists_and_right, exists_eq_right, Table.get?_eq_some]

theorem attachListed_eq {u : Unicode} {s : Store} {requestId orderId : Nat}
    : s.items.mapRows (fun id item =>
        if id ∈ (purchaseItems u s requestId).map Prod.fst then item.attached orderId else item)
      = s.items.mapRows (fun _ item =>
        if item.isOpenPurchase u requestId then item.attached orderId else item) := by
  ext key : 1
  simp only [Table.get?_mapRows, mem_purchaseItems]
  rcases hkey : s.items.get? key with _ | item
  · rfl
  · simp

theorem convertSourcingRequest_converted {env : Env} {requestId : Nat} {target : ConversionTarget}
    {s t : Store} (h : convertSourcingRequest env requestId target s = .ok t)
    : ∃ orderId, RequestConverted env.unicode requestId orderId s t := by
  simp only [convertSourcingRequest, bind_eq_ok, require_eq_ok, found_eq_ok, pure_eq_ok] at h
  obtain ⟨request, hrequest, v, hresolve, _, hpurchase, ⟨orderId, w⟩, horder, _, -, rfl⟩ := h
  obtain ⟨hstored, hstatus⟩ := Option.filter_eq_some_iff.mp hrequest
  obtain ⟨hitems, -, hlicenses⟩ := resolveRequestSupplier_ok hresolve
  obtain ⟨horderKeeps, horderLicenses⟩ := resolveConversionOrder_standing horder
  have hbefore : KeepsStanding s w := (resolveRequestSupplier_standing hresolve).trans horderKeeps
  set ids := (purchaseItems env.unicode v requestId).map Prod.fst with hids
  have hids' : ids = (purchaseItems env.unicode s requestId).map Prod.fst := by
    rw [hids, purchaseItems, purchaseItems, hitems]
  obtain ⟨hattachRequests, hattachLicenses⟩ := attachLines_rest orderId ids w
  have hsync := syncOrderLines_standing env.unicode orderId (ids.foldl (attachLine orderId) w)
  obtain ⟨hrefreshItems, hrefreshLicenses⟩ := refreshSourcingRequestStatus_items requestId
    (syncOrderLines env.unicode orderId (ids.foldl (attachLine orderId) w))
  refine ⟨orderId, ⟨request, hstored, by simpa using hstatus⟩, ?_, ?_, ?_, ?_⟩
  · obtain ⟨head, hhead⟩ := List.exists_mem_of_ne_nil _ hpurchase
    have hmem : head.1 ∈ ids := List.mem_map_of_mem hhead
    rw [hids', mem_purchaseItems] at hmem
    exact ⟨head.1, hmem⟩
  · rw [hrefreshItems, ← attachListed_eq, ← hids']
    refine Table.Agrees.trans ?_ hsync.lines
    refine Table.Agrees.trans ?_ (attachLines_standing orderId ids w)
    refine hbefore.lines.mapRows fun id a b hab => ?_
    split
    · exact congrArg (SourcingItem.attached orderId) hab
    · exact hab
  · intro key
    rw [refreshSourcingRequestStatus_refreshed]
    have hkey : ∀ key, ((syncOrderLines env.unicode orderId
        (ids.foldl (attachLine orderId) w)).requests.get? key).map (·.status)
        = (s.requests.get? key).map (·.status) := fun key => by
      refine (hsync.requests key).trans ?_
      rw [hattachRequests]
      exact hbefore.requests key
    have hpresent : ∀ a b : Option SourcingRequest, a.map (·.status) = b.map (·.status)
        → a.map (fun _ => SourcingStatus.converted) = b.map (fun _ => .converted) := by
      intro a b hab
      cases a <;> cases b <;> simp_all
    rw [hkey, hpresent _ _ (hkey key)]
  · calc _ = (syncOrderLines env.unicode orderId (ids.foldl (attachLine orderId) w)).licenses :=
          hrefreshLicenses
      _ = (ids.foldl (attachLine orderId) w).licenses := syncOrderLines_licenses _ _ _
      _ = w.licenses := hattachLicenses
      _ = s.licenses := horderLicenses.trans hlicenses

-- Lines that become licences

/-- A line of which a licence is made, as the conversion of free lines asks. -/
structure FreeLine (u : Unicode) (item : SourcingItem) : Prop where
  status : item.status = .sourcing
  unordered : item.pendingOrderId = none
  direct : item.isDirectFreeware u = true
  fresh : item.renewalForLicenseId = none

/-- The rows of lines that have been converted. -/
def markConverted (ids : List Nat) (id : Nat) (item : SourcingItem) : SourcingItem :=
  if id ∈ ids then { item with status := .converted } else item

/-- What the conversion of free lines does: it makes one licence of each, in turn. -/
structure FreeLinesConverted (u : Unicode) (ids : List Nat) (s t : Store) : Prop where
  free : ids.Nodup → ∀ id ∈ ids, ∃ item, s.items.get? id = some item ∧ FreeLine u item
  items : t.items = s.items.mapRows (markConverted ids)
  requests : t.requests = s.requests
  licenses : ∀ key, (t.licenses.get? key).map (·.sourceSourcingItemId)
    = if s.licenses.nextKey ≤ key then ids[key - s.licenses.nextKey]?.map some
      else (s.licenses.get? key).map (·.sourceSourcingItemId)

theorem convertFreewareItem_ok {env : Env} {itemId : Nat} {s t : Store}
    (h : convertFreewareItem env itemId s = .ok t)
    : (∃ item, s.items.get? itemId = some item ∧ FreeLine env.unicode item)
      ∧ t.items = s.items.modify itemId (fun item => { item with status := .converted })
      ∧ t.requests = s.requests
      ∧ ∃ row : License, row.sourceSourcingItemId = some itemId
        ∧ (s.licenses.insert row).Agrees (fun l : License => l.sourceSourcingItemId) t.licenses := by
  simp only [convertFreewareItem, bind_eq_ok, require_eq_ok, found_eq_ok, pure_eq_ok] at h
  obtain ⟨item, hitem, _, ⟨hstatus, hunordered⟩, _, -, _, hdirect, _, hfresh, ⟨licenseId, v⟩,
    hcreate, rfl⟩ := h
  obtain ⟨row, hmade, -, hpurchase⟩ := createPurchaseLicense_made hcreate
  refine ⟨⟨item, hitem, hstatus, hunordered, hdirect, hfresh⟩, ?_, ?_, row, ?_, ?_⟩
  · rw [← hmade.items]
    rfl
  · exact hmade.requests
  · exact congrArg (·.sourceSourcingItemId) hpurchase
  · have hcore := hmade.core
    rw [Table.mapRows_eq_self fun _ _ _ => markRow_nil _ _ _] at hcore
    have hsource : (s.licenses.insert row).Agrees (fun l : License => l.sourceSourcingItemId)
        v.licenses :=
      hcore.coarsen (fun core => core.2.2.1.sourceSourcingItemId)
    exact hsource.trans (Table.Agrees.of_modify fun _ => rfl)

theorem agrees_insert_at {ρ β : Type} {view : ρ → β} {t t' : Table ρ} {row : ρ}
    (h : (t.insert row).Agrees view t') (key : Nat)
    : (t'.get? key).map view
      = if key = t.nextKey then some (view row) else (t.get? key).map view := by
  rw [h key, Table.get?_insert]
  split <;> rfl

theorem markConverted_cons (head : Nat) (rest : List Nat) (t : Table SourcingItem)
    : (t.modify head (fun item => { item with status := .converted })).mapRows (markConverted rest)
      = t.mapRows (markConverted (head :: rest)) := by
  ext key : 1
  simp only [Table.get?_mapRows, Table.get?_modify, Option.map_map]
  refine congrArg (Option.map · _) (funext fun item => ?_)
  by_cases hhead : key = head <;> by_cases hrest : key ∈ rest <;> simp [markConverted, hhead, hrest]

theorem convertFreewareItems_ok {env : Env} {ids : List Nat} {s t : Store}
    (h : each (convertFreewareItem env) ids s = .ok t)
    : FreeLinesConverted env.unicode ids s t := by
  induction ids generalizing s with
  | nil =>
      obtain rfl : s = t := by simpa [each] using h
      refine ⟨by simp, (Table.mapRows_eq_self fun _ _ _ => by simp [markConverted]).symm, rfl,
        fun key => ?_⟩
      split
      · next hkey =>
          rcases hrow : s.licenses.get? key with _ | row
          · simp
          · exact absurd (Table.lt_nextKey_of_get? hrow) (Nat.not_lt.mpr hkey)
      · rfl
  | cons head rest ih =>
      obtain ⟨v, hv, ht⟩ := bind_eq_ok.mp h
      obtain ⟨hfree, hitems, hrequests, row, hsource, hlicenses⟩ := convertFreewareItem_ok hv
      have hrest := ih ht
      have hnext : v.licenses.nextKey = s.licenses.nextKey + 1 := by
        rw [hlicenses.nextKey, Table.nextKey_insert]
      refine ⟨fun hnodup => ?_, ?_, hrest.requests.trans hrequests, fun key => ?_⟩
      · obtain ⟨hhead, hnodup⟩ := List.nodup_cons.mp hnodup
        intro id hid
        rcases List.mem_cons.mp hid with rfl | hid
        · exact hfree
        · obtain ⟨item, hitem, hfreeLine⟩ := hrest.free hnodup id hid
          have hne : id ≠ head := fun he => hhead (he ▸ hid)
          rw [hitems, Table.get?_modify_ne _ _ hne] at hitem
          exact ⟨item, hitem, hfreeLine⟩
      · rw [hrest.items, hitems, markConverted_cons]
      · rw [hrest.licenses key, hnext, agrees_insert_at hlicenses, hsource]
        rcases Nat.lt_trichotomy key s.licenses.nextKey with hlt | rfl | hgt
        · rw [if_neg (by omega), if_neg (by omega), if_neg (by omega)]
        · rw [if_neg (by omega), if_pos rfl, if_pos (Nat.le_refl _), Nat.sub_self]
          rfl
        · rw [if_pos (by omega), if_pos (by omega)]
          obtain ⟨n, rfl⟩ := Nat.exists_eq_add_of_le (Nat.succ_le_of_lt hgt)
          rw [Nat.succ_eq_add_one]
          rw [show s.licenses.nextKey + 1 + n - (s.licenses.nextKey + 1) = n by omega,
            show s.licenses.nextKey + 1 + n - s.licenses.nextKey = n + 1 by omega,
            List.getElem?_cons_succ]

-- The whole conversion

/-- A licence that a step made of a line. -/
def MadeOf (s t : Store) (itemId licenseId : Nat) : Prop :=
  s.license? licenseId = none ∧ ∃ l, t.license? licenseId = some l
    ∧ l.sourceSourcingItemId = some itemId

/-- A line that stands on an order. -/
def OnOrder (t : Store) (orderId itemId : Nat) : Prop :=
  ∃ item, t.items.get? itemId = some item ∧ item.pendingOrderId = some orderId
    ∧ item.status = .converted

/-- An open line of a request. -/
def OpenLine (s : Store) (requestId itemId : Nat) (item : SourcingItem) : Prop :=
  s.items.get? itemId = some item ∧ item.sourcingRequestId = some requestId
    ∧ item.status = .sourcing

/-- Every open line of a request has taken exactly one path, and the request is closed exactly when
none of its lines is open.
-/
structure OnePath (s t : Store) (requestId : Nat) : Prop where
  paths : ∃ orderId, ∀ itemId item, OpenLine s requestId itemId item
    → (OnOrder t orderId itemId ∧ ∀ licenseId, ¬ MadeOf s t itemId licenseId)
      ∨ (¬ OnOrder t orderId itemId ∧ ∃! licenseId, MadeOf s t itemId licenseId)
  notBoth : ∀ itemId item licenseId, t.items.get? itemId = some item
    → MadeOf s t itemId licenseId → item.pendingOrderId = none
  closes : ∃ request, t.requests.get? requestId = some request
    ∧ (request.status = .sourcing ∨ request.status = .converted)
    ∧ (request.status = .converted ↔ ∀ itemId item, ¬ OpenLine t requestId itemId item)

theorem FreeLinesConverted.madeOf {u : Unicode} {ids : List Nat} {s t : Store}
    (h : FreeLinesConverted u ids s t) {itemId licenseId : Nat}
    : MadeOf s t itemId licenseId
      ↔ s.licenses.nextKey ≤ licenseId ∧ ids[licenseId - s.licenses.nextKey]? = some itemId := by
  have hrow := h.licenses licenseId
  constructor
  · rintro ⟨hnone, l, hl, hsource⟩
    rw [show t.licenses.get? licenseId = some l from hl, Option.map_some, hsource,
      show s.licenses.get? licenseId = none from hnone] at hrow
    split at hrow
    · next hle =>
        refine ⟨hle, ?_⟩
        obtain ⟨id, hid, he⟩ := Option.map_eq_some_iff.mp hrow.symm
        rw [hid, Option.some.inj he]
    · cases hrow
  · rintro ⟨hle, hid⟩
    rw [if_pos hle, hid, Option.map_some, Option.map_eq_some_iff] at hrow
    obtain ⟨l, hl, hsource⟩ := hrow
    refine ⟨?_, l, hl, hsource⟩
    rcases hs : s.license? licenseId with _ | row
    · rfl
    · exact absurd (Table.lt_nextKey_of_get? hs) (Nat.not_lt.mpr hle)

theorem FreeLinesConverted.madeOnce {u : Unicode} {ids : List Nat} {s t : Store}
    (h : FreeLinesConverted u ids s t) (hnodup : ids.Nodup) {itemId : Nat} (hid : itemId ∈ ids)
    : ∃! licenseId, MadeOf s t itemId licenseId := by
  obtain ⟨i, hi, hget⟩ := List.mem_iff_getElem.mp hid
  refine ⟨s.licenses.nextKey + i, h.madeOf.mpr ⟨Nat.le_add_right _ _, ?_⟩, fun other hother => ?_⟩
  · rw [Nat.add_sub_cancel_left, List.getElem?_eq_getElem hi, hget]
  · obtain ⟨hle, hother⟩ := h.madeOf.mp hother
    obtain ⟨hlt, hother⟩ := List.getElem?_eq_some_iff.mp hother
    have hsame := (List.Nodup.getElem_inj_iff hnodup).mp (hother.trans hget.symm)
    omega

theorem mem_openItems {s : Store} {requestId itemId : Nat} {p : SourcingItem → Bool}
    : itemId ∈ openItems s requestId p
      ↔ ∃ item, OpenLine s requestId itemId item ∧ p item = true := by
  simp only [openItems, Table.mem_select, OpenLine, Bool.and_eq_true, beq_iff_eq, and_assoc]

theorem openItems_nodup (s : Store) (requestId : Nat) (p : SourcingItem → Bool)
    : (openItems s requestId p).Nodup :=
  (Table.keys_increase _).imp Nat.ne_of_lt

/-- Refreshing one request again and again is refreshing it once, by induction on the list. -/
theorem refreshAgain {requestId : Nat} {ids : List Nat} (hids : ∀ id ∈ ids, id = requestId)
    (s : Store)
    : (ids.foldl (fun s id => refreshSourcingRequestStatus id s) s).items = s.items
      ∧ (ids.foldl (fun s id => refreshSourcingRequestStatus id s) s).licenses = s.licenses
      ∧ ((ids.foldl (fun s id => refreshSourcingRequestStatus id s) s).requests.get? requestId).map
          (·.status)
        = if ids ≠ [] ∧ s.hasLine requestId .sourcing = false then
            (s.requests.get? requestId).map (fun _ => .converted)
          else (s.requests.get? requestId).map (·.status) := by
  induction ids generalizing s with
  | nil => exact ⟨rfl, rfl, by simp⟩
  | cons head rest ih =>
      obtain rfl := hids head List.mem_cons_self
      obtain ⟨hitems, hlicenses, hstatus⟩ := ih (fun id hid => hids id (List.mem_cons_of_mem _ hid))
        (refreshSourcingRequestStatus head s)
      obtain ⟨hsame, hkept⟩ := refreshSourcingRequestStatus_items head s
      have hlines : (refreshSourcingRequestStatus head s).hasLine head .sourcing
          = s.hasLine head .sourcing := by
        unfold Store.hasLine
        rw [hsame]
      have hrefreshed := refreshSourcingRequestStatus_refreshed head s head
      rw [hlines] at hstatus hrefreshed
      rw [List.foldl_cons]
      refine ⟨hitems.trans hsame, hlicenses.trans hkept, hstatus.trans ?_⟩
      rcases hopen : s.hasLine head .sourcing with _ | _
      · rw [hopen, if_pos ⟨rfl, rfl⟩] at hrefreshed
        have hone : (if rest ≠ [] ∧ false = false then
              ((refreshSourcingRequestStatus head s).requests.get? head).map
                (fun _ => SourcingStatus.converted)
            else ((refreshSourcingRequestStatus head s).requests.get? head).map (·.status))
            = (s.requests.get? head).map (fun _ => .converted) := by
          rw [← hrefreshed]
          split
          · rcases hrow : s.requests.get? head with _ | request
            · rw [hrow, Option.map_none, Option.map_eq_none_iff] at hrefreshed
              rw [hrefreshed]
              rfl
            · rw [hrow, Option.map_some, Option.map_eq_some_iff] at hrefreshed
              obtain ⟨closed, hclosed, hstatus⟩ := hrefreshed
              rw [hclosed, Option.map_some, Option.map_some, hstatus]
          · rfl
        rw [hone, if_pos (And.intro (List.cons_ne_nil head rest) rfl)]
      · rw [hopen, if_neg (by simp)] at hrefreshed
        rw [if_neg (by simp), if_neg (by simp), hrefreshed]

/-- What a whole conversion does: the purchase lines go onto the order, the free lines that renew
nothing become licences, and the request is closed when no line of it is open.
-/
structure WorkflowConverted (u : Unicode) (requestId orderId : Nat) (s t : Store) : Prop where
  middle : ∃ v, RequestConverted u requestId orderId s v
    ∧ FreeLinesConverted u
        (openItems s requestId (fun item => item.isDirectFreeware u && item.renewalForLicenseId.isNone))
        v { t with requests := v.requests }
  status : (t.requests.get? requestId).map (·.status)
    = some (if t.hasLine requestId .sourcing then .sourcing else .converted)

theorem RefreshedRequest.status {requestId : Nat} {s t : Store} {request : SourcingRequest}
    (h : RefreshedRequest requestId s t) (hrequest : s.requests.get? requestId = some request)
    (hstatus : request.status = .sourcing)
    : (t.requests.get? requestId).map (·.status)
      = some (if t.hasLine requestId .sourcing then .sourcing else .converted) := by
  have hrow := h requestId
  rw [hrequest, Option.map_some, Option.map_some, hstatus] at hrow
  rw [hrow]
  rcases t.hasLine requestId .sourcing <;> simp

theorem convertSourcingRequestWorkflow_converted {env : Env} {requestId : Nat}
    {target : ConversionTarget} {s t : Store}
    (h : convertSourcingRequestWorkflow env requestId target s = .ok t)
    : ∃ orderId, WorkflowConverted env.unicode requestId orderId s t := by
  simp only [convertSourcingRequestWorkflow, bind_eq_ok] at h
  obtain ⟨v, hv, h⟩ := h
  obtain ⟨orderId, hconverted⟩ := convertSourcingRequest_converted hv
  obtain ⟨request, hrequest, hopen⟩ := hconverted.wasOpen
  have hstatus := hconverted.requests.status hrequest hopen
  refine ⟨orderId, ?_⟩
  set freeware := openItems s requestId (fun item =>
    item.isDirectFreeware env.unicode && item.renewalForLicenseId.isNone) with hfreeware
  by_cases hempty : freeware = []
  · rw [if_pos hempty] at h
    obtain rfl := pure_eq_ok.mp h
    refine ⟨⟨v, hconverted, ?_⟩, hstatus⟩
    rw [← hfreeware, hempty]
    have hnone : each (convertFreewareItem env) [] v = .ok v := rfl
    exact convertFreewareItems_ok hnone
  · rw [if_neg hempty] at h
    simp only [convertFreewareSourcingItems, bind_eq_ok, require_eq_ok, pure_eq_ok] at h
    obtain ⟨_, -, w, hw, rfl⟩ := h
    have hfree := convertFreewareItems_ok hw
    -- The lines that became licences stand in the request of the conversion.
    have hrow : ∀ id ∈ freeware, ∃ item, w.items.get? id = some item
        ∧ item.sourcingRequestId = some requestId := by
      intro id hid
      obtain ⟨item, ⟨hitem, hin, -⟩, -⟩ := mem_openItems.mp hid
      have hmapped : (s.items.mapRows (fun _ item =>
          if item.isOpenPurchase env.unicode requestId then item.attached orderId else item)).get? id
          = some (if item.isOpenPurchase env.unicode requestId then item.attached orderId
            else item) := by
        rw [Table.get?_mapRows, hitem]
        rfl
      obtain ⟨row, hrow, hstanding⟩ := hconverted.lines.forth hmapped
      have hin' : row.sourcingRequestId = some requestId := by
        have := congrArg SourcingItem.sourcingRequestId hstanding
        change row.sourcingRequestId = _ at this
        rw [this]
        split <;> exact hin
      refine ⟨markConverted freeware id row, ?_, ?_⟩
      · rw [hfree.items, Table.get?_mapRows, hrow]
        rfl
      · unfold markConverted
        split <;> exact hin'
    have hids : ∀ id ∈ freeware.filterMap (fun id =>
        (w.items.get? id).bind (·.sourcingRequestId)), id = requestId := by
      intro id hid
      obtain ⟨line, hline, hbind⟩ := List.mem_filterMap.mp hid
      obtain ⟨item, hitem, hin⟩ := hrow line hline
      rw [hitem, Option.bind_some, hin] at hbind
      exact (Option.some.inj hbind).symm
    have hsome : freeware.filterMap (fun id =>
        (w.items.get? id).bind (·.sourcingRequestId)) ≠ [] := by
      obtain ⟨line, hline⟩ := List.exists_mem_of_ne_nil _ hempty
      obtain ⟨item, hitem, hin⟩ := hrow line hline
      refine List.ne_nil_of_mem (a := requestId) (List.mem_filterMap.mpr ⟨line, hline, ?_⟩)
      rw [hitem, Option.bind_some, hin]
    obtain ⟨hitems, hlicenses, hrefreshed⟩ := refreshAgain hids w
    refine ⟨⟨v, hconverted, hfree.free, hitems.trans hfree.items, rfl, fun key => ?_⟩, ?_⟩
    · rw [show ({ List.foldl _ w _ with requests := v.requests } : Store).licenses = w.licenses from
        hlicenses]
      exact hfree.licenses key
    · -- The request was still open when its free lines were converted.
      have hstill : (v.requests.get? requestId).map (·.status) = some .sourcing := by
        rw [hstatus, if_pos]
        obtain ⟨line, hline⟩ := List.exists_mem_of_ne_nil _ hempty
        obtain ⟨item, hitem, hfreeLine⟩ := hfree.free (openItems_nodup _ _ _) line hline
        obtain ⟨row, hrowItem, hin⟩ := hrow line hline
        refine hasLine_iff.mpr ⟨line, item, hitem, ?_, hfreeLine.status⟩
        rw [hfree.items, Table.get?_mapRows, hitem, Option.map_some, Option.some.injEq] at hrowItem
        rw [← hin, ← hrowItem]
        unfold markConverted
        split <;> rfl
      have hlines : ∀ u : Store, u.items = w.items
          → u.hasLine requestId .sourcing = w.hasLine requestId .sourcing := fun u hu => by
        unfold Store.hasLine
        rw [hu]
      rw [hrefreshed, hlines _ hitems, hfree.requests]
      obtain ⟨row, hrow, hrowStatus⟩ := Option.map_eq_some_iff.mp hstill
      rw [hrow, Option.map_some, Option.map_some, hrowStatus]
      rcases w.hasLine requestId .sourcing <;> simp [hsome]

/-- No open free line of a request renews a licence. -/
def NoFreeRenewal (u : Unicode) (s : Store) (requestId : Nat) : Prop :=
  ∀ itemId item, OpenLine s requestId itemId item → item.isDirectFreeware u = true
    → item.renewalForLicenseId = none

namespace WorkflowConverted

variable {u : Unicode} {requestId orderId : Nat} {s t : Store}

theorem middleRow {v : Store} (h : RequestConverted u requestId orderId s v) {itemId : Nat}
    {item : SourcingItem} (hitem : s.items.get? itemId = some item)
    : ∃ row, v.items.get? itemId = some row ∧ row.standing
        = (if item.isOpenPurchase u requestId then item.attached orderId else item).standing := by
  have hmapped : (s.items.mapRows (fun _ item =>
      if item.isOpenPurchase u requestId then item.attached orderId else item)).get? itemId
      = some (if item.isOpenPurchase u requestId then item.attached orderId else item) := by
    rw [Table.get?_mapRows, hitem]
    rfl
  exact h.lines.forth hmapped

theorem madeOf_free (h : WorkflowConverted u requestId orderId s t) {itemId licenseId : Nat}
    (hmade : MadeOf s t itemId licenseId)
    : itemId ∈ openItems s requestId (fun item =>
        item.isDirectFreeware u && item.renewalForLicenseId.isNone) := by
  obtain ⟨v, hconverted, hfree⟩ := h.middle
  have hmade' : MadeOf v { t with requests := v.requests } itemId licenseId := by
    unfold MadeOf Store.license? at hmade ⊢
    rw [hconverted.licenses]
    exact hmade
  exact List.mem_of_getElem? (hfree.madeOf.mp hmade').2

theorem purchase (h : WorkflowConverted u requestId orderId s t) {itemId : Nat}
    {item : SourcingItem} (hopen : OpenLine s requestId itemId item)
    (hpurchase : item.isDirectFreeware u = false)
    : OnOrder t orderId itemId ∧ ∀ licenseId, ¬ MadeOf s t itemId licenseId := by
  have hnot : itemId ∉ openItems s requestId (fun item =>
      item.isDirectFreeware u && item.renewalForLicenseId.isNone) := by
    intro hmem
    obtain ⟨other, hother, hdirect⟩ := mem_openItems.mp hmem
    obtain rfl := Option.some.inj (hopen.1.symm.trans hother.1)
    rw [hpurchase, Bool.false_and] at hdirect
    cases hdirect
  refine ⟨?_, fun licenseId hmade => hnot (h.madeOf_free hmade)⟩
  obtain ⟨v, hconverted, hfree⟩ := h.middle
  obtain ⟨row, hrow, hstanding⟩ := middleRow hconverted hopen.1
  rw [if_pos (by simp [SourcingItem.isOpenPurchase, hopen.2.1, hopen.2.2, hpurchase])] at hstanding
  refine ⟨row, ?_, congrArg SourcingItem.pendingOrderId hstanding,
    congrArg SourcingItem.status hstanding⟩
  rw [show t.items = _ from hfree.items, Table.get?_mapRows, hrow, Option.map_some,
    markConverted, if_neg hnot]

theorem free (h : WorkflowConverted u requestId orderId s t) {itemId : Nat} {item : SourcingItem}
    (hopen : OpenLine s requestId itemId item) (hdirect : item.isDirectFreeware u = true)
    (hfresh : item.renewalForLicenseId = none)
    : (∃ row, t.items.get? itemId = some row ∧ row.pendingOrderId = none)
      ∧ ∃! licenseId, MadeOf s t itemId licenseId := by
  have hmem : itemId ∈ openItems s requestId (fun item =>
      item.isDirectFreeware u && item.renewalForLicenseId.isNone) :=
    mem_openItems.mpr ⟨item, hopen, by simp [hdirect, hfresh]⟩
  obtain ⟨v, hconverted, hfree⟩ := h.middle
  obtain ⟨row, hrow, hfreeLine⟩ := hfree.free (openItems_nodup _ _ _) itemId hmem
  refine ⟨?_, ?_⟩
  · rw [show t.items = _ from hfree.items, Table.get?_mapRows, hrow]
    refine ⟨_, rfl, ?_⟩
    unfold markConverted
    split <;> exact hfreeLine.unordered
  · obtain ⟨licenseId, hmade, honly⟩ := hfree.madeOnce (openItems_nodup _ _ _) hmem
    have hsame : ∀ id, MadeOf v { t with requests := v.requests } itemId id
        ↔ MadeOf s t itemId id := fun id => by
      unfold MadeOf Store.license?
      rw [hconverted.licenses]
    exact ⟨licenseId, (hsame _).mp hmade, fun id hid => honly id ((hsame _).mpr hid)⟩

theorem left (h : WorkflowConverted u requestId orderId s t) {itemId : Nat} {item : SourcingItem}
    (hopen : OpenLine s requestId itemId item) (hdirect : item.isDirectFreeware u = true)
    (hrenewal : item.renewalForLicenseId ≠ none)
    : (∀ order, ¬ OnOrder t order itemId) ∧ ∀ licenseId, ¬ MadeOf s t itemId licenseId := by
  have hnot : itemId ∉ openItems s requestId (fun item =>
      item.isDirectFreeware u && item.renewalForLicenseId.isNone) := by
    intro hmem
    obtain ⟨other, hother, hfresh⟩ := mem_openItems.mp hmem
    obtain rfl := Option.some.inj (hopen.1.symm.trans hother.1)
    rw [Bool.and_eq_true, Option.isNone_iff_eq_none] at hfresh
    exact hrenewal hfresh.2
  refine ⟨?_, fun licenseId hmade => hnot (h.madeOf_free hmade)⟩
  rintro order ⟨row, hrow, -, hstatus⟩
  obtain ⟨v, hconverted, hfree⟩ := h.middle
  obtain ⟨middle, hmiddle, hstanding⟩ := middleRow hconverted hopen.1
  rw [if_neg (by simp [SourcingItem.isOpenPurchase, hdirect])] at hstanding
  rw [show t.items = _ from hfree.items, Table.get?_mapRows, hmiddle, Option.map_some,
    markConverted, if_neg hnot, Option.some.injEq] at hrow
  subst hrow
  have hsame : middle.status = item.status := by
    have := congrArg SourcingItem.status hstanding
    exact this
  rw [hsame, hopen.2.2] at hstatus
  cases hstatus

theorem closes (h : WorkflowConverted u requestId orderId s t)
    : ∃ request, t.requests.get? requestId = some request
      ∧ (request.status = .sourcing ∨ request.status = .converted)
      ∧ (request.status = .converted ↔ ∀ itemId item, ¬ OpenLine t requestId itemId item) := by
  obtain ⟨request, hrequest, hstatus⟩ := Option.map_eq_some_iff.mp h.status
  refine ⟨request, hrequest, ?_⟩
  rcases hlines : t.hasLine requestId .sourcing with _ | _
  · rw [hlines, if_neg Bool.false_ne_true] at hstatus
    refine ⟨.inr hstatus, fun _ itemId item hopen => ?_, fun _ => hstatus⟩
    rw [hasLine_iff.mpr ⟨itemId, item, hopen⟩] at hlines
    cases hlines
  · rw [hlines, if_pos rfl] at hstatus
    refine ⟨.inl hstatus, fun hconverted => ?_, fun hnone => ?_⟩
    · rw [hstatus] at hconverted
      cases hconverted
    · obtain ⟨itemId, item, hopen⟩ := hasLine_iff.mp hlines
      exact absurd hopen (hnone itemId item)

end WorkflowConverted

/-- A conversion of a request sends every open line down one path exactly when none of its open
free lines renews a licence.
-/
theorem convertWorkflow_onePath_iff {env : Env} {requestId : Nat} {target : ConversionTarget}
    {s t : Store} (h : convertSourcingRequestWorkflow env requestId target s = .ok t)
    : OnePath s t requestId ↔ NoFreeRenewal env.unicode s requestId := by
  obtain ⟨orderId, hconverted⟩ := convertSourcingRequestWorkflow_converted h
  constructor
  · rintro ⟨⟨order, hpaths⟩, -, -⟩ itemId item hopen hdirect
    by_contra hrenewal
    obtain ⟨hnoOrder, hnoLicense⟩ := hconverted.left hopen hdirect hrenewal
    rcases hpaths itemId item hopen with ⟨honOrder, -⟩ | ⟨-, licenseId, hmade, -⟩
    · exact hnoOrder order honOrder
    · exact hnoLicense licenseId hmade
  · intro hnone
    refine ⟨⟨orderId, fun itemId item hopen => ?_⟩, ?_, hconverted.closes⟩
    · rcases hdirect : item.isDirectFreeware env.unicode with _ | _
      · exact .inl (hconverted.purchase hopen hdirect)
      · obtain ⟨⟨row, hrow, hunordered⟩, hmade⟩ := hconverted.free hopen hdirect
          (hnone itemId item hopen hdirect)
        refine .inr ⟨?_, hmade⟩
        rintro ⟨other, hother, horder, -⟩
        obtain rfl := Option.some.inj (hrow.symm.trans hother)
        rw [hunordered] at horder
        cases horder
    · intro itemId item licenseId hitem hmade
      obtain ⟨line, hopen, hfresh⟩ := mem_openItems.mp (hconverted.madeOf_free hmade)
      rw [Bool.and_eq_true, Option.isNone_iff_eq_none] at hfresh
      obtain ⟨⟨row, hrow, hunordered⟩, -⟩ := hconverted.free hopen hfresh.1 hfresh.2
      obtain rfl := Option.some.inj (hrow.symm.trans hitem)
      exact hunordered

/-- A store with one open request: a purchase line, and a free line that may renew a licence. -/
def mixedRequest (renewalForLicenseId : Option Nat) : Store where
  requests := Table.empty.insert { supplier := some "Acme" }
  items :=
    (Table.empty.insert
      {
        sourcingRequestId := some 1
        publisherName := "Acme"
        softwareDescription := "Editor"
        licenseType := some .subscription
      }).insert
      {
        sourcingRequestId := some 1
        publisherName := "Acme"
        softwareDescription := "Viewer"
        licenseType := some .freeware
        renewalForLicenseId := renewalForLicenseId
      }

theorem mixedRequest_runs (renewalForLicenseId : Option Nat)
    (h : renewalForLicenseId = none ∨ renewalForLicenseId = some 7)
    : ∃ t, convertSourcingRequestWorkflow (Env.onDay 20000) 1 {} (mixedRequest renewalForLicenseId)
      = .ok t := by
  rcases h with rfl | rfl
  · exact exists_ok (by decide +kernel)
  · exact exists_ok (by decide +kernel)

theorem mixedRequest_onePath
    : ∃ t, convertSourcingRequestWorkflow (Env.onDay 20000) 1 {} (mixedRequest none) = .ok t
      ∧ (OnePath (mixedRequest none) t 1
        ↔ NoFreeRenewal (Env.onDay 20000).unicode (mixedRequest none) 1) := by
  obtain ⟨t, ht⟩ := mixedRequest_runs none (.inl rfl)
  exact ⟨t, ht, convertWorkflow_onePath_iff ht⟩

/-- A free line that renews a licence is left open by both halves of the conversion. -/
theorem freeRenewal_leftOpen
    : ∃ t, convertSourcingRequestWorkflow (Env.onDay 20000) 1 {} (mixedRequest (some 7)) = .ok t
      ∧ ¬ OnePath (mixedRequest (some 7)) t 1 := by
  obtain ⟨t, ht⟩ := mixedRequest_runs (some 7) (.inr rfl)
  refine ⟨t, ht, fun hpath => ?_⟩
  obtain ⟨orderId, hconverted⟩ := convertSourcingRequestWorkflow_converted ht
  have hopen : ∃ item, OpenLine (mixedRequest (some 7)) 1 2 item
      ∧ item.isDirectFreeware (Env.onDay 20000).unicode = true
      ∧ item.renewalForLicenseId ≠ none :=
    ⟨_, ⟨rfl, rfl, rfl⟩, rfl, Option.some_ne_none 7⟩
  obtain ⟨item, hitem, hdirect, hrenewal⟩ := hopen
  obtain ⟨hnoOrder, hnoLicense⟩ := hconverted.left hitem hdirect hrenewal
  obtain ⟨order, hpaths⟩ := hpath.paths
  rcases hpaths 2 item hitem with ⟨honOrder, -⟩ | ⟨-, licenseId, hmade, -⟩
  · exact hnoOrder order honOrder
  · exact hnoLicense licenseId hmade

end LicenseTrack
