import LicenseTrack.Orders.OneCurrency
import LicenseTrack.Services.SourcingWorkflows

/-! Where sourcing lines stand: the request, the order and the status of a line, apart from the
supplier that its request and its order give it. The steps of a conversion other than attaching a
line leave all lines standing.
-/

namespace LicenseTrack

open Library

/-- A line apart from its supplier, its contact and its purchase-order line. -/
def SourcingItem.standing (item : SourcingItem) : SourcingItem :=
  { item with supplier := none, supplierId := none, contactEmail := none, poLineId := none }

/-- A step that keeps where every line stands and the status of every request. -/
structure KeepsStanding (s t : Store) : Prop where
  lines : s.items.Agrees SourcingItem.standing t.items
  requests : s.requests.Agrees SourcingRequest.status t.requests

namespace KeepsStanding

variable {s t v : Store}

theorem refl (s : Store) : KeepsStanding s s := ⟨Table.Agrees.refl _ _, Table.Agrees.refl _ _⟩

theorem trans (h : KeepsStanding s t) (h' : KeepsStanding t v) : KeepsStanding s v :=
  ⟨h.lines.trans h'.lines, h.requests.trans h'.requests⟩

theorem of_eq (hitems : t.items = s.items) (hrequests : t.requests = s.requests)
    : KeepsStanding s t where
  lines := by
    rw [hitems]
    exact Table.Agrees.refl _ _
  requests := by
    rw [hrequests]
    exact Table.Agrees.refl _ _

theorem of_modifyItem (s : Store) (itemId : Nat) {f : SourcingItem → SourcingItem}
    (h : ∀ item, (f item).standing = item.standing)
    : KeepsStanding s (s.modifyItem itemId f) :=
  ⟨Table.Agrees.of_modify h, Table.Agrees.refl _ _⟩

theorem of_modifyRequest (s : Store) (requestId : Nat) {f : SourcingRequest → SourcingRequest}
    (h : ∀ request, (f request).status = request.status)
    : KeepsStanding s (s.modifyRequest requestId f) :=
  ⟨Table.Agrees.refl _ _, Table.Agrees.of_modify h⟩

theorem foldl {α : Type} {step : Store → α → Store} (h : ∀ s a, KeepsStanding s (step s a))
    (list : List α) (s : Store)
    : KeepsStanding s (list.foldl step s) := by
  induction list generalizing s with
  | nil => exact .refl s
  | cons head rest ih =>
      rw [List.foldl_cons]
      exact (h s head).trans (ih (step s head))

end KeepsStanding

theorem OnlyReferences.keepsStanding {s t : Store} (h : OnlyReferences s t) : KeepsStanding s t :=
  .of_eq h.items h.requests

theorem resolveRequestSupplier_standing {u : Unicode} {requestId : Nat} {s t : Store}
    (h : resolveRequestSupplier u requestId s = .ok t)
    : KeepsStanding s t := by
  simp only [resolveRequestSupplier, bind_eq_ok, found_eq_ok] at h
  obtain ⟨request, -, h⟩ := h
  split at h
  · obtain rfl := pure_eq_ok.mp h
    exact .of_modifyRequest s requestId fun _ => rfl
  · simp only [bind_eq_ok, pure_eq_ok] at h
    obtain ⟨⟨name, id, v⟩, hr, rfl⟩ := h
    exact (resolveOrganization_only hr).keepsStanding.trans
      (.of_modifyRequest v requestId fun _ => rfl)

theorem synchronizeOpenRequestIdentity_standing (u : Unicode) (requestId : Nat)
    (supplier : Option String) (supplierId : Option Nat) (s : Store)
    : KeepsStanding s (synchronizeOpenRequestIdentity u requestId supplier supplierId s) := by
  unfold synchronizeOpenRequestIdentity
  split
  · exact .refl s
  · dsimp only
    exact ⟨Table.Agrees.of_mapRows fun _ item => by split <;> rfl,
      Table.Agrees.of_modify fun _ => rfl⟩

theorem synchronizeRequestIdentity_standing (u : Unicode) (requestId : Nat)
    (supplier : Option (Option String × Option Nat)) (contactEmail : Option (Option String))
    (s : Store)
    : KeepsStanding s (synchronizeRequestIdentity u requestId supplier contactEmail s) := by
  unfold synchronizeRequestIdentity
  split
  · exact .refl s
  · next request hrequest =>
      dsimp only
      refine ⟨Table.Agrees.of_mapRows fun _ item => by split <;> rfl, fun key => ?_⟩
      simp only [Store.modifyRequest, Table.get?_modify]
      by_cases hkey : key = requestId
      · subst hkey
        simp only [hrequest, Option.map_some, if_true]
      · simp only [hkey, if_false, Option.map_id']

theorem resolveSupplierCandidate_only {u : Unicode} {value : Option String}
    {supplier : Option String × Option Nat} {s t : Store}
    (h : resolveSupplierCandidate u value s = .ok (supplier, t))
    : OnlyReferences s t := by
  unfold resolveSupplierCandidate at h
  split at h
  · obtain ⟨-, rfl⟩ := Prod.mk.inj (Except.ok.inj h)
    exact .refl s
  · simp only [bind_eq_ok, pure_eq_ok, Prod.mk.injEq] at h
    obtain ⟨⟨name, id, v⟩, hr, -, rfl⟩ := h
    exact resolveOrganization_only hr

-- The order of a conversion

theorem resolveExistingOrder_standing {u : Unicode} {orderId requestId : Nat} {s t : Store}
    (h : resolveExistingOrder u orderId requestId s = .ok t)
    : KeepsStanding s t ∧ t.licenses = s.licenses := by
  simp only [resolveExistingOrder, lockOpenPendingOrder, bind_eq_ok, require_eq_ok, found_eq_ok,
    pure_eq_ok] at h
  obtain ⟨order, -, -, -, locked, ⟨-, -, rfl⟩, supplier, -, ⟨name, id, v⟩, hr, -, -, rfl⟩ := h
  have hv := resolveOrganization_only hr
  exact ⟨.of_eq hv.items hv.requests, hv.licenses⟩

theorem createConversionOrder_standing {u : Unicode} {target : ConversionTarget}
    {candidates : List (Option String)} {notes : Option String} {s t : Store}
    (h : createConversionOrder u target candidates notes s = .ok t)
    : KeepsStanding s t ∧ t.licenses = s.licenses := by
  simp only [createConversionOrder, bind_eq_ok, found_eq_ok, pure_eq_ok] at h
  obtain ⟨supplier, -, ⟨name, id, v⟩, hr, rfl⟩ := h
  have hv := resolveOrganization_only hr
  exact ⟨.of_eq hv.items hv.requests, hv.licenses⟩

theorem synchronizeOpenRequestIdentity_licenses (u : Unicode) (requestId : Nat)
    (supplier : Option String) (supplierId : Option Nat) (s : Store)
    : (synchronizeOpenRequestIdentity u requestId supplier supplierId s).licenses = s.licenses := by
  unfold synchronizeOpenRequestIdentity
  split <;> rfl

theorem resolveConversionOrder_standing {u : Unicode} {requestId orderId : Nat}
    {target : ConversionTarget} {candidates : List (Option String)} {notes : Option String}
    {s t : Store}
    (h : resolveConversionOrder u requestId target candidates notes s = .ok (orderId, t))
    : KeepsStanding s t ∧ t.licenses = s.licenses := by
  simp only [resolveConversionOrder] at h
  cases hp : target.pendingOrderId with
  | some existing =>
      rw [hp] at h
      simp only [bind_eq_ok, pure_eq_ok, Prod.mk.injEq] at h
      obtain ⟨v, hv, -, rfl⟩ := h
      obtain ⟨hkeeps, hlicenses⟩ := resolveExistingOrder_standing hv
      exact ⟨hkeeps.trans (synchronizeOpenRequestIdentity_standing _ _ _ _ _),
        (synchronizeOpenRequestIdentity_licenses _ _ _ _ _).trans hlicenses⟩
  | none =>
      rw [hp] at h
      simp only [bind_eq_ok, pure_eq_ok, Prod.mk.injEq] at h
      obtain ⟨v, hv, -, rfl⟩ := h
      obtain ⟨hkeeps, hlicenses⟩ := createConversionOrder_standing hv
      exact ⟨hkeeps.trans (synchronizeOpenRequestIdentity_standing _ _ _ _ _),
        (synchronizeOpenRequestIdentity_licenses _ _ _ _ _).trans hlicenses⟩

theorem issueOrderLine_standing (u : Unicode) (poNumber : String) (requested : Option Nat)
    (itemId : Nat) (s : Store)
    : KeepsStanding s (issueOrderLine u poNumber requested itemId s) := by
  have hissued : KeepsStanding s (allocateLine u poNumber requested s).2 := .of_eq rfl rfl
  exact hissued.trans (.of_modifyItem _ itemId fun _ => rfl)

theorem syncOrderLines_standing (u : Unicode) (orderId : Nat) (s : Store)
    : KeepsStanding s (syncOrderLines u orderId s) := by
  unfold syncOrderLines
  split
  · exact .refl s
  · dsimp only
    split
    · refine KeepsStanding.foldl (fun s (entry : Nat × SourcingItem) =>
        KeepsStanding.of_modifyItem s entry.1 fun item => ?_) _ s
      rfl
    · exact (KeepsStanding.foldl (fun s entry => issueOrderLine_standing _ _ _ _ s) _ s).trans
        (KeepsStanding.foldl (fun s entry => issueOrderLine_standing _ _ _ _ s) _ _)

theorem foldl_licenses {α : Type} {step : Store → α → Store}
    (h : ∀ s a, (step s a).licenses = s.licenses) (list : List α) (s : Store)
    : (list.foldl step s).licenses = s.licenses := by
  induction list generalizing s with
  | nil => rfl
  | cons head rest ih => exact (ih (step s head)).trans (h s head)

theorem syncOrderLines_licenses (u : Unicode) (orderId : Nat) (s : Store)
    : (syncOrderLines u orderId s).licenses = s.licenses := by
  unfold syncOrderLines
  split
  · rfl
  · dsimp only
    split
    · refine foldl_licenses (fun _ _ => ?_) _ s
      rfl
    · refine (foldl_licenses (fun _ _ => ?_) _ _).trans (foldl_licenses (fun _ _ => ?_) _ s)
      · rfl
      · rfl

/-- A line on an order. -/
def SourcingItem.attached (orderId : Nat) (item : SourcingItem) : SourcingItem :=
  { item with pendingOrderId := some orderId, status := .converted }

theorem attachLines_standing (orderId : Nat) (ids : List Nat) (s : Store)
    : (s.items.mapRows (fun id item => if id ∈ ids then item.attached orderId else item)).Agrees
        SourcingItem.standing (ids.foldl (attachLine orderId) s).items := by
  induction ids generalizing s with
  | nil =>
      simp only [List.not_mem_nil, if_false, List.foldl_nil]
      rw [Table.mapRows_eq_self fun _ _ _ => rfl]
      exact Table.Agrees.refl _ _
  | cons head rest ih =>
      rw [List.foldl_cons]
      refine Table.Agrees.trans ?_ (ih (attachLine orderId s head))
      simp only [attachLine, Store.modifyItem, Table.modify, Table.mapRows_mapRows]
      intro id
      simp only [Table.get?_mapRows, Option.map_map]
      refine congrArg (Option.map · _) (funext fun item => ?_)
      by_cases hhead : id = head <;> by_cases hrest : id ∈ rest
        <;> simp [hhead, hrest, SourcingItem.attached, SourcingItem.standing]

theorem attachLines_rest (orderId : Nat) (ids : List Nat) (s : Store)
    : (ids.foldl (attachLine orderId) s).requests = s.requests
      ∧ (ids.foldl (attachLine orderId) s).licenses = s.licenses := by
  induction ids generalizing s with
  | nil => exact ⟨rfl, rfl⟩
  | cons head rest ih => exact ih (attachLine orderId s head)

theorem hasLine_iff {s : Store} {requestId : Nat} {status : SourcingStatus}
    : s.hasLine requestId status = true
      ↔ ∃ id item, s.items.get? id = some item ∧ item.sourcingRequestId = some requestId
        ∧ item.status = status := by
  simp only [Store.hasLine, List.any_eq_true, Prod.exists, Bool.and_eq_true, beq_iff_eq,
    Table.get?_eq_some]

theorem KeepsStanding.hasLine {s t : Store} (h : KeepsStanding s t) (requestId : Nat)
    (status : SourcingStatus)
    : t.hasLine requestId status = s.hasLine requestId status := by
  rw [Bool.eq_iff_iff, hasLine_iff, hasLine_iff]
  have hcolumns : ∀ {a b : SourcingItem}, a.standing = b.standing
      → a.sourcingRequestId = b.sourcingRequestId ∧ a.status = b.status := fun he =>
    ⟨congrArg (·.sourcingRequestId) he, congrArg (·.status) he⟩
  constructor
  · rintro ⟨id, item, hitem, hrequest, hstatus⟩
    obtain ⟨row, hrow, hv⟩ := h.lines.back hitem
    exact ⟨id, row, hrow, (hcolumns hv).1 ▸ hrequest, (hcolumns hv).2 ▸ hstatus⟩
  · rintro ⟨id, item, hitem, hrequest, hstatus⟩
    obtain ⟨row, hrow, hv⟩ := h.lines.forth hitem
    exact ⟨id, row, hrow, (hcolumns hv).1.trans hrequest, (hcolumns hv).2.trans hstatus⟩

theorem refreshSourcingRequestStatus_eq (requestId : Nat) (s : Store)
    : refreshSourcingRequestStatus requestId s
      = if s.hasLine requestId .sourcing then s
        else s.modifyRequest requestId (fun r => { r with status := .converted }) :=
  rfl

theorem refreshSourcingRequestStatus_items (requestId : Nat) (s : Store)
    : (refreshSourcingRequestStatus requestId s).items = s.items
      ∧ (refreshSourcingRequestStatus requestId s).licenses = s.licenses := by
  rw [refreshSourcingRequestStatus_eq]
  split <;> exact ⟨rfl, rfl⟩

-- Names on record

/-- The name that a publisher's name resolves to: that of the organisation on record, or the name
itself, cleaned.
-/
def publisherNamed (u : Unicode) (s : Store) (name : String) : String :=
  let cleaned := u.cleanReferenceName name
  ((findOrganization s (u.normalizeReferenceName cleaned)).map (·.2.name)).getD cleaned

/-- A step under which every name on record stays the name of an organisation of that name. -/
def KeepsNames (s t : Store) : Prop :=
  ∀ key id o, findOrganization s key = some (id, o)
    → ∃ o', findOrganization t key = some (id, o') ∧ o'.name = o.name

namespace KeepsNames

variable {s t v : Store}

theorem refl (s : Store) : KeepsNames s s := fun _ _ o h => ⟨o, h, rfl⟩

theorem trans (h : KeepsNames s t) (h' : KeepsNames t v) : KeepsNames s v := fun key id o ho => by
  obtain ⟨o', ho', hname⟩ := h key id o ho
  obtain ⟨o'', ho'', hname'⟩ := h' key id o' ho'
  exact ⟨o'', ho'', hname'.trans hname⟩

theorem of_eq (horganizations : t.organizations = s.organizations)
    (haliases : t.organizationAliases = s.organizationAliases)
    : KeepsNames s t := fun key id o ho => by
  refine ⟨o, ?_, rfl⟩
  unfold findOrganization at ho ⊢
  rw [horganizations, haliases]
  exact ho

theorem found_iff {key : String} {id : Nat} {o : Organization}
    : findOrganization s key = some (id, o)
      ↔ s.organizations.entries.find? (fun entry => entry.2.normalizedName == key) = some (id, o)
        ∨ (s.organizations.entries.find? (fun entry => entry.2.normalizedName == key) = none
          ∧ ∃ found, s.organizationAliases.find? (fun entry => entry.normalizedName == key)
              = some found ∧ found.recordId = id ∧ s.organizations.get? id = some o) := by
  unfold findOrganization
  split
  · next entry hentry =>
      rw [hentry]
      simp only [reduceCtorEq, false_and, or_false]
  · next hnone =>
      rw [hnone]
      simp only [reduceCtorEq, true_and, false_or]
      split
      · next found hfound =>
          simp only [hfound, Option.map_eq_some_iff, Prod.mk.injEq, Option.some.injEq, exists_eq_left']
          constructor
          · rintro ⟨o', ho, rfl, rfl⟩
            exact ⟨rfl, ho⟩
          · rintro ⟨rfl, ho⟩
            exact ⟨o, ho, rfl, rfl⟩
      · next hnone' => simp only [hnone', reduceCtorEq, false_and, exists_false]

theorem of_role (s : Store) (id : Nat) (role : OrganizationRole)
    : KeepsNames s { s with organizations := s.organizations.modify id (·.withRole role) } := by
  intro key found o ho
  have hrole : ∀ row : Organization, (row.withRole role).name = row.name
      ∧ (row.withRole role).normalizedName = row.normalizedName := fun row => by
    cases role <;> exact ⟨rfl, rfl⟩
  have hnamed : (s.organizations.modify id (·.withRole role)).entries.find?
        (fun entry => entry.2.normalizedName == key)
      = (s.organizations.entries.find? (fun entry => entry.2.normalizedName == key)).map
        (fun entry => (entry.1, if entry.1 = id then entry.2.withRole role else entry.2)) := by
    simp only [Table.modify, Table.mapRows, List.find?_map]
    congr 2
    funext entry
    dsimp only [Function.comp]
    split
    · rw [(hrole entry.2).2]
    · rfl
  refine ⟨if found = id then o.withRole role else o, found_iff.mpr ?_, ?_⟩
  · dsimp only
    rw [hnamed]
    rcases found_iff.mp ho with hname | ⟨hnone, other, hother, hrecord, hstored⟩
    · exact .inl (by rw [hname, Option.map_some])
    · refine .inr ⟨by rw [hnone, Option.map_none], other, hother, hrecord, ?_⟩
      rw [Table.get?_modify, hstored, Option.map_some]
  · split
    · exact (hrole o).1
    · rfl

theorem of_insert (s : Store) {created : Organization}
    (hnew : findOrganization s created.normalizedName = none)
    : KeepsNames s { s with organizations := s.organizations.insert created } := by
  intro key id o ho
  refine ⟨o, found_iff.mpr ?_, rfl⟩
  have hkey : (created.normalizedName == key) = false := by
    rw [beq_eq_false_iff_ne]
    rintro rfl
    rw [hnew] at ho
    cases ho
  dsimp only [Table.insert]
  rw [List.find?_append]
  rcases found_iff.mp ho with hname | ⟨hnone, other, hother, hrecord, hstored⟩
  · exact .inl (by rw [hname, Option.some_or])
  · refine .inr ⟨by rw [hnone, Option.none_or, List.find?_singleton, if_neg]; simp [hkey], other,
      hother, hrecord, ?_⟩
    have hsame := Table.get?_insert s.organizations created id
    rw [if_neg (Nat.ne_of_lt (Table.lt_nextKey_of_get? hstored)), hstored] at hsame
    exact hsame

end KeepsNames

theorem resolveOrganization_named {u : Unicode} {role : OrganizationRole} {create : Bool}
    {value name : String} {id : Nat} {s t : Store}
    (h : resolveOrganization u role create value s = .ok (name, id, t))
    : name = publisherNamed u s value ∧ KeepsNames s t := by
  simp only [resolveOrganization, bind_eq_ok] at h
  obtain ⟨-, -, h⟩ := h
  simp only [publisherNamed]
  split at h
  · next found o hfound =>
      simp only [bind_eq_ok, pure_eq_ok, Prod.mk.injEq] at h
      obtain ⟨-, -, rfl, rfl, rfl⟩ := h
      exact ⟨by rw [hfound]; rfl, .of_role s _ role⟩
  · next hnone =>
      simp only [bind_eq_ok, pure_eq_ok, Prod.mk.injEq] at h
      obtain ⟨-, -, rfl, rfl, rfl⟩ := h
      exact ⟨by rw [hnone]; rfl, .of_insert s hnone⟩

theorem KeepsNames.named {s t : Store} (h : KeepsNames s t) {u : Unicode} {name : String}
    (hrecorded : (findOrganization s
      (u.normalizeReferenceName (u.cleanReferenceName name))).isSome = true)
    : publisherNamed u t name = publisherNamed u s name := by
  obtain ⟨⟨id, o⟩, ho⟩ := Option.isSome_iff_exists.mp hrecorded
  obtain ⟨o', ho', hname⟩ := h _ id o ho
  simp only [publisherNamed, ho, ho', Option.map_some, Option.getD_some, hname]

theorem resolveSupplierColumns_names {u : Unicode} {value : Option String}
    {supplier : Option String × Option Nat} {s t : Store}
    (h : resolveSupplierColumns u value s = .ok (supplier, t))
    : KeepsNames s t := by
  unfold resolveSupplierColumns at h
  split at h
  · obtain ⟨-, rfl⟩ := Prod.mk.inj (Except.ok.inj h)
    exact .refl s
  · simp only [bind_eq_ok, pure_eq_ok, Prod.mk.injEq] at h
    obtain ⟨⟨name, id, v⟩, hr, -, rfl⟩ := h
    exact (resolveOrganization_named hr).2

theorem resolveRequestSupplier_names {u : Unicode} {requestId : Nat} {s t : Store}
    (h : resolveRequestSupplier u requestId s = .ok t)
    : KeepsNames s t := by
  simp only [resolveRequestSupplier, bind_eq_ok] at h
  obtain ⟨_, -, h⟩ := h
  split at h
  · obtain rfl := pure_eq_ok.mp h
    exact .of_eq rfl rfl
  · simp only [bind_eq_ok, pure_eq_ok] at h
    obtain ⟨⟨name, id, v⟩, hr, rfl⟩ := h
    exact (resolveOrganization_named hr).2.trans (.of_eq rfl rfl)

theorem synchronizeRequestIdentity_names (u : Unicode) (requestId : Nat)
    (supplier : Option (Option String × Option Nat)) (contactEmail : Option (Option String))
    (s : Store)
    : KeepsNames s (synchronizeRequestIdentity u requestId supplier contactEmail s) := by
  unfold synchronizeRequestIdentity
  split
  · exact .refl s
  · exact .of_eq rfl rfl

end LicenseTrack
