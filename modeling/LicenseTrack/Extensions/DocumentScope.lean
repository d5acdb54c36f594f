import LicenseTrack.Extensions.Actions

/-! Which documents an extension can read during an action, and when the user who invoked the
action may view each of them.
-/

namespace LicenseTrack

open Library

@[simp] theorem listOrEmpty_ids (list : List Int)
    : (ContextValue.ids list).listOrEmpty = list.map .int :=
  rfl

theorem intsOf_map_int (u : Unicode) (list : List Int)
    : ContextValue.intsOf u (list.map .int) = .ok list := by
  induction list with
  | nil => rfl
  | cons id rest ih => simp [ContextValue.intsOf, ContextValue.intOrNone, ih]

@[simp] theorem intList_ids (u : Unicode) (list : List Int)
    : (ContextValue.ids list).intList u = .ok list :=
  intsOf_map_int u list

@[simp] theorem intList_null (u : Unicode) : ContextValue.null.intList u = .ok [] := rfl

@[simp] theorem mem_refsOf {type : DocumentType} {list : List Int} {ref : DocumentRef}
    : ref ∈ refsOf type list ↔ ref.1 = type ∧ ref.2 ∈ list := by
  obtain ⟨t, id⟩ := ref
  simp only [refsOf, List.mem_map, Prod.mk.injEq]
  constructor
  · intro h
    obtain ⟨a, ha, rfl, rfl⟩ := h
    exact ⟨rfl, ha⟩
  · intro h
    exact ⟨id, h.2, h.1.symm, rfl⟩

@[simp] theorem mem_sortedRefs {refs : List DocumentRef} {ref : DocumentRef}
    : ref ∈ sortedRefs refs ↔ ref ∈ refs := by
  simp [sortedRefs]

theorem Context.get_append_ne {key added : String} (h : key ≠ added) (context : Context)
    (value : ContextValue)
    : Context.get (context ++ [(added, value)]) key = context.get key := by
  have hne : (added == key) = false := beq_eq_false_iff_ne.mpr h.symm
  unfold Context.get
  rw [List.find?_append, List.find?_cons, hne, List.find?_nil, Option.or_none]

theorem documentRefs_append_runtimeAccess (u : Unicode) (context : Context)
    (value : ContextValue)
    : documentRefsFromContext u (context ++ [("runtimeAccess", value)])
      = documentRefsFromContext u context := by
  have hget : ∀ key, key ≠ "runtimeAccess" →
      Context.get (context ++ [("runtimeAccess", value)]) key = context.get key :=
    fun key hkey => Context.get_append_ne hkey context value
  simp only [documentRefsFromContext, linkedQuoteIds, genericDocumentType,
    hget "documentId" (by decide), hget "quoteDocumentIds" (by decide),
    hget "purchaseOrderDocumentIds" (by decide), hget "documentIds" (by decide),
    hget "linkedSourcingContext" (by decide), hget "lineItems" (by decide),
    hget "targetType" (by decide)]

theorem rowAt_natCast {ρ : Type} (table : Table ρ) (key : Nat)
    : rowAt table (key : Int) = table.get? key := by
  simp [rowAt]

theorem rowAt_of_mem_select {ρ : Type} {table : Table ρ} {p : Nat → ρ → Bool} {id : Int}
    (h : id ∈ (table.select p).map Int.ofNat)
    : ∃ row, rowAt table id = some row := by
  obtain ⟨key, hkey, rfl⟩ := List.mem_map.mp h
  obtain ⟨row, hrow⟩ := Table.mem_keys.mp hkey
  refine ⟨row, ?_⟩
  rw [Int.ofNat_eq_natCast, rowAt_natCast]
  exact Table.get?_eq_some.mpr (List.mem_of_mem_filter (Table.get?_eq_some.mp hrow))

theorem canViewProcurementDocument_of_ne_viewer {access : List UserDepartmentAccess}
    {actor : Actor} (h : actor.role ≠ .viewer) (licenses : List (Nat × License))
    : canViewProcurementDocument access actor licenses = true := by
  simp [canViewProcurementDocument, getUserDepartmentsForScope, h]

theorem canView_quoteDocument {u : Unicode} {x : DocumentStore} {actor : Actor}
    (h : actor.role ≠ .viewer) {item : SourcingItem} {id : Int}
    (hid : id ∈ x.quoteDocumentIds item)
    : x.canView u actor (.sourcingQuoteDocument, id) = true := by
  have hrow : ∃ row, rowAt x.quoteDocuments id = some row := by
    unfold DocumentStore.quoteDocumentIds at hid
    split at hid
    · split at hid
      · exact rowAt_of_mem_select hid
      · cases hid
    · cases hid
  obtain ⟨row, hrow⟩ := hrow
  simp [DocumentStore.canView, hrow, h]

theorem canView_orderDocument {u : Unicode} {x : DocumentStore} {actor : Actor}
    (h : actor.role ≠ .viewer) {orderId : Nat} {id : Int}
    (hid : id ∈ x.orderDocumentIds orderId)
    : x.canView u actor (.procurementDocument, id) = true := by
  obtain ⟨row, hrow⟩ := rowAt_of_mem_select hid
  simp [DocumentStore.canView, hrow, canViewProcurementDocument_of_ne_viewer h]

theorem canView_licenseDocument_iff {u : Unicode} {x : DocumentStore} {actor : Actor} {id : Int}
    : x.canView u actor (.licenseDocument, id) = true
      ↔ ∃ document l, rowAt x.documents id = some document
        ∧ x.store.license? document.licenseId = some l
        ∧ canViewLicense x.access actor l = true := by
  simp only [DocumentStore.canView, Option.any_eq_true]
  constructor
  · intro h
    obtain ⟨document, hdocument, l, hl, hview⟩ := h
    exact ⟨document, l, hdocument, hl, hview⟩
  · intro h
    obtain ⟨document, l, hdocument, hl, hview⟩ := h
    exact ⟨document, hdocument, l, hl, hview⟩

-- The references of each context

/-- Every reference of a context may be viewed. -/
def RefsViewable (u : Unicode) (x : DocumentStore) (actor : Actor) (context : Context) : Prop :=
  ∀ refs, documentRefsFromContext u context = .ok refs →
    ∀ ref ∈ refs, x.canView u actor ref = true

theorem requireProcurementAccess_ok {actor : Actor} {r : Unit}
    (h : requireProcurementAccess actor = .ok r)
    : actor.role ≠ .viewer :=
  require_eq_ok.mp h

theorem licenseDocumentContext_viewable {u : Unicode} {x : DocumentStore} {targetId : String}
    {actor : Actor} {built : Context × String}
    (h : buildLicenseDocumentContext u x targetId actor = .ok built)
    : RefsViewable u x actor built.1 := by
  obtain ⟨documentId, -, h⟩ := bind_eq_ok.mp h
  obtain ⟨document, hdocument, h⟩ := bind_eq_ok.mp h
  obtain ⟨l, hl, h⟩ := bind_eq_ok.mp h
  obtain ⟨_, hview, h⟩ := bind_eq_ok.mp h
  obtain rfl := pure_eq_ok.mp h
  intro refs hrefs ref href
  have hone : refs = sortedRefs (refsOf .licenseDocument [documentId]) := by
    simpa [documentRefsFromContext, linkedQuoteIds, lineQuoteIds, Context.get,
      ContextValue.dictOrEmpty, ContextValue.listOrEmpty, ContextValue.intOrNone, refsOf]
      using hrefs.symm
  rw [hone, mem_sortedRefs, mem_refsOf, List.mem_singleton] at href
  obtain ⟨type, id⟩ := ref
  obtain ⟨rfl, rfl⟩ := href
  exact canView_licenseDocument_iff.mpr
    ⟨document, l, found_eq_ok.mp hdocument, found_eq_ok.mp hl, require_eq_ok.mp hview⟩

theorem sourcingItemContext_viewable {u : Unicode} {x : DocumentStore} {targetId : String}
    {actor : Actor} {built : Context × String}
    (h : buildSourcingItemContext u x targetId actor = .ok built)
    : RefsViewable u x actor built.1 := by
  obtain ⟨_, hrole, h⟩ := bind_eq_ok.mp h
  obtain ⟨itemId, -, h⟩ := bind_eq_ok.mp h
  obtain ⟨item, -, h⟩ := bind_eq_ok.mp h
  obtain ⟨-, -, h⟩ := bind_eq_ok.mp h
  obtain rfl := pure_eq_ok.mp h
  intro refs hrefs ref href
  have hquotes : refs = sortedRefs (refsOf .sourcingQuoteDocument (x.quoteDocumentIds item)) := by
    simpa [documentRefsFromContext, linkedQuoteIds, lineQuoteIds, Context.get,
      ContextValue.dictOrEmpty, ContextValue.listOrEmpty, ContextValue.intOrNone, refsOf]
      using hrefs.symm
  rw [hquotes, mem_sortedRefs, mem_refsOf] at href
  obtain ⟨type, id⟩ := ref
  obtain ⟨rfl, hid⟩ := href
  exact canView_quoteDocument (requireProcurementAccess_ok hrole) hid

theorem pendingOrderItemContext_viewable {u : Unicode} {x : DocumentStore} {targetId : String}
    {actor : Actor} {built : Context × String}
    (h : buildPendingOrderItemContext u x targetId actor = .ok built)
    : RefsViewable u x actor built.1 := by
  obtain ⟨_, hrole, h⟩ := bind_eq_ok.mp h
  obtain ⟨itemId, -, h⟩ := bind_eq_ok.mp h
  obtain ⟨item, -, h⟩ := bind_eq_ok.mp h
  obtain ⟨orderId, -, h⟩ := bind_eq_ok.mp h
  obtain ⟨order, -, h⟩ := bind_eq_ok.mp h
  obtain ⟨-, -, h⟩ := bind_eq_ok.mp h
  obtain rfl := pure_eq_ok.mp h
  intro refs hrefs ref href
  have hboth : refs = sortedRefs (refsOf .procurementDocument (x.orderDocumentIds orderId)
      ++ refsOf .sourcingQuoteDocument (x.quoteDocumentIds item)) := by
    simpa [documentRefsFromContext, linkedQuoteIds, lineQuoteIds, linkedSourcingContext,
      Context.get, ContextValue.dictOrEmpty, ContextValue.listOrEmpty, ContextValue.intOrNone,
      refsOf] using hrefs.symm
  rw [hboth, mem_sortedRefs, List.mem_append, mem_refsOf, mem_refsOf] at href
  obtain ⟨type, id⟩ := ref
  have hviewer := requireProcurementAccess_ok hrole
  rcases href with ⟨rfl, hid⟩ | ⟨rfl, hid⟩
  · exact canView_orderDocument hviewer hid
  · exact canView_quoteDocument hviewer hid

theorem lineQuoteIds_conversionItems (u : Unicode) (x : DocumentStore)
    (items : List (Nat × SourcingItem))
    : lineQuoteIds u (items.map (fun entry => pendingOrderConversionItemContext x entry.1 entry.2))
      = .ok (items.flatMap (fun entry => x.quoteDocumentIds entry.2)) := by
  induction items with
  | nil => rfl
  | cons entry rest ih =>
      have hline : linkedQuoteIds u
          (pendingOrderConversionItemContext x entry.1 entry.2).dictOrEmpty
            = .ok (x.quoteDocumentIds entry.2) := by
        simp [linkedQuoteIds, pendingOrderConversionItemContext, linkedSourcingContext,
          Context.get, ContextValue.dictOrEmpty]
      simp [lineQuoteIds, ih, hline]

theorem pendingOrderConversionContext_viewable {u : Unicode} {x : DocumentStore}
    {targetId : String} {actor : Actor} {clientContext : Context} {built : Context × String}
    (h : buildPendingOrderConversionContext u x targetId actor clientContext = .ok built)
    : RefsViewable u x actor built.1 := by
  obtain ⟨_, hrole, h⟩ := bind_eq_ok.mp h
  obtain ⟨target, -, h⟩ := bind_eq_ok.mp h
  obtain ⟨order, -, h⟩ := bind_eq_ok.mp h
  obtain ⟨-, -, h⟩ := bind_eq_ok.mp h
  obtain ⟨requestedItems, -, h⟩ := bind_eq_ok.mp h
  obtain ⟨-, -, h⟩ := bind_eq_ok.mp h
  obtain ⟨requested, -, h⟩ := bind_eq_ok.mp h
  obtain ⟨_, hinvalid, h⟩ := bind_eq_ok.mp h
  obtain rfl := pure_eq_ok.mp h
  have hrequested : ∀ id ∈ requested, id ∈ x.orderDocumentIds target.toNat := by
    intro id hid
    have hnone := List.filter_eq_nil_iff.mp (require_eq_ok.mp hinvalid) id hid
    simpa using hnone
  have hviewer := requireProcurementAccess_ok hrole
  intro refs hrefs ref href
  simp only [documentRefsFromContext, linkedQuoteIds, genericDocumentType, Context.get,
    List.find?_cons, List.find?_nil, String.reduceBEq, Option.map_some, Option.map_none,
    Option.getD_some, Option.getD_none, ContextValue.dictOrEmpty, ContextValue.listOrEmpty,
    ContextValue.intOrNone, intList_ids, intList_null, lineQuoteIds_conversionItems, ok_bind,
    pure_eq_ok, String.reduceEq, if_false, Option.toList_none] at hrefs
  rw [← hrefs] at href
  obtain ⟨type, id⟩ := ref
  simp only [mem_sortedRefs, List.mem_append, mem_refsOf, List.not_mem_nil, and_false, or_false,
    false_or] at href
  rcases href with ⟨rfl, hid⟩ | ⟨rfl, hid⟩
  · apply canView_orderDocument hviewer
    unfold idsOrElse at hid
    split at hid
    · exact hid
    · exact hrequested id hid
  · obtain ⟨entry, -, hid⟩ := List.mem_flatMap.mp hid
    exact canView_quoteDocument hviewer hid

theorem licenseDraftContext_refs {u : Unicode} {targetId : String} {actor : Actor}
    {clientContext : Context} {built : Context × String}
    (h : buildLicenseDraftContext u targetId actor clientContext = .ok built)
    : ∃ ids, (clientContext.get "documentIds").intList u = .ok ids
      ∧ documentRefsFromContext u built.1 = .ok (sortedRefs (refsOf .licenseDocument ids)) := by
  obtain ⟨ids, hids, h⟩ := bind_eq_ok.mp h
  obtain rfl := pure_eq_ok.mp h
  refine ⟨ids, hids, ?_⟩
  simp [documentRefsFromContext, linkedQuoteIds, lineQuoteIds, genericDocumentType, Context.get,
    ContextValue.dictOrEmpty, ContextValue.listOrEmpty, ContextValue.intOrNone, clientFile, refsOf]

theorem draftContext_refs (u : Unicode) (targetType label targetId : String) (actor : Actor)
    (clientContext : Context)
    : documentRefsFromContext u
        (buildDraftContext targetType label targetId actor clientContext).1 = .ok [] := by
  simp [documentRefsFromContext, linkedQuoteIds, lineQuoteIds, Context.get, buildDraftContext,
    ContextValue.dictOrEmpty, ContextValue.listOrEmpty, ContextValue.intOrNone, clientFile, refsOf,
    sortedRefs]

/-- The documents that the client names for a licence draft are stored, and the user may view
their licences.
-/
def DraftDocumentsViewable (u : Unicode) (x : DocumentStore) (request : ActionRequest) : Prop :=
  request.targetType = .licenseDraft →
    ∀ ids, (request.clientContext.get "documentIds").intList u = .ok ids →
      ∀ id ∈ ids, ∃ document l, rowAt x.documents id = some document
        ∧ x.store.license? document.licenseId = some l
        ∧ canViewLicense x.access request.actor l = true

theorem buildContext_viewable_iff {u : Unicode} {x : DocumentStore} {request : ActionRequest}
    {built : Context × String} {refs : List DocumentRef}
    (h : buildContext u x request.targetType request.targetId request.actor
      request.clientContext = .ok built)
    (hrefs : documentRefsFromContext u built.1 = .ok refs)
    : (∀ ref ∈ refs, x.canView u request.actor ref = true)
      ↔ DraftDocumentsViewable u x request := by
  unfold DraftDocumentsViewable
  cases htarget : request.targetType with
  | licenseDocument =>
      rw [htarget] at h
      simpa using licenseDocumentContext_viewable h refs hrefs
  | sourcingItem =>
      rw [htarget] at h
      simpa using sourcingItemContext_viewable h refs hrefs
  | pendingOrderItem =>
      rw [htarget] at h
      simpa using pendingOrderItemContext_viewable h refs hrefs
  | pendingOrderConversion =>
      rw [htarget] at h
      simpa using pendingOrderConversionContext_viewable h refs hrefs
  | sourcingQuoteDraft =>
      rw [htarget] at h
      cases h
      rw [buildSourcingQuoteDraftContext, draftContext_refs] at hrefs
      cases hrefs
      simp
  | pendingOrderDraft =>
      rw [htarget] at h
      cases h
      rw [buildPendingOrderDraftContext, draftContext_refs] at hrefs
      cases hrefs
      simp
  | licenseDraft =>
      rw [htarget] at h
      obtain ⟨ids, hids, hdraft⟩ := licenseDraftContext_refs h
      rw [hdraft] at hrefs
      cases hrefs
      simp only [true_implies, hids, Except.ok.injEq, forall_eq', mem_sortedRefs, mem_refsOf,
        ← canView_licenseDocument_iff (u := u)]
      constructor
      · intro hall id hid
        exact hall (.licenseDocument, id) ⟨rfl, hid⟩
      · intro hall ref href
        obtain ⟨type, id⟩ := ref
        obtain ⟨rfl, hid⟩ := href
        exact hall id hid

theorem openPluginAction_scope {u : Unicode} {host : PluginHost} {x : DocumentStore}
    {requestId : String} {request : ActionRequest} {opened : OpenedAction}
    (h : openPluginAction u host x requestId request = .ok opened)
    : ∃ built, buildContext u x request.targetType request.targetId request.actor
        request.clientContext = .ok built
      ∧ documentRefsFromContext u built.1 = .ok opened.scope := by
  obtain ⟨⟨plugin, action⟩, -, h⟩ := bind_eq_ok.mp h
  obtain ⟨-, -, h⟩ := bind_eq_ok.mp h
  obtain ⟨-, -, h⟩ := bind_eq_ok.mp h
  obtain ⟨-, -, h⟩ := bind_eq_ok.mp h
  obtain ⟨-, -, h⟩ := bind_eq_ok.mp h
  obtain ⟨-, -, h⟩ := bind_eq_ok.mp h
  obtain ⟨built, hbuilt, h⟩ := bind_eq_ok.mp h
  obtain ⟨-, -, h⟩ := bind_eq_ok.mp h
  obtain ⟨context, hcontext, h⟩ := bind_eq_ok.mp h
  obtain ⟨scope, hscope, h⟩ := bind_eq_ok.mp h
  obtain rfl := pure_eq_ok.mp h
  obtain ⟨refs, -, hcontext⟩ := bind_eq_ok.mp hcontext
  obtain rfl := pure_eq_ok.mp hcontext
  rw [documentRefs_append_runtimeAccess] at hscope
  exact ⟨built, hbuilt, hscope⟩

-- Reading during an action

theorem ActionScopes.refs_register (scopes : ActionScopes) (key : String × String)
    (refs : List DocumentRef)
    : ((ScopeTurn.register key refs).apply scopes).refs key = refs := by
  simp [ScopeTurn.apply, ActionScopes.refs]

theorem ActionScopes.refs_apply_ne {turn : ScopeTurn} {key : String × String}
    (h : turn.key ≠ key) (scopes : ActionScopes)
    : (turn.apply scopes).refs key = scopes.refs key := by
  have hfind : ∀ other, other ≠ key →
      (scopes.filter (fun entry => entry.1 != other)).find? (fun entry => entry.1 == key)
        = scopes.find? (fun entry => entry.1 == key) := by
    intro other hother
    rw [List.find?_filter]
    congr 1
    funext entry
    by_cases hk : entry.1 = key
    · simp [hk, hother.symm]
    · simp [hk]
  cases turn with
  | register other refs =>
      have hne : (other == key) = false := beq_eq_false_iff_ne.mpr h
      simp only [ScopeTurn.apply, ActionScopes.refs, List.find?_cons, hne, hfind other h]
  | unregister other =>
      simp only [ScopeTurn.apply, ActionScopes.refs, hfind other h]

theorem ActionScopes.refs_during {key : String × String} {turns : List ScopeTurn}
    (h : ∀ turn ∈ turns, turn.key ≠ key) (scopes : ActionScopes)
    : (turns.foldl ScopeTurn.apply scopes).refs key = scopes.refs key := by
  induction turns generalizing scopes with
  | nil => rfl
  | cons turn rest ih =>
      obtain ⟨hturn, hrest⟩ := List.forall_mem_cons.mp h
      rw [List.foldl_cons, ih hrest, ActionScopes.refs_apply_ne hturn]

theorem readScopedRuntimeDocument_mem {x : DocumentStore} {storage : Storage}
    {scopes : ActionScopes} {plugin : Plugin} {requestId : String} {ref : DocumentRef}
    {content : DocumentContent}
    (h : readScopedRuntimeDocument x storage scopes plugin requestId ref = .ok content)
    : ref ∈ scopes.refs (plugin.key, requestId) := by
  obtain ⟨-, -, h⟩ := bind_eq_ok.mp h
  obtain ⟨_, hmem, -⟩ := bind_eq_ok.mp h
  exact require_eq_ok.mp hmem

/-- The scopes at some moment of an action: registered, and since then only other requests were
registered and removed.
-/
def OpenedAction.scopesDuring (opened : OpenedAction) (before : ActionScopes)
    (others : List ScopeTurn)
    : ActionScopes :=
  others.foldl ScopeTurn.apply
    ((ScopeTurn.register (opened.plugin.key, opened.requestId) opened.scope).apply before)

/-- Every document that an accepted action registers, and every one that the extension reads
during it, is one that the user may view, just where those that the client names for a licence
draft are.
-/
theorem extensionDocuments_viewable_iff (u : Unicode) (host : PluginHost) (x : DocumentStore)
    (storage : Storage) (requestId : String) (request : ActionRequest) (opened : OpenedAction)
    (h : openPluginAction u host x requestId request = .ok opened)
    : ((∀ ref ∈ opened.scope, x.canView u request.actor ref = true)
        ∧ ∀ before others ref content,
            (∀ turn ∈ others, turn.key ≠ (opened.plugin.key, opened.requestId)) →
            readScopedRuntimeDocument x storage (opened.scopesDuring before others) opened.plugin
              opened.requestId ref = .ok content →
            x.canView u request.actor ref = true)
      ↔ (request.targetType = .licenseDraft →
          ∀ ids, (request.clientContext.get "documentIds").intList u = .ok ids →
            ∀ id ∈ ids, ∃ document l, rowAt x.documents id = some document
              ∧ x.store.license? document.licenseId = some l
              ∧ canViewLicense x.access request.actor l = true) := by
  obtain ⟨built, hbuilt, hrefs⟩ := openPluginAction_scope h
  have hiff := buildContext_viewable_iff hbuilt hrefs
  constructor
  · intro hall
    exact hiff.mp hall.1
  · intro hdraft
    have hscope := hiff.mpr hdraft
    refine ⟨hscope, ?_⟩
    intro before others ref content hothers hread
    have hmem := readScopedRuntimeDocument_mem hread
    rw [OpenedAction.scopesDuring, ActionScopes.refs_during hothers,
      ActionScopes.refs_register] at hmem
    exact hscope ref hmem

/-- A licence of department 7. -/
def departmentLicense : License :=
  { License.ofTerm .perpetual (some 1) none with costCentreId := some 7 }

/-- The licence of department 7 with one document, and viewers of departments 8 and 7. -/
def departmentStore : DocumentStore where
  store := { licenses := Table.empty.insert departmentLicense }
  documents := Table.empty.insert
    { filename := "a.pdf", originalFilename := "contract.pdf", mimeType := "application/pdf",
      licenseId := 1, category := "contract" }
  access := [⟨1, some 8⟩, ⟨2, some 7⟩]

/-- A verified extension with an action for licence drafts that every role may invoke. -/
def draftHost : PluginHost where
  actions := [({ key := "reader", trustStatus := "verified", enabled := true, status := "enabled",
                 permissions := [("actions:invoke", true), ("documents:read", true)],
                 health := some "healthy" },
               { actionKey := "review", slot := "license.add.review.actions",
                 requiredRole := "viewer", enabled := true })]
  developerMode := false
  baseUrl := "http://127.0.0.1:8000"

/-- A draft action of a viewer whose client names document 1. -/
def draftRequest (userId : Nat) : ActionRequest where
  pluginKey := "reader"
  actionKey := "review"
  targetType := .licenseDraft
  targetId := "draft"
  clientContext := [("documentIds", .ids [1])]
  actor := ⟨userId, .viewer⟩

/-- The viewer of department 7 opens an action on the document of that department. -/
theorem extensionDocuments_viewable_ownDepartment
    : ∃ opened,
        openPluginAction .ascii draftHost departmentStore "r1" (draftRequest 2) = .ok opened
        ∧ ∀ ref ∈ opened.scope, departmentStore.canView .ascii ⟨2, .viewer⟩ ref = true := by
  obtain ⟨opened, hopened⟩ := exists_ok
    (x := openPluginAction .ascii draftHost departmentStore "r1" (draftRequest 2))
    (by decide +kernel)
  refine ⟨opened, hopened, ?_⟩
  have hdraft := extensionDocuments_viewable_iff .ascii draftHost departmentStore
    ⟨fun _ => none, 10⟩ "r1" (draftRequest 2) opened hopened
  refine (hdraft.mpr ?_).1
  intro _ ids hids id hid
  have hone : ids = [1] := by
    rw [draftRequest] at hids
    exact (Except.ok.inj hids).symm
  rw [hone, List.mem_singleton] at hid
  rw [hid, ← canView_licenseDocument_iff (u := .ascii)]
  decide

/-- The viewer of department 8 opens an action in which the extension reads the same document. -/
theorem extensionDocuments_otherDepartment
    : ∃ opened content,
        openPluginAction .ascii draftHost departmentStore "r1" (draftRequest 1) = .ok opened
        ∧ (.licenseDocument, 1) ∈ opened.scope
        ∧ departmentStore.canView .ascii ⟨1, .viewer⟩ (.licenseDocument, 1) = false
        ∧ readScopedRuntimeDocument departmentStore ⟨fun _ => some [37, 80], 10⟩
            (opened.scopesDuring [] []) opened.plugin opened.requestId (.licenseDocument, 1)
            = .ok content
        ∧ content.content = [37, 80] := by
  obtain ⟨opened, hopened⟩ := exists_ok
    (x := openPluginAction .ascii draftHost departmentStore "r1" (draftRequest 1))
    (by decide +kernel)
  have hread : (openPluginAction .ascii draftHost departmentStore "r1" (draftRequest 1)
      >>= fun opened => (·.content) <$> readScopedRuntimeDocument departmentStore
        ⟨fun _ => some [37, 80], 10⟩ (opened.scopesDuring [] []) opened.plugin opened.requestId
        (.licenseDocument, 1)) = .ok [37, 80] := by
    decide +kernel
  rw [hopened, ok_bind] at hread
  obtain ⟨content, hcontent, hbytes⟩ := map_eq_ok.mp hread
  have hmem := readScopedRuntimeDocument_mem hcontent
  rw [OpenedAction.scopesDuring, List.foldl_nil, ActionScopes.refs_register] at hmem
  exact ⟨opened, content, hopened, hmem, by decide, hcontent, hbytes⟩

end LicenseTrack
