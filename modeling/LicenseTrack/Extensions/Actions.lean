import LicenseTrack.Access.Rules
import LicenseTrack.Services.OrderConversion

/-! The actions of extensions: the context that an action is given, the documents that its
scope registers, and the reading of a registered document by the extension.
-/

namespace LicenseTrack

open Library

/-- The value of the digits after a first one, single underscores allowed between digits. -/
def Unicode.digitsValue (u : Unicode) (value : Nat) : List Char → Option Nat
  | [] => some value
  | '_' :: c :: rest => (u.digit c).bind (fun d => u.digitsValue (value * 10 + d) rest)
  | c :: rest => (u.digit c).bind (fun d => u.digitsValue (value * 10 + d) rest)

/-- The value of a run of digits, of which `int` takes 4300 at most. -/
def Unicode.naturalValue (u : Unicode) (digits : List Char) : Option Nat :=
  if 4300 < (digits.filter (· != '_')).length then none
  else
    match digits with
    | [] => none
    | c :: rest => (u.digit c).bind (fun d => u.digitsValue d rest)

/-- `int(text)`, none for a `ValueError`. -/
def Unicode.int (u : Unicode) (text : String) : Option Int :=
  match stripChars isSpace text.toList with
  | '-' :: digits => (u.naturalValue digits).map (fun n => -(n : Int))
  | '+' :: digits => (u.naturalValue digits).map Int.ofNat
  | digits => (u.naturalValue digits).map Int.ofNat

/-- A value of a request body or of a context. -/
inductive ContextValue
  | null
  | bool (b : Bool)
  | int (n : Int)
  /-- A finite float. -/
  | real (q : Rat)
  | nan
  | infinite
  | string (text : String)
  | list (values : List ContextValue)
  | object (fields : List (String × ContextValue))

/-- A dictionary with text keys. -/
abbrev Context := List (String × ContextValue)

/-- `context.get(key)`. -/
def Context.get (context : Context) (key : String) : ContextValue :=
  ((context.find? (fun entry => entry.1 == key)).map Prod.snd).getD .null

namespace ContextValue

/-- A text or nothing. -/
def ofText (text : Option String) : ContextValue := (text.map string).getD .null

/-- A list of identifiers. -/
def ids (list : List Int) : ContextValue := .list (list.map int)

/-- `bool(value)`. -/
def truthy : ContextValue → Bool
  | .null => false
  | .bool b => b
  | .int n => n != 0
  | .real q => q != 0
  | .nan => true
  | .infinite => true
  | .string text => text != ""
  | .list values => !values.isEmpty
  | .object fields => !fields.isEmpty

/-- `value if isinstance(value, dict) else {}`. -/
def dictOrEmpty : ContextValue → Context
  | .object fields => fields
  | _ => []

/-- `value if isinstance(value, list) else []`. -/
def listOrEmpty : ContextValue → List ContextValue
  | .list values => values
  | _ => []

/-- `_string_or_none`. -/
def stringOrNone : ContextValue → ContextValue
  | .string text => if isBlank text then .null else .string text
  | _ => .null

/-- `int_or_none`. An infinite float raises an `OverflowError`, which is not caught. -/
def intOrNone (u : Unicode) : ContextValue → Except Failure (Option Int)
  | .bool b => .ok (some (if b then 1 else 0))
  | .int n => .ok (some n)
  | .real q => .ok (some (q.num.tdiv q.den))
  | .infinite => .error (.database "cannot convert float infinity to integer")
  | .string text => .ok (u.int text)
  | _ => .ok none

/-- The whole numbers of a list of values. -/
def intsOf (u : Unicode) : List ContextValue → Except Failure (List Int)
  | [] => .ok []
  | value :: rest => do
      let parsed ← intOrNone u value
      let others ← intsOf u rest
      pure (parsed.toList ++ others)

/-- `int_list`. -/
def intList (u : Unicode) (value : ContextValue) : Except Failure (List Int) :=
  intsOf u value.listOrEmpty

end ContextValue

/-- The document types that an extension can read. -/
inductive DocumentType
  | licenseDocument
  | procurementDocument
  | sourcingQuoteDocument
deriving DecidableEq

namespace DocumentType

/-- The text of a document type. -/
def key : DocumentType → String
  | .licenseDocument => "license_document"
  | .procurementDocument => "procurement_document"
  | .sourcingQuoteDocument => "sourcing_quote_document"

/-- The rank of a document type among the texts. -/
def rank : DocumentType → Nat
  | .licenseDocument => 0
  | .procurementDocument => 1
  | .sourcingQuoteDocument => 2

end DocumentType

/-- A document type with an identifier, which need not be that of a stored row. -/
abbrev DocumentRef := DocumentType × Int

/-- What reading a stored document uses of its row. -/
structure StoredFile where
  filename : String
  originalFilename : String
  mimeType : String
deriving DecidableEq

/-- A row of `documents`. -/
structure Document extends StoredFile where
  licenseId : Nat
  category : String
deriving DecidableEq

/-- A row of `procurement_documents`. -/
structure ProcurementDocumentRow extends ProcurementDocument, StoredFile
deriving DecidableEq

/-- A row of `sourcing_quote_documents`. -/
structure SourcingQuoteDocument extends StoredFile where
  sourcingRequestId : Nat
deriving DecidableEq

/-- The tables that extension actions read. -/
structure DocumentStore where
  store : Store
  documents : Table Document := .empty
  procurementDocuments : Table ProcurementDocumentRow := .empty
  quoteDocuments : Table SourcingQuoteDocument := .empty
  access : List UserDepartmentAccess := []

/-- `db.get` under any whole number. -/
def rowAt {ρ : Type} (table : Table ρ) (key : Int) : Option ρ :=
  if key < 0 then none else table.get? key.toNat

namespace DocumentStore

/-- `sourcing_request.quote_documents` of a line, none without a request. -/
def quoteDocumentIds (x : DocumentStore) (item : SourcingItem) : List Int :=
  match item.sourcingRequestId with
  | some requestId =>
      if (x.store.requests.get? requestId).isSome then
        (x.quoteDocuments.select (fun _ doc => doc.sourcingRequestId == requestId)).map Int.ofNat
      else []
  | none => []

/-- The identifiers of `order.documents`. -/
def orderDocumentIds (x : DocumentStore) (orderId : Nat) : List Int :=
  (x.procurementDocuments.select (fun _ doc => doc.pendingOrderId == some orderId)).map Int.ofNat

/-- `order.items`. -/
def orderItems (x : DocumentStore) (orderId : Nat) : List (Nat × SourcingItem) :=
  (x.store.items.filter (fun _ item => item.pendingOrderId == some orderId)).entries

/-- Whether the user may view a document under the rules of its type. Quote documents are open
to editors and admins only.
-/
def canView (u : Unicode) (x : DocumentStore) (actor : Actor) (ref : DocumentRef) : Bool :=
  match ref.1 with
  | .licenseDocument =>
      (rowAt x.documents ref.2).any (fun document =>
        (x.store.license? document.licenseId).any (canViewLicense x.access actor))
  | .procurementDocument =>
      (rowAt x.procurementDocuments ref.2).any (fun document =>
        canViewProcurementDocument x.access actor
          (getProcurementDocumentLicenses u x.store document.toProcurementDocument))
  | .sourcingQuoteDocument => (rowAt x.quoteDocuments ref.2).isSome && actor.role != .viewer

end DocumentStore

-- Building a context

/-- The targets of an action. -/
inductive TargetType
  | licenseDocument
  | sourcingItem
  | sourcingQuoteDraft
  | pendingOrderDraft
  | pendingOrderItem
  | pendingOrderConversion
  | licenseDraft
deriving DecidableEq

/-- The text of a target type. -/
def TargetType.key : TargetType → String
  | .licenseDocument => "license_document"
  | .sourcingItem => "sourcing_item"
  | .sourcingQuoteDraft => "sourcing_quote_draft"
  | .pendingOrderDraft => "pending_order_draft"
  | .pendingOrderItem => "pending_order_item"
  | .pendingOrderConversion => "pending_order_conversion"
  | .licenseDraft => "license_draft"

/-- `_role_value`. -/
def UserRole.value : UserRole → String
  | .admin => "admin"
  | .editor => "editor"
  | .viewer => "viewer"

/-- The text of a sourcing status. -/
def SourcingStatus.value : SourcingStatus → String
  | .sourcing => "sourcing"
  | .converted => "converted"
  | .cancelled => "cancelled"

/-- `_require_procurement_access`. -/
def requireProcurementAccess (actor : Actor) : Except Failure Unit :=
  require (actor.role ≠ .viewer)
    (.value "User role cannot access procurement Official Extension actions")

/-- `_sourcing_item_fields`. -/
def sourcingItemFields (item : SourcingItem) : ContextValue :=
  .object [
    ("publisherName", .string item.publisherName),
    ("softwareDescription", .string item.softwareDescription),
    ("quantity", .ofText item.quantity),
    ("estimatedUnitPrice", .ofText item.estimatedUnitPrice),
    ("estimatedTotalPrice", .ofText item.estimatedTotalPrice),
    ("currency", .string item.currency),
    ("supplier", .ofText item.supplier),
    ("contactEmail", .ofText item.contactEmail),
    ("notes", .ofText item.notes),
    ("status", .string item.status.value),
    ("isRenewal", .bool item.renewalForLicenseId.isSome)]

/-- A row key or nothing. -/
def ContextValue.ofKey (key : Option Nat) : ContextValue :=
  (key.map (fun id => ContextValue.int (id : Int))).getD .null

/-- The dictionary of a line's request and its quote documents. -/
def linkedSourcingContext (x : DocumentStore) (item : SourcingItem) : ContextValue :=
  .object [
    ("sourcingRequestId", .ofKey item.sourcingRequestId),
    ("quoteDocumentIds", .ids (x.quoteDocumentIds item))]

/-- `_build_license_document_context`, with the label of the target. -/
def buildLicenseDocumentContext (u : Unicode) (x : DocumentStore) (targetId : String)
    (actor : Actor)
    : Except Failure (Context × String) := do
  let documentId ← found (u.int targetId) (.value "Document target id must be an integer")
  let document ← found (rowAt x.documents documentId) (.value "Document not found")
  let l ← found (x.store.license? document.licenseId) (.value "Document not found")
  let _ : Unit ← require (canViewLicense x.access actor l = true) (.value "Document not found")
  pure
    ([("targetType", .string "license_document"),
      ("targetId", .string (toString documentId)),
      ("documentId", .int documentId),
      ("licenseId", .int document.licenseId),
      ("documentCategory", .string document.category),
      ("fileName", .string document.originalFilename),
      ("contentType", .string document.mimeType),
      ("userRole", .string actor.role.value)],
      document.originalFilename)

/-- `_build_sourcing_item_context`. -/
def buildSourcingItemContext (u : Unicode) (x : DocumentStore) (targetId : String)
    (actor : Actor)
    : Except Failure (Context × String) := do
  requireProcurementAccess actor
  let itemId ← found (u.int targetId) (.value "Sourcing item target id must be an integer")
  let item ← found (rowAt x.store.items itemId) (.value "Sourcing item not found")
  let _ : Unit ← require (item.status = .sourcing) (.value "Sourcing item not found")
  pure
    ([("targetType", .string "sourcing_item"),
      ("targetId", .string (toString itemId)),
      ("sourcingRequestId", .ofKey item.sourcingRequestId),
      ("sourcingItemId", .int itemId),
      ("itemFields", sourcingItemFields item),
      ("quoteDocumentIds", .ids (x.quoteDocumentIds item)),
      ("userRole", .string actor.role.value)],
      item.softwareDescription)

/-- `_build_pending_order_item_context`. -/
def buildPendingOrderItemContext (u : Unicode) (x : DocumentStore) (targetId : String)
    (actor : Actor)
    : Except Failure (Context × String) := do
  requireProcurementAccess actor
  let itemId ← found (u.int targetId) (.value "Pending order item target id must be an integer")
  let item ← found (rowAt x.store.items itemId) (.value "Pending order item not found")
  let orderId ← found item.pendingOrderId (.value "Pending order item not found")
  let order ← found (x.store.orders.get? orderId) (.value "Pending order item not found")
  let _ : Unit ← require (order.isOpen = true) (.value "Pending order item not found")
  pure
    ([("targetType", .string "pending_order_item"),
      ("targetId", .string (toString itemId)),
      ("pendingOrderId", .int orderId),
      ("lineItemId", .int itemId),
      ("lineFields", sourcingItemFields item),
      ("purchaseOrderDocumentIds", .ids (x.orderDocumentIds orderId)),
      ("linkedSourcingContext", linkedSourcingContext x item),
      ("userRole", .string actor.role.value)],
      item.softwareDescription)

/-- `_pending_order_conversion_item_context`. -/
def pendingOrderConversionItemContext (x : DocumentStore) (id : Nat) (item : SourcingItem)
    : ContextValue :=
  .object [
    ("lineItemId", .int id),
    ("lineFields", sourcingItemFields item),
    ("linkedSourcingContext", linkedSourcingContext x item)]

/-- `requested or default`. -/
def idsOrElse (requested fallback : List Int) : List Int :=
  if requested.isEmpty then fallback else requested

/-- `_build_pending_order_conversion_context`. -/
def buildPendingOrderConversionContext (u : Unicode) (x : DocumentStore) (targetId : String)
    (actor : Actor) (clientContext : Context)
    : Except Failure (Context × String) := do
  requireProcurementAccess actor
  let target ←
    found (u.int targetId) (.value "Pending order conversion target id must be an integer")
  let order ← found (rowAt x.store.orders target) (.value "Pending order not found")
  let _ : Unit ← require (order.isOpen = true) (.value "Pending order not found")
  let orderId := target.toNat
  let itemIds : List Int := (x.orderItems orderId).map (fun entry => (entry.1 : Int))
  let requestedItemIds ← (clientContext.get "selectedLineItemIds").intList u
  let selectedItemIds := idsOrElse requestedItemIds itemIds
  let invalidItemIds := selectedItemIds.filter (fun id => !itemIds.contains id)
  let _ : Unit ← require (invalidItemIds = []) (.value
    s!"Selected line item(s) are not part of this pending order: {invalidItemIds}")
  let poDocumentIds := x.orderDocumentIds orderId
  let requestedDocumentIds ← (clientContext.get "documentIds").intList u
  let invalidDocumentIds := requestedDocumentIds.filter (fun id => !poDocumentIds.contains id)
  let _ : Unit ← require (invalidDocumentIds = []) (.value
    s!"Document(s) are not part of this pending order: {invalidDocumentIds}")
  pure
    ([("targetType", .string "pending_order_conversion"),
      ("targetId", .string (toString target)),
      ("pendingOrderId", .int target),
      ("selectedLineItemIds", .ids selectedItemIds),
      ("conversionDraftFields",
        .object (clientContext.get "conversionDraftFields").dictOrEmpty),
      ("documentIds", .ids (idsOrElse requestedDocumentIds poDocumentIds)),
      ("lineItems", .list (((x.orderItems orderId).filter
          (fun entry => selectedItemIds.contains (entry.1 : Int))).map
        (fun entry => pendingOrderConversionItemContext x entry.1 entry.2))),
      ("userRole", .string actor.role.value)],
      order.poNumber)

/-- `str(target_id or "draft")`. -/
def draftTarget (targetId : String) : String := if targetId = "" then "draft" else targetId

/-- The entries of a context for a file that the client sends along. -/
def clientFile (clientContext : Context) : Context :=
  [("fileContentBase64", (clientContext.get "fileContentBase64").stringOrNone),
    ("fileName", (clientContext.get "fileName").stringOrNone),
    ("contentType", (clientContext.get "contentType").stringOrNone)]

/-- `_build_license_draft_context`. -/
def buildLicenseDraftContext (u : Unicode) (targetId : String) (actor : Actor)
    (clientContext : Context)
    : Except Failure (Context × String) := do
  let documentIds ← (clientContext.get "documentIds").intList u
  pure
    ([("targetType", .string "license_draft"),
      ("targetId", .string (draftTarget targetId)),
      ("draftId", .string (draftTarget targetId)),
      ("stagedFileToken", (clientContext.get "stagedFileToken").stringOrNone),
      ("draftFields", .object (clientContext.get "draftFields").dictOrEmpty),
      ("documentIds", .ids documentIds),
      ("detectedDocumentCategory",
        (clientContext.get "detectedDocumentCategory").stringOrNone),
      ("userRole", .string actor.role.value)] ++ clientFile clientContext,
      "License draft")

/-- `_build_sourcing_quote_draft_context` and `_build_pending_order_draft_context`, which
differ in their texts.
-/
def buildDraftContext (targetType label : String) (targetId : String) (actor : Actor)
    (clientContext : Context)
    : Context × String :=
  ([("targetType", .string targetType),
    ("targetId", .string (draftTarget targetId)),
    ("userRole", .string actor.role.value)] ++ clientFile clientContext,
    label)

/-- `_build_sourcing_quote_draft_context`. -/
def buildSourcingQuoteDraftContext (targetId : String) (actor : Actor)
    (clientContext : Context)
    : Context × String :=
  buildDraftContext "sourcing_quote_draft" "Sourcing quote draft" targetId actor clientContext

/-- `_build_pending_order_draft_context`. -/
def buildPendingOrderDraftContext (targetId : String) (actor : Actor)
    (clientContext : Context)
    : Context × String :=
  buildDraftContext "pending_order_draft" "Pending order draft" targetId actor clientContext

/-- `_build_context`. -/
def buildContext (u : Unicode) (x : DocumentStore) (targetType : TargetType) (targetId : String)
    (actor : Actor) (clientContext : Context)
    : Except Failure (Context × String) :=
  match targetType with
  | .licenseDocument => buildLicenseDocumentContext u x targetId actor
  | .sourcingItem => buildSourcingItemContext u x targetId actor
  | .pendingOrderItem => buildPendingOrderItemContext u x targetId actor
  | .pendingOrderConversion =>
      buildPendingOrderConversionContext u x targetId actor clientContext
  | .licenseDraft => buildLicenseDraftContext u targetId actor clientContext
  | .sourcingQuoteDraft => .ok (buildSourcingQuoteDraftContext targetId actor clientContext)
  | .pendingOrderDraft => .ok (buildPendingOrderDraftContext targetId actor clientContext)

/-- References of one type. -/
def refsOf (type : DocumentType) (list : List Int) : List DocumentRef := list.map (type, ·)

/-- The quote documents that a linked sourcing context names. -/
def linkedQuoteIds (u : Unicode) (context : Context) : Except Failure (List Int) :=
  ((context.get "linkedSourcingContext").dictOrEmpty.get "quoteDocumentIds").intList u

/-- The quote documents that the dictionaries among the lines name. -/
def lineQuoteIds (u : Unicode) : List ContextValue → Except Failure (List Int)
  | [] => .ok []
  | line :: rest => do
      let own ← linkedQuoteIds u line.dictOrEmpty
      let others ← lineQuoteIds u rest
      pure (own ++ others)

/-- The type of the documents under `documentIds`. -/
def genericDocumentType (context : Context) : DocumentType :=
  match context.get "targetType" with
  | .string text => if text = "license_draft" then .licenseDocument else .procurementDocument
  | _ => .procurementDocument

/-- `sorted(refs)` of a set of references. -/
def sortedRefs (refs : List DocumentRef) : List DocumentRef :=
  refs.dedup.insertionSort (fun a b => a.1.rank < b.1.rank ∨ a.1.rank = b.1.rank ∧ a.2 ≤ b.2)

/-- `_document_refs_from_context`. -/
def documentRefsFromContext (u : Unicode) (context : Context)
    : Except Failure (List DocumentRef) := do
  let documentId ← (context.get "documentId").intOrNone u
  let quotes ← (context.get "quoteDocumentIds").intList u
  let purchaseOrders ← (context.get "purchaseOrderDocumentIds").intList u
  let generic ← (context.get "documentIds").intList u
  let linked ← linkedQuoteIds u context
  let lines ← lineQuoteIds u (context.get "lineItems").listOrEmpty
  pure (sortedRefs (refsOf .licenseDocument documentId.toList
    ++ refsOf .sourcingQuoteDocument quotes
    ++ refsOf .procurementDocument purchaseOrders
    ++ refsOf (genericDocumentType context) generic
    ++ refsOf .sourcingQuoteDocument linked
    ++ refsOf .sourcingQuoteDocument lines))

/-- `_context_contains_document_access`. -/
def contextContainsDocumentAccess (context : Context) : Bool :=
  (context.get "fileContentBase64").truthy || (context.get "stagedFileToken").truthy
    || ["documentId", "documentIds", "quoteDocumentIds", "purchaseOrderDocumentIds"].any
        (fun key => (context.get key).truthy)
    || ((context.get "linkedSourcingContext").dictOrEmpty.get "quoteDocumentIds").truthy
    || (context.get "lineItems").listOrEmpty.any (fun line =>
        ((line.dictOrEmpty.get "linkedSourcingContext").dictOrEmpty.get
          "quoteDocumentIds").truthy)

-- Invoking an action

/-- What invoking reads of a row of `plugins` with its permissions and runtime status. -/
structure Plugin where
  key : String
  trustStatus : String
  enabled : Bool
  status : String
  /-- The permissions with whether each is granted. -/
  permissions : List (String × Bool)
  /-- The health of the runtime, none without a status row. -/
  health : Option String
deriving DecidableEq

/-- What invoking reads of a row of `plugin_actions`. -/
structure PluginAction where
  actionKey : String
  slot : String
  requiredRole : String
  enabled : Bool
deriving DecidableEq

/-- `plugin_can_run`. -/
def pluginCanRun (developerMode : Bool) (plugin : Plugin) : Bool :=
  plugin.trustStatus == "verified" || plugin.trustStatus == "developer" && developerMode

/-- `SLOT_TARGET_TYPES`. -/
def slotTargetTypes (slot : String) : List TargetType :=
  if slot = "document.row.actions" then [.licenseDocument]
  else if slot = "sourcing.item.edit.actions" then [.sourcingItem]
  else if slot = "sourcing.quote.add.actions" then [.sourcingQuoteDraft]
  else if slot = "pendingOrder.add.actions" then [.pendingOrderDraft]
  else if slot = "pendingOrder.line.edit.actions" then [.pendingOrderItem]
  else if slot = "pendingOrder.convert.actions" then [.pendingOrderConversion]
  else if slot = "license.add.review.actions" then [.licenseDraft]
  else []

/-- `TARGET_REQUIRED_PERMISSIONS`. -/
def targetRequiredPermissions : TargetType → List String
  | .licenseDocument => ["actions:invoke", "documents:read"]
  | .sourcingItem => ["actions:invoke", "procurement:read"]
  | .sourcingQuoteDraft => ["actions:invoke"]
  | .pendingOrderDraft => ["actions:invoke"]
  | .pendingOrderItem => ["actions:invoke", "procurement:read"]
  | .pendingOrderConversion => ["actions:invoke", "procurement:read"]
  | .licenseDraft => ["actions:invoke"]

/-- `ROLE_RANK` of a required role, which is 99 for an unknown one. -/
def requiredRank (role : String) : Nat :=
  if role = "viewer" then 0 else if role = "editor" then 1 else if role = "admin" then 2 else 99

/-- `_role_allows`. -/
def roleAllows (actor : Actor) (requiredRole : String) : Bool :=
  requiredRank requiredRole ≤ requiredRank actor.role.value

/-- `_plugin_has_permissions`. -/
def pluginHasPermissions (plugin : Plugin) (required : List String) : Bool :=
  required.all (fun name => plugin.permissions.contains (name, true))

/-- The URL under which a runtime reads a document. -/
def contentUrl (baseUrl pluginKey requestId : String) (ref : DocumentRef) : String :=
  s!"{baseUrl}/api/plugin-runtime/{pluginKey}/action-requests/{requestId}/documents/"
    ++ s!"{ref.1.key}/{ref.2}"

/-- `build_runtime_access_context`. -/
def buildRuntimeAccessContext (u : Unicode) (baseUrl pluginKey requestId : String)
    (context : Context)
    : Except Failure Context := do
  let refs ← documentRefsFromContext u context
  pure (context ++ [("runtimeAccess", .object [
    ("settingsUrl", .string s!"{baseUrl}/api/plugin-runtime/{pluginKey}/settings"),
    ("documentRefs", .list (refs.map (fun ref => .object [
      ("type", .string ref.1.key),
      ("id", .int ref.2),
      ("contentUrl", .string (contentUrl baseUrl pluginKey requestId ref))])))])])

/-- A request to invoke an action. -/
structure ActionRequest where
  pluginKey : String
  actionKey : String
  targetType : TargetType
  targetId : String
  clientContext : Context
  actor : Actor

/-- The host: installed actions with their plugins, its mode and its address. -/
structure PluginHost where
  actions : List (Plugin × PluginAction)
  developerMode : Bool
  baseUrl : String

/-- What an accepted invocation hands to the runtime, and the scope that it registers. -/
structure OpenedAction where
  plugin : Plugin
  requestId : String
  context : Context
  scope : List DocumentRef

/-- `invoke_plugin_action` up to the registration of the scope. The request identifier is a
fresh one.
-/
def openPluginAction (u : Unicode) (host : PluginHost) (x : DocumentStore) (requestId : String)
    (request : ActionRequest)
    : Except Failure OpenedAction := do
  let (plugin, action) ←
    found (host.actions.find? (fun entry =>
        entry.1.key == request.pluginKey && entry.2.actionKey == request.actionKey))
      (.value "Official Extension action not found")
  let _ : Unit ← require (pluginCanRun host.developerMode plugin = true)
    (.value "Official Extension is not verified or developer mode is unavailable")
  let _ : Unit ← require
    (plugin.enabled = true ∧ plugin.status = "enabled" ∧ action.enabled = true)
    (.value "Official Extension action is not enabled")
  let _ : Unit ← require (request.targetType ∈ slotTargetTypes action.slot)
    (.value "Official Extension action does not support this target")
  let _ : Unit ← require (roleAllows request.actor action.requiredRole = true)
    (.value "User role cannot invoke this Official Extension action")
  let _ : Unit ← require (plugin.health = some "healthy")
    (.value "Official Extension runtime is not healthy")
  let (context, _) ←
    buildContext u x request.targetType request.targetId request.actor request.clientContext
  let required := targetRequiredPermissions request.targetType
    ++ if contextContainsDocumentAccess context then ["documents:read"] else []
  let _ : Unit ← require (pluginHasPermissions plugin required = true)
    (.value "Official Extension is missing required permission(s)")
  let context ← buildRuntimeAccessContext u host.baseUrl plugin.key requestId context
  let scope ← documentRefsFromContext u context
  pure { plugin, requestId, context, scope }

/-- `_action_document_scopes`, whose keys are a plugin and a request. -/
abbrev ActionScopes := List ((String × String) × List DocumentRef)

/-- A change of the registered scopes. -/
inductive ScopeTurn
  /-- `register_runtime_action_scope`. -/
  | register (key : String × String) (refs : List DocumentRef)
  /-- `unregister_runtime_action_scope`. -/
  | unregister (key : String × String)

namespace ScopeTurn

/-- The key that a change is about. -/
def key : ScopeTurn → String × String
  | .register key _ => key
  | .unregister key => key

/-- The scopes after a change. -/
def apply (scopes : ActionScopes) : ScopeTurn → ActionScopes
  | .register key refs => (key, refs) :: scopes.filter (fun entry => entry.1 != key)
  | .unregister key => scopes.filter (fun entry => entry.1 != key)

end ScopeTurn

/-- `_action_document_scopes.get(key, set())`. -/
def ActionScopes.refs (scopes : ActionScopes) (key : String × String) : List DocumentRef :=
  ((scopes.find? (fun entry => entry.1 == key)).map Prod.snd).getD []

/-- The row of a document. -/
def DocumentStore.file? (x : DocumentStore) (ref : DocumentRef) : Option StoredFile :=
  match ref.1 with
  | .licenseDocument => (rowAt x.documents ref.2).map (·.toStoredFile)
  | .procurementDocument => (rowAt x.procurementDocuments ref.2).map (·.toStoredFile)
  | .sourcingQuoteDocument => (rowAt x.quoteDocuments ref.2).map (·.toStoredFile)

/-- The files on disk under the storage path, and the largest size that extensions may read. -/
structure Storage where
  content? : String → Option (List UInt8)
  maxSizeMb : Nat

/-- `PluginRuntimeDocumentContentResponse`, the content not yet encoded. -/
structure DocumentContent where
  ref : DocumentRef
  fileName : String
  contentType : String
  content : List UInt8

/-- `read_scoped_runtime_document`. -/
def readScopedRuntimeDocument (x : DocumentStore) (storage : Storage) (scopes : ActionScopes)
    (plugin : Plugin) (requestId : String) (ref : DocumentRef)
    : Except Failure DocumentContent := do
  let _ : Unit ← require (("documents:read", true) ∈ plugin.permissions)
    (.value "Official Extension is missing required permission: documents:read")
  let _ : Unit ← require (ref ∈ scopes.refs (plugin.key, requestId))
    (.value "Document is not available in this Official Extension action context")
  let document ← found (x.file? ref) (.value "Document not found")
  let content ← found (storage.content? document.filename) (.value "File not found on disk")
  let _ : Unit ← require (content.length ≤ storage.maxSizeMb * 1024 * 1024)
    (.value (s!"Document exceeds the maximum size of {storage.maxSizeMb} MB "
      ++ s!"allowed for plugin access ({content.length} bytes)."))
  pure
    { ref, fileName := document.originalFilename, contentType := document.mimeType, content }

end LicenseTrack
