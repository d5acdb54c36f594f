import LicenseTrack.Services.Request

/-! The portfolio reset: the tables that it empties and what the database does to the rows that
refer to deleted ones.
-/

namespace LicenseTrack.Reset

open Library

/-- A row of `documents`. -/
structure Document where
  licenseId : Nat
  filename : String
deriving DecidableEq

/-- A row of `procurement_documents`. -/
structure ProcurementDocument where
  pendingOrderId : Option Nat
  licenseId : Option Nat
  filename : String
deriving DecidableEq

/-- A row of `sourcing_quote_documents`. -/
structure SourcingQuoteDocument where
  sourcingRequestId : Nat
  filename : String
deriving DecidableEq

/-- A row of `contract_folders`. -/
structure ContractFolder where
  contractId : Nat
deriving DecidableEq

/-- A row of `contract_documents`. -/
structure ContractDocument where
  contractId : Nat
  folderId : Option Nat
  filename : String
deriving DecidableEq

/-- A row of `custom_field_values` or of `sourcing_item_custom_field_values`: the licence or the
line that it belongs to, the definition and the value.
-/
structure CustomFieldValue where
  ownerId : Nat
  definitionId : Nat
  value : Option String
deriving DecidableEq

/-- A row of `document_processing_results` or of `plugin_suggestions`. -/
structure ExtensionResult where
  licenseId : Option Nat
  status : String
deriving DecidableEq

/-- A row of `webhook_deliveries`. -/
structure WebhookDelivery where
  endpointId : Nat
  eventType : String
deriving DecidableEq

/-- A row of `audit_log`. -/
structure AuditLog where
  action : String
  actorEmail : String
  ipAddress : Option String
  targetType : Option String
  targetLabel : Option String
  detail : String
deriving DecidableEq

/-- The row of `global_settings`, as far as the reset reads or writes it. -/
structure GlobalSettings where
  backupLocation : Option String
  storagePath : Option String
  lastNotificationSentDate : Option Date
  lastNotificationAttemptDate : Option Date
deriving DecidableEq

/-- A database: the store, the other tables that the reset writes, and the configuration that no
statement of it names (accounts, tokens, definitions, mappings, integrations, extensions).
-/
structure Installation (κ : Type) where
  store : Store := {}
  documents : List Document := []
  procurementDocuments : List ProcurementDocument := []
  quoteDocuments : List SourcingQuoteDocument := []
  contractFolders : Table ContractFolder := .empty
  contractDocuments : List ContractDocument := []
  customFieldValues : List CustomFieldValue := []
  itemCustomFieldValues : List CustomFieldValue := []
  processingResults : List ExtensionResult := []
  suggestions : List ExtensionResult := []
  webhookDeliveries : List WebhookDelivery := []
  auditLog : List AuditLog := []
  settings : Option GlobalSettings := none
  configuration : κ

variable {κ : Type}

/-- The key, unless it is a deleted one. -/
def unlessDeleted (deleted : List Nat) (id : Option Nat) : Option Nat :=
  id.filter (fun id => !deleted.contains id)

/-- Whether a column names a deleted row. -/
def namesDeleted (deleted : List Nat) (id : Option Nat) : Bool := id.any (deleted.contains ·)

/-- Foreign keys without an action are checked when their statement ends. -/
def requireUnreferenced (referenced : Bool) : Except Failure PUnit :=
  require (referenced = false) (.database "FOREIGN KEY constraint failed")

/-- A licence after the deletion of others: the columns whose foreign keys are set null. -/
def withoutDeleted (deleted : List Nat) (l : License) : License :=
  { l with
    predecessorId := unlessDeleted deleted l.predecessorId
    parentLicenseId := unlessDeleted deleted l.parentLicenseId }

/-- The store without one licence, after the actions of the foreign keys that name it. -/
def withoutLicenseRow (id : Nat) (s : Store) : Store :=
  { s with
    licenses := (s.licenses.filter (fun key _ => key != id)).mapRows (fun _ l =>
      withoutDeleted [id] l)
    links := s.links.filter (fun link =>
      link.maintenanceLicenseId != id && link.parentLicenseId != id)
    history := (s.history.filter (fun _ row => row.parentLicenseId != id)).mapRows (fun _ row =>
      { row with maintenanceLicenseId := unlessDeleted [id] row.maintenanceLicenseId })
    items := s.items.mapRows (fun _ item =>
      { item with
        maintenanceParentLicenseId := unlessDeleted [id] item.maintenanceParentLicenseId }) }

/-- One row's turn in a table-wide delete of `licenses`. A row that an action writes must satisfy
its check constraints; the other rows were checked when they were written.
-/
def deleteLicenseRow (id : Nat) (s : Store) : Except Failure Store := flush (withoutLicenseRow id s)

/-- Whether a row of the store names a deleted licence in a column without an action. -/
def namesLicense (deleted : List Nat) (s : Store) : Bool :=
  s.licenses.entries.any (fun entry =>
      namesDeleted deleted entry.2.renewedFromId || namesDeleted deleted entry.2.renewedToId
        || namesDeleted deleted entry.2.activeMaintenanceId)
    || s.items.entries.any (fun entry => namesDeleted deleted entry.2.renewalForLicenseId)

/-- `delete(License)`. -/
def deleteLicenses (db : Installation κ) : Except Failure (Installation κ) := do
  let deleted := db.store.licenses.keys
  let s ← each deleteLicenseRow deleted db.store
  let _ : Unit ← requireUnreferenced (namesLicense deleted s
    || db.documents.any (fun document => deleted.contains document.licenseId))
  pure { db with
    store := s
    procurementDocuments := db.procurementDocuments.map (fun document =>
      { document with licenseId := unlessDeleted deleted document.licenseId })
    customFieldValues := db.customFieldValues.filter (fun value => !deleted.contains value.ownerId)
    processingResults := db.processingResults.map (fun result =>
      { result with licenseId := unlessDeleted deleted result.licenseId })
    suggestions := db.suggestions.map (fun suggestion =>
      { suggestion with licenseId := unlessDeleted deleted suggestion.licenseId }) }

/-- `delete(SourcingItem)`. -/
def deleteSourcingItems (db : Installation κ) : Except Failure (Installation κ) := do
  let deleted := db.store.items.keys
  let _ : Unit ← requireUnreferenced (db.store.licenses.entries.any (fun entry =>
    namesDeleted deleted entry.2.sourceSourcingItemId))
  pure { db with
    store := { db.store with items := .empty }
    itemCustomFieldValues :=
      db.itemCustomFieldValues.filter (fun value => !deleted.contains value.ownerId) }

/-- `delete(SourcingRequest)`. -/
def deleteSourcingRequests (db : Installation κ) : Except Failure (Installation κ) := do
  let deleted := db.store.requests.keys
  let _ : Unit ← requireUnreferenced (db.store.items.entries.any (fun entry =>
      namesDeleted deleted entry.2.sourcingRequestId)
    || db.quoteDocuments.any (fun document => deleted.contains document.sourcingRequestId))
  pure { db with store := { db.store with requests := .empty } }

/-- `delete(PendingOrder)`. -/
def deletePendingOrders (db : Installation κ) : Except Failure (Installation κ) := do
  let deleted := db.store.orders.keys
  let s ← flush { db.store with
    orders := .empty
    licenses := db.store.licenses.mapRows (fun _ l =>
      { l with pendingOrderId := unlessDeleted deleted l.pendingOrderId }) }
  let _ : Unit ← requireUnreferenced (s.items.entries.any (fun entry =>
      namesDeleted deleted entry.2.pendingOrderId)
    || db.procurementDocuments.any (fun document => namesDeleted deleted document.pendingOrderId))
  pure { db with store := s }

/-- `delete(ContractFolder)`. -/
def deleteContractFolders (db : Installation κ) : Installation κ :=
  let deleted := db.contractFolders.keys
  { db with
    contractFolders := .empty
    contractDocuments := db.contractDocuments.map (fun document =>
      { document with folderId := unlessDeleted deleted document.folderId }) }

/-- `delete(Contract)`. -/
def deleteContracts (db : Installation κ) : Except Failure (Installation κ) := do
  let deleted := db.store.contracts.keys
  let s ← flush { db.store with
    contracts := .empty
    licenses := db.store.licenses.mapRows (fun _ l =>
      { l with contractId := unlessDeleted deleted l.contractId }) }
  pure { db with
    store := s
    contractFolders := db.contractFolders.filter (fun _ folder =>
      !deleted.contains folder.contractId)
    contractDocuments := db.contractDocuments.filter (fun document =>
      !deleted.contains document.contractId) }

-- The reset

/-- `portfolio_counts`. -/
def portfolioCounts (db : Installation κ) : List (String × Nat) :=
  [
    ("licenses", db.store.licenses.keys.length),
    ("sourcing_requests", db.store.requests.keys.length),
    ("sourcing_items", db.store.items.keys.length),
    ("pending_orders", db.store.orders.keys.length),
    ("contracts", db.store.contracts.keys.length),
    ("documents", db.documents.length + db.procurementDocuments.length
      + db.quoteDocuments.length + db.contractDocuments.length),
    ("audit_events", db.auditLog.length)
  ]

/-- `portfolio_document_paths`. -/
def portfolioDocumentPaths (db : Installation κ) : List String :=
  (db.documents.map (·.filename) ++ db.procurementDocuments.map (·.filename)
    ++ db.quoteDocuments.map (·.filename)
    ++ db.contractDocuments.map (·.filename)).dedup.insertionSort (· ≤ ·)

/-- Who asks for the reset, from where, and the locations of the application's own settings. -/
structure ResetCall where
  actorEmail : String
  ipAddress : Option String
  defaultBackupLocation : String
  defaultStoragePath : String

/-- The two services that the reset uses: `create_portfolio_reset_archive`, by the name of its
archive, and the deliveries that `log_event` enqueues.
-/
structure ResetServices where
  archive : String → String → List (String × Nat) → List String → Except Failure String
  enqueue : AuditLog → Except Failure (List WebhookDelivery)

/-- The event that the reset logs. -/
def resetEvent (call : ResetCall) (archiveName : String) (counts : List (String × Nat))
    : AuditLog where
  action := "system.portfolio_reset"
  actorEmail := call.actorEmail
  ipAddress := call.ipAddress
  targetType := some "portfolio"
  targetLabel := some "Portfolio data"
  detail := "\n".intercalate (["mutationType=portfolio_reset", s!"recoveryArchive={archiveName}"]
    ++ counts.map (fun count => s!"{count.1}={count.2}"))

/-- The settings after a reset. -/
def GlobalSettings.withoutNotificationDates (settings : GlobalSettings) : GlobalSettings :=
  { settings with lastNotificationSentDate := none, lastNotificationAttemptDate := none }

/-- The two updates before the deletions: lines renew no licence, and maintenance is retired. -/
def released (s : Store) : Store :=
  { s with
    licenses := s.licenses.mapRows (fun _ l =>
      if l.licenseType = .maintenance then { l with isRetired := true } else l)
    items := s.items.mapRows (fun _ item => { item with renewalForLicenseId := none }) }

/-- The deletions before that of the licences, of rows that no other row names. -/
def deleteAttachments (db : Installation κ) : Installation κ :=
  { db with
    processingResults := []
    suggestions := []
    customFieldValues := []
    documents := []
    procurementDocuments := []
    quoteDocuments := []
    contractDocuments := []
    webhookDeliveries := [] }

/-- The transaction of `reset_portfolio`, past its archive and up to its commit. -/
def resetRows (services : ResetServices) (event : AuditLog) (db : Installation κ)
    : Except Failure (Installation κ) := do
  let s ← flush (released db.store)
  let db ← deleteLicenses (deleteAttachments { db with store := s })
  let db ← deleteSourcingItems db
  let db ← deleteSourcingRequests db
  let db ← deletePendingOrders db
  let db ← deleteContracts (deleteContractFolders db)
  let deliveries ← services.enqueue event
  pure { db with
    store := { db.store with licenseRefSequence := 0 }
    settings := db.settings.map GlobalSettings.withoutNotificationDates
    auditLog := [event]
    webhookDeliveries := db.webhookDeliveries ++ deliveries }

/-- What a reset answers. -/
structure ResetReport where
  archiveFilename : String
  counts : List (String × Nat)
  nextLicenseRef : String
deriving DecidableEq

/-- The recovery archive of a reset, at the configured locations. -/
def resetArchive (services : ResetServices) (call : ResetCall) (db : Installation κ)
    : Except Failure String :=
  let location (configured : GlobalSettings → Option String) (default : String) : String :=
    ((db.settings.bind configured).filter (· ≠ "")).getD default
  services.archive (location (·.backupLocation) call.defaultBackupLocation)
    (location (·.storagePath) call.defaultStoragePath) (portfolioCounts db)
    (portfolioDocumentPaths db)

/-- `reset_portfolio`, up to the removal of the stored files: the database that it leaves, and its
answer or failure. Whatever fails is rolled back.
-/
def resetPortfolio (services : ResetServices) (call : ResetCall) (db : Installation κ)
    : Installation κ × Except Failure ResetReport :=
  let counts := portfolioCounts db
  match resetArchive services call db with
  | .error failure => (db, .error failure)
  | .ok archiveName =>
      match resetRows services (resetEvent call archiveName counts) db with
      | .error failure => (db, .error failure)
      | .ok reset => (reset, .ok ⟨archiveName, counts, "LT-REF-00001"⟩)

end LicenseTrack.Reset
