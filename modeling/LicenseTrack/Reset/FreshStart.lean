import LicenseTrack.Library.Runs
import LicenseTrack.Reset.Tables
import LicenseTrack.Retirement.Runs

/-! A portfolio reset is a fresh start but for the numbers of purchase-order lines: no deletion
fails, and what it leaves is an installation in which nothing was ever created, with the register
of the numbers that were issued.
-/

namespace LicenseTrack.Reset

open Library

variable {κ : Type}

/-- What the database enforces on every committed state. -/
structure Installation.Enforced (db : Installation κ) : Prop where
  rows : db.store.Constraints
  links : ∀ link ∈ db.store.links, link.parentLicenseId ∈ db.store.licenses.keys
  history : ∀ id row, db.store.history.get? id = some row →
    row.parentLicenseId ∈ db.store.licenses.keys
  itemValues : ∀ value ∈ db.itemCustomFieldValues, value.ownerId ∈ db.store.items.keys

/-- An installation with the same accounts, settings, reference data and configuration in which
nothing was ever created, and with the given numbers issued.
-/
def Installation.neverUsed (db : Installation κ) (issued : Table PoLineRegister)
    : Installation κ where
  store :=
    { poLines := issued
      organizations := db.store.organizations
      organizationAliases := db.store.organizationAliases
      costCentres := db.store.costCentres
      costCentreAliases := db.store.costCentreAliases }
  settings := db.settings.map GlobalSettings.withoutNotificationDates
  configuration := db.configuration

/-- An installation that logged one event. -/
def Installation.logged (db : Installation κ) (event : AuditLog)
    (deliveries : List WebhookDelivery)
    : Installation κ :=
  { db with auditLog := [event], webhookDeliveries := deliveries }

@[simp] theorem unlessDeleted_none (deleted : List Nat) : unlessDeleted deleted none = none := rfl

theorem withoutDeleted_constraints {l : License} (h : l.Constraints)
    (hretired : l.licenseType = .maintenance → l.isRetired = true) (deleted : List Nat)
    : (withoutDeleted deleted l).Constraints := by
  refine ⟨h.perpetual, ?_, h.link⟩
  rcases h.parent with ⟨htype, hparent, hlegacy⟩ | ⟨htype, hparent, -⟩ | ⟨htype, hparent, hlegacy⟩
  · by_cases hlost : unlessDeleted deleted l.parentLicenseId = none
    · exact .inr (.inl ⟨htype, hlost, .inr (hretired htype)⟩)
    · exact .inl ⟨htype, hlost, hlegacy⟩
  · refine .inr (.inl ⟨htype, ?_, .inr (hretired htype)⟩)
    simp [withoutDeleted, hparent]
  · refine .inr (.inr ⟨htype, ?_, hlegacy⟩)
    simp [withoutDeleted, hparent]

theorem retired_constraints {l : License} (h : l.Constraints)
    : License.Constraints { l with isRetired := true } := by
  refine ⟨h.perpetual, ?_, h.link⟩
  rcases h.parent with hlinked | ⟨htype, hparent, -⟩ | hother
  · exact .inl hlinked
  · exact .inr (.inl ⟨htype, hparent, .inr rfl⟩)
  · exact .inr (.inr hother)

theorem keys_filter_ne {ρ : Type} {t : Table ρ} {id : Nat} {rest : List Nat}
    (h : t.keys = id :: rest)
    : (t.filter (fun key _ => key != id)).keys = rest := by
  have hfilter : (t.filter (fun key _ => key != id)).keys = t.keys.filter (· != id) := by
    simp only [Table.keys, Table.filter, List.filter_map]
    rfl
  rw [hfilter, h, List.filter_cons, if_neg (by simp)]
  apply List.filter_eq_self.mpr
  intro key hkey
  have hincrease := t.keys_increase
  rw [h] at hincrease
  have hlt := (List.pairwise_cons.mp hincrease).1 key hkey
  simp only [bne_iff_ne, ne_eq]
  omega

theorem eq_empty_of_keys {ρ : Type} {t : Table ρ} (h : t.keys = []) : t = .empty := by
  ext key
  have hnone : t.get? key = none := by
    by_contra hsome
    obtain ⟨row, hrow⟩ := Option.ne_none_iff_exists'.mp hsome
    have hmem := Table.mem_keys.mpr ⟨row, hrow⟩
    rw [h] at hmem
    cases hmem
  simp [hnone]

-- The deletion of the licences

/-- A store in the middle of the deletion: the licences with the remaining keys, whose maintenance
is retired, and rows that name remaining licences where they must name one.
-/
structure Remaining (start : Store) (remaining : List Nat) (s : Store) : Prop where
  licenses : s.licenses.keys = remaining
  rows : s.Constraints
  retired : ∀ id l, s.license? id = some l → l.licenseType = .maintenance → l.isRetired = true
  links : ∀ link ∈ s.links, link.parentLicenseId ∈ remaining
  history : ∀ id row, s.history.get? id = some row → row.parentLicenseId ∈ remaining
  unrenewing : ∀ id item, s.items.get? id = some item → item.renewalForLicenseId = none
  items : s.items.keys = start.items.keys
  rest : s = { start with
    licenses := s.licenses, links := s.links, history := s.history, items := s.items }

namespace Remaining

variable {start s : Store} {id : Nat} {rest : List Nat}

theorem deleteLicenseRow (h : Remaining start (id :: rest) s)
    : ∃ t, Reset.deleteLicenseRow id s = .ok t ∧ Remaining start rest t := by
  have hrow : ∀ key l, (withoutLicenseRow id s).license? key = some l →
      ∃ old, s.license? key = some old ∧ l = withoutDeleted [id] old := by
    intro key l hl
    simp only [withoutLicenseRow, Store.license?, Table.get?_mapRows, Table.get?_filter] at hl
    obtain ⟨old, hold, rfl⟩ := Option.map_eq_some_iff.mp hl
    exact ⟨old, (Option.filter_eq_some_iff.mp hold).1, rfl⟩
  have hkeys := keys_filter_ne h.licenses
  have hconstraints : (withoutLicenseRow id s).Constraints := by
    constructor
    · intro key l hl
      obtain ⟨old, hold, rfl⟩ := hrow key l hl
      exact withoutDeleted_constraints (h.rows.licenses key old hold) (h.retired key old hold) _
    · intro link hlink
      exact h.rows.links link (List.mem_filter.mp hlink).1
  refine ⟨_, flush_eq_ok.mpr ⟨rfl, hconstraints⟩, ?_⟩
  constructor
  · simpa only [withoutLicenseRow, Table.keys_mapRows] using hkeys
  · exact hconstraints
  · intro key l hl
    obtain ⟨old, hold, rfl⟩ := hrow key l hl
    exact h.retired key old hold
  · intro link hlink
    obtain ⟨hmem, hothers⟩ := List.mem_filter.mp hlink
    have hother : link.parentLicenseId ≠ id := by
      simp only [Bool.and_eq_true, bne_iff_ne] at hothers
      exact hothers.2
    exact (List.mem_cons.mp (h.links link hmem)).resolve_left hother
  · intro key row hhistory
    simp only [withoutLicenseRow, Table.get?_mapRows, Table.get?_filter] at hhistory
    obtain ⟨old, hold, rfl⟩ := Option.map_eq_some_iff.mp hhistory
    obtain ⟨hstored, hother⟩ := Option.filter_eq_some_iff.mp hold
    exact (List.mem_cons.mp (h.history key old hstored)).resolve_left (by simpa using hother)
  · intro key item hitem
    simp only [withoutLicenseRow, Table.get?_mapRows] at hitem
    obtain ⟨old, hold, rfl⟩ := Option.map_eq_some_iff.mp hitem
    exact h.unrenewing key old hold
  · simpa only [withoutLicenseRow, Table.keys_mapRows] using h.items
  · rw [withoutLicenseRow, h.rest]

theorem deleteAll {remaining : List Nat} (h : Remaining start remaining s)
    : ∃ t, each Reset.deleteLicenseRow remaining s = .ok t ∧ Remaining start [] t := by
  induction remaining generalizing s with
  | nil => exact ⟨s, rfl, h⟩
  | cons id rest ih =>
      obtain ⟨v, hv, hrest⟩ := h.deleteLicenseRow
      obtain ⟨t, ht, hnone⟩ := ih hrest
      refine ⟨t, ?_, hnone⟩
      rw [each, hv]
      exact ht

theorem nothing (h : Remaining start [] s)
    : s = { start with licenses := .empty, links := [], history := .empty, items := s.items } := by
  have hlicenses : s.licenses = .empty := eq_empty_of_keys h.licenses
  have hlinks : s.links = [] := by
    apply List.eq_nil_iff_forall_not_mem.mpr
    intro link hlink
    cases h.links link hlink
  have hhistory : s.history = .empty := by
    ext key
    have hnone : s.history.get? key = none := by
      by_contra hsome
      obtain ⟨row, hrow⟩ := Option.ne_none_iff_exists'.mp hsome
      cases h.history key row hrow
    simp [hnone]
  have hrest := h.rest
  rw [hlicenses, hlinks, hhistory] at hrest
  exact hrest

end Remaining

theorem Installation.Enforced.released {db : Installation κ} (h : db.Enforced)
    : (Reset.released db.store).Constraints
      ∧ Remaining (Reset.released db.store) db.store.licenses.keys (Reset.released db.store) := by
  have hrow : ∀ key l, (Reset.released db.store).license? key = some l →
      ∃ old, db.store.license? key = some old ∧ l.Constraints
        ∧ (l.licenseType = .maintenance → l.isRetired = true) := by
    intro key l hl
    simp only [Reset.released, Store.license?, Table.get?_mapRows] at hl
    obtain ⟨old, hold, rfl⟩ := Option.map_eq_some_iff.mp hl
    refine ⟨old, hold, ?_⟩
    split
    · exact ⟨retired_constraints (h.rows.licenses key old hold), fun _ => rfl⟩
    · next hother => exact ⟨h.rows.licenses key old hold, fun htype => absurd htype hother⟩
  have hconstraints : (Reset.released db.store).Constraints := by
    constructor
    · intro key l hl
      obtain ⟨-, -, hsound, -⟩ := hrow key l hl
      exact hsound
    · exact h.rows.links
  refine ⟨hconstraints, ?_⟩
  constructor
  · simp only [Reset.released, Table.keys_mapRows]
  · exact hconstraints
  · intro key l hl
    obtain ⟨-, -, -, hretired⟩ := hrow key l hl
    exact hretired
  · exact h.links
  · exact h.history
  · intro key item hitem
    simp only [Reset.released, Table.get?_mapRows] at hitem
    obtain ⟨old, -, rfl⟩ := Option.map_eq_some_iff.mp hitem
    rfl
  · rfl
  · rfl

-- The transaction

theorem entries_empty {ρ : Type} : (Table.empty : Table ρ).entries = [] := rfl

theorem mapRows_empty {ρ : Type} (f : Nat → ρ → ρ) : (Table.empty : Table ρ).mapRows f = .empty :=
  rfl

theorem filter_empty {ρ : Type} (p : Nat → ρ → Bool) : (Table.empty : Table ρ).filter p = .empty :=
  rfl

theorem unreferenced : requireUnreferenced false = .ok ⟨⟩ := rfl

theorem flush_of_nothing {s : Store} (hlicenses : s.licenses = .empty) (hlinks : s.links = [])
    : flush s = .ok s := by
  refine flush_eq_ok.mpr ⟨rfl, ?_⟩
  constructor
  · intro id l hl
    rw [Store.license?, hlicenses] at hl
    cases hl
  · intro link hlink
    rw [hlinks] at hlink
    cases hlink

theorem deleteLicenses_ok {db : Installation κ} {start : Store}
    (h : Remaining start db.store.licenses.keys db.store) (hdocuments : db.documents = [])
    : ∃ items, items.keys = start.items.keys ∧ deleteLicenses db = .ok { db with
        store := { start with licenses := .empty, links := [], history := .empty, items := items }
        procurementDocuments := db.procurementDocuments.map (fun document =>
          { document with
            licenseId := unlessDeleted db.store.licenses.keys document.licenseId })
        customFieldValues := db.customFieldValues.filter (fun value =>
          !db.store.licenses.keys.contains value.ownerId)
        processingResults := db.processingResults.map (fun result =>
          { result with licenseId := unlessDeleted db.store.licenses.keys result.licenseId })
        suggestions := db.suggestions.map (fun suggestion =>
          { suggestion with
            licenseId := unlessDeleted db.store.licenses.keys suggestion.licenseId }) } := by
  obtain ⟨t, ht, hnone⟩ := h.deleteAll
  refine ⟨t.items, hnone.items, ?_⟩
  have hunreferenced : namesLicense db.store.licenses.keys t = false := by
    have hlines : ∀ entry ∈ t.items.entries, entry.2.renewalForLicenseId = none := by
      intro entry hentry
      exact hnone.unrenewing entry.1 entry.2 (Table.get?_eq_some.mpr hentry)
    have hlicenses : t.licenses = .empty := eq_empty_of_keys hnone.licenses
    simp only [namesLicense, hlicenses, Table.empty, List.any_nil, Bool.false_or,
      List.any_eq_false]
    intro entry hentry
    simp [namesDeleted, hlines entry hentry]
  rw [deleteLicenses, ht, ok_bind, hunreferenced, hdocuments, List.any_nil, Bool.or_false,
    ← hnone.nothing]
  rfl

theorem resetRows_eq {db : Installation κ} (h : db.Enforced) (services : ResetServices)
    (event : AuditLog)
    : resetRows services event db = services.enqueue event >>= fun deliveries =>
        .ok ((db.neverUsed db.store.poLines).logged event deliveries) := by
  obtain ⟨hconstraints, hremaining⟩ := h.released
  have hflushed : flush (released db.store) = .ok (released db.store) :=
    flush_eq_ok.mpr ⟨rfl, hconstraints⟩
  have hkeys : (released db.store).licenses.keys = db.store.licenses.keys := by
    simp only [released, Table.keys_mapRows]
  have hstart : Remaining (released db.store)
      (deleteAttachments { db with store := released db.store }).store.licenses.keys
      (deleteAttachments { db with store := released db.store }).store :=
    hkeys.symm ▸ hremaining
  obtain ⟨items, hitems, hdeleted⟩ := deleteLicenses_ok hstart rfl
  rw [resetRows, hflushed, ok_bind]
  dsimp only
  rw [hdeleted, ok_bind]
  have hvalues : db.itemCustomFieldValues.filter (fun value => !items.keys.contains value.ownerId)
      = [] := by
    apply List.filter_eq_nil_iff.mpr
    intro value hvalue
    have hstored := h.itemValues value hvalue
    rw [hitems, released, Table.keys_mapRows]
    simpa using hstored
  -- Without licences and lines no row names a request, an order or a contract.
  simp only [deleteAttachments, deleteSourcingItems, deleteSourcingRequests, deletePendingOrders,
    deleteContractFolders, deleteContracts, entries_empty, List.any_nil, List.map_nil,
    List.filter_nil, Bool.or_false, unreferenced, ok_bind, hvalues, mapRows_empty, filter_empty,
    flush_of_nothing, pure_bind]
  rfl

-- The reset

/-- The line numbers of the licences. -/
def lineNumbers (s : Store) : List (Option Nat) :=
  s.licenses.entries.map (fun entry =>
    (entry.2.poLineId.bind s.poLines.get?).map (·.lineNumber))

/-- Where the archive and the event's deliveries are made, a reset succeeds and leaves the
installation in which nothing was ever created, but for the register of line numbers, so that
later requests answer as there: on every purchase order the numbers go on after those issued
before, and start afresh where none was issued. A reset that fails leaves the database unchanged.
-/
theorem resetPortfolio_freshStart (services : ResetServices) (call : ResetCall)
    (db : Installation κ) (henforced : db.Enforced)
    : (∀ failure, (resetPortfolio services call db).2 = .error failure →
          (resetPortfolio services call db).1 = db)
      ∧ ∀ archiveName deliveries,
        resetArchive services call db = .ok archiveName →
        services.enqueue (resetEvent call archiveName (portfolioCounts db)) = .ok deliveries →
        ∃ t, resetPortfolio services call db
            = (t, .ok ⟨archiveName, portfolioCounts db, "LT-REF-00001"⟩)
          ∧ t = (db.neverUsed db.store.poLines).logged
              (resetEvent call archiveName (portfolioCounts db)) deliveries
          ∧ (∀ requests : List DatedRequest,
            runAll (fun request : DatedRequest => request.2.run request.1) requests t.store
              = runAll (fun request : DatedRequest => request.2.run request.1) requests
                  (db.neverUsed db.store.poLines).store)
          ∧ ∀ poKey, nextFreeNumber t.store poKey = nextFreeNumber db.store poKey
            ∧ (issuedNumbers db.store poKey = [] →
              nextFreeNumber t.store poKey
                = nextFreeNumber (db.neverUsed .empty).store poKey) := by
  constructor
  · intro failure hfailed
    unfold resetPortfolio at hfailed ⊢
    dsimp only at hfailed ⊢
    split
    · rfl
    · next archiveName harchive =>
        rw [harchive] at hfailed
        dsimp only at hfailed
        split
        · rfl
        · next t ht =>
            rw [ht] at hfailed
            cases hfailed
  · intro archiveName deliveries harchive hdeliveries
    refine ⟨_, ?_, rfl, fun _ => rfl, ?_⟩
    · simp only [resetPortfolio, harchive, resetRows_eq henforced, hdeliveries, ok_bind]
    · intro poKey
      refine ⟨rfl, ?_⟩
      intro hnone
      change issuedNumbers (db.neverUsed db.store.poLines).store poKey = [] at hnone
      change nextFreeNumber (db.neverUsed db.store.poLines).store poKey = _
      rw [nextFreeNumber, hnone]
      rfl

/-- An archive that is made, and an event to which no endpoint subscribes. -/
def madeArchive : ResetServices where
  archive _ _ _ _ := .ok "license_lifecycle_pre_portfolio_reset_20260724_010204_000001.zip"
  enqueue _ := .ok []

/-- A reset by an administrator. -/
def adminCall : ResetCall where
  actorEmail := "admin@example.com"
  ipAddress := none
  defaultBackupLocation := "/backups"
  defaultStoragePath := "/storage"

/-- A perpetual licence on a purchase order whose maintenance record was bought before it. -/
def usedInstallation : Installation Unit where
  store :=
    { licenses :=
        (Table.empty.insert
          { License.ofTerm .maintenance (some 1) (some 100) with parentLicenseId := some 2 }).insert
          { (License.ofTerm .perpetual (some 1) none).withMirror
              (mirrorOf .ascii 1 (License.ofTerm .maintenance (some 1) (some 100))) with
            poNumber := "PO-1"
            poLineId := some 1 }
      links := [⟨1, 2⟩]
      poLines := Table.empty.insert ⟨"po-1", "PO-1", 7⟩ }
  customFieldValues := [⟨2, 1, some "Production"⟩]
  settings := some ⟨none, none, some 50, some 50⟩
  configuration := ()

theorem usedInstallation_enforced : usedInstallation.Enforced where
  rows := Store.violated?_eq_none.mp (by decide +kernel)
  links := by decide +kernel
  history := by
    intro id row hrow
    cases hrow
  itemValues := by
    intro value hvalue
    cases hvalue

/-- Line 7 of the order was issued, so the next one is line 8. -/
theorem resetPortfolio_freshStart_used
    : ∃ t, resetPortfolio madeArchive adminCall usedInstallation
          = (t, .ok ⟨"license_lifecycle_pre_portfolio_reset_20260724_010204_000001.zip",
              portfolioCounts usedInstallation, "LT-REF-00001"⟩)
        ∧ t.store = (usedInstallation.neverUsed usedInstallation.store.poLines).store
        ∧ nextFreeNumber t.store "po-1" = 8 := by
  obtain ⟨t, ht, he, -, hnumbers⟩ :=
    (resetPortfolio_freshStart madeArchive adminCall usedInstallation
      usedInstallation_enforced).2 _ [] rfl rfl
  refine ⟨t, ht, he ▸ rfl, ?_⟩
  rw [(hnumbers "po-1").1]
  decide +kernel

/-- A purchase on one order. -/
def purchase : DatedRequest :=
  (.onDay 1, .create
    { row := { License.ofTerm .subscription (some 1) (some 100) with poNumber := "PO-1" } })

/-- A reset keeps the line numbers that were issued: the same purchase gets line 2 after a reset,
and line 1 where nothing was ever created.
-/
theorem resetPortfolio_keepsLineNumbers
    : ¬ ∀ db : Installation Unit, db.Enforced →
        Reachable (fun request : DatedRequest => request.2.run request.1) (fun _ _ => True) {}
          db.store →
        ∀ requests : List DatedRequest,
          (runAll (fun request : DatedRequest => request.2.run request.1) requests
              (resetPortfolio madeArchive adminCall db).1.store).map lineNumbers
            = (runAll (fun request : DatedRequest => request.2.run request.1) requests
                (db.neverUsed .empty).store).map lineNumbers := by
  intro hclaim
  obtain ⟨s, hs⟩ : ∃ s, runAll (fun request : DatedRequest => request.2.run request.1) [purchase] {}
      = some s := Option.isSome_iff_exists.mp (by decide +kernel)
  have hrows : (runAll (fun request : DatedRequest => request.2.run request.1) [purchase] {}).map
      (fun s => (s.violated?, s.links, s.history.keys)) = some (none, [], []) := by decide +kernel
  have hnumbers : (runAll (fun request : DatedRequest => request.2.run request.1) [purchase]
      {}).map (fun s =>
        ((runAll (fun request : DatedRequest => request.2.run request.1) [purchase]
            (resetPortfolio madeArchive adminCall
              ({ store := s, configuration := () } : Installation Unit)).1.store).map lineNumbers,
          (runAll (fun request : DatedRequest => request.2.run request.1) [purchase]
            (({ store := s, configuration := () } : Installation Unit).neverUsed .empty).store).map
              lineNumbers)) = some (some [some 2], some [some 1]) := by
    decide +kernel
  rw [hs] at hrows hnumbers
  obtain ⟨hviolated, hlinks, hhistory⟩ : s.violated? = none ∧ s.links = []
      ∧ s.history.keys = [] := by simpa using hrows
  obtain ⟨hafter, hfresh⟩ := Prod.mk.inj (Option.some.inj hnumbers)
  have henforced : ({ store := s, configuration := () } : Installation Unit).Enforced := by
    constructor
    · exact Store.violated?_eq_none.mp hviolated
    · intro link hlink
      change link ∈ s.links at hlink
      rw [hlinks] at hlink
      cases hlink
    · intro id row hstored
      change s.history.get? id = some row at hstored
      rw [eq_empty_of_keys hhistory] at hstored
      cases hstored
    · intro value hvalue
      cases hvalue
  have hreached : Reachable (fun request : DatedRequest => request.2.run request.1)
      (fun _ _ => True) {} s := .of_runAll .start (fun _ _ _ => trivial) hs
  have hsame := hclaim { store := s, configuration := () } henforced hreached [purchase]
  rw [hafter, hfresh] at hsame
  exact absurd hsame (by decide)

end LicenseTrack.Reset
