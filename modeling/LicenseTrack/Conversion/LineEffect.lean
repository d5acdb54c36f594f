import LicenseTrack.Maintenance.Bookkeeping
import LicenseTrack.Services.OrderConversion

/-! What the conversion of one order line does: it adds one licence, marks the licences that
the line renews, and leaves the rest to maintenance bookkeeping.
-/

namespace LicenseTrack

open Library

/-- A step that touches reference records only. -/
def OnlyReferences (s t : Store) : Prop :=
  t = { s with organizations := t.organizations, costCentres := t.costCentres }

namespace OnlyReferences

variable {s t v : Store}

theorem refl (s : Store) : OnlyReferences s s := rfl

theorem trans (h : OnlyReferences s t) (h' : OnlyReferences t v) : OnlyReferences s v := by
  unfold OnlyReferences at h h' ⊢
  rw [h', h]

theorem licenses (h : OnlyReferences s t) : t.licenses = s.licenses := by rw [h]

theorem items (h : OnlyReferences s t) : t.items = s.items := by rw [h]

theorem orders (h : OnlyReferences s t) : t.orders = s.orders := by rw [h]

theorem requests (h : OnlyReferences s t) : t.requests = s.requests := by rw [h]

end OnlyReferences

theorem resolveOrganization_only {u : Unicode} {role : OrganizationRole} {create : Bool}
    {value name : String} {id : Nat} {s t : Store}
    (h : resolveOrganization u role create value s = .ok (name, id, t))
    : OnlyReferences s t := by
  simp only [resolveOrganization, bind_eq_ok, require_eq_ok] at h
  obtain ⟨-, -, h⟩ := h
  split at h
  all_goals
    simp only [bind_eq_ok, require_eq_ok, pure_eq_ok, Prod.mk.injEq] at h
    obtain ⟨-, -, -, -, rfl⟩ := h
    rfl

theorem resolveCostCentre_only {u : Unicode} {create : Bool} {value name : String} {id : Nat}
    {s t : Store} (h : resolveCostCentre u create value s = .ok (name, id, t))
    : OnlyReferences s t := by
  simp only [resolveCostCentre, bind_eq_ok, require_eq_ok] at h
  obtain ⟨-, -, h⟩ := h
  split at h
  all_goals
    simp only [bind_eq_ok, require_eq_ok, pure_eq_ok, Prod.mk.injEq] at h
    obtain ⟨-, -, -, -, rfl⟩ := h
    rfl

theorem resolvePublisher_only {u : Unicode} {value : String} {d d' : LicenseDetails} {s t : Store}
    (h : resolvePublisher u value d s = .ok (d', t))
    : OnlyReferences s t := by
  simp only [resolvePublisher, bind_eq_ok, require_eq_ok, pure_eq_ok, Prod.mk.injEq] at h
  obtain ⟨-, -, ⟨name, id, v⟩, hr, -, rfl⟩ := h
  exact resolveOrganization_only hr

theorem resolveSupplier_only {u : Unicode} {value : String} {d d' : LicenseDetails} {s t : Store}
    (h : resolveSupplier u value d s = .ok (d', t))
    : OnlyReferences s t := by
  unfold resolveSupplier at h
  split at h
  · obtain ⟨-, rfl⟩ := Prod.mk.inj (Except.ok.inj h)
    exact .refl s
  · simp only [bind_eq_ok, pure_eq_ok, Prod.mk.injEq] at h
    obtain ⟨⟨name, id, v⟩, hr, -, rfl⟩ := h
    exact resolveOrganization_only hr

theorem resolveCostCentreField_only {u : Unicode} {value : String} {d d' : LicenseDetails}
    {s t : Store} (h : resolveCostCentreField u value d s = .ok (d', t))
    : OnlyReferences s t := by
  unfold resolveCostCentreField at h
  split at h
  · obtain ⟨-, rfl⟩ := Prod.mk.inj (Except.ok.inj h)
    exact .refl s
  · simp only [bind_eq_ok, pure_eq_ok, Prod.mk.injEq] at h
    obtain ⟨⟨name, id, v⟩, hr, -, rfl⟩ := h
    exact resolveCostCentre_only hr

theorem resolveRowReferences_ok {u : Unicode} {row row' : License} {s t : Store}
    (h : resolveRowReferences u row s = .ok (row', t))
    : (∃ details, row' = row.withDetails details) ∧ OnlyReferences s t := by
  simp only [resolveRowReferences, resolveLicenseReferenceFields, bind_eq_ok, pure_eq_ok,
    Prod.mk.injEq] at h
  obtain ⟨⟨details, v⟩, ⟨⟨d₁, s₁⟩, hp, ⟨d₂, s₂⟩, hs, hc⟩, rfl, rfl⟩ := h
  exact ⟨⟨details, rfl⟩, ((resolvePublisher_only hp).trans (resolveSupplier_only hs)).trans
    (resolveCostCentreField_only hc)⟩

/-- A licence apart from its purchase-order line. -/
def License.unnumbered (l : License) : License := { l with poLineId := none }

/-- A step that numbers purchase-order lines and their licences only. -/
structure OnlyNumbers (s t : Store) : Prop where
  rows : s.licenses.Agrees License.unnumbered t.licenses
  rest : t = { s with licenses := t.licenses, poLines := t.poLines }

namespace OnlyNumbers

theorem refl (s : Store) : OnlyNumbers s s := ⟨Table.Agrees.refl _ _, rfl⟩

theorem core {s t : Store} (h : OnlyNumbers s t) : SameCore s t :=
  h.rows.coarsen License.core

theorem items {s t : Store} (h : OnlyNumbers s t) : t.items = s.items := by rw [h.rest]

theorem orders {s t : Store} (h : OnlyNumbers s t) : t.orders = s.orders := by rw [h.rest]

theorem requests {s t : Store} (h : OnlyNumbers s t) : t.requests = s.requests := by rw [h.rest]

theorem of_line {s : Store} (id : Nat) (line : Option Nat) (poLines : Table PoLineRegister)
    : OnlyNumbers s { s with
        licenses := s.licenses.modify id (fun l => { l with poLineId := line })
        poLines := poLines } :=
  ⟨Table.Agrees.of_modify fun _ => rfl, rfl⟩

end OnlyNumbers

theorem syncLicenseLine_only (u : Unicode) (id : Nat) (requested : Option Nat) (s : Store)
    : OnlyNumbers s (syncLicenseLine u id requested s) := by
  unfold syncLicenseLine
  split
  · exact .refl s
  · dsimp only
    split_ifs
    · exact .of_line id none s.poLines
    · exact .refl s
    · split
      · exact .of_line id _ s.poLines
      · exact .of_line id _ _

-- Made licences

/-- The rows after a renewal: the predecessors point to their successor. -/
def markRow (predecessorIds : List Nat) (successorId id : Nat) (l : License) : License :=
  if id ∈ predecessorIds then
    { l with lifecycleStatus := some .renewed, renewedToId := some successorId }
  else l

@[simp] theorem markRow_nil (successorId id : Nat) (l : License)
    : markRow [] successorId id l = l := by
  simp [markRow]

theorem markRow_congr (predecessorIds : List Nat) (successorId id : Nat) {a b : License}
    (h : b.core = a.core)
    : (markRow predecessorIds successorId id b).core
      = (markRow predecessorIds successorId id a).core := by
  unfold markRow
  split
  · have hd := License.core_details h
    have ht := License.core_terms h
    have hp := License.core_purchase h
    have hc := License.core_chain h
    simp only [License.core, hd, ht, hp, hc]
  · exact h

/-- What a new licence's chain columns say about the licences it renews. -/
structure RenewsExactly (row : License) (predecessorIds : List Nat) : Prop where
  renewedFrom : row.renewedFromId = predecessorIds.head?
  predecessor : row.predecessorId = predecessorIds.head?
  coterm : (row.cotermFromIds = none ∧ predecessorIds.length ≤ 1)
    ∨ row.cotermFromIds = some predecessorIds
  renewedTo : row.renewedToId = none
  status : row.lifecycleStatus = none
  linked : row.existingSuccessorLinkedAt = none

theorem RenewsExactly.mem {row : License} {predecessorIds : List Nat}
    (h : RenewsExactly row predecessorIds) (id : Nat)
    : id ∈ row.predecessorIds ↔ id ∈ predecessorIds := by
  simp only [License.predecessorIds, License.cotermIds, h.renewedFrom, h.predecessor]
  rcases h.coterm with ⟨hc, hl⟩ | hc
  · rw [hc]
    rcases predecessorIds with _ | ⟨head, rest⟩
    · simp
    · have : rest = [] := List.length_eq_zero_iff.mp (by simpa using hl)
      subst this
      simp
  · rw [hc]
    rcases predecessorIds with _ | ⟨head, rest⟩ <;> simp

/-- A predecessor that its successor's term extends. -/
structure ExtendedBy (row predecessor : License) : Prop where
  finish : row.endDate.isSome = true
  longer : ∀ old new, predecessor.endDate = some old → row.endDate = some new → old < new
  later : ∀ old, predecessor.startDate = some old → ∃ new, row.startDate = some new ∧ old < new

/-- A step that adds one licence, marks the licences it renews and otherwise stays in the
maintenance bookkeeping.
-/
structure LicenseMade (s t : Store) (id : Nat) (predecessorIds : List Nat) (row : License)
    : Prop where
  id_eq : id = s.licenses.nextKey
  renews : RenewsExactly row predecessorIds
  nodup : predecessorIds.Nodup
  stored : ∀ p ∈ predecessorIds, ∃ l, s.license? p = some l ∧ l.renewedToId = none
    ∧ ExtendedBy row l
  source : ∀ itemId, row.sourceSourcingItemId = some itemId → ∃ item, s.items.get? itemId = some item
  reference : row.licenseRef ≠ none ∧ row.licenseRef ≠ some ""
  sharedReference : ∀ p ∈ predecessorIds.head?, ∀ ref,
    ((s.license? p).bind (fun l => truthy l.licenseRef)) = some ref → row.licenseRef = some ref
  core : ((s.licenses.insert row).mapRows (markRow predecessorIds id)).Agrees License.core
    t.licenses
  items : t.items = s.items
  orders : t.orders = s.orders
  requests : t.requests = s.requests

/-- What the chain columns of a new licence need, to record its predecessors. -/
structure RecordsPredecessors (row : License) (predecessorIds : List Nat) : Prop where
  mem : ∀ id, id ∈ row.predecessorIds ↔ id ∈ predecessorIds
  coterm : row.renewedFromId = none → row.predecessorId = none → row.cotermIds = []
  renewedTo : row.renewedToId = none
  status : row.lifecycleStatus ≠ some .renewed
  linked : row.existingSuccessorLinkedAt = none

theorem RenewsExactly.records {row : License} {predecessorIds : List Nat}
    (h : RenewsExactly row predecessorIds)
    : RecordsPredecessors row predecessorIds where
  mem := h.mem
  coterm := fun hfrom _ => by
    rw [h.renewedFrom, List.head?_eq_none_iff] at hfrom
    rcases h.coterm with ⟨hc, -⟩ | hc <;> simp [License.cotermIds, hc, hfrom]
  renewedTo := h.renewedTo
  status := by simp [h.status]
  linked := h.linked

/-- A step that adds one licence, marks the licences that it records as its predecessors and
otherwise stays in the bookkeeping, whichever of the new licence's columns record them.
-/
structure LicenseAdded (s t : Store) (id : Nat) (predecessorIds : List Nat) (row : License)
    : Prop where
  id_eq : id = s.licenses.nextKey
  records : RecordsPredecessors row predecessorIds
  stored : ∀ p ∈ predecessorIds, ∃ l, s.license? p = some l ∧ l.renewedToId = none
  reference : row.licenseRef ≠ none ∧ row.licenseRef ≠ some ""
  core : ((s.licenses.insert row).mapRows (markRow predecessorIds id)).Agrees License.core
    t.licenses
  items : t.items = s.items
  orders : t.orders = s.orders
  requests : t.requests = s.requests

theorem LicenseMade.added {s t : Store} {id : Nat} {predecessorIds : List Nat} {row : License}
    (h : LicenseMade s t id predecessorIds row)
    : LicenseAdded s t id predecessorIds row where
  id_eq := h.id_eq
  records := h.renews.records
  stored := fun p hp => let ⟨l, hl, hnone, _⟩ := h.stored p hp; ⟨l, hl, hnone⟩
  reference := h.reference
  core := h.core
  items := h.items
  orders := h.orders
  requests := h.requests

theorem insertLicense_ok {u : Unicode} {row : License} {s t : Store} {id : Nat}
    (h : insertLicense u row s = .ok (id, t))
    : id = s.licenses.nextKey
      ∧ ({ s with licenses := s.licenses.insert row } : Store).Constraints
      ∧ (∀ itemId, row.sourceSourcingItemId = some itemId →
          ∃ item, s.items.get? itemId = some item)
      ∧ OnlyNumbers { s with licenses := s.licenses.insert row } t := by
  simp only [insertLicense, bind_eq_ok, flush_eq_ok, assertSourceLineExists, require_eq_ok,
    pure_eq_ok, Prod.mk.injEq] at h
  obtain ⟨v, ⟨rfl, hc⟩, -, hs, rfl, rfl⟩ := h
  refine ⟨rfl, hc, fun itemId he => ?_, syncLicenseLine_only _ _ _ _⟩
  rw [he, Option.all_some, Option.isSome_iff_exists] at hs
  exact hs

theorem insertLicense_core {u : Unicode} {row : License} {s t : Store} {id : Nat} (ref : String)
    (h : insertLicense u row s = .ok (id, t))
    : (s.licenses.insert { row with licenseRef := some ref }).Agrees License.core
        (t.licenses.modify id (fun l => { l with licenseRef := some ref })) := by
  obtain ⟨rfl, -, -, hn⟩ := insertLicense_ok h
  refine Table.Agrees.insert_modify (f := fun l => { l with licenseRef := some ref }) hn.core ?_
  intro a b hv
  have hd := License.core_details hv
  have ht := License.core_terms hv
  have hp := License.core_purchase hv
  have hc := License.core_chain hv
  simp only [License.core, hd, ht, hp, hc]

-- Successors

theorem assertSuccessorTerm_ok {predecessors : List License} {row : License} {x : PUnit}
    (h : assertSuccessorTerm predecessors row.startDate row.endDate = .ok x)
    : row.endDate.isSome = true ∧ ∀ l ∈ predecessors, ExtendedBy row l := by
  simp only [assertSuccessorTerm, bind_eq_ok, found_eq_ok, forM_eq_ok] at h
  obtain ⟨finish, hf, hp⟩ := h
  refine ⟨by simp [hf], fun l hl => ?_⟩
  have hl := hp l hl
  simp only [assertExtendsPredecessor, bind_eq_ok, require_eq_ok] at hl
  obtain ⟨-, hlonger, hlater⟩ := hl
  refine ⟨by simp [hf], fun old new ho hn => ?_, fun old ho => ?_⟩
  · rw [hf, Option.some.injEq] at hn
    rw [ho, Option.any_some, decide_eq_false_iff_not] at hlonger
    exact hn ▸ Nat.lt_of_not_le hlonger
  · rw [ho, Option.all_some, Option.any_eq_true] at hlater
    obtain ⟨new, hn, hlt⟩ := hlater
    exact ⟨new, hn, by simpa using hlt⟩

theorem markAll_ok {successorId : Nat} {predecessorIds : List Nat} {s t : Store}
    (h : each (fun p => markPredecessorRenewed p successorId) predecessorIds s = .ok t)
    : t = s.mapLicenses (markRow predecessorIds successorId)
      ∧ predecessorIds.Nodup
      ∧ ∀ p ∈ predecessorIds, ∃ l, s.license? p = some l ∧ l.renewedToId = none := by
  induction predecessorIds generalizing s with
  | nil =>
      obtain rfl : s = t := by simpa [each] using h
      refine ⟨?_, List.nodup_nil, by simp⟩
      exact (congrArg (fun rows => { s with licenses := rows })
        (Table.mapRows_eq_self (f := markRow [] successorId) fun _ _ _ => markRow_nil _ _ _)).symm
  | cons head rest ih =>
      obtain ⟨v, hv, ht⟩ := bind_eq_ok.mp h
      simp only [markPredecessorRenewed, assertPredecessorHasNoSuccessor, bind_eq_ok,
        found_eq_ok, require_eq_ok, pure_eq_ok] at hv
      obtain ⟨l, hl, -, hnone, rfl⟩ := hv
      obtain ⟨rfl, hnodup, hstored⟩ := ih ht
      have hne : head ∉ rest := fun hm => by
        obtain ⟨l', hl', hn⟩ := hstored head hm
        rw [Store.license?_modifyLicense_self, hl, Option.map_some, Option.some.injEq] at hl'
        subst hl'
        cases hn
      refine ⟨?_, List.nodup_cons.mpr ⟨hne, hnodup⟩, fun p hp => ?_⟩
      · unfold Store.mapLicenses Store.modifyLicense
        congr 1
        ext id : 1
        simp only [Table.get?_mapRows, Table.get?_modify, Option.map_map]
        congr 1
        funext row
        by_cases hid : id = head
        · subst hid
          simp [markRow, hne]
        · simp [markRow, hid]
      · rcases List.mem_cons.mp hp with rfl | hp
        · exact ⟨l, hl, by simpa using hnone⟩
        · obtain ⟨l', hl', hn⟩ := hstored p hp
          rw [Store.license?_modifyLicense_ne _ _ (fun he : p = head => hne (he ▸ hp))] at hl'
          exact ⟨l', hl', hn⟩

theorem chainReference_ok (env : Env) (ref : Option String) (s : Store)
    : (chainReference env ref s).1 ≠ ""
      ∧ (∀ known, truthy ref = some known → (chainReference env ref s).1 = known)
      ∧ ∃ n, (chainReference env ref s).2 = { s with licenseRefSequence := n } := by
  unfold chainReference
  rcases hk : truthy ref with _ | known
  · refine ⟨generateLicenseRef_ne env s, fun known hk' => ?_, _, rfl⟩
    cases hk'
  · refine ⟨?_, fun other ho => Option.some.inj ho, s.licenseRefSequence, rfl⟩
    simpa using (Option.filter_eq_some_iff.mp hk).2

/-- A new row as the successor of the given predecessors. -/
def License.renewing (row : License) (predecessorIds : List Nat)
    (cotermFromIds : Option (List Nat)) (ref : String)
    : License :=
  { row with
    renewedFromId := predecessorIds.head?
    predecessorId := predecessorIds.head?
    cotermFromIds := cotermFromIds
    licenseRef := some ref }

theorem SameCore.marked {rows : Table License} {t v : Store} {row : License}
    {predecessorIds : List Nat} {id : Nat}
    (h : (rows.insert row).Agrees License.core t.licenses)
    (hv : SameCore (t.mapLicenses (markRow predecessorIds id)) v)
    : ((rows.insert row).mapRows (markRow predecessorIds id)).Agrees License.core v.licenses :=
  (h.mapRows fun key _ _ hab => markRow_congr predecessorIds id key hab).trans hv

theorem Store.mem_storedAmong {s : Store} {ids : List Nat} {id : Nat} {l : License} (hid : id ∈ ids)
    (hl : s.license? id = some l)
    : (id, l) ∈ s.storedAmong ids := by
  refine Table.get?_eq_some.mp ?_
  rw [Table.get?_filter]
  exact Option.filter_eq_some_iff.mpr ⟨hl, by simpa using hid⟩

/-- A successor's creation, whether of one predecessor or of several. -/
theorem createSuccessor_made {env : Env} {predecessorIds : List Nat}
    {cotermFromIds : Option (List Nat)} {parentItemId : Option Nat} {row : License} {s t : Store}
    {id : Nat}
    (h : createSuccessor env predecessorIds cotermFromIds parentItemId row s = .ok (id, t))
    (hchain : row.toLicenseChain = {})
    (hcoterm : (cotermFromIds = none ∧ predecessorIds.length ≤ 1)
      ∨ cotermFromIds = some predecessorIds)
    (hstored : ∀ p ∈ predecessorIds, ∃ l, s.license? p = some l)
    : ∃ ref, LicenseMade s t id predecessorIds (row.renewing predecessorIds cotermFromIds ref)
        ∧ parentItemId = none ∧ row.endDate.isSome = true
        ∧ ({ s with
            licenses := s.licenses.insert
              { row with
                renewedFromId := predecessorIds.head?
                predecessorId := predecessorIds.head?
                cotermFromIds := cotermFromIds } } : Store).Constraints := by
  simp only [createSuccessor, bind_eq_ok, require_eq_ok, pure_eq_ok, Prod.mk.injEq] at h
  obtain ⟨_, -, _, hterm, _, hparent, ⟨newId, s₁⟩, hinsert, s₂, hmark, s₃, hactivate, rfl, rfl⟩ := h
  obtain ⟨rfl, hconstraints, hsource, hnumbers⟩ := insertLicense_ok hinsert
  obtain ⟨hend, hextends⟩ := assertSuccessorTerm_ok hterm
  obtain ⟨hne, hshared, n, hrest⟩ :=
    chainReference_ok env ((predecessorIds.head?.bind s₁.license?).bind (·.licenseRef)) s₁
  set ref := (chainReference env ((predecessorIds.head?.bind s₁.license?).bind (·.licenseRef))
    s₁).1
  rw [hrest] at hmark
  obtain ⟨rfl, hnodup, hmarked⟩ := markAll_ok hmark
  have hcore := insertLicense_core ref hinsert
  have hactivated := each_only (fun _ _ _ _ => activateMaintenanceSuccessorForAllParents_only)
    hactivate
  -- A predecessor has the same core before the insertion and when it is marked.
  have hkept : ∀ p l, s.license? p = some l → ∃ l', s₁.license? p = some l' ∧ l'.core = l.core :=
    fun p l hl => by
      have hk := hnumbers.core p
      rw [Table.get?_insert, if_neg (Nat.ne_of_lt (Table.lt_nextKey_of_get? hl))] at hk
      have hl' : s.licenses.get? p = some l := hl
      rw [hl', Option.map_some, Option.map_eq_some_iff] at hk
      exact hk
  refine ⟨ref, ?_, hparent, hend, hconstraints⟩
  constructor
  · rfl
  · exact ⟨rfl, rfl, hcoterm, by simpa [License.renewing] using congrArg (·.renewedToId) hchain,
      by simpa [License.renewing] using congrArg (·.lifecycleStatus) hchain,
      by simpa [License.renewing] using congrArg (·.existingSuccessorLinkedAt) hchain⟩
  · exact hnodup
  · intro p hp
    obtain ⟨l, hl⟩ := hstored p hp
    obtain ⟨l', hl', hc⟩ := hkept p l hl
    obtain ⟨marked, hm, hnone⟩ := hmarked p hp
    rw [Store.license?_modifyLicense_ne _ _ (Nat.ne_of_lt (Table.lt_nextKey_of_get? hl))] at hm
    obtain rfl : l' = marked := Option.some.inj (hl'.symm.trans hm)
    refine ⟨l, hl, ?_, ?_⟩
    · rw [← hnone, ← congrArg (·.renewedToId) (License.core_chain hc)]
    · have he := hextends l (List.mem_map.mpr ⟨(p, l), Store.mem_storedAmong hp hl, rfl⟩)
      exact ⟨he.finish, he.longer, he.later⟩
  · exact hsource
  · exact ⟨by simp [License.renewing], by simpa [License.renewing] using hne⟩
  · intro p hp known hknown
    rw [Option.mem_def] at hp
    obtain ⟨l, hl, hk⟩ := Option.bind_eq_some_iff.mp hknown
    obtain ⟨l', hl', hc⟩ := hkept p l hl
    have hr : l'.licenseRef = l.licenseRef := congrArg (·.licenseRef) (License.core_chain hc)
    refine congrArg some (hshared known ?_)
    simp [hp, hl', hr, hk]
  · refine SameCore.marked (t := { s₁ with licenses := s₁.licenses.modify s.licenses.nextKey _ })
      hcore hactivated.core
  · exact hactivated.items.trans hnumbers.items
  · exact hactivated.orders.trans hnumbers.orders
  · exact hactivated.requests.trans hnumbers.requests

-- Purchases

theorem plain_made {env : Env} {row : License} {s s₀ s₁ t : Store} {id : Nat}
    (hreferences : OnlyReferences s s₀)
    (hinsert : insertLicense env.unicode row s₀ = .ok (id, s₁))
    (hchain : row.toLicenseChain = {})
    (hrest : OnlyMaintenance (assignLicenseRef env id s₁) t)
    : ∃ ref, LicenseMade s t id [] { row with licenseRef := some ref } := by
  obtain ⟨rfl, -, hsource, hnumbers⟩ := insertLicense_ok hinsert
  have hcore := insertLicense_core (generateLicenseRef env s₁).1 hinsert
  rw [hreferences.licenses] at hcore hrest
  refine ⟨(generateLicenseRef env s₁).1, ?_⟩
  constructor
  · rw [hreferences.licenses]
  · refine ⟨?_, ?_, .inl ⟨?_, by simp⟩, ?_, ?_, ?_⟩
    · exact congrArg (·.renewedFromId) hchain
    · exact congrArg (·.predecessorId) hchain
    · exact congrArg (·.cotermFromIds) hchain
    · exact congrArg (·.renewedToId) hchain
    · exact congrArg (·.lifecycleStatus) hchain
    · exact congrArg (·.existingSuccessorLinkedAt) hchain
  · exact List.nodup_nil
  · simp
  · rw [← hreferences.items]
    exact hsource
  · exact ⟨by simp, by simpa using generateLicenseRef_ne env s₁⟩
  · simp
  · rw [hreferences.licenses, Table.mapRows_eq_self fun _ _ _ => markRow_nil _ _ _]
    exact hcore.trans hrest.core
  · exact (hrest.items.trans hnumbers.items).trans hreferences.items
  · exact (hrest.orders.trans hnumbers.orders).trans hreferences.orders
  · exact (hrest.requests.trans hnumbers.requests).trans hreferences.requests

theorem createMaintenanceForParent_made {env : Env} {parentId : Nat} {row : License} {s t : Store}
    {id : Nat} (h : createMaintenanceForParent env parentId row s = .ok (id, t))
    (hchain : row.toLicenseChain = {})
    : ∃ details ref, LicenseMade s t id []
        { maintenanceRow parentId (row.withDetails details) with licenseRef := some ref } := by
  simp only [createMaintenanceForParent, bind_eq_ok, pure_eq_ok, Prod.mk.injEq] at h
  obtain ⟨⟨row', s₀⟩, hresolve, _, -, ⟨newId, s₁⟩, hinsert, s₂, hactivate, rfl, rfl⟩ := h
  obtain ⟨⟨details, rfl⟩, hreferences⟩ := resolveRowReferences_ok hresolve
  obtain ⟨ref, hmade⟩ := plain_made hreferences hinsert hchain
    (activateMaintenanceForParent_only hactivate)
  exact ⟨details, ref, hmade⟩

/-- The terms that a purchase stores for its data. -/
def purchaseTerms (d : ConversionData) : LicenseTerms :=
  let terms := normaliseLicenseTypeFields d.toRow.toLicenseTerms
  { terms with
    quantityPerUnit := if terms.quantityPerUnit = "" then "1" else terms.quantityPerUnit }

theorem LicenseMade.of_references {s s₀ t : Store} {id : Nat} {predecessorIds : List Nat}
    {row : License} (hreferences : OnlyReferences s s₀)
    (h : LicenseMade s₀ t id predecessorIds row)
    : LicenseMade s t id predecessorIds row where
  id_eq := by rw [h.id_eq, hreferences.licenses]
  renews := h.renews
  nodup := h.nodup
  stored := by
    simpa only [Store.license?, hreferences.licenses] using h.stored
  source := by simpa only [hreferences.items] using h.source
  reference := h.reference
  sharedReference := by
    simpa only [Store.license?, hreferences.licenses] using h.sharedReference
  core := by simpa only [hreferences.licenses] using h.core
  items := h.items.trans hreferences.items
  orders := h.orders.trans hreferences.orders
  requests := h.requests.trans hreferences.requests

theorem inheritPoTotalOverride_congr (u : Unicode) {s t : Store} (h : t.licenses = s.licenses)
    (p : LicensePurchase)
    : inheritPoTotalOverride u t p = inheritPoTotalOverride u s p := by
  simp only [inheritPoTotalOverride, getPoTotalOverride, h]

theorem purchaseRow_chain (u : Unicode) (s : Store) (inherits : Bool) (data : ConversionData)
    (details : LicenseDetails) (terms : LicenseTerms)
    : (if inherits = true then
          inheritRowOverride u s ((data.toRow.withDetails details).withTerms terms)
        else (data.toRow.withDetails details).withTerms terms).toLicenseChain = {} := by
  split <;> rfl

theorem purchaseRow_terms (u : Unicode) (s : Store) (inherits : Bool) (data : ConversionData)
    (details : LicenseDetails) (terms : LicenseTerms)
    : (if inherits = true then
          inheritRowOverride u s ((data.toRow.withDetails details).withTerms terms)
        else (data.toRow.withDetails details).withTerms terms).toLicenseTerms = terms := by
  split <;> rfl

theorem terms_of_maintenance {t t' : LicenseTerms} (ht : t' = t) (h : t.licenseType = .maintenance)
    : { t' with licenseType := .maintenance } = t := by
  rw [ht, ← h]

theorem createPurchaseLicense_made {env : Env} {itemId : Nat} {created : List (Nat × Nat)}
    {inherits : Bool} {data : ConversionData} {s t : Store} {id : Nat}
    (h : createPurchaseLicense env itemId created inherits data s = .ok (id, t))
    : ∃ row, LicenseMade s t id [] row
        ∧ row.toLicenseTerms = purchaseTerms data
        ∧ row.toLicensePurchase
          = if inherits then inheritPoTotalOverride env.unicode s data.toRow.toLicensePurchase
            else data.toRow.toLicensePurchase := by
  simp only [createPurchaseLicense, bind_eq_ok, require_eq_ok] at h
  obtain ⟨⟨row, s₀⟩, hresolve, _, -, _, -, h⟩ := h
  obtain ⟨⟨details, rfl⟩, hreferences⟩ := resolveRowReferences_ok hresolve
  have hpurchase : ∀ row : License, row.toLicensePurchase
      = (if inherits = true then
          inheritRowOverride env.unicode s₀ ((data.toRow.withDetails details).withTerms
            (purchaseTerms data))
        else (data.toRow.withDetails details).withTerms (purchaseTerms data)).toLicensePurchase
      → row.toLicensePurchase
        = if inherits then inheritPoTotalOverride env.unicode s data.toRow.toLicensePurchase
          else data.toRow.toLicensePurchase := fun row hrow => by
    rw [hrow]
    split
    · exact inheritPoTotalOverride_congr env.unicode hreferences.licenses _
    · rfl
  split at h
  · next hmaintenance =>
      simp only [bind_eq_ok] at h
      obtain ⟨parentId, -, h⟩ := h
      obtain ⟨details', ref, hmade⟩ := createMaintenanceForParent_made h
        (purchaseRow_chain _ _ _ _ _ _)
      refine ⟨_, hmade.of_references hreferences, ?_, hpurchase _ ?_⟩
      · exact terms_of_maintenance (purchaseRow_terms _ _ _ _ _ _) hmaintenance
      · rfl
  · simp only [bind_eq_ok, require_eq_ok, pure_eq_ok, Prod.mk.injEq] at h
    obtain ⟨_, -, _, -, _, -, ⟨newId, s₁⟩, hinsert, rfl, rfl⟩ := h
    obtain ⟨ref, hmade⟩ := plain_made hreferences hinsert (purchaseRow_chain _ _ _ _ _ _)
      (.refl _)
    exact ⟨_, hmade, purchaseRow_terms _ _ _ _ _ _, hpurchase _ rfl⟩

-- One line

/-- The licences that the conversion of a line renews. -/
def SourcingItem.renewedIds (item : SourcingItem) : List Nat :=
  match item.renewalForLicenseId, item.cotermPredecessorIds.getD [] with
  | none, _ => []
  | some oldId, [] => [oldId]
  | some _, ids => ids

theorem renewedIds_single {item : SourcingItem} {oldId : Nat}
    (h : item.renewalForLicenseId = some oldId) (hc : item.cotermPredecessorIds.getD [] = [])
    : item.renewedIds = [oldId] := by
  simp only [SourcingItem.renewedIds, h, hc]

theorem renewedIds_coterm {item : SourcingItem} {oldId : Nat}
    (h : item.renewalForLicenseId = some oldId) (hc : item.cotermPredecessorIds.getD [] ≠ [])
    : item.renewedIds = item.cotermPredecessorIds.getD [] := by
  simp only [SourcingItem.renewedIds, h]

/-- The terms that a renewal stores for its data, which nothing normalises. -/
def renewalTerms (old : License) (d : ConversionData) : LicenseTerms :=
  (d.forPredecessor old).toRow.toLicenseTerms

theorem forPredecessor_purchase (old : License) (d : ConversionData)
    : (d.forPredecessor old).withCoverage.toRow.toLicensePurchase = d.toRow.toLicensePurchase := by
  unfold ConversionData.forPredecessor
  split <;> rfl

/-- A renewal line makes one licence that renews the line's licences. -/
theorem createRenewalSuccessor_made {env : Env} {item : SourcingItem} {oldId : Nat}
    {data : ConversionData} {missing detailPrefix : String} {s t : Store} {id : Nat}
    (h : createRenewalSuccessorFromSourcingItem env item oldId data missing detailPrefix s
      = .ok (id, t))
    (hitem : item.renewalForLicenseId = some oldId)
    : ∃ old row, s.license? oldId = some old ∧ LicenseMade s t id item.renewedIds row
        ∧ row.toLicenseTerms = renewalTerms old data
        ∧ row.toLicensePurchase = data.toRow.toLicensePurchase := by
  simp only [createRenewalSuccessorFromSourcingItem, bind_eq_ok, found_eq_ok] at h
  obtain ⟨old, hold, _, -, _, -, ⟨row, s₀⟩, hresolve, h⟩ := h
  obtain ⟨⟨details, rfl⟩, hreferences⟩ := resolveRowReferences_ok hresolve
  have hpurchase := forPredecessor_purchase old data
  refine ⟨old, ?_⟩
  cases hids : item.cotermPredecessorIds.getD [] with
  | nil =>
      -- The parent's check either passes or ends the conversion.
      have hcreate : createSingleRenewalSuccessor env oldId
          (data.forPredecessor old).withCoverage.parentSourcingItemId
          (((data.forPredecessor old).withCoverage.toRow).withDetails details) s₀
          = .ok (id, t) := by
        simp only [hids] at h
        split at h
        · split at h
          · simp only [bind_eq_ok] at h
            obtain ⟨_, -, h⟩ := h
            exact h
          · simp [throw, throwThe, MonadExceptOf.throw, bind, Except.bind] at h
        · exact h
      obtain ⟨ref, hmade, -⟩ := createSuccessor_made hcreate rfl (.inl ⟨rfl, by simp⟩)
        (fun p hp => by
          obtain rfl := List.mem_singleton.mp hp
          exact ⟨old, by simpa only [Store.license?, hreferences.licenses] using hold⟩)
      have hmade := hmade.of_references hreferences
      rw [← renewedIds_single hitem hids] at hmade
      exact ⟨_, hold, hmade, rfl, hpurchase⟩
  | cons head rest =>
      have hcreate : createCotermRenewalSuccessor env (head :: rest)
          (data.forPredecessor old).withCoverage.parentSourcingItemId
          (((data.forPredecessor old).withCoverage.toRow).withDetails details) s₀
          = .ok (id, t) := by
        simp only [hids] at h
        split at h
        · split at h
          · simp only [bind_eq_ok] at h
            obtain ⟨_, -, h⟩ := h
            exact h
          · simp [throw, throwThe, MonadExceptOf.throw, bind, Except.bind] at h
        · exact h
      simp only [createCotermRenewalSuccessor, bind_eq_ok, require_eq_ok] at hcreate
      obtain ⟨_, hall, hcreate⟩ := hcreate
      obtain ⟨ref, hmade, -⟩ := createSuccessor_made hcreate rfl (.inr rfl)
        (fun p hp => Option.isSome_iff_exists.mp (List.all_eq_true.mp hall p hp))
      have hmade := hmade.of_references hreferences
      rw [← hids, ← renewedIds_coterm hitem (by rw [hids]; exact List.cons_ne_nil _ _)] at hmade
      exact ⟨_, hold, hmade, rfl, hpurchase⟩

/-- The terms of the licence that a line becomes. -/
def LineTerms (s : Store) (item : Option SourcingItem) (data : ConversionData)
    (terms : LicenseTerms)
    : Prop :=
  terms = purchaseTerms data
    ∨ ∃ line oldId old, item = some line ∧ line.renewalForLicenseId = some oldId
        ∧ s.license? oldId = some old ∧ terms = renewalTerms old data

theorem createPreparedConversionLicense_made {env : Env} {itemId : Nat}
    {item : Option SourcingItem} {created : List (Nat × Nat)} {data : ConversionData}
    {missing detailPrefix : String} {s t : Store} {id : Nat}
    (h : createPreparedConversionLicense env itemId item created data missing detailPrefix s
      = .ok (id, t))
    : ∃ row, LicenseMade s t id ((item.map SourcingItem.renewedIds).getD []) row
        ∧ LineTerms s item data row.toLicenseTerms
        ∧ row.toLicensePurchase = data.toRow.toLicensePurchase := by
  unfold createPreparedConversionLicense at h
  rcases item with _ | item
  · obtain ⟨row, hmade, hterms, hpurchase⟩ := createPurchaseLicense_made h
    exact ⟨row, hmade, .inl hterms, hpurchase⟩
  · rcases hitem : item.renewalForLicenseId with _ | oldId
    · simp only [Option.bind_some, hitem, Option.map_none] at h
      obtain ⟨row, hmade, hterms, hpurchase⟩ := createPurchaseLicense_made h
      have hids : item.renewedIds = [] := by simp [SourcingItem.renewedIds, hitem]
      exact ⟨row, by simpa [hids] using hmade, .inl hterms, hpurchase⟩
    · simp only [Option.bind_some, hitem, Option.map_some] at h
      obtain ⟨old, row, hold, hmade, hterms, hpurchase⟩ := createRenewalSuccessor_made h hitem
      exact ⟨row, hmade, .inr ⟨item, oldId, old, rfl, hitem, hold, hterms⟩, hpurchase⟩

end LicenseTrack
