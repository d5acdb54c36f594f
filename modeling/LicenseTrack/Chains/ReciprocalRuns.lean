import LicenseTrack.Chains.Reciprocity
import LicenseTrack.Import.Relations
import LicenseTrack.Maintenance.Deletion

/-! Runs of conversions, imports, adoptions, their undoing and deletions: under which condition on
each request both ends of every renewal agree in every state.
-/

namespace LicenseTrack

open Library

/-- A row of a file that names no stored licence as the one that it renews. -/
def ParsedRow.RenewsNone (u : Unicode) (s : Store) (row : ParsedRow) : Prop :=
  row.licenseType = some .maintenance
    ∨ row.maintenanceParentAction = some .importLegacyUnlinked
    ∨ ∀ ref, importedParentId.truthyText row.parentLicenseRef = some ref
        → licensesByRef u s ref = []

theorem resolveRowRef_none {u : Unicode} {s : Store} {row : ParsedRow}
    {known parentId predecessorId : Option Nat} (hnone : row.RenewsNone u s)
    (h : resolveRowRef u s (row.licenseType.getD .subscription) row known
      = .ok (parentId, predecessorId))
    : predecessorId = none := by
  unfold resolveRowRef at h
  split at h
  · exact (Prod.mk.inj (Except.ok.inj h)).2.symm
  · next ref href =>
      split at h
      · exact (Prod.mk.inj (Except.ok.inj h)).2.symm
      · next haction =>
          split at h
          · split at h
            · exact (Prod.mk.inj (Except.ok.inj h)).2.symm
            · obtain ⟨id, -, h⟩ := bind_eq_ok.mp h
              exact (Prod.mk.inj (pure_eq_ok.mp h)).2.symm
          · next hother =>
              have hmatches : licensesByRef u s ref = [] := by
                rcases hnone with htype | hlegacy | hmatches
                · exact absurd (by rw [htype]; rfl) hother
                · exact absurd hlegacy haction
                · exact hmatches ref href
              rw [hmatches] at h
              exact (Prod.mk.inj (Except.ok.inj h)).2.symm

theorem buildLicense_chain {u : Unicode} {s : Store} {row : ParsedRow} {parent : Option Nat}
    {license : License} (h : buildLicense u s row parent = .ok license)
    : license.toLicenseChain = {
        lifecycleStatus := if row.isLegacy then some .legacy else none
        predecessorId := license.predecessorId } := by
  simp only [buildLicense, bind_eq_ok, pure_eq_ok] at h
  obtain ⟨_, -, _, -, _, -, rfl⟩ := h
  rfl

theorem registerNewRow_chains (env : Env) (row : ParsedRow) (license : License) (s : Store)
    (id : Nat)
    : ∃ ref, ref ≠ "" ∧ (registerNewRow env row license s).chains id
        = if id = s.licenses.nextKey then
            some { license.toLicenseChain with licenseRef := some ref }
          else s.chains id := by
  unfold registerNewRow
  generalize hv : syncLicenseLine env.unicode s.licenses.nextKey row.poLineNumber
    { s with licenses := s.licenses.insert license } = v
  have hcore : v.chains = ({ s with licenses := s.licenses.insert license } : Store).chains := by
    rw [← hv]
    exact (syncLicenseLine_only env.unicode _ _ _).core.chains
  refine ⟨(generateLicenseRef env v).1, generateLicenseRef_ne env v, ?_⟩
  have hid := congrFun hcore id
  rw [Store.chains, Store.chains, Store.license?, Store.license?, Table.get?_insert] at hid
  split
  · next he =>
      subst he
      rw [if_pos rfl, Option.map_some] at hid
      obtain ⟨l, hl, hchain⟩ := Option.map_eq_some_iff.mp hid
      rw [assignLicenseRef, Store.chains, Store.license?_modifyLicense_self]
      change Option.map _ (Option.map _ (v.licenses.get? s.licenses.nextKey)) = _
      rw [hl, Option.map_some, Option.map_some, ← hchain]
  · next hne =>
      rw [if_neg hne] at hid
      rw [assignLicenseRef, Store.chains, Store.license?_modifyLicense_ne _ _ hne]
      exact hid

theorem importNewRow_outside {env : Env} {progress : ImportProgress} {row : ParsedRow}
    {s t : Store} (hnone : row.RenewsNone env.unicode s)
    (h : importNewRow env progress row s = .ok t)
    : KeepsRenewals s.chains t.chains ∧ t.items = s.items
      ∧ ∀ id x, s.chains id = some x → ∃ x', t.chains id = some x' := by
  obtain ⟨license, marked, hbuild, hmarked, hactivated, -, -⟩ := importNewRow_ok h
  have hpredecessor : license.predecessorId = none :=
    resolveRowRef_none hnone (buildLicense_refs hbuild).1
  have hchain := buildLicense_chain hbuild
  obtain rfl : marked = registerNewRow env row license s := by
    rcases hmarked with hmarked | ⟨predecessorId, hfound, -⟩
    · exact hmarked
    · rw [hpredecessor] at hfound
      cases hfound
  have hactivated := activateImported_only hactivated
  have hitems : (registerNewRow env row license s).items = s.items :=
    (syncLicenseLine_only env.unicode s.licenses.nextKey row.poLineNumber
      { s with licenses := s.licenses.insert license }).items
  have hrow := fun id => registerNewRow_chains env row license s id
  rw [← hactivated.core.chains] at hrow
  have hmissing : s.chains s.licenses.nextKey = none := by
    rw [Store.chains, Store.license?, Table.get?_nextKey, Option.map_none]
  have hkept : ∀ id x, s.chains id = some x → ∃ x', t.chains id = some x' := fun id x hx => by
    obtain ⟨ref, -, hid⟩ := hrow id
    split at hid
    · exact ⟨_, hid⟩
    · exact ⟨x, hid.trans hx⟩
  refine ⟨⟨fun a x' hx' => ?_, fun a x hx => .inl (hkept a x hx)⟩, hactivated.items.trans hitems,
    hkept⟩
  obtain ⟨ref, hblank, ha⟩ := hrow a
  rw [hx'] at ha
  split at ha
  · next he =>
      left
      obtain rfl := Option.some.inj ha
      rw [hchain, hpredecessor]
      refine ⟨⟨rfl, rfl, ?_, rfl, by simp, by simpa using hblank⟩, he ▸ hmissing⟩
      dsimp only
      split <;> simp
  · exact .inr ⟨x', ha.symm, rfl, .inl rfl⟩

theorem chains_modify {s : Store} {id : Nat} {l : License} {f : License → License}
    (hl : s.license? id = some l) (hf : (f l).toLicenseChain = l.toLicenseChain)
    : (s.modifyLicense id f).chains = s.chains := by
  funext key
  rw [Store.chains, Store.license?_modifyLicense, Option.map_map, Store.chains]
  by_cases he : key = id
  · subst he
    rw [hl, Option.map_some, Option.map_some, Function.comp_apply, if_pos rfl, hf]
  · refine congrArg (Option.map · (s.license? key)) (funext fun row => ?_)
    rw [Function.comp_apply, if_neg he]

/-- Stores with the same chains and the same lines. -/
structure SameChains (s t : Store) : Prop where
  chains : t.chains = s.chains
  items : t.items = s.items

theorem SameChains.trans {s t v : Store} (h : SameChains s t) (h' : SameChains t v)
    : SameChains s v :=
  ⟨h'.chains.trans h.chains, h'.items.trans h.items⟩

theorem OnlyMaintenance.sameChains {s t : Store} (h : OnlyMaintenance s t) : SameChains s t :=
  ⟨h.core.chains, h.items⟩

theorem OnlyNumbers.sameChains {s t : Store} (h : OnlyNumbers s t) : SameChains s t :=
  ⟨h.core.chains, h.items⟩

theorem importUpdateRow_sameChains {env : Env} {id : Nat} {row : ParsedRow} {s t : Store}
    (h : importUpdateRow env id row s = .ok t)
    : SameChains s t := by
  simp only [importUpdateRow, bind_eq_ok, found_eq_ok, flush_eq_ok] at h
  obtain ⟨l, hl, v, hupdate, rfl, -⟩ := h
  obtain ⟨f, imported, -, hchain, himported, rfl⟩ := applyImportUpdate_ran hupdate
  have hwritten : SameChains s (s.modifyLicense id f) := ⟨chains_modify hl hchain, rfl⟩
  have hsupport : SameChains (s.modifyLicense id f) imported := by
    rcases importSupport_cases himported with ⟨-, -, rfl⟩ | rfl
    · have hmirror : SameChains (s.modifyLicense id f) ((s.modifyLicense id f).modifyLicense id
          (fun l => l.withMirror (row.writeSupport l.toMaintenanceMirror))) :=
        ⟨chains_of_agrees (Table.Agrees.of_modify fun _ => rfl), rfl⟩
      exact hmirror.trans (recordIncludedSupportExit_only env.unicode id _ _).sameChains
    · exact ⟨rfl, rfl⟩
  have hdefaults : SameChains imported
      (imported.modifyLicense id (syncSupportDefaults env.unicode)) :=
    ⟨chains_of_agrees (Table.Agrees.of_modify fun _ => rfl), rfl⟩
  have hupdated := (hwritten.trans hsupport).trans hdefaults
  refine SameChains.trans ?_ (syncLicenseLine_only env.unicode id none _).sameChains
  split
  · exact hupdated.trans (OnlyMaintenance.foldl (fun w parentId =>
      syncParentMirrorFields_only env.unicode parentId w) _ _).sameChains
  · exact hupdated

-- Deletions

theorem assertLicenseDeleteAllowed_outside {ids : List Nat} {s : Store} {r : PUnit.{1}}
    (h : assertLicenseDeleteAllowed s ids = .ok r) {id : Nat} (hid : id ∈ ids) {l : License}
    (hl : s.license? id = some l)
    : l.renewedFromId = none ∧ l.renewedToId = none ∧ l.predecessorId = none := by
  simp only [assertLicenseDeleteAllowed, bind_eq_ok, require_eq_ok] at h
  obtain ⟨_, houtside, -⟩ := h
  have hrow := List.all_eq_true.mp houtside id hid
  rw [hl, Option.all_some] at hrow
  simp only [License.isOutsideRenewal, Bool.and_eq_true, Option.isNone_iff_eq_none] at hrow
  obtain ⟨⟨⟨-, hfrom⟩, hto⟩, hpredecessor⟩ := hrow
  exact ⟨hfrom, hto, hpredecessor⟩

theorem withRemainingParents_chain (remaining : List Nat) (l : License)
    : (l.withRemainingParents remaining).toLicenseChain = l.toLicenseChain := by
  unfold License.withRemainingParents
  split
  · rfl
  · split <;> rfl

theorem withoutReferences_keepsChain {ids : List Nat} {l : License}
    (hfrom : ∀ id ∈ ids, l.renewedFromId ≠ some id) (hto : ∀ id ∈ ids, l.renewedToId ≠ some id)
    (hpredecessor : ∀ id ∈ ids, l.predecessorId ≠ some id)
    : (l.withoutReferences ids).toLicenseChain = l.toLicenseChain := by
  have hkept : ∀ name : Option Nat, (∀ id ∈ ids, name ≠ some id)
      → (if name.any (ids.contains ·) = true then none else name) = name := fun name hname => by
    rw [if_neg]
    intro hany
    obtain ⟨id, hid, hin⟩ := (Option.any_eq_true _ _).mp hany
    exact hname id (List.contains_iff_mem.mp hin) hid
  unfold License.withoutReferences
  dsimp only
  rw [hkept _ hfrom, hkept _ hto, hkept _ hpredecessor]
  split <;> rfl

/-- A deletion removes licences outside the renewals, which no other licence names. -/
theorem deleteLoaded_keepsRenewals {ids : List Nat} {s t : Store} (hs : Reciprocal s.chains)
    (h : deleteLoadedLicenseRecords ids s = .ok t)
    : KeepsRenewals s.chains t.chains := by
  have hdeleted := deleteLoadedLicenseRecords_ok h
  simp only [deleteLoadedLicenseRecords, bind_eq_ok] at h
  obtain ⟨_, hallowed, -⟩ := h
  have houtside : ∀ id ∈ ids, ∀ x, s.chains id = some x
      → x.renewedToId = none ∧ x.predecessors = [] := fun id hid x hx => by
    obtain ⟨l, hl, rfl⟩ := Store.chains_eq_some.mp hx
    obtain ⟨hfrom, hto, hpredecessor⟩ := assertLicenseDeleteAllowed_outside hallowed hid hl
    exact ⟨hto, hs.coterm id _ hx hfrom hpredecessor⟩
  have hnamed : ∀ a id, id ∈ ids → ¬ NamesPredecessor s.chains id a := fun a id hid hnames => by
    obtain ⟨x, hx⟩ := hs.stored id a hnames
    exact hs.not_named hx (houtside id hid x hx).1 a hnames
  constructor
  · intro a x' hx'
    obtain ⟨l, hl, rfl⟩ := Store.chains_eq_some.mp hx'
    rw [hdeleted.licenses, Option.map_eq_some_iff] at hl
    obtain ⟨old, hold, rfl⟩ := hl
    rw [Option.filter_eq_some_iff] at hold
    have hstored := Store.chains_of_license hold.1
    have hfrom : ∀ id ∈ ids, old.renewedFromId ≠ some id := fun id hid he =>
      hnamed a id hid ⟨_, hstored, LicenseChain.primary_mem (.inl he)⟩
    have hpredecessor : ∀ id ∈ ids, old.predecessorId ≠ some id := fun id hid he =>
      hnamed a id hid ⟨_, hstored, LicenseChain.primary_mem (.inr he)⟩
    have hto : ∀ id ∈ ids, old.renewedToId ≠ some id := fun id hid he => by
      obtain ⟨y, hy, ha⟩ := (hs.edges a _ hstored id).mp he
      rw [(houtside id hid y hy).2] at ha
      cases ha
    have hsame : (old.remaining ids s a).toLicenseChain = old.toLicenseChain := by
      unfold License.remaining
      split
      · have hchain := withRemainingParents_chain (s.remainingParents ids a) old
        refine (withoutReferences_keepsChain ?_ ?_ ?_).trans hchain
        · rw [congrArg (·.renewedFromId) hchain]
          exact hfrom
        · rw [congrArg (·.renewedToId) hchain]
          exact hto
        · rw [congrArg (·.predecessorId) hchain]
          exact hpredecessor
      · exact withoutReferences_keepsChain hfrom hto hpredecessor
    rw [hsame]
    exact .inr ⟨_, hstored, rfl, .inl rfl⟩
  · intro a x hx
    obtain ⟨l, hl, rfl⟩ := Store.chains_eq_some.mp hx
    by_cases ha : a ∈ ids
    · exact .inr (houtside a ha _ hx)
    · left
      refine ⟨_, Store.chains_of_license (l := l.remaining ids s a) ?_⟩
      rw [hdeleted.licenses, hl, Option.filter_some, if_pos (by simpa using ha), Option.map_some]

/-- Every licence that a line names as one to renew is stored. -/
def LinesNameStored (s : Store) : Prop :=
  ∀ itemId item, s.items.get? itemId = some item → ∀ id ∈ item.predecessorIds,
    ∃ l, s.license? id = some l

theorem renewedIds_subset {item : SourcingItem} {id : Nat} (h : id ∈ item.renewedIds)
    : id ∈ item.predecessorIds := by
  rw [mem_predecessorIds]
  unfold SourcingItem.renewedIds at h
  split at h
  · cases h
  · next hold _ =>
      left
      rw [hold, List.mem_singleton.mp h]
  · exact .inr h

theorem LinesNameStored.renewed {s : Store} (h : LinesNameStored s) : LinesRenewStored s :=
  fun itemId item hitem id hid => h itemId item hitem id (renewedIds_subset hid)

theorem LinesNameStored.of_kept {s t : Store} (h : LinesNameStored s)
    (hitems : s.items.Agrees SourcingItem.predecessorIds t.items)
    (hrows : ∀ id l, s.license? id = some l → ∃ l', t.license? id = some l')
    : LinesNameStored t := fun itemId item hitem id hid => by
  obtain ⟨old, hold, hnames⟩ := hitems.back hitem
  obtain ⟨l, hl⟩ := h itemId old hold id (hnames ▸ hid)
  exact hrows id l hl

theorem remaining_predecessorIds {ids : List Nat} {item : SourcingItem} {id : Nat}
    (h : id ∈ (item.remaining ids).predecessorIds)
    : id ∈ item.predecessorIds := by
  have hdetached : id ∈ (item.detached ids).predecessorIds := by
    unfold SourcingItem.remaining at h
    split at h
    · exact h
    · exact h
  unfold SourcingItem.detached at hdetached
  split at hdetached
  · rw [mem_predecessorIds] at hdetached
    rcases hdetached with hhead | hcoterm
    · exact (List.mem_filter.mp (List.mem_of_mem_head? hhead)).1
    · dsimp only at hcoterm
      split at hcoterm
      · exact (List.mem_filter.mp hcoterm).1
      · cases hcoterm
  · exact hdetached

theorem LicensesDeleted.linesNameStored {ids : List Nat} {s t : Store}
    (h : LicensesDeleted ids s t) (hs : LinesNameStored s)
    : LinesNameStored t := by
  intro itemId row hrow id hid
  rw [h.items, Option.map_eq_some_iff] at hrow
  obtain ⟨item, hitem, rfl⟩ := hrow
  obtain ⟨hfor, hcoterm, -⟩ := remaining_names fun hnamed => h.allowed itemId item hitem hnamed
  have hstays : id ∉ ids := by
    rcases mem_predecessorIds.mp hid with he | hm
    · exact fun hdeleted => hfor id he hdeleted
    · exact hcoterm id hm
  obtain ⟨l, hl⟩ := hs itemId item hitem id (remaining_predecessorIds hid)
  refine ⟨l.remaining ids s id, ?_⟩
  rw [h.licenses, hl, Option.filter_some, if_pos (by simpa using hstays), Option.map_some]

-- Conversions

/-- The licence that a planned target already has is renewed by nothing, neither before nor by a
line of the order.
-/
def TargetUnrenewed (s : Store) (items : List (Nat × SourcingItem)) (target : Nat) : Prop :=
  ∀ id l, s.licenseOfLine target = some id → s.license? id = some l →
    l.renewedToId = none ∧ ∀ entry ∈ items, id ∉ entry.2.renewedIds

/-- Between two targets of a plan: the licences of those that are no source of a target that is done
have no successor.
-/
structure PlanInAgreement (items : List (Nat × SourcingItem)) (licenseOf : Nat → Option Nat)
    (done : List Nat) (s : Store)
    : Prop where
  reciprocal : Reciprocal s.chains
  free : ∀ target ∈ plannedTargets items, (∀ other ∈ done, target ∉ incomingOf items other)
    → ∀ id x, licenseOf target = some id → s.chains id = some x → x.renewedToId = none

theorem applyPlannedSuccessorLinks_reciprocal {u : Unicode} {items : List (Nat × SourcingItem)}
    {s t : Store} (hs : PlanInAgreement items s.licenseOfLine [] s)
    (h : applyPlannedSuccessorLinks u items s = .ok t)
    : Reciprocal t.chains := by
  suffices hsteps : ∃ done, PlanInAgreement items s.licenseOfLine done t from
    hsteps.elim fun _ hdone => hdone.reciprocal
  refine applyPlannedSuccessorLinks_keeps
    (fun done target before after hplan hm hother hself hstep => ?_) hs h
  obtain ⟨successorId, successor, predecessors, primary, link⟩ := applyPlannedTarget_ok hstep
  -- A predecessor is the licence of a source, and lines with the same licence are the same.
  have hsource : ∀ line id, s.licenseOfLine line = some id → id ∈ predecessors.map Prod.fst
      → line ∈ incomingOf items target := fun line id hline hid => by
    obtain ⟨p, hp, rfl⟩ := List.mem_map.mp hid
    rw [link.predecessors_eq, mem_plannedPredecessors] at hp
    obtain ⟨-, source, hsource, hlicense⟩ := hp
    exact licenseOfLine_injective hlicense hline ▸ hsource
  have hadds := link.addsRenewal (fun hid => hself (hsource target _ link.target_eq hid))
    (hplan.free target hm hother successorId _ link.target_eq
      (Store.chains_of_license link.successor_eq)) hplan.reciprocal
  refine ⟨hadds.reciprocal hplan.reciprocal, fun line hline hdone id x' hid hx' => ?_⟩
  by_cases hne : id = successorId
  · subst hne
    obtain rfl := Option.some.inj (hadds.successor.symm.trans hx')
    exact hadds.renewedTo
  · obtain ⟨x, hx, -, hsame⟩ := hadds.back id x' hne hx'
    have hnot : id ∉ predecessors.map Prod.fst := fun hpredecessor =>
      hdone target (by simp) (hsource line id hid hpredecessor)
    rw [hsame hnot]
    have hbefore := hplan.free line hline fun other ho => hdone other (List.mem_cons_of_mem _ ho)
    exact hbefore id x hid hx

theorem LinesConverted.reciprocal {items : List (Nat × SourcingItem)}
    {data : Option (Nat × SourcingItem) → ConversionData → Prop} {s t : Store} {made : List Nat}
    (h : LinesConverted items data s made t) (hs : Reciprocal s.chains)
    : Reciprocal t.chains :=
  h.keeps (P := fun v => Reciprocal v.chains)
    (fun _ _ _ _ _ hv _ hmade => (hmade.addsRenewal hv).reciprocal hv) (fun _ _ hv => hv) hs

theorem Reciprocal.renewedTo_of_edge {s : Store} (h : Reciprocal s.chains) {a b : Nat}
    (he : ChainEdge s a b)
    : ∃ l, s.license? a = some l ∧ l.renewedToId = some b := by
  cases he with
  | successor l stored renewed => exact ⟨l, stored, renewed⟩
  | predecessor l stored renews =>
      have hnames : NamesPredecessor s.chains a b := ⟨_, Store.chains_of_license stored, renews⟩
      obtain ⟨x, hx⟩ := h.stored a b hnames
      obtain ⟨la, hla, rfl⟩ := Store.chains_eq_some.mp hx
      exact ⟨la, hla, (h.edges a _ hx b).mpr hnames⟩

theorem LinesEffect.target_free {items : List (Nat × SourcingItem)} {made : List Nat} {s t : Store}
    (h : LinesEffect items made s t) (hs : Reciprocal s.chains)
    (hstored : RenewsStored s items) {target : Nat}
    (hfree : target ∉ made → TargetUnrenewed s items target) {id : Nat} {x : LicenseChain}
    (hid : t.licenseOfLine target = some id) (hx : t.chains id = some x)
    : x.renewedToId = none := by
  by_contra hsome
  obtain ⟨b, hb⟩ := Option.ne_none_iff_exists'.mp hsome
  obtain ⟨l, hl, rfl⟩ := Store.chains_eq_some.mp hx
  have hold : ∀ key row, s.license? key = some row → key < s.licenses.nextKey :=
    fun _ _ hrow => Table.lt_nextKey_of_get? hrow
  by_cases hnew : s.licenses.nextKey ≤ id
  · rcases h.edges id b (.successor l hl hb) with he | ⟨-, entry, hentry, hm⟩
    · obtain ⟨row, hrow, -⟩ := hs.renewedTo_of_edge he
      exact Nat.not_lt.mpr hnew (hold id row hrow)
    · obtain ⟨row, hrow⟩ := hstored entry hentry id hm
      exact Nat.not_lt.mpr hnew (hold id row hrow)
  · have hbefore := h.licenseOfLine_old hid (Nat.lt_of_not_le hnew)
    have hfree := hfree fun hm => hnew (h.licenseOfLine_new hm hid)
    obtain ⟨⟨row, hrow, -⟩, -⟩ := licenseOfLine_eq_some.mp hbefore
    obtain ⟨hnone, hlines⟩ := hfree id row hbefore hrow
    rcases h.edges id b (.successor l hl hb) with he | ⟨-, entry, hentry, hm⟩
    · obtain ⟨row', hrow', hto⟩ := hs.renewedTo_of_edge he
      obtain rfl := Option.some.inj (hrow.symm.trans hrow')
      rw [hnone] at hto
      cases hto
    · exact hlines entry hentry hm

theorem OrderConverted.reciprocal {u : Unicode} {loaded : LoadedOrder}
    {data : Option (Nat × SourcingItem) → ConversionData → Prop} {made : List Nat}
    {statuses : List SourcingStatus} {s t : Store}
    (h : OrderConverted u loaded data made statuses s t) (hs : Reciprocal s.chains)
    (hstored : RenewsStored s loaded.items)
    (hfree : ∀ target ∈ plannedTargets loaded.items, target ∉ made
      → TargetUnrenewed s loaded.items target)
    : Reciprocal t.chains := by
  obtain ⟨lined, planned, hlines, hplanned, rfl, -⟩ := h.work
  have hlined : Reciprocal lined.chains := hlines.reciprocal hs
  have hdone := applyPlannedSuccessorLinks_reciprocal (s := lined) ⟨hlined,
    fun target hm _ id x hid hx => hlines.linesEffect.target_free hs hstored
      (fun hnot => hfree target hm hnot) hid hx⟩ hplanned
  unfold refreshOrderStatus
  dsimp only
  split_ifs <;> exact hdone

theorem OrderConverted.linesNameStored {u : Unicode} {loaded : LoadedOrder}
    {data : Option (Nat × SourcingItem) → ConversionData → Prop} {made : List Nat}
    {statuses : List SourcingStatus} {s t : Store}
    (h : OrderConverted u loaded data made statuses s t) (hs : LinesNameStored s)
    : LinesNameStored t := by
  obtain ⟨lined, planned, hlines, hplanned, rfl, -⟩ := h.work
  obtain ⟨hitems, hrows⟩ := applyPlannedSuccessorLinks_kept hplanned
  have hnames : s.items.Agrees SourcingItem.predecessorIds lined.items :=
    hlines.keeps (P := fun v => s.items.Agrees SourcingItem.predecessorIds v.items)
      (fun _ _ _ _ _ hv _ hmade => hmade.items ▸ hv)
      (fun _ _ hv => hv.trans (Table.Agrees.of_modify fun _ => rfl)) (Table.Agrees.refl _ _)
  have hend : LinesNameStored planned := hs.of_kept (hitems ▸ hnames) fun id l hl =>
    hrows id ((hlines.linesEffect.kept id l hl).imp fun _ hrow => hrow.1)
  unfold refreshOrderStatus
  dsimp only
  split_ifs <;> exact hend

-- Requests

/-- The requests that write renewals, beside the repair of a row. -/
def Request.WritesRenewals : Request → Prop
  | .importCsvRow .. | .convertOrder .. | .convertOrderInBatch .. | .linkSuccessor ..
  | .unlinkSuccessor .. | .delete _ | .bulkDelete _ => True
  | _ => False

/-- What a request needs, to keep the chains in agreement: a new row of a file that it names no
stored licence as the one that it renews, and a batch conversion that a planned successor with a
licence of its own is not renewed itself.
-/
def Request.RenewsAgreeing (env : Env) (s : Store) : Request → Prop
  | .importCsvRow _ matched row =>
      matched.filter (fun id => (s.license? id).isSome) = none → row.RenewsNone env.unicode s
  | .convertOrderInBatch orderId payload =>
      ∀ target ∈ plannedTargets (s.orderItems orderId),
        target ∉ payload.map (·.sourcingItemId) → TargetUnrenewed s (s.orderItems orderId) target
  | _ => True

/-- Chains in agreement, in a store whose lines name stored licences. -/
structure RenewalInvariant (s : Store) : Prop where
  reciprocal : Reciprocal s.chains
  lines : LinesNameStored s

namespace RenewalInvariant

variable {env : Env} {s t : Store}

theorem empty : RenewalInvariant {} where
  reciprocal := by
    have hnone : ∀ a x, ({} : Store).chains a ≠ some x := fun _ _ hx => by cases hx
    exact {
      edges := fun a x hx => absurd hx (hnone a x)
      stored := fun a b ⟨y, hy, _⟩ => absurd hy (hnone b y)
      status := fun a x hx => absurd hx (hnone a x)
      reference := fun b y hy => absurd hy (hnone b y)
      coterm := fun b y hy => absurd hy (hnone b y)
      linked := fun a x hx => absurd hx (hnone a x)
      named := fun a x hx => absurd hx (hnone a x) }
  lines := fun _ _ hitem => by cases hitem

theorem of_rows (hs : RenewalInvariant s) (h : Reciprocal t.chains) (hitems : t.items = s.items)
    (hrows : ∀ id x, s.chains id = some x → ∃ x', t.chains id = some x')
    : RenewalInvariant t where
  reciprocal := h
  lines := hs.lines.of_kept (hitems ▸ Table.Agrees.refl _ _) fun id l hl => by
    obtain ⟨_, hx'⟩ := hrows id _ (Store.chains_of_license hl)
    obtain ⟨l', hl', -⟩ := Store.chains_eq_some.mp hx'
    exact ⟨l', hl'⟩

theorem importRow {progress : ImportProgress} {matched : Option Nat} {row : ParsedRow}
    (hs : RenewalInvariant s)
    (hnone : (Request.importCsvRow progress matched row).RenewsAgreeing env s)
    (h : importRow env progress matched row s = .ok t)
    : RenewalInvariant t := by
  unfold LicenseTrack.importRow at h
  split at h
  · have hsame := importUpdateRow_sameChains h
    refine hs.of_rows (hsame.chains ▸ hs.reciprocal) hsame.items fun id x hx => ?_
    exact ⟨x, hsame.chains ▸ hx⟩
  · next hmatched =>
      obtain ⟨hkeeps, hitems, hrows⟩ := importNewRow_outside (hnone hmatched) h
      exact hs.of_rows (hkeeps.reciprocal hs.reciprocal) hitems hrows

theorem deleteLoaded {ids : List Nat} (hs : RenewalInvariant s)
    (h : deleteLoadedLicenseRecords ids s = .ok t)
    : RenewalInvariant t where
  reciprocal := (deleteLoaded_keepsRenewals hs.reciprocal h).reciprocal hs.reciprocal
  lines := (deleteLoadedLicenseRecords_ok h).linesNameStored hs.lines

theorem link {predecessorId successorId : Nat} (hs : RenewalInvariant s)
    (h : linkExistingSuccessor env predecessorId successorId s = .ok t)
    : RenewalInvariant t := by
  obtain ⟨predecessor, successor, r, adoption⟩ := linkExistingSuccessor_ok h
  have hadds := adoption.addsRenewal hs.reciprocal
  have hitems : t.items = s.items := by
    rw [adoption.result]
    rfl
  refine hs.of_rows (hadds.reciprocal hs.reciprocal) hitems fun id x hx => ?_
  by_cases he : id = successorId
  · exact ⟨_, he ▸ hadds.successor⟩
  · exact hadds.forth id he ⟨x, hx⟩

theorem unlink {predecessorId : Nat} (hs : RenewalInvariant s)
    (h : unlinkExistingSuccessor env predecessorId s = .ok t)
    : RenewalInvariant t := by
  obtain ⟨successorId, predecessor, successor, undoing⟩ := unlinkExistingSuccessor_ok h
  obtain ⟨x', y', hremoves⟩ := undoing.removesRenewal hs.reciprocal
  refine hs.of_rows (hremoves.reciprocal hs.reciprocal) undoing.items fun id x hx => ?_
  by_cases hp : id = predecessorId
  · exact ⟨x', hp ▸ hremoves.predecessor'⟩
  · by_cases hq : id = successorId
    · exact ⟨y', hq ▸ hremoves.successor'⟩
    · exact ⟨x, (hremoves.others id hp hq).trans hx⟩

theorem converted {u : Unicode} {loaded : LoadedOrder}
    {data : Option (Nat × SourcingItem) → ConversionData → Prop} {made : List Nat}
    {statuses : List SourcingStatus} (hs : RenewalInvariant s)
    (hloaded : loaded.items = s.orderItems loaded.id)
    (h : OrderConverted u loaded data made statuses s t)
    (hfree : ∀ target ∈ plannedTargets loaded.items, target ∉ made
      → TargetUnrenewed s loaded.items target)
    : RenewalInvariant t where
  reciprocal := h.reciprocal hs.reciprocal (hloaded ▸ hs.lines.renewed.order loaded.id) hfree
  lines := h.linesNameStored hs.lines

theorem run {request : Request} (hs : RenewalInvariant s) (hwrites : request.WritesRenewals)
    (hagrees : request.RenewsAgreeing env s) (h : request.run env s = .ok t)
    : RenewalInvariant t := by
  cases request with
  | importCsvRow progress matched row => exact hs.importRow hagrees h
  | convertOrder orderId form submitted =>
      obtain ⟨p, hp, hcommit⟩ := bind_eq_ok.mp h
      have hloaded := prepareConversion_ok hp
      have hconverted := commitConversion_ok hcommit
      obtain ⟨_, _, -, hplanned, -⟩ := hconverted.work
      refine hs.converted hloaded.items hconverted fun target hm hnot => ?_
      exact absurd (applyPlannedSuccessorLinks_targets hplanned target hm) hnot
  | convertOrderInBatch orderId payload =>
      obtain ⟨p, hp, hcommit⟩ := bind_eq_ok.mp h
      obtain ⟨hloaded, rfl, -⟩ := prepareBatch_ok hp
      obtain ⟨made, hperm, hconverted⟩ := commitBatch_ok hcommit
      refine hs.converted hloaded.items hconverted fun target hm hnot => ?_
      rw [hloaded.items, hloaded.id_eq] at hm ⊢
      exact hagrees target hm fun hsent => hnot (hperm.mem_iff.mpr hsent)
  | linkSuccessor predecessorId successorId => exact hs.link h
  | unlinkSuccessor predecessorId => exact hs.unlink h
  | delete id =>
      simp only [Request.run, deleteLicense, bind_eq_ok, flush_eq_ok] at h
      obtain ⟨_, -, _, h, rfl, -⟩ := h
      exact hs.deleteLoaded h
  | bulkDelete ids =>
      simp only [Request.run, bulkDeleteLicenses] at h
      split at h
      · obtain rfl := pure_eq_ok.mp h
        exact hs
      · simp only [bind_eq_ok, flush_eq_ok] at h
        obtain ⟨_, h, rfl, -⟩ := h
        exact hs.deleteLoaded h
  | _ => exact hwrites.elim

end RenewalInvariant

-- Runs

/-- Work beside the renewals: it stays beside the chains, and its lines name stored licences. -/
structure BesideRenewals (s t : Store) : Prop where
  chains : BesideChains s t
  lines : LinesNameStored t

/-- A step is admitted when its request writes renewals and is admitted, and when other work stays
beside them.
-/
def ChainStep.Renews (admits : Store → Env → Request → Prop) (s : Store) : ChainStep → Prop
  | .request env sent => sent.WritesRenewals ∧ admits s env sent
  | .beside t => BesideRenewals s t

/-- The states that such steps lead to from the empty store. -/
abbrev RenewalsReached (admits : Store → Env → Request → Prop) (s : Store) : Prop :=
  Reachable ChainStep.run (ChainStep.Renews admits) {} s

/-- Both ends of every renewal agree: one names the other as its successor exactly when that names
it as a predecessor, a licence is marked as renewed exactly when it has a successor, and a successor
carries the reference of its primary predecessor.
-/
structure RenewalEndsAgree (s : Store) : Prop where
  edges : ∀ a x b y, s.license? a = some x → s.license? b = some y →
    (x.renewedToId = some b
      ↔ y.renewedFromId = some a ∨ y.predecessorId = some a ∨ a ∈ y.cotermIds)
  status : ∀ a x, s.license? a = some x →
    (x.renewedToId ≠ none ↔ x.lifecycleStatus = some .renewed)
  reference : ∀ a x b y, s.license? a = some x → s.license? b = some y →
    y.renewedFromId = some a ∨ y.predecessorId = some a → y.licenseRef = x.licenseRef

theorem Reciprocal.endsAgree {s : Store} (h : Reciprocal s.chains) : RenewalEndsAgree s where
  edges := fun a x b y hx hy => by
    have hy' := Store.chains_of_license hy
    have hnames : NamesPredecessor s.chains a b ↔ a ∈ y.predecessorIds := by
      refine ⟨fun ⟨z, hz, ha⟩ => ?_, fun ha => ⟨_, hy', ha⟩⟩
      obtain rfl := Option.some.inj (hy'.symm.trans hz)
      exact ha
    rw [h.edges a _ (Store.chains_of_license hx) b, hnames, License.predecessorIds]
    simp only [List.mem_append, Option.mem_toList, or_assoc]
  status := fun a x hx => h.status a _ (Store.chains_of_license hx)
  reference := fun a x b y hx hy ha =>
    h.reference b _ (Store.chains_of_license hy) a ha _ (Store.chains_of_license hx)

/-- Both ends of every renewal agree in every state that is reached by requests of which no new row
of a file renews a licence, and no planned successor is renewed already.
-/
theorem renewalEnds_agree {s : Store}
    (h : RenewalsReached (fun s env request => request.RenewsAgreeing env s) s)
    : RenewalEndsAgree s := by
  refine (Reachable.invariant RenewalInvariant.empty (fun s t step hs hadmitted hran => ?_)
    h).reciprocal.endsAgree
  cases step with
  | request env sent => exact hs.run hadmitted.1 hadmitted.2 hran
  | beside v =>
      obtain rfl := Except.ok.inj hran
      exact ⟨hadmitted.chains.keepsRenewals.reciprocal hs.reciprocal, hadmitted.lines⟩

/-- The import of a row of a file, on the given day. -/
def importedOn (day : Date) (row : ParsedRow) : ChainStep :=
  .request (.onDay day) (.importCsvRow {} none row)

/-- A subscription of a file. -/
def importedSubscription : ParsedRow where
  publisherName := "Acme"
  softwareDescription := "Editor"
  startDate := some 1
  endDate := some 100

/-- The term after it, which names no other licence. -/
def importedTerm : ParsedRow :=
  { importedSubscription with startDate := some 101, endDate := some 200 }

/-- The same term, which names the subscription as its predecessor. -/
def importedSuccessor : ParsedRow := { importedTerm with parentLicenseRef := some "LT-2026-00001" }

/-- Two terms are imported, and the first adopts the second. -/
def adoptedTerms : List ChainStep :=
  [importedOn 50 importedSubscription, importedOn 50 importedTerm,
    .request (.onDay 50) (.linkSuccessor 1 2)]

/-- An adopted term carries the reference of the one before it. -/
theorem renewalEnds_agree_adopted
    : ∃ s a b, runAll ChainStep.run adoptedTerms {} = some s ∧ s.license? 1 = some a
        ∧ s.license? 2 = some b ∧ a.renewedToId = some 2 ∧ b.licenseRef = a.licenseRef := by
  obtain ⟨s, hs⟩ : ∃ s, runAll ChainStep.run adoptedTerms {} = some s :=
    Option.isSome_iff_exists.mp (by decide +kernel)
  have hrow : (runAll ChainStep.run adoptedTerms {}).bind (fun s =>
      (s.license? 1).map (·.renewedToId)) = some (some 2) := by decide +kernel
  have hsecond : (runAll ChainStep.run adoptedTerms {}).bind (fun s =>
      (s.license? 2).map (·.predecessorId)) = some (some 1) := by decide +kernel
  rw [hs, Option.bind_some] at hrow hsecond
  obtain ⟨a, ha, hto⟩ := Option.map_eq_some_iff.mp hrow
  obtain ⟨b, hb, hpredecessor⟩ := Option.map_eq_some_iff.mp hsecond
  have hnone : ∀ (env : Env) (v : Store) (row : ParsedRow), row.parentLicenseRef = none
      → row.RenewsNone env.unicode v := fun env v row hrow => by
    refine .inr (.inr fun ref href => ?_)
    rw [hrow] at href
    cases href
  have hagree := renewalEnds_agree (.of_runAll .start (fun v step hm => ?_) hs)
  · exact ⟨s, a, b, hs, ha, hb, hto, hagree.reference 1 a 2 b ha hb (.inr hpredecessor)⟩
  · simp only [adoptedTerms, List.mem_cons, List.not_mem_nil, or_false] at hm
    rcases hm with rfl | rfl | rfl
    · exact ⟨trivial, fun _ => hnone _ v _ rfl⟩
    · exact ⟨trivial, fun _ => hnone _ v _ rfl⟩
    · exact ⟨trivial, trivial⟩

/-- An imported term that renews another one starts a reference of its own. -/
theorem renewalEnds_agree_imported
    : ¬ ∀ s, RenewalsReached (fun _ _ _ => True) s → RenewalEndsAgree s := by
  intro hclaim
  obtain ⟨s, hs⟩ : ∃ s, runAll ChainStep.run
      [importedOn 50 importedSubscription, importedOn 50 importedSuccessor] {} = some s :=
    Option.isSome_iff_exists.mp (by decide +kernel)
  have hfirst : (runAll ChainStep.run
      [importedOn 50 importedSubscription, importedOn 50 importedSuccessor] {}).bind (fun s =>
        (s.license? 1).map (·.licenseRef)) = some (some "LT-2026-00001") := by decide +kernel
  have hsecond : (runAll ChainStep.run
      [importedOn 50 importedSubscription, importedOn 50 importedSuccessor] {}).bind (fun s =>
        (s.license? 2).map (fun l => (l.predecessorId, l.licenseRef)))
      = some (some 1, some "LT-2026-00002") := by decide +kernel
  rw [hs, Option.bind_some] at hfirst hsecond
  obtain ⟨a, ha, hrefA⟩ := Option.map_eq_some_iff.mp hfirst
  obtain ⟨b, hb, he⟩ := Option.map_eq_some_iff.mp hsecond
  obtain ⟨hpredecessor, hrefB⟩ := Prod.mk.inj he
  have hreached : RenewalsReached (fun _ _ _ => True) s := by
    refine .of_runAll .start (fun v step hm => ?_) hs
    simp only [List.mem_cons, List.not_mem_nil, or_false] at hm
    rcases hm with rfl | rfl
    · exact ⟨trivial, trivial⟩
    · exact ⟨trivial, trivial⟩
  have hsame := (hclaim s hreached).reference 1 a 2 b ha hb (.inr hpredecessor)
  rw [hrefA, hrefB] at hsame
  exact absurd hsame (by decide)

end LicenseTrack
