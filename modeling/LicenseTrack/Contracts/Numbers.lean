import LicenseTrack.Conversion.LineEffect
import LicenseTrack.Library.Runs
import LicenseTrack.Services.Contracts

/-! A contract number names one contract, as long as SQLite and Python normalise alike the numbers
that are compared: SQLite lowers ASCII letters only, so that a number with any other capital letter
is not recognised when it is given a second time.
-/

namespace LicenseTrack

open Library

variable {u : Unicode} {s t : Store}

/-- Lowering a text that is not empty leaves a text that is not empty. -/
def Unicode.LowersToText (u : Unicode) : Prop := ∀ text, u.lower text = "" → text = ""

/-- No two contracts have the same number under Python's normaliser. -/
def Store.ContractsDistinct (u : Unicode) (s : Store) : Prop :=
  ∀ id id' contract contract',
    s.contracts.get? id = some contract → s.contracts.get? id' = some contract'
    → u.normalizeContractNumber contract.contractNumber
      = u.normalizeContractNumber contract'.contractNumber
    → id = id'

/-- SQLite's text functions normalise the contract's number as Python does. -/
def Contract.NormalisedAlike (u : Unicode) (contract : Contract) : Prop :=
  sqlContractNumber contract.contractNumber
    = u.normalizeContractNumber contract.contractNumber

instance (contract : Contract) : Decidable (contract.NormalisedAlike u) := by
  unfold Contract.NormalisedAlike
  infer_instance

/-- A number may be given to a contract, the excluded one itself if it has a row already: each other
contract that has the number is normalised alike by SQLite and by Python.
-/
def MayBeGiven (u : Unicode) (s : Store) (excluded : Option Nat) (contractNumber : String) : Prop :=
  ∀ other contract, s.contracts.get? other = some contract → excluded ≠ some other
    → u.normalizeContractNumber contract.contractNumber
      = u.normalizeContractNumber contractNumber
    → contract.NormalisedAlike u

/-- The requests that give a contract only such a number. -/
def GivesKnownNumber (u : Unicode) (s : Store) : ContractRequest → Prop
  | .create contractNumber _ => MayBeGiven u s none contractNumber
  | .update id (some contractNumber) _ => MayBeGiven u s (some id) contractNumber
  | .update _ none _ => True
  | .delete _ => True

theorem requireText_eq_ok {value text : String} (h : requireText value = .ok text)
    : isBlank value = false ∧ text = strip value := by
  simp only [requireText, bind_eq_ok, require_eq_ok, pure_eq_ok] at h
  obtain ⟨-, -, -, hblank, rfl⟩ := h
  exact ⟨hblank, rfl⟩

theorem normalizeContractNumber_requireText {value text : String} (h : requireText value = .ok text)
    : u.normalizeContractNumber (strip text) = u.normalizeContractNumber value := by
  obtain ⟨-, rfl⟩ := requireText_eq_ok h
  simp [Unicode.normalizeContractNumber, strip_strip]

theorem normalizeContractNumber_ne (hlower : u.LowersToText) {value text : String}
    (h : requireText value = .ok text)
    : u.normalizeContractNumber (strip text) ≠ "" := by
  rw [normalizeContractNumber_requireText h]
  exact fun he => strip_ne (requireText_eq_ok h).1 (hlower _ he)

theorem mem_findOtherContractsByNumber {contractNumber : String} {excluded : Option Nat}
    (hne : u.normalizeContractNumber contractNumber ≠ "") {other : Nat} {contract : Contract}
    (hc : s.contracts.get? other = some contract) (hother : excluded ≠ some other)
    (hn : sqlContractNumber contract.contractNumber = u.normalizeContractNumber contractNumber)
    : other ∈ findOtherContractsByNumber u s contractNumber excluded := by
  unfold findOtherContractsByNumber findContractsByNumber
  rw [if_neg hne]
  refine List.mem_filter.mpr ⟨Table.mem_select.mpr ⟨contract, hc, ?_⟩, ?_⟩
  · simpa [sqlContractNumber] using hn
  · simpa using hother

theorem assertUniqueContractNumber_free {contractNumber : String} {excluded : Option Nat}
    {ok : PUnit} (h : assertUniqueContractNumber u s contractNumber excluded = .ok ok)
    (hne : u.normalizeContractNumber contractNumber ≠ "")
    (hgiven : MayBeGiven u s excluded contractNumber) {other : Nat} {contract : Contract}
    (hc : s.contracts.get? other = some contract) (hother : excluded ≠ some other)
    : u.normalizeContractNumber contract.contractNumber
      ≠ u.normalizeContractNumber contractNumber := by
  intro hn
  have hfree : findOtherContractsByNumber u s contractNumber excluded = [] := require_eq_ok.mp h
  have hm := mem_findOtherContractsByNumber hne hc hother
    ((hgiven other contract hc hother hn).trans hn)
  rw [hfree] at hm
  cases hm

theorem MayBeGiven.congr {excluded : Option Nat} {contractNumber same : String}
    (h : MayBeGiven u s excluded contractNumber)
    (he : u.normalizeContractNumber same = u.normalizeContractNumber contractNumber)
    : MayBeGiven u s excluded same :=
  fun other contract hc hother hn => h other contract hc hother (hn.trans he)

-- Writes keep the numbers distinct

theorem Store.ContractsDistinct.write (h : s.ContractsDistinct u) (id : Nat) (contract : Contract)
    (hid : t.contracts.get? id = some contract)
    (hothers : ∀ other, other ≠ id → t.contracts.get? other = s.contracts.get? other)
    (hfree : ∀ other row, s.contracts.get? other = some row → other ≠ id →
      u.normalizeContractNumber row.contractNumber
        ≠ u.normalizeContractNumber contract.contractNumber)
    : t.ContractsDistinct u := by
  intro a b ca cb ha hb hn
  by_cases hia : a = id <;> by_cases hib : b = id
  · rw [hia, hib]
  · obtain rfl : contract = ca := Option.some.inj (hid.symm.trans (hia ▸ ha))
    exact absurd hn.symm (hfree b cb (hothers b hib ▸ hb) hib)
  · obtain rfl : contract = cb := Option.some.inj (hid.symm.trans (hib ▸ hb))
    exact absurd hn (hfree a ca (hothers a hia ▸ ha) hia)
  · exact h a b ca cb (hothers a hia ▸ ha) (hothers b hib ▸ hb) hn

theorem createContract_keeps (hlower : u.LowersToText) {contractNumber publisherName : String}
    {id : Nat} (h : createContract u contractNumber publisherName s = .ok (id, t))
    (hgiven : MayBeGiven u s none contractNumber) (hs : s.ContractsDistinct u)
    : t.ContractsDistinct u := by
  simp only [createContract, bind_eq_ok, pure_eq_ok, Prod.mk.injEq] at h
  obtain ⟨text, htext, publisher, -, ok, hunique, ⟨name, publisherId, v⟩, hpublisher, -, rfl⟩ := h
  have hv : v.contracts = s.contracts := by rw [resolveOrganization_only hpublisher]
  have hnumber := normalizeContractNumber_requireText (u := u) htext
  have hne := normalizeContractNumber_ne hlower htext
  have hinsert : ∀ row key, (v.contracts.insert row).get? key
      = if key = s.contracts.nextKey then some row else s.contracts.get? key := fun row key => by
    rw [hv, Table.get?_insert]
  refine hs.write s.contracts.nextKey _ ((hinsert _ _).trans (if_pos rfl)) ?_ ?_
  · exact fun other hother => (hinsert _ other).trans (if_neg hother)
  · intro other row hrow _
    exact assertUniqueContractNumber_free hunique hne (hgiven.congr hnumber) hrow (by simp)

theorem updatedContractNumber_free (hlower : u.LowersToText) {id : Nat} {contract : Contract}
    {given checked : Option String} {number : String}
    (hchecked : requireTextWhenSupplied given = .ok checked)
    (h : updatedContractNumber u s id contract checked = .ok number)
    (hgiven : ∀ value, given = some value → MayBeGiven u s (some id) value)
    (hs : s.ContractsDistinct u) (hc : s.contracts.get? id = some contract) {other : Nat}
    {row : Contract} (hrow : s.contracts.get? other = some row) (hother : other ≠ id)
    : u.normalizeContractNumber row.contractNumber ≠ u.normalizeContractNumber number := by
  cases given with
  | none =>
      obtain rfl : none = checked := pure_eq_ok.mp hchecked
      obtain rfl : contract.contractNumber = number := pure_eq_ok.mp h
      exact fun hn => hother (hs other id row contract hrow hc hn)
  | some value =>
      simp only [requireTextWhenSupplied, bind_eq_ok, pure_eq_ok] at hchecked
      obtain ⟨text, htext, rfl⟩ := hchecked
      have hnumber := normalizeContractNumber_requireText (u := u) htext
      have hne := normalizeContractNumber_ne hlower htext
      have hunique : ∃ ok, assertUniqueContractNumber u s (strip text) (some id) = .ok ok
          ∧ strip text = number := by
        simp only [updatedContractNumber] at h
        split at h
        all_goals
          simp only [bind_eq_ok, pure_eq_ok] at h
        · exact h
        · obtain ⟨-, -, h⟩ := h
          exact h
      obtain ⟨ok, hunique, rfl⟩ := hunique
      exact assertUniqueContractNumber_free hunique hne ((hgiven value rfl).congr hnumber) hrow
        (fun he => hother (Option.some.inj he).symm)

theorem updatedContractPublisher_only {contract updated : Contract} {publisherName : Option String}
    (h : updatedContractPublisher u contract s publisherName = .ok (updated, t))
    : updated.contractNumber = contract.contractNumber ∧ OnlyReferences s t := by
  cases publisherName with
  | none =>
      obtain ⟨rfl, rfl⟩ := Prod.mk.inj (pure_eq_ok.mp h)
      exact ⟨rfl, .refl s⟩
  | some publisherName =>
      simp only [updatedContractPublisher, bind_eq_ok, pure_eq_ok, Prod.mk.injEq] at h
      obtain ⟨⟨name, publisherId, v⟩, hr, rfl, rfl⟩ := h
      exact ⟨rfl, resolveOrganization_only hr⟩

theorem updateContract_keeps (hlower : u.LowersToText) {id : Nat}
    {contractNumber publisherName : Option String}
    (h : updateContract u id contractNumber publisherName s = .ok t)
    (hgiven : ∀ value, contractNumber = some value → MayBeGiven u s (some id) value)
    (hs : s.ContractsDistinct u)
    : t.ContractsDistinct u := by
  simp only [updateContract, bind_eq_ok, found_eq_ok] at h
  obtain ⟨checked, hchecked, publisher, -, contract, hc, number, hnumber, ⟨updated, v⟩, hupdated,
    h⟩ := h
  obtain ⟨hu, hv⟩ := updatedContractPublisher_only hupdated
  have hcontracts : v.contracts = s.contracts := by rw [hv]
  have ht : t.contracts = s.contracts.modify id (fun _ => updated) := by
    split at h <;> rw [← pure_eq_ok.mp h, ← hcontracts]
    rfl
  refine hs.write id updated ?_ ?_ ?_
  · rw [ht, Table.get?_modify_self, hc]
    rfl
  · intro other hother
    rw [ht, Table.get?_modify_ne _ _ hother]
  · intro other row hrow hother
    rw [hu]
    exact updatedContractNumber_free hlower hchecked hnumber hgiven hs hc hrow hother

theorem deleteContract_keeps {id : Nat} (h : deleteContract id s = .ok t)
    (hs : s.ContractsDistinct u)
    : t.ContractsDistinct u := by
  simp only [deleteContract, bind_eq_ok, found_eq_ok, pure_eq_ok] at h
  obtain ⟨-, -, rfl⟩ := h
  intro a b ca cb ha hb hn
  have hkept : ∀ key row,
      (s.contracts.filter (fun key _ => key != id)).get? key = some row
      → s.contracts.get? key = some row := fun key row hr => by
    rw [Table.get?_filter, Option.filter_eq_some_iff] at hr
    exact hr.1
  exact hs a b ca cb (hkept a ca ha) (hkept b cb hb) hn

theorem runContractRequest_keeps (hlower : u.LowersToText) {request : ContractRequest}
    (h : runContractRequest u request s = .ok t) (hgiven : GivesKnownNumber u s request)
    (hs : s.ContractsDistinct u)
    : t.ContractsDistinct u := by
  cases request with
  | create contractNumber publisherName =>
      simp only [runContractRequest, bind_eq_ok, pure_eq_ok] at h
      obtain ⟨⟨id, v⟩, hr, rfl⟩ := h
      exact createContract_keeps hlower hr hgiven hs
  | update id contractNumber publisherName =>
      refine updateContract_keeps hlower h (fun value hv => ?_) hs
      subst hv
      exact hgiven
  | delete id => exact deleteContract_keeps h hs

theorem Store.ContractsDistinct.match_unique (h : s.ContractsDistinct u) {id id' : Nat}
    {contract contract' : Contract} (hc : s.contracts.get? id = some contract)
    (hc' : s.contracts.get? id' = some contract') {l : License}
    (hl : licenseContractMatch u s id contract l = true)
    (hl' : licenseContractMatch u s id' contract' l = true)
    : id = id' := by
  simp only [licenseContractMatch, Bool.or_eq_true, Bool.and_eq_true, beq_iff_eq] at hl hl'
  rcases hlink : l.contractId with _ | linked
  · simp only [hlink, reduceCtorEq, false_or] at hl hl'
    exact h id id' contract contract' hc hc' (hl.1.2.symm.trans hl'.1.2)
  · simp only [hlink, Option.isNone_some, Bool.false_eq_true, false_and, or_false,
      Option.some.injEq] at hl hl'
    exact hl.symm.trans hl'

/-- No licence without a link names a contract whose number SQLite and Python normalise
differently.
-/
def Store.FallbackNormalisedAlike (u : Unicode) (s : Store) : Prop :=
  ∀ id contract licenseId l, s.contracts.get? id = some contract → s.license? licenseId = some l
    → l.contractId = none
    → sqlContractNumber l.contractNumber = u.normalizeContractNumber contract.contractNumber
    → contract.NormalisedAlike u

theorem visibleContract_of_canView {access : List UserDepartmentAccess} {user : Actor}
    (hfallback : s.FallbackNormalisedAlike u) {id : Nat} {contract : Contract}
    (hc : s.contracts.get? id = some contract) {departments : List Nat}
    (hscope : getUserDepartmentsForScope access user = some departments)
    (h : canViewContract u access user s id contract = true)
    : visibleContract s departments id contract = true := by
  simp only [canViewContract, hscope] at h
  split at h
  · cases h
  simp only [Bool.and_eq_true, Bool.not_eq_true', List.isEmpty_eq_false_iff] at h
  obtain ⟨hlinked, hall⟩ := h
  obtain ⟨⟨licenseId, l⟩, hm⟩ := List.exists_mem_of_ne_nil _ hlinked
  have hdepartment : l.inDepartments departments = true := List.all_eq_true.mp hall _ hm
  obtain ⟨hentry, hmatch⟩ := List.mem_filter.mp hm
  simp only [licenseContractMatch, Bool.or_eq_true, Bool.and_eq_true, beq_iff_eq] at hmatch
  simp only [visibleContract, Bool.or_eq_true, Bool.and_eq_true, List.contains_iff_mem]
  rcases hmatch with hlink | ⟨⟨hnone, hnumber⟩, hunambiguous⟩
  · left
    exact List.mem_filterMap.mpr ⟨(licenseId, l), List.mem_filter.mpr ⟨hentry, hdepartment⟩, hlink⟩
  · right
    have halike := hfallback id contract licenseId l hc (Table.get?_eq_some.mpr hentry)
      (Option.isNone_iff_eq_none.mp hnone) hnumber
    refine ⟨List.mem_map.mpr ⟨(licenseId, l), List.mem_filter.mpr ⟨hentry, ?_⟩, ?_⟩, hunambiguous⟩
    · simp only [hnone, hdepartment, Bool.and_self]
    · exact hnumber.trans halike.symm

theorem getContract_eq_ok {access : List UserDepartmentAccess} {user : Actor} {id : Nat}
    {row : Nat × Contract}
    : getContract u access user id s = .ok row
      ↔ row.1 = id ∧ row ∈ s.contracts.entries
        ∧ canViewContract u access user s row.1 row.2 = true := by
  obtain ⟨key, contract⟩ := row
  simp only [getContract, bind_eq_ok, found_eq_ok, require_eq_ok, pure_eq_ok, Prod.mk.injEq,
    ← Table.get?_eq_some]
  constructor
  · rintro ⟨c, hc, -, hview, rfl, rfl⟩
    exact ⟨rfl, hc, hview⟩
  · rintro ⟨rfl, hc, hview⟩
    exact ⟨contract, hc, ⟨⟩, hview, rfl, rfl⟩

theorem mem_listContracts {access : List UserDepartmentAccess} {user : Actor}
    (hfallback : s.FallbackNormalisedAlike u) {row : Nat × Contract}
    : row ∈ listContracts u access user none 0 s
      ↔ row ∈ s.contracts.entries ∧ canViewContract u access user s row.1 row.2 = true := by
  simp only [listContracts, pageOf, List.drop_zero]
  split
  · next hrole =>
      have hscope : getUserDepartmentsForScope access user
          = some (getViewerDepartments access user.id) := if_pos hrole
      split
      · next hempty =>
          have hview : canViewContract u access user s row.1 row.2 = false := by
            simp [canViewContract, hscope, hempty]
          simp [hview]
      · simp only [List.mem_filter, List.mem_insertionSort]
        constructor
        · exact fun ⟨⟨hm, _⟩, hview⟩ => ⟨hm, hview⟩
        · intro ⟨hm, hview⟩
          have hc := Table.get?_eq_some.mpr (show (row.1, row.2) ∈ s.contracts.entries from hm)
          exact ⟨⟨hm, visibleContract_of_canView hfallback hc hscope hview⟩, hview⟩
  · next hrole =>
      have hscope : getUserDepartmentsForScope access user = none := if_neg hrole
      simp [canViewContract, hscope, List.mem_insertionSort]

-- Runs

/-- In every state reached by requests that give no contract a number that a differently
normalised one has, the numbers are distinct, a licence is under one contract at most, and the list
shows each user exactly the contracts that the user may read, unless a licence without a link names
a differently normalised contract.
-/
theorem contractNumber_namesOne (u : Unicode) (hlower : u.LowersToText) (start : Store)
    (hstart : start.ContractsDistinct u) (s : Store)
    (h : Reachable (runContractRequest u) (GivesKnownNumber u) start s)
    : s.ContractsDistinct u
      ∧ (∀ l id id' contract contract',
        s.contracts.get? id = some contract → s.contracts.get? id' = some contract'
        → licenseContractMatch u s id contract l = true
        → licenseContractMatch u s id' contract' l = true
        → id = id')
      ∧ (s.FallbackNormalisedAlike u →
        ∀ access user row,
          row ∈ listContracts u access user none 0 s
            ↔ getContract u access user row.1 s = .ok row) := by
  have hdistinct : s.ContractsDistinct u :=
    h.invariant hstart fun _ _ _ hs hgiven ran => runContractRequest_keeps hlower ran hgiven hs
  refine ⟨hdistinct, fun l id id' _ _ hc hc' hl hl' => hdistinct.match_unique hc hc' hl hl', ?_⟩
  intro hfallback access user row
  rw [mem_listContracts hfallback, getContract_eq_ok]
  simp

/-- Tables that know one letter more than ASCII. -/
def Unicode.withUmlaut : Unicode :=
  { Unicode.ascii with
    lower := fun text =>
      String.ofList (text.toList.map fun c => if c = 'Ä' then 'ä' else c.toLower) }

/-- A store with one licence, of the number in small letters and of the first cost centre, that is
linked to no contract.
-/
def unlinkedLicense : Store where
  licenses := Table.empty.insert
    { License.ofTerm .subscription none none with contractNumber := "ä1", costCentreId := some 1 }

/-- The first contract of the first publisher. -/
def acmeContract (contractNumber : String) : Contract where
  contractNumber := contractNumber
  publisherName := "Acme"
  publisherId := some 1

theorem reachable_of_any {start : Store} {requests : List ContractRequest} {p : Store → Bool}
    (h : (runAll (runContractRequest u) requests start).any p = true)
    : ∃ s, Reachable (runContractRequest u) (fun _ _ => True) start s ∧ p s = true := by
  obtain ⟨s, hs, hp⟩ := (Option.any_eq_true _ _).mp h
  exact ⟨s, Reachable.of_runAll .start (fun _ _ _ => trivial) hs, hp⟩

/-- The number `Ä1` can be given to two contracts. After the first of them, a viewer may read the
contract by its key but does not find it in the list.
-/
theorem contractNumber_givenTwice
    : (∃ s, Reachable (runContractRequest .withUmlaut) (fun _ _ => True) {} s
        ∧ ¬ s.ContractsDistinct .withUmlaut)
      ∧ ∃ s row, Reachable (runContractRequest .withUmlaut) (fun _ _ => True) unlinkedLicense s
        ∧ getContract .withUmlaut [⟨7, some 1⟩] ⟨7, .viewer⟩ row.1 s = .ok row
        ∧ row ∉ listContracts .withUmlaut [⟨7, some 1⟩] ⟨7, .viewer⟩ none 0 s := by
  let row := acmeContract "Ä1"
  constructor
  · have hrun : (runAll (runContractRequest .withUmlaut)
        [.create "Ä1" "Acme", .create "Ä1" "Acme"] {}).any (fun s =>
          decide (s.contracts.get? 1 = some row ∧ s.contracts.get? 2 = some row)) = true := by
      decide +kernel
    obtain ⟨s, hs, hrows⟩ := reachable_of_any hrun
    obtain ⟨hfirst, hsecond⟩ := of_decide_eq_true hrows
    refine ⟨s, hs, fun hdistinct => ?_⟩
    have := hdistinct 1 2 row row hfirst hsecond rfl
    omega
  · have hrun : (runAll (runContractRequest .withUmlaut) [.create "Ä1" "Acme"]
        unlinkedLicense).any (fun s => decide
          (getContract .withUmlaut [⟨7, some 1⟩] ⟨7, .viewer⟩ 1 s = .ok (1, row)
            ∧ (1, row) ∉ listContracts .withUmlaut [⟨7, some 1⟩] ⟨7, .viewer⟩ none 0 s))
        = true := by
      decide +kernel
    obtain ⟨s, hs, hrows⟩ := reachable_of_any hrun
    exact ⟨s, (1, row), hs, of_decide_eq_true hrows⟩

/-- A contract created in an empty store, with another of the same number in other letters refused,
and read by a viewer of its licence.
-/
theorem contractNumber_namesOne_created
    : ∃ s, s.contracts.get? 1 = some (acmeContract "C1")
      ∧ (runContractRequest .withUmlaut (.create "c1 " "Acme") s).isOk = false
      ∧ s.ContractsDistinct .withUmlaut := by
  have hrun : ((runContractRequest .withUmlaut (.create "C1" "Acme") {}).toOption.any (fun s =>
      decide (s.contracts.get? 1 = some (acmeContract "C1")
        ∧ (runContractRequest .withUmlaut (.create "c1 " "Acme") s).isOk = false))) = true := by
    decide +kernel
  obtain ⟨s, hs, hfacts⟩ := (Option.any_eq_true _ _).mp hrun
  obtain ⟨hrow, hrefused⟩ := of_decide_eq_true hfacts
  have hran : runContractRequest .withUmlaut (.create "C1" "Acme") {} = .ok s := by
    cases hr : runContractRequest .withUmlaut (.create "C1" "Acme") {} with
    | error => simp [hr, Except.toOption] at hs
    | ok => simpa [hr, Except.toOption] using hs
  have hlower : Unicode.withUmlaut.LowersToText := fun text h => by
    simpa [Unicode.withUmlaut] using h
  have hnone : ∀ id contract, (Table.empty : Table Contract).get? id ≠ some contract := by simp
  refine ⟨s, hrow, hrefused, (contractNumber_namesOne .withUmlaut hlower {} ?_ s ?_).1⟩
  · exact fun id _ contract _ h => absurd h (hnone id contract)
  · refine .step (.create "C1" "Acme") .start ?_ hran
    exact fun other contract h => absurd h (hnone other contract)

end LicenseTrack
