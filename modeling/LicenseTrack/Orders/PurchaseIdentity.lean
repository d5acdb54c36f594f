import LicenseTrack.Money.NumberParsers
import LicenseTrack.Services.PoTotalOverride

/-! Which licences are one purchase: for a licence of its own, in a query over all licences, and in
the browser.
-/

namespace LicenseTrack

open Library

variable {u : Unicode}

/-- `_license_identity`: the key of a licence of its own. -/
def licenseIdentity (u : Unicode) (id : Nat) (l : License) : Option (ProcurementIdentity × String) :=
  procurementIdentityKey u (some id) l.pendingOrderId l.procurementBundleId l.poNumber l.currency

/-- `_identity_filter`: without a key there is no condition, and no licence is looked up. -/
def identityFilter (u : Unicode) (licenseId pendingOrderId : Option Nat) (bundleId : Option String)
    (poNumber currency : String)
    : Option (Nat → License → Bool) :=
  (procurementIdentityKey u licenseId pendingOrderId bundleId poNumber currency).map
    (matchesIdentity u)

/-- `normalizeProcurementPoNumber` in the browser. Between the words of a trimmed text there is a
single space; small letters are those of the Unicode database, as in Python.
-/
def Unicode.normalizeProcurementPoNumber (u : Unicode) (value : String) : String :=
  u.lower (String.ofList ([' '].intercalate (words jsSpace (trim jsSpace value.toList))))

/-- `normalizeProcurementCurrency` in the browser. -/
def Unicode.normalizeProcurementCurrency (u : Unicode) (value : String) : String :=
  u.upper (String.ofList (trim jsSpace value.toList))

/-- `procurementIdentityKey` in the browser. -/
def browserIdentityKey (u : Unicode) (id : Nat) (l : License)
    : Option (ProcurementIdentity × String) :=
  let currency := u.normalizeProcurementCurrency l.currency
  if currency = "" then none
  else match l.pendingOrderId with
    | some order => some (.pendingOrder order, currency)
    | none =>
        if l.procurementBundleId.getD "" ≠ "" then
          some (.bundle (l.procurementBundleId.getD ""), currency)
        else
          let poNumber := u.normalizeProcurementPoNumber l.poNumber
          if poNumber ≠ "" then some (.poNumber poNumber, currency) else some (.unkeyed id, currency)

/-- What a licence was bought with, its PO number being normalised. -/
def identityOf (poNumber : String) (id : Nat) (l : License) : ProcurementIdentity :=
  match l.pendingOrderId with
  | some order => .pendingOrder order
  | none =>
      if l.procurementBundleId.getD "" ≠ "" then .bundle (l.procurementBundleId.getD "")
      else if poNumber ≠ "" then .poNumber poNumber
      else .unkeyed id

/-- The key of a licence, its texts being normalised. -/
def keyOf (poNumber currency : String) (id : Nat) (l : License)
    : Option (ProcurementIdentity × String) :=
  if currency = "" then none else some (identityOf poNumber id l, currency)

theorem licenseIdentity_eq (u : Unicode) (id : Nat) (l : License)
    : licenseIdentity u id l
      = keyOf (u.normalizePoNumber l.poNumber) (u.normalizeCurrency l.currency) id l := by
  unfold licenseIdentity procurementIdentityKey keyOf identityOf
  cases l.pendingOrderId with
  | some order => rfl
  | none =>
      dsimp only
      split_ifs <;> rfl

theorem browserIdentityKey_eq (u : Unicode) (id : Nat) (l : License)
    : browserIdentityKey u id l
      = keyOf (u.normalizeProcurementPoNumber l.poNumber)
          (u.normalizeProcurementCurrency l.currency) id l := by
  unfold browserIdentityKey keyOf identityOf
  cases l.pendingOrderId with
  | some order => rfl
  | none =>
      dsimp only
      split_ifs <;> rfl

theorem keyOf_eq_some {poNumber currency : String} {id : Nat} {l : License}
    {key : ProcurementIdentity × String}
    : keyOf poNumber currency id l = some key
      ↔ currency ≠ "" ∧ currency = key.2 ∧ identityOf poNumber id l = key.1 := by
  obtain ⟨identity, c⟩ := key
  unfold keyOf
  split_ifs with hblank
  · simp [hblank]
  · simp [hblank, and_comm]

/-- The licences of a purchase under a normalisation of PO numbers: the same order, else the same
bundle, else the same PO number, else the same licence.
-/
def SamePurchase (normalize : String → String) (id : Nat) (l : License) (id' : Nat) (l' : License)
    : Prop :=
  l.pendingOrderId = l'.pendingOrderId
  ∧ (l.pendingOrderId = none →
    l.procurementBundleId.getD "" = l'.procurementBundleId.getD ""
    ∧ (l.procurementBundleId.getD "" = "" →
      normalize l.poNumber = normalize l'.poNumber ∧ (normalize l.poNumber = "" → id = id')))

theorem identityOf_eq_iff {normalize : String → String} {id id' : Nat} {l l' : License}
    : identityOf (normalize l.poNumber) id l = identityOf (normalize l'.poNumber) id' l'
      ↔ SamePurchase normalize id l id' l' := by
  unfold identityOf SamePurchase
  rcases l.pendingOrderId with _ | order <;> rcases l'.pendingOrderId with _ | order'
  · generalize l.procurementBundleId.getD "" = bundle, l'.procurementBundleId.getD "" = bundle',
      normalize l.poNumber = po, normalize l'.poNumber = po'
    dsimp only
    split_ifs <;> grind
  · dsimp only
    split_ifs <;> simp
  · dsimp only
    split_ifs <;> simp
  · simp

theorem keyOf_eq_iff {normalize : String → String} {currency currency' : String} {id id' : Nat}
    {l l' : License}
    : keyOf (normalize l.poNumber) currency id l = keyOf (normalize l'.poNumber) currency' id' l'
      ↔ currency = currency' ∧ (currency = "" ∨ SamePurchase normalize id l id' l') := by
  rw [← identityOf_eq_iff]
  unfold keyOf
  split_ifs with hblank hblank' hblank'
  · simp [hblank, hblank']
  · simp [hblank, Ne.symm hblank']
  · simp [hblank', hblank]
  · simp [hblank, and_comm]

-- Rows of a query

/-- The licences that the query and their own keys agree to be of a purchase, but for currencies. -/
def InPurchase (u : Unicode) (id : Nat) (l : License) : ProcurementIdentity → Prop
  | .pendingOrder order => l.pendingOrderId = some order
  | .bundle bundle => l.pendingOrderId = none ∧ l.procurementBundleId = some bundle
  | .poNumber poNumber =>
      l.pendingOrderId = none ∧ l.procurementBundleId = none ∧ u.normalizePoNumber l.poNumber = poNumber
  | .unkeyed licenseId =>
      id = licenseId ∧ l.pendingOrderId = none ∧ l.procurementBundleId.getD "" = ""
        ∧ u.normalizePoNumber l.poNumber = ""

/-- The licences of which the query and their own key do not agree. -/
inductive StrayRow (u : Unicode) (id : Nat) (l : License) : ProcurementIdentity × String → Prop
  /-- A licence of the purchase whose currency is the key's in one of the languages. -/
  | currency {identity : ProcurementIdentity} {currency : String} (h : InPurchase u id l identity)
    (hcurrency : ¬(sqlUpper (sqlTrim l.currency) = currency ↔ u.normalizeCurrency l.currency = currency))
    : StrayRow u id l (identity, currency)
  /-- A licence of the bundle that came from an order. -/
  | ordered {bundle currency : String} (hbundle : l.procurementBundleId = some bundle)
    (horder : l.pendingOrderId ≠ none) (hcurrency : sqlUpper (sqlTrim l.currency) = currency)
    : StrayRow u id l (.bundle bundle, currency)
  /-- A licence looked up by its row, which is of a larger purchase. -/
  | keyed {currency : String}
    (hpurchase : ¬InPurchase u id l (.unkeyed id))
    (hcurrency : sqlUpper (sqlTrim l.currency) = currency)
    : StrayRow u id l (.unkeyed id, currency)
  /-- A licence of the PO number with an empty text for its bundle. -/
  | emptyBundle {poNumber currency : String} (horder : l.pendingOrderId = none)
    (hbundle : l.procurementBundleId = some "") (hnumber : u.normalizePoNumber l.poNumber = poNumber)
    (hcurrency : u.normalizeCurrency l.currency = currency)
    : StrayRow u id l (.poNumber poNumber, currency)

/-- A key has no empty parts. -/
structure FilledKey (key : ProcurementIdentity × String) : Prop where
  currency : key.2 ≠ ""
  bundle : key.1 ≠ .bundle ""
  poNumber : key.1 ≠ .poNumber ""

theorem procurementIdentityKey_filled {licenseId pendingOrderId : Option Nat}
    {bundleId : Option String} {poNumber currency : String} {key : ProcurementIdentity × String}
    (h : procurementIdentityKey u licenseId pendingOrderId bundleId poNumber currency = some key)
    : FilledKey key := by
  unfold procurementIdentityKey at h
  dsimp only at h
  split at h
  · cases h
  next hblank =>
  cases pendingOrderId with
  | some order =>
      cases h
      exact ⟨hblank, ProcurementIdentity.noConfusion, ProcurementIdentity.noConfusion⟩
  | none =>
      dsimp only at h
      split_ifs at h with hbundle hnumber
      · cases h
        exact ⟨hblank, fun he => hbundle (ProcurementIdentity.bundle.inj he),
          ProcurementIdentity.noConfusion⟩
      · cases h
        exact ⟨hblank, ProcurementIdentity.noConfusion,
          fun he => hnumber (ProcurementIdentity.poNumber.inj he)⟩
      · obtain ⟨row, -, rfl⟩ := Option.map_eq_some_iff.mp h
        exact ⟨hblank, ProcurementIdentity.noConfusion, ProcurementIdentity.noConfusion⟩

theorem licenseIdentity_eq_some {key : ProcurementIdentity × String} (hfilled : FilledKey key)
    {id : Nat} {l : License}
    : licenseIdentity u id l = some key
      ↔ u.normalizeCurrency l.currency = key.2
        ∧ (InPurchase u id l key.1
          ∨ ∃ poNumber, key.1 = .poNumber poNumber ∧ l.pendingOrderId = none
            ∧ l.procurementBundleId = some "" ∧ u.normalizePoNumber l.poNumber = poNumber) := by
  obtain ⟨hcurrency, hbundle, hnumber⟩ := hfilled
  obtain ⟨identity, currency⟩ := key
  have hkey : ∀ p : Prop, (u.normalizeCurrency l.currency ≠ ""
      ∧ u.normalizeCurrency l.currency = currency ∧ p)
      ↔ u.normalizeCurrency l.currency = currency ∧ p := fun p =>
    ⟨fun h => h.2, fun h => ⟨h.1 ▸ hcurrency, h⟩⟩
  rw [licenseIdentity_eq, keyOf_eq_some, hkey]
  refine and_congr_right fun _ => ?_
  unfold identityOf
  dsimp only at hbundle hnumber ⊢
  rcases horder : l.pendingOrderId with _ | order
  · rcases hrow : l.procurementBundleId with _ | bundle
    · cases identity <;> simp [InPurchase, horder, hrow] <;> grind
    · cases identity <;> simp [InPurchase, horder, hrow] <;> grind
  · cases identity <;> simp [InPurchase, horder]

theorem matchesIdentity_iff {key : ProcurementIdentity × String} {id : Nat} {l : License}
    : matchesIdentity u key id l = true
      ↔ sqlUpper (sqlTrim l.currency) = key.2
        ∧ (InPurchase u id l key.1
          ∨ (∃ bundle, key.1 = .bundle bundle ∧ l.procurementBundleId = some bundle
            ∧ l.pendingOrderId ≠ none)
          ∨ (key.1 = .unkeyed id ∧ ¬InPurchase u id l (.unkeyed id))) := by
  obtain ⟨identity, currency⟩ := key
  simp only [matchesIdentity, Bool.and_eq_true, beq_iff_eq]
  refine and_congr_right fun _ => ?_
  cases identity with
  | pendingOrder order => simp [InPurchase]
  | bundle bundle =>
      by_cases horder : l.pendingOrderId = none <;> simp [InPurchase, horder]
  | poNumber poNumber =>
      simp only [Bool.and_eq_true, beq_iff_eq, Option.isNone_iff_eq_none, InPurchase, reduceCtorEq,
        false_and, exists_false, or_false]
      exact ⟨fun h => ⟨h.1.2, h.2, h.1.1⟩, fun h => ⟨⟨h.2.2, h.1⟩, h.2.1⟩⟩
  | unkeyed row =>
      simp only [beq_iff_eq, InPurchase, reduceCtorEq, false_and, exists_false, false_or,
        ProcurementIdentity.unkeyed.injEq, true_and]
      constructor
      · rintro rfl
        simp only [true_and]
        exact em _
      · rintro (h | h)
        · exact h.1
        · exact h.1.symm

theorem matchesIdentity_own_iff {key : ProcurementIdentity × String} (hfilled : FilledKey key)
    {id : Nat} {l : License}
    : (matchesIdentity u key id l = true ↔ licenseIdentity u id l = some key)
      ↔ ¬StrayRow u id l key := by
  rw [matchesIdentity_iff, licenseIdentity_eq_some hfilled]
  obtain ⟨identity, currency⟩ := key
  dsimp only
  constructor
  · intro hagree hstray
    cases hstray with
    | currency h hcurrency => exact hcurrency ((and_iff_left (.inl h)).symm.trans
        (hagree.trans (and_iff_left (.inl h))))
    | ordered hbundle horder hcurrency =>
        obtain ⟨-, h | ⟨poNumber, h, -⟩⟩ := hagree.mp ⟨hcurrency, .inr (.inl ⟨_, rfl, hbundle, horder⟩)⟩
        · exact horder h.1
        · cases h
    | keyed hpurchase hcurrency =>
        obtain ⟨-, h | ⟨poNumber, h, -⟩⟩ := hagree.mp ⟨hcurrency, .inr (.inr ⟨rfl, hpurchase⟩)⟩
        · exact hpurchase h
        · cases h
    | emptyBundle horder hbundle hnumber hcurrency =>
        obtain ⟨-, h | ⟨bundle, h, -⟩ | ⟨h, -⟩⟩ :=
          hagree.mpr ⟨hcurrency, .inr ⟨_, rfl, horder, hbundle, hnumber⟩⟩
        · rw [h.2.1] at hbundle
          cases hbundle
        · cases h
        · cases h
  · intro hstray
    have hcurrency : InPurchase u id l identity → (sqlUpper (sqlTrim l.currency) = currency
        ↔ u.normalizeCurrency l.currency = currency) :=
      fun h => by_contra fun hnot => hstray (.currency h hnot)
    constructor
    · rintro ⟨hsql, h | ⟨bundle, rfl, hbundle, horder⟩ | ⟨rfl, hpurchase⟩⟩
      · exact ⟨(hcurrency h).mp hsql, .inl h⟩
      · exact absurd (.ordered hbundle horder hsql) hstray
      · exact absurd (.keyed hpurchase hsql) hstray
    · rintro ⟨hpython, h | ⟨poNumber, rfl, horder, hbundle, hnumber⟩⟩
      · exact ⟨(hcurrency h).mpr hpython, .inl h⟩
      · exact absurd (.emptyBundle horder hbundle hnumber hpython) hstray

-- Two licences in two languages

/-- Two licences that the backend and the browser do not both take for one purchase. Where the
currency is blank in a language, there is no purchase in it.
-/
inductive ToldApart (u : Unicode) (id : Nat) (l : License) (id' : Nat) (l' : License) : Prop
  /-- Licences of one purchase, whose currencies are the same in one of the languages. -/
  | currency (hbackend : SamePurchase u.normalizePoNumber id l id' l')
    (hbrowser : SamePurchase u.normalizeProcurementPoNumber id l id' l')
    (h : ¬(u.normalizeCurrency l.currency = u.normalizeCurrency l'.currency
      ↔ u.normalizeProcurementCurrency l.currency = u.normalizeProcurementCurrency l'.currency))
  /-- Licences of two purchases, without a currency in one of the languages. -/
  | blank (hbackend : ¬SamePurchase u.normalizePoNumber id l id' l')
    (hbrowser : ¬SamePurchase u.normalizeProcurementPoNumber id l id' l')
    (h : ¬((u.normalizeCurrency l.currency = "" ∧ u.normalizeCurrency l'.currency = "")
      ↔ u.normalizeProcurementCurrency l.currency = ""
        ∧ u.normalizeProcurementCurrency l'.currency = ""))
  /-- Licences whose PO numbers are the same in the backend only. -/
  | folded (hbackend : SamePurchase u.normalizePoNumber id l id' l')
    (hbrowser : ¬SamePurchase u.normalizeProcurementPoNumber id l id' l')
    (h : ¬(u.normalizeCurrency l.currency = u.normalizeCurrency l'.currency
      ↔ u.normalizeProcurementCurrency l.currency = ""
        ∧ u.normalizeProcurementCurrency l'.currency = ""))
  /-- Licences whose PO numbers are the same in the browser only. -/
  | lowered (hbackend : ¬SamePurchase u.normalizePoNumber id l id' l')
    (hbrowser : SamePurchase u.normalizeProcurementPoNumber id l id' l')
    (h : ¬((u.normalizeCurrency l.currency = "" ∧ u.normalizeCurrency l'.currency = "")
      ↔ u.normalizeProcurementCurrency l.currency = u.normalizeProcurementCurrency l'.currency))

theorem keyOf_eq_of_same {normalize : String → String} {currency currency' : String} {id id' : Nat}
    {l l' : License} (h : SamePurchase normalize id l id' l')
    : keyOf (normalize l.poNumber) currency id l = keyOf (normalize l'.poNumber) currency' id' l'
      ↔ currency = currency' := by
  rw [keyOf_eq_iff]
  exact and_iff_left (.inr h)

theorem keyOf_eq_of_not_same {normalize : String → String} {currency currency' : String}
    {id id' : Nat} {l l' : License} (h : ¬SamePurchase normalize id l id' l')
    : keyOf (normalize l.poNumber) currency id l = keyOf (normalize l'.poNumber) currency' id' l'
      ↔ currency = "" ∧ currency' = "" := by
  rw [keyOf_eq_iff, or_iff_left h]
  exact ⟨fun he => ⟨he.2, he.1 ▸ he.2⟩, fun he => ⟨he.1.trans he.2.symm, he.1⟩⟩

theorem keys_alike_iff {id id' : Nat} {l l' : License}
    : (licenseIdentity u id l = licenseIdentity u id' l'
        ↔ browserIdentityKey u id l = browserIdentityKey u id' l')
      ↔ ¬ToldApart u id l id' l' := by
  rw [licenseIdentity_eq, licenseIdentity_eq, browserIdentityKey_eq, browserIdentityKey_eq]
  by_cases hbackend : SamePurchase u.normalizePoNumber id l id' l'
  · rw [keyOf_eq_of_same hbackend]
    by_cases hbrowser : SamePurchase u.normalizeProcurementPoNumber id l id' l'
    · rw [keyOf_eq_of_same hbrowser]
      refine ⟨fun h => ?_, fun hapart => by_contra fun h => hapart (.currency hbackend hbrowser h)⟩
      rintro (⟨-, -, hnot⟩ | ⟨hp, -, -⟩ | ⟨-, hb, -⟩ | ⟨hp, -, -⟩)
      exacts [hnot h, hp hbackend, hb hbrowser, hp hbackend]
    · rw [keyOf_eq_of_not_same hbrowser]
      refine ⟨fun h => ?_, fun hapart => by_contra fun h => hapart (.folded hbackend hbrowser h)⟩
      rintro (⟨-, hb, -⟩ | ⟨hp, -, -⟩ | ⟨-, -, hnot⟩ | ⟨hp, -, -⟩)
      exacts [hbrowser hb, hp hbackend, hnot h, hp hbackend]
  · rw [keyOf_eq_of_not_same hbackend]
    by_cases hbrowser : SamePurchase u.normalizeProcurementPoNumber id l id' l'
    · rw [keyOf_eq_of_same hbrowser]
      refine ⟨fun h => ?_, fun hapart => by_contra fun h => hapart (.lowered hbackend hbrowser h)⟩
      rintro (⟨hp, -, -⟩ | ⟨-, hb, -⟩ | ⟨hp, -, -⟩ | ⟨-, -, hnot⟩)
      exacts [hbackend hp, hb hbrowser, hbackend hp, hnot h]
    · rw [keyOf_eq_of_not_same hbrowser]
      refine ⟨fun h => ?_, fun hapart => by_contra fun h => hapart (.blank hbackend hbrowser h)⟩
      rintro (⟨hp, -, -⟩ | ⟨-, -, hnot⟩ | ⟨hp, -, -⟩ | ⟨-, hb, -⟩)
      exacts [hbackend hp, hnot h, hbackend hp, hbrowser hb]

/-- The three definitions give one group exactly where a table has no stray row and two licences are
not told apart.
-/
theorem purchaseIdentity_oneGroup (u : Unicode)
    : (∀ (s : Store) (licenseId pendingOrderId : Option Nat) (bundleId : Option String)
        (poNumber currency : String) (key : ProcurementIdentity × String),
        procurementIdentityKey u licenseId pendingOrderId bundleId poNumber currency = some key →
        ∃ selects, identityFilter u licenseId pendingOrderId bundleId poNumber currency = some selects
          ∧ ((∀ id l, s.license? id = some l →
              (selects id l = true ↔ licenseIdentity u id l = some key))
            ↔ ∀ id l, s.license? id = some l → ¬StrayRow u id l key))
      ∧ ∀ (id : Nat) (l : License) (id' : Nat) (l' : License),
        (licenseIdentity u id l = licenseIdentity u id' l'
          ↔ browserIdentityKey u id l = browserIdentityKey u id' l')
        ↔ ¬ToldApart u id l id' l' := by
  refine ⟨fun s licenseId pendingOrderId bundleId poNumber currency key hkey => ?_,
    fun _ _ _ _ => keys_alike_iff⟩
  have hfilled := procurementIdentityKey_filled hkey
  refine ⟨matchesIdentity u key, ?_, forall₃_congr fun _ _ _ => matchesIdentity_own_iff hfilled⟩
  rw [identityFilter, hkey, Option.map_some]

/-- A licence of a PO number. -/
def License.onPo (poNumber currency : String) : License :=
  { License.ofTerm .subscription none none with poNumber, currency }

theorem purchaseIdentity_oneGroup_spaced
    : ¬ToldApart .ascii 1 (.onPo "PO-1" "EUR") 2 (.onPo " po-1 " "eur") :=
  ((purchaseIdentity_oneGroup .ascii).2 _ _ _ _).mp (by decide +kernel)

/-- Tables that know one letter more than ASCII, which folds into two. -/
def Unicode.withSharpS : Unicode :=
  { Unicode.ascii with
    casefoldChar := fun c => if c = 'ß' then ['s', 's'] else [c.toLower]
    casefoldChar_ne := fun c => by split <;> simp
    upperChar := fun c => if c = 'ß' then ['S', 'S'] else [c.toUpper]
    upperChar_ne := fun c => by split <;> simp }

/-- A table with one licence, whose currency ends in a tab. -/
def tabbedStore : Store where
  licenses := Table.empty.insert (.onPo "PO-1" "EUR\t")

/-- The query misses a licence whose currency ends in a tab, and the browser does not fold a letter
that the backend folds.
-/
theorem purchaseIdentity_tabbedCurrency
    : (licenseIdentity .withSharpS 1 (.onPo "PO-1" "EUR\t")
          = procurementIdentityKey .withSharpS none none none "PO-1" "EUR"
        ∧ ¬∀ (u : Unicode) (s : Store) (licenseId pendingOrderId : Option Nat)
            (bundleId : Option String) (poNumber currency : String),
            ∀ selects ∈ identityFilter u licenseId pendingOrderId bundleId poNumber currency,
            ∀ id l, s.license? id = some l →
              (selects id l = true
                ↔ licenseIdentity u id l
                  = procurementIdentityKey u licenseId pendingOrderId bundleId poNumber currency))
      ∧ ¬∀ (u : Unicode) (id : Nat) (l : License) (id' : Nat) (l' : License),
          licenseIdentity u id l = licenseIdentity u id' l'
            ↔ browserIdentityKey u id l = browserIdentityKey u id' l' := by
  have hown : licenseIdentity .withSharpS 1 (.onPo "PO-1" "EUR\t")
      = procurementIdentityKey .withSharpS none none none "PO-1" "EUR" := by decide +kernel
  refine ⟨⟨hown, fun h => ?_⟩, fun h => ?_⟩
  · have hselected := h .withSharpS tabbedStore none none none "PO-1" "EUR"
      (matchesIdentity .withSharpS (.poNumber "po-1", "EUR")) (by
        have hkey : procurementIdentityKey .withSharpS none none none "PO-1" "EUR"
            = some (.poNumber "po-1", "EUR") := by decide +kernel
        rw [identityFilter, hkey]
        rfl) 1 (.onPo "PO-1" "EUR\t") rfl
    have hmissed : matchesIdentity .withSharpS (.poNumber "po-1", "EUR") 1 (.onPo "PO-1" "EUR\t")
        = false := by decide +kernel
    rw [hselected.mpr hown] at hmissed
    cases hmissed
  · have hfolded := (h .withSharpS 1 (.onPo "Straße 42" "EUR") 2 (.onPo "STRASSE 42" "EUR")).mp
      (by decide +kernel)
    exact absurd hfolded (by decide +kernel)

end LicenseTrack
