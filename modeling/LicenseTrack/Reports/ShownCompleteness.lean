import LicenseTrack.Services.Completeness

/-! The completeness that the browser shows and the one that the backend stores: both check the
same fields wherever every key that is on names a field and a freeware cost reads alike, and then
only the rounding of an eighth tells them apart.
-/

namespace LicenseTrack

open Library

theorem mul_add_le_mul {k a b : Nat} (h : a < b) : k * a + k ≤ k * b := by
  have := Nat.mul_le_mul_left k (Nat.succ_le_of_lt h)
  rwa [Nat.mul_succ] at this

theorem halfUp_eq_iff {n k p : Nat} (hk : 0 < k)
    : Decimal.halfUp n k = p ↔ 2 * (k * p) ≤ 2 * n + k ∧ 2 * n < 2 * (k * p) + k := by
  have hdiv := Nat.div_add_mod n k
  have hmod := Nat.mod_lt n hk
  unfold Decimal.halfUp
  generalize n / k = q at *
  generalize n % k = r at *
  split
  · constructor
    · rintro rfl
      rw [Nat.mul_succ]
      omega
    · rintro ⟨hlow, hhigh⟩
      rcases Nat.lt_trichotomy p (q + 1) with hlt | heq | hgt
      · have := mul_add_le_mul (k := k) hlt
        rw [Nat.mul_succ] at this
        omega
      · exact heq.symm
      · have := mul_add_le_mul (k := k) hgt
        rw [Nat.mul_succ] at this
        omega
  · constructor
    · rintro rfl
      omega
    · rintro ⟨hlow, hhigh⟩
      rcases Nat.lt_trichotomy p q with hlt | heq | hgt
      · have := mul_add_le_mul (k := k) hlt
        omega
      · exact heq.symm
      · have := mul_add_le_mul (k := k) hgt
        omega

theorem halfEven_eq_iff {n k p : Nat} (hk : 0 < k)
    : Decimal.halfEven n k = p
      ↔ 2 * (k * p) ≤ 2 * n + k ∧ 2 * n ≤ 2 * (k * p) + k
        ∧ (2 * (k * p) = 2 * n + k ∨ 2 * n = 2 * (k * p) + k → p % 2 = 0) := by
  have hdiv := Nat.div_add_mod n k
  have hmod := Nat.mod_lt n hk
  unfold Decimal.halfEven
  generalize n / k = q at *
  generalize n % k = r at *
  simp only [Bool.or_eq_true, Bool.and_eq_true, decide_eq_true_eq, beq_iff_eq]
  split
  case isTrue hup =>
    constructor
    · rintro rfl
      rw [Nat.mul_succ]
      omega
    · rintro ⟨hlow, hhigh, heven⟩
      rcases Nat.lt_trichotomy p (q + 1) with hlt | heq | hgt
      · have hle : p = q ∨ p < q := by omega
        rcases hle with rfl | hlt
        · omega
        · have := mul_add_le_mul (k := k) hlt
          omega
      · exact heq.symm
      · have := mul_add_le_mul (k := k) hgt
        rw [Nat.mul_succ] at this
        omega
  case isFalse hdown =>
    constructor
    · rintro rfl
      omega
    · rintro ⟨hlow, hhigh, heven⟩
      rcases Nat.lt_trichotomy p q with hlt | heq | hgt
      · have := mul_add_le_mul (k := k) hlt
        omega
      · exact heq.symm
      · have hle : p = q + 1 ∨ q + 1 < p := by omega
        rcases hle with rfl | hgt
        · rw [Nat.mul_succ] at hlow heven
          omega
        · have := mul_add_le_mul (k := k) hgt
          rw [Nat.mul_succ] at this
          omega

theorem roundings_agree_iff {k m : Nat} (hk : 0 < k) (hle : k ≤ 14) (hm : m ≤ k)
    : Decimal.halfUp (m * 100) k = Decimal.halfEven (m * 100) k
        ∧ (m = k ↔ Decimal.halfEven (m * 100) k = 100)
      ↔ ¬ (k = 8 ∧ (m = 1 ∨ m = 5)) := by
  have hall : ∀ k m : Fin 15, 0 < k.val → m.val ≤ k.val →
      (Decimal.halfUp (m * 100) k = Decimal.halfEven (m * 100) k
          ∧ (m.val = k.val ↔ Decimal.halfEven (m * 100) k = 100)
        ↔ ¬ (k.val = 8 ∧ (m.val = 1 ∨ m.val = 5))) := by
    decide +kernel
  exact hall ⟨k, by omega⟩ ⟨m, by omega⟩ hk hm

-- What both sides count

/-- How many fields count for a record, and how many of them it meets. -/
structure Share where
  required : Nat
  met : Nat
deriving DecidableEq, Repr

/-- The share that the backend rounds. -/
def storedShare (u : Unicode) (l : License) (documents : List DocumentCategory)
    (mandatoryFields : MandatoryFields)
    : Share where
  required := (enabledKeys u l mandatoryFields).length
  met := (enabledKeys u l mandatoryFields).countP fun key =>
    checkMandatoryField l documents (MandatoryField.ofKey? key)

/-- The share that the browser rounds. -/
def shownShare (l : License) (documents : List DocumentCategory)
    (mandatoryFields : MandatoryFields)
    : Share where
  required := (Browser.checkedFields l mandatoryFields).length
  met := (Browser.checkedFields l mandatoryFields).countP (Browser.check l documents)

/-- Whether a percentage is the nearest to a share, an upper half being near; that of no field is 100.
-/
def Share.NearestUp (s : Share) (p : Nat) : Prop :=
  if s.required = 0 then p = 100
  else 2 * (s.required * p) ≤ 2 * (s.met * 100) + s.required
    ∧ 2 * (s.met * 100) < 2 * (s.required * p) + s.required

/-- Whether a percentage is the nearest to a share, a half being near to the even one; that of no
field is 100.
-/
def Share.NearestEven (s : Share) (p : Nat) : Prop :=
  if s.required = 0 then p = 100
  else 2 * (s.required * p) ≤ 2 * (s.met * 100) + s.required
    ∧ 2 * (s.met * 100) ≤ 2 * (s.required * p) + s.required
    ∧ (2 * (s.required * p) = 2 * (s.met * 100) + s.required
        ∨ 2 * (s.met * 100) = 2 * (s.required * p) + s.required → p % 2 = 0)

/-- Both sides check the same fields: every key that is on names a field, and where a freeware
record is asked for what only paid support brings, its cost reads as paid on both sides or on none.
-/
structure SameFields (u : Unicode) (l : License) (mandatoryFields : MandatoryFields) : Prop where
  known : ∀ key, mandatoryFields.on key = true → (MandatoryField.ofKey? key).isSome = true
  paid
    : l.licenseType = .freeware
      → (∃ field ∈ freewarePurchaseFields, mandatoryFields.on field.key = true)
      → Browser.hasPaidIncludedSupport l = hasPaidIncludedSupport u l

section Shares

variable {u : Unicode} {l : License} {documents : List DocumentCategory}
  {mandatoryFields : MandatoryFields}

theorem MandatoryFields.on_iff {key : String}
    : mandatoryFields.on key = true ↔ (key, true) ∈ mandatoryFields.entries := by
  obtain ⟨entries, hnodup⟩ := mandatoryFields
  unfold MandatoryFields.on
  dsimp only
  induction entries with
  | nil => simp
  | cons entry rest ih =>
      obtain ⟨name, on⟩ := entry
      obtain ⟨hnew, hrest⟩ := List.nodup_cons.mp hnodup
      by_cases hkey : key = name
      · have habsent : (name, true) ∉ rest := fun hm => hnew (List.mem_map.mpr ⟨_, hm, rfl⟩)
        subst hkey
        simp [habsent, eq_comm]
      · have hbeq : (key == name) = false := by simpa using hkey
        rw [List.lookup_cons, hbeq]
        simp only [List.mem_cons, Prod.mk.injEq, hkey, false_and, false_or]
        exact ih hrest

theorem mem_enabledKeys {key : String}
    : key ∈ enabledKeys u l mandatoryFields
      ↔ mandatoryFields.on key = true
        ∧ isApplicableMandatoryField u l (MandatoryField.ofKey? key) = true := by
  rw [MandatoryFields.on_iff, enabledKeys, List.mem_map]
  constructor
  · rintro ⟨⟨name, on⟩, hm, rfl⟩
    obtain ⟨hentry, hboth⟩ := List.mem_filter.mp hm
    obtain ⟨hon, happlies⟩ := Bool.and_eq_true_iff.mp hboth
    dsimp only at hon happlies
    subst hon
    exact ⟨hentry, happlies⟩
  · rintro ⟨hentry, happlies⟩
    exact ⟨(key, true), List.mem_filter.mpr ⟨hentry, by simpa using happlies⟩, rfl⟩

theorem nodup_enabledKeys : (enabledKeys u l mandatoryFields).Nodup :=
  mandatoryFields.nodup.sublist (List.filter_sublist.map Prod.fst)

theorem hasDocuments_eq (category : DocumentCategory)
    : Browser.hasDocuments documents category = documents.contains category := by
  rw [Bool.eq_iff_iff, Browser.hasDocuments, decide_eq_true_eq, List.length_pos_iff_exists_mem,
    List.contains_iff_mem]
  constructor
  · rintro ⟨document, hm⟩
    obtain ⟨hin, heq⟩ := List.mem_filter.mp hm
    exact beq_iff_eq.mp heq ▸ hin
  · intro hin
    exact ⟨category, List.mem_filter.mpr ⟨hin, beq_self_eq_true _⟩⟩

theorem check_eq (field : MandatoryField)
    : Browser.check l documents field = checkMandatoryField l documents (some field) := by
  cases field <;> first | rfl | exact hasDocuments_eq _

theorem applies_eq (field : MandatoryField)
    (h : l.licenseType = .freeware
      → field ∈ freewarePurchaseFields
      → Browser.hasPaidIncludedSupport l = hasPaidIncludedSupport u l)
    : Browser.applies l field = isApplicableMandatoryField u l (some field) := by
  unfold Browser.applies isApplicableMandatoryField
  by_cases hfree : l.licenseType = .freeware
  · by_cases hpurchase : field ∈ freewarePurchaseFields
    · simp [hfree, hpurchase, h hfree hpurchase]
    · simp [hfree, hpurchase]
  · simp [hfree]

theorem SameFields.enabled_perm (h : SameFields u l mandatoryFields)
    : (enabledKeys u l mandatoryFields).Perm
        ((Browser.checkedFields l mandatoryFields).map MandatoryField.key) := by
  have hnodup : ((Browser.checkedFields l mandatoryFields).map MandatoryField.key).Nodup :=
    (MandatoryField.nodup_all.filter _).map MandatoryField.key_injective
  refine (List.perm_ext_iff_of_nodup nodup_enabledKeys hnodup).mpr fun key => ?_
  have happlies (field : MandatoryField) (hon : mandatoryFields.on field.key = true)
      : Browser.applies l field = isApplicableMandatoryField u l (some field) :=
    applies_eq field fun hfree hpurchase => h.paid hfree ⟨field, hpurchase, hon⟩
  simp only [mem_enabledKeys, List.mem_map, Browser.checkedFields, List.mem_filter,
    Bool.and_eq_true]
  constructor
  · rintro ⟨hon, happlicable⟩
    obtain ⟨field, hfield⟩ := Option.isSome_iff_exists.mp (h.known key hon)
    obtain rfl := MandatoryField.ofKey?_eq_some hfield
    rw [hfield, ← happlies field hon] at happlicable
    exact ⟨field, ⟨field.mem_all, hon, happlicable⟩, rfl⟩
  · rintro ⟨field, ⟨-, hon, hshown⟩, rfl⟩
    rw [MandatoryField.ofKey?_key, ← happlies field hon]
    exact ⟨hon, hshown⟩

theorem SameFields.share_eq (h : SameFields u l mandatoryFields)
    : shownShare l documents mandatoryFields = storedShare u l documents mandatoryFields := by
  have hperm := h.enabled_perm
  have hrequired := hperm.length_eq
  have hmet := hperm.countP_eq fun key =>
    checkMandatoryField l documents (MandatoryField.ofKey? key)
  rw [List.length_map] at hrequired
  rw [List.countP_map] at hmet
  have hcheck : (fun key => checkMandatoryField l documents (MandatoryField.ofKey? key))
      ∘ MandatoryField.key = Browser.check l documents := by
    funext field
    rw [Function.comp_apply, MandatoryField.ofKey?_key, check_eq]
  rw [hcheck] at hmet
  rw [shownShare, storedShare, hrequired, hmet]

theorem shownShare_le
    : (shownShare l documents mandatoryFields).required ≤ 14
      ∧ (shownShare l documents mandatoryFields).met
        ≤ (shownShare l documents mandatoryFields).required :=
  ⟨List.length_filter_le _ MandatoryField.all, List.countP_le_length⟩

theorem getCompleteness_percentage_eq_iff {p : Nat}
    : (Browser.getCompleteness l documents mandatoryFields).percentage = p
      ↔ (shownShare l documents mandatoryFields).NearestUp p := by
  have hmet : (((Browser.checkedFields l mandatoryFields).map fun field =>
      (⟨Browser.label field, Browser.check l documents field⟩ : Browser.Check)).filter
        (·.met)).length = (shownShare l documents mandatoryFields).met := by
    rw [← List.countP_eq_length_filter, List.countP_map]
    rfl
  rw [Browser.getCompleteness]
  dsimp only
  rw [hmet, List.length_map, Share.NearestUp]
  change (if 0 < (shownShare l documents mandatoryFields).required then _ else _) = p ↔ _
  by_cases hzero : (shownShare l documents mandatoryFields).required = 0
  · rw [if_neg (Nat.not_lt.mpr hzero.le), if_pos hzero, eq_comm]
  · rw [if_pos (Nat.pos_of_ne_zero hzero), if_neg hzero]
    exact halfUp_eq_iff (Nat.pos_of_ne_zero hzero)

theorem getCompleteness_isComplete_iff
    : (Browser.getCompleteness l documents mandatoryFields).isComplete = true
      ↔ (shownShare l documents mandatoryFields).met
        = (shownShare l documents mandatoryFields).required := by
  rw [Browser.getCompleteness]
  dsimp only
  rw [beq_iff_eq, ← List.countP_eq_length_filter, List.countP_map, List.length_map]
  rfl

theorem computeCompleteness_eq_iff (hexempt : l.isCompletenessExempt = false) {p : Nat}
    : computeCompleteness u l documents mandatoryFields = some p
      ↔ (storedShare u l documents mandatoryFields).NearestEven p := by
  rw [computeCompleteness, if_neg (by simp [hexempt]), Share.NearestEven]
  change (if (enabledKeys u l mandatoryFields).isEmpty = true then _
    else some (Decimal.halfEven ((storedShare u l documents mandatoryFields).met * 100)
      (storedShare u l documents mandatoryFields).required)) = some p ↔ _
  have hempty : (enabledKeys u l mandatoryFields).isEmpty = true
      ↔ (storedShare u l documents mandatoryFields).required = 0 := by
    rw [List.isEmpty_iff_length_eq_zero, storedShare]
  by_cases hzero : (storedShare u l documents mandatoryFields).required = 0
  · rw [if_pos (hempty.mpr hzero), if_pos hzero, Option.some.injEq, eq_comm]
  · rw [if_neg fun h => hzero (hempty.mp h), if_neg hzero, Option.some.injEq]
    exact halfEven_eq_iff (by omega)

end Shares

-- Shown against stored

/-- The browser shows the percentage that the backend computes, and shows a record as complete
exactly when the backend computes 100.
-/
def ShownAsStored (u : Unicode) (l : License) (documents : List DocumentCategory)
    (mandatoryFields : MandatoryFields)
    : Prop :=
  let shown := Browser.getCompleteness l documents mandatoryFields
  let stored := computeCompleteness u l documents mandatoryFields
  stored = some shown.percentage ∧ (shown.isComplete = true ↔ stored = some 100)

/-- Two shares that happen to lie around one percentage, which is 100 exactly for a full one. -/
def Share.SamePercentage (shown stored : Share) : Prop :=
  ∃ p, shown.NearestUp p ∧ stored.NearestEven p ∧ (shown.met = shown.required ↔ p = 100)

theorem shownAsStored_iff_samePercentage {u : Unicode} {l : License}
    {documents : List DocumentCategory} {mandatoryFields : MandatoryFields}
    (hexempt : l.isCompletenessExempt = false)
    : ShownAsStored u l documents mandatoryFields
      ↔ (shownShare l documents mandatoryFields).SamePercentage
          (storedShare u l documents mandatoryFields) := by
  unfold ShownAsStored Share.SamePercentage
  dsimp only
  rw [getCompleteness_isComplete_iff]
  constructor
  · rintro ⟨hstored, hcomplete⟩
    refine ⟨_, getCompleteness_percentage_eq_iff.mp rfl,
      (computeCompleteness_eq_iff hexempt).mp hstored, ?_⟩
    rw [hcomplete, hstored, Option.some.injEq]
  · rintro ⟨p, hup, heven, hcomplete⟩
    have hstored := (computeCompleteness_eq_iff hexempt).mpr heven
    rw [getCompleteness_percentage_eq_iff.mpr hup, hstored, hcomplete, Option.some.injEq]
    exact ⟨rfl, (Option.some_inj).symm⟩

theorem Share.samePercentage_self_iff {s : Share} (hle : s.required ≤ 14)
    (hmet : s.met ≤ s.required)
    : s.SamePercentage s ↔ ¬ (s.required = 8 ∧ (s.met = 1 ∨ s.met = 5)) := by
  unfold Share.SamePercentage Share.NearestUp Share.NearestEven
  by_cases hzero : s.required = 0
  · simp [hzero, show s.met = 0 by omega]
  · have hpos : 0 < s.required := by omega
    simp only [if_neg hzero]
    rw [← roundings_agree_iff hpos hle hmet]
    constructor
    · rintro ⟨p, hup, heven, hcomplete⟩
      rw [(halfUp_eq_iff hpos).mpr hup, (halfEven_eq_iff hpos).mpr heven]
      exact ⟨rfl, hcomplete⟩
    · rintro ⟨hsame, hcomplete⟩
      exact ⟨_, (halfUp_eq_iff hpos).mp hsame, (halfEven_eq_iff hpos).mp rfl, hcomplete⟩

/-- The browser shows the stored completeness of a record where both sides check the same fields,
unless one or five of eight are met; where they check other fields, only two shares around the same
percentage can hide it.
-/
theorem completeness_shownAsStored_iff (u : Unicode) (l : License)
    (documents : List DocumentCategory) (mandatoryFields : MandatoryFields)
    (hexempt : l.isCompletenessExempt = false)
    : ShownAsStored u l documents mandatoryFields
      ↔ SameFields u l mandatoryFields
          ∧ ¬ ((shownShare l documents mandatoryFields).required = 8
            ∧ ((shownShare l documents mandatoryFields).met = 1
              ∨ (shownShare l documents mandatoryFields).met = 5))
        ∨ ¬ SameFields u l mandatoryFields
          ∧ (shownShare l documents mandatoryFields).SamePercentage
              (storedShare u l documents mandatoryFields) := by
  rw [shownAsStored_iff_samePercentage hexempt]
  by_cases hsame : SameFields u l mandatoryFields
  · obtain ⟨hle, hmet⟩ : (shownShare l documents mandatoryFields).required ≤ 14
        ∧ (shownShare l documents mandatoryFields).met
          ≤ (shownShare l documents mandatoryFields).required := shownShare_le
    have hself : (shownShare l documents mandatoryFields).SamePercentage
          (storedShare u l documents mandatoryFields)
        ↔ ¬ ((shownShare l documents mandatoryFields).required = 8
          ∧ ((shownShare l documents mandatoryFields).met = 1
            ∨ (shownShare l documents mandatoryFields).met = 5)) :=
      hsame.share_eq ▸ Share.samePercentage_self_iff hle hmet
    simp [hsame, hself]
  · simp [hsame]


/-- A configuration that switches a list of fields on and the others off. -/
def MandatoryFields.ofFields (fields : List MandatoryField) : MandatoryFields where
  entries := MandatoryField.all.map fun field => (field.key, fields.contains field)
  nodup := by
    rw [List.map_map]
    exact MandatoryField.nodup_all.map MandatoryField.key_injective

theorem MandatoryFields.known_ofFields {fields : List MandatoryField} {key : String}
    (h : (MandatoryFields.ofFields fields).on key = true)
    : (MandatoryField.ofKey? key).isSome = true := by
  rw [MandatoryFields.on_iff] at h
  obtain ⟨field, -, heq⟩ := List.mem_map.mp h
  obtain ⟨rfl, -⟩ := Prod.mk.injEq .. ▸ heq
  rw [MandatoryField.ofKey?_key]
  rfl

/-- Eight of the fields. -/
def MandatoryFields.eight : MandatoryFields :=
  .ofFields [.invoice, .eula, .entitlement, .purchaseOrder, .quote, .startDate, .noticeDate,
    .contractNumber]

/-- One of eight fields is 13 per cent in the browser and 12 in the backend. -/
theorem completeness_oneOfEight
    : ¬ ∀ (u : Unicode) (l : License) (documents : List DocumentCategory)
        (mandatoryFields : MandatoryFields),
        l.isCompletenessExempt = false → ShownAsStored u l documents mandatoryFields := by
  intro h
  obtain ⟨hstored, -⟩ := h .ascii (.ofTerm .subscription (some 1) none) [] .eight rfl
  revert hstored
  decide +kernel

/-- A start date, an invoice and a quote are three of eight fields, 38 per cent on both sides. -/
theorem completeness_shownAsStored_iff_threeOfEight
    : ShownAsStored .ascii (.ofTerm .subscription (some 1) none) [.invoice, .quote] .eight := by
  refine (completeness_shownAsStored_iff _ _ _ _ rfl).mpr (Or.inl ⟨?_, ?_⟩)
  · refine ⟨fun key hon => MandatoryFields.known_ofFields hon, fun hfree => ?_⟩
    exact absurd hfree (by decide)
  · decide +kernel

end LicenseTrack
