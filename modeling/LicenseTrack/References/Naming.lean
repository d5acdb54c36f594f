import LicenseTrack.References.Directory

/-! What each operation on a directory does to the names of its records. -/

namespace LicenseTrack.References

open Library

namespace Directory

variable {ρ : Type} {d t : Directory ρ} {u : Unicode} {texts : ReferenceTexts}

/-- What every operation keeps. -/
structure Sound (d : Directory ρ) : Prop where
  unambiguous : d.Unambiguous
  owned : d.Owned

theorem Unambiguous.of_fewer (h : d.Unambiguous) (hfewer : ∀ key id, t.Names key id → d.Names key id)
    : t.Unambiguous :=
  fun _ _ _ h₁ h₂ => h (hfewer _ _ h₁) (hfewer _ _ h₂)

theorem Unambiguous.of_added (h : d.Unambiguous) {key : String} {id : Nat}
    (hfree : ∀ other, d.Names key other → other = id)
    (hadded : ∀ k i, t.Names k i → d.Names k i ∨ (i = id ∧ k = key))
    : t.Unambiguous := by
  intro k i j hi hj
  rcases hadded k i hi with hi | ⟨rfl, rfl⟩ <;> rcases hadded _ j hj with hj | ⟨rfl, hk⟩
  · exact h hi hj
  · exact hfree _ (hk ▸ hi)
  · exact (hfree _ hj).symm
  · rfl

theorem not_names_of_select {key : String}
    (hr : d.records.select (fun _ r => r.normalizedName == key) = [])
    (ha : ∀ entry ∈ d.aliases.entries, entry.2.normalizedName ≠ key) (id : Nat)
    : ¬d.Names key id := by
  rintro (⟨r, hstored, hkey⟩ | ⟨aliasId, a, hstored, -, hkey⟩)
  · have : id ∈ d.records.select (fun _ r => r.normalizedName == key) :=
      Table.mem_select.mpr ⟨r, hstored, by simpa using hkey⟩
    simp [hr] at this
  · exact ha _ (Table.get?_eq_some.mp hstored) hkey

theorem names_insertRecord {r : Reference ρ} {key : String} {id : Nat}
    : Names { d with records := d.records.insert r } key id
      ↔ d.Names key id ∨ (id = d.records.nextKey ∧ key = r.normalizedName) := by
  unfold Names
  by_cases hid : id = d.records.nextKey
  · subst hid
    simp only [Table.get?_insert, if_true, Option.some.injEq, exists_eq_left', true_and,
      Table.get?_nextKey]
    simp [or_comm, eq_comm]
  · simp [Table.get?_insert, hid]

theorem names_insertAlias {a : Alias} {key : String} {id : Nat}
    : Names { d with aliases := d.aliases.insert a } key id
      ↔ d.Names key id ∨ (id = a.ownerId ∧ key = a.normalizedName) := by
  unfold Names
  rw [or_assoc]
  refine or_congr_right ⟨?_, ?_⟩
  · rintro ⟨aliasId, b, hb, howner, hkey⟩
    rw [Table.get?_insert] at hb
    split at hb
    · obtain rfl := Option.some.inj hb
      exact .inr ⟨howner.symm, hkey.symm⟩
    · exact .inl ⟨aliasId, b, hb, howner, hkey⟩
  · rintro (⟨aliasId, b, hb, howner, hkey⟩ | ⟨howner, hkey⟩)
    · refine ⟨aliasId, b, ?_, howner, hkey⟩
      rw [Table.get?_insert, if_neg (Nat.ne_of_lt (Table.lt_nextKey_of_get? hb)), hb]
    · exact ⟨d.aliases.nextKey, a, by simp [Table.get?_insert], howner.symm, hkey.symm⟩

theorem names_modifyRecord {changed : Nat} {f : Reference ρ → Reference ρ}
    (hf : ∀ r, (f r).normalizedName = r.normalizedName) {key : String} {id : Nat}
    : Names { d with records := d.records.modify changed f } key id ↔ d.Names key id := by
  unfold Names
  refine or_congr_left ?_
  cases hr : d.records.get? id with
  | none => simp [Table.get?_modify, hr]
  | some r =>
      have hkey : (if id = changed then f r else r).normalizedName = r.normalizedName := by
        split
        · exact hf r
        · rfl
      simp [Table.get?_modify, hr, hkey]

theorem names_filterAliases {p : Nat → Alias → Bool} {key : String} {id : Nat}
    (h : Names { d with aliases := d.aliases.filter p } key id)
    : d.Names key id := by
  rcases h with hcanonical | ⟨aliasId, a, ha, hrest⟩
  · exact .inl hcanonical
  · simp only [Table.get?_filter, Option.filter_eq_some_iff] at ha
    exact .inr ⟨aliasId, a, ha.1, hrest⟩

theorem names_remove {removed : Nat} {key : String} {id : Nat}
    : (d.remove removed).Names key id ↔ d.Names key id ∧ id ≠ removed := by
  unfold Names remove
  simp only [Table.get?_filter, Option.filter_eq_some_iff, bne_iff_ne, or_and_right]
  constructor
  · rintro (⟨r, ⟨hr, hne⟩, hkey⟩ | ⟨aliasId, a, ⟨ha, hne⟩, rfl, hkey⟩)
    · exact .inl ⟨⟨r, hr, hkey⟩, hne⟩
    · exact .inr ⟨⟨aliasId, a, ha, rfl, hkey⟩, hne⟩
  · rintro (⟨⟨r, hr, hkey⟩, hne⟩ | ⟨⟨aliasId, a, ha, rfl, hkey⟩, hne⟩)
    · exact .inl ⟨r, ⟨hr, hne⟩, hkey⟩
    · exact .inr ⟨aliasId, a, ⟨ha, hne⟩, rfl, hkey⟩

theorem get?_remove_self (id : Nat) : (d.remove id).records.get? id = none := by
  simp [remove]

theorem get?_remove_ne {id removed : Nat} (h : id ≠ removed)
    : (d.remove removed).records.get? id = d.records.get? id := by
  cases hr : d.records.get? id <;> simp [remove, hr, h]

-- What the operations keep

theorem Sound.modifyRecord (hd : d.Sound) {changed : Nat} {f : Reference ρ → Reference ρ}
    (hf : ∀ r, (f r).normalizedName = r.normalizedName)
    : Sound { d with records := d.records.modify changed f } where
  unambiguous := hd.unambiguous.of_fewer fun _ _ => (names_modifyRecord hf).mp
  owned aliasId a ha := by
    obtain ⟨r, hr⟩ := hd.owned aliasId a ha
    exact ⟨_, by rw [Table.get?_modify, hr, Option.map_some]⟩

theorem Sound.filterAliases (hd : d.Sound) (p : Nat → Alias → Bool)
    : Sound { d with aliases := d.aliases.filter p } where
  unambiguous := hd.unambiguous.of_fewer fun _ _ => names_filterAliases
  owned aliasId a ha := by
    simp only [Table.get?_filter, Option.filter_eq_some_iff] at ha
    exact hd.owned aliasId a ha.1

theorem Sound.remove (hd : d.Sound) (id : Nat) : (d.remove id).Sound where
  unambiguous := hd.unambiguous.of_fewer fun _ _ h => (names_remove.mp h).1
  owned aliasId a ha := by
    simp only [Directory.remove, Table.get?_filter, Option.filter_eq_some_iff, bne_iff_ne] at ha ⊢
    obtain ⟨r, hr⟩ := hd.owned aliasId a ha.1
    exact ⟨r, hr, ha.2⟩

theorem Sound.flushRecord (hd : d.Sound) {r : Reference ρ} {id : Nat}
    (h : d.flushRecord r = .ok (id, t)) (hfree : ∀ other, ¬d.Names r.normalizedName other)
    : t.Sound := by
  simp only [Directory.flushRecord, bind_eq_ok, require_eq_ok, pure_eq_ok] at h
  obtain ⟨_, -, heq⟩ := h
  obtain ⟨rfl, rfl⟩ := Prod.mk.inj heq
  refine ⟨hd.unambiguous.of_added (fun other hother => absurd hother (hfree other))
    (fun _ _ => names_insertRecord.mp), fun aliasId a ha => ?_⟩
  obtain ⟨r', hr'⟩ := hd.owned aliasId a ha
  refine ⟨r', ?_⟩
  rw [Table.get?_insert, if_neg (Nat.ne_of_lt (Table.lt_nextKey_of_get? hr')), hr']

theorem addAlias_ok (hd : d.Unambiguous) {id : Nat} {value : String}
    (h : d.addAlias u texts id value = .ok t)
    : (∀ other, d.Names (nameKey u value) other → other = id)
      ∧ t.records = d.records
      ∧ ∀ key i, t.Names key i ↔ d.Names key i ∨ (i = id ∧ key = nameKey u value) := by
  simp only [addAlias, bind_eq_ok, cleanName_eq_ok] at h
  obtain ⟨_, ⟨-, rfl⟩, h⟩ := h
  split at h
  · next aliasId existing hfound =>
      simp only [bind_eq_ok, require_eq_ok, pure_eq_ok] at h
      obtain ⟨_, rfl, rfl⟩ := h
      have hkey : existing.normalizedName = nameKey u value := by
        simpa [nameKey] using List.find?_some hfound
      have hnames : d.Names (nameKey u value) existing.ownerId :=
        .inr ⟨aliasId, existing, Table.get?_eq_some.mpr (List.mem_of_find?_eq_some hfound), rfl, hkey⟩
      refine ⟨fun other hother => hd hother hnames, rfl, fun key i => ⟨.inl, ?_⟩⟩
      rintro (hi | ⟨rfl, rfl⟩)
      · exact hi
      · exact hnames
  · next hnone =>
      simp only [flushAlias, bind_eq_ok, require_eq_ok, pure_eq_ok] at h
      obtain ⟨_, hcanonical, _, -, rfl⟩ := h
      have hfree := not_names_of_select hcanonical fun entry hentry => by
        simpa using List.find?_eq_none.mp hnone entry hentry
      exact ⟨fun other hother => absurd hother (hfree other), rfl, fun _ _ => names_insertAlias⟩

theorem Sound.addAlias (hd : d.Sound) {id : Nat} {r : Reference ρ}
    (hr : d.records.get? id = some r) {value : String} (h : d.addAlias u texts id value = .ok t)
    : t.Sound := by
  obtain ⟨hfree, hrecords, hnames⟩ := addAlias_ok hd.unambiguous h
  refine ⟨hd.unambiguous.of_added hfree fun key i => (hnames key i).mp, fun aliasId a ha => ?_⟩
  rw [hrecords]
  rcases (hnames a.normalizedName a.ownerId).mp (.inr ⟨aliasId, a, ha, rfl, rfl⟩) with h | ⟨h, -⟩
  · rcases h with ⟨r', hr', -⟩ | ⟨otherId, b, hb, howner, -⟩
    · exact ⟨r', hr'⟩
    · exact howner ▸ hd.owned otherId b hb
  · exact ⟨r, h ▸ hr⟩

theorem Sound.resolve (hd : d.Sound) {touch : ρ → ρ} {roles : ρ} {createIfMissing : Bool}
    {value : String} {id : Nat} (h : d.resolve u texts touch roles createIfMissing value = .ok (id, t))
    : t.Sound := by
  simp only [Directory.resolve, bind_eq_ok, cleanName_eq_ok] at h
  obtain ⟨_, -, h⟩ := h
  split at h
  · simp only [bind_eq_ok, require_eq_ok, pure_eq_ok] at h
    obtain ⟨_, -, heq⟩ := h
    obtain ⟨-, rfl⟩ := Prod.mk.inj heq
    exact hd.modifyRecord fun _ => rfl
  · next hnone =>
      simp only [bind_eq_ok, require_eq_ok] at h
      obtain ⟨_, -, h⟩ := h
      exact hd.flushRecord h (find_none hd.owned hnone)

theorem Sound.create (hd : d.Sound) {roles : ρ} {value : String} {id : Nat}
    (h : d.create u texts roles value = .ok (id, t))
    : t.Sound := by
  simp only [Directory.create, bind_eq_ok, require_eq_ok, cleanName_eq_ok] at h
  obtain ⟨_, -, _, hnone, h⟩ := h
  exact hd.flushRecord h (find_none hd.owned (Option.isNone_iff_eq_none.mp hnone))

theorem assertNameAvailable_ok {normalized : String} {id : Nat} {v : PUnit}
    (h : d.assertNameAvailable normalized id = .ok v)
    : ∀ other, d.Names normalized other → other = id := by
  simp only [assertNameAvailable, require_eq_ok] at h
  obtain ⟨hrecords, haliases⟩ := h
  rintro other (⟨r, hr, hkey⟩ | ⟨aliasId, a, ha, rfl, hkey⟩)
  · by_contra hne
    have : other ∈ d.records.select (fun i r => r.normalizedName == normalized && i != id) :=
      Table.mem_select.mpr ⟨r, hr, by simp [hkey, hne]⟩
    simp [hrecords] at this
  · by_contra hne
    have : aliasId ∈ d.aliases.select (fun _ a => a.normalizedName == normalized && a.ownerId != id) :=
      Table.mem_select.mpr ⟨a, ha, by simp [hkey, hne]⟩
    simp [haliases] at this

theorem Sound.rename (hd : d.Sound) {id : Nat} {r : Reference ρ} (hr : d.records.get? id = some r)
    {cleaned : String} (h : d.rename u texts id r cleaned = .ok t)
    : t.Sound := by
  simp only [Directory.rename, bind_eq_ok] at h
  obtain ⟨_, havailable, h⟩ := h
  refine Sound.addAlias (r := { r with
      name := cleaned, normalizedName := u.normalizeReferenceName cleaned }) ⟨?_, ?_⟩
    (by rw [Table.get?_modify_self, hr, Option.map_some]) h
  · refine hd.unambiguous.of_added (assertNameAvailable_ok havailable) fun key i hi => ?_
    rcases hi with ⟨r', hr', hkey⟩ | ⟨aliasId, a, ha, hrest⟩
    · rw [Table.get?_modify] at hr'
      obtain ⟨r'', hr'', rfl⟩ := Option.map_eq_some_iff.mp hr'
      split at hkey
      · next hid => exact .inr ⟨hid, hkey.symm⟩
      · exact .inl (.inl ⟨r'', hr'', hkey⟩)
    · simp only [Table.get?_filter, Option.filter_eq_some_iff] at ha
      exact .inl (.inr ⟨aliasId, a, ha.1, hrest⟩)
  · intro aliasId a ha
    simp only [Table.get?_filter, Option.filter_eq_some_iff] at ha
    obtain ⟨r', hr'⟩ := hd.owned aliasId a ha.1
    exact ⟨_, by rw [Table.get?_modify, hr', Option.map_some]⟩

theorem Sound.updateName (hd : d.Sound) {id : Nat} {r : Reference ρ}
    (hr : d.records.get? id = some r) {value : String}
    (h : d.updateName u texts id r value = .ok t)
    : t.Sound := by
  simp only [Directory.updateName, bind_eq_ok] at h
  obtain ⟨cleaned, -, h⟩ := h
  split at h
  · obtain rfl := pure_eq_ok.mp h
    exact hd.modifyRecord fun _ => rfl
  · exact hd.rename hr h

theorem Sound.deleteAlias (hd : d.Sound) {aliasId : Nat} (h : d.deleteAlias aliasId = .ok t)
    : t.Sound := by
  simp only [Directory.deleteAlias, bind_eq_ok, require_eq_ok, pure_eq_ok] at h
  obtain ⟨_, -, rfl⟩ := h
  exact hd.filterAliases _

theorem Sound.setActive (hd : d.Sound) {id : Nat} {active : Bool}
    (h : d.setActive id active = .ok t)
    : t.Sound := by
  simp only [Directory.setActive, bind_eq_ok, require_eq_ok, pure_eq_ok] at h
  obtain ⟨_, -, rfl⟩ := h
  exact hd.modifyRecord fun _ => rfl

theorem addAliases_ok {target : Nat} {r : Reference ρ} {names : List String} (hd : d.Sound)
    (hr : d.records.get? target = some r)
    (h : each (fun name d => addAlias d u texts target name) names d = .ok t)
    : t.Sound ∧ t.records = d.records
      ∧ ∀ key i, t.Names key i
        ↔ d.Names key i ∨ (i = target ∧ ∃ name ∈ names, key = nameKey u name) := by
  induction names generalizing d with
  | nil =>
      obtain rfl : d = t := by simpa [each] using h
      exact ⟨hd, rfl, fun key i => by simp⟩
  | cons name rest ih =>
      obtain ⟨e, hadd, hrest⟩ := bind_eq_ok.mp h
      obtain ⟨-, hrecords, hnames⟩ := addAlias_ok hd.unambiguous hadd
      obtain ⟨ht, hrecords', hnames'⟩ := ih (hd.addAlias hr hadd) (hrecords ▸ hr) hrest
      refine ⟨ht, hrecords'.trans hrecords, fun key i => ?_⟩
      rw [hnames', hnames, List.exists_mem_cons_iff, or_assoc, ← and_or_left]

theorem validateAliasTransfer_ok {source target : Nat} {targetKey : String}
    {seen names candidates : List String}
    (h : d.validateAliasTransfer u texts source target targetKey seen names = .ok candidates)
    : (∀ c ∈ candidates, ∃ name ∈ names, c = u.cleanReferenceName name)
      ∧ ∀ name ∈ names, nameKey u name ∈ seen ∨ nameKey u name = targetKey
        ∨ ∃ other ∈ names, u.cleanReferenceName other ∈ candidates
          ∧ nameKey u other = nameKey u name := by
  induction names generalizing seen candidates with
  | nil =>
      obtain rfl : [] = candidates := by simpa [validateAliasTransfer] using h
      simp
  | cons head rest ih =>
      simp only [validateAliasTransfer, bind_eq_ok, cleanName_eq_ok] at h
      obtain ⟨_, ⟨-, rfl⟩, h⟩ := h
      split at h
      · next hskip =>
          obtain ⟨hfrom, hkept⟩ := ih h
          refine ⟨fun c hc => ?_, List.forall_mem_cons.mpr ⟨?_, fun name hname => ?_⟩⟩
          · obtain ⟨name, hname, heq⟩ := hfrom c hc
            exact ⟨name, List.mem_cons_of_mem _ hname, heq⟩
          · exact hskip.elim .inl fun h => .inr (.inl h)
          · refine (hkept name hname).imp_right (Or.imp_right ?_)
            rintro ⟨other, hother, hrest⟩
            exact ⟨other, List.mem_cons_of_mem _ hother, hrest⟩
      · simp only [bind_eq_ok, require_eq_ok, pure_eq_ok] at h
        obtain ⟨_, -, candidates', h, rfl⟩ := h
        obtain ⟨hfrom, hkept⟩ := ih h
        refine ⟨List.forall_mem_cons.mpr ⟨⟨head, List.mem_cons_self, rfl⟩, fun c hc => ?_⟩,
          List.forall_mem_cons.mpr ⟨?_, fun name hname => ?_⟩⟩
        · obtain ⟨name, hname, heq⟩ := hfrom c hc
          exact ⟨name, List.mem_cons_of_mem _ hname, heq⟩
        · exact .inr (.inr ⟨head, List.mem_cons_self, List.mem_cons_self, rfl⟩)
        · rcases hkept name hname with hseen | htarget | ⟨other, hother, hmoved, hkey⟩
          · rcases List.mem_cons.mp hseen with hhead | hseen
            · exact .inr (.inr ⟨head, List.mem_cons_self, List.mem_cons_self, hhead.symm⟩)
            · exact .inl hseen
          · exact .inr (.inl htarget)
          · exact .inr (.inr ⟨other, List.mem_cons_of_mem _ hother,
              List.mem_cons_of_mem _ hmoved, hkey⟩)

end Directory

end LicenseTrack.References
