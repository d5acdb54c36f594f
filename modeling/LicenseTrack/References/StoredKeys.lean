import LicenseTrack.References.Unambiguous

/-! The keys stored with the names of reference records: each is the key of its name, in every
reached store.
-/

namespace LicenseTrack.References

open Library

/-- A stored name is clean and its key is the key of the name. -/
def KeyOf (u : Unicode) (name normalizedName : String) : Prop :=
  u.cleanReferenceName name = name ∧ nameKey u name = normalizedName

namespace Directory

variable {ρ : Type} {d t : Directory ρ} {u : Unicode} {texts : ReferenceTexts}

/-- Each row stores the key of its name. -/
structure Keyed (u : Unicode) (d : Directory ρ) : Prop where
  records : ∀ id r, d.records.get? id = some r → KeyOf u r.name r.normalizedName
  aliases : ∀ aliasId a, d.aliases.get? aliasId = some a → KeyOf u a.name a.normalizedName

theorem names_iff_ownNames (hd : d.Keyed u) {id : Nat} {r : Reference ρ}
    (hr : d.records.get? id = some r) {key : String}
    : d.Names key id ↔ ∃ name ∈ d.ownNames id r, key = nameKey u name := by
  unfold ownNames
  constructor
  · rintro (⟨r', hr', rfl⟩ | ⟨aliasId, a, ha, rfl, rfl⟩)
    · obtain rfl : r = r' := Option.some.inj (hr.symm.trans hr')
      exact ⟨r.name, List.mem_cons_self, (hd.records id r hr).2.symm⟩
    · refine ⟨a.name, List.mem_cons_of_mem _ (List.mem_map.mpr ⟨(aliasId, a), ?_, rfl⟩),
        (hd.aliases aliasId a ha).2.symm⟩
      exact List.mem_filter.mpr ⟨Table.get?_eq_some.mp ha, by simp⟩
  · rintro ⟨name, hname, rfl⟩
    rcases List.mem_cons.mp hname with rfl | hname
    · exact .inl ⟨r, hr, (hd.records id r hr).2.symm⟩
    · obtain ⟨⟨aliasId, a⟩, hentry, rfl⟩ := List.mem_map.mp hname
      obtain ⟨hstored, howner⟩ := List.mem_filter.mp hentry
      have ha := Table.get?_eq_some.mpr hstored
      exact .inr ⟨aliasId, a, ha, by simpa using howner, (hd.aliases aliasId a ha).2.symm⟩

theorem clean_ownNames (hd : d.Keyed u) {id : Nat} {r : Reference ρ}
    (hr : d.records.get? id = some r) {name : String} (hname : name ∈ d.ownNames id r)
    : u.cleanReferenceName name = name := by
  rcases List.mem_cons.mp hname with rfl | hname
  · exact (hd.records id r hr).1
  · obtain ⟨⟨aliasId, a⟩, hentry, rfl⟩ := List.mem_map.mp hname
    exact (hd.aliases aliasId a (Table.get?_eq_some.mpr (List.mem_filter.mp hentry).1)).1

-- What the operations keep

theorem keyOf_clean (hu : u.CleansOnce) (value : String)
    : KeyOf u (u.cleanReferenceName value)
        (u.normalizeReferenceName (u.cleanReferenceName value)) :=
  ⟨hu value, congrArg u.normalizeReferenceName (hu value)⟩

theorem Keyed.modifyRecord (hd : d.Keyed u) (changed : Nat) (f : Reference ρ → Reference ρ)
    (hf : ∀ r, d.records.get? changed = some r → KeyOf u (f r).name (f r).normalizedName)
    : Keyed u { d with records := d.records.modify changed f } where
  records id r hr := by
    rw [Table.get?_modify] at hr
    obtain ⟨r', hr', rfl⟩ := Option.map_eq_some_iff.mp hr
    split
    · next hid => exact hf r' (hid ▸ hr')
    · exact hd.records id r' hr'
  aliases := hd.aliases

theorem Keyed.filterAliases (hd : d.Keyed u) (p : Nat → Alias → Bool)
    : Keyed u { d with aliases := d.aliases.filter p } where
  records := hd.records
  aliases aliasId a ha := by
    simp only [Table.get?_filter, Option.filter_eq_some_iff] at ha
    exact hd.aliases aliasId a ha.1

theorem Keyed.remove (hd : d.Keyed u) (id : Nat) : (d.remove id).Keyed u where
  records other r hr := by
    simp only [Directory.remove, Table.get?_filter, Option.filter_eq_some_iff] at hr
    exact hd.records other r hr.1
  aliases aliasId a ha := by
    simp only [Directory.remove, Table.get?_filter, Option.filter_eq_some_iff] at ha
    exact hd.aliases aliasId a ha.1

theorem Keyed.flushRecord (hd : d.Keyed u) {r : Reference ρ} {id : Nat}
    (h : d.flushRecord r = .ok (id, t)) (hr : KeyOf u r.name r.normalizedName)
    : t.Keyed u := by
  simp only [Directory.flushRecord, bind_eq_ok, require_eq_ok, pure_eq_ok] at h
  obtain ⟨_, -, heq⟩ := h
  obtain ⟨-, rfl⟩ := Prod.mk.inj heq
  refine ⟨fun other r' hr' => ?_, hd.aliases⟩
  rw [Table.get?_insert] at hr'
  split at hr'
  · obtain rfl := Option.some.inj hr'
    exact hr
  · exact hd.records other r' hr'

theorem Keyed.addAlias (hu : u.CleansOnce) (hd : d.Keyed u) {id : Nat} {value : String}
    (h : d.addAlias u texts id value = .ok t)
    : t.Keyed u := by
  simp only [Directory.addAlias, bind_eq_ok, cleanName_eq_ok] at h
  obtain ⟨_, ⟨-, rfl⟩, h⟩ := h
  split at h
  · simp only [bind_eq_ok, require_eq_ok, pure_eq_ok] at h
    obtain ⟨_, -, rfl⟩ := h
    exact hd
  · simp only [flushAlias, bind_eq_ok, require_eq_ok, pure_eq_ok] at h
    obtain ⟨_, -, _, -, rfl⟩ := h
    refine ⟨hd.records, fun aliasId a ha => ?_⟩
    rw [Table.get?_insert] at ha
    split at ha
    · obtain rfl := Option.some.inj ha
      exact keyOf_clean hu value
    · exact hd.aliases aliasId a ha

theorem Keyed.addAliases (hu : u.CleansOnce) (hd : d.Keyed u) {target : Nat} {names : List String}
    (h : each (fun name d => Directory.addAlias d u texts target name) names d = .ok t)
    : t.Keyed u :=
  each_keeps (fun _ _ _ _ hs hstep => hs.addAlias hu hstep) hd h

theorem Keyed.resolve (hu : u.CleansOnce) (hd : d.Keyed u) {touch : ρ → ρ} {roles : ρ}
    {createIfMissing : Bool} {value : String} {id : Nat}
    (h : d.resolve u texts touch roles createIfMissing value = .ok (id, t))
    : t.Keyed u := by
  simp only [Directory.resolve, bind_eq_ok, cleanName_eq_ok] at h
  obtain ⟨_, ⟨-, rfl⟩, h⟩ := h
  split at h
  · simp only [bind_eq_ok, require_eq_ok, pure_eq_ok] at h
    obtain ⟨_, -, heq⟩ := h
    obtain ⟨-, rfl⟩ := Prod.mk.inj heq
    exact hd.modifyRecord _ _ fun r hr => hd.records _ r hr
  · simp only [bind_eq_ok, require_eq_ok] at h
    obtain ⟨_, -, h⟩ := h
    exact hd.flushRecord h (keyOf_clean hu value)

theorem Keyed.create (hu : u.CleansOnce) (hd : d.Keyed u) {roles : ρ} {value : String} {id : Nat}
    (h : d.create u texts roles value = .ok (id, t))
    : t.Keyed u := by
  simp only [Directory.create, bind_eq_ok, require_eq_ok, cleanName_eq_ok] at h
  obtain ⟨_, ⟨-, rfl⟩, _, -, h⟩ := h
  exact hd.flushRecord h (keyOf_clean hu value)

theorem Keyed.updateName (hu : u.CleansOnce) (hd : d.Keyed u) {id : Nat} {r : Reference ρ}
    (hr : d.records.get? id = some r) {value : String}
    (h : d.updateName u texts id r value = .ok t)
    : t.Keyed u := by
  simp only [Directory.updateName, bind_eq_ok, cleanName_eq_ok] at h
  obtain ⟨_, ⟨-, rfl⟩, h⟩ := h
  split at h
  · next hsame =>
      obtain rfl := pure_eq_ok.mp h
      refine hd.modifyRecord _ _ fun r' hr' => ?_
      obtain rfl : r = r' := Option.some.inj (hr.symm.trans hr')
      have hkey := keyOf_clean hu value
      rwa [hsame] at hkey
  · simp only [Directory.rename, bind_eq_ok] at h
    obtain ⟨_, -, h⟩ := h
    have hrenamed := hd.modifyRecord id
      (fun r => { r with
        name := u.cleanReferenceName value
        normalizedName := u.normalizeReferenceName (u.cleanReferenceName value) })
      fun _ _ => keyOf_clean hu value
    exact (hrenamed.filterAliases _).addAlias hu h

theorem Keyed.deleteAlias (hd : d.Keyed u) {aliasId : Nat} (h : d.deleteAlias aliasId = .ok t)
    : t.Keyed u := by
  simp only [Directory.deleteAlias, bind_eq_ok, require_eq_ok, pure_eq_ok] at h
  obtain ⟨_, -, rfl⟩ := h
  exact hd.filterAliases _

theorem Keyed.setActive (hd : d.Keyed u) {id : Nat} {active : Bool}
    (h : d.setActive id active = .ok t)
    : t.Keyed u := by
  simp only [Directory.setActive, bind_eq_ok, require_eq_ok, pure_eq_ok] at h
  obtain ⟨_, -, rfl⟩ := h
  exact hd.modifyRecord _ _ fun r hr => hd.records _ r hr

end Directory

-- Runs

namespace ReferenceStore

variable {s t : ReferenceStore} {u : Unicode}

/-- Names are unique, each leads to a record, and each row stores the key of its name. -/
structure WellNamed (u : Unicode) (s : ReferenceStore) : Prop extends NamesSound s where
  organizationKeys : s.organizations.Keyed u
  costCentreKeys : s.costCentres.Keyed u

/-- Both directories store the keys of their names. -/
structure KeysStored (u : Unicode) (s : ReferenceStore) : Prop where
  organizations : s.organizations.Keyed u
  costCentres : s.costCentres.Keyed u

/-- Each request keeps the stored keys right. -/
theorem KeysStored.step (hu : u.CleansOnce) (hs : s.KeysStored u) {request : Request}
    (h : step u request s = .ok t)
    : t.KeysStored u := by
  obtain ⟨horganizations, hcostCentres⟩ := hs
  cases request with
  | resolveOrganization value role createIfMissing =>
      simp only [ReferenceStore.step, resolveOrganization, bind_eq_ok, pure_eq_ok] at h
      obtain ⟨⟨id, d⟩, hd, rfl⟩ := h
      exact ⟨horganizations.resolve hu hd, hcostCentres⟩
  | createOrganization name roles =>
      simp only [ReferenceStore.step, createOrganization, bind_eq_ok, require_eq_ok,
        pure_eq_ok] at h
      obtain ⟨_, -, ⟨id, d⟩, hd, rfl⟩ := h
      exact ⟨horganizations.create hu hd, hcostCentres⟩
  | updateOrganization id name isPublisher isSupplier =>
      cases name with
      | none =>
          simp only [ReferenceStore.step, updateOrganization, bind_eq_ok, found_eq_ok,
            require_eq_ok, pure_eq_ok] at h
          obtain ⟨organization, -, _, -, _, -, _, -, _, rfl, rfl⟩ := h
          exact ⟨horganizations.modifyRecord _ _ fun r hr => horganizations.records _ r hr,
            hcostCentres⟩
      | some name =>
          simp only [ReferenceStore.step, updateOrganization, bind_eq_ok, found_eq_ok,
            require_eq_ok, pure_eq_ok] at h
          obtain ⟨organization, hstored, _, -, _, -, _, -, d, hd, _, rfl, rfl⟩ := h
          have hrenamed : d.Keyed u := horganizations.updateName hu hstored hd
          exact ⟨hrenamed.modifyRecord _ _ fun r hr => hrenamed.records _ r hr, hcostCentres⟩
  | addOrganizationAlias id name =>
      simp only [ReferenceStore.step, addOrganizationAlias, bind_eq_ok, found_eq_ok,
        pure_eq_ok] at h
      obtain ⟨r, hr, d, hd, rfl⟩ := h
      exact ⟨horganizations.addAlias hu hd, hcostCentres⟩
  | deleteOrganizationAlias aliasId =>
      simp only [ReferenceStore.step, deleteOrganizationAlias, bind_eq_ok, pure_eq_ok] at h
      obtain ⟨d, hd, rfl⟩ := h
      exact ⟨horganizations.deleteAlias hd, hcostCentres⟩
  | setOrganizationActive id active =>
      simp only [ReferenceStore.step, setOrganizationActive, bind_eq_ok, pure_eq_ok] at h
      obtain ⟨d, hd, rfl⟩ := h
      exact ⟨horganizations.setActive hd, hcostCentres⟩
  | deleteOrganization id =>
      simp only [ReferenceStore.step, deleteOrganization, bind_eq_ok, require_eq_ok,
        pure_eq_ok] at h
      obtain ⟨_, -, _, -, rfl⟩ := h
      exact ⟨horganizations.remove id, hcostCentres⟩
  | mergeOrganizations source target =>
      obtain ⟨-, from', into, names, d, -, -, -, hd, rfl⟩ :=
        mergeOrganizationsBody_ok (committed_eq_ok.mp h)
      have hjoined := horganizations.modifyRecord target
        (fun r => { r with roles := ⟨r.roles.isPublisher || from'.roles.isPublisher,
          r.roles.isSupplier || from'.roles.isSupplier⟩ })
        fun r hr => horganizations.records _ r hr
      exact ⟨(hjoined.remove source).addAliases hu hd, hcostCentres⟩
  | resolveCostCentre value createIfMissing =>
      simp only [ReferenceStore.step, resolveCostCentre, bind_eq_ok, pure_eq_ok] at h
      obtain ⟨⟨id, d⟩, hd, rfl⟩ := h
      exact ⟨horganizations, hcostCentres.resolve hu hd⟩
  | createCostCentre name =>
      simp only [ReferenceStore.step, createCostCentre, bind_eq_ok, pure_eq_ok] at h
      obtain ⟨⟨id, d⟩, hd, rfl⟩ := h
      exact ⟨horganizations, hcostCentres.create hu hd⟩
  | updateCostCentre id name =>
      simp only [ReferenceStore.step, updateCostCentre, bind_eq_ok, found_eq_ok] at h
      obtain ⟨costCentre, hstored, h⟩ := h
      cases name with
      | none =>
          obtain rfl := pure_eq_ok.mp h
          exact ⟨horganizations, hcostCentres⟩
      | some name =>
          simp only [bind_eq_ok, pure_eq_ok] at h
          obtain ⟨d, hd, mirrors, -, rfl⟩ := h
          exact ⟨horganizations, hcostCentres.updateName hu hstored hd⟩
  | addCostCentreAlias id name =>
      simp only [ReferenceStore.step, addCostCentreAlias, bind_eq_ok, found_eq_ok,
        pure_eq_ok] at h
      obtain ⟨r, hr, d, hd, rfl⟩ := h
      exact ⟨horganizations, hcostCentres.addAlias hu hd⟩
  | deleteCostCentreAlias aliasId =>
      simp only [ReferenceStore.step, deleteCostCentreAlias, bind_eq_ok, pure_eq_ok] at h
      obtain ⟨d, hd, rfl⟩ := h
      exact ⟨horganizations, hcostCentres.deleteAlias hd⟩
  | setCostCentreActive id active =>
      simp only [ReferenceStore.step, setCostCentreActive, bind_eq_ok, pure_eq_ok] at h
      obtain ⟨d, hd, rfl⟩ := h
      exact ⟨horganizations, hcostCentres.setActive hd⟩
  | deleteCostCentre id =>
      simp only [ReferenceStore.step, deleteCostCentre, bind_eq_ok, require_eq_ok,
        pure_eq_ok] at h
      obtain ⟨_, -, _, -, rfl⟩ := h
      exact ⟨horganizations, hcostCentres.remove id⟩
  | mergeCostCentres source target =>
      obtain ⟨-, from', into, names, viewers, d, mirrors, -, -, -, -, hd, -, rfl⟩ :=
        mergeCostCentresBody_ok (committed_eq_ok.mp h)
      exact ⟨horganizations, (hcostCentres.remove source).addAliases hu hd⟩
  | writeMirrors mirrors =>
      obtain rfl := Except.ok.inj h
      exact ⟨horganizations, hcostCentres⟩

theorem Reached.wellNamed (hu : u.CleansOnce) (h : Reached u s) : s.WellNamed u := by
  have hkeys : s.KeysStored u := by
    refine Reachable.invariant ⟨⟨?_, ?_⟩, ⟨?_, ?_⟩⟩ (fun _ _ _ hs _ hstep => hs.step hu hstep) h
    all_goals intro _ _ hrow; simp at hrow
  exact { toNamesSound := h.namesSound,
          organizationKeys := hkeys.organizations, costCentreKeys := hkeys.costCentres }

end ReferenceStore

end LicenseTrack.References
