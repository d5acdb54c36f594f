import LicenseTrack.References.StoredKeys

/-! A merge keeps every name leading somewhere: the source's names lead to the target, the
others stay, no column points to the source any more, and the mirrors follow the target's name.
-/

namespace LicenseTrack.References

open Library

namespace Directory

variable {ρ : Type} {d t : Directory ρ} {u : Unicode} {texts : ReferenceTexts}

/-- The record that a name leads to after a merge. -/
def redirect (source target id : Nat) : Nat := if id = source then target else id

theorem names_merge (hd : d.Keyed u) {source target : Nat} (hne : source ≠ target)
    {from' into : Reference ρ} (hfrom : d.records.get? source = some from')
    (hinto : d.records.get? target = some into) {names : List String}
    (hvalid : d.validateAliasTransfer u texts source target into.normalizedName []
      (d.ownNames source from') = .ok names)
    {e : Directory ρ} (he : e.Sound)
    (hwithout : ∀ key i, e.Names key i ↔ d.Names key i ∧ i ≠ source) {r : Reference ρ}
    (hr : e.records.get? target = some r)
    (hadds : each (fun name d => Directory.addAlias d u texts target name) names e = .ok t)
    (key : String) (i : Nat)
    : t.Names key i ↔ (d.Names key i ∧ i ≠ source) ∨ (i = target ∧ d.Names key source) := by
  obtain ⟨-, -, hnames⟩ := addAliases_ok he hr hadds
  obtain ⟨hfrom', hkept⟩ := validateAliasTransfer_ok hvalid
  rw [hnames, hwithout]
  constructor
  · rintro (hkeep | ⟨rfl, name, hname, rfl⟩)
    · exact .inl hkeep
    · -- A moved name is one of the source's own.
      obtain ⟨own, hown, rfl⟩ := hfrom' name hname
      refine .inr ⟨rfl, (names_iff_ownNames hd hfrom).mpr ⟨own, hown, ?_⟩⟩
      rw [clean_ownNames hd hfrom hown]
  · rintro (hkeep | ⟨rfl, hsource⟩)
    · exact .inl hkeep
    · obtain ⟨own, hown, rfl⟩ := (names_iff_ownNames hd hfrom).mp hsource
      rcases hkept own hown with hseen | htarget | ⟨other, hother, hmoved, hkey⟩
      · simp at hseen
      · exact .inl ⟨.inl ⟨into, hinto, htarget.symm⟩, hne.symm⟩
      · refine .inr ⟨rfl, other, ?_, hkey.symm⟩
        rwa [clean_ownNames hd hfrom hother] at hmoved

theorem find_merge (hd : d.Sound) (ht : t.Sound) {source target : Nat} (hne : source ≠ target)
    (hnames : ∀ key i,
      t.Names key i ↔ (d.Names key i ∧ i ≠ source) ∨ (i = target ∧ d.Names key source))
    (key : String)
    : (t.find key).map Prod.fst = ((d.find key).map Prod.fst).map (redirect source target) := by
  ext id
  rw [find_iff ht.unambiguous ht.owned, hnames, Option.map_eq_some_iff]
  simp only [find_iff hd.unambiguous hd.owned, redirect]
  constructor
  · rintro (⟨hkey, hother⟩ | ⟨rfl, hkey⟩)
    · exact ⟨id, hkey, if_neg hother⟩
    · exact ⟨source, hkey, if_pos rfl⟩
  · rintro ⟨before, hkey, rfl⟩
    split
    · next h => exact .inr ⟨rfl, h ▸ hkey⟩
    · next h => exact .inl ⟨hkey, h⟩

end Directory

-- Mirrors

namespace Mirrors

variable {s t : Mirrors}

theorem organizationMirrors_map (f : Mirror → Mirror)
    : (s.mapOrganization f).organizationMirrors = s.organizationMirrors.map f := by
  simp [organizationMirrors, mapOrganization, Table.mapRows, List.flatMap_map, List.map_flatMap,
    Function.comp_def]

theorem organizationMirrors_merge {source target : Nat} (hne : source ≠ target) {name : String}
    {m : Mirror}
    (hm : m ∈ ((s.repointOrganization source target).syncOrganization target name).organizationMirrors)
    : m.id ≠ some source ∧ (m.id = some target → m.name = some name) := by
  rw [syncOrganization, organizationMirrors_map, repointOrganization, organizationMirrors_map] at hm
  simp only [List.map_map, List.mem_map, Function.comp_apply] at hm
  obtain ⟨m', -, rfl⟩ := hm
  unfold Mirror.repoint
  split
  · simp [Mirror.sync, Ne.symm hne]
  · next hother =>
      unfold Mirror.sync
      split
      · next htarget => exact ⟨hother, fun _ => rfl⟩
      · next htarget => exact ⟨hother, fun h => absurd h htarget⟩

theorem moveAccess_source {source target : Nat} (hne : source ≠ target) {name : String}
    {accessId key : Nat} {a : UserDepartmentAccess}
    (ha : (s.moveAccess target name accessId).viewers.get? key = some a)
    (hsource : a.costCentreId = some source)
    : key ≠ accessId ∧ s.viewers.get? key = some a := by
  unfold moveAccess at ha
  split at ha
  · next hmissing =>
      refine ⟨fun hkey => ?_, ha⟩
      rw [hkey, hmissing] at ha
      cases ha
  · split at ha
    · rw [Table.get?_modify] at ha
      obtain ⟨b, hb, rfl⟩ := Option.map_eq_some_iff.mp ha
      by_cases hkey : key = accessId
      · simp [hkey, Ne.symm hne] at hsource
      · exact ⟨hkey, by simpa [hkey] using hb⟩
    · simp only [Table.get?_filter, Option.filter_eq_some_iff, bne_iff_ne] at ha
      exact ⟨ha.2, ha.1⟩

theorem moveAccesses_source {source target : Nat} (hne : source ≠ target) {name : String}
    {ids : List Nat}
    (h : each (fun accessId (m : Mirrors) => do
        (m.moveAccess target name accessId).accessConstraint
        pure (m.moveAccess target name accessId)) ids s = .ok t)
    : t.licenses = s.licenses ∧ ∀ key a, t.viewers.get? key = some a →
      a.costCentreId = some source → key ∉ ids ∧ s.viewers.get? key = some a := by
  induction ids generalizing s with
  | nil =>
      obtain rfl : s = t := by simpa [each] using h
      exact ⟨rfl, fun key a ha _ => ⟨List.not_mem_nil, ha⟩⟩
  | cons head rest ih =>
      obtain ⟨m, hm, hrest⟩ := bind_eq_ok.mp h
      simp only [bind_eq_ok, pure_eq_ok] at hm
      obtain ⟨_, -, rfl⟩ := hm
      obtain ⟨hlicenses, hleft⟩ := ih hrest
      refine ⟨hlicenses.trans ?_, fun key a ha hsource => ?_⟩
      · unfold moveAccess
        split
        · rfl
        · split <;> rfl
      · obtain ⟨hnot, hstored⟩ := hleft key a ha hsource
        obtain ⟨hkey, hbefore⟩ := moveAccess_source hne hstored hsource
        exact ⟨by simp [hkey, hnot], hbefore⟩

theorem syncCostCentre_ok {id : Nat} {name : String} (h : s.syncCostCentre id name = .ok t)
    : (∀ key l', t.licenses.get? key = some l' → ∃ l, s.licenses.get? key = some l
        ∧ l'.costCentre = l.costCentre.sync id name)
      ∧ ∀ key a', t.viewers.get? key = some a' → ∃ a, s.viewers.get? key = some a
        ∧ a'.costCentreId = a.costCentreId
        ∧ (a'.costCentreId = some id → a'.department = name) := by
  simp only [syncCostCentre, bind_eq_ok, require_eq_ok, pure_eq_ok] at h
  obtain ⟨_, -, _, -, rfl⟩ := h
  refine ⟨fun key l' hl => ?_, fun key a' ha => ?_⟩
  · rw [Table.get?_mapRows] at hl
    obtain ⟨l, hstored, rfl⟩ := Option.map_eq_some_iff.mp hl
    exact ⟨l, hstored, rfl⟩
  · rw [Table.get?_mapRows, Table.get?_filter] at ha
    obtain ⟨a, hkept, rfl⟩ := Option.map_eq_some_iff.mp ha
    refine ⟨a, (Option.filter_eq_some_iff.mp hkept).1, ?_⟩
    split
    · exact ⟨rfl, fun _ => rfl⟩
    · next hother => exact ⟨rfl, fun h => absurd h hother⟩

end Mirrors

-- The merges

namespace ReferenceStore

variable {s t : ReferenceStore} {u : Unicode}

/-- What a merge makes of the names: those of the source lead to the target, the others lead
where they led, and the records beside the two are as they were.
-/
structure NamesFollow {ρ : Type} (d t : Directory ρ) (source target : Nat) : Prop where
  resolves : ∀ key, (t.find key).map Prod.fst
    = ((d.find key).map Prod.fst).map (Directory.redirect source target)
  gone : t.records.get? source = none
  others : ∀ id, id ≠ source → id ≠ target → t.records.get? id = d.records.get? id

/-- What a successful merge of organisations leaves. -/
structure OrganizationsFollow (s t : ReferenceStore) (source target : Nat) : Prop where
  names : NamesFollow s.organizations t.organizations source target
  freed : ∀ m ∈ t.mirrors.organizationMirrors, m.id ≠ some source
  mirrored : ∃ r, t.organizations.records.get? target = some r
    ∧ ∀ m ∈ t.mirrors.organizationMirrors, m.id = some target → m.name = some r.name

/-- What a successful merge of cost centres leaves. -/
structure CostCentresFollow (s t : ReferenceStore) (source target : Nat) : Prop where
  names : NamesFollow s.costCentres t.costCentres source target
  licensesFreed : ∀ key l, t.mirrors.licenses.get? key = some l → l.costCentre.id ≠ some source
  viewersFreed : ∀ key a, t.mirrors.viewers.get? key = some a → a.costCentreId ≠ some source
  mirrored : ∃ r, t.costCentres.records.get? target = some r
    ∧ (∀ key l, t.mirrors.licenses.get? key = some l → l.costCentre.id = some target →
      l.costCentre.name = some r.name)
    ∧ ∀ key a, t.mirrors.viewers.get? key = some a → a.costCentreId = some target →
      a.department = r.name

theorem OrganizationsMerged.follow (hs : s.WellNamed u) {source target : Nat}
    (h : OrganizationsMerged u s t source target)
    : OrganizationsFollow s t source target := by
  have ht := hs.mergeOrganizations h
  obtain ⟨hne, from', into, names, d, hfrom, hinto, hvalid, hd, rfl⟩ := h
  obtain ⟨habsorbed, r, hr⟩ := sound_absorb hs.organizations hne from'.roles hinto
  obtain ⟨-, hrecords, -⟩ := Directory.addAliases_ok habsorbed hr hd
  have hwithout : ∀ key i,
      (s.absorbOrganization source target from'.roles).organizations.Names key i
        ↔ s.organizations.Names key i ∧ i ≠ source := fun key i => by
    refine Directory.names_remove.trans (and_congr_left' (Directory.names_modifyRecord ?_))
    exact fun _ => rfl
  have hnames := Directory.names_merge hs.organizationKeys hne hfrom hinto hvalid habsorbed
    hwithout hr hd
  have hget : ∀ id, d.records.get? id
      = (s.absorbOrganization source target from'.roles).organizations.records.get? id :=
    fun id => by rw [hrecords]
  have hstored : ∃ r, d.records.get? target = some r ∧ r.name = into.name := by
    refine ⟨{ into with roles :=
      ⟨into.roles.isPublisher || from'.roles.isPublisher,
        into.roles.isSupplier || from'.roles.isSupplier⟩ }, ?_, rfl⟩
    rw [hget]
    exact (Directory.get?_remove_ne (Ne.symm hne)).trans
      (by rw [Table.get?_modify_self, hinto, Option.map_some])
  refine ⟨⟨Directory.find_merge hs.organizations ht.organizations hne hnames, ?_,
      fun id hsource htarget => ?_⟩,
    fun m hm => (Mirrors.organizationMirrors_merge hne hm).1, ?_⟩
  · exact (hget source).trans (Directory.get?_remove_self source)
  · exact (hget id).trans ((Directory.get?_remove_ne hsource).trans
      (Table.get?_modify_ne _ _ htarget))
  · obtain ⟨r', hr', hname⟩ := hstored
    exact ⟨r', hr', fun m hm => hname ▸ (Mirrors.organizationMirrors_merge hne hm).2⟩

theorem CostCentresMerged.follow (hs : s.WellNamed u) {source target : Nat}
    (h : CostCentresMerged u s t source target)
    : CostCentresFollow s t source target := by
  have ht := hs.mergeCostCentres h
  obtain ⟨hne, from', into, names, assigned, d, mirrors, hfrom, hinto, hvalid, hassigned, hd,
    hsynced, rfl⟩ := h
  have hr : (s.costCentres.remove source).records.get? target = some into :=
    (Directory.get?_remove_ne (Ne.symm hne)).trans hinto
  have hremoved := hs.costCentres.remove source
  obtain ⟨-, hrecords, -⟩ := Directory.addAliases_ok hremoved hr hd
  have hnames := Directory.names_merge hs.costCentreKeys hne hfrom hinto hvalid hremoved
    (fun key i => Directory.names_remove) hr hd
  have hget : ∀ id, d.records.get? id = (s.costCentres.remove source).records.get? id :=
    fun id => by rw [hrecords]
  obtain ⟨hlicenses, hviewers⟩ := Mirrors.moveAccesses_source hne hassigned
  obtain ⟨hsyncedLicenses, hsyncedViewers⟩ := Mirrors.syncCostCentre_ok hsynced
  refine ⟨⟨Directory.find_merge hs.costCentres ht.costCentres hne hnames, ?_,
      fun id hsource _ => ?_⟩, fun key l hl => ?_, fun key a ha hsource => ?_,
    into, (hget target).trans hr, fun key l hl htarget => ?_, fun key a ha => ?_⟩
  · exact (hget source).trans (Directory.get?_remove_self source)
  · exact (hget id).trans (Directory.get?_remove_ne hsource)
  · obtain ⟨l', hl', hcostCentre⟩ := hsyncedLicenses key l hl
    rw [hlicenses, Table.get?_mapRows] at hl'
    obtain ⟨l₀, -, rfl⟩ := Option.map_eq_some_iff.mp hl'
    rw [hcostCentre]
    unfold Mirror.sync Mirror.repoint
    grind
  · obtain ⟨a', ha', hid, -⟩ := hsyncedViewers key a ha
    obtain ⟨hnot, hbefore⟩ := hviewers key a' ha' (hid ▸ hsource)
    exact hnot (Table.mem_select.mpr ⟨a', hbefore, by simpa [hid] using hsource⟩)
  · obtain ⟨l', -, hcostCentre⟩ := hsyncedLicenses key l hl
    rw [hcostCentre] at htarget ⊢
    unfold Mirror.sync at htarget ⊢
    grind
  · exact (hsyncedViewers key a ha).choose_spec.2.2

/-- A merge in a store with unique names either keeps every name leading to its record, the
source standing for the target, moves every column and mirror, or raises and changes nothing.
-/
theorem merge_keepsNames (hs : s.WellNamed u) (source target : Nat)
    : ((mergeOrganizations u source target s).1 = .ok () →
        OrganizationsFollow s (mergeOrganizations u source target s).2 source target)
      ∧ (∀ failure, (mergeOrganizations u source target s).1 = .error failure →
        (mergeOrganizations u source target s).2 = s)
      ∧ ((mergeCostCentres u source target s).1 = .ok () →
        CostCentresFollow s (mergeCostCentres u source target s).2 source target)
      ∧ ∀ failure, (mergeCostCentres u source target s).1 = .error failure →
        (mergeCostCentres u source target s).2 = s := by
  refine ⟨fun hok => ?_, fun failure herror => ?_, fun hok => ?_, fun failure herror => ?_⟩
  all_goals simp only [mergeOrganizations, mergeCostCentres, beginNested] at *
  · split at hok
    · next t hbody => exact (mergeOrganizationsBody_ok hbody).follow hs
    · cases hok
  · split at herror
    · cases herror
    · rfl
  · split at hok
    · next t hbody => exact (mergeCostCentresBody_ok hbody).follow hs
    · cases hok
  · split at herror
    · cases herror
    · rfl

/-- Acme with its alias Ajax, merged into Apex: both names lead to Apex. -/
theorem merge_keepsNames_acme
    : ∃ s, runAll (step .ascii)
          [.createOrganization "Acme" ⟨true, false⟩, .createOrganization "Apex" ⟨false, true⟩,
            .addOrganizationAlias 1 "Ajax"] {} = some s
        ∧ OrganizationsFollow s (mergeOrganizations .ascii 1 2 s).2 1 2
        ∧ ((mergeOrganizations .ascii 1 2 s).2.organizations.find "ajax").map Prod.fst = some 2 := by
  obtain ⟨s, hs⟩ : ∃ s, runAll (step .ascii)
      [.createOrganization "Acme" ⟨true, false⟩, .createOrganization "Apex" ⟨false, true⟩,
        .addOrganizationAlias 1 "Ajax"] {} = some s := Option.isSome_iff_exists.mp (by decide +kernel)
  have hrun : (runAll (step .ascii)
      [.createOrganization "Acme" ⟨true, false⟩, .createOrganization "Apex" ⟨false, true⟩,
        .addOrganizationAlias 1 "Ajax"] {}).map (fun s =>
          ((mergeOrganizations .ascii 1 2 s).1.isOk, (s.organizations.find "ajax").map Prod.fst))
      = some (true, some 1) := by decide +kernel
  rw [hs, Option.map_some, Option.some.injEq, Prod.mk.injEq] at hrun
  have hreached : Reached .ascii s := .of_runAll .start (fun _ _ _ => trivial) hs
  have hmerged := (merge_keepsNames (hreached.wellNamed Unicode.ascii_cleansOnce) 1 2).1
    (exists_ok hrun.1).choose_spec
  refine ⟨s, hs, hmerged, ?_⟩
  rw [hmerged.names.resolves, hrun.2]
  rfl

end ReferenceStore

end LicenseTrack.References
