import LicenseTrack.Extensions.Packages

/-! The bytes hashed for the signature of a package are its files: what passes the inspection of
paths is hashed to the same bytes exactly where the files are the same.
-/

namespace LicenseTrack

open Library

namespace ExtensionPackage

theorem mem_splitOn_slash {letters part : List Char} (h : part ∈ letters.splitOn '/')
    : '/' ∉ part := by
  induction letters generalizing part with
  | nil =>
      obtain rfl : part = [] := by simpa using h
      exact List.not_mem_nil
  | cons c rest ih =>
      rw [List.splitOn_cons_eq_if_modifyHead] at h
      split at h
      · rcases List.mem_cons.mp h with rfl | h
        · exact List.not_mem_nil
        · exact ih h
      · next hc =>
          cases hsplit : rest.splitOn '/' with
          | nil => exact absurd hsplit (List.splitOn_ne_nil _ _)
          | cons first others =>
              rw [hsplit, List.modifyHead_cons] at h
              rcases List.mem_cons.mp h with rfl | h
              · have hfirst := ih (hsplit ▸ List.mem_cons_self)
                intro hm
                rcases List.mem_cons.mp hm with he | hm
                · exact hc (beq_iff_eq.mpr he.symm)
                · exact hfirst hm
              · exact ih (hsplit ▸ List.mem_cons_of_mem _ h)

theorem pathParts_posixPath {path : String} (hparts : pathParts path ≠ [])
    : pathParts (posixPath (pathParts path)) = pathParts path := by
  have htoList : (pathParts path).map String.toList
      = (path.toList.splitOn '/').filter fun part => part != [] && part != ['.'] := by
    simp [pathParts, Function.comp_def]
  have hsplit : (posixPath (pathParts path)).toList.splitOn '/' = (pathParts path).map String.toList := by
    rw [posixPath, String.toList_ofList]
    apply List.splitOn_intercalate
    · intro part hm
      rw [htoList] at hm
      exact mem_splitOn_slash (List.mem_filter.mp hm).1
    · exact fun hnil => hparts (List.map_eq_nil_iff.mp hnil)
  have hkept : ((pathParts path).map String.toList).filter (fun part => part != [] && part != ['.'])
      = (pathParts path).map String.toList := by
    rw [htoList, List.filter_filter]
    simp
  rw [pathParts, hsplit, hkept]
  simp [Function.comp_def]

theorem posixPath_pathParts {path normalized : String} (h : normalizeZipPath path = some normalized)
    : posixPath (pathParts normalized) = normalized ∧ pathParts normalized ≠ [] := by
  unfold normalizeZipPath at h
  split at h
  · cases h
  · dsimp only at h
    split at h
    · cases h
    · next hparts =>
        obtain rfl := Option.some.inj h
        have hne : pathParts path ≠ [] := fun hnil => hparts (.inl hnil)
        rw [pathParts_posixPath hne]
        exact ⟨rfl, hne⟩

-- What passes the inspection of paths

/-- The files of an archive under their normalized paths. -/
def filesOf (infos : List ZipInfo) : List (String × Bytes) :=
  infos.filterMap fun info =>
    if info.isDir then none
    else (normalizeZipPath info.filename).map fun normalized => (normalized, info.content)

/-- The paths of an archive that passes, each with the name of its entry. -/
def safePathsOf (infos : List ZipInfo) : List (String × String) :=
  infos.map fun info => ((normalizeZipPath info.filename).getD "", info.filename)

theorem issues_foldl (infos : List ZipInfo)
    (found : List (String × String) × List PluginPackageIssue)
    (h : (infos.foldl inspectEntry found).2 = [])
    : found.2 = [] := by
  induction infos generalizing found with
  | nil => exact h
  | cons info rest ih =>
      have hnext := ih _ h
      unfold inspectEntry at hnext
      split at hnext
      · simp at hnext
      · split at hnext
        · simp at hnext
        · split at hnext
          · simp at hnext
          · exact hnext

theorem foldl_inspectEntry {infos : List ZipInfo} {safePaths : List (String × String)}
    (hsafe : (safePaths.map Prod.fst).Nodup)
    (h : (infos.foldl inspectEntry (safePaths, [])).2 = [])
    : (infos.foldl inspectEntry (safePaths, [])).1 = safePaths ++ safePathsOf infos
      ∧ (∀ info ∈ infos, (normalizeZipPath info.filename).isSome)
      ∧ ((safePaths ++ safePathsOf infos).map Prod.fst).Nodup := by
  induction infos generalizing safePaths with
  | nil => simpa [safePathsOf] using hsafe
  | cons info rest ih =>
      rw [List.foldl_cons] at h ⊢
      have hissues := issues_foldl rest _ h
      unfold inspectEntry at hissues h ⊢
      cases hnormalized : normalizeZipPath info.filename with
      | none => simp [hnormalized] at hissues
      | some normalized =>
          simp only [hnormalized] at hissues h ⊢
          split at hissues
          · simp at hissues
          · next hlink =>
              split at hissues
              · simp at hissues
              · next hnew =>
                  simp only [hlink, hnew, if_false, Bool.false_eq_true] at h ⊢
                  have hnodup : ((safePaths ++ [(normalized, info.filename)]).map Prod.fst).Nodup := by
                    rw [List.map_append, List.nodup_append]
                    refine ⟨hsafe, List.nodup_singleton _, ?_⟩
                    intro a ha b hb
                    obtain rfl : b = normalized := by simpa using hb
                    rintro rfl
                    exact hnew (List.contains_iff_mem.mpr ha)
                  obtain ⟨hpaths, hsome, hall⟩ := ih hnodup h
                  have hjoin : safePaths ++ [(normalized, info.filename)] ++ safePathsOf rest
                      = safePaths ++ safePathsOf (info :: rest) := by
                    simp [safePathsOf, hnormalized]
                  rw [hjoin] at hpaths hall
                  refine ⟨hpaths, ?_, hall⟩
                  exact List.forall_mem_cons.mpr ⟨by simp [hnormalized], hsome⟩

/-- What an archive whose paths pass inspection is like. -/
structure PathsPass (infos : List ZipInfo) : Prop where
  safePaths : (inspectZipPaths infos).1 = safePathsOf infos
  normal : ∀ info ∈ infos, (normalizeZipPath info.filename).isSome
  nodup : ((safePathsOf infos).map Prod.fst).Nodup

theorem pathsPass {infos : List ZipInfo} (h : (inspectZipPaths infos).2 = [])
    : PathsPass infos := by
  have hempty : (([] : List (String × String)).map Prod.fst).Nodup := List.nodup_nil
  obtain ⟨hpaths, hnormal, hnodup⟩ := foldl_inspectEntry hempty h
  exact ⟨hpaths, hnormal, hnodup⟩

variable {infos : List ZipInfo} {info : ZipInfo} {normalized : String} {content : Bytes}

theorem PathsPass.entry_eq (h : PathsPass infos) {other : ZipInfo} (hi : info ∈ infos)
    (ho : other ∈ infos) (he : normalizeZipPath info.filename = normalizeZipPath other.filename)
    : info = other := by
  have hnodup : (infos.map fun info => (normalizeZipPath info.filename).getD "").Nodup := by
    simpa [safePathsOf, Function.comp_def] using h.nodup
  exact List.inj_on_of_nodup_map hnodup hi ho (by rw [he])

theorem PathsPass.getinfo (h : PathsPass infos) (hi : info ∈ infos)
    : getinfo infos info.filename = some info := by
  unfold ExtensionPackage.getinfo
  cases hlast : (infos.filter (·.filename == info.filename)).getLast? with
  | none =>
      rw [List.getLast?_eq_none_iff] at hlast
      have hm : info ∈ infos.filter (·.filename == info.filename) := by simp [hi]
      rw [hlast] at hm
      cases hm
  | some found =>
      obtain ⟨hfound, hname⟩ := List.mem_filter.mp (List.mem_of_getLast? hlast)
      rw [h.entry_eq hfound hi (by rw [beq_iff_eq.mp hname])]

theorem lookup_of_mem {list : List (String × String)} {key value : String}
    (hnodup : (list.map Prod.fst).Nodup) (hm : (key, value) ∈ list)
    : list.lookup key = some value := by
  induction list with
  | nil => cases hm
  | cons entry rest ih =>
      rw [List.map_cons, List.nodup_cons] at hnodup
      rcases List.mem_cons.mp hm with rfl | hm
      · exact List.lookup_cons_self
      · have hne : (key == entry.1) = false := by
          rw [beq_eq_false_iff_ne]
          rintro rfl
          exact hnodup.1 (List.mem_map.mpr ⟨_, hm, rfl⟩)
        rw [List.lookup_cons, hne]
        exact ih hnodup.2 hm

theorem PathsPass.lookup (h : PathsPass infos) (hi : info ∈ infos)
    (hnormalized : normalizeZipPath info.filename = some normalized)
    : ((safePathsOf infos).lookup normalized).bind (ExtensionPackage.getinfo infos) = some info := by
  have hm : (normalized, info.filename) ∈ safePathsOf infos :=
    List.mem_map.mpr ⟨info, hi, by simp [hnormalized]⟩
  rw [lookup_of_mem h.nodup hm]
  exact h.getinfo hi

theorem mem_filesOf
    : (normalized, content) ∈ filesOf infos
      ↔ ∃ info ∈ infos, info.isDir = false ∧ normalizeZipPath info.filename = some normalized
          ∧ info.content = content := by
  simp only [filesOf, List.mem_filterMap]
  constructor
  · rintro ⟨info, hi, hfile⟩
    split at hfile
    · cases hfile
    · next hdir =>
        obtain ⟨path, hpath, he⟩ := Option.map_eq_some_iff.mp hfile
        cases he
        exact ⟨info, hi, Bool.eq_false_iff.mpr hdir, hpath, rfl⟩
  · rintro ⟨info, hi, hdir, hpath, rfl⟩
    exact ⟨info, hi, by simp [hdir, hpath]⟩

-- The signed bytes

theorem PathsPass.mem_signedEntries (h : PathsPass infos)
    : (normalized, content) ∈ signedEntries infos (inspectZipPaths infos).1
      ↔ (normalized, content) ∈ filesOf infos ∧ normalized ≠ pluginSignatureFilename := by
  have hkey : ∀ path, path ∈ ((safePathsOf infos).map Prod.fst).insertionSort (· ≤ ·)
      ↔ ∃ info ∈ infos, normalizeZipPath info.filename = some path := by
    intro path
    rw [List.mem_insertionSort]
    simp only [safePathsOf, List.map_map, List.mem_map, Function.comp_apply]
    apply exists_congr
    intro info
    refine and_congr_right fun hi => ?_
    obtain ⟨found, hfound⟩ := Option.isSome_iff_exists.mp (h.normal info hi)
    simp [hfound]
  rw [mem_filesOf, h.safePaths, signedEntries, List.mem_filterMap]
  constructor
  · rintro ⟨path, hpath, hentry⟩
    obtain ⟨info, hi, hnormalized⟩ := (hkey path).mp hpath
    split at hentry
    · cases hentry
    · next hsignature =>
        rw [h.lookup hi hnormalized, Option.bind_some] at hentry
        split at hentry
        · cases hentry
        · next hdir =>
            cases hentry
            exact ⟨⟨info, hi, Bool.eq_false_iff.mpr hdir, hnormalized, rfl⟩, hsignature⟩
  · rintro ⟨⟨info, hi, hdir, hnormalized, rfl⟩, hsignature⟩
    refine ⟨normalized, (hkey normalized).mpr ⟨info, hi, hnormalized⟩, ?_⟩
    rw [if_neg hsignature, h.lookup hi hnormalized, Option.bind_some]
    simp [hdir]

theorem PathsPass.signedEntries_pairwise (h : PathsPass infos)
    : (signedEntries infos (inspectZipPaths infos).1).Pairwise fun a b => a.1 < b.1 := by
  have hkeys : (((safePathsOf infos).map Prod.fst).insertionSort (· ≤ ·)).Pairwise (· < ·) := by
    have hle := List.pairwise_insertionSort (· ≤ ·) ((safePathsOf infos).map Prod.fst)
    have hne := (List.perm_insertionSort (· ≤ ·) _).nodup_iff.mpr h.nodup
    exact hle.imp₂ (fun _ _ hle hne => lt_of_le_of_ne hle hne) hne
  have hpath : ∀ {path : String} {entry : String × Bytes},
      (if path = pluginSignatureFilename then none
        else (((safePathsOf infos).lookup path).bind (ExtensionPackage.getinfo infos)).bind fun info =>
          if info.isDir then none else some (path, info.content)) = some entry →
      entry.1 = path := by
    intro path entry hentry
    split at hentry
    · cases hentry
    · obtain ⟨info, -, hinfo⟩ := Option.bind_eq_some_iff.mp hentry
      split at hinfo
      · cases hinfo
      · cases hinfo
        rfl
  rw [h.safePaths, signedEntries, List.pairwise_filterMap]
  refine hkeys.imp fun hlt entry hentry entry' hentry' => ?_
  rw [hpath hentry, hpath hentry']
  exact hlt

theorem eq_of_pairwise_lt {left right : List (String × Bytes)}
    (hleft : left.Pairwise fun a b => a.1 < b.1) (hright : right.Pairwise fun a b => a.1 < b.1)
    (h : ∀ entry, entry ∈ left ↔ entry ∈ right)
    : left = right := by
  have hnodup : ∀ {list : List (String × Bytes)}, list.Pairwise (fun a b => a.1 < b.1) → list.Nodup :=
    fun hlist => List.Pairwise.imp (fun hlt he => hlt.ne (congrArg Prod.fst he)) hlist
  have hperm := (List.perm_ext_iff_of_nodup (hnodup hleft) (hnodup hright)).mpr h
  exact hperm.eq_of_pairwise (fun a b _ _ hab hba => absurd hab (lt_asymm hba)) hleft hright

theorem digestUpdate_prefixFree : PrefixFree digestUpdate := by
  apply PrefixFree.pair
  · apply PrefixFree.comp (frame_prefixFree 4)
    intro a b h
    exact String.toByteArray_inj.mp (ByteArray.ext (Array.toList_inj.mp h))
  · exact frame_prefixFree 8

theorem digestUpdate_ne_nil (entry : String × Bytes) : digestUpdate entry ≠ some [] := by
  intro h
  simp only [digestUpdate, encodePair, Option.bind_eq_some_iff, Option.map_eq_some_iff] at h
  obtain ⟨path, hpath, content, -, happend⟩ := h
  obtain ⟨rfl, -⟩ := List.append_eq_nil_iff.mp happend
  exact frame_ne_nil (by decide) _ hpath

/-- The same files, the signature apart. -/
def SameFiles (infos infos' : List ZipInfo) : Prop :=
  ∀ path content, path ≠ pluginSignatureFilename →
    ((path, content) ∈ filesOf infos ↔ (path, content) ∈ filesOf infos')

theorem signedContent_eq_iff {package package' : Package} {infos infos' : List ZipInfo}
    {hashed hashed' : Bytes} (hinfos : package.infos = some infos)
    (hinfos' : package'.infos = some infos') (hpass : (inspectZipPaths infos).2 = [])
    (hpass' : (inspectZipPaths infos').2 = [])
    (hhashed : signedContent package (inspectZipPaths infos).1 = some hashed)
    (hhashed' : signedContent package' (inspectZipPaths infos').1 = some hashed')
    : hashed = hashed' ↔ SameFiles infos infos' := by
  have h := pathsPass hpass
  have h' := pathsPass hpass'
  unfold signedContent at hhashed hhashed'
  simp only [hinfos, hinfos'] at hhashed hhashed'
  constructor
  · rintro rfl path content hsignature
    have hsame := digestUpdate_prefixFree.encodeAll_inj digestUpdate_ne_nil hhashed hhashed'
    have hentries : (path, content) ∈ signedEntries infos (inspectZipPaths infos).1
        ↔ (path, content) ∈ signedEntries infos' (inspectZipPaths infos').1 := by rw [hsame]
    rw [h.mem_signedEntries, h'.mem_signedEntries] at hentries
    simpa only [hsignature, ne_eq, not_false_eq_true, and_true] using hentries
  · intro hsame
    have hentries : signedEntries infos (inspectZipPaths infos).1
        = signedEntries infos' (inspectZipPaths infos').1 := by
      apply eq_of_pairwise_lt h.signedEntries_pairwise h'.signedEntries_pairwise
      rintro ⟨path, content⟩
      rw [h.mem_signedEntries, h'.mem_signedEntries]
      exact and_congr_left fun hsignature => hsame path content hsignature
    rw [hentries] at hhashed
    exact Option.some.inj (hhashed.symm.trans hhashed')

end ExtensionPackage

end LicenseTrack
