import LicenseTrack.Extensions.SignedFiles
import Mathlib.Data.List.Pairwise

/-! What an extraction leaves in the storage: nothing new, or the files of the package and its copy
in the directory of the version, unless the package has a file where the copy goes.
-/

namespace LicenseTrack

open Library

namespace ExtensionPackage

theorem pathParts_eq_singleton {text : String} (hslash : '/' ∉ text.toList) (hempty : text ≠ "")
    (hdot : text ≠ ".")
    : pathParts text = [text] := by
  have hne : text.toList ≠ [] := fun h => hempty (String.toList_inj.mp h)
  have hnd : text.toList ≠ ['.'] := fun h => hdot (String.toList_inj.mp h)
  rw [pathParts, List.splitOn_eq_singleton hslash]
  simp [hne, hnd]

theorem pathParts_key (manifest : PluginManifest) : pathParts manifest.key = [manifest.key] := by
  have hslug := manifest.key_slug
  simp only [isSlug, Bool.and_eq_true, List.all_eq_true] at hslug
  have hletters := hslug.1.1.1.2
  apply pathParts_eq_singleton
  · exact fun hm => absurd (hletters _ hm) (by decide)
  · intro he
    simp [he] at hslug
  · intro he
    exact absurd (hletters '.' (by simp [he])) (by decide)

theorem key_ne_staging (manifest : PluginManifest) : manifest.key ≠ ".staging" := by
  intro he
  have hslug := manifest.key_slug
  rw [he] at hslug
  exact absurd hslug (by decide)

theorem slash_mem_readDigits {u : Unicode} (hslash : u.digit '/' = none) {letters : List Char}
    (value : Nat) (hm : '/' ∈ letters)
    : '/' ∈ (readDigits u value letters).2 := by
  induction letters generalizing value with
  | nil => cases hm
  | cons c rest ih =>
      unfold readDigits
      cases hc : u.digit c with
      | none => exact hm
      | some d =>
          rcases List.mem_cons.mp hm with rfl | hm
          · rw [hslash] at hc
            cases hc
          · exact ih _ hm

theorem slash_mem_readVersionNumber {u : Unicode} (hslash : u.digit '/' = none)
    {letters rest : List Char} {n : Nat} (h : readVersionNumber u letters = some (n, rest))
    (hm : '/' ∈ letters)
    : '/' ∈ rest := by
  unfold readVersionNumber at h
  split at h
  · cases h
    exact (List.mem_cons.mp hm).resolve_left (by decide)
  · next c others _ =>
      split at h
      · next hc =>
          have hrest : _ = rest := congrArg Prod.snd (Option.some.inj h)
          rw [← hrest]
          apply slash_mem_readDigits hslash
          rcases List.mem_cons.mp hm with rfl | hm
          · exact absurd hc (by decide)
          · exact hm
      · cases h
  · cases h

theorem slash_not_mem_of_matchesBuild {letters : List Char} (h : matchesBuild letters = true)
    : '/' ∉ letters := by
  unfold matchesBuild at h
  split at h
  · exact List.not_mem_nil
  · simp only [Bool.and_eq_true, List.all_eq_true] at h
    intro hm
    rcases List.mem_cons.mp hm with he | hm
    · cases he
    · exact absurd (h.2 _ hm) (by decide)
  · cases h

theorem slash_not_mem_of_matchesLabels {letters : List Char} (h : matchesLabels letters = true)
    : '/' ∉ letters := by
  unfold matchesLabels at h
  split at h
  · next label =>
      simp only [Bool.and_eq_true] at h
      intro hm
      rcases List.mem_cons.mp hm with he | hm
      · cases he
      · rw [← List.takeWhile_append_dropWhile (p := isLabelChar) (l := label)] at hm
        rcases List.mem_append.mp hm with hm | hm
        · exact absurd (List.all_eq_true.mp List.all_takeWhile _ hm) (by decide)
        · exact slash_not_mem_of_matchesBuild h.2 hm
  · exact slash_not_mem_of_matchesBuild h

theorem slash_not_mem_of_isSemver {u : Unicode} (hslash : u.digit '/' = none) {version : String}
    (h : isSemver u version = true)
    : '/' ∉ version.toList := by
  unfold isSemver versionTuple at h
  intro hm
  split at h
  · next hmajor =>
      have hm := slash_mem_readVersionNumber hslash hmajor hm
      have hm := (List.mem_cons.mp hm).resolve_left (by decide)
      split at h
      · next hminor =>
          have hm := slash_mem_readVersionNumber hslash hminor hm
          have hm := (List.mem_cons.mp hm).resolve_left (by decide)
          split at h
          · next hpatch =>
              have hm := slash_mem_readVersionNumber hslash hpatch hm
              split at h
              · next hlabels => exact slash_not_mem_of_matchesLabels hlabels hm
              · cases h
          · cases h
      · cases h
  · cases h

theorem pathParts_version {checks : Checks} {manifest : PluginManifest}
    (h : isSemver checks.unicode manifest.version = true)
    : pathParts manifest.version = [manifest.version] := by
  have hslash : checks.unicode.digit '/' = none := by
    rw [checks.digit_ascii '/' (by decide)]
    decide
  refine pathParts_eq_singleton (slash_not_mem_of_isSemver hslash h) manifest.version_ne ?_
  intro he
  rw [he] at h
  exact absurd h (by simp [isSemver, versionTuple, readVersionNumber])

-- Installable packages

theorem severity_of_mem_issues {infos : List ZipInfo}
    {found : List (String × String) × List PluginPackageIssue}
    (hfound : ∀ issue ∈ found.2, issue.severity = .error)
    : ∀ issue ∈ (infos.foldl inspectEntry found).2, issue.severity = .error := by
  induction infos generalizing found with
  | nil => exact hfound
  | cons info rest ih =>
      apply ih
      intro issue hm
      unfold inspectEntry at hm
      split at hm
      · rcases List.mem_append.mp hm with hm | hm
        · exact hfound issue hm
        · rw [List.mem_singleton.mp hm]
          rfl
      · split at hm
        · rcases List.mem_append.mp hm with hm | hm
          · exact hfound issue hm
          · rw [List.mem_singleton.mp hm]
            rfl
        · split at hm
          · rcases List.mem_append.mp hm with hm | hm
            · exact hfound issue hm
            · rw [List.mem_singleton.mp hm]
              rfl
          · exact hfound issue hm

/-- What the inspection of an installable package has established. -/
structure Installable (checks : Checks) (package : Package) (infos : List ZipInfo)
    (manifest : PluginManifest) : Prop where
  archive : package.infos = some infos
  paths : (inspectZipPaths infos).2 = []
  parsed : (inspectPluginPackage checks package).manifest = some manifest
  installable : (inspectPluginPackage checks package).installable = true
  semver : isSemver checks.unicode manifest.version = true

variable {checks : Checks} {package : Package} {infos : List ZipInfo} {manifest : PluginManifest}

theorem isSemver_of_inspectManifest {safePaths : List (String × String)}
    (hmanifest : (inspectManifest checks infos safePaths).1 = some manifest)
    (hnoError : ∀ issue ∈ (inspectManifest checks infos safePaths).2, issue.severity ≠ .error)
    : isSemver checks.unicode manifest.version = true := by
  unfold inspectManifest at hmanifest hnoError
  cases hfound : (safePaths.lookup pluginManifestFilename).bind (getinfo infos) with
  | none =>
      rw [hfound] at hmanifest
      cases hmanifest
  | some info =>
      simp only [hfound, parseManifestJson] at hmanifest hnoError
      cases hparsed : checks.validateJson info.content with
      | error issue =>
          rw [hparsed] at hmanifest
          cases hmanifest
      | ok parsed =>
          rw [hparsed] at hmanifest hnoError
          obtain rfl := Option.some.inj hmanifest
          by_contra hsemver
          let issue := errorIssue "manifest_version_invalid"
            ("version" ++ " must be semantic version format.") (some "plugin.ltplugin")
          have hissue : issue ∈ versionIssue checks.unicode "version" parsed.version := by
            rw [versionIssue, if_pos (by simp [parsed.version_ne, hsemver])]
            exact List.mem_singleton_self _
          have hcontract : issue ∈ validateManifestContract checks parsed :=
            List.mem_append_left _ (List.mem_append_left _ (List.mem_append_left _
              (List.mem_append_left _ hissue)))
          exact hnoError issue (List.mem_append_left _ hcontract) rfl

theorem installable_of_inspection (hinfos : package.infos = some infos)
    (hmanifest : (inspectPluginPackage checks package).manifest = some manifest)
    (hinstallable : (inspectPluginPackage checks package).installable = true)
    : Installable checks package infos manifest := by
  have hnoError : ∀ issue ∈ (inspectPluginPackage checks package).issues,
      issue.severity ≠ .error := by
    simp only [PluginPackageInspection.installable, Bool.and_eq_true, Bool.not_eq_true',
      List.any_eq_false, beq_iff_eq] at hinstallable
    exact hinstallable.1
  have hissues : ∀ issue, issue ∈ (inspectZipPaths infos).2
        ∨ issue ∈ (inspectManifest checks infos (inspectZipPaths infos).1).2 →
      issue.severity ≠ .error := by
    intro issue hm
    apply hnoError
    simp only [inspectPluginPackage, hinfos, List.mem_append]
    tauto
  have hpaths : (inspectZipPaths infos).2 = [] := by
    apply List.eq_nil_iff_forall_not_mem.mpr
    intro issue hm
    have hempty : ∀ issue ∈ (([], []) : List (String × String) × List PluginPackageIssue).2,
        issue.severity = .error := fun _ h => absurd h List.not_mem_nil
    exact hissues issue (.inl hm) (severity_of_mem_issues hempty issue hm)
  have hsemver : isSemver checks.unicode manifest.version = true := by
    have hparsed := hmanifest
    simp only [inspectPluginPackage, hinfos] at hparsed
    exact isSemver_of_inspectManifest hparsed fun issue hm => hissues issue (.inr hm)
  exact ⟨hinfos, hpaths, hmanifest, hinstallable, hsemver⟩

-- The staged directory

/-- An entry as a member of the staged directory. -/
def memberOf (info : ZipInfo) : Member String Bytes where
  path := pathParts ((normalizeZipPath info.filename).getD "")
  content := if info.isDir then none else some info.content

theorem PathsPass.members (h : PathsPass infos)
    : (∀ m ∈ infos.map memberOf, m.path ≠ []) ∧ ((infos.map memberOf).map (·.path)).Nodup := by
  constructor
  · intro m hm
    obtain ⟨info, hi, rfl⟩ := List.mem_map.mp hm
    obtain ⟨normalized, hnormalized⟩ := Option.isSome_iff_exists.mp (h.normal info hi)
    simpa [memberOf, hnormalized] using (posixPath_pathParts hnormalized).2
  · rw [List.map_map]
    have hnodup : (infos.map fun info => (normalizeZipPath info.filename).getD "").Nodup := by
      simpa [safePathsOf, Function.comp_def] using h.nodup
    refine List.Nodup.map_on ?_ (List.Nodup.of_map _ hnodup)
    intro info hi other ho he
    obtain ⟨path, hpath⟩ := Option.isSome_iff_exists.mp (h.normal info hi)
    obtain ⟨path', hpath'⟩ := Option.isSome_iff_exists.mp (h.normal other ho)
    simp only [Function.comp_apply, memberOf, hpath, hpath', Option.getD_some] at he
    apply h.entry_eq hi ho
    rw [hpath, hpath', ← (posixPath_pathParts hpath).1, ← (posixPath_pathParts hpath').1, he]

theorem PathsPass.extractEntries (h : PathsPass infos) (host : Host) {rest : List ZipInfo}
    (hrest : ∀ info ∈ rest, info ∈ infos) (index : Nat) (t : Tree)
    : extractEntries host infos index (safePathsOf rest) t
      = if ∀ k < rest.length, host.raises (.entry (index + k)) = false then
          FileTree.placeAll (rest.map memberOf) t
        else none := by
  induction rest generalizing index t with
  | nil => simp [safePathsOf, ExtensionPackage.extractEntries, FileTree.placeAll]
  | cons info rest ih =>
      obtain ⟨hi, hrest⟩ := List.forall_mem_cons.mp hrest
      have hstep : (∀ k < (info :: rest).length, host.raises (.entry (index + k)) = false)
          ↔ host.raises (.entry index) = false
            ∧ ∀ k < rest.length, host.raises (.entry (index + 1 + k)) = false := by
        constructor
        · intro hall
          refine ⟨hall 0 (by simp), fun k hk => ?_⟩
          have hnext := hall (k + 1) (by simpa using hk)
          rwa [Nat.add_comm k 1, ← Nat.add_assoc] at hnext
        · rintro ⟨hfirst, hall⟩ k hk
          cases k with
          | zero => exact hfirst
          | succ k =>
              have hnext := hall k (by simpa using hk)
              rwa [Nat.add_assoc, Nat.add_comm 1 k] at hnext
      simp only [safePathsOf, List.map_cons, ExtensionPackage.extractEntries, FileTree.placeAll,
        h.getinfo hi, Option.bind_some, hstep]
      cases hraises : host.raises (.entry index) with
      | true => simp
      | false =>
          simp only [Bool.false_eq_true, if_false, true_and]
          rw [show (⟨pathParts ((normalizeZipPath info.filename).getD ""),
            if info.isDir then none else some info.content⟩ : Member String Bytes)
              = memberOf info from rfl]
          cases t.place (memberOf info) with
          | none => simp
          | some placed => exact ih hrest (index + 1) placed

/-- What lets an extraction stage a package: no system error, no file where another entry needs a
directory, and no directory where the copy of the package goes.
-/
structure Stages (host : Host) (infos : List ZipInfo) : Prop where
  entries : ∀ k < infos.length, host.raises (.entry k) = false
  compatible : (infos.map memberOf).Pairwise FileTree.Compatible
  copy : host.raises .packageCopy = false
  copyFree : ∀ m ∈ infos.map memberOf, ["package.zip"] <+: m.path →
    m.path = ["package.zip"] ∧ m.content.isSome

theorem PathsPass.copyFree_iff (h : PathsPass infos)
    (hcompatible : (infos.map memberOf).Pairwise FileTree.Compatible)
    : FileTree.holding (infos.map memberOf) ["package.zip"] ≠ some .directory
      ↔ ∀ m ∈ infos.map memberOf, ["package.zip"] <+: m.path →
          m.path = ["package.zip"] ∧ m.content.isSome := by
  rw [ne_eq, FileTree.holding_eq_directory, not_and]
  constructor
  · intro hfree m hm hleads
    cases hat : FileTree.contentAt (infos.map memberOf) ["package.zip"] with
    | none => exact absurd (.inr ⟨m, hm, hleads⟩) (hfree hat)
    | some content =>
        obtain ⟨file, hfile, hpath, hcontent⟩ := (FileTree.contentAt_eq_some h.members.2).mp hat
        by_cases he : file = m
        · subst he
          exact ⟨hpath, by simp [hcontent]⟩
        · have hboth := hcompatible.forall hfile hm he
          exact absurd (hpath ▸ hleads) (hboth.1 (by simp [hcontent]))
  · intro hfree hat hneeded
    rcases hneeded with hroot | ⟨m, hm, hleads⟩
    · cases hroot
    · obtain ⟨hpath, hsome⟩ := hfree m hm hleads
      rw [FileTree.contentAt_eq_none.mp hat m hm hpath] at hsome
      cases hsome

theorem copy_eq_some (h : PathsPass infos) {content : Bytes} {staged : Tree}
    : (FileTree.holding (infos.map memberOf)).writeFile ["package.zip"] content = some staged
      ↔ FileTree.holding (infos.map memberOf) ["package.zip"] ≠ some .directory
        ∧ staged = Function.update (FileTree.holding (infos.map memberOf)) ["package.zip"]
            (some (.file content)) := by
  have hroot : FileTree.holding (infos.map memberOf) [] = some .directory :=
    FileTree.holding_eq_directory.mpr
      ⟨FileTree.contentAt_eq_none.mpr fun m hm he => absurd he (h.members.1 m hm), .inl rfl⟩
  unfold FileTree.writeFile
  rw [show ["package.zip"].dropLast = ([] : List String) from rfl, hroot]
  cases hplace : FileTree.holding (infos.map memberOf) ["package.zip"] with
  | none => simp [eq_comm]
  | some node => cases node <;> simp [eq_comm]

theorem Installable.stage_eq_some (h : Installable checks package infos manifest) (host : Host)
    {staged : Tree}
    : stage host (inspectPluginPackage checks package) = some staged
      ↔ Stages host infos
        ∧ staged = Function.update (FileTree.holding (infos.map memberOf)) ["package.zip"]
            (some (.file package.content)) := by
  have hpass := pathsPass h.paths
  have hinspection : (inspectPluginPackage checks package).package = package
      ∧ (inspectPluginPackage checks package).safePaths = safePathsOf infos := by
    simp only [inspectPluginPackage, h.archive, hpass.safePaths, and_self]
  have hentries : ∀ t, extractEntries host infos 0 (safePathsOf infos) t
      = if ∀ k < infos.length, host.raises (.entry k) = false then
          FileTree.placeAll (infos.map memberOf) t
        else none := by
    intro t
    simpa only [Nat.zero_add] using hpass.extractEntries host (fun _ hi => hi) 0 t
  have hplaced : FileTree.placeAll (infos.map memberOf) (FileTree.holding [])
      = if (infos.map memberOf).Pairwise FileTree.Compatible then
          some (FileTree.holding (infos.map memberOf)) else none :=
    FileTree.placeAll_holding List.Pairwise.nil hpass.members.1 hpass.members.2
  unfold stage
  rw [hinspection.1, hinspection.2, h.archive, Option.getD_some, hentries, hplaced]
  constructor
  · intro hstaged
    obtain ⟨extracted, hextracted, hcopy⟩ := Option.bind_eq_some_iff.mp hstaged
    split at hextracted
    · next hraises =>
        split at hextracted
        · next hcompatible =>
            obtain rfl := Option.some.inj hextracted
            split at hcopy
            · cases hcopy
            · next hcopied =>
                have hwritten := (copy_eq_some hpass).mp hcopy
                refine ⟨⟨hraises, hcompatible, Bool.eq_false_iff.mpr hcopied, ?_⟩, hwritten.2⟩
                exact (hpass.copyFree_iff hcompatible).mp hwritten.1
        · cases hextracted
    · cases hextracted
  · rintro ⟨hstages, rfl⟩
    rw [if_pos hstages.entries, if_pos hstages.compatible, Option.bind_some,
      if_neg (by rw [hstages.copy]; exact Bool.false_ne_true)]
    exact (copy_eq_some hpass).mpr
      ⟨(hpass.copyFree_iff hstages.compatible).mpr hstages.copyFree, rfl⟩

-- The extraction

/-- A path outside of the staging directory, other than the directories above the version's. -/
structure Elsewhere (manifest : PluginManifest) (path : List String) : Prop where
  root : path ≠ []
  key : path ≠ [manifest.key]
  staging : ¬ [".staging"] <+: path

/-- The files that an extraction leaves are those of the package and its copy, all in the directory of
the version, and everything else stays.
-/
structure InstalledExactly (package : Package) (infos : List ZipInfo) (manifest : PluginManifest)
    (t t' : Tree) (files : PluginInstallFiles) : Prop where
  paths : files = ⟨[manifest.key, manifest.version],
    [manifest.key, manifest.version, "package.zip"]⟩
  files : ∀ path content, t' (manifest.key :: manifest.version :: path) = some (.file content)
    ↔ (∃ normalized, (normalized, content) ∈ filesOf infos ∧ pathParts normalized = path)
      ∨ path = ["package.zip"] ∧ content = package.content
  others : ∀ path, Elsewhere manifest path → ¬ [manifest.key, manifest.version] <+: path →
    t' path = t path

/-- An extraction that fails leaves everything, and one that succeeds installs exactly the files. -/
structure ExtractedExactly (package : Package) (infos : List ZipInfo) (manifest : PluginManifest)
    (t : Tree) (result : Except InstallFailure PluginInstallFiles × Tree) : Prop where
  failed : ∀ failure, result.1 = .error failure →
    ∀ path, Elsewhere manifest path → result.2 path = t path
  installed : ∀ files, result.1 = .ok files →
    InstalledExactly package infos manifest t result.2 files

theorem extractedExactly_error {t t' : Tree} {failure : InstallFailure}
    : ExtractedExactly package infos manifest t (.error failure, t')
      ↔ ∀ path, Elsewhere manifest path → t' path = t path :=
  ⟨fun h => h.failed failure rfl, fun h => ⟨fun _ _ => h, fun _ he => nomatch he⟩⟩

theorem extractedExactly_ok {t t' : Tree} {files : PluginInstallFiles}
    : ExtractedExactly package infos manifest t (.ok files, t')
      ↔ InstalledExactly package infos manifest t t' files := by
  constructor
  · exact fun h => h.installed files rfl
  · intro h
    constructor
    · intro _ he
      cases he
    · intro _ he
      cases he
      exact h

/-- What lets an extraction come to the move of the staged directory. -/
structure ReachesMove (host : Host) (infos : List ZipInfo) (manifest : PluginManifest) (t : Tree)
    : Prop extends Stages host infos where
  fresh : t [manifest.key, manifest.version] = none
  staging : host.raises .staging = false
  versions : host.raises .versionsDirectory = false
  free : ((t.mkdirs [".staging"]).bind (·.mkdirs [manifest.key])).isSome

/-- Once an extraction has come to the move, the move leaves what was there if it raises, and if it
does not, the package has no other file at the place of its copy.
-/
def MoveExact (host : Host) (package : Package) (infos : List ZipInfo)
    (manifest : PluginManifest) (t : Tree)
    : Prop :=
  ReachesMove host infos manifest t →
    (∀ left, host.moveLeaves = some left →
      ∀ path, left path = t (manifest.key :: manifest.version :: path))
    ∧ (host.moveLeaves = none →
        ∀ content, ("package.zip", content) ∈ filesOf infos → content = package.content)

variable {host : Host} {t created : Tree}

theorem Elsewhere.removeStaged {path : List String} (h : Elsewhere manifest path) (host : Host)
    (created : Tree)
    : removeStaged host created path = created path :=
  FileTree.graft_of_not_prefix
    (fun hleads => h.staging ((List.prefix_append [".staging"] [host.tempName]).trans hleads)) _ _

theorem Elsewhere.staging_created {path : List String} (h : Elsewhere manifest path)
    (hcreated : t.mkdirs [".staging"] = some created)
    : created path = t path := by
  apply FileTree.mkdirs_of_not_prefix hcreated
  intro hleads
  rcases List.prefix_cons_iff.mp hleads with rfl | ⟨rest, rfl, hrest⟩
  · exact h.root rfl
  · obtain rfl := List.prefix_nil.mp hrest
    exact h.staging List.prefix_rfl

theorem Elsewhere.key_created {path : List String} (h : Elsewhere manifest path)
    (hcreated : t.mkdirs [manifest.key] = some created)
    : created path = t path := by
  apply FileTree.mkdirs_of_not_prefix hcreated
  intro hleads
  rcases List.prefix_cons_iff.mp hleads with rfl | ⟨rest, rfl, hrest⟩
  · exact h.root rfl
  · obtain rfl := List.prefix_nil.mp hrest
    exact h.key rfl

theorem elsewhere_version (manifest : PluginManifest) (path : List String)
    : Elsewhere manifest (manifest.key :: manifest.version :: path) where
  root := List.cons_ne_nil _ _
  key := by simp
  staging := fun hleads => key_ne_staging manifest (List.cons_prefix_cons.mp hleads).1.symm

theorem PathsPass.staged_exact_iff (h : PathsPass infos) (copy : Bytes)
    : (∀ path content,
        Function.update (FileTree.holding (infos.map memberOf)) ["package.zip"]
            (some (.file copy)) path = some (.file content)
          ↔ (∃ normalized, (normalized, content) ∈ filesOf infos ∧ pathParts normalized = path)
            ∨ path = ["package.zip"] ∧ content = copy)
      ↔ ∀ content, ("package.zip", content) ∈ filesOf infos → content = copy := by
  have hparts : pathParts "package.zip" = ["package.zip"] := by decide +kernel
  have hfile : ∀ path content,
      FileTree.holding (infos.map memberOf) path = some (.file content)
        ↔ ∃ normalized, (normalized, content) ∈ filesOf infos ∧ pathParts normalized = path := by
    intro path content
    rw [FileTree.holding_eq_file, FileTree.contentAt_eq_some h.members.2]
    simp only [mem_filesOf]
    constructor
    · rintro ⟨m, hm, rfl, hcontent⟩
      obtain ⟨info, hi, rfl⟩ := List.mem_map.mp hm
      obtain ⟨normalized, hnormalized⟩ := Option.isSome_iff_exists.mp (h.normal info hi)
      simp only [memberOf] at hcontent
      split at hcontent
      · cases hcontent
      · next hdir =>
          exact ⟨normalized, ⟨info, hi, Bool.eq_false_iff.mpr hdir, hnormalized,
            Option.some.inj hcontent⟩, by simp [memberOf, hnormalized]⟩
    · rintro ⟨normalized, ⟨info, hi, hdir, hnormalized, rfl⟩, rfl⟩
      exact ⟨memberOf info, List.mem_map_of_mem hi, by simp [memberOf, hnormalized],
        by simp [memberOf, hdir]⟩
  constructor
  · intro hexact content hm
    have hat := (hexact ["package.zip"] content).mpr (.inl ⟨_, hm, hparts⟩)
    rw [Function.update_self] at hat
    exact (Node.file.inj (Option.some.inj hat)).symm
  · intro hcopy path content
    by_cases hp : path = ["package.zip"]
    · subst hp
      rw [Function.update_self]
      constructor
      · intro hat
        exact .inr ⟨rfl, (Node.file.inj (Option.some.inj hat)).symm⟩
      · rintro (⟨normalized, hm, hpath⟩ | ⟨-, rfl⟩)
        · obtain ⟨info, -, -, hnormalized, -⟩ := mem_filesOf.mp hm
          obtain rfl : normalized = "package.zip" := by
            rw [← (posixPath_pathParts hnormalized).1, hpath]
            decide +kernel
          rw [hcopy content hm]
        · rfl
    · rw [Function.update_of_ne hp, hfile]
      simp [hp]

/-- Once the directories are made, the extraction is exact exactly where its move is. -/
theorem moved_exact_iff (h : Installable checks package infos manifest) {made staged : Tree}
    (hreaches : ReachesMove host infos manifest t)
    (hmade : ∀ path, Elsewhere manifest path → made path = t path)
    (hstaged : staged = Function.update (FileTree.holding (infos.map memberOf)) ["package.zip"]
      (some (.file package.content)))
    : ExtractedExactly package infos manifest t
        (match host.moveLeaves with
        | some left =>
            (.error .raised, removeStaged host (made.graft [manifest.key, manifest.version] left))
        | none =>
            (.ok ⟨[manifest.key, manifest.version],
                [manifest.key, manifest.version] ++ ["package.zip"]⟩,
              made.graft [manifest.key, manifest.version] staged))
      ↔ MoveExact host package infos manifest t := by
  have hinside : ∀ (sub : Tree) (path : List String),
      made.graft [manifest.key, manifest.version] sub (manifest.key :: manifest.version :: path)
        = sub path :=
    fun sub path => FileTree.graft_append made [manifest.key, manifest.version] path sub
  have houtside : ∀ (sub : Tree) (path : List String), Elsewhere manifest path →
      ¬ [manifest.key, manifest.version] <+: path →
      made.graft [manifest.key, manifest.version] sub path = t path :=
    fun sub path he hnot => Eq.trans ( FileTree.graft_of_not_prefix hnot _ _) (hmade path he)
  unfold MoveExact
  cases hmove : host.moveLeaves with
  | some left =>
      simp only [extractedExactly_error, reduceCtorEq, Option.some.injEq, forall_eq',
        IsEmpty.forall_iff, and_true]
      constructor
      · intro hkept _ path
        have hversion := elsewhere_version manifest path
        have hleft := hversion.removeStaged host
          (made.graft [manifest.key, manifest.version] left)
        rw [hinside] at hleft
        exact hleft.symm.trans (hkept _ hversion)
      · intro hleft path he
        rw [he.removeStaged host]
        by_cases hleads : [manifest.key, manifest.version] <+: path
        · obtain ⟨rest, rfl⟩ := hleads
          exact (hinside left rest).trans (hleft hreaches rest)
        · exact houtside left path he hleads
  | none =>
      simp only [extractedExactly_ok, reduceCtorEq, IsEmpty.forall_iff, forall_true_left, true_and,
        implies_true]
      have hcopy := (pathsPass h.paths).staged_exact_iff package.content
      simp only [← hstaged, ← hinside staged] at hcopy
      constructor
      · exact fun hinstalled _ => hcopy.mp hinstalled.files
      · exact fun hfree => ⟨rfl, hcopy.mpr (hfree hreaches), houtside staged⟩

/-- An extraction of an installable package is exact exactly where its move is. -/
theorem Installable.extractedExactly_iff (h : Installable checks package infos manifest)
    (host : Host) (t : Tree)
    : ExtractedExactly package infos manifest t
        (stageAndExtractPluginPackage host (inspectPluginPackage checks package) t)
      ↔ MoveExact host package infos manifest t := by
  have hfinal : pathParts manifest.key ++ pathParts manifest.version
      = [manifest.key, manifest.version] := by
    rw [pathParts_key, pathParts_version h.semver]
    rfl
  unfold stageAndExtractPluginPackage
  simp only [h.parsed, h.installable, Bool.not_true, Bool.false_eq_true, if_false, hfinal]
  -- What fails before the move leaves everything, and no move is reached.
  have hearly : ∀ {t' : Tree} {failure : InstallFailure},
      (∀ path, Elsewhere manifest path → t' path = t path) →
      ¬ ReachesMove host infos manifest t →
      (ExtractedExactly package infos manifest t (.error failure, t')
        ↔ MoveExact host package infos manifest t) :=
    fun hkept hnot =>
      iff_of_true (extractedExactly_error.mpr hkept) fun hreaches => absurd hreaches hnot
  cases hexists : t [manifest.key, manifest.version] with
  | some node =>
      refine hearly (fun _ _ => rfl) fun hreaches => ?_
      rw [hreaches.fresh] at hexists
      cases hexists
  | none =>
      simp only [Option.isSome_none, Bool.false_eq_true, if_false]
      cases hraises : host.raises .staging with
      | true =>
          refine hearly (fun _ _ => rfl) fun hreaches => ?_
          rw [hreaches.staging] at hraises
          cases hraises
      | false =>
          simp only [Bool.false_eq_true, if_false]
          cases hcreated : t.mkdirs [".staging"] with
          | none =>
              refine hearly (fun _ _ => rfl) fun hreaches => ?_
              have hfree := hreaches.free
              rw [hcreated] at hfree
              cases hfree
          | some created =>
              have hkept : ∀ path, Elsewhere manifest path →
                  removeStaged host created path = t path :=
                fun path he => (he.removeStaged host created).trans (he.staging_created hcreated)
              cases hstage : stage host (inspectPluginPackage checks package) with
              | none =>
                  refine hearly hkept fun hreaches => ?_
                  rw [(h.stage_eq_some host).mpr ⟨hreaches.toStages, rfl⟩] at hstage
                  cases hstage
              | some staged =>
                  obtain ⟨hstages, hstaged⟩ := (h.stage_eq_some host).mp hstage
                  dsimp only
                  cases hversions : host.raises .versionsDirectory with
                  | true =>
                      refine hearly hkept fun hreaches => ?_
                      rw [hreaches.versions] at hversions
                      cases hversions
                  | false =>
                      simp only [Bool.false_eq_true, if_false, List.dropLast]
                      cases hmade : created.mkdirs [manifest.key] with
                      | none =>
                          refine hearly hkept fun hreaches => ?_
                          have hfree := hreaches.free
                          rw [hcreated, Option.bind_some, hmade] at hfree
                          cases hfree
                      | some made =>
                          have hreaches : ReachesMove host infos manifest t :=
                            { hstages with
                              fresh := hexists
                              staging := hraises
                              versions := hversions
                              free := by rw [hcreated, Option.bind_some, hmade]; rfl }
                          have hmadeKept : ∀ path, Elsewhere manifest path → made path = t path :=
                            fun path he => (he.key_created hmade).trans (he.staging_created hcreated)
                          exact moved_exact_iff h hreaches hmadeKept hstaged

/-- The signature covers exactly what is installed: packages whose paths pass are hashed to the same
bytes where they have the same files, and an installable package is extracted exactly where the move
of its staged directory is exact.
-/
theorem signature_coversInstalled (checks : Checks)
    : (∀ package package' infos infos' hashed hashed',
        package.infos = some infos → package'.infos = some infos' →
        (inspectZipPaths infos).2 = [] → (inspectZipPaths infos').2 = [] →
        signedContent package (inspectZipPaths infos).1 = some hashed →
        signedContent package' (inspectZipPaths infos').1 = some hashed' →
        (hashed = hashed' ↔ SameFiles infos infos'))
      ∧ ∀ package infos manifest, package.infos = some infos →
          (inspectPluginPackage checks package).manifest = some manifest →
          (inspectPluginPackage checks package).installable = true →
          ∀ host t,
            (ExtractedExactly package infos manifest t
                (stageAndExtractPluginPackage host (inspectPluginPackage checks package) t)
              ↔ MoveExact host package infos manifest t) := by
  constructor
  · intro package package' infos infos' hashed hashed' hinfos hinfos' hpass hpass' hhashed hhashed'
    exact signedContent_eq_iff hinfos hinfos' hpass hpass' hhashed hhashed'
  · intro package infos manifest hinfos hmanifest hinstallable
    exact (installable_of_inspection hinfos hmanifest hinstallable).extractedExactly_iff

-- A package with a file at the place of its copy

/-- The manifest of a package that reads documents. -/
def readerManifest : PluginManifest where
  key := "pdf-reader"
  version := "1.2.0"
  minVersion := "1.0.0"
  maxVersionExclusive := none
  entrypoint := "runtime/main.py"
  key_slug := by decide
  version_ne := by decide

/-- Checks that read this manifest and trust every package. -/
def trustingChecks : Checks where
  unicode := .ascii
  digit_ascii := fun _ _ => rfl
  maxPackageSizeMb := 50
  appVersion := "1.4.0"
  validateJson := fun _ => .ok readerManifest
  inspectPackageTrust := fun _ _ => []

/-- The entries of the package. -/
def readerInfos : List ZipInfo :=
  [
    ⟨"plugin.ltplugin", 0, [1]⟩,
    ⟨"README.md", 0, [2]⟩,
    ⟨"LICENSE", 0, [3]⟩,
    ⟨"runtime/", 0, []⟩,
    ⟨"runtime/main.py", 0, [4]⟩,
    ⟨"SIGNATURE.json", 0, [5]⟩
  ]

/-- A system that raises nowhere. -/
def calmHost : Host where
  raises := fun _ => false
  moveLeaves := none
  debris := fun _ => none
  tempName := "pdf-reader-1.2.0-abcdefgh"

/-- A storage that holds nothing yet. -/
def emptyStorage : Tree := FileTree.holding []

/-- The bytes of a package. -/
def readerPackage (infos : List ZipInfo) : Package := ⟨[80, 75], some infos⟩

/-- The extraction of the package installs its files and its copy. -/
theorem signature_coversInstalled_reader
    : ExtractedExactly (readerPackage readerInfos) readerInfos readerManifest emptyStorage
        (stageAndExtractPluginPackage calmHost
          (inspectPluginPackage trustingChecks (readerPackage readerInfos)) emptyStorage) := by
  have hinstallable : (inspectPluginPackage trustingChecks
      (readerPackage readerInfos)).installable = true := by decide +kernel
  have hmanifest : (inspectPluginPackage trustingChecks
      (readerPackage readerInfos)).manifest = some readerManifest := rfl
  have hnone : ∀ file ∈ filesOf readerInfos, file.1 ≠ "package.zip" := by decide +kernel
  have hmove : MoveExact calmHost (readerPackage readerInfos) readerInfos readerManifest
      emptyStorage :=
    fun _ => ⟨fun left hleft => (by cases hleft), fun _ content hm => absurd rfl (hnone _ hm)⟩
  exact ((signature_coversInstalled trustingChecks).2 (readerPackage readerInfos) readerInfos
    readerManifest rfl hmanifest hinstallable calmHost emptyStorage).mpr hmove

/-- The entries with a file where the copy of the package goes. -/
def overwrittenInfos : List ZipInfo := readerInfos ++ [⟨"package.zip", 0, [9]⟩]

/-- A package with a file at the place of its copy is installable, and the file is overwritten. -/
theorem signature_packageZipOverwritten
    : (inspectPluginPackage trustingChecks (readerPackage overwrittenInfos)).installable = true
        ∧ ("package.zip", [9]) ∈ filesOf overwrittenInfos
        ∧ ¬ ExtractedExactly (readerPackage overwrittenInfos) overwrittenInfos readerManifest
            emptyStorage
            (stageAndExtractPluginPackage calmHost
              (inspectPluginPackage trustingChecks (readerPackage overwrittenInfos))
              emptyStorage) := by
  have hinstallable : (inspectPluginPackage trustingChecks
      (readerPackage overwrittenInfos)).installable = true := by decide +kernel
  have hmanifest : (inspectPluginPackage trustingChecks
      (readerPackage overwrittenInfos)).manifest = some readerManifest := rfl
  have hm : ("package.zip", [9]) ∈ filesOf overwrittenInfos := by decide +kernel
  refine ⟨hinstallable, hm, fun hexact => ?_⟩
  have hmove := ((installable_of_inspection rfl hmanifest hinstallable).extractedExactly_iff calmHost
    emptyStorage).mp hexact
  have hreaches : ReachesMove calmHost overwrittenInfos readerManifest emptyStorage :=
    {
      entries := fun _ _ => rfl
      compatible := by decide +kernel
      copy := rfl
      copyFree := by decide +kernel
      fresh := by decide +kernel
      staging := rfl
      versions := rfl
      free := by decide +kernel
    }
  have hbytes : [9] = (readerPackage overwrittenInfos).content := (hmove hreaches).2 rfl _ hm
  exact absurd hbytes (by decide)

end ExtensionPackage

end LicenseTrack
