import LicenseTrack.Library.FileTree
import LicenseTrack.Library.Framing
import LicenseTrack.Model.Text
import Mathlib.Data.List.Sort
import Mathlib.Data.String.Basic

/-! Extension packages: the inspection of their entries and manifest, the bytes that are hashed for
the signature, and the extraction to the directory of the installed version.
-/

namespace LicenseTrack

open Library

namespace ExtensionPackage

/-- The bytes of a file. -/
abbrev Bytes := List UInt8

/-- An entry of a zip archive, with the bytes that reading it returns each time. -/
structure ZipInfo where
  filename : String
  externalAttr : Nat
  content : Bytes

/-- `info.is_dir()`. -/
def ZipInfo.isDir (info : ZipInfo) : Bool := info.filename.toList.getLast? == some '/'

/-- `_is_symlink`. -/
def isSymlink (info : ZipInfo) : Bool :=
  (info.externalAttr >>> 16) &&& 0o170000 == 0o120000

/-- An uploaded package with the entries of its archive, none where it is not a zip archive. -/
structure Package where
  content : Bytes
  infos : Option (List ZipInfo)

/-- `archive.getinfo`, which takes the last entry of a name. -/
def getinfo (infos : List ZipInfo) (name : String) : Option ZipInfo :=
  (infos.filter (·.filename == name)).getLast?

/-- The parts of a relative `PurePosixPath`, which drops empty parts and dots. -/
def pathParts (path : String) : List String :=
  ((path.toList.splitOn '/').filter fun part => part != [] && part != ['.']).map String.ofList

/-- `as_posix` of a relative path. -/
def posixPath (parts : List String) : String :=
  String.ofList (List.intercalate ['/'] (parts.map String.toList))

/-- `_normalize_zip_path`. What it tests of the joined parts never holds of parts that pass. -/
def normalizeZipPath (path : String) : Option String :=
  if path = "" ∨ '\\' ∈ path.toList ∨ ':' ∈ path.toList ∨ path.toList.head? = some '/' then none
  else
    let parts := pathParts path
    if parts = [] ∨ parts.any (fun part => part == "" || part == "." || part == "..") then none
    else some (posixPath parts)

/-- The severity of an issue. -/
inductive Severity
  | info
  | warning
  | error
deriving DecidableEq

/-- `PluginPackageIssue`. -/
structure PluginPackageIssue where
  code : String
  message : String
  severity : Severity
  path : Option String
deriving DecidableEq

/-- An issue that makes a package not installable. -/
def errorIssue (code message : String) (path : Option String) : PluginPackageIssue :=
  ⟨code, message, .error, path⟩

/-- The body of the loop of `_inspect_zip_paths`. -/
def inspectEntry (found : List (String × String) × List PluginPackageIssue) (info : ZipInfo)
    : List (String × String) × List PluginPackageIssue :=
  match normalizeZipPath info.filename with
  | none =>
      (found.1, found.2 ++ [errorIssue "package_path_invalid"
        "Package entries must be relative normalized POSIX paths without traversal."
        (some info.filename)])
  | some normalized =>
      if isSymlink info then
        (found.1, found.2 ++ [errorIssue "package_symlink_rejected"
          "Symlinks are not allowed in Official Extension packages." (some normalized)])
      else if (found.1.map Prod.fst).contains normalized then
        (found.1, found.2 ++ [errorIssue "package_duplicate_path"
          "Duplicate package entry after path normalization." (some normalized)])
      else (found.1 ++ [(normalized, info.filename)], found.2)

/-- `_inspect_zip_paths`: the normalized paths with the names of their entries, and the issues. -/
def inspectZipPaths (infos : List ZipInfo) : List (String × String) × List PluginPackageIssue :=
  infos.foldl inspectEntry ([], [])

/-- `PLUGIN_SIGNATURE_FILENAME`. -/
def pluginSignatureFilename : String := "SIGNATURE.json"

/-- The files that `_signed_content_digest` comes to, in the order of their paths. Each name is one
of an entry, so that `getinfo` finds it.
-/
def signedEntries (infos : List ZipInfo) (safePaths : List (String × String))
    : List (String × Bytes) :=
  ((safePaths.map Prod.fst).insertionSort (· ≤ ·)).filterMap fun normalizedPath =>
    if normalizedPath = pluginSignatureFilename then none
    else
      ((safePaths.lookup normalizedPath).bind (getinfo infos)).bind fun info =>
        if info.isDir then none else some (normalizedPath, info.content)

/-- What a file adds to the digest: its path and its bytes, each after its length. -/
def digestUpdate : String × Bytes → Option Bytes :=
  encodePair (fun path => frame 4 path.toUTF8.data.toList) (frame 8)

/-- The bytes that `_signed_content_digest` hashes, none where `struct.pack` raises. -/
def signedContent (package : Package) (safePaths : List (String × String)) : Option Bytes :=
  match package.infos with
  | none => some package.content
  | some infos => encodeAll digestUpdate (signedEntries infos safePaths)

-- The manifest

/-- `validate_plugin_key`: a lowercase slug. -/
def isSlug (key : String) : Bool :=
  let letters := key.toList
  3 ≤ letters.length && letters.length ≤ 80
    && letters.all (fun c => c.isLower || c.isDigit || c == '-')
    && letters.head? != some '-' && letters.getLast? != some '-'
    && !decide (['-', '-'] <:+: letters)

/-- What is used of a `PluginManifest`, whose key and version its schema has checked. -/
structure PluginManifest where
  key : String
  version : String
  minVersion : String
  maxVersionExclusive : Option String
  entrypoint : String
  key_slug : isSlug key = true
  version_ne : version ≠ ""

/-- The settings and what is checked with other means: the schema of the manifest and the trust in
the package. A regular expression's digits are the ASCII digits among the ASCII characters.
-/
structure Checks where
  unicode : Unicode
  digit_ascii : ∀ c : Char, c.toNat < 128 → unicode.digit c = Unicode.ascii.digit c
  maxPackageSizeMb : Nat
  appVersion : String
  validateJson : Bytes → Except PluginPackageIssue PluginManifest
  inspectPackageTrust : Package → List (String × String) → List PluginPackageIssue

/-- The value of the digits that a text begins with, and the rest. -/
def readDigits (u : Unicode) (value : Nat) : List Char → Nat × List Char
  | [] => (value, [])
  | c :: rest =>
      match u.digit c with
      | some d => readDigits u (value * 10 + d) rest
      | none => (value, c :: rest)

/-- `0|[1-9]\d*` at the begin of a text, with the rest. -/
def readVersionNumber (u : Unicode) : List Char → Option (Nat × List Char)
  | '0' :: rest => some (0, rest)
  | c :: rest =>
      if '1' ≤ c ∧ c ≤ '9' then some (readDigits u (c.toNat - '0'.toNat) rest) else none
  | [] => none

/-- A character of `[0-9A-Za-z.-]`. -/
def isLabelChar (c : Char) : Bool :=
  c.isDigit || c.isUpper || c.isLower || c == '.' || c == '-'

/-- `(?:\+[0-9A-Za-z.-]+)?` up to the end of a text. -/
def matchesBuild : List Char → Bool
  | [] => true
  | '+' :: label => !label.isEmpty && label.all isLabelChar
  | _ => false

/-- `(?:-[0-9A-Za-z.-]+)?(?:\+[0-9A-Za-z.-]+)?` up to the end of a text. -/
def matchesLabels : List Char → Bool
  | '-' :: label =>
      !(label.takeWhile isLabelChar).isEmpty && matchesBuild (label.dropWhile isLabelChar)
  | rest => matchesBuild rest

/-- `_version_tuple`. -/
def versionTuple (u : Unicode) (value : String) : Option (Nat × Nat × Nat) :=
  match readVersionNumber u value.toList with
  | some (major, '.' :: rest) =>
      match readVersionNumber u rest with
      | some (minor, '.' :: rest) =>
          match readVersionNumber u rest with
          | some (patch, rest) => if matchesLabels rest then some (major, minor, patch) else none
          | none => none
      | _ => none
  | _ => none

/-- `_is_semver`. -/
def isSemver (u : Unicode) (value : String) : Bool := (versionTuple u value).isSome

/-- Whether a version comes before another, compared number by number. -/
def versionBefore (a b : Nat × Nat × Nat) : Bool :=
  a.1 < b.1 || a.1 == b.1 && (a.2.1 < b.2.1 || a.2.1 == b.2.1 && a.2.2 < b.2.2)

/-- Whether `get_compatibility_status` is `incompatible`. -/
def isIncompatible (checks : Checks) (manifest : PluginManifest) : Bool :=
  match versionTuple checks.unicode checks.appVersion,
      versionTuple checks.unicode manifest.minVersion with
  | some current, some minVersion =>
      versionBefore current minVersion
        || ((manifest.maxVersionExclusive.filter (· != "")).bind
            (versionTuple checks.unicode)).any fun maxVersion => !versionBefore current maxVersion
  | _, _ => false

/-- The issue of a version that is not a semantic version. -/
def versionIssue (u : Unicode) (fieldName version : String) : List PluginPackageIssue :=
  if version != "" && !isSemver u version then
    [errorIssue "manifest_version_invalid" (fieldName ++ " must be semantic version format.")
      (some "plugin.ltplugin")]
  else []

/-- `validate_relative_package_path`, with the prefix that the entry point requires. -/
def entrypointIssue (path : String) : List PluginPackageIssue :=
  let pathIssue := errorIssue "package_path_invalid"
    "Package paths must be relative normalized POSIX paths without traversal." (some path)
  let parts := pathParts path
  if '\\' ∈ path.toList ∨ ':' ∈ path.toList ∨ path.toList.head? = some '/' then [pathIssue]
  else if parts = [] ∨ parts.any (fun part => part == "" || part == "." || part == "..") then
    [pathIssue]
  else if parts.head? ≠ some "runtime" ∨ parts.length = 1 then
    [errorIssue "runtime_entrypoint_invalid"
      "Runtime entrypoint must be a relative path inside runtime/." (some "plugin.ltplugin")]
  else []

/-- `validate_manifest_contract`. -/
def validateManifestContract (checks : Checks) (manifest : PluginManifest)
    : List PluginPackageIssue :=
  let maxVersion := manifest.maxVersionExclusive.getD ""
  versionIssue checks.unicode "version" manifest.version
    ++ versionIssue checks.unicode "licenseTrack.minVersion" manifest.minVersion
    ++ versionIssue checks.unicode "licenseTrack.maxVersionExclusive" maxVersion
    ++ entrypointIssue manifest.entrypoint
    ++ if isIncompatible checks manifest then
        [errorIssue "license_track_version_incompatible"
          ("Plugin supports LicenseTrack >= " ++ manifest.minVersion
            ++ (if maxVersion = "" then "" else " and < " ++ maxVersion)
            ++ "; current version is " ++ checks.appVersion ++ ".")
          (some "plugin.ltplugin")]
      else []

/-- `parse_manifest_json`. -/
def parseManifestJson (checks : Checks) (raw : Bytes)
    : Option PluginManifest × List PluginPackageIssue :=
  match checks.validateJson raw with
  | .error issue => (none, [issue])
  | .ok manifest => (some manifest, validateManifestContract checks manifest)

/-- `PLUGIN_MANIFEST_FILENAME`. -/
def pluginManifestFilename : String := "plugin.ltplugin"

/-- The sorted `REQUIRED_ROOT_ENTRIES`. -/
def requiredRootEntries : List String := ["LICENSE", "README.md", pluginManifestFilename]

/-- `REQUIRED_ROOT_DIRECTORIES`. -/
def requiredRootDirectories : List String := ["runtime"]

/-- `PluginPackageInspection`, with what is used of its preview. -/
structure PluginPackageInspection where
  manifest : Option PluginManifest
  issues : List PluginPackageIssue
  package : Package
  safePaths : List (String × String)

/-- `preview.installable`. -/
def PluginPackageInspection.installable (inspection : PluginPackageInspection) : Bool :=
  !inspection.issues.any (·.severity == .error) && inspection.manifest.isSome

/-- The issues of a package's size. -/
def sizeIssues (checks : Checks) (package : Package) : List PluginPackageIssue :=
  if checks.maxPackageSizeMb * 1024 * 1024 < package.content.length then
    [errorIssue "package_too_large"
      ("Official Extension package exceeds the maximum allowed size of "
        ++ toString checks.maxPackageSizeMb ++ " MB.") none]
  else []

/-- The issues of the paths that a package has and lacks. -/
def layoutIssues (paths : List String) : List PluginPackageIssue :=
  let manifestEntries := paths.filter fun path => ".ltplugin".toList.isSuffixOf path.toList
  let rootFiles := paths.filter fun path => !path.toList.contains '/'
  let rootDirs := (paths.filter (·.toList.contains '/')).map fun path =>
    String.ofList (path.toList.takeWhile (· != '/'))
  (if manifestEntries = [pluginManifestFilename] then []
    else
      [errorIssue "manifest_location_invalid"
        "Package must contain exactly one root plugin.ltplugin manifest."
        (if manifestEntries.isEmpty then none else some (", ".intercalate manifestEntries))])
    ++ ((requiredRootEntries.filter (!rootFiles.contains ·)).map fun missing =>
        errorIssue "required_package_file_missing"
          ("Required package file is missing: " ++ missing ++ ".") (some missing))
    ++ (requiredRootDirectories.filter (!rootDirs.contains ·)).map fun missing =>
        errorIssue "required_package_directory_missing"
          ("Required package directory is missing: " ++ missing ++ "/.") (some (missing ++ "/"))

/-- The manifest of a package and the issues of it. -/
def inspectManifest (checks : Checks) (infos : List ZipInfo) (safePaths : List (String × String))
    : Option PluginManifest × List PluginPackageIssue :=
  match (safePaths.lookup pluginManifestFilename).bind (getinfo infos) with
  | none => (none, [])
  | some info =>
      let parsed := parseManifestJson checks info.content
      let missing := parsed.1.toList.filter fun manifest =>
        !(safePaths.map Prod.fst).contains manifest.entrypoint
      (parsed.1, parsed.2 ++ missing.map fun manifest =>
        errorIssue "runtime_entrypoint_missing"
          "Runtime entrypoint declared by the manifest is missing from the package."
          (some manifest.entrypoint))

/-- `inspect_plugin_package`. -/
def inspectPluginPackage (checks : Checks) (package : Package) : PluginPackageInspection :=
  match package.infos with
  | none =>
      {
        manifest := none
        issues := sizeIssues checks package
          ++ [errorIssue "package_zip_invalid" "Uploaded file is not a valid zip archive." none]
          ++ checks.inspectPackageTrust package []
        package := package
        safePaths := []
      }
  | some infos =>
      let (safePaths, pathIssues) := inspectZipPaths infos
      let (manifest, manifestIssues) := inspectManifest checks infos safePaths
      {
        manifest := manifest
        issues := sizeIssues checks package ++ pathIssues ++ layoutIssues (safePaths.map Prod.fst)
          ++ manifestIssues ++ checks.inspectPackageTrust package safePaths
        package := package
        safePaths := safePaths
      }

/-- A tree of the storage, from its root on. -/
abbrev Tree := FileTree String Bytes

/-- The steps of an extraction at which the operating system may raise an error. -/
inductive ExtractionStep
  | staging
  | entry (index : Nat)
  | packageCopy
  | versionsDirectory
deriving DecidableEq

/-- What the operating system does: where it raises, how the move of the staged directory goes (a
move that raises may leave part of a copy), what the removal of a staged directory leaves of it,
and the name that the staged directory has.
-/
structure Host where
  raises : ExtractionStep → Bool
  moveLeaves : Option Tree
  debris : Tree
  tempName : String

/-- Why an extraction failed. -/
inductive InstallFailure
  | notInstallable
  | alreadyExists
  | raised
deriving DecidableEq

/-- `PluginInstallFiles`. -/
structure PluginInstallFiles where
  installPath : List String
  packagePath : List String
deriving DecidableEq

/-- The loop over the entries, with the staged directory as the root of the tree. The parts of a
normalized path hold no dots, so that no destination leaves the directory.
-/
def extractEntries (host : Host) (infos : List ZipInfo)
    : Nat → List (String × String) → Tree → Option Tree
  | _, [], t => some t
  | index, (normalizedPath, archiveName) :: rest, t =>
      if host.raises (.entry index) then none
      else
        (getinfo infos archiveName).bind fun info =>
          (t.place ⟨pathParts normalizedPath, if info.isDir then none else some info.content⟩).bind
            (extractEntries host infos (index + 1) rest)

/-- The staged directory with the entries and the copy of the package. -/
def stage (host : Host) (inspection : PluginPackageInspection) : Option Tree :=
  (extractEntries host (inspection.package.infos.getD []) 0 inspection.safePaths
      (FileTree.holding [])).bind fun extracted =>
    if host.raises .packageCopy then none
    else extracted.writeFile ["package.zip"] inspection.package.content

/-- The tree once a staged directory has been removed, as far as that went. -/
def removeStaged (host : Host) (t : Tree) : Tree :=
  t.graft [".staging", host.tempName] host.debris

/-- `stage_and_extract_plugin_package`. -/
def stageAndExtractPluginPackage (host : Host) (inspection : PluginPackageInspection) (t : Tree)
    : Except InstallFailure PluginInstallFiles × Tree :=
  match inspection.manifest with
  | none => (.error .notInstallable, t)
  | some manifest =>
      let finalPath := pathParts manifest.key ++ pathParts manifest.version
      if !inspection.installable then (.error .notInstallable, t)
      else if (t finalPath).isSome then (.error .alreadyExists, t)
      else if host.raises .staging then (.error .raised, t)
      else
        match t.mkdirs [".staging"] with
        | none => (.error .raised, t)
        | some created =>
            match stage host inspection with
            | none => (.error .raised, removeStaged host created)
            | some staged =>
                if host.raises .versionsDirectory then
                  (.error .raised, removeStaged host created)
                else
                  match created.mkdirs finalPath.dropLast with
                  | none => (.error .raised, removeStaged host created)
                  | some created =>
                      match host.moveLeaves with
                      | some left =>
                          (.error .raised, removeStaged host (created.graft finalPath left))
                      | none =>
                          (.ok ⟨finalPath, finalPath ++ ["package.zip"]⟩,
                            created.graft finalPath staged)

end ExtensionPackage

end LicenseTrack
