import LicenseTrack.Library.Overlays

/-! The native installer's upgrade backup: what it holds of a machine, and what its restoration
writes.
-/

namespace LicenseTrack.Installer

open Library

/-- A resolved absolute path, by its parts. -/
abbrev Path := List String

/-- What stands at a path. -/
inductive Node
  | directory
  | file (content : String)
deriving DecidableEq

/-- The files and directories of a machine. A database file stands for what its readers see. -/
abbrev Disk := Path → Option Node

/-- `_is_relative_to`. -/
def isRelativeTo (path root : Path) : Bool := root.isPrefixOf path

/-- `InstallPaths`, without the names of the service, its user and its group. -/
structure InstallPaths where
  dataRoot : Path
  configRoot : Path
  serviceFile : Path
  cliFile : Path
deriving DecidableEq

/-- `InstallPaths.state_file`. -/
def InstallPaths.stateFile (paths : InstallPaths) : Path := paths.configRoot ++ ["install.json"]

/-- `InstallPaths.config_file`. -/
def InstallPaths.configFile (paths : InstallPaths) : Path :=
  paths.configRoot ++ ["licensetrack.env"]

/-- The directories that `prepare_data_directories` creates below the data root. -/
def dataDirectories (paths : InstallPaths) : List Path :=
  [paths.dataRoot, paths.dataRoot ++ ["storage"], paths.dataRoot ++ ["backups"],
    paths.dataRoot ++ ["plugins"]]

/-- A machine: its disk, the target of the `current` link, and whether the service runs. -/
structure Machine where
  disk : Disk
  currentLink : Option Path
  running : Bool

/-- What the installer reads from files: the storage path that a database configures, and the
release that a state file records.
-/
structure Formats where
  storagePath : Option Node → Option Path
  releasePath : Option Node → Option Path

/-- A file beside another one, such as a database's write-ahead log. -/
def sibling (path : Path) (suffix : String) : Path :=
  path.dropLast ++ [path.getLast?.getD "" ++ suffix]

/-- The content of an upgrade archive. Trees are by paths relative to their roots. -/
structure UpgradeBackup where
  data : Disk
  config : Option Node
  state : Option Node
  databasePath : Path
  snapshot : Option Node
  cli : Option Node
  externalPaths : List (Path × Disk)

/-- The tree below a root. -/
def subtree (disk : Disk) (root : Path) : Disk := fun path => disk (root ++ path)

/-- `configured_external_storage`. -/
def configuredExternalStorage (formats : Formats) (paths : InstallPaths) (databasePath : Path)
    (disk : Disk)
    : List Path :=
  match formats.storagePath (disk databasePath) with
  | none => []
  | some storage => if isRelativeTo storage paths.dataRoot then [] else [storage]

/-- The operator CLI where it is a regular file. -/
def regularFile (node : Option Node) : Option Node :=
  node.filter (fun node => node != .directory)

/-- `create_upgrade_backup`, which fails where a path is missing and changes no other file. -/
def createUpgradeBackup (formats : Formats) (paths : InstallPaths) (databasePath : Path)
    (disk : Disk)
    : UpgradeBackup where
  data := subtree disk paths.dataRoot
  config := disk paths.configFile
  state := disk paths.stateFile
  databasePath := databasePath
  snapshot := disk databasePath
  cli := regularFile (disk paths.cliFile)
  externalPaths := (configuredExternalStorage formats paths databasePath disk).map (fun root =>
    (root, subtree disk root))

/-- Replacing a directory by a tree. -/
def treeAt (root : Path) (tree : Disk) : Overlay Path (Option Node) where
  covers path := isRelativeTo path root
  value path := tree (path.drop root.length)

/-- Writing or removing one file. -/
def nodeAt (target : Path) (node : Option Node) : Overlay Path (Option Node) where
  covers path := path == target
  value _ := node

/-- The writes of `restore_upgrade_backup`, in their order. -/
def restoreWrites (paths : InstallPaths) (backup : UpgradeBackup)
    : List (Overlay Path (Option Node)) :=
  [
    treeAt paths.dataRoot backup.data,
    nodeAt backup.databasePath backup.snapshot,
    nodeAt (sibling backup.databasePath "-wal") none,
    nodeAt (sibling backup.databasePath "-shm") none,
    nodeAt paths.configFile backup.config
  ]
    ++ backup.cli.toList.map (fun cli => nodeAt paths.cliFile (some cli))
    ++ [nodeAt paths.stateFile backup.state]
    ++ backup.externalPaths.map (fun external => treeAt external.1 external.2)
    ++ (dataDirectories paths).map (fun directory => nodeAt directory (some .directory))

/-- `restore_upgrade_backup`, where each of its writes succeeds. -/
def restoreUpgradeBackup (paths : InstallPaths) (backup : UpgradeBackup) (disk : Disk) : Disk :=
  Overlay.applyAll (restoreWrites paths backup) disk

/-- Whether a restoration writes a path. -/
def UpgradeBackup.holds (backup : UpgradeBackup) (paths : InstallPaths) (path : Path) : Bool :=
  Overlay.holds (restoreWrites paths backup) path

/-- A managed installation once its service is stopped: its database has no log beside it, its data
directories are there, and the link points to the release that the state file records.
-/
structure Managed (formats : Formats) (paths : InstallPaths) (databasePath : Path)
    (machine : Machine) : Prop where
  checkpointed : ∀ suffix ∈ ["-wal", "-shm"], machine.disk (sibling databasePath suffix) = none
  directories : ∀ directory ∈ dataDirectories paths, machine.disk directory = some .directory
  linked : machine.currentLink = formats.releasePath (machine.disk paths.stateFile)

variable {formats : Formats} {paths : InstallPaths} {databasePath : Path} {machine : Machine}

theorem treeAt_saved (disk : Disk) (root path : Path)
    (h : (treeAt root (subtree disk root)).covers path = true)
    : (treeAt root (subtree disk root)).value path = disk path := by
  have hleads : root <+: path := List.isPrefixOf_iff_prefix.mp h
  simp only [treeAt, subtree, List.prefix_iff_eq_append.mp hleads]

theorem nodeAt_saved {disk : Disk} {target path : Path} {node : Option Node}
    (hnode : disk target = node) (h : (nodeAt target node).covers path = true)
    : (nodeAt target node).value path = disk path := by
  obtain rfl : path = target := by simpa [nodeAt] using h
  exact hnode.symm

theorem restoreWrites_saved (h : Managed formats paths databasePath machine)
    : Overlay.SavedFrom machine.disk
        (restoreWrites paths (createUpgradeBackup formats paths databasePath machine.disk)) := by
  intro write hwrite path hcovers
  simp only [restoreWrites, createUpgradeBackup, List.mem_append, List.mem_cons, List.mem_map,
    List.not_mem_nil, or_false, Option.mem_toList] at hwrite
  rcases hwrite with (((hfiles | hcli) | rfl) | hexternal) | hdirectory
  · rcases hfiles with rfl | rfl | rfl | rfl | rfl
    · exact treeAt_saved _ _ _ hcovers
    · exact nodeAt_saved rfl hcovers
    · exact nodeAt_saved (h.checkpointed "-wal" (by simp)) hcovers
    · exact nodeAt_saved (h.checkpointed "-shm" (by simp)) hcovers
    · exact nodeAt_saved rfl hcovers
  · obtain ⟨cli, hcli, rfl⟩ := hcli
    exact nodeAt_saved (Option.filter_eq_some_iff.mp hcli).1 hcovers
  · exact nodeAt_saved rfl hcovers
  · obtain ⟨external, hroot, rfl⟩ := hexternal
    obtain ⟨root, -, rfl⟩ := hroot
    exact treeAt_saved _ _ _ hcovers
  · obtain ⟨directory, hmem, rfl⟩ := hdirectory
    exact nodeAt_saved (h.directories directory hmem) hcovers

end LicenseTrack.Installer
