import LicenseTrack.Library.Outcome
import LicenseTrack.Operations.RecoveryArchive

/-! Restoring a recovery archive: the managed directories and the database are swapped one after
another, and a failure in between is undone.
-/

namespace LicenseTrack

open Library

variable {β δ : Type}

/-- The database file, and its write-ahead log when it holds commits of its own. -/
structure DatabaseFile (δ : Type) where
  main : δ
  wal : Option δ := none

/-- What a connection reads. -/
def DatabaseFile.content (f : DatabaseFile δ) : δ := f.wal.getD f.main

/-- What a restore reads and writes. -/
structure Disk (β δ : Type) where
  database : Option (DatabaseFile δ)
  managed : StorageDirectory → Contents β
  /-- A managed directory is a symbolic link. -/
  symlinked : StorageDirectory → Bool
  /-- `.restore-current-<token>-<directory>`. -/
  setAside : StorageDirectory → Contents β := fun _ _ => none
  /-- `.restore-staging-<token>`. -/
  staging : Staging β := fun _ _ => none

/-- Something has the name. -/
def Contents.present (c : Contents β) : Bool := (c []).isSome

/-- An archive as `inspect_backup_archive` sees it. -/
structure Archive (β δ : Type) where
  /-- The inspection accepts it. -/
  readable : Bool
  includesDocuments : Bool
  entries : List (ZipEntry β)
  database : δ

/-- What validation and migration make of a database. -/
structure Schema (δ : Type) where
  /-- `validate_database_file` accepts it. -/
  valid : δ → Bool
  /-- `run_database_migrations`. -/
  migrate : δ → Option δ

/-- A step of `restore_backup` that can fail. -/
inductive BackupStep
  | extract
  | validate
  | migrate
  | revalidate
  | adoptLooseCopies
  | snapshot
  | removeWal
  | removeShm
  | replace
deriving DecidableEq

/-- A step that fails leaves the disk as it was. -/
def perform (fault : Option BackupStep) (step : BackupStep) (disk : Disk β δ)
    : Except (Disk β δ) (Disk β δ) :=
  if fault = some step then .error disk else .ok disk

/-- A check of `restore_backup`. -/
def check (ok : Bool) (disk : Disk β δ) : Except (Disk β δ) (Disk β δ) :=
  if ok then .ok disk else .error disk

/-- `restore_backup`, with the disk it leaves when it raises. -/
def restoreBackup (schema : Schema δ) (fault : Option BackupStep) (archive : Archive β δ)
    (disk : Disk β δ)
    : Except (Disk β δ) (Disk β δ) := do
  let disk ← perform fault .extract disk
  let disk ← perform fault .validate disk
  let disk ← check (schema.valid archive.database) disk
  let disk ← perform fault .migrate disk
  match schema.migrate archive.database with
  | none => .error disk
  | some head =>
      let disk ← perform fault .revalidate disk
      let disk ← check (schema.valid head) disk
      let disk ← perform fault .adoptLooseCopies disk
      let disk ← perform fault .snapshot disk
      let disk ← perform fault .removeWal disk
      -- From here on the commits that were in the log only are gone.
      let disk := { disk with database := disk.database.map fun f => { f with wal := none } }
      let disk ← perform fault .removeShm disk
      let disk ← perform fault .replace disk
      pure { disk with database := some { main := head } }

-- The managed directories

/-- A step of `restore_backup_archive` that can fail. -/
inductive RestoreStep
  | makeStorageRoot
  | stage
  | setAside (d : StorageDirectory)
  | install (d : StorageDirectory)
  | backup (step : BackupStep)
deriving DecidableEq

/-- The disk with the two undo lists of `_restore_managed_documents`, latest first. -/
structure Swap (β δ : Type) where
  disk : Disk β δ
  movedCurrent : List StorageDirectory := []
  installedTargets : List StorageDirectory := []

/-- Writes what has the name of one managed directory. -/
def replaceAt (f : StorageDirectory → Contents β) (d : StorageDirectory) (c : Contents β)
    : StorageDirectory → Contents β :=
  fun d' => if d' = d then c else f d'

theorem replaceAt_self (f : StorageDirectory → Contents β) (d : StorageDirectory) (c : Contents β)
    : replaceAt f d c d = c := if_pos rfl

theorem replaceAt_ne (f : StorageDirectory → Contents β) {d d' : StorageDirectory} (h : d' ≠ d)
    (c : Contents β)
    : replaceAt f d c d' = f d' := if_neg h

/-- Nothing has the name. -/
def absent : Contents β := fun _ => none

/-- `target.rename(current_backup)`, where the target exists. -/
def setAside (fault : Option RestoreStep) (d : StorageDirectory) (w : Swap β δ)
    : Except (Swap β δ) (Swap β δ) :=
  if (w.disk.managed d).present then
    if fault = some (.setAside d) then .error w
    else
      .ok { w with
        disk := { w.disk with
          managed := replaceAt w.disk.managed d absent
          setAside := replaceAt w.disk.setAside d (w.disk.managed d) }
        movedCurrent := d :: w.movedCurrent }
  else .ok w

/-- `staged.rename(target)`, where something is staged. -/
def install (fault : Option RestoreStep) (d : StorageDirectory) (w : Swap β δ)
    : Except (Swap β δ) (Swap β δ) :=
  if (w.disk.staging d).present then
    if fault = some (.install d) then .error w
    else
      .ok { w with
        disk := { w.disk with
          managed := replaceAt w.disk.managed d (w.disk.staging d)
          staging := replaceAt w.disk.staging d absent }
        installedTargets := d :: w.installedTargets }
  else .ok w

/-- One turn of the loop of `_restore_managed_documents`. -/
def swapDirectory (fault : Option RestoreStep) (d : StorageDirectory) (w : Swap β δ)
    : Except (Swap β δ) (Swap β δ) :=
  if w.disk.symlinked d then .error w
  else setAside fault d w >>= install fault d

/-- `shutil.rmtree(target, ignore_errors=True)` of each installed target, which leaves a plain
file where it is.
-/
def removeInstalled (w : Swap β δ) : Disk β δ :=
  { w.disk with
    managed := fun d =>
      if d ∈ w.installedTargets ∧ isDirectory (w.disk.managed d []) then absent
      else w.disk.managed d }

/-- The directory set aside gets its name back. -/
def putInPlace (d : StorageDirectory) (disk : Disk β δ) : Disk β δ :=
  { disk with
    managed := replaceAt disk.managed d (disk.setAside d)
    setAside := replaceAt disk.setAside d absent }

/-- `current_backup.rename(target)`, which fails on a name that is taken, except that a plain
file overwrites another.
-/
def putBack (d : StorageDirectory) (disk : Disk β δ) : Except (Disk β δ) (Disk β δ) :=
  if !(disk.setAside d).present then .ok disk
  else if (disk.managed d).present
      && !((fileAt (disk.managed d [])).isSome && (fileAt (disk.setAside d [])).isSome) then
    .error disk
  else .ok (putInPlace d disk)

/-- What is left of a computation, whether it raised or not. -/
def leaves (x : Except (Disk β δ) (Disk β δ)) : Disk β δ :=
  match x with
  | .ok disk => disk
  | .error disk => disk

/-- The handler of `_restore_managed_documents`, whose own failure does not stop the removal of
the staging directory.
-/
def undoSwap (w : Swap β δ) : Disk β δ :=
  { leaves (each putBack w.movedCurrent (removeInstalled w)) with staging := fun _ => absent }

/-- The failing step, if it is one of `restore_backup`. -/
def backupFault : Option RestoreStep → Option BackupStep
  | some (.backup step) => some step
  | _ => none

/-- The swap of the database: where it fails, the safety archive is restored and the failure goes
on.
-/
def swapDatabase (schema : Schema δ) (fault : Option RestoreStep) (archive safety : Archive β δ)
    (w : Swap β δ)
    : Except (Swap β δ) (Swap β δ) :=
  match restoreBackup schema (backupFault fault) archive w.disk with
  | .ok disk => .ok { w with disk := disk }
  | .error disk => .error { w with disk := leaves (restoreBackup schema none safety disk) }

/-- `_restore_managed_documents`. -/
def restoreManagedDocuments (schema : Schema δ) (fault : Option RestoreStep)
    (archive safety : Archive β δ) (disk : Disk β δ)
    : Except (Disk β δ) (Disk β δ) :=
  if fault = some .makeStorageRoot ∨ fault = some .stage then .error disk
  else
    match stageRecoveryDocuments archive.entries with
    | none => .error disk
    | some staged =>
        match each (swapDirectory fault) StorageDirectory.all { disk := { disk with staging := staged } }
            >>= swapDatabase schema fault archive safety with
        | .ok w => .ok { w.disk with setAside := fun _ => absent, staging := fun _ => absent }
        | .error w => .error (undoSwap w)

/-- `restore_backup_archive`. -/
def restoreBackupArchive (schema : Schema δ) (fault : Option RestoreStep) (archive : Archive β δ)
    (safety : Option (Archive β δ)) (disk : Disk β δ)
    : Except (Disk β δ) (Disk β δ) :=
  if archive.readable = false then .error disk
  else if archive.includesDocuments = false then
    restoreBackup schema (backupFault fault) archive disk
  else
    match safety with
    | none => .error disk
    | some safety => restoreManagedDocuments schema fault archive safety disk

end LicenseTrack
