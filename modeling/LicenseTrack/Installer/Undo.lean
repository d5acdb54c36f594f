import LicenseTrack.Installer.Backup

/-! Failed upgrades and rollbacks of the native installer: exactly which failures are undone, and
what a successful rollback restores.
-/

namespace LicenseTrack.Installer

open Library

/-- The steps of `upgrade` that may fail once the service is stopped, in their order. -/
inductive UpgradeStep
  | createBackup
  | validateMigrations
  | writeConfiguration
  | runMigrations
  | checkIntegrity
  | switchLink
  | writeState
  | installUnit
  | installCli
  | reloadUnits
  | start
  | waitForHealth
deriving DecidableEq

/-- The place of a step in the order. -/
def UpgradeStep.rank : UpgradeStep → Nat
  | .createBackup => 0
  | .validateMigrations => 1
  | .writeConfiguration => 2
  | .runMigrations => 3
  | .checkIntegrity => 4
  | .switchLink => 5
  | .writeState => 6
  | .installUnit => 7
  | .installCli => 8
  | .reloadUnits => 9
  | .start => 10
  | .waitForHealth => 11

/-- `live_migration_started` at a step. -/
def UpgradeStep.isLive (step : UpgradeStep) : Bool :=
  decide (UpgradeStep.writeConfiguration.rank ≤ step.rank)

/-- Whether a step comes after the replacement of the unit file. -/
def UpgradeStep.hasUnit (step : UpgradeStep) : Bool :=
  decide (UpgradeStep.installUnit.rank < step.rank)

/-- Whether a step comes after the replacement of the operator CLI. -/
def UpgradeStep.hasCli (step : UpgradeStep) : Bool :=
  decide (UpgradeStep.installCli.rank < step.rank)

/-- The unit file and the operator CLI of the target release. -/
structure ServiceFiles where
  unit : String
  cli : String

/-- What a failed upgrade leaves before it is undone. Nothing is changed before the live migration.
After that the restored paths may be in any state, since migrations and the new service write
them; the unit file and the CLI are each replaced at once, in their steps.
-/
structure UpgradeLeft (paths : InstallPaths) (backup : UpgradeBackup) (files : ServiceFiles)
    (before : Machine) (step : UpgradeStep) (left : Machine) : Prop where
  notLive : step.isLive = false → left = { before with running := false }
  unit : step.isLive = true → left.disk paths.serviceFile
    = if step.hasUnit then some (.file files.unit) else before.disk paths.serviceFile
  cli : step.isLive = true → left.disk paths.cliFile
    = if step.hasCli then some (.file files.cli) else before.disk paths.cliFile
  others : step.isLive = true → ∀ path, backup.holds paths path = false →
    path ≠ paths.serviceFile → path ≠ paths.cliFile → left.disk path = before.disk path

/-- The failure branch of `upgrade`, where its own steps succeed. -/
def recoverUpgrade (formats : Formats) (paths : InstallPaths) (backup : UpgradeBackup)
    (wasActive : Bool) (step : UpgradeStep) (left : Machine)
    : Machine :=
  if step.isLive then
    {
      disk := restoreUpgradeBackup paths backup left.disk
      currentLink := formats.releasePath backup.state
      running := true
    }
  else { left with running := wasActive }

/-- The failures that are undone: those before the live migration; and later ones of a running
service, unless the unit file or a CLI that the backup does not hold has been replaced.
-/
def UpgradeUndone (paths : InstallPaths) (backup : UpgradeBackup) (files : ServiceFiles)
    (before : Machine) (step : UpgradeStep)
    : Prop :=
  step.isLive = false
    ∨ before.running = true
      ∧ (step.hasUnit = true → backup.holds paths paths.serviceFile = true
          ∨ before.disk paths.serviceFile = some (.file files.unit))
      ∧ (step.hasCli = true → backup.holds paths paths.cliFile = true
          ∨ before.disk paths.cliFile = some (.file files.cli))

/-- The steps of `rollback` that may fail once the service is stopped, in their order. -/
inductive RollbackStep
  | createBackup
  | restore
  | switchLink
  | writeState
  | start
  | waitForHealth
deriving DecidableEq

/-- `restore_started` at a step. -/
def RollbackStep.isLive (step : RollbackStep) : Bool := step != .createBackup

/-- What a failed rollback leaves before it is undone. Once its restoration started, the paths that
the requested archive holds may be in any state.
-/
structure RollbackLeft (paths : InstallPaths) (target : UpgradeBackup) (before : Machine)
    (step : RollbackStep) (left : Machine) : Prop where
  notLive : step.isLive = false → left = { before with running := false }
  others : step.isLive = true → ∀ path, target.holds paths path = false →
    left.disk path = before.disk path

/-- The failure branch of `rollback`, where its own steps succeed. -/
def recoverRollback (formats : Formats) (paths : InstallPaths) (safety : UpgradeBackup)
    (wasActive : Bool) (step : RollbackStep) (left : Machine)
    : Machine :=
  if step.isLive then
    {
      disk := restoreUpgradeBackup paths safety left.disk
      currentLink := formats.releasePath safety.state
      running := wasActive
    }
  else { left with running := wasActive }

/-- The failures that are undone: those before the restoration; and later ones that left each path
that the requested archive holds and the safety backup does not as it was.
-/
def RollbackUndone (paths : InstallPaths) (safety target : UpgradeBackup) (before : Machine)
    (step : RollbackStep) (left : Machine)
    : Prop :=
  step.isLive = false
    ∨ ∀ path, target.holds paths path = true → safety.holds paths path = false →
      left.disk path = before.disk path

/-- `rollback`, where each of its steps succeeds: the state file records the rollback. -/
def completeRollback (formats : Formats) (paths : InstallPaths) (target : UpgradeBackup)
    (completedState : Node) (noStart : Bool) (before : Machine)
    : Machine where
  disk := (nodeAt paths.stateFile (some completedState)).apply
    (restoreUpgradeBackup paths target before.disk)
  currentLink := formats.releasePath target.state
  running := !noStart

-- What is undone

section

variable {formats : Formats} {paths : InstallPaths} {databasePath : Path} {before left : Machine}

theorem restored_eq_iff (h : Managed formats paths databasePath before) (running : Bool)
    : ({
        disk := restoreUpgradeBackup paths
          (createUpgradeBackup formats paths databasePath before.disk) left.disk
        currentLink := formats.releasePath
          (createUpgradeBackup formats paths databasePath before.disk).state
        running := running } : Machine) = before
      ↔ running = before.running
        ∧ ∀ path, (createUpgradeBackup formats paths databasePath before.disk).holds paths path
            = false → left.disk path = before.disk path := by
  have hdisk : restoreUpgradeBackup paths
      (createUpgradeBackup formats paths databasePath before.disk) left.disk = before.disk ↔ _ :=
    Overlay.applyAll_eq_iff (restoreWrites_saved h)
  constructor
  · intro heq
    refine ⟨congrArg Machine.running heq, ?_⟩
    exact hdisk.mp (congrArg Machine.disk heq)
  · intro hkept
    obtain ⟨hrunning, hothers⟩ := hkept
    have hrestored := hdisk.mpr hothers
    have hlink := h.linked
    cases before
    simp only [Machine.mk.injEq]
    exact ⟨hrestored, hlink.symm, hrunning⟩

theorem recoverUpgrade_eq_iff (h : Managed formats paths databasePath before)
    {files : ServiceFiles} {step : UpgradeStep}
    (hleft : UpgradeLeft paths (createUpgradeBackup formats paths databasePath before.disk) files
      before step left)
    : recoverUpgrade formats paths (createUpgradeBackup formats paths databasePath before.disk)
          before.running step left = before
      ↔ UpgradeUndone paths (createUpgradeBackup formats paths databasePath before.disk) files
          before step := by
  unfold recoverUpgrade UpgradeUndone
  cases hlive : step.isLive with
  | false => simp [hleft.notLive hlive]
  | true =>
      rw [if_pos rfl, restored_eq_iff h]
      have hunit := hleft.unit hlive
      have hcli := hleft.cli hlive
      constructor
      · intro hkept
        obtain ⟨hrunning, hothers⟩ := hkept
        refine .inr ⟨hrunning.symm, ?_, ?_⟩
        · intro hreplaced
          rw [if_pos hreplaced] at hunit
          cases hheld : UpgradeBackup.holds _ paths paths.serviceFile with
          | true => exact .inl rfl
          | false => exact .inr ((hothers _ hheld).symm.trans hunit)
        · intro hreplaced
          rw [if_pos hreplaced] at hcli
          cases hheld : UpgradeBackup.holds _ paths paths.cliFile with
          | true => exact .inl rfl
          | false => exact .inr ((hothers _ hheld).symm.trans hcli)
      · intro hundone
        obtain ⟨hrunning, hunits, hclis⟩ := hundone.resolve_left (by simp)
        refine ⟨hrunning.symm, ?_⟩
        intro path hheld
        by_cases hservice : path = paths.serviceFile
        · subst hservice
          rw [hunit]
          split
          · next hreplaced =>
              exact ((hunits hreplaced).resolve_left (by simp [hheld])).symm
          · rfl
        · by_cases hoperator : path = paths.cliFile
          · subst hoperator
            rw [hcli]
            split
            · next hreplaced =>
                exact ((hclis hreplaced).resolve_left (by simp [hheld])).symm
            · rfl
          · exact hleft.others hlive path hheld hservice hoperator

theorem recoverRollback_eq_iff (h : Managed formats paths databasePath before)
    {target : UpgradeBackup} {step : RollbackStep}
    (hleft : RollbackLeft paths target before step left)
    : recoverRollback formats paths (createUpgradeBackup formats paths databasePath before.disk)
          before.running step left = before
      ↔ RollbackUndone paths (createUpgradeBackup formats paths databasePath before.disk) target
          before step left := by
  unfold recoverRollback RollbackUndone
  cases hlive : step.isLive with
  | false => simp [hleft.notLive hlive]
  | true =>
      rw [if_pos rfl, restored_eq_iff h]
      constructor
      · intro hkept
        exact .inr fun path _ hunheld => hkept.2 path hunheld
      · intro hundone
        have hothers := hundone.resolve_left (by simp)
        refine ⟨rfl, ?_⟩
        intro path hunheld
        cases htarget : target.holds paths path with
        | true => exact hothers path htarget hunheld
        | false => exact hleft.others hlive path htarget

theorem completeRollback_restores {archivedDatabase : Path} {archived : Machine}
    (h : Managed formats paths archivedDatabase archived) (completedState : Node) (noStart : Bool)
    (before : Machine)
    : let target := createUpgradeBackup formats paths archivedDatabase archived.disk
      let after := completeRollback formats paths target completedState noStart before
      after.currentLink = archived.currentLink
        ∧ ∀ path, target.holds paths path = true → path ≠ paths.stateFile →
          after.disk path = archived.disk path := by
  refine ⟨h.linked.symm, ?_⟩
  intro path hheld hstate
  have hrestored := Overlay.applyAll_apply (restoreWrites_saved h) before.disk path
  change Overlay.holds _ path = true at hheld
  rw [if_pos hheld] at hrestored
  simpa [completeRollback, restoreUpgradeBackup, Overlay.apply, nodeAt, hstate] using hrestored

end

/-- Failed upgrades and rollbacks are undone exactly under their conditions, and a successful
rollback restores the data, the external storage, the database, the configuration and the link of
its archive.
-/
theorem installer_undone_iff (formats : Formats) (paths : InstallPaths) (databasePath : Path)
    (before : Machine) (hbefore : Managed formats paths databasePath before)
    : let backup := createUpgradeBackup formats paths databasePath before.disk
      (∀ files step left, UpgradeLeft paths backup files before step left →
          (recoverUpgrade formats paths backup before.running step left = before
            ↔ UpgradeUndone paths backup files before step))
        ∧ (∀ target step left, RollbackLeft paths target before step left →
          (recoverRollback formats paths backup before.running step left = before
            ↔ RollbackUndone paths backup target before step left))
        ∧ ∀ archivedDatabase archived, Managed formats paths archivedDatabase archived →
          ∀ completedState noStart,
            let target := createUpgradeBackup formats paths archivedDatabase archived.disk
            let after := completeRollback formats paths target completedState noStart before
            after.currentLink = archived.currentLink
              ∧ ∀ path, target.holds paths path = true → path ≠ paths.stateFile →
                after.disk path = archived.disk path := by
  refine ⟨?_, ?_, ?_⟩
  · intro files step left hleft
    exact recoverUpgrade_eq_iff hbefore hleft
  · intro target step left hleft
    exact recoverRollback_eq_iff hbefore hleft
  · intro archivedDatabase archived harchived completedState noStart
    exact completeRollback_restores harchived completedState noStart before

-- An installation

/-- The default paths. -/
def defaultPaths : InstallPaths where
  dataRoot := ["var", "lib", "licensetrack"]
  configRoot := ["etc", "licensetrack"]
  serviceFile := ["etc", "systemd", "system", "licensetrack.service"]
  cliFile := ["usr", "local", "bin", "licensetrack"]

/-- The database of an installation, inside the data root. -/
def defaultDatabase : Path := ["var", "lib", "licensetrack", "licenses.db"]

/-- Databases without external storage, and state files that record release 1.1.0. -/
def plainFormats : Formats where
  storagePath _ := none
  releasePath _ := some ["opt", "licensetrack", "releases", "1.1.0"]

/-- The disk of release 1.1.0. -/
def installedDisk : Disk := fun path =>
  if path ∈ dataDirectories defaultPaths then some .directory
  else if path = defaultDatabase then some (.file "licences")
  else if path = defaultPaths.configFile then some (.file "PORT=8000")
  else if path = defaultPaths.stateFile then some (.file "1.1.0")
  else if path = defaultPaths.serviceFile then some (.file "unit 1.1.0")
  else if path = defaultPaths.cliFile then some (.file "cli 1.1.0")
  else none

/-- Release 1.1.0, running. -/
def installed : Machine where
  disk := installedDisk
  currentLink := some ["opt", "licensetrack", "releases", "1.1.0"]
  running := true

theorem installed_managed : Managed plainFormats defaultPaths defaultDatabase installed where
  checkpointed := by decide +kernel
  directories := by decide +kernel
  linked := rfl

/-- An upgrade of it to release 1.2.0 whose health check failed. -/
def unhealthy : Machine where
  disk path :=
    if path = defaultDatabase then some (.file "migrated licences")
    else if path = defaultPaths.stateFile then some (.file "1.2.0")
    else if path = defaultPaths.serviceFile then some (.file "unit 1.2.0")
    else if path = defaultPaths.cliFile then some (.file "cli 1.2.0")
    else installedDisk path
  currentLink := some ["opt", "licensetrack", "releases", "1.2.0"]
  running := true

theorem unhealthy_left
    : UpgradeLeft defaultPaths
        (createUpgradeBackup plainFormats defaultPaths defaultDatabase installed.disk)
        ⟨"unit 1.2.0", "cli 1.2.0"⟩ installed .waitForHealth unhealthy where
  notLive hnot := by cases hnot
  unit _ := by decide +kernel
  cli _ := by decide +kernel
  others _ := by
    intro path hheld hservice hoperator
    have hdatabase : path ≠ defaultDatabase := by
      intro heq
      subst heq
      exact absurd hheld (by decide +kernel)
    have hstate : path ≠ defaultPaths.stateFile := by
      intro heq
      subst heq
      exact absurd hheld (by decide +kernel)
    simp [unhealthy, installed, hservice, hoperator, hdatabase, hstate]

/-- Had the health check failed with the units unchanged, the upgrade would be undone. -/
theorem installer_undone_iff_unchangedUnits
    : ∃ left, recoverUpgrade plainFormats defaultPaths
          (createUpgradeBackup plainFormats defaultPaths defaultDatabase installed.disk) true
          .waitForHealth left = installed
        ∧ left.disk defaultDatabase = some (.file "migrated licences") := by
  have hleft : UpgradeLeft defaultPaths
      (createUpgradeBackup plainFormats defaultPaths defaultDatabase installed.disk)
      ⟨"unit 1.1.0", "cli 1.2.0"⟩ installed .waitForHealth
      { unhealthy with disk := fun path =>
          if path = defaultPaths.serviceFile then some (.file "unit 1.1.0")
          else unhealthy.disk path } := by
    constructor
    · intro hnot
      cases hnot
    · intro _
      decide +kernel
    · intro _
      decide +kernel
    · intro hlive path hheld hservice hoperator
      have hsame := unhealthy_left.others hlive path hheld hservice hoperator
      simpa [hservice] using hsame
  refine ⟨_, ((installer_undone_iff plainFormats defaultPaths defaultDatabase installed
    installed_managed).1 _ _ _ hleft).mpr ?_, by decide +kernel⟩
  refine .inr ⟨rfl, ?_, ?_⟩
  · intro _
    exact .inr (by decide +kernel)
  · intro _
    exact .inl (by decide +kernel)

/-- A failed upgrade leaves the unit file of the release that it could not start. -/
theorem upgrade_keepsNewUnit
    : ¬ ∀ formats paths databasePath before files step left,
        Managed formats paths databasePath before →
        UpgradeLeft paths (createUpgradeBackup formats paths databasePath before.disk) files before
          step left →
        recoverUpgrade formats paths
          (createUpgradeBackup formats paths databasePath before.disk) before.running step left
            = before := by
  intro hclaim
  have hundone := hclaim plainFormats defaultPaths defaultDatabase installed _ _ _
    installed_managed unhealthy_left
  have hunit := congrArg (fun machine : Machine => machine.disk defaultPaths.serviceFile) hundone
  exact absurd hunit (by decide +kernel)

end LicenseTrack.Installer
