import LicenseTrack.Library.Runs
import LicenseTrack.Library.Table
import LicenseTrack.Model.Text
import Mathlib.Logic.Function.Basic

/-! Enabling, disabling and uninstalling extensions: the row of the extension with its actions, the
capabilities that its manifest declares, and its runtime.
-/

namespace LicenseTrack

open Library

namespace ExtensionHost

/-- `PluginStatus`. -/
inductive PluginStatus
  | installed
  | disabled
  | enabled
  | incompatible
  | misconfigured
  | error
  | unverified
  | uninstalled
deriving DecidableEq

/-- `PluginCompatibilityStatus`. -/
inductive CompatibilityStatus
  | compatible
  | incompatible
  | unknown
deriving DecidableEq

/-- `PluginTrustStatus`. -/
inductive TrustStatus
  | unverified
  | verified
  | developer
deriving DecidableEq

/-- An entry of the manifest's `capabilities`, with `get` of its keys where it is a dictionary. -/
inductive RawCapability
  | dict (key type description : Option String)
  | other

/-- A row of `plugin_actions`. -/
structure PluginAction where
  actionKey : String
  enabled : Bool
deriving DecidableEq

/-- A row of `plugin_permissions`. -/
structure PluginPermission where
  permission : String
  granted : Bool
  grantedBy : Option Nat
  grantedAt : Option Nat
deriving DecidableEq

/-- A row of `plugin_versions`. -/
structure PluginVersion where
  version : String
  activatedAt : Option Nat
deriving DecidableEq

/-- A row of `plugin_setting_definitions`. -/
structure SettingDefinition where
  settingKey : String
  required : Bool
deriving DecidableEq

/-- A row of `plugins` with the rows that belong to it. -/
structure Plugin where
  installedVersion : String
  status : PluginStatus
  enabled : Bool
  compatibilityStatus : CompatibilityStatus
  trustStatus : TrustStatus
  installPath : String
  capabilities : List RawCapability
  lastError : Option String
  versions : List PluginVersion
  permissions : List PluginPermission
  settingDefinitions : List SettingDefinition
  actions : List PluginAction

/-- `CapabilityStatus`. -/
inductive CapabilityStatus
  | available
  | unavailable
  | misconfigured
deriving DecidableEq

/-- The `details` of a capability that an extension declares. -/
structure CapabilityDetails where
  source : String
  pluginKey : String
  pluginVersion : String
deriving DecidableEq

/-- A row of `extension_capabilities`. -/
structure ExtensionCapability where
  name : String
  capabilityType : String
  status : CapabilityStatus
  version : Option String
  description : Option String
  healthUrl : Option String
  lastError : Option String
  details : Option CapabilityDetails
  createdBy : Option Nat
  updatedBy : Option Nat
  updatedAt : Nat
  lastSeenAt : Nat
deriving DecidableEq

/-- The rows under their unique keys, the extension of each suggestion, and which runtimes run. -/
structure Registry where
  plugins : String → Option Plugin
  capabilities : String → Option ExtensionCapability
  suggestions : Table (Option String)
  running : String → Bool

/-- What requests find of the host: its settings, which extension settings are configured, and which
install paths resolve to a place inside the storage.
-/
structure Host where
  pluginHostEnabled : Bool
  pluginHostDeveloperMode : Bool
  configured : String → String → Bool
  installPathSafe : String → Bool
  now : Nat

/-- An exception that leaves a request. -/
inductive Failure
  | lifecycle (message : String)
  | runtime (message : String)
deriving DecidableEq

/-- How stopping a runtime went; it may have ended though the stop raised. -/
inductive StopOutcome
  | stopped
  | raised (ended : Bool) (message : String)

/-- How restarting a runtime went: it stops what runs, then starts anew. -/
inductive RestartOutcome
  | started
  | stopRaised (ended : Bool) (message : String)
  | startRaised (message : String)

-- Parts of the requests

/-- `ensure_plugin_can_run`, the text of the error if it raises one. -/
def ensurePluginCanRun (host : Host) (plugin : Plugin) : Option String :=
  if !host.pluginHostEnabled then
    some "Official Extensions are not available in this deployment"
  else if plugin.trustStatus = .verified then none
  else if plugin.trustStatus = .developer && host.pluginHostDeveloperMode then none
  else some "Only verified Official Extensions can be enabled"

/-- `missing_required` of `read_plugin_settings`. -/
def missingRequired (host : Host) (pluginKey : String) (plugin : Plugin) : List String :=
  (plugin.settingDefinitions.filter fun definition =>
    definition.required && !host.configured pluginKey definition.settingKey).map (·.settingKey)

/-- The error of missing settings. -/
def missingSettingsError (missing : List String) : String :=
  "Missing required Official Extension setting(s): " ++ ", ".intercalate missing

/-- `_set_actions_enabled`. -/
def Plugin.setActionsEnabled (plugin : Plugin) (enabled : Bool) : Plugin :=
  { plugin with actions := plugin.actions.map fun action => { action with enabled := enabled } }

/-- The key and the type of an entry of the manifest, none where the loop passes it over. -/
def RawCapability.declared? : RawCapability → Option (String × String)
  | .dict key type _ =>
      if strip (key.getD "") = "" ∨ strip (type.getD "") = "" then none
      else some (strip (key.getD ""), strip (type.getD ""))
  | .other => none

/-- The text under `description`. -/
def RawCapability.description : RawCapability → Option String
  | .dict _ _ description => description
  | .other => none

/-- The body of the loop of `_set_manifest_capabilities`. -/
def setCapability (pluginKey : String) (plugin : Plugin) (status : CapabilityStatus)
    (actorId : Option Nat) (lastError : Option String) (now : Nat)
    (capabilities : String → Option ExtensionCapability) (raw : RawCapability)
    : String → Option ExtensionCapability :=
  match raw.declared? with
  | none => capabilities
  | some (key, capabilityType) =>
      Function.update capabilities key
        (some
          {
            name := key
            capabilityType := capabilityType
            status := status
            version := some plugin.installedVersion
            description := raw.description
            healthUrl := none
            lastError := lastError
            details := some ⟨"plugin", pluginKey, plugin.installedVersion⟩
            createdBy := ((capabilities key).map (·.createdBy)).getD actorId
            updatedBy := actorId
            updatedAt := now
            lastSeenAt := now
          })

/-- `_set_manifest_capabilities`. -/
def setManifestCapabilities (pluginKey : String) (plugin : Plugin) (status : CapabilityStatus)
    (actorId : Option Nat) (lastError : Option String) (now : Nat)
    (capabilities : String → Option ExtensionCapability)
    : String → Option ExtensionCapability :=
  plugin.capabilities.foldl (setCapability pluginKey plugin status actorId lastError now)
    capabilities

namespace Registry

/-- The registry with the row of one extension written. -/
def write (s : Registry) (key : String) (plugin : Plugin) : Registry :=
  { s with plugins := Function.update s.plugins key (some plugin) }

/-- The registry with the runtime of one extension running or not. -/
def setRunning (s : Registry) (key : String) (running : Bool) : Registry :=
  { s with running := Function.update s.running key running }

/-- `_disable_plugin_surfaces` after the stop of the runtime: the row and the capabilities. -/
def disableSurfaces (s : Registry) (host : Host) (actorId : Option Nat) (key : String)
    (plugin : Plugin) (lastError : Option String)
    : Registry :=
  { s.write key (plugin.setActionsEnabled false) with
    capabilities := setManifestCapabilities key plugin .unavailable actorId lastError host.now
      s.capabilities }

end Registry

/-- The row once its permissions are granted. -/
def Plugin.grantPermissions (plugin : Plugin) (actorId : Option Nat) (now : Nat) : Plugin :=
  { plugin with
    permissions := plugin.permissions.map fun permission =>
      if permission.granted then permission
      else { permission with granted := true, grantedBy := actorId, grantedAt := some now } }

/-- The row once its installed version counts as activated. -/
def Plugin.activateVersion (plugin : Plugin) (now : Nat) : Plugin :=
  { plugin with
    versions := plugin.versions.map fun version =>
      if version.version = plugin.installedVersion && version.activatedAt.isNone then
        { version with activatedAt := some now }
      else version }

/-- The row that `enable_plugin` writes before it restarts the runtime. -/
def Plugin.switchOn (plugin : Plugin) (actorId : Option Nat) (now : Nat) : Plugin :=
  { ((plugin.grantPermissions actorId now).setActionsEnabled true).activateVersion now with
    enabled := true
    status := .enabled
    lastError := none }

/-- The row that `enable_plugin` writes for an extension that it cannot enable. -/
def Plugin.refused (plugin : Plugin) (status : PluginStatus) (message : String) : Plugin :=
  { plugin.setActionsEnabled false with
    enabled := false
    status := status
    lastError := some message }

namespace Registry

/-- What `enable_plugin` has written when it restarts the runtime. -/
def switchOn (s : Registry) (host : Host) (actorId : Option Nat) (key : String) (plugin : Plugin)
    : Registry :=
  { s.write key (plugin.switchOn actorId host.now) with
    capabilities := setManifestCapabilities key plugin .available actorId none host.now
      s.capabilities }

/-- The handler of `enable_plugin` for a runtime that failed to restart, which does not stop it. -/
def startFailed (s : Registry) (host : Host) (actorId : Option Nat) (key : String) (plugin : Plugin)
    (message : String)
    : Registry :=
  (s.disableSurfaces host actorId key plugin (some message)).write key
    (plugin.refused .error message)

end Registry

-- Requests

/-- The registry that a request leaves once its transaction has ended, and the error it raised. -/
structure Answer where
  registry : Registry
  error : Option Failure

/-- The error of `_get_plugin`. -/
def notInstalled (key : String) : Failure :=
  .lifecycle ("Official Extension '" ++ key ++ "' is not installed")

/-- `enable_plugin`, whose route commits what it wrote before a lifecycle error too. -/
def enablePlugin (host : Host) (restart : RestartOutcome) (actorId : Option Nat) (key : String)
    (s : Registry)
    : Answer :=
  match s.plugins key with
  | none => ⟨s, some (notInstalled key)⟩
  | some plugin =>
      match ensurePluginCanRun host plugin with
      | some message =>
          let status :=
            if plugin.trustStatus = .unverified then PluginStatus.unverified else .disabled
          ⟨s.write key (plugin.refused status message), some (.lifecycle message)⟩
      | none =>
          if plugin.compatibilityStatus ≠ .compatible then
            ⟨s, some (.lifecycle
              "Official Extension is not compatible with this LicenseTrack version")⟩
          else
            match missingRequired host key plugin with
            | first :: rest =>
                let message := missingSettingsError (first :: rest)
                ⟨s.write key (plugin.refused .misconfigured message), some (.lifecycle message)⟩
            | [] =>
                let enabled := s.switchOn host actorId key plugin
                let plugin := plugin.switchOn actorId host.now
                match restart with
                | .started => ⟨enabled.setRunning key true, none⟩
                | .startRaised message =>
                    ⟨(enabled.setRunning key false).startFailed host actorId key plugin message,
                      some (.lifecycle message)⟩
                | .stopRaised ended message =>
                    let stopped := if ended then enabled.setRunning key false else enabled
                    ⟨stopped.startFailed host actorId key plugin message,
                      some (.lifecycle message)⟩

/-- The registry after a stop of a runtime that raised: the request is rolled back. -/
def stopFailed (s : Registry) (key : String) (ended : Bool) (message : String) : Answer :=
  ⟨if ended then s.setRunning key false else s, some (.runtime message)⟩

/-- `disable_plugin`. -/
def disablePlugin (host : Host) (stop : StopOutcome) (actorId : Option Nat) (key : String)
    (s : Registry)
    : Answer :=
  match s.plugins key with
  | none => ⟨s, some (notInstalled key)⟩
  | some plugin =>
      match stop with
      | .raised ended message => stopFailed s key ended message
      | .stopped =>
          let row :=
            { plugin.setActionsEnabled false with
              enabled := false
              status := .disabled
              lastError := none }
          ⟨((s.setRunning key false).disableSurfaces host actorId key plugin none).write key row,
            none⟩

/-- `uninstall_plugin`; an install path outside the storage rolls the rows back. -/
def uninstallPlugin (host : Host) (stop : StopOutcome) (actorId : Option Nat) (key : String)
    (s : Registry)
    : Answer :=
  match s.plugins key with
  | none => ⟨s, some (notInstalled key)⟩
  | some plugin =>
      match stop with
      | .raised ended message => stopFailed s key ended message
      | .stopped =>
          let stopped := s.setRunning key false
          if host.installPathSafe plugin.installPath then
            let disabled := stopped.disableSurfaces host actorId key plugin none
            ⟨{ disabled with
                plugins := Function.update disabled.plugins key none
                suggestions := disabled.suggestions.mapRows fun _ suggested =>
                  suggested.filter (· != key) },
              none⟩
          else
            ⟨stopped, some (.lifecycle
              "Official Extension install path is outside configured extension storage")⟩

/-- A request, with what it finds of the host and how its runtime steps go. -/
inductive Operation
  | enable (host : Host) (restart : RestartOutcome) (actorId : Option Nat) (key : String)
  | disable (host : Host) (stop : StopOutcome) (actorId : Option Nat) (key : String)
  | uninstall (host : Host) (stop : StopOutcome) (actorId : Option Nat) (key : String)

/-- The answer to a request. -/
def answer (s : Registry) : Operation → Answer
  | .enable host restart actorId key => enablePlugin host restart actorId key s
  | .disable host stop actorId key => disablePlugin host stop actorId key s
  | .uninstall host stop actorId key => uninstallPlugin host stop actorId key s

/-- The registry after a request; a request that fails also ends with a registry. -/
def step (operation : Operation) (s : Registry) : Except PUnit.{1} Registry :=
  .ok (answer s operation).registry

end ExtensionHost

end LicenseTrack
