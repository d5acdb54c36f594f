import LicenseTrack.Extensions.Lifecycle

/-! The surfaces of an extension follow its enabled flag, as long as no two extensions share a
capability that one of them loses, and no request refuses an extension that is enabled.
-/

namespace LicenseTrack

open Library

namespace ExtensionHost

/-- The keys of the capabilities that an extension declares. -/
def Plugin.declared (plugin : Plugin) : List String :=
  plugin.capabilities.filterMap fun raw => raw.declared?.map Prod.fst

/-- Whether a capability is available. -/
def Registry.available (s : Registry) (capability : String) : Bool :=
  (s.capabilities capability).any (·.status == .available)

/-- An enabled extension that declares a capability. -/
def Registry.DeclaredBy (s : Registry) (key capability : String) : Prop :=
  ∃ plugin, s.plugins key = some plugin ∧ plugin.enabled = true ∧ capability ∈ plugin.declared

/-- The status and the actions of each extension are as its flag says, a capability is available
where an enabled extension declares it, and only runtimes of enabled extensions run.
-/
structure SurfacesFollow (s : Registry) : Prop where
  status : ∀ key plugin, s.plugins key = some plugin →
    (plugin.status = .enabled ↔ plugin.enabled = true)
  actions : ∀ key plugin, s.plugins key = some plugin →
    ∀ action ∈ plugin.actions, action.enabled = plugin.enabled
  capabilities : ∀ capability, s.available capability = true ↔ ∃ key, s.DeclaredBy key capability
  runtimes : ∀ key, s.running key = true → ∃ plugin, s.plugins key = some plugin
    ∧ plugin.enabled = true

/-- A row that is not enabled in any of its columns. -/
structure Plugin.Off (plugin : Plugin) : Prop where
  enabled : plugin.enabled = false
  status : plugin.status ≠ .enabled
  actions : ∀ action ∈ plugin.actions, action.enabled = false

/-- An installation in which no extension is enabled. -/
structure NoneEnabled (s : Registry) : Prop where
  plugins : ∀ key plugin, s.plugins key = some plugin → plugin.Off
  capabilities : ∀ capability, s.available capability = false
  runtimes : ∀ key, s.running key = false

/-- No other enabled extension declares a capability of this one. -/
def Registry.DeclaresAlone (s : Registry) (key : String) (plugin : Plugin) : Prop :=
  ∀ capability ∈ plugin.declared, ∀ other, other ≠ key → ¬ s.DeclaredBy other capability

/-- If the extension is enabled, its runtime does not run, and other enabled extensions declare all
its capabilities.
-/
def Registry.LeavesNothing (s : Registry) (key : String) (plugin : Plugin) : Prop :=
  plugin.enabled = true → s.running key = false
    ∧ ∀ capability ∈ plugin.declared, ∃ other, other ≠ key ∧ s.DeclaredBy other capability

/-- Whether the checks of `enable_plugin` refuse an extension and switch it off. -/
def refuses (host : Host) (key : String) (plugin : Plugin) : Bool :=
  (ensurePluginCanRun host plugin).isSome
    || plugin.compatibilityStatus == .compatible && !(missingRequired host key plugin).isEmpty

/-- Whether the checks of `enable_plugin` let an extension pass to its runtime. -/
def passes (host : Host) (key : String) (plugin : Plugin) : Bool :=
  (ensurePluginCanRun host plugin).isNone
    && plugin.compatibilityStatus == .compatible && (missingRequired host key plugin).isEmpty

/-- Requests that take down nothing that another extension still declares, and refuse no extension
whose surfaces are up.
-/
def Undisturbed (s : Registry) : Operation → Prop
  | .enable host restart _ key => ∀ plugin, s.plugins key = some plugin →
      (refuses host key plugin = true → s.LeavesNothing key plugin)
      ∧ (passes host key plugin = true →
          match restart with
          | .started => True
          | .startRaised _ => s.DeclaresAlone key plugin
          | .stopRaised ended _ =>
              s.DeclaresAlone key plugin ∧ (ended = false → s.running key = false))
  | .disable _ stop _ key => ∀ plugin, s.plugins key = some plugin →
      match stop with
      | .stopped => s.DeclaresAlone key plugin
      | .raised _ _ => True
  | .uninstall host stop _ key => ∀ plugin, s.plugins key = some plugin →
      match stop with
      | .stopped => host.installPathSafe plugin.installPath = true → s.DeclaresAlone key plugin
      | .raised _ _ => True

variable {s : Registry} {key pluginKey : String} {plugin row : Plugin} {status : CapabilityStatus}
  {actorId : Option Nat} {lastError : Option String} {now : Nat}

theorem setCapability_status (capabilities : String → Option ExtensionCapability)
    (raw : RawCapability) (capability : String)
    : (setCapability pluginKey plugin status actorId lastError now capabilities raw capability).map
        (·.status)
      = if raw.declared?.map Prod.fst = some capability then some status
        else (capabilities capability).map (·.status) := by
  unfold setCapability
  cases hraw : raw.declared? with
  | none => simp
  | some declared =>
      simp only [Option.map_some, Option.some.injEq, Function.update_apply]
      by_cases he : capability = declared.1
      · simp [he]
      · rw [if_neg he, if_neg (Ne.symm he)]

theorem setManifestCapabilities_status (capabilities : String → Option ExtensionCapability)
    (capability : String)
    : (setManifestCapabilities pluginKey plugin status actorId lastError now capabilities
          capability).map (·.status)
      = if capability ∈ plugin.declared then some status
        else (capabilities capability).map (·.status) := by
  unfold setManifestCapabilities Plugin.declared
  generalize plugin.capabilities = entries
  induction entries generalizing capabilities with
  | nil => simp
  | cons raw rest ih =>
      rw [List.foldl_cons, ih, setCapability_status]
      by_cases hrest : capability ∈ rest.filterMap fun raw => raw.declared?.map Prod.fst
      · rw [if_pos hrest, if_pos]
        cases hraw : raw.declared?.map Prod.fst <;> simp [hraw, hrest]
      · rw [if_neg hrest]
        cases hraw : raw.declared?.map Prod.fst with
        | none => simp [hraw, hrest]
        | some declared => simp [hraw, hrest, eq_comm]

theorem available_setManifestCapabilities (capabilities : String → Option ExtensionCapability)
    (capability : String)
    : (setManifestCapabilities pluginKey plugin status actorId lastError now capabilities
          capability).any (·.status == .available)
      = if capability ∈ plugin.declared then status == .available
        else (capabilities capability).any (·.status == .available) := by
  have hany : ∀ found : Option ExtensionCapability,
      found.any (·.status == .available) = (found.map (·.status)).any (· == .available) := by
    intro found
    cases found <;> rfl
  simp only [hany, setManifestCapabilities_status]
  split <;> rfl

-- One extension goes up or down

/-- A registry in which nothing but one extension has changed: its row, if it has one still, its
capabilities and its runtime.
-/
structure ChangedAt (s t : Registry) (key : String) (plugin : Plugin) (row : Option Plugin)
    : Prop where
  before : s.plugins key = some plugin
  row : t.plugins key = row
  others : ∀ other, other ≠ key → t.plugins other = s.plugins other
  undeclared : ∀ capability, capability ∉ plugin.declared →
    t.available capability = s.available capability
  runtimes : ∀ other, other ≠ key → t.running other = s.running other

variable {t : Registry}

theorem ChangedAt.declaredBy {row : Option Plugin} (h : ChangedAt s t key plugin row)
    {other capability : String} (hother : other ≠ key)
    : t.DeclaredBy other capability ↔ s.DeclaredBy other capability := by
  unfold Registry.DeclaredBy
  rw [h.others other hother]

theorem SurfacesFollow.changedAt (hs : SurfacesFollow s) {row : Option Plugin}
    (h : ChangedAt s t key plugin row)
    (hrow : ∀ plugin, row = some plugin → (plugin.status = .enabled ↔ plugin.enabled = true)
      ∧ ∀ action ∈ plugin.actions, action.enabled = plugin.enabled)
    (hdeclared : ∀ plugin', row = some plugin' → plugin'.declared = plugin.declared)
    (hcapabilities : ∀ capability ∈ plugin.declared,
      (t.available capability = true ↔ ∃ other, t.DeclaredBy other capability))
    (hruntime : t.running key = true → ∃ plugin, row = some plugin ∧ plugin.enabled = true)
    : SurfacesFollow t where
  status := fun other plugin' hplugin => by
    by_cases he : other = key
    · subst he
      exact (hrow plugin' (h.row.symm.trans hplugin)).1
    · exact hs.status other plugin' ((h.others other he).symm.trans hplugin)
  actions := fun other plugin' hplugin => by
    by_cases he : other = key
    · subst he
      exact (hrow plugin' (h.row.symm.trans hplugin)).2
    · exact hs.actions other plugin' ((h.others other he).symm.trans hplugin)
  capabilities := fun capability => by
    by_cases hc : capability ∈ plugin.declared
    · exact hcapabilities capability hc
    · rw [h.undeclared capability hc, hs.capabilities]
      apply exists_congr
      intro other
      by_cases he : other = key
      · subst he
        constructor
        · rintro ⟨plugin', hplugin, -, hm⟩
          obtain rfl := Option.some.inj (h.before.symm.trans hplugin)
          exact absurd hm hc
        · rintro ⟨plugin', hplugin, -, hm⟩
          exact absurd (hdeclared plugin' (h.row.symm.trans hplugin) ▸ hm) hc
      · exact (h.declaredBy he).symm
  runtimes := fun other hrunning => by
    by_cases he : other = key
    · subst he
      rw [h.row]
      exact hruntime hrunning
    · rw [h.others other he]
      exact hs.runtimes other (h.runtimes other he ▸ hrunning)

theorem SurfacesFollow.up (hs : SurfacesFollow s) {row : Plugin}
    (h : ChangedAt s t key plugin (some row)) (hdeclared : row.declared = plugin.declared)
    (henabled : row.enabled = true) (hstatus : row.status = .enabled)
    (hactions : ∀ action ∈ row.actions, action.enabled = true)
    (hcapabilities : ∀ capability ∈ plugin.declared, t.available capability = true)
    : SurfacesFollow t := by
  apply hs.changedAt h
  · intro plugin' hplugin
    obtain rfl := Option.some.inj hplugin
    exact ⟨by simp [henabled, hstatus], fun action hm => (hactions action hm).trans henabled.symm⟩
  · intro plugin' hplugin
    obtain rfl := Option.some.inj hplugin
    exact hdeclared
  · intro capability hm
    have hdeclares : t.DeclaredBy key capability := ⟨row, h.row, henabled, hdeclared ▸ hm⟩
    exact iff_of_true (hcapabilities capability hm) ⟨key, hdeclares⟩
  · exact fun _ => ⟨row, rfl, henabled⟩

theorem ChangedAt.not_declaredBy {row : Option Plugin} (h : ChangedAt s t key plugin row)
    (hoff : ∀ plugin, row = some plugin → plugin.Off) (capability : String)
    : ¬ t.DeclaredBy key capability := by
  rintro ⟨plugin', hplugin, henabled, -⟩
  rw [(hoff plugin' (h.row.symm.trans hplugin)).enabled] at henabled
  cases henabled

theorem SurfacesFollow.down (hs : SurfacesFollow s) {row : Option Plugin}
    (h : ChangedAt s t key plugin row) (hoff : ∀ plugin, row = some plugin → plugin.Off)
    (hdeclared : ∀ plugin', row = some plugin' → plugin'.declared = plugin.declared)
    (hcapabilities : ∀ capability ∈ plugin.declared, (t.available capability = true
      ↔ ∃ other, other ≠ key ∧ s.DeclaredBy other capability))
    (hruntime : t.running key = false)
    : SurfacesFollow t := by
  apply hs.changedAt h _ hdeclared
  · intro capability hm
    rw [hcapabilities capability hm]
    constructor
    · rintro ⟨other, hne, hother⟩
      exact ⟨other, (h.declaredBy hne).mpr hother⟩
    · rintro ⟨other, hother⟩
      have hne : other ≠ key := by
        rintro rfl
        exact h.not_declaredBy hoff capability hother
      exact ⟨other, hne, (h.declaredBy hne).mp hother⟩
  · rw [hruntime]
    exact fun hrunning => by cases hrunning
  · intro plugin' hplugin
    have hplugin := hoff plugin' hplugin
    constructor
    · exact iff_of_false hplugin.status (by rw [hplugin.enabled]; exact Bool.false_ne_true)
    · exact fun action hm => (hplugin.actions action hm).trans hplugin.enabled.symm

-- The requests

theorem SurfacesFollow.runtimeEnded (hs : SurfacesFollow s) (key : String)
    : SurfacesFollow (s.setRunning key false) where
  status := hs.status
  actions := hs.actions
  capabilities := hs.capabilities
  runtimes := fun other hrunning => by
    simp only [Registry.setRunning, Function.update_apply] at hrunning
    split at hrunning
    · cases hrunning
    · exact hs.runtimes other hrunning

theorem SurfacesFollow.stopFailed (hs : SurfacesFollow s) (key : String) (ended : Bool)
    (message : String)
    : SurfacesFollow (stopFailed s key ended message).registry := by
  cases ended with
  | true => exact hs.runtimeEnded key
  | false => exact hs

theorem SurfacesFollow.refused (hs : SurfacesFollow s) (hplugin : s.plugins key = some plugin)
    (hleaves : s.LeavesNothing key plugin) {row : Plugin} (hoff : row.Off)
    (hdeclared : row.declared = plugin.declared)
    : SurfacesFollow (s.write key row) := by
  have hchanged : ChangedAt s (s.write key row) key plugin (some row) := by
    constructor
    · exact hplugin
    · exact Function.update_self _ _ _
    · exact fun other hne => Function.update_of_ne hne _ _
    · exact fun _ _ => rfl
    · exact fun _ _ => rfl
  have hrow : ∀ plugin', some row = some plugin' → plugin' = row := fun _ h => (Option.some.inj h).symm
  apply hs.down hchanged
  · exact fun plugin' h => hrow plugin' h ▸ hoff
  · exact fun plugin' h => hrow plugin' h ▸ hdeclared
  · intro capability hm
    refine (hs.capabilities capability).trans ⟨fun ⟨other, hother⟩ => ?_, fun ⟨other, _, h⟩ => ⟨other, h⟩⟩
    by_cases he : other = key
    · subst he
      obtain ⟨plugin', hplugin', henabled, -⟩ := hother
      obtain rfl := Option.some.inj (hplugin.symm.trans hplugin')
      exact (hleaves henabled).2 capability hm
    · exact ⟨other, he, hother⟩
  · cases hrunning : s.running key with
    | false => exact hrunning
    | true =>
        obtain ⟨plugin', hplugin', henabled⟩ := hs.runtimes key hrunning
        obtain rfl := Option.some.inj (hplugin.symm.trans hplugin')
        exact absurd hrunning (by rw [(hleaves henabled).1]; exact Bool.false_ne_true)

theorem changedAt_of_update (hplugin : s.plugins key = some plugin) {row : Option Plugin}
    {up : Bool} (hplugins : t.plugins = Function.update s.plugins key row)
    (havailable : ∀ capability,
      t.available capability = if capability ∈ plugin.declared then up else s.available capability)
    (hruntimes : ∀ other, other ≠ key → t.running other = s.running other)
    : ChangedAt s t key plugin row where
  before := hplugin
  row := by rw [hplugins, Function.update_self]
  others := fun other hne => by rw [hplugins, Function.update_of_ne hne]
  undeclared := fun capability hm => by rw [havailable, if_neg hm]
  runtimes := hruntimes

theorem SurfacesFollow.takenDown (hs : SurfacesFollow s) (hplugin : s.plugins key = some plugin)
    (halone : s.DeclaresAlone key plugin) {row : Option Plugin}
    (hplugins : t.plugins = Function.update s.plugins key row)
    (havailable : ∀ capability, t.available capability
      = if capability ∈ plugin.declared then false else s.available capability)
    (hruntimes : ∀ other, other ≠ key → t.running other = s.running other)
    (hruntime : t.running key = false)
    (hrow : ∀ plugin', row = some plugin' → plugin'.Off ∧ plugin'.declared = plugin.declared)
    : SurfacesFollow t := by
  apply hs.down (changedAt_of_update hplugin hplugins havailable hruntimes)
  · exact fun plugin' h => (hrow plugin' h).1
  · exact fun plugin' h => (hrow plugin' h).2
  · intro capability hm
    rw [havailable, if_pos hm]
    exact iff_of_false Bool.false_ne_true fun ⟨other, hne, h⟩ => halone capability hm other hne h
  · exact hruntime

theorem PluginStatus.disabled_ne : PluginStatus.disabled ≠ .enabled := by decide

theorem off_refused (plugin : Plugin) {refusal : PluginStatus} (message : String)
    (hstatus : refusal ≠ .enabled)
    : (plugin.refused refusal message).Off where
  enabled := rfl
  status := hstatus
  actions := fun action haction => by
    obtain ⟨before, -, rfl⟩ := List.mem_map.mp haction
    rfl

theorem SurfacesFollow.started (hs : SurfacesFollow s) (hplugin : s.plugins key = some plugin)
    (host : Host) (actorId : Option Nat)
    : SurfacesFollow ((s.switchOn host actorId key plugin).setRunning key true) := by
  have havailable : ∀ capability,
      ((s.switchOn host actorId key plugin).setRunning key true).available capability
        = if capability ∈ plugin.declared then true else s.available capability :=
    fun _ => available_setManifestCapabilities _ _
  have hchanged := changedAt_of_update hplugin rfl havailable fun other hne =>
    Function.update_of_ne hne _ _
  apply hs.up hchanged rfl rfl rfl
  · intro action haction
    obtain ⟨before, -, rfl⟩ := List.mem_map.mp haction
    rfl
  · intro capability hm
    rw [havailable, if_pos hm]

theorem SurfacesFollow.startFailed (hs : SurfacesFollow s) (hplugin : s.plugins key = some plugin)
    (halone : s.DeclaresAlone key plugin) (host : Host) (actorId : Option Nat) (message : String)
    {running : String → Bool} (hruntime : running key = false)
    (hruntimes : ∀ other, other ≠ key → running other = s.running other)
    : SurfacesFollow
        ({ s.switchOn host actorId key plugin with running := running }.startFailed host actorId key
          (plugin.switchOn actorId host.now) message) := by
  have hoff : ((plugin.switchOn actorId host.now).refused .error message).Off :=
    off_refused _ message (by decide)
  have hrow : ∀ plugin', some ((plugin.switchOn actorId host.now).refused .error message)
      = some plugin' → plugin'.Off ∧ plugin'.declared = plugin.declared := by
    intro plugin' h
    obtain rfl := Option.some.inj h
    exact ⟨hoff, rfl⟩
  apply hs.takenDown hplugin halone _ _ hruntimes hruntime hrow
  · simp only [Registry.startFailed, Registry.switchOn, Registry.disableSurfaces, Registry.write,
      Function.update_idem]
  · intro capability
    have hdeclared : (plugin.switchOn actorId host.now).declared = plugin.declared := rfl
    simp only [Registry.available, Registry.startFailed, Registry.disableSurfaces, Registry.write,
      Registry.switchOn, available_setManifestCapabilities, hdeclared]
    split <;> rfl

theorem SurfacesFollow.enable (hs : SurfacesFollow s) {host : Host} {restart : RestartOutcome}
    (hundisturbed : Undisturbed s (.enable host restart actorId key))
    : SurfacesFollow (enablePlugin host restart actorId key s).registry := by
  unfold enablePlugin
  cases hplugin : s.plugins key with
  | none => exact hs
  | some plugin =>
      obtain ⟨hrefuses, hpasses⟩ := hundisturbed plugin hplugin
      dsimp only
      cases hrun : ensurePluginCanRun host plugin with
      | some message =>
          have hoff : (plugin.refused (if plugin.trustStatus = .unverified then .unverified
              else .disabled) message).Off := by
            apply off_refused
            split <;> decide
          exact hs.refused hplugin (hrefuses (by simp [refuses, hrun])) hoff rfl
      | none =>
          dsimp only
          split
          · exact hs
          · next hcompatible =>
              have hcompatible : plugin.compatibilityStatus = .compatible := not_not.mp hcompatible
              cases hmissing : missingRequired host key plugin with
              | cons first rest =>
                  exact hs.refused hplugin (hrefuses (by simp [refuses, hcompatible, hmissing]))
                    (off_refused plugin _ (by decide)) rfl
              | nil =>
                  have hpasses := hpasses (by simp [passes, hrun, hcompatible, hmissing])
                  cases restart with
                  | started => exact hs.started hplugin host actorId
                  | startRaised message =>
                      exact hs.startFailed hplugin hpasses host actorId message
                        (Function.update_self _ _ _) fun other hne => Function.update_of_ne hne _ _
                  | stopRaised ended message =>
                      cases ended with
                      | true =>
                          exact hs.startFailed hplugin hpasses.1 host actorId message
                            (Function.update_self _ _ _)
                            fun other hne => Function.update_of_ne hne _ _
                      | false =>
                          exact hs.startFailed hplugin hpasses.1 host actorId message
                            (hpasses.2 rfl) fun _ _ => rfl

theorem available_disableSurfaces (s : Registry) (host : Host) (actorId : Option Nat)
    (key : String) (plugin : Plugin) (lastError : Option String) (capability : String)
    : (s.disableSurfaces host actorId key plugin lastError).available capability
      = if capability ∈ plugin.declared then false else s.available capability := by
  simp only [Registry.available, Registry.disableSurfaces, available_setManifestCapabilities]
  split <;> rfl

theorem SurfacesFollow.disable (hs : SurfacesFollow s) {host : Host} {stop : StopOutcome}
    (hundisturbed : Undisturbed s (.disable host stop actorId key))
    : SurfacesFollow (disablePlugin host stop actorId key s).registry := by
  unfold disablePlugin
  cases hplugin : s.plugins key with
  | none => exact hs
  | some plugin =>
      have halone := hundisturbed plugin hplugin
      cases stop with
      | raised ended message => exact hs.stopFailed key ended message
      | stopped =>
          have hactions : ∀ action ∈ (plugin.setActionsEnabled false).actions,
              action.enabled = false := (off_refused plugin "" PluginStatus.disabled_ne).actions
          refine hs.takenDown hplugin halone (Function.update_idem _ _ _) (fun capability => ?_)
            (fun other hne => Function.update_of_ne hne _ _) (Function.update_self _ _ _)
            fun plugin' h => ?_
          · exact available_disableSurfaces s host actorId key plugin none capability
          · obtain rfl := Option.some.inj h
            exact ⟨⟨rfl, PluginStatus.disabled_ne, hactions⟩, rfl⟩

theorem SurfacesFollow.uninstall (hs : SurfacesFollow s) {host : Host} {stop : StopOutcome}
    (hundisturbed : Undisturbed s (.uninstall host stop actorId key))
    : SurfacesFollow (uninstallPlugin host stop actorId key s).registry := by
  unfold uninstallPlugin
  cases hplugin : s.plugins key with
  | none => exact hs
  | some plugin =>
      have halone := hundisturbed plugin hplugin
      cases stop with
      | raised ended message => exact hs.stopFailed key ended message
      | stopped =>
          dsimp only
          split
          · next hsafe =>
              refine hs.takenDown hplugin (halone hsafe) (Function.update_idem _ _ _)
                (fun capability => ?_) (fun other hne => Function.update_of_ne hne _ _)
                (Function.update_self _ _ _) fun plugin' h => nomatch h
              exact available_disableSurfaces s host actorId key plugin none capability
          · exact hs.runtimeEnded key

theorem SurfacesFollow.step (hs : SurfacesFollow s) {operation : Operation}
    (hundisturbed : Undisturbed s operation) (ht : step operation s = .ok t)
    : SurfacesFollow t := by
  obtain rfl := Except.ok.inj ht
  cases operation with
  | enable host restart actorId key => exact hs.enable hundisturbed
  | disable host stop actorId key => exact hs.disable hundisturbed
  | uninstall host stop actorId key => exact hs.uninstall hundisturbed

theorem NoneEnabled.surfacesFollow (h : NoneEnabled s) : SurfacesFollow s where
  status := fun key plugin hplugin => by
    have hoff := h.plugins key plugin hplugin
    exact iff_of_false hoff.status (by rw [hoff.enabled]; exact Bool.false_ne_true)
  actions := fun key plugin hplugin action haction => by
    have hoff := h.plugins key plugin hplugin
    exact (hoff.actions action haction).trans hoff.enabled.symm
  capabilities := fun capability => by
    rw [h.capabilities]
    refine iff_of_false Bool.false_ne_true fun ⟨key, plugin, hplugin, henabled, _⟩ => ?_
    rw [(h.plugins key plugin hplugin).enabled] at henabled
    cases henabled
  runtimes := fun key hrunning => by
    rw [h.runtimes] at hrunning
    cases hrunning

/-- From an installation with no extension enabled, in every run of undisturbed requests the
surfaces of extensions follow their flags.
-/
theorem surfaces_followFlag {start : Registry} (hstart : NoneEnabled start)
    (h : Reachable ExtensionHost.step Undisturbed start s)
    : SurfacesFollow s :=
  h.invariant hstart.surfacesFollow fun _ _ _ hs hundisturbed ht => hs.step hundisturbed ht

-- Two extensions with one capability

/-- A verified extension that declares one capability. -/
def reader : Plugin where
  installedVersion := "1.0.0"
  status := .disabled
  enabled := false
  compatibilityStatus := .compatible
  trustStatus := .verified
  installPath := "extensions/reader"
  capabilities := [.dict (some "document.ocr") (some "document.processing") none]
  lastError := none
  versions := [⟨"1.0.0", none⟩]
  permissions := [⟨"documents:read", false, none, none⟩]
  settingDefinitions := []
  actions := [⟨"read", false⟩]

/-- The extension under each of some keys. -/
def installed (keys : List String) : Registry where
  plugins := fun key => if key ∈ keys then some reader else none
  capabilities := fun _ => none
  suggestions := Table.empty
  running := fun _ => false

theorem installed_noneEnabled (keys : List String) : NoneEnabled (installed keys) where
  plugins := fun key plugin hplugin => by
    simp only [installed, Option.ite_none_right_eq_some, Option.some.injEq] at hplugin
    obtain ⟨-, rfl⟩ := hplugin
    exact ⟨rfl, by decide, fun action haction => by
      obtain rfl := List.mem_singleton.mp haction
      rfl⟩
  capabilities := fun _ => rfl
  runtimes := fun _ => rfl

/-- A host that runs verified extensions. -/
def host : Host where
  pluginHostEnabled := true
  pluginHostDeveloperMode := false
  configured := fun _ _ => false
  installPathSafe := fun _ => true
  now := 0

/-- Enabled and disabled again, an extension leaves nothing available. -/
theorem surfaces_followFlag_disabled
    : ∃ s t, step (.enable host .started none "reader") (installed ["reader"]) = .ok s
        ∧ step (.disable host .stopped none "reader") s = .ok t
        ∧ s.available "document.ocr" = true ∧ t.available "document.ocr" = false
        ∧ SurfacesFollow s ∧ SurfacesFollow t := by
  let s := ((installed ["reader"]).switchOn host none "reader" reader).setRunning "reader" true
  have hs : step (.enable host .started none "reader") (installed ["reader"]) = .ok s := rfl
  have henable : Undisturbed (installed ["reader"]) (.enable host .started none "reader") := by
    intro plugin hplugin
    obtain rfl : reader = plugin := Option.some.inj hplugin
    exact ⟨fun hrefuses => absurd hrefuses (by decide), fun _ => trivial⟩
  have hreached : Reachable step Undisturbed (installed ["reader"]) s :=
    .step _ .start henable hs
  have hdisable : Undisturbed s (.disable host .stopped none "reader") := by
    rintro plugin - capability - other hne ⟨plugin', hplugin', -⟩
    have hnone : s.plugins other = none := by
      refine (Function.update_of_ne hne _ _).trans (if_neg fun hm => hne ?_)
      exact List.mem_singleton.mp hm
    rw [hnone] at hplugin'
    cases hplugin'
  obtain ⟨t, ht⟩ : ∃ t, step (.disable host .stopped none "reader") s = .ok t := ⟨_, rfl⟩
  have hdown : t.available "document.ocr" = false := by
    obtain rfl := Except.ok.inj ht
    decide +kernel
  exact ⟨s, t, hs, ht, by decide +kernel, hdown,
    surfaces_followFlag (installed_noneEnabled _) hreached,
    surfaces_followFlag (installed_noneEnabled _) (hreached.step _ hdisable ht)⟩

/-- Of two enabled extensions with one capability, one is disabled: the capability is unavailable
though the other declares it.
-/
theorem surfaces_sharedCapability
    : ∃ start s, NoneEnabled start
        ∧ runAll step
            [
              .enable host .started none "reader",
              .enable host .started none "scanner",
              .disable host .stopped none "reader"
            ]
            start = some s
        ∧ s.DeclaredBy "scanner" "document.ocr" ∧ s.available "document.ocr" = false
        ∧ ¬ SurfacesFollow s := by
  let start := installed ["reader", "scanner"]
  let both := ((start.switchOn host none "reader" reader).setRunning "reader" true).switchOn host none
    "scanner" reader |>.setRunning "scanner" true
  let s := (disablePlugin host .stopped none "reader" both).registry
  have hdeclared : s.DeclaredBy "scanner" "document.ocr" :=
    ⟨reader.switchOn none 0, rfl, rfl, by decide +kernel⟩
  have hdown : s.available "document.ocr" = false := by decide +kernel
  refine ⟨start, s, installed_noneEnabled _, rfl, hdeclared, hdown, fun h => ?_⟩
  have hup := (h.capabilities "document.ocr").mpr ⟨"scanner", hdeclared⟩
  rw [hdown] at hup
  cases hup

end ExtensionHost

end LicenseTrack
