import SniShaper.Config.Load
import SniShaper.Lib.WriteBack

/-! The settings file (`saveSettingsConfig` of `proxy/proxy.go`) under concurrent setters. A
setter changes its field under the lock, and after unlocking saves a copy of all fields.

* `loadSettings_saveSettingsConfig`: what a start reads from a saved file;
* `settings_saved_iff`: when the file has the settings after all calls returned. -/

namespace SniShaper.Manager

open Strings Config Machine WriteBack

/-! ## The source's functions -/

/-- The content of the settings file that `saveSettingsConfig` writes. -/
def saveSettingsConfig (s : Settings) : SettingsConfig :=
  { listenPort := if s.listenPort = "" then "8080" else s.listenPort
    socks5Port := if s.socks5Port = "" then "8081" else s.socks5Port
    serverHost := s.serverHost
    serverAuth := s.serverAuth
    closeToTray := some s.closeToTray
    autoStart := some s.autoStart
    showMainWindowOnAutoStart := some s.showMainOnAutoStart
    autoEnableProxyOnAutoStart := some s.autoEnableProxyOnAutoStart
    cloudflareConfig := s.cloudflareConfig
    autoRouting := s.autoRoutingConfig
    tun := normalizeTUNConfig s.tunConfig
    language := s.language
    theme := s.theme
    socks5Enabled := some s.socks5Enabled }

/-- The functions that change the settings and save them. Of `RefreshGFWList` it is the end,
which notes the time of the update. -/
inductive Setter where
  | updateServerConfig (host auth : String)
  | setCloseToTray (enabled : Bool)
  | setAutoStart (enabled : Bool)
  | setShowMainWindowOnAutoStart (enabled : Bool)
  | setAutoEnableProxyOnAutoStart (enabled : Bool)
  | setLanguage (lang : String)
  | setTheme (theme : String)
  | updateCloudflareConfig (cfg : CloudflareConfig)
  | updateTUNConfig (cfg : TUNConfig)
  | updateAutoRoutingConfig (cfg : AutoRoutingConfig)
  | refreshGFWList (now : String)

/-- What a setter does under the lock. -/
def Setter.update : Setter → Settings → Settings
  | .updateServerConfig host auth, s => { s with serverHost := host, serverAuth := auth }
  | .setCloseToTray enabled, s => { s with closeToTray := enabled }
  | .setAutoStart enabled, s => { s with autoStart := enabled }
  | .setShowMainWindowOnAutoStart enabled, s => { s with showMainOnAutoStart := enabled }
  | .setAutoEnableProxyOnAutoStart enabled, s => { s with autoEnableProxyOnAutoStart := enabled }
  | .setLanguage lang, s => { s with language := lang }
  | .setTheme theme, s => { s with theme := theme }
  | .updateCloudflareConfig cfg, s => { s with cloudflareConfig := cfg }
  | .updateTUNConfig cfg, s => { s with tunConfig := normalizeTUNConfig cfg }
  | .updateAutoRoutingConfig cfg, s => { s with autoRoutingConfig := cfg }
  | .refreshGFWList now, s =>
    { s with autoRoutingConfig := { s.autoRoutingConfig with lastUpdate := now } }

/-- The settings of a new manager that loads a settings file. -/
def loadSettings (config : SettingsConfig) : Settings :=
  withSettings newRuleManager.settings config

/-! ## A saved file -/

/-- Settings with the defaults filled in, as a file has them. -/
def withDefaults (s : Settings) : Settings :=
  { applySettingsDefaults s with socks5Port := if s.socks5Port = "" then "8081" else s.socks5Port }

theorem normalizeTUNConfig_idem (cfg : TUNConfig) :
    normalizeTUNConfig (normalizeTUNConfig cfg) = normalizeTUNConfig cfg := by
  unfold normalizeTUNConfig
  by_cases hmtu : cfg.mtu ≤ 0
  · rw [if_pos hmtu]
    rfl
  · rw [if_neg hmtu, if_neg hmtu]

theorem loadSettings_saveSettingsConfig (s : Settings) :
    loadSettings (saveSettingsConfig s) = withDefaults s := by
  have hport : ∀ (port default : String), default ≠ "" →
      (if port = "" then default else port) ≠ "" := by
    intro port default hdefault
    by_cases hempty : port = ""
    · rw [if_pos hempty]
      exact hdefault
    · rw [if_neg hempty]
      exact hempty
  have hlisten := hport s.listenPort "8080" (by decide)
  have hsocks := hport s.socks5Port "8081" (by decide)
  simp only [loadSettings, withSettings, applySettingsDefaults, saveSettingsConfig, withDefaults,
    Option.getD_some, ne_eq, hlisten, hsocks, not_false_eq_true, if_true, if_false,
    normalizeTUNConfig_idem]

/-! ## Loaded settings -/

/-- Settings with the defaults that `LoadConfig` fills in. -/
structure Loaded (s : Settings) : Prop where
  listenPort : s.listenPort ≠ ""
  mtu : 0 < s.tunConfig.mtu

theorem normalizeTUNConfig_mtu (cfg : TUNConfig) : 0 < (normalizeTUNConfig cfg).mtu := by
  unfold normalizeTUNConfig
  by_cases hmtu : cfg.mtu ≤ 0
  · rw [if_pos hmtu]
    exact (by decide : (0 : Int) < 9000)
  · rw [if_neg hmtu]
    exact Int.not_le.mp hmtu

theorem loaded_applySettingsDefaults (s : Settings) : Loaded (applySettingsDefaults s) := by
  refine ⟨?_, normalizeTUNConfig_mtu s.tunConfig⟩
  simp only [applySettingsDefaults]
  by_cases hempty : s.listenPort = ""
  · rw [if_pos hempty]
    decide
  · rw [if_neg hempty]
    exact hempty

theorem applySettingsDefaults_eq_self {s : Settings} (h : Loaded s) :
    applySettingsDefaults s = s := by
  have hmtu := Int.not_le.mpr h.mtu
  simp only [applySettingsDefaults, normalizeTUNConfig, h.listenPort, hmtu, if_false]

/-- A manager that loaded its configuration has loaded settings. -/
theorem loaded_of_loadConfig [CaseTables] {rm : RuleManager} {files : Files}
    (h : (loadConfig rm files).1 = .ok ()) : Loaded (loadConfig rm files).2.settings := by
  obtain ⟨-, rm', -, -, heq⟩ := loadConfig_ok h
  rw [heq]
  exact loaded_applySettingsDefaults rm'.settings

/-- With a SOCKS5 port, loaded settings are saved as they are. -/
theorem withDefaults_eq_self {s : Settings} (h : Loaded s) (hport : s.socks5Port ≠ "") :
    withDefaults s = s := by
  simp only [withDefaults, applySettingsDefaults_eq_self h, hport, if_false]

theorem withDefaults_socks5Port (s : Settings) : (withDefaults s).socks5Port ≠ "" := by
  simp only [withDefaults]
  by_cases hempty : s.socks5Port = ""
  · rw [if_pos hempty]
    decide
  · rw [if_neg hempty]
    exact hempty

/-- A setter leaves the ports, and keeps the MTU positive. -/
theorem Setter.loaded_update (c : Setter) {s : Settings} (h : Loaded s) :
    Loaded (c.update s) ∧ (c.update s).socks5Port = s.socks5Port := by
  cases c with
  | updateTUNConfig cfg => exact ⟨⟨h.listenPort, normalizeTUNConfig_mtu cfg⟩, rfl⟩
  | _ => exact ⟨⟨h.listenPort, h.mtu⟩, rfl⟩

/-! ## Concurrent setters -/

variable {ι : Type} [DecidableEq ι] (calls : ι → Setter)

/-- What the updates of the calls make of the settings, in the order of their first steps. -/
def settingsAfter (start : Settings) (steps : List ι) : Settings :=
  updates (fun i => (calls i).update) start steps

/-- The manager and its file after the steps of the calls, each of which updates the
settings, copies them and writes its copy. -/
def runSetters (start : Settings) (file : SettingsConfig) (steps : List ι) :
    State ι Settings SettingsConfig :=
  run (WriteBack.step (fun i => (calls i).update) saveSettingsConfig) (initial start file) steps

theorem loaded_settingsAfter {start : Settings} (h : Loaded start) (steps : List ι) :
    Loaded (settingsAfter calls start steps) ∧
      (settingsAfter calls start steps).socks5Port = start.socks5Port := by
  unfold settingsAfter updates
  generalize steps.eraseDups = order
  induction order generalizing start with
  | nil => exact ⟨h, rfl⟩
  | cons i order ih =>
    obtain ⟨hloaded, hport⟩ := (calls i).loaded_update h
    obtain ⟨hrest, hrestPort⟩ := ih hloaded
    exact ⟨hrest, hrestPort.trans hport⟩

/-- After all calls returned, the file has the settings exactly when the SOCKS5 port is set
and the updates that came after the copy that was written last changed nothing. -/
theorem settings_saved_iff {start : Settings} (hstart : Loaded start) (file : SettingsConfig)
    {steps : List ι} (hcomplete : Complete steps) (hne : steps ≠ []) :
    (∀ i ∈ steps, (runSetters calls start file steps).phase i = .done) ∧
      (loadSettings (runSetters calls start file steps).file =
          (runSetters calls start file steps).memory ↔
        start.socks5Port ≠ "" ∧
          settingsAfter calls start (beforeCopy steps) = settingsAfter calls start steps) := by
  have hfile : (runSetters calls start file steps).file =
      saveSettingsConfig (settingsAfter calls start (beforeCopy steps)) :=
    file_run hcomplete hne start file
  have hmemory : (runSetters calls start file steps).memory = settingsAfter calls start steps :=
    memory_run start file steps
  obtain ⟨hcopy, hcopyPort⟩ := loaded_settingsAfter calls hstart (beforeCopy steps)
  obtain ⟨-, hport⟩ := loaded_settingsAfter calls hstart steps
  refine ⟨fun i hi => done_of_complete hcomplete start file hi, ?_⟩
  rw [hfile, hmemory, loadSettings_saveSettingsConfig]
  constructor
  · intro hsaved
    have hset : start.socks5Port ≠ "" := by
      rw [← hport, ← hsaved]
      exact withDefaults_socks5Port _
    refine ⟨hset, ?_⟩
    rw [withDefaults_eq_self hcopy (hcopyPort ▸ hset)] at hsaved
    exact hsaved
  · rintro ⟨hset, hsame⟩
    rw [withDefaults_eq_self hcopy (hcopyPort ▸ hset), hsame]

/-- The settings of a first start, with the port its file has. -/
def firstStart : Settings := withDefaults newRuleManager.settings

theorem loaded_firstStart : Loaded firstStart := by
  constructor
  · decide
  · decide

/-- Two calls: `false` sets the language, `true` the theme. -/
def languageAndTheme : Bool → Setter
  | false => .setLanguage "en"
  | true => .setTheme "light"

/-- Two calls that take turns: both updates come before the copy that is written last. -/
theorem turns_saved :
    Complete [false, true, false, true, false, true] ∧
      loadSettings (runSetters languageAndTheme firstStart {}
        [false, true, false, true, false, true]).file =
          { firstStart with language := "en", theme := "light" } := by
  have hcomplete : Complete [false, true, false, true, false, true] := by decide
  have hsaved := (settings_saved_iff languageAndTheme loaded_firstStart {} hcomplete
    (List.cons_ne_nil _ _)).2.mpr ⟨by decide, by decide⟩
  have hmemory : (runSetters languageAndTheme firstStart {}
      [false, true, false, true, false, true]).memory =
        { firstStart with language := "en", theme := "light" } := by decide
  exact ⟨hcomplete, hsaved.trans hmemory⟩

/-- The call for the language copies the settings, the other call runs as a whole, and then
the copy is written: the theme is lost. -/
theorem theme_lost :
    Complete [false, false, true, true, true, false] ∧ Loaded firstStart ∧
      (runSetters languageAndTheme firstStart {}
        [false, false, true, true, true, false]).memory =
          { firstStart with language := "en", theme := "light" } ∧
      loadSettings (runSetters languageAndTheme firstStart {}
        [false, false, true, true, true, false]).file =
          { firstStart with language := "en", theme := "dark" } := by
  refine ⟨by decide, loaded_firstStart, by decide, ?_⟩
  decide

end SniShaper.Manager
