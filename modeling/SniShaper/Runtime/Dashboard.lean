import SniShaper.Config.SettingsFile
import SniShaper.Pool.Cloudflare
import SniShaper.Runtime.Start

/-! The settings of the dashboard and the program they are for: `newCoreRuntimeForDir` of
`core_runtime.go`, and the requests of `web.go` that change what it starts with. The saves
succeed.

A request changes the rule manager, which is what is saved, or the proxy server, which is
what runs, or both. Between the requests the sections of the Cloudflare pool run, and the
HTTP server may end by itself.

* `Effect`, `step_effect`: what one step writes to either side;
* `run_shows`, `run_saved`: what the two sides have after a run;
* `agrees_iff`: when a runtime made anew would be the one that runs. -/

namespace SniShaper.Dashboard

open Strings Config Manager SniShaper.Runtime Machine

/-- The fields of the proxy server that the requests use. -/
structure ProxyServer where
  listenAddr : String
  socks5Addr : String := ""
  socks5Enabled : Bool := false
  mode : String := "mitm"
  running : Bool := false
  cfPool : Pool.CloudflarePool := {}

structure CoreRuntime where
  ruleManager : RuleManager
  proxyServer : ProxyServer

/-- The runtime with its settings file. -/
structure Program where
  runtime : CoreRuntime
  file : SettingsConfig

abbrev Program.settings (w : Program) : Settings := w.runtime.ruleManager.settings

abbrev Program.proxy (w : Program) : ProxyServer := w.runtime.proxyServer

/-! ## A new runtime -/

def orDefault (port default : String) : String := if port = "" then default else port

/-- The sections of the pool that run by themselves. Nothing calls `RemoveInvalidCFIPs`. -/
def background : Pool.Event → Bool
  | .updateIPs _ _ => false
  | .removeInvalidIPs => false
  | _ => true

def poolStep (pool : Pool.CloudflarePool) (e : Pool.Event) : Option Pool.CloudflarePool :=
  if background e then Pool.step pool e else none

def ProxyServer.updateIPs (p : ProxyServer) (ips : List String) (order : List Nat) :
    Option ProxyServer :=
  (Pool.updateIPs p.cfPool ips order).map fun pool => { p with cfPool := pool }

/-- The sections of the pool that run meanwhile. -/
def ProxyServer.poolSections (p : ProxyServer) (sections : List Pool.Event) :
    Option ProxyServer :=
  (exec poolStep p.cfPool sections).map fun pool => { p with cfPool := pool }

/-- What the pool does while a runtime is made: the sections before each of the two updates,
and the active lists the updates end with. -/
structure Schedule where
  first : List Pool.Event := []
  firstOrder : List Nat := []
  second : List Pool.Event := []
  secondOrder : List Nat := []

def newProxyServer (addr : String) : Option ProxyServer :=
  ProxyServer.updateIPs { listenAddr := addr } [] []

/-- `start` of the runtime. The certificates are left out: an error is only logged. -/
def CoreRuntime.start (r : CoreRuntime) (s : Schedule) : Option CoreRuntime := do
  let settings := r.ruleManager.settings
  let ips := settings.cloudflareConfig.preferredIPs
  let p ← r.proxyServer.poolSections s.first
  -- SetRuleManager
  let p ← p.updateIPs ips s.firstOrder
  let p ← p.poolSections s.second
  -- UpdateCloudflareConfig
  let p ← p.updateIPs ips s.secondOrder
  return { r with proxyServer := { p with socks5Enabled := settings.socks5Enabled } }

/-! ## The requests -/

/-- The body of a POST to `/api/config`. -/
structure ConfigPost where
  listenPort : Option String := none
  socks5Port : Option String := none
  socks5Enabled : Option Bool := none
  proxyMode : Option String := none
  language : Option String := none
  theme : Option String := none

def ConfigPost.update (cfg : ConfigPost) (s : Settings) : Settings :=
  { s with
    listenPort := cfg.listenPort.getD s.listenPort
    socks5Port := cfg.socks5Port.getD s.socks5Port
    socks5Enabled := cfg.socks5Enabled.getD s.socks5Enabled
    language := cfg.language.getD s.language
    theme := cfg.theme.getD s.theme }

/-- The settings part of `SaveConfig`. -/
def Program.saveConfig (w : Program) : Program :=
  { w with file := saveSettingsConfig w.settings }

def Program.withSettings (w : Program) (s : Settings) : Program :=
  { w with runtime := { w.runtime with ruleManager := { w.runtime.ruleManager with settings := s } } }

def Program.withProxy (w : Program) (p : ProxyServer) : Program :=
  { w with runtime := { w.runtime with proxyServer := p } }

/-- `UpdateCloudflareConfig` of the rule manager. -/
def Program.updateCloudflareConfig (w : Program) (cfg : CloudflareConfig) : Program :=
  (w.withSettings { w.settings with cloudflareConfig := cfg }).saveConfig

/-- What `startProxy` and `stopProxy` use. -/
def Program.core (w : Program) : Core where
  listenAddr := w.proxy.listenAddr
  running := w.proxy.running
  listenPort := w.settings.listenPort

def Program.withCore (w : Program) (core : Core) : Program :=
  (w.withSettings { w.settings with listenPort := core.listenPort }).withProxy
    { w.proxy with listenAddr := core.listenAddr, running := core.running }

def proxyModes : List String := ["mitm", "transparent", "tls-rf", "quic"]

section

variable [CaseTables]

def newCoreRuntimeForDir (files : Files) (s : Schedule) : Option (Except String CoreRuntime) :=
  match loadConfig newRuleManager files with
  | (.error err, _) => some (.error err)
  | (.ok (), rm) => do
    let p ← newProxyServer (localAddr (orDefault rm.settings.listenPort "8080"))
    let p := { p with socks5Addr := localAddr (orDefault rm.settings.socks5Port "8081") }
    let r ← CoreRuntime.start { ruleManager := rm, proxyServer := p } s
    return .ok r

def setMode (p : ProxyServer) (mode : String) : Option String × ProxyServer :=
  let mode := toLower (trimSpace mode)
  if mode ∈ proxyModes then (none, { p with mode := mode })
  else (some ("invalid proxy mode: " ++ mode), p)

/-- An answer is the status, or an error text with its status code. -/
abbrev Answer := Except (String × Nat) String

def handleConfig (w : Program) : Except String ConfigPost → Answer × Program
  | .error err => (.error ("invalid JSON: " ++ err, 400), w)
  | .ok cfg =>
    let w := w.withSettings (cfg.update w.settings)
    let p := { w.proxy with socks5Enabled := cfg.socks5Enabled.getD w.proxy.socks5Enabled }
    let p := match cfg.proxyMode with
      | none => p
      | some mode => (setMode p mode).2
    (.ok "saved", (w.withProxy p).saveConfig)

def handleCFConfig (w : Program) : Except String CloudflareConfig → Answer × Program
  | .error err => (.error ("invalid JSON: " ++ err, 400), w)
  | .ok cfg => (.ok "saved", w.updateCloudflareConfig cfg)

/-- The answer has the addresses and how many there are. -/
def handleCFFetch (w : Program) (fetched : Except String (List String)) (order : List Nat) :
    Option (Except (String × Nat) (List String × Nat) × Program) :=
  match fetched with
  | .error err => some (.error (err, 500), w)
  | .ok ips => do
    let w := w.updateCloudflareConfig { preferredIPs := ips, autoUpdate := true }
    let p ← w.proxy.updateIPs ips order
    return (.ok (ips, ips.length), w.withProxy p)

/-- The port that `startProxy` writes to both sides, when it goes on with another one. -/
def movedTo (core : Core) (c : StartCall) : Option Int :=
  let port := (availablePort core c).1
  if port ≠ originalPort core ∧ (setListenPort core port c.saveConfig).1 = none then some port
  else none

def answerOf (status : String) : Option String → Answer
  | some err => .error (err, 500)
  | none => .ok status

def handleProxyStart (w : Program) (c : StartCall) : Answer × Program :=
  let c := { c with saveConfig := .ok () }
  let outcome := startProxy w.core c
  let next := w.withCore outcome.core
  (answerOf "started" outcome.err, if (movedTo w.core c).isSome then next.saveConfig else next)

def handleProxyStop (w : Program) (close : Except String Unit) : Answer × Program :=
  let outcome := stopProxy w.core close
  (answerOf "stopped" outcome.err, w.withCore outcome.core)

/-! ## Runs -/

inductive Event where
  /-- POST to `/api/config`, with what decoding the body gives -/
  | config (body : Except String ConfigPost)
  /-- POST to `/api/cf/config` -/
  | cfConfig (body : Except String CloudflareConfig)
  /-- `/api/cf/fetch`, with what `FetchCloudflareIPs` returns -/
  | cfFetch (fetched : Except String (List String)) (order : List Nat)
  | proxyStart (c : StartCall)
  | proxyStop (close : Except String Unit)
  | serverEnded
  | poolSection (e : Pool.Event)

def step (w : Program) : Event → Option Program
  | .config body => some (handleConfig w body).2
  | .cfConfig body => some (handleCFConfig w body).2
  | .cfFetch fetched order => (handleCFFetch w fetched order).map Prod.snd
  | .proxyStart c => some (handleProxyStart w c).2
  | .proxyStop close => some (handleProxyStop w close).2
  | .serverEnded => some (w.withProxy { w.proxy with running := false })
  | .poolSection e => (w.proxy.poolSections [e]).map w.withProxy

/-- The settings file after a start, which writes a missing one. -/
def settingsFile : FileRead SettingsConfig → Option SettingsConfig
  | .notExist => some (saveSettingsConfig (defaultSettings newRuleManager.settings))
  | .failed _ => none
  | .decoded config => some config

/-- The program that was started in a directory. -/
def boot (files : Files) (s : Schedule) : Option Program :=
  match newCoreRuntimeForDir files s, settingsFile files.settings with
  | some (.ok r), some file => some { runtime := r, file := file }
  | _, _ => none

/-- The files that a run leaves, whatever the rules file has. -/
def Program.files (w : Program) (rules : RulesConfig) : Files where
  settings := .decoded w.file
  settingsSaved := .ok ()
  rules := .decoded rules
  rulesSaved := .ok ()

/-! ## What the steps write -/

/-- The port that a step writes to both sides. -/
def portMoved (w : Program) : Event → Option String
  | .proxyStart c => (movedTo w.core { c with saveConfig := .ok () }).map toString
  | _ => none

/-- The port that a step writes to the rule manager. -/
def portWritten (w : Program) : Event → Option String
  | .config (.ok cfg) => cfg.listenPort
  | e => portMoved w e

/-- The SOCKS5 port that a step writes to the rule manager. -/
def socks5PortWritten (_ : Program) : Event → Option String
  | .config (.ok cfg) => cfg.socks5Port
  | _ => none

/-- The addresses that a step writes to both sides. -/
def ipsFetched (_ : Program) : Event → Option (List String)
  | .cfFetch (.ok ips) _ => some ips
  | _ => none

/-- The addresses that a step writes to the rule manager. -/
def ipsWritten (w : Program) : Event → Option (List String)
  | .cfConfig (.ok cfg) => some cfg.preferredIPs
  | e => ipsFetched w e

end

/-! ## The two sides -/

/-- The listen port, the SOCKS5 address and flag and the addresses of the pool are the same. -/
structure SameSettings (r r' : CoreRuntime) : Prop where
  listenAddr : r.proxyServer.listenAddr = r'.proxyServer.listenAddr
  socks5Addr : r.proxyServer.socks5Addr = r'.proxyServer.socks5Addr
  socks5Enabled : r.proxyServer.socks5Enabled = r'.proxyServer.socks5Enabled
  cfPool : ∀ ip, ip ∈ r.proxyServer.cfPool.allIPs ↔ ip ∈ r'.proxyServer.cfPool.allIPs

/-- The pool got a list last, and no entry of it was deleted. -/
def Holds (pool : Pool.CloudflarePool) (ips : List String) : Prop :=
  ∃ trace, Pool.Reaches trace pool ∧ .removeInvalidIPs ∉ trace ∧ Pool.latestIPs trace = ips

/-- What a runtime takes from its settings, with the ports it falls back to. -/
structure Visible where
  port : String
  socks5Port : String
  socks5Enabled : Bool
  preferredIPs : List String

def visible (s : Settings) : Visible where
  port := orDefault s.listenPort "8080"
  socks5Port := orDefault s.socks5Port "8081"
  socks5Enabled := s.socks5Enabled
  preferredIPs := s.cloudflareConfig.preferredIPs

/-- The proxy server runs with these values. -/
structure Shows (r : CoreRuntime) (v : Visible) : Prop where
  listenAddr : r.proxyServer.listenAddr = localAddr v.port
  socks5Addr : r.proxyServer.socks5Addr = localAddr v.socks5Port
  socks5Enabled : r.proxyServer.socks5Enabled = v.socks5Enabled
  cfPool : Holds r.proxyServer.cfPool v.preferredIPs

/-- The file has what the rule manager has. -/
def Saved (w : Program) : Prop := visible (loadSettings w.file) = visible w.settings

theorem Holds.mem_iff {pool : Pool.CloudflarePool} {ips : List String} (h : Holds pool ips)
    (ip : String) : ip ∈ pool.allIPs ↔ ip ∈ Pool.trimmedIPs ips := by
  obtain ⟨trace, hreach, hnone, rfl⟩ := h
  exact ⟨hreach.inv.listed ip, hreach.inv.complete hnone ip⟩

/-- A section of the pool that deletes nothing. -/
theorem Holds.step {pool pool' : Pool.CloudflarePool} {ips : List String} (h : Holds pool ips)
    {e : Pool.Event} (hstep : Pool.step pool e = some pool') (he : e ≠ .removeInvalidIPs) :
    Holds pool' (e.ips.getD ips) := by
  obtain ⟨trace, hreach, hnone, rfl⟩ := h
  refine ⟨trace ++ [e], exec_concat.mpr ⟨pool, hreach, hstep⟩, ?_, Pool.latestIPs_concat trace e⟩
  simp [hnone, he.symm]

theorem background_spec {e : Pool.Event} (h : background e = true) :
    e.ips = none ∧ e ≠ .removeInvalidIPs := by
  cases e with
  | updateIPs ips order => cases h
  | removeInvalidIPs => cases h
  | _ => exact ⟨rfl, Pool.Event.noConfusion⟩

theorem Holds.sections {pool pool' : Pool.CloudflarePool} {ips : List String}
    (h : Holds pool ips) {sections : List Pool.Event}
    (hexec : exec poolStep pool sections = some pool') : Holds pool' ips := by
  refine exec_invariant (I := fun _ pool => Holds pool ips) hexec h
    fun _ pool e pool' _ hpool hstep => ?_
  unfold poolStep at hstep
  split at hstep
  · rename_i he
    obtain ⟨hips, hne⟩ := background_spec he
    have hnext := hpool.step hstep hne
    rwa [hips] at hnext
  · cases hstep

theorem Holds.updateIPs {pool pool' : Pool.CloudflarePool} {ips new : List String}
    (h : Holds pool ips) {order : List Nat} (hupdate : Pool.updateIPs pool new order = some pool') :
    Holds pool' new :=
  h.step (e := .updateIPs new order) hupdate (by simp)

theorem localAddr_inj {port port' : String} : localAddr port = localAddr port' ↔ port = port' := by
  unfold localAddr
  exact String.append_right_inj _

theorem Shows.same_iff {r r' : CoreRuntime} {v v' : Visible} (h : Shows r v) (h' : Shows r' v') :
    SameSettings r r' ↔ v.port = v'.port ∧ v.socks5Port = v'.socks5Port ∧
      v.socks5Enabled = v'.socks5Enabled ∧
      ∀ ip, ip ∈ Pool.trimmedIPs v.preferredIPs ↔ ip ∈ Pool.trimmedIPs v'.preferredIPs := by
  constructor
  · rintro ⟨hlisten, hsocks, henabled, hpool⟩
    rw [h.listenAddr, h'.listenAddr] at hlisten
    rw [h.socks5Addr, h'.socks5Addr] at hsocks
    rw [h.socks5Enabled, h'.socks5Enabled] at henabled
    refine ⟨localAddr_inj.mp hlisten, localAddr_inj.mp hsocks, henabled, fun ip => ?_⟩
    rw [← h.cfPool.mem_iff, ← h'.cfPool.mem_iff]
    exact hpool ip
  · rintro ⟨hport, hsocks, henabled, hips⟩
    refine ⟨?_, ?_, ?_, fun ip => ?_⟩
    · rw [h.listenAddr, h'.listenAddr, hport]
    · rw [h.socks5Addr, h'.socks5Addr, hsocks]
    · rw [h.socks5Enabled, h'.socks5Enabled, henabled]
    · rw [h.cfPool.mem_iff, h'.cfPool.mem_iff]
      exact hips ip

theorem orDefault_orDefault (port default : String) :
    orDefault (orDefault port default) default = orDefault port default := by
  unfold orDefault
  split <;> simp_all

theorem visible_applySettingsDefaults (s : Settings) :
    visible (applySettingsDefaults s) = visible s := by
  have hport : (applySettingsDefaults s).listenPort = orDefault s.listenPort "8080" := rfl
  unfold visible
  rw [hport, orDefault_orDefault]
  rfl

theorem visible_withDefaults (s : Settings) : visible (withDefaults s) = visible s := by
  have hport : (withDefaults s).socks5Port = orDefault s.socks5Port "8081" := rfl
  rw [← visible_applySettingsDefaults s]
  unfold visible
  rw [hport, orDefault_orDefault]
  rfl

theorem saved_saveConfig (w : Program) : Saved w.saveConfig := by
  unfold Saved Program.saveConfig
  rw [loadSettings_saveSettingsConfig, visible_withDefaults]

theorem visible_loadSettingsConfig {read : FileRead SettingsConfig} {file : SettingsConfig}
    (h : settingsFile read = some file) (saved : Except String Unit) :
    visible (loadSettingsConfig newRuleManager read saved).2.settings =
      visible (loadSettings file) := by
  cases read with
  | notExist =>
    obtain rfl := Option.some.inj h
    rw [loadSettings_saveSettingsConfig, visible_withDefaults]
    rfl
  | failed err => cases h
  | decoded config =>
    obtain rfl := Option.some.inj h
    rfl

/-- A call of the proxy that leaves the port of the rule manager is saved as it is. -/
theorem saved_withCore {w : Program} {core : Core} (h : core.listenPort = w.settings.listenPort)
    (hw : Saved w) : Saved (w.withCore core) := by
  have hsettings : (w.withCore core).settings = w.settings := by
    simp only [Program.settings, Program.withCore, Program.withProxy, Program.withSettings, h]
  unfold Saved at hw ⊢
  rw [hsettings]
  exact hw

theorem ProxyServer.exists_updateIPs (p : ProxyServer) (ips : List String) :
    ∃ order p', p.updateIPs ips order = some p' := by
  obtain ⟨order, horder⟩ := (Pool.replaceIPs p.cfPool ips).exists_sorts
  have hsome : (p.updateIPs ips order).isSome := by
    simp [ProxyServer.updateIPs, Pool.updateIPs, horder]
  exact ⟨order, Option.isSome_iff_exists.mp hsome⟩

section

variable [CaseTables]

/-! ## A new runtime shows its settings -/

/-- Every runtime that is made anew from the files has the settings of the one that runs. -/
def Agrees (w : Program) : Prop :=
  ∀ rules s fresh, newCoreRuntimeForDir (w.files rules) s = some (.ok fresh) →
    SameSettings w.runtime fresh

theorem newCoreRuntimeForDir_shows {files : Files} {s : Schedule} {r : CoreRuntime}
    (h : newCoreRuntimeForDir files s = some (.ok r)) :
    ∃ rm, loadConfig newRuleManager files = (.ok (), rm) ∧ r.ruleManager = rm ∧
      Shows r (visible rm.settings) := by
  unfold newCoreRuntimeForDir at h
  split at h
  · cases h
  · rename_i rm hload
    refine ⟨rm, hload, ?_⟩
    have hempty : Holds ({} : Pool.CloudflarePool) [] := ⟨[], rfl, by simp, rfl⟩
    simp only [newProxyServer, CoreRuntime.start, ProxyServer.updateIPs, ProxyServer.poolSections,
      Option.bind_eq_bind, Option.pure_def, Option.bind_eq_some_iff, Option.map_eq_some_iff] at h
    obtain ⟨_, ⟨pool, hpool, rfl⟩, _, ⟨_, ⟨pool₁, hpool₁, rfl⟩, _, ⟨pool₂, hpool₂, rfl⟩,
      _, ⟨pool₃, hpool₃, rfl⟩, _, ⟨pool₄, hpool₄, rfl⟩, hr⟩, heq⟩ := h
    cases hr
    cases heq
    have hfirst := (hempty.updateIPs hpool).sections hpool₁
    have hsecond := (hfirst.updateIPs hpool₂).sections hpool₃
    exact ⟨rfl, rfl, rfl, rfl, hsecond.updateIPs hpool₄⟩

/-- The settings of a manager that loaded its files. -/
theorem visible_loadConfig {files : Files} {rm : RuleManager} {file : SettingsConfig}
    (h : loadConfig newRuleManager files = (.ok (), rm))
    (hfile : settingsFile files.settings = some file) :
    visible rm.settings = visible (loadSettings file) := by
  obtain ⟨rm', rm'', hsettings, hrules, heq⟩ := loadConfig_ok (by rw [h])
  have hkeeps : rm''.settings = rm'.settings := by
    have hsame := loadRulesConfig_settings rm' files.rules files.rulesSaved
    rwa [hrules] at hsame
  have hfinish : rm.settings = applySettingsDefaults rm'.settings := by
    rw [← hkeeps, show rm = finishLoad rm'' by rw [← heq, h]]
    rfl
  have hload := visible_loadSettingsConfig hfile files.settingsSaved
  rwa [hsettings, ← visible_applySettingsDefaults, ← hfinish] at hload

/-! ## One step -/

/-- With a save that succeeds the port is written to both sides, or to none. -/
theorem startProxy_ports (core : Core) {c : StartCall} (hsave : c.saveConfig = .ok ()) :
    (startProxy core c).core.listenAddr =
        ((movedTo core c).map fun port => localAddr (toString port)).getD core.listenAddr ∧
      (startProxy core c).core.listenPort =
        ((movedTo core c).map toString).getD core.listenPort := by
  obtain ⟨haddr, hport⟩ := startOn_ports core c (availablePort core c).1
  have hcore : (startProxy core c).core = (startOn core c (availablePort core c).1).2 := rfl
  rw [hcore, haddr, hport]
  unfold movedTo chosenPort
  rw [hsave]
  by_cases hsame : (availablePort core c).1 = originalPort core
  · simp [hsame]
  · rw [if_pos hsame]
    unfold setListenPort setListenAddr
    by_cases hrange : (availablePort core c).1 < 1 ∨ 65535 < (availablePort core c).1
    · simp [hrange]
    · cases hrun : core.running with
      | true => simp [hrange]
      | false => simp [hrange, hsame]

/-- What a step writes to the rule manager and to the proxy server. -/
structure Effect (w : Program) (e : Event) (w' : Program) : Prop where
  listenPort : w'.settings.listenPort = (portWritten w e).getD w.settings.listenPort
  socks5Port : w'.settings.socks5Port = (socks5PortWritten w e).getD w.settings.socks5Port
  preferredIPs : w'.settings.cloudflareConfig.preferredIPs =
    (ipsWritten w e).getD w.settings.cloudflareConfig.preferredIPs
  listenAddr : ∀ port, w.proxy.listenAddr = localAddr port →
    w'.proxy.listenAddr = localAddr ((portMoved w e).getD port)
  socks5Addr : w'.proxy.socks5Addr = w.proxy.socks5Addr
  socks5Enabled : w.proxy.socks5Enabled = w.settings.socks5Enabled →
    w'.proxy.socks5Enabled = w'.settings.socks5Enabled
  cfPool : ∀ ips, Holds w.proxy.cfPool ips → Holds w'.proxy.cfPool ((ipsFetched w e).getD ips)
  saved : Saved w → Saved w'

/-- A request that was refused changes nothing. -/
theorem effect_refl {w : Program} {e : Event} (hport : portWritten w e = none)
    (hmoved : portMoved w e = none) (hsocks : socks5PortWritten w e = none)
    (hips : ipsWritten w e = none) (hfetched : ipsFetched w e = none) : Effect w e w where
  listenPort := by rw [hport, Option.getD_none]
  socks5Port := by rw [hsocks, Option.getD_none]
  preferredIPs := by rw [hips, Option.getD_none]
  listenAddr port h := by rw [hmoved, Option.getD_none, h]
  socks5Addr := rfl
  socks5Enabled h := h
  cfPool ips h := by rwa [hfetched, Option.getD_none]
  saved h := h

theorem setMode_fields (p : ProxyServer) (mode : String) :
    ∃ mode', (setMode p mode).2 = { p with mode := mode' } := by
  unfold setMode
  simp only
  split
  · exact ⟨_, rfl⟩
  · exact ⟨p.mode, rfl⟩

theorem config_effect (w : Program) (body : Except String ConfigPost) :
    Effect w (.config body) (handleConfig w body).2 := by
  cases body with
  | error err => exact effect_refl rfl rfl rfl rfl rfl
  | ok cfg =>
    -- the mode is none of the values
    obtain ⟨mode, hmode⟩ : ∃ mode, (handleConfig w (.ok cfg)).2 =
        ((w.withSettings (cfg.update w.settings)).withProxy
          { w.proxy with
            socks5Enabled := cfg.socks5Enabled.getD w.proxy.socks5Enabled
            mode := mode }).saveConfig := by
      simp only [handleConfig]
      cases cfg.proxyMode with
      | none => exact ⟨w.proxy.mode, rfl⟩
      | some mode =>
        obtain ⟨mode', heq⟩ := setMode_fields
          { w.proxy with socks5Enabled := cfg.socks5Enabled.getD w.proxy.socks5Enabled } mode
        refine ⟨mode', ?_⟩
        simp only [Program.withSettings] at heq ⊢
        rw [heq]
    rw [hmode]
    exact {
      listenPort := rfl
      socks5Port := rfl
      preferredIPs := rfl
      listenAddr := fun port h => h
      socks5Addr := rfl
      socks5Enabled := fun h => congrArg cfg.socks5Enabled.getD h
      cfPool := fun ips h => h
      saved := fun _ => saved_saveConfig _ }

theorem cfConfig_effect (w : Program) (body : Except String CloudflareConfig) :
    Effect w (.cfConfig body) (handleCFConfig w body).2 := by
  cases body with
  | error err => exact effect_refl rfl rfl rfl rfl rfl
  | ok cfg =>
    exact {
      listenPort := rfl
      socks5Port := rfl
      preferredIPs := rfl
      listenAddr := fun port h => h
      socks5Addr := rfl
      socks5Enabled := fun h => h
      cfPool := fun ips h => h
      saved := fun _ => saved_saveConfig _ }

theorem cfFetch_effect {w w' : Program} {fetched : Except String (List String)}
    {order : List Nat} (h : step w (.cfFetch fetched order) = some w') :
    Effect w (.cfFetch fetched order) w' := by
  cases fetched with
  | error err =>
    obtain rfl := Option.some.inj h
    exact effect_refl rfl rfl rfl rfl rfl
  | ok ips =>
    simp only [step, handleCFFetch, ProxyServer.updateIPs, Option.bind_eq_bind, Option.pure_def,
      Option.map_eq_some_iff, Option.bind_eq_some_iff] at h
    obtain ⟨_, ⟨_, ⟨pool, hpool, rfl⟩, heq⟩, rfl⟩ := h
    cases heq
    exact {
      listenPort := rfl
      socks5Port := rfl
      preferredIPs := rfl
      listenAddr := fun port h => h
      socks5Addr := rfl
      socks5Enabled := fun h => h
      cfPool := fun old h => h.updateIPs hpool
      saved := fun _ => saved_saveConfig _ }

theorem proxyStart_effect (w : Program) (c : StartCall) :
    Effect w (.proxyStart c) (handleProxyStart w c).2 := by
  obtain ⟨haddr, hport⟩ := startProxy_ports w.core (c := { c with saveConfig := .ok () }) rfl
  have hruntime : (handleProxyStart w c).2.runtime =
      (w.withCore (startProxy w.core { c with saveConfig := .ok () }).core).runtime := by
    simp only [handleProxyStart]
    split <;> rfl
  exact {
    listenPort := by
      rw [Program.settings, hruntime]
      exact hport
    socks5Port := by
      rw [Program.settings, hruntime]
      rfl
    preferredIPs := by
      rw [Program.settings, hruntime]
      rfl
    listenAddr := fun port h => by
      rw [Program.proxy, hruntime]
      refine haddr.trans ?_
      simp only [portMoved]
      cases movedTo w.core { c with saveConfig := .ok () } with
      | none => exact h
      | some moved => rfl
    socks5Addr := by
      rw [Program.proxy, hruntime]
      rfl
    socks5Enabled := fun h => by
      rw [Program.proxy, Program.settings, hruntime]
      exact h
    cfPool := fun ips h => by
      rw [Program.proxy, hruntime]
      exact h
    saved := fun h => by
      simp only [handleProxyStart]
      cases hmoved : movedTo w.core { c with saveConfig := .ok () } with
      | none =>
        rw [hmoved] at hport
        exact saved_withCore hport h
      | some moved => exact saved_saveConfig _ }

/-- Nothing that is saved or shown is written. -/
theorem withCore_effect {w : Program} {e : Event} (core : Core)
    (haddr : core.listenAddr = w.proxy.listenAddr)
    (hport : core.listenPort = w.settings.listenPort) (he : Effect w e w) :
    Effect w e (w.withCore core) where
  listenPort := hport.trans he.listenPort
  socks5Port := he.socks5Port
  preferredIPs := he.preferredIPs
  listenAddr port h := haddr.trans (he.listenAddr port h)
  socks5Addr := rfl
  socks5Enabled h := h
  cfPool := he.cfPool
  saved := saved_withCore hport

theorem poolSection_effect {w w' : Program} {e : Pool.Event}
    (h : step w (.poolSection e) = some w') : Effect w (.poolSection e) w' := by
  obtain ⟨_, hp, rfl⟩ := Option.map_eq_some_iff.mp h
  obtain ⟨pool, hpool, rfl⟩ := Option.map_eq_some_iff.mp hp
  exact {
    listenPort := rfl
    socks5Port := rfl
    preferredIPs := rfl
    listenAddr := fun port h => h
    socks5Addr := rfl
    socks5Enabled := fun h => h
    cfPool := fun ips h => h.sections hpool
    saved := fun h => h }

theorem step_effect {w w' : Program} {e : Event} (h : step w e = some w') : Effect w e w' := by
  cases e with
  | config body =>
    obtain rfl := Option.some.inj h
    exact config_effect w body
  | cfConfig body =>
    obtain rfl := Option.some.inj h
    exact cfConfig_effect w body
  | cfFetch fetched order => exact cfFetch_effect h
  | proxyStart c =>
    obtain rfl := Option.some.inj h
    exact proxyStart_effect w c
  | proxyStop close =>
    obtain rfl := Option.some.inj h
    obtain ⟨haddr, hport⟩ := stop_ports w.core close
    exact withCore_effect _ haddr hport (effect_refl rfl rfl rfl rfl rfl)
  | serverEnded =>
    obtain rfl := Option.some.inj h
    exact withCore_effect { w.core with running := false } rfl rfl
      (effect_refl rfl rfl rfl rfl rfl)
  | poolSection e => exact poolSection_effect h

/-! ## Whole runs -/

variable {files : Files} {s : Schedule} {w₀ w : Program} {events : List Event}

theorem boot_shows (h : boot files s = some w₀) :
    Shows w₀.runtime (visible w₀.settings) ∧ Saved w₀ := by
  unfold boot at h
  split at h
  · rename_i r file hr hfile
    obtain rfl := Option.some.inj h
    obtain ⟨rm, hload, hrm, hshows⟩ := newCoreRuntimeForDir_shows hr
    subst hrm
    exact ⟨hshows, (visible_loadConfig hload hfile).symm⟩
  · cases h

/-- What the rule manager has, and with it the file. -/
theorem run_saved (h : exec step w₀ events = some w) (h₀ : Saved w₀) :
    Saved w ∧
      w.settings.listenPort =
        (lastWrite step portWritten w₀ events).getD w₀.settings.listenPort ∧
      w.settings.socks5Port =
        (lastWrite step socks5PortWritten w₀ events).getD w₀.settings.socks5Port ∧
      w.settings.cloudflareConfig.preferredIPs =
        (lastWrite step ipsWritten w₀ events).getD w₀.settings.cloudflareConfig.preferredIPs := by
  refine ⟨?_, ?_, ?_, ?_⟩
  · exact exec_invariant (I := fun _ w => Saved w) h h₀
      fun _ _ _ _ _ hw hstep => (step_effect hstep).saved hw
  · exact exec_lastWrite (R := fun w port => w.settings.listenPort = port)
      (fun _ _ _ _ hstep hw => hw ▸ (step_effect hstep).listenPort) h rfl
  · exact exec_lastWrite (R := fun w port => w.settings.socks5Port = port)
      (fun _ _ _ _ hstep hw => hw ▸ (step_effect hstep).socks5Port) h rfl
  · exact exec_lastWrite (R := fun w ips => w.settings.cloudflareConfig.preferredIPs = ips)
      (fun _ _ _ _ hstep hw => hw ▸ (step_effect hstep).preferredIPs) h rfl

/-- What the proxy server runs with. -/
theorem run_shows (h : exec step w₀ events = some w)
    (h₀ : Shows w₀.runtime (visible w₀.settings)) :
    Shows w.runtime
      { port := (lastWrite step portMoved w₀ events).getD (visible w₀.settings).port
        socks5Port := (visible w₀.settings).socks5Port
        socks5Enabled := w.settings.socks5Enabled
        preferredIPs :=
          (lastWrite step ipsFetched w₀ events).getD w₀.settings.cloudflareConfig.preferredIPs } where
  listenAddr := exec_lastWrite (R := fun w port => w.proxy.listenAddr = localAddr port)
    (fun _ _ _ port hstep hw => (step_effect hstep).listenAddr port hw) h h₀.listenAddr
  socks5Addr := exec_invariant
    (I := fun _ w => w.proxy.socks5Addr = localAddr (visible w₀.settings).socks5Port) h
    h₀.socks5Addr fun _ _ _ _ _ hw hstep => (step_effect hstep).socks5Addr.trans hw
  socks5Enabled := exec_invariant
    (I := fun _ w => w.proxy.socks5Enabled = w.settings.socks5Enabled) h
    h₀.socks5Enabled fun _ _ _ _ _ hw hstep => (step_effect hstep).socks5Enabled hw
  cfPool := exec_lastWrite (R := fun w ips => Holds w.proxy.cfPool ips)
    (fun _ _ _ ips hstep hw => (step_effect hstep).cfPool ips hw) h h₀.cfPool

/-- The files of a run can be started from. -/
theorem exists_newCoreRuntimeForDir (w : Program) (rules : RulesConfig) :
    ∃ s fresh, newCoreRuntimeForDir (w.files rules) s = some (.ok fresh) := by
  obtain ⟨rm, hload⟩ : ∃ rm, loadConfig newRuleManager (w.files rules) = (.ok (), rm) :=
    ⟨_, rfl⟩
  let ips := rm.settings.cloudflareConfig.preferredIPs
  obtain ⟨p, hp⟩ : ∃ p, newProxyServer (localAddr (orDefault rm.settings.listenPort "8080")) =
    some p := ⟨_, rfl⟩
  obtain ⟨first, p₁, hfirst⟩ := ProxyServer.exists_updateIPs
    { p with socks5Addr := localAddr (orDefault rm.settings.socks5Port "8081") } ips
  obtain ⟨second, p₂, hsecond⟩ := p₁.exists_updateIPs ips
  refine ⟨{ firstOrder := first, secondOrder := second },
    { ruleManager := rm, proxyServer := { p₂ with socks5Enabled := rm.settings.socks5Enabled } },
    ?_⟩
  simp only [newCoreRuntimeForDir, hload, hp, CoreRuntime.start, ProxyServer.poolSections, exec,
    Option.map_some, Option.bind_eq_bind, Option.bind_some]
  rw [hfirst, Option.bind_some, hsecond, Option.bind_some]
  rfl

/-- **Settings and program.** After every run from a start, with the proxy stopped or
running, the files can be started from, and every runtime made from them has the listen port,
the SOCKS5 address and flag and the pool of the one that runs exactly when

* the last listen port that was posted, or moved to by a start, is the one last moved to, or
  else the one of the start of the program;
* the last SOCKS5 port that was posted is the one of the start;
* the last list of addresses that was posted or fetched has the addresses of the one last
  fetched, or else of the one of the start. -/
theorem agrees_iff (hboot : boot files s = some w₀) (h : exec step w₀ events = some w) :
    (∀ rules, ∃ s fresh, newCoreRuntimeForDir (w.files rules) s = some (.ok fresh)) ∧
      (Agrees w ↔
        orDefault ((lastWrite step portWritten w₀ events).getD w₀.settings.listenPort) "8080" =
            (lastWrite step portMoved w₀ events).getD
              (orDefault w₀.settings.listenPort "8080") ∧
          orDefault ((lastWrite step socks5PortWritten w₀ events).getD w₀.settings.socks5Port)
            "8081" = orDefault w₀.settings.socks5Port "8081" ∧
          ∀ ip,
            ip ∈ Pool.trimmedIPs ((lastWrite step ipsWritten w₀ events).getD
              w₀.settings.cloudflareConfig.preferredIPs) ↔
            ip ∈ Pool.trimmedIPs ((lastWrite step ipsFetched w₀ events).getD
              w₀.settings.cloudflareConfig.preferredIPs)) := by
  obtain ⟨hshows₀, hsaved₀⟩ := boot_shows hboot
  obtain ⟨hsaved, hport, hsocks, hips⟩ := run_saved h hsaved₀
  have hshows := run_shows h hshows₀
  refine ⟨exists_newCoreRuntimeForDir w, ?_⟩
  rw [← hport, ← hsocks, ← hips]
  have hfresh : ∀ rules s fresh, newCoreRuntimeForDir (w.files rules) s = some (.ok fresh) →
      Shows fresh (visible w.settings) := by
    intro rules s fresh hnew
    obtain ⟨rm, hload, -, hrm⟩ := newCoreRuntimeForDir_shows hnew
    rwa [visible_loadConfig hload rfl, hsaved] at hrm
  constructor
  · intro hagrees
    obtain ⟨s, fresh, hnew⟩ := exists_newCoreRuntimeForDir w {}
    obtain ⟨hsame, hsame', -, hpool⟩ :=
      (hshows.same_iff (hfresh _ _ _ hnew)).mp (hagrees _ _ _ hnew)
    exact ⟨hsame.symm, hsame'.symm, fun ip => (hpool ip).symm⟩
  · rintro ⟨hsame, hsame', hpool⟩ rules s fresh hnew
    refine (hshows.same_iff (hfresh _ _ _ hnew)).mpr ⟨hsame.symm, hsame'.symm, rfl, fun ip => ?_⟩
    exact (hpool ip).symm

end

/-- The port 8080 is taken. -/
def takenStart : StartCall where
  tables := fun _ => { freeTables with listen := fun port => port ≠ 8080 }

/-- Addresses are fetched, a start moves the port, and the proxy is stopped. -/
def fetchAndMove : List Event :=
  [.cfFetch (.ok ["192.0.2.1"]) [], .proxyStart takenStart, .proxyStop (.ok ())]

theorem fetchAndMove_agrees :
    ∃ w₀ w, boot noFiles {} = some w₀ ∧ exec step w₀ fetchAndMove = some w ∧
      w.proxy.running = false ∧ w.proxy.listenAddr = "127.0.0.1:8081" ∧ Agrees w := by
  refine ⟨_, _, rfl, rfl, by decide, by decide, ?_⟩
  refine (@agrees_iff asciiTables noFiles {} _ _ fetchAndMove rfl rfl).2.mpr ?_
  exact ⟨by decide, by decide, fun ip => Iff.rfl⟩

/-- The dashboard posts a SOCKS5 port while the proxy is stopped: a program that is started
anew has it, the one that runs keeps the old one. -/
theorem socks5Port_not_applied :
    ∃ w₀ w, boot noFiles {} = some w₀ ∧
      exec step w₀ [.config (.ok { socks5Port := some "9090" })] = some w ∧
      w.proxy.running = false ∧ w.proxy.socks5Addr = "127.0.0.1:8081" ∧
      ∃ fresh, newCoreRuntimeForDir (w.files {}) {} = some (.ok fresh) ∧
        fresh.proxyServer.socks5Addr = "127.0.0.1:9090" :=
  ⟨_, _, rfl, rfl, by decide, by decide, _, rfl, by decide⟩

end SniShaper.Dashboard
