import SniShaper.Config.RuleManager

/-! Loading the configuration (`LoadConfig` and what it calls in `proxy/proxy.go`): the
two files, the defaults, the website field and the migration of old ECH rules. JSON is
decoded outside; a file is given by what reading it gives. `GOOS` is not `windows`. -/

namespace SniShaper.Manager

open Strings Config Hosts Candidates

variable [CaseTables]

/-! ## The website of a site group -/

def cleanWebsiteToken (token : String) : String :=
  let token := normalizeHost token
  let token := trimPrefix token "*."
  let token := trimSuffix token "$"
  let token := trim token "[]"
  match index token ":" with
  | some i => String.ofList (token.toList.take i)
  | none => token

def tokenMatchesDomain (token domain : String) : Bool :=
  let token := cleanWebsiteToken token
  let domain := cleanWebsiteToken domain
  if token = "" ∨ domain = "" then false else token = domain || hasSuffix token ("." ++ domain)

def knownWebsites : List (String × List String) :=
  [("google", ["google.com", "youtube.com", "gstatic.com", "googlevideo.com", "gvt1.com",
      "ytimg.com", "youtu.be", "ggpht.com"]),
    ("github", ["github.com", "githubusercontent.com", "githubassets.com", "github.io"]),
    ("telegram", ["telegram.org", "web.telegram.org", "cdn-telegram.org", "t.me", "telesco.pe",
      "tg.dev", "telegram.me"]),
    ("proton", ["proton.me"]),
    ("pixiv", ["pixiv.net", "fanbox.cc", "pximg.net", "pixiv.org"]),
    ("nyaa", ["nyaa.si"]),
    ("wikipedia", ["wikipedia.org", "wikimedia.org", "mediawiki.org", "wikibooks.org",
      "wikidata.org", "wikifunctions.org", "wikinews.org", "wikiquote.org", "wikisource.org",
      "wikiversity.org", "wikivoyage.org", "wiktionary.org"]),
    ("ehentai", ["e-hentai.org", "exhentai.org", "ehgt.org", "hentaiverse.org", "ehwiki.org",
      "ehtracker.org"]),
    ("meta", ["facebook.com", "fbcdn.net", "instagram.com", "cdninstagram.com", "instagr.am",
      "ig.me", "whatsapp.com", "whatsapp.net"]),
    ("x", ["twitter.com", "x.com", "t.co", "twimg.com"]),
    ("steam", ["steamcommunity.com", "steampowered.com"]),
    ("mega", ["mega.nz", "mega.io", "mega.co.nz"]),
    ("dailymotion", ["dailymotion.com"]),
    ("duckduckgo", ["duckduckgo.com"]),
    ("reddit", ["reddit.com", "redd.it", "redditmedia.com", "redditstatic.com"]),
    ("twitch", ["twitch.tv"]),
    ("bbc", ["bbc.com", "bbc.co.uk", "bbci.co.uk"])]

/-- The label before the last one, of the first token that says something. -/
def secondLabel : List String → Option String
  | [] => none
  | t :: ts =>
    let t := cleanWebsiteToken t
    if t = "" ∨ t = "off" then secondLabel ts
    else
      let parts := split t '.'
      if 2 ≤ parts.length then parts[parts.length - 2]? else some t

def inferWebsiteFromSiteGroup (sg : SiteGroup) : String :=
  let tokens := [sg.name, sg.upstream, sg.sniFake] ++ sg.domains
  let hasDomain := fun domains : List String =>
    tokens.any fun t => domains.any fun d => tokenMatchesDomain t d
  match knownWebsites.find? fun site => hasDomain site.2 with
  | some site => site.1
  | none => ((secondLabel sg.domains).orElse fun _ => secondLabel tokens).getD "misc"

/-! ## Old ECH rules -/

def legacyProfileID : String := "legacy-cloudflare"

/-- The store with the profile that old rules move to. -/
def ensureLegacyCloudflareProfile (profiles : List ECHProfile) : List ECHProfile :=
  match profiles.find? (·.id = legacyProfileID) with
  | some p =>
    let p := normalizeECHProfile p
    let p := if p.name = "" then { p with name := "Legacy Cloudflare" } else p
    let p :=
      if p.discoveryDomain = "" then { p with discoveryDomain := "crypto.cloudflare.com" } else p
    replaceFirst ECHProfile.id p profiles
  | none =>
    profiles ++
      [{ id := legacyProfileID
         name := "Legacy Cloudflare"
         discoveryDomain := "crypto.cloudflare.com"
         autoUpdate := true }]

/-- An old rule: ECH for Cloudflare without a profile. -/
def isLegacyECH (sg : SiteGroup) : Bool :=
  sg.echEnabled && sg.echProfileID = "" && equalFold sg.echDomain "crypto.cloudflare.com"

/-- The groups, the store and whether anything was migrated. -/
def migrateLegacyECHRules : List SiteGroup → List ECHProfile → List SiteGroup × List ECHProfile × Bool
  | [], profiles => ([], profiles, false)
  | sg :: sgs, profiles =>
    let sg :=
      { sg with echProfileID := trimSpace sg.echProfileID, echDomain := trimSpace sg.echDomain }
    if isLegacyECH sg then
      let (sgs, profiles, _) := migrateLegacyECHRules sgs (ensureLegacyCloudflareProfile profiles)
      ({ sg with echProfileID := legacyProfileID, echDomain := "" } :: sgs, profiles, true)
    else
      let (sgs, profiles, migrated) := migrateLegacyECHRules sgs profiles
      (sg :: sgs, profiles, migrated)

/-! ## The files -/

/-- What reading and decoding a file gives. -/
inductive FileRead (α : Type) where
  | notExist
  | failed (err : String)
  | decoded (content : α)
  deriving Repr

def normalizeTUNConfig (cfg : TUNConfig) : TUNConfig :=
  if cfg.mtu ≤ 0 then { cfg with mtu := 9000 } else cfg

def applySettingsDefaults (s : Settings) : Settings :=
  { s with
    listenPort := if s.listenPort = "" then "8080" else s.listenPort
    tunConfig := normalizeTUNConfig s.tunConfig }

/-- The settings after a settings file was decoded. -/
def withSettings (s : Settings) (config : SettingsConfig) : Settings :=
  applySettingsDefaults
    { s with
      closeToTray := config.closeToTray.getD true
      autoStart := config.autoStart.getD false
      showMainOnAutoStart := config.showMainWindowOnAutoStart.getD true
      autoEnableProxyOnAutoStart := config.autoEnableProxyOnAutoStart.getD false
      cloudflareConfig := config.cloudflareConfig
      tunConfig := config.tun
      serverHost := config.serverHost
      serverAuth := config.serverAuth
      listenPort := if config.listenPort ≠ "" then config.listenPort else s.listenPort
      socks5Port := if config.socks5Port ≠ "" then config.socks5Port else s.socks5Port
      autoRoutingConfig := config.autoRouting
      language := config.language
      theme := config.theme
      socks5Enabled := config.socks5Enabled.getD s.socks5Enabled }

/-- The settings of `saveDefaultSettingsConfig`. -/
def defaultSettings (s : Settings) : Settings :=
  applySettingsDefaults
    { s with
      closeToTray := true
      autoStart := false
      showMainOnAutoStart := true
      autoEnableProxyOnAutoStart := false }

def loadSettingsConfig (rm : RuleManager) (file : FileRead SettingsConfig)
    (saved : Except String Unit) : Except String Unit × RuleManager :=
  match file with
  | .notExist => (saved, { rm with settings := defaultSettings rm.settings })
  | .failed err => (.error err, rm)
  | .decoded config => (.ok (), { rm with settings := withSettings rm.settings config })

def loadRulesConfig (rm : RuleManager) (file : FileRead RulesConfig)
    (saved : Except String Unit) : Except String Unit × RuleManager :=
  match file with
  | .notExist =>
    (saved, buildRules
      { rm with siteGroups := [], upstreams := [], dnsNodes := [], echProfiles := [] })
  | .failed err => (.error err, rm)
  | .decoded config =>
    -- `defaultDNSNodes`, which stands in for an empty list of nodes, is empty too
    (.ok (), { rm with
      siteGroups := config.siteGroups
      upstreams := config.upstreams
      dnsNodes := config.dnsNodes
      echProfiles := config.echProfiles })

theorem loadRulesConfig_settings (rm : RuleManager) (file : FileRead RulesConfig)
    (saved : Except String Unit) : (loadRulesConfig rm file saved).2.settings = rm.settings := by
  cases file with
  | notExist => rfl
  | failed err => rfl
  | decoded config => rfl

/-- A site group with its website. -/
def withWebsite (sg : SiteGroup) : SiteGroup :=
  let website := trimSpace sg.website
  { sg with website := if website = "" then inferWebsiteFromSiteGroup sg else website }

/-- The end of `LoadConfig`, after both files: what was decoded is brought into form and
the table is built. -/
def finishLoad (rm : RuleManager) : RuleManager :=
  let siteGroups := rm.siteGroups.map fun sg => { sg with dnsMode := normalizeDNSMode sg.dnsMode }
  let echProfiles := rm.echProfiles.map normalizeECHProfile
  let (siteGroups, echProfiles, _) :=
    migrateLegacyECHRules (siteGroups.map withWebsite) echProfiles
  buildRules { rm with
    siteGroups := siteGroups
    echProfiles := echProfiles
    settings := applySettingsDefaults rm.settings }

/-- The files `LoadConfig` finds, and how its saves of missing files go. The save after a
migration is only logged. -/
structure Files where
  settings : FileRead SettingsConfig
  settingsSaved : Except String Unit
  rules : FileRead RulesConfig
  rulesSaved : Except String Unit

/-- The files of a first start. -/
def noFiles : Files :=
  { settings := .notExist, settingsSaved := .ok (), rules := .notExist, rulesSaved := .ok () }

def loadConfig (rm : RuleManager) (files : Files) : Except String Unit × RuleManager :=
  match loadSettingsConfig rm files.settings files.settingsSaved with
  | (.error err, rm) => (.error err, rm)
  | (.ok (), rm) =>
    match loadRulesConfig rm files.rules files.rulesSaved with
    | (.error err, rm) => (.error err, rm)
    | (.ok (), rm) => (.ok (), finishLoad rm)

/-- A configuration that loads: both files were read or made anew, and then brought into
form. -/
theorem loadConfig_ok {rm : RuleManager} {files : Files} (h : (loadConfig rm files).1 = .ok ()) :
    ∃ rm' rm'', loadSettingsConfig rm files.settings files.settingsSaved = (.ok (), rm') ∧
      loadRulesConfig rm' files.rules files.rulesSaved = (.ok (), rm'') ∧
      (loadConfig rm files).2 = finishLoad rm'' := by
  unfold loadConfig at h ⊢
  rcases hsettings : loadSettingsConfig rm files.settings files.settingsSaved with ⟨_ | _, rm'⟩
  · rw [hsettings] at h
    cases h
  · rw [hsettings] at h
    rcases hrules : loadRulesConfig rm' files.rules files.rulesSaved with ⟨_ | _, rm''⟩
    · simp only [hrules] at h
      cases h
    · refine ⟨rm', rm'', rfl, hrules, ?_⟩
      simp only [hrules]

end SniShaper.Manager
