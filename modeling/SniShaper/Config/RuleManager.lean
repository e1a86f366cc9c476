import SniShaper.Config.Profiles
import SniShaper.Route.Candidates

/-! The rule manager (`proxy/proxy.go`): the configuration in memory, the rule table that
is compiled from it, and the operations of the dashboard.

Each operation saves the rules file at its end; whether that works is an argument, and
what was changed in memory stays when it does not. A generated id is an argument too. -/

namespace SniShaper.Manager

open Strings Config Hosts Candidates Profiles

variable [CaseTables]

structure Settings where
  cloudflareConfig : CloudflareConfig := {}
  tunConfig : TUNConfig := {}
  closeToTray : Bool := false
  autoStart : Bool := false
  showMainOnAutoStart : Bool := false
  autoEnableProxyOnAutoStart : Bool := false
  socks5Enabled : Bool := false
  socks5Port : String := ""
  serverHost : String := ""
  serverAuth : String := ""
  listenPort : String := ""
  autoRoutingConfig : AutoRoutingConfig := {}
  language : String := ""
  theme : String := ""
  deriving DecidableEq, Repr

structure RuleManager where
  rules : List Rule := []
  siteGroups : List SiteGroup := []
  upstreams : List Upstream := []
  dnsNodes : List DNSNode := []
  echProfiles : List ECHProfile := []
  settings : Settings := {}
  deriving DecidableEq, Repr

def newRuleManager : RuleManager :=
  { settings :=
      { closeToTray := true, showMainOnAutoStart := true, language := "zh", theme := "dark" } }

/-! ## The rule table -/

/-- The address of an upstream id: of several enabled upstreams with an address the
last one counts. -/
def upstreamMap (upstreams : List Upstream) (id : String) : Option String :=
  ((upstreams.filter fun up => up.enabled && up.address ≠ "").reverse.find? (·.id = id)).map
    (·.address)

def echProfileMap (echProfiles : List ECHProfile) (id : String) : Option ECHProfile :=
  echProfiles.reverse.find? (·.id = id)

/-- An upstream id stands for its address, anything else for itself. -/
def resolveID (upstreams : List Upstream) (id : String) : String :=
  (upstreamMap upstreams id).getD id

/-- The profile of a site group; an empty one when it has none. -/
def profileOf (echProfiles : List ECHProfile) (sg : SiteGroup) : ECHProfile :=
  if sg.echProfileID ≠ "" then (echProfileMap echProfiles sg.echProfileID).getD {} else {}

def siteRule (upstreams : List Upstream) (echProfiles : List ECHProfile) (sg : SiteGroup)
    (domain : String) : Rule :=
  let echProfile := profileOf echProfiles sg
  { domain := domain
    mode := sg.mode
    upstream := resolveID upstreams sg.upstream
    upstreams := sg.upstreams.map (resolveID upstreams)
    dnsMode := normalizeDNSMode sg.dnsMode
    sniFake := sg.sniFake
    connectPolicy := trimSpace sg.connectPolicy
    sniPolicy := trimSpace sg.sniPolicy
    enabled := true
    siteID := sg.id
    echEnabled := sg.echEnabled
    echProfileID := sg.echProfileID
    useCFPool := sg.useCFPool
    echDiscoveryDomain := echProfile.discoveryDomain
    echDoHUpstream := echProfile.dohUpstream
    echAutoUpdate := echProfile.autoUpdate
    certVerify := sg.certVerify }

/-- The rules of one site group. -/
def siteRules (upstreams : List Upstream) (echProfiles : List ECHProfile) (sg : SiteGroup) :
    List Rule :=
  if sg.enabled then sg.domains.map (siteRule upstreams echProfiles sg) else []

/-- The table `buildRules` computes. -/
def compile (siteGroups : List SiteGroup) (upstreams : List Upstream)
    (echProfiles : List ECHProfile) : List Rule :=
  siteGroups.flatMap (siteRules upstreams echProfiles)

def buildRules (rm : RuleManager) : RuleManager :=
  { rm with rules := compile rm.siteGroups rm.upstreams rm.echProfiles }

/-! ## Site groups -/

/-- The first element with the id is replaced. -/
def replaceFirst {α : Type} (id : α → String) (x : α) (l : List α) : List α :=
  l.replaceF fun y => if id y = id x then some x else none

/-- The first element with the id is removed. -/
def eraseFirst {α : Type} (id : α → String) (i : String) (l : List α) : List α :=
  l.eraseP fun y => id y = i

def addSiteGroup (rm : RuleManager) (sg : SiteGroup) (newID : String) : RuleManager :=
  let sg := { sg with id := newID, website := trimSpace sg.website }
  buildRules { rm with siteGroups := rm.siteGroups ++ [sg] }

def updateSiteGroup (rm : RuleManager) (sg : SiteGroup) : RuleManager :=
  let sg := { sg with website := trimSpace sg.website }
  buildRules { rm with siteGroups := replaceFirst SiteGroup.id sg rm.siteGroups }

def deleteSiteGroup (rm : RuleManager) (id : String) : RuleManager :=
  buildRules { rm with siteGroups := eraseFirst SiteGroup.id id rm.siteGroups }

/-! ## Upstreams -/

def addUpstream (rm : RuleManager) (u : Upstream) (newID : String) : RuleManager :=
  { rm with upstreams := rm.upstreams ++ [{ u with id := newID }] }

def updateUpstream (rm : RuleManager) (u : Upstream) : RuleManager :=
  { rm with upstreams := replaceFirst Upstream.id u rm.upstreams }

def deleteUpstream (rm : RuleManager) (id : String) : RuleManager :=
  { rm with upstreams := eraseFirst Upstream.id id rm.upstreams }

/-! ## DNS nodes -/

def addDNSNode (rm : RuleManager) (n : DNSNode) (newID : String) : RuleManager :=
  { rm with dnsNodes := rm.dnsNodes ++ [{ n with id := newID }] }

def updateDNSNode (rm : RuleManager) (n : DNSNode) : RuleManager :=
  { rm with dnsNodes := replaceFirst DNSNode.id n rm.dnsNodes }

def deleteDNSNode (rm : RuleManager) (id : String) : RuleManager :=
  { rm with dnsNodes := eraseFirst DNSNode.id id rm.dnsNodes }

/-- The target index, brought into the list. -/
def clampIndex (targetIndex : Int) (length : Nat) : Nat := min targetIndex.toNat (length - 1)

/-- `none` when the node stays where it is and nothing is saved. -/
def setDNSNodePriority (rm : RuleManager) (id : String) (targetIndex : Int) :
    Except String (Option RuleManager) :=
  match rm.dnsNodes.findIdx? (·.id = id) with
  | none => .error ("dns node " ++ id ++ " not found")
  | some srcIdx =>
    let target := clampIndex targetIndex rm.dnsNodes.length
    if srcIdx = target then .ok none
    else
      let node := (rm.dnsNodes.drop srcIdx).take 1
      let rest := rm.dnsNodes.eraseIdx srcIdx
      .ok (some { rm with dnsNodes := rest.take target ++ node ++ rest.drop target })

/-! ## ECH profiles -/

def normalizeECHProfile (p : ECHProfile) : ECHProfile :=
  { p with
    id := trimSpace p.id
    name := trimSpace p.name
    config := trimSpace p.config
    discoveryDomain := trimSpace p.discoveryDomain
    dohUpstream := trimSpace p.dohUpstream }

def upsertProfiles (profiles : List ECHProfile) (p : ECHProfile) (newID : String) :
    List ECHProfile :=
  let p := normalizeECHProfile p
  if p.id = "" then profiles ++ [{ p with id := newID }]
  else if profiles.any (·.id = p.id) then replaceFirst ECHProfile.id p profiles
  else profiles ++ [p]

def upsertECHProfile (rm : RuleManager) (p : ECHProfile) (newID : String) : RuleManager :=
  { rm with echProfiles := upsertProfiles rm.echProfiles p newID }

def deleteECHProfile (rm : RuleManager) (id : String) : RuleManager :=
  { rm with echProfiles := eraseFirst ECHProfile.id id rm.echProfiles }

/-- `none` when nothing is changed and nothing is saved. -/
def updateECHProfileConfig (rm : RuleManager) (profileID : String) (configBytes : List UInt8) :
    Except String (Option RuleManager) :=
  match Profiles.updateECHProfileConfig rm.echProfiles profileID configBytes with
  | .error e => .error e
  | .ok none => .ok none
  | .ok (some profiles) => .ok (some { rm with echProfiles := profiles })

end SniShaper.Manager
