import Mathlib.Data.List.Basic

/-! The records of the configuration (`proxy/proxy.go`, `proxy/cert_verify.go`,
`proxy/auto_routing.go`). A field that is not given has Go's zero value. -/

namespace SniShaper.Config

structure CertVerifyConfig where
  mode : String := ""
  names : List String := []
  suffixes : List String := []
  spkiSHA256 : List String := []
  allowUnknownAuthority : Bool := false
  deriving DecidableEq, Repr

structure SiteGroup where
  id : String := ""
  name : String := ""
  website : String := ""
  domains : List String := []
  mode : String := ""
  upstream : String := ""
  upstreams : List String := []
  dnsMode : String := ""
  sniFake : String := ""
  connectPolicy : String := ""
  sniPolicy : String := ""
  enabled : Bool := false
  echEnabled : Bool := false
  echProfileID : String := ""
  echDomain : String := ""
  useCFPool : Bool := false
  certVerify : CertVerifyConfig := {}
  deriving DecidableEq, Repr

structure Upstream where
  id : String := ""
  name : String := ""
  address : String := ""
  enabled : Bool := false
  deriving DecidableEq, Repr

structure ECHProfile where
  id : String := ""
  name : String := ""
  config : String := ""
  discoveryDomain : String := ""
  dohUpstream : String := ""
  autoUpdate : Bool := false
  deriving DecidableEq, Repr

structure DNSNode where
  id : String := ""
  name : String := ""
  url : String := ""
  sni : String := ""
  ips : List String := []
  echEnabled : Bool := false
  echProfileID : String := ""
  echAutoUpdate : Bool := false
  quic : Bool := false
  certVerify : CertVerifyConfig := {}
  enabled : Bool := false
  deriving DecidableEq, Repr

structure Rule where
  domain : String := ""
  upstream : String := ""
  upstreams : List String := []
  dnsMode : String := ""
  mode : String := ""
  sniFake : String := ""
  connectPolicy : String := ""
  sniPolicy : String := ""
  enabled : Bool := false
  siteID : String := ""
  echEnabled : Bool := false
  echProfileID : String := ""
  useCFPool : Bool := false
  echDiscoveryDomain : String := ""
  echDoHUpstream : String := ""
  echAutoUpdate : Bool := false
  certVerify : CertVerifyConfig := {}
  autoRouted : Bool := false
  fallbackMode : String := ""
  deriving DecidableEq, Repr

structure TUNConfig where
  enabled : Bool := false
  mtu : Int := 0
  dnsHijack : Bool := false
  autoRoute : Bool := false
  strictRoute : Bool := false
  deriving DecidableEq, Repr

structure CloudflareConfig where
  preferredIPs : List String := []
  autoUpdate : Bool := false
  apiKey : String := ""
  deriving DecidableEq, Repr

structure AutoRoutingConfig where
  mode : String := ""
  gfwListURL : String := ""
  lastUpdate : String := ""
  deriving DecidableEq, Repr

/-- The settings file. An absent flag is `none`. -/
structure SettingsConfig where
  listenPort : String := ""
  socks5Port : String := ""
  serverHost : String := ""
  serverAuth : String := ""
  closeToTray : Option Bool := none
  autoStart : Option Bool := none
  showMainWindowOnAutoStart : Option Bool := none
  autoEnableProxyOnAutoStart : Option Bool := none
  autoRouting : AutoRoutingConfig := {}
  tun : TUNConfig := {}
  language : String := ""
  theme : String := ""
  cloudflareConfig : CloudflareConfig := {}
  socks5Enabled : Option Bool := none
  deriving DecidableEq, Repr

/-- The rules file. -/
structure RulesConfig where
  siteGroups : List SiteGroup := []
  upstreams : List Upstream := []
  dnsNodes : List DNSNode := []
  echProfiles : List ECHProfile := []
  deriving DecidableEq, Repr

end SniShaper.Config
