import SniShaper.Route.Addresses
import SniShaper.Route.Match

/-! The two front ends: `handleRequest` and `handleConnect` of `proxy/proxy.go` for HTTP
CONNECT, and `handleSocks5Connect` of `proxy/socks5.go`.

A front end is modelled up to the handler that takes over the connection: refusing it,
dialling the target directly, or one of the modes with the rule in force.

* `handleRequest_result`: both front ends prepare the same host and rule;
* `sameAction_iff`: they do the same exactly when the destination is not to be blocked;
* `socks5_target_iff`: the address that SOCKS5 dials is that of CONNECT exactly when the
  destination is a name or an IPv4 address. -/

namespace SniShaper.Front

open Strings Net Config Hosts Match

section

variable [CaseTables]

/-! ## The source's functions -/

def isZeroCertVerify (c : CertVerifyConfig) : Bool :=
  trimSpace c.mode = "" && c.names = [] && c.suffixes = [] && c.spkiSHA256 = [] &&
    !c.allowUnknownAuthority

/-- The overlay's field unless it is blank. -/
def orBase (overlay base : String) : String := if trimSpace overlay ≠ "" then overlay else base

def mergeRule (base overlay : Rule) : Rule :=
  { base with
    upstream := orBase overlay.upstream base.upstream
    upstreams := if overlay.upstreams ≠ [] then overlay.upstreams else base.upstreams
    dnsMode := orBase overlay.dnsMode base.dnsMode
    sniFake := orBase overlay.sniFake base.sniFake
    connectPolicy := orBase overlay.connectPolicy base.connectPolicy
    sniPolicy := orBase overlay.sniPolicy base.sniPolicy
    certVerify := if isZeroCertVerify overlay.certVerify then base.certVerify else overlay.certVerify }

/-- The mode after the connect policy. -/
def effectiveMode (rule : Rule) : String :=
  match toLower (trimSpace rule.connectPolicy) with
  | "tunnel_origin" => "transparent"
  | "tunnel_upstream" => "transparent"
  | "mitm" => "mitm"
  | "direct" => "direct"
  | _ => rule.mode

/-- The upstream after the connect policy. -/
def policyUpstream (targetHost : String) (rule : Rule) : String :=
  match toLower (trimSpace rule.connectPolicy) with
  | "tunnel_origin" => ""
  | "direct" => ""
  | _ => resolveRuleUpstream targetHost rule

structure ConnectResult where
  effectiveMode : String
  targetHost : String
  targetAddr : String
  rule : Rule
  deriving DecidableEq, Repr

/-- The rule after the rule of the upstream host was laid over it. -/
def stage2Rule (router : Router) (targetHost : String) (rule : Rule) : Rule :=
  let mode := effectiveMode rule
  let resolvedUpstream := policyUpstream targetHost rule
  if (mode = "mitm" ∨ mode = "transparent") ∧ trimSpace resolvedUpstream ≠ "" then
    let upHost := firstUpstreamHost targetHost resolvedUpstream
    let upRule := matchRule router upHost mode
    if upHost ≠ "" ∧ upRule.siteID ≠ "" then mergeRule rule upRule else rule
  else rule

def prepareConnect (router : Router) (targetHost targetAddr : String) (rule : Rule) :
    ConnectResult :=
  { effectiveMode := effectiveMode rule
    targetHost := targetHost
    targetAddr := targetAddr
    rule := stage2Rule router targetHost rule }

/-- What takes over a connection. -/
inductive Action where
  | refused
  | direct
  | server
  | quic
  | mitm
  | tlsRF
  | tunnel
  deriving DecidableEq, Repr

structure Handled where
  action : Action
  result : ConnectResult
  deriving DecidableEq, Repr

/-- The dispatch of `handleConnect`. -/
def connectAction (effectiveMode : String) : Action :=
  match effectiveMode with
  | "direct" => .direct
  | "block" => .refused
  | "reject" => .refused
  | "server" => .server
  | "quic" => .quic
  | "mitm" => .mitm
  | "tls-rf" => .tlsRF
  | _ => .tunnel

/-- The dispatch of `handleSocks5Connect`. -/
def socks5Action (effectiveMode : String) : Action :=
  match effectiveMode with
  | "direct" => .direct
  | "server" => .server
  | "quic" => .quic
  | "mitm" => .mitm
  | "tls-rf" => .tlsRF
  | _ => .tunnel

def handleConnect (router : Router) (urlHost reqHost : String) (rule : Rule) : Handled :=
  let targetAuthority := if urlHost = "" then reqHost else urlHost
  let cr := prepareConnect router (normalizeHost targetAuthority)
    (ensureAddrWithPort targetAuthority "443") rule
  ⟨connectAction cr.effectiveMode, cr⟩

/-- `handleRequest` for the method CONNECT. -/
def handleRequest (router : Router) (mode urlHost reqHost : String) : Handled :=
  let host := if reqHost = "" then urlHost else reqHost
  handleConnect router urlHost reqHost (matchRule router (normalizeHost host) mode)

/-- The destination of a SOCKS5 request. -/
structure AddrSpec where
  fqdn : String
  ip : IP
  port : Nat

def AddrSpec.host (dest : AddrSpec) : String :=
  if dest.fqdn = "" then ipString dest.ip else dest.fqdn

def handleSocks5Connect (router : Router) (mode : String) (dest : AddrSpec) : Handled :=
  let targetAddr := dest.host ++ ":" ++ toString dest.port
  let matchHost := normalizeHost dest.host
  let cr := prepareConnect router matchHost targetAddr (matchRule router matchHost mode)
  ⟨socks5Action cr.effectiveMode, cr⟩

/-! ## The same destination at both front ends -/

/-- The destination is a host text or an IP address. -/
structure AddrSpec.Valid (dest : AddrSpec) : Prop where
  name : dest.fqdn ≠ "" → HostText dest.fqdn
  addr : dest.fqdn = "" → dest.ip.length = 4 ∨ dest.ip.length = 16

/-- The authority of a CONNECT request for the destination. -/
def AddrSpec.authority (dest : AddrSpec) : String := joinHostPort dest.host (toString dest.port)

omit [CaseTables] in
theorem AddrSpec.Valid.hostText {dest : AddrSpec} (h : dest.Valid) : HostText dest.host := by
  unfold AddrSpec.host
  split
  · exact hostText_ipString (h.addr ‹_›)
  · exact h.name ‹_›

/-- The host both front ends look up. -/
theorem normalizeHost_authority {dest : AddrSpec} (h : dest.Valid) :
    normalizeHost dest.authority = normalizeHost dest.host := by
  rw [AddrSpec.authority, normalizeHost_joinHostPort h.hostText (portText_toString _),
    normalizeHost_hostText h.hostText]

/-- Both front ends prepare the same host and rule, in the same mode. -/
theorem handleRequest_result {dest : AddrSpec} (h : dest.Valid) (router : Router) (mode : String) :
    (handleRequest router mode dest.authority dest.authority).result =
      { (handleSocks5Connect router mode dest).result with
        targetAddr := ensureAddrWithPort dest.authority "443" } := by
  simp only [handleRequest, handleConnect, handleSocks5Connect, prepareConnect, ite_self,
    normalizeHost_authority h]

omit [CaseTables] in
/-- The dispatches differ on the two modes that only CONNECT refuses. -/
theorem socks5Action_eq_iff (mode : String) :
    socks5Action mode = connectAction mode ↔ mode ≠ "block" ∧ mode ≠ "reject" := by
  unfold connectAction
  split
  case h_8 h1 h2 h3 h4 h5 h6 h7 =>
    refine iff_of_true ?_ ⟨h2, h3⟩
    unfold socks5Action
    split <;> first | rfl | contradiction
  all_goals decide

/-- The policies that put another mode in the place of the rule's. -/
def policyModes : List String := ["tunnel_origin", "tunnel_upstream", "mitm", "direct"]

/-- The rule is to block the destination: its mode says so and its connect policy leaves
the mode alone. -/
def Blocks (rule : Rule) : Prop :=
  (rule.mode = "block" ∨ rule.mode = "reject") ∧
    toLower (trimSpace rule.connectPolicy) ∉ policyModes

theorem effectiveMode_blocks_iff (rule : Rule) :
    (effectiveMode rule = "block" ∨ effectiveMode rule = "reject") ↔ Blocks rule := by
  unfold effectiveMode Blocks policyModes
  generalize toLower (trimSpace rule.connectPolicy) = policy
  split
  · simp
  · simp
  · simp
  · simp
  · rename_i h1 h2 h3 h4
    simp only [List.mem_cons, List.not_mem_nil, or_false, not_or]
    exact (and_iff_left ⟨h1, h2, h3, h4⟩).symm

/-- The front ends take the same action exactly when the rule of the destination is not
to block it. -/
theorem sameAction_iff (router : Router) (mode : String) {dest : AddrSpec} (h : dest.Valid) :
    (handleSocks5Connect router mode dest).action =
        (handleRequest router mode dest.authority dest.authority).action ↔
      ¬ Blocks (matchRule router (normalizeHost dest.host) mode) := by
  have hconnect : (handleRequest router mode dest.authority dest.authority).action =
      connectAction (effectiveMode (matchRule router (normalizeHost dest.host) mode)) := by
    simp only [handleRequest, handleConnect, prepareConnect, ite_self, normalizeHost_authority h]
  have hsocks : (handleSocks5Connect router mode dest).action =
      socks5Action (effectiveMode (matchRule router (normalizeHost dest.host) mode)) := by
    simp only [handleSocks5Connect, prepareConnect]
  rw [hconnect, hsocks, socks5Action_eq_iff, ← effectiveMode_blocks_iff, not_or]

/-! ## The address that is dialled -/

/-- The host and the address of a SOCKS5 request. -/
theorem socks5_target (router : Router) (mode : String) (dest : AddrSpec) :
    (handleSocks5Connect router mode dest).result.targetHost = normalizeHost dest.host ∧
      (handleSocks5Connect router mode dest).result.targetAddr =
        dest.host ++ ":" ++ toString dest.port := by
  simp only [handleSocks5Connect, prepareConnect, and_self]

/-- The host and the address of a CONNECT request, which has the authority in its URL. -/
theorem connect_target (router : Router) {authority : String} (hne : authority ≠ "")
    (reqHost : String) (rule : Rule) :
    (handleConnect router authority reqHost rule).result.targetHost = normalizeHost authority ∧
      (handleConnect router authority reqHost rule).result.targetAddr =
        ensureAddrWithPort authority "443" := by
  simp only [handleConnect, prepareConnect, if_neg hne, and_self]

/-- SOCKS5 has the host and the address of CONNECT, and the address is split again. -/
def AddrSpec.Dialable (router : Router) (mode : String) (dest : AddrSpec) : Prop :=
  let socks := (handleSocks5Connect router mode dest).result
  splitHostPort socks.targetAddr = .ok (dest.host, toString dest.port) ∧
    ∀ reqHost rule, let cr := (handleConnect router dest.authority reqHost rule).result
      socks.targetHost = cr.targetHost ∧ socks.targetAddr = cr.targetAddr

/-- It does exactly when the host is written without colons and brackets and does not start
with a space. -/
theorem dialable_host_iff (router : Router) (mode : String) (dest : AddrSpec) :
    dest.Dialable router mode ↔
      NameText dest.host ∧ ∀ c ∈ dest.host.toList.head?, isSpace c = false := by
  have hp := portText_toString dest.port
  have hport : toString dest.port ≠ "" := fun he => by
    have hpos := @Nat.length_toDigits_pos 10 dest.port
    rw [Nat.toString_eq_ofList_toDigits] at he
    have hl := congrArg (fun s => s.toList.length) he
    simp only [String.toList_ofList] at hl
    exact absurd hl (Nat.ne_of_gt hpos)
  have hauth := joinHostPort_ne_empty dest.host (toString dest.port)
  unfold AddrSpec.Dialable
  simp only [AddrSpec.authority, connect_target router hauth, socks5_target,
    splitHostPort_append_iff hp, forall_const]
  rw [← trimStart_eq_self_iff]
  constructor
  · rintro ⟨⟨hopen, hcolon⟩, hsame⟩
    obtain ⟨-, haddr⟩ := hsame {}
    refine ⟨⟨hopen, hcolon⟩, ?_⟩
    rw [joinHostPort, if_neg hcolon, ensureAddrWithPort_append ⟨hopen, hcolon⟩ hp hport] at haddr
    simpa [← String.toList_inj] using haddr.symm
  · rintro ⟨hname, hstart⟩
    rw [joinHostPort, if_neg hname.noColon, normalizeHost_name_port hname hp,
      ensureAddrWithPort_append hname hp hport, hstart]
    exact ⟨⟨hname.unbracketed, hname.noColon⟩, fun _ => ⟨rfl, rfl⟩⟩

/-- The target of a SOCKS5 request is that of the CONNECT request, and is split into the host
and the port again, exactly when the destination is an IPv4 address or a name that has
neither colons nor brackets and does not start with a space. -/
theorem socks5_target_iff (router : Router) (mode : String) (dest : AddrSpec)
    (hip : dest.fqdn = "" → dest.ip.length = 4 ∨ dest.ip.length = 16) :
    dest.Dialable router mode ↔
      if dest.fqdn = "" then isV4 dest.ip = true
      else NameText dest.fqdn ∧ ∀ c ∈ dest.fqdn.toList.head?, isSpace c = false := by
  rw [dialable_host_iff, AddrSpec.host]
  split
  · rename_i hfqdn
    have hbare := bare_ipString dest.ip
    constructor
    · rintro ⟨hname, -⟩
      by_contra hv6
      have hcolons := two_colons_ipString (hip hfqdn) (Bool.eq_false_iff.mpr hv6)
      exact hname.noColon (List.count_pos_iff.mp (lt_of_lt_of_le Nat.two_pos hcolons))
    · intro hv4
      exact ⟨⟨hbare.unbracketed, ipString_no_colon hv4⟩,
        fun c hc => hbare.noSpace c (List.mem_of_mem_head? hc)⟩
  · rfl

end

/-- A table with one rule that blocks a domain. -/
def blocking : Router where
  rules := [{ domain := "ads.example.com", mode := "block", enabled := true }]
  regexpMatch _ _ := none
  autoRouter := none
  autoRoutingMode := ""

def adsHost : AddrSpec := { fqdn := "ads.example.com", ip := [], port := 443 }

def otherHost : AddrSpec := { fqdn := "www.example.com", ip := [], port := 443 }

theorem hostText_of_check {host : String} (h : host.toList.all (· ∈ nameChars) = true)
    (hne : host ≠ "") : HostText host :=
  DNSName.hostText ⟨hne, by simpa using h⟩

theorem sameAction_unblocked :
    otherHost.Valid ∧
      (handleSocks5Connect blocking "mitm" otherHost).action =
        (handleRequest blocking "mitm" otherHost.authority otherHost.authority).action := by
  have hvalid : otherHost.Valid :=
    ⟨fun _ => hostText_of_check (by decide) (by decide), fun h => absurd h (by decide)⟩
  refine ⟨hvalid, (sameAction_iff blocking "mitm" hvalid).mpr ?_⟩
  rintro ⟨hmode, -⟩
  revert hmode
  decide

/-- A blocked destination is refused by CONNECT and tunnelled by SOCKS5. -/
theorem blocked_tunnelled :
    adsHost.Valid ∧
      (handleRequest blocking "mitm" adsHost.authority adsHost.authority).action = .refused ∧
      (handleSocks5Connect blocking "mitm" adsHost).action = .tunnel := by
  have hvalid : adsHost.Valid :=
    ⟨fun _ => hostText_of_check (by decide) (by decide), fun h => absurd h (by decide)⟩
  exact ⟨hvalid, by decide, by decide⟩

theorem socks5_target_name :
    (otherHost.fqdn = "" → otherHost.ip.length = 4 ∨ otherHost.ip.length = 16) ∧
      otherHost.Dialable blocking "mitm" := by
  have hip : otherHost.fqdn = "" → otherHost.ip.length = 4 ∨ otherHost.ip.length = 16 :=
    fun h => absurd h (by decide)
  refine ⟨hip, (socks5_target_iff blocking "mitm" otherHost hip).mpr ?_⟩
  rw [if_neg (by decide)]
  have hhost : HostText otherHost.fqdn := hostText_of_check (by decide) (by decide)
  refine ⟨⟨hhost.bare.unbracketed, by decide⟩, fun c hc => ?_⟩
  exact hhost.bare.noSpace c (List.mem_of_mem_head? hc)

/-- `2001:db8::1`, port 443 -/
def v6Host : AddrSpec :=
  { fqdn := "", ip := [0x20, 0x01, 0x0d, 0xb8, 0, 0, 0, 0, 0, 0, 0, 0, 0, 0, 0, 1], port := 443 }

/-- The address of an IPv6 destination has no brackets and cannot be split. -/
theorem v6_target_unsplit :
    v6Host.ip.length = 16 ∧
      (handleSocks5Connect blocking "mitm" v6Host).result.targetAddr = "2001:db8::1:443" ∧
      splitHostPort (handleSocks5Connect blocking "mitm" v6Host).result.targetAddr =
        .error tooManyColons ∧
      (handleConnect blocking v6Host.authority "" {}).result.targetAddr = "[2001:db8::1]:443" := by
  decide

end SniShaper.Front
