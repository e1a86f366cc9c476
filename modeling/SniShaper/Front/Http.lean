import SniShaper.Front.Connect
import SniShaper.Route.Candidates

/-! Plain HTTP requests (`handleHTTP` of `proxy/proxy.go`) and the port of the origin.

A request is modelled up to the round trip: the request that is sent and the addresses
that are dialled for it.

* `port_kept_iff`: without upstreams and pool the candidates keep the origin's port
  exactly when it is 443 or the resolver has nothing to say;
* `handleHTTP_dials_443`: a plain HTTP request whose host the resolver knows is sent to
  port 443. -/

namespace SniShaper.Http

open Strings Net Config Hosts Match Candidates Front

/-! ## The source's functions -/

structure URL where
  scheme : String
  host : String
  /-- The path, the query and the fragment. -/
  path : String
  deriving DecidableEq, Repr

structure Request where
  url : URL
  host : String
  header : List (String × String)
  requestURI : String
  /-- The request came over TLS. -/
  tls : Bool
  deriving DecidableEq, Repr

/-- How a request is answered: by a redirect, by an error, or by a round trip. For a round
trip `dial` holds the addresses that are tried, unless the transport dials the host of
the URL, and `failed` the text of the answer if it fails. -/
inductive Outcome where
  | redirect (url : URL) (status : Nat)
  | error (text : String) (status : Nat)
  | roundTrip (request : Request) (dial : Option (List String)) (failed : String)
  deriving DecidableEq, Repr

/-- The request that is sent: a copy with the fields filled in. -/
def newRequest (req : Request) : Request :=
  let newReq := { req with
    requestURI := ""
    header := req.header.filter fun field => field.1 ≠ "Proxy-Connection" }
  let newReq :=
    if newReq.url.scheme = "" then
      { newReq with url.scheme := if req.tls then "https" else "http" }
    else newReq
  let newReq := if newReq.url.host = "" then { newReq with url.host := req.host } else newReq
  let newReq := if newReq.host = "" then { newReq with host := req.host } else newReq
  if newReq.host = "" then { newReq with host := newReq.url.host } else newReq

section

variable [CaseTables]

/-- The address of the origin. -/
def targetAddr (newReq : Request) : String :=
  let defaultPort := if equalFold newReq.url.scheme "https" then "443" else "80"
  ensureAddrWithPort newReq.url.host defaultPort

def handleHTTP (src : Sources) (req : Request) (rule : Rule) : Outcome :=
  let newReq := newRequest req
  if (rule.mode = "mitm" ∨ rule.mode = "quic") ∧ newReq.url.scheme = "http" then
    let httpsURL := { newReq.url with scheme := "https" }
    .redirect (if httpsURL.host = "" then { httpsURL with host := req.host } else httpsURL) 301
  else if rule.mode = "block" ∨ rule.mode = "reject" then .error "Blocked by rule" 403
  else if rule.mode = "direct" then .roundTrip newReq none "Failed to proxy"
  else
    let candidates :=
      buildDialCandidates src (normalizeHost newReq.host) (targetAddr newReq) rule rule.mode
    let failed := "Failed to connect to upstream"
    if rule.upstream ≠ "" then
      match candidates with
      | [] => .roundTrip newReq none failed
      | first :: _ => .roundTrip { newReq with url.host := first } none failed
    else
      match candidates with
      | [] => .roundTrip newReq none failed
      | first :: _ =>
        if first ≠ targetAddr newReq then
          .roundTrip newReq (some (dedupeDialCandidates candidates)) failed
        else .roundTrip newReq none failed

/-! ## The port of the origin -/

/-- The target of a CONNECT request has the port of its authority. -/
theorem handleRequest_port {dest : AddrSpec} (h : dest.Valid) (router : Router) (mode : String) :
    portOf (handleRequest router mode dest.authority dest.authority).result.targetAddr =
      some (toString dest.port) := by
  have hport := portText_toString dest.port
  have hne : toString dest.port ≠ "" := by
    rw [ne_eq, ← String.toList_eq_nil_iff, Nat.toString_eq_ofList_toDigits, String.toList_ofList]
    exact Nat.toDigits_ne_nil
  simp only [handleRequest, handleConnect, prepareConnect, ite_self]
  rw [AddrSpec.authority, ensureAddrWithPort_joinHostPort h.hostText hport hne]
  exact portOf_joinHostPort _ hport.noColon

/-- So has the target of a SOCKS5 request, also an IPv6 address, which is not bracketed. -/
theorem handleSocks5Connect_port (router : Router) (mode : String) (dest : AddrSpec) :
    portOf (handleSocks5Connect router mode dest).result.targetAddr =
      some (toString dest.port) := by
  have hport := portText_toString dest.port
  simp only [handleSocks5Connect, prepareConnect]
  exact portOf_append dest.host.toList hport.noColon (by simp)

/-- The target of a plain HTTP request for a host has port 80. -/
theorem targetAddr_port {newReq : Request} (hscheme : newReq.url.scheme = "http")
    (hh : HostText newReq.url.host) (hne : newReq.url.host ≠ "") :
    portOf (targetAddr newReq) = some "80" := by
  have hfold : equalFold "http" "https" = false := by
    simp [equalFold]
  have haddr : targetAddr newReq = joinHostPort newReq.url.host "80" := by
    simp only [targetAddr, hscheme, hfold, Bool.false_eq_true, ↓reduceIte]
    exact ensureAddrWithPort_host hh hne "80"
  rw [haddr]
  exact portOf_joinHostPort _ (by decide)

/-- Without upstreams and pool, the candidates have the port of the target exactly when it
is 443, when the mode does not ask the resolver, or when the resolver has no address. -/
theorem port_kept_iff (src : Sources) (targetHost : String) {targetAddr q : String}
    (hq : portOf targetAddr = some q) {rule : Rule} (hup : trimSpace rule.upstream = "")
    (hups : rule.upstreams = []) (hpool : rule.useCFPool = false) (mode : String) :
    (∀ c ∈ buildDialCandidates src targetHost targetAddr rule mode, portOf c = some q) ↔
      q = "443" ∨ resolvesTarget mode = false ∨
        resolveDomainCandidates src targetHost "443" rule.dnsMode = [] := by
  have hport : PortText "443" := portText_toString 443
  have hresolved : ∀ c ∈ resolveDomainCandidates src targetHost "443" rule.dnsMode,
      portOf c = some "443" := fun c hc => resolveDomainCandidates_port hport hc
  rw [buildDialCandidates_plain src targetHost targetAddr mode hup hups hpool]
  split
  · rename_i hasks
    obtain ⟨c, hc⟩ := List.exists_mem_of_ne_nil _ hasks.2
    constructor
    · intro hkept
      have hboth := (hkept c hc).symm.trans (hresolved c hc)
      exact .inl (Option.some.inj hboth)
    · rintro (rfl | hmode | hnone)
      · exact hresolved
      · rw [hmode] at hasks
        cases hasks.1
      · exact absurd hnone hasks.2
  · rename_i hasks
    refine iff_of_true ?_ ?_
    · intro c hc
      rw [List.mem_singleton.mp hc, hq]
    · right
      by_cases hmode : resolvesTarget mode = true
      · exact .inr (not_not.mp fun hne => hasks ⟨hmode, hne⟩)
      · exact .inl (Bool.not_eq_true _ ▸ hmode)

/-- A plain HTTP request goes to port 443 when the resolver answers for its host. -/
theorem handleHTTP_dials_443 {src : Sources} {req : Request} {rule : Rule}
    (hscheme : (newRequest req).url.scheme = "http") (hh : HostText (newRequest req).url.host)
    (hne : (newRequest req).url.host ≠ "")
    (hmode : rule.mode = "transparent" ∨ rule.mode = "tls-rf")
    (hup : rule.upstream = "") (hups : rule.upstreams = []) (hpool : rule.useCFPool = false)
    (hres : resolveDomainCandidates src (normalizeHost (newRequest req).host) "443" rule.dnsMode ≠
      []) :
    ∃ dial, handleHTTP src req rule =
        .roundTrip (newRequest req) (some dial) "Failed to connect to upstream" ∧
      ∀ c ∈ dial, portOf c = some "443" := by
  have hcandidates := buildDialCandidates_plain src (normalizeHost (newRequest req).host)
    (targetAddr (newRequest req)) rule.mode (by rw [hup]; decide) hups hpool
  have hasks : resolvesTarget rule.mode = true := by
    rcases hmode with h | h <;> rw [h] <;> decide
  have hother : rule.mode ≠ "mitm" ∧ rule.mode ≠ "quic" ∧ rule.mode ≠ "block" ∧
      rule.mode ≠ "reject" ∧ rule.mode ≠ "direct" := by
    rcases hmode with h | h <;> rw [h] <;> decide
  rw [if_pos ⟨hasks, hres⟩] at hcandidates
  generalize hfound : resolveDomainCandidates src (normalizeHost (newRequest req).host) "443"
    rule.dnsMode = found at hcandidates hres
  have hport : ∀ c ∈ found, portOf c = some "443" := fun c hc =>
    resolveDomainCandidates_port (portText_toString 443) (hfound ▸ hc)
  refine ⟨dedupeDialCandidates found, ?_, fun c hc => ?_⟩
  · cases found with
    | nil => exact absurd rfl hres
    | cons first rest =>
      have hfirst : first ≠ targetAddr (newRequest req) := by
        intro he
        have hboth := hport first (List.mem_cons_self ..)
        rw [he, targetAddr_port hscheme hh hne] at hboth
        exact absurd hboth (by decide)
      obtain ⟨h1, h2, h3, h4, h5⟩ := hother
      simp only [handleHTTP, h1, h2, h3, h4, h5, or_self, false_and, ↓reduceIte, hup, ne_eq,
        not_true_eq_false, hcandidates, hfirst, not_false_eq_true]
  · obtain ⟨-, x, hx, rfl⟩ := mem_dedupeDialCandidates.mp hc
    obtain ⟨ip, rfl⟩ := mem_resolveDomainCandidates (portText_toString 443) (hfound ▸ hx)
    rw [trimSpace_joinHostPort (bare_ipString ip) (portText_toString 443).bare]
    exact hport _ hx

end

def tunnelRule : Rule := { domain := "example.com", mode := "transparent", enabled := true }

/-- `GET http://example.com/` -/
def plainGet : Request where
  url := { scheme := "http", host := "example.com", path := "/" }
  host := "example.com"
  header := []
  requestURI := "http://example.com/"
  tls := false

theorem port_443_kept :
    portOf "example.com:443" = some "443" ∧
      ∀ c ∈ buildDialCandidates oneAddress "example.com" "example.com:443" tunnelRule "transparent",
        portOf c = some "443" :=
  ⟨by decide, (port_kept_iff oneAddress "example.com" (by decide) (by decide) rfl rfl
    "transparent").mpr (.inl rfl)⟩

/-- The origin is on port 80 and only port 443 is dialled. -/
theorem port_80_lost :
    targetAddr (newRequest plainGet) = "example.com:80" ∧ portOf "example.com:80" = some "80" ∧
      buildDialCandidates oneAddress "example.com" "example.com:80" tunnelRule "transparent" =
        ["192.0.2.7:443"] ∧ portOf "192.0.2.7:443" = some "443" ∧
      handleHTTP oneAddress plainGet tunnelRule =
        .roundTrip (newRequest plainGet) (some ["192.0.2.7:443"])
          "Failed to connect to upstream" := by
  decide +kernel

end SniShaper.Http
