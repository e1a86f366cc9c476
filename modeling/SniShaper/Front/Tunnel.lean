import SniShaper.Front.Connect
import SniShaper.Lib.Handles
import SniShaper.Tls.Fragment
import SniShaper.Upstream.Alpn

/-! What follows the dispatch of a CONNECT request: `handleConnect` of `proxy/proxy.go` to
its end, with `dialUpstream`, `directConnect`, `handleMITM`, `handleServerMITM`,
`handleTransparent` and `directTunnel`, and `handleTLSFragment` of
`proxy/tls_fragment.go`.

A request is given the outcome of every step of the network. The connections to upstream
servers are handles of one table. A tunnel or a served connection lasts until both its
ends are done; what passes through is not modelled, and QUIC mode opens no connection of
this kind.

* `sameProtocol_iff`: when both ends of a MITM tunnel speak the same protocol. -/

namespace SniShaper.Tunnel

open Strings Net Config Hosts Match Profiles Candidates Establish Alpn Handles Bounds Hello
  Fragment Front

/-! ## Sessions -/

/-- The client's side of a request: the response writer, the connection taken over from
it, and the TLS client behind it. -/
structure Client where
  hijacker : Bool := true
  hijack : Except String Unit := .ok ()
  writeString : Except String Unit := .ok ()
  flush : Except String Unit := .ok ()
  /-- What the client sends after the 200. -/
  bytes : List UInt8 := []
  alpnProtocols : List String := []
  /-- The client's TLS handshake, apart from the choice of the protocol. -/
  tls : Except String Unit := .ok ()

/-- Which of the two the generator has. -/
structure CertGenerator where
  caCert : Bool
  caKey : Bool

/-- What a request finds, and the outcome of every step it can make. -/
structure World where
  router : Router
  src : Sources
  /-- The network of `establishUpstreamConn`, with what the servers choose. -/
  servers : Env
  store : List ECHProfile := []
  certGenerator : Option CertGenerator
  serverHost : String := ""
  client : Client
  /-- The n-th dial of `dialUpstream`. -/
  dial : Nat → Except String Unit
  /-- A dial to an address outside `dialUpstream` and `establishUpstreamConn`. -/
  dialAddr : String → Except String Unit
  /-- The sends to the dialled upstream, and to the fallback. -/
  sends : Nat → Option (Nat × String) := fun _ => none
  fallbackSends : Nat → Option (Nat × String) := fun _ => none
  /-- The byte read from the upstream after the fragments. -/
  probe : Except String UInt8 := .ok 0

/-- Whether the client's connection is taken over and open, the upstream connections, and
the answer of `http.Error`. -/
structure Session where
  client : Bool := false
  upstream : Table := []
  response : Option (Nat × String) := none
  deriving DecidableEq, Repr

inductive Peer where
  | client
  | upstream (conn : Nat)
  deriving DecidableEq, Repr

def Session.close (s : Session) : Peer → Session
  | .client => { s with client := false }
  | .upstream conn => { s with upstream := release s.upstream conn }

/-- A dial that succeeds; the new connection has the number `s.upstream.length`. -/
def Session.dial (s : Session) : Session := { s with upstream := acquire s.upstream }

def Session.error (s : Session) (code : Nat) (msg : String) : Session :=
  { s with response := some (code, msg) }

/-- How a handler is left. -/
inductive Ending where
  | returned
  | panicked (f : Fault)
  deriving DecidableEq, Repr

/-! ## The source's functions -/

/-- Each direction closes the connection it writes to when its copy ends. -/
def directTunnel (s : Session) (clientConn upstreamConn : Peer) : Session :=
  (s.close upstreamConn).close clientConn

/-- Taking over the client's connection and answering 200. When that fails, the upstream
connection that the caller holds is closed. -/
def accept (c : Client) (held : Option Nat) (s : Session) : Bool × Session :=
  let closeHeld := fun s : Session => held.elim s fun conn => s.close (.upstream conn)
  if c.hijacker = false then (false, closeHeld (s.error 500 "Hijack not supported"))
  else match c.hijack with
    | .error _ => (false, closeHeld s)
    | .ok () =>
      let s := { s with client := true }
      match c.writeString with
      | .error _ => (false, closeHeld (s.close .client))
      | .ok () =>
        match c.flush with
        | .error _ => (false, closeHeld (s.close .client))
        | .ok () => (true, s)

/-- `clientTls.Handshake()` of a `tls.Server` with these protocols. -/
def serverHandshake (c : Client) (nextProtos : List String) : Except String String :=
  match negotiateALPN nextProtos c.alpnProtocols false with
  | .error err => .error err
  | .ok alpn =>
    match c.tls with
    | .error err => .error err
    | .ok () => .ok alpn

/-- The loop of `dialUpstream`: the first address that answers, or the last error. -/
def dialFirst (dial : Nat → Except String Unit) :
    Nat → List String → String → Except String String
  | _, [], lastErr => .error lastErr
  | n, addr :: rest, _ =>
    match dial n with
    | .ok () => .ok addr
    | .error err => dialFirst dial (n + 1) rest err

structure Dialled where
  dialCandidates : List String
  dialAddr : String
  conn : Nat
  deriving DecidableEq, Repr

/-- The two ways `DialFallback` ends without a dial are errors. -/
def dialFallback (w : World) (fallbackMode _targetAddr serverHost : String) :
    Except String Unit :=
  if fallbackMode = "server" then
    if serverHost = "" then .error "server host not configured"
    else w.dialAddr (ensureAddrWithPort serverHost "443")
  else .error ("unknown fallback: " ++ fallbackMode)

def handleTLSRFFallback (w : World) (host : String) (rule : Rule) (originalRecord : List UInt8)
    (s : Session) : Session :=
  match dialFallback w rule.fallbackMode (joinHostPort host "443") w.serverHost with
  | .error _ => s.close .client
  | .ok () =>
    let newConn := Peer.upstream s.upstream.length
    let s := s.dial
    match (write originalRecord (Conn.fresh w.fallbackSends)).1 with
    | .error _ => (s.close newConn).close .client
    | .ok () => directTunnel s .client newConn

/-- After the fragments were sent. -/
def afterFragments (w : World) (host : String) (rule : Rule) (record : List UInt8) (conn : Nat)
    (s : Session) : Session :=
  if rule.fallbackMode ≠ "" then
    match w.probe with
    | .error _ => handleTLSRFFallback w host rule record (s.close (.upstream conn))
    | .ok _ => directTunnel s .client (.upstream conn)
  else directTunnel s .client (.upstream conn)

def handleTLSFragment (w : World) (conn : Nat) (host : String) (rule : Rule) (s : Session) :
    Ending × Session :=
  let closeBoth := (s.close .client).close (.upstream conn)
  match readInitialTLSRecord w.client.bytes with
  | none => (.returned, closeBoth)
  | some (record, _) =>
    match parseClientHello record with
    | .error f => (.panicked f, s)
    | .ok info =>
      if info.err ≠ none then (.returned, closeBoth)
      else if info.sniPos ≤ 0 ∨ info.sniLen ≤ 0 then
        match (write record (Conn.fresh w.sends)).1 with
        | .error _ => (.returned, closeBoth)
        | .ok () => (.returned, directTunnel s .client (.upstream conn))
      else
        match (sendFragmented record info (Conn.fresh w.sends)).1 with
        | .error (.fault f) => (.panicked f, s)
        | .error (.failed _) =>
          let s := s.close (.upstream conn)
          (.returned,
            if rule.fallbackMode ≠ "" then handleTLSRFFallback w host rule record s
            else s.close .client)
        | .ok () => (.returned, afterFragments w host rule record conn s)

def handleTransparent (conn : Nat) (s : Session) : Session :=
  directTunnel s .client (.upstream conn)

/-- The exchanges run over a QUIC transport of their own. -/
def handleQUICMITM (s : Session) : Session := s.close .client

section

variable [CaseTables]

/-- `establishUpstreamConn` with its connections: one for each handshake, closed again
unless the handshake completed. The one that is returned is the last. -/
def establish (w : World) (host : String) (rule : Rule) (dialCandidates : List String)
    (s : Session) : Except String (Nat × String) × Session :=
  let (result, run) :=
    establishUpstreamConn (withUTLS w.servers) host rule dialCandidates "" { store := w.store }
  let upstream := s.upstream ++ run.handshakes.map Attempt.completed
  (result.map fun alpn => (upstream.length - 1, alpn), { s with upstream := upstream })

/-- The candidates of `dialUpstream`. -/
def connectCandidates (w : World) (cr : ConnectResult) : List String :=
  let dialCandidates :=
    buildDialCandidates w.src cr.targetHost cr.targetAddr cr.rule cr.effectiveMode
  if dialCandidates = [] then [cr.targetAddr] else dialCandidates

def dialUpstream (w : World) (cr : ConnectResult) (s : Session) :
    Except String Dialled × Session :=
  let dialCandidates := connectCandidates w cr
  match dialFirst w.dial 0 dialCandidates "" with
  | .ok addr => (.ok ⟨dialCandidates, addr, s.upstream.length⟩, s.dial)
  | .error lastErr =>
    (.error
      (if 1 < dialCandidates.length then lastErr
        else "all upstream connect attempts failed: [" ++ join dialCandidates " " ++ "]"), s)

/-- The protocols at the two ends of a tunnel. -/
structure Protocols where
  clientALPN : String
  upstreamProtocol : String
  deriving DecidableEq, Repr

/-- The candidates of `handleMITM`: the address that answered first comes first. -/
def mitmCandidates (dialCandidates : List String) (initialDialAddr : String) : List String :=
  (if trimSpace initialDialAddr ≠ "" then [initialDialAddr] else []) ++
    dialCandidates.filter fun c => trimSpace c ≠ "" ∧ c ≠ initialDialAddr

/-- With the protocols at the two ends, if a tunnel to the upstream was reached. Without a
generator the client's connection is tunnelled to itself. -/
def handleMITM (w : World) (host : String) (rule : Rule) (dialCandidates : List String)
    (initialDialAddr : String) (s : Session) : Option Protocols × Session :=
  match w.certGenerator with
  | none => (none, directTunnel s .client .client)
  | some ca =>
    if ca.caCert = false ∨ ca.caKey = false then (none, s.close .client)
    else match establish w host rule (mitmCandidates dialCandidates initialDialAddr) s with
      | (.error _, s) => (none, s.close .client)
      | (.ok (conn, upstreamProtocol), s) =>
        let deferred := fun s : Session => s.close (.upstream conn)
        match serverHandshake w.client (nextProtosForNegotiatedALPN upstreamProtocol) with
        | .error _ => (none, deferred ((s.close .client).close (.upstream conn)))
        | .ok clientALPN =>
          (some ⟨clientALPN, upstreamProtocol⟩, deferred (directTunnel s .client (.upstream conn)))

/-- The candidates of `handleServerMITM`. -/
def serverCandidates (w : World) (rule : Rule) : List String :=
  let pool := match w.src.cfPool with
    | some getTopIPs => if rule.useCFPool then getTopIPs 5 else []
    | none => []
  let candidates := (pool.map fun ip => joinHostPort ip "443").eraseDups
  let serverAddr := joinHostPort w.serverHost "443"
  if serverAddr ∈ candidates then candidates else candidates ++ [serverAddr]

/-- The requests are served until the client is done; both connections are closed by
deferred calls, the upstream's first. -/
def handleServerMITM (w : World) (rule : Rule) (s : Session) : Session :=
  match w.certGenerator with
  | none => s.close .client
  | some _ =>
    match serverHandshake w.client ["http/1.1"] with
    | .error _ => s.close .client
    | .ok _ =>
      if w.serverHost = "" then s.close .client
      else match establish w w.serverHost rule (serverCandidates w rule) s with
        | (.error _, s) => s.close .client
        | (.ok (conn, _), s) => (s.close (.upstream conn)).close .client

def directConnect (w : World) (targetAddr : String) (s : Session) : Session :=
  match w.dialAddr targetAddr with
  | .error _ => s.error 502 "Failed to connect"
  | .ok () =>
    let conn := s.upstream.length
    match accept w.client (some conn) s.dial with
    | (false, s) => s
    | (true, s) => directTunnel s .client (.upstream conn)

/-- The modes that answer before they connect. -/
def acceptThen (w : World) (handler : Session → Session) (s : Session) : Session :=
  match accept w.client none s with
  | (false, s) => s
  | (true, s) => handler s

/-- The modes that connect first; `handler` is the mode's own, for the dialled connection. -/
def connectThen (w : World) (cr : ConnectResult)
    (handler : Dialled → Session → Ending × Session) (s : Session) : Ending × Session :=
  match dialUpstream w cr s with
  | (.error _, s) => (.returned, s.error 502 "Failed to connect to upstream")
  | (.ok dialled, s) =>
    match accept w.client (some dialled.conn) s with
    | (false, s) => (.returned, s)
    | (true, s) => handler dialled s

/-- The handler of the mode. -/
def takeOver (w : World) (cr : ConnectResult) (s : Session) : Action → Ending × Session
  | .direct => (.returned, directConnect w cr.targetAddr s)
  | .refused => (.returned, s.error 403 "Blocked by rule")
  | .server => (.returned, acceptThen w (handleServerMITM w cr.rule) s)
  | .quic => (.returned, acceptThen w handleQUICMITM s)
  | .mitm =>
    connectThen w cr (fun dialled s =>
      (.returned,
        (handleMITM w cr.targetHost cr.rule dialled.dialCandidates dialled.dialAddr s).2)) s
  | .tlsRF =>
    connectThen w cr (fun dialled => handleTLSFragment w dialled.conn cr.targetHost cr.rule) s
  | .tunnel => connectThen w cr (fun dialled s => (.returned, handleTransparent dialled.conn s)) s

def handleConnect (w : World) (urlHost reqHost : String) (rule : Rule) (s : Session) :
    Ending × Session :=
  let handled := Front.handleConnect w.router urlHost reqHost rule
  takeOver w handled.result s handled.action

/-! ## The protocols of a MITM tunnel -/

/-- The proxy can finish a TLS handshake with the client when a protocol was chosen. -/
def World.Terminates (w : World) : Prop :=
  (∃ ca, w.certGenerator = some ca ∧ ca.caCert = true ∧ ca.caKey = true) ∧ w.client.tls = .ok ()

omit [CaseTables] in
theorem serverHandshake_ok {c : Client} {nextProtos : List String} {alpn : String} :
    (serverHandshake c nextProtos).toOption = some alpn ↔
      negotiateALPN nextProtos c.alpnProtocols false = .ok alpn ∧ c.tls = .ok () := by
  unfold serverHandshake
  cases negotiateALPN nextProtos c.alpnProtocols false with
  | error err => simp [Except.toOption]
  | ok p => cases c.tls <;> simp [Except.toOption]

/-- `establish` succeeds with the protocol that `establishUpstreamConn` gives. -/
theorem establish_ok {w : World} {host : String} {rule : Rule} {dialCandidates : List String}
    {alpn : String} (s : Session)
    (h : (establishUpstreamConn (withUTLS w.servers) host rule dialCandidates ""
      { store := w.store }).1 = .ok alpn) :
    ∃ conn s', establish w host rule dialCandidates s = (.ok (conn, alpn), s') := by
  unfold establish
  generalize establishUpstreamConn (withUTLS w.servers) host rule dialCandidates ""
    { store := w.store } = outcome at h
  obtain ⟨result, run⟩ := outcome
  obtain rfl := h
  exact ⟨_, _, rfl⟩

/-- With a CA and an upstream connection, the client's handshake decides. -/
theorem handleMITM_protocols {w : World} {ca : CertGenerator} (hgen : w.certGenerator = some ca)
    (hca : ca.caCert = true ∧ ca.caKey = true) {host : String} {rule : Rule}
    {dialCandidates : List String} {initialDialAddr : String} (s : Session) {alpn : String}
    (h : (establishUpstreamConn (withUTLS w.servers) host rule
      (mitmCandidates dialCandidates initialDialAddr) "" { store := w.store }).1 = .ok alpn) :
    (handleMITM w host rule dialCandidates initialDialAddr s).1 =
      (serverHandshake w.client (nextProtosForNegotiatedALPN alpn)).toOption.map (⟨·, alpn⟩) := by
  obtain ⟨conn, s', hest⟩ := establish_ok s h
  simp only [handleMITM, hgen, hca, hest, Bool.true_eq_false, or_self, if_false]
  cases serverHandshake w.client (nextProtosForNegotiatedALPN alpn) with
  | error err => rfl
  | ok clientALPN => rfl

theorem handleMITM_none {w : World} (h : ∀ ca, w.certGenerator = some ca →
      ¬ (ca.caCert = true ∧ ca.caKey = true)) (host : String) (rule : Rule)
    (dialCandidates : List String) (initialDialAddr : String) (s : Session) :
    (handleMITM w host rule dialCandidates initialDialAddr s).1 = none := by
  unfold handleMITM
  cases hgen : w.certGenerator with
  | none => rfl
  | some ca =>
    have hca : ca.caCert = false ∨ ca.caKey = false := by
      by_contra hboth
      exact h ca hgen (by simpa using hboth)
    simp only [hca, if_true]

/-- A tunnel is reached when the upstream connection is there and the client's handshake
completes for the protocol that the upstream negotiated. -/
theorem handleMITM_tunnel {w : World} {host : String} {rule : Rule} {dialCandidates : List String}
    {initialDialAddr : String} (s : Session) {alpn : String}
    (h : (establishUpstreamConn (withUTLS w.servers) host rule
      (mitmCandidates dialCandidates initialDialAddr) "" { store := w.store }).1 = .ok alpn)
    (t : Protocols) :
    (handleMITM w host rule dialCandidates initialDialAddr s).1 = some t ↔
      w.Terminates ∧ t.upstreamProtocol = alpn ∧
        negotiateALPN (nextProtosForNegotiatedALPN alpn) w.client.alpnProtocols false =
          .ok t.clientALPN := by
  by_cases hgen : ∃ ca, w.certGenerator = some ca ∧ ca.caCert = true ∧ ca.caKey = true
  · obtain ⟨ca, hsome, hca⟩ := hgen
    have hterm : w.Terminates ↔ w.client.tls = .ok () := and_iff_right ⟨ca, hsome, hca⟩
    rw [handleMITM_protocols hsome hca s h, hterm, Option.map_eq_some_iff]
    constructor
    · rintro ⟨clientALPN, hshake, rfl⟩
      obtain ⟨hneg, htls⟩ := serverHandshake_ok.mp hshake
      exact ⟨htls, rfl, hneg⟩
    · rintro ⟨htls, rfl, hneg⟩
      exact ⟨t.clientALPN, serverHandshake_ok.mpr ⟨hneg, htls⟩, rfl⟩
  · have hnone := handleMITM_none (fun ca hsome hca => hgen ⟨ca, hsome, hca⟩) host rule
      dialCandidates initialDialAddr s
    rw [hnone]
    exact iff_of_false (by simp) fun hterm => hgen hterm.1.1

/-- **MITM tunnels.** Both ends speak the same protocol exactly when not an upstream of h2
is joined to a client that is served without h2. -/
theorem sameProtocol_iff (w : World) (host : String) (rule : Rule) (dialCandidates : List String)
    (initialDialAddr : String) (s : Session) (upstreamProtocol : String)
    (h : (establishUpstreamConn (withUTLS w.servers) host rule
      (mitmCandidates dialCandidates initialDialAddr) "" { store := w.store }).1 =
        .ok upstreamProtocol) :
    (∀ t, (handleMITM w host rule dialCandidates initialDialAddr s).1 = some t →
        (t.clientALPN = "h2" ↔ t.upstreamProtocol = "h2")) ↔
      ¬ (upstreamProtocol = "h2" ∧ ServedPlain w.client.alpnProtocols ∧ w.Terminates) := by
  have htunnel := fun t => handleMITM_tunnel s h t
  by_cases hh2 : upstreamProtocol = "h2"
  · subst hh2
    simp only [nextProtosForNegotiatedALPN_h2] at htunnel
    constructor
    · rintro hsame ⟨-, hplain, hterm⟩
      obtain ⟨alpn, hneg, hne⟩ := (negotiateALPN_h2 _).mpr hplain
      exact hne ((hsame ⟨alpn, "h2"⟩ ((htunnel _).mpr ⟨hterm, rfl, hneg⟩)).mpr rfl)
    · intro hnot t ht
      obtain ⟨hterm, hup, hneg⟩ := (htunnel t).mp ht
      refine iff_of_true (by_contra fun hne => hnot ⟨rfl, ?_, hterm⟩) hup
      exact (negotiateALPN_h2 _).mp ⟨t.clientALPN, hneg, hne⟩
  · refine iff_of_true (fun t ht => ?_) fun hbad => hh2 hbad.1
    obtain ⟨-, hup, hneg⟩ := (htunnel t).mp ht
    rw [nextProtosForNegotiatedALPN_other (establishUpstreamConn_negotiates h) hh2] at hneg
    refine iff_of_false (fun hclient => ?_) (by rwa [hup])
    rcases negotiateALPN_single hneg with hempty | hplain
    · rw [hempty] at hclient
      exact absurd hclient (by decide)
    · rw [hplain] at hclient
      exact absurd hclient (by decide)

end

/-- A request for a site whose server speaks `serverProto`, from a client with these
protocols; every step succeeds. -/
def sampleWorld (serverProto : String) (alpnProtocols : List String) : World where
  router :=
    { rules := [], regexpMatch := fun _ _ => none, autoRouter := none, autoRoutingMode := "" }
  src := {}
  servers :=
    { dohResolver := false
      cfPool := false
      certBypassMap := []
      network := fun _ =>
        { resolveECH := fun _ => .error "unused"
          dial := .ok ()
          handshake := .done serverProto
          resolveECHSafe := fun _ => .error "unused" } }
  certGenerator := some ⟨true, true⟩
  client := { alpnProtocols := alpnProtocols }
  dial := fun _ => .ok ()
  dialAddr := fun _ => .ok ()

def mitmRule : Rule := { mode := "mitm" }

theorem h2_client_sameProtocol :
    (establishUpstreamConn (withUTLS (sampleWorld "h2" ["h2", "http/1.1"]).servers) "a.example"
        mitmRule (mitmCandidates ["a.example:443"] "a.example:443") "" { store := [] }).1 =
          .ok "h2" ∧
      (handleMITM (sampleWorld "h2" ["h2", "http/1.1"]) "a.example" mitmRule ["a.example:443"]
        "a.example:443" {}).1 = some ⟨"h2", "h2"⟩ ∧
      ∀ t, (handleMITM (sampleWorld "h2" ["h2", "http/1.1"]) "a.example" mitmRule
          ["a.example:443"] "a.example:443" {}).1 = some t →
        (t.clientALPN = "h2" ↔ t.upstreamProtocol = "h2") := by
  have hest : (establishUpstreamConn (withUTLS (sampleWorld "h2" ["h2", "http/1.1"]).servers)
      "a.example" mitmRule (mitmCandidates ["a.example:443"] "a.example:443") ""
        { store := [] }).1 = .ok "h2" := by decide
  refine ⟨hest, by decide, (sameProtocol_iff _ _ _ _ _ _ _ hest).mpr ?_⟩
  rintro ⟨-, hplain, -⟩
  revert hplain
  decide

/-- An upstream of h2 joined to a client that only offers http/1.1: the client is served
without ALPN, and its requests go to a server that reads HTTP/2 frames. -/
theorem h2_upstream_http1_client :
    (handleMITM (sampleWorld "h2" ["http/1.1"]) "a.example" mitmRule ["a.example:443"]
        "a.example:443" {}).1 = some ⟨"", "h2"⟩ := by
  decide

end SniShaper.Tunnel
