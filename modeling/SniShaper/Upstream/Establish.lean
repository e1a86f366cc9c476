import SniShaper.Config.Profiles
import SniShaper.Upstream.ClientConfig

/-! The connection to the upstream: `resolveRuleECHConfig`, `establishUpstreamConn` and
`newQUICRoundTripper` of `proxy/proxy.go`.

A run is given what the network does in each attempt. It is recorded as the list of the
TLS handshakes it makes, each with the rule in force, the profile store before the
attempt and the client config.

* `establishUpstreamConn_eq`: the recursion of the source;
* `establishUpstreamConn_keeps`: the rule by which a property of every handshake of a
  run is proved. -/

namespace SniShaper.Establish

open Strings Net Config Hosts ClientConfig Profiles Candidates

variable [CaseTables]

/-! ## The source's functions -/

inductive Handshake where
  | done (negotiatedProtocol : String)
  | echRejected (err : String)
  | failed (err : String)
  deriving DecidableEq, Repr

/-- What the network does in one attempt. -/
structure Network where
  resolveECH : String → Except String (List UInt8)
  dial : Except String Unit
  handshake : Handshake
  resolveECHSafe : String → Except String (List UInt8)

/-- What a run finds: whether a resolver and a pool are set, the hosts whose
certificates are not checked, and the network in the n-th attempt. -/
structure Env where
  dohResolver : Bool
  cfPool : Bool
  certBypassMap : List String
  network : Nat → Network

def fetchECH (env : Env) (net : Network) (domain _dohURL : String) : Except String (List UInt8) :=
  if env.dohResolver then net.resolveECH domain else .error "no DoH resolver available"

/-- The stored config of the rule's profile. -/
def storedECH (rule : Rule) (store : List ECHProfile) : List UInt8 :=
  if rule.echProfileID ≠ "" then getBinaryECHConfig store rule.echProfileID else []

/-- The fetched config, empty when there is none. -/
def fetchedECH (env : Env) (net : Network) (host : String) (rule : Rule) : List UInt8 :=
  let discovery := trimSpace rule.echDiscoveryDomain
  let lookupDomain := if discovery = "" then host else discovery
  match fetchECH env net lookupDomain (trimSpace rule.echDoHUpstream) with
  | .ok echConfig => echConfig
  | .error _ => []

/-- The config and the store afterwards. -/
def resolveRuleECHConfig (env : Env) (net : Network) (host : String) (rule : Rule)
    (store : List ECHProfile) : List UInt8 × List ECHProfile :=
  if rule.echEnabled = false then ([], store)
  else if storedECH rule store ≠ [] then (storedECH rule store, store)
  else if rule.echAutoUpdate = true ∧ fetchedECH env net host rule ≠ [] then
    let echConfig := fetchedECH env net host rule
    (echConfig, if rule.echProfileID ≠ "" then sync store rule.echProfileID echConfig else store)
  else ([], store)

/-- A TLS handshake that was made. -/
structure Attempt where
  addr : String
  rule : Rule
  store : List ECHProfile
  network : Network
  config : TLSConfig

structure Report where
  ip : String
  success : Bool
  deriving DecidableEq, Repr

/-- The state of a run: the profile store, the number of attempts, the handshakes made,
the reports to the pool and the errors. -/
structure Run where
  store : List ECHProfile
  attempts : Nat := 0
  handshakes : List Attempt := []
  reports : List Report := []
  errs : List String := []

/-- The report to the pool about an address. -/
def poolReport (env : Env) (rule : Rule) (addr : String) (success : Bool) : List Report :=
  if rule.useCFPool = true ∧ env.cfPool = true then
    match splitHostPort addr with
    | .ok (h, _) => if h ≠ "" then [⟨h, success⟩] else []
    | .error _ => []
  else []

inductive Verdict where
  | connected (negotiatedProtocol : String)
  | retry
  | nextAddr
  deriving DecidableEq, Repr

/-- The arguments that do not change during one pass over the candidates. -/
structure Pass where
  host : String
  rule : Rule
  sniHost : String
  alpn : String

/-- The refresh after an ECH rejection: the new config, if it is worth a retry. -/
def refreshECH (env : Env) (net : Network) (pass : Pass) : List UInt8 :=
  let lookupDomain :=
    if pass.rule.echDiscoveryDomain = "" then pass.host else pass.rule.echDiscoveryDomain
  match net.resolveECHSafe lookupDomain with
  | .ok newECH => if env.dohResolver then newECH else []
  | .error _ => []

/-- Giving an address up. -/
def Run.giveUp (run : Run) (env : Env) (rule : Rule) (addr err : String) : Run :=
  { run with errs := run.errs ++ [err], reports := run.reports ++ poolReport env rule addr false }

/-- What follows the handshake of an attempt. -/
def afterHandshake (env : Env) (net : Network) (pass : Pass) (addr : String) (attempt : Nat)
    (run : Run) : Verdict × Run :=
  match net.handshake with
  | .done alpn =>
    (.connected alpn, { run with reports := run.reports ++ poolReport env pass.rule addr true })
  | .failed err => (.nextAddr, run.giveUp env pass.rule addr (addr ++ " utls: " ++ err))
  | .echRejected err =>
    let newECH := refreshECH env net pass
    if attempt = 0 ∧ pass.rule.echEnabled = true ∧ newECH ≠ [] then
      (.retry, { run with
        store :=
          if pass.rule.echProfileID ≠ "" then sync run.store pass.rule.echProfileID newECH
          else run.store })
    else (.nextAddr, run.giveUp env pass.rule addr (addr ++ " utls: " ++ err))

/-- One round of the inner loop: resolve the ECH config, dial, shake hands. -/
def attemptOnce (env : Env) (pass : Pass) (addr : String) (attempt : Nat) (run : Run) :
    Verdict × Run :=
  let net := env.network run.attempts
  let (echConfig, store) := resolveRuleECHConfig env net pass.host pass.rule run.store
  let next := { run with store := store, attempts := run.attempts + 1 }
  match net.dial with
  | .error err => (.nextAddr, next.giveUp env pass.rule addr (addr ++ " dial: " ++ err))
  | .ok () =>
    let config := getUConn env.certBypassMap pass.sniHost pass.host pass.rule
      (echConfig = []) pass.alpn echConfig
    let made : Attempt := ⟨addr, pass.rule, run.store, net, config⟩
    afterHandshake env net pass addr attempt { next with handshakes := next.handshakes ++ [made] }

/-- The inner loop over the attempts that are left for an address. -/
def attemptLoop (env : Env) (pass : Pass) (addr : String) : List Nat → Run → Option String × Run
  | [], run => (none, run)
  | attempt :: rest, run =>
    match attemptOnce env pass addr attempt run with
    | (.connected alpn, run) => (some alpn, run)
    | (.nextAddr, run) => (none, run)
    | (.retry, run) => attemptLoop env pass addr rest run

/-- The outer loop over the candidates. -/
def addrLoop (env : Env) (pass : Pass) : List String → Run → Option String × Run
  | [], run => (none, run)
  | addr :: rest, run =>
    match attemptLoop env pass addr [0, 1] run with
    | (some alpn, run) => (some alpn, run)
    | (none, run) => addrLoop env pass rest run

/-- The rule of the re-run, if the rule allows one. -/
def fallbackRule (rule : Rule) : Option Rule :=
  let fallback := toLower (trimSpace rule.fallbackMode)
  if (fallback = "tls-rf" ∨ fallback = "quic") ∧ fallback ≠ rule.mode then
    some { rule with mode := fallback, echEnabled := false }
  else none

/-- A re-run does not fall back again. -/
theorem fallbackRule_final {rule next : Rule} (h : fallbackRule rule = some next) :
    fallbackRule next = none := by
  unfold fallbackRule at h
  simp only at h
  split at h
  · cases h
    simp [fallbackRule]
  · cases h

/-- The arguments of the pass under a rule. -/
def passUnder (host initialALPN : String) (rule : Rule) : Pass :=
  { host := host
    rule := rule
    sniHost := chooseUpstreamSNI host rule
    alpn := if initialALPN = "" then "h2_h1" else initialALPN }

/-- One pass over the candidates, under one rule. -/
def establishPass (env : Env) (host : String) (rule : Rule) (dialCandidates : List String)
    (initialALPN : String) (run : Run) : Option String × Run :=
  let ordered := if dialCandidates = [] then [joinHostPort host "443"] else dialCandidates
  addrLoop env (passUnder host initialALPN rule) ordered { run with errs := [] }

/-- What follows a pass: the negotiated protocol, the re-run or the error. -/
def afterPass (rerun : Option (Run → Except String String × Run)) :
    Option String × Run → Except String String × Run
  | (some alpn, run) => (.ok alpn, run)
  | (none, run) =>
    if run.errs = [] then (.error "all candidates failed with unknown error", run)
    else match rerun with
      | some again => again run
      | none => (.error ("all candidates failed: " ++ join run.errs "; "), run)

/-- The source calls itself for the re-run; a re-run has none of its own, which
`establishUpstreamConn_eq` says. -/
def establishUpstreamConn (env : Env) (host : String) (rule : Rule) (dialCandidates : List String)
    (initialALPN : String) (run : Run) : Except String String × Run :=
  afterPass
    ((fallbackRule rule).map fun next run =>
      afterPass none (establishPass env host next dialCandidates initialALPN run))
    (establishPass env host rule dialCandidates initialALPN run)

theorem establishUpstreamConn_eq (env : Env) (host : String) (rule : Rule)
    (dialCandidates : List String) (initialALPN : String) (run : Run) :
    establishUpstreamConn env host rule dialCandidates initialALPN run =
      afterPass
        ((fallbackRule rule).map fun next =>
          establishUpstreamConn env host next dialCandidates initialALPN)
        (establishPass env host rule dialCandidates initialALPN run) := by
  cases h : fallbackRule rule with
  | none => simp [establishUpstreamConn, h]
  | some next =>
    have hagain : establishUpstreamConn env host next dialCandidates initialALPN = fun run =>
        afterPass none (establishPass env host next dialCandidates initialALPN run) := by
      funext run
      simp [establishUpstreamConn, fallbackRule_final h]
    rw [Option.map_some, hagain, establishUpstreamConn, h, Option.map_some]

/-- The transport of QUIC mode: where it dials and its TLS config. -/
structure QUICTransport where
  dialCandidates : List String
  tlsClientConfig : TLSConfig

def newQUICRoundTripper (env : Env) (src : Sources) (net : Network) (host : String) (rule : Rule)
    (store : List ECHProfile) : QUICTransport × List ECHProfile :=
  let targetAddr := joinHostPort host "443"
  let candidates := buildDialCandidates src host targetAddr rule "quic"
  let chosen := chooseUpstreamSNI host rule
  let sniHost := if chosen = "" then host else chosen
  let (echConfig, store) := resolveRuleECHConfig env net host rule store
  ({ dialCandidates := if candidates = [] then [targetAddr] else candidates
     tlsClientConfig :=
      { serverName := if echConfig = [] then sniHost else host
        insecureSkipVerify := echConfig = []
        encryptedClientHelloConfigList := echConfig
        nextProtos := ["h3", "h3-29", "h3-32"]
        verifyConnection :=
          if echConfig = [] then buildVerifyConnection host rule.certVerify else none } }, store)

/-! ## What holds of every handshake of a run -/

/-- The handshake was made by an attempt of the pass, from the store it records. -/
structure Pass.Makes (env : Env) (pass : Pass) (a : Attempt) : Prop where
  rule_eq : a.rule = pass.rule
  config_eq : ∃ insecure, a.config =
    getUConn env.certBypassMap pass.sniHost pass.host pass.rule insecure pass.alpn
      (resolveRuleECHConfig env a.network pass.host pass.rule a.store).1

/-- The plain SNI of a handshake under a rule. -/
def plainName (host : String) (rule : Rule) : String :=
  if chooseUpstreamSNI host rule = "" then host else chooseUpstreamSNI host rule

theorem Pass.Makes.ech_eq {env : Env} {host initialALPN : String} {r : Rule} {a : Attempt}
    (h : (passUnder host initialALPN r).Makes env a) :
    a.config.encryptedClientHelloConfigList =
      (resolveRuleECHConfig env a.network host r a.store).1 := by
  obtain ⟨_, _, hconfig⟩ := h
  rw [hconfig]
  rfl

theorem Pass.Makes.serverName_eq {env : Env} {host initialALPN : String} {r : Rule} {a : Attempt}
    (h : (passUnder host initialALPN r).Makes env a)
    (hnil : a.config.encryptedClientHelloConfigList = []) :
    a.config.serverName = plainName host r := by
  rw [h.ech_eq] at hnil
  obtain ⟨_, _, hconfig⟩ := h
  rw [hconfig]
  simp only [passUnder]
  rw [hnil, getUConn_serverName_plain]
  rfl

/-- `I` holds of the store and `P` of every handshake so far. -/
structure Run.Keeps (I : List ECHProfile → Prop) (P : Attempt → Prop) (run : Run) : Prop where
  store : I run.store
  made : ∀ a ∈ run.handshakes, P a

section Invariants

variable {I : List ECHProfile → Prop} {P : Attempt → Prop} {env : Env} {pass : Pass}
variable (hsync : ∀ store id bytes, I store → I (sync store id bytes))
variable (hmade : ∀ a, pass.Makes env a → I a.store → P a)

omit [CaseTables] in
include hsync in
theorem resolveRuleECHConfig_store (net : Network) (host : String) (rule : Rule)
    {store : List ECHProfile} (h : I store) : I (resolveRuleECHConfig env net host rule store).2 := by
  unfold resolveRuleECHConfig
  split
  · exact h
  · split
    · exact h
    · split
      · simp only
        split
        · exact hsync _ _ _ h
        · exact h
      · exact h

omit [CaseTables] in
include hsync in
theorem afterHandshake_keeps {net : Network} {addr : String} {attempt : Nat} {run : Run}
    (h : run.Keeps I P) : (afterHandshake env net pass addr attempt run).2.Keeps I P := by
  unfold afterHandshake
  split
  · exact ⟨h.store, h.made⟩
  · exact ⟨h.store, h.made⟩
  · simp only
    split
    · refine ⟨?_, h.made⟩
      simp only
      split
      · exact hsync _ _ _ h.store
      · exact h.store
    · exact ⟨h.store, h.made⟩

include hsync hmade in
theorem attemptOnce_keeps {addr : String} {attempt : Nat} {run : Run} (h : run.Keeps I P) :
    (attemptOnce env pass addr attempt run).2.Keeps I P := by
  have hstore : I (resolveRuleECHConfig env (env.network run.attempts) pass.host pass.rule
      run.store).2 := resolveRuleECHConfig_store hsync _ _ _ h.store
  unfold attemptOnce
  simp only
  split
  · exact ⟨hstore, h.made⟩
  · refine afterHandshake_keeps hsync ⟨hstore, fun a ha => ?_⟩
    rcases List.mem_append.mp ha with ha | ha
    · exact h.made a ha
    · obtain rfl := List.mem_singleton.mp ha
      exact hmade _ ⟨rfl, _, rfl⟩ h.store

include hsync hmade in
theorem attemptLoop_keeps {addr : String} {attempts : List Nat} {run : Run} (h : run.Keeps I P) :
    (attemptLoop env pass addr attempts run).2.Keeps I P := by
  induction attempts generalizing run with
  | nil => exact h
  | cons attempt rest ih =>
    have hstep : (attemptOnce env pass addr attempt run).2.Keeps I P :=
      attemptOnce_keeps hsync hmade h
    unfold attemptLoop
    split
    all_goals
      rename_i heq
      rw [heq] at hstep
    · exact hstep
    · exact hstep
    · exact ih hstep

include hsync hmade in
theorem addrLoop_keeps {addrs : List String} {run : Run} (h : run.Keeps I P) :
    (addrLoop env pass addrs run).2.Keeps I P := by
  induction addrs generalizing run with
  | nil => exact h
  | cons addr rest ih =>
    have hstep : (attemptLoop env pass addr [0, 1] run).2.Keeps I P :=
      attemptLoop_keeps hsync hmade h
    unfold addrLoop
    split
    all_goals
      rename_i heq
      rw [heq] at hstep
    · exact hstep
    · exact ih hstep

end Invariants

/-- The rules a run can have in force. -/
def InForce (rule r : Rule) : Prop := r = rule ∨ fallbackRule rule = some r

/-- The run rule of `establishUpstreamConn`: an invariant of the store that syncing
keeps, and a property of every handshake made under it by either pass. -/
theorem establishUpstreamConn_keeps {I : List ECHProfile → Prop} {P : Attempt → Prop} {env : Env}
    {host initialALPN : String} {rule : Rule} {dialCandidates : List String} {run : Run}
    (hsync : ∀ store id bytes, I store → I (sync store id bytes))
    (hmade : ∀ r, InForce rule r →
      ∀ a, (passUnder host initialALPN r).Makes env a → I a.store → P a)
    (h : run.Keeps I P) :
    (establishUpstreamConn env host rule dialCandidates initialALPN run).2.Keeps I P := by
  have hpass : ∀ r, InForce rule r → ∀ {run : Run}, run.Keeps I P →
      (establishPass env host r dialCandidates initialALPN run).2.Keeps I P := by
    intro r hr run hrun
    exact addrLoop_keeps hsync (hmade r hr) ⟨hrun.store, hrun.made⟩
  have hfirst := hpass rule (.inl rfl) h
  unfold establishUpstreamConn afterPass
  split
  · rename_i heq
    rw [heq] at hfirst
    exact hfirst
  · rename_i heq
    rw [heq] at hfirst
    split
    · exact hfirst
    · cases hf : fallbackRule rule with
      | none => exact hfirst
      | some next =>
        have hnext := hpass next (.inr hf) hfirst
        simp only [Option.map_some]
        split
        · rename_i heq'
          rw [heq'] at hnext
          exact hnext
        · rename_i heq'
          rw [heq'] at hnext
          split <;> exact hnext

end SniShaper.Establish
