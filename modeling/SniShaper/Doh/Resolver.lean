import SniShaper.Lib.Calls
import SniShaper.Upstream.Establish

/-! The calls of the DoH resolver (`proxy/doh.go`) and of the functions of
`proxy/proxy.go` it goes through: which calls each of them makes, in what order, and which
of them it waits for. What the network and the system answered is an outcome; what a call
does with an answer other than making calls is left out. -/

namespace SniShaper.Doh

open Strings Config Hosts Profiles Candidates Establish

/-- What `url.Parse` finds: the scheme, `Host` and `Hostname()`. -/
structure Url where
  scheme : String
  host : String
  hostname : String
  deriving DecidableEq, Repr

inductive QType where
  | a
  | aaaa
  | https
  deriving DecidableEq, Repr

/-- The context a call waits with: `context.Background()`, or one that ends after some
seconds. Elsewhere a context ends requests only, which is part of their outcome. -/
inductive Ctx where
  | background
  | timeout
  deriving DecidableEq, Repr

/-- The nodes and profiles the rule manager holds, `url.Parse`, and the names that
`net.LookupIP` finds an address for. -/
structure Env where
  nodes : List DNSNode
  profiles : List ECHProfile
  parseURL : String → Option Url
  system : String → Bool

/-- What a call finds out. -/
structure Outcome where
  /-- the profile updates made by then -/
  updates : List (String × List UInt8) := []
  /-- `exchange`: the primary node gave no answer -/
  primaryFailed : Bool := false
  /-- the first of the other nodes that answers, if one does -/
  answeredBy : Option Nat := none
  /-- `exchangeNodeWithRetry`: the message was packed -/
  packed : Bool := false
  /-- the transport opens a connection, before its context ends -/
  dialed : Bool := false
  /-- an HTTP URL was redirected to an HTTPS one -/
  redirected : Bool := false
  /-- `client.Do` returned an error -/
  failed : Bool := false
  /-- `ResolveECHSafe` found a config -/
  refreshed : Bool := false
  /-- `DialTLSContext`: a candidate was reached -/
  connected : Bool := false
  /-- `FetchECH` found a config -/
  fetched : Bool := false
  /-- `exchangeSafe`: how many nodes were asked -/
  asked : Nat := 0
  /-- `GetTopIPs` has an address -/
  pool : Bool := false
  deriving DecidableEq, Repr

inductive Call where
  | resolveIPAddrs (ctx : Ctx) (domain : String)
  | exchange (ctx : Ctx) (domain : String) (qtype : QType)
  | exchangeNode (node : DNSNode) (domain : String) (qtype : QType) (allowRetry : Bool)
  | getNodeClient (node : DNSNode)
  | dialTLSContext (node : DNSNode) (host : String)
  | newQUICRoundTripper (host : String) (rule : Rule)
  | buildDialCandidates (ctx : Ctx) (targetHost : String) (rule : Rule) (effectiveMode : String)
  | resolveDomainCandidates (ctx : Ctx) (host : String)
  | resolveRuleECHConfig (host : String) (rule : Rule)
  | fetchECH (ctx : Ctx) (domain : String)
  | resolveECH (ctx : Ctx) (domain : String)
  | exchangeSafe (domain : String)
  | resolveECHSafe (domain : String)
  | getDNSNodes
  | getBinaryECHConfig (profileID : String)
  | updateECHProfileConfig (profileID : String)
  deriving DecidableEq, Repr

/-- How calls are made: one that is waited for, goroutines that are all waited for, or a
goroutine that is waited for no longer than a context lasts, if at all. -/
inductive Nested where
  | call (c : Call)
  | all (cs : List Call)
  | spawn (c : Call)
  deriving DecidableEq, Repr

def Nested.calls : Nested → List Call
  | .call c => [c]
  | .all cs => cs
  | .spawn c => [c]

/-! ## What the functions decide on -/

/-- The rule of a node. -/
def nodeRule (node : DNSNode) (host : String) : Rule :=
  { sniFake := if node.sni = "" then host else node.sni
    sniPolicy := if node.sni = "" then "upstream" else "fake"
    echEnabled := node.echEnabled
    echProfileID := node.echProfileID
    certVerify := node.certVerify
    echAutoUpdate := node.echAutoUpdate }

def activeNodes (nodes : List DNSNode) : List DNSNode := nodes.filter (·.enabled)

theorem mem_activeNodes {nodes : List DNSNode} {n : DNSNode} :
    n ∈ activeNodes nodes ↔ n ∈ nodes ∧ n.enabled = true := by
  simp [activeNodes]

def safeNodes (nodes : List DNSNode) : List DNSNode :=
  nodes.filter fun n => n.enabled && !n.echEnabled

/-- The transport sends requests to the URL, over TLS. -/
def dialsTLS (u : Url) (redirected : Bool) : Bool :=
  u.host ≠ "" && (u.scheme = "https" || u.scheme = "http" && redirected)

/-- The profiles as they are when the call looks at them. -/
def Outcome.seen (o : Outcome) (profiles : List ECHProfile) : List ECHProfile :=
  o.updates.foldl (fun profiles u => sync profiles u.1 u.2) profiles

/-- The domain whose config a rule asks for. -/
def lookupDomain (host : String) (rule : Rule) : String :=
  if trimSpace rule.echDiscoveryDomain = "" then host else trimSpace rule.echDiscoveryDomain

/-- The race of `exchange`. It receives reports until a node has answered, all have
reported, or its context has ended; the background context never ends. -/
def race (o : Outcome) : Ctx → List Call → List Nested
  | .timeout, cs => cs.map .spawn
  | .background, cs =>
    match o.answeredBy with
    | none => [.all cs]
    | some i => (cs.eraseIdx i).map .spawn ++ [.all cs[i]?.toList]

theorem flatMap_spawn (cs : List Call) : (cs.map Nested.spawn).flatMap Nested.calls = cs := by
  simp [List.flatMap_map, Nested.calls]

/-- Every node takes part in the race, whoever is waited for. -/
theorem race_perm (o : Outcome) (ctx : Ctx) (cs : List Call) :
    ((race o ctx cs).flatMap Nested.calls).Perm cs := by
  cases ctx with
  | timeout => rw [race, flatMap_spawn]
  | background =>
    cases hi : o.answeredBy with
    | none => simp [race, hi, Nested.calls]
    | some i =>
      simp only [race, hi, List.flatMap_append, flatMap_spawn, List.flatMap_cons, List.flatMap_nil,
        List.append_nil, Nested.calls]
      by_cases hlt : i < cs.length
      · rw [List.getElem?_eq_getElem hlt]
        exact List.perm_append_comm.trans (List.getElem_cons_eraseIdx_perm hlt)
      · rw [List.getElem?_eq_none (by omega), List.eraseIdx_of_length_le (by omega)]
        simp

/-- A failed request to an ECH node: its config is fetched from the nodes without ECH,
and the request is made again. -/
def refresh (o : Outcome) (node : DNSNode) (host domain : String) (qtype : QType) : List Nested :=
  .call (.resolveECHSafe host) ::
    if o.refreshed = true then
      (if node.echProfileID ≠ "" then [.call (.updateECHProfileConfig node.echProfileID)] else []) ++
        [.call (.exchangeNode node domain qtype false)]
    else []

theorem refresh_calls {o : Outcome} {node : DNSNode} {host domain : String} {qtype : QType}
    {n : Nested} {c : Call} (hn : n ∈ refresh o node host domain qtype) (hc : c ∈ n.calls) :
    c = .resolveECHSafe host ∨ c = .updateECHProfileConfig node.echProfileID ∨
      c = .exchangeNode node domain qtype false := by
  rcases List.mem_cons.mp hn with rfl | hn
  · exact .inl (List.mem_singleton.mp hc)
  · split at hn
    · rcases List.mem_append.mp hn with hn | hn
      · split at hn
        · rw [List.mem_singleton.mp hn] at hc
          exact .inr (.inl (List.mem_singleton.mp hc))
        · simp at hn
      · rw [List.mem_singleton.mp hn] at hc
        exact .inr (.inr (List.mem_singleton.mp hc))
    · simp at hn

section

variable [CaseTables]

/-- The loop filter of `ResolveIPAddrs`. -/
def isDoHNode (env : Env) (domain : String) : Bool :=
  env.nodes.any fun n =>
    match env.parseURL n.url with
    | none => false
    | some u => equalFold u.hostname domain || equalFold u.hostname (trimSuffix domain ".")

/-- The host `buildDialCandidates` looks up, if it does. -/
def lookupHost (pool : Bool) (targetHost : String) (rule : Rule) (effectiveMode : String) :
    Option String :=
  let resolvedUpstream := resolveRuleUpstream targetHost rule
  if equalFold (trimSpace rule.upstream) "warp" then some targetHost
  else if resolvesTarget effectiveMode then
    if trimSpace resolvedUpstream ≠ "" then
      if splitUpstreamCandidates targetHost resolvedUpstream "443" = [] then none
      else
        let firstHost := firstUpstreamHost targetHost resolvedUpstream
        if firstHost ≠ "" ∧ isLiteralIP firstHost = false then some firstHost else none
    else if rule.useCFPool = true ∧ pool = true then none
    else some targetHost
  else none

/-! ## The calls -/

/-- The calls that a call makes. -/
def nested (env : Env) (o : Outcome) : Call → List Nested
  | .resolveIPAddrs ctx domain =>
    .call .getDNSNodes ::
      if isDoHNode env domain = true ∧ env.system domain = true then []
      else [.all [.exchange ctx domain .a, .exchange ctx domain .aaaa]]
  | .exchange ctx domain qtype =>
    .call .getDNSNodes ::
      match activeNodes env.nodes with
      | [] => []
      | primary :: rest =>
        .call (.exchangeNode primary domain qtype true) ::
          if o.primaryFailed = true then
            race o ctx (rest.map fun n => .exchangeNode n domain qtype true)
          else []
  | .exchangeNode node domain qtype allowRetry =>
    .call (.getNodeClient node) ::
      match env.parseURL node.url with
      | none => []
      | some u =>
        if o.packed = false then []
        else
          (if node.quic = false ∧ o.dialed = true ∧ dialsTLS u o.redirected = true then
            [.spawn (.dialTLSContext node u.hostname)]
          else []) ++
          if o.failed = true ∧ allowRetry = true ∧ node.echEnabled = true ∧
              node.echAutoUpdate = true then
            refresh o node u.hostname domain qtype
          else []
  | .getNodeClient node =>
    match env.parseURL node.url with
    | none => []
    | some u =>
      if node.quic = true then [.call (.newQUICRoundTripper u.hostname (nodeRule node u.hostname))]
      else []
  | .dialTLSContext node host =>
    if o.connected = true then [.call (.resolveRuleECHConfig host (nodeRule node host))] else []
  | .newQUICRoundTripper host rule =>
    .call (.buildDialCandidates .background host rule "quic") ::
      if rule.echEnabled = true then [.call (.resolveRuleECHConfig host rule)] else []
  | .buildDialCandidates ctx targetHost rule effectiveMode =>
    match lookupHost o.pool targetHost rule effectiveMode with
    | some host => [.call (.resolveDomainCandidates ctx host)]
    | none => []
  | .resolveDomainCandidates ctx host =>
    if normalizeHost host = "" ∨ isLiteralIP (normalizeHost host) = true then []
    else [.call (.resolveIPAddrs ctx (normalizeHost host))]
  | .resolveRuleECHConfig host rule =>
    if rule.echEnabled = false then []
    else
      (if rule.echProfileID ≠ "" then [.call (.getBinaryECHConfig rule.echProfileID)] else []) ++
      if storedECH rule (o.seen env.profiles) = [] ∧ rule.echAutoUpdate = true then
        .call (.fetchECH .timeout (lookupDomain host rule)) ::
          if o.fetched = true ∧ rule.echProfileID ≠ "" then
            [.call (.updateECHProfileConfig rule.echProfileID)]
          else []
      else []
  | .fetchECH ctx domain => [.call (.resolveECH ctx domain)]
  | .resolveECH ctx domain => [.call (.exchange ctx domain .https)]
  | .resolveECHSafe domain => [.call (.exchangeSafe domain)]
  | .exchangeSafe domain =>
    .call .getDNSNodes ::
      ((safeNodes env.nodes).take o.asked).map fun n => .call (.exchangeNode n domain .https false)
  | .getDNSNodes => []
  | .getBinaryECHConfig _ => []
  | .updateECHProfileConfig _ => []

def calls (env : Env) (o : Outcome) (c : Call) : List Call :=
  (nested env o c).flatMap Nested.calls

/-! ## What each call makes -/

theorem mem_calls {env : Env} {o : Outcome} {c c' : Call} :
    c' ∈ calls env o c ↔ ∃ n ∈ nested env o c, c' ∈ n.calls := by
  simp [calls]

theorem mem_calls_of_call {env : Env} {o : Outcome} {c c' : Call}
    (h : .call c' ∈ nested env o c) : c' ∈ calls env o c :=
  mem_calls.mpr ⟨.call c', h, List.mem_singleton_self c'⟩

theorem mem_calls_of_spawn {env : Env} {o : Outcome} {c c' : Call}
    (h : .spawn c' ∈ nested env o c) : c' ∈ calls env o c :=
  mem_calls.mpr ⟨.spawn c', h, List.mem_singleton_self c'⟩

/-- The loop filter hands the lookup to the system resolver, which knows the name. -/
def Answered (env : Env) (domain : String) : Prop :=
  isDoHNode env domain = true ∧ env.system domain = true

instance (env : Env) (domain : String) : Decidable (Answered env domain) :=
  inferInstanceAs (Decidable (_ ∧ _))

theorem resolveIPAddrs_calls (env : Env) (o : Outcome) (ctx : Ctx) (domain : String) :
    calls env o (.resolveIPAddrs ctx domain) =
      .getDNSNodes :: if Answered env domain then []
        else [.exchange ctx domain .a, .exchange ctx domain .aaaa] := by
  unfold Answered
  by_cases h : isDoHNode env domain = true ∧ env.system domain = true
  · simp [calls, nested, h, Nested.calls]
  · simp [calls, nested, h, Nested.calls]

/-- `exchange` asks nodes in use, each once. -/
theorem exchange_calls (env : Env) (o : Outcome) (ctx : Ctx) (domain : String) (qtype : QType) :
    ∃ asked, asked.Sublist (activeNodes env.nodes) ∧
      (o.primaryFailed = true → asked = activeNodes env.nodes) ∧
      (calls env o (.exchange ctx domain qtype)).Perm
        (.getDNSNodes :: asked.map fun n => .exchangeNode n domain qtype true) := by
  simp only [calls, nested]
  generalize activeNodes env.nodes = active
  cases active with
  | nil => exact ⟨[], .slnil, fun _ => rfl, .rfl⟩
  | cons primary rest =>
    by_cases ho : o.primaryFailed = true
    · refine ⟨primary :: rest, .refl _, fun _ => rfl, ?_⟩
      simp only [ho, if_true, List.flatMap_cons, List.map_cons, Nested.calls,
        List.singleton_append]
      exact ((race_perm o ctx _).cons _).cons _
    · exact ⟨[primary], (List.nil_sublist rest).cons_cons primary, fun h => absurd h ho,
        by simp [ho, Nested.calls]⟩

theorem mem_exchange_calls {env : Env} {o : Outcome} {ctx : Ctx} {domain : String}
    {qtype : QType} {c : Call} (h : c ∈ calls env o (.exchange ctx domain qtype)) :
    c = .getDNSNodes ∨ ∃ n ∈ activeNodes env.nodes, c = .exchangeNode n domain qtype true := by
  obtain ⟨asked, hsub, -, hperm⟩ := exchange_calls env o ctx domain qtype
  rcases List.mem_cons.mp (hperm.mem_iff.mp h) with rfl | hmem
  · exact .inl rfl
  · obtain ⟨n, hn, rfl⟩ := List.mem_map.mp hmem
    exact .inr ⟨n, hsub.subset hn, rfl⟩

/-- With no answer of the primary node, `exchange` asks every node in use. -/
theorem exchange_asks {env : Env} {o : Outcome} (ho : o.primaryFailed = true) {ctx : Ctx}
    {domain : String} {qtype : QType} {n : DNSNode} (hn : n ∈ activeNodes env.nodes) :
    .exchangeNode n domain qtype true ∈ calls env o (.exchange ctx domain qtype) := by
  obtain ⟨asked, -, hall, hperm⟩ := exchange_calls env o ctx domain qtype
  rw [hperm.mem_iff, hall ho]
  exact List.mem_cons_of_mem _ (List.mem_map_of_mem hn)

theorem exchangeNode_calls {env : Env} {o : Outcome} {node : DNSNode} {domain : String}
    {qtype : QType} {allowRetry : Bool} {c : Call}
    (h : c ∈ calls env o (.exchangeNode node domain qtype allowRetry)) :
    c = .getNodeClient node ∨
      ∃ u, env.parseURL node.url = some u ∧
        (c = .dialTLSContext node u.hostname ∧ node.quic = false ∧
            dialsTLS u o.redirected = true ∨
          allowRetry = true ∧ (c = .resolveECHSafe u.hostname ∨
            c = .updateECHProfileConfig node.echProfileID ∨
            c = .exchangeNode node domain qtype false)) := by
  obtain ⟨n, hn, hc⟩ := mem_calls.mp h
  simp only [nested, List.mem_cons] at hn
  rcases hn with rfl | hn
  · exact .inl (List.mem_singleton.mp hc)
  · right
    cases hu : env.parseURL node.url with
    | none => simp [hu] at hn
    | some u =>
      refine ⟨u, rfl, ?_⟩
      simp only [hu] at hn
      split at hn
      · simp at hn
      · rcases List.mem_append.mp hn with hn | hn
        · split at hn
          · rename_i hdial
            rw [List.mem_singleton.mp hn] at hc
            exact .inl ⟨List.mem_singleton.mp hc, hdial.1, hdial.2.2⟩
          · simp at hn
        · split at hn
          · rename_i hretry
            exact .inr ⟨hretry.2.1, refresh_calls hn hc⟩
          · simp at hn

theorem getNodeClient_calls {env : Env} {o : Outcome} {node : DNSNode} {c : Call}
    (h : c ∈ calls env o (.getNodeClient node)) :
    ∃ u, env.parseURL node.url = some u ∧ node.quic = true ∧
      c = .newQUICRoundTripper u.hostname (nodeRule node u.hostname) := by
  obtain ⟨n, hn, hc⟩ := mem_calls.mp h
  simp only [nested] at hn
  cases hu : env.parseURL node.url with
  | none => simp [hu] at hn
  | some u =>
    simp only [hu] at hn
    split at hn
    · rename_i hquic
      rw [List.mem_singleton.mp hn] at hc
      exact ⟨u, rfl, hquic, List.mem_singleton.mp hc⟩
    · simp at hn

theorem dialTLSContext_calls {env : Env} {o : Outcome} {node : DNSNode}
    {host : String} {c : Call} (h : c ∈ calls env o (.dialTLSContext node host)) :
    c = .resolveRuleECHConfig host (nodeRule node host) := by
  obtain ⟨n, hn, hc⟩ := mem_calls.mp h
  simp only [nested] at hn
  split at hn
  · rw [List.mem_singleton.mp hn] at hc
    exact List.mem_singleton.mp hc
  · simp at hn

theorem newQUICRoundTripper_calls {env : Env} {o : Outcome} {host : String} {rule : Rule}
    {c : Call} (h : c ∈ calls env o (.newQUICRoundTripper host rule)) :
    c = .buildDialCandidates .background host rule "quic" ∨ c = .resolveRuleECHConfig host rule := by
  obtain ⟨n, hn, hc⟩ := mem_calls.mp h
  simp only [nested, List.mem_cons] at hn
  rcases hn with rfl | hn
  · exact .inl (List.mem_singleton.mp hc)
  · split at hn
    · rw [List.mem_singleton.mp hn] at hc
      exact .inr (List.mem_singleton.mp hc)
    · simp at hn

theorem resolveDomainCandidates_calls {env : Env} {o : Outcome} {ctx : Ctx} {host : String}
    {c : Call} (h : c ∈ calls env o (.resolveDomainCandidates ctx host)) :
    ¬ (normalizeHost host = "" ∨ isLiteralIP (normalizeHost host) = true) ∧
      c = .resolveIPAddrs ctx (normalizeHost host) := by
  obtain ⟨n, hn, hc⟩ := mem_calls.mp h
  simp only [nested] at hn
  split at hn
  · simp at hn
  · rename_i hname
    rw [List.mem_singleton.mp hn] at hc
    exact ⟨hname, List.mem_singleton.mp hc⟩

theorem resolveRuleECHConfig_calls {env : Env} {o : Outcome} {host : String}
    {rule : Rule} {c : Call} (h : c ∈ calls env o (.resolveRuleECHConfig host rule)) :
    (∃ id, c = .getBinaryECHConfig id) ∨ (∃ id, c = .updateECHProfileConfig id) ∨
      c = .fetchECH .timeout (lookupDomain host rule) ∧ rule.echEnabled = true ∧
        storedECH rule (o.seen env.profiles) = [] ∧ rule.echAutoUpdate = true := by
  obtain ⟨n, hn, hc⟩ := mem_calls.mp h
  simp only [nested] at hn
  split at hn
  · simp at hn
  · rename_i hech
    rcases List.mem_append.mp hn with hn | hn
    · split at hn
      · rw [List.mem_singleton.mp hn] at hc
        exact .inl ⟨_, List.mem_singleton.mp hc⟩
      · simp at hn
    · split at hn
      · rename_i hfetch
        rcases List.mem_cons.mp hn with rfl | hn
        · refine .inr (.inr ⟨List.mem_singleton.mp hc, by simpa using hech, hfetch⟩)
        · split at hn
          · rw [List.mem_singleton.mp hn] at hc
            exact .inr (.inl ⟨_, List.mem_singleton.mp hc⟩)
          · simp at hn
      · simp at hn

theorem exchangeSafe_calls_eq (env : Env) (o : Outcome) (domain : String) :
    calls env o (.exchangeSafe domain) = .getDNSNodes ::
      ((safeNodes env.nodes).take o.asked).map fun n => .exchangeNode n domain .https false := by
  simp only [calls, nested, List.flatMap_cons, Nested.calls, List.singleton_append,
    List.flatMap_map]
  rw [← List.map_eq_flatMap]

theorem exchangeSafe_calls {env : Env} {o : Outcome} {domain : String} {c : Call}
    (h : c ∈ calls env o (.exchangeSafe domain)) :
    c = .getDNSNodes ∨ ∃ n ∈ activeNodes env.nodes, c = .exchangeNode n domain .https false := by
  rw [exchangeSafe_calls_eq] at h
  rcases List.mem_cons.mp h with rfl | hasked
  · exact .inl rfl
  · obtain ⟨m, hm, rfl⟩ := List.mem_map.mp hasked
    have hsafe := List.mem_filter.mp (List.mem_of_mem_take hm)
    simp only [Bool.and_eq_true] at hsafe
    exact .inr ⟨m, mem_activeNodes.mpr ⟨hsafe.1, hsafe.2.1⟩, rfl⟩

end

/-- A stored config stays usable, whatever was updated. -/
theorem seen_ne_nil {profiles : List ECHProfile} {id : String}
    (h : getBinaryECHConfig profiles id ≠ []) (o : Outcome) :
    getBinaryECHConfig (o.seen profiles) id ≠ [] := by
  unfold Outcome.seen
  induction o.updates generalizing profiles with
  | nil => exact h
  | cons u us ih => exact ih (getBinaryECHConfig_sync_ne_nil h u.1 u.2)

end SniShaper.Doh
