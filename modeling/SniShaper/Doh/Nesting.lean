import SniShaper.Doh.Resolver

/-! Nodes that need themselves. The ECH config of a node is fetched through the nodes when
it is not stored (`DialTLSContext` or `newQUICRoundTripper`, then `resolveRuleECHConfig`,
`FetchECH`, `ResolveECH`, `exchange`), and the host of a QUIC node is looked up through the
nodes when the system does not know it (`newQUICRoundTripper`, `buildDialCandidates`,
`resolveDomainCandidates`, `ResolveIPAddrs`, `exchange`).

* `ours_step`: if no node in use needs itself, every call has a larger rank than the calls
  it makes;
* `NeedsItself.leads`: if one does, `exchange` comes back to `exchange` while a connection to
  the node is being set up, so such connections are set up without end
  (`NeedsItself.unbounded`). -/

namespace SniShaper.Doh

open Strings Config Hosts Profiles Candidates Establish

/-- A node in use that fetches its own config when it is connected to. -/
def FetchesOwnConfig (env : Env) (node : DNSNode) : Prop :=
  node.enabled = true ∧ node.echEnabled = true ∧ node.echAutoUpdate = true ∧
    (node.echProfileID = "" ∨ getBinaryECHConfig env.profiles node.echProfileID = []) ∧
    ∃ u, env.parseURL node.url = some u ∧ (node.quic = true ∨ dialsTLS u true = true)

section

variable [CaseTables]

/-- A QUIC node in use whose host is looked up through the nodes. -/
def LooksUpItself (env : Env) (node : DNSNode) : Prop :=
  node.enabled = true ∧ node.quic = true ∧
    ∃ u, env.parseURL node.url = some u ∧ normalizeHost u.hostname ≠ "" ∧
      isLiteralIP (normalizeHost u.hostname) = false ∧ ¬ Answered env (normalizeHost u.hostname)

def NeedsItself (env : Env) (node : DNSNode) : Prop :=
  FetchesOwnConfig env node ∨ LooksUpItself env node

end

/-! ## The rule of a node -/

theorem dialsTLS_true {u : Url} {redirected : Bool} (h : dialsTLS u redirected = true) :
    dialsTLS u true = true := by
  simp only [dialsTLS, Bool.and_eq_true, Bool.or_eq_true] at h ⊢
  exact ⟨h.1, h.2.imp_right fun h => ⟨h.1, trivial⟩⟩

theorem storedECH_nodeRule_ne_nil {profiles : List ECHProfile} {node : DNSNode} {host : String}
    (hid : node.echProfileID ≠ "") (h : getBinaryECHConfig profiles node.echProfileID ≠ [])
    (o : Outcome) : storedECH (nodeRule node host) (o.seen profiles) ≠ [] := by
  simp only [storedECH, nodeRule, hid, ne_eq, not_false_eq_true, if_true]
  exact seen_ne_nil h o

theorem lookupDomain_nodeRule (node : DNSNode) (host : String) :
    lookupDomain host (nodeRule node host) = host := by
  have : trimSpace "" = "" := by decide
  simp [lookupDomain, nodeRule, this]

section

variable [CaseTables]

theorem resolveRuleUpstream_blank {rule : Rule} (host : String) (hu : rule.upstream = "")
    (hs : rule.upstreams = []) : resolveRuleUpstream host rule = "" := by
  have htrim : trimSpace "" = "" := by decide
  have hplain : resolveUpstreamHost host "" = "" := resolveUpstreamHost_plain host (by simp)
  have hlow : toLower "" = "" := rfl
  have hvar : hasPrefix "" "$" = false := by decide
  have hbackend : hasPrefix "" "$backend_ip" = false := by decide
  have hhost : hasPrefix "" "$upstream_host" = false := by decide
  simp [resolveRuleUpstream, hu, hs, hplain, htrim, hlow, hvar, hbackend, hhost]

/-- The rule of a node names no upstream, so the node's own host is looked up. -/
theorem lookupHost_nodeRule (pool : Bool) (host : String) (node : DNSNode) (name : String) :
    lookupHost pool host (nodeRule node name) "quic" = some host := by
  have htrim : trimSpace "" = "" := by decide
  have hwarp : equalFold "" "warp" = false := by simp [equalFold]
  have hupstream : (nodeRule node name).upstream = "" := rfl
  have hpool : (nodeRule node name).useCFPool = false := rfl
  have hresolved : resolveRuleUpstream host (nodeRule node name) = "" :=
    resolveRuleUpstream_blank host hupstream rfl
  simp [lookupHost, hupstream, hpool, hresolved, htrim, hwarp, resolvesTarget]

theorem buildDialCandidates_calls (env : Env) (o : Outcome) (ctx : Ctx) (host : String)
    (node : DNSNode) : calls env o (.buildDialCandidates ctx host (nodeRule node host) "quic") =
      [.resolveDomainCandidates ctx host] := by
  simp [calls, nested, lookupHost_nodeRule, Nested.calls]

/-! ## No node needs itself -/

/-- A call that is made for a query or a lookup: its nodes are in use. With no node that
needs itself, no config is fetched. -/
def Ours (env : Env) : Call → Prop
  | .resolveIPAddrs _ _ => True
  | .exchange _ _ _ => True
  | .exchangeNode node _ _ _ => node ∈ activeNodes env.nodes
  | .getNodeClient node => node ∈ activeNodes env.nodes
  | .dialTLSContext node host => node ∈ activeNodes env.nodes ∧
      ∃ u, env.parseURL node.url = some u ∧ dialsTLS u true = true ∧ host = u.hostname
  | .newQUICRoundTripper host rule => ∃ node ∈ activeNodes env.nodes, node.quic = true ∧
      rule = nodeRule node host ∧ ∃ u, env.parseURL node.url = some u ∧ host = u.hostname
  | .buildDialCandidates _ host rule mode => ∃ node ∈ activeNodes env.nodes, node.quic = true ∧
      rule = nodeRule node host ∧ mode = "quic" ∧
      ∃ u, env.parseURL node.url = some u ∧ host = u.hostname
  | .resolveDomainCandidates _ host => ∃ node ∈ activeNodes env.nodes, node.quic = true ∧
      ∃ u, env.parseURL node.url = some u ∧ host = u.hostname
  | .resolveRuleECHConfig host rule => ∃ node ∈ activeNodes env.nodes, rule = nodeRule node host ∧
      ∃ u, env.parseURL node.url = some u ∧ (node.quic = true ∨ dialsTLS u true = true)
  | .fetchECH _ _ => False
  | .resolveECH _ _ => False
  | .exchangeSafe _ => True
  | .resolveECHSafe _ => True
  | .getDNSNodes => True
  | .getBinaryECHConfig _ => True
  | .updateECHProfileConfig _ => True

/-- A refresh goes through `exchangeSafe`, which asks without a further refresh. -/
def rank (env : Env) : Call → Nat
  | .resolveIPAddrs _ domain => if Answered env domain then 1 else 11
  | .exchange _ _ _ => 10
  | .exchangeNode _ _ _ true => 9
  | .resolveECHSafe _ => 8
  | .exchangeSafe _ => 7
  | .exchangeNode _ _ _ false => 6
  | .getNodeClient _ => 5
  | .dialTLSContext _ _ => 5
  | .newQUICRoundTripper _ _ => 4
  | .buildDialCandidates _ _ _ _ => 3
  | .resolveDomainCandidates _ _ => 2
  | .resolveRuleECHConfig _ _ => 1
  | _ => 0

theorem rank_exchangeNode_pos (env : Env) (node : DNSNode) (domain : String) (qtype : QType)
    (allowRetry : Bool) : 6 ≤ rank env (.exchangeNode node domain qtype allowRetry) := by
  cases allowRetry <;> simp [rank]

/-- The host of a QUIC node in use is answered by the system. -/
theorem answered_of_ours {env : Env} (h : ∀ node ∈ env.nodes, ¬ NeedsItself env node) {ctx : Ctx}
    {host : String} (hc : Ours env (.resolveDomainCandidates ctx host))
    (hname : ¬ (normalizeHost host = "" ∨ isLiteralIP (normalizeHost host) = true)) :
    Answered env (normalizeHost host) := by
  obtain ⟨node, hmem, hquic, u, hu, rfl⟩ := hc
  obtain ⟨hnode, henabled⟩ := mem_activeNodes.mp hmem
  push Not at hname
  by_contra hans
  exact h node hnode (.inr ⟨henabled, hquic, u, hu, hname.1, by simpa using hname.2, hans⟩)

/-- The config of a node in use is stored, or it is not fetched. -/
theorem not_fetched_of_ours {env : Env} (h : ∀ node ∈ env.nodes, ¬ NeedsItself env node)
    {o : Outcome} {host : String} {rule : Rule} (hc : Ours env (.resolveRuleECHConfig host rule))
    {c : Call} (hc' : c ∈ calls env o (.resolveRuleECHConfig host rule)) :
    (∃ id, c = .getBinaryECHConfig id) ∨ ∃ id, c = .updateECHProfileConfig id := by
  obtain ⟨node, hmem, rfl, u, hu, hdial⟩ := hc
  obtain ⟨hnode, henabled⟩ := mem_activeNodes.mp hmem
  rcases resolveRuleECHConfig_calls hc' with hget | hupdate | ⟨rfl, hech, hstored, hauto⟩
  · exact .inl hget
  · exact .inr hupdate
  · refine absurd (.inl ⟨henabled, hech, hauto, ?_, u, hu, hdial⟩) (h node hnode)
    by_contra hnone
    push Not at hnone
    exact storedECH_nodeRule_ne_nil hnone.1 hnone.2 o hstored

theorem ours_step {env : Env} (h : ∀ node ∈ env.nodes, ¬ NeedsItself env node) (o : Outcome)
    (c c' : Call) (hc : Ours env c) (hc' : c' ∈ calls env o c) :
    Ours env c' ∧ rank env c' < rank env c := by
  cases c with
  | resolveIPAddrs ctx domain =>
    rw [resolveIPAddrs_calls] at hc'
    rcases List.mem_cons.mp hc' with rfl | hc'
    · refine ⟨trivial, ?_⟩
      simp only [rank]
      split <;> omega
    · split at hc'
      · simp at hc'
      · rename_i hans
        rcases List.mem_pair.mp hc' with rfl | rfl
        · exact ⟨trivial, by simp [rank, hans]⟩
        · exact ⟨trivial, by simp [rank, hans]⟩
  | exchange ctx domain qtype =>
    rcases mem_exchange_calls hc' with rfl | ⟨n, hn, rfl⟩
    · exact ⟨trivial, by simp [rank]⟩
    · exact ⟨hn, by simp [rank]⟩
  | exchangeNode node domain qtype allowRetry =>
    have hpos := rank_exchangeNode_pos env node domain qtype allowRetry
    rcases exchangeNode_calls hc' with rfl | ⟨u, hu, ⟨rfl, -, hdial⟩ | ⟨rfl, hretry⟩⟩
    · exact ⟨hc, by simp only [rank] at hpos ⊢; omega⟩
    · exact ⟨⟨hc, u, hu, dialsTLS_true hdial, rfl⟩, by simp only [rank] at hpos ⊢; omega⟩
    · rcases hretry with rfl | rfl | rfl
      · exact ⟨trivial, by simp [rank]⟩
      · exact ⟨trivial, by simp [rank]⟩
      · exact ⟨hc, by simp [rank]⟩
  | getNodeClient node =>
    obtain ⟨u, hu, hquic, rfl⟩ := getNodeClient_calls hc'
    exact ⟨⟨node, hc, hquic, rfl, u, hu, rfl⟩, by simp [rank]⟩
  | dialTLSContext node host =>
    obtain ⟨hmem, u, hu, hdial, rfl⟩ := hc
    obtain rfl := dialTLSContext_calls hc'
    exact ⟨⟨node, hmem, rfl, u, hu, .inr hdial⟩, by simp [rank]⟩
  | newQUICRoundTripper host rule =>
    obtain ⟨node, hmem, hquic, rfl, u, hu, rfl⟩ := hc
    rcases newQUICRoundTripper_calls hc' with rfl | rfl
    · exact ⟨⟨node, hmem, hquic, rfl, rfl, u, hu, rfl⟩, by simp [rank]⟩
    · exact ⟨⟨node, hmem, rfl, u, hu, .inl hquic⟩, by simp [rank]⟩
  | buildDialCandidates ctx host rule mode =>
    obtain ⟨node, hmem, hquic, rfl, rfl, hu⟩ := hc
    rw [buildDialCandidates_calls, List.mem_singleton] at hc'
    subst hc'
    exact ⟨⟨node, hmem, hquic, hu⟩, by simp [rank]⟩
  | resolveDomainCandidates ctx host =>
    obtain ⟨hname, rfl⟩ := resolveDomainCandidates_calls hc'
    exact ⟨trivial, by simp [rank, answered_of_ours h hc hname]⟩
  | resolveRuleECHConfig host rule =>
    rcases not_fetched_of_ours h hc hc' with ⟨id, rfl⟩ | ⟨id, rfl⟩
    · exact ⟨trivial, by simp [rank]⟩
    · exact ⟨trivial, by simp [rank]⟩
  | fetchECH ctx domain => exact hc.elim
  | resolveECH ctx domain => exact hc.elim
  | resolveECHSafe domain =>
    obtain rfl := List.mem_singleton.mp hc'
    exact ⟨trivial, by simp [rank]⟩
  | exchangeSafe domain =>
    rcases exchangeSafe_calls hc' with rfl | ⟨n, hn, rfl⟩
    · exact ⟨trivial, by simp [rank]⟩
    · exact ⟨hn, by simp [rank]⟩
  | getDNSNodes => exact absurd hc' List.not_mem_nil
  | getBinaryECHConfig id => exact absurd hc' List.not_mem_nil
  | updateECHProfileConfig id => exact absurd hc' List.not_mem_nil

/-! ## A node needs itself -/

/-- A connection to a node is being set up: the dialer of its transport runs, or its round
tripper is made. -/
def setsUp : Call → Option DNSNode
  | .dialTLSContext node _ => some node
  | .getNodeClient node => if node.quic = true then some node else none
  | _ => none

/-- Nodes that can be connected to but do not answer. -/
def reachable : Outcome :=
  { primaryFailed := true, packed := true, dialed := true, redirected := true, connected := true }

/-- A chain of calls from `c` to `c'` in which a connection to the node is being set up. -/
def Leads (env : Env) (node : DNSNode) (c c' : Call) : Prop :=
  ∃ between, Calls.Stack (calls env) (fun _ => reachable) c (c' :: (between ++ [c])) ∧
    ∃ a ∈ between, setsUp a = some node

/-- Without a stored config, the rule of a node leads to a query. -/
theorem fetch_stack {env : Env} {node : DNSNode} {c : Call} {t : List Call}
    (hech : node.echEnabled = true) (hauto : node.echAutoUpdate = true)
    (hstored : node.echProfileID = "" ∨ getBinaryECHConfig env.profiles node.echProfileID = [])
    {host : String} (h : Calls.Stack (calls env) (fun _ => reachable) c
      (.resolveRuleECHConfig host (nodeRule node host) :: t)) :
    Calls.Stack (calls env) (fun _ => reachable) c
      (.exchange .timeout host .https :: .resolveECH .timeout host :: .fetchECH .timeout host ::
        .resolveRuleECHConfig host (nodeRule node host) :: t) := by
  have hnone : storedECH (nodeRule node host) (reachable.seen env.profiles) = [] := by
    by_cases hid : node.echProfileID = ""
    · simp [storedECH, nodeRule, hid]
    · simpa [storedECH, nodeRule, reachable, Outcome.seen, hid] using hstored.resolve_left hid
  have hech' : (nodeRule node host).echEnabled = true := hech
  have hauto' : (nodeRule node host).echAutoUpdate = true := hauto
  refine .call (.call (.call h ?_) ?_) ?_
  · exact mem_calls_of_call (by simp [nested, hnone, hech', hauto', lookupDomain_nodeRule])
  · exact mem_calls_of_call (by simp [nested])
  · exact mem_calls_of_call (by simp [nested])

section chains

variable {env : Env} {node : DNSNode} {u : Url} (hactive : node ∈ activeNodes env.nodes)
  (hu : env.parseURL node.url = some u) (ctx : Ctx) (domain : String) (qtype : QType)
include hactive hu

theorem dial_stack (hquic : node.quic = false) (hdial : dialsTLS u true = true) :
    Calls.Stack (calls env) (fun _ => reachable) (.exchange ctx domain qtype)
      [.resolveRuleECHConfig u.hostname (nodeRule node u.hostname),
        .dialTLSContext node u.hostname, .exchangeNode node domain qtype true,
        .exchange ctx domain qtype] := by
  refine .call (.call (.call .base ?_) ?_) ?_
  · exact exchange_asks rfl hactive
  · exact mem_calls_of_spawn (by simp [nested, hu, hquic, hdial, reachable])
  · exact mem_calls_of_call (by simp [nested, reachable])

theorem quic_stack (hquic : node.quic = true) :
    Calls.Stack (calls env) (fun _ => reachable) (.exchange ctx domain qtype)
      [.newQUICRoundTripper u.hostname (nodeRule node u.hostname), .getNodeClient node,
        .exchangeNode node domain qtype true, .exchange ctx domain qtype] := by
  refine .call (.call (.call .base ?_) ?_) ?_
  · exact exchange_asks rfl hactive
  · exact mem_calls_of_call (by simp [nested])
  · exact mem_calls_of_call (by simp [nested, hu, hquic])

/-- The round tripper of a QUIC node leads to a query for its host. -/
theorem lookup_stack (hquic : node.quic = true) (hname : normalizeHost u.hostname ≠ "")
    (hliteral : isLiteralIP (normalizeHost u.hostname) = false)
    (hans : ¬ Answered env (normalizeHost u.hostname)) :
    Calls.Stack (calls env) (fun _ => reachable) (.exchange ctx domain qtype)
      [.exchange .background (normalizeHost u.hostname) .a,
        .resolveIPAddrs .background (normalizeHost u.hostname),
        .resolveDomainCandidates .background u.hostname,
        .buildDialCandidates .background u.hostname (nodeRule node u.hostname) "quic",
        .newQUICRoundTripper u.hostname (nodeRule node u.hostname), .getNodeClient node,
        .exchangeNode node domain qtype true, .exchange ctx domain qtype] := by
  refine .call (.call (.call (.call (quic_stack hactive hu ctx domain qtype hquic) ?_) ?_) ?_) ?_
  · exact mem_calls_of_call (by simp [nested])
  · simp [buildDialCandidates_calls]
  · exact mem_calls_of_call (by simp [nested, hname, hliteral])
  · simp [resolveIPAddrs_calls, hans]

end chains

theorem FetchesOwnConfig.leads {env : Env} {node : DNSNode} (h : FetchesOwnConfig env node)
    (hmem : node ∈ env.nodes) : ∃ host, ∀ ctx domain qtype,
      Leads env node (.exchange ctx domain qtype) (.exchange .timeout host .https) := by
  obtain ⟨henabled, hech, hauto, hstored, u, hu, hdial⟩ := h
  have hactive := mem_activeNodes.mpr ⟨hmem, henabled⟩
  refine ⟨u.hostname, fun ctx domain qtype => ?_⟩
  by_cases hquic : node.quic = true
  · have hrule : (nodeRule node u.hostname).echEnabled = true := hech
    have hcall : .resolveRuleECHConfig u.hostname (nodeRule node u.hostname) ∈
        calls env reachable (.newQUICRoundTripper u.hostname (nodeRule node u.hostname)) :=
      mem_calls_of_call (by simp [nested, hrule])
    have hstack := (quic_stack hactive hu ctx domain qtype hquic).call hcall
    exact ⟨[_, _, _, _, _, _], fetch_stack hech hauto hstored hstack, .getNodeClient node,
      by simp, by simp [setsUp, hquic]⟩
  · have hstack := dial_stack hactive hu ctx domain qtype (by simpa using hquic)
      (hdial.resolve_left hquic)
    exact ⟨[_, _, _, _, _], fetch_stack hech hauto hstored hstack,
      .dialTLSContext node u.hostname, by simp, rfl⟩

theorem LooksUpItself.leads {env : Env} {node : DNSNode} (h : LooksUpItself env node)
    (hmem : node ∈ env.nodes) : ∃ host, ¬ Answered env host ∧ ∀ ctx domain qtype,
      Leads env node (.exchange ctx domain qtype) (.exchange .background host .a) := by
  obtain ⟨henabled, hquic, u, hu, hname, hliteral, hans⟩ := h
  have hactive := mem_activeNodes.mpr ⟨hmem, henabled⟩
  refine ⟨normalizeHost u.hostname, hans, fun ctx domain qtype => ?_⟩
  exact ⟨[_, _, _, _, _, _], lookup_stack hactive hu ctx domain qtype hquic hname hliteral hans,
    .getNodeClient node, by simp, by simp [setsUp, hquic]⟩

/-- A node that needs itself leads every query back to a query, and so on. -/
theorem NeedsItself.leads {env : Env} {node : DNSNode} (h : NeedsItself env node)
    (hmem : node ∈ env.nodes) : ∃ ctx' domain' qtype', ∀ ctx domain qtype,
      Leads env node (.exchange ctx domain qtype) (.exchange ctx' domain' qtype') := by
  rcases h with h | h
  · obtain ⟨host, hleads⟩ := h.leads hmem
    exact ⟨_, _, _, hleads⟩
  · obtain ⟨host, -, hleads⟩ := h.leads hmem
    exact ⟨_, _, _, hleads⟩

/-- So, once a query is made, connections to the node are set up inside each other without
end. -/
theorem NeedsItself.unbounded {env : Env} {node : DNSNode} (h : NeedsItself env node)
    (hmem : node ∈ env.nodes) {c : Call} {ctx : Ctx} {domain : String} {qtype : QType}
    {t : List Call} (hstart : Calls.Stack (calls env) (fun _ => reachable) c
      (.exchange ctx domain qtype :: t)) (n : Nat) :
    ∃ s, Calls.Stack (calls env) (fun _ => reachable) c s ∧
      n ≤ s.countP fun a => setsUp a = some node := by
  obtain ⟨ctx', domain', qtype', hleads⟩ := h.leads hmem
  obtain ⟨between, hstack, -⟩ := hleads ctx domain qtype
  obtain ⟨between', hloop, a, ha, hset⟩ := hleads ctx' domain' qtype'
  have hfirst := hstart.append hstack
  rw [← List.cons_append, List.dropLast_concat] at hfirst
  have hcount : (.exchange ctx' domain' qtype' :: (between' ++ [.exchange ctx' domain' qtype'])
      ).dropLast.countP (fun c => decide (setsUp c = some node)) ≠ 0 := by
    rw [← List.cons_append, List.dropLast_concat, ← Nat.pos_iff_ne_zero, List.countP_pos_iff]
    exact ⟨a, List.mem_cons_of_mem _ ha, by simpa using hset⟩
  obtain ⟨s, hs, hn⟩ := hfirst.unbounded hloop (by simp) _ hcount n
  exact ⟨_, hs, hn⟩

end

end SniShaper.Doh
