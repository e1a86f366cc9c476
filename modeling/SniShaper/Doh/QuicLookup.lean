import SniShaper.Doh.Nesting

/-! Lookups inside lookups: what `ResolveIPAddrs` calls comes back to `ResolveIPAddrs` when a
QUIC node is asked, whose round tripper looks its host up.

* `boundedLookups_iff`: lookups end, and one makes no more than quadratically many in the
  number of nodes, exactly when no node in use needs itself;
* `LooksUpItself.lookups_unbounded`: a QUIC node whose host the system does not know is looked
  up without end. -/

namespace SniShaper.Doh

open Strings Config Hosts Candidates

def isLookup : Call → Bool
  | .resolveIPAddrs _ _ => true
  | _ => false

section

variable [CaseTables]

/-- The calls in progress after a lookup was made. -/
def LookupStack (env : Env) (net : List Call → Outcome) (ctx : Ctx) (domain : String)
    (s : List Call) : Prop :=
  Calls.Stack (calls env) net (.resolveIPAddrs ctx domain) s

/-- The lookups in the first levels of calls that a lookup makes, itself included. -/
def lookups (env : Env) (net : List Call → Outcome) (levels : Nat) (ctx : Ctx)
    (domain : String) : Nat :=
  Calls.count (calls env) isLookup net levels [] (.resolveIPAddrs ctx domain)

/-- Lookups end under every outcome, and one makes at most so many: for both record types
every node is asked twice, and the safe nodes once more for its config. -/
structure BoundedLookups (env : Env) : Prop where
  terminates : ∃ bound, ∀ net ctx domain s, LookupStack env net ctx domain s → s.length ≤ bound
  lookups_le : ∀ net levels ctx domain, lookups env net levels ctx domain ≤
    1 + 2 * (env.nodes.length * (env.nodes.length + 2))

/-! ## How many lookups a call makes -/

/-- The lookups that a call makes at most. -/
def lookupWeight (env : Env) : Call → Nat
  | .resolveIPAddrs _ domain =>
    if Answered env domain then 1 else 1 + 2 * (env.nodes.length * (env.nodes.length + 2))
  | .exchange _ _ _ => env.nodes.length * (env.nodes.length + 2)
  | .exchangeNode _ _ _ true => env.nodes.length + 2
  | .resolveECHSafe _ => env.nodes.length
  | .exchangeSafe _ => env.nodes.length
  | .exchangeNode _ _ _ false => 1
  | .getNodeClient _ => 1
  | .newQUICRoundTripper _ _ => 1
  | .buildDialCandidates _ _ _ _ => 1
  | .resolveDomainCandidates _ _ => 1
  | _ => 0

omit [CaseTables] in
theorem refresh_sublist (o : Outcome) (node : DNSNode) (host domain : String) (qtype : QType) :
    ((refresh o node host domain qtype).flatMap Nested.calls).Sublist
      [.resolveECHSafe host, .updateECHProfileConfig node.echProfileID,
        .exchangeNode node domain qtype false] := by
  unfold refresh
  by_cases ho : o.refreshed = true
  · by_cases hid : node.echProfileID ≠ ""
    · simp [ho, hid, Nested.calls]
    · simp [ho, hid, Nested.calls]
  · simp [ho, Nested.calls]

/-- A node is asked once, and once more after its config was refreshed. -/
theorem exchangeNode_sublist (env : Env) (o : Outcome) (node : DNSNode) (domain : String)
    (qtype : QType) (allowRetry : Bool) : ∃ host,
      (calls env o (.exchangeNode node domain qtype allowRetry)).Sublist
        ([.getNodeClient node] ++ ([.dialTLSContext node host] ++
          if allowRetry = true then [.resolveECHSafe host,
            .updateECHProfileConfig node.echProfileID, .exchangeNode node domain qtype false]
          else [])) := by
  simp only [calls, nested, List.flatMap_cons, Nested.calls]
  cases env.parseURL node.url with
  | none => exact ⟨"", by simp⟩
  | some u =>
    refine ⟨u.hostname, .append (.refl _) ?_⟩
    simp only
    split
    · simp
    · rw [List.flatMap_append]
      refine .append ?_ ?_
      · split
        · simp [Nested.calls]
        · simp
      · split
        · rename_i hretry
          rw [if_pos hretry.2.1]
          exact refresh_sublist o node u.hostname domain qtype
        · simp

theorem sum_le_of_sublist {l l' : List Call} (env : Env) (h : l.Sublist l') :
    (l.map (lookupWeight env)).sum ≤ (l'.map (lookupWeight env)).sum :=
  (h.map _).sum_le_sum fun _ _ => Nat.zero_le _

/-- Nodes that are asked in the same way. -/
theorem sum_asked (env : Env) (asked : List DNSNode) {f : DNSNode → Call} {w : Nat}
    (h : ∀ n, lookupWeight env (f n) = w) :
    ((asked.map f).map (lookupWeight env)).sum = asked.length * w := by
  simp [Function.comp_def, h]

theorem lookupWeight_sum {env : Env} (h : ∀ node ∈ env.nodes, ¬ NeedsItself env node)
    (o : Outcome) (c : Call) (hc : Ours env c) :
    (if isLookup c then 1 else 0) + ((calls env o c).map (lookupWeight env)).sum ≤
      lookupWeight env c := by
  cases c with
  | resolveIPAddrs ctx domain =>
    rw [resolveIPAddrs_calls]
    by_cases hans : Answered env domain
    · simp [hans, isLookup, lookupWeight]
    · simp only [hans, isLookup, lookupWeight, if_false, if_true, List.map_cons, List.map_nil,
        List.sum_cons, List.sum_nil]
      omega
  | exchange ctx domain qtype =>
    obtain ⟨asked, hsub, -, hperm⟩ := exchange_calls env o ctx domain qtype
    have hlen : asked.length ≤ env.nodes.length :=
      hsub.length_le.trans (List.length_filter_le _ _)
    have hsum := sum_asked env asked (f := fun n => .exchangeNode n domain qtype true)
      (w := env.nodes.length + 2) fun _ => rfl
    rw [(hperm.map _).sum_eq, List.map_cons, List.sum_cons, hsum]
    simpa [isLookup, lookupWeight] using Nat.mul_le_mul_right (env.nodes.length + 2) hlen
  | exchangeNode node domain qtype allowRetry =>
    obtain ⟨host, hsub⟩ := exchangeNode_sublist env o node domain qtype allowRetry
    have hle := sum_le_of_sublist env hsub
    cases allowRetry with
    | false => simpa [isLookup, lookupWeight] using hle
    | true =>
      simp only [isLookup, lookupWeight, if_true, List.map_cons, List.map_nil, List.sum_cons,
        List.sum_nil, List.singleton_append, Bool.false_eq_true, if_false] at hle ⊢
      omega
  | getNodeClient node =>
    simp only [calls, nested]
    cases env.parseURL node.url with
    | none => simp [isLookup, lookupWeight]
    | some u => cases node.quic <;> simp [isLookup, lookupWeight, Nested.calls]
  | dialTLSContext node host =>
    cases hconn : o.connected <;> simp [calls, nested, hconn, isLookup, lookupWeight, Nested.calls]
  | newQUICRoundTripper host rule =>
    cases hech : rule.echEnabled <;>
      simp [calls, nested, hech, isLookup, lookupWeight, Nested.calls]
  | buildDialCandidates ctx host rule mode =>
    obtain ⟨node, hmem, hquic, rfl, rfl, hu⟩ := hc
    simp [buildDialCandidates_calls, isLookup, lookupWeight]
  | resolveDomainCandidates ctx host =>
    by_cases hname : normalizeHost host = "" ∨ isLiteralIP (normalizeHost host) = true
    · simp [calls, nested, hname, isLookup, lookupWeight]
    · simp [calls, nested, hname, isLookup, lookupWeight, answered_of_ours h hc hname,
        Nested.calls]
  | resolveRuleECHConfig host rule =>
    have hzero : ((calls env o (.resolveRuleECHConfig host rule)).map (lookupWeight env)).sum = 0 := by
      rw [List.sum_eq_zero_iff]
      intro w hw
      obtain ⟨c, hmem, rfl⟩ := List.mem_map.mp hw
      rcases not_fetched_of_ours h hc hmem with ⟨id, rfl⟩ | ⟨id, rfl⟩ <;> rfl
    simp [hzero, isLookup, lookupWeight]
  | fetchECH ctx domain => exact hc.elim
  | resolveECH ctx domain => exact hc.elim
  | resolveECHSafe domain => simp [calls, nested, isLookup, lookupWeight, Nested.calls]
  | exchangeSafe domain =>
    have hlen : ((safeNodes env.nodes).take o.asked).length ≤ env.nodes.length :=
      (List.length_take_le' _ _).trans (List.length_filter_le _ _)
    have hsum := sum_asked env ((safeNodes env.nodes).take o.asked)
      (f := fun n => .exchangeNode n domain .https false) (w := 1) fun _ => rfl
    rw [exchangeSafe_calls_eq, List.map_cons, List.sum_cons, hsum]
    simpa [isLookup, lookupWeight] using hlen
  | getDNSNodes => simp [calls, nested, isLookup]
  | getBinaryECHConfig id => simp [calls, nested, isLookup]
  | updateECHProfileConfig id => simp [calls, nested, isLookup]

theorem boundedLookups_of_none {env : Env} (h : ∀ node ∈ env.nodes, ¬ NeedsItself env node) :
    BoundedLookups env where
  terminates := by
    refine ⟨12, fun net ctx domain s hs => ?_⟩
    have hlen := hs.length_le (ours_step h) trivial
    have hrank : rank env (.resolveIPAddrs ctx domain) ≤ 11 := by
      simp only [rank]
      split <;> omega
    omega
  lookups_le net levels ctx domain := by
    have hcount : lookups env net levels ctx domain ≤
        lookupWeight env (.resolveIPAddrs ctx domain) :=
      Calls.count_le (fun o c c' hc hc' => (ours_step h o c c' hc hc').1) (lookupWeight_sum h)
        levels [] trivial
    refine hcount.trans ?_
    simp only [lookupWeight]
    split <;> omega

/-! ## Without end -/

/-- Some name is not the host of a node: one that is longer than all of them. -/
theorem exists_not_isDoHNode (env : Env) : ∃ domain, isDoHNode env domain = false := by
  obtain ⟨len, hlen⟩ : ∃ len, ∀ n ∈ env.nodes, ∀ u, env.parseURL n.url = some u →
      u.hostname.toList.length < len := by
    induction env.nodes with
    | nil => exact ⟨0, by simp⟩
    | cons n nodes ih =>
      obtain ⟨len, hlen⟩ := ih
      refine ⟨max len ((env.parseURL n.url).elim 0 (·.hostname.toList.length + 1)), ?_⟩
      intro m hm u hu
      rcases List.mem_cons.mp hm with rfl | hm
      · simp [hu]
      · exact lt_max_of_lt_left (hlen m hm u hu)
  have hfold (s t : String) (h : equalFold s t = true) : s.toList.length = t.toList.length := by
    simpa using congrArg List.length (beq_iff_eq.mp h)
  have htrim (s : String) : s.toList.length ≤ (trimSuffix s ".").toList.length + 1 := by
    unfold trimSuffix
    split
    · simp
      omega
    · omega
  refine ⟨String.ofList (List.replicate (len + 1) 'a'), ?_⟩
  rw [isDoHNode, List.any_eq_false]
  intro n hn
  cases hu : env.parseURL n.url with
  | none => simp
  | some u =>
    have hlt := hlen n hn u hu
    have hlong := htrim (String.ofList (List.replicate (len + 1) 'a'))
    simp only [String.toList_ofList, List.length_replicate] at hlong
    simp only [Bool.or_eq_true, not_or]
    constructor
    · intro h
      have := hfold _ _ h
      simp only [String.toList_ofList, List.length_replicate] at this
      omega
    · intro h
      have := hfold _ _ h
      omega

/-- A lookup that the system does not answer makes queries. -/
theorem lookup_query {env : Env} {net : List Call → Outcome} {ctx : Ctx} {domain : String}
    (hans : ¬ Answered env domain) : LookupStack env net ctx domain
      [.exchange ctx domain .a, .resolveIPAddrs ctx domain] :=
  .call .base (by simp [resolveIPAddrs_calls, hans])

theorem NeedsItself.not_bounded {env : Env} {node : DNSNode} (h : NeedsItself env node)
    (hmem : node ∈ env.nodes) : ¬ BoundedLookups env := by
  rintro ⟨⟨bound, hbound⟩, -⟩
  obtain ⟨domain, hdomain⟩ := exists_not_isDoHNode env
  have hans : ¬ Answered env domain := fun hans => by simp [hans.1] at hdomain
  obtain ⟨s, hs, hn⟩ :=
    h.unbounded hmem (lookup_query hans : LookupStack env _ .timeout domain _) (bound + 1)
  have hlen := hbound _ _ _ s hs
  have hcount := List.countP_le_length (p := fun a => decide (setsUp a = some node)) (l := s)
  omega

theorem boundedLookups_iff (env : Env) :
    BoundedLookups env ↔ ∀ node ∈ env.nodes, ¬ NeedsItself env node := by
  constructor
  · intro hbound node hmem hneeds
    exact hneeds.not_bounded hmem hbound
  · exact boundedLookups_of_none

/-- A QUIC node whose host the system does not answer is looked up again and again. -/
theorem LooksUpItself.lookups_unbounded {env : Env} {node : DNSNode} (h : LooksUpItself env node)
    (hmem : node ∈ env.nodes) {ctx : Ctx} {domain : String} (hans : ¬ Answered env domain)
    (n : Nat) : ∃ s, LookupStack env (fun _ => reachable) ctx domain s ∧ n ≤ s.countP isLookup := by
  obtain ⟨henabled, hquic, u, hu, hname, hliteral, hhost⟩ := h
  have hactive := mem_activeNodes.mpr ⟨hmem, henabled⟩
  have hfirst := lookup_stack hactive hu ctx domain .a hquic hname hliteral hhost
  have hloop := lookup_stack hactive hu .background (normalizeHost u.hostname) .a hquic hname
    hliteral hhost
  obtain ⟨s, hs, hn⟩ := ((lookup_query hans).append hfirst).unbounded hloop (by simp) isLookup
    (by simp [isLookup]) n
  exact ⟨_, hs, hn⟩

end

/-- A QUIC node whose host the system resolver does not know. -/
def quicNode : DNSNode :=
  { url := "https://dns.example/dns-query", quic := true, enabled := true }

def quicEnv : Env :=
  { nodes := [quicNode]
    profiles := []
    parseURL := fun _ =>
      some { scheme := "https", host := "dns.example", hostname := "dns.example" }
    system := fun _ => false }

/-- One lookup of the node's host, and it is looked up without end. -/
theorem quicNode_unbounded :
    ¬ BoundedLookups quicEnv ∧
      ∀ n, ∃ s, LookupStack quicEnv (fun _ => reachable) .timeout "dns.example" s ∧
        n ≤ s.countP isLookup := by
  have hname : normalizeHost "dns.example" = "dns.example" := by decide
  have hliteral : isLiteralIP "dns.example" = false := by decide
  have hmem : quicNode ∈ quicEnv.nodes := List.mem_cons_self
  have hans : ¬ Answered quicEnv "dns.example" := fun h => absurd h.2 (by decide)
  have hlooks : LooksUpItself quicEnv quicNode :=
    ⟨rfl, rfl, _, rfl, by simp [hname], by simp [hname, hliteral], by simpa [hname] using hans⟩
  exact ⟨NeedsItself.not_bounded (.inr hlooks) hmem, hlooks.lookups_unbounded hmem hans⟩

end SniShaper.Doh
