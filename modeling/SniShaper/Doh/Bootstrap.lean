import SniShaper.Doh.Nesting

/-! Queries inside queries: what `exchange` calls comes back to `exchange` when a node has to
be asked for its own ECH config or its own address.

* `wellFoundedQueries_iff`: queries end, and no node is asked while a connection to it is set
  up, exactly when no node in use needs itself. -/

namespace SniShaper.Doh

open Strings Config Profiles Establish

/-- The connections that are being set up. -/
def depth (s : List Call) : Nat := s.countP fun c => (setsUp c).isSome

/-- A node that is being connected to is in use. -/
theorem mem_of_setsUp {env : Env} {c : Call} (hc : Ours env c) (h : (setsUp c).isSome = true) :
    ∃ node, node ∈ activeNodes env.nodes := by
  cases c with
  | dialTLSContext node host => exact ⟨node, hc.1⟩
  | getNodeClient node => exact ⟨node, hc⟩
  | _ => simp [setsUp] at h

section

variable [CaseTables]

/-- The calls in progress after a query was made. -/
def QueryStack (env : Env) (net : List Call → Outcome) (ctx : Ctx) (domain : String)
    (qtype : QType) (s : List Call) : Prop :=
  Calls.Stack (calls env) net (.exchange ctx domain qtype) s

/-- Queries end under every outcome; a node that is being connected to is not asked; and
no more connections are set up at once than there are nodes in use. -/
structure WellFoundedQueries (env : Env) : Prop where
  terminates : ∃ bound, ∀ net ctx domain qtype s,
    QueryStack env net ctx domain qtype s → s.length ≤ bound
  not_asked : ∀ net ctx domain qtype above c below node,
    QueryStack env net ctx domain qtype (above ++ c :: below) → setsUp c = some node →
    ∀ domain' qtype' allowRetry, .exchangeNode node domain' qtype' allowRetry ∉ above
  depth_le : ∀ net ctx domain qtype s, QueryStack env net ctx domain qtype s →
    depth s ≤ (activeNodes env.nodes).length

theorem rank_of_setsUp {env : Env} {c : Call} (h : (setsUp c).isSome = true) : rank env c = 5 := by
  cases c with
  | dialTLSContext node host => rfl
  | getNodeClient node => rfl
  | _ => simp [setsUp] at h

theorem wellFoundedQueries_of_none {env : Env} (h : ∀ node ∈ env.nodes, ¬ NeedsItself env node) :
    WellFoundedQueries env where
  terminates := ⟨11, fun net ctx domain qtype s hs => hs.length_le (ours_step h) trivial⟩
  not_asked net ctx domain qtype above c below node hs hset domain' qtype' allowRetry hmem := by
    have hsorted := hs.sorted (ours_step h) trivial
    have hlt := (List.pairwise_append.mp hsorted).2.2 _ hmem _ List.mem_cons_self
    have hc : rank env c = 5 := rank_of_setsUp (by simp [hset])
    have hpos := rank_exchangeNode_pos env node domain' qtype' allowRetry
    omega
  depth_le net ctx domain qtype s hs := by
    have hone : depth s ≤ 1 :=
      Calls.countP_le_one (r := 5) (fun c _ hc => rank_of_setsUp hc)
        (hs.sorted (ours_step h) trivial)
    rcases Nat.eq_zero_or_pos (depth s) with hzero | hpos
    · omega
    · obtain ⟨c, hmem, hc⟩ := List.countP_pos_iff.mp hpos
      obtain ⟨node, hnode⟩ := mem_of_setsUp (hs.inv (ours_step h) trivial c hmem) hc
      have := List.length_pos_of_mem hnode
      omega

/-- A node that needs itself is connected to again and again. -/
theorem NeedsItself.depth_unbounded {env : Env} {node : DNSNode} (h : NeedsItself env node)
    (hmem : node ∈ env.nodes) (ctx : Ctx) (domain : String) (qtype : QType) (n : Nat) :
    ∃ s, QueryStack env (fun _ => reachable) ctx domain qtype s ∧ n ≤ depth s := by
  obtain ⟨s, hs, hn⟩ := h.unbounded hmem (.base : QueryStack env _ ctx domain qtype _) n
  refine ⟨s, hs, hn.trans (List.countP_mono_left fun c _ hc => ?_)⟩
  rw [of_decide_eq_true hc]
  rfl

theorem NeedsItself.not_wellFounded {env : Env} {node : DNSNode} (h : NeedsItself env node)
    (hmem : node ∈ env.nodes) : ¬ WellFoundedQueries env := by
  intro hwf
  obtain ⟨s, hs, hn⟩ :=
    h.depth_unbounded hmem .timeout "" .a ((activeNodes env.nodes).length + 1)
  have := hwf.depth_le _ _ _ _ s hs
  omega

theorem wellFoundedQueries_iff (env : Env) :
    WellFoundedQueries env ↔ ∀ node ∈ env.nodes, ¬ NeedsItself env node := by
  constructor
  · intro hwf node hmem hneeds
    exact hneeds.not_wellFounded hmem hwf
  · exact wellFoundedQueries_of_none

end

/-- A node with ECH whose profile holds no config. -/
def sampleNode : DNSNode :=
  { url := "https://dns.example/dns-query", echEnabled := true, echProfileID := "dns"
    echAutoUpdate := true, enabled := true }

def sampleEnv : Env :=
  { nodes := [sampleNode]
    profiles := [{ id := "dns" }]
    parseURL := fun _ =>
      some { scheme := "https", host := "dns.example", hostname := "dns.example" }
    system := fun _ => true }

/-- One query, and the node is connected to without end. -/
theorem sampleNode_unbounded :
    ¬ WellFoundedQueries sampleEnv ∧
      ∀ n, ∃ s, QueryStack sampleEnv (fun _ => reachable) .timeout "example.com" .a s ∧
        n ≤ depth s := by
  have hfetch : NeedsItself sampleEnv sampleNode :=
    .inl ⟨rfl, rfl, rfl, .inr (by decide), _, rfl, .inr (by decide)⟩
  exact ⟨hfetch.not_wellFounded List.mem_cons_self,
    hfetch.depth_unbounded List.mem_cons_self _ _ _⟩

end SniShaper.Doh
