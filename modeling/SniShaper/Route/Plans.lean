import SniShaper.Route.Candidates

/-! What `buildDialCandidates` of `proxy/proxy.go` does apart from the answers it gets: a plan
says whether the pool is asked, which name is resolved, and which addresses are left when
there is no answer.

* `candidatesUnder_eq_run`: the candidates are the outcome of the plan;
* `run_injective`: plans with the same outcomes are the same;
* `run_origin_iff`: which plans lead to the target only. -/

namespace SniShaper.Candidates

open Strings Net Config Hosts

/-! ## Plans -/

structure Plan where
  pool : Bool
  ask : Option String
  otherwise : List String
  deriving DecidableEq, Repr

/-- The addresses of the pool, if it has any. -/
def poolAddresses (src : Sources) : Option (List String) :=
  match src.cfPool with
  | none => none
  | some getTopIPs =>
    if getTopIPs 5 ≠ [] then
      some (dedupeDialCandidates ((getTopIPs 5).map fun ip => joinHostPort ip "443"))
    else none

section

variable [CaseTables]

/-- The addresses the resolver gives for a name. -/
def answers (src : Sources) (host dnsMode : String) : List String :=
  match src.dohResolver with
  | none => []
  | some resolveIPAddrs =>
    match resolveIPAddrs host with
    | .error _ => []
    | .ok ips =>
      dedupeDialCandidates
        ((reorderIPsByDNSMode ips dnsMode).map fun ip => joinHostPort (ipString ip) "443")

/-- The name under which a host is resolved. -/
def askedName (host : String) : Option String :=
  let host := normalizeHost host
  if host = "" ∨ isLiteralIP host = true then none else some host

/-- The outcome of a plan. -/
def Plan.run (src : Sources) (dnsMode : String) (plan : Plan) : List String :=
  match if plan.pool then poolAddresses src else none with
  | some candidates => candidates
  | none =>
    let resolved := (plan.ask.map fun host => answers src host dnsMode).getD []
    if resolved ≠ [] then resolved else plan.otherwise

/-- The plan for the target itself. -/
def ownPlan (pool : Bool) (targetHost targetAddr : String) : Plan :=
  ⟨pool, askedName targetHost, [targetAddr]⟩

/-- The plan for an upstream that is not blank. -/
def upstreamPlan (targetHost targetAddr resolved : String) : Plan :=
  match splitUpstreamCandidates targetHost resolved "443" with
  | [] => ⟨false, none, [targetAddr]⟩
  | candidates =>
    let firstHost := firstUpstreamHost targetHost resolved
    ⟨false,
      if firstHost ≠ "" ∧ isLiteralIP firstHost = false then askedName firstHost else none,
      candidates⟩

/-- The plan of `buildDialCandidates` with the upstream `resolved`. -/
def planUnder (targetHost targetAddr : String) (rule : Rule) (effectiveMode resolved : String) :
    Plan :=
  if equalFold (trimSpace rule.upstream) "warp" then ownPlan false targetHost targetAddr
  else if resolvesTarget effectiveMode then
    if trimSpace resolved ≠ "" then upstreamPlan targetHost targetAddr resolved
    else ownPlan rule.useCFPool targetHost targetAddr
  else ⟨false, none, [targetAddr]⟩

/-- The addresses of the target, or the target itself. -/
def ownAddresses (src : Sources) (targetHost targetAddr dnsMode : String) : List String :=
  let found := resolveDomainCandidates src targetHost "443" dnsMode
  if found ≠ [] then found else [targetAddr]

/-- `buildDialCandidates` with the upstream `resolved` in the place of the one it computes. -/
def candidatesUnder (src : Sources) (targetHost targetAddr : String) (rule : Rule)
    (effectiveMode resolved : String) : List String :=
  if equalFold (trimSpace rule.upstream) "warp" then
    ownAddresses src targetHost targetAddr rule.dnsMode
  else if resolvesTarget effectiveMode then
    if trimSpace resolved ≠ "" then
      upstreamCandidates src targetHost targetAddr resolved rule.dnsMode
    else match poolCandidates src rule with
      | some candidates => candidates
      | none => ownAddresses src targetHost targetAddr rule.dnsMode
  else [targetAddr]

theorem buildDialCandidates_eq (src : Sources) (targetHost targetAddr : String) (rule : Rule)
    (effectiveMode : String) :
    buildDialCandidates src targetHost targetAddr rule effectiveMode =
      candidatesUnder src targetHost targetAddr rule effectiveMode
        (resolveRuleUpstream targetHost rule) := rfl

/-! ## The outcome of a plan -/

theorem resolveDomainCandidates_eq (src : Sources) (host dnsMode : String) :
    resolveDomainCandidates src host "443" dnsMode =
      ((askedName host).map fun host => answers src host dnsMode).getD [] := by
  unfold resolveDomainCandidates askedName answers
  simp only
  split
  · rfl
  · rfl

theorem run_ownPlan (src : Sources) (dnsMode : String) (pool : Bool)
    (targetHost targetAddr : String) :
    (ownPlan pool targetHost targetAddr).run src dnsMode =
      match if pool then poolAddresses src else none with
      | some candidates => candidates
      | none => ownAddresses src targetHost targetAddr dnsMode := by
  unfold ownAddresses
  rw [resolveDomainCandidates_eq]
  unfold ownPlan Plan.run
  cases pool with
  | false => simp only [Bool.false_eq_true, ↓reduceIte]
  | true =>
    cases poolAddresses src with
    | none => simp only [↓reduceIte]
    | some candidates => simp only [↓reduceIte]

theorem run_upstreamPlan (src : Sources) (dnsMode targetHost targetAddr resolved : String) :
    (upstreamPlan targetHost targetAddr resolved).run src dnsMode =
      upstreamCandidates src targetHost targetAddr resolved dnsMode := by
  unfold upstreamPlan upstreamCandidates
  cases splitUpstreamCandidates targetHost resolved "443" with
  | nil => rfl
  | cons first rest =>
    simp only [Plan.run, Bool.false_eq_true, ↓reduceIte]
    by_cases hname : firstUpstreamHost targetHost resolved ≠ "" ∧
        isLiteralIP (firstUpstreamHost targetHost resolved) = false
    · simp only [if_pos hname, resolveDomainCandidates_eq]
    · simp only [if_neg hname]
      rfl

omit [CaseTables] in
theorem poolCandidates_eq (src : Sources) (rule : Rule) :
    poolCandidates src rule = if rule.useCFPool then poolAddresses src else none := by
  unfold poolCandidates poolAddresses
  cases src.cfPool with
  | none => simp
  | some getTopIPs =>
    cases rule.useCFPool with
    | false => simp
    | true => simp

theorem candidatesUnder_eq_run (src : Sources) (targetHost targetAddr : String) (rule : Rule)
    (effectiveMode resolved : String) :
    candidatesUnder src targetHost targetAddr rule effectiveMode resolved =
      (planUnder targetHost targetAddr rule effectiveMode resolved).run src rule.dnsMode := by
  unfold candidatesUnder planUnder
  split
  · rw [run_ownPlan]
    rfl
  · split
    · split
      · rw [run_upstreamPlan]
      · rw [run_ownPlan, poolCandidates_eq]
    · rfl

/-- A plan with a last resort has an outcome. -/
theorem run_ne_nil {plan : Plan} (h : plan.otherwise ≠ []) (src : Sources) (dnsMode : String) :
    plan.run src dnsMode ≠ [] := by
  have hpool : ∀ candidates, poolAddresses src = some candidates → candidates ≠ [] := by
    intro candidates hsome
    unfold poolAddresses at hsome
    split at hsome
    · cases hsome
    · rename_i getTopIPs hset
      split at hsome
      · rename_i hne
        obtain ⟨ip, hip⟩ := List.exists_mem_of_ne_nil _ hne
        obtain rfl := Option.some.inj hsome
        refine List.ne_nil_of_mem
          (mem_dedupeDialCandidates.mpr ⟨fun hblank => ?_, _, List.mem_map_of_mem hip, rfl⟩)
        -- an address has a colon
        exact absurd (trimSpace_eq_empty_iff.mp hblank _ (colon_mem_joinHostPort ip "443"))
          (by decide)
      · cases hsome
  unfold Plan.run
  split
  · rename_i candidates hsome
    split at hsome
    · exact hpool candidates hsome
    · cases hsome
  · simp only
    split
    · assumption
    · exact h

theorem upstreamPlan_otherwise_ne_nil (targetHost targetAddr resolved : String) :
    (upstreamPlan targetHost targetAddr resolved).otherwise ≠ [] := by
  unfold upstreamPlan
  cases splitUpstreamCandidates targetHost resolved "443" with
  | nil => simp
  | cons first rest => simp

theorem planUnder_otherwise_ne_nil (targetHost targetAddr : String) (rule : Rule)
    (effectiveMode resolved : String) :
    (planUnder targetHost targetAddr rule effectiveMode resolved).otherwise ≠ [] := by
  unfold planUnder
  split
  · simp [ownPlan]
  · split
    · split
      · exact upstreamPlan_otherwise_ne_nil _ _ _
      · simp [ownPlan]
    · simp

/-! ## Answers that tell plans apart -/

/-- A resolver that answers one name with one address, and no pool. -/
def oneName (host : String) (ip : IP) : Sources where
  dohResolver := some fun name => if name = host then .ok [ip] else .error "no such host"

/-- A pool with one address, and no resolver. -/
def onePoolAddress (ip : String) : Sources where
  cfPool := some fun _ => [ip]

/-- An address that every resolution in the mode lets through. -/
def sampleIP (dnsMode : String) (i : UInt8) : IP :=
  if normalizeDNSMode dnsMode = "ipv6_only" then
    [0x20, 0x01, 0x0d, 0xb8, 0, 0, 0, 0, 0, 0, 0, 0, 0, 0, 0, i]
  else v4Prefix ++ [192, 0, 2, i]

theorem reorder_sampleIP (dnsMode : String) (i : UInt8) :
    reorderIPsByDNSMode [sampleIP dnsMode i] dnsMode = [sampleIP dnsMode i] := by
  by_cases hmode : normalizeDNSMode dnsMode = "ipv6_only"
  · have hv6 : isV4 [0x20, 0x01, 0x0d, 0xb8, 0, 0, 0, 0, 0, 0, 0, 0, 0, 0, 0, i] = false := by
      simp [isV4, to4, v4Prefix]
    simp only [reorderIPsByDNSMode, sampleIP, hmode, ↓reduceIte, List.filter_cons, hv6]
    rfl
  · have hv4 : isV4 (v4Prefix ++ [192, 0, 2, i]) = true := by simp [isV4, to4, v4Prefix]
    simp only [reorderIPsByDNSMode, sampleIP, if_neg hmode, List.filter_cons, hv4]
    split
    · rfl
    · rfl
    · rfl
    · exact absurd ‹_› hmode
    · rfl

omit [CaseTables] in
theorem dedupe_joinHostPort (ip : IP) :
    dedupeDialCandidates [joinHostPort (ipString ip) "443"] =
      [joinHostPort (ipString ip) "443"] := by
  have hport : PortText "443" := portText_toString 443
  simp [dedupeDialCandidates, dedupeLoop, trimSpace_joinHostPort (bare_ipString ip) hport.bare,
    joinHostPort_ne_empty]

/-- There are enough of them. -/
theorem exists_sampleIP (dnsMode addr : String) :
    ∃ i, joinHostPort (ipString (sampleIP dnsMode i)) "443" ≠ addr := by
  have hne : joinHostPort (ipString (sampleIP dnsMode 1)) "443" ≠
      joinHostPort (ipString (sampleIP dnsMode 2)) "443" := by
    unfold sampleIP
    split
    · decide
    · decide
  by_cases hfirst : joinHostPort (ipString (sampleIP dnsMode 1)) "443" = addr
  · exact ⟨2, fun h => hne (hfirst.trans h.symm)⟩
  · exact ⟨1, hfirst⟩

theorem answers_oneName (host dnsMode : String) (i : UInt8) :
    answers (oneName host (sampleIP dnsMode i)) host dnsMode =
      [joinHostPort (ipString (sampleIP dnsMode i)) "443"] := by
  simp [answers, oneName, reorder_sampleIP, dedupe_joinHostPort]

theorem answers_oneName_ne {host other : String} (h : other ≠ host) (ip : IP) (dnsMode : String) :
    answers (oneName host ip) other dnsMode = [] := by
  simp [answers, oneName, h]

omit [CaseTables] in
theorem poolAddresses_one (ip : IP) :
    poolAddresses (onePoolAddress (ipString ip)) = some [joinHostPort (ipString ip) "443"] := by
  simp [poolAddresses, onePoolAddress, dedupe_joinHostPort]

theorem run_of_pool {plan : Plan} (h : plan.pool = true) (ip : IP) (dnsMode : String) :
    plan.run (onePoolAddress (ipString ip)) dnsMode = [joinHostPort (ipString ip) "443"] := by
  simp [Plan.run, h, poolAddresses_one]

theorem run_of_ask {plan : Plan} {host : String} (h : plan.ask = some host) (dnsMode : String)
    (i : UInt8) :
    plan.run (oneName host (sampleIP dnsMode i)) dnsMode =
      [joinHostPort (ipString (sampleIP dnsMode i)) "443"] := by
  have hpool : poolAddresses (oneName host (sampleIP dnsMode i)) = none := rfl
  simp [Plan.run, h, hpool, answers_oneName]

theorem run_unanswered {plan : Plan} {host : String} (h : plan.ask ≠ some host) (ip : IP)
    (dnsMode : String) : plan.run (oneName host ip) dnsMode = plan.otherwise := by
  have hpool : poolAddresses (oneName host ip) = none := rfl
  unfold Plan.run
  cases hask : plan.ask with
  | none => simp [hpool]
  | some other =>
    have hne : other ≠ host := fun heq => h (by rw [hask, heq])
    simp [hpool, answers_oneName_ne hne]

section Unresolved

variable {src : Sources} (h : src.dohResolver = none) (dnsMode : String)
include h

theorem answers_unresolved (host : String) : answers src host dnsMode = [] := by
  rw [answers, h]

theorem resolveDomainCandidates_unresolved (host : String) :
    resolveDomainCandidates src host "443" dnsMode = [] := by
  rw [resolveDomainCandidates_eq]
  cases askedName host with
  | none => rfl
  | some name => exact answers_unresolved h dnsMode name

/-- Without a resolver and without the pool only the last resort is left. -/
theorem run_unresolved {plan : Plan} (hpool : plan.pool = true → poolAddresses src = none) :
    plan.run src dnsMode = plan.otherwise := by
  have hnone : (if plan.pool then poolAddresses src else none) = none := by
    split
    · exact hpool ‹_›
    · rfl
  unfold Plan.run
  rw [hnone]
  cases plan.ask with
  | none => simp
  | some host => simp [answers_unresolved h dnsMode host]

end Unresolved

section Same

variable {p q : Plan} {dnsMode : String}

theorem otherwise_eq_of_run (h : ∀ src, p.run src dnsMode = q.run src dnsMode) :
    p.otherwise = q.otherwise := by
  have hnothing : ∀ plan : Plan, plan.run {} dnsMode = plan.otherwise := fun plan =>
    run_unresolved rfl dnsMode fun _ => rfl
  rw [← hnothing p, ← hnothing q, h]

/-- A plan that asks for the name gets another outcome than one that does not. -/
theorem ask_of_run (h : ∀ src, p.run src dnsMode = q.run src dnsMode) {host : String}
    (hp : p.ask = some host) : q.ask = some host := by
  by_contra hq
  obtain ⟨i, hi⟩ := exists_sampleIP dnsMode (q.otherwise.headD "")
  have hrun := h (oneName host (sampleIP dnsMode i))
  rw [run_of_ask hp, run_unanswered hq] at hrun
  exact hi (by rw [← hrun, List.headD_cons])

theorem pool_of_run (h : ∀ src, p.run src dnsMode = q.run src dnsMode) (hp : p.pool = true) :
    q.pool = true := by
  by_contra hq
  obtain ⟨i, hi⟩ := exists_sampleIP dnsMode (q.otherwise.headD "")
  have hrun := h (onePoolAddress (ipString (sampleIP dnsMode i)))
  rw [run_of_pool hp, run_unresolved rfl dnsMode fun hpool => absurd hpool hq] at hrun
  exact hi (by rw [← hrun, List.headD_cons])

theorem run_injective (h : ∀ src, p.run src dnsMode = q.run src dnsMode) : p = q := by
  have hback : ∀ src, q.run src dnsMode = p.run src dnsMode := fun src => (h src).symm
  have hpool : p.pool = q.pool := Bool.eq_iff_iff.mpr ⟨pool_of_run h, pool_of_run hback⟩
  have hask : p.ask = q.ask := Option.ext fun host => ⟨ask_of_run h, ask_of_run hback⟩
  have hotherwise := otherwise_eq_of_run h
  cases p
  cases q
  simp_all

/-- A plan leads to the target only, whatever the answers are, exactly when it leaves the pool
alone, resolves no other name and falls back on the target's address. -/
theorem run_origin_iff (plan : Plan) (targetHost targetAddr dnsMode : String) :
    (∀ src, ∀ c ∈ plan.run src dnsMode,
        c = targetAddr ∨ c ∈ resolveDomainCandidates src targetHost "443" dnsMode) ↔
      plan.pool = false ∧ (∀ host, plan.ask = some host → askedName targetHost = some host) ∧
        ∀ c ∈ plan.otherwise, c = targetAddr := by
  obtain ⟨i, hi⟩ := exists_sampleIP dnsMode targetAddr
  constructor
  · intro h
    refine ⟨?_, fun host hask => ?_, fun c hc => ?_⟩
    · by_contra hpool
      rw [Bool.not_eq_false] at hpool
      have hpooled := h (onePoolAddress (ipString (sampleIP dnsMode i)))
      rw [run_of_pool hpool] at hpooled
      rcases hpooled _ (List.mem_singleton_self _) with heq | hmem
      · exact hi heq
      · rw [resolveDomainCandidates_unresolved rfl] at hmem
        cases hmem
    · by_contra hother
      have hresolved := h (oneName host (sampleIP dnsMode i))
      rw [run_of_ask hask] at hresolved
      rcases hresolved _ (List.mem_singleton_self _) with heq | hmem
      · exact hi heq
      · rw [resolveDomainCandidates_eq] at hmem
        cases hasked : askedName targetHost with
        | none => simp [hasked] at hmem
        | some name =>
          have hne : name ≠ host := fun heq => hother (by rw [hasked, heq])
          simp [hasked, answers_oneName_ne hne] at hmem
    · have hleft := h {}
      rw [run_unresolved rfl dnsMode fun _ => rfl] at hleft
      rcases hleft c hc with heq | hmem
      · exact heq
      · rw [resolveDomainCandidates_unresolved rfl] at hmem
        cases hmem
  · rintro ⟨hpool, hask, hotherwise⟩ src c hc
    unfold Plan.run at hc
    simp only [hpool, Bool.false_eq_true, ↓reduceIte] at hc
    split at hc
    · rw [resolveDomainCandidates_eq]
      cases hasked : plan.ask with
      | none => simp [hasked] at hc
      | some host =>
        rw [hask host hasked]
        rw [hasked] at hc
        exact .inr hc
    · exact .inl (hotherwise c hc)

end Same

end

end SniShaper.Candidates
