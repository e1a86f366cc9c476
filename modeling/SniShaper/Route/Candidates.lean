import SniShaper.Route.Hosts

/-! The addresses a connection is tried on (`buildDialCandidates` and what it calls in
`proxy/proxy.go`). The answers of the resolver and of the Cloudflare pool are given.

* `resolveDomainCandidates_port`: what the resolver answers is dialled on the given port;
* `buildDialCandidates_plain`: the candidates of a rule without upstreams and pool. -/

namespace SniShaper.Candidates

open Strings Net Config Hosts

variable [CaseTables]

def normalizeDNSMode (mode : String) : String :=
  let m := toLower (trimSpace mode)
  if m = "prefer_ipv4" ∨ m = "prefer_ipv6" ∨ m = "ipv4_only" ∨ m = "ipv6_only" then m else ""

def reorderIPsByDNSMode (ips : List IP) (mode : String) : List IP :=
  let v4s := ips.filter isV4
  let v6s := ips.filter fun ip => !isV4 ip
  match normalizeDNSMode mode with
  | "prefer_ipv4" => v4s ++ v6s
  | "prefer_ipv6" => v6s ++ v4s
  | "ipv4_only" => v4s
  | "ipv6_only" => v6s
  | _ => ips

/-- The loop of `dedupeDialCandidates`, with what was kept so far. -/
def dedupeLoop : List String → List String → List String
  | [], out => out
  | c :: cs, out =>
    let candidate := trimSpace c
    if candidate = "" ∨ candidate ∈ out then dedupeLoop cs out
    else dedupeLoop cs (out ++ [candidate])

def dedupeDialCandidates (candidates : List String) : List String := dedupeLoop candidates []

/-- What the proxy can ask for addresses: the DoH resolver (`ResolveIPAddrs`) and the
Cloudflare pool (`GetTopIPs`), if they are set. -/
structure Sources where
  dohResolver : Option (String → Except String (List IP)) := none
  cfPool : Option (Nat → List String) := none

def resolveDomainCandidates (src : Sources) (host port dnsMode : String) : List String :=
  let host := normalizeHost host
  if host = "" ∨ isLiteralIP host = true then []
  else match src.dohResolver with
    | none => []
    | some resolveIPAddrs =>
      match resolveIPAddrs host with
      | .error _ => []
      | .ok ips =>
        dedupeDialCandidates
          ((reorderIPsByDNSMode ips dnsMode).map fun ip => joinHostPort (ipString ip) port)

/-- The modes in which a rule's upstreams, the pool and the resolver are used. -/
def resolvesTarget (effectiveMode : String) : Bool :=
  effectiveMode = "mitm" || effectiveMode = "transparent" || effectiveMode = "tls-rf" ||
    effectiveMode = "quic"

/-- The candidates of a resolved upstream. -/
def upstreamCandidates (src : Sources) (targetHost targetAddr resolved dnsMode : String) :
    List String :=
  match splitUpstreamCandidates targetHost resolved "443" with
  | [] => [targetAddr]
  | candidates =>
    let firstHost := firstUpstreamHost targetHost resolved
    let found :=
      if firstHost ≠ "" ∧ isLiteralIP firstHost = false then
        resolveDomainCandidates src firstHost "443" dnsMode
      else []
    if found ≠ [] then found else candidates

/-- The candidates of the pool, if the rule uses it and it has any. -/
def poolCandidates (src : Sources) (rule : Rule) : Option (List String) :=
  match src.cfPool with
  | none => none
  | some getTopIPs =>
    let topIPs := getTopIPs 5
    if rule.useCFPool = true ∧ topIPs ≠ [] then
      some (dedupeDialCandidates (topIPs.map fun ip => joinHostPort ip "443"))
    else none

def buildDialCandidates (src : Sources) (targetHost targetAddr : String) (rule : Rule)
    (effectiveMode : String) : List String :=
  let resolvedUpstream := resolveRuleUpstream targetHost rule
  let ownAddresses :=
    let resolved := resolveDomainCandidates src targetHost "443" rule.dnsMode
    if resolved ≠ [] then resolved else [targetAddr]
  if equalFold (trimSpace rule.upstream) "warp" then ownAddresses
  else if resolvesTarget effectiveMode then
    if trimSpace resolvedUpstream ≠ "" then
      upstreamCandidates src targetHost targetAddr resolvedUpstream rule.dnsMode
    else match poolCandidates src rule with
      | some candidates => candidates
      | none => ownAddresses
  else [targetAddr]

/-! ## What the loops keep -/

omit [CaseTables] in
theorem dedupeLoop_eq_collect (candidates out : List String) :
    dedupeLoop candidates out = Distinct.collect trimSpace "" candidates out := by
  induction candidates generalizing out with
  | nil => rfl
  | cons c candidates ih => simp only [dedupeLoop, Distinct.collect, ih]

omit [CaseTables] in
theorem mem_dedupeDialCandidates {candidates : List String} {c : String} :
    c ∈ dedupeDialCandidates candidates ↔ c ≠ "" ∧ ∃ x ∈ candidates, trimSpace x = c := by
  rw [dedupeDialCandidates, dedupeLoop_eq_collect, Distinct.mem_collect]
  simp

/-! ## The resolver's answers -/

/-- The candidates are addresses of the answer, each with the port. -/
theorem mem_resolveDomainCandidates {src : Sources} {host port dnsMode c : String}
    (hp : PortText port) (h : c ∈ resolveDomainCandidates src host port dnsMode) :
    ∃ ip, c = joinHostPort (ipString ip) port := by
  unfold resolveDomainCandidates at h
  simp only at h
  split at h
  · cases h
  · split at h
    · cases h
    · split at h
      · cases h
      · obtain ⟨-, x, hx, rfl⟩ := mem_dedupeDialCandidates.mp h
        obtain ⟨ip, -, rfl⟩ := List.mem_map.mp hx
        exact ⟨ip, trimSpace_joinHostPort (bare_ipString ip) hp.bare⟩

theorem resolveDomainCandidates_port {src : Sources} {host port dnsMode c : String}
    (hp : PortText port) (h : c ∈ resolveDomainCandidates src host port dnsMode) :
    portOf c = some port := by
  obtain ⟨ip, rfl⟩ := mem_resolveDomainCandidates hp h
  exact portOf_joinHostPort _ hp.noColon

/-! ## Rules without upstreams -/

theorem resolveRuleUpstream_none (targetHost : String) {rule : Rule}
    (hup : trimSpace rule.upstream = "") (hups : rule.upstreams = []) :
    resolveRuleUpstream targetHost rule = "" := by
  have hblank : trimSpace "" = "" := by decide
  have hlow : toLower "" = "" := rfl
  have hplaceholder : ¬ (hasPrefix "" "$backend_ip" = true ∨ hasPrefix "" "$upstream_host" = true ∨
      hasPrefix "" "$" = true) := by decide
  simp only [resolveRuleUpstream, resolveUpstreamHost, hup, hups, hblank, hlow, ↓reduceIte, ne_eq,
    not_true_eq_false, and_false, hplaceholder]

omit [CaseTables] in
theorem poolCandidates_unused (src : Sources) {rule : Rule} (h : rule.useCFPool = false) :
    poolCandidates src rule = none := by
  unfold poolCandidates
  cases src.cfPool with
  | none => rfl
  | some getTopIPs => simp [h]

/-- Only the resolver is asked, in the modes that ask it. -/
theorem buildDialCandidates_plain (src : Sources) (targetHost targetAddr : String) {rule : Rule}
    (mode : String) (hup : trimSpace rule.upstream = "") (hups : rule.upstreams = [])
    (hpool : rule.useCFPool = false) :
    buildDialCandidates src targetHost targetAddr rule mode =
      if resolvesTarget mode = true ∧
          resolveDomainCandidates src targetHost "443" rule.dnsMode ≠ [] then
        resolveDomainCandidates src targetHost "443" rule.dnsMode
      else [targetAddr] := by
  have hwarp : equalFold "" "warp" = false := rfl
  have hblank : trimSpace "" = "" := by decide
  simp only [buildDialCandidates, hup, hwarp, resolveRuleUpstream_none targetHost hup hups, hblank,
    poolCandidates_unused src hpool, Bool.false_eq_true, ↓reduceIte, ne_eq, not_true_eq_false]
  by_cases hmode : resolvesTarget mode = true
  · simp only [hmode, ↓reduceIte, true_and]
  · simp only [hmode, Bool.false_eq_true, ↓reduceIte, false_and]

/-- A resolver that gives one address to every name. -/
def oneAddress : Sources where
  dohResolver := some fun _ => .ok [v4Prefix ++ [192, 0, 2, 7]]

end SniShaper.Candidates
