import SniShaper.Front.Tunnel
import SniShaper.Route.Plans

/-! The upstream that `prepareConnect` of `proxy/proxy.go` decides on, and the one that is
dialled. The `connectResult` carries the rule but not the upstream: `dialUpstream` resolves
it again, for the target's host.

* `stage2_cases`: what laying the rule of the upstream host over the rule does;
* `decision_dialled_iff`: when the candidates are those of the decision;
* `stage2_takes_effect_iff`: when the upstreams of the rule laid over are the ones resolved. -/

namespace SniShaper.Decision

open Strings Net Config Hosts Match Candidates Front Tunnel

section

variable [CaseTables]

/-- The policy of the rule as `prepareConnect` reads it. -/
def policyOf (rule : Rule) : String := toLower (trimSpace rule.connectPolicy)

/-- The local `resolvedUpstream` at the end of `prepareConnect`. -/
def resolvedUpstream (router : Router) (targetHost : String) (rule : Rule) : String :=
  let mode := effectiveMode rule
  let resolved := policyUpstream targetHost rule
  if (mode = "mitm" ∨ mode = "transparent") ∧ trimSpace resolved ≠ "" then
    let upHost := firstUpstreamHost targetHost resolved
    let upRule := matchRule router upHost mode
    if upHost ≠ "" ∧ upRule.siteID ≠ "" then
      let merged := mergeRule rule upRule
      if trimSpace merged.upstream ≠ "" then resolveRuleUpstream upHost merged else resolved
    else resolved
  else resolved

/-- The candidates of `dialUpstream`, had the result carried the upstream `resolved`. -/
def dialledUnder (src : Sources) (cr : ConnectResult) (resolved : String) : List String :=
  let candidates :=
    candidatesUnder src cr.targetHost cr.targetAddr cr.rule cr.effectiveMode resolved
  if candidates = [] then [cr.targetAddr] else candidates

/-! ## The upstream of a rule -/

/-- A resolved upstream that stands for the list of upstreams. -/
def Placeholder (resolved : String) : Prop :=
  hasPrefix (toLower resolved) "$backend_ip" = true ∨
    hasPrefix (toLower resolved) "$upstream_host" = true ∨ hasPrefix resolved "$" = true

/-- The field leaves the choice to the list of upstreams: it is blank or a placeholder. -/
def Defers (host upstream : String) : Prop :=
  trimSpace (resolveUpstreamHost host upstream) = "" ∨
    Placeholder (trimSpace (resolveUpstreamHost host upstream))

/-- What such a field gives when there is no list. -/
def unlisted (host upstream : String) : String :=
  if trimSpace (resolveUpstreamHost host upstream) = "" then resolveUpstreamHost host upstream
  else joinHostPort host "443"

theorem not_placeholder_empty : ¬ Placeholder "" := by
  have hlow : toLower "" = "" := rfl
  rw [Placeholder, hlow]
  decide

theorem resolveRuleUpstream_defers {host : String} {rule : Rule} (h : Defers host rule.upstream) :
    resolveRuleUpstream host rule =
      if rule.upstreams ≠ [] then join rule.upstreams "," else unlisted host rule.upstream := by
  unfold resolveRuleUpstream unlisted
  by_cases hblank : trimSpace (resolveUpstreamHost host rule.upstream) = ""
  · by_cases hlist : rule.upstreams = []
    · have hplain := not_placeholder_empty
      unfold Placeholder at hplain
      simp only [hblank, hlist, ne_eq, not_true_eq_false, and_false, ↓reduceIte, if_neg hplain]
    · simp [hblank, hlist]
  · have hplaceholder := h.resolve_left hblank
    unfold Placeholder at hplaceholder
    simp only [hblank, false_and, ↓reduceIte, if_pos hplaceholder]

theorem resolveRuleUpstream_own {host : String} {rule : Rule} (h : ¬ Defers host rule.upstream) :
    resolveRuleUpstream host rule = resolveUpstreamHost host rule.upstream := by
  unfold Defers at h
  rw [not_or] at h
  obtain ⟨hblank, hplain⟩ := h
  unfold Placeholder at hplain
  simp only [resolveRuleUpstream, hblank, false_and, ↓reduceIte, if_neg hplain]

theorem defers_of_blank {host upstream : String} (h : trimSpace upstream = "") :
    Defers host upstream := by
  refine .inl ?_
  simp only [resolveUpstreamHost, h, ↓reduceIte]
  decide

/-- The field says the same for every host: it does not take up a label of the host, and if
it is a placeholder there is a list. -/
def HostFree (rule : Rule) : Prop :=
  contains (trimSpace rule.upstream) "$1" = false ∧
    (Placeholder (trimSpace rule.upstream) → rule.upstreams ≠ [])

theorem HostFree.resolveRuleUpstream_eq {rule : Rule} (h : HostFree rule) (host host' : String) :
    resolveRuleUpstream host rule = resolveRuleUpstream host' rule := by
  have hfield : ∀ host, resolveUpstreamHost host rule.upstream = trimSpace rule.upstream := by
    intro host
    unfold resolveUpstreamHost
    by_cases hblank : trimSpace rule.upstream = ""
    · simp [hblank]
    · simp [hblank, h.1]
  by_cases hlist : rule.upstreams = []
  · have hplain : ¬ Placeholder (trimSpace (trimSpace rule.upstream)) := fun hp => by
      rw [trimSpace_trimSpace] at hp
      exact h.2 hp hlist
    unfold Placeholder at hplain
    simp only [resolveRuleUpstream, hfield, hlist, ne_eq, not_true_eq_false, and_false, ↓reduceIte,
      if_neg hplain]
  · simp only [resolveRuleUpstream, hfield, hlist, ne_eq, not_false_eq_true, ↓reduceIte]

theorem resolveRuleUpstream_of_blank {host : String} {rule : Rule}
    (h : trimSpace rule.upstream = "") :
    resolveRuleUpstream host rule = join rule.upstreams "," := by
  rw [resolveRuleUpstream_defers (defers_of_blank h)]
  by_cases hlist : rule.upstreams = []
  · have hempty : resolveUpstreamHost host rule.upstream = "" := by simp [resolveUpstreamHost, h]
    have hblank : trimSpace "" = "" := by decide
    simp [hlist, unlisted, hempty, hblank, join]
  · rw [if_pos hlist]

/-! ## The second stage -/

/-- The rule `upRule` of the upstream host `upHost` is laid over the rule. -/
structure StageTwo (router : Router) (targetHost : String) (rule : Rule) (upHost : String)
    (upRule : Rule) : Prop where
  mode : effectiveMode rule = "mitm" ∨ effectiveMode rule = "transparent"
  resolved : trimSpace (policyUpstream targetHost rule) ≠ ""
  host : firstUpstreamHost targetHost (policyUpstream targetHost rule) = upHost
  host_ne : upHost ≠ ""
  matched : matchRule router upHost (effectiveMode rule) = upRule
  site : upRule.siteID ≠ ""

theorem StageTwo.unique {router : Router} {targetHost upHost upHost' : String}
    {rule upRule upRule' : Rule} (h : StageTwo router targetHost rule upHost upRule)
    (h' : StageTwo router targetHost rule upHost' upRule') :
    upHost' = upHost ∧ upRule' = upRule := by
  have hhost := h'.host.symm.trans h.host
  subst hhost
  exact ⟨rfl, h'.matched.symm.trans h.matched⟩

theorem stage2_cases (router : Router) (targetHost : String) (rule : Rule) :
    (∃ upHost upRule, StageTwo router targetHost rule upHost upRule ∧
      stage2Rule router targetHost rule = mergeRule rule upRule ∧
      resolvedUpstream router targetHost rule =
        if trimSpace (mergeRule rule upRule).upstream ≠ "" then
          resolveRuleUpstream upHost (mergeRule rule upRule)
        else policyUpstream targetHost rule) ∨
    ((∀ upHost upRule, ¬ StageTwo router targetHost rule upHost upRule) ∧
      stage2Rule router targetHost rule = rule ∧
      resolvedUpstream router targetHost rule = policyUpstream targetHost rule) := by
  unfold stage2Rule resolvedUpstream
  by_cases hmode : (effectiveMode rule = "mitm" ∨ effectiveMode rule = "transparent") ∧
      trimSpace (policyUpstream targetHost rule) ≠ ""
  · simp only [if_pos hmode]
    by_cases hsite : firstUpstreamHost targetHost (policyUpstream targetHost rule) ≠ "" ∧
        (matchRule router (firstUpstreamHost targetHost (policyUpstream targetHost rule))
          (effectiveMode rule)).siteID ≠ ""
    · simp only [if_pos hsite]
      exact .inl ⟨_, _, ⟨hmode.1, hmode.2, rfl, hsite.1, rfl, hsite.2⟩, rfl, rfl⟩
    · simp only [if_neg hsite, and_self, and_true]
      refine .inr fun upHost upRule h => hsite ?_
      rw [h.host, h.matched]
      exact ⟨h.host_ne, h.site⟩
  · simp only [if_neg hmode, and_self, and_true]
    exact .inr fun upHost upRule h => hmode ⟨h.mode, h.resolved⟩

/-- The policy leaves the upstream of the rule alone. -/
theorem policyUpstream_eq {targetHost : String} {rule : Rule}
    (horigin : policyOf rule ≠ "tunnel_origin") (hdirect : policyOf rule ≠ "direct") :
    policyUpstream targetHost rule = resolveRuleUpstream targetHost rule := by
  unfold policyOf at horigin hdirect
  unfold policyUpstream
  split
  · exact absurd ‹_› horigin
  · exact absurd ‹_› hdirect
  · rfl

theorem policyUpstream_origin {targetHost : String} {rule : Rule}
    (h : policyOf rule = "tunnel_origin") : policyUpstream targetHost rule = "" := by
  unfold policyOf at h
  simp [policyUpstream, h]

theorem policyUpstream_direct {targetHost : String} {rule : Rule} (h : policyOf rule = "direct") :
    policyUpstream targetHost rule = "" := by
  unfold policyOf at h
  simp [policyUpstream, h]

/-- A rule with an upstream left after its policy has one of the other policies. -/
theorem StageTwo.policyUpstream_eq {router : Router} {targetHost upHost : String}
    {rule upRule : Rule} (h : StageTwo router targetHost rule upHost upRule) :
    policyOf rule ≠ "tunnel_origin" ∧
      policyUpstream targetHost rule = resolveRuleUpstream targetHost rule := by
  have hblank : trimSpace "" = "" := by decide
  have horigin : policyOf rule ≠ "tunnel_origin" := fun hpolicy =>
    h.resolved (by rw [policyUpstream_origin hpolicy, hblank])
  have hdirect : policyOf rule ≠ "direct" := fun hpolicy =>
    h.resolved (by rw [policyUpstream_direct hpolicy, hblank])
  exact ⟨horigin, Decision.policyUpstream_eq horigin hdirect⟩

/-! ## What is dialled -/

theorem dialledUnder_eq_run (src : Sources) (cr : ConnectResult) (resolved : String) :
    dialledUnder src cr resolved =
      (planUnder cr.targetHost cr.targetAddr cr.rule cr.effectiveMode resolved).run src
        cr.rule.dnsMode := by
  unfold dialledUnder
  simp only [candidatesUnder_eq_run]
  exact if_neg (run_ne_nil (planUnder_otherwise_ne_nil _ _ _ _ _) _ _)

theorem connectCandidates_eq (w : World) (cr : ConnectResult) :
    connectCandidates w cr =
      dialledUnder w.src cr (resolveRuleUpstream cr.targetHost cr.rule) := by
  unfold connectCandidates dialledUnder
  rw [buildDialCandidates_eq]

/-- The name that is looked up for the addresses of an upstream: that of the first of them,
if it is a name. -/
def lookedUp (targetHost upstream : String) : Option String :=
  if firstUpstreamHost targetHost upstream ≠ "" ∧
      isLiteralIP (firstUpstreamHost targetHost upstream) = false then
    askedName (firstUpstreamHost targetHost upstream)
  else none

/-- Dialling the upstream is dialling the target: it is blank; or the rule does not use the
pool, and the upstream lists no address but the target's, under the target's name. -/
def IsTarget (targetHost targetAddr : String) (rule : Rule) (upstream : String) : Prop :=
  trimSpace upstream = "" ∨
    (rule.useCFPool = false ∧
      (∀ c ∈ splitUpstreamCandidates targetHost upstream "443", c = targetAddr) ∧
      lookedUp targetHost upstream = askedName targetHost)

/-- The upstreams list the same addresses. One that lists none stands for the target. -/
def ListSame (targetHost targetAddr s t : String) : Prop :=
  splitUpstreamCandidates targetHost s "443" = splitUpstreamCandidates targetHost t "443" ∨
    ((∀ c ∈ splitUpstreamCandidates targetHost s "443", c = targetAddr) ∧
      (∀ c ∈ splitUpstreamCandidates targetHost t "443", c = targetAddr) ∧
      lookedUp targetHost s = lookedUp targetHost t)

/-- One upstream may stand for the other. -/
def Alike (targetHost targetAddr : String) (rule : Rule) (s t : String) : Prop :=
  (IsTarget targetHost targetAddr rule s ∧ IsTarget targetHost targetAddr rule t) ∨
    (trimSpace s ≠ "" ∧ trimSpace t ≠ "" ∧ ListSame targetHost targetAddr s t)

/-- After the second stage: the merged rule is a warp rule; or its upstream says the same for
every host, or lists the same addresses for the target's host as for the upstream's; or, if
both rules leave the field blank, the list of the merged rule and that of the rule do. -/
def MergeAgrees (targetHost targetAddr upHost : String) (rule merged : Rule) : Prop :=
  equalFold (trimSpace merged.upstream) "warp" = true ∨
    if trimSpace merged.upstream ≠ "" then
      HostFree merged ∨
        Alike targetHost targetAddr merged (resolveRuleUpstream targetHost merged)
          (resolveRuleUpstream upHost merged)
    else
      Alike targetHost targetAddr merged (join merged.upstreams ",") (join rule.upstreams ",")

/-- The rule is one for which the upstream may be resolved again: under `tunnel_origin` it is a
warp rule or its upstream is the target; and the rule laid over it in the second stage agrees
with it. -/
def Agrees (router : Router) (targetHost targetAddr : String) (rule : Rule) : Prop :=
  (policyOf rule = "tunnel_origin" →
    equalFold (trimSpace rule.upstream) "warp" = true ∨
      IsTarget targetHost targetAddr rule (resolveRuleUpstream targetHost rule)) ∧
  ∀ upHost upRule, StageTwo router targetHost rule upHost upRule →
    MergeAgrees targetHost targetAddr upHost rule (mergeRule rule upRule)

/-- Whatever is answered, the same candidates: the same plan. -/
theorem same_dials_iff (cr : ConnectResult) (s t : String) :
    (∀ src, dialledUnder src cr s = dialledUnder src cr t) ↔
      planUnder cr.targetHost cr.targetAddr cr.rule cr.effectiveMode s =
        planUnder cr.targetHost cr.targetAddr cr.rule cr.effectiveMode t := by
  simp only [dialledUnder_eq_run]
  constructor
  · exact run_injective
  · intro h src
    rw [h]

/-! ### Plans of upstreams -/

section Plans

variable {targetHost targetAddr : String}

omit [CaseTables] in
theorem splitUpstreamCandidates_nodup (upstream port : String) :
    (splitUpstreamCandidates targetHost upstream port).Nodup := by
  unfold splitUpstreamCandidates
  simp only
  split
  · exact List.nodup_nil
  · rw [candidateLoop_eq_collect]
    exact Distinct.collect_nodup List.nodup_nil

theorem upstreamPlan_eq (upstream : String) :
    upstreamPlan targetHost targetAddr upstream =
      ⟨false, lookedUp targetHost upstream,
        if splitUpstreamCandidates targetHost upstream "443" = [] then [targetAddr]
        else splitUpstreamCandidates targetHost upstream "443"⟩ := by
  unfold upstreamPlan lookedUp
  cases hlist : splitUpstreamCandidates targetHost upstream "443" with
  | nil =>
    have hfirst : firstUpstreamHost targetHost upstream = "" := by rw [firstUpstreamHost, hlist]
    simp [hfirst]
  | cons first rest => simp

omit [CaseTables] in
/-- All that an upstream lists is the target. -/
theorem otherwise_eq_iff (upstream : String) :
    (if splitUpstreamCandidates targetHost upstream "443" = [] then [targetAddr]
      else splitUpstreamCandidates targetHost upstream "443") = [targetAddr] ↔
    ∀ c ∈ splitUpstreamCandidates targetHost upstream "443", c = targetAddr := by
  have hnodup := @splitUpstreamCandidates_nodup targetHost upstream "443"
  generalize splitUpstreamCandidates targetHost upstream "443" = listed at hnodup ⊢
  constructor
  · intro h
    by_cases hempty : listed = []
    · simp [hempty]
    · rw [if_neg hempty] at h
      simp [h]
  · intro hall
    match listed, hnodup with
    | [], _ => rfl
    | [c], _ => simp [hall c]
    | c :: d :: rest, hnodup =>
      have hsame : c = d := (hall c (by simp)).trans (hall d (by simp)).symm
      simp [hsame] at hnodup

theorem upstreamPlan_eq_ownPlan_iff (rule : Rule) (upstream : String) :
    upstreamPlan targetHost targetAddr upstream =
        ownPlan rule.useCFPool targetHost targetAddr ↔
      rule.useCFPool = false ∧
        (∀ c ∈ splitUpstreamCandidates targetHost upstream "443", c = targetAddr) ∧
        lookedUp targetHost upstream = askedName targetHost := by
  rw [upstreamPlan_eq, ownPlan, Plan.mk.injEq, otherwise_eq_iff]
  constructor
  · rintro ⟨hpool, hask, hall⟩
    exact ⟨hpool.symm, hall, hask⟩
  · rintro ⟨hpool, hall, hask⟩
    exact ⟨hpool.symm, hask, hall⟩

theorem lookedUp_congr {s t : String}
    (h : splitUpstreamCandidates targetHost s "443" = splitUpstreamCandidates targetHost t "443") :
    lookedUp targetHost s = lookedUp targetHost t := by
  have hfirst : firstUpstreamHost targetHost s = firstUpstreamHost targetHost t := by
    rw [firstUpstreamHost, h, firstUpstreamHost]
  rw [lookedUp, hfirst, lookedUp]

theorem upstreamPlan_eq_iff (s t : String) :
    upstreamPlan targetHost targetAddr s = upstreamPlan targetHost targetAddr t ↔
      ListSame targetHost targetAddr s t := by
  have hs := @otherwise_eq_iff targetHost targetAddr s
  have ht := @otherwise_eq_iff targetHost targetAddr t
  rw [upstreamPlan_eq, upstreamPlan_eq, Plan.mk.injEq]
  constructor
  · rintro ⟨-, hask, hotherwise⟩
    by_cases hnone : splitUpstreamCandidates targetHost s "443" = []
    · rw [if_pos hnone] at hotherwise
      exact .inr ⟨by simp [hnone], ht.mp hotherwise.symm, hask⟩
    · by_cases hnone' : splitUpstreamCandidates targetHost t "443" = []
      · rw [if_pos hnone'] at hotherwise
        exact .inr ⟨hs.mp hotherwise, by simp [hnone'], hask⟩
      · rw [if_neg hnone, if_neg hnone'] at hotherwise
        exact .inl hotherwise
  · rintro (hsame | ⟨hall, hall', hask⟩)
    · exact ⟨rfl, lookedUp_congr hsame, by rw [hsame]⟩
    · exact ⟨rfl, hask, (hs.mpr hall).trans (ht.mpr hall').symm⟩

/-- In a mode that resolves, and but for warp rules: two upstreams have one plan exactly when
they are alike. -/
theorem planUnder_eq_iff {rule : Rule} {mode : String} (hmode : resolvesTarget mode = true)
    (hwarp : ¬ equalFold (trimSpace rule.upstream) "warp" = true) (s t : String) :
    planUnder targetHost targetAddr rule mode s = planUnder targetHost targetAddr rule mode t ↔
      Alike targetHost targetAddr rule s t := by
  have hplan : ∀ u, planUnder targetHost targetAddr rule mode u =
      if trimSpace u ≠ "" then upstreamPlan targetHost targetAddr u
      else ownPlan rule.useCFPool targetHost targetAddr := by
    intro u
    rw [planUnder, if_neg hwarp, if_pos hmode]
  rw [hplan, hplan]
  unfold Alike IsTarget
  by_cases hs : trimSpace s = ""
  · by_cases ht : trimSpace t = ""
    · simp [hs, ht]
    · rw [if_neg (by simp [hs]), if_pos ht, eq_comm, upstreamPlan_eq_ownPlan_iff]
      simp [hs, ht]
  · by_cases ht : trimSpace t = ""
    · rw [if_pos hs, if_neg (by simp [ht]), upstreamPlan_eq_ownPlan_iff]
      simp [hs, ht]
    · rw [if_pos hs, if_pos ht]
      simp only [hs, ht, false_or, ne_eq, not_false_eq_true, true_and]
      constructor
      · exact fun h => .inr ((upstreamPlan_eq_iff s t).mp h)
      · rintro (⟨hsame, htsame⟩ | h)
        · exact ((upstreamPlan_eq_ownPlan_iff rule s).mpr hsame).trans
            ((upstreamPlan_eq_ownPlan_iff rule t).mpr htsame).symm
        · exact (upstreamPlan_eq_iff s t).mpr h

end Plans

theorem planUnder_warp {rule : Rule} (h : equalFold (trimSpace rule.upstream) "warp" = true)
    (targetHost targetAddr mode s : String) :
    planUnder targetHost targetAddr rule mode s = ownPlan false targetHost targetAddr := by
  rw [planUnder, if_pos h]

/-- Under `tunnel_origin`, against no upstream. -/
theorem origin_plan_iff {targetHost targetAddr : String} {rule : Rule} {mode : String}
    (hmode : resolvesTarget mode = true) (s : String) :
    planUnder targetHost targetAddr rule mode s = planUnder targetHost targetAddr rule mode "" ↔
      equalFold (trimSpace rule.upstream) "warp" = true ∨
        IsTarget targetHost targetAddr rule s := by
  by_cases hwarp : equalFold (trimSpace rule.upstream) "warp" = true
  · simp [hwarp, planUnder_warp hwarp]
  · have hblank : trimSpace "" = "" := by decide
    rw [planUnder_eq_iff hmode hwarp]
    simp [hwarp, Alike, IsTarget, hblank]

omit [CaseTables] in
theorem upstream_blank_of_merge {base overlay : Rule}
    (h : trimSpace (mergeRule base overlay).upstream = "") : trimSpace base.upstream = "" := by
  have hup : (mergeRule base overlay).upstream = orBase overlay.upstream base.upstream := rfl
  rw [hup, orBase] at h
  split at h
  · exact absurd h ‹_›
  · exact h

/-- The upstream of the rule of the connection, against the one decided on. -/
theorem merge_plan_iff {router : Router} {targetHost targetAddr upHost : String}
    {rule upRule : Rule} (hstage : StageTwo router targetHost rule upHost upRule) :
    planUnder targetHost targetAddr (mergeRule rule upRule) (effectiveMode rule)
        (resolveRuleUpstream targetHost (mergeRule rule upRule)) =
      planUnder targetHost targetAddr (mergeRule rule upRule) (effectiveMode rule)
        (if trimSpace (mergeRule rule upRule).upstream ≠ "" then
          resolveRuleUpstream upHost (mergeRule rule upRule)
        else resolveRuleUpstream targetHost rule) ↔
      MergeAgrees targetHost targetAddr upHost rule (mergeRule rule upRule) := by
  have hmode : resolvesTarget (effectiveMode rule) = true := by
    rcases hstage.mode with h | h <;> rw [h] <;> decide
  unfold MergeAgrees
  by_cases hwarp : equalFold (trimSpace (mergeRule rule upRule).upstream) "warp" = true
  · simp [hwarp, planUnder_warp hwarp]
  · rw [planUnder_eq_iff hmode hwarp, or_iff_right hwarp]
    by_cases hblank : trimSpace (mergeRule rule upRule).upstream = ""
    · have hbase := upstream_blank_of_merge hblank
      simp only [hblank, ne_eq, not_true_eq_false, ↓reduceIte,
        resolveRuleUpstream_of_blank hblank, resolveRuleUpstream_of_blank hbase]
    · simp only [hblank, ne_eq, not_false_eq_true, ↓reduceIte]
      constructor
      · exact .inr
      · rintro (hfree | h)
        · rw [hfree.resolveRuleUpstream_eq targetHost upHost]
          exact (planUnder_eq_iff hmode hwarp _ _).mp rfl
        · exact h

theorem decidedPlan_iff (router : Router) (targetHost targetAddr : String) (rule : Rule) :
    planUnder targetHost targetAddr (stage2Rule router targetHost rule) (effectiveMode rule)
        (resolveRuleUpstream targetHost (stage2Rule router targetHost rule)) =
      planUnder targetHost targetAddr (stage2Rule router targetHost rule) (effectiveMode rule)
        (resolvedUpstream router targetHost rule) ↔
      Agrees router targetHost targetAddr rule := by
  rcases stage2_cases router targetHost rule with
    ⟨upHost, upRule, hstage, hrule, hup⟩ | ⟨hnone, hrule, hup⟩
  · rw [hrule, hup, hstage.policyUpstream_eq.2, merge_plan_iff hstage]
    constructor
    · intro hmerge
      refine ⟨fun horigin => absurd horigin hstage.policyUpstream_eq.1, ?_⟩
      intro upHost' upRule' hstage'
      obtain ⟨rfl, rfl⟩ := hstage.unique hstage'
      exact hmerge
    · intro hagrees
      exact hagrees.2 upHost upRule hstage
  · rw [hrule, hup]
    by_cases horigin : policyOf rule = "tunnel_origin"
    · have hmode : resolvesTarget (effectiveMode rule) = true := by
        unfold policyOf at horigin
        simp [effectiveMode, horigin, resolvesTarget]
      rw [policyUpstream_origin horigin, origin_plan_iff hmode]
      exact ⟨fun hsame => ⟨fun _ => hsame, fun upHost upRule h => absurd h (hnone _ _)⟩,
        fun hagrees => hagrees.1 horigin⟩
    · refine iff_of_true ?_
        ⟨fun h => absurd h horigin, fun upHost upRule h => absurd h (hnone _ _)⟩
      by_cases hdirect : policyOf rule = "direct"
      · -- a direct connection has no candidates but the target
        have hmode : effectiveMode rule = "direct" := by
          unfold policyOf at hdirect
          simp [effectiveMode, hdirect]
        have hown : resolvesTarget "direct" = false := by decide
        unfold planUnder
        simp only [hmode, hown, Bool.false_eq_true, ↓reduceIte]
      · rw [policyUpstream_eq horigin hdirect]

/-- Under `tunnel_origin` the rule leads to the target only: it is a warp rule, or has no
upstream and no pool, or all its upstreams are the target. -/
def AtOrigin (targetHost targetAddr : String) (rule : Rule) : Prop :=
  equalFold (trimSpace rule.upstream) "warp" = true ∨
  (trimSpace (resolveRuleUpstream targetHost rule) = "" ∧ rule.useCFPool = false) ∨
  (trimSpace (resolveRuleUpstream targetHost rule) ≠ "" ∧
    (∀ c ∈ splitUpstreamCandidates targetHost (resolveRuleUpstream targetHost rule) "443",
      c = targetAddr) ∧
    ∀ host, firstUpstreamHost targetHost (resolveRuleUpstream targetHost rule) ≠ "" →
      isLiteralIP (firstUpstreamHost targetHost (resolveRuleUpstream targetHost rule)) = false →
      askedName (firstUpstreamHost targetHost (resolveRuleUpstream targetHost rule)) = some host →
      askedName targetHost = some host)

theorem atOrigin_iff (targetHost targetAddr : String) (rule : Rule) :
    ((planUnder targetHost targetAddr rule "transparent"
          (resolveRuleUpstream targetHost rule)).pool = false ∧
        (∀ host, (planUnder targetHost targetAddr rule "transparent"
          (resolveRuleUpstream targetHost rule)).ask = some host →
            askedName targetHost = some host) ∧
        ∀ c ∈ (planUnder targetHost targetAddr rule "transparent"
          (resolveRuleUpstream targetHost rule)).otherwise, c = targetAddr) ↔
      AtOrigin targetHost targetAddr rule := by
  have hmode : resolvesTarget "transparent" = true := by decide
  unfold AtOrigin planUnder
  generalize resolveRuleUpstream targetHost rule = resolved
  by_cases hwarp : equalFold (trimSpace rule.upstream) "warp" = true
  · simp [hwarp, ownPlan]
  · by_cases hblank : trimSpace resolved = ""
    · simp [hwarp, hmode, hblank, ownPlan]
    · simp only [hwarp, hmode, hblank, ne_eq, not_false_eq_true, ↓reduceIte, Bool.false_eq_true,
        false_or, false_and, true_and]
      unfold upstreamPlan
      cases hsplit : splitUpstreamCandidates targetHost resolved "443" with
      | nil =>
        have hfirst : firstUpstreamHost targetHost resolved = "" := by
          rw [firstUpstreamHost, hsplit]
        simp [hfirst]
      | cons first rest =>
        simp only [true_and]
        rw [and_comm]
        refine and_congr_right fun _ => forall_congr' fun host => ?_
        by_cases hname : firstUpstreamHost targetHost resolved ≠ "" ∧
            isLiteralIP (firstUpstreamHost targetHost resolved) = false
        · simp [hname]
        · rw [if_neg hname]
          constructor
          · intro _ hne hliteral
            exact absurd ⟨hne, hliteral⟩ hname
          · intro _ hnone
            cases hnone

end

/-- The rule of a site that is to be tunnelled to its own servers. -/
def originRule (upstream : String) : Rule :=
  { mode := "mitm", connectPolicy := "tunnel_origin", upstream := upstream }

/-- A table with one rule, that of the upstream's host. -/
def upstreamSite (upstream : String) (upstreams : List String) : Router where
  rules :=
    [{ domain := "up.example", mode := "mitm", enabled := true, siteID := "up"
       upstream := upstream, upstreams := upstreams }]
  regexpMatch _ _ := none
  autoRouter := none
  autoRoutingMode := ""

/-- A rule whose upstream has a rule of its own. -/
def frontRule : Rule := { mode := "mitm", upstream := "up.example" }

/-- An upstream that is the target keeps the pool out, which the decision lets in. -/
example :
    let rule := { originRule "a.example:443" with useCFPool := true }
    let w := { sampleWorld "h2" [] with src := onePoolAddress "192.0.2.1" }
    connectCandidates w (prepareConnect w.router "a.example" "a.example:443" rule) =
        ["a.example:443"] ∧
      dialledUnder w.src (prepareConnect w.router "a.example" "a.example:443" rule)
        (resolvedUpstream w.router "a.example" rule) = ["192.0.2.1:443"] := by
  decide +kernel

section

variable [CaseTables]

/-! ## Two rules laid over each other -/

/-- The upstreams of the overlay are the ones that count: its own field, unless that leaves
the choice to the list of the base; or its list, if the field of the base leaves the choice to
a list. -/
def TakesEffect (host : String) (base overlay : Rule) : Prop :=
  if trimSpace overlay.upstream ≠ "" then
    ¬ Defers host overlay.upstream ∨ overlay.upstreams ≠ [] ∨ base.upstreams = [] ∨
      join base.upstreams "," = unlisted host overlay.upstream
  else
    Defers host base.upstream ∨
      resolveUpstreamHost host base.upstream = join overlay.upstreams ","

theorem merge_resolves_iff (host : String) {base overlay : Rule}
    (hnames : trimSpace overlay.upstream ≠ "" ∨ overlay.upstreams ≠ []) :
    resolveRuleUpstream host (mergeRule base overlay) = resolveRuleUpstream host overlay ↔
      TakesEffect host base overlay := by
  unfold TakesEffect
  by_cases hblank : trimSpace overlay.upstream = ""
  · have hlist : overlay.upstreams ≠ [] := hnames.resolve_left (by simp [hblank])
    have hup : (mergeRule base overlay).upstream = base.upstream := by
      simp [mergeRule, orBase, hblank]
    have hups : (mergeRule base overlay).upstreams = overlay.upstreams := by
      simp [mergeRule, hlist]
    rw [if_neg (by simp [hblank]), resolveRuleUpstream_defers (defers_of_blank hblank),
      if_pos hlist]
    by_cases hdefers : Defers host base.upstream
    · rw [resolveRuleUpstream_defers (by rwa [hup]), hups, if_pos hlist]
      exact iff_of_true rfl (.inl hdefers)
    · rw [resolveRuleUpstream_own (by rwa [hup]), hup]
      simp [hdefers]
  · have hup : (mergeRule base overlay).upstream = overlay.upstream := by
      simp [mergeRule, orBase, hblank]
    rw [if_pos hblank]
    by_cases hdefers : Defers host overlay.upstream
    · rw [resolveRuleUpstream_defers (by rwa [hup]), resolveRuleUpstream_defers hdefers, hup]
      by_cases hlist : overlay.upstreams = []
      · have hups : (mergeRule base overlay).upstreams = base.upstreams := by
          simp [mergeRule, hlist]
        rw [hups, hlist]
        by_cases hbase : base.upstreams = []
        · simp [hbase]
        · simp [hbase, hdefers]
      · have hups : (mergeRule base overlay).upstreams = overlay.upstreams := by
          simp [mergeRule, hlist]
        simp [hups, hlist]
    · rw [resolveRuleUpstream_own (by rwa [hup]), resolveRuleUpstream_own hdefers, hup]
      simp [hdefers]

theorem firstUpstreamHost_blank {targetHost s : String} (h : trimSpace s = "") :
    firstUpstreamHost targetHost s = "" := by
  simp [firstUpstreamHost, splitUpstreamCandidates, resolveUpstreamHost, h]

/-- **The second stage.** Where a site rule with upstreams of its own is laid over the rule,
the upstream that is resolved from the result, for any host, is that of the site rule exactly
when its upstreams are the ones that count. -/
theorem stage2_takes_effect_iff (router : Router) (targetHost targetAddr : String) (rule : Rule)
    (hmode : effectiveMode rule = "mitm" ∨ effectiveMode rule = "transparent")
    (horigin : policyOf rule ≠ "tunnel_origin") (hdirect : policyOf rule ≠ "direct")
    {u : String} (hu : firstUpstreamHost targetHost (resolveRuleUpstream targetHost rule) = u)
    (hne : u ≠ "") (hsite : (matchRule router u (effectiveMode rule)).siteID ≠ "")
    (hnames : trimSpace (matchRule router u (effectiveMode rule)).upstream ≠ "" ∨
      (matchRule router u (effectiveMode rule)).upstreams ≠ []) (host : String) :
    resolveRuleUpstream host (prepareConnect router targetHost targetAddr rule).rule =
        resolveRuleUpstream host (matchRule router u (effectiveMode rule)) ↔
      TakesEffect host rule (matchRule router u (effectiveMode rule)) := by
  have hpolicy := @policyUpstream_eq _ targetHost rule horigin hdirect
  have hstage : StageTwo router targetHost rule u (matchRule router u (effectiveMode rule)) := by
    refine ⟨hmode, fun hblank => hne ?_, by rw [hpolicy, hu], hne, rfl, hsite⟩
    rw [hpolicy] at hblank
    rw [← hu, firstUpstreamHost_blank hblank]
  rcases stage2_cases router targetHost rule with ⟨upHost, upRule, hstage', hrule, -⟩ | ⟨hnone, -⟩
  · obtain ⟨rfl, rfl⟩ := hstage.unique hstage'
    rw [prepareConnect, hrule]
    exact merge_resolves_iff host hnames
  · exact absurd hstage (hnone _ _)

end

theorem own_upstream_takes_effect :
    (effectiveMode frontRule = "mitm" ∨ effectiveMode frontRule = "transparent") ∧
      policyOf frontRule ≠ "tunnel_origin" ∧ policyOf frontRule ≠ "direct" ∧
      resolveRuleUpstream "a.example"
          (prepareConnect (upstreamSite "192.0.2.5:8443" []) "a.example" "a.example:443"
            frontRule).rule =
        resolveRuleUpstream "a.example"
          (matchRule (upstreamSite "192.0.2.5:8443" []) "up.example"
            (effectiveMode frontRule)) := by
  have hmode : effectiveMode frontRule = "mitm" ∨ effectiveMode frontRule = "transparent" :=
    .inl (by decide)
  refine ⟨hmode, by decide, by decide, ?_⟩
  refine (stage2_takes_effect_iff (upstreamSite "192.0.2.5:8443" []) "a.example" "a.example:443"
    frontRule hmode (by decide) (by decide) (by decide) (by decide) (by decide) (.inl (by decide))
    "a.example").mpr ?_
  rw [TakesEffect, if_pos (by decide)]
  exact .inr (.inr (.inl rfl))

/-- The list of the upstream's rule is taken over and never looked at. -/
theorem list_without_effect :
    firstUpstreamHost "a.example" (resolveRuleUpstream "a.example" frontRule) = "up.example" ∧
      (matchRule (upstreamSite "" ["192.0.2.5:8443"]) "up.example"
        (effectiveMode frontRule)).siteID = "up" ∧
      resolveRuleUpstream "a.example"
          (matchRule (upstreamSite "" ["192.0.2.5:8443"]) "up.example" (effectiveMode frontRule)) =
        "192.0.2.5:8443" ∧
      resolveRuleUpstream "a.example"
          (prepareConnect (upstreamSite "" ["192.0.2.5:8443"]) "a.example" "a.example:443"
            frontRule).rule = "up.example" := by
  decide +kernel

end SniShaper.Decision
