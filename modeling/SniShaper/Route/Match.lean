import Mathlib.Algebra.Ring.Nat
import SniShaper.Lib.FirstMax
import SniShaper.Route.Candidates

/-! The choice of a rule (`matchRule` and `domainMatchScore` of `proxy/proxy.go`, `Decide`
of `proxy/auto_routing.go`). Regular expressions, the GFW list and the Cloudflare check
are given by the router.

* `bestRule_eq_scan`: the loop is a scan for the best score;
* `bestRule_eq_none_iff`: when no rule of the table is found;
* `transparent_spares_iff`: when the global mode transparent keeps a host from MITM. -/

namespace SniShaper.Match

open Strings Config Hosts

section

variable [CaseTables]

/-- The auto router: its preset and what it asks about a host. -/
structure AutoRouter where
  mode : String
  isBlocked : String → Bool
  isCloudflare : String → Bool

/-- What a rule is chosen from. `regexpMatch` has no answer for a pattern that does not
compile. -/
structure Router where
  rules : List Rule
  regexpMatch : String → String → Option Bool
  autoRouter : Option AutoRouter
  autoRoutingMode : String

/-- The length of a text in bytes. -/
def byteLen (s : String) : Nat := (s.toList.map Char.utf8Size).sum

/-- The labels of `base` occur in `host` with a label after them. -/
def hasInnerLabels (hostParts baseParts : List String) : Bool :=
  (List.range (hostParts.length - baseParts.length)).any fun i =>
    (hostParts.drop i).take baseParts.length == baseParts

/-- `none` stands for the score -1. -/
def domainMatchScore (regexpMatch : String → String → Option Bool) (host domain : String) :
    Option Nat :=
  let host := toLower (trimSpace host)
  let domain := toLower (trimSpace domain)
  if host = "" ∨ domain = "" then none
  else if hasPrefix domain "~" then
    let pattern := trimSpace (trimPrefix domain "~")
    if pattern = "" then none
    else if regexpMatch pattern host = some true then some (900 + byteLen pattern)
    else none
  else
    let domain := trimSuffix (trimPrefix domain "*.") "$"
    if hasSuffix domain ".*" then
      let base := trimSuffix domain ".*"
      if base = "" then none
      else if hasInnerLabels (split host '.') (split base '.') then some (byteLen base)
      else none
    else if host = domain then some (byteLen domain + 1000)
    else if hasSuffix host ("." ++ domain) then some (byteLen domain)
    else none

/-- The loop of `matchRule`: the best rule so far and its score. -/
def bestRule (regexpMatch : String → String → Option Bool) (host : String) :
    List Rule → Option (Rule × Nat) → Option (Rule × Nat)
  | [], best => best
  | rule :: rules, best =>
    let score := if rule.enabled then domainMatchScore regexpMatch host rule.domain else none
    match score, best with
    | none, _ => bestRule regexpMatch host rules best
    | some n, none => bestRule regexpMatch host rules (some (rule, n))
    | some n, some (_, m) =>
      if m < n then bestRule regexpMatch host rules (some (rule, n))
      else bestRule regexpMatch host rules best

def directRule : Rule := { mode := "direct", enabled := true }

def AutoRouter.decide (ar : AutoRouter) (host : String) : Rule :=
  if ar.mode = "" ∨ ar.isBlocked host = false then directRule
  else if ar.isCloudflare host then
    { mode := "mitm"
      echEnabled := true
      echProfileID := "legacy-cloudflare"
      echDiscoveryDomain := "crypto.cloudflare.com"
      echAutoUpdate := true
      useCFPool := true
      enabled := true
      autoRouted := true }
  else
    { mode := "tls-rf"
      enabled := true
      autoRouted := true
      fallbackMode := if ar.mode = "server" then "server" else "" }

/-- The rule of the auto router, if it is on and has one. -/
def autoRule (router : Router) (host : String) : Option Rule :=
  match router.autoRouter with
  | none => none
  | some ar =>
    let rule := ar.decide host
    if router.autoRoutingMode ≠ "" ∧ rule.mode ≠ "direct" then some rule else none

def matchRule (router : Router) (host mode : String) : Rule :=
  let host := normalizeHost host
  let mode := toLower (trimSpace mode)
  match bestRule router.regexpMatch host router.rules none with
  | some (best, _) =>
    if mode = "transparent" ∧ best.mode = "mitm" then { best with mode := "direct" } else best
  | none => (autoRule router host).getD directRule

/-! ## The global mode transparent -/

/-- An enabled rule of the table matches the host. -/
def Router.Covers (router : Router) (host : String) : Prop :=
  ∃ rule ∈ router.rules, rule.enabled = true ∧
    domainMatchScore router.regexpMatch host rule.domain ≠ none

/-- The auto router is on, and takes the host for a blocked one behind Cloudflare. -/
def Router.AutoMITM (router : Router) (host : String) : Prop :=
  router.autoRoutingMode ≠ "" ∧ ∃ ar, router.autoRouter = some ar ∧
    ar.mode ≠ "" ∧ ar.isBlocked host = true ∧ ar.isCloudflare host = true

/-- The score of a rule in the loop. -/
def ruleScore (regexpMatch : String → String → Option Bool) (host : String) (rule : Rule) :
    Option Nat :=
  if rule.enabled then domainMatchScore regexpMatch host rule.domain else none

/-- The loop is a scan for the best score. -/
theorem bestRule_eq_scan (regexpMatch : String → String → Option Bool) (host : String)
    (rules : List Rule) (best : Option (Rule × Nat)) :
    bestRule regexpMatch host rules best =
      FirstMax.scan (ruleScore regexpMatch host) rules best := by
  induction rules generalizing best with
  | nil => rfl
  | cons rule rules ih =>
    have hscore : (if rule.enabled then domainMatchScore regexpMatch host rule.domain else none) =
        ruleScore regexpMatch host rule := rfl
    simp only [bestRule, FirstMax.scan, ih, hscore]
    cases ruleScore regexpMatch host rule with
    | none => rfl
    | some n => cases best <;> rfl

theorem ruleScore_eq_none_iff (regexpMatch : String → String → Option Bool) (host : String)
    (rule : Rule) :
    ruleScore regexpMatch host rule = none ↔
      (rule.enabled = true → domainMatchScore regexpMatch host rule.domain = none) := by
  unfold ruleScore
  cases rule.enabled <;> simp

theorem bestRule_eq_none_iff (regexpMatch : String → String → Option Bool) (host : String)
    (rules : List Rule) :
    bestRule regexpMatch host rules none = none ↔
      ∀ rule ∈ rules, rule.enabled = true → domainMatchScore regexpMatch host rule.domain = none := by
  simp only [bestRule_eq_scan, FirstMax.scan_eq_none_iff, ruleScore_eq_none_iff]

theorem Router.not_covers_iff (router : Router) (host : String) :
    ¬ router.Covers host ↔ bestRule router.regexpMatch host router.rules none = none := by
  rw [bestRule_eq_none_iff]
  simp only [Router.Covers, not_exists, not_and, not_not]

omit [CaseTables] in
theorem AutoRouter.decide_mitm_iff (ar : AutoRouter) (host : String) :
    (ar.decide host).mode = "mitm" ↔
      ar.mode ≠ "" ∧ ar.isBlocked host = true ∧ ar.isCloudflare host = true := by
  unfold AutoRouter.decide
  by_cases hoff : ar.mode = "" ∨ ar.isBlocked host = false
  · rw [if_pos hoff]
    refine iff_of_false (by decide) ?_
    rintro ⟨hmode, hblocked, -⟩
    rcases hoff with hoff | hoff
    · exact hmode hoff
    · exact absurd (hblocked.symm.trans hoff) (by decide)
  · rw [if_neg hoff]
    push Not at hoff
    have hblocked : ar.isBlocked host = true := by simpa using hoff.2
    by_cases hcloudflare : ar.isCloudflare host = true
    · rw [if_pos hcloudflare]
      exact iff_of_true rfl ⟨hoff.1, hblocked, hcloudflare⟩
    · rw [if_neg hcloudflare]
      have htls : ("tls-rf" : String) ≠ "mitm" := by decide
      exact iff_of_false htls fun h => hcloudflare h.2.2

omit [CaseTables] in
theorem autoRule_mitm_iff (router : Router) (host : String) :
    ((autoRule router host).getD directRule).mode = "mitm" ↔ router.AutoMITM host := by
  have hdirect : directRule.mode ≠ "mitm" := by decide
  unfold autoRule Router.AutoMITM
  cases router.autoRouter with
  | none => exact iff_of_false hdirect fun ⟨_, _, h, _⟩ => by cases h
  | some ar =>
    simp only [Option.some.injEq, exists_eq_left', ← ar.decide_mitm_iff host]
    by_cases hon : router.autoRoutingMode ≠ "" ∧ (ar.decide host).mode ≠ "direct"
    · rw [if_pos hon]
      exact (and_iff_right hon.1).symm
    · rw [if_neg hon]
      refine iff_of_false hdirect ?_
      rintro ⟨hmode, hmitm⟩
      exact hon ⟨hmode, by rw [hmitm]; decide⟩

/-- **Mode transparent.** The rule that `matchRule` gives in the global mode transparent has
another mode than mitm, exactly when a rule of the table matches or the auto router does not
ask for MITM. -/
theorem transparent_spares_iff (router : Router) (host : String) :
    (matchRule router host "transparent").mode ≠ "mitm" ↔
      (router.Covers (normalizeHost host) ∨ ¬ router.AutoMITM (normalizeHost host)) := by
  have hmode : toLower (trimSpace "transparent") = "transparent" := by
    have htrim : trimSpace "transparent" = "transparent" := by decide
    rw [htrim]
    exact toLower_eq_self (List.all_iff_forall_prop.mp (by decide))
  unfold matchRule
  simp only [hmode]
  cases hbest : bestRule router.regexpMatch (normalizeHost host) router.rules none with
  | none =>
    have hcovers := (router.not_covers_iff (normalizeHost host)).mpr hbest
    simp only [ne_eq, autoRule_mitm_iff, hcovers, false_or]
  | some best =>
    have hcovers : router.Covers (normalizeHost host) := by
      by_contra hnot
      rw [(router.not_covers_iff _).mp hnot] at hbest
      cases hbest
    refine iff_of_true ?_ (.inl hcovers)
    simp only [true_and]
    by_cases hmitm : best.1.mode = "mitm"
    · have hdirect : ("direct" : String) ≠ "mitm" := by decide
      rw [if_pos hmitm]
      exact hdirect
    · rw [if_neg hmitm]
      exact hmitm

end

/-- No rules, and an auto router that takes every host for a blocked one behind Cloudflare. -/
def autoRouted : Router where
  rules := []
  regexpMatch _ _ := none
  autoRouter := some { mode := "default", isBlocked := fun _ => true, isCloudflare := fun _ => true }
  autoRoutingMode := "default"

/-- Auto routing intercepts in the global mode transparent. -/
theorem transparent_intercepts :
    (matchRule autoRouted "a.example" "transparent").mode = "mitm" := by
  decide

end SniShaper.Match
