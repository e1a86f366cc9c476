import SniShaper.Route.Match

/-! Domain patterns and labels: `hostMatchesDomain` and the part of `domainMatchScore` that
is not about regular expressions (`proxy/proxy.go`).

* `hasInnerLabels_iff`: what the two loops over the labels look for;
* `matches_labels_iff`: both functions match a pattern exactly on label boundaries. -/

namespace SniShaper.Match

open Strings Config Hosts

section

variable [CaseTables]

/-- The domain that a pattern is about: without a leading `*.` and a final `$`. -/
def patternDomain (pattern : String) : String :=
  trimSuffix (trimPrefix (toLower (trimSpace pattern)) "*.") "$"

def hostMatchesDomain (host domain : String) : Bool :=
  let host := toLower (trimSpace host)
  let domain := toLower (trimSpace domain)
  if host = "" ∨ domain = "" then false
  else
    let domain := trimSuffix (trimPrefix domain "*.") "$"
    if hasSuffix domain ".*" then
      let base := trimSuffix domain ".*"
      if base = "" then false
      else hasInnerLabels (split host '.') (split base '.')
    else if host = domain then true
    else hasSuffix host ("." ++ domain)

omit [CaseTables] in
/-- The labels are found with at least one label after them. -/
theorem hasInnerLabels_iff (hostParts baseParts : List String) :
    hasInnerLabels hostParts baseParts = true ↔
      ∃ before after, hostParts = before ++ baseParts ++ after ∧ after ≠ [] := by
  unfold hasInnerLabels
  rw [List.any_eq_true]
  constructor
  · rintro ⟨i, hi, hat⟩
    rw [List.mem_range] at hi
    have hat' : (hostParts.drop i).take baseParts.length = baseParts := beq_iff_eq.mp hat
    refine ⟨hostParts.take i, (hostParts.drop i).drop baseParts.length, ?_, ?_⟩
    · have hblock := List.take_append_drop baseParts.length (hostParts.drop i)
      rw [hat'] at hblock
      rw [List.append_assoc, hblock, List.take_append_drop]
    · rw [← List.length_pos_iff, List.length_drop, List.length_drop]
      omega
  · rintro ⟨before, after, rfl, hne⟩
    have hpos := List.length_pos_iff.mpr hne
    refine ⟨before.length, ?_, ?_⟩
    · simp only [List.mem_range, List.length_append]
      omega
    · rw [List.append_assoc, List.drop_left, List.take_left]
      exact beq_self_eq_true _

/-- The labels of a pattern's domain stand in those of the host: as a block with a label
after it for `base.*`, and at the end otherwise. -/
def LabelsMatch (host domain : String) : Prop :=
  (∃ base, base ≠ "" ∧ domain = base ++ ".*" ∧
      ∃ before after, split host '.' = before ++ split base '.' ++ after ∧ after ≠ []) ∨
    (hasSuffix domain ".*" = false ∧ split domain '.' <:+ split host '.')

omit [CaseTables] in
theorem labelsMatch_base (host base : String) :
    LabelsMatch host (base ++ ".*") ↔
      base ≠ "" ∧ hasInnerLabels (split host '.') (split base '.') = true := by
  have hsuffix : hasSuffix (base ++ ".*") ".*" = true := hasSuffix_iff.mpr ⟨base, rfl⟩
  rw [hasInnerLabels_iff]
  constructor
  · rintro (⟨base', hne, heq, hlabels⟩ | ⟨hno, -⟩)
    · obtain rfl : base = base' := by
        rw [← trimSuffix_append base ".*", heq, trimSuffix_append]
      exact ⟨hne, hlabels⟩
    · rw [hsuffix] at hno
      cases hno
  · rintro ⟨hne, hlabels⟩
    exact .inl ⟨base, hne, rfl, hlabels⟩

omit [CaseTables] in
theorem labelsMatch_plain {host domain : String} (h : hasSuffix domain ".*" = false) :
    LabelsMatch host domain ↔ host = domain ∨ hasSuffix host ("." ++ domain) = true := by
  have hdot : ("." : String) = String.singleton '.' := by decide
  rw [hdot, ← split_suffix_iff]
  constructor
  · rintro (⟨base, -, heq, -⟩ | ⟨-, hlabels⟩)
    · rw [heq, hasSuffix_iff.mpr ⟨base, rfl⟩] at h
      cases h
    · exact hlabels
  · exact fun hlabels => .inr ⟨h, hlabels⟩

theorem hostMatchesDomain_iff {host pattern : String} (hh : toLower (trimSpace host) ≠ "")
    (hp : toLower (trimSpace pattern) ≠ "") :
    hostMatchesDomain host pattern = true ↔
      LabelsMatch (toLower (trimSpace host)) (patternDomain pattern) := by
  unfold hostMatchesDomain patternDomain
  simp only [hh, hp, or_self, if_false]
  generalize trimSuffix (trimPrefix (toLower (trimSpace pattern)) "*.") "$" = domain
  cases hs : hasSuffix domain ".*" with
  | true =>
    obtain ⟨base, rfl⟩ := hasSuffix_iff.mp hs
    rw [labelsMatch_base, trimSuffix_append, if_pos rfl]
    by_cases hbase : base = ""
    · simp [hbase]
    · simp [hbase]
  | false =>
    rw [labelsMatch_plain hs, if_neg (by simp)]
    by_cases heq : toLower (trimSpace host) = domain
    · simp [heq]
    · simp [heq]

/-- Apart from regular expressions, the score is there when the function above says yes. -/
theorem domainMatchScore_ne_none_iff (regexpMatch : String → String → Option Bool)
    (host pattern : String) (hre : hasPrefix (toLower (trimSpace pattern)) "~" = false) :
    domainMatchScore regexpMatch host pattern ≠ none ↔ hostMatchesDomain host pattern = true := by
  unfold domainMatchScore hostMatchesDomain
  simp only [hre, Bool.false_eq_true, if_false]
  generalize trimSuffix (trimPrefix (toLower (trimSpace pattern)) "*.") "$" = domain
  split
  · simp
  · split
    · split
      · simp
      · split <;> simp [*]
    · split
      · simp
      · split <;> simp [*]

/-- **Label boundaries.** For a pattern that is not a regular expression both functions give
the same answer: whether the labels of the pattern stand where it asks for them. -/
theorem matches_labels_iff (regexpMatch : String → String → Option Bool) (host pattern : String)
    (hh : toLower (trimSpace host) ≠ "") (hp : toLower (trimSpace pattern) ≠ "")
    (hre : hasPrefix (toLower (trimSpace pattern)) "~" = false) :
    (hostMatchesDomain host pattern = true ↔ domainMatchScore regexpMatch host pattern ≠ none) ∧
      (domainMatchScore regexpMatch host pattern ≠ none ↔
        LabelsMatch (toLower (trimSpace host)) (patternDomain pattern)) := by
  have hscore := domainMatchScore_ne_none_iff regexpMatch host pattern hre
  exact ⟨hscore.symm, hscore.trans (hostMatchesDomain_iff hh hp)⟩

end

theorem wildcard_labels :
    hostMatchesDomain "www.Google.com.sg" "*.google.com.*" = true ∧
      LabelsMatch "www.google.com.sg" "google.com.*" := by
  have h := matches_labels_iff (fun _ _ => none) "www.Google.com.sg" "*.google.com.*" (by decide)
    (by decide) (by decide)
  have hm : hostMatchesDomain "www.Google.com.sg" "*.google.com.*" = true := by decide
  exact ⟨hm, h.2.mp (h.1.mp hm)⟩

end SniShaper.Match
