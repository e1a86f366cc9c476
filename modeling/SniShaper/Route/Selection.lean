import SniShaper.Route.Labels

/-! Which of several matching rules `matchRule` takes (`proxy/proxy.go`).

* `domainMatchScore_eq_some_iff`: the four ways in which a pattern scores;
* `byteLen_hostKey`: how long the compared text of a host can be;
* `selection_stable`: the rule is the first one of the best score, so that rules that do not
  match and the order of rules of different scores do not matter, and of two domains that
  match as suffixes the more general one is never taken;
* `precedence_iff`: when an exact rule comes before the regular expressions, which always
  come before suffixes. -/

namespace SniShaper.Match

open Strings Net Config Hosts

section

variable [CaseTables]

/-! ## The ways to score -/

/-- The regular expression of a pattern that starts with a tilde. -/
def regexpPattern (pattern : String) : Option String :=
  if hasPrefix (toLower (trimSpace pattern)) "~" then
    some (trimSpace (trimPrefix (toLower (trimSpace pattern)) "~"))
  else none

/-- A regular expression in lower case and without spaces is taken as it is. -/
theorem regexpPattern_tilde {p : String}
    (h : ∀ c ∈ p.toList, isSpace c = false ∧ c.toNat < 128 ∧ c.toLower = c) :
    regexpPattern ("~" ++ p) = some p := by
  have hchars : ∀ c ∈ ("~" ++ p).toList, isSpace c = false ∧ c.toNat < 128 ∧ c.toLower = c := by
    intro c hc
    rw [String.toList_append, List.mem_append] at hc
    rcases hc with hc | hc
    · simp only [String.reduceToList, List.mem_singleton] at hc
      exact hc ▸ by decide
    · exact h c hc
  have htrim : trimSpace ("~" ++ p) = "~" ++ p :=
    trimSpace_eq_self _ fun c hc => (hchars c hc).1
  have hlower : toLower ("~" ++ p) = "~" ++ p := toLower_eq_self fun c hc => (hchars c hc).2
  rw [regexpPattern, htrim, hlower, if_pos (hasPrefix_append _ _), trimPrefix_append,
    trimSpace_eq_self p fun c hc => (h c hc).1]

/-- How a pattern scores for the lower-cased, trimmed host. -/
inductive Scored (regexpMatch : String → String → Option Bool) (host pattern : String) :
    Nat → Prop
  | regexp (p : String) : regexpPattern pattern = some p → p ≠ "" →
      regexpMatch p host = some true → Scored regexpMatch host pattern (900 + byteLen p)
  | base (b : String) : regexpPattern pattern = none → patternDomain pattern = b ++ ".*" →
      b ≠ "" → hasInnerLabels (split host '.') (split b '.') = true →
      Scored regexpMatch host pattern (byteLen b)
  | exact : regexpPattern pattern = none → hasSuffix (patternDomain pattern) ".*" = false →
      host = patternDomain pattern →
      Scored regexpMatch host pattern (byteLen (patternDomain pattern) + 1000)
  | suffix : regexpPattern pattern = none → hasSuffix (patternDomain pattern) ".*" = false →
      host ≠ patternDomain pattern → hasSuffix host ("." ++ patternDomain pattern) = true →
      Scored regexpMatch host pattern (byteLen (patternDomain pattern))

theorem domainMatchScore_regexp (regexpMatch : String → String → Option Bool)
    {host pattern p : String} (hh : toLower (trimSpace host) ≠ "")
    (hre : regexpPattern pattern = some p) :
    domainMatchScore regexpMatch host pattern =
      if p ≠ "" ∧ regexpMatch p (toLower (trimSpace host)) = some true then some (900 + byteLen p)
      else none := by
  unfold regexpPattern at hre
  split at hre
  · rename_i htilde
    obtain rfl := Option.some.inj hre
    have hp : toLower (trimSpace pattern) ≠ "" := by
      intro hempty
      rw [hempty] at htilde
      exact absurd htilde (by decide)
    simp only [domainMatchScore, hh, hp, or_self, if_false, htilde, if_true]
    by_cases hempty : trimSpace (trimPrefix (toLower (trimSpace pattern)) "~") = ""
    · simp [hempty]
    · simp [hempty]
  · cases hre

theorem domainMatchScore_plain (regexpMatch : String → String → Option Bool)
    {host pattern : String} (hh : toLower (trimSpace host) ≠ "")
    (hp : toLower (trimSpace pattern) ≠ "") (hre : regexpPattern pattern = none) :
    domainMatchScore regexpMatch host pattern =
      if hasSuffix (patternDomain pattern) ".*" then
        if trimSuffix (patternDomain pattern) ".*" = "" then none
        else if hasInnerLabels (split (toLower (trimSpace host)) '.')
          (split (trimSuffix (patternDomain pattern) ".*") '.') then
          some (byteLen (trimSuffix (patternDomain pattern) ".*"))
        else none
      else if toLower (trimSpace host) = patternDomain pattern then
        some (byteLen (patternDomain pattern) + 1000)
      else if hasSuffix (toLower (trimSpace host)) ("." ++ patternDomain pattern) then
        some (byteLen (patternDomain pattern))
      else none := by
  unfold regexpPattern at hre
  split at hre
  · cases hre
  · rename_i htilde
    simp only [domainMatchScore, hh, hp, or_self, if_false, htilde, Bool.false_eq_true]
    rfl

theorem domainMatchScore_eq_some_iff (regexpMatch : String → String → Option Bool)
    (host pattern : String) (n : Nat) :
    domainMatchScore regexpMatch host pattern = some n ↔
      toLower (trimSpace host) ≠ "" ∧ toLower (trimSpace pattern) ≠ "" ∧
        Scored regexpMatch (toLower (trimSpace host)) pattern n := by
  by_cases hempty : toLower (trimSpace host) = "" ∨ toLower (trimSpace pattern) = ""
  · have hnone : domainMatchScore regexpMatch host pattern = none := by
      simp only [domainMatchScore, hempty, if_true]
    rw [hnone]
    refine iff_of_false (by simp) ?_
    rintro ⟨hh, hp, -⟩
    exact hempty.elim hh hp
  · obtain ⟨hh, hp⟩ := not_or.mp hempty
    simp only [ne_eq, hh, hp, not_false_eq_true, true_and]
    cases hre : regexpPattern pattern with
    | some p =>
      rw [domainMatchScore_regexp regexpMatch hh hre]
      constructor
      · intro h
        split at h
        · rename_i hmatch
          obtain rfl := Option.some.inj h
          exact .regexp p hre hmatch.1 hmatch.2
        · cases h
      · intro h
        cases h with
        | regexp q hq hne hmatch =>
          obtain rfl := Option.some.inj (hre.symm.trans hq)
          rw [if_pos ⟨hne, hmatch⟩]
        | base b hno => simp [hre] at hno
        | exact hno => simp [hre] at hno
        | suffix hno => simp [hre] at hno
    | none =>
      rw [domainMatchScore_plain regexpMatch hh hp hre]
      cases hs : hasSuffix (patternDomain pattern) ".*" with
      | true =>
        obtain ⟨b, hb⟩ := hasSuffix_iff.mp hs
        have htrim : trimSuffix (patternDomain pattern) ".*" = b := by rw [hb, trimSuffix_append]
        rw [if_pos rfl, htrim]
        constructor
        · intro h
          split at h
          · cases h
          · rename_i hne
            split at h
            · rename_i hinner
              obtain rfl := Option.some.inj h
              exact .base b hre hb hne hinner
            · cases h
        · intro h
          cases h with
          | regexp q hq => simp [hre] at hq
          | base c _ hc hne hinner =>
            obtain rfl : b = c := by
              rw [← htrim, hc, trimSuffix_append]
            rw [if_neg hne, if_pos hinner]
          | exact _ hno => simp [hs] at hno
          | suffix _ hno => simp [hs] at hno
      | false =>
        rw [if_neg (by simp)]
        constructor
        · intro h
          split at h
          · rename_i heq
            obtain rfl := Option.some.inj h
            exact .exact hre hs heq
          · rename_i hne
            split at h
            · rename_i hend
              obtain rfl := Option.some.inj h
              exact .suffix hre hs hne hend
            · cases h
        · intro h
          cases h with
          | regexp q hq => simp [hre] at hq
          | base c _ hc => simp [hc, hasSuffix_iff.mpr ⟨c, rfl⟩] at hs
          | exact _ _ heq => rw [if_pos heq]
          | suffix _ _ hne hend => rw [if_neg hne, if_pos hend]

/-! ## Lengths -/

omit [CaseTables] in
theorem byteLen_append (s t : String) : byteLen (s ++ t) = byteLen s + byteLen t := by
  simp [byteLen]

omit [CaseTables] in
theorem byteLen_lt_of_suffix {host domain : String} (h : hasSuffix host ("." ++ domain) = true) :
    byteLen domain < byteLen host := by
  obtain ⟨t, rfl⟩ := hasSuffix_iff.mp h
  have hdot : byteLen "." = 1 := by decide
  rw [byteLen_append, byteLen_append, hdot]
  omega

omit [CaseTables] in
/-- The labels and the dots between them make up the text. -/
theorem sum_splitOn (s : List Char) :
    ((s.splitOn '.').map fun l => (l.map Char.utf8Size).sum + 1).sum =
      (s.map Char.utf8Size).sum + 1 := by
  have hdot : Char.utf8Size '.' = 1 := by decide
  induction s with
  | nil => simp
  | cons c s ih =>
    rw [List.splitOn_cons_eq_if_modifyHead]
    by_cases hc : (c == '.') = true
    · obtain rfl := beq_iff_eq.mp hc
      simp only [beq_self_eq_true, if_true, List.map_cons, List.sum_cons, ih, List.map_nil,
        List.sum_nil, hdot]
      omega
    · rw [if_neg hc]
      cases hs : s.splitOn '.' with
      | nil => exact absurd hs (List.splitOn_ne_nil '.' s)
      | cons l ls =>
        rw [hs] at ih
        simp only [List.map_cons, List.sum_cons, List.modifyHead_cons] at ih ⊢
        omega

omit [CaseTables] in
theorem byteLen_le_of_labels {host base : String} {before after : List String}
    (h : split host '.' = before ++ split base '.' ++ after) : byteLen base ≤ byteLen host := by
  have hsum : ∀ s : String, ((split s '.').map fun l => byteLen l + 1).sum = byteLen s + 1 := by
    intro s
    rw [split, List.map_map, byteLen, ← sum_splitOn]
    congr 1
    refine List.map_congr_left fun l _ => ?_
    simp [byteLen]
  have hhost := hsum host
  rw [h, List.map_append, List.map_append, List.sum_append, List.sum_append, hsum base] at hhost
  omega

/-- Apart from regular expressions and exact matches a score is at most the host's length. -/
theorem Scored.le_or {regexpMatch : String → String → Option Bool} {host pattern : String} {n : Nat}
    (h : Scored regexpMatch host pattern n) :
    (∃ p, regexpPattern pattern = some p ∧ p ≠ "" ∧ regexpMatch p host = some true ∧
        n = 900 + byteLen p) ∨
      (host = patternDomain pattern ∧ n = byteLen host + 1000) ∨ n ≤ byteLen host := by
  cases h with
  | regexp p hp hne hmatch => exact .inl ⟨p, hp, hne, hmatch, rfl⟩
  | base b _ _ _ hinner =>
    obtain ⟨before, after, hlabels, -⟩ := (hasInnerLabels_iff _ _).mp hinner
    exact .inr (.inr (byteLen_le_of_labels hlabels))
  | exact _ _ heq => exact .inr (.inl ⟨heq, by rw [← heq]⟩)
  | suffix _ _ _ hend => exact .inr (.inr (byteLen_lt_of_suffix hend).le)

/-- The text that the patterns are compared with. -/
def hostKey (host : String) : String := toLower (trimSpace (normalizeHost host))

omit [CaseTables] in
theorem byteLen_le_two_mul {f : Char → Char} (hf : ∀ c, (f c).utf8Size ≤ 2 * c.utf8Size)
    {l l' : List Char} (h : l.Sublist l') :
    ((l.map f).map Char.utf8Size).sum ≤ 2 * (l'.map Char.utf8Size).sum := by
  induction h with
  | slnil => simp
  | cons c _ ih =>
    simp only [List.map_cons, List.sum_cons]
    omega
  | cons_cons c _ ih =>
    have hc := hf c
    simp only [List.map_cons, List.sum_cons]
    omega

omit [CaseTables] in
theorem toNat_toLower_lt {c : Char} (hc : c.toNat < 128) : c.toLower.toNat < 128 :=
  @ascii_forall (fun c => c.toLower.toNat < 128) (by decide +kernel) c hc

/-- The case tables keep ASCII in ASCII, and no character takes more than four bytes. -/
theorem utf8Size_lower_lower (c : Char) :
    (CaseTables.lower (CaseTables.lower c)).utf8Size ≤ 2 * c.utf8Size := by
  have hone : ∀ x : Char, x.toNat < 128 ↔ x.utf8Size = 1 := by
    intro x
    rw [Char.utf8Size_eq_one_iff, UInt32.le_iff_toNat_le]
    exact Nat.lt_succ_iff
  have hlower : ∀ x : Char, x.toNat < 128 → (CaseTables.lower x).toNat < 128 := by
    intro x hx
    rw [CaseTables.lower_ascii x hx]
    exact toNat_toLower_lt hx
  by_cases hc : c.toNat < 128
  · rw [(hone _).mp (hlower _ (hlower c hc)), (hone c).mp hc]
    omega
  · have hpos := c.utf8Size_pos
    have hne : c.utf8Size ≠ 1 := fun h => hc ((hone c).mpr h)
    have hle := (CaseTables.lower (CaseTables.lower c)).utf8Size_le_four
    omega

/-- What is compared is at most twice as long as the host. -/
theorem byteLen_hostKey (host : String) : byteLen (hostKey host) ≤ 2 * byteLen host := by
  obtain ⟨x, hx, hnorm⟩ := normalizeHost_eq_toLower host
  have htrim : (trimSpace (toLower x)).toList.Sublist (x.toList.map CaseTables.lower) := by
    rw [trimSpace, String.toList_ofList, toLower, String.toList_ofList]
    exact trimBy_sublist _ _
  obtain ⟨y, hy, hmap⟩ := List.sublist_map_iff.mp htrim
  have hkey : (hostKey host).toList = y.map fun c => CaseTables.lower (CaseTables.lower c) := by
    rw [hostKey, hnorm, toLower, String.toList_ofList, hmap, List.map_map]
    rfl
  rw [byteLen, hkey]
  exact byteLen_le_two_mul utf8Size_lower_lower (hy.trans hx)

/-! ## The selected rule -/

/-- The rule of the table that is selected, if one matches. -/
def selected (router : Router) (host : String) : Option Rule :=
  (bestRule router.regexpMatch (normalizeHost host) router.rules none).map Prod.fst

/-- The global mode transparent keeps a selected rule from MITM. -/
def downgrade (mode : String) (best : Rule) : Rule :=
  if toLower (trimSpace mode) = "transparent" ∧ best.mode = "mitm" then
    { best with mode := "direct" }
  else best

/-- `best` is the rule of the table that `matchRule` goes by. -/
def Selects (router : Router) (host mode : String) (best : Rule) : Prop :=
  selected router host = some best ∧ matchRule router host mode = downgrade mode best

theorem selects_of_selected {router : Router} {host : String} {best : Rule}
    (h : selected router host = some best) (mode : String) : Selects router host mode best := by
  refine ⟨h, ?_⟩
  obtain ⟨⟨best, n⟩, hbest, rfl⟩ := Option.map_eq_some_iff.mp h
  simp only [matchRule, hbest, downgrade]

/-- The score of a rule for the host of a request. -/
abbrev Router.score (router : Router) (host : String) : Rule → Option Nat :=
  ruleScore router.regexpMatch (normalizeHost host)

theorem selected_eq_some_iff (router : Router) (host : String) (best : Rule) :
    selected router host = some best ↔
      ∃ n, FirstMax.IsFirstMax (router.score host) router.rules best n := by
  rw [selected, Option.map_eq_some_iff]
  constructor
  · rintro ⟨⟨best, n⟩, hbest, rfl⟩
    rw [bestRule_eq_scan, FirstMax.scan_eq_some_iff] at hbest
    exact ⟨n, hbest⟩
  · rintro ⟨n, hmax⟩
    refine ⟨(best, n), ?_, rfl⟩
    rw [bestRule_eq_scan, FirstMax.scan_eq_some_iff]
    exact hmax

theorem exists_selected {router : Router} {host : String} {rule : Rule} (hmem : rule ∈ router.rules)
    (hscore : router.score host rule ≠ none) : ∃ best, selected router host = some best := by
  cases hsel : selected router host with
  | some best => exact ⟨best, rfl⟩
  | none =>
    rw [selected, Option.map_eq_none_iff, bestRule_eq_scan, FirstMax.scan_eq_none_iff] at hsel
    exact absurd (hsel rule hmem) hscore

/-- The table matters only through the rules of each score. -/
theorem matchRule_congr {router : Router} {host : String} {rules : List Rule}
    (h : ∀ n, (rules.filter fun rule => router.score host rule = some n) =
      router.rules.filter fun rule => router.score host rule = some n) (mode : String) :
    matchRule { router with rules := rules } host mode = matchRule router host mode := by
  have hbest : bestRule router.regexpMatch (normalizeHost host) rules none =
      bestRule router.regexpMatch (normalizeHost host) router.rules none := by
    rw [bestRule_eq_scan, bestRule_eq_scan]
    exact FirstMax.scan_congr h
  simp only [matchRule, hbest]
  rfl

/-- A rule that matches the host as a suffix of it only. -/
structure SuffixMatch (router : Router) (host : String) (rule : Rule) : Prop where
  matched : router.score host rule ≠ none
  notRegexp : regexpPattern rule.domain = none
  notBase : hasSuffix (patternDomain rule.domain) ".*" = false
  notExact : hostKey host ≠ patternDomain rule.domain

theorem score_eq_some {router : Router} {host : String} {rule : Rule} {n : Nat}
    (h : router.score host rule = some n) :
    rule.enabled = true ∧ Scored router.regexpMatch (hostKey host) rule.domain n := by
  unfold Router.score ruleScore at h
  split at h
  · rename_i henabled
    exact ⟨henabled, ((domainMatchScore_eq_some_iff _ _ _ _).mp h).2.2⟩
  · cases h

theorem SuffixMatch.score {router : Router} {host : String} {rule : Rule}
    (h : SuffixMatch router host rule) :
    router.score host rule = some (byteLen (patternDomain rule.domain)) := by
  obtain ⟨n, hn⟩ := Option.ne_none_iff_exists'.mp h.matched
  rw [hn]
  cases (score_eq_some hn).2 with
  | regexp p hp => simp [h.notRegexp] at hp
  | base b _ hb =>
    have hbase := h.notBase
    rw [hb, hasSuffix_iff.mpr ⟨b, rfl⟩] at hbase
    cases hbase
  | exact _ _ heq => exact absurd heq h.notExact
  | suffix => rfl

/-- The selected rule scores at least as much as every other one. -/
theorem selected_ge {router : Router} {host : String} {best rule : Rule} {m : Nat}
    (h : selected router host = some best) (hmem : rule ∈ router.rules)
    (hm : router.score host rule = some m) : ∃ n, router.score host best = some n ∧ m ≤ n := by
  obtain ⟨n, hmax⟩ := (selected_eq_some_iff router host best).mp h
  have hle := ((FirstMax.isFirstMax_iff router.rules best n).mp hmax).2 rule hmem m hm
  obtain ⟨before, after, -, hkey, -⟩ := hmax
  exact ⟨n, hkey, hle⟩

theorem downgrade_domain (mode : String) (rule : Rule) :
    (downgrade mode rule).domain = rule.domain := by
  unfold downgrade
  split <;> rfl

/-- Of two suffixes the longer one wins. -/
theorem general_not_selected {router : Router} {host : String} {general special : Rule}
    (hmem : special ∈ router.rules) (hgeneral : SuffixMatch router host general)
    (hspecial : SuffixMatch router host special)
    (hsub : hasSuffix (patternDomain special.domain) ("." ++ patternDomain general.domain) = true)
    {best : Rule} (h : selected router host = some best) : best.domain ≠ general.domain := by
  intro heq
  obtain ⟨n, hn, hle⟩ := selected_ge h hmem hspecial.score
  have hsame : router.score host best = router.score host general := by
    have hen := (score_eq_some hn).1
    have hen' := (score_eq_some hgeneral.score).1
    simp only [Router.score, ruleScore, heq, hen, hen']
  rw [hsame, hgeneral.score] at hn
  have hlt := byteLen_lt_of_suffix hsub
  have hn' := Option.some.inj hn
  omega

/-- **Selection.** The rule that is selected is the first enabled rule of the greatest score.
Hence rules that do not match can be added and removed, and rules of different scores can be
reordered; and of two rules that match as suffixes, the one for the more general domain is
never selected. -/
theorem selection_stable (router : Router) (host mode : String) :
    (router.Covers (normalizeHost host) → ∃ best n, Selects router host mode best ∧
        FirstMax.IsFirstMax (router.score host) router.rules best n) ∧
      (∀ before extra after, router.rules = before ++ after →
        (∀ rule ∈ extra, router.score host rule = none) →
        matchRule { router with rules := before ++ extra ++ after } host mode =
          matchRule router host mode) ∧
      (∀ rules : List Rule,
        (∀ n, (rules.filter fun rule => router.score host rule = some n) =
          router.rules.filter fun rule => router.score host rule = some n) →
        matchRule { router with rules := rules } host mode = matchRule router host mode) ∧
      ∀ general ∈ router.rules, ∀ special ∈ router.rules, SuffixMatch router host general →
        SuffixMatch router host special →
        hasSuffix (patternDomain special.domain) ("." ++ patternDomain general.domain) = true →
        (matchRule router host mode).domain ≠ general.domain := by
  refine ⟨?_, ?_, fun rules h => matchRule_congr h mode, ?_⟩
  · rintro ⟨rule, hmem, henabled, hscore⟩
    obtain ⟨best, hbest⟩ := exists_selected hmem
      fun hnone => hscore ((ruleScore_eq_none_iff _ _ _).mp hnone henabled)
    obtain ⟨n, hmax⟩ := (selected_eq_some_iff router host best).mp hbest
    exact ⟨best, n, selects_of_selected hbest mode, hmax⟩
  · intro before extra after hrules hextra
    apply matchRule_congr
    intro n
    have hnil : (extra.filter fun rule => router.score host rule = some n) = [] := by
      rw [List.filter_eq_nil_iff]
      intro rule hrule
      simp [hextra rule hrule]
    rw [hrules, List.filter_append, List.filter_append, hnil, List.append_nil, List.filter_append]
  · intro general _ special hmem hgeneral hspecial hsub
    obtain ⟨best, hbest⟩ := exists_selected hmem hspecial.matched
    rw [(selects_of_selected hbest mode).2, downgrade_domain]
    exact general_not_selected hmem hgeneral hspecial hsub hbest

/-! ## Exact rules and regular expressions -/

/-- An enabled rule whose domain is the host. -/
def Exact (host : String) (rule : Rule) : Prop :=
  rule.enabled = true ∧ patternDomain rule.domain = hostKey host

/-- An enabled rule with the regular expression `p`, which matches the host. -/
def RegexpMatch (router : Router) (host : String) (rule : Rule) (p : String) : Prop :=
  rule.enabled = true ∧ regexpPattern rule.domain = some p ∧ p ≠ "" ∧
    router.regexpMatch p (hostKey host) = some true

/-- A host that cannot be taken for a pattern. -/
structure PlainHost (host : String) : Prop where
  nonempty : hostKey host ≠ ""
  noTilde : hasPrefix (hostKey host) "~" = false
  noStar : hasSuffix (hostKey host) ".*" = false

theorem RegexpMatch.score {router : Router} {host : String} {rule : Rule} {p : String}
    (h : RegexpMatch router host rule p) (hh : hostKey host ≠ "") :
    router.score host rule = some (900 + byteLen p) := by
  obtain ⟨henabled, hp, hne, hmatch⟩ := h
  unfold Router.score ruleScore
  rw [if_pos henabled, domainMatchScore_regexp _ hh hp]
  exact if_pos ⟨hne, hmatch⟩

omit [CaseTables] in
/-- A leading tilde is not removed. -/
theorem hasPrefix_tilde_strip {s : String} (h : hasPrefix s "~" = true) :
    hasPrefix (trimSuffix (trimPrefix s "*.") "$") "~" = true := by
  obtain ⟨t, ht⟩ : ∃ t, s.toList = '~' :: t := by
    rw [hasPrefix, List.isPrefixOf_iff_prefix] at h
    obtain ⟨t, ht⟩ := h
    exact ⟨t, by simpa using ht.symm⟩
  have hstar : hasPrefix s "*." = false := by
    simp [hasPrefix, ht, List.isPrefixOf]
  rw [trimPrefix, if_neg (by simp [hstar]), trimSuffix]
  split
  · rename_i hdollar
    have hlen : t ≠ [] := by
      rintro rfl
      rw [hasSuffix, ht] at hdollar
      exact absurd hdollar (by decide)
    cases t with
    | nil => exact absurd rfl hlen
    | cons c t => simp [hasPrefix, ht, List.isPrefixOf]
  · exact h

theorem Exact.score {router : Router} {host : String} {rule : Rule} (h : Exact host rule)
    (hh : PlainHost host) : router.score host rule = some (byteLen (hostKey host) + 1000) := by
  obtain ⟨henabled, heq⟩ := h
  have hre : regexpPattern rule.domain = none := by
    unfold regexpPattern
    rw [if_neg]
    intro htilde
    have hstrip := hasPrefix_tilde_strip htilde
    have hno := hh.noTilde
    rw [← heq] at hno
    exact absurd (hstrip.symm.trans hno) (by decide)
  have hne : toLower (trimSpace rule.domain) ≠ "" := by
    intro hempty
    have hstrip : trimSuffix (trimPrefix "" "*.") "$" = "" := by decide
    rw [patternDomain, hempty, hstrip] at heq
    exact hh.nonempty heq.symm
  unfold Router.score ruleScore
  rw [if_pos henabled, domainMatchScore_eq_some_iff]
  refine ⟨hh.nonempty, hne, ?_⟩
  have hscored : Scored router.regexpMatch (hostKey host) rule.domain _ :=
    .exact hre (heq ▸ hh.noStar) heq.symm
  rwa [heq] at hscored

/-- Without an exact rule only a regular expression scores more than the host is long. -/
theorem score_cases {router : Router} {host : String} {rule : Rule} {n : Nat}
    (h : router.score host rule = some n) :
    (∃ p, RegexpMatch router host rule p ∧ n = 900 + byteLen p) ∨
      (Exact host rule ∧ n = byteLen (hostKey host) + 1000) ∨ n ≤ byteLen (hostKey host) := by
  obtain ⟨henabled, hscored⟩ := score_eq_some h
  rcases hscored.le_or with ⟨p, hp, hne, hmatch, rfl⟩ | ⟨heq, rfl⟩ | hle
  · exact .inl ⟨p, ⟨henabled, hp, hne, hmatch⟩, rfl⟩
  · exact .inr (.inl ⟨⟨henabled, heq.symm⟩, rfl⟩)
  · exact .inr (.inr hle)

/-- Some exact rule comes before all matching regular expressions of its score, and none has
a greater one. -/
def ExactPrevails (router : Router) (host : String) : Prop :=
  ∃ before exact after, router.rules = before ++ exact :: after ∧ Exact host exact ∧
    (∀ rule ∈ before, ∀ p, RegexpMatch router host rule p →
      byteLen p < 100 + byteLen (hostKey host)) ∧
    ∀ rule ∈ after, ∀ p, RegexpMatch router host rule p →
      byteLen p ≤ 100 + byteLen (hostKey host)

theorem exact_selected_iff {router : Router} {host : String} (hh : PlainHost host) :
    (∃ best, selected router host = some best ∧ Exact host best) ↔ ExactPrevails router host := by
  constructor
  · rintro ⟨best, hsel, hexact⟩
    obtain ⟨n, before, after, hrules, hkey, hbefore, hafter⟩ :=
      (selected_eq_some_iff router host best).mp hsel
    obtain rfl := Option.some.inj ((hexact.score hh).symm.trans hkey)
    refine ⟨before, best, after, hrules, hexact, ?_, ?_⟩
    · intro rule hrule p hp
      have hlt := hbefore rule hrule _ (hp.score hh.nonempty)
      omega
    · intro rule hrule p hp
      have hle := hafter rule hrule _ (hp.score hh.nonempty)
      omega
  · rintro ⟨before, exact, after, hrules, hexact, hbefore, hafter⟩
    have hscore : router.score host exact = some (byteLen (hostKey host) + 1000) := hexact.score hh
    have hmem : exact ∈ router.rules := by simp [hrules]
    have hsome : router.score host exact ≠ none := by simp [hscore]
    obtain ⟨best, hsel⟩ := exists_selected hmem hsome
    refine ⟨best, hsel, ?_⟩
    obtain ⟨n, hmax⟩ := (selected_eq_some_iff router host best).mp hsel
    obtain ⟨m, hm, hle⟩ := selected_ge hsel hmem hscore
    obtain rfl : m = n := by
      obtain ⟨_, _, _, hn, _⟩ := hmax
      exact Option.some.inj (hm.symm.trans hn)
    rcases score_cases hm with ⟨p, hp, rfl⟩ | ⟨hexact', -⟩ | hshort
    · -- a regular expression of this score stands before the exact rule or has a greater one
      rw [hrules] at hmax
      rcases hmax.mem_cases hscore with hb | rfl | ⟨ha, hlt⟩
      · have := hbefore best hb p hp
        omega
      · exact hexact
      · have := hafter best ha p hp
        omega
    · exact hexact'
    · omega

/-- Suffixes of hosts of at most 253 bytes never reach the score of a regular expression. -/
theorem regexp_selected {router : Router} {host : String} (hlen : byteLen host ≤ 253)
    (hh : hostKey host ≠ "") (hno : ∀ rule ∈ router.rules, ¬ Exact host rule) {rule : Rule}
    {p : String} (hmem : rule ∈ router.rules) (hp : RegexpMatch router host rule p) :
    ∃ best q, selected router host = some best ∧ RegexpMatch router host best q := by
  have hscore := hp.score hh
  have hsome : router.score host rule ≠ none := by simp [hscore]
  obtain ⟨best, hsel⟩ := exists_selected hmem hsome
  obtain ⟨n, hn, hle⟩ := selected_ge hsel hmem hscore
  have hkey := byteLen_hostKey host
  rcases score_cases hn with ⟨q, hq, -⟩ | ⟨hexact, -⟩ | hshort
  · exact ⟨best, q, hsel, hq⟩
  · obtain ⟨m, before, after, hrules, -⟩ := (selected_eq_some_iff router host best).mp hsel
    exact absurd hexact (hno best (by simp [hrules]))
  · omega

/-- **Precedence.** For a host that is no pattern, and with a rule for exactly this host, such a
rule is selected exactly when no matching regular expression is more than a hundred bytes
longer than the host, and none of just this length comes before. Without a rule for exactly
this host, a matching regular expression is always selected before the suffixes. -/
theorem precedence_iff (router : Router) (host mode : String) (hlen : byteLen host ≤ 253) :
    (PlainHost host → (∃ rule ∈ router.rules, Exact host rule) →
        ((∃ best, Selects router host mode best ∧ Exact host best) ↔ ExactPrevails router host)) ∧
      (hostKey host ≠ "" → (∀ rule ∈ router.rules, ¬ Exact host rule) →
        (∃ rule ∈ router.rules, ∃ p, RegexpMatch router host rule p) →
        ∃ best p, Selects router host mode best ∧ RegexpMatch router host best p) := by
  constructor
  · intro hh _
    rw [← exact_selected_iff hh]
    constructor
    · rintro ⟨best, hsel, hexact⟩
      exact ⟨best, hsel.1, hexact⟩
    · rintro ⟨best, hsel, hexact⟩
      exact ⟨best, selects_of_selected hsel mode, hexact⟩
  · rintro hh hno ⟨rule, hmem, p, hp⟩
    obtain ⟨best, q, hsel, hq⟩ := regexp_selected hlen hh hno hmem hp
    exact ⟨best, q, selects_of_selected hsel mode, hq⟩

end

/-- A rule for one host, and behind it a regular expression that matches every host. -/
def exactThenRegexp (pattern : String) : Router where
  rules := [{ domain := "*.a.example", enabled := true }, { domain := pattern, enabled := true }]
  regexpMatch _ _ := some true
  autoRouter := none
  autoRoutingMode := ""

theorem plainHost_example : PlainHost "a.example" where
  nonempty := by decide
  noTilde := by decide
  noStar := by decide

theorem short_regexp_after_exact :
    byteLen "a.example" ≤ 253 ∧
      ∃ best, Selects (exactThenRegexp "~[.]example$") "a.example" "mitm" best ∧
        Exact "a.example" best := by
  have hlen : byteLen "a.example" ≤ 253 := by decide
  have hexact : Exact "a.example" { domain := "*.a.example", enabled := true } := ⟨rfl, by decide⟩
  have h := (precedence_iff (exactThenRegexp "~[.]example$") "a.example" "mitm" hlen).1
    plainHost_example ⟨_, List.mem_cons_self .., hexact⟩
  refine ⟨hlen, h.mpr ⟨[], _, _, rfl, hexact, by simp, ?_⟩⟩
  intro rule hrule p hp
  obtain rfl := List.mem_singleton.mp hrule
  have hpattern : regexpPattern "~[.]example$" = some "[.]example$" := by decide
  obtain rfl : "[.]example$" = p := Option.some.inj (hpattern.symm.trans hp.2.1)
  decide

/-- A regular expression of 118 bytes. -/
def longRegexp : String :=
  "~^((www|mail|blog|shop|news|static|images|video|music|store|forum|wiki|docs|help|support" ++
    "|status|login)[.])?a[.]example$"

/-- Its regular expression, with its length. -/
theorem regexpPattern_longRegexp :
    ∃ p, regexpPattern longRegexp = some p ∧ p ≠ "" ∧ byteLen p = 118 := by
  have hsplit : longRegexp.toList = '~' :: longRegexp.toList.tail := by decide +kernel
  have hchars : ∀ c ∈ longRegexp.toList.tail, isSpace c = false ∧ c.toNat < 128 ∧ c.toLower = c :=
    List.all_iff_forall_prop.mp (by decide +kernel)
  have hlen : (longRegexp.toList.tail.map Char.utf8Size).sum = 118 := by decide +kernel
  generalize longRegexp.toList.tail = p at hsplit hchars hlen
  have hp : longRegexp = "~" ++ String.ofList p := by
    apply String.toList_injective
    simpa using hsplit
  have hbytes : byteLen (String.ofList p) = 118 := by rw [byteLen, String.toList_ofList, hlen]
  have hpattern : regexpPattern longRegexp = some (String.ofList p) :=
    hp ▸ regexpPattern_tilde (by simpa using hchars)
  refine ⟨String.ofList p, hpattern, fun hempty => ?_, hbytes⟩
  rw [hempty] at hbytes
  cases hbytes

/-- It is selected before the rule for exactly this host. -/
theorem long_regexp_before_exact :
    byteLen "a.example" ≤ 253 ∧
      (∃ rule ∈ (exactThenRegexp longRegexp).rules, Exact "a.example" rule) ∧
      Selects (exactThenRegexp longRegexp) "a.example" "mitm"
        { domain := longRegexp, enabled := true } ∧
      ¬ Exact "a.example" { domain := longRegexp, enabled := true } := by
  let exact : Rule := { domain := "*.a.example", enabled := true }
  let regexp : Rule := { domain := longRegexp, enabled := true }
  have hkey : byteLen (hostKey "a.example") = 9 := by decide
  have hexact : Exact "a.example" exact := ⟨rfl, by decide⟩
  obtain ⟨p, hp, hne, hlen⟩ := regexpPattern_longRegexp
  have hmatch : RegexpMatch (exactThenRegexp longRegexp) "a.example" regexp p :=
    ⟨rfl, hp, hne, rfl⟩
  have hscore : (exactThenRegexp longRegexp).score "a.example" regexp = some 1018 := by
    rw [hmatch.score plainHost_example.nonempty, hlen]
  have hscore' : ∀ rule, Exact "a.example" rule →
      (exactThenRegexp longRegexp).score "a.example" rule = some 1009 := by
    intro rule h
    rw [h.score plainHost_example, hkey]
  refine ⟨by decide, ⟨exact, List.mem_cons_self .., hexact⟩, ?_, fun h => ?_⟩
  · refine selects_of_selected ((selected_eq_some_iff _ _ _).mpr ?_) "mitm"
    refine ⟨1018, [exact], [], rfl, hscore, fun rule hrule m hm => ?_, by simp⟩
    rw [List.mem_singleton.mp hrule, hscore' exact hexact] at hm
    exact Option.some.inj hm ▸ by decide
  · exact absurd (hscore.symm.trans (hscore' regexp h)) (by decide)

end SniShaper.Match
