import Mathlib.Data.Finset.Sort
import Mathlib.Data.String.Basic
import SniShaper.Config.Merge

/-! What the key of an import's merge tells about a site group: its mode and the set of its
domains, unless a separator of the key stands in one of them.

* `normalizeDomainsForKey_eq`: the order and the repetition of the domains do not matter;
* `importMergeKey_eq_iff`: when two groups have the same key;
* `importMergeKey_identifies_iff`: when that is so exactly for groups of the same mode and
  domains, and what an import leaves of a group then. -/

namespace SniShaper.Manager

open Strings Config Hosts Candidates Upsert

section

variable [CaseTables]

/-! ## The groups -/

def keyMode (sg : SiteGroup) : String := toLower (trimSpace sg.mode)

/-- The trimmed lower-cased domains that are not blank. -/
def domainSet (domains : List String) : Finset String :=
  ((domains.map fun d => toLower (trimSpace d)).filter (· ≠ "")).toFinset

/-- The domains in order, with commas between them. -/
def listed (D : Finset String) : String := join (D.sort (· ≤ ·)) ","

/-- The domains in order, each cut at its commas. -/
def pieces (D : Finset String) : List String := (D.sort (· ≤ ·)).flatMap (split · ',')

/-- Different domains that are the same once they are cut at commas. -/
def CommaClash (a b : SiteGroup) : Prop :=
  pieces (domainSet a.domains) = pieces (domainSet b.domains) ∧
    domainSet a.domains ≠ domainSet b.domains

/-- The mode of `a` goes on with a bar after that of `b`, and the domains of `b` begin with what
follows it. -/
def BarClash (a b : SiteGroup) : Prop :=
  ∃ rest, keyMode a = keyMode b ++ "|" ++ rest ∧
    listed (domainSet b.domains) = rest ++ "|" ++ listed (domainSet a.domains)

/-- No separator makes the two groups look alike. -/
structure Separable (a b : SiteGroup) : Prop where
  comma : keyMode a = keyMode b → ¬ CommaClash a b
  bar : ¬ BarClash a b
  bar_symm : ¬ BarClash b a

/-! ## The domains of a key -/

theorem mem_keyDomains {domains out : List String} {n : String} :
    n ∈ keyDomains domains out ↔ n ∈ out ∨ n ∈ domainSet domains := by
  induction domains generalizing out with
  | nil => simp [keyDomains, domainSet]
  | cons d domains ih =>
    have hcons : n ∈ domainSet (d :: domains) ↔
        (n = toLower (trimSpace d) ∧ n ≠ "") ∨ n ∈ domainSet domains := by
      simp only [domainSet, List.mem_toFinset, List.mem_filter, List.map_cons, List.mem_cons]
      grind
    rw [keyDomains, hcons]
    split
    · rw [ih]
      grind
    · rw [ih]
      grind

/-- The loop keeps each domain once. -/
theorem nodup_keyDomains {domains out : List String} (h : out.Nodup) :
    (keyDomains domains out).Nodup := by
  induction domains generalizing out with
  | nil => exact h
  | cons d domains ih =>
    rw [keyDomains]
    split
    · exact ih h
    · rename_i hnew
      rw [not_or] at hnew
      exact ih (List.nodup_append.mpr ⟨h, List.nodup_singleton _, by
        rintro x hx y hy rfl
        exact hnew.2 (List.mem_singleton.mp hy ▸ hx)⟩)

/-- The order and the repetition of the domains do not matter. -/
theorem normalizeDomainsForKey_eq (domains : List String) :
    normalizeDomainsForKey domains = listed (domainSet domains) := by
  have hnodup : (keyDomains domains []).Nodup := nodup_keyDomains List.nodup_nil
  have hperm := List.perm_insertionSort (· ≤ ·) (keyDomains domains [])
  have hsorted := (List.toFinset_sort (· ≤ ·) (hperm.nodup_iff.mpr hnodup)).mpr
    (List.pairwise_insertionSort (· ≤ ·) (keyDomains domains []))
  have hset : ((keyDomains domains []).insertionSort (· ≤ ·)).toFinset = domainSet domains := by
    ext n
    rw [List.mem_toFinset, hperm.mem_iff, mem_keyDomains]
    simp
  rw [normalizeDomainsForKey, ← hsorted, hset, listed]

/-! ## Equal keys -/

theorem ne_empty_of_mem_domainSet {domains : List String} {n : String}
    (h : n ∈ domainSet domains) : n ≠ "" := by
  simp only [domainSet, List.mem_toFinset, List.mem_filter, decide_eq_true_eq] at h
  exact h.2

theorem listed_eq_iff (as bs : List String) :
    listed (domainSet as) = listed (domainSet bs) ↔
      pieces (domainSet as) = pieces (domainSet bs) :=
  join_eq_join_iff ','
    (fun _ h => ne_empty_of_mem_domainSet ((Finset.mem_sort (· ≤ ·)).mp h))
    (fun _ h => ne_empty_of_mem_domainSet ((Finset.mem_sort (· ≤ ·)).mp h))

theorem importMergeKey_eq (sg : SiteGroup) :
    importMergeKey sg = keyMode sg ++ "|" ++ listed (domainSet sg.domains) := by
  rw [importMergeKey, normalizeDomainsForKey_eq, keyMode]

/-- Two groups have the same key if the modes are equal and the domains have the same pieces, or
if one of the modes takes the bar of the key. -/
theorem importMergeKey_eq_iff (a b : SiteGroup) :
    importMergeKey a = importMergeKey b ↔
      (keyMode a = keyMode b ∧ pieces (domainSet a.domains) = pieces (domainSet b.domains)) ∨
        BarClash a b ∨ BarClash b a := by
  rw [importMergeKey_eq, importMergeKey_eq, ← listed_eq_iff]
  -- the bar of one key is that of the other, or stands before or after it
  exact append_sep_eq_iff '|' _ _ _ _

/-- A text does not go on after itself. -/
theorem BarClash.mode_ne {a b : SiteGroup} (h : BarClash a b) : keyMode a ≠ keyMode b := by
  obtain ⟨rest, hmode, -⟩ := h
  intro heq
  have hlen := congrArg String.length (hmode.symm.trans heq)
  have hone : "|".length = 1 := rfl
  rw [String.length_append, String.length_append, hone] at hlen
  omega

/-- The key tells the mode and the domains of two groups that no separator makes alike. -/
theorem importMergeKey_eq_iff_of_separable {a b : SiteGroup} (h : Separable a b) :
    importMergeKey a = importMergeKey b ↔
      keyMode a = keyMode b ∧ domainSet a.domains = domainSet b.domains := by
  rw [importMergeKey_eq_iff, or_iff_left (not_or_intro h.bar h.bar_symm)]
  constructor
  · rintro ⟨hmode, hpieces⟩
    refine ⟨hmode, ?_⟩
    by_contra hne
    exact h.comma hmode ⟨hpieces, hne⟩
  · rintro ⟨hmode, hset⟩
    exact ⟨hmode, congrArg pieces hset⟩

theorem separable_of_importMergeKey {a b : SiteGroup}
    (h : importMergeKey a = importMergeKey b →
      keyMode a = keyMode b ∧ domainSet a.domains = domainSet b.domains) : Separable a b where
  comma hmode hclash :=
    hclash.2 (h ((importMergeKey_eq_iff a b).mpr (.inl ⟨hmode, hclash.1⟩))).2
  bar hclash :=
    hclash.mode_ne (h ((importMergeKey_eq_iff a b).mpr (.inr (.inl hclash)))).1
  bar_symm hclash :=
    hclash.mode_ne (h ((importMergeKey_eq_iff a b).mpr (.inr (.inr hclash)))).1.symm

/-! ## The import -/

theorem Separable.keepID {a b : SiteGroup} (h : Separable a b) (old : SiteGroup) :
    Separable (keepID old a) b :=
  ⟨h.comma, h.bar, h.bar_symm⟩

/-- What an import leaves at the place of a group has the key of the group, and is the group
itself or an imported one. -/
theorem importConfigWithSummary_place (dec : Decoder) (newID : Nat → String) (rm : RuleManager)
    (content : String) (saved : Except String Unit) {i : Nat} {old : SiteGroup}
    (h : rm.siteGroups[i]? = some old) :
    ∃ new, (importConfigWithSummary dec newID rm content saved).2.siteGroups[i]? = some new ∧
      importMergeKey new = importMergeKey old ∧
        (new = old ∨ ∃ g ∈ importedGroups dec newID content, new = keepID old g) := by
  by_cases hcontent : trimSpace content = ""
  · refine ⟨old, ?_, rfl, .inl rfl⟩
    unfold importConfigWithSummary
    simp only
    rwa [if_pos hcontent]
  · rw [importConfigWithSummary_siteGroups dec newID rm hcontent saved]
    have hmerged := merged_upsertAll keeps_keepID rm.siteGroups (importedGroups dec newID content)
    refine ⟨_, hmerged.kept i old h, key_keptRow keeps_keepID _ _ _ _, ?_⟩
    unfold keptRow
    split
    · cases hlast : lastWith importMergeKey (importedGroups dec newID content)
          (importMergeKey old) with
      | none => exact .inl rfl
      | some g => exact .inr ⟨g, (lastWith_eq_some hlast).1, rfl⟩
    · exact .inl rfl

/-- Two groups have the same key exactly if they have the same mode and the same domains, unless
a separator makes them alike; and an import leaves the domains of every group that no separator
makes like an imported one. -/
theorem importMergeKey_identifies_iff :
    (∀ a b : SiteGroup,
      (importMergeKey a = importMergeKey b ↔
        keyMode a = keyMode b ∧ domainSet a.domains = domainSet b.domains) ↔ Separable a b) ∧
    ∀ (dec : Decoder) (newID : Nat → String) (rm : RuleManager) (content : String)
      (saved : Except String Unit) (i : Nat) (old : SiteGroup),
      rm.siteGroups[i]? = some old →
      (∀ g ∈ importedGroups dec newID content, Separable g old) →
      ∃ new, (importConfigWithSummary dec newID rm content saved).2.siteGroups[i]? = some new ∧
        domainSet new.domains = domainSet old.domains := by
  constructor
  · intro a b
    exact ⟨fun h => separable_of_importMergeKey h.mp, importMergeKey_eq_iff_of_separable⟩
  · intro dec newID rm content saved i old hold hsep
    obtain ⟨new, hnew, hkey, rfl | ⟨g, hg, rfl⟩⟩ :=
      importConfigWithSummary_place dec newID rm content saved hold
    · exact ⟨new, hnew, rfl⟩
    · exact ⟨_, hnew, ((importMergeKey_eq_iff_of_separable ((hsep g hg).keepID old)).mp hkey).2⟩

theorem pieces_of_plain {domains : List String}
    (h : ∀ d ∈ domainSet domains, ',' ∉ d.toList) :
    pieces (domainSet domains) = (domainSet domains).sort (· ≤ ·) := by
  have hone : ∀ d ∈ (domainSet domains).sort (· ≤ ·), split d ',' = [d] := by
    intro d hd
    rw [split, List.splitOn_eq_singleton (h d ((Finset.mem_sort (· ≤ ·)).mp hd)), List.map_cons,
      String.ofList_toList]
    rfl
  rw [pieces, List.flatMap_congr hone, List.flatMap_singleton']

theorem not_barClash_of_plain {a b : SiteGroup} (h : '|' ∉ (keyMode a).toList) :
    ¬ BarClash a b := by
  rintro ⟨rest, hmode, -⟩
  rw [hmode] at h
  simp at h

/-- Domains without commas and modes without bars are told apart. -/
theorem separable_of_plain {a b : SiteGroup} (hda : ∀ d ∈ domainSet a.domains, ',' ∉ d.toList)
    (hdb : ∀ d ∈ domainSet b.domains, ',' ∉ d.toList) (ha : '|' ∉ (keyMode a).toList)
    (hb : '|' ∉ (keyMode b).toList) : Separable a b where
  comma := by
    rintro - ⟨hpieces, hne⟩
    rw [pieces_of_plain hda, pieces_of_plain hdb] at hpieces
    apply hne
    rw [← Finset.sort_toFinset (domainSet a.domains) (· ≤ ·), hpieces, Finset.sort_toFinset]
  bar := not_barClash_of_plain ha
  bar_symm := not_barClash_of_plain hb

end

/-- Two domains, and one that is written with a comma. -/
theorem importMergeKey_identifies_fails :
    ∃ a b : SiteGroup, importMergeKey a = importMergeKey b ∧ keyMode a = keyMode b ∧
      domainSet a.domains ≠ domainSet b.domains :=
  ⟨{ mode := "mitm", domains := ["a.com", "b.com"] },
    { mode := "mitm", domains := ["a.com,b.com"] }, by decide +kernel, by decide +kernel,
    by decide +kernel⟩

/-- A group that the two rules do not name. -/
def otherGroup : SiteGroup := { mode := "mitm", domains := ["b.com"] }

theorem twoRules_keeps_domains :
    ∃ new, (importConfigWithSummary twoRulesDecoder toString
        { newRuleManager with siteGroups := [otherGroup] } twoRules (.ok ())).2.siteGroups[0]? =
          some new ∧
      domainSet new.domains = domainSet otherGroup.domains := by
  have hread : (importedGroups twoRulesDecoder toString twoRules).map
      (fun g => (g.mode, g.domains)) = [("mitm", ["a.com"]), ("mitm", ["a.com"])] := by
    decide +kernel
  refine importMergeKey_identifies_iff.2 twoRulesDecoder toString
    { newRuleManager with siteGroups := [otherGroup] } twoRules (.ok ()) 0 otherGroup rfl
    fun g hg => ?_
  have hg := List.mem_map_of_mem (f := fun g : SiteGroup => (g.mode, g.domains)) hg
  rw [hread] at hg
  obtain ⟨hmode, hdomains⟩ : g.mode = "mitm" ∧ g.domains = ["a.com"] := by simpa using hg
  refine separable_of_plain ?_ ?_ ?_ ?_
  · rw [hdomains]
    decide +kernel
  · decide +kernel
  · rw [keyMode, hmode]
    decide +kernel
  · decide +kernel

end SniShaper.Manager
