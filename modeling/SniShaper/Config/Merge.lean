import SniShaper.Config.Import
import SniShaper.Lib.Upsert

/-! What an import does to the site groups: a merge by mode and domains.

* `importContent_keeps`: the rule by which a property of what is read is proved;
* `importConfigWithSummary_ok`: the state after an import that succeeds;
* `importConfigWithSummary_merges`: the merge and its counts. -/

namespace SniShaper.Manager

open Strings Config Hosts Candidates Upsert

section

variable [CaseTables]

/-! ## Reading -/

/-- What was read, or what was there before when it could not be read. -/
def Imported.orRead (acc : Imported) : Except String Imported → Imported
  | .ok read => read
  | .error _ => acc

/-- The payload of a part, if it is a text. -/
def RawValue.payload : Option RawValue → Option String
  | none => none
  | some (.text v) => some v
  | some (.other (.ok v)) => some v
  | some (.other (.error _)) => none

theorem importPart_eq (dec : Decoder) (newID : Nat → String) (parts : String → Option RawValue)
    (acc : Imported) (key : String) :
    importPart dec newID parts acc key =
      (RawValue.payload (parts key)).elim acc fun v =>
        acc.orRead (parseConfigPayload dec newID v key acc) := by
  unfold importPart
  rcases parts key with _ | (v | v | v) <;> rfl

/-- What the parts of the wrapper bring. -/
def importParts (dec : Decoder) (newID : Nat → String) (content : String) : Imported :=
  (dec.wrapper content).elim {} fun parts =>
    ["mitm", "transparent"].foldl (importPart dec newID parts) {}

theorem importContent_eq (dec : Decoder) (newID : Nat → String) (content : String) :
    importContent dec newID content =
      let wrapped := importParts dec newID content
      if wrapped.groups = [] then
        wrapped.orRead (parseConfigPayload dec newID content "" wrapped)
      else wrapped := by
  unfold importContent importParts
  cases dec.wrapper content with
  | none => rfl
  | some parts => rfl

section

variable {P : Imported → Prop} {newID : Nat → String}
variable (hrules : ∀ mode rules acc, P acc → P (importRules newID mode rules acc))
include hrules

theorem parseConfigPayload_keeps {dec : Decoder} {payload forcedType : String} {acc acc' : Imported}
    (h : P acc) (hok : parseConfigPayload dec newID payload forcedType acc = .ok acc') : P acc' := by
  unfold parseConfigPayload at hok
  cases hdec : dec.configFile payload with
  | error err => simp [hdec] at hok
  | ok cfg =>
    rw [hdec] at hok
    simp only at hok
    generalize (if toLower (trimSpace cfg.type) = "" then _ else _ : String) = mode at hok
    by_cases hmode : mode ≠ "mitm" ∧ mode ≠ "transparent"
    · rw [if_pos hmode] at hok
      cases hok
    · rw [if_neg hmode] at hok
      exact Except.ok.inj hok ▸ hrules _ _ _ h

theorem orRead_keeps {dec : Decoder} {payload forcedType : String} {acc : Imported} (h : P acc) :
    P (acc.orRead (parseConfigPayload dec newID payload forcedType acc)) := by
  cases hread : parseConfigPayload dec newID payload forcedType acc with
  | error err => exact h
  | ok read => exact parseConfigPayload_keeps hrules h hread

theorem importPart_keeps {dec : Decoder} {parts : String → Option RawValue} {acc : Imported}
    (h : P acc) (key : String) : P (importPart dec newID parts acc key) := by
  rw [importPart_eq]
  cases RawValue.payload (parts key) with
  | none => exact h
  | some v => exact orRead_keeps hrules h

theorem importParts_keeps (dec : Decoder) (content : String) (h : P {}) :
    P (importParts dec newID content) := by
  unfold importParts
  cases dec.wrapper content with
  | none => simpa only [Option.elim_none] using h
  | some parts =>
    simp only [Option.elim_some, List.foldl_cons, List.foldl_nil]
    exact importPart_keeps hrules (importPart_keeps hrules h _) _

/-- A property of what was read that the loop over the rules keeps. -/
theorem importContent_keeps (dec : Decoder) (content : String) (h : P {}) :
    P (importContent dec newID content) := by
  have hparts : P (importParts dec newID content) := importParts_keeps hrules dec content h
  rw [importContent_eq]
  generalize importParts dec newID content = wrapped at hparts
  simp only
  by_cases hnone : wrapped.groups = []
  · rw [if_pos hnone]
    exact orRead_keeps hrules hparts
  · rw [if_neg hnone]
    exact hparts

end

/-- Every rule is counted, and what is read has a mode and domains. -/
structure Imported.Sound (acc : Imported) : Prop where
  total : acc.total = acc.groups.length + acc.skipped
  mode : ∀ g ∈ acc.groups, importableMode g.mode = true
  domains : ∀ g ∈ acc.groups, g.domains ≠ []

theorem importRules_sound {newID : Nat → String} {mode : String} {rules : List ConfigRule}
    {acc : Imported} (h : acc.Sound) : (importRules newID mode rules acc).Sound := by
  induction rules generalizing acc with
  | nil => exact h
  | cons rule rules ih =>
    unfold importRules
    simp only
    generalize (if toLower (trimSpace rule.mode) = "" then _ else _ : String) = ruleMode
    by_cases hskip : rule.domains = [] ∨ importableMode ruleMode = false
    · rw [if_pos hskip]
      refine ih ⟨?_, h.mode, h.domains⟩
      simp only [h.total]
      omega
    · rw [if_neg hskip]
      rw [not_or, Bool.not_eq_false] at hskip
      refine ih ⟨?_, fun g hg => ?_, fun g hg => ?_⟩
      · simp only [h.total, List.length_append, List.length_singleton]
        omega
      · rcases List.mem_append.mp hg with hg | hg
        · exact h.mode g hg
        · rw [List.mem_singleton.mp hg]
          exact hskip.2
      · rcases List.mem_append.mp hg with hg | hg
        · exact h.domains g hg
        · rw [List.mem_singleton.mp hg]
          exact hskip.1

theorem importContent_sound (dec : Decoder) (newID : Nat → String) (content : String) :
    (importContent dec newID content).Sound :=
  importContent_keeps (fun _ _ _ => importRules_sound) dec content ⟨rfl, by simp, by simp⟩

/-! ## Merging -/

/-- A group that was replaced keeps its id. -/
def keepID (old new : SiteGroup) : SiteGroup := { new with id := old.id }

theorem keeps_keepID : Keeps importMergeKey keepID where
  key_put _ _ := rfl
  put_put _ _ _ := rfl
  put_self _ := rfl

omit [CaseTables] in
theorem importableMode_cases {mode : String} (h : importableMode mode = true) :
    mode ∈ ["mitm", "transparent", "server", "tls-rf", "quic", "warp"] := by
  simpa [importableMode, or_assoc] using h

/-- A group that was read has a mode, so its key is not blank. -/
theorem importMergeKey_ne_bar {sg : SiteGroup} (h : importableMode sg.mode = true) :
    importMergeKey sg ≠ "|" := by
  intro hkey
  have hlen := congrArg String.length hkey
  have hone : "|".length = 1 := rfl
  rw [importMergeKey, String.length_append, String.length_append, hone] at hlen
  have hblank : toLower (trimSpace sg.mode) = "" := String.length_eq_zero_iff.mp (by omega)
  have hnone : trimSpace sg.mode ≠ "" := by
    have hmode := importableMode_cases h
    generalize sg.mode = mode at hmode
    revert mode
    decide
  exact hnone (toLower_eq_empty hblank)

/-- The index map holds the last position of every key other than the blank one. -/
def Merge.Indexed (acc : Merge) : Prop :=
  ∀ key, key ≠ "|" → acc.index key = lastIdx importMergeKey acc.merged key

/-- The first loop leaves the last of several positions of a key. -/
theorem mergeIndex_eq (groups : List SiteGroup) {key : String} (h : key ≠ "|") :
    mergeIndex groups key = lastIdx importMergeKey groups key := by
  induction groups using List.reverseRecOn with
  | nil => rfl
  | append_singleton groups sg ih =>
    have hstep : mergeIndex (groups ++ [sg]) =
        if importMergeKey sg = "|" then mergeIndex groups
        else Function.update (mergeIndex groups) (importMergeKey sg) (some groups.length) := by
      simp [mergeIndex, List.zipIdx_append]
    rw [hstep, lastIdx_concat]
    by_cases hkey : importMergeKey sg = key
    · rw [if_neg (hkey ▸ h), if_pos hkey, hkey, Function.update_self]
    · rw [if_neg hkey, ← ih]
      split
      · rfl
      · rw [Function.update_of_ne (Ne.symm hkey)]

theorem mergeIndex_indexed (groups : List SiteGroup) (skipped : Nat) :
    Merge.Indexed { merged := groups, index := mergeIndex groups, skipped := skipped } :=
  fun _ hkey => mergeIndex_eq groups hkey

/-- A group that is overwritten keeps its key, and one that is added is the last of its key. -/
theorem Merge.Indexed.mergeGroup {acc : Merge} (hindex : acc.Indexed) (sg : SiteGroup) :
    (mergeGroup acc sg).Indexed := by
  intro key hkey
  unfold Manager.mergeGroup
  simp only
  split
  · exact hindex key hkey
  · rename_i hsg
    cases hidx : acc.index (importMergeKey sg) with
    | some idx =>
      rw [hindex _ hsg] at hidx
      have hkeys := map_key_modify keeps_keepID (lastIdx_eq_some_iff.mp hidx).1
      exact (hindex key hkey).trans (lastIdx_congr hkeys.symm key)
    | none =>
      simp only [List.length_append, List.length_singleton, Nat.add_sub_cancel]
      rw [lastIdx_concat]
      by_cases heq : importMergeKey sg = key
      · rw [if_pos heq, heq, Function.update_self]
      · rw [if_neg heq, Function.update_of_ne (Ne.symm heq), hindex key hkey]

/-- One group: the list is updated by key and the group is counted. -/
theorem mergeGroup_spec {acc : Merge} (hindex : acc.Indexed) {sg : SiteGroup}
    (h : importMergeKey sg ≠ "|") :
    (mergeGroup acc sg).merged = upsert importMergeKey keepID acc.merged sg ∧
      (mergeGroup acc sg).skipped = acc.skipped ∧
      (mergeGroup acc sg).added + (mergeGroup acc sg).overwritten =
        acc.added + acc.overwritten + 1 ∧
      (mergeGroup acc sg).merged.length + acc.added =
        acc.merged.length + (mergeGroup acc sg).added := by
  unfold mergeGroup upsert
  rw [if_neg h, ← hindex _ h]
  cases acc.index (importMergeKey sg) with
  | none =>
    refine ⟨rfl, rfl, ?_, ?_⟩
    · simp only
      omega
    · simp only [List.length_append, List.length_singleton]
      omega
  | some idx =>
    refine ⟨rfl, rfl, ?_, ?_⟩
    · simp only
      omega
    · simp only [List.length_modify]

theorem foldl_mergeGroup_spec {acc : Merge} (hindex : acc.Indexed) {groups : List SiteGroup}
    (h : ∀ g ∈ groups, importMergeKey g ≠ "|") :
    (groups.foldl mergeGroup acc).merged = upsertAll importMergeKey keepID acc.merged groups ∧
      (groups.foldl mergeGroup acc).skipped = acc.skipped ∧
      (groups.foldl mergeGroup acc).added + (groups.foldl mergeGroup acc).overwritten =
        acc.added + acc.overwritten + groups.length ∧
      (groups.foldl mergeGroup acc).merged.length + acc.added =
        acc.merged.length + (groups.foldl mergeGroup acc).added := by
  induction groups generalizing acc with
  | nil => exact ⟨rfl, rfl, rfl, rfl⟩
  | cons sg groups ih =>
    obtain ⟨hsg, hgroups⟩ := List.forall_mem_cons.mp h
    obtain ⟨hmerged, hskipped, hcount, hlen⟩ := mergeGroup_spec hindex hsg
    obtain ⟨ihmerged, ihskipped, ihcount, ihlen⟩ := ih (hindex.mergeGroup sg) hgroups
    rw [List.foldl_cons]
    refine ⟨?_, ihskipped.trans hskipped, ?_, ?_⟩
    · rw [ihmerged, hmerged]
      rfl
    · rw [ihcount, hcount, List.length_cons]
      omega
    · omega

/-! ## The import -/

/-- The groups that are read from a content. -/
def importedGroups (dec : Decoder) (newID : Nat → String) (content : String) : List SiteGroup :=
  (importContent dec newID (trimSpace content)).groups

/-- The site groups after an import, whether or not it succeeds. -/
theorem importConfigWithSummary_siteGroups (dec : Decoder) (newID : Nat → String)
    (rm : RuleManager) {content : String} (hcontent : trimSpace content ≠ "")
    (saved : Except String Unit) :
    (importConfigWithSummary dec newID rm content saved).2.siteGroups =
      upsertAll importMergeKey keepID rm.siteGroups (importedGroups dec newID content) := by
  have hsound := importContent_sound dec newID (trimSpace content)
  have hkeys : ∀ g ∈ (importContent dec newID (trimSpace content)).groups,
      importMergeKey g ≠ "|" := fun g hg => importMergeKey_ne_bar (hsound.mode g hg)
  have hmerged := (foldl_mergeGroup_spec (mergeIndex_indexed rm.siteGroups
    (importContent dec newID (trimSpace content)).skipped) hkeys).1
  unfold importConfigWithSummary
  simp only
  rw [if_neg hcontent]
  by_cases hnone : (importContent dec newID (trimSpace content)).groups = []
  · rw [if_pos hnone, importedGroups, hnone]
    rfl
  · rw [if_neg hnone, importedGroups, ← hmerged]
    cases saved <;> rfl

/-- An import that succeeds: the content has groups, the manager after it and the counts. -/
theorem importConfigWithSummary_ok {dec : Decoder} {newID : Nat → String} {rm rm' : RuleManager}
    {content : String} {saved : Except String Unit} {summary : ImportSummary}
    (h : importConfigWithSummary dec newID rm content saved = (.ok summary, rm')) :
    importedGroups dec newID content ≠ [] ∧
      rm' = buildRules { rm with
        siteGroups :=
          upsertAll importMergeKey keepID rm.siteGroups (importedGroups dec newID content) } ∧
      summary.total = summary.added + summary.overwritten + summary.skipped ∧
      rm'.siteGroups.length = rm.siteGroups.length + summary.added ∧
      summary.skipped = (importContent dec newID (trimSpace content)).skipped := by
  have hsound := importContent_sound dec newID (trimSpace content)
  have hkeys : ∀ g ∈ (importContent dec newID (trimSpace content)).groups,
      importMergeKey g ≠ "|" := fun g hg => importMergeKey_ne_bar (hsound.mode g hg)
  unfold importConfigWithSummary at h
  simp only at h
  by_cases hempty : trimSpace content = ""
  · rw [if_pos hempty] at h
    cases h
  · rw [if_neg hempty] at h
    by_cases hnone : (importContent dec newID (trimSpace content)).groups = []
    · rw [if_pos hnone] at h
      cases h
    · rw [if_neg hnone] at h
      cases saved with
      | error err => cases h
      | ok u =>
        obtain ⟨hmerged, hskipped, hcount, hlen⟩ := foldl_mergeGroup_spec
          (mergeIndex_indexed rm.siteGroups
            (importContent dec newID (trimSpace content)).skipped) hkeys
        have hpos : 0 < (importContent dec newID (trimSpace content)).groups.length :=
          List.length_pos_of_ne_nil hnone
        have htotal := hsound.total
        obtain ⟨hsummary, hrm⟩ := Prod.mk.inj h
        rw [← hrm, ← Except.ok.inj hsummary, importedGroups, ← hmerged]
        refine ⟨hnone, rfl, ?_, ?_, hskipped⟩
        · simp only
          rw [if_neg (by omega)]
          simp only at hcount hskipped
          omega
        · simp only at hlen
          simpa [buildRules] using hlen

/-- The group at the position is the last one with its key. -/
def LastWithKey (groups : List SiteGroup) (i : Nat) (g : SiteGroup) : Prop :=
  groups[i]? = some g ∧
    ∀ j g', i < j → groups[j]? = some g' → importMergeKey g' ≠ importMergeKey g

theorem lastIdx_eq_some_iff_lastWithKey {groups : List SiteGroup} {i : Nat} {g : SiteGroup}
    (hg : groups[i]? = some g) :
    lastIdx importMergeKey groups (importMergeKey g) = some i ↔ LastWithKey groups i g := by
  rw [lastIdx_eq_some_iff, hg, LastWithKey]
  constructor
  · rintro ⟨-, hlater⟩
    refine ⟨hg, fun j g' hj hg' hkey => hlater j hj ?_⟩
    rw [hg', Option.map_some, hkey]
  · rintro ⟨-, hlater⟩
    refine ⟨rfl, fun j hj hkey => ?_⟩
    obtain ⟨g', hg', hkey⟩ := Option.map_eq_some_iff.mp hkey
    exact hlater j g' hj hg' hkey

/-- The imported groups are merged by key: a group keeps its place and id, the last one
with an imported key becomes the last imported group with it, no other group changes, and
every new key is added once, in the order in which the keys first occur, with the last
imported group that has it. -/
structure KeyedMerge (before imported after : List SiteGroup) : Prop where
  keeps_id : ∀ (i : Nat) (g : SiteGroup), before[i]? = some g →
    ∃ g' : SiteGroup, after[i]? = some g' ∧ g'.id = g.id
  replaced : ∀ (i : Nat) (g : SiteGroup) j new, LastWithKey before i g → LastWithKey imported j new →
    importMergeKey new = importMergeKey g → after[i]? = some { new with id := g.id }
  unchanged : ∀ (i : Nat) (g : SiteGroup), before[i]? = some g →
    ¬ (LastWithKey before i g ∧ importMergeKey g ∈ imported.map importMergeKey) →
      after[i]? = some g
  added_keys : (after.drop before.length).map importMergeKey =
    ((imported.map importMergeKey).filter (· ∉ before.map importMergeKey)).eraseDups
  added : ∀ g ∈ after.drop before.length, ∃ j new, LastWithKey imported j new ∧
    importMergeKey new = importMergeKey g ∧ g = { new with id := g.id }

theorem lastWith_of_lastWithKey {groups : List SiteGroup} {j : Nat} {new : SiteGroup}
    (h : LastWithKey groups j new) :
    lastWith importMergeKey groups (importMergeKey new) = some new := by
  rw [← getElem?_lastIdx ((lastIdx_eq_some_iff_lastWithKey h.1).mpr h), h.1]

theorem exists_lastWithKey {groups : List SiteGroup} {k : String} {new : SiteGroup}
    (h : lastWith importMergeKey groups k = some new) :
    importMergeKey new = k ∧ ∃ j, LastWithKey groups j new := by
  obtain ⟨hmem, rfl⟩ := lastWith_eq_some h
  refine ⟨rfl, ?_⟩
  cases hidx : lastIdx importMergeKey groups (importMergeKey new) with
  | none => exact absurd (List.mem_map_of_mem hmem) (lastIdx_eq_none_iff.mp hidx)
  | some j =>
    have hj : groups[j]? = some new := by rw [getElem?_lastIdx hidx, h]
    exact ⟨j, (lastIdx_eq_some_iff_lastWithKey hj).mp hidx⟩

theorem keyedMerge_upsertAll (before imported : List SiteGroup) :
    KeyedMerge before imported (upsertAll importMergeKey keepID before imported) := by
  have h := merged_upsertAll keeps_keepID before imported
  constructor
  · intro i g hg
    refine ⟨_, h.kept i g hg, ?_⟩
    unfold keptRow
    split
    · cases lastWith importMergeKey imported (importMergeKey g) <;> rfl
    · rfl
  · intro i g j new hlast hnew hkey
    have hfound := lastWith_of_lastWithKey hnew
    rw [h.kept i g hlast.1, keptRow, if_pos ((lastIdx_eq_some_iff_lastWithKey hlast.1).mpr hlast),
      ← hkey, hfound]
    rfl
  · intro i g hg hnot
    rw [h.kept i g hg, keptRow]
    by_cases hlast : lastIdx importMergeKey before (importMergeKey g) = some i
    · have hnone : lastWith importMergeKey imported (importMergeKey g) = none :=
        lastWith_eq_none_iff.mpr fun hmem =>
          hnot ⟨(lastIdx_eq_some_iff_lastWithKey hg).mp hlast, hmem⟩
      rw [if_pos hlast, hnone, Option.elim_none]
    · rw [if_neg hlast]
  · exact h.keys_added
  · intro g hg
    obtain ⟨first, -, last, -, hlast, heq⟩ := h.added g hg
    obtain ⟨hkey, j, hj⟩ := exists_lastWithKey hlast
    exact ⟨j, last, hj, hkey, by rw [heq]; rfl⟩

/-- An import that succeeds is a keyed merge, every rule is counted once, and the list
grows by the groups that were added. -/
theorem importConfigWithSummary_merges {dec : Decoder} {newID : Nat → String}
    {rm rm' : RuleManager} {content : String} {saved : Except String Unit}
    {summary : ImportSummary}
    (h : importConfigWithSummary dec newID rm content saved = (.ok summary, rm')) :
    KeyedMerge rm.siteGroups (importedGroups dec newID content) rm'.siteGroups ∧
      summary.total = summary.added + summary.overwritten + summary.skipped ∧
      rm'.siteGroups.length = rm.siteGroups.length + summary.added := by
  obtain ⟨-, hrm, htotal, hlen, -⟩ := importConfigWithSummary_ok h
  refine ⟨?_, htotal, hlen⟩
  rw [hrm]
  exact keyedMerge_upsertAll rm.siteGroups (importedGroups dec newID content)

end

/-- A config file with two rules for the same domain. -/
def twoRules : String :=
  "\x7b\"type\":\"mitm\",\"rules\":[\x7b\"name\":\"A\",\"enabled\":true,\"domains\":[\"a.com\"]\x7d," ++
    "\x7b\"name\":\"B\",\"enabled\":true,\"domains\":[\"a.com\"]\x7d]\x7d"

/-- `encoding/json` on that text: an object without parts, and the file. -/
def twoRulesDecoder : Decoder where
  wrapper _ := some fun _ => none
  configFile _ := .ok
    { type := "mitm"
      rules :=
        [{ name := "A", enabled := true, domains := ["a.com"] },
          { name := "B", enabled := true, domains := ["a.com"] }] }

/-- A manager with two groups for one domain. -/
def repeated : RuleManager :=
  { newRuleManager with
    siteGroups :=
      [{ id := "1", mode := "mitm", domains := ["a.com"] },
        { id := "2", mode := "mitm", domains := ["b.com"] },
        { id := "3", mode := "mitm", domains := ["a.com"] }] }

/-- `encoding/json` on a file that names the domain twice, and a new one between. -/
def repeatedDecoder : Decoder where
  wrapper _ := some fun _ => none
  configFile _ := .ok
    { type := "mitm"
      rules :=
        [{ name := "A", enabled := true, domains := ["a.com"] },
          { name := "C", enabled := true, domains := ["c.com"] },
          { name := "B", enabled := true, domains := ["a.com"] }] }

def repeatedImported : RuleManager :=
  (importConfigWithSummary repeatedDecoder toString repeated "rules" (.ok ())).2

/-- Of the two groups with the key the later one is replaced. -/
theorem repeated_merges :
    importConfigWithSummary repeatedDecoder toString repeated "rules" (.ok ()) =
        (.ok { total := 3, added := 1, overwritten := 2, skipped := 0 }, repeatedImported) ∧
      repeatedImported.siteGroups.map (fun g => (g.id, g.name)) =
        [("1", ""), ("2", ""), ("3", "B"), ("1", "C")] ∧
      KeyedMerge repeated.siteGroups (importedGroups repeatedDecoder toString "rules")
        repeatedImported.siteGroups := by
  have hcounts : (importConfigWithSummary repeatedDecoder toString repeated "rules" (.ok ())).1 =
      .ok { total := 3, added := 1, overwritten := 2, skipped := 0 } := by
    decide +kernel
  have hok : importConfigWithSummary repeatedDecoder toString repeated "rules" (.ok ()) =
      (.ok { total := 3, added := 1, overwritten := 2, skipped := 0 }, repeatedImported) := by
    rw [← hcounts, repeatedImported]
  exact ⟨hok, by decide +kernel, (importConfigWithSummary_merges hok).1⟩

end SniShaper.Manager
