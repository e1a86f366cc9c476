import SniShaper.Config.Merge

/-! Exporting the site groups (`ExportConfig` of `proxy/config.go`) and importing them
again. Marshalling JSON is left to an `Encoder`.

* `importedGroups_export`: what an import reads from an export;
* `reimport_unchanged_iff`: when importing one's own export changes nothing;
* `importsAll_iff`: when an export is imported into an empty manager without a loss. -/

namespace SniShaper.Manager

open Strings Config Hosts Candidates Upsert

section

variable [CaseTables]

/-! ## The source's function -/

/-- `encoding/json` at the two types the export marshals: a config file and the wrapper
object, all of whose values are texts. -/
structure Encoder where
  configFile : ConfigFile → String
  wrapper : List (String × String) → Except String String

def exportedRule (sg : SiteGroup) : ConfigRule :=
  { name := sg.name
    website := sg.website
    mode := sg.mode
    enabled := sg.enabled
    domains := sg.domains
    upstream := sg.upstream
    upstreams := sg.upstreams
    dnsMode := sg.dnsMode
    sniFake := sg.sniFake
    connectPolicy := sg.connectPolicy
    sniPolicy := sg.sniPolicy
    echEnabled := sg.echEnabled
    echProfileID := sg.echProfileID
    echDomain := sg.echDomain
    useCFPool := sg.useCFPool
    certVerify := sg.certVerify }

/-- The groups of the payload `mitm`, and those of the payload `transparent`. -/
def mitmGroups (groups : List SiteGroup) : List SiteGroup := groups.filter (·.mode = "mitm")

def transGroups (groups : List SiteGroup) : List SiteGroup := groups.filter (·.mode ≠ "mitm")

def exportedFile (type : String) (groups : List SiteGroup) : ConfigFile :=
  { version := "1.0", type := type, rules := groups.map exportedRule }

/-- A payload with no rules is left out. -/
def exportedPart (enc : Encoder) (type : String) (groups : List SiteGroup) :
    List (String × String) :=
  if groups = [] then [] else [(type, enc.configFile (exportedFile type groups))]

def exportedFields (enc : Encoder) (now : String) (groups : List SiteGroup) :
    List (String × String) :=
  ("exported", now) ::
    (exportedPart enc "mitm" (mitmGroups groups) ++
      exportedPart enc "transparent" (transGroups groups))

def exportConfig (enc : Encoder) (now : String) (rm : RuleManager) : Except String String :=
  enc.wrapper (exportedFields enc now rm.siteGroups)

/-! ## Reading an export -/

/-- The text of an export, and that JSON reads it back: the object with its texts, the
payloads in them, and no field of a config file in the object itself. -/
structure ReadsBack (enc : Encoder) (dec : Decoder) (now : String) (rm : RuleManager)
    (text : String) : Prop where
  exported : exportConfig enc now rm = .ok text
  trimmed : trimSpace text = text
  nonempty : text ≠ ""
  wrapper : dec.wrapper text =
    some fun key => ((exportedFields enc now rm.siteGroups).lookup key).map RawValue.text
  plain : dec.configFile text = .ok {}
  mitm : mitmGroups rm.siteGroups ≠ [] →
    dec.configFile (enc.configFile (exportedFile "mitm" (mitmGroups rm.siteGroups))) =
      .ok (exportedFile "mitm" (mitmGroups rm.siteGroups))
  transparent : transGroups rm.siteGroups ≠ [] →
    dec.configFile (enc.configFile (exportedFile "transparent" (transGroups rm.siteGroups))) =
      .ok (exportedFile "transparent" (transGroups rm.siteGroups))

/-- A group without its id. -/
def dropID (sg : SiteGroup) : SiteGroup := { sg with id := "" }

/-- The mode of an imported rule; the type of the payload stands in for none. -/
def ruleMode (mode : String) (rule : ConfigRule) : String :=
  if toLower (trimSpace rule.mode) = "" then mode else toLower (trimSpace rule.mode)

/-- The group that is read from a rule, but for its id. -/
def readRule (mode : String) (rule : ConfigRule) : Option SiteGroup :=
  if rule.domains = [] ∨ importableMode (ruleMode mode rule) = false then none
  else some (importedGroup rule (ruleMode mode rule) "")

theorem dropID_importedGroup (rule : ConfigRule) (mode newID : String) :
    dropID (importedGroup rule mode newID) = importedGroup rule mode "" := by
  simp only [dropID, importedGroup]

theorem importRules_read (newID : Nat → String) (mode : String) (rules : List ConfigRule)
    (acc : Imported) :
    (importRules newID mode rules acc).groups.map dropID =
        acc.groups.map dropID ++ rules.filterMap (readRule mode) ∧
      (importRules newID mode rules acc).skipped =
        acc.skipped + rules.countP fun rule => (readRule mode rule).isNone := by
  induction rules generalizing acc with
  | nil => simp [importRules]
  | cons rule rules ih =>
    have hmode : (if toLower (trimSpace rule.mode) = "" then mode
        else toLower (trimSpace rule.mode)) = ruleMode mode rule := rfl
    unfold importRules
    simp only [hmode]
    by_cases hskip : rule.domains = [] ∨ importableMode (ruleMode mode rule) = false
    · have hnone : readRule mode rule = none := if_pos hskip
      rw [if_pos hskip]
      obtain ⟨hgroups, hskipped⟩ :=
        ih { acc with total := acc.total + 1, skipped := acc.skipped + 1 }
      rw [hgroups, hskipped, List.filterMap_cons_none hnone, List.countP_cons, hnone]
      exact ⟨rfl, by simp; omega⟩
    · have hsome : readRule mode rule = some (importedGroup rule (ruleMode mode rule) "") :=
        if_neg hskip
      rw [if_neg hskip]
      obtain ⟨hgroups, hskipped⟩ :=
        ih { acc with
          groups := acc.groups ++
            [importedGroup rule (ruleMode mode rule) (newID acc.groups.length)]
          total := acc.total + 1 }
      rw [hgroups, hskipped, List.filterMap_cons_some hsome, List.countP_cons, hsome,
        List.map_append, List.append_assoc, List.map_singleton, dropID_importedGroup,
        List.singleton_append]
      exact ⟨rfl, by simp⟩

omit [CaseTables] in
theorem lookup_mitm (enc : Encoder) (now : String) (groups : List SiteGroup) :
    (exportedFields enc now groups).lookup "mitm" =
      if mitmGroups groups = [] then none
      else some (enc.configFile (exportedFile "mitm" (mitmGroups groups))) := by
  unfold exportedFields exportedPart
  by_cases hm : mitmGroups groups = []
  · by_cases ht : transGroups groups = []
    · simp [hm, ht, List.lookup_cons]
    · simp [hm, ht, List.lookup_cons]
  · simp [hm, List.lookup_cons]

omit [CaseTables] in
theorem lookup_transparent (enc : Encoder) (now : String) (groups : List SiteGroup) :
    (exportedFields enc now groups).lookup "transparent" =
      if transGroups groups = [] then none
      else some (enc.configFile (exportedFile "transparent" (transGroups groups))) := by
  unfold exportedFields exportedPart
  by_cases hm : mitmGroups groups = []
  · by_cases ht : transGroups groups = []
    · simp [hm, ht, List.lookup_cons]
    · simp [hm, ht, List.lookup_cons]
  · by_cases ht : transGroups groups = []
    · simp [hm, ht, List.lookup_cons]
    · simp [hm, ht, List.lookup_cons]

/-- The modes an import accepts are trimmed and in lower case. -/
theorem toLower_importable {mode : String} (h : importableMode mode = true) :
    toLower (trimSpace mode) = mode := by
  have hall : ∀ m ∈ ["mitm", "transparent", "server", "tls-rf", "quic", "warp"],
      trimSpace m = m ∧ m.toList.all (fun c => c.toNat < 128 ∧ c.toLower = c) = true := by
    decide
  obtain ⟨htrim, hlower⟩ := hall mode (importableMode_cases h)
  rw [htrim]
  exact toLower_eq_self (List.all_iff_forall_prop.mp hlower)

/-- A part of the wrapper is read rule by rule; one that was left out has no rules. -/
theorem importPart_export {enc : Encoder} {dec : Decoder} {newID : Nat → String}
    {parts : String → Option RawValue} {acc : Imported} {type : String} {groups : List SiteGroup}
    (htype : type = "mitm" ∨ type = "transparent")
    (hpart : parts type = (if groups = [] then none
      else some (enc.configFile (exportedFile type groups))).map RawValue.text)
    (hread : groups ≠ [] → dec.configFile (enc.configFile (exportedFile type groups)) =
      .ok (exportedFile type groups)) :
    importPart dec newID parts acc type = importRules newID type (groups.map exportedRule) acc := by
  have hlower : toLower (trimSpace type) = type := by
    apply toLower_importable
    rcases htype with rfl | rfl <;> rfl
  have hne : type ≠ "" := by
    rcases htype with rfl | rfl <;> decide
  have hvalid : ¬ (type ≠ "mitm" ∧ type ≠ "transparent") := fun hnot => htype.elim hnot.1 hnot.2
  have hparse : groups ≠ [] →
      parseConfigPayload dec newID (enc.configFile (exportedFile type groups)) type acc =
        .ok (importRules newID type (groups.map exportedRule) acc) := by
    intro hnil
    unfold parseConfigPayload
    rw [hread hnil]
    simp only [exportedFile, hlower]
    rw [if_neg hne, if_neg hvalid]
  unfold importPart
  by_cases hnil : groups = []
  · rw [hpart, if_pos hnil, hnil]
    rfl
  · rw [hpart, if_neg hnil, Option.map_some]
    simp only [hparse hnil]

/-- What an import reads from an export: the rules of the two payloads. -/
theorem importContent_export {enc : Encoder} {dec : Decoder} {now text : String}
    {rm : RuleManager} (h : ReadsBack enc dec now rm text) (newID : Nat → String) :
    importContent dec newID text =
      importRules newID "transparent" ((transGroups rm.siteGroups).map exportedRule)
        (importRules newID "mitm" ((mitmGroups rm.siteGroups).map exportedRule) {}) := by
  have hblank : toLower (trimSpace "") = "" := rfl
  have hfallback : ∀ acc, parseConfigPayload dec newID text "" acc =
      .error "invalid or missing config type" := by
    intro acc
    unfold parseConfigPayload
    rw [h.plain]
    simp only [hblank, if_true]
    rw [if_pos (by decide)]
  have hparts : ["mitm", "transparent"].foldl (importPart dec newID
      fun key => ((exportedFields enc now rm.siteGroups).lookup key).map RawValue.text) {} =
        importRules newID "transparent" ((transGroups rm.siteGroups).map exportedRule)
          (importRules newID "mitm" ((mitmGroups rm.siteGroups).map exportedRule) {}) := by
    rw [List.foldl_cons, List.foldl_cons, List.foldl_nil,
      importPart_export (.inl rfl) (by rw [lookup_mitm]) h.mitm,
      importPart_export (.inr rfl) (by rw [lookup_transparent]) h.transparent]
  unfold importContent
  rw [h.wrapper]
  simp only [hparts, hfallback, ite_self]

/-- The group that is read back from an exported one, but for its id. -/
def readBack (sg : SiteGroup) : SiteGroup := importedGroup (exportedRule sg) sg.mode ""

/-- A group with domains and a mode the import accepts is read back. -/
theorem readRule_export (type : String) {sg : SiteGroup} (hdomains : sg.domains ≠ [])
    (hmode : importableMode sg.mode = true) :
    readRule type (exportedRule sg) = some (readBack sg) := by
  have hne : sg.mode ≠ "" := by
    intro hnil
    rw [hnil] at hmode
    exact absurd hmode (by decide)
  have hrule : ruleMode type (exportedRule sg) = sg.mode := by
    simp only [ruleMode, exportedRule, toLower_importable hmode]
    rw [if_neg hne]
  unfold readRule
  rw [hrule, if_neg (by simp [exportedRule, hdomains, hmode])]
  rfl

theorem filterMap_export (type : String) {groups : List SiteGroup}
    (hdomains : ∀ g ∈ groups, g.domains ≠ [])
    (hmode : ∀ g ∈ groups, importableMode g.mode = true) :
    (groups.map exportedRule).filterMap (readRule type) = groups.map readBack ∧
      (groups.map exportedRule).countP (fun rule => (readRule type rule).isNone) = 0 := by
  induction groups with
  | nil => exact ⟨rfl, rfl⟩
  | cons g groups ih =>
    obtain ⟨hd, hdomains⟩ := List.forall_mem_cons.mp hdomains
    obtain ⟨hm, hmode⟩ := List.forall_mem_cons.mp hmode
    obtain ⟨ihread, ihskipped⟩ := ih hdomains hmode
    have hsome := readRule_export type hd hm
    rw [List.map_cons, List.filterMap_cons_some hsome, ihread, List.countP_cons, ihskipped, hsome]
    exact ⟨rfl, rfl⟩

/-- What is read from an export, but for the ids, and how many of its rules are skipped. -/
theorem importedGroups_read {enc : Encoder} {dec : Decoder} {now text : String}
    {rm : RuleManager} (h : ReadsBack enc dec now rm text) (newID : Nat → String) :
    (importedGroups dec newID text).map dropID =
        ((mitmGroups rm.siteGroups).map exportedRule).filterMap (readRule "mitm") ++
          ((transGroups rm.siteGroups).map exportedRule).filterMap (readRule "transparent") ∧
      (importContent dec newID text).skipped =
        ((mitmGroups rm.siteGroups).map exportedRule).countP
            (fun rule => (readRule "mitm" rule).isNone) +
          ((transGroups rm.siteGroups).map exportedRule).countP
            (fun rule => (readRule "transparent" rule).isNone) := by
  obtain ⟨hmitm, hskipped⟩ :=
    importRules_read newID "mitm" ((mitmGroups rm.siteGroups).map exportedRule) {}
  obtain ⟨htrans, hskipped'⟩ :=
    importRules_read newID "transparent" ((transGroups rm.siteGroups).map exportedRule)
      (importRules newID "mitm" ((mitmGroups rm.siteGroups).map exportedRule) {})
  rw [importedGroups, h.trimmed, importContent_export h, htrans, hskipped', hmitm, hskipped]
  exact ⟨rfl, by rw [Nat.zero_add]⟩

/-- An export whose modes the import accepts is read as every group, those of the mode
`mitm` first. -/
theorem importedGroups_export {enc : Encoder} {dec : Decoder} {now text : String}
    {rm : RuleManager} (h : ReadsBack enc dec now rm text) (newID : Nat → String)
    (hdomains : ∀ g ∈ rm.siteGroups, g.domains ≠ [])
    (hmode : ∀ g ∈ rm.siteGroups, importableMode g.mode = true) :
    (importedGroups dec newID text).map dropID =
        (mitmGroups rm.siteGroups ++ transGroups rm.siteGroups).map readBack ∧
      (importContent dec newID text).skipped = 0 := by
  have hread : ∀ type p, ((rm.siteGroups.filter p).map exportedRule).filterMap (readRule type) =
        (rm.siteGroups.filter p).map readBack ∧
      ((rm.siteGroups.filter p).map exportedRule).countP
        (fun rule => (readRule type rule).isNone) = 0 :=
    fun type p => filterMap_export type (fun g hg => hdomains g (List.mem_of_mem_filter hg))
      fun g hg => hmode g (List.mem_of_mem_filter hg)
  obtain ⟨hm, hmskipped⟩ := hread "mitm" (·.mode = "mitm")
  obtain ⟨ht, htskipped⟩ := hread "transparent" (·.mode ≠ "mitm")
  obtain ⟨hgroups, hskipped⟩ := importedGroups_read h newID
  rw [hgroups, hskipped, mitmGroups, transGroups, hm, ht, hmskipped, htskipped, List.map_append]
  exact ⟨rfl, rfl⟩

/-! ## Importing one's own export -/

/-- A group in the form an import gives it. -/
structure Canonical (sg : SiteGroup) : Prop where
  domains : sg.domains ≠ []
  mode : importableMode sg.mode = true
  name : sg.name ≠ ""
  name_trimmed : trimSpace sg.name = sg.name
  website : trimSpace sg.website = sg.website
  upstream : trimSpace sg.upstream = sg.upstream
  sniFake : trimSpace sg.sniFake = sg.sniFake
  connectPolicy : toLower (trimSpace sg.connectPolicy) = sg.connectPolicy
  sniPolicy : toLower (trimSpace sg.sniPolicy) = sg.sniPolicy
  dnsMode : normalizeDNSMode sg.dnsMode = sg.dnsMode

/-- Reading a group back turns it on and leaves everything else. -/
theorem Canonical.readBack_eq {sg : SiteGroup} (h : Canonical sg) :
    readBack sg = { sg with id := "", enabled := true } := by
  simp only [readBack, importedGroup, exportedRule, h.name_trimmed, h.name, if_false, h.website,
    h.upstream, h.sniFake, h.connectPolicy, h.sniPolicy, h.dnsMode]

omit [CaseTables] in
theorem mitm_append_trans_perm (groups : List SiteGroup) :
    (mitmGroups groups ++ transGroups groups).Perm groups := by
  have hsplit := List.filter_append_perm (fun g : SiteGroup => decide (g.mode = "mitm")) groups
  simp only [mitmGroups, transGroups, ne_eq, decide_not]
  exact hsplit

/-- The groups after a manager imported its own export: all of them are on. -/
theorem reimport_siteGroups {enc : Encoder} {dec : Decoder} {now text : String} {rm : RuleManager}
    (h : ReadsBack enc dec now rm text) (newID : Nat → String)
    (saved : Except String Unit) (hgroups : ∀ g ∈ rm.siteGroups, Canonical g)
    (hkeys : (rm.siteGroups.map importMergeKey).Nodup) :
    (importConfigWithSummary dec newID rm text saved).2.siteGroups =
      rm.siteGroups.map fun g => { g with enabled := true } := by
  have hread := (importedGroups_export h newID (fun g hg => (hgroups g hg).domains)
    fun g hg => (hgroups g hg).mode).1
  -- an imported group is one of the exported ones, turned on
  have hfrom : ∀ new ∈ importedGroups dec newID text, ∃ g ∈ rm.siteGroups,
      importMergeKey new = importMergeKey g ∧
        ∀ id, { new with id := id } = { g with id := id, enabled := true } := by
    intro new hnew
    have hmem : dropID new ∈ (mitmGroups rm.siteGroups ++ transGroups rm.siteGroups).map readBack :=
      hread ▸ List.mem_map_of_mem hnew
    obtain ⟨g, hg, heq⟩ := List.mem_map.mp hmem
    have hg := (mitm_append_trans_perm _).mem_iff.mp hg
    rw [(hgroups g hg).readBack_eq] at heq
    refine ⟨g, hg, ?_, fun id => ?_⟩
    · have hkey := congrArg importMergeKey heq
      exact hkey.symm
    · have hid := congrArg (fun sg : SiteGroup => { sg with id := id }) heq
      exact hid.symm
  have hto : ∀ g ∈ rm.siteGroups, importMergeKey g ∈
      (importedGroups dec newID text).map importMergeKey := by
    intro g hg
    have hmem : readBack g ∈ (importedGroups dec newID text).map dropID :=
      hread ▸ List.mem_map_of_mem ((mitm_append_trans_perm _).mem_iff.mpr hg)
    obtain ⟨new, hnew, heq⟩ := List.mem_map.mp hmem
    refine List.mem_map.mpr ⟨new, hnew, ?_⟩
    rw [(hgroups g hg).readBack_eq] at heq
    have hkey := congrArg importMergeKey heq
    exact hkey
  rw [importConfigWithSummary_siteGroups dec newID rm (h.trimmed.symm ▸ h.nonempty) saved]
  have hmerge := keyedMerge_upsertAll rm.siteGroups (importedGroups dec newID text)
  generalize upsertAll importMergeKey keepID rm.siteGroups (importedGroups dec newID text) = after
    at hmerge
  have hnone : after.drop rm.siteGroups.length = [] := by
    have hadded := hmerge.added_keys
    rw [List.filter_eq_nil_iff.mpr, List.eraseDups_nil] at hadded
    · exact List.map_eq_nil_iff.mp hadded
    · intro k hk
      obtain ⟨new, hnew, rfl⟩ := List.mem_map.mp hk
      obtain ⟨g, hg, hkey, -⟩ := hfrom new hnew
      simp only [decide_not, Bool.not_eq_true', decide_eq_false_iff_not, not_not, hkey]
      exact List.mem_map_of_mem hg
  apply List.ext_getElem?
  intro i
  rw [List.getElem?_map]
  cases hi : rm.siteGroups[i]? with
  | none =>
    have hlen := List.drop_eq_nil_iff.mp hnone
    have hle := List.getElem?_eq_none_iff.mp hi
    rw [List.getElem?_eq_none (by omega)]
    rfl
  | some g =>
    have hg := List.mem_of_getElem? hi
    obtain ⟨new, hlast⟩ := exists_lastWith (hto g hg)
    obtain ⟨hkey, j, hj⟩ := exists_lastWithKey hlast
    obtain ⟨g', hg', hkey', hsame⟩ := hfrom new (List.mem_of_getElem? hj.1)
    have heq : g' = g := List.inj_on_of_nodup_map hkeys hg' hg (hkey'.symm.trans hkey)
    have hlastkey := (lastIdx_eq_some_iff_lastWithKey hi).mp (lastIdx_of_nodup hkeys hi)
    rw [hmerge.replaced i g j new hlastkey hj hkey, hsame, heq]
    rfl

/-- Importing one's own export changes nothing exactly when every group is on: the import
turns on what it reads. -/
theorem reimport_unchanged_iff {enc : Encoder} {dec : Decoder} {now text : String}
    {rm : RuleManager} (h : ReadsBack enc dec now rm text) (newID : Nat → String)
    (saved : Except String Unit) (hgroups : ∀ g ∈ rm.siteGroups, Canonical g)
    (hkeys : (rm.siteGroups.map importMergeKey).Nodup) :
    (importConfigWithSummary dec newID rm text saved).2.siteGroups = rm.siteGroups ↔
      ∀ g ∈ rm.siteGroups, g.enabled = true := by
  rw [reimport_siteGroups h newID saved hgroups hkeys]
  constructor
  · intro hsame g hg
    rw [← hsame] at hg
    obtain ⟨g', -, rfl⟩ := List.mem_map.mp hg
    rfl
  · intro hon
    refine (List.map_congr_left fun g hg => ?_).trans (List.map_id _)
    have henabled := hon g hg
    cases g
    cases henabled
    rfl

/-! ## Importing an export into an empty manager -/

/-- What a group is for: its mode and its domains. -/
def purpose (sg : SiteGroup) : String × List String := (sg.mode, sg.domains)

/-- An import that brought one group for each exported one and skipped no rule. -/
structure ImportsAll (groups : List SiteGroup)
    (result : Except String ImportSummary × RuleManager) : Prop where
  groups : (result.2.siteGroups.map purpose).Perm (groups.map purpose)
  skipped : ∀ summary : ImportSummary, result.1 = .ok summary → summary.skipped = 0

/-- Every imported group has a mode the import accepts. -/
theorem importableMode_of_import {dec : Decoder} {newID : Nat → String} {rm : RuleManager}
    {text : String} {saved : Except String Unit} (htext : trimSpace text ≠ "")
    (hempty : rm.siteGroups = []) {g : SiteGroup}
    (hg : g ∈ (importConfigWithSummary dec newID rm text saved).2.siteGroups) :
    importableMode g.mode = true := by
  rw [importConfigWithSummary_siteGroups dec newID rm htext saved, hempty] at hg
  have hmerge := keyedMerge_upsertAll [] (importedGroups dec newID text)
  obtain ⟨j, new, hnew, -, heq⟩ := hmerge.added g hg
  have hmode := (importContent_sound dec newID (trimSpace text)).mode new
    (List.mem_of_getElem? hnew.1)
  rw [heq]
  exact hmode

/-- An export is imported into an empty manager without a loss exactly when the import
accepts the mode of every group. -/
theorem importsAll_iff {enc : Encoder} {dec : Decoder} {now text : String}
    {rm other : RuleManager} (h : ReadsBack enc dec now rm text) (newID : Nat → String)
    (saved : Except String Unit) (hempty : other.siteGroups = [])
    (hdomains : ∀ g ∈ rm.siteGroups, g.domains ≠ [])
    (hkeys : (rm.siteGroups.map importMergeKey).Nodup) :
    ImportsAll rm.siteGroups (importConfigWithSummary dec newID other text saved) ↔
      ∀ g ∈ rm.siteGroups, importableMode g.mode = true := by
  have htext : trimSpace text ≠ "" := h.trimmed.symm ▸ h.nonempty
  constructor
  · intro hall g hg
    have hmem : purpose g ∈ (importConfigWithSummary dec newID other text saved).2.siteGroups.map
        purpose := hall.groups.mem_iff.mpr (List.mem_map_of_mem hg)
    obtain ⟨g', hg', heq⟩ := List.mem_map.mp hmem
    have hsame : g'.mode = g.mode := congrArg Prod.fst heq
    rw [← hsame]
    exact importableMode_of_import htext hempty hg'
  · intro hmode
    obtain ⟨hread, hskipped⟩ := importedGroups_export h newID hdomains hmode
    -- neither the key nor the purpose of a group depends on its id or on what is trimmed
    have hmap : ∀ {β : Type} (f : SiteGroup → β), (∀ g, f (dropID g) = f g) →
        (∀ g, f (readBack g) = f g) →
        (importedGroups dec newID text).map f =
          (mitmGroups rm.siteGroups ++ transGroups rm.siteGroups).map f := by
      intro β f hdrop hback
      have hf := congrArg (List.map f) hread
      simp only [List.map_map, Function.comp_def, hdrop, hback] at hf
      exact hf
    have hperm := mitm_append_trans_perm rm.siteGroups
    have hnodup : (([] ++ importedGroups dec newID text).map importMergeKey).Nodup := by
      rw [List.nil_append, hmap importMergeKey (fun _ => rfl) fun _ => rfl]
      exact (hperm.map importMergeKey).nodup_iff.mpr hkeys
    constructor
    · rw [importConfigWithSummary_siteGroups dec newID other htext saved, hempty,
        upsertAll_of_nodup hnodup, List.nil_append, hmap purpose (fun _ => rfl) fun _ => rfl]
      exact hperm.map purpose
    · intro summary hok
      have hresult := Prod.eta (importConfigWithSummary dec newID other text saved)
      rw [hok] at hresult
      obtain ⟨-, -, -, -, hcount⟩ := importConfigWithSummary_ok hresult.symm
      rw [hcount, h.trimmed, hskipped]

end

/-! ## Managers with one group -/

def oneGroup (mode : String) (enabled : Bool) : SiteGroup :=
  { id := "7", name := "A", domains := ["a.com"], mode := mode, enabled := enabled }

def oneGroupManager (mode : String) (enabled : Bool) : RuleManager :=
  { newRuleManager with siteGroups := [oneGroup mode enabled] }

def oneGroupType (mode : String) : String := if mode = "mitm" then "mitm" else "transparent"

/-- The payload such a manager exports. -/
def oneGroupPayload (mode : String) (enabled : Bool) : String :=
  "\x7b\n  \"version\": \"1.0\",\n  \"type\": \"" ++ oneGroupType mode ++
    "\",\n  \"rules\": [\n    \x7b\n      \"name\": \"A\",\n      \"mode\": \"" ++ mode ++
    "\",\n      \"enabled\": " ++ toString enabled ++
    ",\n      \"domains\": [\n        \"a.com\"\n      ],\n      \"cert_verify\": \x7b\x7d\n" ++
    "    \x7d\n  ]\n\x7d"

/-- The payload as a JSON string, in which quotes and line breaks are escaped. -/
def escapedPayload (mode : String) (enabled : Bool) : String :=
  "\"\x7b\\n  \\\"version\\\": \\\"1.0\\\",\\n  \\\"type\\\": \\\"" ++ oneGroupType mode ++
    "\\\",\\n  \\\"rules\\\": [\\n    \x7b\\n      \\\"name\\\": \\\"A\\\",\\n      \\\"mode\\\": \\\"" ++
    mode ++ "\\\",\\n      \\\"enabled\\\": " ++ toString enabled ++
    ",\\n      \\\"domains\\\": [\\n        \\\"a.com\\\"\\n      ],\\n" ++
    "      \\\"cert_verify\\\": \x7b\x7d\\n    \x7d\\n  ]\\n\x7d\""

/-- The export. -/
def oneGroupText (mode : String) (enabled : Bool) : String :=
  String.singleton '\x7b' ++
    ("\n  \"exported\": \"2026-01-01 00:00:00\",\n  \"" ++ oneGroupType mode ++ "\": " ++
      escapedPayload mode enabled ++ "\n") ++
    String.singleton '\x7d'

/-- `encoding/json` on these values and texts. -/
def oneGroupEncoder (mode : String) (enabled : Bool) : Encoder where
  configFile _ := oneGroupPayload mode enabled
  wrapper _ := .ok (oneGroupText mode enabled)

def oneGroupDecoder (mode : String) (enabled : Bool) : Decoder where
  wrapper _ := some fun key => ((exportedFields (oneGroupEncoder mode enabled)
    "2026-01-01 00:00:00" [oneGroup mode enabled]).lookup key).map RawValue.text
  configFile payload :=
    if payload = oneGroupText mode enabled then .ok {}
    else .ok (exportedFile (oneGroupType mode) [oneGroup mode enabled])

theorem oneGroup_readsBack {mode : String} {enabled : Bool}
    (hdiff : oneGroupPayload mode enabled ≠ oneGroupText mode enabled) :
    ReadsBack (oneGroupEncoder mode enabled) (oneGroupDecoder mode enabled) "2026-01-01 00:00:00"
      (oneGroupManager mode enabled) (oneGroupText mode enabled) := by
  have hne : oneGroupText mode enabled ≠ "" := by
    intro hnil
    have hlen := congrArg String.length hnil
    simp only [oneGroupText, String.length_append, String.length_singleton,
      String.length_empty] at hlen
    exact absurd hlen (by omega)
  have hplain : (oneGroupDecoder mode enabled).configFile (oneGroupText mode enabled) = .ok {} := by
    simp only [oneGroupDecoder, if_true]
  have htrim : trimSpace (oneGroupText mode enabled) = oneGroupText mode enabled :=
    trimSpace_between rfl rfl _
  refine ⟨rfl, htrim, hne, rfl, hplain, fun hmitm => ?_, fun htrans => ?_⟩
  · have hmode : mode = "mitm" := by
      by_contra hnot
      exact hmitm (by simp [mitmGroups, oneGroupManager, oneGroup, hnot])
    simp only [oneGroupDecoder, oneGroupEncoder, if_neg hdiff, oneGroupType, oneGroupManager]
    simp [mitmGroups, oneGroup, hmode]
  · have hmode : mode ≠ "mitm" := by
      intro heq
      exact htrans (by simp [transGroups, oneGroupManager, oneGroup, heq])
    simp only [oneGroupDecoder, oneGroupEncoder, if_neg hdiff, oneGroupType, oneGroupManager]
    simp [transGroups, oneGroup, hmode]

theorem oneGroup_canonical {mode : String} (hmode : importableMode mode = true)
    (enabled : Bool) : Canonical (oneGroup mode enabled) := by
  have hne : "A" ≠ "" := by decide
  have hname : trimSpace "A" = "A" := by decide
  have hempty : trimSpace "" = "" := rfl
  have hlower : toLower (trimSpace "") = "" := rfl
  have hdns : normalizeDNSMode "" = "" := rfl
  exact ⟨List.cons_ne_nil _ _, hmode, hne, hname, hempty, hempty, hempty, hlower, hlower, hdns⟩

theorem mitm_off_differ : oneGroupPayload "mitm" false ≠ oneGroupText "mitm" false := by
  decide +kernel

theorem block_on_differ : oneGroupPayload "block" true ≠ oneGroupText "block" true := by
  decide +kernel

/-- A group that is off is on after the manager imported its own export. -/
theorem mitm_off_reimported :
    (oneGroupManager "mitm" false).siteGroups = [oneGroup "mitm" false] ∧
      Canonical (oneGroup "mitm" false) ∧
      ReadsBack (oneGroupEncoder "mitm" false) (oneGroupDecoder "mitm" false)
        "2026-01-01 00:00:00" (oneGroupManager "mitm" false) (oneGroupText "mitm" false) ∧
      (importConfigWithSummary (oneGroupDecoder "mitm" false) toString
        (oneGroupManager "mitm" false) (oneGroupText "mitm" false) (.ok ())).2.siteGroups =
          [oneGroup "mitm" true] ∧
      oneGroup "mitm" true ≠ oneGroup "mitm" false := by
  have hread := oneGroup_readsBack mitm_off_differ
  have hkeys : ([oneGroup "mitm" false].map importMergeKey).Nodup := List.nodup_singleton _
  refine ⟨rfl, oneGroup_canonical rfl false, hread, ?_, by decide⟩
  rw [reimport_siteGroups hread toString (.ok ()) (List.forall_mem_singleton.mpr
    (oneGroup_canonical rfl false)) hkeys]
  rfl

/-- A rule that blocks a domain is lost. -/
theorem block_not_imported :
    (oneGroupManager "block" true).siteGroups = [oneGroup "block" true] ∧
      ReadsBack (oneGroupEncoder "block" true) (oneGroupDecoder "block" true)
        "2026-01-01 00:00:00" (oneGroupManager "block" true) (oneGroupText "block" true) ∧
      (importConfigWithSummary (oneGroupDecoder "block" true) toString newRuleManager
        (oneGroupText "block" true) (.ok ())).2.siteGroups = [] := by
  have hread := oneGroup_readsBack block_on_differ
  have hnone : (importedGroups (oneGroupDecoder "block" true) toString
      (oneGroupText "block" true)).map dropID = [] :=
    (importedGroups_read hread toString).1.trans (by decide +kernel)
  refine ⟨rfl, hread, ?_⟩
  rw [importConfigWithSummary_siteGroups _ _ _ (hread.trimmed.symm ▸ hread.nonempty),
    List.map_eq_nil_iff.mp hnone]
  rfl

/-! ## A manager with a group for each payload -/

/-- The two groups, not in the order of the payloads. -/
def bothGroups : List SiteGroup := [oneGroup "tls-rf" true, { oneGroup "mitm" true with id := "8" }]

def bothText : String :=
  String.singleton '\x7b' ++
    ("\n  \"exported\": \"2026-01-01 00:00:00\",\n  \"mitm\": " ++ escapedPayload "mitm" true ++
      ",\n  \"transparent\": " ++ escapedPayload "tls-rf" true ++ "\n") ++
    String.singleton '\x7d'

def bothEncoder : Encoder where
  configFile file := oneGroupPayload (if file.type = "mitm" then "mitm" else "tls-rf") true
  wrapper _ := .ok bothText

def bothDecoder : Decoder where
  wrapper _ := some fun key => ((exportedFields bothEncoder "2026-01-01 00:00:00"
    bothGroups).lookup key).map RawValue.text
  configFile payload :=
    if payload = bothText then .ok {}
    else if payload = oneGroupPayload "mitm" true then
      .ok (exportedFile "mitm" (mitmGroups bothGroups))
    else .ok (exportedFile "transparent" (transGroups bothGroups))

def bothManager : RuleManager := { newRuleManager with siteGroups := bothGroups }

theorem both_differ :
    oneGroupPayload "mitm" true ≠ bothText ∧ oneGroupPayload "tls-rf" true ≠ bothText ∧
      oneGroupPayload "tls-rf" true ≠ oneGroupPayload "mitm" true := by
  decide +kernel

theorem both_readsBack :
    ReadsBack bothEncoder bothDecoder "2026-01-01 00:00:00" bothManager bothText := by
  obtain ⟨hmitm, htrans, hparts⟩ := both_differ
  have hne : bothText ≠ "" := by
    intro hnil
    have hlen := congrArg String.length hnil
    simp only [bothText, String.length_append, String.length_singleton, String.length_empty] at hlen
    exact absurd hlen (by omega)
  have hplain : bothDecoder.configFile bothText = .ok {} := by
    simp only [bothDecoder, if_true]
  have htrim : trimSpace bothText = bothText := trimSpace_between rfl rfl _
  refine ⟨rfl, htrim, hne, rfl, hplain, fun _ => ?_, fun _ => ?_⟩
  · simp only [bothEncoder, exportedFile, if_true, bothDecoder, if_neg hmitm, bothManager]
  · have htype : "transparent" ≠ "mitm" := by decide
    simp only [bothEncoder, exportedFile, if_neg htype, bothDecoder, if_neg htrans, if_neg hparts,
      bothManager]

theorem both_keys : (bothGroups.map importMergeKey).Nodup := by decide

/-- A manager whose groups are on keeps them. -/
theorem both_reimported :
    (∀ g ∈ bothGroups, g.enabled = true) ∧
      (importConfigWithSummary bothDecoder toString bothManager bothText (.ok ())).2.siteGroups =
        bothGroups := by
  have hon : ∀ g ∈ bothGroups, g.enabled = true := by decide
  have hcanonical : ∀ g ∈ bothGroups, Canonical g := by
    simp only [bothGroups, List.forall_mem_cons, List.not_mem_nil, false_implies, implies_true,
      and_true]
    have hmitm : Canonical (oneGroup "mitm" true) := oneGroup_canonical rfl true
    exact ⟨oneGroup_canonical (by decide) true, { hmitm with }⟩
  exact ⟨hon, (reimport_unchanged_iff both_readsBack toString (.ok ()) hcanonical both_keys).mpr
    hon⟩

/-- An empty manager imports both. -/
theorem both_importsAll :
    (∀ g ∈ bothGroups, importableMode g.mode = true) ∧
      ImportsAll bothGroups
        (importConfigWithSummary bothDecoder toString newRuleManager bothText (.ok ())) := by
  have hmodes : ∀ g ∈ bothGroups, importableMode g.mode = true := by decide
  have hdomains : ∀ g ∈ bothGroups, g.domains ≠ [] := by decide
  exact ⟨hmodes, (importsAll_iff both_readsBack toString (.ok ()) rfl hdomains both_keys).mpr
    hmodes⟩

end SniShaper.Manager
