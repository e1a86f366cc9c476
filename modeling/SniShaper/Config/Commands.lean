import SniShaper.Config.Export
import SniShaper.Config.Load

/-! The two ways to import a configuration: the command `snishaper config import`
(`cmdConfig` of `cli.go`) and the request of the dashboard (`handleConfigImport` of
`web.go`). Both merge by `ImportConfigWithSummary` and rewrite the whole rules file; the
command does not load the file before.

* `importContent_erased`: what is imported depends on the generated ids in nothing else;
* `loadConfig_stored`: what the runtime holds of the rules file;
* `imports_agree_iff`: when both leave the same rules file. -/

namespace SniShaper.Manager

open Strings Config Hosts Candidates Upsert

section

variable [CaseTables]

/-! ## The source's functions -/

/-- The content of the rules file that `saveRulesConfig` writes. -/
def saveRulesConfig (rm : RuleManager) : RulesConfig :=
  { siteGroups := rm.siteGroups
    upstreams := rm.upstreams
    dnsNodes := rm.dnsNodes
    echProfiles := rm.echProfiles }

def cmdConfigImport (dec : Decoder) (newID : Nat → String) (args : List String)
    (readFile : String → Except String String) (saved : Except String Unit) :
    Except String ImportSummary × RuleManager :=
  match args with
  | _ :: file :: _ =>
    match readFile file with
    | .error err => (.error ("Failed to read file: " ++ err), newRuleManager)
    | .ok data =>
      match importConfigWithSummary dec newID newRuleManager data saved with
      | (.error err, rm) => (.error ("Import failed: " ++ err), rm)
      | (.ok summary, rm) => (.ok summary, rm)
  | _ => (.error "Usage: snishaper config import <file>", newRuleManager)

/-- The answer is the summary, or an error text with its status code. -/
def handleConfigImport (dec : Decoder) (newID : Nat → String) (rm : RuleManager)
    (method : String) (body : Except String String) (saved : Except String Unit) :
    Except (String × Nat) ImportSummary × RuleManager :=
  if method ≠ "POST" then (.error ("Method not allowed", 405), rm)
  else
    match body with
    | .error err => (.error ("invalid JSON: " ++ err, 400), rm)
    | .ok config =>
      match importConfigWithSummary dec newID rm config saved with
      | (.error err, rm) => (.error (err, 500), rm)
      | (.ok summary, rm) => (.ok summary, rm)

/-- The rules file an import that succeeds leaves. -/
def writtenRules {ε : Type} : Except ε ImportSummary × RuleManager → Option RulesConfig
  | (.ok _, rm) => some (saveRulesConfig rm)
  | (.error _, _) => none

/-! ## What is imported -/

/-- The groups that were read, without their ids. -/
def Imported.erased (acc : Imported) : List SiteGroup := acc.groups.map dropID

variable {dec : Decoder} {newID newID' : Nat → String} {acc acc' : Imported}

theorem importRules_erased (h : acc.erased = acc'.erased) (mode : String)
    (rules : List ConfigRule) :
    (importRules newID mode rules acc).erased = (importRules newID' mode rules acc').erased := by
  unfold Imported.erased at h ⊢
  rw [(importRules_read newID mode rules acc).1, (importRules_read newID' mode rules acc').1, h]

/-- Either both payloads are read, with the same groups, or none is. -/
theorem parseConfigPayload_erased (h : acc.erased = acc'.erased) (payload forcedType : String) :
    (parseConfigPayload dec newID payload forcedType acc).map Imported.erased =
      (parseConfigPayload dec newID' payload forcedType acc').map Imported.erased := by
  unfold parseConfigPayload
  cases dec.configFile payload with
  | error err => rfl
  | ok cfg =>
    simp only
    generalize (if toLower (trimSpace cfg.type) = "" then _ else _ : String) = mode
    by_cases hmode : mode ≠ "mitm" ∧ mode ≠ "transparent"
    · rw [if_pos hmode, if_pos hmode]
    · rw [if_neg hmode, if_neg hmode]
      exact congrArg Except.ok (importRules_erased h mode cfg.rules)

omit [CaseTables] in
/-- A payload that cannot be read leaves what was read before. -/
theorem erased_orRead (h : acc.erased = acc'.erased) {r r' : Except String Imported}
    (hr : r.map Imported.erased = r'.map Imported.erased) :
    (acc.orRead r).erased = (acc'.orRead r').erased := by
  cases r with
  | error err =>
    cases r' with
    | error err' => exact h
    | ok read' => cases hr
  | ok read =>
    cases r' with
    | error err' => cases hr
    | ok read' => exact Except.ok.inj hr

theorem importPart_erased (h : acc.erased = acc'.erased) (parts : String → Option RawValue)
    (key : String) :
    (importPart dec newID parts acc key).erased = (importPart dec newID' parts acc' key).erased := by
  rw [importPart_eq, importPart_eq]
  cases RawValue.payload (parts key) with
  | none => exact h
  | some v => exact erased_orRead h (parseConfigPayload_erased h v key)

theorem importParts_erased (dec : Decoder) (newID newID' : Nat → String) (content : String) :
    (importParts dec newID content).erased = (importParts dec newID' content).erased := by
  unfold importParts
  cases dec.wrapper content with
  | none => simp only [Option.elim_none]
  | some parts =>
    simp only [Option.elim_some, List.foldl_cons, List.foldl_nil]
    exact importPart_erased (importPart_erased rfl parts "mitm") parts "transparent"

omit [CaseTables] in
theorem groups_eq_nil_iff_of_erased (h : acc.erased = acc'.erased) :
    acc.groups = [] ↔ acc'.groups = [] := by
  have hlen := congrArg List.length h
  simp only [Imported.erased, List.length_map] at hlen
  rw [← List.length_eq_zero_iff, ← List.length_eq_zero_iff, hlen]

/-- What an import reads depends on the generated ids in nothing but the ids. -/
theorem importContent_erased (dec : Decoder) (newID newID' : Nat → String) (content : String) :
    (importContent dec newID content).erased = (importContent dec newID' content).erased := by
  have hparts := importParts_erased dec newID newID' content
  rw [importContent_eq, importContent_eq]
  generalize importParts dec newID content = wrapped at hparts
  generalize importParts dec newID' content = wrapped' at hparts
  simp only
  by_cases hempty : wrapped.groups = []
  · rw [if_pos hempty, if_pos ((groups_eq_nil_iff_of_erased hparts).mp hempty)]
    exact erased_orRead hparts (parseConfigPayload_erased hparts content "")
  · rw [if_neg hempty, if_neg (mt (groups_eq_nil_iff_of_erased hparts).mpr hempty)]
    exact hparts

/-- A content that an import accepts. -/
def Importable (dec : Decoder) (content : String) : Prop :=
  trimSpace content ≠ "" ∧ (importContent dec (fun _ => "") (trimSpace content)).groups ≠ []

/-- The keys of the groups a content brings, each once, in the order they come. -/
def importedKeys (dec : Decoder) (content : String) : List String :=
  ((importContent dec (fun _ => "") (trimSpace content)).groups.map importMergeKey).eraseDups

/-- The rules file after an import, but for the ids: the imported groups are merged in as
they are, and the rest is what the manager held. -/
theorem importConfigWithSummary_writes {content : String} (h : Importable dec content)
    (newID : Nat → String) (rm : RuleManager) :
    ∃ summary rm', importConfigWithSummary dec newID rm content (.ok ()) = (.ok summary, rm') ∧
      rm'.siteGroups.map dropID = upsertAll importMergeKey (fun _ new => new)
        (rm.siteGroups.map dropID) (importContent dec (fun _ => "") (trimSpace content)).erased ∧
      rm'.upstreams = rm.upstreams ∧ rm'.dnsNodes = rm.dnsNodes ∧
      rm'.echProfiles = rm.echProfiles := by
  have herased := importContent_erased dec newID (fun _ => "") (trimSpace content)
  have hgroups : (importContent dec newID (trimSpace content)).groups ≠ [] := by
    intro hnil
    rw [Imported.erased, hnil, List.map_nil] at herased
    exact h.2 (List.map_eq_nil_iff.mp herased.symm)
  obtain ⟨summary, rm', hok⟩ : ∃ summary rm',
      importConfigWithSummary dec newID rm content (.ok ()) = (.ok summary, rm') := by
    unfold importConfigWithSummary
    simp only
    rw [if_neg h.1, if_neg hgroups]
    exact ⟨_, _, rfl⟩
  obtain ⟨-, hrm, -⟩ := importConfigWithSummary_ok hok
  simp only [buildRules] at hrm
  refine ⟨summary, rm', hok, ?_, by rw [hrm], by rw [hrm], by rw [hrm]⟩
  rw [hrm]
  have hkey : ∀ g, importMergeKey (dropID g) = importMergeKey g := fun _ => rfl
  have hdrop : ∀ old new, dropID (keepID old new) = dropID new := fun _ _ => rfl
  rw [← herased]
  exact map_upsertAll hkey hdrop rm.siteGroups (importedGroups dec newID content)

/-! ## What was loaded -/

/-- What the rules file holds; a missing one holds nothing. -/
def storedRules : FileRead RulesConfig → RulesConfig
  | .decoded config => config
  | _ => {}

/-- An ECH rule of the old form, with its fields trimmed as `LoadConfig` does. -/
def hasLegacyECH (sg : SiteGroup) : Bool :=
  isLegacyECH
    { sg with echProfileID := trimSpace sg.echProfileID, echDomain := trimSpace sg.echDomain }

omit [CaseTables] in
theorem ensureLegacyCloudflareProfile_ne_nil (profiles : List ECHProfile) :
    ensureLegacyCloudflareProfile profiles ≠ [] := by
  intro hnil
  have hlen := congrArg List.length hnil
  unfold ensureLegacyCloudflareProfile at hlen
  cases hfind : profiles.find? (·.id = legacyProfileID) with
  | none => simp [hfind] at hlen
  | some p =>
    have hmem := List.mem_of_find?_eq_some hfind
    simp only [hfind, replaceFirst, List.length_replaceF, List.length_nil] at hlen
    rw [List.length_eq_zero_iff.mp hlen] at hmem
    cases hmem

theorem migrateLegacyECHRules_legacy {sg : SiteGroup} (h : hasLegacyECH sg = true)
    (sgs : List SiteGroup) (profiles : List ECHProfile) :
    (migrateLegacyECHRules (sg :: sgs) profiles).1 =
        { sg with echProfileID := legacyProfileID, echDomain := "" } ::
          (migrateLegacyECHRules sgs (ensureLegacyCloudflareProfile profiles)).1 ∧
      (migrateLegacyECHRules (sg :: sgs) profiles).2.1 =
        (migrateLegacyECHRules sgs (ensureLegacyCloudflareProfile profiles)).2.1 := by
  rw [hasLegacyECH] at h
  rw [migrateLegacyECHRules]
  simp only
  rw [if_pos h]
  exact ⟨rfl, rfl⟩

theorem migrateLegacyECHRules_new {sg : SiteGroup} (h : ¬ hasLegacyECH sg = true)
    (sgs : List SiteGroup) (profiles : List ECHProfile) :
    (migrateLegacyECHRules (sg :: sgs) profiles).1 =
        { sg with echProfileID := trimSpace sg.echProfileID, echDomain := trimSpace sg.echDomain } ::
          (migrateLegacyECHRules sgs profiles).1 ∧
      (migrateLegacyECHRules (sg :: sgs) profiles).2.1 =
        (migrateLegacyECHRules sgs profiles).2.1 := by
  rw [hasLegacyECH] at h
  rw [migrateLegacyECHRules]
  simp only
  rw [if_neg h]
  exact ⟨rfl, rfl⟩

/-- The migration leaves modes and domains, and so the keys. -/
theorem migrateLegacyECHRules_keys (sgs : List SiteGroup) (profiles : List ECHProfile) :
    (migrateLegacyECHRules sgs profiles).1.map importMergeKey = sgs.map importMergeKey := by
  induction sgs generalizing profiles with
  | nil => rfl
  | cons sg sgs ih =>
    by_cases hlegacy : hasLegacyECH sg = true
    · rw [(migrateLegacyECHRules_legacy hlegacy sgs profiles).1, List.map_cons, ih]
      rfl
    · rw [(migrateLegacyECHRules_new hlegacy sgs profiles).1, List.map_cons, ih]
      rfl

/-- The store is left empty exactly when it was and there is no old rule. -/
theorem migrateLegacyECHRules_profiles (sgs : List SiteGroup) (profiles : List ECHProfile) :
    (migrateLegacyECHRules sgs profiles).2.1 = [] ↔
      profiles = [] ∧ ∀ sg ∈ sgs, hasLegacyECH sg = false := by
  induction sgs generalizing profiles with
  | nil => simp [migrateLegacyECHRules]
  | cons sg sgs ih =>
    rw [List.forall_mem_cons]
    by_cases hlegacy : hasLegacyECH sg = true
    · rw [(migrateLegacyECHRules_legacy hlegacy sgs profiles).2, ih]
      simp [ensureLegacyCloudflareProfile_ne_nil, hlegacy]
    · rw [(migrateLegacyECHRules_new hlegacy sgs profiles).2, ih]
      simp [hlegacy]

/-- What the end of `LoadConfig` leaves of what was decoded. -/
theorem finishLoad_stored (rm : RuleManager) :
    (finishLoad rm).siteGroups.map importMergeKey = rm.siteGroups.map importMergeKey ∧
      (finishLoad rm).upstreams = rm.upstreams ∧ (finishLoad rm).dnsNodes = rm.dnsNodes ∧
      ((finishLoad rm).echProfiles = [] ↔
        rm.echProfiles = [] ∧ ∀ sg ∈ rm.siteGroups, hasLegacyECH sg = false) := by
  have hkey : ∀ sg : SiteGroup, importMergeKey
      (withWebsite { sg with dnsMode := normalizeDNSMode sg.dnsMode }) = importMergeKey sg :=
    fun _ => by simp only [importMergeKey, withWebsite]
  have hlegacy : ∀ sg : SiteGroup, hasLegacyECH
      (withWebsite { sg with dnsMode := normalizeDNSMode sg.dnsMode }) = hasLegacyECH sg :=
    fun _ => by simp only [hasLegacyECH, isLegacyECH, withWebsite]
  have hkeys := migrateLegacyECHRules_keys ((rm.siteGroups.map fun sg =>
    { sg with dnsMode := normalizeDNSMode sg.dnsMode }).map withWebsite)
    (rm.echProfiles.map normalizeECHProfile)
  have hprofiles := migrateLegacyECHRules_profiles ((rm.siteGroups.map fun sg =>
    { sg with dnsMode := normalizeDNSMode sg.dnsMode }).map withWebsite)
    (rm.echProfiles.map normalizeECHProfile)
  simp only [List.map_map, Function.comp_def, hkey] at hkeys
  simp only [List.map_eq_nil_iff, List.map_map, Function.comp_def, List.forall_mem_map,
    hlegacy] at hprofiles
  unfold finishLoad
  simp only [List.map_map, Function.comp_def]
  exact ⟨hkeys, rfl, rfl, hprofiles⟩

/-- What a runtime that started holds of the rules file: the keys of its groups, its
upstreams and DNS nodes, and profiles only if the file has some or an old rule. -/
theorem loadConfig_stored {rm : RuleManager} {files : Files}
    (h : (loadConfig rm files).1 = .ok ()) :
    (loadConfig rm files).2.siteGroups.map importMergeKey =
        (storedRules files.rules).siteGroups.map importMergeKey ∧
      (loadConfig rm files).2.upstreams = (storedRules files.rules).upstreams ∧
      (loadConfig rm files).2.dnsNodes = (storedRules files.rules).dnsNodes ∧
      ((loadConfig rm files).2.echProfiles = [] ↔ (storedRules files.rules).echProfiles = [] ∧
        ∀ sg ∈ (storedRules files.rules).siteGroups, hasLegacyECH sg = false) := by
  obtain ⟨rm', rm'', -, hrules, heq⟩ := loadConfig_ok h
  -- what was decoded, or nothing where the file was missing
  have hread : rm''.siteGroups = (storedRules files.rules).siteGroups ∧
      rm''.upstreams = (storedRules files.rules).upstreams ∧
      rm''.dnsNodes = (storedRules files.rules).dnsNodes ∧
      rm''.echProfiles = (storedRules files.rules).echProfiles := by
    unfold loadRulesConfig at hrules
    cases hfile : files.rules with
    | failed err =>
      rw [hfile] at hrules
      cases hrules
    | notExist =>
      rw [hfile] at hrules
      rw [← (Prod.mk.inj hrules).2]
      exact ⟨rfl, rfl, rfl, rfl⟩
    | decoded config =>
      rw [hfile] at hrules
      rw [← (Prod.mk.inj hrules).2]
      exact ⟨rfl, rfl, rfl, rfl⟩
  obtain ⟨hgroups, hupstreams, hnodes, hprofiles⟩ := hread
  rw [heq, ← hgroups, ← hupstreams, ← hnodes, ← hprofiles]
  exact finishLoad_stored rm''

/-! ## Both imports -/

/-- Rules files that are the same but for the ids of their site groups. -/
structure SameRules (a b : RulesConfig) : Prop where
  siteGroups : a.siteGroups.map dropID = b.siteGroups.map dropID
  upstreams : a.upstreams = b.upstreams
  dnsNodes : a.dnsNodes = b.dnsNodes
  echProfiles : a.echProfiles = b.echProfiles

/-- Both imports wrote a rules file, and it is the same. -/
def Agree (a b : Option RulesConfig) : Prop :=
  ∃ file file', a = some file ∧ b = some file' ∧ SameRules file file'

/-- A rules file that has nothing an import into a new manager would drop or reorder: its
groups have the first keys of the content in their order, and it has nothing else. -/
structure Covered (dec : Decoder) (content : String) (stored : RulesConfig) : Prop where
  keys : stored.siteGroups.map importMergeKey <+: importedKeys dec content
  upstreams : stored.upstreams = []
  dnsNodes : stored.dnsNodes = []
  echProfiles : stored.echProfiles = []
  legacy : ∀ sg ∈ stored.siteGroups, hasLegacyECH sg = false

theorem cmdConfigImport_writes {content path : String} {readFile : String → Except String String}
    (hread : readFile path = .ok content) {summary : ImportSummary} {rm : RuleManager}
    (h : importConfigWithSummary dec newID newRuleManager content (.ok ()) = (.ok summary, rm)) :
    writtenRules (cmdConfigImport dec newID ["import", path] readFile (.ok ())) =
      some (saveRulesConfig rm) := by
  simp only [cmdConfigImport, hread, h, writtenRules]

theorem handleConfigImport_writes {content : String} {summary : ImportSummary}
    {rm rm' : RuleManager}
    (h : importConfigWithSummary dec newID rm content (.ok ()) = (.ok summary, rm')) :
    writtenRules (handleConfigImport dec newID rm "POST" (.ok content) (.ok ())) =
      some (saveRulesConfig rm') := by
  simp only [handleConfigImport, h, writtenRules, ne_eq, not_true_eq_false, if_false]

/-- The command and the dashboard leave the same rules file exactly when the file had
nothing but groups with the first keys of the content, in their order. -/
theorem imports_agree_iff {content : String} (h : Importable dec content) {files : Files}
    (hload : (loadConfig newRuleManager files).1 = .ok ()) {path : String}
    {readFile : String → Except String String} (hread : readFile path = .ok content)
    (newID newID' : Nat → String) :
    Agree (writtenRules (cmdConfigImport dec newID ["import", path] readFile (.ok ())))
        (writtenRules (handleConfigImport dec newID' (loadConfig newRuleManager files).2 "POST"
          (.ok content) (.ok ()))) ↔
      Covered dec content (storedRules files.rules) := by
  obtain ⟨hkeys, hupstreams, hnodes, hprofiles⟩ := loadConfig_stored hload
  generalize (loadConfig newRuleManager files).2 = rm at hkeys hupstreams hnodes hprofiles ⊢
  obtain ⟨s, cli, hcli, hcliGroups, hcliUp, hcliNodes, hcliProfiles⟩ :=
    importConfigWithSummary_writes h newID newRuleManager
  obtain ⟨s', web, hweb, hwebGroups, hwebUp, hwebNodes, hwebProfiles⟩ :=
    importConfigWithSummary_writes h newID' rm
  rw [cmdConfigImport_writes hread hcli, handleConfigImport_writes hweb]
  -- the groups agree exactly when the loaded keys come first
  have hgroups : cli.siteGroups.map dropID = web.siteGroups.map dropID ↔
      (storedRules files.rules).siteGroups.map importMergeKey <+: importedKeys dec content := by
    have hmap : ∀ groups : List SiteGroup,
        (groups.map dropID).map importMergeKey = groups.map importMergeKey := by
      intro groups
      rw [List.map_map]
      rfl
    have hmerge := upsertAll_eq_nil_iff importMergeKey (rm.siteGroups.map dropID)
      (importContent dec (fun _ => "") (trimSpace content)).erased
    have herased := hmap (importContent dec (fun _ => "") (trimSpace content)).groups
    rw [Imported.erased, hmap, herased, hkeys] at hmerge
    rw [hcliGroups, hwebGroups, eq_comm]
    exact hmerge
  constructor
  · rintro ⟨file, file', hfile, hfile', hsame⟩
    cases hfile
    cases hfile'
    have hup : cli.upstreams = web.upstreams := hsame.upstreams
    have hdns : cli.dnsNodes = web.dnsNodes := hsame.dnsNodes
    have hech : cli.echProfiles = web.echProfiles := hsame.echProfiles
    obtain ⟨hempty, hlegacy⟩ := hprofiles.mp (hwebProfiles ▸ hech ▸ hcliProfiles)
    exact ⟨hgroups.mp hsame.siteGroups, hupstreams ▸ hwebUp ▸ hup ▸ hcliUp,
      hnodes ▸ hwebNodes ▸ hdns ▸ hcliNodes, hempty, hlegacy⟩
  · intro hcovered
    have hempty := hprofiles.mpr ⟨hcovered.echProfiles, hcovered.legacy⟩
    refine ⟨_, _, rfl, rfl, hgroups.mpr hcovered.keys, ?_, ?_, ?_⟩
    · exact hcliUp.trans (hwebUp.trans (hupstreams.trans hcovered.upstreams)).symm
    · exact hcliNodes.trans (hwebNodes.trans (hnodes.trans hcovered.dnsNodes)).symm
    · exact hcliProfiles.trans (hwebProfiles.trans hempty).symm

end

/-! ## Two rules files -/

/-- Rules with one group, for the domain that is imported. -/
def coveredFiles : Files :=
  { noFiles with
    rules := .decoded
      { siteGroups :=
          [{ id := "1", name := "B", website := "b", domains := ["A.com "], mode := "mitm"
             enabled := true }] } }

/-- Both imports leave the same file of them. -/
theorem coveredFiles_agree :
    Agree (writtenRules (cmdConfigImport twoRulesDecoder toString ["import", "rules.json"]
        (fun _ => .ok twoRules) (.ok ())))
      (writtenRules (handleConfigImport twoRulesDecoder toString
        (loadConfig newRuleManager coveredFiles).2 "POST" (.ok twoRules) (.ok ()))) := by
  have himport : Importable twoRulesDecoder twoRules := ⟨by decide +kernel, by decide +kernel⟩
  have hcovered : Covered twoRulesDecoder twoRules (storedRules coveredFiles.rules) :=
    ⟨by decide +kernel, rfl, rfl, rfl, by decide +kernel⟩
  exact (imports_agree_iff himport rfl rfl toString toString).mpr hcovered

/-- Rules with a group for another domain, and a relay. -/
def relayFiles : Files :=
  { noFiles with
    rules := .decoded
      { siteGroups :=
          [{ id := "1", name := "B", website := "b", domains := ["b.com"], mode := "block"
             enabled := true }]
        upstreams := [{ id := "2", name := "relay", address := "192.0.2.1:443", enabled := true }] } }

/-- The dashboard adds the imported group to them, the command leaves only this group. -/
theorem relayFiles_disagree :
    (loadConfig newRuleManager relayFiles).1 = .ok () ∧
      (writtenRules (handleConfigImport twoRulesDecoder toString
          (loadConfig newRuleManager relayFiles).2 "POST" (.ok twoRules) (.ok ()))).map
        (fun file => (file.siteGroups.map purpose, file.upstreams.map (·.address))) =
          some ([("block", ["b.com"]), ("mitm", ["a.com"])], ["192.0.2.1:443"]) ∧
      (writtenRules (cmdConfigImport twoRulesDecoder toString ["import", "rules.json"]
          (fun _ => .ok twoRules) (.ok ()))).map
        (fun file => (file.siteGroups.map purpose, file.upstreams.map (·.address))) =
          some ([("mitm", ["a.com"])], []) := by
  refine ⟨rfl, ?_, ?_⟩
  · decide +kernel
  · decide +kernel

end SniShaper.Manager
