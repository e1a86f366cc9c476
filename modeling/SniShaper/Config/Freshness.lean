import SniShaper.Config.Import
import SniShaper.Config.Load
import SniShaper.Lib.Machine

/-! The rule table against the configuration it is compiled from.

`Fresh` says that the table in memory is the one `buildRules` would compute. The five
operations on upstreams and ECH profiles do not rebuild it.

* `compile_eq_iff`: the table is the same under other upstreams and profiles exactly
  when every site group that has rules resolves to the same values;
* `fresh_perform_iff`: when an operation keeps a fresh table fresh;
* `always_fresh_iff`: when the table is fresh in every state of a run. -/

namespace SniShaper.Manager

open Strings Config Hosts Candidates Profiles Machine

/-! ## What the table depends on -/

/-- The values that compiling a site group takes from the upstreams and profiles. -/
def resolved (upstreams : List Upstream) (echProfiles : List ECHProfile) (sg : SiteGroup) :
    String × List String × String × String × Bool :=
  let p := profileOf echProfiles sg
  (resolveID upstreams sg.upstream, sg.upstreams.map (resolveID upstreams),
    p.discoveryDomain, p.dohUpstream, p.autoUpdate)

/-- A site group that has rules in the table. -/
def Compiled (sg : SiteGroup) : Prop := sg.enabled = true ∧ sg.domains ≠ []

/-- Two lists that are glued from blocks of the same lengths are equal exactly when the
blocks are. -/
theorem flatMap_eq_flatMap_iff {α β : Type*} {f g : α → List β} {l : List α}
    (hlen : ∀ x ∈ l, (f x).length = (g x).length) :
    l.flatMap f = l.flatMap g ↔ ∀ x ∈ l, f x = g x := by
  induction l with
  | nil => simp
  | cons x xs ih =>
    simp only [List.flatMap_cons, List.forall_mem_cons] at hlen ⊢
    rw [← ih hlen.2]
    constructor
    · intro h
      exact List.append_inj h hlen.1
    · rintro ⟨hx, hxs⟩
      rw [hx, hxs]

section

variable [CaseTables]

theorem siteRule_eq_iff (ups ups' : List Upstream) (ps ps' : List ECHProfile) (sg : SiteGroup)
    (domain : String) :
    siteRule ups ps sg domain = siteRule ups' ps' sg domain ↔
      resolved ups ps sg = resolved ups' ps' sg := by
  simp only [siteRule, resolved, Rule.mk.injEq, Prod.mk.injEq, true_and, and_true]

theorem siteRules_eq_iff (ups ups' : List Upstream) (ps ps' : List ECHProfile) (sg : SiteGroup) :
    siteRules ups ps sg = siteRules ups' ps' sg ↔
      (Compiled sg → resolved ups ps sg = resolved ups' ps' sg) := by
  unfold siteRules Compiled
  by_cases he : sg.enabled = true
  · simp only [he, ↓reduceIte, true_and]
    rw [List.map_inj_left]
    simp only [siteRule_eq_iff]
    constructor
    · intro h hne
      obtain ⟨domain, hmem⟩ := List.exists_mem_of_ne_nil _ hne
      exact h domain hmem
    · intro h domain hmem
      exact h (List.ne_nil_of_mem hmem)
  · simp [he]

theorem compile_eq_iff (sgs : List SiteGroup) (ups ups' : List Upstream)
    (ps ps' : List ECHProfile) :
    compile sgs ups ps = compile sgs ups' ps' ↔
      ∀ sg ∈ sgs, Compiled sg → resolved ups ps sg = resolved ups' ps' sg := by
  unfold compile
  rw [flatMap_eq_flatMap_iff]
  · simp only [siteRules_eq_iff]
  · intro sg _
    unfold siteRules
    split <;> simp

/-! ## A config list is not compiled -/

/-- A profile without its config list. -/
def withoutConfig (p : ECHProfile) : ECHProfile := { p with config := "" }

omit [CaseTables] in
theorem map_setConfig (id config : String) (ps : List ECHProfile) :
    (setConfig id config ps).map withoutConfig = ps.map withoutConfig := by
  induction ps with
  | nil => rfl
  | cons p ps ih =>
    unfold setConfig
    split
    · rfl
    · simp [ih]

omit [CaseTables] in
theorem echProfileMap_withoutConfig (ps : List ECHProfile) (id : String) :
    (echProfileMap ps id).map withoutConfig = echProfileMap (ps.map withoutConfig) id := by
  unfold echProfileMap
  rw [← List.map_reverse, List.find?_map]
  rfl

omit [CaseTables] in
theorem resolved_setConfig (ups : List Upstream) (ps : List ECHProfile) (id config : String)
    (sg : SiteGroup) : resolved ups (setConfig id config ps) sg = resolved ups ps sg := by
  have hmap : ∀ i, (echProfileMap (setConfig id config ps) i).map withoutConfig =
      (echProfileMap ps i).map withoutConfig := by
    intro i
    rw [echProfileMap_withoutConfig, echProfileMap_withoutConfig, map_setConfig]
  have hprofile : withoutConfig (profileOf (setConfig id config ps) sg) =
      withoutConfig (profileOf ps sg) := by
    unfold profileOf
    split
    · have h := hmap sg.echProfileID
      cases hl : echProfileMap (setConfig id config ps) sg.echProfileID <;>
        cases hr : echProfileMap ps sg.echProfileID <;> simp_all
    · rfl
  simp only [withoutConfig, ECHProfile.mk.injEq] at hprofile
  simp only [resolved, hprofile]

/-! ## Operations -/

inductive Op where
  | addSiteGroup (sg : SiteGroup)
  | updateSiteGroup (sg : SiteGroup)
  | deleteSiteGroup (id : String)
  | addUpstream (u : Upstream)
  | updateUpstream (u : Upstream)
  | deleteUpstream (id : String)
  | addDNSNode (n : DNSNode)
  | updateDNSNode (n : DNSNode)
  | deleteDNSNode (id : String)
  | setDNSNodePriority (id : String) (targetIndex : Int)
  | upsertECHProfile (p : ECHProfile)
  | deleteECHProfile (id : String)
  | updateECHProfileConfig (profileID : String) (configBytes : List UInt8)
  | importConfig (content : String)

/-- A call of an operation, with the ids it generates and how its save goes. -/
structure Call where
  op : Op
  newID : Nat → String
  saved : Except String Unit

/-- The end of an operation that may have nothing to save. -/
def saveIfChanged (saved : Except String Unit) (rm : RuleManager) :
    Except String (Option RuleManager) → Except String Unit × RuleManager
  | .error err => (.error err, rm)
  | .ok none => (.ok (), rm)
  | .ok (some rm) => (saved, rm)

def perform (dec : Decoder) (rm : RuleManager) (call : Call) : Except String Unit × RuleManager :=
  match call.op with
  | .addSiteGroup sg => (call.saved, addSiteGroup rm sg (call.newID 0))
  | .updateSiteGroup sg => (call.saved, updateSiteGroup rm sg)
  | .deleteSiteGroup id => (call.saved, deleteSiteGroup rm id)
  | .addUpstream u => (call.saved, addUpstream rm u (call.newID 0))
  | .updateUpstream u => (call.saved, updateUpstream rm u)
  | .deleteUpstream id => (call.saved, deleteUpstream rm id)
  | .addDNSNode n => (call.saved, addDNSNode rm n (call.newID 0))
  | .updateDNSNode n => (call.saved, updateDNSNode rm n)
  | .deleteDNSNode id => (call.saved, deleteDNSNode rm id)
  | .setDNSNodePriority id target =>
    saveIfChanged call.saved rm (setDNSNodePriority rm id target)
  | .upsertECHProfile p => (call.saved, upsertECHProfile rm p (call.newID 0))
  | .deleteECHProfile id => (call.saved, deleteECHProfile rm id)
  | .updateECHProfileConfig id bytes =>
    saveIfChanged call.saved rm (updateECHProfileConfig rm id bytes)
  | .importConfig content =>
    let (result, rm) := importConfigWithSummary dec call.newID rm content call.saved
    (result.map fun _ => (), rm)

/-- The state after a call. -/
def step (dec : Decoder) (rm : RuleManager) (call : Call) : RuleManager := (perform dec rm call).2

/-! ## Freshness -/

/-- The table in memory is the one `buildRules` would compute. -/
def Fresh (rm : RuleManager) : Prop :=
  rm.rules = compile rm.siteGroups rm.upstreams rm.echProfiles

theorem fresh_buildRules (rm : RuleManager) : Fresh (buildRules rm) := rfl

theorem fresh_loadConfig {rm : RuleManager} (h : Fresh rm) (files : Files) :
    Fresh (loadConfig rm files).2 := by
  have hsettings : Fresh (loadSettingsConfig rm files.settings files.settingsSaved).2 := by
    unfold loadSettingsConfig
    split <;> exact h
  unfold loadConfig
  split
  · rename_i heq
    rw [heq] at hsettings
    exact hsettings
  · rename_i rm' heq
    rw [heq] at hsettings
    have hrules : ∀ err rm'', loadRulesConfig rm' files.rules files.rulesSaved = (.error err, rm'') →
        Fresh rm'' := by
      intro err rm'' hl
      unfold loadRulesConfig at hl
      split at hl
      · exact (Prod.mk.inj hl).2 ▸ fresh_buildRules _
      · exact (Prod.mk.inj hl).2 ▸ hsettings
      · cases hl
    split
    · rename_i heq'
      exact hrules _ _ heq'
    · exact fresh_buildRules _

/-- Under other upstreams and profiles every site group with rules resolves as before. -/
def Unseen (rm : RuleManager) (upstreams : List Upstream) (echProfiles : List ECHProfile) : Prop :=
  ∀ sg ∈ rm.siteGroups, Compiled sg →
    resolved rm.upstreams rm.echProfiles sg = resolved upstreams echProfiles sg

/-- The five operations that do not rebuild the table change nothing it was built from;
the others need nothing. -/
def Harmless (rm : RuleManager) (call : Call) : Prop :=
  match call.op with
  | .addUpstream u => Unseen rm (rm.upstreams ++ [{ u with id := call.newID 0 }]) rm.echProfiles
  | .updateUpstream u => Unseen rm (replaceFirst Upstream.id u rm.upstreams) rm.echProfiles
  | .deleteUpstream id => Unseen rm (eraseFirst Upstream.id id rm.upstreams) rm.echProfiles
  | .upsertECHProfile p => Unseen rm rm.upstreams (upsertProfiles rm.echProfiles p (call.newID 0))
  | .deleteECHProfile id => Unseen rm rm.upstreams (eraseFirst ECHProfile.id id rm.echProfiles)
  | _ => True

theorem fresh_edit_iff {rm : RuleManager} (h : Fresh rm) (ups : List Upstream)
    (ps : List ECHProfile) :
    Fresh { rm with upstreams := ups, echProfiles := ps } ↔ Unseen rm ups ps := by
  unfold Fresh at h ⊢
  rw [h]
  exact compile_eq_iff rm.siteGroups rm.upstreams ups rm.echProfiles ps

theorem fresh_setDNSNodePriority {rm rm' : RuleManager} (h : Fresh rm) {id : String} {target : Int}
    (hs : setDNSNodePriority rm id target = .ok (some rm')) : Fresh rm' := by
  unfold setDNSNodePriority at hs
  split at hs
  · cases hs
  · simp only at hs
    split at hs
    · cases hs
    · cases hs
      exact h

theorem fresh_updateECHProfileConfig {rm rm' : RuleManager} (h : Fresh rm) {id : String}
    {bytes : List UInt8} (hs : updateECHProfileConfig rm id bytes = .ok (some rm')) :
    Fresh rm' := by
  unfold updateECHProfileConfig Profiles.updateECHProfileConfig at hs
  split at hs
  · cases hs
  · cases hs
  · rename_i profiles hp
    cases hs
    refine (fresh_edit_iff h rm.upstreams profiles).mpr fun sg _ _ => ?_
    split at hp
    · cases hp
    · split at hp
      · cases hp
      · split at hp
        · cases hp
        · cases hp
          exact (resolved_setConfig ..).symm

theorem fresh_saveIfChanged {rm : RuleManager} (h : Fresh rm) (saved : Except String Unit)
    {change : Except String (Option RuleManager)}
    (hc : ∀ rm', change = .ok (some rm') → Fresh rm') :
    Fresh (saveIfChanged saved rm change).2 := by
  unfold saveIfChanged
  split
  · exact h
  · exact h
  · exact hc _ rfl

theorem fresh_importConfig {rm : RuleManager} (h : Fresh rm) (dec : Decoder) (newID : Nat → String)
    (content : String) (saved : Except String Unit) :
    Fresh (importConfigWithSummary dec newID rm content saved).2 := by
  unfold importConfigWithSummary
  simp only
  split
  · exact h
  · split
    · exact h
    · cases saved <;> exact fresh_buildRules _

/-- One call: a fresh table stays fresh exactly when the call is harmless. -/
theorem fresh_step_iff (dec : Decoder) {rm : RuleManager} (call : Call) (h : Fresh rm) :
    Fresh (step dec rm call) ↔ Harmless rm call := by
  unfold step perform Harmless
  cases call.op with
  | addSiteGroup sg => exact iff_of_true (fresh_buildRules _) trivial
  | updateSiteGroup sg => exact iff_of_true (fresh_buildRules _) trivial
  | deleteSiteGroup id => exact iff_of_true (fresh_buildRules _) trivial
  | addUpstream u => exact fresh_edit_iff h _ _
  | updateUpstream u => exact fresh_edit_iff h _ _
  | deleteUpstream id => exact fresh_edit_iff h _ _
  | addDNSNode n => exact iff_of_true h trivial
  | updateDNSNode n => exact iff_of_true h trivial
  | deleteDNSNode id => exact iff_of_true h trivial
  | setDNSNodePriority id target =>
    exact iff_of_true (fresh_saveIfChanged h _ fun _ => fresh_setDNSNodePriority h) trivial
  | upsertECHProfile p => exact fresh_edit_iff h _ _
  | deleteECHProfile id => exact fresh_edit_iff h _ _
  | updateECHProfileConfig id bytes =>
    exact iff_of_true (fresh_saveIfChanged h _ fun _ => fresh_updateECHProfileConfig h) trivial
  | importConfig content => exact iff_of_true (fresh_importConfig h ..) trivial

/-- In a run from `LoadConfig` the table is fresh in every state exactly when every call
of the run is harmless. -/
theorem always_fresh_iff (dec : Decoder) (files : Files) (calls : List Call) :
    Always (step dec) Fresh (loadConfig newRuleManager files).2 calls ↔
      EachStep (step dec) Harmless (loadConfig newRuleManager files).2 calls := by
  have hempty : Fresh newRuleManager := rfl
  have hstart : Fresh (loadConfig newRuleManager files).2 := fresh_loadConfig hempty files
  exact always_iff_eachStep (fun _ call h => fresh_step_iff dec call h) hstart calls

end

/-- A rules file with one site group on one upstream. -/
def oneUpstream : Files where
  settings := .decoded {}
  settingsSaved := .ok ()
  rules := .decoded
    { siteGroups :=
        [{ id := "g", website := "site", domains := ["a.com"], mode := "mitm", upstream := "u"
           enabled := true }]
      upstreams := [{ id := "u", address := "192.0.2.1:443", enabled := true }] }
  rulesSaved := .ok ()

/-- The upstream moves to another address. -/
def moveUpstream : Call where
  op := .updateUpstream { id := "u", address := "192.0.2.2:443", enabled := true }
  newID _ := "1"
  saved := .ok ()

/-- A decoder that reads nothing, for runs without an import. -/
def rejectAll : Decoder where
  wrapper _ := none
  configFile _ := .error "invalid character"

/-- After the move the table still holds the old address. -/
theorem moveUpstream_stale :
    ¬ Always (step rejectAll) Fresh (loadConfig newRuleManager oneUpstream).2 [moveUpstream] := by
  intro h
  have hstale : ¬ Fresh (run (step rejectAll) (loadConfig newRuleManager oneUpstream).2
      [moveUpstream]) := by
    unfold Fresh
    decide
  exact hstale (h [moveUpstream] List.prefix_rfl)

end SniShaper.Manager
