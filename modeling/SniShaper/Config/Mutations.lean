import SniShaper.Config.Freshness
import SniShaper.Config.Merge

/-! Operations of the rule manager that fail. All of them change the tables in memory before
the save, which is the last thing that can go wrong.

* `replaceFirst_eq_self_iff`, `eraseFirst_eq_self_iff`, `moveNode_eq_self_iff`: when an edit
  of a list changes nothing;
* `perform_sameTables_iff`: when an operation leaves the tables as they are;
* `noTrace_iff`: when a call that returns an error has changed nothing. -/

namespace SniShaper.Manager

open Strings Config Hosts Candidates Profiles Upsert

/-! ## Edits that change nothing -/

theorem replaceFirst_eq_self_iff {α : Type} (id : α → String) (x : α) (l : List α) :
    replaceFirst id x l = l ↔ ∀ y, l.find? (fun y => id y = id x) = some y → y = x := by
  unfold replaceFirst
  induction l with
  | nil => simp
  | cons y l ih =>
    by_cases hy : id y = id x
    · simp [List.replaceF, hy, eq_comm]
    · simp [List.replaceF, hy, ih]

theorem eraseFirst_eq_self_iff {α : Type} (id : α → String) (i : String) (l : List α) :
    eraseFirst id i l = l ↔ ∀ x ∈ l, id x ≠ i := by
  unfold eraseFirst
  simp [List.eraseP_eq_self_iff]

/-- The element at `src` moved to `target`, as `SetDNSNodePriority` does it. -/
def moveNode {α : Type} (l : List α) (src target : Nat) : List α :=
  (l.eraseIdx src).take target ++ (l.drop src).take 1 ++ (l.eraseIdx src).drop target

theorem getElem?_moveNode {α : Type} {l : List α} {src target : Nat} (hsrc : src < l.length)
    (htarget : target < l.length) (j : Nat) :
    (moveNode l src target)[j]? =
      if j < target then if j < src then l[j]? else l[j + 1]?
      else if j = target then l[src]?
      else if j ≤ src then l[j - 1]? else l[j]? := by
  have hrest : target ≤ (l.eraseIdx src).length := by
    rw [List.length_eraseIdx_of_lt hsrc]
    omega
  have hnode : (l.drop src).take 1 = [l[src]] := by
    rw [List.drop_eq_getElem_cons hsrc, List.take_succ_cons, List.take_zero]
  unfold moveNode
  rw [hnode, List.append_assoc]
  by_cases hj : j < target
  · rw [if_pos hj, List.getElem?_append_left (by simp; omega), List.getElem?_take_of_lt hj,
      List.getElem?_eraseIdx]
  · rw [if_neg hj, List.getElem?_append_right (by simp; omega)]
    have hlen : ((l.eraseIdx src).take target).length = target := by simp [hrest]
    rw [hlen]
    by_cases heq : j = target
    · rw [if_pos heq, heq, Nat.sub_self, List.getElem?_eq_getElem hsrc]
      rfl
    · obtain ⟨k, rfl⟩ : ∃ k, j = target + k + 1 := ⟨j - target - 1, by omega⟩
      rw [if_neg heq, show target + k + 1 - target = k + 1 by omega, List.singleton_append,
        List.getElem?_cons_succ, List.getElem?_drop, List.getElem?_eraseIdx]
      by_cases hk : target + k < src
      · rw [if_pos hk, if_pos (by omega), Nat.add_sub_cancel]
      · rw [if_neg hk, if_neg (by omega)]

/-- All elements from `i` to `j` are the same. -/
def ConstantBetween {α : Type} (l : List α) (i j : Nat) : Prop :=
  ∀ k, min i j ≤ k → k ≤ max i j → l[k]? = l[i]?

theorem moveNode_eq_self_iff {α : Type} {l : List α} {src target : Nat} (hsrc : src < l.length)
    (htarget : target < l.length) : moveNode l src target = l ↔ ConstantBetween l src target := by
  constructor
  · intro h
    have hget : ∀ j : Nat, (moveNode l src target)[j]? = l[j]? := fun j => by rw [h]
    simp only [getElem?_moveNode hsrc htarget] at hget
    rcases Nat.le_total src target with hle | hle
    · -- the nodes behind `src` moved up by one
      intro k hk hk'
      rw [min_eq_left hle] at hk
      rw [max_eq_right hle] at hk'
      induction k, hk using Nat.le_induction with
      | base => rfl
      | succ k hk ih =>
        have hup := hget k
        rw [if_pos (by omega), if_neg (by omega)] at hup
        rw [hup, ih (by omega)]
    · -- the nodes from `target` on moved down by one
      have hfirst : l[target]? = l[src]? := by
        have hat := hget target
        rw [if_neg (by omega), if_pos rfl] at hat
        exact hat.symm
      intro k hk hk'
      rw [min_eq_right hle] at hk
      rw [max_eq_left hle] at hk'
      induction k, hk using Nat.le_induction with
      | base => exact hfirst
      | succ k hk ih =>
        have hdown := hget (k + 1)
        rw [if_neg (by omega), if_neg (by omega), if_pos (by omega), Nat.add_sub_cancel] at hdown
        rw [← hdown, ih (by omega)]
  · intro h
    apply List.ext_getElem?
    intro j
    rw [getElem?_moveNode hsrc htarget]
    split
    · split
      · rfl
      · rw [h j (by omega) (by omega), h (j + 1) (by omega) (by omega)]
    · split
      · rename_i heq
        rw [heq, h target (by omega) (by omega)]
      · split
        · rw [h j (by omega) (by omega), h (j - 1) (by omega) (by omega)]
        · rfl

section

variable [CaseTables]

/-! ## Operations that change nothing -/

/-- The tables that the operations change are the same. -/
structure SameTables (a b : RuleManager) : Prop where
  siteGroups : a.siteGroups = b.siteGroups
  upstreams : a.upstreams = b.upstreams
  dnsNodes : a.dnsNodes = b.dnsNodes
  echProfiles : a.echProfiles = b.echProfiles
  rules : a.rules = b.rules

omit [CaseTables] in
theorem SameTables.refl (rm : RuleManager) : SameTables rm rm := ⟨rfl, rfl, rfl, rfl, rfl⟩

omit [CaseTables] in
/-- The operations on upstreams, nodes and profiles touch nothing else. -/
theorem sameTables_edit_iff {rm : RuleManager} {ups : List Upstream} {nodes : List DNSNode}
    {profiles : List ECHProfile} :
    SameTables { rm with upstreams := ups, dnsNodes := nodes, echProfiles := profiles } rm ↔
      ups = rm.upstreams ∧ nodes = rm.dnsNodes ∧ profiles = rm.echProfiles := by
  constructor
  · intro h
    exact ⟨h.upstreams, h.dnsNodes, h.echProfiles⟩
  · rintro ⟨hups, hnodes, hprofiles⟩
    exact ⟨rfl, hups, hnodes, hprofiles, rfl⟩

/-- Those on site groups make the table of rules anew. -/
theorem sameTables_buildRules_iff {rm : RuleManager} {groups : List SiteGroup} :
    SameTables (buildRules { rm with siteGroups := groups }) rm ↔
      groups = rm.siteGroups ∧ Fresh rm := by
  constructor
  · intro h
    obtain rfl : groups = rm.siteGroups := h.siteGroups
    exact ⟨rfl, h.rules.symm⟩
  · rintro ⟨rfl, hfresh⟩
    exact ⟨rfl, rfl, rfl, rfl, hfresh.symm⟩

/-- What the content holds is in the table already, but for the ids. -/
def AlreadyThere (imported groups : List SiteGroup) : Prop :=
  ∀ sg ∈ imported, ∃ old new, lastWith importMergeKey groups (importMergeKey sg) = some old ∧
    lastWith importMergeKey imported (importMergeKey sg) = some new ∧ keepID old new = old

/-- The operation asks for nothing new. An operation on site groups compiles the rules again,
and so they must be those of the tables. -/
def Inert (dec : Decoder) (rm : RuleManager) (call : Call) : Prop :=
  match call.op with
  | .addSiteGroup _ | .addUpstream _ | .addDNSNode _ => False
  | .updateSiteGroup sg =>
    (∀ old, rm.siteGroups.find? (fun old => old.id = sg.id) = some old →
      old = { sg with website := trimSpace sg.website }) ∧ Fresh rm
  | .deleteSiteGroup id => (∀ sg ∈ rm.siteGroups, sg.id ≠ id) ∧ Fresh rm
  | .updateUpstream u => ∀ old, rm.upstreams.find? (fun old => old.id = u.id) = some old → old = u
  | .deleteUpstream id => ∀ u ∈ rm.upstreams, u.id ≠ id
  | .updateDNSNode n => ∀ old, rm.dnsNodes.find? (fun old => old.id = n.id) = some old → old = n
  | .deleteDNSNode id => ∀ n ∈ rm.dnsNodes, n.id ≠ id
  | .setDNSNodePriority id target =>
    ∀ src, rm.dnsNodes.findIdx? (·.id = id) = some src →
      ConstantBetween rm.dnsNodes src (clampIndex target rm.dnsNodes.length)
  | .upsertECHProfile p =>
    (normalizeECHProfile p).id ≠ "" ∧
      rm.echProfiles.find? (·.id = (normalizeECHProfile p).id) = some (normalizeECHProfile p)
  | .deleteECHProfile id => ∀ p ∈ rm.echProfiles, p.id ≠ id
  | .updateECHProfileConfig id bytes =>
    id = "" ∨ bytes = [] ∨
      ∀ p, rm.echProfiles.find? (·.id = id) = some p → p.config = Base64.encode bytes
  | .importConfig content =>
    trimSpace content = "" ∨ importedGroups dec call.newID content = [] ∨
      AlreadyThere (importedGroups dec call.newID content) rm.siteGroups ∧ Fresh rm

omit [CaseTables] in
theorem saveIfChanged_sameTables_iff {saved : Except String Unit} {rm : RuleManager}
    {change : Except String (Option RuleManager)} :
    SameTables (saveIfChanged saved rm change).2 rm ↔
      ∀ rm', change = .ok (some rm') → SameTables rm' rm := by
  match change with
  | .error err => exact iff_of_true (.refl rm) (fun rm' h => by cases h)
  | .ok none => exact iff_of_true (.refl rm) (fun rm' h => by cases h)
  | .ok (some rm') => simp [saveIfChanged]

omit [CaseTables] in
theorem setDNSNodePriority_inert_iff {rm : RuleManager} {id : String} {target : Int} :
    (∀ rm', setDNSNodePriority rm id target = .ok (some rm') → SameTables rm' rm) ↔
      ∀ src, rm.dnsNodes.findIdx? (·.id = id) = some src →
        ConstantBetween rm.dnsNodes src (clampIndex target rm.dnsNodes.length) := by
  unfold setDNSNodePriority
  cases hsrc : rm.dnsNodes.findIdx? (·.id = id) with
  | none => simp
  | some src =>
    have hlt : src < rm.dnsNodes.length := (List.findIdx?_eq_some_iff_getElem.mp hsrc).1
    have htarget : clampIndex target rm.dnsNodes.length < rm.dnsNodes.length := by
      unfold clampIndex
      omega
    simp only [Option.some.injEq, forall_eq']
    by_cases heq : src = clampIndex target rm.dnsNodes.length
    · rw [if_pos heq]
      refine iff_of_true (fun rm' h => by cases h) fun k hk hk' => ?_
      rw [← heq, min_self] at hk
      rw [← heq, max_self] at hk'
      rw [Nat.le_antisymm hk' hk]
    · simp only [if_neg heq, Except.ok.injEq, Option.some.injEq, forall_eq']
      rw [← moveNode_eq_self_iff hlt htarget]
      constructor
      · intro h
        exact h.dnsNodes
      · intro h
        exact ⟨rfl, rfl, h, rfl, rfl⟩

omit [CaseTables] in
theorem upsertProfiles_eq_self_iff (profiles : List ECHProfile) (p : ECHProfile) (newID : String) :
    upsertProfiles profiles p newID = profiles ↔
      (normalizeECHProfile p).id ≠ "" ∧
        profiles.find? (·.id = (normalizeECHProfile p).id) = some (normalizeECHProfile p) := by
  unfold upsertProfiles
  generalize normalizeECHProfile p = p
  by_cases hid : p.id = ""
  · simp [hid]
  · simp only [hid, if_false, ne_eq, not_false_iff, true_and]
    cases hfind : profiles.find? (·.id = p.id) with
    | none =>
      have hnone : profiles.any (·.id = p.id) = false := by
        simpa [List.find?_eq_none] using hfind
      simp [hnone]
    | some old =>
      have hany : profiles.any (·.id = p.id) = true := by
        rw [List.any_eq_true]
        exact ⟨old, List.mem_of_find?_eq_some hfind, by simpa using List.find?_some hfind⟩
      rw [if_pos hany, replaceFirst_eq_self_iff]
      simp [hfind]

omit [CaseTables] in
theorem updateECHProfileConfig_inert_iff {rm : RuleManager} {id : String} {bytes : List UInt8} :
    (∀ rm', updateECHProfileConfig rm id bytes = .ok (some rm') → SameTables rm' rm) ↔
      (id = "" ∨ bytes = [] ∨
        ∀ p, rm.echProfiles.find? (·.id = id) = some p → p.config = Base64.encode bytes) := by
  unfold updateECHProfileConfig Profiles.updateECHProfileConfig
  by_cases hnone : id = "" ∨ bytes = []
  · simp only [if_pos hnone]
    exact iff_of_true (fun rm' h => by cases h) (or_assoc.mp (.inl hnone))
  · rw [not_or] at hnone
    simp only [hnone.1, hnone.2, or_self, if_false, false_or]
    cases hfind : rm.echProfiles.find? (·.id = id) with
    | none => simp
    | some p =>
      simp only [Option.some.injEq, forall_eq']
      by_cases hsame : p.config = Base64.encode bytes
      · simp [hsame]
      · simp only [hsame, if_false, iff_false]
        intro h
        have heq := (h _ rfl).echProfiles
        have hset : (setConfig id (Base64.encode bytes) rm.echProfiles).find? (·.id = id) =
            some { p with config := Base64.encode bytes } := find_setConfig_self hfind
        rw [show setConfig id (Base64.encode bytes) rm.echProfiles = rm.echProfiles from heq,
          hfind] at hset
        exact hsame (congrArg ECHProfile.config (Option.some.inj hset))

theorem importConfig_sameTables_iff {dec : Decoder} {newID : Nat → String} {rm : RuleManager}
    {content : String} {saved : Except String Unit} :
    SameTables (importConfigWithSummary dec newID rm content saved).2 rm ↔
      trimSpace content = "" ∨ importedGroups dec newID content = [] ∨
        AlreadyThere (importedGroups dec newID content) rm.siteGroups ∧ Fresh rm := by
  by_cases hempty : trimSpace content = ""
  · simp [importConfigWithSummary, hempty, SameTables.refl]
  · have hgroups := importConfigWithSummary_siteGroups dec newID rm hempty saved
    simp only [hempty, false_or]
    by_cases hnone : importedGroups dec newID content = []
    · rw [importedGroups] at hnone
      simp [importConfigWithSummary, hempty, importedGroups, hnone, SameTables.refl]
    · have hstate : (importConfigWithSummary dec newID rm content saved).2 =
          buildRules { rm with
            siteGroups :=
              upsertAll importMergeKey keepID rm.siteGroups (importedGroups dec newID content) } := by
        rw [← hgroups]
        rw [importedGroups] at hnone
        simp only [importConfigWithSummary, hempty, hnone, if_false]
        cases saved <;> rfl
      simp only [hnone, false_or, hstate, sameTables_buildRules_iff,
        upsertAll_eq_self_iff keeps_keepID]
      rfl

/-- An operation leaves the tables as they are exactly when it asks for nothing new. -/
theorem perform_sameTables_iff (dec : Decoder) (rm : RuleManager) (call : Call) :
    SameTables (perform dec rm call).2 rm ↔ Inert dec rm call := by
  unfold perform Inert
  cases call.op with
  | addSiteGroup sg => exact sameTables_buildRules_iff.trans (by simp)
  | updateSiteGroup sg =>
    exact sameTables_buildRules_iff.trans (and_congr_left' (replaceFirst_eq_self_iff _ _ _))
  | deleteSiteGroup id =>
    exact sameTables_buildRules_iff.trans (and_congr_left' (eraseFirst_eq_self_iff _ _ _))
  | addUpstream u => exact sameTables_edit_iff.trans (by simp)
  | updateUpstream u =>
    exact sameTables_edit_iff.trans (by simp [replaceFirst_eq_self_iff])
  | deleteUpstream id => exact sameTables_edit_iff.trans (by simp [eraseFirst_eq_self_iff])
  | addDNSNode n => exact sameTables_edit_iff.trans (by simp)
  | updateDNSNode n => exact sameTables_edit_iff.trans (by simp [replaceFirst_eq_self_iff])
  | deleteDNSNode id => exact sameTables_edit_iff.trans (by simp [eraseFirst_eq_self_iff])
  | setDNSNodePriority id target =>
    exact saveIfChanged_sameTables_iff.trans setDNSNodePriority_inert_iff
  | upsertECHProfile p => exact sameTables_edit_iff.trans (by simp [upsertProfiles_eq_self_iff])
  | deleteECHProfile id => exact sameTables_edit_iff.trans (by simp [eraseFirst_eq_self_iff])
  | updateECHProfileConfig id bytes =>
    exact saveIfChanged_sameTables_iff.trans updateECHProfileConfig_inert_iff
  | importConfig content => exact importConfig_sameTables_iff

/-! ## Operations that fail -/

omit [CaseTables] in
theorem saveIfChanged_result (saved : Except String Unit) (rm : RuleManager)
    (change : Except String (Option RuleManager)) :
    (saveIfChanged saved rm change).1 = saved ∨
      SameTables (saveIfChanged saved rm change).2 rm := by
  match change with
  | .error err => exact .inr (.refl rm)
  | .ok none => exact .inr (.refl rm)
  | .ok (some rm') => exact .inl rfl

theorem importConfig_result (dec : Decoder) (newID : Nat → String) (rm : RuleManager)
    (content : String) (saved : Except String Unit) :
    (importConfigWithSummary dec newID rm content saved).1.map (fun _ => ()) = saved ∨
      SameTables (importConfigWithSummary dec newID rm content saved).2 rm := by
  rw [importConfig_sameTables_iff]
  by_cases hempty : trimSpace content = ""
  · exact .inr (.inl hempty)
  · by_cases hnone : importedGroups dec newID content = []
    · exact .inr (.inr (.inl hnone))
    · left
      rw [importedGroups] at hnone
      simp only [importConfigWithSummary, hempty, hnone, if_false]
      cases saved <;> rfl

/-- The result of a call is that of its save, or it returned before it changed anything. -/
theorem perform_result (dec : Decoder) (rm : RuleManager) (call : Call) :
    (perform dec rm call).1 = call.saved ∨ SameTables (perform dec rm call).2 rm := by
  unfold perform
  cases call.op with
  | setDNSNodePriority id target => exact saveIfChanged_result _ _ _
  | updateECHProfileConfig id bytes => exact saveIfChanged_result _ _ _
  | importConfig content => exact importConfig_result _ _ _ _ _
  | _ => exact .inl rfl

/-- If the call returns an error, the tables are as they were before it. -/
def NoTrace (dec : Decoder) (rm : RuleManager) (call : Call) : Prop :=
  ∀ err, (perform dec rm call).1 = .error err → SameTables (perform dec rm call).2 rm

/-- **A failed operation leaves no trace** exactly when its failure is not that of the save,
or it had nothing to change. -/
theorem noTrace_iff (dec : Decoder) (rm : RuleManager) (call : Call) :
    NoTrace dec rm call ↔ call.saved = .ok () ∨ Inert dec rm call := by
  rw [← perform_sameTables_iff]
  constructor
  · intro h
    rcases perform_result dec rm call with hsaved | hsame
    · cases hresult : call.saved with
      | ok u => exact .inl rfl
      | error err => exact .inr (h err (hsaved.trans hresult))
    · exact .inr hsame
  · rintro (hok | hsame) err herr
    · rcases perform_result dec rm call with hsaved | hsame
      · rw [herr, hok] at hsaved
        cases hsaved
      · exact hsame
    · exact hsame

end

/-- A site group is deleted while the file cannot be written. -/
def deleteUnsaved : Call where
  op := .deleteSiteGroup "g"
  newID _ := "1"
  saved := .error "no space left on device"

/-- The call fails, and the site group and its rule are gone. -/
theorem deleteUnsaved_traces :
    (perform rejectAll (loadConfig newRuleManager oneUpstream).2 deleteUnsaved).1 =
        .error "no space left on device" ∧
      (loadConfig newRuleManager oneUpstream).2.rules.length = 1 ∧
      (step rejectAll (loadConfig newRuleManager oneUpstream).2 deleteUnsaved).rules = [] ∧
      (step rejectAll (loadConfig newRuleManager oneUpstream).2 deleteUnsaved).siteGroups = [] ∧
      ¬ NoTrace rejectAll (loadConfig newRuleManager oneUpstream).2 deleteUnsaved := by
  refine ⟨rfl, by decide, by decide, by decide, fun h => ?_⟩
  have hgroups := (h _ rfl).siteGroups
  revert hgroups
  decide

end SniShaper.Manager
