import Mathlib.Data.Bool.AllAny
import SniShaper.Config.Commands
import SniShaper.Config.Mutations

/-! Loading what was saved after a load (`LoadConfig` and `saveRulesConfig` of
`proxy/proxy.go`): the rewrites of the first load and what the second one finds to do.

* `migrateLegacyECHRules_eq`: the migration, group by group;
* `loadGroup_loadGroup`: a second load of a site group rewrites its website only;
* `settled_iff`: which inferred websites are kept;
* `reload_idempotent_iff`: when the second load changes nothing and has nothing to migrate. -/

namespace SniShaper.Manager

open Strings Net Config Hosts Candidates

section

variable [CaseTables]

/-! ## The flag of a load -/

/-- The flag `migrated` at the end of `LoadConfig`: a website was inferred or an old ECH rule
moved to a profile. -/
def migrated (rm : RuleManager) : Bool :=
  let siteGroups := rm.siteGroups.map fun sg => { sg with dnsMode := normalizeDNSMode sg.dnsMode }
  let echProfiles := rm.echProfiles.map normalizeECHProfile
  siteGroups.any (fun sg => trimSpace sg.website = "") ||
    (migrateLegacyECHRules (siteGroups.map withWebsite) echProfiles).2.2

/-- The flag of a load; one that fails does not come to it. -/
def loadMigrated (rm : RuleManager) (files : Files) : Bool :=
  match loadSettingsConfig rm files.settings files.settingsSaved with
  | (.error _, _) => false
  | (.ok (), rm) =>
    match loadRulesConfig rm files.rules files.rulesSaved with
    | (.error _, _) => false
    | (.ok (), rm) => migrated rm

/-! ## The migration -/

/-- What the migration makes of a site group. -/
def migrateGroup (sg : SiteGroup) : SiteGroup :=
  if hasLegacyECH sg then { sg with echProfileID := legacyProfileID, echDomain := "" }
  else { sg with echProfileID := trimSpace sg.echProfileID, echDomain := trimSpace sg.echDomain }

theorem migrateLegacyECHRules_flag (sg : SiteGroup) (sgs : List SiteGroup)
    (profiles : List ECHProfile) :
    (migrateLegacyECHRules (sg :: sgs) profiles).2.2 =
      if hasLegacyECH sg then true else (migrateLegacyECHRules sgs profiles).2.2 := by
  rw [migrateLegacyECHRules, hasLegacyECH]
  simp only
  split <;> rfl

/-- The migration rewrites each group for itself, and says whether there was an old rule. -/
theorem migrateLegacyECHRules_eq (sgs : List SiteGroup) (profiles : List ECHProfile) :
    (migrateLegacyECHRules sgs profiles).1 = sgs.map migrateGroup ∧
      (migrateLegacyECHRules sgs profiles).2.2 = sgs.any hasLegacyECH := by
  induction sgs generalizing profiles with
  | nil => exact ⟨rfl, rfl⟩
  | cons sg sgs ih =>
    rw [migrateLegacyECHRules_flag, List.map_cons, List.any_cons, migrateGroup]
    by_cases hlegacy : hasLegacyECH sg = true
    · rw [(migrateLegacyECHRules_legacy hlegacy sgs profiles).1, (ih _).1, if_pos hlegacy,
        if_pos hlegacy, hlegacy, Bool.true_or]
      exact ⟨rfl, rfl⟩
    · rw [(migrateLegacyECHRules_new hlegacy sgs profiles).1, (ih _).1, (ih _).2, if_neg hlegacy,
        if_neg hlegacy, Bool.eq_false_iff.mpr hlegacy, Bool.false_or]
      exact ⟨rfl, rfl⟩

theorem hasLegacyECH_migrateGroup (sg : SiteGroup) : hasLegacyECH (migrateGroup sg) = false := by
  have hid : trimSpace legacyProfileID = legacyProfileID := by decide
  have hne : legacyProfileID ≠ "" := by decide
  unfold migrateGroup
  cases hlegacy : hasLegacyECH sg with
  | true => simp [hasLegacyECH, isLegacyECH, hid, hne]
  | false =>
    simp only [hasLegacyECH] at hlegacy
    simpa [hasLegacyECH, trimSpace_trimSpace] using hlegacy

theorem migrateGroup_migrateGroup (sg : SiteGroup) :
    migrateGroup (migrateGroup sg) = migrateGroup sg := by
  have hid : trimSpace legacyProfileID = legacyProfileID := by decide
  have hempty : trimSpace "" = "" := by decide
  rw [migrateGroup, hasLegacyECH_migrateGroup]
  unfold migrateGroup
  cases hasLegacyECH sg with
  | true => simp [hid, hempty]
  | false => simp [trimSpace_trimSpace]

/-! ## The store of profiles -/

/-- A store as `LoadConfig` leaves it. -/
def NormalProfiles (profiles : List ECHProfile) : Prop :=
  ∀ p ∈ profiles, normalizeECHProfile p = p

omit [CaseTables] in
theorem normalProfiles_map (profiles : List ECHProfile) :
    NormalProfiles (profiles.map normalizeECHProfile) := by
  intro p hp
  obtain ⟨q, -, rfl⟩ := List.mem_map.mp hp
  simp only [normalizeECHProfile, trimSpace_trimSpace]

omit [CaseTables] in
theorem forall_mem_replaceFirst {α : Type} {P : α → Prop} {id : α → String} {x : α} (hx : P x)
    {l : List α} (h : ∀ y ∈ l, P y) : ∀ y ∈ replaceFirst id x l, P y := by
  unfold replaceFirst
  induction l with
  | nil => simp
  | cons y l ih =>
    rw [List.forall_mem_cons] at h
    by_cases hy : id y = id x
    · simpa [List.replaceF, hy] using ⟨hx, h.2⟩
    · simpa [List.replaceF, hy] using ⟨h.1, by simpa using ih h.2⟩

omit [CaseTables] in
theorem normalProfiles_ensureLegacy {profiles : List ECHProfile} (h : NormalProfiles profiles) :
    NormalProfiles (ensureLegacyCloudflareProfile profiles) := by
  have hname : trimSpace "Legacy Cloudflare" = "Legacy Cloudflare" := by decide
  have hdomain : trimSpace "crypto.cloudflare.com" = "crypto.cloudflare.com" := by decide
  have hid : trimSpace legacyProfileID = legacyProfileID := by decide
  have hempty : trimSpace "" = "" := by decide
  unfold ensureLegacyCloudflareProfile
  cases profiles.find? (·.id = legacyProfileID) with
  | none =>
    intro p hp
    rcases List.mem_append.mp hp with hp | hp
    · exact h p hp
    · rw [List.mem_singleton.mp hp]
      simp only [normalizeECHProfile, hid, hname, hdomain, hempty]
  | some p =>
    refine forall_mem_replaceFirst ?_ h
    -- the two defaults are trimmed themselves
    split_ifs <;> simp only [normalizeECHProfile, trimSpace_trimSpace, hname, hdomain]

theorem normalProfiles_migrate {profiles : List ECHProfile} (h : NormalProfiles profiles)
    (sgs : List SiteGroup) : NormalProfiles (migrateLegacyECHRules sgs profiles).2.1 := by
  induction sgs generalizing profiles with
  | nil => exact h
  | cons sg sgs ih =>
    by_cases hlegacy : hasLegacyECH sg = true
    · rw [(migrateLegacyECHRules_legacy hlegacy sgs profiles).2]
      exact ih (normalProfiles_ensureLegacy h)
    · rw [(migrateLegacyECHRules_new hlegacy sgs profiles).2]
      exact ih h

/-- Without an old rule the store is left alone. -/
theorem migrateLegacyECHRules_store {sgs : List SiteGroup}
    (h : ∀ sg ∈ sgs, hasLegacyECH sg = false) (profiles : List ECHProfile) :
    (migrateLegacyECHRules sgs profiles).2.1 = profiles := by
  induction sgs with
  | nil => rfl
  | cons sg sgs ih =>
    rw [List.forall_mem_cons] at h
    rw [(migrateLegacyECHRules_new (by simp [h.1]) sgs profiles).2, ih h.2]

/-! ## One site group -/

/-- What a load makes of a site group. -/
def loadGroup (sg : SiteGroup) : SiteGroup :=
  migrateGroup (withWebsite { sg with dnsMode := normalizeDNSMode sg.dnsMode })

/-- The website after a load. -/
def loadedWebsite (sg : SiteGroup) : String :=
  if trimSpace sg.website = "" then inferWebsiteFromSiteGroup sg else trimSpace sg.website

/-- A website is inferred from four fields. The table of known websites stays folded. -/
theorem inferWebsite_congr {a b : SiteGroup} (hname : a.name = b.name)
    (hupstream : a.upstream = b.upstream) (hsni : a.sniFake = b.sniFake)
    (hdomains : a.domains = b.domains) :
    inferWebsiteFromSiteGroup a = inferWebsiteFromSiteGroup b := by
  delta inferWebsiteFromSiteGroup
  rw [hname, hupstream, hsni, hdomains]

theorem loadGroup_eq (sg : SiteGroup) :
    loadGroup sg = migrateGroup
      { sg with dnsMode := normalizeDNSMode sg.dnsMode, website := loadedWebsite sg } := by
  have hinfer : inferWebsiteFromSiteGroup { sg with dnsMode := normalizeDNSMode sg.dnsMode } =
      inferWebsiteFromSiteGroup sg := inferWebsite_congr rfl rfl rfl rfl
  simp only [loadGroup, withWebsite, loadedWebsite, hinfer]

theorem toLower_dnsMode : ∀ m ∈ ["prefer_ipv4", "prefer_ipv6", "ipv4_only", "ipv6_only", ""],
    toLower (trimSpace m) = m := by
  have hall : ∀ m ∈ ["prefer_ipv4", "prefer_ipv6", "ipv4_only", "ipv6_only", ""],
      trimSpace m = m ∧ m.toList.all (fun c => c.toNat < 128 && c.toLower = c) = true :=
    List.all_iff_forall_prop.mp (by decide +kernel)
  intro m hm
  obtain ⟨htrim, hlower⟩ := hall m hm
  rw [htrim]
  exact toLower_eq_self (by simpa using hlower)

theorem normalizeDNSMode_mem (mode : String) : normalizeDNSMode mode ∈
    ["prefer_ipv4", "prefer_ipv6", "ipv4_only", "ipv6_only", ""] := by
  unfold normalizeDNSMode
  simp only
  split
  · rename_i hm
    simpa [← or_assoc] using Or.inl (b := toLower (trimSpace mode) = "") hm
  · simp

theorem normalizeDNSMode_idempotent (mode : String) :
    normalizeDNSMode (normalizeDNSMode mode) = normalizeDNSMode mode := by
  have hmem := normalizeDNSMode_mem mode
  generalize normalizeDNSMode mode = m at hmem
  unfold normalizeDNSMode
  rw [toLower_dnsMode m hmem]
  simp only [List.mem_cons, List.not_mem_nil, or_false] at hmem
  rcases hmem with rfl | rfl | rfl | rfl | rfl <;> decide

theorem migrateGroup_website (sg : SiteGroup) (website : String) :
    migrateGroup { sg with website := website } = { migrateGroup sg with website := website } := by
  have hlegacy : hasLegacyECH { sg with website := website } = hasLegacyECH sg := by
    simp only [hasLegacyECH, isLegacyECH]
  rw [migrateGroup, migrateGroup, hlegacy]
  split <;> rfl

theorem migrateGroup_dnsMode (sg : SiteGroup) : (migrateGroup sg).dnsMode = sg.dnsMode := by
  unfold migrateGroup
  split <;> rfl

theorem website_migrateGroup (sg : SiteGroup) : (migrateGroup sg).website = sg.website := by
  unfold migrateGroup
  split <;> rfl

theorem website_loadGroup (sg : SiteGroup) : (loadGroup sg).website = loadedWebsite sg := by
  rw [loadGroup_eq, website_migrateGroup]

/-- A second load of a site group rewrites its website only. -/
theorem loadGroup_loadGroup (sg : SiteGroup) :
    loadGroup (loadGroup sg) = { loadGroup sg with website := loadedWebsite (loadGroup sg) } := by
  have hmode : normalizeDNSMode (loadGroup sg).dnsMode = (loadGroup sg).dnsMode := by
    rw [loadGroup_eq, migrateGroup_dnsMode, normalizeDNSMode_idempotent]
  have hmigrated : migrateGroup (loadGroup sg) = loadGroup sg := by
    rw [loadGroup, migrateGroup_migrateGroup]
  rw [loadGroup_eq (loadGroup sg), hmode, migrateGroup_website, hmigrated]

/-- The rewrites leave alone what a website is inferred from. -/
theorem loadedWebsite_loadGroup (sg : SiteGroup) :
    loadedWebsite (loadGroup sg) =
      if trimSpace (loadedWebsite sg) = "" then inferWebsiteFromSiteGroup sg
      else trimSpace (loadedWebsite sg) := by
  have hinfer : inferWebsiteFromSiteGroup (loadGroup sg) = inferWebsiteFromSiteGroup sg := by
    rw [loadGroup_eq]
    unfold migrateGroup
    split <;> exact inferWebsite_congr rfl rfl rfl rfl
  rw [loadedWebsite.eq_1 (loadGroup sg), website_loadGroup, hinfer]

/-! ## The website of a site group -/

/-- A name that a second load leaves as it is. -/
def Kept (website : String) : Prop := website ≠ "" ∧ trimSpace website = website

/-- A token that says something. -/
def usable (t : String) : Bool := t ≠ "" && t ≠ "off"

/-- The label a token gives for the website. -/
def websiteLabel (t : String) : String :=
  let parts := split t '.'
  if 2 ≤ parts.length then parts.getD (parts.length - 2) "" else t

/-- The first known website that one of the tokens belongs to. -/
def knownSite (sg : SiteGroup) : Option (String × List String) :=
  knownWebsites.find? fun site => ([sg.name, sg.upstream, sg.sniFake] ++ sg.domains).any fun t =>
    site.2.any fun d => tokenMatchesDomain t d

/-- The token that names any other website: the first usable one of the domains, or else of
the name, the upstream and the SNI. -/
def websiteToken (sg : SiteGroup) : Option String :=
  ((sg.domains ++ ([sg.name, sg.upstream, sg.sniFake] ++ sg.domains)).map cleanWebsiteToken).find?
    usable

/-- The website of a group can be inferred for good: its site is known, or the label of its
token is one that is kept. -/
def Settled (sg : SiteGroup) : Prop :=
  knownSite sg = none → ∀ t, websiteToken sg = some t → Kept (websiteLabel t)

theorem secondLabel_eq (ts : List String) :
    secondLabel ts = ((ts.map cleanWebsiteToken).find? usable).map websiteLabel := by
  induction ts with
  | nil => rfl
  | cons t ts ih =>
    rw [secondLabel, List.map_cons, List.find?_cons]
    simp only
    generalize cleanWebsiteToken t = token
    by_cases hskip : token = "" ∨ token = "off"
    · have husable : usable token = false := by
        unfold usable
        rcases hskip with rfl | rfl <;> decide
      rw [if_pos hskip, husable, ih]
    · have husable : usable token = true := by
        simpa [usable] using hskip
      rw [if_neg hskip, husable, Option.map_some, websiteLabel]
      by_cases hparts : 2 ≤ (split token '.').length
      · have hlt : (split token '.').length - 2 < (split token '.').length := by omega
        simp only [if_pos hparts, List.getD_eq_getElem?_getD, List.getElem?_eq_getElem hlt,
          Option.getD_some]
      · simp only [if_neg hparts]

theorem websiteToken_label (sg : SiteGroup) :
    (websiteToken sg).map websiteLabel = (secondLabel sg.domains).orElse fun _ =>
      secondLabel ([sg.name, sg.upstream, sg.sniFake] ++ sg.domains) := by
  rw [websiteToken, List.map_append, List.find?_append, secondLabel_eq, secondLabel_eq]
  generalize (([sg.name, sg.upstream, sg.sniFake] ++ sg.domains).map cleanWebsiteToken).find?
    usable = other
  cases (sg.domains.map cleanWebsiteToken).find? usable with
  | none => rfl
  | some t => rfl

theorem inferWebsite_eq (sg : SiteGroup) :
    inferWebsiteFromSiteGroup sg =
      (knownSite sg).elim (((websiteToken sg).map websiteLabel).getD "misc") Prod.fst := by
  rw [websiteToken_label]
  delta inferWebsiteFromSiteGroup knownSite
  generalize knownWebsites = sites
  simp only
  cases sites.find? _ with
  | none => rfl
  | some site => rfl

omit [CaseTables] in
/-- The characters of the domains in the table. -/
theorem domainChar_plain {c : Char} (hc : c.toNat < 128)
    (h : (c.isLower || c.isDigit || c = '.' || c = '-') = true) :
    isSpace c = false ∧ c.toLower = c ∧ c ∉ ['*', '$', '[', ']', ':'] :=
  @ascii_forall (fun c => (c.isLower || c.isDigit || c = '.' || c = '-') = true →
    isSpace c = false ∧ c.toLower = c ∧ c ∉ ['*', '$', '[', ']', ':']) (by decide +kernel) c hc h

/-- A text of such characters is a clean token. -/
theorem cleanWebsiteToken_plain {d : String} (h : ∀ c ∈ d.toList, c.toNat < 128 ∧
    (c.isLower || c.isDigit || c = '.' || c = '-') = true) : cleanWebsiteToken d = d := by
  have hchars : ∀ c ∈ d.toList, isSpace c = false ∧ c.toLower = c ∧
      c ∉ ['*', '$', '[', ']', ':'] := fun c hc => domainChar_plain (h c hc).1 (h c hc).2
  have hmark : ∀ x ∈ ['*', '$', '[', ']', ':'], x ∉ d.toList := fun x hx hd =>
    (hchars x hd).2.2 hx
  have hcolon : ':' ∉ d.toList := hmark ':' (by decide)
  have hhost : normalizeHost d = d := by
    have htext : HostText d :=
      ⟨⟨hmark '[' (by decide), hmark ']' (by decide), fun c hc => (hchars c hc).1⟩, Or.inl hcolon⟩
    rw [normalizeHost_hostText htext]
    exact toLower_eq_self fun c hc => ⟨(h c hc).1, (hchars c hc).2.1⟩
  have hstar : trimPrefix d "*." = d :=
    if_neg (Bool.eq_false_iff.mp (hasPrefix_eq_false (hmark '*' (by decide))))
  have hdollar : trimSuffix d "$" = d := by
    refine if_neg fun hsuffix => ?_
    obtain ⟨t, ht⟩ := hasSuffix_iff.mp hsuffix
    exact hmark '$' (by decide) (by simp [ht])
  have hbrackets : trim d "[]" = d := by
    rw [trim, trimBy_eq_self, String.ofList_toList]
    intro c hc
    have hne := (hchars c hc).2.2
    simp only [List.mem_cons, not_or] at hne
    simp [hne]
  have hnone : index d ":" = none :=
    Option.not_isSome_iff_eq_none.mp (Bool.eq_false_iff.mp (@contains_eq_false d ':' [] hcolon))
  delta cleanWebsiteToken
  simp only [hhost, hstar, hdollar, hbrackets, hnone]

/-- The domains of the table are clean tokens. -/
theorem cleanWebsiteToken_known {site : String × List String} (hsite : site ∈ knownWebsites)
    {d : String} (hd : d ∈ site.2) : cleanWebsiteToken d = d := by
  have hall : ∀ site ∈ knownWebsites, site.2.all (fun d => d.toList.all fun c =>
      c.toNat < 128 && (c.isLower || c.isDigit || c = '.' || c = '-')) = true :=
    List.all_iff_forall_prop.mp (by decide +kernel)
  have hname := List.all_eq_true.mp (hall site hsite) d hd
  refine cleanWebsiteToken_plain fun c hc => ?_
  simpa using List.all_eq_true.mp hname c hc

/-- No site is known for tokens that are blank or end in none of the domains. -/
theorem knownSite_eq_none {sg : SiteGroup}
    (h : ∀ t ∈ [sg.name, sg.upstream, sg.sniFake] ++ sg.domains, cleanWebsiteToken t = "" ∨
      ∀ site ∈ knownWebsites, ∀ d ∈ site.2, cleanWebsiteToken t ≠ d ∧
        hasSuffix (cleanWebsiteToken t) ("." ++ d) = false) :
    knownSite sg = none := by
  refine List.find?_eq_none.mpr fun site hsite => ?_
  simp only [List.any_eq_true, not_exists, not_and, Bool.not_eq_true]
  intro t ht d hd
  unfold tokenMatchesDomain
  simp only [cleanWebsiteToken_known hsite hd]
  rcases h t ht with hblank | hother
  · rw [if_pos (Or.inl hblank)]
  · obtain ⟨hne, hsuffix⟩ := hother site hsite d hd
    split
    · rfl
    · rw [decide_eq_false hne, hsuffix, Bool.or_false]

theorem settled_iff (sg : SiteGroup) : Settled sg ↔ Kept (inferWebsiteFromSiteGroup sg) := by
  have hknown : ∀ site ∈ knownWebsites, site.1 ≠ "" ∧ trimSpace site.1 = site.1 :=
    List.all_iff_forall_prop.mp (by decide +kernel)
  have hmisc : Kept "misc" := ⟨by decide, by decide⟩
  rw [inferWebsite_eq, Settled]
  cases hsite : knownSite sg with
  | some site =>
    have hkept : Kept site.1 := hknown site (List.mem_of_find?_eq_some hsite)
    simpa using hkept
  | none =>
    cases websiteToken sg with
    | none => simpa using hmisc
    | some t => simp

/-- The website of a loaded group is kept unless it was inferred from a token it cannot be
inferred from. -/
theorem kept_loadedWebsite_iff (sg : SiteGroup) :
    Kept (loadedWebsite sg) ↔ (trimSpace sg.website = "" → Settled sg) := by
  rw [settled_iff, loadedWebsite]
  by_cases hblank : trimSpace sg.website = ""
  · rw [if_pos hblank]
    exact ⟨fun h _ => h, fun h => h hblank⟩
  · rw [if_neg hblank]
    exact ⟨fun _ h => absurd h hblank, fun _ => ⟨hblank, trimSpace_trimSpace _⟩⟩

/-- A second load leaves a group as it is, and infers nothing, exactly when its website is
kept. -/
theorem loadGroup_fixed_iff (sg : SiteGroup) :
    (loadGroup (loadGroup sg) = loadGroup sg ∧ trimSpace (loadGroup sg).website ≠ "") ↔
      Kept (loadedWebsite sg) := by
  have hwebsite := website_loadGroup sg
  rw [loadGroup_loadGroup, hwebsite]
  constructor
  · rintro ⟨hsame, hne⟩
    have hloaded := congrArg SiteGroup.website hsame
    simp only [loadedWebsite_loadGroup, hwebsite, if_neg hne] at hloaded
    exact ⟨hloaded ▸ hne, hloaded⟩
  · rintro ⟨hne, htrim⟩
    have hloaded : loadedWebsite (loadGroup sg) = (loadGroup sg).website := by
      rw [loadedWebsite_loadGroup, hwebsite, htrim, if_neg hne]
    exact ⟨by rw [hloaded], htrim.symm ▸ hne⟩

/-! ## Two loads -/

theorem hasLegacyECH_withWebsite (sg : SiteGroup) :
    hasLegacyECH (withWebsite { sg with dnsMode := normalizeDNSMode sg.dnsMode }) =
      hasLegacyECH sg := by
  simp only [hasLegacyECH, isLegacyECH, withWebsite]

theorem finishLoad_siteGroups (rm : RuleManager) :
    (finishLoad rm).siteGroups = rm.siteGroups.map loadGroup := by
  unfold finishLoad
  simp only [buildRules, (migrateLegacyECHRules_eq _ _).1, List.map_map]
  exact List.map_congr_left fun sg _ => by simp only [Function.comp_apply, loadGroup]

theorem normalProfiles_finishLoad (rm : RuleManager) :
    NormalProfiles (finishLoad rm).echProfiles :=
  normalProfiles_migrate (normalProfiles_map rm.echProfiles) _

/-- A store in form is left alone when there is no old rule. -/
theorem finishLoad_echProfiles {rm : RuleManager} (hnormal : NormalProfiles rm.echProfiles)
    (hlegacy : ∀ sg ∈ rm.siteGroups, hasLegacyECH sg = false) :
    (finishLoad rm).echProfiles = rm.echProfiles := by
  have hnone : ∀ sg ∈ (rm.siteGroups.map fun sg =>
      { sg with dnsMode := normalizeDNSMode sg.dnsMode }).map withWebsite,
      hasLegacyECH sg = false := by
    intro sg hsg
    rw [List.map_map] at hsg
    obtain ⟨sg, hmem, rfl⟩ := List.mem_map.mp hsg
    exact (hasLegacyECH_withWebsite sg).trans (hlegacy sg hmem)
  have hmap : rm.echProfiles.map normalizeECHProfile = rm.echProfiles :=
    (List.map_congr_left hnormal).trans (List.map_id _)
  exact (migrateLegacyECHRules_store hnone _).trans hmap

/-- A load has nothing to migrate when every group has a website and no old rule. -/
theorem migrated_eq_false_iff (rm : RuleManager) :
    migrated rm = false ↔
      ∀ sg ∈ rm.siteGroups, trimSpace sg.website ≠ "" ∧ hasLegacyECH sg = false := by
  unfold migrated
  simp only [(migrateLegacyECHRules_eq _ _).2, List.any_map, Function.comp_def,
    hasLegacyECH_withWebsite]
  simp [forall_and]

/-- The same rules were loaded once and are loaded again. -/
theorem finishLoad_again_iff {rm rm' : RuleManager}
    (h : saveRulesConfig rm' = saveRulesConfig (finishLoad rm)) :
    (SameTables (finishLoad rm') (finishLoad rm) ∧ migrated rm' = false) ↔
      ∀ sg ∈ rm.siteGroups, Kept (loadedWebsite sg) := by
  obtain ⟨hgroups, hupstreams, hnodes, hprofiles⟩ := RulesConfig.mk.inj h
  rw [finishLoad_siteGroups] at hgroups
  have hlegacy : ∀ sg, hasLegacyECH (loadGroup sg) = false := fun sg =>
    hasLegacyECH_migrateGroup _
  have hfixed : (finishLoad rm').siteGroups = (finishLoad rm).siteGroups ↔
      ∀ sg ∈ rm.siteGroups, loadGroup (loadGroup sg) = loadGroup sg := by
    rw [finishLoad_siteGroups, finishLoad_siteGroups, hgroups, List.map_map, List.map_inj_left]
    simp only [Function.comp_apply]
  have hflag : migrated rm' = false ↔
      ∀ sg ∈ rm.siteGroups, trimSpace (loadGroup sg).website ≠ "" := by
    rw [migrated_eq_false_iff, hgroups, List.forall_mem_map]
    simp only [hlegacy, and_true]
  have hstore : (finishLoad rm').echProfiles = (finishLoad rm).echProfiles := by
    refine (finishLoad_echProfiles (hprofiles ▸ normalProfiles_finishLoad rm) ?_).trans hprofiles
    rw [hgroups, List.forall_mem_map]
    exact fun sg _ => hlegacy sg
  constructor
  · rintro ⟨hsame, hnone⟩ sg hsg
    exact (loadGroup_fixed_iff sg).mp
      ⟨hfixed.mp hsame.siteGroups sg hsg, hflag.mp hnone sg hsg⟩
  · intro hkept
    have hboth := fun sg hsg => (loadGroup_fixed_iff sg).mpr (hkept sg hsg)
    have hsame := hfixed.mpr fun sg hsg => (hboth sg hsg).1
    have hups : (finishLoad rm').upstreams = (finishLoad rm).upstreams := hupstreams
    refine ⟨⟨hsame, hups, hnodes, hstore, ?_⟩, hflag.mpr fun sg hsg => (hboth sg hsg).2⟩
    -- the table of rules is compiled from the others
    calc
      (finishLoad rm').rules = compile (finishLoad rm').siteGroups (finishLoad rm').upstreams
          (finishLoad rm').echProfiles := fresh_buildRules _
      _ = compile (finishLoad rm).siteGroups (finishLoad rm).upstreams
          (finishLoad rm).echProfiles := by rw [hsame, hups, hstore]
      _ = (finishLoad rm).rules := (fresh_buildRules _).symm

/-- A load of a rules file that is decoded brings its content into form. -/
theorem loadConfig_decoded {rm : RuleManager} {files : Files} {config : RulesConfig}
    (hfile : files.rules = .decoded config) (h : (loadConfig rm files).1 = .ok ()) :
    ∃ read, saveRulesConfig read = config ∧ (loadConfig rm files).2 = finishLoad read ∧
      loadMigrated rm files = migrated read := by
  obtain ⟨rm', read, hsettings, hrules, heq⟩ := loadConfig_ok h
  refine ⟨read, ?_, heq, ?_⟩
  · unfold loadRulesConfig at hrules
    rw [hfile] at hrules
    rw [← (Prod.mk.inj hrules).2, saveRulesConfig]
  · rw [loadMigrated, hsettings]
    simp only [hrules]

/-- The rules that were saved after a load are loaded as they were, with nothing left to
migrate, exactly when each website that was missing could be inferred for good. -/
theorem reload_idempotent_iff {rm fresh : RuleManager} {files saved : Files}
    {config : RulesConfig} (hfile : files.rules = .decoded config)
    (hload : (loadConfig rm files).1 = .ok ())
    (hsaved : saved.rules = .decoded (saveRulesConfig (loadConfig rm files).2))
    (hreload : (loadConfig fresh saved).1 = .ok ()) :
    (SameTables (loadConfig fresh saved).2 (loadConfig rm files).2 ∧
        loadMigrated fresh saved = false) ↔
      ∀ sg ∈ config.siteGroups, trimSpace sg.website = "" → Settled sg := by
  obtain ⟨first, hfirst, hloaded, -⟩ := loadConfig_decoded hfile hload
  obtain ⟨second, hsecond, hreloaded, hflag⟩ := loadConfig_decoded hsaved hreload
  rw [hloaded] at hsecond
  rw [hreloaded, hloaded, hflag, finishLoad_again_iff hsecond, ← hfirst]
  exact forall₂_congr fun sg _ => kept_loadedWebsite_iff sg

/-- The websites after the first load. -/
theorem loadConfig_websites {rm : RuleManager} {files : Files} {config : RulesConfig}
    (hfile : files.rules = .decoded config) (hload : (loadConfig rm files).1 = .ok ()) :
    (loadConfig rm files).2.siteGroups.map (·.website) = config.siteGroups.map loadedWebsite := by
  obtain ⟨read, hread, hloaded, -⟩ := loadConfig_decoded hfile hload
  rw [hloaded, finishLoad_siteGroups, List.map_map, ← hread]
  exact List.map_congr_left fun sg _ => website_loadGroup sg

/-- The websites after the second load, and a group it has to infer one for again. -/
theorem reload_websites {rm fresh : RuleManager} {files saved : Files} {config : RulesConfig}
    (hfile : files.rules = .decoded config) (hload : (loadConfig rm files).1 = .ok ())
    (hsaved : saved.rules = .decoded (saveRulesConfig (loadConfig rm files).2))
    (hreload : (loadConfig fresh saved).1 = .ok ()) :
    (loadConfig fresh saved).2.siteGroups.map (·.website) =
        config.siteGroups.map (fun sg => loadedWebsite (loadGroup sg)) ∧
      ∀ sg ∈ config.siteGroups, trimSpace (loadedWebsite sg) = "" →
        loadMigrated fresh saved = true := by
  obtain ⟨first, hfirst, hloaded, -⟩ := loadConfig_decoded hfile hload
  obtain ⟨second, hsecond, -, hflag⟩ := loadConfig_decoded hsaved hreload
  have hgroups : (loadConfig rm files).2.siteGroups = config.siteGroups.map loadGroup := by
    rw [hloaded, finishLoad_siteGroups, ← hfirst, saveRulesConfig]
  refine ⟨?_, fun sg hsg hblank => ?_⟩
  · rw [loadConfig_websites hsaved hreload, saveRulesConfig, hgroups, List.map_map]
    simp only [Function.comp_def]
  · rw [hflag]
    refine Bool.eq_true_of_not_eq_false fun hnone => ?_
    have hread : second.siteGroups = config.siteGroups.map loadGroup := by
      rw [← hgroups]
      exact congrArg RulesConfig.siteGroups hsecond
    have hmem : loadGroup sg ∈ second.siteGroups := hread ▸ List.mem_map_of_mem hsg
    have hwebsite := ((migrated_eq_false_iff second).mp hnone _ hmem).1
    exact hwebsite (by rw [website_loadGroup, hblank])

end

/-! ## Two rules files -/

/-- A site group for a domain, without a website. -/
def domainGroup (d : String) : SiteGroup :=
  { id := d, name := "", website := "", domains := [d], mode := "mitm", enabled := true }

/-- A rules file, with no settings yet. -/
def rulesFiles (config : RulesConfig) : Files := { noFiles with rules := .decoded config }

/-- The files with groups for the domains. -/
def domainFiles (domains : List String) : Files :=
  rulesFiles { siteGroups := domains.map domainGroup }

/-- The files after a load of these was saved. -/
def savedFiles (domains : List String) : Files :=
  rulesFiles (saveRulesConfig (loadConfig newRuleManager (domainFiles domains)).2)

theorem loadConfig_rulesFiles (config : RulesConfig) :
    (loadConfig newRuleManager (rulesFiles config)).1 = .ok () := rfl

theorem loadConfig_domainFiles (domains : List String) :
    (loadConfig newRuleManager (domainFiles domains)).1 = .ok () := loadConfig_rulesFiles _

theorem loadConfig_savedFiles (domains : List String) :
    (loadConfig newRuleManager (savedFiles domains)).1 = .ok () := loadConfig_rulesFiles _

theorem loadedWebsite_domainGroup (d : String) :
    loadedWebsite (domainGroup d) = inferWebsiteFromSiteGroup (domainGroup d) := by
  have hblank : trimSpace (domainGroup d).website = "" :=
    show trimSpace "" = "" by decide
  rw [loadedWebsite, if_pos hblank]

/-- The website of a domain that is not one of a known site. -/
theorem inferWebsite_domainGroup {d t : String} (hclean : cleanWebsiteToken d = t)
    (husable : usable t = true)
    (hother : knownWebsites.all (fun site => site.2.all fun known =>
      t ≠ known && !hasSuffix t ("." ++ known)) = true) :
    inferWebsiteFromSiteGroup (domainGroup d) = websiteLabel t := by
  have hblank : cleanWebsiteToken "" = "" := by decide
  have hunknown : knownSite (domainGroup d) = none := by
    apply knownSite_eq_none
    intro x hx
    by_cases hxd : x = d
    · rw [hxd, hclean]
      simpa using Or.inr hother
    · refine Or.inl ?_
      have hempty : x = "" := by simpa [domainGroup, hxd] using hx
      rw [hempty, hblank]
  have htoken : websiteToken (domainGroup d) = some t := by
    simp [websiteToken, domainGroup, hclean, husable]
  rw [inferWebsite_eq, hunknown, htoken, Option.elim_none, Option.map_some, Option.getD_some]

/-- The website of an ordinary domain is inferred once. -/
theorem ordinary_reloaded :
    SameTables (loadConfig newRuleManager (savedFiles ["www.example.org"])).2
        (loadConfig newRuleManager (domainFiles ["www.example.org"])).2 ∧
      loadMigrated newRuleManager (savedFiles ["www.example.org"]) = false := by
  have hinfer : inferWebsiteFromSiteGroup (domainGroup "www.example.org") = "example" :=
    (@inferWebsite_domainGroup _ "www.example.org" (by decide) (by decide)
      (by decide +kernel)).trans (by decide)
  refine (reload_idempotent_iff rfl (loadConfig_domainFiles _) rfl (loadConfig_savedFiles _)).mpr ?_
  rw [List.map_singleton, List.forall_mem_singleton, settled_iff, hinfer]
  exact fun _ => ⟨by decide, by decide⟩

/-- The domain of a whole top level gives an empty website, which each load infers again; a
space before a label is inferred with it and trimmed by the next load. -/
theorem toplevel_migrated_again :
    (loadConfig newRuleManager (domainFiles [".cn", "*. a.com"])).2.siteGroups.map (·.website) =
        ["", " a"] ∧
      (loadConfig newRuleManager (savedFiles [".cn", "*. a.com"])).2.siteGroups.map (·.website) =
        ["", "a"] ∧
      loadMigrated newRuleManager (savedFiles [".cn"]) = true := by
  have hcn : inferWebsiteFromSiteGroup (domainGroup ".cn") = "" :=
    (@inferWebsite_domainGroup _ ".cn" (by decide) (by decide) (by decide +kernel)).trans
      (by decide)
  have ha : inferWebsiteFromSiteGroup (domainGroup "*. a.com") = " a" :=
    (@inferWebsite_domainGroup _ " a.com" (by decide) (by decide) (by decide +kernel)).trans
      (by decide)
  have hspace : trimSpace " a" = "a" ∧ trimSpace "" = "" := by decide
  refine ⟨?_, ?_, ?_⟩
  · rw [loadConfig_websites rfl (loadConfig_domainFiles _)]
    simp only [List.map_cons, List.map_nil, loadedWebsite_domainGroup, hcn, ha]
  · rw [(reload_websites rfl (loadConfig_domainFiles _) rfl (loadConfig_savedFiles _)).1]
    simp [loadedWebsite_loadGroup, loadedWebsite_domainGroup, hcn, ha, hspace]
  · refine (reload_websites rfl (loadConfig_domainFiles [".cn"]) rfl
      (loadConfig_savedFiles [".cn"])).2 (domainGroup ".cn") (List.mem_singleton_self _) ?_
    rw [loadedWebsite_domainGroup, hcn, hspace.2]

end SniShaper.Manager
