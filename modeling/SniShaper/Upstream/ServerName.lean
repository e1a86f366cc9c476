import SniShaper.Upstream.Establish

/-! The server name that upstream connections put on the wire.

* `leaks_iff_not_covered`: when a handshake sends the real name in the clear;
* `establishUpstreamConn_failsClosed_iff`: when ECH fails closed, in one run and on every
  network;
* `sent_iff_chosen`: when the name that is sent is the name that was chosen. -/

namespace SniShaper.Establish

open Strings Net Config Hosts ClientConfig Profiles Candidates

section

variable [CaseTables]

/-! ## A network that refuses every handshake -/

/-- Every dial succeeds, every handshake fails and no name is resolved. -/
def refusing : Network where
  resolveECH _ := .error "no answer"
  dial := .ok ()
  handshake := .failed "refused"
  resolveECHSafe _ := .error "no answer"

def refusingEnv : Env where
  dohResolver := true
  cfPool := false
  certBypassMap := []
  network _ := refusing

/-- A pass over one candidate makes one handshake and gives up. -/
theorem establishPass_refusing (host : String) (rule : Rule) (initialALPN : String) (run : Run) :
    ∃ a run', establishPass refusingEnv host rule [] initialALPN run = (none, run') ∧
      (passUnder host initialALPN rule).Makes refusingEnv a ∧ a.store = run.store ∧
      a.network = refusing ∧ run'.handshakes = run.handshakes ++ [a] ∧ run'.errs ≠ [] := by
  refine ⟨_, _, rfl, ⟨rfl, _, rfl⟩, rfl, rfl, rfl, ?_⟩
  simp [Run.giveUp, refusing, refusingEnv]

/-- Under the refusing network both rules of a run make a handshake. -/
theorem establishUpstreamConn_refusing (host : String) {rule r : Rule} (hr : InForce rule r)
    (initialALPN : String) (store : List ECHProfile) :
    ∃ a ∈ (establishUpstreamConn refusingEnv host rule [] initialALPN { store }).2.handshakes,
      (passUnder host initialALPN r).Makes refusingEnv a ∧ a.network = refusing ∧
        (r = rule → a.store = store) := by
  obtain ⟨a, run, hrun, hmade, hstore, hnet, hlist, herrs⟩ :=
    establishPass_refusing host rule initialALPN { store }
  unfold establishUpstreamConn
  rw [hrun]
  simp only [afterPass, herrs, ↓reduceIte]
  cases hf : fallbackRule rule with
  | none =>
    obtain rfl : r = rule := hr.resolve_right (by simp [hf])
    refine ⟨a, ?_, hmade, hnet, fun _ => hstore⟩
    simp [hlist]
  | some next =>
    obtain ⟨b, run', hrun', hmade', _, hnet', hlist', herrs'⟩ :=
      establishPass_refusing host next initialALPN run
    simp only [Option.map_some, hrun', herrs', ↓reduceIte, hlist', hlist]
    by_cases he : r = rule
    · subst he
      exact ⟨a, by simp, hmade, hnet, fun _ => hstore⟩
    · obtain rfl : next = r := Option.some.inj (hf.symm.trans (hr.resolve_left he))
      exact ⟨b, by simp, hmade', hnet', fun h => absurd h he⟩

/-! ## The real name in the clear -/

/-- The handshake has no ECH config and its plain SNI is the target. -/
def Attempt.Leaks (host : String) (a : Attempt) : Prop :=
  a.config.encryptedClientHelloConfigList = [] ∧ toLower a.config.serverName = toLower host

/-- What protects a handshake, by what its attempt found: with ECH a stored config or a
fetched one, without ECH the camouflage token of a name with a dot. -/
def Attempt.Covered (env : Env) (host : String) (a : Attempt) : Prop :=
  if a.rule.echEnabled = true then
    storedECH a.rule a.store ≠ [] ∨
      (a.rule.echAutoUpdate = true ∧ fetchedECH env a.network host a.rule ≠ [])
  else sniPolicyOf a.rule = "fake" ∧ '.' ∈ host.toList

omit [CaseTables] in
theorem resolveRuleECHConfig_eq_nil_iff (env : Env) (net : Network) (host : String) (rule : Rule)
    (store : List ECHProfile) :
    (resolveRuleECHConfig env net host rule store).1 = [] ↔
      (rule.echEnabled = true → storedECH rule store = [] ∧
        ¬ (rule.echAutoUpdate = true ∧ fetchedECH env net host rule ≠ [])) := by
  unfold resolveRuleECHConfig
  split
  · rename_i h
    simp [h]
  · rename_i h
    simp only [Bool.not_eq_false] at h
    split
    · rename_i hs
      simp [h, hs]
    · rename_i hs
      rw [not_not] at hs
      split
      · rename_i hf
        simp [h, hs, hf.1, hf.2]
      · rename_i hf
        simp [h, hs, hf]

/-- With no name or the lower-cased target chosen, the plain SNI is the target. -/
theorem toLower_plainName {host : String} {r : Rule} (hhost : DNSName host)
    (hfake : trimSpace r.sniFake = "") (hup : NamesNoHost host r)
    (hpol : sniPolicyOf r ≠ "fake" ∨ r.echEnabled = true) :
    toLower (plainName host r) = toLower host := by
  unfold plainName
  rcases chooseUpstreamSNI_plain hfake hup hpol with hs | hs
  · simp [hs]
  · split
    · rfl
    · rw [hs, normalizeHost_dnsName hhost, toLower_toLower hhost]

/-- Without ECH the camouflage token of a name without a dot is the name. -/
theorem toLower_plainName_token {host : String} {r : Rule} (hhost : DNSName host)
    (hfake : trimSpace r.sniFake = "") (hpol : sniPolicyOf r = "fake")
    (hech : r.echEnabled = false) :
    toLower (plainName host r) = toLower host ↔ '.' ∉ host.toList := by
  rw [plainName, chooseUpstreamSNI_token hfake hpol hech, if_neg (hostToken_ne_empty _),
    normalizeHost_dnsName hhost]
  exact toLower_hostToken_eq_iff hhost

theorem leaks_iff_not_covered {env : Env} {host initialALPN : String} {r : Rule} {a : Attempt}
    (hhost : DNSName host) (hfake : trimSpace r.sniFake = "") (hup : NamesNoHost host r)
    (hm : (passUnder host initialALPN r).Makes env a) : a.Leaks host ↔ ¬ a.Covered env host := by
  have hrule : a.rule = r := hm.rule_eq
  have hnil := resolveRuleECHConfig_eq_nil_iff env a.network host r a.store
  rw [← hm.ech_eq] at hnil
  have hleak : a.Leaks host ↔ a.config.encryptedClientHelloConfigList = [] ∧
      toLower (plainName host r) = toLower host :=
    and_congr_right fun h => by rw [hm.serverName_eq h]
  rw [hleak, Attempt.Covered, hrule]
  by_cases hech : r.echEnabled = true
  · simp only [hech, true_imp_iff] at hnil
    rw [if_pos hech, hnil, not_or, not_ne_iff]
    exact and_iff_left (toLower_plainName hhost hfake hup (.inr hech))
  · rw [if_neg hech, and_iff_right (hnil.mpr fun h => absurd h hech)]
    by_cases hpol : sniPolicyOf r = "fake"
    · rw [toLower_plainName_token hhost hfake hpol (by simpa using hech), not_and]
      simp [hpol]
    · simp only [hpol, false_and, not_false_eq_true, iff_true]
      exact toLower_plainName hhost hfake hup (.inl hpol)

/-! ## Failing closed -/

/-- The handshakes of a run on a profile store. -/
def handshakesOf (env : Env) (host : String) (rule : Rule) (dialCandidates : List String)
    (initialALPN : String) (store : List ECHProfile) : List Attempt :=
  (establishUpstreamConn env host rule dialCandidates initialALPN { store }).2.handshakes

/-- What the re-run changes in the rule. -/
theorem fallbackRule_spec {rule next : Rule} (h : fallbackRule rule = some next) :
    next = { rule with mode := next.mode, echEnabled := false } := by
  unfold fallbackRule at h
  simp only at h
  split at h
  · exact Option.some.inj h ▸ rfl
  · cases h

theorem InForce.sniFake {rule r : Rule} (h : InForce rule r) : r.sniFake = rule.sniFake := by
  rcases h with rfl | h
  · rfl
  · rw [fallbackRule_spec h]

theorem InForce.sniPolicy {rule r : Rule} (h : InForce rule r) :
    sniPolicyOf r = sniPolicyOf rule := by
  rcases h with rfl | h
  · rfl
  · rw [fallbackRule_spec h]
    rfl

theorem InForce.upstreamName {rule r : Rule} (h : InForce rule r) (host : String) :
    upstreamName host r = upstreamName host rule := by
  rcases h with rfl | h
  · rfl
  · rw [fallbackRule_spec h]
    rfl

theorem InForce.namesNoHost {host : String} {rule r : Rule} (h : InForce rule r)
    (hup : NamesNoHost host rule) : NamesNoHost host r := by
  intro name hname
  exact hup name (h.upstreamName _ ▸ hname)

omit [CaseTables] in
theorem storedECH_sync {rule : Rule} (store : List ECHProfile) (id : String) (bytes : List UInt8)
    (h : storedECH rule store ≠ []) : storedECH rule (sync store id bytes) ≠ [] := by
  unfold storedECH at h ⊢
  split
  · rename_i hid
    rw [if_pos hid] at h
    exact getBinaryECHConfig_sync_ne_nil h id bytes
  · rename_i hid
    simp [hid] at h

section FailsClosed

variable {host : String} {rule : Rule} (hhost : DNSName host)
variable (hfake : trimSpace rule.sniFake = "") (hup : NamesNoHost host rule)

include hhost hfake hup

/-- A handshake of a run leaks exactly when nothing its attempt found protects it. -/
theorem handshakes_leak_iff (env : Env) (dialCandidates : List String) (initialALPN : String)
    (store : List ECHProfile) :
    ∀ a ∈ handshakesOf env host rule dialCandidates initialALPN store,
      a.Leaks host ↔ ¬ a.Covered env host := by
  refine (establishUpstreamConn_keeps (I := fun _ => True) (fun _ _ _ h => h) ?_
    ⟨trivial, fun a ha => absurd ha List.not_mem_nil⟩).made
  intro r hr a hm _
  exact leaks_iff_not_covered hhost (hr.sniFake ▸ hfake) (hr.namesNoHost hup) hm

/-- Sufficient: a usable stored config, and no re-run or one with a token. -/
theorem failsClosed_of_stored (hech : rule.echEnabled = true) {store : List ECHProfile}
    (hstored : storedECH rule store ≠ [])
    (hback : ∀ next, fallbackRule rule = some next →
      sniPolicyOf rule = "fake" ∧ '.' ∈ host.toList)
    (env : Env) (dialCandidates : List String) (initialALPN : String) :
    ∀ a ∈ handshakesOf env host rule dialCandidates initialALPN store, ¬ a.Leaks host := by
  refine (establishUpstreamConn_keeps (I := fun store => storedECH rule store ≠ [])
    storedECH_sync ?_ ⟨hstored, fun a ha => absurd ha List.not_mem_nil⟩).made
  intro r hr a hm hkept
  rw [leaks_iff_not_covered hhost (hr.sniFake ▸ hfake) (hr.namesNoHost hup) hm, not_not,
    Attempt.Covered, show a.rule = r from hm.rule_eq]
  have hpol := hr.sniPolicy
  rcases hr with rfl | hr
  · rw [if_pos hech]
    exact .inl hkept
  · have hoff : r.echEnabled = false := by rw [fallbackRule_spec hr]
    rw [if_neg (by simp [hoff]), hpol]
    exact hback r hr

/-- Necessary: the refusing network leaks through either gap. -/
theorem stored_of_failsClosed (hech : rule.echEnabled = true) {store : List ECHProfile}
    (h : ∀ a ∈ handshakesOf refusingEnv host rule [] "" store, ¬ a.Leaks host) :
    storedECH rule store ≠ [] ∧ ∀ next, fallbackRule rule = some next →
      sniPolicyOf rule = "fake" ∧ '.' ∈ host.toList := by
  have hcovered : ∀ r, InForce rule r → ∃ a : Attempt, a.Covered refusingEnv host ∧ a.rule = r ∧
      a.network = refusing ∧ (r = rule → a.store = store) := by
    intro r hr
    obtain ⟨a, ha, hm, hnet, hstore⟩ := establishUpstreamConn_refusing host hr "" store
    have hleak := leaks_iff_not_covered hhost (hr.sniFake ▸ hfake) (hr.namesNoHost hup) hm
    exact ⟨a, not_not.mp fun hc => h a ha (hleak.mpr hc), hm.rule_eq, hnet, hstore⟩
  constructor
  · obtain ⟨a, hc, hrule, hnet, hstore⟩ := hcovered rule (.inl rfl)
    rw [Attempt.Covered, hrule, if_pos hech, hstore rfl, hnet] at hc
    rcases hc with hc | hc
    · exact hc
    · exact absurd rfl hc.2
  · intro next hnext
    obtain ⟨a, hc, hrule, -, -⟩ := hcovered next (.inr hnext)
    have hoff : next.echEnabled = false := by rw [fallbackRule_spec hnext]
    rw [Attempt.Covered, hrule, if_neg (by simp [hoff])] at hc
    exact InForce.sniPolicy (.inr hnext) ▸ hc

end FailsClosed

/-- ECH fails closed in a run exactly when each of its handshakes found a config or has
a token to hide behind; and it does so on every network exactly when the profile holds
a usable config and the rule has no re-run, or one with a token. -/
theorem establishUpstreamConn_failsClosed_iff {host : String} {rule : Rule} (hhost : DNSName host)
    (hech : rule.echEnabled = true) (hfake : trimSpace rule.sniFake = "")
    (hup : NamesNoHost host rule) (store : List ECHProfile) :
    (∀ env dialCandidates initialALPN,
      (∀ a ∈ handshakesOf env host rule dialCandidates initialALPN store, ¬ a.Leaks host) ↔
        ∀ a ∈ handshakesOf env host rule dialCandidates initialALPN store,
          a.Covered env host) ∧
    ((∀ env dialCandidates initialALPN,
      ∀ a ∈ handshakesOf env host rule dialCandidates initialALPN store, ¬ a.Leaks host) ↔
        storedECH rule store ≠ [] ∧ ∀ next, fallbackRule rule = some next →
          sniPolicyOf rule = "fake" ∧ '.' ∈ host.toList) := by
  constructor
  · intro env dialCandidates initialALPN
    have hiff := handshakes_leak_iff hhost hfake hup env dialCandidates initialALPN store
    constructor
    · intro h a ha
      exact not_not.mp fun hc => h a ha ((hiff a ha).mpr hc)
    · intro h a ha hl
      exact (hiff a ha).mp hl (h a ha)
  · constructor
    · intro h
      exact stored_of_failsClosed hhost hfake hup hech (h refusingEnv [] "")
    · rintro ⟨hstored, hback⟩ env dialCandidates initialALPN
      exact failsClosed_of_stored hhost hfake hup hech hstored hback env dialCandidates initialALPN

end

/-- A rule for ECH with a profile and nothing else. -/
def echRule : Rule := { mode := "mitm", enabled := true, echEnabled := true, echProfileID := "cf" }

def sampleHost : String := "www.example.com"

theorem sampleHost_dnsName : DNSName sampleHost where
  nonempty := by decide
  chars := List.all_iff_forall_prop.mp (by decide)

theorem echRule_namesNoHost : NamesNoHost sampleHost echRule := by
  have h : upstreamName (normalizeHost sampleHost) echRule = none := by decide
  simp [NamesNoHost, h]

theorem echRule_failsClosed_stored :
    NamesNoHost sampleHost echRule ∧
      ∀ env dialCandidates initialALPN,
        ∀ a ∈ handshakesOf env sampleHost echRule dialCandidates initialALPN
          [{ id := "cf", config := "AQI=" }], ¬ a.Leaks sampleHost := by
  have hback : fallbackRule echRule = none := by decide
  have h := establishUpstreamConn_failsClosed_iff sampleHost_dnsName (by decide) (by decide)
    echRule_namesNoHost [{ id := "cf", config := "AQI=" }]
  exact ⟨echRule_namesNoHost, h.2.mpr ⟨by decide, by simp [hback]⟩⟩

/-- The profile is missing: the host goes out in the clear. -/
theorem echRule_leaks_unstored :
    DNSName sampleHost ∧ echRule.echEnabled = true ∧ trimSpace echRule.sniFake = "" ∧
      NamesNoHost sampleHost echRule ∧
      ∃ a ∈ handshakesOf refusingEnv sampleHost echRule ["203.0.113.7:443"] "" [],
        a.Leaks sampleHost := by
  refine ⟨sampleHost_dnsName, rfl, by decide, echRule_namesNoHost, _, List.mem_cons_self .., rfl, ?_⟩
  decide

/-! ## The name that is sent and the name that was chosen -/

section

variable [CaseTables]

/-- In every run and in the QUIC transport, the plain SNI is the chosen name. -/
def SendsChosen (host : String) (rule : Rule) : Prop :=
  (∀ env dialCandidates initialALPN store,
    ∀ a ∈ handshakesOf env host rule dialCandidates initialALPN store,
      a.config.encryptedClientHelloConfigList = [] →
        a.config.serverName = chooseUpstreamSNI host a.rule) ∧
  ∀ env src net store,
    let config := (newQUICRoundTripper env src net host rule store).1.tlsClientConfig
    config.encryptedClientHelloConfigList = [] →
      config.serverName = chooseUpstreamSNI host rule

theorem plainName_eq_chosen_iff (host : String) (rule : Rule) :
    plainName host rule = chooseUpstreamSNI host rule ↔
      host = "" ∨ chooseUpstreamSNI host rule ≠ "" := by
  unfold plainName
  by_cases h : chooseUpstreamSNI host rule = ""
  · simp [h]
  · simp [h]

/-- If a name is chosen under the rule, one is chosen under the rule of the re-run. -/
theorem InForce.chooses {host : String} {rule r : Rule} (hr : InForce rule r)
    (h : chooseUpstreamSNI host rule ≠ "") : chooseUpstreamSNI host r ≠ "" := by
  rw [Ne, chooseUpstreamSNI_eq_empty_iff] at h ⊢
  have hoff : rule.echEnabled = false → r.echEnabled = false := by
    rcases hr with rfl | hr
    · exact id
    · intro _
      rw [fallbackRule_spec hr]
  have hblank : namesBlank rule → namesBlank r := by
    unfold namesBlank
    rw [hr.sniPolicy, hr.sniFake, hr.upstreamName]
    exact Or.imp_right (Or.imp_left (And.imp_right hoff))
  rw [hr.sniPolicy]
  rintro (hn | ⟨hn, hb⟩)
  · exact h (.inl hn)
  · exact h (.inr ⟨hn, fun hr => hb (hblank hr)⟩)

theorem newQUICRoundTripper_plain {env : Env} {src : Sources} {net : Network} {host : String}
    {rule : Rule} {store : List ECHProfile}
    (h : (newQUICRoundTripper env src net host rule store).1.tlsClientConfig.encryptedClientHelloConfigList
      = []) :
    (newQUICRoundTripper env src net host rule store).1.tlsClientConfig.serverName =
      plainName host rule := by
  have hnil : (resolveRuleECHConfig env net host rule store).1 = [] := h
  simp only [newQUICRoundTripper, hnil, ↓reduceIte]
  rfl

/-- The chosen name is sent exactly when a name is chosen. Under the policy `none` no
name is, and the target goes out in its place. -/
theorem sendsChosen_iff (host : String) (rule : Rule) :
    SendsChosen host rule ↔
      host = "" ∨
        (sniPolicyOf rule ≠ "none" ∧ (normalizeHost host ≠ "" ∨ namesBlank rule)) := by
  have hchosen : chooseUpstreamSNI host rule ≠ "" ↔
      sniPolicyOf rule ≠ "none" ∧ (normalizeHost host ≠ "" ∨ namesBlank rule) := by
    rw [Ne, chooseUpstreamSNI_eq_empty_iff, not_or, not_and_or, not_not]
  rw [← hchosen]
  constructor
  · intro h
    obtain ⟨a, ha, hm, hnet, hstore⟩ :=
      establishUpstreamConn_refusing host (show InForce rule rule from .inl rfl) "" []
    have hnil : a.config.encryptedClientHelloConfigList = [] := by
      rw [hm.ech_eq, resolveRuleECHConfig_eq_nil_iff, hstore rfl, hnet]
      intro _
      simp [storedECH, getBinaryECHConfig, fetchedECH, fetchECH, refusingEnv, refusing]
    have hsent := h.1 refusingEnv [] "" [] a ha hnil
    rw [hm.serverName_eq hnil, show a.rule = rule from hm.rule_eq] at hsent
    exact (plainName_eq_chosen_iff host rule).mp hsent
  · intro h
    constructor
    · intro env dialCandidates initialALPN store
      refine (establishUpstreamConn_keeps (I := fun _ => True) (fun _ _ _ h => h) ?_
        ⟨trivial, fun a ha => absurd ha List.not_mem_nil⟩).made
      intro r hr a hm _ hnil
      rw [hm.serverName_eq hnil, show a.rule = r from hm.rule_eq]
      exact (plainName_eq_chosen_iff host r).mpr (h.imp id hr.chooses)
    · intro env src net store config hnil
      exact (newQUICRoundTripper_plain hnil).trans ((plainName_eq_chosen_iff host rule).mpr h)

end

/-- Under the policy `none` the target is sent, by a run and by the QUIC transport. -/
theorem policyNone_sends_target :
    let rule : Rule := { mode := "mitm", enabled := true, sniPolicy := "none" }
    chooseUpstreamSNI sampleHost rule = "" ∧
      (∃ a ∈ handshakesOf refusingEnv sampleHost rule ["203.0.113.7:443"] "" [],
        a.config.encryptedClientHelloConfigList = [] ∧ a.config.serverName = sampleHost) ∧
      (newQUICRoundTripper refusingEnv {} refusing sampleHost rule []).1.tlsClientConfig.serverName =
        sampleHost := by
  refine ⟨by decide, ⟨_, List.mem_cons_self .., rfl, ?_⟩, ?_⟩ <;> decide

end SniShaper.Establish
