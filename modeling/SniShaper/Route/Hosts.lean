import SniShaper.Config.Types
import SniShaper.Go.Net
import SniShaper.Lib.Distinct

/-! Hosts, upstream addresses and the choice of the SNI (`proxy/proxy.go`).

* `normalizeHost_dnsName`: a DNS name is only lower-cased;
* `toLower_hostToken_eq_iff`: the camouflage token hides a name exactly when the
  name has a dot;
* `chooseUpstreamSNI_plain`, `chooseUpstreamSNI_token`: what is chosen without a fake
  name and without an upstream that names a host of its own;
* `chooseUpstreamSNI_eq_empty_iff`: when no name is chosen;
* `namesNoHost_of_addresses`: upstreams that are addresses name no host. -/

namespace SniShaper.Hosts

open Strings Net Config

variable [CaseTables]

/-! ## The source's functions -/

def normalizeHost (hostport : String) : String :=
  let hostport := trimSpace hostport
  if hostport = "" then ""
  else match splitHostPort hostport with
    | .ok (host, _) => toLower (trimSpace host)
    | .error _ =>
      if hasPrefix hostport "[" ∧ hasSuffix hostport "]" then
        toLower (trimSuffix (trimPrefix hostport "[") "]")
      else toLower hostport

def ensureAddrWithPort (addr defaultPort : String) : String :=
  let addr := trimSpace addr
  if addr = "" then ""
  else match splitHostPort addr with
    | .ok (host, port) => joinHostPort host (if port = "" then defaultPort else port)
    | .error _ =>
      if hasPrefix addr "[" ∧ hasSuffix addr "]" then
        joinHostPort (trimSuffix (trimPrefix addr "[") "]") defaultPort
      else joinHostPort addr defaultPort

def resolveUpstreamHost (targetHost upstream : String) : String :=
  let upstream := trimSpace upstream
  if upstream = "" then ""
  else if contains upstream "$1" then
    let firstLabel :=
      match index targetHost "." with
      | some (i + 1) => String.ofList (targetHost.toList.take (i + 1))
      | _ => targetHost
    replaceAll upstream "$1" firstLabel
  else upstream

def resolveRuleUpstream (targetHost : String) (rule : Rule) : String :=
  let resolved := resolveUpstreamHost targetHost rule.upstream
  let trimmed := trimSpace resolved
  if trimmed = "" ∧ rule.upstreams ≠ [] then join rule.upstreams ","
  else
    let low := toLower trimmed
    if hasPrefix low "$backend_ip" ∨ hasPrefix low "$upstream_host" ∨ hasPrefix trimmed "$" then
      if rule.upstreams ≠ [] then join rule.upstreams "," else joinHostPort targetHost "443"
    else resolved

/-- The loop of `splitUpstreamCandidates`: addresses not seen before, in order. -/
def candidateLoop (defaultPort : String) : List String → List String → List String
  | [], out => out
  | p :: parts, out =>
    let addr := ensureAddrWithPort (trimSpace p) defaultPort
    if addr = "" ∨ addr ∈ out then candidateLoop defaultPort parts out
    else candidateLoop defaultPort parts (out ++ [addr])

def splitUpstreamCandidates (targetHost upstream defaultPort : String) : List String :=
  let resolved := resolveUpstreamHost targetHost upstream
  if resolved = "" then [] else candidateLoop defaultPort (split resolved ',') []

/-- The host of a candidate address. -/
def candidateHost (addr : String) : String :=
  match splitHostPort addr with
  | .ok (host, _) => normalizeHost host
  | .error _ => normalizeHost addr

def firstUpstreamHost (targetHost upstream : String) : String :=
  match splitUpstreamCandidates targetHost upstream "443" with
  | [] => ""
  | first :: _ => candidateHost first

def isLiteralIP (host : String) : Bool := (parseIP (trim host "[]")).isSome

/-- The token that stands for a host in camouflage mode. -/
def hostToken (targetHost : String) : String :=
  let token := trim targetHost "[]"
  let token := replaceAll token "." "-"
  let token := replaceAll token ":" "-"
  let token := trimSpace token
  if token = "" then "g-cn" else token

def sniPolicyOf (rule : Rule) : String := toLower (trimSpace rule.sniPolicy)

/-- The name of the first upstream, if it is one: not empty and not an IP. -/
def upstreamName (targetHost : String) (rule : Rule) : Option String :=
  let upstreamHost := firstUpstreamHost targetHost (resolveRuleUpstream targetHost rule)
  if upstreamHost ≠ "" ∧ isLiteralIP upstreamHost = false then some upstreamHost else none

/-- The name without a policy and without a fake name: that of another upstream,
else the target. -/
def autoName (targetHost : String) (rule : Rule) : String :=
  if resolveRuleUpstream targetHost rule ≠ "" then
    match upstreamName targetHost rule with
    | some upstreamHost => if upstreamHost ≠ targetHost then upstreamHost else targetHost
    | none => targetHost
  else targetHost

def chooseUpstreamSNI (targetHost : String) (rule : Rule) : String :=
  let targetHost := normalizeHost targetHost
  let policy := sniPolicyOf rule
  if policy = "none" then ""
  else if policy = "original" then targetHost
  else if policy = "fake" then
    if trimSpace rule.sniFake ≠ "" then rule.sniFake
    else if rule.echEnabled then targetHost
    else hostToken targetHost
  else if policy = "upstream" then (upstreamName targetHost rule).getD targetHost
  else if trimSpace rule.sniFake ≠ "" then rule.sniFake
  else autoName targetHost rule

/-! ## DNS names -/

def nameChars : List Char :=
  "abcdefghijklmnopqrstuvwxyzABCDEFGHIJKLMNOPQRSTUVWXYZ0123456789-_.".toList

/-- A DNS name as it is written in a URL or a CONNECT request. -/
structure DNSName (host : String) : Prop where
  nonempty : host ≠ ""
  chars : ∀ c ∈ host.toList, c ∈ nameChars

omit [CaseTables] in
theorem nameChars_plain : ∀ c ∈ nameChars,
    c.toNat < 128 ∧ isSpace c = false ∧ c ≠ ':' ∧ c ≠ '[' ∧ c ≠ ']' :=
  List.all_iff_forall_prop.mp (by decide +kernel)

omit [CaseTables] in
theorem toLower_nameChars : ∀ c ∈ nameChars,
    c.toLower ∈ nameChars ∧ c.toLower.toLower = c.toLower ∧ (c.toLower = '.' ↔ c = '.') :=
  List.all_iff_forall_prop.mp (by decide +kernel)

theorem toList_toLower {host : String} (h : DNSName host) :
    (toLower host).toList = host.toList.map Char.toLower :=
  toList_toLower_ascii fun c hc => (nameChars_plain c (h.chars c hc)).1

theorem DNSName.toLower {host : String} (h : DNSName host) : DNSName (toLower host) where
  nonempty he := by
    have hl := congrArg String.toList he
    rw [toList_toLower h] at hl
    exact h.nonempty (String.toList_eq_nil_iff.mp (List.map_eq_nil_iff.mp hl))
  chars c hc := by
    rw [toList_toLower h] at hc
    obtain ⟨x, hx, rfl⟩ := List.mem_map.mp hc
    exact (toLower_nameChars x (h.chars x hx)).1

theorem toLower_toLower {host : String} (h : DNSName host) :
    toLower (toLower host) = toLower host := by
  apply String.toList_injective
  rw [toList_toLower h.toLower, toList_toLower h, List.map_map]
  exact List.map_congr_left fun c hc => (toLower_nameChars c (h.chars c hc)).2.1

theorem dot_mem_toLower {host : String} (h : DNSName host) :
    '.' ∈ (toLower host).toList ↔ '.' ∈ host.toList := by
  rw [toList_toLower h]
  constructor
  · intro hd
    obtain ⟨c, hc, he⟩ := List.mem_map.mp hd
    exact (toLower_nameChars c (h.chars c hc)).2.2.mp he ▸ hc
  · intro hd
    exact List.mem_map.mpr ⟨'.', hd, rfl⟩

omit [CaseTables] in
theorem DNSName.not_mem {host : String} (h : DNSName host) {c : Char} (hc : c ∉ nameChars) :
    c ∉ host.toList := fun hm => hc (h.chars c hm)

omit [CaseTables] in
theorem DNSName.hostText {host : String} (h : DNSName host) : HostText host where
  bare := ⟨h.not_mem (by decide), h.not_mem (by decide),
    fun c hc => (nameChars_plain c (h.chars c hc)).2.1⟩
  colons := .inl (h.not_mem (by decide))

/-! ## Normalizing hosts -/

omit [CaseTables] in
theorem hasPrefix_open {s : String} (h : '[' ∉ s.toList) : hasPrefix s "[" = false :=
  hasPrefix_eq_false h

omit [CaseTables] in
theorem splitHostPort_hostText {host : String} (h : HostText host) :
    ∃ e, splitHostPort host = .error e := by
  rcases h.colons with hc | hc
  · exact ⟨_, splitHostPort_no_colon host hc⟩
  · exact ⟨_, splitHostPort_two_colons h.bare hc⟩

/-- The text of a host is only lower-cased. -/
theorem normalizeHost_hostText {host : String} (h : HostText host) :
    normalizeHost host = toLower host := by
  obtain ⟨e, he⟩ := splitHostPort_hostText h
  rw [normalizeHost, trimSpace_eq_self host h.bare.noSpace]
  split
  · rename_i hempty
    rw [hempty]
    rfl
  · simp [he, hasPrefix_open h.bare.noOpen]

/-- A host in brackets, as the helpers take it apart. -/
structure Bracketed (host text : String) : Prop where
  trimmed : trimSpace text = text
  nonempty : text ≠ ""
  noPort : splitHostPort text = .error missingPort
  opens : hasPrefix text "[" = true
  closes : hasSuffix text "]" = true
  inner : trimSuffix (trimPrefix text "[") "]" = host

omit [CaseTables] in
theorem bracketed_spec {host : String} (h : Bare host) :
    Bracketed host ("[" ++ host ++ "]") := by
  have hs : ("[" ++ host ++ "]").toList = '[' :: (host.toList ++ [']']) := by simp
  refine ⟨@trimSpace_between '[' ']' (by decide) (by decide) host, ?_, ?_, ?_,
    hasSuffix_iff.mpr ⟨_, rfl⟩, ?_⟩
  · intro he
    rw [he] at hs
    cases hs
  · simp only [splitHostPort, hs, idxOf_close h.noClose, List.head?_cons, ↓reduceIte,
      List.length_cons, List.length_append, List.length_nil]
    split <;> rfl
  · rw [String.append_assoc]
    exact hasPrefix_append _ _
  · rw [String.append_assoc, trimPrefix_append, trimSuffix_append]

/-- Of a host in brackets they are taken off. -/
theorem normalizeHost_bracketed {host : String} (h : Bare host) :
    normalizeHost ("[" ++ host ++ "]") = toLower host := by
  have hb := bracketed_spec h
  simp only [normalizeHost, hb.trimmed, hb.nonempty, ↓reduceIte, hb.noPort, hb.opens, hb.closes,
    and_self, hb.inner]

/-- Of a host with a port the host is kept. -/
theorem normalizeHost_joinHostPort {host port : String} (hh : HostText host) (hp : PortText port) :
    normalizeHost (joinHostPort host port) = toLower host := by
  rw [normalizeHost, trimSpace_joinHostPort hh.bare hp.bare, splitHostPort_joinHostPort hh hp]
  simp only [joinHostPort_ne_empty, ↓reduceIte, trimSpace_eq_self host hh.bare.noSpace]

/-- A part of the text, in lower case. -/
theorem normalizeHost_eq_toLower (hostport : String) :
    ∃ x : String, x.toList.Sublist hostport.toList ∧ normalizeHost hostport = toLower x := by
  have htrim := trimSpace_sublist hostport
  unfold normalizeHost
  simp only
  split
  · exact ⟨"", List.nil_sublist _, rfl⟩
  · split
    · rename_i host port hsplit
      exact ⟨_, (trimSpace_sublist host).trans ((splitHostPort_ok hsplit).1.trans htrim), rfl⟩
    · split
      · exact ⟨_, (trimSuffix_sublist _ _).trans ((trimPrefix_sublist _ _).trans htrim), rfl⟩
      · exact ⟨_, htrim, rfl⟩

/-- A DNS name is only lower-cased. -/
theorem normalizeHost_dnsName {host : String} (h : DNSName host) :
    normalizeHost host = toLower host :=
  normalizeHost_hostText h.hostText

/-! ## Addresses with a port -/

omit [CaseTables] in
/-- A host gets the default port. -/
theorem ensureAddrWithPort_host {host : String} (h : HostText host) (hne : host ≠ "")
    (defaultPort : String) :
    ensureAddrWithPort host defaultPort = joinHostPort host defaultPort := by
  obtain ⟨e, he⟩ := splitHostPort_hostText h
  simp [ensureAddrWithPort, trimSpace_eq_self host h.bare.noSpace, hne, he,
    hasPrefix_open h.bare.noOpen]

omit [CaseTables] in
/-- So does a host in brackets. -/
theorem ensureAddrWithPort_bracketed {host : String} (h : Bare host) (defaultPort : String) :
    ensureAddrWithPort ("[" ++ host ++ "]") defaultPort = joinHostPort host defaultPort := by
  have hb := bracketed_spec h
  simp only [ensureAddrWithPort, hb.trimmed, hb.nonempty, ↓reduceIte, hb.noPort, hb.opens, hb.closes,
    and_self, hb.inner]

omit [CaseTables] in
/-- A host with a port is kept. -/
theorem ensureAddrWithPort_joinHostPort {host port : String} (hh : HostText host)
    (hp : PortText port) (hne : port ≠ "") (defaultPort : String) :
    ensureAddrWithPort (joinHostPort host port) defaultPort = joinHostPort host port := by
  simp [ensureAddrWithPort, trimSpace_joinHostPort hh.bare hp.bare, joinHostPort_ne_empty,
    splitHostPort_joinHostPort hh hp, hne]

omit [CaseTables] in
theorem DNSName.trim_brackets {host : String} (h : DNSName host) : trim host "[]" = host := by
  rw [trim, trimBy_eq_self, String.ofList_toList]
  intro c hc
  have hp := nameChars_plain c (h.chars c hc)
  simp [hp.2.2.2.1, hp.2.2.2.2]

/-! ## The camouflage token -/

def dotToDash (c : Char) : Char := if c = '.' then '-' else c

omit [CaseTables] in
theorem dotToDash_nameChars : ∀ c ∈ nameChars,
    dotToDash c ∈ nameChars ∧ (dotToDash c.toLower).toLower = dotToDash c.toLower ∧
      (dotToDash c = c ↔ c ≠ '.') := by
  intro c hc
  unfold dotToDash
  refine ⟨?_, ?_, ?_⟩
  · split
    · decide
    · exact hc
  · split
    · decide
    · exact (toLower_nameChars c hc).2.1
  · by_cases hdot : c = '.'
    · simp [hdot]
    · simp [hdot]

omit [CaseTables] in
/-- The token of a DNS name is the name with its dots replaced. -/
theorem toList_hostToken {host : String} (h : DNSName host) :
    (hostToken host).toList = host.toList.map dotToDash := by
  have hchars : ∀ c ∈ host.toList.map dotToDash, c ∈ nameChars := by
    intro c hc
    obtain ⟨x, hx, rfl⟩ := List.mem_map.mp hc
    exact (dotToDash_nameChars x (h.chars x hx)).1
  have hdots : (replaceAll host "." "-").toList = host.toList.map dotToDash :=
    toList_replaceAll_char host '.' '-'
  have hcolons : replaceAll (replaceAll host "." "-") ":" "-" = replaceAll host "." "-" := by
    apply String.toList_injective
    refine (toList_replaceAll_char _ ':' '-').trans ?_
    rw [hdots, List.map_congr_left (g := id), List.map_id]
    intro c hc
    simp [(nameChars_plain c (hchars c hc)).2.2.1]
  have hspace : Strings.trimSpace (replaceAll host "." "-") = replaceAll host "." "-" := by
    apply trimSpace_eq_self
    intro c hc
    exact (nameChars_plain c (hchars c (hdots ▸ hc))).2.1
  have hne : replaceAll host "." "-" ≠ "" := by
    intro he
    rw [he] at hdots
    exact h.nonempty (String.toList_eq_nil_iff.mp (List.map_eq_nil_iff.mp hdots.symm))
  simp only [hostToken, h.trim_brackets, hcolons, hspace, hne, ↓reduceIte, hdots]

/-- The token hides the name exactly when the name has a dot. -/
theorem toLower_hostToken_eq_iff {host : String} (h : DNSName host) :
    toLower (hostToken (toLower host)) = toLower host ↔ '.' ∉ host.toList := by
  have htoken : DNSName (hostToken (toLower host)) := by
    refine ⟨fun he => ?_, fun c hc => ?_⟩
    · have hl := toList_hostToken h.toLower
      rw [he] at hl
      exact h.toLower.nonempty (String.toList_eq_nil_iff.mp (List.map_eq_nil_iff.mp hl.symm))
    · rw [toList_hostToken h.toLower] at hc
      obtain ⟨x, hx, rfl⟩ := List.mem_map.mp hc
      exact (dotToDash_nameChars x (h.toLower.chars x hx)).1
  have hsame : toLower (hostToken (toLower host)) = hostToken (toLower host) := by
    apply String.toList_injective
    rw [toList_toLower htoken, toList_hostToken h.toLower, toList_toLower h]
    simp only [List.map_map]
    exact List.map_congr_left fun c hc => (dotToDash_nameChars c (h.chars c hc)).2.1
  rw [hsame, ← dot_mem_toLower h, ← String.toList_inj, toList_hostToken h.toLower]
  constructor
  · intro he hd
    have hc := List.map_eq_map_iff.mp (he.trans (List.map_id _).symm)
    exact (dotToDash_nameChars '.' (by decide)).2.2.mp (hc '.' hd) rfl
  · intro hd
    refine (List.map_congr_left fun c hc => ?_).trans (List.map_id _)
    exact (dotToDash_nameChars c (h.toLower.chars c hc)).2.2.mpr fun he => hd (he ▸ hc)

/-! ## The choice of the SNI -/

/-- The first upstream of the rule, if it is a DNS name at all, is the target. -/
def NamesNoHost (host : String) (rule : Rule) : Prop :=
  ∀ name, upstreamName (normalizeHost host) rule = some name → name = normalizeHost host

theorem NamesNoHost.getD {host : String} {rule : Rule} (h : NamesNoHost host rule) :
    (upstreamName (normalizeHost host) rule).getD (normalizeHost host) = normalizeHost host := by
  cases hu : upstreamName (normalizeHost host) rule with
  | none => rw [Option.getD_none]
  | some name => exact h name hu

theorem NamesNoHost.autoName {host : String} {rule : Rule} (h : NamesNoHost host rule) :
    autoName (normalizeHost host) rule = normalizeHost host := by
  unfold Hosts.autoName
  split
  · cases hu : upstreamName (normalizeHost host) rule with
    | none => simp only
    | some name => simp [h name hu]
  · rfl

/-- Without a fake name and without an upstream that names a host of its own, no SNI
or the target is chosen, unless the camouflage token is. -/
theorem chooseUpstreamSNI_plain {host : String} {rule : Rule} (hfake : trimSpace rule.sniFake = "")
    (hup : NamesNoHost host rule) (hpol : sniPolicyOf rule ≠ "fake" ∨ rule.echEnabled = true) :
    chooseUpstreamSNI host rule = "" ∨ chooseUpstreamSNI host rule = normalizeHost host := by
  unfold chooseUpstreamSNI
  simp only [hfake, ne_eq, not_true_eq_false, ↓reduceIte, hup.getD]
  split
  · exact .inl rfl
  · right
    split
    · rfl
    · split
      · rename_i hf
        simp [hpol.resolve_left (not_not_intro hf)]
      · split
        · rfl
        · exact hup.autoName

theorem chooseUpstreamSNI_token {host : String} {rule : Rule} (hfake : trimSpace rule.sniFake = "")
    (hpol : sniPolicyOf rule = "fake") (hech : rule.echEnabled = false) :
    chooseUpstreamSNI host rule = hostToken (normalizeHost host) := by
  simp [chooseUpstreamSNI, hpol, hfake, hech]

omit [CaseTables] in
theorem hostToken_ne_empty (host : String) : hostToken host ≠ "" := by
  unfold hostToken
  simp only
  split
  · decide
  · assumption

/-- The rule has a name to send even when the target is blank: its fake name, the
camouflage token or the name of its upstream. -/
def namesBlank (rule : Rule) : Prop :=
  (sniPolicyOf rule ≠ "original" ∧ sniPolicyOf rule ≠ "upstream" ∧ trimSpace rule.sniFake ≠ "") ∨
  (sniPolicyOf rule = "fake" ∧ rule.echEnabled = false) ∨
  (sniPolicyOf rule ≠ "original" ∧ sniPolicyOf rule ≠ "fake" ∧ upstreamName "" rule ≠ none)

theorem upstreamName_ne_empty {host name : String} {rule : Rule}
    (h : upstreamName host rule = some name) : name ≠ "" := by
  unfold upstreamName at h
  simp only at h
  split at h
  · rename_i hc
    exact Option.some.inj h ▸ hc.1
  · cases h

/-- A rule whose upstream resolves to nothing names no host. -/
theorem upstreamName_unresolved {host : String} {rule : Rule}
    (h : resolveRuleUpstream host rule = "") : upstreamName host rule = none := by
  have hfirst : firstUpstreamHost host "" = "" := by
    simp [firstUpstreamHost, splitUpstreamCandidates, resolveUpstreamHost, Strings.trimSpace,
      trimBy]
  simp [upstreamName, h, hfirst]

omit [CaseTables] in
theorem ne_empty_of_trimSpace {s : String} (h : trimSpace s ≠ "") : s ≠ "" := by
  rintro rfl
  exact h (by decide)

/-- The automatic choice is empty only when every name it could use is. -/
theorem autoName_eq_empty_iff {target : String} {rule : Rule} :
    autoName target rule = "" ↔ target = "" ∧ upstreamName target rule = none := by
  unfold autoName
  cases hu : upstreamName target rule with
  | none => simp
  | some name =>
    have hname := upstreamName_ne_empty hu
    have hres : resolveRuleUpstream target rule ≠ "" := by
      intro hr
      rw [upstreamName_unresolved hr] at hu
      cases hu
    by_cases ht : name = target
    · simp [hres, ht, ht ▸ hname]
    · simp [hres, ht, hname]

theorem chooseUpstreamSNI_eq_empty_iff (host : String) (rule : Rule) :
    chooseUpstreamSNI host rule = "" ↔
      sniPolicyOf rule = "none" ∨ (normalizeHost host = "" ∧ ¬ namesBlank rule) := by
  unfold chooseUpstreamSNI namesBlank
  generalize normalizeHost host = target
  by_cases hnone : sniPolicyOf rule = "none"
  · simp [hnone]
  by_cases horig : sniPolicyOf rule = "original"
  · simp [horig]
  by_cases hfake : sniPolicyOf rule = "fake"
  · by_cases hs : trimSpace rule.sniFake = ""
    · by_cases he : rule.echEnabled = true
      · simp [hfake, hs, he]
      · simp [hfake, hs, he, hostToken_ne_empty]
    · simp [hfake, hs, ne_empty_of_trimSpace hs]
  by_cases hup : sniPolicyOf rule = "upstream"
  · cases hu : upstreamName target rule with
    | none =>
      simp only [hup, hu, Option.getD_none]
      constructor
      · rintro rfl
        simp [hu]
      · simp +contextual
    | some name =>
      simp only [hup, hu, Option.getD_some]
      constructor
      · intro he
        exact absurd he (upstreamName_ne_empty hu)
      · rintro (h | ⟨rfl, h⟩)
        · simp at h
        · simp [hu] at h
  by_cases hs : trimSpace rule.sniFake = ""
  · simp only [hnone, horig, hfake, hup, hs, ↓reduceIte, ne_eq, not_true_eq_false, false_or,
      autoName_eq_empty_iff]
    constructor
    · rintro ⟨rfl, hu⟩
      simp [hu]
    · rintro ⟨rfl, hu⟩
      exact ⟨rfl, by simpa using hu⟩
  · simp [hnone, horig, hfake, hup, hs, ne_empty_of_trimSpace hs]

/-! ## Rules whose upstreams are addresses -/

/-- A comma-separated list of IP addresses, each with or without a port. -/
structure AddressList (s : String) : Prop where
  plain : ∀ c ∈ s.toList, c.toNat < 128 ∧ c ≠ '$'
  literal : ∀ p ∈ split (trimSpace s) ',',
    ensureAddrWithPort (trimSpace p) "443" = "" ∨
      isLiteralIP (candidateHost (ensureAddrWithPort (trimSpace p) "443")) = true

omit [CaseTables] in
theorem candidateLoop_eq_collect (port : String) (parts out : List String) :
    candidateLoop port parts out =
      Distinct.collect (fun p => ensureAddrWithPort (trimSpace p) port) "" parts out := by
  induction parts generalizing out with
  | nil => rfl
  | cons p parts ih => simp only [candidateLoop, Distinct.collect, ih]

omit [CaseTables] in
theorem mem_candidateLoop {port c : String} {parts : List String} :
    c ∈ candidateLoop port parts [] ↔
      c ≠ "" ∧ ∃ p ∈ parts, ensureAddrWithPort (trimSpace p) port = c := by
  rw [candidateLoop_eq_collect, Distinct.mem_collect]
  simp

omit [CaseTables] in
theorem resolveUpstreamHost_plain (host : String) {s : String} (h : '$' ∉ s.toList) :
    resolveUpstreamHost host s = trimSpace s := by
  have hd : '$' ∉ (trimSpace s).toList := by
    rw [trimSpace, String.toList_ofList]
    exact fun hm => h (mem_of_mem_trimBy hm)
  have hc : contains (trimSpace s) "$1" = false := contains_eq_false hd
  unfold resolveUpstreamHost
  simp only [hc, Bool.false_eq_true, ↓reduceIte]
  split
  · exact (‹trimSpace s = ""›).symm
  · rfl

theorem firstUpstreamHost_addresses (host : String) {s : String} (h : AddressList s) :
    firstUpstreamHost host s = "" ∨ isLiteralIP (firstUpstreamHost host s) = true := by
  unfold firstUpstreamHost
  cases hc : splitUpstreamCandidates host s "443" with
  | nil => exact .inl rfl
  | cons first rest =>
    have hmem : first ∈ splitUpstreamCandidates host s "443" := hc ▸ List.mem_cons_self ..
    unfold splitUpstreamCandidates at hmem
    rw [resolveUpstreamHost_plain host (fun hd => (h.plain _ hd).2 rfl)] at hmem
    simp only at hmem
    split at hmem
    · cases hmem
    · obtain ⟨hne, p, hp, rfl⟩ := mem_candidateLoop.mp hmem
      exact .inr ((h.literal p hp).resolve_left hne)

theorem AddressList.trimSpace {s : String} (h : AddressList s) : AddressList (trimSpace s) where
  plain c hc := by
    rw [Strings.trimSpace, String.toList_ofList] at hc
    exact h.plain c (mem_of_mem_trimBy hc)
  literal := by
    rw [trimSpace_trimSpace]
    exact h.literal

omit [CaseTables] in
theorem eq_dollar_of_toLower {c : Char} (hc : c.toNat < 128) (h : c.toLower = '$') : c = '$' :=
  @ascii_forall (fun c => c.toLower = '$' → c = '$') (by decide +kernel) c hc h

theorem AddressList.toLower_plain {s : String} (h : AddressList s) : '$' ∉ (toLower s).toList := by
  rw [toLower, String.toList_ofList]
  intro hd
  obtain ⟨c, hc, he⟩ := List.mem_map.mp hd
  have hp := h.plain c hc
  rw [CaseTables.lower_ascii c hp.1] at he
  exact hp.2 (eq_dollar_of_toLower hp.1 he)

/-- A rule whose upstreams are addresses names no host. -/
theorem namesNoHost_of_addresses (host : String) {rule : Rule} (h : AddressList rule.upstream)
    (hs : AddressList (join rule.upstreams ",")) : NamesNoHost host rule := by
  have hdollar : ∀ {s : String}, AddressList s → '$' ∉ s.toList :=
    fun ha hd => (ha.plain _ hd).2 rfl
  have ht : AddressList (Strings.trimSpace rule.upstream) := h.trimSpace
  have hb : hasPrefix (toLower (Strings.trimSpace rule.upstream)) "$backend_ip" = false :=
    hasPrefix_eq_false ht.toLower_plain
  have hu : hasPrefix (toLower (Strings.trimSpace rule.upstream)) "$upstream_host" = false :=
    hasPrefix_eq_false ht.toLower_plain
  have hp : hasPrefix (Strings.trimSpace rule.upstream) "$" = false :=
    hasPrefix_eq_false (hdollar ht)
  have hres : AddressList (resolveRuleUpstream (normalizeHost host) rule) := by
    unfold resolveRuleUpstream
    simp only [resolveUpstreamHost_plain _ (hdollar h), trimSpace_trimSpace, hb, hu, hp,
      Bool.false_eq_true, or_self, ↓reduceIte]
    split
    · exact hs
    · exact ht
  intro name hname
  unfold upstreamName at hname
  simp only at hname
  split at hname
  · rename_i hc
    rcases firstUpstreamHost_addresses (normalizeHost host) hres with he | he
    · exact absurd he hc.1
    · rw [hc.2] at he
      cases he
  · cases hname

example : @AddressList asciiTables " 1.2.3.4, [2001:db8::1]:8443 ," :=
  @AddressList.mk asciiTables _ (List.all_iff_forall_prop.mp (by decide)) (by decide)

end SniShaper.Hosts
