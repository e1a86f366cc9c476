import SniShaper.Go.Literals
import SniShaper.Route.Candidates

/-! Rules that restrict the family of the addresses (`DNSMode` of `proxy/proxy.go`): what the
resolver answers is filtered, and when nothing is left the target's own address is dialled.

* `buildDialCandidates_blank`: the candidates of a rule that names no upstream;
* `reorder_family`: what the filter leaves;
* `mem_resolveDomainCandidates_family`: the answers that are dialled;
* `family_enforced_iff`: when every candidate is an address of the family. -/

namespace SniShaper.Candidates

open Strings Net Config Hosts

/-- The candidate is the address of a literal IP of the family, `true` for IPv4. -/
def FamilyLiteral (v4 : Bool) (candidate : String) : Prop :=
  ∃ host port ip, splitHostPort candidate = .ok (host, port) ∧ parseIP host = some ip ∧
    isV4 ip = v4

/-- The mode that asks for a family only. -/
def familyMode (v4 : Bool) : String := if v4 then "ipv4_only" else "ipv6_only"

/-- The resolver gives the address for the name. -/
def Answered (src : Sources) (name : String) (ip : IP) : Prop :=
  ∃ resolveIPAddrs ips, src.dohResolver = some resolveIPAddrs ∧ resolveIPAddrs name = .ok ips ∧
    ip ∈ ips

section

variable [CaseTables]

/-! ## Names that are no addresses -/

omit [CaseTables] in
theorem isLiteralIP_dnsName {name : String} (h : DNSName name) :
    isLiteralIP name = (parseIP name).isSome := by
  rw [isLiteralIP, h.trim_brackets]

omit [CaseTables] in
/-- A DNS name that is an address is made of digits and dots. -/
theorem digits_of_parseIP {name : String} (h : DNSName name) {ip : IP}
    (hip : parseIP name = some ip) : ∀ c ∈ name.toList, c = '.' ∨ c.isDigit = true := by
  unfold parseIP at hip
  simp only at hip
  split at hip
  · cases hip
  · split at hip
    · obtain ⟨bytes, hbytes, -⟩ := Option.map_eq_some_iff.mp hip
      exact (parseIPv4_some hbytes).2
    · rename_i hcolon
      exact absurd (List.mem_of_find?_eq_some hcolon) (h.not_mem (by decide))
    · cases hip

omit [CaseTables] in
theorem lower_digit : ∀ c ∈ nameChars,
    c.toLower = '.' ∨ c.toLower.isDigit = true → c.toLower = c :=
  List.all_iff_forall_prop.mp (by decide +kernel)

/-- Lower-casing makes no address of a name. -/
theorem parseIP_toLower {name : String} (h : DNSName name) (hip : parseIP name = none) :
    parseIP (toLower name) = none := by
  by_contra hsome
  obtain ⟨ip, hlower⟩ := Option.ne_none_iff_exists'.mp hsome
  have hdigits := digits_of_parseIP h.toLower hlower
  have hsame : toLower name = name := by
    apply String.toList_injective
    rw [toList_toLower h]
    refine (List.map_congr_left fun c hc => ?_).trans (List.map_id _)
    refine lower_digit c (h.chars c hc) (hdigits c.toLower ?_)
    rw [toList_toLower h]
    exact List.mem_map_of_mem hc
  rw [hsame, hip] at hlower
  cases hlower

/-! ## Rules that name no upstream

`Upstreams` may hold blank entries. Two of them are joined to a text that is not blank, which
is then split into no candidate. -/

theorem resolveRuleUpstream_unnamed (targetHost : String) {rule : Rule}
    (hup : trimSpace rule.upstream = "") :
    resolveRuleUpstream targetHost rule = join rule.upstreams "," := by
  by_cases hups : rule.upstreams = []
  · rw [resolveRuleUpstream_none targetHost hup hups, hups]
    rfl
  · have hblank : trimSpace "" = "" := by decide
    simp [resolveRuleUpstream, resolveUpstreamHost, hup, hups, hblank]

omit [CaseTables] in
theorem splitUpstreamCandidates_blank (targetHost : String) {s : String}
    (h : ∀ c ∈ s.toList, c = ',' ∨ isSpace c = true) :
    splitUpstreamCandidates targetHost s "443" = [] := by
  have hplain : '$' ∉ s.toList := fun hc => absurd (h _ hc) (by decide)
  have hnil : candidateLoop "443" (split (trimSpace s) ',') [] = [] := by
    rw [List.eq_nil_iff_forall_not_mem]
    intro c hc
    obtain ⟨hne, part, hpart, rfl⟩ := mem_candidateLoop.mp hc
    have hspaces : trimSpace part = "" := by
      rw [trimSpace_eq_empty_iff]
      intro d hd
      refine (h d ((trimSpace_sublist s).mem (mem_of_mem_split hpart hd))).resolve_left ?_
      rintro rfl
      exact not_mem_of_mem_split hpart hd
    rw [hspaces] at hne
    exact hne (by decide)
  unfold splitUpstreamCandidates
  simp only [resolveUpstreamHost_plain targetHost hplain, hnil, ite_self]

omit [CaseTables] in
theorem trimSpace_join_blank_iff {upstreams : List String}
    (h : ∀ u ∈ upstreams, trimSpace u = "") :
    trimSpace (join upstreams ",") = "" ↔ upstreams.length ≤ 1 := by
  constructor
  · intro hblank
    by_contra hlength
    have hcount := length_le_count_join upstreams ','
    have hcomma : ',' ∈ (join upstreams ",").toList :=
      List.count_pos_iff.mp (by rw [show "," = String.singleton ',' from rfl]; omega)
    exact absurd (trimSpace_eq_empty_iff.mp hblank _ hcomma) (by decide)
  · intro hlength
    match upstreams, hlength, h with
    | [], _, _ => decide
    | [u], _, h =>
      have hu := h u (List.mem_singleton_self u)
      simpa [join, List.intercalate] using hu

/-- A rule that names no upstream, with at most one blank entry, asks the resolver for the
target. -/
theorem buildDialCandidates_blank (src : Sources) (targetHost targetAddr : String) {rule : Rule}
    {mode : String} (hmode : resolvesTarget mode = true) (hup : trimSpace rule.upstream = "")
    (hups : ∀ u ∈ rule.upstreams, trimSpace u = "") (hpool : rule.useCFPool = false) :
    buildDialCandidates src targetHost targetAddr rule mode =
      if rule.upstreams.length ≤ 1 ∧
          resolveDomainCandidates src targetHost "443" rule.dnsMode ≠ [] then
        resolveDomainCandidates src targetHost "443" rule.dnsMode
      else [targetAddr] := by
  have hwarp : equalFold "" "warp" = false := rfl
  have hchars : ∀ c ∈ (join rule.upstreams ",").toList, c = ',' ∨ isSpace c = true := by
    intro c hc
    rcases mem_join hc with hsep | ⟨u, hu, hcu⟩
    · exact .inl (by simpa using hsep)
    · exact .inr (trimSpace_eq_empty_iff.mp (hups u hu) c hcu)
  simp only [buildDialCandidates, hup, hwarp, resolveRuleUpstream_unnamed targetHost hup, hmode,
    poolCandidates_unused src hpool, ne_eq, trimSpace_join_blank_iff hups, upstreamCandidates,
    splitUpstreamCandidates_blank targetHost hchars, Bool.false_eq_true, ↓reduceIte]
  by_cases hlength : rule.upstreams.length ≤ 1
  · simp [hlength]
  · simp [hlength]

/-! ## The filter -/

theorem reorder_family {v4 : Bool} {dnsMode : String} (h : normalizeDNSMode dnsMode = familyMode v4)
    (ips : List IP) : reorderIPsByDNSMode ips dnsMode = ips.filter fun ip => isV4 ip = v4 := by
  unfold reorderIPsByDNSMode
  rw [h]
  cases v4 with
  | true => simp [familyMode]
  | false => simp [familyMode]

theorem mem_resolveDomainCandidates_family (src : Sources) {v4 : Bool}
    {host name dnsMode : String} (h : normalizeDNSMode dnsMode = familyMode v4)
    (hhost : normalizeHost host = name) (hname : DNSName name) (hip : parseIP name = none)
    (c : String) :
    c ∈ resolveDomainCandidates src host "443" dnsMode ↔
      ∃ ip, Answered src name ip ∧ isV4 ip = v4 ∧ joinHostPort (ipString ip) "443" = c := by
  have hport : PortText "443" := portText_toString 443
  have hask : ¬ (name = "" ∨ isLiteralIP name = true) := by
    rw [isLiteralIP_dnsName hname, hip]
    simpa using hname.nonempty
  unfold resolveDomainCandidates Answered
  simp only [hhost, if_neg hask]
  cases src.dohResolver with
  | none => simp
  | some resolveIPAddrs =>
    cases hanswer : resolveIPAddrs name with
    | error err => simp [hanswer]
    | ok ips =>
      simp only [hanswer, mem_dedupeDialCandidates, reorder_family h, List.mem_map,
        List.mem_filter, decide_eq_true_eq]
      constructor
      · rintro ⟨-, x, ⟨ip, ⟨hmem, hfamily⟩, rfl⟩, rfl⟩
        refine ⟨ip, ⟨_, ips, rfl, hanswer, hmem⟩, hfamily, ?_⟩
        rw [trimSpace_joinHostPort (bare_ipString ip) hport.bare]
      · rintro ⟨ip, ⟨_, ips', hset, hips, hmem⟩, hfamily, rfl⟩
        obtain rfl := Option.some.inj hset
        rw [hanswer] at hips
        obtain rfl := Except.ok.inj hips
        exact ⟨joinHostPort_ne_empty _ _, _, ⟨ip, ⟨hmem, hfamily⟩, rfl⟩,
          trimSpace_joinHostPort (bare_ipString ip) hport.bare⟩

/-- **Restricted families.** For a target that is a DNS name, under a rule without upstream
and pool that asks for one family, every candidate is an address of the family exactly when
the resolver gives one and is asked. -/
theorem family_enforced_iff (src : Sources) (v4 : Bool) {name port targetHost mode : String}
    {rule : Rule} (hname : DNSName name) (hliteral : isLiteralIP name = false)
    (hport : PortText port) (hhost : normalizeHost targetHost = toLower name)
    (hup : trimSpace rule.upstream = "") (hups : ∀ u ∈ rule.upstreams, trimSpace u = "")
    (hpool : rule.useCFPool = false) (hdns : normalizeDNSMode rule.dnsMode = familyMode v4)
    (hmode : resolvesTarget mode = true)
    (hbytes : ∀ ip, Answered src (toLower name) ip → ip.length = 4 ∨ ip.length = 16) :
    (∀ c ∈ buildDialCandidates src targetHost (joinHostPort name port) rule mode,
        FamilyLiteral v4 c) ↔
      rule.upstreams.length ≤ 1 ∧ ∃ ip, Answered src (toLower name) ip ∧ isV4 ip = v4 := by
  have hip : parseIP name = none := by
    rw [isLiteralIP_dnsName hname] at hliteral
    simpa using hliteral
  have hmem := mem_resolveDomainCandidates_family src hdns hhost hname.toLower
    (parseIP_toLower hname hip)
  rw [buildDialCandidates_blank src targetHost (joinHostPort name port) hmode hup hups hpool]
  constructor
  · intro hall
    by_contra hnone
    have hname_dialled : ¬ (rule.upstreams.length ≤ 1 ∧
        resolveDomainCandidates src targetHost "443" rule.dnsMode ≠ []) := by
      rintro ⟨hlength, hne⟩
      obtain ⟨c, hc⟩ := List.exists_mem_of_ne_nil _ hne
      obtain ⟨ip, hanswered, hfamily, -⟩ := (hmem c).mp hc
      exact hnone ⟨hlength, ip, hanswered, hfamily⟩
    rw [if_neg hname_dialled] at hall
    obtain ⟨host, p, ip, hsplit, hparse, -⟩ := hall _ (List.mem_singleton_self _)
    rw [splitHostPort_joinHostPort hname.hostText hport] at hsplit
    obtain ⟨rfl, rfl⟩ := Prod.mk.inj (Except.ok.inj hsplit)
    rw [hip] at hparse
    cases hparse
  · rintro ⟨hlength, ip, hanswered, hfamily⟩
    have hne : resolveDomainCandidates src targetHost "443" rule.dnsMode ≠ [] :=
      List.ne_nil_of_mem ((hmem _).mpr ⟨ip, hanswered, hfamily, rfl⟩)
    rw [if_pos ⟨hlength, hne⟩]
    intro c hc
    obtain ⟨ip', hanswered', hfamily', rfl⟩ := (hmem c).mp hc
    have hsize := hbytes ip' hanswered'
    obtain ⟨p16, hp16⟩ := Option.isSome_iff_exists.mp (to16_isSome hsize)
    exact ⟨_, "443", p16, splitHostPort_joinHostPort (hostText_ipString hsize)
      (portText_toString 443), (parseIP_ipString hsize).trans hp16, (isV4_to16 hp16).trans hfamily'⟩

end

/-- A rule for one family. -/
def familyRule (v4 : Bool) : Rule := { mode := "mitm", dnsMode := familyMode v4 }

theorem v4_answer_enforced :
    DNSName "a.example" ∧ isLiteralIP "a.example" = false ∧
      ∀ c ∈ buildDialCandidates oneAddress "a.example" (joinHostPort "a.example" "443")
        (familyRule true) "mitm", FamilyLiteral true c := by
  have hname : DNSName "a.example" :=
    ⟨by decide, List.all_iff_forall_prop.mp (by decide)⟩
  refine ⟨hname, by decide, ?_⟩
  refine (family_enforced_iff oneAddress true hname (by decide) (portText_toString 443) (by decide)
    (by decide) (by simp [familyRule]) rfl (by decide) (by decide) ?_).mpr ⟨by decide, ?_⟩
  · rintro ip ⟨f, ips, hset, hips, hmem⟩
    obtain rfl := Option.some.inj hset
    obtain rfl := Except.ok.inj hips
    rw [List.mem_singleton.mp hmem]
    exact .inr rfl
  · exact ⟨_, ⟨_, _, rfl, rfl, List.mem_singleton_self _⟩, by decide⟩

/-- The only answer is of the other family, and the unresolved name is dialled. -/
theorem v6_only_name_dialled :
    buildDialCandidates oneAddress "a.example" "a.example:443" (familyRule false) "mitm" =
        ["a.example:443"] ∧
      ¬ FamilyLiteral false "a.example:443" := by
  refine ⟨by decide, ?_⟩
  rintro ⟨host, port, ip, hsplit, hparse, -⟩
  have hname : splitHostPort "a.example:443" = .ok ("a.example", "443") := by decide
  have hnone : parseIP "a.example" = none := by decide
  rw [hname] at hsplit
  obtain ⟨rfl, rfl⟩ := Prod.mk.inj (Except.ok.inj hsplit)
  rw [hnone] at hparse
  cases hparse

end SniShaper.Candidates
