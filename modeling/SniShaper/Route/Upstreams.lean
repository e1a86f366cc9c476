import SniShaper.Route.Candidates

/-! Rules whose upstream is a list of hosts, and what `buildDialCandidates` of
`proxy/proxy.go` makes of it.

* `mem_splitUpstreamCandidates`: every entry is a candidate, on its own port;
* `candidates_entries`: the answer for the first entry's name replaces them all;
* `keepsEntries_iff`: when the entries that are addresses are tried and the answers are
  dialled on the port of their entry. -/

namespace SniShaper.Candidates

open Strings Net Config Hosts

/-! ## Entries -/

/-- How an entry is written: `h`, `[h]` or `h:p`. -/
inductive Form where
  | host
  | bracketed
  | withPort (port : String)
  deriving DecidableEq, Repr

/-- An entry of a list of upstreams: an IP address or a DNS name, and a port or none. -/
structure Entry where
  host : String
  form : Form
  address_or_name : (parseIP host).isSome = true ∨ DNSName host
  port_text : ∀ port, form = .withPort port → port ≠ "" ∧ ∀ c ∈ port.toList, c ∈ nameChars

namespace Entry

def text (e : Entry) : String :=
  match e.form with
  | .host => e.host
  | .bracketed => "[" ++ e.host ++ "]"
  | .withPort port => joinHostPort e.host port

def port (e : Entry) : String :=
  match e.form with
  | .withPort port => port
  | _ => "443"

/-- The entry is an IP address. -/
def Literal (e : Entry) : Prop := (parseIP e.host).isSome = true

def address (e : Entry) : String := joinHostPort e.host e.port

end Entry

/-- `s` is a comma-separated list of the entries, with spaces around them. -/
def EntryList (s : String) (entries : List Entry) : Prop :=
  (split (trimSpace s) ',').map trimSpace = entries.map Entry.text

/-- The characters of hosts. -/
def hostChars : List Char := ':' :: nameChars

theorem hostChars_plain : ∀ c ∈ hostChars, c.toNat < 128 ∧ isSpace c = false ∧ c ≠ '$' :=
  List.all_iff_forall_prop.mp (by decide +kernel)

namespace Entry

theorem host_spec (e : Entry) : HostText e.host ∧ ∀ c ∈ e.host.toList, c ∈ hostChars := by
  have haddr : ∀ c ∈ addressChars, c ∈ hostChars := List.all_iff_forall_prop.mp (by decide +kernel)
  rcases e.address_or_name with h | h
  · obtain ⟨ip, hip⟩ := Option.isSome_iff_exists.mp h
    obtain ⟨hchars, htext⟩ := hostText_of_parseIP hip
    exact ⟨htext, fun c hc => haddr c (hchars c hc)⟩
  · exact ⟨h.hostText, fun c hc => List.mem_cons_of_mem _ (h.chars c hc)⟩

theorem host_ne_empty (e : Entry) : e.host ≠ "" := by
  intro he
  rcases e.address_or_name with h | h
  · rw [he] at h
    exact absurd h (by decide)
  · exact h.nonempty he

theorem port_spec (e : Entry) : PortText e.port ∧ e.port ≠ "" ∧ '$' ∉ e.port.toList := by
  unfold port
  split
  · rename_i port hform
    obtain ⟨hne, hchars⟩ := e.port_text port hform
    have hname : DNSName port := ⟨hne, hchars⟩
    exact ⟨⟨hname.hostText.bare, hname.not_mem (by decide)⟩, hne, hname.not_mem (by decide)⟩
  · exact ⟨portText_toString 443, by decide, by decide⟩

/-- An entry stands for its address. -/
theorem ensureAddrWithPort_text (e : Entry) : ensureAddrWithPort e.text "443" = e.address := by
  have hhost := e.host_spec.1
  obtain ⟨hport, hne, -⟩ := e.port_spec
  unfold port at hport hne
  unfold text address port
  cases hform : e.form with
  | host => exact ensureAddrWithPort_host hhost e.host_ne_empty "443"
  | bracketed => exact ensureAddrWithPort_bracketed hhost.bare "443"
  | withPort port =>
    rw [hform] at hport hne
    exact ensureAddrWithPort_joinHostPort hhost hport hne "443"

theorem mem_text {e : Entry} {c : Char} (h : c ∈ e.text.toList) :
    c ∈ e.host.toList ∨ c ∈ e.port.toList ∨ c ∈ "[]:".toList := by
  unfold text at h
  unfold port
  cases hf : e.form with
  | host =>
    rw [hf] at h
    exact .inl h
  | bracketed =>
    rw [hf] at h
    simp only [String.toList_append, List.mem_append] at h
    rcases h with (h | h) | h
    · right; right
      revert h
      simp +contextual
    · exact .inl h
    · right; right
      revert h
      simp +contextual
  | withPort port =>
    rw [hf] at h
    exact mem_joinHostPort h

theorem dollar_not_mem_text (e : Entry) : '$' ∉ e.text.toList := by
  intro h
  rcases mem_text h with h | h | h
  · exact (hostChars_plain _ (e.host_spec.2 _ h)).2.2 rfl
  · exact e.port_spec.2.2 h
  · exact absurd h (by decide)

theorem mem_text_of_host {e : Entry} {c : Char} (h : c ∈ e.host.toList) : c ∈ e.text.toList := by
  unfold text
  cases e.form with
  | host => exact h
  | bracketed => simp [h]
  | withPort port =>
    simp only [joinHostPort]
    split <;> simp [h]

theorem text_ne_empty (e : Entry) : e.text ≠ "" := by
  intro he
  have haddr := e.ensureAddrWithPort_text
  rw [he] at haddr
  exact joinHostPort_ne_empty _ _ haddr.symm

end Entry

section

variable [CaseTables]

omit [CaseTables] in
theorem hostChars_lower : ∀ c ∈ hostChars,
    c.toLower ∈ hostChars ∧ c.toLower.toLower = c.toLower ∧ (c.toLower = ':' ↔ c = ':') ∧
      c.toLower ≠ '[' ∧ c.toLower ≠ ']' := by
  intro c hc
  rcases List.mem_cons.mp hc with rfl | hname
  · decide
  · obtain ⟨hlower, hidem, -⟩ := toLower_nameChars c hname
    obtain ⟨-, -, hcolon, hopen, hclose⟩ := nameChars_plain _ hlower
    have hcolon' := (nameChars_plain c hname).2.2.1
    exact ⟨List.mem_cons_of_mem _ hlower, hidem, iff_of_false hcolon hcolon', hopen, hclose⟩

theorem toList_toLower_hostChars {host : String} (hc : ∀ c ∈ host.toList, c ∈ hostChars) :
    (toLower host).toList = host.toList.map Char.toLower :=
  toList_toLower_ascii fun c h => (hostChars_plain c (hc c h)).1

/-- A host in lower case is a host. -/
theorem hostText_toLower {host : String} (ht : HostText host)
    (hc : ∀ c ∈ host.toList, c ∈ hostChars) : HostText (toLower host) := by
  have hmem : ∀ c ∈ (toLower host).toList, ∃ x ∈ hostChars, x ∈ host.toList ∧ c = x.toLower := by
    intro c h
    rw [toList_toLower_hostChars hc] at h
    obtain ⟨x, hx, rfl⟩ := List.mem_map.mp h
    exact ⟨x, hc x hx, hx, rfl⟩
  have hcount : (toLower host).toList.count ':' = host.toList.count ':' := by
    rw [toList_toLower_hostChars hc, List.count_eq_countP, List.countP_map, List.count_eq_countP]
    refine List.countP_congr fun c h => ?_
    simpa using (hostChars_lower c (hc c h)).2.2.1
  refine ⟨⟨fun h => ?_, fun h => ?_, fun c h => ?_⟩, ?_⟩
  · obtain ⟨x, hx, -, he⟩ := hmem _ h
    exact (hostChars_lower x hx).2.2.2.1 he.symm
  · obtain ⟨x, hx, -, he⟩ := hmem _ h
    exact (hostChars_lower x hx).2.2.2.2 he.symm
  · obtain ⟨x, hx, -, rfl⟩ := hmem c h
    exact (hostChars_plain _ (hostChars_lower x hx).1).2.1
  · rw [hcount]
    refine ht.colons.imp (fun hno h => ?_) id
    obtain ⟨x, hx, hmem, he⟩ := hmem _ h
    exact hno ((hostChars_lower x hx).2.2.1.mp he.symm ▸ hmem)

/-- Normalizing a host once is enough. -/
theorem normalizeHost_idem {host : String} (ht : HostText host)
    (hc : ∀ c ∈ host.toList, c ∈ hostChars) :
    normalizeHost (normalizeHost host) = normalizeHost host := by
  rw [normalizeHost_hostText ht, normalizeHost_hostText (hostText_toLower ht hc)]
  apply toLower_eq_self
  intro c h
  rw [toList_toLower_hostChars hc] at h
  obtain ⟨x, hx, rfl⟩ := List.mem_map.mp h
  obtain ⟨hlower, hsame, -⟩ := hostChars_lower x (hc x hx)
  exact ⟨(hostChars_plain _ hlower).1, hsame⟩

/-! ## Lists of entries -/

omit [CaseTables] in
/-- What is no space and no comma stands in an entry. -/
theorem EntryList.mem_text {s : String} {entries : List Entry} (h : EntryList s entries) {c : Char}
    (hc : c ∈ s.toList) (hspace : isSpace c = false) :
    c = ',' ∨ ∃ e ∈ entries, c ∈ e.text.toList := by
  have htrim : ∀ {t : String}, c ∈ t.toList → c ∈ (trimSpace t).toList := by
    intro t ht
    rw [trimSpace, String.toList_ofList]
    exact mem_trimBy ht hspace
  refine (mem_split (htrim hc)).imp id ?_
  rintro ⟨part, hpart, hmem⟩
  have htext : trimSpace part ∈ entries.map Entry.text := h ▸ List.mem_map_of_mem hpart
  obtain ⟨e, he, hte⟩ := List.mem_map.mp htext
  exact ⟨e, he, hte ▸ htrim hmem⟩

omit [CaseTables] in
theorem EntryList.mem_of_text {s : String} {entries : List Entry} (h : EntryList s entries)
    {e : Entry} (he : e ∈ entries) {c : Char} (hc : c ∈ e.text.toList) : c ∈ s.toList := by
  have htext : e.text ∈ (split (trimSpace s) ',').map trimSpace :=
    h.symm ▸ List.mem_map_of_mem he
  obtain ⟨part, hpart, hte⟩ := List.mem_map.mp htext
  rw [← hte] at hc
  exact (trimSpace_sublist s).mem (mem_of_mem_split hpart ((trimSpace_sublist part).mem hc))

omit [CaseTables] in
theorem EntryList.ne_empty {s : String} {first : Entry} {rest : List Entry}
    (h : EntryList s (first :: rest)) : trimSpace s ≠ "" := by
  intro he
  have hempty : (split "" ',').map trimSpace = [""] := by decide
  rw [EntryList, he, hempty] at h
  exact first.text_ne_empty (List.cons.inj h).1.symm

omit [CaseTables] in
/-- The list is not changed by the target. -/
theorem EntryList.splitUpstreamCandidates {s : String} {first : Entry} {rest : List Entry}
    (h : EntryList s (first :: rest)) (targetHost : String) :
    splitUpstreamCandidates targetHost s "443" =
      candidateLoop "443" (split (trimSpace s) ',') [] := by
  have hdollar : '$' ∉ s.toList := by
    intro hc
    rcases h.mem_text hc (by decide) with hc | ⟨e, -, hc⟩
    · exact absurd hc (by decide)
    · exact e.dollar_not_mem_text hc
  simp only [Hosts.splitUpstreamCandidates, resolveUpstreamHost_plain targetHost hdollar,
    h.ne_empty, ↓reduceIte]

omit [CaseTables] in
/-- Every entry is a candidate, on its own port. -/
theorem mem_splitUpstreamCandidates {s : String} {first : Entry} {rest : List Entry}
    (h : EntryList s (first :: rest)) (targetHost : String) {c : String} :
    c ∈ splitUpstreamCandidates targetHost s "443" ↔ ∃ e ∈ first :: rest, e.address = c := by
  rw [h.splitUpstreamCandidates, mem_candidateLoop]
  constructor
  · rintro ⟨-, part, hpart, rfl⟩
    have htext : trimSpace part ∈ (first :: rest).map Entry.text := h ▸ List.mem_map_of_mem hpart
    obtain ⟨e, he, hte⟩ := List.mem_map.mp htext
    exact ⟨e, he, by rw [← hte, e.ensureAddrWithPort_text]⟩
  · rintro ⟨e, he, rfl⟩
    have htext : e.text ∈ (split (trimSpace s) ',').map trimSpace :=
      h.symm ▸ List.mem_map_of_mem he
    obtain ⟨part, hpart, hte⟩ := List.mem_map.mp htext
    exact ⟨joinHostPort_ne_empty _ _, part, hpart, by rw [hte, e.ensureAddrWithPort_text]⟩

omit [CaseTables] in
theorem splitUpstreamCandidates_first {s : String} {first : Entry} {rest : List Entry}
    (h : EntryList s (first :: rest)) (targetHost : String) :
    ∃ others, splitUpstreamCandidates targetHost s "443" = first.address :: others := by
  rw [h.splitUpstreamCandidates, candidateLoop_eq_collect]
  unfold EntryList at h
  cases hparts : split (trimSpace s) ',' with
  | nil =>
    rw [hparts] at h
    cases h
  | cons part parts =>
    rw [hparts] at h
    have haddr : ensureAddrWithPort (trimSpace part) "443" = first.address := by
      rw [(List.cons.inj h).1, first.ensureAddrWithPort_text]
    rw [← haddr]
    exact Distinct.collect_cons (haddr ▸ joinHostPort_ne_empty _ _) parts

theorem firstUpstreamHost_entries {s : String} {first : Entry} {rest : List Entry}
    (h : EntryList s (first :: rest)) (targetHost : String) :
    firstUpstreamHost targetHost s = normalizeHost first.host := by
  obtain ⟨others, hsplit⟩ := splitUpstreamCandidates_first h targetHost
  simp only [firstUpstreamHost, hsplit, candidateHost, Entry.address,
    splitHostPort_joinHostPort first.host_spec.1 first.port_spec.1]

theorem resolveDomainCandidates_congr (src : Sources) {host host' : String} (port dnsMode : String)
    (h : normalizeHost host = normalizeHost host') :
    resolveDomainCandidates src host port dnsMode =
      resolveDomainCandidates src host' port dnsMode := by
  simp only [resolveDomainCandidates, h]

/-- The candidates that come from resolving the name of the first upstream. -/
def resolvedFirst (src : Sources) (targetHost resolved dnsMode : String) : List String :=
  let firstHost := firstUpstreamHost targetHost resolved
  if firstHost ≠ "" ∧ isLiteralIP firstHost = false then
    resolveDomainCandidates src firstHost "443" dnsMode
  else []

theorem resolvedFirst_entries (src : Sources) {s : String} {first : Entry} {rest : List Entry}
    (h : EntryList s (first :: rest)) (targetHost dnsMode : String) :
    resolvedFirst src targetHost s dnsMode =
      resolveDomainCandidates src first.host "443" dnsMode := by
  have hidem := normalizeHost_idem first.host_spec.1 first.host_spec.2
  simp only [resolvedFirst, firstUpstreamHost_entries h]
  split
  · exact resolveDomainCandidates_congr src "443" dnsMode hidem
  · -- an address and a blank host are not resolved
    rename_i hname
    rw [resolveDomainCandidates, if_pos]
    by_contra hne
    rw [not_or, Bool.not_eq_true] at hne
    exact hname hne

/-! ## Where the candidates come from -/

/-- What a candidate was made from: the target's address or the answer for its host, an
upstream as it is written or the answer for the upstream at a place, or the pool. -/
inductive Origin where
  | target
  | resolvedTarget
  | upstream
  | resolvedUpstream (place : Nat)
  | pool
  deriving DecidableEq, Repr

/-- The candidates of the target itself, with their origins. -/
def tracedOwn (src : Sources) (targetHost targetAddr dnsMode : String) : List (Origin × String) :=
  let resolved := resolveDomainCandidates src targetHost "443" dnsMode
  if resolved ≠ [] then resolved.map (Origin.resolvedTarget, ·) else [(.target, targetAddr)]

/-- `upstreamCandidates` with the origin of every candidate. -/
def tracedUpstream (src : Sources) (targetHost targetAddr resolved dnsMode : String) :
    List (Origin × String) :=
  match splitUpstreamCandidates targetHost resolved "443" with
  | [] => [(.target, targetAddr)]
  | candidates =>
    let found := resolvedFirst src targetHost resolved dnsMode
    if found ≠ [] then found.map (Origin.resolvedUpstream 0, ·)
    else candidates.map (Origin.upstream, ·)

/-- `buildDialCandidates` with the origin of every candidate. -/
def tracedDialCandidates (src : Sources) (targetHost targetAddr : String) (rule : Rule)
    (effectiveMode : String) : List (Origin × String) :=
  let resolvedUpstream := resolveRuleUpstream targetHost rule
  if equalFold (trimSpace rule.upstream) "warp" then
    tracedOwn src targetHost targetAddr rule.dnsMode
  else if resolvesTarget effectiveMode then
    if trimSpace resolvedUpstream ≠ "" then
      tracedUpstream src targetHost targetAddr resolvedUpstream rule.dnsMode
    else match poolCandidates src rule with
      | some candidates => candidates.map (Origin.pool, ·)
      | none => tracedOwn src targetHost targetAddr rule.dnsMode
  else [(.target, targetAddr)]

omit [CaseTables] in
theorem map_snd_pair (o : Origin) (candidates : List String) :
    (candidates.map (o, ·)).map Prod.snd = candidates := by
  simp [Function.comp_def]

theorem map_snd_tracedOwn (src : Sources) (targetHost targetAddr dnsMode : String) :
    (tracedOwn src targetHost targetAddr dnsMode).map Prod.snd =
      if resolveDomainCandidates src targetHost "443" dnsMode ≠ [] then
        resolveDomainCandidates src targetHost "443" dnsMode
      else [targetAddr] := by
  simp only [tracedOwn]
  rw [apply_ite (List.map Prod.snd), map_snd_pair]
  rfl

theorem map_snd_tracedUpstream (src : Sources) (targetHost targetAddr resolved dnsMode : String) :
    (tracedUpstream src targetHost targetAddr resolved dnsMode).map Prod.snd =
      upstreamCandidates src targetHost targetAddr resolved dnsMode := by
  unfold tracedUpstream upstreamCandidates resolvedFirst
  cases splitUpstreamCandidates targetHost resolved "443" with
  | nil => rfl
  | cons first others =>
    simp only
    rw [apply_ite (List.map Prod.snd), map_snd_pair, map_snd_pair]

/-- Without the origins they are the candidates. -/
theorem map_snd_tracedDialCandidates (src : Sources) (targetHost targetAddr : String) (rule : Rule)
    (mode : String) :
    (tracedDialCandidates src targetHost targetAddr rule mode).map Prod.snd =
      buildDialCandidates src targetHost targetAddr rule mode := by
  unfold tracedDialCandidates buildDialCandidates
  simp only [apply_ite (List.map Prod.snd), map_snd_tracedOwn, map_snd_tracedUpstream]
  cases poolCandidates src rule with
  | none => simp only [map_snd_tracedOwn, List.map_cons, List.map_nil]
  | some candidates => simp only [map_snd_pair, List.map_cons, List.map_nil]

/-! ## Which entries are tried -/

/-- A text that is `warp` but for the case has its length, and of the ASCII characters only
its letters. -/
theorem equalFold_warp {s : String} (h : equalFold s "warp" = true) :
    s.toList.length = 4 ∧
      ∀ c : Char, c.toNat < 128 → c.toLower ∉ "warp".toList → c ∉ s.toList := by
  have hfold : s.toList.map CaseTables.fold = "warp".toList.map CaseTables.fold := eq_of_beq h
  have hascii : ∀ x ∈ "warp".toList, x.toNat < 128 ∧ x.toLower = x :=
    List.all_iff_forall_prop.mp (by decide)
  refine ⟨by simpa using congrArg List.length hfold, fun c hc hw hm => ?_⟩
  have hmem : CaseTables.fold c ∈ "warp".toList.map CaseTables.fold :=
    hfold ▸ List.mem_map_of_mem hm
  obtain ⟨x, hx, he⟩ := List.mem_map.mp hmem
  rw [CaseTables.fold_ascii x (hascii x hx).1, (hascii x hx).2, CaseTables.fold_ascii c hc] at he
  exact hw (he ▸ hx)

/-- Under the name `warp`, in any case, the rule has no other upstream. -/
theorem resolveRuleUpstream_warp (targetHost : String) {rule : Rule}
    (h : equalFold (trimSpace rule.upstream) "warp" = true) :
    resolveRuleUpstream targetHost rule = trimSpace rule.upstream := by
  obtain ⟨hlen, hplain⟩ := equalFold_warp h
  have hdollar : '$' ∉ (trimSpace rule.upstream).toList := hplain '$' (by decide) (by decide)
  have hdollar' : '$' ∉ rule.upstream.toList := by
    intro hm
    apply hdollar
    rw [trimSpace, String.toList_ofList]
    exact mem_trimBy hm (by decide)
  have hne : trimSpace rule.upstream ≠ "" := by
    intro he
    rw [he] at hlen
    cases hlen
  -- the placeholders are longer than the name
  have hlow : ∀ p : String, 4 < p.toList.length →
      hasPrefix (toLower (trimSpace rule.upstream)) p = false := by
    intro p hp
    by_contra hpre
    rw [Bool.not_eq_false, hasPrefix, List.isPrefixOf_iff_prefix] at hpre
    have hle := hpre.length_le
    rw [toLower, String.toList_ofList, List.length_map, hlen] at hle
    omega
  have hvar : hasPrefix (trimSpace rule.upstream) "$" = false := hasPrefix_eq_false hdollar
  simp only [resolveRuleUpstream, resolveUpstreamHost_plain targetHost hdollar',
    trimSpace_trimSpace, hne, false_and, ↓reduceIte, hlow "$backend_ip" (by decide),
    hlow "$upstream_host" (by decide), hvar, Bool.false_eq_true, or_self]

/-- Entries that are addresses are tried on their own ports, and what comes from resolving
the name of an entry has the port of that entry. -/
def KeepsEntries (src : Sources) (targetHost targetAddr : String) (rule : Rule) (mode : String)
    (entries : List Entry) : Prop :=
  (∀ e ∈ entries, e.Literal → e.address ∈ buildDialCandidates src targetHost targetAddr rule mode) ∧
    ∀ i e, entries[i]? = some e → ∀ c,
      (Origin.resolvedUpstream i, c) ∈ tracedDialCandidates src targetHost targetAddr rule mode →
        portOf c = some e.port

theorem keepsEntries_warp (src : Sources) (targetHost targetAddr : String) {rule : Rule}
    (hwarp : equalFold (trimSpace rule.upstream) "warp" = true) (mode : String)
    {entries : List Entry} (h : EntryList (resolveRuleUpstream targetHost rule) entries) :
    KeepsEntries src targetHost targetAddr rule mode entries := by
  have hplain := (equalFold_warp hwarp).2
  rw [resolveRuleUpstream_warp targetHost hwarp] at h
  refine ⟨fun e he hlit => ?_, fun i e _ c hc => ?_⟩
  · -- no address is written with the letters of the name
    rcases separator_of_parseIP hlit with hm | hm
    · exact absurd (h.mem_of_text he (Entry.mem_text_of_host hm))
        (hplain '.' (by decide) (by decide))
    · exact absurd (h.mem_of_text he (Entry.mem_text_of_host hm))
        (hplain ':' (by decide) (by decide))
  · simp only [tracedDialCandidates, hwarp, ↓reduceIte, tracedOwn] at hc
    split at hc
    · obtain ⟨x, -, hx⟩ := List.mem_map.mp hc
      cases hx
    · cases List.mem_singleton.mp hc

/-- Either the entries are tried as they are written, or the answer for the name of the
first one on port 443. -/
theorem candidates_entries (src : Sources) (targetHost targetAddr : String) {rule : Rule}
    {mode : String} (hmode : resolvesTarget mode = true)
    (hwarp : equalFold (trimSpace rule.upstream) "warp" = false) {first : Entry}
    {rest : List Entry} (h : EntryList (resolveRuleUpstream targetHost rule) (first :: rest)) :
    tracedDialCandidates src targetHost targetAddr rule mode =
      if resolveDomainCandidates src first.host "443" rule.dnsMode ≠ [] then
        (resolveDomainCandidates src first.host "443" rule.dnsMode).map
          (Origin.resolvedUpstream 0, ·)
      else
        (splitUpstreamCandidates targetHost (resolveRuleUpstream targetHost rule) "443").map
          (Origin.upstream, ·) := by
  obtain ⟨others, hsplit⟩ := splitUpstreamCandidates_first h targetHost
  simp only [tracedDialCandidates, hwarp, hmode, h.ne_empty, Bool.false_eq_true, ↓reduceIte, ne_eq,
    not_false_eq_true, tracedUpstream, hsplit, resolvedFirst_entries src h]

/-- All entries that are addresses are tried, and the answers are dialled on the port of
their entry, exactly when the name of the first entry is not resolved, or else it has
port 443 and its answer holds all these addresses. -/
theorem keepsEntries_iff (src : Sources) (targetHost targetAddr : String) {rule : Rule}
    {mode : String} (hmode : resolvesTarget mode = true) {first : Entry} {rest : List Entry}
    (h : EntryList (resolveRuleUpstream targetHost rule) (first :: rest)) :
    KeepsEntries src targetHost targetAddr rule mode (first :: rest) ↔
      equalFold (trimSpace rule.upstream) "warp" = true ∨
        resolveDomainCandidates src first.host "443" rule.dnsMode = [] ∨
        (first.port = "443" ∧ ∀ e ∈ first :: rest, e.Literal →
          e.address ∈ resolveDomainCandidates src first.host "443" rule.dnsMode) := by
  cases hwarp : equalFold (trimSpace rule.upstream) "warp" with
  | true => exact iff_of_true (keepsEntries_warp src targetHost targetAddr hwarp mode h) (.inl rfl)
  | false =>
    have htraced := candidates_entries src targetHost targetAddr hmode hwarp h
    have hport : ∀ c ∈ resolveDomainCandidates src first.host "443" rule.dnsMode,
        portOf c = some "443" := fun c hc => resolveDomainCandidates_port (portText_toString 443) hc
    unfold KeepsEntries
    rw [← map_snd_tracedDialCandidates, htraced]
    by_cases hfound : resolveDomainCandidates src first.host "443" rule.dnsMode = []
    · rw [if_neg (not_not_intro hfound), map_snd_pair]
      refine iff_of_true ⟨fun e he _ => ?_, fun i e _ c hc => ?_⟩ (.inr (.inl hfound))
      · exact (mem_splitUpstreamCandidates h targetHost).mpr ⟨e, he, rfl⟩
      · obtain ⟨x, -, hx⟩ := List.mem_map.mp hc
        cases hx
    · rw [if_pos hfound, map_snd_pair]
      constructor
      · rintro ⟨hlit, hres⟩
        obtain ⟨c, hc⟩ := List.exists_mem_of_ne_nil _ hfound
        have hfirst := hres 0 first rfl c (List.mem_map_of_mem hc)
        rw [hport c hc] at hfirst
        exact .inr (.inr ⟨(Option.some.inj hfirst).symm, hlit⟩)
      · rintro (hfalse | hnone | ⟨hfirst, hlit⟩)
        · cases hfalse
        · exact absurd hnone hfound
        · refine ⟨hlit, fun i e hi c hc => ?_⟩
          obtain ⟨x, hx, heq⟩ := List.mem_map.mp hc
          cases heq
          rw [hport c hx, ← hfirst, Option.some.inj hi]

end

/-- `192.0.2.1:8443` -/
def addressEntry : Entry where
  host := "192.0.2.1"
  form := .withPort "8443"
  address_or_name := .inl (by decide)
  port_text := by
    rintro _ ⟨⟩
    exact ⟨by decide, List.all_iff_forall_prop.mp (by decide)⟩

/-- `origin.example:8443` -/
def nameEntry : Entry where
  host := "origin.example"
  form := .withPort "8443"
  address_or_name := .inr ⟨by decide, List.all_iff_forall_prop.mp (by decide)⟩
  port_text := addressEntry.port_text

def addressFirst : Rule := { upstream := "192.0.2.1:8443, origin.example:8443", enabled := true }

def nameFirst : Rule := { upstream := "origin.example:8443, 192.0.2.1:8443", enabled := true }

/-- An address in front keeps the list. -/
theorem addressFirst_kept :
    resolvesTarget "mitm" = true ∧
      EntryList (resolveRuleUpstream "a.example" addressFirst) [addressEntry, nameEntry] ∧
      KeepsEntries oneAddress "a.example" "a.example:443" addressFirst "mitm"
        [addressEntry, nameEntry] := by
  have hlist : EntryList (resolveRuleUpstream "a.example" addressFirst)
      [addressEntry, nameEntry] := by
    unfold EntryList
    decide +kernel
  exact ⟨by decide, hlist, (keepsEntries_iff oneAddress "a.example" "a.example:443" (by decide)
    hlist).mpr (.inr (.inl (by decide +kernel)))⟩

/-- A name in front of an address: only its answer is dialled, on port 443. So the address
is not tried, and the answer is not dialled on the port of the name. -/
theorem nameFirst_replaced :
    EntryList (resolveRuleUpstream "a.example" nameFirst) [nameEntry, addressEntry] ∧
      tracedDialCandidates oneAddress "a.example" "a.example:443" nameFirst "mitm" =
        [(.resolvedUpstream 0, "192.0.2.7:443")] ∧
      buildDialCandidates oneAddress "a.example" "a.example:443" nameFirst "mitm" =
        ["192.0.2.7:443"] ∧
      addressEntry.address = "192.0.2.1:8443" ∧ nameEntry.port = "8443" ∧
      ¬ KeepsEntries oneAddress "a.example" "a.example:443" nameFirst "mitm"
        [nameEntry, addressEntry] := by
  have htraced : tracedDialCandidates oneAddress "a.example" "a.example:443" nameFirst "mitm" =
      [(.resolvedUpstream 0, "192.0.2.7:443")] := by decide +kernel
  have hcandidates : buildDialCandidates oneAddress "a.example" "a.example:443" nameFirst "mitm" =
      ["192.0.2.7:443"] := by
    rw [← map_snd_tracedDialCandidates, htraced]
    rfl
  refine ⟨?_, htraced, hcandidates, by decide, rfl, ?_⟩
  · unfold EntryList
    decide +kernel
  · rintro ⟨hliteral, -⟩
    have hmem := hliteral addressEntry (by simp) (by unfold Entry.Literal; decide)
    rw [hcandidates] at hmem
    exact absurd hmem (by decide)

end SniShaper.Candidates
