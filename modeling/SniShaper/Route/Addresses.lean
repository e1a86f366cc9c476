import SniShaper.Route.Hosts

/-! The helpers that read addresses, `normalizeHost` and `ensureAddrWithPort` of
`proxy/proxy.go`: rule matching uses the one and dialling the other.

* `ensureAddrWithPort_written`: on every way to write a host, with a port or without, the
  two agree on the host, and the address that is dialled splits into that host and its
  port, else the default one; a second call keeps it unless the default port ends in a
  space;
* `ensureAddrWithPort_exceptions`: an empty address, and such a default port. -/

namespace SniShaper.Hosts

open Strings Net

/-! ## Spaces around an address -/

/-- A text without the spaces at its end. -/
def trimEnd (s : String) : String := String.ofList (s.toList.rdropWhile isSpace)

theorem trimEnd_sublist (s : String) : (trimEnd s).toList.Sublist s.toList := by
  rw [trimEnd, String.toList_ofList]
  exact (List.rdropWhile_prefix _ _).sublist

theorem trimEnd_eq_self_iff {s : String} :
    trimEnd s = s ↔ ∀ c ∈ s.toList.getLast?, isSpace c = false := by
  rw [trimEnd, ← String.toList_inj, String.toList_ofList, List.rdropWhile_eq_self_iff]
  constructor
  · intro h c hc
    obtain ⟨hne, rfl⟩ := List.mem_getLast?_eq_getLast hc
    simpa using h hne
  · intro h hne
    simpa using h _ (List.getLast?_eq_some_getLast hne)

/-- Of an address that was joined only the end of the port can be trimmed. -/
theorem trimSpace_join {host : String} (hh : Bare host) (port : String) :
    trimSpace (joinHostPort host port) = joinHostPort host (trimEnd port) := by
  have hkept : ∀ s : List Char, (∀ c ∈ s, isSpace c = false) → s.dropWhile isSpace = s := by
    intro s hs
    rw [List.dropWhile_eq_self_iff]
    exact fun hl => by simpa using hs _ (List.getElem_mem hl)
  have hcolon : isSpace ':' = false := by decide
  apply String.toList_injective
  rw [trimSpace, String.toList_ofList]
  unfold joinHostPort
  split
  · have hs : ("[" ++ host ++ "]:" ++ port).toList =
        ('[' :: (host.toList ++ [']'])) ++ ':' :: port.toList := by simp
    have hstart : ∀ c ∈ '[' :: (host.toList ++ [']']), isSpace c = false := by
      intro c hc
      simp only [List.mem_cons, List.mem_append, List.not_mem_nil, or_false] at hc
      rcases hc with rfl | hc | rfl
      · decide
      · exact hh.noSpace c hc
      · decide
    rw [hs, trimBy_append_cons hcolon, hkept _ hstart]
    simp [trimEnd]
  · have hs : (host ++ ":" ++ port).toList = host.toList ++ ':' :: port.toList := by simp
    rw [hs, trimBy_append_cons hcolon, hkept _ hh.noSpace]
    simp [trimEnd]

/-! ## Addresses with any default port -/

/-- A default port: no colon and no bracket, but spaces are not excluded. -/
structure DefaultPort (port : String) : Prop where
  unbracketed : Unbracketed port
  noColon : ':' ∉ port.toList

theorem defaultPort_of_portText {port : String} (h : PortText port) : DefaultPort port :=
  ⟨h.bare.unbracketed, h.noColon⟩

theorem DefaultPort.trimEnd {port : String} (h : DefaultPort port) :
    DefaultPort (trimEnd port) where
  unbracketed := ⟨fun hc => h.unbracketed.noOpen ((trimEnd_sublist port).mem hc),
    fun hc => h.unbracketed.noClose ((trimEnd_sublist port).mem hc)⟩
  noColon hc := h.noColon ((trimEnd_sublist port).mem hc)

/-- A second call keeps the host, and the port as far as it is not made of spaces. -/
theorem ensureAddrWithPort_join {host port : String} (hh : Bare host) (hp : DefaultPort port)
    (defaultPort : String) :
    ensureAddrWithPort (joinHostPort host port) defaultPort =
      joinHostPort host (if trimEnd port = "" then defaultPort else trimEnd port) := by
  simp only [ensureAddrWithPort, trimSpace_join hh, joinHostPort_ne_empty, ↓reduceIte,
    splitHostPort_join hh.unbracketed hp.trimEnd.unbracketed hp.trimEnd.noColon]

theorem joinHostPort_port_injective {host p q : String} (hp : ':' ∉ p.toList)
    (hq : ':' ∉ q.toList) (h : joinHostPort host p = joinHostPort host q) : p = q := by
  have hport := portOf_joinHostPort host hp
  rw [h, portOf_joinHostPort host hq] at hport
  exact (Option.some.inj hport).symm

/-- A joined address is kept with every default port exactly when its port does not end in
a space. -/
theorem ensureAddrWithPort_join_eq_iff {host port : String} (hh : Bare host)
    (hp : DefaultPort port) (hne : port ≠ "") :
    (∀ d', ensureAddrWithPort (joinHostPort host port) d' = joinHostPort host port) ↔
      ∀ c ∈ port.toList.getLast?, isSpace c = false := by
  rw [← trimEnd_eq_self_iff]
  constructor
  · intro h
    -- with no default port the address is left with what was trimmed
    have hempty := h ""
    rw [ensureAddrWithPort_join hh hp] at hempty
    have hport : (if trimEnd port = "" then "" else trimEnd port) = trimEnd port := by
      split
      · exact Eq.symm ‹_›
      · rfl
    rw [hport] at hempty
    exact joinHostPort_port_injective hp.trimEnd.noColon hp.noColon hempty
  · intro h d'
    rw [ensureAddrWithPort_join hh hp, h, if_neg hne]

/-! ## Names with spaces -/

/-- A text without the spaces at its start. -/
def trimStart (s : String) : String := String.ofList (s.toList.dropWhile isSpace)

theorem trimStart_sublist (s : String) : (trimStart s).toList.Sublist s.toList := by
  rw [trimStart, String.toList_ofList]
  exact List.dropWhile_sublist _

theorem trimSpace_trimStart (s : String) : trimSpace (trimStart s) = trimSpace s := by
  rw [trimSpace, trimStart, String.toList_ofList, trimBy, List.dropWhile_idempotent]
  rfl

theorem trimStart_eq_self_iff {s : String} :
    trimStart s = s ↔ ∀ c ∈ s.toList.head?, isSpace c = false := by
  rw [trimStart, ← String.toList_inj, String.toList_ofList]
  cases s.toList with
  | nil => simp
  | cons c cs => simp [List.dropWhile_eq_self_iff]

theorem trimSpace_append_port (host : String) {port : String} (hp : PortText port) :
    trimSpace (host ++ ":" ++ port) = trimStart host ++ ":" ++ port := by
  have hs : (host ++ ":" ++ port).toList = host.toList ++ ':' :: port.toList := by simp
  have hend : trimEnd port = port :=
    trimEnd_eq_self_iff.mpr fun c hc => hp.bare.noSpace c (List.mem_of_getLast? hc)
  rw [trimEnd, ← String.toList_inj, String.toList_ofList] at hend
  apply String.toList_injective
  rw [trimSpace, String.toList_ofList, hs, trimBy_append_cons (by decide), hend]
  simp [trimStart]

/-- Names, spaces not excluded, and IPv4 addresses. -/
structure NameText (host : String) : Prop where
  unbracketed : Unbracketed host
  noColon : ':' ∉ host.toList

theorem NameText.trimStart {host : String} (h : NameText host) : NameText (trimStart host) where
  unbracketed := ⟨fun hc => h.unbracketed.noOpen ((trimStart_sublist host).mem hc),
    fun hc => h.unbracketed.noClose ((trimStart_sublist host).mem hc)⟩
  noColon hc := h.noColon ((trimStart_sublist host).mem hc)

/-- The address of a name with a port. -/
theorem ensureAddrWithPort_append {host port : String} (hh : NameText host) (hp : PortText port)
    (hne : port ≠ "") (defaultPort : String) :
    ensureAddrWithPort (host ++ ":" ++ port) defaultPort = trimStart host ++ ":" ++ port := by
  have hnonempty : trimStart host ++ ":" ++ port ≠ "" := by
    intro he
    have hl := congrArg String.length he
    simp at hl
  simp only [ensureAddrWithPort, trimSpace_append_port host hp, hnonempty, ↓reduceIte,
    (splitHostPort_append_iff hp).mpr ⟨hh.trimStart.unbracketed, hh.trimStart.noColon⟩, hne]
  rw [joinHostPort, if_neg hh.trimStart.noColon]

/-! ## The ways to write an address -/

/-- `Written host port text`: the text names the host, with the port if it has one. -/
inductive Written (host : String) : Option String → String → Prop
  | plain (hh : HostText host) (hne : host ≠ "") : Written host none host
  | bracketed (hh : Bare host) (hcolons : 2 ≤ host.toList.count ':') :
      Written host none ("[" ++ host ++ "]")
  | withPort {port : String} (hh : HostText host) (hp : PortText port) (hne : port ≠ "") :
      Written host (some port) (joinHostPort host port)
  | emptyPort (hh : HostText host) : Written host none (joinHostPort host "")

variable {host text : String} {port : Option String}

theorem Written.hostText (h : Written host port text) : HostText host := by
  cases h with
  | plain hh hne => exact hh
  | bracketed hh hcolons => exact ⟨hh, .inr hcolons⟩
  | withPort hh hp hne => exact hh
  | emptyPort hh => exact hh

theorem portText_empty : PortText "" := ⟨⟨by simp, by simp, by simp⟩, by simp⟩

/-- The address that is dialled. -/
theorem Written.dialled (h : Written host port text) (d : String) :
    ensureAddrWithPort text d = joinHostPort host (port.getD d) := by
  cases h with
  | plain hh hne => exact ensureAddrWithPort_host hh hne d
  | bracketed hh hcolons => exact ensureAddrWithPort_bracketed hh d
  | withPort hh hp hne => exact ensureAddrWithPort_joinHostPort hh hp hne d
  | emptyPort hh =>
    rw [ensureAddrWithPort_join hh.bare (defaultPort_of_portText portText_empty),
      if_pos (by decide)]
    rfl

/-- The port that is dialled. -/
theorem Written.usedPort (h : Written host port text) {d : String} (hd : DefaultPort d)
    (hd_ne : d ≠ "") : DefaultPort (port.getD d) ∧ port.getD d ≠ "" := by
  cases h with
  | plain hh hne => exact ⟨hd, hd_ne⟩
  | bracketed hh hcolons => exact ⟨hd, hd_ne⟩
  | withPort hh hp hne => exact ⟨defaultPort_of_portText hp, hne⟩
  | emptyPort hh => exact ⟨hd, hd_ne⟩

theorem ensureAddrWithPort_trimSpace (a d : String) :
    ensureAddrWithPort (trimSpace a) d = ensureAddrWithPort a d := by
  simp only [ensureAddrWithPort, trimSpace_trimSpace]

section

variable [CaseTables]

theorem normalizeHost_trimSpace (a : String) : normalizeHost (trimSpace a) = normalizeHost a := by
  simp only [normalizeHost, trimSpace_trimSpace]

/-- The host that is matched. -/
theorem Written.matched (h : Written host port text) :
    normalizeHost text = toLower host := by
  cases h with
  | plain hh hne => exact normalizeHost_hostText hh
  | bracketed hh hcolons => exact normalizeHost_bracketed hh
  | withPort hh hp hne => exact normalizeHost_joinHostPort hh hp
  | emptyPort hh => exact normalizeHost_joinHostPort hh portText_empty

/-- Of a joined address the host is matched, whatever spaces end its port. -/
theorem normalizeHost_join {port : String} (hh : Bare host) (hp : DefaultPort port) :
    normalizeHost (joinHostPort host port) = toLower host := by
  simp only [normalizeHost, trimSpace_join hh, joinHostPort_ne_empty, ↓reduceIte,
    splitHostPort_join hh.unbracketed hp.trimEnd.unbracketed hp.trimEnd.noColon,
    trimSpace_eq_self host hh.noSpace]

/-- A name is matched without the spaces around it, with a port or without. -/
theorem normalizeHost_name (hh : NameText host) :
    normalizeHost host = toLower (trimSpace host) := by
  have hcolon : ':' ∉ (trimSpace host).toList := fun hc =>
    hh.noColon ((trimSpace_sublist host).mem hc)
  have hopen : '[' ∉ (trimSpace host).toList := fun hc =>
    hh.unbracketed.noOpen ((trimSpace_sublist host).mem hc)
  unfold normalizeHost
  simp only [splitHostPort_no_colon _ hcolon, hasPrefix_open hopen, Bool.false_eq_true, false_and,
    ↓reduceIte]
  split
  · rename_i hempty
    rw [hempty]
    rfl
  · rfl

theorem normalizeHost_name_port {port : String} (hh : NameText host) (hp : PortText port) :
    normalizeHost (host ++ ":" ++ port) = normalizeHost host := by
  have hnonempty : trimStart host ++ ":" ++ port ≠ "" := by
    intro he
    have hl := congrArg String.length he
    simp at hl
  rw [normalizeHost_name hh, normalizeHost]
  simp only [trimSpace_append_port host hp, hnonempty, ↓reduceIte, trimSpace_trimStart,
    (splitHostPort_append_iff hp).mpr ⟨hh.trimStart.unbracketed, hh.trimStart.noColon⟩]

/-- The helpers agree on every address that names a host, with spaces around it: the address
that is dialled splits into the host and its port, else the default one; both helpers find
the same host; and a second call keeps the address exactly when a default port that was
taken does not end in a space. -/
theorem ensureAddrWithPort_written {a d : String} (hw : Written host port text)
    (ha : trimSpace a = text) (hd : DefaultPort d) (hne : d ≠ "") :
    splitHostPort (ensureAddrWithPort a d) = .ok (host, port.getD d) ∧
      normalizeHost (ensureAddrWithPort a d) = toLower host ∧
      normalizeHost a = toLower host ∧
      ((∀ d', ensureAddrWithPort (ensureAddrWithPort a d) d' =
          ensureAddrWithPort a d) ↔
        (port = none → ∀ c ∈ d.toList.getLast?, isSpace c = false)) := by
  have hbare := hw.hostText.bare
  obtain ⟨hport, hportne⟩ := hw.usedPort hd hne
  rw [← ensureAddrWithPort_trimSpace a d, ← normalizeHost_trimSpace a, ha,
    hw.dialled d]
  refine ⟨splitHostPort_join hbare.unbracketed hport.unbracketed hport.noColon,
    normalizeHost_join hbare hport, hw.matched, ?_⟩
  rw [ensureAddrWithPort_join_eq_iff hbare hport hportne]
  cases hw with
  | plain hh hne => simp
  | bracketed hh hcolons => simp
  | withPort hh hp hne =>
    refine iff_of_true ?_ (fun h => nomatch h)
    exact fun c hc => hp.bare.noSpace c (List.mem_of_getLast? hc)
  | emptyPort hh => simp

end

/-- An IPv6 address in brackets, with spaces around it and without a port. -/
theorem ensureAddrWithPort_written_v6 :
    Written "2001:db8::1" none "[2001:db8::1]" ∧
      splitHostPort (ensureAddrWithPort " [2001:db8::1] " "443") = .ok ("2001:db8::1", "443") ∧
      normalizeHost (ensureAddrWithPort " [2001:db8::1] " "443") = "2001:db8::1" ∧
      normalizeHost " [2001:db8::1] " = "2001:db8::1" ∧
      ∀ d', ensureAddrWithPort (ensureAddrWithPort " [2001:db8::1] " "443") d' =
        ensureAddrWithPort " [2001:db8::1] " "443" := by
  have hw : Written "2001:db8::1" none "[2001:db8::1]" :=
    .bracketed ⟨by decide, by decide, List.all_iff_forall_prop.mp (by decide)⟩ (by decide)
  have hd : DefaultPort "443" := ⟨⟨by decide, by decide⟩, by decide⟩
  obtain ⟨hsplit, hdialled, hmatched, hstable⟩ :=
    @ensureAddrWithPort_written _ _ _ _ " [2001:db8::1] " "443" hw (by decide) hd (by decide)
  have hlower : toLower "2001:db8::1" = "2001:db8::1" := by decide
  rw [hlower] at hdialled hmatched
  refine ⟨hw, hsplit, hdialled, hmatched, hstable.mpr fun _ c hc => ?_⟩
  obtain rfl : '3' = c := Option.some.inj hc
  decide

/-- An empty address gets no port, and a default port that ends in a space is cut by a second
call. -/
theorem ensureAddrWithPort_exceptions :
    splitHostPort (ensureAddrWithPort "" "443") = .error missingPort ∧
      ensureAddrWithPort "a.example" "443 " = "a.example:443 " ∧
      ensureAddrWithPort (ensureAddrWithPort "a.example" "443 ") "443" = "a.example:443" := by
  decide

end SniShaper.Hosts
