import Mathlib.Data.Bool.AllAny
import SniShaper.Go.Strings

/-! Addresses as Go's `net` package reads and writes them: `SplitHostPort`,
`JoinHostPort`, `ParseIP` and `IP.String`. An IP is its sixteen bytes; an IPv4
address has the prefix of an IPv4-mapped address. -/

namespace SniShaper.Net

/-- Last position of `c`. -/
def lastIndexByte (c : Char) : List Char → Option Nat
  | [] => none
  | x :: xs =>
    match lastIndexByte c xs with
    | some i => some (i + 1)
    | none => if x = c then some 0 else none

def missingPort : String := "missing port in address"
def tooManyColons : String := "too many colons in address"

/-- The end of `SplitHostPort`, which has found the host: no bracket may be left,
up to `j` and `k`, and the port follows the last colon. -/
def splitRest (s host : List Char) (i j k : Nat) : Except String (String × String) :=
  if '[' ∈ s.drop j then .error "unexpected '[' in address"
  else if ']' ∈ s.drop k then .error "unexpected ']' in address"
  else .ok (String.ofList host, String.ofList (s.drop (i + 1)))

def splitHostPort (hostport : String) : Except String (String × String) :=
  let s := hostport.toList
  match lastIndexByte ':' s with
  | none => .error missingPort
  | some i =>
    if s.head? = some '[' then
      match s.idxOf? ']' with
      | none => .error "missing ']' in address"
      | some e =>
        if e + 1 = s.length then .error missingPort
        else if e + 1 = i then splitRest s ((s.take e).drop 1) i 1 (e + 1)
        else if s[e + 1]? = some ':' then .error tooManyColons
        else .error missingPort
    else if ':' ∈ s.take i then .error tooManyColons
    else splitRest s (s.take i) i 0 0

def joinHostPort (host port : String) : String :=
  if ':' ∈ host.toList then "[" ++ host ++ "]:" ++ port else host ++ ":" ++ port

/-! ## IP addresses -/

/-- Four bytes or sixteen. -/
abbrev IP := List UInt8

def v4Prefix : List UInt8 := [0, 0, 0, 0, 0, 0, 0, 0, 0, 0, 0xff, 0xff]

def decimal (ds : List Char) : Nat := ds.foldl (fun n d => n * 10 + (d.toNat - 48)) 0

/-- One field of an IPv4 address: digits without a leading zero, at most 255. -/
def octet (f : List Char) : Option UInt8 :=
  if f ≠ [] ∧ f.all Char.isDigit ∧ (f.length = 1 ∨ f.head? ≠ some '0') ∧ decimal f ≤ 255 then
    some (UInt8.ofNat (decimal f))
  else none

def parseIPv4 (s : List Char) : Option (List UInt8) :=
  match s.splitOn '.' with
  | [a, b, c, d] => do return [← octet a, ← octet b, ← octet c, ← octet d]
  | _ => none

def hexValue (c : Char) : Nat :=
  if c.isDigit then c.toNat - 48 else if c.isLower then c.toNat - 87 else c.toNat - 55

def hexNumber (ds : List Char) : Nat := ds.foldl (fun n d => n * 16 + hexValue d) 0

/-- The loop over the fields of an IPv6 address: the text that is left, the bytes
so far and where `::` stood. A field with a dot is a trailing IPv4 address. -/
def ipv6Fields : Nat → List Char → List UInt8 → Option Nat →
    Option (List Char × List UInt8 × Option Nat)
  | 0, s, ip, ellipsis => some (s, ip, ellipsis)
  | fuel + 1, s, ip, ellipsis =>
    let digits := s.takeWhile Char.isHexDigit
    let rest := s.dropWhile Char.isHexDigit
    if digits = [] ∨ 4 < digits.length then none
    else if rest.head? = some '.' then
      if (ellipsis = none ∧ ip.length ≠ 12) ∨ 16 < ip.length + 4 then none
      else (parseIPv4 s).map fun v4 => ([], ip ++ v4, ellipsis)
    else
      let ip := ip ++ [UInt8.ofNat (hexNumber digits / 256), UInt8.ofNat (hexNumber digits)]
      match rest with
      | [] => some ([], ip, ellipsis)
      | c :: rest =>
        if c ≠ ':' then none
        else match rest with
          | [] => none
          | ':' :: rest =>
            if ellipsis ≠ none then none
            else if rest = [] then some ([], ip, some ip.length)
            else ipv6Fields fuel rest ip (some ip.length)
          | c :: rest => ipv6Fields fuel (c :: rest) ip ellipsis

def parseIPv6 (s : List Char) : Option (List UInt8) :=
  let start : List Char × Option Nat :=
    match s with
    | ':' :: ':' :: rest => (rest, some 0)
    | _ => (s, none)
  if start = ([], some 0) then some (List.replicate 16 0)
  else do
    let (rest, ip, ellipsis) ← ipv6Fields 8 start.1 [] start.2
    if rest ≠ [] then none
    else match ellipsis with
      | none => if ip.length = 16 then some ip else none
      | some e =>
        if ip.length = 16 then none
        else some (ip.take e ++ List.replicate (16 - ip.length) 0 ++ ip.drop e)

/-- `net.ParseIP`: the first of `.`, `:` and `%` decides the family; an address
with a zone is not one. -/
def parseIP (host : String) : Option IP :=
  let s := host.toList
  if '%' ∈ s then none
  else match s.find? (fun c => c = '.' ∨ c = ':') with
    | some '.' => (parseIPv4 s).map (v4Prefix ++ ·)
    | some ':' => parseIPv6 s
    | _ => none

/-- `ip.To4()`: the four bytes of an IPv4 address, which may be kept in sixteen. -/
def to4 (ip : IP) : Option IP :=
  if ip.length = 4 then some ip
  else if ip.length = 16 ∧ ip.take 12 = v4Prefix then some (ip.drop 12)
  else none

def to16 (ip : IP) : Option IP :=
  if ip.length = 4 then some (v4Prefix ++ ip)
  else if ip.length = 16 then some ip
  else none

/-- `ip.To4() != nil` -/
def isV4 (ip : IP) : Bool := (to4 ip).isSome

/-- The 16-bit groups of an address. -/
def groups : List UInt8 → List Nat
  | hi :: lo :: rest => (hi.toNat * 256 + lo.toNat) :: groups rest
  | _ => []

/-- Start and length of the first longest run of at least two zero groups. -/
def zeroRun (gs : List Nat) : Option (Nat × Nat) :=
  (List.range gs.length).foldl (fun best i =>
    let len := ((gs.drop i).takeWhile (· = 0)).length
    if 2 ≤ len ∧ (best.map Prod.snd).getD 0 < len then some (i, len) else best) none

/-- A group in hexadecimal, without leading zeros. -/
def hexText (n : Nat) : String :=
  String.ofList
    (([n / 4096 % 16, n / 256 % 16, n / 16 % 16].dropWhile (· = 0) ++ [n % 16]).map Nat.digitChar)

def hexGroups (gs : List Nat) : String := Strings.join (gs.map hexText) ":"

/-- `ip.String()` -/
def ipString (ip : IP) : String :=
  match to4 ip with
  | some p4 => Strings.join (p4.map fun b => toString b.toNat) "."
  | none =>
    let gs := groups ip
    match zeroRun gs with
    | some (start, len) => hexGroups (gs.take start) ++ "::" ++ hexGroups (gs.drop (start + len))
    | none => hexGroups gs

example : parseIP "10.0.0.1" = some (v4Prefix ++ [10, 0, 0, 1]) := by decide
example : parseIP "01.2.3.4" = none := by decide
example : (parseIP "2001:db8::1").isSome = true := by decide
example : (parseIP "::ffff:1.2.3.4").map isV4 = some true := by decide
example : parseIP "1::2::3" = none := by decide
example : (parseIP "2001:DB8:0:0:1:0:0:1").map ipString = some "2001:db8::1:0:0:1" := by decide
example : (parseIP "::").map ipString = some "::" := by decide
example : splitHostPort "[::1]:443" = .ok ("::1", "443") := by decide
example : splitHostPort "::1" = .error tooManyColons := by decide

/-! ## Host texts -/

theorem lastIndexByte_eq_none {c : Char} {s : List Char} (h : c ∉ s) :
    lastIndexByte c s = none := by
  induction s with
  | nil => rfl
  | cons x xs ih =>
    simp only [List.mem_cons, not_or] at h
    simp [lastIndexByte, ih h.2, Ne.symm h.1]

theorem lastIndexByte_append {c : Char} (pre : List Char) {post : List Char} (h : c ∉ post) :
    lastIndexByte c (pre ++ c :: post) = some pre.length := by
  induction pre with
  | nil => simp [lastIndexByte, lastIndexByte_eq_none h]
  | cons x xs ih => simp [lastIndexByte, ih]

/-- A character that occurs has a last occurrence. -/
theorem exists_last_occurrence {c : Char} {s : List Char} (h : c ∈ s) :
    ∃ pre post, s = pre ++ c :: post ∧ c ∉ post := by
  induction s with
  | nil => cases h
  | cons x xs ih =>
    by_cases hx : c ∈ xs
    · obtain ⟨pre, post, rfl, hpost⟩ := ih hx
      exact ⟨x :: pre, post, rfl, hpost⟩
    · obtain rfl : c = x := (List.mem_cons.mp h).resolve_right hx
      exact ⟨[], xs, rfl, hx⟩

theorem splitHostPort_no_colon (host : String) (h : ':' ∉ host.toList) :
    splitHostPort host = .error missingPort := by
  simp [splitHostPort, lastIndexByte_eq_none h]

theorem splitRest_ok {s host : List Char} {i j k : Nat} {h p : String}
    (hr : splitRest s host i j k = .ok (h, p)) :
    h = String.ofList host ∧ p = String.ofList (s.drop (i + 1)) := by
  unfold splitRest at hr
  split at hr
  · cases hr
  · split at hr
    · cases hr
    · have hpair := Prod.mk.inj (Except.ok.inj hr)
      exact ⟨hpair.1.symm, hpair.2.symm⟩

/-- The host is a part of the address, and the port follows its last colon. -/
theorem splitHostPort_ok {hostport host port : String}
    (h : splitHostPort hostport = .ok (host, port)) :
    host.toList.Sublist hostport.toList ∧ ∃ i, lastIndexByte ':' hostport.toList = some i ∧
      port = String.ofList (hostport.toList.drop (i + 1)) := by
  unfold splitHostPort at h
  simp only at h
  split at h
  · cases h
  · rename_i i hi
    split at h
    · split at h
      · cases h
      · split at h
        · cases h
        · split at h
          · obtain ⟨rfl, rfl⟩ := splitRest_ok h
            rw [String.toList_ofList]
            exact ⟨(List.drop_sublist _ _).trans (List.take_sublist _ _), i, hi, rfl⟩
          · split at h <;> cases h
    · split at h
      · cases h
      · obtain ⟨rfl, rfl⟩ := splitRest_ok h
        rw [String.toList_ofList]
        exact ⟨List.take_sublist _ _, i, hi, rfl⟩

/-- Text without brackets and spaces. -/
structure Bare (s : String) : Prop where
  noOpen : '[' ∉ s.toList
  noClose : ']' ∉ s.toList
  noSpace : ∀ c ∈ s.toList, Strings.isSpace c = false

/-- The text of a host: a name or an IPv4 address, which has no colon, or an IPv6
address, which has at least two. -/
structure HostText (host : String) : Prop where
  bare : Bare host
  colons : ':' ∉ host.toList ∨ 2 ≤ host.toList.count ':'

/-- The text of a port. -/
structure PortText (port : String) : Prop where
  bare : Bare port
  noColon : ':' ∉ port.toList

/-- Two colons outside brackets are too many. -/
theorem splitHostPort_two_colons {host : String} (hb : Bare host)
    (h : 2 ≤ host.toList.count ':') : splitHostPort host = .error tooManyColons := by
  obtain ⟨pre, post, hs, hpost⟩ :=
    exists_last_occurrence (List.count_pos_iff.mp (by omega : 0 < host.toList.count ':'))
  have hpre : ':' ∈ pre := by
    rw [hs, List.count_append, List.count_cons_self, List.count_eq_zero_of_not_mem hpost] at h
    exact List.count_pos_iff.mp (by omega)
  have hhead : (pre ++ ':' :: post).head? ≠ some '[' := by
    intro hh
    have hmem := List.mem_of_mem_head? (hh ▸ rfl : '[' ∈ (pre ++ ':' :: post).head?)
    exact hb.noOpen (hs ▸ hmem)
  simp only [splitHostPort, hs, lastIndexByte_append pre hpost, hhead, ↓reduceIte]
  simp [hpre]

/-- The first closing bracket after a bracketed host. -/
theorem idxOf_close {host : List Char} (h : ']' ∉ host) (rest : List Char) :
    ('[' :: (host ++ ']' :: rest)).idxOf? ']' = some (host.length + 1) := by
  have hnone : host.findIdx? (· == ']') = none := by
    rw [List.findIdx?_eq_none_iff]
    intro c hc
    simpa using fun he : c = ']' => h (he ▸ hc)
  simp [List.idxOf?, List.findIdx?_cons, List.findIdx?_append, hnone]

/-- Text without brackets. -/
structure Unbracketed (s : String) : Prop where
  noOpen : '[' ∉ s.toList
  noClose : ']' ∉ s.toList

theorem Bare.unbracketed {s : String} (h : Bare s) : Unbracketed s := ⟨h.noOpen, h.noClose⟩

/-- What joins a host and a port without brackets is split again. -/
theorem splitHostPort_join {host port : String} (hh : Unbracketed host) (hp : Unbracketed port)
    (hcolon : ':' ∉ port.toList) : splitHostPort (joinHostPort host port) = .ok (host, port) := by
  unfold joinHostPort
  by_cases hc : ':' ∈ host.toList
  · have hs : ("[" ++ host ++ "]:" ++ port).toList =
        '[' :: (host.toList ++ ']' :: ':' :: port.toList) := by simp
    have hi : lastIndexByte ':' ('[' :: (host.toList ++ ']' :: ':' :: port.toList)) =
        some (host.toList.length + 2) := by
      have h := lastIndexByte_append ('[' :: (host.toList ++ [']'])) hcolon
      simpa using h
    have hopen : '[' ∉ host.toList ++ ']' :: ':' :: port.toList := by
      simp [hh.noOpen, hp.noOpen]
    rw [if_pos hc]
    simp only [splitHostPort, hs, hi, idxOf_close hh.noClose, List.head?_cons, ↓reduceIte,
      List.length_cons, List.length_append, splitRest, List.drop_succ_cons, List.drop_zero, hopen]
    have hlen : ¬ host.toList.length + 1 + 1 =
        host.toList.length + (port.toList.length + 1 + 1) + 1 := by omega
    rw [if_neg hlen]
    simp [hp.noClose]
  · have hs : (host ++ ":" ++ port).toList = host.toList ++ ':' :: port.toList := by simp
    have hhead : (host.toList ++ ':' :: port.toList).head? ≠ some '[' := by
      intro h
      have hmem := List.mem_of_mem_head? (h ▸ rfl : '[' ∈ (host.toList ++ ':' :: port.toList).head?)
      simp [hh.noOpen, hp.noOpen] at hmem
    rw [if_neg hc]
    simp only [splitHostPort, hs, lastIndexByte_append _ hcolon, hhead, ↓reduceIte, splitRest]
    simp [hc, hh.noOpen, hh.noClose, hp.noOpen, hp.noClose]

theorem splitHostPort_joinHostPort {host port : String} (hh : HostText host) (hp : PortText port) :
    splitHostPort (joinHostPort host port) = .ok (host, port) :=
  splitHostPort_join hh.bare.unbracketed hp.bare.unbracketed hp.noColon

/-- A host and a port around a colon are split into the two exactly when the host has neither
a colon nor a bracket. -/
theorem splitHostPort_append_iff {host port : String} (hp : PortText port) :
    splitHostPort (host ++ ":" ++ port) = .ok (host, port) ↔
      Unbracketed host ∧ ':' ∉ host.toList := by
  constructor
  · intro h
    have hs : (host ++ ":" ++ port).toList = host.toList ++ ':' :: port.toList := by simp
    simp only [splitHostPort, hs, lastIndexByte_append _ hp.noColon] at h
    split at h
    · -- between brackets there is less than the host
      split at h
      · cases h
      · rename_i e _
        split at h
        · cases h
        · split at h
          · rename_i he
            have hlen := congrArg (fun s => s.toList.length) (splitRest_ok h).1
            simp only [String.toList_ofList, List.length_drop, List.length_take] at hlen
            omega
          · split at h <;> cases h
    · split at h
      · cases h
      · rename_i hcolon
        rw [List.take_left] at hcolon
        refine ⟨?_, hcolon⟩
        unfold splitRest at h
        split at h
        · cases h
        · rename_i hopen
          split at h
          · cases h
          · rename_i hclose
            rw [List.drop_zero, List.mem_append, not_or] at hopen hclose
            exact ⟨hopen.1, hclose.1⟩
  · rintro ⟨hh, hcolon⟩
    have h := splitHostPort_join hh hp.bare.unbracketed hp.noColon
    rwa [joinHostPort, if_neg hcolon] at h

/-! ## Ports -/

/-- The port of an address: the text after its last colon. -/
def portOf (addr : String) : Option String :=
  (lastIndexByte ':' addr.toList).map fun i => String.ofList (addr.toList.drop (i + 1))

theorem portOf_append (pre : List Char) {port : String} (h : ':' ∉ port.toList) {addr : String}
    (ha : addr.toList = pre ++ ':' :: port.toList) : portOf addr = some port := by
  rw [portOf, ha, lastIndexByte_append pre h]
  simp

theorem portOf_joinHostPort (host : String) {port : String} (h : ':' ∉ port.toList) :
    portOf (joinHostPort host port) = some port := by
  unfold joinHostPort
  split
  · exact portOf_append ('[' :: host.toList ++ [']']) h (by simp)
  · exact portOf_append host.toList h (by simp)

/-! ## Addresses that were joined -/

theorem mem_joinHostPort {host port : String} {c : Char} (h : c ∈ (joinHostPort host port).toList) :
    c ∈ host.toList ∨ c ∈ port.toList ∨ c ∈ "[]:".toList := by
  unfold joinHostPort at h
  split at h <;> simp at h ⊢ <;> tauto

theorem trimSpace_joinHostPort {host port : String} (hh : Bare host) (hp : Bare port) :
    Strings.trimSpace (joinHostPort host port) = joinHostPort host port := by
  have hplain : ∀ c ∈ "[]:".toList, Strings.isSpace c = false :=
    List.all_iff_forall_prop.mp (by decide)
  apply Strings.trimSpace_eq_self
  intro c hc
  rcases mem_joinHostPort hc with hm | hm | hm
  · exact hh.noSpace c hm
  · exact hp.noSpace c hm
  · exact hplain c hm

theorem colon_mem_joinHostPort (host port : String) : ':' ∈ (joinHostPort host port).toList := by
  unfold joinHostPort
  split <;> simp

theorem joinHostPort_ne_empty (host port : String) : joinHostPort host port ≠ "" := by
  intro he
  have hl := congrArg String.length he
  unfold joinHostPort at hl
  split at hl <;> simp at hl

/-! ## The text of an IP address -/

/-- The characters of IP addresses. -/
def ipChars : List Char := "0123456789abcdef.:".toList

theorem ipChars_bare {s : String} (h : ∀ c ∈ s.toList, c ∈ ipChars) : Bare s := by
  have hplain : ∀ c ∈ ipChars, c ≠ '[' ∧ c ≠ ']' ∧ Strings.isSpace c = false :=
    List.all_iff_forall_prop.mp (by decide)
  exact ⟨fun hc => (hplain _ (h _ hc)).1 rfl, fun hc => (hplain _ (h _ hc)).2.1 rfl,
    fun c hc => (hplain c (h c hc)).2.2⟩

theorem toList_toString_digits {n : Nat} {c : Char} (h : c ∈ (toString n).toList) :
    c.isDigit = true := by
  rw [Nat.toString_eq_ofList_toDigits, String.toList_ofList] at h
  exact Nat.isDigit_of_mem_toDigits (by decide) (by decide) h

theorem mem_ipChars_of_isDigit {c : Char} (h : c.isDigit = true) : c ∈ ipChars ∧ c ≠ ':' := by
  have hc := Strings.ascii_of_isAlphanum (Bool.or_eq_true_iff.mpr (Or.inr h))
  exact @Strings.ascii_forall (fun c => c.isDigit = true → c ∈ ipChars ∧ c ≠ ':') (by decide) c hc h

theorem portText_toString (n : Nat) : PortText (toString n) where
  bare := ipChars_bare fun _ hc => (mem_ipChars_of_isDigit (toList_toString_digits hc)).1
  noColon hc := (mem_ipChars_of_isDigit (toList_toString_digits hc)).2 rfl

theorem mem_hexText {n : Nat} {c : Char} (h : c ∈ (hexText n).toList) : c ∈ ipChars := by
  have hall : ∀ d < 16, Nat.digitChar d ∈ ipChars := by decide
  rw [hexText, String.toList_ofList] at h
  obtain ⟨d, hd, rfl⟩ := List.mem_map.mp h
  refine hall d ?_
  rcases List.mem_append.mp hd with hd | hd
  · have hmem := (List.dropWhile_suffix _).mem hd
    simp only [List.mem_cons, List.not_mem_nil, or_false] at hmem
    omega
  · rw [List.mem_singleton] at hd
    omega

theorem mem_hexGroups {gs : List Nat} {c : Char} (h : c ∈ (hexGroups gs).toList) :
    c ∈ ipChars := by
  rcases Strings.mem_join h with h | ⟨x, hx, hc⟩
  · simp only [String.reduceToList, List.mem_singleton] at h
    exact h ▸ by decide
  · obtain ⟨n, -, rfl⟩ := List.mem_map.mp hx
    exact mem_hexText hc

/-- Where no pair of bytes is left, there is at most one byte. -/
theorem short_cases {ip : List UInt8} (h : ∀ hi lo rest, ip = hi :: lo :: rest → False) :
    ip = [] ∨ ∃ b, ip = [b] := by
  cases ip with
  | nil => exact .inl rfl
  | cons hi ip =>
    cases ip with
    | nil => exact .inr ⟨hi, rfl⟩
    | cons lo rest => exact (h hi lo rest rfl).elim

theorem groups_length (ip : List UInt8) : (groups ip).length = ip.length / 2 := by
  induction ip using groups.induct with
  | case1 hi lo rest ih =>
    simp only [groups, List.length_cons, ih]
    omega
  | case2 ip h =>
    rcases short_cases h with rfl | ⟨b, rfl⟩
    · rfl
    · simp [groups]

theorem mem_ipv4Text {bs : List UInt8} {c : Char}
    (h : c ∈ (Strings.join (bs.map fun b => toString b.toNat) ".").toList) :
    c ∈ ipChars ∧ c ≠ ':' := by
  rcases Strings.mem_join h with h | ⟨x, hx, hc⟩
  · simp only [String.reduceToList, List.mem_singleton] at h
    exact h ▸ by decide
  · obtain ⟨b, -, rfl⟩ := List.mem_map.mp hx
    exact mem_ipChars_of_isDigit (toList_toString_digits hc)

theorem mem_ipString {ip : IP} {c : Char} (h : c ∈ (ipString ip).toList) : c ∈ ipChars := by
  unfold ipString at h
  split at h
  · exact (mem_ipv4Text h).1
  · simp only at h
    split at h
    · simp only [String.toList_append, List.mem_append] at h
      rcases h with (hc | hc) | hc
      · exact mem_hexGroups hc
      · simp only [String.reduceToList, List.mem_cons, List.not_mem_nil, or_false, or_self] at hc
        exact hc ▸ by decide
      · exact mem_hexGroups hc
    · exact mem_hexGroups h

theorem bare_ipString (ip : IP) : Bare (ipString ip) := ipChars_bare fun _ hc => mem_ipString hc

theorem to4_eq_none {ip : IP} (h : isV4 ip = false) : to4 ip = none := by
  simpa [isV4] using h

theorem ipString_no_colon {ip : IP} (h : isV4 ip = true) : ':' ∉ (ipString ip).toList := by
  obtain ⟨p4, hp4⟩ := Option.isSome_iff_exists.mp h
  rw [ipString, hp4]
  exact fun hc => (mem_ipv4Text hc).2 rfl

theorem to16_isSome {ip : IP} (h : ip.length = 4 ∨ ip.length = 16) : (to16 ip).isSome = true := by
  unfold to16
  rcases h with h | h <;> simp [h]

/-- An address in sixteen bytes that is not one of IPv4. -/
theorem length_of_isV4_eq_false {ip : IP} (hlen : ip.length = 4 ∨ ip.length = 16)
    (h : isV4 ip = false) : ip.length = 16 := by
  refine hlen.resolve_left fun h4 => ?_
  simp [isV4, to4, h4] at h

theorem two_colons_ipString {ip : IP} (hlen : ip.length = 4 ∨ ip.length = 16)
    (h : isV4 ip = false) : 2 ≤ (ipString ip).toList.count ':' := by
  have hlen := length_of_isV4_eq_false hlen h
  rw [ipString, to4_eq_none h]
  simp only
  split
  · simp only [String.toList_append, List.count_append]
    have hsep : "::".toList.count ':' = 2 := by decide
    omega
  · have hcount := Strings.length_le_count_join ((groups ip).map hexText) ':'
    rw [List.length_map, groups_length, hlen] at hcount
    exact Nat.le_of_succ_le_succ (le_trans (by decide) hcount)

/-- `ip.String()` is the text of a host. -/
theorem hostText_ipString {ip : IP} (h : ip.length = 4 ∨ ip.length = 16) :
    HostText (ipString ip) := by
  refine ⟨bare_ipString ip, ?_⟩
  cases hv4 : isV4 ip with
  | true => exact .inl (ipString_no_colon hv4)
  | false => exact .inr (two_colons_ipString h hv4)

/-! ## The texts that are IP addresses -/

/-- The characters of the texts that `ParseIP` reads. -/
def addressChars : List Char := "0123456789abcdefABCDEF.:".toList

theorem mem_addressChars_of_isHexDigit {c : Char} (h : c.isHexDigit = true) :
    c ∈ addressChars := by
  have hall : ∀ n < 103, (Char.ofNat n).isHexDigit = true → Char.ofNat n ∈ addressChars := by
    decide
  have hlt : c.toNat < 103 := by
    simp only [Char.isHexDigit, Char.isDigit, ge_iff_le, Bool.or_eq_true, Bool.and_eq_true,
      decide_eq_true_eq, UInt32.le_iff_toNat_le] at h
    rcases h with (⟨-, h⟩ | ⟨-, h⟩) | ⟨-, h⟩
    · exact lt_of_le_of_lt h (by decide)
    · exact lt_of_le_of_lt h (by decide)
    · exact lt_of_le_of_lt h (by decide)
  have hc := hall c.toNat hlt
  rw [Char.ofNat_toNat] at hc
  exact hc h

theorem octet_digits {f : List Char} {b : UInt8} (h : octet f = some b) {c : Char} (hc : c ∈ f) :
    c.isDigit = true := by
  unfold octet at h
  split at h
  · rename_i hf
    exact List.all_eq_true.mp hf.2.1 c hc
  · cases h

theorem parseIPv4_some {s : List Char} {bytes : List UInt8} (h : parseIPv4 s = some bytes) :
    bytes.length = 4 ∧ ∀ c ∈ s, c = '.' ∨ c.isDigit = true := by
  unfold parseIPv4 at h
  split at h
  · rename_i a b c d hsplit
    simp only [Option.pure_def, Option.bind_eq_bind, Option.bind_eq_some_iff,
      Option.some.injEq] at h
    obtain ⟨x, hx, y, hy, z, hz, w, hw, rfl⟩ := h
    refine ⟨rfl, fun ch hch => ?_⟩
    have hmem := @Strings.mem_split (String.ofList s) '.' ch (by simpa using hch)
    simp only [Strings.split, String.toList_ofList, hsplit, List.mem_map] at hmem
    refine hmem.imp id ?_
    rintro ⟨part, ⟨field, hfield, rfl⟩, hpart⟩
    rw [String.toList_ofList] at hpart
    simp only [List.mem_cons, List.not_mem_nil, or_false] at hfield
    rcases hfield with rfl | rfl | rfl | rfl
    · exact octet_digits hx hpart
    · exact octet_digits hy hpart
    · exact octet_digits hz hpart
    · exact octet_digits hw hpart
  · cases h

/-- What the loop reads: characters of addresses, two bytes for a colon and four for what
follows the last one, and two colons if `::` stands in the text. -/
structure FieldsRead (s : List Char) (ip ip' : List UInt8) (ellipsis ellipsis' : Option Nat) :
    Prop where
  chars : ∀ c ∈ s, c ∈ addressChars
  length : ip'.length ≤ ip.length + 2 * s.count ':' + 4
  ellipsis : ellipsis' = ellipsis ∨ 2 ≤ s.count ':'

theorem FieldsRead.nil (ip : List UInt8) (ellipsis : Option Nat) :
    FieldsRead [] ip ip ellipsis ellipsis :=
  ⟨by simp, by omega, .inl rfl⟩

/-- A field and a colon before what is read. -/
theorem FieldsRead.field {digits rest : List Char} {ip ip' : List UInt8} {a b : UInt8}
    {ellipsis ellipsis' : Option Nat} (hd : ∀ c ∈ digits, c ∈ addressChars)
    (h : FieldsRead rest (ip ++ [a, b]) ip' ellipsis ellipsis') :
    FieldsRead (digits ++ ':' :: rest) ip ip' ellipsis ellipsis' := by
  have hcount : rest.count ':' + 1 ≤ (digits ++ ':' :: rest).count ':' := by
    rw [List.count_append, List.count_cons_self]
    omega
  refine ⟨fun c hc => ?_, ?_, h.ellipsis.imp id fun he => by omega⟩
  · rcases List.mem_append.mp hc with hc | hc
    · exact hd c hc
    · rcases List.mem_cons.mp hc with rfl | hc
      · decide
      · exact h.chars c hc
  · have hlen := h.length
    simp only [List.length_append, List.length_cons, List.length_nil] at hlen
    omega

/-- A second colon, where `::` stands. -/
theorem FieldsRead.ellipsis_field {digits rest : List Char} {ip ip' : List UInt8} {a b : UInt8}
    {ellipsis found ellipsis' : Option Nat} (hd : ∀ c ∈ digits, c ∈ addressChars)
    (h : FieldsRead rest (ip ++ [a, b]) ip' found ellipsis') :
    FieldsRead (digits ++ ':' :: ':' :: rest) ip ip' ellipsis ellipsis' := by
  have hd' : ∀ c ∈ digits ++ [':'], c ∈ addressChars := by
    intro c hc
    rcases List.mem_append.mp hc with hc | hc
    · exact hd c hc
    · rw [List.mem_singleton.mp hc]
      decide
  have hread := h.field hd'
  rw [List.append_assoc, List.singleton_append] at hread
  refine ⟨hread.chars, hread.length, .inr ?_⟩
  rw [List.count_append, List.count_cons_self, List.count_cons_self]
  omega

theorem ipv6Fields_some {fuel : Nat} {s : List Char} {ip ip' : List UInt8}
    {ellipsis ellipsis' : Option Nat}
    (h : ipv6Fields fuel s ip ellipsis = some ([], ip', ellipsis')) :
    FieldsRead s ip ip' ellipsis ellipsis' := by
  induction fuel generalizing s ip ellipsis with
  | zero =>
    cases h
    exact .nil ip' ellipsis'
  | succ fuel ih =>
    have hs := List.takeWhile_append_dropWhile (p := Char.isHexDigit) (l := s)
    have hdigits : ∀ c ∈ s.takeWhile Char.isHexDigit, c ∈ addressChars :=
      fun c hc => mem_addressChars_of_isHexDigit (List.mem_takeWhile_imp hc)
    unfold ipv6Fields at h
    simp only at h
    generalize s.takeWhile Char.isHexDigit = digits at h hs hdigits
    generalize s.dropWhile Char.isHexDigit = rest at h hs
    split at h
    · cases h
    split at h
    · -- the rest is an IPv4 address
      split at h
      · cases h
      · obtain ⟨v4, hv4, heq⟩ := Option.map_eq_some_iff.mp h
        cases heq
        obtain ⟨hlen, hchars⟩ := parseIPv4_some hv4
        refine ⟨fun c hc => ?_, ?_, .inl rfl⟩
        · rcases hchars c hc with rfl | hd
          · decide
          · exact mem_addressChars_of_isHexDigit (by simp [Char.isHexDigit, hd])
        · rw [List.length_append]
          omega
    subst hs
    split at h
    · -- the last field
      cases h
      refine ⟨by simpa using hdigits, ?_, .inl rfl⟩
      simp only [List.length_append, List.length_cons, List.length_nil]
      omega
    · split at h
      · cases h
      · rename_i hc
        rw [not_not.mp hc]
        split at h
        · cases h
        · split at h
          · cases h
          · split at h
            · rename_i hnil
              cases h
              subst hnil
              exact .ellipsis_field hdigits (.nil _ _)
            · exact .ellipsis_field hdigits (ih h)
        · exact .field hdigits (ih h)

theorem parseIPv6_hostText {s : List Char} {ip : List UInt8} (h : parseIPv6 s = some ip) :
    (∀ c ∈ s, c ∈ addressChars) ∧ 2 ≤ s.count ':' := by
  unfold parseIPv6 at h
  simp only at h
  split at h
  · rename_i rest
    have hrest : ∀ c ∈ rest, c ∈ addressChars := by
      split at h
      · rename_i hnil
        rw [(Prod.mk.inj hnil).1]
        simp
      · obtain ⟨⟨left, bytes, ellipsis⟩, hfields, h⟩ := Option.bind_eq_some_iff.mp h
        simp only [ne_eq, ite_not] at h
        split at h
        · rename_i hleft
          exact (ipv6Fields_some (hleft ▸ hfields)).chars
        · cases h
    have hcolon : ':' ∈ addressChars := by decide
    exact ⟨by simpa [hcolon] using hrest, by simp⟩
  · simp only [Prod.mk.injEq, reduceCtorEq, and_false, ↓reduceIte] at h
    obtain ⟨⟨left, bytes, ellipsis⟩, hfields, h⟩ := Option.bind_eq_some_iff.mp h
    simp only [ne_eq, ite_not] at h
    split at h
    · rename_i hleft
      have hread := ipv6Fields_some (hleft ▸ hfields)
      refine ⟨hread.chars, ?_⟩
      rcases hread.ellipsis with rfl | he
      · -- without `::` there are eight groups
        simp only at h
        split at h
        · have hlen := hread.length
          simp only [List.length_nil] at hlen
          omega
        · cases h
      · exact he
    · cases h

/-- An IP address has a dot or a colon. -/
theorem separator_of_parseIP {host : String} (h : (parseIP host).isSome = true) :
    '.' ∈ host.toList ∨ ':' ∈ host.toList := by
  unfold parseIP at h
  simp only at h
  split at h
  · cases h
  · split at h
    · rename_i hfind
      exact .inl (List.mem_of_find?_eq_some hfind)
    · rename_i hfind
      exact .inr (List.mem_of_find?_eq_some hfind)
    · cases h

/-- A text that is an IP address is the text of a host. -/
theorem hostText_of_parseIP {host : String} {ip : IP} (h : parseIP host = some ip) :
    (∀ c ∈ host.toList, c ∈ addressChars) ∧ HostText host := by
  have hplain : ∀ c ∈ addressChars, c ≠ '[' ∧ c ≠ ']' ∧ Strings.isSpace c = false :=
    List.all_iff_forall_prop.mp (by decide)
  have htext : (∀ c ∈ host.toList, c ∈ addressChars) ∧
      (':' ∉ host.toList ∨ 2 ≤ host.toList.count ':') := by
    unfold parseIP at h
    simp only at h
    split at h
    · cases h
    · split at h
      · obtain ⟨bytes, hbytes, -⟩ := Option.map_eq_some_iff.mp h
        have hchars := (parseIPv4_some hbytes).2
        refine ⟨fun c hc => ?_, .inl fun hc => ?_⟩
        · rcases hchars c hc with rfl | hd
          · decide
          · exact mem_addressChars_of_isHexDigit (by simp [Char.isHexDigit, hd])
        · exact absurd (hchars ':' hc) (by decide)
      · exact (parseIPv6_hostText h).imp id .inr
      · cases h
  obtain ⟨hchars, hcolons⟩ := htext
  have hbare : Bare host := ⟨fun hc => (hplain _ (hchars _ hc)).1 rfl,
    fun hc => (hplain _ (hchars _ hc)).2.1 rfl, fun c hc => (hplain c (hchars c hc)).2.2⟩
  exact ⟨hchars, hbare, hcolons⟩

end SniShaper.Net
