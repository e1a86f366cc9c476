import SniShaper.Ech.HelloRoundTrip

/-! The inner hello of an Encrypted ClientHello: its encoded form, which leaves
out the session id and only names the extensions that it shares with the outer
hello, and how the hello is put together again (`ech.go`). The client itself
uses the second function, to compute the transcript of the inner handshake.

Proved here:

* `decodeInnerClientHello_encode`: decoding an encoded inner hello over an outer
  one gives the inner hello, with the outer session id and with the outer
  hello's version of every extension that it only named;
* `encode_reveals_name_length`: the padding is the same for all names that the
  configuration allows for, so the length still tells the length of the name. -/

namespace SniShaper.Ech

open Wire ClientHelloMsg

/-! ## Encoding -/

/-- The number of padding bytes. The first value of `paddingLen` only enters the
remainder of the second. -/
def paddingLen (hLen nameLen maxNameLength : Nat) : Nat :=
  let paddingLen := if nameLen ≠ 0 then maxNameLength - nameLen else maxNameLength + 9
  31 - (hLen + paddingLen - 1) % 32

def encodeInnerClientHelloReorderOuterExts (inner : ClientHelloMsg) (maxNameLength : Nat)
    (outerExts : Option (List UInt16)) : Except String (List UInt8) := do
  let h ← inner.marshalMsgReorderOuterExts true outerExts
  let h := h.drop 4
  return h ++ List.replicate (paddingLen h.length inner.serverName.length maxNameLength) 0

def encodeInnerClientHello (inner : ClientHelloMsg) (maxNameLength : Nat) :
    Except String (List UInt8) :=
  encodeInnerClientHelloReorderOuterExts inner maxNameLength none

/-! ## Decoding -/

def errMalformedOuter : String := "tls: malformed outer client hello"

def errInvalidInner : String := "tls: invalid inner client hello"

def errInvalidOuterExts : String := "tls: invalid outer extensions"

def errInvalidECHExt : String := "tls: client sent invalid encrypted_client_hello extension"

def skipUint8LengthPrefixed (s : List UInt8) : Option (List UInt8) := do
  let (n, s) ← readUint8 s
  skip n.toNat s

def skipUint16LengthPrefixed (s : List UInt8) : Option (List UInt8) := do
  let (n, s) ← readUint16 s
  skip n.toNat s

/-- The extensions of a hello, as pairs of a type and its data. -/
def extractRawExtensions (hello : ClientHelloMsg) : Except String (List (UInt16 × List UInt8)) := do
  let s ← orError errMalformedOuter (do
    let s ← skip (4 + 2 + 32) (hello.original.getD [])
    let s ← skipUint8LengthPrefixed s
    let s ← skipUint16LengthPrefixed s
    skipUint8LengthPrefixed s)
  let (extensions, _) ← orError errMalformedOuter (readUint16LengthPrefixed s)
  drain (.error errInvalidInner) (fun rows s => do
    let (extension, s) ← orError errInvalidInner (readUint16 s)
    let (extData, s) ← orError errInvalidInner (readUint16LengthPrefixed s)
    return (rows ++ [(extension, extData)], s)) [] extensions

/-- `for ; i <= len(rawOuterExts); i++`: the rows from the first one of the given
type on. The index is kept as the rows that it has not passed. -/
def scanTo (extType : UInt16) : List (UInt16 × List UInt8) → Option (List (UInt16 × List UInt8))
  | [] => none
  | r :: rows => if r.1 = extType then some (r :: rows) else scanTo extType rows

/-- One type of an `ech_outer_extensions` extension. The index is not advanced past
the row that is taken. -/
def takeOuter (st : List (UInt16 × List UInt8) × List UInt8) (extType : UInt16) :
    Except String (List (UInt16 × List UInt8) × List UInt8) :=
  if extType = extensionEncryptedClientHello then .error errInvalidOuterExts
  else
    match scanTo extType st.1 with
    | some (r :: rows) => do
      let ext ← addExtension r.1 (.ok r.2)
      return (r :: rows, st.2 ++ ext)
    | _ => .error errInvalidOuterExts

/-- The loop over the types of an `ech_outer_extensions` extension. -/
def takeAll (rawOuterExts : List (UInt16 × List UInt8)) (extData : List UInt8) :
    Except String (List (UInt16 × List UInt8) × List UInt8) :=
  drain (.error errInvalidInner) (fun st s => do
    let (extType, s) ← orError errInvalidInner (readUint16 s)
    let st ← takeOuter st extType
    return (st, s)) (rawOuterExts, []) extData

def expandOuter (rawOuterExts : List (UInt16 × List UInt8)) (extData : List UInt8) :
    Except String (List UInt8) := do
  let (extData, _) ← orError errInvalidInner (readUint8LengthPrefixed extData)
  let (_, out) ← takeAll rawOuterExts extData
  return out

/-- One extension of the encoded inner hello. -/
def expandRow (rawOuterExts : List (UInt16 × List UInt8)) (out : List UInt8)
    (r : UInt16 × List UInt8) : Except String (List UInt8) := do
  let bytes ← if r.1 = extensionECHOuterExtensions then expandOuter rawOuterExts r.2
    else addExtension r.1 (.ok r.2)
  return out ++ bytes

def expandExts (rawOuterExts : List (UInt16 × List UInt8)) (extensions : List UInt8) :
    Except String (List UInt8) :=
  drain (.error errInvalidInner) (fun out s => do
    let (extension, s) ← orError errInvalidInner (readUint16 s)
    let (extData, s) ← orError errInvalidInner (readUint16LengthPrefixed s)
    let out ← expandRow rawOuterExts out (extension, extData)
    return (out, s)) [] extensions

/-- The message that is built from the parts of the encoded inner hello. -/
def reconstruct (versionAndRandom sessionId cipherSuites compressionMethods extBytes : List UInt8) :
    Except String (List UInt8) := do
  let body ← concat [.ok versionAndRandom, addUint8LengthPrefixed sessionId,
    addUint16LengthPrefixed cipherSuites, addUint8LengthPrefixed compressionMethods,
    addUint16LengthPrefixed extBytes]
  let body ← addUint24LengthPrefixed body
  return addUint8 typeClientHello ++ body

/-- The parts of an encoded inner hello, and its padding. -/
def readEncoded (encoded : List UInt8) :
    Option ((List UInt8 × List UInt8 × List UInt8 × List UInt8) × List UInt8) := do
  let (versionAndRandom, s) ← readBytes (2 + 32) encoded
  let (sessionID, s) ← readUint8LengthPrefixed s
  require (sessionID.length = 0)
  let (cipherSuites, s) ← readUint16LengthPrefixed s
  let (compressionMethods, s) ← readUint8LengthPrefixed s
  let (extensions, s) ← readUint16LengthPrefixed s
  return ((versionAndRandom, cipherSuites, compressionMethods, extensions), s)

/-- What is asked of a message that was put together again. -/
def acceptInner (reconBytes : List UInt8) : Except String ClientHelloMsg := do
  let inner ← orError "tls: invalid reconstructed inner client hello" (unmarshal reconBytes)
  if inner.encryptedClientHello ≠ [1] then throw errInvalidECHExt
  if inner.supportedVersions ≠ [versionTLS13] then
    throw "tls: client sent encrypted_client_hello extension and offered incompatible versions"
  return inner

def decodeInnerClientHello (outer : ClientHelloMsg) (encoded : List UInt8) :
    Except String ClientHelloMsg := do
  let ((versionAndRandom, cipherSuites, compressionMethods, extensions), padding) ←
    orError errInvalidInner (readEncoded encoded)
  if !padding.all (· == 0) then throw errInvalidInner
  let rawOuterExts ← extractRawExtensions outer
  let extBytes ← expandExts rawOuterExts extensions
  let reconBytes ← reconstruct versionAndRandom outer.sessionId cipherSuites compressionMethods
    extBytes
  acceptInner reconBytes

/-! ## Reading the outer hello -/

theorem skipUint8LengthPrefixed_eq (s : List UInt8) :
    skipUint8LengthPrefixed s = (readUint8LengthPrefixed s).map Prod.snd := by
  simp only [skipUint8LengthPrefixed, readUint8, readUint8LengthPrefixed, readLengthPrefixed]
  cases h : readUint 1 s with
  | none => rfl
  | some p =>
    have hlt := (readUint_inv h).2
    simp [skip, Nat.mod_eq_of_lt (by simpa using hlt : p.1 < 256)]

theorem skipUint16LengthPrefixed_eq (s : List UInt8) :
    skipUint16LengthPrefixed s = (readUint16LengthPrefixed s).map Prod.snd := by
  simp only [skipUint16LengthPrefixed, readUint16, readUint16LengthPrefixed, readLengthPrefixed]
  cases h : readUint 2 s with
  | none => rfl
  | some p =>
    have hlt := (readUint_inv h).2
    simp [skip, Nat.mod_eq_of_lt (by simpa using hlt : p.1 < 65536)]

theorem readUint16s_inv {s : List UInt8} {vs : List UInt16} (h : readUint16s s = some vs) :
    s = putUint16s vs := by
  have hread := drain_collect Format.uint16 (some : UInt16 → Option UInt16)
    (fun vs s => do
      let (v, s) ← readUint16 s
      return (vs ++ [v], s)) (fun _ _ => rfl) s
  rw [readUint16s, hread, Option.bind_eq_some_iff] at h
  obtain ⟨as, has, hmap⟩ := h
  have hall : as.mapM some = some (as.map id) := mapM_of_forall fun _ _ => rfl
  rw [hall, List.map_id] at hmap
  cases hmap
  exact (Format.uint16.readAll_inv has).2

/-- A message that is accepted, with extensions in it, is laid out as a message. -/
theorem unmarshal_inv {bs : List UInt8} {m : ClientHelloMsg} (h : unmarshal bs = some m)
    (hne : m.extensions ≠ []) :
    ∃ vers random sessionId cipherSuites compressionMethods extBytes,
      Layout bs vers random sessionId cipherSuites compressionMethods extBytes ∧ extBytes ≠ [] := by
  simp only [unmarshal, Option.bind_eq_bind, Option.bind_eq_some_iff] at h
  obtain ⟨s0, h0, ⟨vers, s1⟩, h1, ⟨random, s2⟩, h2, ⟨sid, s3⟩, h3, ⟨suites, s4⟩, h4, vs, h5,
    ⟨comp, s5⟩, h6, h⟩ := h
  simp only at h
  split at h
  next =>
    cases h
    exact absurd rfl hne
  next hs5 =>
    simp only [Option.bind_eq_some_iff] at h
    obtain ⟨⟨ext, s6⟩, h7, _, h8, h9⟩ := h
    obtain ⟨header, hheader, hbs⟩ := skip_inv h0
    obtain ⟨rfl, hrandom⟩ := readBytes_inv h2
    obtain ⟨sid', hsid, rfl⟩ := readLengthPrefixed_inv h3
    obtain ⟨suites', hsuites, rfl⟩ := readLengthPrefixed_inv h4
    obtain ⟨comp', hcomp, rfl⟩ := readLengthPrefixed_inv h6
    obtain ⟨block, hblock, rfl⟩ := readLengthPrefixed_inv h7
    obtain rfl := require_eq_some.mp h8
    obtain rfl := readUint16s_inv h5
    rw [readUint16_inv h1, List.append_nil] at hbs
    have hext : ext ≠ [] := by
      rintro rfl
      simp only [readExtensions, drain, drainFuel, List.length_nil] at h9
      cases h9
      exact hne rfl
    refine ⟨vers, random, sid, vs, comp, ext, ⟨hrandom, header, sid', suites', comp', block, hheader,
      hsid, hsuites, hcomp, ?_, hbs⟩, hext⟩
    rw [if_pos (List.length_pos_iff.mpr hext)]
    exact hblock

/-- Reading a type and its data, with the same error for both. -/
theorem orError_block {ε β : Type} (e : ε) (s : List UInt8)
    (f : UInt16 → List UInt8 → List UInt8 → Except ε β) :
    (do
      let (t, s) ← orError e (readUint16 s)
      let (data, s) ← orError e (readUint16LengthPrefixed s)
      f t data s) = (orError e (Format.block.read s)).bind fun p => f p.1.1 p.1.2 p.2 := by
  change _ = (orError e ((readUint16 s).bind fun p => (readUint16LengthPrefixed p.2).bind fun q =>
    some ((p.1, q.1), q.2))).bind _
  cases readUint16 s with
  | none => rfl
  | some p =>
    simp only [orError_some, bind, Except.bind, Option.bind_some]
    cases readUint16LengthPrefixed p.2 <;> rfl

theorem foldlM_append_ok {α : Type} (as acc : List α) :
    as.foldlM (fun acc a => (.ok (acc ++ [a]) : Except String (List α))) acc = .ok (acc ++ as) := by
  induction as generalizing acc with
  | nil => simp [pure, Except.pure]
  | cons a as ih =>
    rw [List.foldlM_cons]
    exact (ih (acc ++ [a])).trans (by simp)

/-- The extensions of such a message are found where they stand. -/
theorem extractRawExtensions_layout {hello : ClientHelloMsg} {bs : List UInt8} {vers : UInt16}
    {random sessionId : List UInt8} {cipherSuites : List UInt16}
    {compressionMethods extBytes : List UInt8}
    (h : Layout bs vers random sessionId cipherSuites compressionMethods extBytes)
    (hext : extBytes ≠ []) (horiginal : hello.original = some bs)
    {rows : List (UInt16 × List UInt8)} (hrows : Format.block.readAll extBytes = some rows) :
    extractRawExtensions hello = .ok rows := by
  obtain ⟨hrandom, header, sid, suites, compression, block, hheader, hsid, hsuites, hcomp, hblock,
    hbs⟩ := h
  rw [if_pos (List.length_pos_iff.mpr hext)] at hblock
  have hskip : skip (4 + 2 + 32) bs = some (sid ++ (suites ++ (compression ++ block))) := by
    have hfront : bs = (header ++ (addUint16 vers ++ random)) ++
        (sid ++ (suites ++ (compression ++ block))) := by
      rw [hbs]
      simp only [List.append_assoc]
    rw [hfront]
    exact skip_append (by simp [hheader, hrandom]) _
  have hloop : drain (.error errInvalidInner) (fun rows s => do
      let (extension, s) ← orError errInvalidInner (readUint16 s)
      let (extData, s) ← orError errInvalidInner (readUint16LengthPrefixed s)
      return (rows ++ [(extension, extData)], s)) [] extBytes = .ok rows := by
    refine (drain_ok_iff Format.block errInvalidInner errInvalidInner
      (fun rows r => .ok (rows ++ [r])) _ (fun rows s => ?_) [] rows extBytes).mpr
      ⟨rows, hrows, foldlM_append_ok rows []⟩
    exact orError_block errInvalidInner s fun t data s => .ok (rows ++ [(t, data)], s)
  simp only [extractRawExtensions, horiginal, Option.getD_some, hskip, Option.bind_some,
    skipUint8LengthPrefixed_eq, skipUint16LengthPrefixed_eq,
    readUint8LengthPrefixed, readUint16LengthPrefixed, readLengthPrefixed_add hsid,
    readLengthPrefixed_add hsuites, readLengthPrefixed_add hcomp, readPrefixed_all hblock,
    Option.map_some, orError_some, bind, Except.bind]
  exact hloop

/-- An extension does not touch the noted types. -/
theorem parseExtension_withTypes (m : ClientHelloMsg) (types : List UInt16) (data : List UInt8)
    (last : Bool) (k : ExtKind) :
    parseExtension (m.withTypes types) data last k =
      (parseExtension m data last k).map fun p => (p.1.withTypes types, p.2) := by
  cases k <;> simp [parseExtension, withTypes, Option.map_bind, -require_bind]

theorem parseExtension_extensions {m m' : ClientHelloMsg} {data rest : List UInt8} {last : Bool}
    {k : ExtKind} (h : parseExtension m data last k = some (m', rest)) :
    m'.extensions = m.extensions := by
  have htypes := parseExtension_withTypes m m.extensions data last k
  rw [show m.withTypes m.extensions = m from rfl, h, Option.map_some, Option.some.injEq,
    Prod.mk.injEq] at htypes
  rw [htypes.1]
  rfl

theorem acceptExtension_types {m m' : ClientHelloMsg} {t : UInt16} {data : List UInt8} {last : Bool}
    (h : acceptExtension m t data last = some m') :
    t ∉ m.extensions ∧ m'.extensions = m.extensions ++ [t] := by
  unfold acceptExtension at h
  split at h
  next => cases h
  next hnew =>
    refine ⟨by simpa using hnew, ?_⟩
    cases hk : ExtKind.ofCode t with
    | none =>
      rw [hk] at h
      cases h
      rfl
    | some k =>
      simp only [hk, Option.bind_eq_bind, Option.bind_eq_some_iff] at h
      obtain ⟨⟨m₁, rest⟩, hparse, _, _, hm⟩ := h
      cases hm
      exact parseExtension_extensions hparse

/-- The loop of `unmarshal` only accepts distinct new types. -/
theorem types_of_foldLast {rows : List (UInt16 × List UInt8)} {m m' : ClientHelloMsg}
    (h : foldLast (fun m r last => acceptExtension m r.1 r.2 last) m rows = some m') :
    (rows.map Prod.fst).Nodup ∧ ∀ r ∈ rows, r.1 ∉ m.extensions := by
  induction rows generalizing m with
  | nil => simp
  | cons r rows ih =>
    rw [foldLast, Option.bind_eq_some_iff] at h
    obtain ⟨m₁, hstep, htail⟩ := h
    obtain ⟨hnodup, hnew⟩ := ih htail
    obtain ⟨hr, htypes⟩ := acceptExtension_types hstep
    rw [htypes] at hnew
    constructor
    · rw [List.map_cons, List.nodup_cons]
      refine ⟨fun hmem => ?_, hnodup⟩
      obtain ⟨r', hr', heq⟩ := List.mem_map.mp hmem
      exact hnew r' hr' (by simp [heq])
    · intro r' hr'
      rcases List.mem_cons.mp hr' with rfl | htl
      · exact hr
      · exact fun hmem => hnew r' htl (List.mem_append_left _ hmem)

/-- What an accepted outer hello gives: its extensions, of distinct types, each of
a kind with the fields that the hello has. -/
structure Outer (raw : List UInt8) (outer : ClientHelloMsg) (rows : List (UInt16 × List UInt8)) :
    Prop where
  original : outer.original = some raw
  session : outer.sessionId.length < 256
  size : (Format.block.putAll rows).length ≤ raw.length
  extract : extractRawExtensions outer = .ok rows
  types : outer.extensions = rows.map Prod.fst
  nodup : (rows.map Prod.fst).Nodup
  fits : ∀ r ∈ rows, r.2.length < 65536
  reads : ∀ r ∈ rows, ∀ k, ExtKind.ofCode r.1 = some k → k ≠ .preSharedKey →
    ∃ e : Entry, e.kind = k ∧ e.data = r.2 ∧ Same k e.value outer

/-- Every extension of a known type has been read. -/
theorem readRows_mem {rows : List (UInt16 × List UInt8)} {vs : List (ExtKind × ClientHelloMsg)}
    (h : readRows rows = some vs) {r : UInt16 × List UInt8} (hr : r ∈ rows) {k : ExtKind}
    (hk : ExtKind.ofCode r.1 = some k) :
    ∃ v last, readRow r.2 last k = some v ∧ (k, v) ∈ vs := by
  induction rows generalizing vs with
  | nil => simp at hr
  | cons r' rows ih =>
    obtain ⟨t, data⟩ := r'
    rw [readRows] at h
    cases hk' : ExtKind.ofCode t with
    | none =>
      rw [hk'] at h
      rcases List.mem_cons.mp hr with rfl | htl
      · rw [hk'] at hk
        cases hk
      · exact ih h htl
    | some k' =>
      simp only [hk', Option.bind_eq_bind, Option.bind_eq_some_iff] at h
      obtain ⟨v, hv, vs', hvs', heq⟩ := h
      cases heq
      rcases List.mem_cons.mp hr with rfl | htl
      · rw [hk'] at hk
        cases hk
        exact ⟨v, _, hv, by simp⟩
      · obtain ⟨w, last, hw, hmem⟩ := ih hvs' htl
        exact ⟨w, last, hw, List.mem_cons_of_mem _ hmem⟩

theorem readRows_kinds {rows : List (UInt16 × List UInt8)} {vs : List (ExtKind × ClientHelloMsg)}
    (h : readRows rows = some vs) :
    ((vs.map Prod.fst).map ExtKind.code).Sublist (rows.map Prod.fst) := by
  induction rows generalizing vs with
  | nil =>
    cases h
    simp
  | cons r rows ih =>
    obtain ⟨t, data⟩ := r
    rw [readRows] at h
    cases hk : ExtKind.ofCode t with
    | none =>
      rw [hk] at h
      exact (ih h).cons t
    | some k =>
      simp only [hk, Option.bind_eq_bind, Option.bind_eq_some_iff] at h
      obtain ⟨v, -, vs', hvs', heq⟩ := h
      cases heq
      rw [List.map_cons, List.map_cons, List.map_cons, code_of_ofCode hk]
      exact (ih hvs').cons_cons t

theorem outer_of_layout {bs : List UInt8} {vers : UInt16} {random sid : List UInt8}
    {suites : List UInt16} {comp ext : List UInt8} {outer : ClientHelloMsg}
    (hlayout : Layout bs vers random sid suites comp ext) (hext : ext ≠ [])
    (h : unmarshal bs = some outer) :
    ∃ rows, Format.block.readAll ext = some rows ∧ Outer bs outer rows ∧ outer.sessionId = sid := by
  rw [unmarshal_layout hlayout, readExtensions_eq, Option.bind_eq_some_iff] at h
  obtain ⟨rows, hrows, hfold⟩ := h
  obtain ⟨hnodup, hnew⟩ := types_of_foldLast hfold
  obtain ⟨hfits, hput⟩ := Format.block.readAll_inv hrows
  rw [foldLast_accept rows _ hnew hnodup, Option.map_eq_some_iff] at hfold
  · obtain ⟨vs, hvs, rfl⟩ := hfold
    have hfixed := copyAll_fixedPart vs (readFixed bs vers random sid suites comp)
    have hsession := congrArg ClientHelloMsg.sessionId hfixed
    have horiginal := congrArg ClientHelloMsg.original hfixed
    have hsize := hlayout.length_eq hext
    refine ⟨rows, hrows, ⟨horiginal, ?_, by rw [← hput]; omega,
      extractRawExtensions_layout hlayout hext horiginal hrows, rfl, hnodup,
      fun r hr => (hfits r hr).2, fun r hr k hk hpsk => ?_⟩, hsession⟩
    · obtain ⟨-, _, _, _, _, _, -, hsid, -⟩ := hlayout
      exact (congrArg List.length hsession).trans_lt (addLengthPrefixed_ok.mp hsid).1
    · obtain ⟨v, last, hv, hmem⟩ := readRows_mem hvs hr hk
      have hkinds : (vs.map Prod.fst).Nodup := ((readRows_kinds hvs).nodup hnodup).of_map _
      have hany : ∀ last, readRow r.2 last k = some v := fun last' => by
        rw [readRow_last r.2 fun h => absurd h hpsk, ← readRow_last r.2 fun h => absurd h hpsk]
        exact hv
      exact ⟨⟨k, r.2, v, fun last' _ => hany last'⟩, rfl, rfl,
        ((same_withTypes k _ _).trans (same_copyAll_of_mem vs _ hkinds hmem)).symm⟩
  · intro r _ k _ hk
    cases k <;> first | rfl | exact absurd rfl hk

/-! ## Putting the extensions together -/

theorem scanTo_append {s t : List (UInt16 × List UInt8)} {r : UInt16 × List UInt8}
    (h : ∀ r' ∈ s, r'.1 ≠ r.1) : scanTo r.1 (s ++ r :: t) = some (r :: t) := by
  induction s with
  | nil => simp [scanTo]
  | cons r' s ih =>
    rw [List.cons_append, scanTo, if_neg (h r' (by simp))]
    exact ih fun x hx => h x (by simp [hx])

theorem addExtension_fits {r : UInt16 × List UInt8} (h : r.2.length < 65536) :
    addExtension r.1 (.ok r.2) = .ok (Format.block.put r) :=
  addExtension_ok.mpr ⟨r.2, rfl, h, rfl⟩

theorem takeOuter_found {cur rows : List (UInt16 × List UInt8)} {r : UInt16 × List UInt8}
    (hscan : scanTo r.1 cur = some (r :: rows)) (hfits : r.2.length < 65536)
    (hech : r.1 ≠ extensionEncryptedClientHello) (out : List UInt8) :
    takeOuter (cur, out) r.1 = .ok (r :: rows, out ++ Format.block.put r) := by
  simp only [takeOuter, hech, if_false, hscan, addExtension_fits hfits]
  rfl

/-- The scan finds every named extension, as they are named in the order of the
outer hello. -/
theorem takeOuter_sublist (named cur : List (UInt16 × List UInt8)) (out : List UInt8)
    (hsub : named.Sublist cur) (hnodup : (cur.map Prod.fst).Nodup)
    (hfits : ∀ r ∈ named, r.2.length < 65536)
    (hech : ∀ r ∈ named, r.1 ≠ extensionEncryptedClientHello) :
    ∃ cur', (named.map Prod.fst).foldlM takeOuter (cur, out) =
      .ok (cur', out ++ Format.block.putAll named) := by
  induction named generalizing cur out with
  | nil => exact ⟨cur, by simp [pure, Except.pure]⟩
  | cons r named ih =>
    obtain ⟨s, t, rfl, hr, ht⟩ := List.cons_sublist_iff.mp hsub
    obtain ⟨s₁, s₂, rfl⟩ := List.append_of_mem hr
    rw [List.append_assoc, List.cons_append] at hnodup ⊢
    have hbefore : ∀ r' ∈ s₁, r'.1 ≠ r.1 := by
      intro r' hr' heq
      rw [List.map_append, List.map_cons] at hnodup
      exact (List.disjoint_of_nodup_append hnodup) (List.mem_map_of_mem hr') (by simp [heq])
    have hstep := takeOuter_found (scanTo_append (t := s₂ ++ t) hbefore) (hfits r (by simp))
      (hech r (by simp)) out
    obtain ⟨cur', hrest⟩ := ih (r :: (s₂ ++ t)) (out ++ Format.block.put r)
      ((ht.trans (List.sublist_append_right s₂ t)).cons r)
      (hnodup.sublist ((List.sublist_append_right s₁ _).map _))
      (fun x hx => hfits x (by simp [hx])) (fun x hx => hech x (by simp [hx]))
    refine ⟨cur', ?_⟩
    rw [List.map_cons, List.foldlM_cons, hstep]
    simpa [Format.putAll_cons, bind, Except.bind] using hrest

theorem expandOuter_named {rawOuterExts named : List (UInt16 × List UInt8)} {data : List UInt8}
    (hdata : addUint8LengthPrefixed (putUint16s (named.map Prod.fst)) = .ok data)
    (hsub : named.Sublist rawOuterExts) (hnodup : (rawOuterExts.map Prod.fst).Nodup)
    (hfits : ∀ r ∈ named, r.2.length < 65536)
    (hech : ∀ r ∈ named, r.1 ≠ extensionEncryptedClientHello) :
    expandOuter rawOuterExts data = .ok (Format.block.putAll named) := by
  obtain ⟨cur', hfold⟩ := takeOuter_sublist named rawOuterExts [] hsub hnodup hfits hech
  have hloop : takeAll rawOuterExts (putUint16s (named.map Prod.fst)) =
      .ok (cur', [] ++ Format.block.putAll named) := by
    refine (drain_ok_iff Format.uint16 errInvalidInner errInvalidInner takeOuter _
      (fun st s => ?_) _ _ _).mpr
      ⟨named.map Prod.fst, Format.uint16.readAll_putAll _ fun _ _ => trivial, hfold⟩
    change _ = (orError errInvalidInner (readUint16 s)).bind _
    cases readUint16 s with
    | none => rfl
    | some p =>
      cases h : takeOuter st p.1 <;> simp [bind, Except.bind, h, Except.map, pure, Except.pure]
  simp only [expandOuter, readUint8LengthPrefixed, readPrefixed_all hdata, orError_some, bind,
    Except.bind, hloop]
  rfl

/-- Extensions of the inner hello itself are kept. -/
theorem expandRow_own (rawOuterExts rows : List (UInt16 × List UInt8)) (out : List UInt8)
    (hfits : ∀ r ∈ rows, r.2.length < 65536)
    (hown : ∀ r ∈ rows, r.1 ≠ extensionECHOuterExtensions) :
    rows.foldlM (expandRow rawOuterExts) out = .ok (out ++ Format.block.putAll rows) := by
  induction rows generalizing out with
  | nil => simp [pure, Except.pure]
  | cons r rows ih =>
    have hstep : expandRow rawOuterExts out r = .ok (out ++ Format.block.put r) := by
      simp only [expandRow, hown r (by simp), if_false, addExtension_fits (hfits r (by simp))]
      rfl
    rw [List.foldlM_cons, hstep]
    simpa [Format.putAll_cons, bind, Except.bind] using
      ih (out ++ Format.block.put r) (fun x hx => hfits x (by simp [hx]))
        fun x hx => hown x (by simp [hx])

theorem expandExts_ok {rawOuterExts rows : List (UInt16 × List UInt8)} {out : List UInt8}
    (hfits : ∀ r ∈ rows, Format.block.Fits r)
    (hfold : rows.foldlM (expandRow rawOuterExts) [] = .ok out) :
    expandExts rawOuterExts (Format.block.putAll rows) = .ok out := by
  refine (drain_ok_iff Format.block errInvalidInner errInvalidInner (expandRow rawOuterExts) _
    (fun out s => ?_) _ _ _).mpr ⟨rows, Format.block.readAll_putAll rows hfits, hfold⟩
  rw [orError_block errInvalidInner s fun t data s => do
    let out ← expandRow rawOuterExts out (t, data)
    return (out, s)]
  cases Format.block.read s with
  | none => rfl
  | some p =>
    cases h : expandRow rawOuterExts out p.1 <;>
      simp [bind, Except.bind, h, Except.map, pure, Except.pure]

/-! ## What the encoded hello holds -/

/-- The kinds that an inner hello writes itself when an order is given, besides the
pre-shared keys. -/
def innerKinds : List ExtKind := .serverName :: ownKinds ++ [.supportedVersions]

theorem marshalExts_inner (m : ClientHelloMsg) (exts : List UInt16) :
    m.marshalExts true (some exts) = concat (innerKinds.map m.addKind ++
      ([addOuterExts (m.outerExtsOf true (some exts))] ++ [m.addKind .preSharedKey])) := by
  have hlegacy := concat_map_filter (fun _ => true) m.addKind legacyKinds [m.addKind .serverName]
    (ownKinds.map m.addKind ++
      sharedKinds.map (fun k => if named true (some exts) k then .ok [] else m.addKind k) ++
      [addOuterExts (m.outerExtsOf true (some exts))] ++ [m.addKind .preSharedKey])
  have hshared := concat_map_filter (named true (some exts)) m.addKind sharedKinds
    ([m.addKind .serverName] ++ ownKinds.map m.addKind)
    ([addOuterExts (m.outerExtsOf true (some exts))] ++ [m.addKind .preSharedKey])
  have hkinds : (sharedKinds.filter fun k => !named true (some exts) k) = [.supportedVersions] := rfl
  rw [hkinds] at hshared
  simp only [if_true, Bool.not_true, List.filter_false, List.map_nil, List.append_nil] at hlegacy
  rw [marshalExts]
  simp only [if_true]
  simp only [List.append_assoc] at hlegacy hshared ⊢
  rw [hlegacy, hshared]
  rfl

theorem mem_outerExtsOf {m : ClientHelloMsg} {exts : List UInt16} {t : UInt16}
    (h : t ∈ m.outerExtsOf true (some exts)) :
    ∃ k ∈ sharedKinds, k ≠ .supportedVersions ∧ k.code = t := by
  simp only [outerExtsOf, if_true, List.mem_filter, List.contains_iff_mem, List.mem_map] at h
  obtain ⟨-, k, ⟨hk, hnamed⟩, rfl⟩ := h
  refine ⟨k, hk, ?_, rfl⟩
  rintro rfl
  simp [named] at hnamed

theorem shared_code_ne {k : ExtKind} (h : k ∈ sharedKinds) :
    k.code ≠ extensionEncryptedClientHello := by
  revert k
  decide

theorem code_ne_outer (k : ExtKind) : k.code ≠ extensionECHOuterExtensions := by
  cases k <;> decide

/-- The extension that names the shared ones stands for them. -/
theorem expandRow_named {named rows : List (UInt16 × List UInt8)} {bytes : List UInt8}
    (h : addOuterExts (named.map Prod.fst) = .ok bytes)
    (hsub : named.Sublist rows) (hnodup : (rows.map Prod.fst).Nodup)
    (hfits : ∀ r ∈ named, r.2.length < 65536)
    (hech : ∀ r ∈ named, r.1 ≠ extensionEncryptedClientHello) :
    ∃ row, bytes = Format.block.putAll row ∧ (∀ r ∈ row, Format.block.Fits r) ∧
      ∀ out, row.foldlM (expandRow rows) out = .ok (out ++ Format.block.putAll named) := by
  unfold addOuterExts at h
  split at h
  next hpos =>
    obtain ⟨data, hdata, hlt, rfl⟩ := addExtension_ok.mp h
    have hexpand := expandOuter_named hdata hsub hnodup hfits hech
    refine ⟨[(extensionECHOuterExtensions, data)], by simp [Format.putAll_cons], ?_, fun out => ?_⟩
    · rw [List.forall_mem_singleton]
      exact ⟨trivial, hlt⟩
    · rw [List.foldlM_cons]
      simp only [expandRow, if_true, hexpand]
      rfl
  next hnil =>
    cases h
    have hempty : named = [] := by simpa using hnil
    exact ⟨[], rfl, by simp, fun out => by simp [hempty, pure, Except.pure]⟩

theorem fits_rows {m : ClientHelloMsg} {ks : List ExtKind} (hw : Writable m ks) :
    ∀ r ∈ m.rows ks, r.2.length < 65536 ∧ r.1 ≠ extensionECHOuterExtensions := by
  intro r hr
  obtain ⟨k, hk, rfl⟩ := List.mem_map.mp hr
  exact ⟨(hw k hk).2, code_ne_outer k⟩

/-- The extensions of an encoded inner hello, and what they expand to. -/
theorem expandExts_inner {inner outer : ClientHelloMsg} {exts : List UInt16} {ext : List UInt8}
    {raw : List UInt8} {rows shared : List (UInt16 × List UInt8)} (houter : Outer raw outer rows)
    (hext : inner.marshalExts true (some exts) = .ok ext) (hsub : shared.Sublist rows)
    (hnamed : shared.map Prod.fst = inner.outerExtsOf true (some exts)) :
    Writable inner innerKinds ∧ Writable inner [.preSharedKey] ∧
      (Format.block.putAll (inner.rows innerKinds)).length +
        (Format.block.putAll (inner.rows [.preSharedKey])).length ≤ ext.length ∧
      expandExts rows ext = .ok (Format.block.putAll
        (inner.rows innerKinds ++ (shared ++ inner.rows [.preSharedKey]))) := by
  rw [marshalExts_inner, concat_append_ok] at hext
  obtain ⟨own, rest, hown, hrest, rfl⟩ := hext
  obtain ⟨bytes, psk, hbytes, hpsk, rfl⟩ := concat_append_ok.mp hrest
  obtain ⟨hw, rfl⟩ := concat_addKind.mp hown
  obtain ⟨hw', rfl⟩ := concat_addKind.mp (show concat ([ExtKind.preSharedKey].map inner.addKind) = _ from hpsk)
  rw [← hnamed] at hbytes
  obtain ⟨_, _, hb, hnil, rfl⟩ := concat_cons_ok.mp hbytes
  cases hnil
  have hech : ∀ r ∈ shared, r.1 ≠ extensionEncryptedClientHello := by
    intro r hr
    have hmem : r.1 ∈ inner.outerExtsOf true (some exts) := hnamed ▸ List.mem_map_of_mem hr
    obtain ⟨k, hk, -, hcode⟩ := mem_outerExtsOf hmem
    exact hcode ▸ shared_code_ne hk
  obtain ⟨row, rfl, hrow, hexpand⟩ := expandRow_named hb hsub houter.nodup
    (fun r hr => houter.fits r (hsub.subset hr)) hech
  refine ⟨hw, hw', by simp only [List.length_append]; omega, ?_⟩
  rw [List.append_nil, ← Format.putAll_append, ← Format.putAll_append]
  refine expandExts_ok (fun r hr => ?_) ?_
  · rcases List.mem_append.mp hr with hr | hr
    · exact ⟨trivial, (fits_rows hw r hr).1⟩
    · rcases List.mem_append.mp hr with hr | hr
      · exact hrow r hr
      · exact ⟨trivial, (fits_rows hw' r hr).1⟩
  · have hfirst := expandRow_own rows (inner.rows innerKinds) []
      (fun r hr => (fits_rows hw r hr).1) fun r hr => (fits_rows hw r hr).2
    have hlast := fun out => expandRow_own rows (inner.rows [.preSharedKey]) out
      (fun r hr => (fits_rows hw' r hr).1) fun r hr => (fits_rows hw' r hr).2
    simp only [List.foldlM_append, hfirst, hexpand, hlast, bind, Except.bind,
      Format.putAll_append, List.nil_append, List.append_assoc]

/-! ## Decoding what was encoded -/

theorem readEncoded_layout {h : List UInt8} {vers : UInt16} {random : List UInt8}
    {cipherSuites : List UInt16} {compressionMethods extBytes : List UInt8}
    (hlayout : Layout h vers random [] cipherSuites compressionMethods extBytes)
    (hext : extBytes ≠ []) (padding : List UInt8) :
    readEncoded (h.drop 4 ++ padding) =
      some ((addUint16 vers ++ random, putUint16s cipherSuites, compressionMethods, extBytes),
        padding) := by
  obtain ⟨hrandom, header, sid, suites, compression, block, hheader, hsid, hsuites, hcomp, hblock,
    rfl⟩ := hlayout
  rw [if_pos (List.length_pos_iff.mpr hext)] at hblock
  have hfront : (header ++ (addUint16 vers ++ (random ++ (sid ++ (suites ++ (compression ++
      block)))))).drop 4 ++ padding =
      (addUint16 vers ++ random) ++ (sid ++ (suites ++ (compression ++ (block ++ padding)))) := by
    rw [List.drop_left' hheader]
    simp only [List.append_assoc]
  rw [hfront]
  have hlen : (addUint16 vers ++ random).length = 2 + 32 := by simp [hrandom]
  simp only [readEncoded, readBytes_append hlen, Option.bind_eq_bind, Option.bind_some,
    readUint8LengthPrefixed, readUint16LengthPrefixed, readLengthPrefixed_add hsid,
    readLengthPrefixed_add hsuites, readLengthPrefixed_add hcomp, readLengthPrefixed_add hblock]
  rfl

/-- The parts of a message are put together again, around other extensions. -/
theorem reconstruct_layout {h : List UInt8} {vers : UInt16} {random sid sessionId : List UInt8}
    {cipherSuites : List UInt16} {compressionMethods ext extBytes : List UInt8}
    (hlayout : Layout h vers random sid cipherSuites compressionMethods ext)
    (hsession : sessionId.length < 256) (hext : extBytes ≠ []) (hsize : extBytes.length < 65536) :
    ∃ recon, reconstruct (addUint16 vers ++ random) sessionId (putUint16s cipherSuites)
        compressionMethods extBytes = .ok recon ∧
      Layout recon vers random sessionId cipherSuites compressionMethods extBytes := by
  obtain ⟨hrandom, _, _, _, _, _, -, -, hsuites, hcompression, -, -⟩ := hlayout
  replace hsuites := (addLengthPrefixed_ok.mp hsuites).1
  replace hcompression := (addLengthPrefixed_ok.mp hcompression).1
  have h1 : addUint8LengthPrefixed sessionId = .ok (putUint 1 sessionId.length ++ sessionId) :=
    addLengthPrefixed_ok.mpr ⟨hsession, rfl⟩
  have h2 : addUint16LengthPrefixed (putUint16s cipherSuites) =
      .ok (putUint 2 (putUint16s cipherSuites).length ++ putUint16s cipherSuites) :=
    addLengthPrefixed_ok.mpr ⟨hsuites, rfl⟩
  have h3 : addUint8LengthPrefixed compressionMethods =
      .ok (putUint 1 compressionMethods.length ++ compressionMethods) :=
    addLengthPrefixed_ok.mpr ⟨hcompression, rfl⟩
  have h4 : addUint16LengthPrefixed extBytes = .ok (putUint 2 extBytes.length ++ extBytes) :=
    addLengthPrefixed_ok.mpr ⟨hsize, rfl⟩
  generalize hbody : (addUint16 vers ++ random) ++ ((putUint 1 sessionId.length ++ sessionId) ++
    ((putUint 2 (putUint16s cipherSuites).length ++ putUint16s cipherSuites) ++
    ((putUint 1 compressionMethods.length ++ compressionMethods) ++
    (putUint 2 extBytes.length ++ extBytes)))) = body
  have h5 : addUint24LengthPrefixed body = .ok (putUint 3 body.length ++ body) := by
    refine addLengthPrefixed_ok.mpr ⟨?_, rfl⟩
    rw [← hbody]
    simp only [List.length_append, addUint16_length, putUint_length]
    omega
  refine ⟨addUint8 typeClientHello ++ (putUint 3 body.length ++ body), ?_, hrandom,
    addUint8 typeClientHello ++ putUint 3 body.length, _, _, _, _, by simp, h1, h2, h3,
    (if_pos (List.length_pos_iff.mpr hext)).trans h4, ?_⟩
  · simp only [reconstruct, h1, h2, h3, h4, concat, bind, Except.bind, pure, Except.pure,
      List.append_nil, hbody, h5]
  · rw [← hbody]
    simp only [List.append_assoc]

/-- The shared extensions, read from the outer hello. -/
theorem shared_entries {raw : List UInt8} {outer : ClientHelloMsg}
    {rows shared : List (UInt16 × List UInt8)} (houter : Outer raw outer rows) (hsub : shared.Sublist rows)
    (hshared : ∀ r ∈ shared, ∃ k ∈ sharedKinds, k ≠ .supportedVersions ∧ k.code = r.1) :
    ∃ es : List Entry, es.map Entry.row = shared ∧
      ∀ e ∈ es, e.kind ∈ sharedKinds ∧ e.kind ≠ .supportedVersions ∧
        Same e.kind e.value outer := by
  induction shared with
  | nil => exact ⟨[], rfl, by simp⟩
  | cons r shared ih =>
    obtain ⟨es, hrows, hes⟩ := ih ((List.sublist_cons_self r shared).trans hsub)
      fun x hx => hshared x (by simp [hx])
    obtain ⟨k, hk, hversions, hcode⟩ := hshared r (by simp)
    have hof : ExtKind.ofCode r.1 = some k := hcode ▸ ofCode_code k
    obtain ⟨e, rfl, hdata, hsame⟩ := houter.reads r (hsub.subset (by simp)) k hof
      (by rintro rfl; simp [sharedKinds] at hk)
    refine ⟨e :: es, ?_, by simpa using ⟨⟨hk, hversions, hsame⟩, hes⟩⟩
    rw [List.map_cons, hrows, Entry.row, hcode, hdata]

/-- `m` is the inner hello with the outer session id, and with the named extensions
as the outer hello has them. -/
structure Merged (m inner outer : ClientHelloMsg) (named : List UInt16) : Prop where
  vers : m.vers = inner.vers
  random : m.random = inner.random
  session : m.sessionId = outer.sessionId
  suites : m.cipherSuites = inner.cipherSuites
  compression : m.compressionMethods = inner.compressionMethods
  types : m.extensions = (innerKinds.filter inner.present).map ExtKind.code ++
    (named ++ ([ExtKind.preSharedKey].filter inner.present).map ExtKind.code)
  own : ∀ k, k ∈ innerKinds ∨ k = .preSharedKey → Same k m inner
  shared : ∀ k, k.code ∈ named → Same k m outer
  absent : ∀ k, k ∉ innerKinds → k ≠ .preSharedKey → k.code ∉ named → k ≠ .renegotiationInfo →
    Same k m {}

/-- Entries of the inner hello, then of the outer one, then the pre-shared keys. -/
structure Parts (inner outer : ClientHelloMsg) (named : List UInt16) (own shared psk : List Entry) :
    Prop where
  ownKinds : own.map Entry.kind = innerKinds.filter inner.present
  ownSame : ∀ e ∈ own, Same e.kind e.value inner
  sharedTypes : (shared.map Entry.kind).map ExtKind.code = named
  sharedKind : ∀ e ∈ shared, e.kind ∈ sharedKinds ∧ e.kind ≠ .supportedVersions
  sharedSame : ∀ e ∈ shared, Same e.kind e.value outer
  sharedNodup : (shared.map Entry.kind).Nodup
  pskKinds : psk.map Entry.kind = [ExtKind.preSharedKey].filter inner.present
  pskSame : ∀ e ∈ psk, Same e.kind e.value inner

namespace Parts

variable {inner outer : ClientHelloMsg} {named : List UInt16} {own shared psk : List Entry}

theorem kinds (h : Parts inner outer named own shared psk) :
    (own ++ (shared ++ psk)).map Entry.kind = innerKinds.filter inner.present ++
      (shared.map Entry.kind ++ [ExtKind.preSharedKey].filter inner.present) := by
  rw [List.map_append, List.map_append, h.ownKinds, h.pskKinds]

/-- A shared kind is none of those that the inner hello writes itself. -/
theorem shared_not_inner (h : Parts inner outer named own shared psk) {k : ExtKind}
    (hk : k ∈ shared.map Entry.kind) : k ∉ innerKinds ∧ k ≠ .preSharedKey := by
  obtain ⟨e, he, rfl⟩ := List.mem_map.mp hk
  obtain ⟨hmem, hversions⟩ := h.sharedKind e he
  revert hmem hversions
  cases e.kind <;> decide

theorem nodup (h : Parts inner outer named own shared psk) :
    ((own ++ (shared ++ psk)).map Entry.kind).Nodup := by
  rw [h.kinds]
  refine List.Nodup.append (List.Nodup.filter _ (by decide))
    (List.Nodup.append h.sharedNodup (List.Nodup.filter _ (by decide)) ?_) ?_
  · intro k hk hpsk
    exact (h.shared_not_inner hk).2 (List.mem_singleton.mp (List.mem_of_mem_filter hpsk))
  · intro k hk hrest
    have hinner := List.mem_of_mem_filter hk
    rcases List.mem_append.mp hrest with hs | hpsk
    · exact (h.shared_not_inner hs).1 hinner
    · obtain rfl := List.mem_singleton.mp (List.mem_of_mem_filter hpsk)
      exact absurd hinner (by decide)

theorem pskLast (h : Parts inner outer named own shared psk) :
    PskLast ((own ++ (shared ++ psk)).map Entry.kind) := by
  rw [h.kinds]
  refine pskLast_append (fun hk => ?_) (pskLast_append (fun hk => ?_) (pskLast_psk inner))
  · exact absurd (List.mem_of_mem_filter hk) (by decide)
  · exact (h.shared_not_inner hk).2 rfl

/-- A present extension of the inner hello's own has its entry. -/
theorem entry_of_present (h : Parts inner outer named own shared psk) {k : ExtKind}
    (hk : k ∈ innerKinds ∨ k = .preSharedKey) (hp : inner.present k = true) :
    ∃ e ∈ own ++ (shared ++ psk), e.kind = k ∧ Same e.kind e.value inner := by
  rcases hk with hk | rfl
  · obtain ⟨e, he, rfl⟩ := List.mem_map.mp (h.ownKinds ▸ List.mem_filter.mpr ⟨hk, hp⟩)
    exact ⟨e, by simp [he], rfl, h.ownSame e he⟩
  · have hmem : ExtKind.preSharedKey ∈ psk.map Entry.kind := by
      rw [h.pskKinds]
      exact List.mem_filter.mpr ⟨List.mem_singleton_self _, hp⟩
    obtain ⟨e, he, hkind⟩ := List.mem_map.mp hmem
    exact ⟨e, by simp [he], hkind, h.pskSame e he⟩

theorem present_of_mem (h : Parts inner outer named own shared psk) {k : ExtKind}
    (hk : k ∈ innerKinds ∨ k = .preSharedKey)
    (hmem : k ∈ (own ++ (shared ++ psk)).map Entry.kind) : inner.present k = true := by
  rw [h.kinds, List.mem_append, List.mem_append] at hmem
  rcases hmem with hmem | hmem | hmem
  · exact (List.mem_filter.mp hmem).2
  · exact (hk.elim (h.shared_not_inner hmem).1 (h.shared_not_inner hmem).2).elim
  · exact (List.mem_filter.mp hmem).2

/-- Reading the entries one after another gives the merged hello. -/
theorem merged (h : Parts inner outer named own shared psk) (hm : Sendable inner)
    (recon : List UInt8) :
    Merged (readBack (own ++ (shared ++ psk)) (readFixed recon inner.vers inner.random
      outer.sessionId inner.cipherSuites inner.compressionMethods)) inner outer named := by
  generalize hread : readBack (own ++ (shared ++ psk)) _ = m
  have hfixed := readBack_fixedPart (own ++ (shared ++ psk)) (readFixed recon inner.vers
    inner.random outer.sessionId inner.cipherSuites inner.compressionMethods)
  rw [hread] at hfixed
  have hentry : ∀ e ∈ own ++ (shared ++ psk), Same e.kind m e.value := fun e he =>
    hread ▸ readBack_of_mem h.nodup he _
  have hnone : ∀ k ∉ (own ++ (shared ++ psk)).map Entry.kind, Same k m (readFixed recon inner.vers
      inner.random outer.sessionId inner.cipherSuites inner.compressionMethods) := fun k hk =>
    hread ▸ readBack_of_notMem hk _
  have hvers := congrArg ClientHelloMsg.vers hfixed
  have hrandom := congrArg ClientHelloMsg.random hfixed
  have hsession := congrArg ClientHelloMsg.sessionId hfixed
  have hsuites := congrArg ClientHelloMsg.cipherSuites hfixed
  have hcompression := congrArg ClientHelloMsg.compressionMethods hfixed
  refine ⟨hvers, hrandom, hsession, hsuites, hcompression, ?_, ?_, ?_, ?_⟩
  · rw [← hread, readBack_types, h.kinds, List.map_append, List.map_append, h.sharedTypes]
  · intro k hk
    by_cases hp : inner.present k = true
    · obtain ⟨e, he, rfl, hsame⟩ := h.entry_of_present hk hp
      exact (hentry e he).trans hsame
    · exact (hnone k fun hmem => hp (h.present_of_mem hk hmem)).trans
        (same_absent hm (by simpa using hp) _ _ _ _ _)
  · intro k hk
    obtain ⟨k', hk', hcode⟩ := List.mem_map.mp (h.sharedTypes ▸ hk)
    obtain ⟨e, he, rfl⟩ := List.mem_map.mp hk'
    obtain rfl := code_injective hcode
    exact (hentry e (by simp [he])).trans (h.sharedSame e he)
  · intro k hk hpsk hnamed hreneg
    refine (hnone k fun hmem => ?_).trans (by cases k <;> first | rfl | exact absurd rfl hreneg)
    rw [h.kinds, List.mem_append, List.mem_append] at hmem
    rcases hmem with hmem | hmem | hmem
    · exact hk (List.mem_of_mem_filter hmem)
    · exact hnamed (h.sharedTypes ▸ List.mem_map_of_mem hmem)
    · exact hpsk (List.mem_singleton.mp (List.mem_of_mem_filter hmem))

end Parts

theorem putAll_sublist {named rows : List (UInt16 × List UInt8)} (h : named.Sublist rows) :
    (Format.block.putAll named).length ≤ (Format.block.putAll rows).length := by
  induction h with
  | slnil => exact le_rfl
  | cons r _ ih =>
    rw [Format.putAll_cons, List.length_append]
    omega
  | cons_cons r _ ih =>
    simp only [Format.putAll_cons, List.length_append]
    omega

theorem acceptInner_ok {recon : List UInt8} {m : ClientHelloMsg} (h : unmarshal recon = some m)
    (hech : m.encryptedClientHello = [1]) (hversions : m.supportedVersions = [versionTLS13]) :
    acceptInner recon = .ok m := by
  simp [acceptInner, h, hech, hversions, orError_some, bind, Except.bind, pure, Except.pure]

/-- What the extensions of an encoded inner hello stand for, over the outer hello. -/
theorem exists_parts {inner outer : ClientHelloMsg} {raw ext : List UInt8} {exts : List UInt16}
    {rows : List (UInt16 × List UInt8)} (hm : Sendable inner) (houter : Outer raw outer rows)
    (hext : inner.marshalExts true (some exts) = .ok ext)
    (hsub : (inner.outerExtsOf true (some exts)).Sublist outer.extensions) :
    ∃ own shared psk, Parts inner outer (inner.outerExtsOf true (some exts)) own shared psk ∧
      expandExts rows ext = .ok (Format.block.putAll ((own ++ (shared ++ psk)).map Entry.row)) ∧
      (∀ e ∈ own ++ (shared ++ psk), e.data.length < 65536) ∧
      (Format.block.putAll ((own ++ (shared ++ psk)).map Entry.row)).length ≤
        ext.length + raw.length := by
  obtain ⟨named, hnamed, htypes⟩ := List.sublist_map_iff.mp (houter.types ▸ hsub)
  obtain ⟨hw, hw', hlen, hexpand⟩ := expandExts_inner houter hext hnamed htypes.symm
  obtain ⟨own, hownKinds, hownRows, hownSame⟩ := exists_entries hm hw
  obtain ⟨psk, hpskKinds, hpskRows, hpskSame⟩ := exists_entries hm hw'
  obtain ⟨shared, hsharedRows, hshared⟩ := shared_entries houter hnamed fun r hr =>
    mem_outerExtsOf (htypes ▸ List.mem_map_of_mem hr)
  have hsharedTypes : (shared.map Entry.kind).map ExtKind.code = named.map Prod.fst := by
    rw [← hsharedRows, List.map_map, List.map_map]
    rfl
  have hsharedNodup : (shared.map Entry.kind).Nodup := by
    refine List.Nodup.of_map ExtKind.code ?_
    rw [hsharedTypes]
    exact houter.nodup.sublist (hnamed.map _)
  have hrows : (own ++ (shared ++ psk)).map Entry.row =
      inner.rows innerKinds ++ (named ++ inner.rows [.preSharedKey]) := by
    rw [List.map_append, List.map_append, hownRows, hsharedRows, hpskRows]
  refine ⟨own, shared, psk, ⟨hownKinds, hownSame, hsharedTypes.trans htypes.symm,
    fun e he => ⟨(hshared e he).1, (hshared e he).2.1⟩, fun e he => (hshared e he).2.2,
    hsharedNodup, hpskKinds, hpskSame⟩, hrows ▸ hexpand, fun e he => ?_, ?_⟩
  · rcases List.mem_append.mp he with he | he
    · exact fits_of_rows hw hownRows e he
    · rcases List.mem_append.mp he with he | he
      · exact houter.fits e.row (hnamed.subset (hsharedRows ▸ List.mem_map_of_mem he))
      · exact fits_of_rows hw' hpskRows e he
  · have hle := (putAll_sublist hnamed).trans houter.size
    simp only [hrows, Format.putAll_append, List.length_append]
    omega

theorem decode_of_expand {outer : ClientHelloMsg} {rows : List (UInt16 × List UInt8)}
    {vers : UInt16} {random h ext recon extBytes : List UInt8} {cipherSuites : List UInt16}
    {compressionMethods : List UInt8}
    (hlayout : Layout h vers random [] cipherSuites compressionMethods ext) (hne : ext ≠ [])
    (hrows : extractRawExtensions outer = .ok rows) (hexpand : expandExts rows ext = .ok extBytes)
    (hrecon : reconstruct (addUint16 vers ++ random) outer.sessionId (putUint16s cipherSuites)
      compressionMethods extBytes = .ok recon) (n : Nat) :
    decodeInnerClientHello outer (h.drop 4 ++ List.replicate n 0) = acceptInner recon := by
  have hzero : (List.replicate n (0 : UInt8)).all (· == 0) = true := by simp
  simp only [decodeInnerClientHello, readEncoded_layout hlayout hne, orError_some, hzero,
    Bool.not_true, Bool.false_eq_true, if_false, hrows, hexpand, hrecon, bind, Except.bind]

/-- Decoding over an outer hello that was read. -/
theorem decode_of_outer {inner outer : ClientHelloMsg} {raw encoded : List UInt8}
    {rows : List (UInt16 × List UInt8)} {maxNameLength : Nat} {outerExts : List UInt16}
    (hm : Sendable inner) (hech : inner.encryptedClientHello = [1])
    (hversions : inner.supportedVersions = [versionTLS13])
    (hencode : encodeInnerClientHelloReorderOuterExts inner maxNameLength (some outerExts) =
      .ok encoded)
    (hrows : Outer raw outer rows)
    (hsub : (inner.outerExtsOf true (some outerExts)).Sublist outer.extensions)
    (hsize : encoded.length + raw.length < 65536) :
    ∃ m, decodeInnerClientHello outer encoded = .ok m ∧
      Merged m inner outer (inner.outerExtsOf true (some outerExts)) := by
  obtain ⟨h, hmsg, hret⟩ := ok_of_bind hencode
  cases hret
  obtain ⟨ext, hext, hbody⟩ := ok_of_bind hmsg
  have hlayout := marshalBody_layout hbody
  rw [if_pos rfl] at hlayout
  obtain ⟨own, shared, psk, hparts, hexpand, hfits, hlen⟩ := exists_parts hm hrows hext hsub
  -- The inner hello is marked as one, so its extensions are not empty.
  have hput : Format.block.putAll ((own ++ (shared ++ psk)).map Entry.row) ≠ [] := by
    obtain ⟨e, he, -⟩ := hparts.entry_of_present (k := .encryptedClientHello) (.inl (by decide))
      (by simp [present, hech])
    exact fun hnil => List.ne_nil_of_mem he
      (List.map_eq_nil_iff.mp (Format.block.putAll_eq_nil.mp hnil))
  have hextNe : ext ≠ [] := by
    rintro rfl
    exact hput (Except.ok.inj hexpand).symm
  have hextLen := hlayout.length_eq hextNe
  simp only [List.length_append, List.length_drop] at hsize
  obtain ⟨recon, hrecon, hreconLayout⟩ := reconstruct_layout hlayout hrows.session hput (by omega)
  have hmerged := hparts.merged hm recon
  refine ⟨_, ?_, hmerged⟩
  rw [decode_of_expand hlayout hextNe hrows.extract hexpand hrecon]
  refine acceptInner_ok (unmarshal_entries _ hparts.pskLast hparts.nodup hfits hreconLayout) ?_ ?_
  · have hsame := hmerged.own .encryptedClientHello (.inl (by decide))
    exact (congrArg ClientHelloMsg.encryptedClientHello hsame).trans hech
  · have hsame := hmerged.own .supportedVersions (.inl (by decide))
    exact (congrArg ClientHelloMsg.supportedVersions hsame).trans hversions

/-- The inner hello that a client encodes is what is decoded over the outer hello:
the extensions that it only names are those of the outer hello, and its session id
is the outer one. -/
theorem decodeInnerClientHello_encode (inner outer : ClientHelloMsg) (raw encoded : List UInt8)
    (maxNameLength : Nat) (outerExts : List UInt16) (hm : Sendable inner)
    (hech : inner.encryptedClientHello = [1]) (hversions : inner.supportedVersions = [versionTLS13])
    (hencode : encodeInnerClientHelloReorderOuterExts inner maxNameLength (some outerExts) =
      .ok encoded)
    (houter : unmarshal raw = some outer) (hne : outer.extensions ≠ [])
    (hsub : (inner.outerExtsOf true (some outerExts)).Sublist outer.extensions)
    (hsize : encoded.length + raw.length < 65536) :
    ∃ m, decodeInnerClientHello outer encoded = .ok m ∧
      Merged m inner outer (inner.outerExtsOf true (some outerExts)) := by
  obtain ⟨_, _, _, _, _, _, hlayout, hext⟩ := unmarshal_inv houter hne
  obtain ⟨rows, -, hrows, -⟩ := outer_of_layout hlayout hext houter
  exact decode_of_outer hm hech hversions hencode hrows hsub hsize

/-- An inner hello that shares its protocols and key shares with `sampleHello`. -/
def sampleInner : ClientHelloMsg where
  vers := 0x0303
  random := List.replicate 32 9
  cipherSuites := [0x1301]
  compressionMethods := [0]
  serverName := [0x68]
  alpnProtocols := [[0x68, 0x32]]
  supportedVersions := [versionTLS13]
  keyShares := [⟨29, [1, 2]⟩]
  encryptedClientHello := [1]

def sampleOuter : ClientHelloMsg :=
  { sampleHello with
    original := some sampleBytes
    extensions := [0, 10, 16, 43, 51] }

theorem decode_sampleInner : ∃ encoded m,
    encodeInnerClientHelloReorderOuterExts sampleInner 16 (some sampleOuter.extensions) =
      .ok encoded ∧
    decodeInnerClientHello sampleOuter encoded = .ok m ∧
    Merged m sampleInner sampleOuter [16, 51] := by
  obtain ⟨m, hm, hmerged⟩ := decodeInnerClientHello_encode sampleInner sampleOuter sampleBytes _ 16
    sampleOuter.extensions
    ⟨by decide, by decide, by decide, by decide, by decide, by decide, by decide, by decide⟩
    rfl rfl rfl (by decide) (by decide) (by decide) (by decide)
  exact ⟨_, m, rfl, hm, hmerged⟩

/-! ## Padding -/

/-- The name that an inner hello hides stands in its first extension only. -/
theorem marshalExts_name (inner : ClientHelloMsg) (outerExts : Option (List UInt16)) :
    ∃ rest, ∀ name, { inner with serverName := name }.marshalExts true outerExts =
      concat ({ inner with serverName := name }.addKind .serverName :: rest) :=
  ⟨legacyKinds.map (fun _ => .ok []) ++ ownKinds.map inner.addKind ++
    sharedKinds.map (fun k => if named true outerExts k then .ok [] else inner.addKind k) ++
    [addOuterExts (inner.outerExtsOf true outerExts)] ++ [inner.addKind .preSharedKey],
    fun _ => rfl⟩

theorem addKind_serverName_length {m : ClientHelloMsg} {bs : List UInt8} (hne : m.serverName ≠ [])
    (h : m.addKind .serverName = .ok bs) : bs.length = 9 + m.serverName.length := by
  have hp : m.present .serverName = true := by
    simpa [present, List.length_pos_iff] using hne
  rw [addKind, if_pos hp] at h
  obtain ⟨data, hdata, -, rfl⟩ := addExtension_ok.mp h
  obtain ⟨name, hname, hdata⟩ := ok_of_bind hdata
  obtain ⟨-, rfl⟩ := addLengthPrefixed_ok.mp hname
  obtain ⟨-, rfl⟩ := addLengthPrefixed_ok.mp hdata
  rw [block_put_length]
  simp only [List.length_append, addUint8_length, putUint_length]
  omega

/-- The length of an encoded inner hello, for every name that the configuration
allows for. -/
theorem encode_length (inner : ClientHelloMsg) (maxNameLength : Nat)
    (outerExts : Option (List UInt16)) :
    ∃ n, ∀ name encoded, name ≠ [] → name.length ≤ maxNameLength →
      encodeInnerClientHelloReorderOuterExts { inner with serverName := name } maxNameLength
        outerExts = .ok encoded →
      encoded.length = n + name.length := by
  obtain ⟨rest, hrest⟩ := marshalExts_name inner outerExts
  -- What is written besides the name; its length does not depend on the name.
  let tail := ((concat rest).toOption.getD []).length
  let body := 49 + (putUint16s inner.cipherSuites).length + inner.compressionMethods.length + tail
  refine ⟨body + (31 - (body + maxNameLength - 1) % 32), fun name encoded hne hle hencode => ?_⟩
  obtain ⟨h, hmsg, hret⟩ := ok_of_bind hencode
  cases hret
  obtain ⟨ext, hext, hbody⟩ := ok_of_bind hmsg
  have hlayout := marshalBody_layout hbody
  rw [if_pos rfl] at hlayout
  rw [hrest, concat_cons_ok] at hext
  obtain ⟨sni, bytes, hsni, hbytes, rfl⟩ := hext
  have hsniLen : sni.length = 9 + name.length := addKind_serverName_length hne hsni
  have htail : bytes.length = tail := by simp only [tail, hbytes, Except.toOption, Option.getD_some]
  have hextNe : sni ++ bytes ≠ [] := by
    rw [← List.length_pos_iff, List.length_append]
    omega
  have hlen := hlayout.length_eq hextNe
  have hdrop : (h.drop 4).length = body + name.length := by
    simp only [List.length_append, List.length_nil] at hlen
    rw [List.length_drop]
    omega
  have hname : name.length ≠ 0 := by simpa using hne
  rw [List.length_append, List.length_replicate, hdrop, paddingLen]
  simp only [hname, ne_eq, not_false_eq_true, if_true]
  have hsum : body + name.length + (maxNameLength - name.length) = body + maxNameLength := by omega
  rw [hsum]
  omega

/-- Padding does not hide the length of the name: the encoded hellos of two names
that the configuration allows for differ in length by what the names do. -/
theorem encode_reveals_name_length (inner : ClientHelloMsg) (maxNameLength : Nat)
    (outerExts : Option (List UInt16)) (name name' encoded encoded' : List UInt8)
    (hne : name ≠ []) (hne' : name' ≠ []) (hle : name.length ≤ maxNameLength)
    (hle' : name'.length ≤ maxNameLength)
    (h : encodeInnerClientHelloReorderOuterExts { inner with serverName := name } maxNameLength
      outerExts = .ok encoded)
    (h' : encodeInnerClientHelloReorderOuterExts { inner with serverName := name' } maxNameLength
      outerExts = .ok encoded') :
    encoded.length + name'.length = encoded'.length + name.length := by
  obtain ⟨n, hn⟩ := encode_length inner maxNameLength outerExts
  have hlen := hn name encoded hne hle h
  have hlen' := hn name' encoded' hne' hle' h'
  omega

theorem sampleInner_reveals_name_length : ∃ encoded encoded',
    encodeInnerClientHello { sampleInner with serverName := [0x61] } 16 = .ok encoded ∧
    encodeInnerClientHello { sampleInner with serverName := [0x61, 0x62, 0x63] } 16 =
      .ok encoded' ∧
    encoded.length + 3 = encoded'.length + 1 :=
  ⟨_, _, rfl, rfl, encode_reveals_name_length sampleInner 16 none [0x61] [0x61, 0x62, 0x63] _ _
    (by decide) (by decide) (by decide) (by decide) rfl rfl⟩

end SniShaper.Ech
