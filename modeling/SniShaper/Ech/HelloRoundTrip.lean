import SniShaper.Ech.HelloMsg
import Mathlib.Data.List.Nodup

/-! What is written as a ClientHello is read back.

An extension only touches the fields of its own kind. Reading a message is so
reading its extensions one by one, each on its own, and copying their fields
over the fixed part of the message (`unmarshal_entries`). Writing lays out the
same extensions in the order of their kinds, with the pre-shared keys last.

Proved here:

* `unmarshal_marshal`: a hello that can be sent is read back as it was written,
  with its bytes and the types of its extensions noted. -/

namespace SniShaper.Ech

open Wire

/-! ## Fields by kind -/

namespace ClientHelloMsg

/-- `dst` with the fields of kind `k` taken from `src`. -/
def copy (k : ExtKind) (src dst : ClientHelloMsg) : ClientHelloMsg :=
  match k with
  | .serverName => { dst with serverName := src.serverName }
  | .supportedPoints => { dst with supportedPoints := src.supportedPoints }
  | .sessionTicket => { dst with
      ticketSupported := src.ticketSupported, sessionTicket := src.sessionTicket }
  | .renegotiationInfo => { dst with
      secureRenegotiationSupported := src.secureRenegotiationSupported
      secureRenegotiation := src.secureRenegotiation }
  | .extendedMasterSecret => { dst with extendedMasterSecret := src.extendedMasterSecret }
  | .sct => { dst with scts := src.scts }
  | .earlyData => { dst with earlyData := src.earlyData }
  | .quicTransportParameters => { dst with quicTransportParameters := src.quicTransportParameters }
  | .encryptedClientHello => { dst with encryptedClientHello := src.encryptedClientHello }
  | .statusRequest => { dst with ocspStapling := src.ocspStapling }
  | .supportedCurves => { dst with supportedCurves := src.supportedCurves }
  | .signatureAlgorithms => { dst with
      supportedSignatureAlgorithms := src.supportedSignatureAlgorithms }
  | .signatureAlgorithmsCert => { dst with
      supportedSignatureAlgorithmsCert := src.supportedSignatureAlgorithmsCert }
  | .alpn => { dst with alpnProtocols := src.alpnProtocols }
  | .supportedVersions => { dst with supportedVersions := src.supportedVersions }
  | .cookie => { dst with cookie := src.cookie }
  | .keyShare => { dst with keyShares := src.keyShares }
  | .pskModes => { dst with pskModes := src.pskModes }
  | .preSharedKey => { dst with
      pskIdentities := src.pskIdentities, pskBinders := src.pskBinders }

/-- The fields of kind `k` agree. -/
def Same (k : ExtKind) (a b : ClientHelloMsg) : Prop := copy k a {} = copy k b {}

theorem copy_copy_self (k : ExtKind) (src dst dst' : ClientHelloMsg) :
    copy k (copy k src dst) dst' = copy k src dst' := by
  cases k <;> rfl

theorem copy_copy_ne {k k' : ExtKind} (h : k ≠ k') (src dst dst' : ClientHelloMsg) :
    copy k (copy k' src dst) dst' = copy k dst dst' := by
  cases k <;> cases k' <;> first | rfl | exact absurd rfl h

theorem Same.symm {k : ExtKind} {a b : ClientHelloMsg} (h : Same k a b) : Same k b a := Eq.symm h

theorem Same.trans {k : ExtKind} {a b c : ClientHelloMsg} (h : Same k a b) (h' : Same k b c) :
    Same k a c :=
  Eq.trans h h'

theorem same_copy_self (k : ExtKind) (src dst : ClientHelloMsg) : Same k (copy k src dst) src :=
  copy_copy_self k src dst {}

theorem same_copy_ne {k k' : ExtKind} (h : k ≠ k') (src dst : ClientHelloMsg) :
    Same k (copy k' src dst) dst :=
  copy_copy_ne h src dst {}

end ClientHelloMsg

open ClientHelloMsg

/-- Reading an extension into a message is reading it into the empty message and
copying its fields: an extension type is only read once, so what it appends to
is empty. -/
theorem parseExtension_frame (m : ClientHelloMsg) (data : List UInt8) (last : Bool) (k : ExtKind)
    (h : k ≠ .renegotiationInfo → Same k m {}) :
    parseExtension m data last k =
      (parseExtension {} data last k).map fun p => (copy k p.1 m, p.2) := by
  cases k with
  | serverName =>
    have hm : m.serverName = [] := by simpa [Same, copy] using h (by decide)
    simp [parseExtension, copy, Option.map_bind, hm]
  | supportedCurves =>
    have hm : m.supportedCurves = [] := by simpa [Same, copy] using h (by decide)
    simp [parseExtension, copy, Option.map_bind, hm]
  | signatureAlgorithms =>
    have hm : m.supportedSignatureAlgorithms = [] := by simpa [Same, copy] using h (by decide)
    simp [parseExtension, copy, Option.map_bind, hm]
  | signatureAlgorithmsCert =>
    have hm : m.supportedSignatureAlgorithmsCert = [] := by simpa [Same, copy] using h (by decide)
    simp [parseExtension, copy, Option.map_bind, hm]
  | alpn =>
    have hm : m.alpnProtocols = [] := by simpa [Same, copy] using h (by decide)
    simp [parseExtension, copy, Option.map_bind, hm]
  | supportedVersions =>
    have hm : m.supportedVersions = [] := by simpa [Same, copy] using h (by decide)
    simp [parseExtension, copy, Option.map_bind, hm]
  | keyShare =>
    have hm : m.keyShares = [] := by simpa [Same, copy] using h (by decide)
    simp [parseExtension, copy, Option.map_bind, hm]
  | preSharedKey =>
    have hm : m.pskIdentities = [] ∧ m.pskBinders = [] := by simpa [Same, copy] using h (by decide)
    simp [parseExtension, copy, Option.map_bind, hm.1, hm.2]
  | _ => simp [parseExtension, copy, Option.map_bind]

/-! ## Lists inside extensions -/

def keyShareFormat : Format KeyShare :=
  (Format.uint16.pair (Format.prefixed 1)).ofEquiv
    ⟨fun p => ⟨p.1, p.2⟩, fun ks => (ks.group, ks.data), fun _ => rfl, fun _ => rfl⟩

def identityFormat : Format PskIdentity :=
  ((Format.prefixed 1).pair Format.uint32).ofEquiv
    ⟨fun p => ⟨p.1, p.2⟩, fun psk => (psk.label, psk.obfuscatedTicketAge), fun _ => rfl,
      fun _ => rfl⟩

@[simp] theorem require_bind {α : Type} (p : Prop) [Decidable p] (f : Unit → Option α) :
    (require p).bind f = if p then f () else none := by
  unfold require
  split <;> rfl

theorem require_eq_some {p : Prop} [Decidable p] {u : Unit} : require p = some u ↔ p := by
  unfold require
  split <;> simp [*]

theorem putUint16s_length (vs : List UInt16) : (putUint16s vs).length = vs.length * 2 := by
  induction vs with
  | nil => rfl
  | cons v vs ih =>
    have hput : putUint16s (v :: vs) = addUint16 v ++ putUint16s vs := rfl
    rw [hput, List.length_append, addUint16_length, ih, List.length_cons]
    omega

theorem readUint16s_put (vs : List UInt16) : readUint16s (putUint16s vs) = some vs :=
  drain_collect_put Format.uint16 some _ (fun _ _ => rfl) vs (fun _ _ => trivial) (fun _ _ => rfl)

theorem readUint16List_put {k : Nat} {vs : List UInt16} {bs : List UInt8} (hvs : vs ≠ [])
    (h : addLengthPrefixed k (putUint16s vs) = .ok bs) :
    readUint16List k bs = some (vs, []) := by
  have hread := readLengthPrefixed_add h []
  have hne : putUint16s vs ≠ [] := fun hnil => hvs (Format.uint16.putAll_eq_nil.mp hnil)
  rw [List.append_nil] at hread
  simp [readUint16List, hread, hne, readUint16s_put]

/-- A check between reading an entry and storing it. -/
theorem require_map {α β : Type} (p : Prop) [Decidable p] (a : α) (f : α → β) :
    ((require p).bind fun _ => some (f a)) = ((require p).map fun _ => a).map f := by
  unfold require
  split <;> rfl

theorem readProtocols_put (protos : List (List UInt8))
    (hfits : ∀ p ∈ protos, (Format.prefixed 0).Fits p) (hne : ∀ p ∈ protos, p ≠ []) :
    readProtocols ((Format.prefixed 0).putAll protos) = some protos := by
  refine drain_collect_put (Format.prefixed 0) (fun p => (require (p ≠ [])).map fun _ => p) _
    (fun acc s => ?_) protos hfits fun p hp => by simp [require, hne p hp]
  exact congrArg (readUint8LengthPrefixed s).bind
    (funext fun p => require_map (p.1 ≠ []) p.1 fun b => (acc ++ [b], p.2))

theorem readBinders_put (binders : List (List UInt8))
    (hfits : ∀ b ∈ binders, (Format.prefixed 0).Fits b) (hne : ∀ b ∈ binders, b ≠ []) :
    readBinders ((Format.prefixed 0).putAll binders) = some binders :=
  readProtocols_put binders hfits hne

theorem readKeyShares_put (shares : List KeyShare) (hfits : ∀ ks ∈ shares, keyShareFormat.Fits ks)
    (hne : ∀ ks ∈ shares, ks.data ≠ []) :
    readKeyShares (keyShareFormat.putAll shares) = some shares := by
  refine drain_collect_put keyShareFormat (fun ks => (require (ks.data ≠ [])).map fun _ => ks) _
    (fun acc s => ?_) shares hfits fun ks hks => by simp [require, hne ks hks]
  change _ = (Option.map _ ((readUint16 s).bind fun p =>
    (readUint16LengthPrefixed p.2).bind fun q => some ((p.1, q.1), q.2))).bind _
  cases readUint16 s with
  | none => rfl
  | some p =>
    simp only [Option.bind_eq_bind, Option.bind_some]
    cases readUint16LengthPrefixed p.2 with
    | none => rfl
    | some q =>
      exact require_map (q.1 ≠ []) (⟨p.1, q.1⟩ : KeyShare) fun ks => (acc ++ [ks], q.2)

theorem readIdentities_put (psks : List PskIdentity) (hfits : ∀ psk ∈ psks, identityFormat.Fits psk)
    (hne : ∀ psk ∈ psks, psk.label ≠ []) :
    readIdentities (identityFormat.putAll psks) = some psks := by
  refine drain_collect_put identityFormat (fun psk => (require (psk.label ≠ [])).map fun _ => psk) _
    (fun acc s => ?_) psks hfits fun psk hpsk => by simp [require, hne psk hpsk]
  change _ = (Option.map _ ((readUint16LengthPrefixed s).bind fun p =>
    (readUint32 p.2).bind fun q => some ((p.1, q.1), q.2))).bind _
  cases readUint16LengthPrefixed s with
  | none => rfl
  | some p =>
    simp only [Option.bind_eq_bind, Option.bind_some]
    cases readUint32 p.2 with
    | none => rfl
    | some q =>
      exact require_map (p.1 ≠ []) (⟨p.1, q.1⟩ : PskIdentity) fun psk => (acc ++ [psk], q.2)

/-- A list of one host name. -/
theorem readNames_put {name bs : List UInt8} (h : addUint16LengthPrefixed name = .ok bs)
    (hne : name ≠ []) (hdot : name.getLast? ≠ some 0x2e) :
    readNames [] (addUint8 0 ++ bs) = some name := by
  have hread := readLengthPrefixed_add h []
  rw [List.append_nil] at hread
  rw [addUint8_eq]
  simp [readNames, drain, drainFuel, readUint16LengthPrefixed, hread, hne, hdot]

/-! ## One extension -/

/-- An extension read by itself. -/
def readRow (data : List UInt8) (last : Bool) (k : ExtKind) : Option ClientHelloMsg := do
  let (v, rest) ← parseExtension {} data last k
  require (rest = [])
  return v

/-- What a message must keep to for its reader: names that can be read back, no
empty entries, and no data without its flag. -/
structure Sendable (m : ClientHelloMsg) : Prop where
  name : m.serverName.getLast? ≠ some 0x2e
  protocols : ∀ p ∈ m.alpnProtocols, p ≠ []
  shares : ∀ ks ∈ m.keyShares, ks.data ≠ []
  labels : ∀ psk ∈ m.pskIdentities, psk.label ≠ []
  binders : ∀ b ∈ m.pskBinders, b ≠ []
  bound : m.pskIdentities = [] ↔ m.pskBinders = []
  ticket : m.ticketSupported = false → m.sessionTicket = []
  renegotiation : m.secureRenegotiationSupported = false →
    m.secureRenegotiation = [] ∧ scsvRenegotiation ∉ m.cipherSuites

/-- Reading what was written behind a length, with nothing after it. -/
theorem readPrefixed_all {k : Nat} {body bs : List UInt8} (h : addLengthPrefixed k body = .ok bs) :
    readLengthPrefixed k bs = some (body, []) := by
  simpa using readLengthPrefixed_add h []

theorem pos_of_present {α : Type} {l : List α} (h : decide (0 < l.length) = true) : l ≠ [] :=
  List.length_pos_iff.mp (of_decide_eq_true h)

theorem writeKeyShare_ok (ks : KeyShare) (b : List UInt8) :
    (do
      let data ← addUint16LengthPrefixed ks.data
      return addUint16 ks.group ++ data) = Except.ok b ↔
      keyShareFormat.Fits ks ∧ b = keyShareFormat.put ks := by
  constructor
  · intro h
    obtain ⟨data, hdata, h⟩ := ok_of_bind h
    obtain ⟨hlt, rfl⟩ := addLengthPrefixed_ok.mp hdata
    cases h
    exact ⟨⟨trivial, hlt⟩, rfl⟩
  · rintro ⟨⟨-, hlt⟩, rfl⟩
    have hdata : addUint16LengthPrefixed ks.data = .ok (putUint 2 ks.data.length ++ ks.data) :=
      addLengthPrefixed_ok.mpr ⟨hlt, rfl⟩
    rw [hdata]
    rfl

theorem writeIdentity_ok (psk : PskIdentity) (b : List UInt8) :
    (do
      let label ← addUint16LengthPrefixed psk.label
      return label ++ addUint32 psk.obfuscatedTicketAge) = Except.ok b ↔
      identityFormat.Fits psk ∧ b = identityFormat.put psk := by
  constructor
  · intro h
    obtain ⟨label, hlabel, h⟩ := ok_of_bind h
    obtain ⟨hlt, rfl⟩ := addLengthPrefixed_ok.mp hlabel
    cases h
    exact ⟨⟨hlt, trivial⟩, rfl⟩
  · rintro ⟨⟨hlt, -⟩, rfl⟩
    have hlabel : addUint16LengthPrefixed psk.label =
        .ok (putUint 2 psk.label.length ++ psk.label) :=
      addLengthPrefixed_ok.mpr ⟨hlt, rfl⟩
    rw [hlabel]
    rfl

/-- Every extension that is written is read back. -/
theorem readRow_body {m : ClientHelloMsg} (hm : Sendable m) {k : ExtKind} {b : List UInt8}
    (last : Bool) (hp : m.present k = true) (hb : m.body k = .ok b)
    (hlast : k = .preSharedKey → last = true) :
    ∃ v, readRow b last k = some v ∧ Same k v m := by
  cases k with
  | serverName =>
    obtain ⟨name, hname, hb⟩ := ok_of_bind hb
    have hread := readPrefixed_all hb
    refine ⟨{ serverName := m.serverName }, ?_, rfl⟩
    have hne : addUint8 0 ++ name ≠ [] := by simp [addUint8_eq]
    simp [readRow, parseExtension, readUint16LengthPrefixed, hread, hne,
      readNames_put hname (pos_of_present hp) hm.name]
  | supportedPoints =>
    have hread := readPrefixed_all hb
    have hne := pos_of_present hp
    refine ⟨{ supportedPoints := m.supportedPoints }, ?_, rfl⟩
    simp [readRow, parseExtension, readUint8LengthPrefixed, hread, hne]
  | sessionTicket =>
    cases hb
    refine ⟨{ ticketSupported := true, sessionTicket := m.sessionTicket }, ?_, ?_⟩
    · simp [readRow, parseExtension]
    · simp only [present] at hp
      simp [Same, copy, hp]
  | renegotiationInfo =>
    have hread := readPrefixed_all hb
    refine ⟨{ secureRenegotiationSupported := true
              secureRenegotiation := m.secureRenegotiation }, ?_, ?_⟩
    · simp [readRow, parseExtension, readUint8LengthPrefixed, hread]
    · simp only [present] at hp
      simp [Same, copy, hp]
  | extendedMasterSecret =>
    cases hb
    exact ⟨{ extendedMasterSecret := true }, rfl, by simp_all [Same, copy, present]⟩
  | sct =>
    cases hb
    exact ⟨{ scts := true }, rfl, by simp_all [Same, copy, present]⟩
  | earlyData =>
    cases hb
    exact ⟨{ earlyData := true }, rfl, by simp_all [Same, copy, present]⟩
  | quicTransportParameters =>
    cases hb
    refine ⟨{ quicTransportParameters := some (m.quicTransportParameters.getD []) }, rfl, ?_⟩
    obtain ⟨params, hparams⟩ := Option.isSome_iff_exists.mp hp
    simp [Same, copy, hparams]
  | encryptedClientHello =>
    cases hb
    exact ⟨{ encryptedClientHello := m.encryptedClientHello }, rfl, rfl⟩
  | statusRequest =>
    cases hb
    exact ⟨{ ocspStapling := true }, by revert last; decide, by simp_all [Same, copy, present]⟩
  | supportedCurves =>
    refine ⟨{ supportedCurves := m.supportedCurves }, ?_, rfl⟩
    simp [readRow, parseExtension, readUint16List_put (pos_of_present hp) hb]
  | signatureAlgorithms =>
    refine ⟨{ supportedSignatureAlgorithms := m.supportedSignatureAlgorithms }, ?_, rfl⟩
    simp [readRow, parseExtension, readUint16List_put (pos_of_present hp) hb]
  | signatureAlgorithmsCert =>
    refine ⟨{ supportedSignatureAlgorithmsCert := m.supportedSignatureAlgorithmsCert }, ?_, rfl⟩
    simp [readRow, parseExtension, readUint16List_put (pos_of_present hp) hb]
  | alpn =>
    obtain ⟨protos, hprotos, hb⟩ := ok_of_bind hb
    obtain ⟨hfits, rfl⟩ := ((Format.prefixed 0).concat_ok_iff addUint8LengthPrefixed
      (fun _ _ => addLengthPrefixed_ok) m.alpnProtocols protos).mp hprotos
    have hread := readPrefixed_all hb
    have hne : (Format.prefixed 0).putAll m.alpnProtocols ≠ [] :=
      fun hnil => pos_of_present hp ((Format.prefixed 0).putAll_eq_nil.mp hnil)
    refine ⟨{ alpnProtocols := m.alpnProtocols }, ?_, rfl⟩
    simp [readRow, parseExtension, readUint16LengthPrefixed, hread, hne,
      readProtocols_put m.alpnProtocols hfits hm.protocols]
  | supportedVersions =>
    refine ⟨{ supportedVersions := m.supportedVersions }, ?_, rfl⟩
    simp [readRow, parseExtension, readUint16List_put (pos_of_present hp) hb]
  | cookie =>
    have hread := readPrefixed_all hb
    have hne := pos_of_present hp
    refine ⟨{ cookie := m.cookie }, ?_, rfl⟩
    simp [readRow, parseExtension, readUint16LengthPrefixed, hread, hne]
  | keyShare =>
    obtain ⟨shares, hshares, hb⟩ := ok_of_bind hb
    obtain ⟨hfits, rfl⟩ := (keyShareFormat.concat_ok_iff _ writeKeyShare_ok m.keyShares
      shares).mp hshares
    have hread := readPrefixed_all hb
    refine ⟨{ keyShares := m.keyShares }, ?_, rfl⟩
    simp [readRow, parseExtension, readUint16LengthPrefixed, hread,
      readKeyShares_put m.keyShares hfits hm.shares]
  | pskModes =>
    have hread := readPrefixed_all hb
    refine ⟨{ pskModes := m.pskModes }, ?_, rfl⟩
    simp [readRow, parseExtension, readUint8LengthPrefixed, hread]
  | preSharedKey =>
    obtain ⟨identities, hidentities, hb⟩ := ok_of_bind hb
    obtain ⟨identities', hidentities', hb⟩ := ok_of_bind hb
    obtain ⟨binders, hbinders, hb⟩ := ok_of_bind hb
    obtain ⟨binders', hbinders', hb⟩ := ok_of_bind hb
    cases hb
    obtain ⟨hfits, rfl⟩ := (identityFormat.concat_ok_iff _ writeIdentity_ok m.pskIdentities
      identities).mp hidentities
    obtain ⟨hfits', rfl⟩ := ((Format.prefixed 0).concat_ok_iff addUint8LengthPrefixed
      (fun _ _ => addLengthPrefixed_ok) m.pskBinders binders).mp hbinders
    have hpsks := pos_of_present hp
    have hne : identityFormat.putAll m.pskIdentities ≠ [] :=
      fun hnil => hpsks (identityFormat.putAll_eq_nil.mp hnil)
    have hne' : (Format.prefixed 0).putAll m.pskBinders ≠ [] :=
      fun hnil => hpsks (hm.bound.mpr ((Format.prefixed 0).putAll_eq_nil.mp hnil))
    refine ⟨{ pskIdentities := m.pskIdentities, pskBinders := m.pskBinders }, ?_, rfl⟩
    simp [readRow, parseExtension, readUint16LengthPrefixed, hlast rfl,
      readLengthPrefixed_add hidentities', readPrefixed_all hbinders', hne, hne',
      readIdentities_put m.pskIdentities hfits hm.labels,
      readBinders_put m.pskBinders hfits' hm.binders]

/-! ## The fixed part -/

namespace ClientHelloMsg

/-- The message without its extensions. -/
def fixedPart (m : ClientHelloMsg) : ClientHelloMsg where
  original := m.original
  vers := m.vers
  random := m.random
  sessionId := m.sessionId
  cipherSuites := m.cipherSuites
  compressionMethods := m.compressionMethods

/-- A message is its fixed part, its types and its fields of every kind. -/
theorem ext_of_same {a b : ClientHelloMsg} (hfixed : a.fixedPart = b.fixedPart)
    (htypes : a.extensions = b.extensions) (h : ∀ k, Same k a b) : a = b := by
  have h1 := h .serverName
  have h2 := h .supportedPoints
  have h3 := h .sessionTicket
  have h4 := h .renegotiationInfo
  have h5 := h .extendedMasterSecret
  have h6 := h .sct
  have h7 := h .earlyData
  have h8 := h .quicTransportParameters
  have h9 := h .encryptedClientHello
  have h10 := h .statusRequest
  have h11 := h .supportedCurves
  have h12 := h .signatureAlgorithms
  have h13 := h .signatureAlgorithmsCert
  have h14 := h .alpn
  have h15 := h .supportedVersions
  have h16 := h .cookie
  have h17 := h .keyShare
  have h18 := h .pskModes
  have h19 := h .preSharedKey
  simp only [Same, copy, fixedPart, ClientHelloMsg.mk.injEq, true_and, and_true] at *
  obtain ⟨⟩ := a
  obtain ⟨⟩ := b
  simp only [ClientHelloMsg.mk.injEq]
  simp_all

theorem copy_fixedPart (k : ExtKind) (src dst : ClientHelloMsg) :
    (copy k src dst).fixedPart = dst.fixedPart := by
  cases k <;> rfl

def withTypes (m : ClientHelloMsg) (types : List UInt16) : ClientHelloMsg :=
  { m with extensions := types }

theorem copy_withTypes (k : ExtKind) (src dst : ClientHelloMsg) (types : List UInt16) :
    copy k src (dst.withTypes types) = (copy k src dst).withTypes types := by
  cases k <;> rfl

theorem same_withTypes (k : ExtKind) (m : ClientHelloMsg) (types : List UInt16) :
    Same k (m.withTypes types) m := by
  cases k <;> rfl

/-- The fields of several extensions, one after another. -/
def copyAll (vs : List (ExtKind × ClientHelloMsg)) (m : ClientHelloMsg) : ClientHelloMsg :=
  vs.foldl (fun dst p => copy p.1 p.2 dst) m

theorem copyAll_cons (k : ExtKind) (v : ClientHelloMsg) (vs : List (ExtKind × ClientHelloMsg))
    (m : ClientHelloMsg) : copyAll ((k, v) :: vs) m = copyAll vs (copy k v m) := rfl

theorem copyAll_withTypes (vs : List (ExtKind × ClientHelloMsg)) (m : ClientHelloMsg)
    (types : List UInt16) : copyAll vs (m.withTypes types) = (copyAll vs m).withTypes types := by
  induction vs generalizing m with
  | nil => rfl
  | cons p vs ih => rw [copyAll_cons, copyAll_cons, copy_withTypes, ih]

theorem copyAll_fixedPart (vs : List (ExtKind × ClientHelloMsg)) (m : ClientHelloMsg) :
    (copyAll vs m).fixedPart = m.fixedPart := by
  induction vs generalizing m with
  | nil => rfl
  | cons p vs ih => rw [copyAll_cons, ih, copy_fixedPart]

/-- A kind that is not among the extensions keeps its fields. -/
theorem same_copyAll_of_notMem {k : ExtKind} (vs : List (ExtKind × ClientHelloMsg))
    (m : ClientHelloMsg) (h : k ∉ vs.map Prod.fst) : Same k (copyAll vs m) m := by
  induction vs generalizing m with
  | nil => rfl
  | cons p vs ih =>
    rw [List.map_cons, List.mem_cons, not_or] at h
    exact (ih (copy p.1 p.2 m) h.2).trans (same_copy_ne h.1 p.2 m)

/-- A kind that is among them has the fields of its extension. -/
theorem same_copyAll_of_mem {k : ExtKind} {v : ClientHelloMsg}
    (vs : List (ExtKind × ClientHelloMsg)) (m : ClientHelloMsg) (hvs : (vs.map Prod.fst).Nodup)
    (h : (k, v) ∈ vs) : Same k (copyAll vs m) v := by
  induction vs generalizing m with
  | nil => simp at h
  | cons p vs ih =>
    rw [List.map_cons, List.nodup_cons] at hvs
    rcases List.mem_cons.mp h with rfl | htail
    · exact (same_copyAll_of_notMem vs _ hvs.1).trans (same_copy_self k v m)
    · exact ih (copy p.1 p.2 m) hvs.2 htail

end ClientHelloMsg

/-! ## The extensions of a message -/

theorem ofCode_code (k : ExtKind) : ExtKind.ofCode k.code = some k := by
  cases k <;> decide

theorem code_of_ofCode {t : UInt16} {k : ExtKind} (h : ExtKind.ofCode t = some k) : k.code = t := by
  simpa using List.find?_some h

theorem code_injective : Function.Injective ExtKind.code := by
  intro k k' h
  have := ofCode_code k
  rw [h, ofCode_code k'] at this
  exact (Option.some.inj this).symm

/-- The extensions of a block, each read by itself. -/
def readRows : List (UInt16 × List UInt8) → Option (List (ExtKind × ClientHelloMsg))
  | [] => some []
  | (t, data) :: rows =>
    match ExtKind.ofCode t with
    | none => readRows rows
    | some k => do
      let v ← readRow data rows.isEmpty k
      let vs ← readRows rows
      return (k, v) :: vs

theorem readExtensions_eq (m : ClientHelloMsg) (bytes : List UInt8) :
    readExtensions m bytes = (Format.block.readAll bytes).bind
      (foldLast (fun m r last => acceptExtension m r.1 r.2 last) m) := by
  refine drain_eq_foldLast Format.block _ _ (fun m s => ?_) m bytes
  change _ = ((readUint16 s).bind fun p => (readUint16LengthPrefixed p.2).bind fun q =>
    some ((p.1, q.1), q.2)).bind _
  cases readUint16 s with
  | none => rfl
  | some p =>
    simp only [Option.bind_eq_bind, Option.bind_some]
    cases readUint16LengthPrefixed p.2 with
    | none => rfl
    | some q => cases h : acceptExtension m p.1 q.1 q.2.isEmpty <;> simp [h]

/-- A new extension adds its type and its fields. -/
theorem acceptExtension_eq {m : ClientHelloMsg} {t : UInt16} {data : List UInt8} {last : Bool}
    (hnew : t ∉ m.extensions)
    (hblank : ∀ k, ExtKind.ofCode t = some k → k ≠ .renegotiationInfo → Same k m {}) :
    acceptExtension m t data last =
      match ExtKind.ofCode t with
      | none => some (m.withTypes (m.extensions ++ [t]))
      | some k => (readRow data last k).map fun v => (copy k v m).withTypes (m.extensions ++ [t]) := by
  have hc : m.extensions.contains t = false := by simpa using hnew
  simp only [acceptExtension, hc, Bool.false_eq_true, if_false]
  cases hk : ExtKind.ofCode t with
  | none => rfl
  | some k =>
    have hframe := parseExtension_frame (m.withTypes (m.extensions ++ [t])) data last k
      fun hne => (same_withTypes k m _).trans (hblank k hk hne)
    rw [withTypes] at hframe
    simp only [hframe, readRow]
    cases parseExtension {} data last k with
    | none => rfl
    | some p =>
      by_cases hp : p.2 = []
      · simp [require, hp]
        exact copy_withTypes k p.1 m _
      · simp [require, hp]

/-- The loop over extensions of distinct new types. -/
theorem foldLast_accept (rows : List (UInt16 × List UInt8)) (m : ClientHelloMsg)
    (hnew : ∀ r ∈ rows, r.1 ∉ m.extensions) (hnodup : (rows.map Prod.fst).Nodup)
    (hblank : ∀ r ∈ rows, ∀ k, ExtKind.ofCode r.1 = some k → k ≠ .renegotiationInfo →
      Same k m {}) :
    foldLast (fun m r last => acceptExtension m r.1 r.2 last) m rows =
      (readRows rows).map fun vs =>
        (copyAll vs m).withTypes (m.extensions ++ rows.map Prod.fst) := by
  induction rows generalizing m with
  | nil => simp [foldLast, readRows, copyAll, withTypes]
  | cons r rows ih =>
    obtain ⟨t, data⟩ := r
    rw [List.map_cons, List.nodup_cons] at hnodup
    have hne : ∀ r ∈ rows, r.1 ≠ t := fun r hr h =>
      hnodup.1 (List.mem_map.mpr ⟨r, hr, h⟩)
    have hnew' : ∀ r ∈ rows, r.1 ∉ m.extensions ++ [t] := fun r hr => by
      simpa using ⟨hnew r (List.mem_cons_of_mem _ hr), hne r hr⟩
    rw [foldLast, acceptExtension_eq (hnew _ (by simp)) (hblank _ (by simp)), readRows]
    cases hk : ExtKind.ofCode t with
    | none =>
      have htail := ih (m.withTypes (m.extensions ++ [t])) hnew' hnodup.2 fun r hr k hk' hreneg =>
        (same_withTypes k m _).trans (hblank r (List.mem_cons_of_mem _ hr) k hk' hreneg)
      rw [Option.bind_some, htail]
      simp only [copyAll_withTypes]
      simp [withTypes]
    | some k =>
      cases hrow : readRow data rows.isEmpty k with
      | none => simp [hrow]
      | some v =>
        have htail := ih ((copy k v m).withTypes (m.extensions ++ [t])) hnew' hnodup.2
          fun r hr k' hk' hreneg => by
            have hkk : k' ≠ k := fun h =>
              hne r hr (by rw [← code_of_ofCode hk', h, code_of_ofCode hk])
            exact ((same_withTypes k' _ _).trans (same_copy_ne hkk v m)).trans
              (hblank r (List.mem_cons_of_mem _ hr) k' hk' hreneg)
        simp only [hrow, Option.map_some, Option.bind_some, htail, Option.bind_eq_bind]
        cases readRows rows with
        | none => rfl
        | some vs =>
          simp only [copyAll_withTypes, copyAll_cons, Option.map_some, Option.bind_some,
            Option.pure_def]
          simp [withTypes]

/-- Pre-shared keys, which must stand last. -/
def PskLast : List ExtKind → Prop
  | [] => True
  | k :: ks => (k = .preSharedKey → ks = []) ∧ PskLast ks

theorem pskLast_append {ks ks' : List ExtKind} (h : ExtKind.preSharedKey ∉ ks)
    (h' : PskLast ks') : PskLast (ks ++ ks') := by
  induction ks with
  | nil => exact h'
  | cons k ks ih =>
    rw [List.mem_cons, not_or] at h
    exact ⟨fun hk => absurd hk.symm h.1, ih h.2⟩

/-- An extension with what it is read as. -/
structure Entry where
  kind : ExtKind
  data : List UInt8
  value : ClientHelloMsg
  reads : ∀ last, (kind = .preSharedKey → last = true) → readRow data last kind = some value

def Entry.row (e : Entry) : UInt16 × List UInt8 := (e.kind.code, e.data)

theorem readRows_entries (es : List Entry) (h : PskLast (es.map Entry.kind)) :
    readRows (es.map Entry.row) = some (es.map fun e => (e.kind, e.value)) := by
  induction es with
  | nil => rfl
  | cons e es ih =>
    obtain ⟨hlast, htail⟩ := h
    have hread := e.reads (es.map Entry.row).isEmpty fun hk => by
      simpa using hlast hk
    simp [readRows, Entry.row, ofCode_code] at hread ⊢
    rw [hread, ih htail]
    rfl

/-! ## What the writer writes -/

namespace ClientHelloMsg

def bodyBytes (m : ClientHelloMsg) (k : ExtKind) : List UInt8 :=
  match m.body k with
  | .ok b => b
  | .error _ => []

/-- The extensions of the given kinds, as they stand on the wire. -/
def rows (m : ClientHelloMsg) (ks : List ExtKind) : List (UInt16 × List UInt8) :=
  (ks.filter m.present).map fun k => (k.code, m.bodyBytes k)

/-- Every extension of the given kinds can be written. -/
def Writable (m : ClientHelloMsg) (ks : List ExtKind) : Prop :=
  ∀ k ∈ ks.filter m.present, m.body k = .ok (m.bodyBytes k) ∧ (m.bodyBytes k).length < 65536

end ClientHelloMsg

theorem addExtension_ok {t : UInt16} {body : Except String (List UInt8)} {bs : List UInt8} :
    addExtension t body = .ok bs ↔
      ∃ b, body = .ok b ∧ b.length < 65536 ∧ bs = Format.block.put (t, b) := by
  constructor
  · intro h
    obtain ⟨b, hb, h⟩ := ok_of_bind h
    obtain ⟨data, hdata, h⟩ := ok_of_bind h
    obtain ⟨hlt, rfl⟩ := addLengthPrefixed_ok.mp hdata
    cases h
    exact ⟨b, hb, hlt, rfl⟩
  · rintro ⟨b, rfl, hlt, rfl⟩
    have hdata : addUint16LengthPrefixed b = .ok (putUint 2 b.length ++ b) :=
      addLengthPrefixed_ok.mpr ⟨hlt, rfl⟩
    change (addUint16LengthPrefixed b >>= fun data => pure (addUint16 t ++ data)) = _
    rw [hdata]
    rfl

theorem concat_addKind {m : ClientHelloMsg} {ks : List ExtKind} {bs : List UInt8} :
    concat (ks.map m.addKind) = .ok bs ↔
      Writable m ks ∧ bs = Format.block.putAll (m.rows ks) := by
  induction ks generalizing bs with
  | nil => simp [concat_nil, Writable, ClientHelloMsg.rows, eq_comm]
  | cons k ks ih =>
    rw [List.map_cons, concat_cons_ok]
    by_cases hp : m.present k = true
    · have hadd : m.addKind k = addExtension k.code (m.body k) := if_pos hp
      have hrows : m.rows (k :: ks) = (k.code, m.bodyBytes k) :: m.rows ks := by
        simp [ClientHelloMsg.rows, hp]
      have hwritable : Writable m (k :: ks) ↔
          (m.body k = .ok (m.bodyBytes k) ∧ (m.bodyBytes k).length < 65536) ∧ Writable m ks := by
        simp [Writable, hp]
      rw [hadd, hrows, hwritable, Format.putAll_cons]
      constructor
      · rintro ⟨b, rest, hb, hrest, rfl⟩
        obtain ⟨b, hbody, hlt, rfl⟩ := addExtension_ok.mp hb
        obtain ⟨hw, rfl⟩ := ih.mp hrest
        have hbytes : m.bodyBytes k = b := by simp [bodyBytes, hbody]
        rw [hbytes]
        exact ⟨⟨⟨hbody, hlt⟩, hw⟩, rfl⟩
      · rintro ⟨⟨⟨hbody, hlt⟩, hw⟩, rfl⟩
        exact ⟨_, _, addExtension_ok.mpr ⟨_, hbody, hlt, rfl⟩, ih.mpr ⟨hw, rfl⟩, rfl⟩
    · have hadd : m.addKind k = .ok [] := if_neg hp
      have hrows : m.rows (k :: ks) = m.rows ks := by simp [ClientHelloMsg.rows, hp]
      have hwritable : Writable m (k :: ks) ↔ Writable m ks := by simp [Writable, hp]
      rw [hadd, hrows, hwritable, ← ih]
      constructor
      · rintro ⟨b, rest, hb, hrest, rfl⟩
        cases hb
        exact hrest
      · intro h
        exact ⟨[], bs, rfl, h, rfl⟩

/-- An outer hello is written kind after kind. -/
theorem marshalExts_outer (m : ClientHelloMsg) (outerExts : Option (List UInt16)) :
    m.marshalExts false outerExts = concat (ExtKind.all.map m.addKind) := by
  have hnone : m.outerExtsOf false outerExts = [] := by
    cases outerExts <;> simp [outerExtsOf, named]
  have hskip : addOuterExts [] = .ok [] := rfl
  rw [marshalExts, hnone, hskip]
  simp only [named, Bool.false_and, Bool.false_eq_true, if_false]
  exact concat_skip (([ExtKind.serverName] ++ legacyKinds ++ ownKinds ++ sharedKinds).map m.addKind) _

/-- The layout of a message. -/
structure Layout (bs : List UInt8) (vers : UInt16) (random sessionId : List UInt8)
    (cipherSuites : List UInt16) (compressionMethods extBytes : List UInt8) : Prop where
  random_length : random.length = 32
  parts : ∃ header sid suites compression block,
    header.length = 4 ∧ addUint8LengthPrefixed sessionId = .ok sid ∧
    addUint16LengthPrefixed (putUint16s cipherSuites) = .ok suites ∧
    addUint8LengthPrefixed compressionMethods = .ok compression ∧
    (if 0 < extBytes.length then addUint16LengthPrefixed extBytes else .ok []) = .ok block ∧
    bs = header ++ (addUint16 vers ++ (random ++ (sid ++ (suites ++ (compression ++ block)))))

theorem Layout.length_eq {bs : List UInt8} {vers : UInt16} {random sessionId : List UInt8}
    {cipherSuites : List UInt16} {compressionMethods extBytes : List UInt8}
    (h : Layout bs vers random sessionId cipherSuites compressionMethods extBytes)
    (hext : extBytes ≠ []) :
    bs.length = 44 + sessionId.length + (putUint16s cipherSuites).length +
      compressionMethods.length + extBytes.length := by
  obtain ⟨hrandom, header, sid, suites, compression, block, hheader, hsid, hsuites, hcomp, hblock,
    rfl⟩ := h
  rw [if_pos (List.length_pos_iff.mpr hext)] at hblock
  obtain ⟨-, rfl⟩ := addLengthPrefixed_ok.mp hsid
  obtain ⟨-, rfl⟩ := addLengthPrefixed_ok.mp hsuites
  obtain ⟨-, rfl⟩ := addLengthPrefixed_ok.mp hcomp
  obtain ⟨-, rfl⟩ := addLengthPrefixed_ok.mp hblock
  simp only [List.length_append, addUint16_length, putUint_length, hheader, hrandom]
  omega

theorem addBytesWithLength_ok {v b : List UInt8} {n : Nat} :
    addBytesWithLength v n = .ok b ↔ v.length = n ∧ b = v := by
  unfold addBytesWithLength
  split
  next h => simp [h]
  next h => simp [not_not.mp h, eq_comm]

theorem marshalBody_layout {vers : UInt16} {random sessionId : List UInt8}
    {cipherSuites : List UInt16} {compressionMethods extBytes bs : List UInt8}
    (h : marshalBody vers random sessionId cipherSuites compressionMethods extBytes = .ok bs) :
    Layout bs vers random sessionId cipherSuites compressionMethods extBytes := by
  obtain ⟨body, hbody, h⟩ := ok_of_bind h
  obtain ⟨framed, hframed, h⟩ := ok_of_bind h
  obtain ⟨-, rfl⟩ := addLengthPrefixed_ok.mp hframed
  cases h
  simp only [concat_cons_ok, concat_nil] at hbody
  obtain ⟨_, _, hv, ⟨_, _, hr, ⟨sid, _, hsid, ⟨suites, _, hsuites, ⟨compression, _, hcomp,
    ⟨block, _, hblock, hnil, rfl⟩, rfl⟩, rfl⟩, rfl⟩, rfl⟩, hparts⟩ := hbody
  cases hv
  cases hnil
  obtain ⟨hlen, rfl⟩ := addBytesWithLength_ok.mp hr
  refine ⟨hlen, addUint8 typeClientHello ++ putUint 3 body.length, sid, suites, compression, block,
    by simp, hsid, hsuites, hcomp, hblock, ?_⟩
  rw [List.append_nil] at hparts
  rw [hparts, List.append_assoc]

/-- The fixed part of what is read. -/
def readFixed (bs : List UInt8) (vers : UInt16) (random sessionId : List UInt8)
    (cipherSuites : List UInt16) (compressionMethods : List UInt8) : ClientHelloMsg where
  original := some bs
  vers := vers
  random := random
  sessionId := sessionId
  cipherSuites := cipherSuites
  compressionMethods := compressionMethods
  secureRenegotiationSupported := cipherSuites.contains scsvRenegotiation

/-- Reading a message gets to its extensions. -/
theorem unmarshal_layout {bs : List UInt8} {vers : UInt16} {random sessionId : List UInt8}
    {cipherSuites : List UInt16} {compressionMethods extBytes : List UInt8}
    (h : Layout bs vers random sessionId cipherSuites compressionMethods extBytes) :
    unmarshal bs =
      readExtensions (readFixed bs vers random sessionId cipherSuites compressionMethods)
        extBytes := by
  obtain ⟨hrandom, header, sid, suites, compression, block, hheader, hsid, hsuites, hcomp, hblock,
    hbs⟩ := h
  have hskip : skip 4 bs = some (addUint16 vers ++ (random ++ (sid ++ (suites ++
      (compression ++ block))))) := by
    rw [hbs]
    exact skip_append hheader _
  simp only [unmarshal, hskip, Option.bind_eq_bind, Option.bind_some, readUint16_add,
    readBytes_append hrandom, readUint8LengthPrefixed, readLengthPrefixed_add hsid,
    readUint16LengthPrefixed, readLengthPrefixed_add hsuites, readUint16s_put,
    readLengthPrefixed_add hcomp]
  split at hblock
  next hpos =>
    have hne : block ≠ [] := by
      obtain ⟨-, rfl⟩ := addLengthPrefixed_ok.mp hblock
      simpa using fun _ => List.length_pos_iff.mp hpos
    simp [hne, readPrefixed_all hblock, readFixed]
  next hnil =>
    have hext : extBytes = [] := by simpa using hnil
    cases hblock
    simp [hext, readExtensions, drain, drainFuel, readFixed]

/-! ## Round trip -/

/-- Only pre-shared keys look at whether they are last. -/
theorem readRow_last {k : ExtKind} (data : List UInt8) {last : Bool}
    (h : k = .preSharedKey → last = true) : readRow data last k = readRow data true k := by
  cases k with
  | preSharedKey => rw [h rfl]
  | _ => rfl

theorem exists_entry {m : ClientHelloMsg} (hm : Sendable m) {k : ExtKind}
    (hp : m.present k = true) (hb : m.body k = .ok (m.bodyBytes k)) :
    ∃ e : Entry, e.kind = k ∧ e.data = m.bodyBytes k ∧ Same k e.value m := by
  obtain ⟨v, hv, hsame⟩ := readRow_body hm true hp hb fun _ => rfl
  exact ⟨⟨k, m.bodyBytes k, v, fun _ hlast => (readRow_last _ hlast).trans hv⟩, rfl, rfl, hsame⟩

/-- The extensions that a message writes, with what they are read as. -/
theorem exists_entries {m : ClientHelloMsg} (hm : Sendable m) {ks : List ExtKind}
    (hw : Writable m ks) :
    ∃ es : List Entry, es.map Entry.kind = ks.filter m.present ∧
      es.map Entry.row = m.rows ks ∧ ∀ e ∈ es, Same e.kind e.value m := by
  unfold Writable at hw
  rw [ClientHelloMsg.rows]
  have hpresent : ∀ k ∈ ks.filter m.present, m.present k = true := fun k hk =>
    (List.mem_filter.mp hk).2
  generalize ks.filter m.present = ps at hw hpresent
  induction ps with
  | nil => exact ⟨[], rfl, rfl, by simp⟩
  | cons k ps ih =>
    obtain ⟨es, hkinds, hrows, hsame⟩ := ih (fun k' hk' => hw k' (List.mem_cons_of_mem _ hk'))
      fun k' hk' => hpresent k' (List.mem_cons_of_mem _ hk')
    obtain ⟨e, rfl, hdata, hval⟩ := exists_entry hm (hpresent k (by simp)) (hw k (by simp)).1
    refine ⟨e :: es, by simp [hkinds], ?_, by simpa using ⟨hval, hsame⟩⟩
    simp [hrows, Entry.row, hdata]

/-- The message that entries give over what was read before them. -/
def readBack (es : List Entry) (m : ClientHelloMsg) : ClientHelloMsg :=
  (copyAll (es.map fun e => (e.kind, e.value)) m).withTypes (es.map fun e => e.kind.code)

theorem readBack_fixedPart (es : List Entry) (m : ClientHelloMsg) :
    (readBack es m).fixedPart = m.fixedPart :=
  copyAll_fixedPart _ m

theorem readBack_types (es : List Entry) (m : ClientHelloMsg) :
    (readBack es m).extensions = (es.map Entry.kind).map ExtKind.code := by
  rw [List.map_map]
  rfl

theorem readBack_keys (es : List Entry) :
    (es.map fun e => (e.kind, e.value)).map Prod.fst = es.map Entry.kind := by
  rw [List.map_map]
  rfl

theorem readBack_of_mem {es : List Entry} (hnodup : (es.map Entry.kind).Nodup) {e : Entry}
    (he : e ∈ es) (m : ClientHelloMsg) : Same e.kind (readBack es m) e.value :=
  (same_withTypes e.kind _ _).trans (same_copyAll_of_mem _ m (readBack_keys es ▸ hnodup)
    (List.mem_map.mpr ⟨e, he, rfl⟩))

theorem readBack_of_notMem {es : List Entry} {k : ExtKind} (hk : k ∉ es.map Entry.kind)
    (m : ClientHelloMsg) : Same k (readBack es m) m :=
  (same_withTypes k _ _).trans (same_copyAll_of_notMem _ m (readBack_keys es ▸ hk))

/-- A message whose extensions are entries of distinct kinds is read as their
fields over its fixed part. -/
theorem unmarshal_entries {bs : List UInt8} {vers : UInt16} {random sessionId : List UInt8}
    {cipherSuites : List UInt16} {compressionMethods : List UInt8} (es : List Entry)
    (hlast : PskLast (es.map Entry.kind)) (hnodup : (es.map Entry.kind).Nodup)
    (hfits : ∀ e ∈ es, e.data.length < 65536)
    (h : Layout bs vers random sessionId cipherSuites compressionMethods
      (Format.block.putAll (es.map Entry.row))) :
    unmarshal bs =
      some (readBack es (readFixed bs vers random sessionId cipherSuites compressionMethods)) := by
  have hrows : ∀ r ∈ es.map Entry.row, Format.block.Fits r := by
    intro r hr
    obtain ⟨e, he, rfl⟩ := List.mem_map.mp hr
    exact ⟨trivial, hfits e he⟩
  have htypes : (es.map Entry.row).map Prod.fst = es.map fun e => e.kind.code := by
    rw [List.map_map]
    rfl
  have hcodes : ((es.map Entry.row).map Prod.fst).Nodup := by
    rw [htypes]
    have := hnodup.map code_injective
    rwa [List.map_map] at this
  rw [unmarshal_layout h, readExtensions_eq, Format.block.readAll_putAll _ hrows, Option.bind_some,
    foldLast_accept _ _ (fun r _ => by simp [readFixed]) hcodes, readRows_entries es hlast, htypes]
  · rfl
  · intro r _ k _ hk
    cases k <;> first | rfl | exact absurd rfl hk

theorem fits_of_rows {m : ClientHelloMsg} {ks : List ExtKind} {es : List Entry}
    (hw : Writable m ks) (hrows : es.map Entry.row = m.rows ks) :
    ∀ e ∈ es, e.data.length < 65536 := by
  intro e he
  have hmem : e.row ∈ m.rows ks := hrows ▸ List.mem_map_of_mem he
  obtain ⟨k, hk, hrow⟩ := List.mem_map.mp hmem
  have hdata : m.bodyBytes k = e.data := congrArg Prod.snd hrow
  exact hdata ▸ (hw k hk).2

theorem pskLast_psk (m : ClientHelloMsg) : PskLast ([ExtKind.preSharedKey].filter m.present) := by
  cases h : m.present .preSharedKey <;> simp [h, PskLast]

theorem pskLast_filter_all (m : ClientHelloMsg) : PskLast (ExtKind.all.filter m.present) := by
  have hsplit : ExtKind.all = (.serverName :: legacyKinds ++ ownKinds ++ sharedKinds) ++
      [ExtKind.preSharedKey] := rfl
  rw [hsplit, List.filter_append]
  refine pskLast_append (fun h => ?_) (pskLast_psk m)
  exact absurd (List.mem_of_mem_filter h) (by decide)

/-- The fields of an extension do not depend on the noted bytes. -/
theorem same_original (k : ExtKind) (m : ClientHelloMsg) (bs : List UInt8) (types : List UInt16) :
    Same k { m with original := some bs, extensions := types } m := by
  cases k <;> rfl

/-- What a message does not write is what its reader starts from. -/
theorem same_absent {m : ClientHelloMsg} (hm : Sendable m) {k : ExtKind} (hp : m.present k = false)
    (bs : List UInt8) (vers : UInt16) (random sessionId compressionMethods : List UInt8) :
    Same k (readFixed bs vers random sessionId m.cipherSuites compressionMethods) m := by
  cases k with
  | sessionTicket =>
    have h : m.ticketSupported = false := hp
    simp [Same, copy, readFixed, h, hm.ticket h]
  | renegotiationInfo =>
    have h : m.secureRenegotiationSupported = false := hp
    obtain ⟨hdata, hscsv⟩ := hm.renegotiation h
    simp [Same, copy, readFixed, h, hdata, hscsv]
  | preSharedKey =>
    have h : m.pskIdentities = [] := by simpa [present] using hp
    simp [Same, copy, readFixed, h, hm.bound.mp h]
  | _ => simp_all [Same, copy, readFixed, present]

/-- A hello that is written is read back as it was, with its bytes and its
extension types noted. -/
theorem unmarshal_marshal (m : ClientHelloMsg) (hm : Sendable m) (bs : List UInt8)
    (h : m.marshalMsg false = .ok bs) :
    unmarshal bs = some { m with
      original := some bs
      extensions := (ExtKind.all.filter m.present).map ExtKind.code } := by
  obtain ⟨extBytes, hext, hbody⟩ := ok_of_bind h
  rw [marshalExts_outer, concat_addKind] at hext
  obtain ⟨hw, rfl⟩ := hext
  obtain ⟨es, hkinds, hrows, hsame⟩ := exists_entries hm hw
  have hlast : PskLast (es.map Entry.kind) := by
    rw [hkinds]
    exact pskLast_filter_all m
  have hnodup : (es.map Entry.kind).Nodup := by
    rw [hkinds]
    exact List.Nodup.filter _ (by decide)
  have hfits : ∀ e ∈ es, e.data.length < 65536 := fits_of_rows hw hrows
  rw [← hrows] at hbody
  rw [unmarshal_entries es hlast hnodup hfits (marshalBody_layout hbody)]
  congr 1
  apply ext_of_same
  · exact readBack_fixedPart es _
  · rw [readBack_types, hkinds]
  · intro k
    refine Same.trans ?_ (same_original k m bs _).symm
    by_cases hp : m.present k = true
    · have hk : k ∈ es.map Entry.kind := by
        rw [hkinds]
        exact List.mem_filter.mpr ⟨by cases k <;> decide, hp⟩
      obtain ⟨e, he, rfl⟩ := List.mem_map.mp hk
      exact (readBack_of_mem hnodup he _).trans (hsame e he)
    · have hk : k ∉ es.map Entry.kind := by
        rw [hkinds]
        exact fun hk => hp (List.mem_filter.mp hk).2
      exact (readBack_of_notMem hk _).trans (same_absent hm (by simpa using hp) _ _ _ _ _)

def sampleHello : ClientHelloMsg where
  vers := 0x0303
  random := List.replicate 32 7
  sessionId := [5, 6]
  cipherSuites := [0x1301, 0x1302]
  compressionMethods := [0]
  serverName := [0x61, 0x62]
  supportedCurves := [29]
  alpnProtocols := [[0x68, 0x32], [0x78]]
  supportedVersions := [versionTLS13]
  keyShares := [⟨29, [1, 2, 3]⟩]

def sampleBytes : List UInt8 := (sampleHello.marshalMsg false).toOption.getD []

theorem unmarshal_sampleBytes : unmarshal sampleBytes = some { sampleHello with
    original := some sampleBytes
    extensions := [0, 10, 16, 43, 51] } :=
  unmarshal_marshal sampleHello
    ⟨by decide, by decide, by decide, by decide, by decide, by decide, by decide, by decide⟩
    sampleBytes rfl

end SniShaper.Ech
