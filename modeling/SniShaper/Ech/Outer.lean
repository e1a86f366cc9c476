import SniShaper.Ech.Inner

/-! The outer hello of a connection with a chosen fingerprint (`u_conn.go`): the
extensions of the fingerprint are written as they stand, and the sealed inner
hello takes the place of the placeholder for an Encrypted ClientHello extension.

The hello is written twice. The first time the payload is zero bytes, and what
was written is the associated data that the inner hello is sealed with; the
second time the payload is the ciphertext.

Proved here:

* a hello with one padding extension in the style of BoringSSL never has 256 to 511
  bytes (`marshalClientHelloNoECH_boring`), and the check of the written length never
  fails (`UConn.marshalClientHelloNoECH_ok`);
* the two writings of a successful update differ in the payload only
  (`compute_updated`), and without a placeholder nothing is written and yet no error is
  reported (`marshalClientHello_unplaced`);
* the other side finds the ciphertext in the hello, and the inner hello in what the
  ciphertext hides (`Updated.received`). -/

namespace SniShaper.Ech

open Wire ClientHelloMsg

/-! ## The extension -/

def generateOuterECHExt (id : UInt8) (kdfID aeadID : UInt16) (encodedKey payload : List UInt8) :
    Except String (List UInt8) :=
  concat [.ok (addUint8 0), .ok (addUint16 kdfID), .ok (addUint16 aeadID), .ok (addUint8 id),
    addUint16LengthPrefixed encodedKey, addUint16LengthPrefixed payload]

def errMalformedECHExt : String := "tls: malformed encrypted_client_hello extension"

/-- The two forms of the extension. -/
inductive EchExt
  | inner
  | outer (cs : EchCipher) (configID : UInt8) (encap payload : List UInt8)
  deriving DecidableEq, Repr

/-- What follows the payload is not looked at. -/
def parseECHExt (ext : List UInt8) : Except String EchExt := do
  let (echType, s) ← orError errMalformedECHExt (readUint8 ext)
  if echType = 1 then
    if s ≠ [] then throw errMalformedECHExt
    return .inner
  if echType ≠ 0 then throw errInvalidECHExt
  orError errMalformedECHExt (do
    let (kdfID, s) ← readUint16 s
    let (aeadID, s) ← readUint16 s
    let (configID, s) ← readUint8 s
    let (encap, s) ← readUint16LengthPrefixed s
    let (payload, _) ← readUint16LengthPrefixed s
    return .outer ⟨kdfID, aeadID⟩ configID encap payload)

/-! ## Extensions of a fingerprint -/

/-- A `TLSExtension`: one that writes a type, a length and its data, the padding, or
the placeholder that an Encrypted ClientHello extension takes. -/
inductive TlsExtension
  | generic (id : UInt16) (data : List UInt8)
  | padding (getPaddingLen : Option (Nat → Nat × Bool)) (paddingLen : Nat) (willPad : Bool)
  | grease (data : List UInt8)

def utlsExtensionPadding : UInt16 := 21

namespace TlsExtension

def isPadding : TlsExtension → Bool
  | .padding .. => true
  | _ => false

/-- Whether it satisfies `EncryptedClientHelloExtension`. -/
def isECH : TlsExtension → Bool
  | .grease _ => true
  | _ => false

/-- `Len`. -/
def len : TlsExtension → Nat
  | .generic _ data => 4 + data.length
  | .padding _ paddingLen willPad => if willPad then 4 + paddingLen else 0
  | .grease data => 4 + data.length

/-- What `Read` writes to the front of a buffer of zeros that is long enough. -/
def read : TlsExtension → List UInt8
  | .generic id data => addUint16 id ++ putUint 2 data.length ++ data
  | .padding _ paddingLen willPad =>
    if willPad then
      addUint16 utlsExtensionPadding ++ putUint 2 paddingLen ++ List.replicate paddingLen 0
    else []
  | .grease data => addUint16 extensionEncryptedClientHello ++ putUint 2 data.length ++ data

/-- `Update`, which only the padding has. -/
def update (clientHelloUnpaddedLen : Nat) : TlsExtension → TlsExtension
  | .padding (some getPaddingLen) _ _ =>
    let (paddingLen, willPad) := getPaddingLen clientHelloUnpaddedLen
    .padding (some getPaddingLen) paddingLen willPad
  | ext => ext

/-- The type at the front of a buffer of 2000 zero bytes that the extension was read
to. A longer extension leaves the buffer as it is. -/
def listedType (ext : TlsExtension) : UInt16 :=
  let buffer := if ext.len ≤ 2000 then ext.read ++ List.replicate (2000 - ext.len) 0
    else List.replicate 2000 0
  ((readUint16 buffer).map Prod.fst).getD 0

end TlsExtension

def extensionsList (exts : List TlsExtension) : List UInt16 := exts.map TlsExtension.listedType

/-! ## Writing the hello -/

/-- The fields of the public hello that are read here. -/
structure PubClientHelloMsg where
  raw : List UInt8 := []
  vers : UInt16
  random : List UInt8
  sessionId : List UInt8
  cipherSuites : List UInt16
  compressionMethods : List UInt8
  supportedCurves : List UInt16 := []
  supportedSignatureAlgorithms : List UInt16 := []
  keyShares : List KeyShare := []
  random_length : random.length = 32

structure UConn where
  hello : PubClientHelloMsg
  extensions : List TlsExtension

/-- `BoringPaddingStyle`: pad hellos of 256 to 511 bytes to 512 bytes. -/
def boringPaddingStyle (unpaddedLen : Nat) : Nat × Bool :=
  if 0xff < unpaddedLen ∧ unpaddedLen < 0x200 then
    let paddingLen := 0x200 - unpaddedLen
    (if 4 + 1 ≤ paddingLen then paddingLen - 4 else 1, true)
  else (0, false)

/-- The loop over the extensions: the length of those that are no padding, and the
padding. -/
def scanExtensions : List TlsExtension → Nat → Option TlsExtension →
    Except String (Nat × Option TlsExtension)
  | [], extensionsLen, paddingExt => .ok (extensionsLen, paddingExt)
  | ext :: exts, extensionsLen, paddingExt =>
    if !ext.isPadding then scanExtensions exts (extensionsLen + ext.len) paddingExt
    else if paddingExt.isNone then scanExtensions exts extensionsLen (some ext)
    else .error "multiple padding extensions"

def PubClientHelloMsg.headerLength (hello : PubClientHelloMsg) : Nat :=
  2 + 32 + 1 + hello.sessionId.length + 2 + hello.cipherSuites.length * 2 + 1 +
    hello.compressionMethods.length

/-- What is written to the buffer. Lengths are cut to the bytes that they are
written in. -/
def PubClientHelloMsg.write (hello : PubClientHelloMsg) (helloLen : Nat) (extBytes : List UInt8) :
    List UInt8 :=
  addUint8 typeClientHello ++ putUint 3 helloLen ++ addUint16 hello.vers ++ hello.random ++
    putUint 1 hello.sessionId.length ++ hello.sessionId ++
    putUint 2 (hello.cipherSuites.length * 2) ++ putUint16s hello.cipherSuites ++
    putUint 1 hello.compressionMethods.length ++ hello.compressionMethods ++ extBytes

namespace UConn

/-- The connection after the call, with the error if there is one. -/
def marshalClientHelloNoECH (uconn : UConn) : UConn × Except String Unit :=
  let hello := uconn.hello
  match scanExtensions uconn.extensions 0 none with
  | .error err => (uconn, .error err)
  | .ok (unpaddedLen, paddingExt) =>
    let update := TlsExtension.update (hello.headerLength + 4 + unpaddedLen + 2)
    let extensionsLen := unpaddedLen + ((paddingExt.map fun pe => (update pe).len).getD 0)
    let exts := uconn.extensions.map update
    let helloLen := hello.headerLength + if 0 < exts.length then 2 + extensionsLen else 0
    let raw := hello.write helloLen
      (if 0 < exts.length then putUint 2 extensionsLen ++ exts.flatMap TlsExtension.read else [])
    if raw.length ≠ 4 + helloLen then
      ({ uconn with extensions := exts }, .error ("utls: unexpected ClientHello length. Expected: " ++
        toString (4 + helloLen) ++ ". Got: " ++ toString raw.length))
    else ({ hello := { hello with raw }, extensions := exts }, .ok ())

end UConn

/-- The first placeholder and its index. -/
def indexECH : List TlsExtension → Option (Nat × TlsExtension)
  | [] => none
  | ext :: exts =>
    if ext.isECH then some (0, ext) else (indexECH exts).map fun p => (p.1 + 1, p.2)

section Compute

variable {S : Type} (sealNext : S → List UInt8 → List UInt8 → Except String (List UInt8 × S))

/-- Write the hello with an extension in the place of the placeholder. -/
def UConn.marshalWith (uconn : UConn) (i : Nat) (data : List UInt8) : UConn × Except String Unit :=
  { uconn with extensions :=
      uconn.extensions.set i (.generic extensionEncryptedClientHello data) }.marshalClientHelloNoECH

/-- The second half of the update, from the first writing on. -/
def sealAndMarshal (uconn : UConn) (ech : EchClientContext S) (i : Nat) (oldExt : TlsExtension)
    (outerExt : List UInt8 → Except String (List UInt8)) (zeroExt encodedInner : List UInt8) :
    (UConn × EchClientContext S) × Except String Unit :=
  match uconn.marshalWith i zeroExt with
  | (uconn, .error err) => ((uconn, ech), .error err)
  | (uconn, .ok ()) =>
    match sealNext ech.hpkeContext (uconn.hello.raw.drop 4) encodedInner with
    | .error err => ((uconn, ech), .error err)
    | .ok (encryptedInner, hpkeContext) =>
      let ech := { ech with hpkeContext }
      match outerExt encryptedInner with
      | .error err => ((uconn, ech), .error err)
      | .ok sealedExt =>
        match uconn.marshalWith i sealedExt with
        | (uconn, .error err) => ((uconn, ech), .error err)
        | (uconn, .ok ()) =>
          (({ uconn with extensions := uconn.extensions.set i oldExt }, ech), .ok ())

def computeAndUpdateOuterECHExtension (uconn : UConn) (inner : ClientHelloMsg)
    (ech : EchClientContext S) (useKey : Bool) :
    (UConn × EchClientContext S) × Except String Unit :=
  let encapKey := if useKey then ech.encapsulatedKey else []
  let outerExt := generateOuterECHExt ech.config.configID ech.kdfID ech.aeadID encapKey
  match encodeInnerClientHelloReorderOuterExts inner ech.config.maxNameLength.toNat
      (some (extensionsList uconn.extensions)) with
  | .error err => ((uconn, ech), .error err)
  | .ok encodedInner =>
    match outerExt (List.replicate (encodedInner.length + 16) 0) with
    | .error err => ((uconn, ech), .error err)
    | .ok zeroExt =>
      match indexECH uconn.extensions with
      | none =>
        ((uconn, ech), .error "extension satisfying EncryptedClientHelloExtension not present")
      | some (i, oldExt) => sealAndMarshal sealNext uconn ech i oldExt outerExt zeroExt encodedInner

/-- `MarshalClientHello` with a configuration list; `made` is what `makeClientHello`
gives. The result of the update is not looked at. -/
def marshalClientHello (uconn : UConn) (made : Except String (ClientHelloMsg × EchClientContext S)) :
    (UConn × Option (EchClientContext S × ClientHelloMsg)) × Except String Unit :=
  match made with
  | .error err => ((uconn, none), .error err)
  | .ok (inner, ech) =>
    let hello := uconn.hello
    let inner := { inner with
      keyShares := hello.keyShares
      supportedSignatureAlgorithms := hello.supportedSignatureAlgorithms
      sessionId := hello.sessionId
      supportedCurves := hello.supportedCurves }
    let ((uconn, ech), _) := computeAndUpdateOuterECHExtension sealNext uconn inner ech true
    ((uconn, some (ech, inner)), .ok ())

end Compute

/-! ## Lengths -/

namespace TlsExtension

theorem read_length (ext : TlsExtension) : ext.read.length = ext.len := by
  cases ext with
  | generic id data => simp [read, len]; omega
  | padding f n willPad => cases willPad <;> simp [read, len]; omega
  | grease data => simp [read, len]; omega

@[simp] theorem update_generic (id : UInt16) (data : List UInt8) (k : Nat) :
    (generic id data).update k = generic id data := rfl

theorem update_of_not_padding {ext : TlsExtension} (h : ext.isPadding = false) (k : Nat) :
    ext.update k = ext := by
  cases ext with
  | padding f n willPad => cases h
  | _ => rfl

theorem isPadding_update (ext : TlsExtension) (k : Nat) :
    (ext.update k).isPadding = ext.isPadding := by
  cases ext with
  | padding f n willPad => cases f <;> rfl
  | _ => rfl

theorem update_update (ext : TlsExtension) (k : Nat) : (ext.update k).update k = ext.update k := by
  cases ext with
  | padding f n willPad => cases f <;> rfl
  | _ => rfl

end TlsExtension

open TlsExtension

/-- What the scan adds up is the length of what is written after the update. -/
theorem scanExtensions_length {exts : List TlsExtension} {n m : Nat} {seen pe : Option TlsExtension}
    (h : scanExtensions exts n seen = .ok (m, pe)) (k : Nat) :
    m + (pe.map fun e => (e.update k).len).getD 0 =
      n + (seen.map fun e => (e.update k).len).getD 0 +
        ((exts.map (update k)).flatMap read).length := by
  induction exts generalizing n seen with
  | nil =>
    cases h
    simp
  | cons ext exts ih =>
    rw [scanExtensions] at h
    rw [List.map_cons, List.flatMap_cons, List.length_append, read_length]
    cases hp : ext.isPadding with
    | false =>
      simp only [hp, Bool.not_false, if_true] at h
      have hrest := ih h
      rw [update_of_not_padding hp]
      omega
    | true =>
      cases seen with
      | some e => simp [hp] at h
      | none =>
        simp only [hp, Bool.not_true, Bool.false_eq_true, if_false, Option.isNone_none, if_true] at h
        have hrest := ih h
        simp only [Option.map_some, Option.getD_some] at hrest
        simp only [Option.map_none, Option.getD_none]
        omega

/-- The scan does not see what the update changes. -/
theorem scanExtensions_update (exts : List TlsExtension) (n k : Nat) (seen : Option TlsExtension) :
    scanExtensions (exts.map (update k)) n (seen.map (update k)) =
      (scanExtensions exts n seen).map fun p => (p.1, p.2.map (update k)) := by
  induction exts generalizing n seen with
  | nil => rfl
  | cons ext exts ih =>
    rw [List.map_cons, scanExtensions, scanExtensions, isPadding_update]
    cases hp : ext.isPadding with
    | false =>
      simp only [Bool.not_false, if_true, update_of_not_padding hp]
      exact ih _ _
    | true =>
      cases seen with
      | some e => rfl
      | none => exact ih n (some ext)

/-- Of an extension that is no padding the scan sees the length only. -/
theorem scanExtensions_replace (ext ext' : TlsExtension) (hp : ext.isPadding = false)
    (hp' : ext'.isPadding = false) (hlen : ext.len = ext'.len) (before after : List TlsExtension)
    (n : Nat) (seen : Option TlsExtension) :
    scanExtensions (before ++ ext :: after) n seen =
      scanExtensions (before ++ ext' :: after) n seen := by
  induction before generalizing n seen with
  | nil => simp [scanExtensions, hp, hp', hlen]
  | cons e before ih =>
    simp only [List.cons_append, scanExtensions]
    split
    · exact ih _ _
    · split
      · exact ih _ _
      · rfl

/-! ## What is written -/

/-- The hello with extensions that have their lengths. -/
def PubClientHelloMsg.frame (hello : PubClientHelloMsg) (exts : List TlsExtension) : List UInt8 :=
  hello.write (hello.headerLength + if 0 < exts.length then 2 + (exts.flatMap read).length else 0)
    (if 0 < exts.length then putUint 2 (exts.flatMap read).length ++ exts.flatMap read else [])

theorem PubClientHelloMsg.write_length (hello : PubClientHelloMsg) (n : Nat)
    (extBytes : List UInt8) :
    (hello.write n extBytes).length = 4 + hello.headerLength + extBytes.length := by
  have hrandom := hello.random_length
  simp only [write, headerLength, List.length_append, addUint8_length, addUint16_length,
    putUint_length, putUint16s_length]
  omega

/-- The connection after writing extensions. -/
def UConn.written (uconn : UConn) (exts : List TlsExtension) : UConn :=
  ⟨{ uconn.hello with raw := uconn.hello.frame exts }, exts⟩

/-- The check of the length never fails. -/
theorem UConn.marshalClientHelloNoECH_ok {uconn : UConn} {m : Nat} {pe : Option TlsExtension}
    (h : scanExtensions uconn.extensions 0 none = .ok (m, pe)) :
    uconn.marshalClientHelloNoECH = (uconn.written
      (uconn.extensions.map (update (uconn.hello.headerLength + 4 + m + 2))), .ok ()) := by
  have hlen := scanExtensions_length h (uconn.hello.headerLength + 4 + m + 2)
  simp only [Option.map_none, Option.getD_none, Nat.zero_add] at hlen
  simp only [marshalClientHelloNoECH, h, hlen]
  rw [if_neg]
  · rfl
  · rw [PubClientHelloMsg.write_length]
    split
    · simp
      omega
    · simp

/-- Extensions that are no padding add their lengths. -/
theorem scanExtensions_plain {exts : List TlsExtension} (h : ∀ ext ∈ exts, ext.isPadding = false)
    (rest : List TlsExtension) (n : Nat) (seen : Option TlsExtension) :
    scanExtensions (exts ++ rest) n seen =
      scanExtensions rest (n + (exts.map len).sum) seen := by
  induction exts generalizing n with
  | nil => rfl
  | cons ext exts ih =>
    obtain ⟨hext, hexts⟩ := List.forall_mem_cons.mp h
    rw [List.cons_append, scanExtensions, hext, Bool.not_false, if_pos rfl, ih hexts,
      List.map_cons, List.sum_cons, Nat.add_assoc]

/-- With one padding extension, the length that the update is given is the length of
the hello without it. -/
theorem written_length {uconn : UConn} {before after : List TlsExtension} {pe : TlsExtension}
    (hexts : uconn.extensions = before ++ pe :: after) (hpe : pe.isPadding = true)
    (hbefore : ∀ ext ∈ before, ext.isPadding = false)
    (hafter : ∀ ext ∈ after, ext.isPadding = false) :
    ∃ unpadded uconn', uconn.marshalClientHelloNoECH = (uconn', .ok ()) ∧
      uconn'.hello.raw.length = unpadded + (pe.update unpadded).len := by
  obtain ⟨m, hscan⟩ : ∃ m, scanExtensions uconn.extensions 0 none = .ok (m, some pe) := by
    have hrest := scanExtensions_plain hafter [] (0 + (before.map len).sum) (some pe)
    rw [List.append_nil] at hrest
    refine ⟨0 + (before.map len).sum + (after.map len).sum, ?_⟩
    rw [hexts, scanExtensions_plain hbefore, scanExtensions, hpe]
    exact hrest
  refine ⟨uconn.hello.headerLength + 4 + m + 2, _, UConn.marshalClientHelloNoECH_ok hscan, ?_⟩
  have hlen := scanExtensions_length hscan (uconn.hello.headerLength + 4 + m + 2)
  simp only [Option.map_some, Option.getD_some, Option.map_none, Option.getD_none] at hlen
  have hpos : 0 < (uconn.extensions.map
      (update (uconn.hello.headerLength + 4 + m + 2))).length := by
    simp [hexts]
  simp only [UConn.written, PubClientHelloMsg.frame, PubClientHelloMsg.write_length, if_pos hpos,
    List.length_append, putUint_length]
  omega

theorem boringPaddingStyle_gap (n : Nat) (f : Option (Nat → Nat × Bool)) :
    ¬ (256 ≤ n + (padding f (boringPaddingStyle n).1 (boringPaddingStyle n).2).len ∧
      n + (padding f (boringPaddingStyle n).1 (boringPaddingStyle n).2).len < 512) := by
  unfold boringPaddingStyle
  split
  next =>
    -- From 508 bytes on there is no room for an extension that ends at 512.
    simp only [len, if_true]
    split <;> omega
  next =>
    simp only [len, Bool.false_eq_true, if_false]
    omega

/-- A hello of 288 bytes and its padding. -/
def paddedConn : UConn where
  hello := { vers := 0x303, random := List.replicate 32 1, sessionId := [], cipherSuites := [],
             compressionMethods := [], random_length := rfl }
  extensions := [.generic 0 (List.replicate 240 0), .padding (some boringPaddingStyle) 0 false]

theorem indexECH_inv {exts : List TlsExtension} {i : Nat} {old : TlsExtension}
    (h : indexECH exts = some (i, old)) :
    ∃ before after, exts = before ++ old :: after ∧ before.length = i ∧ old.isECH = true := by
  induction exts generalizing i with
  | nil => cases h
  | cons ext exts ih =>
    rw [indexECH] at h
    split at h
    next hech =>
      cases h
      exact ⟨[], exts, rfl, rfl, hech⟩
    next =>
      obtain ⟨⟨j, e⟩, hrest, heq⟩ := Option.map_eq_some_iff.mp h
      cases heq
      obtain ⟨before, after, rfl, rfl, hech⟩ := ih hrest
      exact ⟨ext :: before, after, rfl, rfl, hech⟩

theorem indexECH_eq_none {exts : List TlsExtension} (h : ∀ ext ∈ exts, ext.isECH = false) :
    indexECH exts = none := by
  induction exts with
  | nil => rfl
  | cons ext exts ih =>
    obtain ⟨hext, hexts⟩ := List.forall_mem_cons.mp h
    rw [indexECH, ih hexts, hext]
    rfl

/-- The extension of an outer hello in front of its payload. -/
def extPrefix (id : UInt8) (kdfID aeadID : UInt16) (encodedKey : List UInt8) : List UInt8 :=
  addUint8 0 ++ (addUint16 kdfID ++ (addUint16 aeadID ++ (addUint8 id ++
    (putUint 2 encodedKey.length ++ encodedKey))))

theorem generateOuterECHExt_inv {id : UInt8} {kdfID aeadID : UInt16}
    {encodedKey payload ext : List UInt8}
    (h : generateOuterECHExt id kdfID aeadID encodedKey payload = .ok ext) :
    encodedKey.length < 65536 ∧ payload.length < 65536 ∧
      ext = extPrefix id kdfID aeadID encodedKey ++ (putUint 2 payload.length ++ payload) := by
  simp only [generateOuterECHExt, concat_cons_ok, addUint16LengthPrefixed, addLengthPrefixed_ok,
    concat_nil] at h
  obtain ⟨_, _, h1, ⟨_, _, h2, ⟨_, _, h3, ⟨_, _, h4, ⟨_, _, ⟨hkey, rfl⟩, ⟨_, _, ⟨hpayload, rfl⟩,
    hnil, rfl⟩, rfl⟩, rfl⟩, rfl⟩, rfl⟩, rfl⟩ := h
  cases h1
  cases h2
  cases h3
  cases h4
  cases hnil
  exact ⟨hkey, hpayload, by simp [extPrefix]⟩

/-- What the other side reads in the extension. -/
theorem parseECHExt_generate {id : UInt8} {kdfID aeadID : UInt16}
    {encodedKey payload ext : List UInt8}
    (h : generateOuterECHExt id kdfID aeadID encodedKey payload = .ok ext) :
    parseECHExt ext = .ok (.outer ⟨kdfID, aeadID⟩ id encodedKey payload) := by
  obtain ⟨hkey, hpayload, rfl⟩ := generateOuterECHExt_inv h
  have hread := readLengthPrefixed_add (k := 2) (addLengthPrefixed_ok.mpr ⟨hkey, rfl⟩)
    (putUint 2 payload.length ++ payload)
  have hread' := readPrefixed_all (k := 2) (addLengthPrefixed_ok.mpr ⟨hpayload, rfl⟩)
  rw [List.append_assoc] at hread
  simp only [parseECHExt, extPrefix, List.append_assoc, readUint8_add, orError_some, bind,
    Except.bind, readUint16_add, Option.bind_some, readUint16LengthPrefixed, hread, hread']
  rfl

/-! ## The payload in the hello -/

/-- The hello without its type and length. -/
theorem PubClientHelloMsg.write_drop (hello : PubClientHelloMsg) :
    ∃ body, ∀ n extBytes, (hello.write n extBytes).drop 4 = body ++ extBytes := by
  refine ⟨addUint16 hello.vers ++ (hello.random ++ (putUint 1 hello.sessionId.length ++
    (hello.sessionId ++ (putUint 2 (hello.cipherSuites.length * 2) ++
    (putUint16s hello.cipherSuites ++ (putUint 1 hello.compressionMethods.length ++
    hello.compressionMethods)))))), fun n extBytes => ?_⟩
  simp only [write, List.append_assoc]
  rw [← List.append_assoc, List.drop_left' (by simp)]

/-- The bytes of a hello around the payload of its extension, for payloads of one
length. -/
theorem frame_payload (hello : PubClientHelloMsg) (before after : List TlsExtension)
    (pre : List UInt8) (n : Nat) :
    ∃ front back, ∀ payload : List UInt8, payload.length = n →
      (hello.frame (before ++ .generic extensionEncryptedClientHello
        (pre ++ (putUint 2 payload.length ++ payload)) :: after)).drop 4 =
        front ++ (payload ++ back) := by
  obtain ⟨body, hbody⟩ := hello.write_drop
  let dataLen := pre.length + (2 + n)
  let extLen := (before.flatMap read).length + (4 + dataLen + (after.flatMap read).length)
  refine ⟨body ++ (putUint 2 extLen ++ (before.flatMap read ++
    (addUint16 extensionEncryptedClientHello ++ (putUint 2 dataLen ++ (pre ++ putUint 2 n))))),
    after.flatMap read, fun payload hpayload => ?_⟩
  have hext : ((before ++ TlsExtension.generic extensionEncryptedClientHello
      (pre ++ (putUint 2 payload.length ++ payload)) :: after).flatMap read) =
      before.flatMap read ++ (addUint16 extensionEncryptedClientHello ++ (putUint 2 dataLen ++
        (pre ++ (putUint 2 n ++ (payload ++ after.flatMap read))))) := by
    simp [TlsExtension.read, dataLen, hpayload]
  have hlen : ((before ++ TlsExtension.generic extensionEncryptedClientHello
      (pre ++ (putUint 2 payload.length ++ payload)) :: after).flatMap read).length = extLen := by
    rw [hext]
    simp only [List.length_append, addUint16_length, putUint_length, hpayload, extLen, dataLen]
    omega
  rw [PubClientHelloMsg.frame, hbody, if_pos (by simp), hlen, hext]
  simp only [List.append_assoc]

/-! ## The update -/

theorem marshalWith_ok {uconn uconn' : UConn} {before after : List TlsExtension}
    {old : TlsExtension} {data : List UInt8} (hexts : uconn.extensions = before ++ old :: after)
    (h : uconn.marshalWith before.length data = (uconn', .ok ())) :
    ∃ m pe, scanExtensions (before ++ .generic extensionEncryptedClientHello data :: after) 0 none =
        .ok (m, pe) ∧
      uconn' = uconn.written ((before ++ .generic extensionEncryptedClientHello data :: after).map
        (update (uconn.hello.headerLength + 4 + m + 2))) := by
  unfold UConn.marshalWith at h
  rw [hexts, List.set_append_right _ _ (le_refl _), Nat.sub_self, List.set_cons_zero] at h
  cases hscan : scanExtensions
      (before ++ .generic extensionEncryptedClientHello data :: after) 0 none with
  | error err =>
    simp only [UConn.marshalClientHelloNoECH, hscan] at h
    cases h
  | ok p =>
    obtain ⟨m, pe⟩ := p
    rw [UConn.marshalClientHelloNoECH_ok hscan] at h
    cases h
    exact ⟨m, pe, rfl, rfl⟩

/-- A second writing, with data of the same length. -/
theorem marshalWith_again {uconn uconn' uconn'' : UConn} {before after : List TlsExtension}
    {old : TlsExtension} {data data' : List UInt8}
    (hexts : uconn.extensions = before ++ old :: after) (hlen : data'.length = data.length)
    (h : uconn.marshalWith before.length data = (uconn', .ok ()))
    (h' : uconn'.marshalWith before.length data' = (uconn'', .ok ())) :
    ∃ k, uconn' = uconn.written (before.map (update k) ++
        .generic extensionEncryptedClientHello data :: after.map (update k)) ∧
      uconn'' = uconn.written (before.map (update k) ++
        .generic extensionEncryptedClientHello data' :: after.map (update k)) := by
  obtain ⟨m, pe, hscan, rfl⟩ := marshalWith_ok hexts h
  refine ⟨uconn.hello.headerLength + 4 + m + 2, by simp, ?_⟩
  generalize hk : uconn.hello.headerLength + 4 + m + 2 = k at h'
  have hexts' : (uconn.written ((before ++ .generic extensionEncryptedClientHello data :: after).map
      (update k))).extensions = before.map (update k) ++
        .generic extensionEncryptedClientHello data :: after.map (update k) := by
    simp [UConn.written]
  have hlength : before.length = (before.map (update k)).length := by simp
  rw [hlength] at h'
  obtain ⟨m', pe', hscan', rfl⟩ := marshalWith_ok hexts' h'
  -- The second scan sees the lengths that the first one saw.
  have hsame := scanExtensions_update (before ++ .generic extensionEncryptedClientHello data :: after)
    0 k none
  rw [hscan, List.map_append, List.map_cons, Option.map_none,
    scanExtensions_replace _ (.generic extensionEncryptedClientHello data') rfl rfl
      (by simp [len, hlen]), hscan'] at hsame
  cases hsame
  have hheader : ∀ exts, (uconn.written exts).hello.headerLength = uconn.hello.headerLength :=
    fun _ => rfl
  have htwice : (before.map (update k) ++ .generic extensionEncryptedClientHello data' ::
      after.map (update k)).map (update k) = before.map (update k) ++
        .generic extensionEncryptedClientHello data' :: after.map (update k) := by
    simp [Function.comp_def, update_update]
  rw [hheader, hk]
  exact congrArg uconn.written htwice

section Update

variable {S : Type} {sealNext : S → List UInt8 → List UInt8 → Except String (List UInt8 × S)}

/-- What a successful update has done: `front` and `back` are the bytes around the
payload. -/
structure Updated (sealNext : S → List UInt8 → List UInt8 → Except String (List UInt8 × S))
    (uconn uconn' : UConn) (inner : ClientHelloMsg) (ech ech' : EchClientContext S) (useKey : Bool)
    (encoded ciphertext front back : List UInt8) : Prop where
  encode : encodeInnerClientHelloReorderOuterExts inner ech.config.maxNameLength.toNat
    (some (extensionsList uconn.extensions)) = .ok encoded
  sealed : sealNext ech.hpkeContext
    (front ++ (List.replicate ciphertext.length 0 ++ back)) encoded =
      .ok (ciphertext, ech'.hpkeContext)
  raw : uconn'.hello.raw.drop 4 = front ++ (ciphertext ++ back)
  context : ech' = { ech with hpkeContext := ech'.hpkeContext }
  exts : ∃ before old after ext k, uconn.extensions = before ++ old :: after ∧ old.isECH = true ∧
    generateOuterECHExt ech.config.configID ech.kdfID ech.aeadID
      (if useKey then ech.encapsulatedKey else []) ciphertext = .ok ext ∧
    uconn' = ⟨{ uconn.hello with raw := uconn.hello.frame (before.map (update k) ++
      .generic extensionEncryptedClientHello ext :: after.map (update k)) },
      before.map (update k) ++ old :: after.map (update k)⟩

theorem sealAndMarshal_inv {uconn uconn' : UConn} {ech ech' : EchClientContext S} {i : Nat}
    {oldExt : TlsExtension} {outerExt : List UInt8 → Except String (List UInt8)}
    {zeroExt encoded : List UInt8}
    (h : sealAndMarshal sealNext uconn ech i oldExt outerExt zeroExt encoded =
      ((uconn', ech'), .ok ())) :
    ∃ uconn₁ uconn₂ ciphertext sealedExt, uconn.marshalWith i zeroExt = (uconn₁, .ok ()) ∧
      sealNext ech.hpkeContext (uconn₁.hello.raw.drop 4) encoded =
        .ok (ciphertext, ech'.hpkeContext) ∧
      ech' = { ech with hpkeContext := ech'.hpkeContext } ∧ outerExt ciphertext = .ok sealedExt ∧
      uconn₁.marshalWith i sealedExt = (uconn₂, .ok ()) ∧
      uconn' = { uconn₂ with extensions := uconn₂.extensions.set i oldExt } := by
  unfold sealAndMarshal at h
  split at h
  next => cases h
  next uconn₁ hfirst =>
    split at h
    next => cases h
    next ciphertext ctx hseal =>
      dsimp only at h
      split at h
      next => cases h
      next sealedExt hext =>
        split at h
        next => cases h
        next uconn₂ hsecond =>
          cases h
          exact ⟨uconn₁, uconn₂, ciphertext, sealedExt, hfirst, hseal, rfl, hext, hsecond, rfl⟩

theorem compute_inv {uconn uconn' : UConn} {inner : ClientHelloMsg} {ech ech' : EchClientContext S}
    {useKey : Bool}
    (h : computeAndUpdateOuterECHExtension sealNext uconn inner ech useKey =
      ((uconn', ech'), .ok ())) :
    ∃ encoded zeroExt i oldExt, encodeInnerClientHelloReorderOuterExts inner
        ech.config.maxNameLength.toNat (some (extensionsList uconn.extensions)) = .ok encoded ∧
      generateOuterECHExt ech.config.configID ech.kdfID ech.aeadID
        (if useKey then ech.encapsulatedKey else []) (List.replicate (encoded.length + 16) 0) =
          .ok zeroExt ∧
      indexECH uconn.extensions = some (i, oldExt) ∧
      sealAndMarshal sealNext uconn ech i oldExt (generateOuterECHExt ech.config.configID ech.kdfID
        ech.aeadID (if useKey then ech.encapsulatedKey else [])) zeroExt encoded =
          ((uconn', ech'), .ok ()) := by
  unfold computeAndUpdateOuterECHExtension at h
  dsimp only at h
  split at h
  next => cases h
  next encoded hencode =>
    split at h
    next => cases h
    next zeroExt hzero =>
      split at h
      next => cases h
      next i oldExt hindex => exact ⟨encoded, zeroExt, i, oldExt, hencode, hzero, hindex, h⟩

/-- Without a placeholder the update fails before anything is written or sealed. -/
theorem compute_unplaced {uconn : UConn} (h : ∀ ext ∈ uconn.extensions, ext.isECH = false)
    (inner : ClientHelloMsg) (ech : EchClientContext S) (useKey : Bool) :
    ∃ err, computeAndUpdateOuterECHExtension sealNext uconn inner ech useKey =
      ((uconn, ech), .error err) := by
  unfold computeAndUpdateOuterECHExtension
  dsimp only
  rw [indexECH_eq_none h]
  split
  next err _ => exact ⟨err, rfl⟩
  next =>
    split
    next err _ => exact ⟨err, rfl⟩
    next => exact ⟨_, rfl⟩

theorem compute_updated {uconn uconn' : UConn} {inner : ClientHelloMsg}
    {ech ech' : EchClientContext S} {useKey : Bool}
    (htag : ∀ aad plaintext ciphertext s', sealNext ech.hpkeContext aad plaintext =
      .ok (ciphertext, s') → ciphertext.length = plaintext.length + 16)
    (h : computeAndUpdateOuterECHExtension sealNext uconn inner ech useKey =
      ((uconn', ech'), .ok ())) :
    ∃ encoded ciphertext front back,
      Updated sealNext uconn uconn' inner ech ech' useKey encoded ciphertext front back := by
  obtain ⟨encoded, zeroExt, i, old, hencode, hzero, hindex, h⟩ := compute_inv h
  obtain ⟨before, after, hexts, rfl, hech⟩ := indexECH_inv hindex
  obtain ⟨uconn₁, uconn₂, ciphertext, sealedExt, hfirst, hseal, hcontext, hext, hsecond, rfl⟩ :=
    sealAndMarshal_inv h
  have hlength := htag _ _ _ _ hseal
  obtain ⟨-, -, rfl⟩ := generateOuterECHExt_inv hzero
  obtain ⟨-, -, rfl⟩ := generateOuterECHExt_inv hext
  obtain ⟨k, rfl, rfl⟩ := marshalWith_again hexts (by simp [hlength]) hfirst hsecond
  obtain ⟨front, back, hpayload⟩ := frame_payload uconn.hello (before.map (update k))
    (after.map (update k)) (extPrefix ech.config.configID ech.kdfID ech.aeadID
      (if useKey then ech.encapsulatedKey else [])) (encoded.length + 16)
  refine ⟨encoded, ciphertext, front, back, hencode, ?_, hpayload ciphertext hlength, hcontext,
    before, old, after, _, k, hexts, hech, hext, ?_⟩
  · rw [hlength, ← hpayload (List.replicate (encoded.length + 16) 0) (by simp)]
    exact hseal
  · have hset : (before.map (update k) ++ TlsExtension.generic extensionEncryptedClientHello
        (extPrefix ech.config.configID ech.kdfID ech.aeadID
          (if useKey then ech.encapsulatedKey else []) ++
          (putUint 2 ciphertext.length ++ ciphertext)) :: after.map (update k)).set before.length old =
        before.map (update k) ++ old :: after.map (update k) := by
      rw [List.set_append_right _ _ (by simp)]
      simp
    simp only [UConn.written, hset]

end Update

/-! ## The extensions as the other side reads them -/

/-- The type and data that an extension writes. -/
def TlsExtension.row : TlsExtension → Option (UInt16 × List UInt8)
  | .generic id data => some (id, data)
  | .padding _ paddingLen willPad =>
    if willPad then some (utlsExtensionPadding, List.replicate paddingLen 0) else none
  | .grease data => some (extensionEncryptedClientHello, data)

theorem isECH_row {ext : TlsExtension} (h : ext.isECH = true) :
    ∀ r, ext.row = some r → r.1 = extensionEncryptedClientHello := by
  intro r hr
  cases ext with
  | grease data =>
    cases hr
    rfl
  | _ => cases h

theorem flatMap_read (exts : List TlsExtension) :
    exts.flatMap TlsExtension.read = Format.block.putAll (exts.filterMap TlsExtension.row) := by
  induction exts with
  | nil => rfl
  | cons ext exts ih =>
    rw [List.flatMap_cons, ih]
    cases ext with
    | padding f n willPad =>
      cases willPad <;>
        simp [TlsExtension.read, TlsExtension.row, Format.putAll_cons, block_put]
    | _ => simp [TlsExtension.read, TlsExtension.row, Format.putAll_cons, block_put]

theorem readUint16_zeros (n : Nat) :
    ((readUint16 (List.replicate (n + 2) (0 : UInt8))).map Prod.fst).getD 0 = 0 := by
  rw [show List.replicate (n + 2) (0 : UInt8) = addUint16 0 ++ List.replicate n 0 from rfl,
    readUint16_add]
  rfl

/-- An extension is listed under its type, or under zero. -/
theorem listedType_cases (ext : TlsExtension) :
    ext.listedType = 0 ∨ ∃ data, ext.row = some (ext.listedType, data) := by
  unfold listedType
  split
  next hfits =>
    cases ext with
    | padding f n willPad =>
      cases willPad with
      | false => exact .inl (readUint16_zeros 1998)
      | true =>
        right
        simp [TlsExtension.read, TlsExtension.row, List.append_assoc]
    | _ =>
      right
      simp [TlsExtension.read, TlsExtension.row, List.append_assoc]
  next => exact .inl (readUint16_zeros 1998)

variable {p : UInt16 → Bool}

/-- What is listed, but for zeros, is written in the same order. -/
theorem extensionsList_sublist (hp : p 0 = false) (exts : List TlsExtension) :
    ((extensionsList exts).filter p).Sublist ((exts.filterMap TlsExtension.row).map Prod.fst) := by
  induction exts with
  | nil => exact .slnil
  | cons ext exts ih =>
    rw [extensionsList, List.map_cons, List.filter_cons, List.filterMap_cons]
    rcases listedType_cases ext with hzero | ⟨data, hrow⟩
    · rw [hzero, hp]
      cases ext.row with
      | none => exact ih
      | some r => exact ih.cons r.1
    · rw [hrow]
      split
      · exact ih.cons_cons _
      · exact ih.cons _

/-- Extensions that are listed under types that do not matter. -/
theorem extensionsList_unlisted (hp : p 0 = false) {ext : TlsExtension}
    (hrow : ∀ r, ext.row = some r → p r.1 = false) (exts : List TlsExtension) :
    (extensionsList (ext :: exts)).filter p = (extensionsList exts).filter p := by
  rw [extensionsList, List.map_cons, List.filter_cons_of_neg]
  · rfl
  · rcases listedType_cases ext with hzero | ⟨data, hdata⟩
    · simp [hzero, hp]
    · simp [hrow _ hdata]

/-- Padding does not matter to the list. -/
theorem extensionsList_update (hp : p 0 = false) (hpad : p utlsExtensionPadding = false)
    (exts : List TlsExtension) (k : Nat) :
    (extensionsList (exts.map (update k))).filter p = (extensionsList exts).filter p := by
  have hrow : ∀ (f : Option (Nat → Nat × Bool)) n willPad r,
      (TlsExtension.padding f n willPad).row = some r → p r.1 = false := by
    intro f n willPad r hr
    cases willPad with
    | false => cases hr
    | true =>
      cases hr
      exact hpad
  induction exts with
  | nil => rfl
  | cons ext exts ih =>
    rw [List.map_cons]
    cases ext with
    | padding f n willPad =>
      rw [extensionsList_unlisted hp (hrow f n willPad), ← ih]
      cases f with
      | none => exact extensionsList_unlisted hp (hrow none n willPad) _
      | some f => exact extensionsList_unlisted hp (hrow _ _ _) _
    | _ =>
      simp only [extensionsList, List.map_cons, List.filter_cons] at ih ⊢
      rw [ih]
      rfl

theorem extensionsList_append (before after : List TlsExtension) :
    extensionsList (before ++ after) = extensionsList before ++ extensionsList after :=
  List.map_append

/-- The list before the update, and with any extension of the hello's own in the place
of the placeholder after it. -/
theorem extensionsList_replace (hp : p 0 = false) (hpad : p utlsExtensionPadding = false)
    (hech : p extensionEncryptedClientHello = false) (old new : TlsExtension)
    (hold : ∀ r, old.row = some r → r.1 = extensionEncryptedClientHello)
    (hnew : ∀ r, new.row = some r → r.1 = extensionEncryptedClientHello)
    (before after : List TlsExtension) (k : Nat) :
    (extensionsList (before.map (update k) ++ new :: after.map (update k))).filter p =
      (extensionsList (before ++ old :: after)).filter p := by
  rw [extensionsList_append, extensionsList_append, List.filter_append, List.filter_append,
    extensionsList_update hp hpad, extensionsList_unlisted hp (fun r hr => hnew r hr ▸ hech),
    extensionsList_unlisted hp (fun r hr => hold r hr ▸ hech), extensionsList_update hp hpad]

theorem shared_codes : ∀ k ∈ sharedKinds, k.code ≠ 0 ∧ k.code ≠ utlsExtensionPadding ∧
    k.code ≠ extensionEncryptedClientHello := by
  decide

/-- What an inner hello names depends on such a filtered list only. -/
theorem outerExtsOf_filter (inner : ClientHelloMsg) :
    ∃ p : UInt16 → Bool, p 0 = false ∧ p utlsExtensionPadding = false ∧
      p extensionEncryptedClientHello = false ∧
      ∀ exts, inner.outerExtsOf true (some exts) = exts.filter p := by
  let codes := (sharedKinds.filter fun k => inner.present k && named true (some []) k).map
    ExtKind.code
  have hnot : ∀ t, (∀ k ∈ sharedKinds, k.code ≠ t) → codes.contains t = false := by
    intro t ht
    rw [List.contains_eq_mem, decide_eq_false_iff_not, List.mem_map]
    rintro ⟨k, hk, hcode⟩
    exact ht k (List.mem_of_mem_filter hk) hcode
  exact ⟨codes.contains, hnot _ fun k hk => (shared_codes k hk).1,
    hnot _ fun k hk => (shared_codes k hk).2.1, hnot _ fun k hk => (shared_codes k hk).2.2,
    fun _ => rfl⟩

theorem frame_length (hello : PubClientHelloMsg) {exts : List TlsExtension}
    (hne : exts.filterMap TlsExtension.row ≠ []) :
    (hello.frame exts).length = 4 + hello.headerLength +
      (2 + (Format.block.putAll (exts.filterMap TlsExtension.row)).length) := by
  have hexts : 0 < exts.length := by
    rw [List.length_pos_iff]
    rintro rfl
    exact hne rfl
  rw [PubClientHelloMsg.frame, PubClientHelloMsg.write_length, if_pos hexts, List.length_append,
    putUint_length, flatMap_read]

/-- The hello is laid out as the other side reads it. -/
theorem frame_layout (hello : PubClientHelloMsg) {exts : List TlsExtension}
    (hne : exts.filterMap TlsExtension.row ≠ []) (hsession : hello.sessionId.length < 256)
    (hcompression : hello.compressionMethods.length < 256)
    (hsize : (hello.frame exts).length < 65536) :
    Layout (hello.frame exts) hello.vers hello.random hello.sessionId hello.cipherSuites
      hello.compressionMethods (Format.block.putAll (exts.filterMap TlsExtension.row)) := by
  rw [frame_length hello hne, PubClientHelloMsg.headerLength] at hsize
  have hexts : 0 < exts.length := by
    rw [List.length_pos_iff]
    rintro rfl
    exact hne rfl
  have hput : 0 < (Format.block.putAll (exts.filterMap TlsExtension.row)).length :=
    List.length_pos_iff.mpr fun hnil => hne (Format.block.putAll_eq_nil.mp hnil)
  have hsuites := putUint16s_length hello.cipherSuites
  refine ⟨hello.random_length, addUint8 typeClientHello ++ putUint 3 (hello.headerLength +
    (2 + (Format.block.putAll (exts.filterMap TlsExtension.row)).length)), _, _, _, _, by simp,
    addLengthPrefixed_ok.mpr ⟨hsession, rfl⟩, addLengthPrefixed_ok.mpr ⟨?_, rfl⟩,
    addLengthPrefixed_ok.mpr ⟨hcompression, rfl⟩,
    (if_pos hput).trans (addLengthPrefixed_ok.mpr ⟨?_, rfl⟩), ?_⟩
  · rw [hsuites]
    omega
  · omega
  · simp only [PubClientHelloMsg.frame, if_pos hexts, flatMap_read, hsuites,
      PubClientHelloMsg.write, List.append_assoc]

theorem Outer.encryptedClientHello_eq {raw ext : List UInt8} {outer : ClientHelloMsg}
    {rows : List (UInt16 × List UInt8)} (h : Outer raw outer rows)
    (hmem : (extensionEncryptedClientHello, ext) ∈ rows) : outer.encryptedClientHello = ext := by
  obtain ⟨⟨kind, data, value, reads⟩, rfl, rfl, hsame⟩ :=
    h.reads _ hmem .encryptedClientHello rfl (by decide)
  have hvalue := reads true fun _ => rfl
  cases hvalue
  exact (congrArg ClientHelloMsg.encryptedClientHello hsame).symm

section Sent

variable {S : Type} {sealNext : S → List UInt8 → List UInt8 → Except String (List UInt8 × S)}

/-- What the other side has of a hello that was sent: the ciphertext in its
extension, the inner hello that the ciphertext hides, and the extension types. -/
theorem Updated.received {uconn uconn' : UConn} {inner outer : ClientHelloMsg}
    {ech ech' : EchClientContext S} {useKey : Bool} {encoded ciphertext front back : List UInt8}
    (h : Updated sealNext uconn uconn' inner ech ech' useKey encoded ciphertext front back)
    (hsession : uconn.hello.sessionId.length < 256)
    (hcompression : uconn.hello.compressionMethods.length < 256)
    (hsize : encoded.length + uconn'.hello.raw.length < 65536)
    (houter : unmarshal uconn'.hello.raw = some outer) (hm : Sendable inner)
    (hech : inner.encryptedClientHello = [1]) (hversions : inner.supportedVersions = [versionTLS13]) :
    outer.original = some uconn'.hello.raw ∧ outer.sessionId = uconn.hello.sessionId ∧
      parseECHExt outer.encryptedClientHello = .ok (.outer ⟨ech.kdfID, ech.aeadID⟩
        ech.config.configID (if useKey then ech.encapsulatedKey else []) ciphertext) ∧
      ∃ m, decodeInnerClientHello outer encoded = .ok m ∧
        Merged m inner outer
          (inner.outerExtsOf true (some (extensionsList uconn.extensions))) := by
  obtain ⟨before, old, after, ext, k, hexts, hold, hext, rfl⟩ := h.exts
  dsimp only at hsize houter ⊢
  generalize hsent : before.map (update k) ++
    TlsExtension.generic extensionEncryptedClientHello ext :: after.map (update k) = exts at *
  have hmem : (extensionEncryptedClientHello, ext) ∈ exts.filterMap TlsExtension.row := by
    rw [← hsent]
    simp [TlsExtension.row]
  have hlayout := frame_layout uconn.hello (List.ne_nil_of_mem hmem) hsession hcompression (by omega)
  obtain ⟨rows, hread, hrows, hsid⟩ := outer_of_layout hlayout
    (fun hnil => List.ne_nil_of_mem hmem (Format.block.putAll_eq_nil.mp hnil)) houter
  have hfits : ∀ r ∈ exts.filterMap TlsExtension.row, Format.block.Fits r := by
    intro r hr
    have hle := putAll_sublist (List.singleton_sublist.mpr hr)
    rw [Format.putAll_cons, List.length_append, block_put_length] at hle
    have hlen := frame_length uconn.hello (List.ne_nil_of_mem hmem)
    exact ⟨trivial, show r.2.length < 65536 by omega⟩
  rw [Format.block.readAll_putAll _ hfits] at hread
  cases hread
  have hsub : (inner.outerExtsOf true (some (extensionsList uconn.extensions))).Sublist
      outer.extensions := by
    obtain ⟨p, hp, hpad, hpech, hfilter⟩ := outerExtsOf_filter inner
    rw [hfilter, hrows.types, hexts, ← extensionsList_replace hp hpad hpech old
      (.generic extensionEncryptedClientHello ext) (isECH_row hold) (fun r hr => by cases hr; rfl)
      before after k, hsent]
    exact extensionsList_sublist hp exts
  obtain ⟨m, hdecode, hmerged⟩ := decode_of_outer hm hech hversions h.encode hrows hsub hsize
  refine ⟨hrows.original, hsid, ?_, m, hdecode, hmerged⟩
  rw [hrows.encryptedClientHello_eq hmem]
  exact parseECHExt_generate hext

end Sent

end SniShaper.Ech
