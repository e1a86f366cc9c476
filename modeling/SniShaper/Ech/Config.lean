import SniShaper.Lib.Bounds
import SniShaper.Lib.Wire

/-! Encrypted ClientHello configurations: reading a configuration list and
choosing one of its entries (`ech.go` of the TLS library that the proxy builds
with).

A list is a sequence of blocks: a version, a length and that many bytes. The
parser finds the end of a block by the length, but reads the fields of a block
of the known version from everything that is left of the list.

Proved here:

* `parseECHConfigList_marshal`: a list written from whole configurations gives
  back those of the known version, in order;
* `parseECHConfigList_accepts`: for data of at most 65537 bytes the parser
  returns, and what it accepts is a list of blocks with one result for each
  block of the known version;
* `parseECHConfigList_diverges`: longer data can hold a length that wraps, and
  then the parser never returns;
* `echContext_picks`: a configuration that is picked always has a cipher suite,
  and it is the first one that can be used. -/

namespace SniShaper.Ech

open Bounds Wire

/-! ## Configurations -/

structure EchCipher where
  kdfID : UInt16
  aeadID : UInt16
  deriving DecidableEq, Repr

structure EchExtension where
  type : UInt16
  data : List UInt8
  deriving DecidableEq, Repr

structure EchConfig where
  raw : List UInt8 := []
  version : UInt16 := 0
  length : UInt16 := 0
  configID : UInt8 := 0
  kemID : UInt16 := 0
  publicKey : List UInt8 := []
  symmetricCipherSuite : List EchCipher := []
  maxNameLength : UInt8 := 0
  publicName : List UInt8 := []
  extensions : List EchExtension := []
  deriving DecidableEq, Repr

def extensionEncryptedClientHello : UInt16 := 0xfe0d

def errMalformedECHConfig : String := "tls: malformed ECHConfigList"

def readCipherSuites (cipherSuites : List UInt8) : Option (List EchCipher) :=
  drain none (fun cs s => do
    let (kdfID, s) ← readUint16 s
    let (aeadID, s) ← readUint16 s
    return (cs ++ [⟨kdfID, aeadID⟩], s)) [] cipherSuites

def readEchExtensions (extensions : List UInt8) : Option (List EchExtension) :=
  drain none (fun es s => do
    let (type, s) ← readUint16 s
    let (data, s) ← readUint16LengthPrefixed s
    return (es ++ [⟨type, data⟩], s)) [] extensions

/-- The fields of a configuration of the known version, read from all that is
left of the list. -/
def parseFields (ec : EchConfig) (s : List UInt8) : Option EchConfig := do
  let (configID, s) ← readUint8 s
  let (kemID, s) ← readUint16 s
  let (publicKey, s) ← readUint16LengthPrefixed s
  let (cipherSuites, s) ← readUint16LengthPrefixed s
  let symmetricCipherSuite ← readCipherSuites cipherSuites
  let (maxNameLength, s) ← readUint8 s
  let (publicName, s) ← readUint8LengthPrefixed s
  let (extensions, _) ← readUint16LengthPrefixed s
  let extensions ← readEchExtensions extensions
  return { ec with
    configID, kemID, publicKey, symmetricCipherSuite, maxNameLength, publicName, extensions }

/-- `(true, _)` is a configuration to skip. The end of `raw` is computed in 16 bits. -/
def parseECHConfig (enc : List UInt8) : Except String (Bool × EchConfig) := do
  let (version, s) ← orError errMalformedECHConfig (readUint16 enc)
  let (length, s) ← orError errMalformedECHConfig (readUint16 s)
  if enc.length < length.toNat + 4 then throw errMalformedECHConfig
  let raw := enc.take (length + 4).toNat
  if version ≠ extensionEncryptedClientHello then return (true, {})
  let ec ← orError errMalformedECHConfig (parseFields { raw, version, length } s)
  return (false, ec)

/-- The loop of `parseECHConfigList`; the next block starts at an offset that is
computed in 16 bits. -/
def configLoop : Nat → List UInt8 → List EchConfig → Checked (Except String (List EchConfig))
  | _, [], configs => .ok (.ok configs)
  | 0, _ :: _, _ => .error .diverged
  | fuel + 1, b :: bs, configs =>
    let s := b :: bs
    if s.length < 4 then .ok (.error "tls: malformed ECHConfig")
    else do
      let hi ← index s 2
      let lo ← index s 3
      let configLen : UInt16 := hi.toUInt16 <<< 8 ||| lo.toUInt16
      match parseECHConfig s with
      | .error err => .ok (.error err)
      | .ok (skip, ec) => do
        let s ← sliceFrom s (configLen + 4).toNat
        configLoop fuel s (if skip then configs else configs ++ [ec])

def parseECHConfigList (fuel : Nat) (data : List UInt8) :
    Checked (Except String (List EchConfig)) :=
  match readUint16 data with
  | none => .ok (.error errMalformedECHConfig)
  | some (length, s) =>
    if length ≠ UInt16.ofNat (data.length - 2) then .ok (.error errMalformedECHConfig)
    else configLoop fuel s []

/-- Only the bytes of a key's configuration matter here. -/
def marshalEncryptedClientHelloConfigList (configs : List (List UInt8)) :
    Except String (List UInt8) :=
  addUint16LengthPrefixed configs.flatten

/-! ## Choosing a configuration -/

def supportedKEMs : List UInt16 := [0x0020]

def supportedAEADs : List UInt16 := [0x0001, 0x0002, 0x0003]

def supportedKDFs : List UInt16 := [0x0001]

def EchCipher.supported (cs : EchCipher) : Bool :=
  supportedAEADs.contains cs.aeadID && supportedKDFs.contains cs.kdfID

def validDNSByte (b : UInt8) : Bool :=
  (0x30 ≤ b && b ≤ 0x39) || (0x61 ≤ b && b ≤ 0x7a) || (0x41 ≤ b && b ≤ 0x5a) || b == 0x2d

def validDNSLabel (l : List UInt8) : Bool :=
  if l.length = 0 then false
  else l.zipIdx.all fun (r, i) =>
    !(r == 0x2d && (i == 0 || i == l.length - 1)) && validDNSByte r

def validDNSName (name : List UInt8) : Bool :=
  if 253 < name.length then false
  else
    let labels := name.splitOn 0x2e
    if labels.length ≤ 1 then false else labels.all validDNSLabel

def EchExtension.mandatory (ext : EchExtension) : Bool := ext.type &&& 0x8000 != 0

def pickECHConfig : List EchConfig → Option EchConfig
  | [] => none
  | ec :: list =>
    if !supportedKEMs.contains ec.kemID then pickECHConfig list
    else if !ec.symmetricCipherSuite.any EchCipher.supported then pickECHConfig list
    else if !validDNSName ec.publicName then pickECHConfig list
    else if ec.extensions.any EchExtension.mandatory then pickECHConfig list
    else some ec

def pickECHCipherSuite : List EchCipher → Except String EchCipher
  | [] => .error "tls: no supported symmetric ciphersuites for ECH"
  | s :: suites =>
    if !supportedAEADs.contains s.aeadID then pickECHCipherSuite suites
    else if !supportedKDFs.contains s.kdfID then pickECHCipherSuite suites
    else .ok s

def versionTLS12 : UInt16 := 0x0303
def versionTLS13 : UInt16 := 0x0304

structure EchClientContext (Ctx : Type) where
  config : EchConfig
  hpkeContext : Ctx
  encapsulatedKey : List UInt8
  kdfID : UInt16
  aeadID : UInt16

/-- The two calls into the HPKE library, whose keys and contexts are not looked into. -/
structure Hpke (Key Ctx : Type) where
  parseHPKEPublicKey : UInt16 → List UInt8 → Except String Key
  setupSender : UInt16 → UInt16 → UInt16 → Key → List UInt8 → Except String (List UInt8 × Ctx)

/-- The prefix `"tls ech\x00"` of what the sender's key schedule is bound to. -/
def infoPrefix : List UInt8 := [0x74, 0x6c, 0x73, 0x20, 0x65, 0x63, 0x68, 0x00]

def setupECH {Key Ctx : Type} (hpke : Hpke Key Ctx) (config : EchConfig) :
    Except String (EchClientContext Ctx) := do
  let echPK ← hpke.parseHPKEPublicKey config.kemID config.publicKey
  let suite ← pickECHCipherSuite config.symmetricCipherSuite
  let (encapsulatedKey, hpkeContext) ←
    hpke.setupSender config.kemID suite.kdfID suite.aeadID echPK (infoPrefix ++ config.raw)
  return { config, hpkeContext, encapsulatedKey, kdfID := suite.kdfID, aeadID := suite.aeadID }

/-- The part of `makeClientHello` that turns the configured list into the state
that the inner hello is sealed with. -/
def echContext {Key Ctx : Type} (hpke : Hpke Key Ctx) (minVersion maxVersion : UInt16) (fuel : Nat)
    (configList : List UInt8) : Checked (Except String (EchClientContext Ctx)) :=
  if minVersion ≠ 0 ∧ minVersion < versionTLS13 then
    .ok (.error
      "tls: MinVersion must be >= VersionTLS13 if EncryptedClientHelloConfigList is populated")
  else if maxVersion ≠ 0 ∧ maxVersion ≤ versionTLS12 then
    .ok (.error
      "tls: MaxVersion must be >= VersionTLS13 if EncryptedClientHelloConfigList is populated")
  else do
    match ← parseECHConfigList fuel configList with
    | .error err => return .error err
    | .ok echConfigs =>
      match pickECHConfig echConfigs with
      | none => return .error "tls: EncryptedClientHelloConfigList contains no valid configs"
      | some config => return setupECH hpke config

/-! ## Blocks -/

theorem block_put_eq (v : UInt16) (body : List UInt8) :
    Format.block.put (v, body) =
      addUint16 v ++ (addUint16 (UInt16.ofNat body.length) ++ body) := by
  rw [block_put, addUint16_ofNat]

/-- What follows the fields of a configuration does not change them. -/
theorem parseFields_append {ec ec' : EchConfig} {s : List UInt8} (h : parseFields ec s = some ec')
    (more : List UInt8) : parseFields ec (s ++ more) = some ec' := by
  simp only [parseFields, Option.bind_eq_bind, Option.bind_eq_some_iff] at h ⊢
  obtain ⟨⟨_, _⟩, h1, ⟨_, _⟩, h2, ⟨_, _⟩, h3, ⟨_, _⟩, h4, _, h5, ⟨_, _⟩, h6, ⟨_, _⟩, h7,
    ⟨_, _⟩, h8, hrest⟩ := h
  exact ⟨_, Format.uint8.read_append h1 more, _, Format.uint16.read_append h2 more,
    _, (Format.prefixed 1).read_append h3 more, _, (Format.prefixed 1).read_append h4 more,
    _, h5, _, Format.uint8.read_append h6 more, _, (Format.prefixed 0).read_append h7 more,
    _, (Format.prefixed 1).read_append h8 more, hrest⟩

/-- The parser at the start of a block. -/
theorem parseECHConfig_block {v : UInt16} {body : List UInt8} (hbody : body.length < 65536)
    (rest : List UInt8) :
    parseECHConfig (Format.block.put (v, body) ++ rest) =
      if v ≠ extensionEncryptedClientHello then .ok (true, {})
      else (orError errMalformedECHConfig (parseFields
        { raw := (Format.block.put (v, body)).take (UInt16.ofNat body.length + 4).toNat
          version := v, length := UInt16.ofNat body.length } (body ++ rest))).map (false, ·) := by
  have hlen : (UInt16.ofNat body.length).toNat = body.length := by
    rw [UInt16.toNat_ofNat', Nat.mod_eq_of_lt hbody]
  have htake : (Format.block.put (v, body) ++ rest).take (UInt16.ofNat body.length + 4).toNat =
      (Format.block.put (v, body)).take (UInt16.ofNat body.length + 4).toNat := by
    apply List.take_append_of_le_length
    rw [block_put_length, UInt16.toNat_add, hlen]
    exact Nat.mod_le _ _
  have hlong : ¬ (Format.block.put (v, body) ++ rest).length < (UInt16.ofNat body.length).toNat + 4 := by
    rw [List.length_append, block_put_length, hlen]
    omega
  have hread : readUint16 (Format.block.put (v, body) ++ rest) =
      some (v, addUint16 (UInt16.ofNat body.length) ++ (body ++ rest)) := by
    rw [block_put_eq, List.append_assoc, List.append_assoc, readUint16_add]
  simp only [parseECHConfig, hread, orError_some, readUint16_add, htake, bind, Except.bind, hlong,
    if_false, pure, Except.pure]
  split
  · rfl
  · cases parseFields _ (body ++ rest) <;> rfl

/-- What the parser accepts starts with a block. -/
theorem parseECHConfig_inv {s : List UInt8} {r : Bool × EchConfig} (h : parseECHConfig s = .ok r) :
    ∃ v body rest, body.length < 65536 ∧ s = Format.block.put (v, body) ++ rest := by
  simp only [parseECHConfig, bind, Except.bind] at h
  cases hv : readUint16 s with
  | none => rw [hv] at h; cases h
  | some p =>
    obtain ⟨v, s'⟩ := p
    rw [hv] at h
    simp only [orError_some] at h
    cases hl : readUint16 s' with
    | none => rw [hl] at h; cases h
    | some q =>
      obtain ⟨len, s''⟩ := q
      have hs := readUint16_inv hv
      have hs' := readUint16_inv hl
      rw [hl] at h
      simp only [orError_some] at h
      split at h
      next => cases h
      next hlong =>
        have hlt := len.toNat_lt
        have htake : (s''.take len.toNat).length = len.toNat := by
          rw [hs, hs'] at hlong
          simp only [List.length_append, addUint16_length] at hlong
          rw [List.length_take]
          omega
        refine ⟨v, s''.take len.toNat, s''.drop len.toNat, by omega, ?_⟩
        rw [block_put_eq, htake, UInt16.ofNat_toNat, hs, hs', List.append_assoc, List.append_assoc,
          List.take_append_drop]

/-! ## The list -/

/-- Where the loop goes on after a block of `n` content bytes. -/
def nextOffset (n : Nat) : Nat := (UInt16.ofNat n + 4).toNat

theorem nextOffset_eq {n : Nat} (h : n + 4 < 65536) : nextOffset n = n + 4 := by
  simp only [nextOffset, UInt16.toNat_add, UInt16.toNat_ofNat']
  rw [Nat.mod_eq_of_lt (by omega : n < 2 ^ 16)]
  exact Nat.mod_eq_of_lt h

theorem nextOffset_le {n : Nat} (h : n < 65536) : nextOffset n ≤ n + 4 := by
  simp only [nextOffset, UInt16.toNat_add, UInt16.toNat_ofNat']
  rw [Nat.mod_eq_of_lt (by omega : n < 2 ^ 16)]
  exact Nat.mod_le _ _

/-- One round of the loop at a block. -/
theorem configLoop_step {v : UInt16} {body : List UInt8} (hbody : body.length < 65536)
    (rest : List UInt8) (fuel : Nat) (configs : List EchConfig) :
    configLoop (fuel + 1) (Format.block.put (v, body) ++ rest) configs =
      match parseECHConfig (Format.block.put (v, body) ++ rest) with
      | .error err => .ok (.error err)
      | .ok (skip, ec) =>
        configLoop fuel ((Format.block.put (v, body) ++ rest).drop (nextOffset body.length))
          (if skip then configs else configs ++ [ec]) := by
  have hlong : nextOffset body.length ≤ (Format.block.put (v, body) ++ rest).length := by
    rw [List.length_append, block_put_length]
    exact (nextOffset_le hbody).trans (Nat.le_add_right _ _)
  have h4 : ¬ (Format.block.put (v, body) ++ rest).length < 4 := by
    rw [List.length_append, block_put_length]
    omega
  obtain ⟨b0, b1, hv⟩ : ∃ b0 b1, addUint16 v = [b0, b1] :=
    ⟨_, _, rfl⟩
  have hbytes : Format.block.put (v, body) ++ rest =
      b0 :: b1 :: UInt8.ofNat (body.length / 256) :: UInt8.ofNat body.length :: (body ++ rest) := by
    rw [block_put, hv]
    rfl
  have hconfigLen : (UInt8.ofNat (body.length / 256)).toUInt16 <<< 8 |||
      (UInt8.ofNat body.length).toUInt16 = UInt16.ofNat body.length := by
    rw [shifted_eq]
    congr 1
    exact beNat_putUint 2 body.length hbody
  have hfrom := sliceFrom_ok (Format.block.put (v, body) ++ rest) (nextOffset body.length)
    (by omega) (by omega)
  have h2 : index (Format.block.put (v, body) ++ rest) 2 = .ok (UInt8.ofNat (body.length / 256)) := by
    rw [hbytes]
    exact index_append [b0, b1] _ _ 2 rfl
  have h3 : index (Format.block.put (v, body) ++ rest) 3 = .ok (UInt8.ofNat body.length) := by
    rw [hbytes]
    exact index_append [b0, b1, UInt8.ofNat (body.length / 256)] _ _ 3 rfl
  rw [hbytes] at h4 h2 h3 hfrom ⊢
  simp only [configLoop, h4, if_false, h2, h3, bind, Except.bind, hconfigLen]
  cases parseECHConfig _ with
  | error err => rfl
  | ok r =>
    simp only [nextOffset] at hfrom ⊢
    rw [hfrom, Int.toNat_natCast]

/-- One round at a block whose end does not wrap. -/
theorem configLoop_block {v : UInt16} {body : List UInt8} (hbody : body.length + 4 < 65536)
    (rest : List UInt8) (fuel : Nat) (configs : List EchConfig) :
    configLoop (fuel + 1) (Format.block.put (v, body) ++ rest) configs =
      match parseECHConfig (Format.block.put (v, body) ++ rest) with
      | .error err => .ok (.error err)
      | .ok (skip, ec) => configLoop fuel rest (if skip then configs else configs ++ [ec]) := by
  have hdrop : (Format.block.put (v, body) ++ rest).drop (nextOffset body.length) = rest := by
    rw [nextOffset_eq hbody]
    exact List.drop_left' (block_put_length v body)
  rw [configLoop_step (by omega), hdrop]

/-! ### Written lists -/

/-- A configuration that stands alone: the bytes are one block, and the parser
accepts them. -/
structure Whole where
  version : UInt16
  body : List UInt8
  fits : body.length < 65536
  skip : Bool
  config : EchConfig
  parses : parseECHConfig (Format.block.put (version, body)) = .ok (skip, config)

def Whole.bytes (c : Whole) : List UInt8 := Format.block.put (c.version, c.body)

/-- The configuration, if the parser does not skip it. -/
def Whole.known (c : Whole) : Option EchConfig := if c.skip then none else some c.config

/-- A whole configuration is read the same with others behind it. -/
theorem Whole.parses_append (c : Whole) (rest : List UInt8) :
    parseECHConfig (c.bytes ++ rest) = .ok (c.skip, c.config) := by
  have halone := c.parses
  rw [← List.append_nil (Format.block.put _), parseECHConfig_block c.fits] at halone
  rw [Whole.bytes, parseECHConfig_block c.fits]
  split at halone
  next hv => rw [if_pos hv, halone]
  next hv =>
    rw [if_neg hv]
    rw [List.append_nil] at halone
    cases hf : parseFields { raw := _, version := c.version, length := _ } c.body with
    | none =>
      rw [hf] at halone
      cases halone
    | some ec =>
      rw [hf] at halone
      rw [parseFields_append hf rest]
      exact halone

theorem flatten_bytes (cs : List Whole) :
    (cs.map Whole.bytes).flatten = Format.block.putAll (cs.map fun c => (c.version, c.body)) := by
  rw [Format.putAll, List.flatMap, List.map_map]
  rfl

theorem configLoop_whole (cs : List Whole) (h : (cs.map Whole.bytes).flatten.length < 65536)
    (fuel : Nat) (hfuel : cs.length ≤ fuel) (configs : List EchConfig) :
    configLoop fuel (cs.map Whole.bytes).flatten configs =
      .ok (.ok (configs ++ cs.filterMap Whole.known)) := by
  induction cs generalizing fuel configs with
  | nil => cases fuel <;> simp [configLoop]
  | cons c cs ih =>
    obtain ⟨fuel, rfl⟩ : ∃ k, fuel = k + 1 :=
      Nat.exists_eq_succ_of_ne_zero (by simp only [List.length_cons] at hfuel; omega)
    have hlen : c.body.length + 4 + (cs.map Whole.bytes).flatten.length < 65536 := by
      rw [List.map_cons, List.flatten_cons, List.length_append] at h
      have hc : c.bytes.length = c.body.length + 4 := block_put_length c.version c.body
      omega
    have hparse := c.parses_append (cs.map Whole.bytes).flatten
    rw [Whole.bytes] at hparse
    rw [List.map_cons, List.flatten_cons, Whole.bytes, configLoop_block (by omega), hparse]
    simp only
    rw [ih (by omega) fuel (by simpa using hfuel)]
    cases hs : c.skip <;> simp [Whole.known, hs]

/-- A list that is written from whole configurations gives back those of the
known version, in order. -/
theorem parseECHConfigList_marshal (cs : List Whole) (data : List UInt8)
    (h : marshalEncryptedClientHelloConfigList (cs.map Whole.bytes) = .ok data) :
    parseECHConfigList data.length data = .ok (.ok (cs.filterMap Whole.known)) := by
  obtain ⟨hlt, rfl⟩ := addLengthPrefixed_ok.mp h
  have hcount : cs.length ≤ (cs.map Whole.bytes).flatten.length := by
    have := Format.block.length_le_putAll (cs.map fun c => (c.version, c.body))
    rw [List.length_map] at this
    rwa [flatten_bytes]
  have hloop := configLoop_whole cs hlt
    (putUint 2 (cs.map Whole.bytes).flatten.length ++ (cs.map Whole.bytes).flatten).length
    (by rw [List.length_append]; omega) []
  rw [← addUint16_ofNat] at hloop ⊢
  rw [parseECHConfigList, readUint16_add]
  simp only [List.length_append, addUint16_length, Nat.add_sub_cancel_left, ne_eq,
    not_true_eq_false, if_false] at hloop ⊢
  exact hloop

/-- A configuration of an older draft, which is skipped. -/
def sampleOld : Whole := ⟨0xfe0c, [1, 2], by decide, true, {}, by decide⟩

/-- X25519, one byte of key, the suite of HKDF-SHA256 and ChaCha20Poly1305, and the
public name `a.b`. -/
def sampleBody : List UInt8 :=
  [7, 0, 0x20, 0, 1, 9, 0, 4, 0, 1, 0, 3, 0, 3, 0x61, 0x2e, 0x62, 0, 0]

def sampleConfig : EchConfig where
  raw := [0xfe, 0x0d, 0, 19] ++ sampleBody
  version := 0xfe0d
  length := 19
  configID := 7
  kemID := 0x20
  publicKey := [9]
  symmetricCipherSuite := [⟨1, 3⟩]
  publicName := [0x61, 0x2e, 0x62]

def sampleKnown : Whole := ⟨0xfe0d, sampleBody, by decide, false, sampleConfig, by decide⟩

def sampleList : List UInt8 := [0, 29, 0xfe, 0x0c, 0, 2, 1, 2, 0xfe, 0x0d, 0, 19] ++ sampleBody

theorem marshal_sampleList :
    parseECHConfigList sampleList.length sampleList = .ok (.ok [sampleConfig]) :=
  parseECHConfigList_marshal [sampleOld, sampleKnown] sampleList (by decide)

/-! ### Accepted lists -/

theorem parseFields_keeps {ec ec' : EchConfig} {s : List UInt8} (h : parseFields ec s = some ec') :
    ec'.raw = ec.raw ∧ ec'.version = ec.version ∧ ec'.length = ec.length := by
  simp only [parseFields, Option.bind_eq_bind, Option.bind_eq_some_iff] at h
  obtain ⟨_, _, _, _, _, _, _, _, _, _, _, _, _, _, _, _, _, _, hec⟩ := h
  cases hec
  exact ⟨rfl, rfl, rfl⟩

/-- The parser skips a block of another version; otherwise its result carries
exactly the bytes of the block. -/
theorem parseECHConfig_result {v : UInt16} {body rest : List UInt8} {skip : Bool} {ec : EchConfig}
    (hbody : body.length + 4 < 65536)
    (h : parseECHConfig (Format.block.put (v, body) ++ rest) = .ok (skip, ec)) :
    (skip = true ∧ v ≠ extensionEncryptedClientHello) ∨
      (skip = false ∧ v = extensionEncryptedClientHello ∧
        ec.raw = Format.block.put (v, body) ∧ ec.version = v) := by
  rw [parseECHConfig_block (by omega)] at h
  split at h
  next hv =>
    cases h
    exact .inl ⟨rfl, hv⟩
  next hv =>
    cases hf : parseFields { raw := _, version := v, length := _ } (body ++ rest) with
    | none =>
      rw [hf] at h
      cases h
    | some ec' =>
      rw [hf] at h
      cases h
      obtain ⟨hraw, hversion, -⟩ := parseFields_keeps hf
      have hall : (UInt16.ofNat body.length + 4).toNat = (Format.block.put (v, body)).length := by
        rw [block_put_length]
        exact nextOffset_eq hbody
      rw [hall, List.take_length] at hraw
      exact .inr ⟨rfl, not_not.mp hv, hraw, hversion⟩

/-- Whether the parser reads a block of this version. -/
def isKnown (block : UInt16 × List UInt8) : Bool := block.1 == extensionEncryptedClientHello

/-- `bytes` are blocks, and `configs` stand for those of the known version. -/
def Lists (bytes : List UInt8) (configs : List EchConfig) : Prop :=
  ∃ blocks, (∀ b ∈ blocks, Format.block.Fits b) ∧ bytes = Format.block.putAll blocks ∧
    configs.map EchConfig.raw = (blocks.filter isKnown).map Format.block.put ∧
    ∀ ec ∈ configs, ec.version = extensionEncryptedClientHello

theorem Lists.nil : Lists [] [] := ⟨[], by simp, rfl, rfl, by simp⟩

/-- One more block in front. -/
theorem Lists.cons {v : UInt16} {body rest : List UInt8} {skip : Bool} {ec : EchConfig}
    {configs : List EchConfig} (hbody : body.length + 4 < 65536)
    (h : parseECHConfig (Format.block.put (v, body) ++ rest) = .ok (skip, ec))
    (hrest : Lists rest configs) :
    Lists (Format.block.put (v, body) ++ rest) (if skip then configs else ec :: configs) := by
  obtain ⟨blocks, hfits, rfl, hraw, hversion⟩ := hrest
  have hfit : Format.block.Fits (v, body) := ⟨trivial, show body.length < 65536 by omega⟩
  refine ⟨(v, body) :: blocks, List.forall_mem_cons.mpr ⟨hfit, hfits⟩, rfl, ?_⟩
  rcases parseECHConfig_result hbody h with ⟨rfl, hv⟩ | ⟨rfl, hv, hr, hver⟩
  · have hk : isKnown (v, body) = false := by simpa [isKnown] using hv
    rw [List.filter_cons_of_neg (by simp [hk])]
    exact ⟨hraw, hversion⟩
  · have hk : isKnown (v, body) = true := by simpa [isKnown] using hv
    rw [List.filter_cons_of_pos hk]
    simp only [Bool.false_eq_true, if_false, List.map_cons, List.forall_mem_cons, hr, hraw]
    exact ⟨trivial, hver.trans hv, hversion⟩

theorem configLoop_error {s : List UInt8} {err : String} (hlong : 4 ≤ s.length)
    (h : parseECHConfig s = .error err) (fuel : Nat) (configs : List EchConfig) :
    configLoop (fuel + 1) s configs = .ok (.error err) := by
  obtain ⟨hi, h2, -⟩ := index_returns s 2 (by omega) (by omega)
  obtain ⟨lo, h3, -⟩ := index_returns s 3 (by omega) (by omega)
  cases s with
  | nil => simp at hlong
  | cons b bs =>
    simp only [configLoop, Nat.not_lt.mpr hlong, if_false, h2, h3, h, bind, Except.bind]

/-- The loop returns on fewer than 65536 bytes, and what it adds stands for the
blocks that it has read. -/
theorem configLoop_accepts (fuel : Nat) (s : List UInt8) (configs : List EchConfig)
    (hfuel : s.length ≤ fuel) (hs : s.length < 65536) :
    ∃ r, configLoop fuel s configs = .ok r ∧
      ∀ out, r = .ok out → ∃ more, out = configs ++ more ∧ Lists s more := by
  induction fuel generalizing s configs with
  | zero =>
    obtain rfl : s = [] := List.length_eq_zero_iff.mp (by omega)
    exact ⟨_, rfl, fun out h => ⟨[], by cases h; simp, Lists.nil⟩⟩
  | succ fuel ih =>
    cases hcons : s with
    | nil => exact ⟨_, rfl, fun out h => ⟨[], by cases h; simp, Lists.nil⟩⟩
    | cons b bs =>
      rw [← hcons]
      by_cases hshort : s.length < 4
      · refine ⟨.error "tls: malformed ECHConfig", ?_, fun out h => nomatch h⟩
        rw [hcons] at hshort ⊢
        simp only [configLoop, hshort, if_true]
      · cases hp : parseECHConfig s with
        | error err =>
          exact ⟨.error err, configLoop_error (by omega) hp fuel configs, fun out h => nomatch h⟩
        | ok r =>
          obtain ⟨skip, ec⟩ := r
          obtain ⟨v, body, rest, -, hblock⟩ := parseECHConfig_inv hp
          have hlen : s.length = body.length + 4 + rest.length := by
            rw [hblock, List.length_append, block_put_length]
          rw [hblock] at hp ⊢
          rw [configLoop_block (by omega), hp]
          obtain ⟨r, hr, hout⟩ := ih rest (if skip then configs else configs ++ [ec]) (by omega)
            (by omega)
          refine ⟨r, hr, fun out h => ?_⟩
          obtain ⟨more, rfl, hmore⟩ := hout out h
          refine ⟨if skip then more else ec :: more, ?_, Lists.cons (by omega) hp hmore⟩
          cases skip <;> simp

/-- On data of at most 65537 bytes the parser returns. What it accepts is a list
of blocks, and it has one result for each block of the known version, in order
and with exactly the bytes of that block. -/
theorem parseECHConfigList_accepts (data : List UInt8) (hdata : data.length ≤ 65537) :
    ∃ r, parseECHConfigList data.length data = .ok r ∧
      ∀ configs, r = .ok configs →
        ∃ s, data = addUint16 (UInt16.ofNat s.length) ++ s ∧ Lists s configs := by
  cases hr : readUint16 data with
  | none =>
    refine ⟨.error errMalformedECHConfig, ?_, fun configs h => nomatch h⟩
    rw [parseECHConfigList, hr]
  | some p =>
    obtain ⟨length, s⟩ := p
    have hbytes := readUint16_inv hr
    have hlen : data.length = s.length + 2 := by
      rw [hbytes, List.length_append, addUint16_length, Nat.add_comm]
    by_cases hlength : length = UInt16.ofNat (data.length - 2)
    · obtain ⟨r, hloop, hout⟩ := configLoop_accepts data.length s [] (by omega) (by omega)
      refine ⟨r, ?_, fun configs h => ?_⟩
      · rw [parseECHConfigList, hr]
        simpa only [← hlength, ne_eq, not_true_eq_false, if_false] using hloop
      · obtain ⟨more, rfl, hmore⟩ := hout configs h
        refine ⟨s, ?_, hmore⟩
        rw [hbytes, hlength, hlen, Nat.add_sub_cancel]
    · refine ⟨.error errMalformedECHConfig, ?_, fun configs h => nomatch h⟩
      rw [parseECHConfigList, hr]
      simp only [ne_eq, hlength, not_false_eq_true, if_true]

theorem accepts_sampleList : ∃ r, parseECHConfigList sampleList.length sampleList = .ok r ∧
    ∀ configs, r = .ok configs →
      ∃ s, sampleList = addUint16 (UInt16.ofNat s.length) ++ s ∧ Lists s configs :=
  parseECHConfigList_accepts sampleList (by decide)

/-! ### Lengths that wrap -/

/-- A block of 65532 content bytes ends at the offset 0 of itself. -/
theorem nextOffset_wraps : nextOffset 65532 = 0 := by decide

/-- Data that starts with a block of 65532 content bytes of another version is
never left: the loop reads that block again and again. -/
theorem parseECHConfigList_diverges (v : UInt16) (body rest : List UInt8)
    (hv : v ≠ extensionEncryptedClientHello) (hbody : body.length = 65532) (fuel : Nat) :
    parseECHConfigList fuel (addUint16 (UInt16.ofNat (Format.block.put (v, body) ++ rest).length) ++
      (Format.block.put (v, body) ++ rest)) = .error .diverged := by
  have hloop : ∀ fuel configs,
      configLoop fuel (Format.block.put (v, body) ++ rest) configs = .error .diverged := by
    intro fuel
    induction fuel with
    | zero =>
      intro configs
      obtain ⟨b, bs, hb⟩ := List.exists_cons_of_ne_nil (Format.block.put_ne_nil (v, body))
      rw [hb]
      rfl
    | succ fuel ih =>
      intro configs
      rw [configLoop_step (by omega), parseECHConfig_block (by omega), if_pos hv, hbody,
        nextOffset_wraps, List.drop_zero]
      exact ih _
  rw [parseECHConfigList, readUint16_add]
  simp only [List.length_append, addUint16_length, Nat.add_sub_cancel_left, ne_eq,
    not_true_eq_false, if_false]
  exact hloop fuel []

/-- 65532 bytes of a future version, and nothing else. -/
theorem diverges_on_future_version :
    parseECHConfigList 1000000 (addUint16 (UInt16.ofNat
        (Format.block.put (0xfe0e, List.replicate 65532 0) ++ []).length) ++
      (Format.block.put (0xfe0e, List.replicate 65532 0) ++ [])) = .error .diverged :=
  parseECHConfigList_diverges 0xfe0e (List.replicate 65532 0) [] (by decide)
    List.length_replicate 1000000

/-! ## The chosen configuration -/

/-- What a configuration needs to be used: a key agreement, a cipher suite and a
name that are supported, and no mandatory extension. -/
def EchConfig.usable (ec : EchConfig) : Bool :=
  supportedKEMs.contains ec.kemID && ec.symmetricCipherSuite.any EchCipher.supported &&
    validDNSName ec.publicName && !ec.extensions.any EchExtension.mandatory

theorem pickECHConfig_eq (list : List EchConfig) : pickECHConfig list = list.find? EchConfig.usable := by
  induction list with
  | nil => rfl
  | cons ec list ih =>
    rw [List.find?_cons, pickECHConfig, ih]
    cases hk : supportedKEMs.contains ec.kemID <;>
      cases hs : ec.symmetricCipherSuite.any EchCipher.supported <;>
      cases hn : validDNSName ec.publicName <;>
      cases he : ec.extensions.any EchExtension.mandatory <;>
      simp only [EchConfig.usable, hk, hs, hn, he] <;> rfl

theorem pickECHCipherSuite_eq (suites : List EchCipher) :
    pickECHCipherSuite suites =
      orError "tls: no supported symmetric ciphersuites for ECH"
        (suites.find? EchCipher.supported) := by
  induction suites with
  | nil => rfl
  | cons s suites ih =>
    rw [List.find?_cons, pickECHCipherSuite, ih]
    cases ha : supportedAEADs.contains s.aeadID <;> cases hk : supportedKDFs.contains s.kdfID <;>
      simp only [EchCipher.supported, ha, hk] <;> rfl

/-- A usable configuration has a cipher suite to pick. -/
theorem pickECHCipherSuite_of_usable {ec : EchConfig} (h : ec.usable = true) :
    ∃ cs, pickECHCipherSuite ec.symmetricCipherSuite = .ok cs ∧
      ec.symmetricCipherSuite.find? EchCipher.supported = some cs := by
  have hany : ec.symmetricCipherSuite.any EchCipher.supported = true := by
    simp only [EchConfig.usable, Bool.and_eq_true] at h
    exact h.1.1.2
  obtain ⟨cs, hcs⟩ := Option.isSome_iff_exists.mp (List.find?_isSome.mpr (List.any_eq_true.mp hany))
  exact ⟨cs, by rw [pickECHCipherSuite_eq, hcs, orError_some], hcs⟩

/-- What the set-up of a usable configuration does: its suite is there, so only
the two calls into the HPKE library can fail. -/
theorem setupECH_eq {Key Ctx : Type} (hpke : Hpke Key Ctx) {ec : EchConfig} {cs : EchCipher}
    (hcs : pickECHCipherSuite ec.symmetricCipherSuite = .ok cs) :
    setupECH hpke ec = (hpke.parseHPKEPublicKey ec.kemID ec.publicKey).bind fun key =>
      (hpke.setupSender ec.kemID cs.kdfID cs.aeadID key (infoPrefix ++ ec.raw)).map fun p =>
        { config := ec, hpkeContext := p.2, encapsulatedKey := p.1,
          kdfID := cs.kdfID, aeadID := cs.aeadID } := by
  simp only [setupECH, hcs, bind]
  cases hpke.parseHPKEPublicKey ec.kemID ec.publicKey with
  | error e => rfl
  | ok key =>
    simp only [Except.bind]
    cases hpke.setupSender ec.kemID cs.kdfID cs.aeadID key (infoPrefix ++ ec.raw) <;> rfl

/-- From a list that parses, the client takes the first usable configuration with
its first supported suite, and from there on only the HPKE library can fail; it
gives up with its own message exactly if no configuration is usable. -/
theorem echContext_picks {Key Ctx : Type} (hpke : Hpke Key Ctx) (minVersion maxVersion : UInt16)
    (fuel : Nat) (configList : List UInt8) (configs : List EchConfig)
    (hmin : minVersion = 0 ∨ versionTLS13 ≤ minVersion)
    (hmax : maxVersion = 0 ∨ versionTLS12 < maxVersion)
    (hparse : parseECHConfigList fuel configList = .ok (.ok configs)) :
    ((∀ ec ∈ configs, ec.usable = false) ∧
      echContext hpke minVersion maxVersion fuel configList =
        .ok (.error "tls: EncryptedClientHelloConfigList contains no valid configs")) ∨
    ∃ before ec after skipped cs more,
      configs = before ++ ec :: after ∧ (∀ c ∈ before, c.usable = false) ∧ ec.usable = true ∧
      ec.symmetricCipherSuite = skipped ++ cs :: more ∧ (∀ c ∈ skipped, c.supported = false) ∧
      cs.supported = true ∧
      echContext hpke minVersion maxVersion fuel configList =
        .ok ((hpke.parseHPKEPublicKey ec.kemID ec.publicKey).bind fun key =>
          (hpke.setupSender ec.kemID cs.kdfID cs.aeadID key (infoPrefix ++ ec.raw)).map fun p =>
            { config := ec, hpkeContext := p.2, encapsulatedKey := p.1,
              kdfID := cs.kdfID, aeadID := cs.aeadID }) := by
  have hrun : echContext hpke minVersion maxVersion fuel configList =
      match pickECHConfig configs with
      | none => .ok (.error "tls: EncryptedClientHelloConfigList contains no valid configs")
      | some config => .ok (setupECH hpke config) := by
    have h1 : ¬ (minVersion ≠ 0 ∧ minVersion < versionTLS13) := by
      rintro ⟨h0, hlt⟩
      exact hmin.elim h0 fun hle => absurd hlt (UInt16.not_lt.mpr hle)
    have h2 : ¬ (maxVersion ≠ 0 ∧ maxVersion ≤ versionTLS12) := by
      rintro ⟨h0, hle⟩
      exact hmax.elim h0 fun hlt => absurd hle (UInt16.not_le.mpr hlt)
    simp only [echContext, h1, h2, if_false, hparse, bind, Except.bind]
    cases pickECHConfig configs <;> rfl
  rw [pickECHConfig_eq] at hrun
  cases hfind : configs.find? EchConfig.usable with
  | none =>
    rw [hfind] at hrun
    exact .inl ⟨by simpa using hfind, hrun⟩
  | some ec =>
    rw [hfind] at hrun
    obtain ⟨hec, before, after, hsplit, hbefore⟩ := List.find?_eq_some_iff_append.mp hfind
    obtain ⟨cs, hpick, hcs⟩ := pickECHCipherSuite_of_usable hec
    obtain ⟨hsup, skipped, more, hsuites, hskipped⟩ := List.find?_eq_some_iff_append.mp hcs
    refine .inr ⟨before, ec, after, skipped, cs, more, hsplit, by simpa using hbefore, hec, hsuites,
      by simpa using hskipped, hsup, ?_⟩
    rw [hrun]
    simp only [setupECH_eq hpke hpick]

/-- A library for which every key is good. -/
def agreeable : Hpke Unit Unit := ⟨fun _ _ => .ok (), fun _ _ _ _ _ => .ok ([5], ())⟩

theorem picks_sampleConfig :
    ((∀ ec ∈ [sampleConfig], ec.usable = false) ∧
      echContext agreeable 0 versionTLS13 sampleList.length sampleList =
        .ok (.error "tls: EncryptedClientHelloConfigList contains no valid configs")) ∨
    ∃ before ec after skipped cs more,
      [sampleConfig] = before ++ ec :: after ∧ (∀ c ∈ before, c.usable = false) ∧
      ec.usable = true ∧ ec.symmetricCipherSuite = skipped ++ cs :: more ∧
      (∀ c ∈ skipped, c.supported = false) ∧ cs.supported = true ∧
      echContext agreeable 0 versionTLS13 sampleList.length sampleList =
        .ok ((agreeable.parseHPKEPublicKey ec.kemID ec.publicKey).bind fun key =>
          (agreeable.setupSender ec.kemID cs.kdfID cs.aeadID key (infoPrefix ++ ec.raw)).map fun p =>
            { config := ec, hpkeContext := p.2, encapsulatedKey := p.1,
              kdfID := cs.kdfID, aeadID := cs.aeadID }) :=
  echContext_picks agreeable 0 versionTLS13 sampleList.length sampleList [sampleConfig] (.inl rfl)
    (.inr (by decide)) (by decide)

end SniShaper.Ech
