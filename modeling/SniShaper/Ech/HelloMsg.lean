import SniShaper.Ech.Config

/-! The ClientHello message of the TLS library: how it is written
(`marshalMsgReorderOuterExts`) and how it is read (`unmarshal`), from
`handshake_messages.go`.

The writer's extensions are the rows of a table: `present` is the condition of a
row and `body` its contents, in the order of the source. With `echInner` the
rows from `statusRequest` to `pskModes` are only named, in the extension
`ech_outer_extensions`. -/

namespace SniShaper.Ech

open Wire

structure KeyShare where
  group : UInt16
  data : List UInt8
  deriving DecidableEq, Repr

structure PskIdentity where
  label : List UInt8
  obfuscatedTicketAge : UInt32
  deriving DecidableEq, Repr

structure ClientHelloMsg where
  original : Option (List UInt8) := none
  vers : UInt16 := 0
  random : List UInt8 := []
  sessionId : List UInt8 := []
  cipherSuites : List UInt16 := []
  compressionMethods : List UInt8 := []
  serverName : List UInt8 := []
  ocspStapling : Bool := false
  supportedCurves : List UInt16 := []
  supportedPoints : List UInt8 := []
  ticketSupported : Bool := false
  sessionTicket : List UInt8 := []
  supportedSignatureAlgorithms : List UInt16 := []
  supportedSignatureAlgorithmsCert : List UInt16 := []
  secureRenegotiationSupported : Bool := false
  secureRenegotiation : List UInt8 := []
  extendedMasterSecret : Bool := false
  alpnProtocols : List (List UInt8) := []
  scts : Bool := false
  supportedVersions : List UInt16 := []
  cookie : List UInt8 := []
  keyShares : List KeyShare := []
  earlyData : Bool := false
  pskModes : List UInt8 := []
  pskIdentities : List PskIdentity := []
  pskBinders : List (List UInt8) := []
  quicTransportParameters : Option (List UInt8) := none
  encryptedClientHello : List UInt8 := []
  extensions : List UInt16 := []
  deriving DecidableEq, Repr

/-- The extensions that the message knows. -/
inductive ExtKind
  | serverName
  | supportedPoints
  | sessionTicket
  | renegotiationInfo
  | extendedMasterSecret
  | sct
  | earlyData
  | quicTransportParameters
  | encryptedClientHello
  | statusRequest
  | supportedCurves
  | signatureAlgorithms
  | signatureAlgorithmsCert
  | alpn
  | supportedVersions
  | cookie
  | keyShare
  | pskModes
  | preSharedKey
  deriving DecidableEq, Repr

def ExtKind.all : List ExtKind :=
  [.serverName, .supportedPoints, .sessionTicket, .renegotiationInfo, .extendedMasterSecret, .sct,
    .earlyData, .quicTransportParameters, .encryptedClientHello, .statusRequest, .supportedCurves,
    .signatureAlgorithms, .signatureAlgorithmsCert, .alpn, .supportedVersions, .cookie, .keyShare,
    .pskModes, .preSharedKey]

def ExtKind.code : ExtKind → UInt16
  | .serverName => 0
  | .statusRequest => 5
  | .supportedCurves => 10
  | .supportedPoints => 11
  | .signatureAlgorithms => 13
  | .alpn => 16
  | .sct => 18
  | .extendedMasterSecret => 23
  | .sessionTicket => 35
  | .preSharedKey => 41
  | .earlyData => 42
  | .supportedVersions => 43
  | .cookie => 44
  | .pskModes => 45
  | .signatureAlgorithmsCert => 50
  | .keyShare => 51
  | .quicTransportParameters => 57
  | .renegotiationInfo => 0xff01
  | .encryptedClientHello => extensionEncryptedClientHello

def extensionECHOuterExtensions : UInt16 := 0xfd00

def typeClientHello : UInt8 := 1

def statusTypeOCSP : UInt8 := 1

def scsvRenegotiation : UInt16 := 0x00ff

/-! ## Writing -/

def putUint16s (vs : List UInt16) : List UInt8 := Format.uint16.putAll vs

/-- A list of 16-bit values behind a 16-bit length, as three extensions carry it. -/
def uint16List (vs : List UInt16) : Except String (List UInt8) :=
  addUint16LengthPrefixed (putUint16s vs)

namespace ClientHelloMsg

def present (m : ClientHelloMsg) : ExtKind → Bool
  | .serverName => 0 < m.serverName.length
  | .supportedPoints => 0 < m.supportedPoints.length
  | .sessionTicket => m.ticketSupported
  | .renegotiationInfo => m.secureRenegotiationSupported
  | .extendedMasterSecret => m.extendedMasterSecret
  | .sct => m.scts
  | .earlyData => m.earlyData
  | .quicTransportParameters => m.quicTransportParameters.isSome
  | .encryptedClientHello => 0 < m.encryptedClientHello.length
  | .statusRequest => m.ocspStapling
  | .supportedCurves => 0 < m.supportedCurves.length
  | .signatureAlgorithms => 0 < m.supportedSignatureAlgorithms.length
  | .signatureAlgorithmsCert => 0 < m.supportedSignatureAlgorithmsCert.length
  | .alpn => 0 < m.alpnProtocols.length
  | .supportedVersions => 0 < m.supportedVersions.length
  | .cookie => 0 < m.cookie.length
  | .keyShare => 0 < m.keyShares.length
  | .pskModes => 0 < m.pskModes.length
  | .preSharedKey => 0 < m.pskIdentities.length

def body (m : ClientHelloMsg) : ExtKind → Except String (List UInt8)
  | .serverName => do
    let name ← addUint16LengthPrefixed m.serverName
    addUint16LengthPrefixed (addUint8 0 ++ name)
  | .supportedPoints => addUint8LengthPrefixed m.supportedPoints
  | .sessionTicket => .ok m.sessionTicket
  | .renegotiationInfo => addUint8LengthPrefixed m.secureRenegotiation
  | .extendedMasterSecret => .ok []
  | .sct => .ok []
  | .earlyData => .ok []
  | .quicTransportParameters => .ok (m.quicTransportParameters.getD [])
  | .encryptedClientHello => .ok m.encryptedClientHello
  | .statusRequest => .ok (addUint8 1 ++ (addUint16 0 ++ addUint16 0))
  | .supportedCurves => uint16List m.supportedCurves
  | .signatureAlgorithms => uint16List m.supportedSignatureAlgorithms
  | .signatureAlgorithmsCert => uint16List m.supportedSignatureAlgorithmsCert
  | .alpn => do
    let protos ← concat (m.alpnProtocols.map addUint8LengthPrefixed)
    addUint16LengthPrefixed protos
  | .supportedVersions => addUint8LengthPrefixed (putUint16s m.supportedVersions)
  | .cookie => addUint16LengthPrefixed m.cookie
  | .keyShare => do
    let shares ← concat (m.keyShares.map fun ks => do
      let data ← addUint16LengthPrefixed ks.data
      return addUint16 ks.group ++ data)
    addUint16LengthPrefixed shares
  | .pskModes => addUint8LengthPrefixed m.pskModes
  | .preSharedKey => do
    let identities ← concat (m.pskIdentities.map fun psk => do
      let label ← addUint16LengthPrefixed psk.label
      return label ++ addUint32 psk.obfuscatedTicketAge)
    let identities ← addUint16LengthPrefixed identities
    let binders ← concat (m.pskBinders.map addUint8LengthPrefixed)
    let binders ← addUint16LengthPrefixed binders
    return identities ++ binders

end ClientHelloMsg

/-- One extension: its type, and its contents behind their length. -/
def addExtension (type : UInt16) (body : Except String (List UInt8)) :
    Except String (List UInt8) := do
  let body ← body
  let data ← addUint16LengthPrefixed body
  return addUint16 type ++ data

/-- Extensions that an inner hello leaves out: they are of TLS 1.2. -/
def legacyKinds : List ExtKind :=
  [.supportedPoints, .sessionTicket, .renegotiationInfo, .extendedMasterSecret]

/-- Extensions that an inner hello writes itself. -/
def ownKinds : List ExtKind := [.sct, .earlyData, .quicTransportParameters, .encryptedClientHello]

/-- Extensions that an inner hello can take from the outer one. -/
def sharedKinds : List ExtKind :=
  [.statusRequest, .supportedCurves, .signatureAlgorithms, .signatureAlgorithmsCert, .alpn,
    .supportedVersions, .cookie, .keyShare, .pskModes]

namespace ClientHelloMsg

def addKind (m : ClientHelloMsg) (k : ExtKind) : Except String (List UInt8) :=
  if m.present k then addExtension k.code (m.body k) else .ok []

/-- Whether a shared kind is only named. With a given order the versions are
written in full. -/
def named (echInner : Bool) (outerExts : Option (List UInt16)) (k : ExtKind) : Bool :=
  echInner && !(k == .supportedVersions && outerExts.isSome)

/-- `echOuterExts`: the types that the inner hello names, in the order that is
given, or else in its own. -/
def outerExtsOf (m : ClientHelloMsg) (echInner : Bool) (outerExts : Option (List UInt16)) :
    List UInt16 :=
  let echOuterExts :=
    (sharedKinds.filter fun k => m.present k && named echInner outerExts k).map ExtKind.code
  match outerExts with
  | some exts => if echInner then exts.filter echOuterExts.contains else echOuterExts
  | none => echOuterExts

def addOuterExts (exts : List UInt16) : Except String (List UInt8) :=
  if 0 < exts.length then
    addExtension extensionECHOuterExtensions (addUint8LengthPrefixed (putUint16s exts))
  else .ok []

/-- The extensions block, without its length. -/
def marshalExts (m : ClientHelloMsg) (echInner : Bool) (outerExts : Option (List UInt16)) :
    Except String (List UInt8) :=
  concat (
    [m.addKind .serverName] ++
    legacyKinds.map (fun k => if echInner then .ok [] else m.addKind k) ++
    ownKinds.map m.addKind ++
    sharedKinds.map (fun k => if named echInner outerExts k then .ok [] else m.addKind k) ++
    [addOuterExts (m.outerExtsOf echInner outerExts)] ++
    [m.addKind .preSharedKey])

/-- `addBytesWithLength`. -/
def addBytesWithLength (v : List UInt8) (n : Nat) : Except String (List UInt8) :=
  if v.length ≠ n then .error s!"invalid value length: expected {n}, got {v.length}" else .ok v

/-- The message around its extensions. -/
def marshalBody (vers : UInt16) (random sessionId : List UInt8) (cipherSuites : List UInt16)
    (compressionMethods extBytes : List UInt8) : Except String (List UInt8) := do
  let body ← concat [.ok (addUint16 vers), addBytesWithLength random 32,
    addUint8LengthPrefixed sessionId, addUint16LengthPrefixed (putUint16s cipherSuites),
    addUint8LengthPrefixed compressionMethods,
    if 0 < extBytes.length then addUint16LengthPrefixed extBytes else .ok []]
  let body ← addUint24LengthPrefixed body
  return addUint8 typeClientHello ++ body

def marshalMsgReorderOuterExts (m : ClientHelloMsg) (echInner : Bool)
    (outerExts : Option (List UInt16)) : Except String (List UInt8) := do
  let extBytes ← m.marshalExts echInner outerExts
  marshalBody m.vers m.random (if echInner then [] else m.sessionId) m.cipherSuites
    m.compressionMethods extBytes

def marshalMsg (m : ClientHelloMsg) (echInner : Bool) : Except String (List UInt8) :=
  m.marshalMsgReorderOuterExts echInner none

def marshal (m : ClientHelloMsg) : Except String (List UInt8) :=
  match m.original with
  | some original => .ok original
  | none => m.marshalMsg false

end ClientHelloMsg

/-! ## Reading -/

/-- `if !(p) { return false }`. -/
def require (p : Prop) [Decidable p] : Option Unit := if p then some () else none

def readUint16s (s : List UInt8) : Option (List UInt16) :=
  drain none (fun vs s => do
    let (v, s) ← readUint16 s
    return (vs ++ [v], s)) [] s

/-- A non-empty list of 16-bit values behind a length of `k` bytes. -/
def readUint16List (k : Nat) (extData : List UInt8) : Option (List UInt16 × List UInt8) := do
  let (list, extData) ← readLengthPrefixed k extData
  require (list ≠ [])
  let values ← readUint16s list
  return (values, extData)

/-- The loop over the names of a server_name extension. -/
def readNames (serverName nameList : List UInt8) : Option (List UInt8) :=
  drain none (fun serverName s => do
    let (nameType, s) ← readUint8 s
    let (name, s) ← readUint16LengthPrefixed s
    require (name ≠ [])
    if nameType ≠ 0 then return (serverName, s)
    -- Multiple names of the same name_type are prohibited.
    require (serverName = [])
    -- An SNI value may not include a trailing dot.
    require (name.getLast? ≠ some 0x2e)
    return (name, s)) serverName nameList

def readProtocols (protoList : List UInt8) : Option (List (List UInt8)) :=
  drain none (fun protos s => do
    let (proto, s) ← readUint8LengthPrefixed s
    require (proto ≠ [])
    return (protos ++ [proto], s)) [] protoList

def readKeyShares (clientShares : List UInt8) : Option (List KeyShare) :=
  drain none (fun shares s => do
    let (group, s) ← readUint16 s
    let (data, s) ← readUint16LengthPrefixed s
    require (data ≠ [])
    return (shares ++ [⟨group, data⟩], s)) [] clientShares

def readIdentities (identities : List UInt8) : Option (List PskIdentity) :=
  drain none (fun psks s => do
    let (label, s) ← readUint16LengthPrefixed s
    let (obfuscatedTicketAge, s) ← readUint32 s
    require (label ≠ [])
    return (psks ++ [⟨label, obfuscatedTicketAge⟩], s)) [] identities

def readBinders (binders : List UInt8) : Option (List (List UInt8)) :=
  drain none (fun bs s => do
    let (binder, s) ← readUint8LengthPrefixed s
    require (binder ≠ [])
    return (bs ++ [binder], s)) [] binders

/-- The `switch` of `unmarshal`: the message with the extension in it, and what is
left of the extension's data. `last` says that no other extension follows. -/
def parseExtension (m : ClientHelloMsg) (extData : List UInt8) (last : Bool) :
    ExtKind → Option (ClientHelloMsg × List UInt8)
  | .serverName => do
    let (nameList, extData) ← readUint16LengthPrefixed extData
    require (nameList ≠ [])
    let serverName ← readNames m.serverName nameList
    return ({ m with serverName }, extData)
  | .statusRequest => do
    let (statusType, extData) ← readUint8 extData
    let (_, extData) ← readUint16LengthPrefixed extData
    let (_, extData) ← readUint16LengthPrefixed extData
    return ({ m with ocspStapling := statusType == statusTypeOCSP }, extData)
  | .supportedCurves => do
    let (curves, extData) ← readUint16List 2 extData
    return ({ m with supportedCurves := m.supportedCurves ++ curves }, extData)
  | .supportedPoints => do
    let (supportedPoints, extData) ← readUint8LengthPrefixed extData
    require (supportedPoints.length ≠ 0)
    return ({ m with supportedPoints }, extData)
  | .sessionTicket =>
    return ({ m with ticketSupported := true, sessionTicket := extData }, [])
  | .signatureAlgorithms => do
    let (algs, extData) ← readUint16List 2 extData
    return ({ m with
      supportedSignatureAlgorithms := m.supportedSignatureAlgorithms ++ algs }, extData)
  | .signatureAlgorithmsCert => do
    let (algs, extData) ← readUint16List 2 extData
    return ({ m with
      supportedSignatureAlgorithmsCert := m.supportedSignatureAlgorithmsCert ++ algs }, extData)
  | .renegotiationInfo => do
    let (secureRenegotiation, extData) ← readUint8LengthPrefixed extData
    return ({ m with secureRenegotiation, secureRenegotiationSupported := true }, extData)
  | .extendedMasterSecret => return ({ m with extendedMasterSecret := true }, extData)
  | .alpn => do
    let (protoList, extData) ← readUint16LengthPrefixed extData
    require (protoList ≠ [])
    let protos ← readProtocols protoList
    return ({ m with alpnProtocols := m.alpnProtocols ++ protos }, extData)
  | .sct => return ({ m with scts := true }, extData)
  | .supportedVersions => do
    let (versions, extData) ← readUint16List 1 extData
    return ({ m with supportedVersions := m.supportedVersions ++ versions }, extData)
  | .cookie => do
    let (cookie, extData) ← readUint16LengthPrefixed extData
    require (cookie.length ≠ 0)
    return ({ m with cookie }, extData)
  | .keyShare => do
    let (clientShares, extData) ← readUint16LengthPrefixed extData
    let shares ← readKeyShares clientShares
    return ({ m with keyShares := m.keyShares ++ shares }, extData)
  | .earlyData => return ({ m with earlyData := true }, extData)
  | .pskModes => do
    let (pskModes, extData) ← readUint8LengthPrefixed extData
    return ({ m with pskModes }, extData)
  | .quicTransportParameters =>
    return ({ m with quicTransportParameters := some extData }, [])
  | .preSharedKey => do
    require (last = true)
    let (identities, extData) ← readUint16LengthPrefixed extData
    require (identities ≠ [])
    let psks ← readIdentities identities
    let (binders, extData) ← readUint16LengthPrefixed extData
    require (binders ≠ [])
    let bs ← readBinders binders
    return ({ m with
      pskIdentities := m.pskIdentities ++ psks, pskBinders := m.pskBinders ++ bs }, extData)
  | .encryptedClientHello => return ({ m with encryptedClientHello := extData }, [])

/-- The kind of an extension type; unknown types have none. -/
def ExtKind.ofCode (type : UInt16) : Option ExtKind := ExtKind.all.find? (·.code == type)

/-- One extension of the loop. The types that were seen are those of
`m.extensions`. -/
def acceptExtension (m : ClientHelloMsg) (extension : UInt16) (extData : List UInt8) (last : Bool) :
    Option ClientHelloMsg :=
  if m.extensions.contains extension then none
  else
    let m := { m with extensions := m.extensions ++ [extension] }
    match ExtKind.ofCode extension with
    | none => some m
    | some k => do
      let (m, extData) ← parseExtension m extData last k
      require (extData = [])
      return m

def readExtensions (m : ClientHelloMsg) (extensions : List UInt8) : Option ClientHelloMsg :=
  drain none (fun m s => do
    let (extension, s) ← readUint16 s
    let (extData, s) ← readUint16LengthPrefixed s
    let m ← acceptExtension m extension extData s.isEmpty
    return (m, s)) m extensions

def unmarshal (data : List UInt8) : Option ClientHelloMsg := do
  let s ← skip 4 data
  let (vers, s) ← readUint16 s
  let (random, s) ← readBytes 32 s
  let (sessionId, s) ← readUint8LengthPrefixed s
  let (cipherSuites, s) ← readUint16LengthPrefixed s
  let cipherSuites ← readUint16s cipherSuites
  let (compressionMethods, s) ← readUint8LengthPrefixed s
  let m : ClientHelloMsg := {
    original := some data
    vers, random, sessionId, cipherSuites, compressionMethods
    secureRenegotiationSupported := cipherSuites.contains scsvRenegotiation }
  if s = [] then return m
  let (extensions, s) ← readUint16LengthPrefixed s
  require (s = [])
  readExtensions m extensions

end SniShaper.Ech
