import SniShaper.Ech.Hpke
import SniShaper.Ech.Outer

/-! Both ends of a handshake with an Encrypted ClientHello: the server's search for
the key that opens the hello (`ech.go`), the second hello after a retry request
(`handshake_server_tls13.go`) and the client's transcript of the inner hello
(`u_handshake_client.go`).

The server finds the associated data by replacing the first occurrence of the
payload in the hello by zeros, so the payload must not occur in front of itself.

Proved here:

* `handshake_accepted`: a server with the key of the configuration that the client
  picked decodes the client's inner hello, puts the same bytes into its
  transcript as the client does, and then does so again for a second hello. -/

namespace SniShaper.Ech

open Wire ClientHelloMsg

/-! ## The server -/

/-- `bytes.Replace` with a count of one. -/
def replaceFirst (old new : List UInt8) : List UInt8 → List UInt8
  | [] => if old = [] then new else []
  | b :: s =>
    if old.isPrefixOf (b :: s) then new ++ (b :: s).drop old.length else b :: replaceFirst old new s

/-- `Seal`, with the panic at the message limit as an error. -/
def sealHpke (ctx : Context) (aad plaintext : List UInt8) : Except String (List UInt8 × Context) :=
  orError "message limit reached" (ctx.sealNext aad plaintext)

/-- `Open`, with the panic at the message limit as an error. -/
def openHpke (ctx : Context) (aad ciphertext : List UInt8) : Except String (List UInt8 × Context) :=
  (ctx.openNext aad ciphertext).getD (.error "message limit reached")

def decryptECHPayload (context : Context) (hello payload : List UInt8) :
    Except String (List UInt8 × Context) :=
  let outerAAD := replaceFirst payload (List.replicate payload.length 0) (hello.drop 4)
  openHpke context outerAAD payload

structure EncryptedClientHelloKey where
  config : List UInt8
  privateKey : List UInt8
  sendAsRetry : Bool := false

/-- `echServerContext`; nothing else is set for a hello that is an inner one itself. -/
inductive EchServerContext
  | inner
  | accepted (hpkeContext : Context) (configID : UInt8) (ciphersuite : EchCipher)

inductive Alert
  | illegalParameter
  | decodeError
  | decryptError
  | internalError
  | missingExtension
  deriving DecidableEq, Repr

/-- What a server goes on with, and whether `echAccepted` was set. -/
structure Processed where
  hello : ClientHelloMsg
  context : Option EchServerContext
  echAccepted : Bool

section Server

variable {Priv Pub : Type} (prim : Primitives Priv Pub)

/-- The trial decryption with each key. -/
def tryKeys (outer : ClientHelloMsg) (cs : EchCipher) (configID : UInt8)
    (encap payload : List UInt8) : List EncryptedClientHelloKey → Except (Alert × String) Processed
  | [] => .ok ⟨outer, none, false⟩
  | echKey :: keys =>
    match parseECHConfig echKey.config with
    | .error err =>
      .error (.internalError, "tls: invalid EncryptedClientHelloKeys Config: " ++ err)
    | .ok (true, _) =>
      .error (.internalError, "tls: invalid EncryptedClientHelloKeys Config: %!s(<nil>)")
    | .ok (false, config) =>
      match parseHPKEPrivateKey prim config.kemID echKey.privateKey with
      | .error err =>
        .error (.internalError, "tls: invalid EncryptedClientHelloKeys PrivateKey: " ++ err)
      | .ok echPriv =>
        match (setupReceipient prim dhkemX25519 cs.kdfID cs.aeadID echPriv
            (infoPrefix ++ echKey.config) encap).bind fun hpkeContext =>
              decryptECHPayload hpkeContext (outer.original.getD []) payload with
        | .error _ => tryKeys outer cs configID encap payload keys
        | .ok (encodedInner, hpkeContext) =>
          match decodeInnerClientHello outer encodedInner with
          | .error _ => .error (.illegalParameter, errInvalidECHExt)
          | .ok echInner => .ok ⟨echInner, some (.accepted hpkeContext configID cs), true⟩

def processECHClientHello (keys : List EncryptedClientHelloKey) (outer : ClientHelloMsg) :
    Except (Alert × String) Processed :=
  match parseECHExt outer.encryptedClientHello with
  | .error err =>
    .error (if err = errInvalidECHExt then .illegalParameter else .decodeError, errInvalidECHExt)
  | .ok .inner => .ok ⟨outer, some .inner, false⟩
  | .ok (.outer cs configID encap payload) => tryKeys prim outer cs configID encap payload keys

end Server

/-- The part of `doHelloRetryRequest` that looks at the second hello. -/
def secondClientHello (echContext : Option EchServerContext) (clientHello : ClientHelloMsg) :
    Except (Alert × String) (ClientHelloMsg × Option EchServerContext) :=
  match echContext with
  | none => .ok (clientHello, none)
  | some echContext =>
    if clientHello.encryptedClientHello.length = 0 then
      .error (.missingExtension,
        "tls: second client hello missing encrypted client hello extension")
    else
      match parseECHExt clientHello.encryptedClientHello, echContext with
      | .error _, _ =>
        .error (.decodeError, "tls: client sent invalid encrypted client hello extension")
      | .ok .inner, .inner => .ok (clientHello, some .inner)
      | .ok .inner, .accepted .. | .ok (.outer ..), .inner =>
        .error (.decodeError,
          "tls: unexpected switch in encrypted client hello extension type")
      | .ok (.outer cs configID encap payload), .accepted hpkeContext configID' ciphersuite =>
        if cs ≠ ciphersuite ∨ configID ≠ configID' ∨ encap.length ≠ 0 then
          .error (.illegalParameter,
            "tls: second client hello encrypted client hello extension does not match")
        else
          match decryptECHPayload hpkeContext (clientHello.original.getD []) payload with
          | .error _ => .error (.decryptError, "tls: failed to decrypt second client hello " ++
              "encrypted client hello extension payload")
          | .ok (encodedInner, hpkeContext) =>
            match decodeInnerClientHello clientHello encodedInner with
            | .error _ => .error (.illegalParameter,
                "tls: client sent invalid encrypted client hello extension")
            | .ok echInner =>
              .ok (echInner, some (.accepted hpkeContext configID' ciphersuite))

/-! ## The client's transcript -/

/-- The bytes that the client writes to the inner transcript. -/
def echTranscriptMsg {Ctx : Type} (uconn : UConn) (outer innerHello : ClientHelloMsg)
    (echCtx : EchClientContext Ctx) : Except String (List UInt8) := do
  let encodedInner ← encodeInnerClientHelloReorderOuterExts innerHello
    echCtx.config.maxNameLength.toNat (some (extensionsList uconn.extensions))
  let decodedInner ← decodeInnerClientHello outer encodedInner
  decodedInner.marshal

/-! ## The associated data -/

/-- How often a part occurs. -/
def occurrences (part : List UInt8) : List UInt8 → Nat
  | [] => if part = [] then 1 else 0
  | b :: s => (if part.isPrefixOf (b :: s) then 1 else 0) + occurrences part s

theorem occurrences_pos (part front back : List UInt8) :
    0 < occurrences part (front ++ (part ++ back)) := by
  induction front with
  | nil =>
    cases h : part ++ back with
    | nil => simp [occurrences, (List.append_eq_nil_iff.mp h).1]
    | cons b s =>
      have hprefix : part.isPrefixOf (b :: s) = true := by
        rw [← h, List.isPrefixOf_iff_prefix]
        exact List.prefix_append part back
      simp [occurrences, hprefix]
  | cons b front ih =>
    rw [List.cons_append, occurrences]
    omega

/-- A part that occurs once is replaced where it stands. -/
theorem replaceFirst_once {old front back : List UInt8} (new : List UInt8)
    (h : occurrences old (front ++ (old ++ back)) ≤ 1) :
    replaceFirst old new (front ++ (old ++ back)) = front ++ (new ++ back) := by
  induction front with
  | nil =>
    cases hs : old ++ back with
    | nil => simp_all [replaceFirst]
    | cons b s =>
      have hprefix : old.isPrefixOf (b :: s) = true := by
        rw [← hs, List.isPrefixOf_iff_prefix]
        exact List.prefix_append old back
      rw [List.nil_append, replaceFirst, if_pos hprefix, ← hs, List.drop_left]
      rfl
  | cons b front ih =>
    rw [List.cons_append, occurrences] at h
    have hpos := occurrences_pos old front back
    have hfirst : ¬ old.isPrefixOf (b :: (front ++ (old ++ back))) = true := fun hprefix => by
      rw [if_pos hprefix] at h
      omega
    rw [List.cons_append, replaceFirst, if_neg hfirst, ih (by omega)]
    rfl

theorem openHpke_seal {ctx ctx' : Context} (hlaw : ctx.aead.Lawful)
    {aad plaintext ciphertext : List UInt8}
    (h : sealHpke ctx aad plaintext = .ok (ciphertext, ctx')) :
    openHpke ctx aad ciphertext = .ok (plaintext, ctx') := by
  rw [openHpke, Context.openNext_seal hlaw (orError_ok.mp h)]
  rfl

theorem sealHpke_inv {ctx ctx' : Context} {aad plaintext ciphertext : List UInt8}
    (hlaw : ctx.aead.Lawful) (h : sealHpke ctx aad plaintext = .ok (ciphertext, ctx')) :
    ciphertext.length = plaintext.length + 16 ∧ ctx'.aead.Lawful := by
  obtain ⟨rfl, hnext⟩ := Context.sealNext_inv (orError_ok.mp h)
  exact ⟨hlaw.tag _ _ _, Context.incrementNonce_aead hnext ▸ hlaw⟩

/-! ## A hello on its way -/

/-- A hello that the client has updated and the server has read, in one round of the
handshake: the first with the encapsulated key, the second without. -/
structure Sent (uconn uconn' : UConn) (inner outer : ClientHelloMsg)
    (ech ech' : EchClientContext Context) (useKey : Bool) : Prop where
  compute : computeAndUpdateOuterECHExtension sealHpke uconn inner ech useKey =
    ((uconn', ech'), .ok ())
  received : unmarshal uconn'.hello.raw = some outer
  session : uconn.hello.sessionId.length < 256
  compression : uconn.hello.compressionMethods.length < 256
  size : uconn'.hello.raw.length < 32768
  sendable : Sendable inner
  marked : inner.encryptedClientHello = [1]
  versions : inner.supportedVersions = [versionTLS13]
  once : ∀ cs configID encap payload,
    parseECHExt outer.encryptedClientHello = .ok (.outer cs configID encap payload) →
      occurrences payload (uconn'.hello.raw.drop 4) ≤ 1

/-- The client names extensions in the order of the hello before and after the update. -/
theorem Updated.transcript {S : Type}
    {sealNext : S → List UInt8 → List UInt8 → Except String (List UInt8 × S)}
    {uconn uconn' : UConn} {inner : ClientHelloMsg} {ech ech' : EchClientContext S} {useKey : Bool}
    {encoded ciphertext front back : List UInt8}
    (h : Updated sealNext uconn uconn' inner ech ech' useKey encoded ciphertext front back) :
    encodeInnerClientHelloReorderOuterExts inner ech'.config.maxNameLength.toNat
      (some (extensionsList uconn'.extensions)) = .ok encoded := by
  obtain ⟨before, old, after, ext, k, hexts, hold, -, rfl⟩ := h.exts
  obtain ⟨p, hp, hpad, hpech, hfilter⟩ := outerExtsOf_filter inner
  have hnamed : inner.outerExtsOf true (some (extensionsList
      (before.map (TlsExtension.update k) ++ old :: after.map (TlsExtension.update k)))) =
      inner.outerExtsOf true (some (extensionsList uconn.extensions)) := by
    rw [hfilter, hfilter, hexts]
    exact extensionsList_replace hp hpad hpech old old (isECH_row hold) (isECH_row hold) before
      after k
  have hmarshal := marshalExts_inner inner (extensionsList uconn.extensions)
  rw [← hnamed, ← marshalExts_inner] at hmarshal
  rw [← h.encode, h.context]
  simp only [encodeInnerClientHelloReorderOuterExts, marshalMsgReorderOuterExts, hmarshal]

/-- Only the session id and the bytes of the outer hello matter to decoding. -/
theorem decodeInnerClientHello_congr {outer outer' : ClientHelloMsg}
    (horiginal : outer.original = outer'.original) (hsession : outer.sessionId = outer'.sessionId)
    (encoded : List UInt8) :
    decodeInnerClientHello outer encoded = decodeInnerClientHello outer' encoded := by
  simp only [decodeInnerClientHello, extractRawExtensions, horiginal, hsession]

/-- What both sides have after one round. -/
structure Delivered (uconn uconn' : UConn) (inner outer m : ClientHelloMsg)
    (ech ech' : EchClientContext Context) (useKey : Bool) (encoded ciphertext : List UInt8) :
    Prop where
  parse : parseECHExt outer.encryptedClientHello = .ok (.outer ⟨ech.kdfID, ech.aeadID⟩
    ech.config.configID (if useKey then ech.encapsulatedKey else []) ciphertext)
  decrypt : decryptECHPayload ech.hpkeContext (outer.original.getD []) ciphertext =
    .ok (encoded, ech'.hpkeContext)
  decode : decodeInnerClientHello outer encoded = .ok m
  context : ech' = { ech with hpkeContext := ech'.hpkeContext }
  lawful : ech'.hpkeContext.aead.Lawful
  merged : Merged m inner outer (inner.outerExtsOf true (some (extensionsList uconn.extensions)))
  transcript : ∀ hello : ClientHelloMsg, hello.original = some uconn'.hello.raw →
    hello.sessionId = uconn.hello.sessionId → echTranscriptMsg uconn' hello inner ech' = m.marshal

theorem Sent.delivered {uconn uconn' : UConn} {inner outer : ClientHelloMsg}
    {ech ech' : EchClientContext Context} {useKey : Bool}
    (h : Sent uconn uconn' inner outer ech ech' useKey) (hlaw : ech.hpkeContext.aead.Lawful) :
    ∃ m encoded ciphertext,
      Delivered uconn uconn' inner outer m ech ech' useKey encoded ciphertext := by
  obtain ⟨encoded, ciphertext, front, back, hup⟩ := compute_updated
    (fun _ _ _ _ hseal => (sealHpke_inv hlaw hseal).1) h.compute
  obtain ⟨hlength, hlaw'⟩ := sealHpke_inv hlaw hup.sealed
  have hraw := congrArg List.length hup.raw
  simp only [List.length_drop, List.length_append] at hraw
  have hsize := h.size
  obtain ⟨horiginal, hsession, hparse, m, hdecode, hmerged⟩ := hup.received h.session h.compression
    (by omega) h.received h.sendable h.marked h.versions
  refine ⟨m, encoded, ciphertext, hparse, ?_, hdecode, hup.context, hlaw', hmerged, ?_⟩
  · have honce := h.once _ _ _ _ hparse
    rw [hup.raw] at honce
    simp only [decryptECHPayload, horiginal, Option.getD_some, hup.raw, replaceFirst_once _ honce]
    exact openHpke_seal hlaw hup.sealed
  · intro hello hhello hsid
    simp only [echTranscriptMsg, hup.transcript, bind, Except.bind,
      decodeInnerClientHello_congr (hhello.trans horiginal.symm) (hsid.trans hsession.symm), hdecode]

/-! ## Keys -/

structure Primitives.Lawful {Priv Pub : Type} (prim : Primitives Priv Pub) : Prop where
  curve : prim.curve.Lawful
  aesGCM : ∀ key aead, prim.aesGCM key = .ok aead → aead.Lawful
  chacha20poly1305 : ∀ key aead, prim.chacha20poly1305 key = .ok aead → aead.Lawful

section Keys

variable {Priv Pub : Type} {prim : Primitives Priv Pub}

theorem supportedAEAD_lawful (hprim : prim.Lawful) {aeadID : UInt16} {keySize : Nat}
    {newAead : List UInt8 → Except String Aead}
    (h : supportedAEAD prim aeadID = some (keySize, newAead)) {key : List UInt8} {aead : Aead}
    (hnew : newAead key = .ok aead) : aead.Lawful := by
  unfold supportedAEAD at h
  split at h
  next =>
    cases h
    exact hprim.aesGCM key aead hnew
  next =>
    split at h
    next =>
      cases h
      exact hprim.aesGCM key aead hnew
    next =>
      split at h
      next =>
        cases h
        exact hprim.chacha20poly1305 key aead hnew
      next => cases h

theorem newContext_lawful (hprim : prim.Lawful) {secret info : List UInt8}
    {kemID kdfID aeadID : UInt16} {ctx : Context}
    (h : newContext prim secret kemID kdfID aeadID info = .ok ctx) : ctx.aead.Lawful := by
  unfold newContext at h
  dsimp only at h
  split at h
  next => cases h
  next =>
    obtain ⟨⟨keySize, newAead⟩, haead, h⟩ := ok_of_bind h
    obtain ⟨aead, hnew, h⟩ := ok_of_bind h
    cases h
    exact supportedAEAD_lawful hprim (orError_ok.mp haead) hnew

/-- The client's side of the key exchange. -/
theorem setupECH_inv {privEph : Except String Priv} {config : EchConfig}
    {ech : EchClientContext Context} (h : setupECH (clientHpke prim privEph) config = .ok ech) :
    ech.config = config ∧ ∃ pk, parseHPKEPublicKey prim config.kemID config.publicKey = .ok pk ∧
      setupSender prim privEph config.kemID ech.kdfID ech.aeadID pk (infoPrefix ++ config.raw) =
        .ok (ech.encapsulatedKey, ech.hpkeContext) := by
  obtain ⟨pk, hpk, h⟩ := ok_of_bind h
  obtain ⟨suite, -, h⟩ := ok_of_bind h
  obtain ⟨⟨enc, ctx⟩, hsender, h⟩ := ok_of_bind h
  cases h
  exact ⟨rfl, pk, hpk, hsender⟩

theorem setupSender_kem {privEph : Except String Priv} {kemID kdfID aeadID : UInt16} {pub : Pub}
    {info : List UInt8} {r : List UInt8 × Context}
    (h : setupSender prim privEph kemID kdfID aeadID pub info = .ok r) : kemID = dhkemX25519 := by
  unfold setupSender at h
  by_contra hne
  have hkem : supportedKEMs.contains kemID = false := by
    simpa [supportedKEMs, dhkemX25519] using hne
  simp only [hkem, Bool.not_false, if_true] at h
  cases h

theorem setupSender_lawful (hprim : prim.Lawful) {privEph : Except String Priv}
    {kemID kdfID aeadID : UInt16} {pub : Pub} {info enc : List UInt8} {ctx : Context}
    (h : setupSender prim privEph kemID kdfID aeadID pub info = .ok (enc, ctx)) :
    ctx.aead.Lawful := by
  unfold setupSender at h
  split at h
  next => cases h
  next =>
    obtain ⟨⟨secret, enc'⟩, -, h⟩ := ok_of_bind h
    obtain ⟨ctx', hctx, h⟩ := ok_of_bind h
    cases h
    exact newContext_lawful hprim hctx

/-- The server's key is the one that the configuration was published for. -/
structure Holds (prim : Primitives Priv Pub) (config : EchConfig) (key : EncryptedClientHelloKey)
    (priv : Priv) : Prop where
  raw : config.raw = key.config
  parse : ∃ config', parseECHConfig key.config = .ok (false, config') ∧
    parseHPKEPrivateKey prim config'.kemID key.privateKey = .ok priv
  pair : parseHPKEPublicKey prim config.kemID config.publicKey = .ok (prim.curve.publicKey priv)

/-- A key that does not open the payload of a hello. -/
def Declines (prim : Primitives Priv Pub) (outer : ClientHelloMsg) (key : EncryptedClientHelloKey) :
    Prop :=
  ∀ cs configID encap payload,
    parseECHExt outer.encryptedClientHello = .ok (.outer cs configID encap payload) →
    ∃ config priv err, parseECHConfig key.config = .ok (false, config) ∧
      parseHPKEPrivateKey prim config.kemID key.privateKey = .ok priv ∧
      ((setupReceipient prim dhkemX25519 cs.kdfID cs.aeadID priv (infoPrefix ++ key.config)
        encap).bind fun ctx => decryptECHPayload ctx (outer.original.getD []) payload) = .error err

theorem tryKeys_skip {outer : ClientHelloMsg} {cs : EchCipher} {configID : UInt8}
    {encap payload : List UInt8}
    (hparse : parseECHExt outer.encryptedClientHello = .ok (.outer cs configID encap payload))
    {skipped : List EncryptedClientHelloKey} (hskipped : ∀ k ∈ skipped, Declines prim outer k)
    (keys : List EncryptedClientHelloKey) :
    tryKeys prim outer cs configID encap payload (skipped ++ keys) =
      tryKeys prim outer cs configID encap payload keys := by
  induction skipped with
  | nil => rfl
  | cons k skipped ih =>
    obtain ⟨config, priv, err, hconfig, hpriv, herr⟩ := hskipped k (by simp) _ _ _ _ hparse
    rw [List.cons_append, tryKeys]
    simp only [hconfig, hpriv, herr]
    exact ih fun k' hk' => hskipped k' (by simp [hk'])

/-- The first hello at the server. -/
theorem Delivered.accepted {uconn uconn' : UConn} {inner outer m : ClientHelloMsg}
    {ech ech' : EchClientContext Context} {encoded ciphertext : List UInt8}
    (h : Delivered uconn uconn' inner outer m ech ech' true encoded ciphertext)
    {privEph : Except String Priv} {config : EchConfig} {key : EncryptedClientHelloKey} {priv : Priv}
    (hprim : prim.Lawful) (hsetup : setupECH (clientHpke prim privEph) config = .ok ech)
    (hkey : Holds prim config key priv) {skipped : List EncryptedClientHelloKey}
    (hskipped : ∀ k ∈ skipped, Declines prim outer k) (more : List EncryptedClientHelloKey) :
    processECHClientHello prim (skipped ++ key :: more) outer = .ok ⟨m,
      some (.accepted ech'.hpkeContext ech.config.configID ⟨ech.kdfID, ech.aeadID⟩), true⟩ := by
  obtain ⟨-, pk, hpk, hsender⟩ := setupECH_inv hsetup
  rw [hkey.pair] at hpk
  cases hpk
  have hreceipient := setupReceipient_setupSender hprim.curve hsender
  rw [setupSender_kem hsender, hkey.raw] at hreceipient
  obtain ⟨config', hconfig, hpriv⟩ := hkey.parse
  have hparse := h.parse
  rw [if_pos rfl] at hparse
  simp only [processECHClientHello, hparse, tryKeys_skip hparse hskipped, tryKeys, hconfig, hpriv,
    hreceipient, Except.bind, h.decrypt, h.decode]

end Keys

/-- The second hello at the server. -/
theorem Delivered.accepted_again {uconn uconn' : UConn} {inner outer m : ClientHelloMsg}
    {ech ech' : EchClientContext Context} {encoded ciphertext : List UInt8}
    (h : Delivered uconn uconn' inner outer m ech ech' false encoded ciphertext) :
    secondClientHello (some (.accepted ech.hpkeContext ech.config.configID ⟨ech.kdfID, ech.aeadID⟩))
        outer =
      .ok (m, some (.accepted ech'.hpkeContext ech.config.configID ⟨ech.kdfID, ech.aeadID⟩)) := by
  have hne : outer.encryptedClientHello.length ≠ 0 := by
    intro hzero
    have hparse := h.parse
    rw [List.length_eq_zero_iff.mp hzero] at hparse
    cases hparse
  simp [secondClientHello, hne, h.parse, h.decrypt, h.decode]

/-! ## The handshake -/

/-- A server that holds the key of the configuration that the client has set up
decodes the inner hello of the first hello, and of a second one after a retry
request. Both sides put the same bytes into the transcript each time. -/
theorem handshake_accepted {Priv Pub : Type} (prim : Primitives Priv Pub) (hprim : prim.Lawful)
    (privEph : Except String Priv) (config : EchConfig) (key : EncryptedClientHelloKey) (priv : Priv)
    (skipped more : List EncryptedClientHelloKey) (uconn uconn₁ : UConn)
    (inner outer : ClientHelloMsg) (ech ech₁ : EchClientContext Context)
    (hsetup : setupECH (clientHpke prim privEph) config = .ok ech)
    (hkey : Holds prim config key priv) (hsent : Sent uconn uconn₁ inner outer ech ech₁ true)
    (hskipped : ∀ k ∈ skipped, Declines prim outer k) :
    ∃ m ctx, processECHClientHello prim (skipped ++ key :: more) outer = .ok ⟨m, some ctx, true⟩ ∧
      Merged m inner outer (inner.outerExtsOf true (some (extensionsList uconn.extensions))) ∧
      (∀ hello : ClientHelloMsg, hello.original = some uconn₁.hello.raw →
        hello.sessionId = uconn.hello.sessionId →
        echTranscriptMsg uconn₁ hello inner ech₁ = m.marshal) ∧
      ∀ uconn₂ uconn₃ inner' outer' ech₂, Sent uconn₂ uconn₃ inner' outer' ech₁ ech₂ false →
        ∃ m' ctx', secondClientHello (some ctx) outer' = .ok (m', some ctx') ∧
          Merged m' inner' outer'
            (inner'.outerExtsOf true (some (extensionsList uconn₂.extensions))) ∧
          ∀ hello : ClientHelloMsg, hello.original = some uconn₃.hello.raw →
            hello.sessionId = uconn₂.hello.sessionId →
            echTranscriptMsg uconn₃ hello inner' ech₂ = m'.marshal := by
  obtain ⟨-, pk, -, hsender⟩ := setupECH_inv hsetup
  obtain ⟨m, encoded, ciphertext, hfirst⟩ := hsent.delivered (setupSender_lawful hprim hsender)
  refine ⟨m, _, hfirst.accepted hprim hsetup hkey hskipped more, hfirst.merged, hfirst.transcript,
    fun uconn₂ uconn₃ inner' outer' ech₂ hsent' => ?_⟩
  obtain ⟨m', encoded', ciphertext', hsecond⟩ := hsent'.delivered hfirst.lawful
  have hagain := hsecond.accepted_again
  rw [hfirst.context] at hagain
  exact ⟨m', _, hagain, hsecond.merged, hsecond.transcript⟩

/-- Primitives of a single key. -/
def samplePrimitives : Primitives Unit Unit where
  curve := ⟨fun _ => .ok (), fun _ => .ok (), fun _ => (), fun _ => [9], fun _ _ => .ok [1]⟩
  hkdf := ⟨fun _ _ => [], fun _ _ n => List.replicate n 0, by simp⟩
  aesGCM _ := .ok Context.tagOnly
  chacha20poly1305 _ := .ok Context.tagOnly

def sampleUConn : UConn where
  hello := {
    vers := 0x0303
    random := List.replicate 32 7
    sessionId := [5, 6]
    cipherSuites := [0x1301]
    compressionMethods := [0]
    random_length := rfl }
  extensions := [.generic 0 [0, 4, 0, 0, 1, 0x61], .generic 51 [0, 6, 0, 29, 0, 2, 1, 2],
    .grease [], .generic 16 [0, 3, 2, 0x68, 0x32], .generic 43 [2, 3, 4],
    .padding (some boringPaddingStyle) 0 false]

def sampleEch : EchClientContext Context where
  config := sampleConfig
  hpkeContext := ⟨Context.tagOnly, List.replicate 12 0, ⟨0, 0⟩, rfl⟩
  encapsulatedKey := [9]
  kdfID := 1
  aeadID := 3

def sampleUpdate : (UConn × EchClientContext Context) × Except String Unit :=
  computeAndUpdateOuterECHExtension sealHpke sampleUConn sampleInner sampleEch true

def sampleReceived : ClientHelloMsg := (unmarshal sampleUpdate.1.1.hello.raw).getD {}

theorem sampleUpdate_ok : sampleUpdate.2 = .ok () := by
  decide +kernel

theorem sampleUpdate_compute :
    computeAndUpdateOuterECHExtension sealHpke sampleUConn sampleInner sampleEch true =
      ((sampleUpdate.1.1, sampleUpdate.1.2), .ok ()) := by
  rw [← sampleUpdate_ok, Prod.mk.eta, sampleUpdate]

theorem sampleUpdate_received : unmarshal sampleUpdate.1.1.hello.raw = some sampleReceived := by
  decide +kernel

theorem sampleUpdate_size : sampleUpdate.1.1.hello.raw.length < 32768 := by
  decide +kernel

def samplePayload : List UInt8 := (sealHpke sampleEch.hpkeContext [] (
  (encodeInnerClientHelloReorderOuterExts sampleInner 0
    (some (extensionsList sampleUConn.extensions))).toOption.getD [])).toOption.elim [] Prod.fst

theorem samplePayload_once :
    parseECHExt sampleReceived.encryptedClientHello = .ok (.outer ⟨1, 3⟩ 7 [9] samplePayload) ∧
      occurrences samplePayload (sampleUpdate.1.1.hello.raw.drop 4) = 1 := by
  decide +kernel

theorem sampleUpdate_sent : Sent sampleUConn sampleUpdate.1.1 sampleInner sampleReceived sampleEch
    sampleUpdate.1.2 true where
  compute := sampleUpdate_compute
  received := sampleUpdate_received
  session := by decide
  compression := by decide
  size := sampleUpdate_size
  sendable :=
    ⟨by decide, by decide, by decide, by decide, by decide, by decide, by decide, by decide⟩
  marked := rfl
  versions := rfl
  once := by
    intro cs configID encap payload h
    have heq := h.symm.trans samplePayload_once.1
    cases heq
    exact samplePayload_once.2.le

theorem samplePrimitives_lawful : samplePrimitives.Lawful where
  curve := ⟨fun _ => rfl, fun _ _ => rfl⟩
  aesGCM := by
    rintro key aead h
    cases h
    exact Context.tagOnly_lawful
  chacha20poly1305 := by
    rintro key aead h
    cases h
    exact Context.tagOnly_lawful

def sampleKey : EncryptedClientHelloKey := ⟨sampleConfig.raw, [1], true⟩

theorem sampleKey_holds : Holds samplePrimitives sampleConfig sampleKey () where
  raw := rfl
  parse := ⟨sampleConfig, by decide, rfl⟩
  pair := rfl

theorem sample_accepted : ∃ m ctx,
    processECHClientHello samplePrimitives [sampleKey] sampleReceived = .ok ⟨m, some ctx, true⟩ ∧
      Merged m sampleInner sampleReceived [51, 16] := by
  obtain ⟨m, ctx, haccepted, hmerged, -⟩ := handshake_accepted samplePrimitives
    samplePrimitives_lawful (.ok ()) sampleConfig sampleKey () [] [] sampleUConn sampleUpdate.1.1
    sampleInner sampleReceived sampleEch sampleUpdate.1.2 rfl sampleKey_holds sampleUpdate_sent
    (by simp)
  have hnamed : sampleInner.outerExtsOf true (some (extensionsList sampleUConn.extensions)) =
      [51, 16] := by decide +kernel
  exact ⟨m, ctx, haccepted, hnamed ▸ hmerged⟩

end SniShaper.Ech
