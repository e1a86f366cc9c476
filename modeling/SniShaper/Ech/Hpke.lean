import SniShaper.Ech.Config
import Mathlib.Data.List.Nodup
import Mathlib.Data.Nat.Size

/-! Hybrid public key encryption (`internal/hpke/hpke.go`): the key exchange, the
key schedule and the numbered messages of a context.

The curve, the hash-based functions and the ciphers are parameters. A context
counts its messages in 128 bits, kept as two words; the counter is mixed into
the nonce of each message.

Proved here:

* `setupReceipient_setupSender`: over a curve on which the key exchange commutes,
  the recipient gets the sender's context from the encapsulated key;
* `nonces_nodup`: no two messages of a context are sealed under the same nonce,
  although the check of the message limit adds up the bit lengths of the words;
* `openRun_sealRun`: what one side seals the other opens, message by message. -/

namespace SniShaper.Ech

open Wire

/-! ## Counters -/

structure Uint128 where
  hi : UInt64
  lo : UInt64
  deriving DecidableEq, Repr

namespace Uint128

/-- `bits.Add64(u.lo, 1, 0)` gives the low word and the carry. -/
def addOne (u : Uint128) : Uint128 :=
  let carry : UInt64 := if u.lo.toNat + 1 < 2 ^ 64 then 0 else 1
  ⟨u.hi + carry, u.lo + 1⟩

/-- `bits.Len64`. -/
def len64 (w : UInt64) : Nat := w.toNat.size

/-- The sum of the two lengths, also when the high word is not zero. -/
def bitLen (u : Uint128) : Nat := len64 u.hi + len64 u.lo

def bytes (u : Uint128) : List UInt8 := putUint 8 u.hi.toNat ++ putUint 8 u.lo.toNat

def toNat (u : Uint128) : Nat := u.hi.toNat * 2 ^ 64 + u.lo.toNat

end Uint128

/-! ## Contexts -/

/-- `NonceSize` of every supported cipher. -/
def nonceSize : Nat := 12

structure Aead where
  encrypt : (nonce plaintext aad : List UInt8) → List UInt8
  decrypt : (nonce ciphertext aad : List UInt8) → Except String (List UInt8)

/-- A cipher that opens what it sealed, with a tag of 16 bytes. -/
structure Aead.Lawful (aead : Aead) : Prop where
  opens : ∀ nonce plaintext aad,
    aead.decrypt nonce (aead.encrypt nonce plaintext aad) aad = .ok plaintext
  tag : ∀ nonce plaintext aad, (aead.encrypt nonce plaintext aad).length = plaintext.length + 16

structure Context where
  aead : Aead
  baseNonce : List UInt8
  seqNum : Uint128 := ⟨0, 0⟩
  baseNonce_length : baseNonce.length = nonceSize

namespace Context

def nextNonce (ctx : Context) : List UInt8 :=
  List.zipWith (· ^^^ ·) (ctx.seqNum.bytes.drop (16 - nonceSize)) ctx.baseNonce

/-- `none` is the panic "message limit reached". -/
def incrementNonce (ctx : Context) : Option Context :=
  if nonceSize * 8 - 1 ≤ ctx.seqNum.bitLen then none
  else some { ctx with seqNum := ctx.seqNum.addOne }

/-- `Seal`. -/
def sealNext (ctx : Context) (aad plaintext : List UInt8) : Option (List UInt8 × Context) := do
  let ciphertext := ctx.aead.encrypt ctx.nextNonce plaintext aad
  let ctx ← ctx.incrementNonce
  return (ciphertext, ctx)

/-- `Open`; the context only moves on when the message was good. -/
def openNext (ctx : Context) (aad ciphertext : List UInt8) :
    Option (Except String (List UInt8 × Context)) :=
  match ctx.aead.decrypt ctx.nextNonce ciphertext aad with
  | .error err => some (.error err)
  | .ok plaintext => do
    let ctx ← ctx.incrementNonce
    return .ok (plaintext, ctx)

end Context

/-! ## Keys -/

/-- The functions of a curve of `crypto/ecdh`. -/
structure Curve (Priv Pub : Type) where
  newPublicKey : List UInt8 → Except String Pub
  newPrivateKey : List UInt8 → Except String Priv
  publicKey : Priv → Pub
  bytes : Pub → List UInt8
  ecdh : Priv → Pub → Except String (List UInt8)

/-- Both sides of an exchange get one value. -/
structure Curve.Lawful {Priv Pub : Type} (curve : Curve Priv Pub) : Prop where
  newPublicKey_bytes : ∀ pub, curve.newPublicKey (curve.bytes pub) = .ok pub
  ecdh_comm : ∀ a b, curve.ecdh a (curve.publicKey b) = curve.ecdh b (curve.publicKey a)

/-- `hkdf` with the hash of the one key derivation function. -/
structure Hkdf where
  extract : (ikm salt : List UInt8) → List UInt8
  expand : (key info : List UInt8) → (length : Nat) → List UInt8
  expand_length : ∀ key info length, (expand key info length).length = length

structure Primitives (Priv Pub : Type) where
  curve : Curve Priv Pub
  hkdf : Hkdf
  aesGCM : List UInt8 → Except String Aead
  chacha20poly1305 : List UInt8 → Except String Aead

def labelBytes (label : String) : List UInt8 := label.toUTF8.toList

namespace Hkdf

def labeledExtract (kdf : Hkdf) (sid salt : List UInt8) (label : String) (inputKey : List UInt8) :
    List UInt8 :=
  kdf.extract (labelBytes "HPKE-v1" ++ sid ++ labelBytes label ++ inputKey) salt

def labeledExpand (kdf : Hkdf) (suiteID randomKey : List UInt8) (label : String)
    (info : List UInt8) (length : Nat) : List UInt8 :=
  kdf.expand randomKey
    (putUint 2 length ++ labelBytes "HPKE-v1" ++ suiteID ++ labelBytes label ++ info) length

end Hkdf

def dhkemX25519 : UInt16 := 0x0020

def suiteID (kemID kdfID aeadID : UInt16) : List UInt8 :=
  labelBytes "HPKE" ++ addUint16 kemID ++ addUint16 kdfID ++ addUint16 aeadID

section Setup

variable {Priv Pub : Type} (prim : Primitives Priv Pub)

/-- The key size of a cipher, and how it is made. -/
def supportedAEAD (aeadID : UInt16) : Option (Nat × (List UInt8 → Except String Aead)) :=
  if aeadID = 0x0001 then some (16, prim.aesGCM)
  else if aeadID = 0x0002 then some (32, prim.aesGCM)
  else if aeadID = 0x0003 then some (32, prim.chacha20poly1305)
  else none

def newContext (sharedSecret : List UInt8) (kemID kdfID aeadID : UInt16) (info : List UInt8) :
    Except String Context := do
  let sid := suiteID kemID kdfID aeadID
  if !supportedKDFs.contains kdfID then throw "unsupported KDF id"
  let (keySize, newAead) ← orError "unsupported AEAD id" (supportedAEAD prim aeadID)
  let kdf := prim.hkdf
  let pskIDHash := kdf.labeledExtract sid [] "psk_id_hash" []
  let infoHash := kdf.labeledExtract sid [] "info_hash" info
  let ksContext := [0] ++ pskIDHash ++ infoHash
  let secret := kdf.labeledExtract sid sharedSecret "secret" []
  let key := kdf.labeledExpand sid secret "key" ksContext keySize
  let aead ← newAead key
  return {
    aead
    baseNonce := kdf.labeledExpand sid secret "base_nonce" ksContext nonceSize
    baseNonce_length := kdf.expand_length _ _ _ }

/-- The size of a shared secret is 32 bytes. -/
def extractAndExpand (kemID : UInt16) (dhKey kemContext : List UInt8) : List UInt8 :=
  let kemSuite := labelBytes "KEM" ++ addUint16 kemID
  let eaePRK := prim.hkdf.labeledExtract kemSuite [] "eae_prk" dhKey
  prim.hkdf.labeledExpand kemSuite eaePRK "shared_secret" kemContext 32

/-- `privEph` is what `GenerateKey` gives. -/
def encap (kemID : UInt16) (privEph : Except String Priv) (pubRecipient : Pub) :
    Except String (List UInt8 × List UInt8) := do
  let privEph ← privEph
  let dhVal ← prim.curve.ecdh privEph pubRecipient
  let encPubEph := prim.curve.bytes (prim.curve.publicKey privEph)
  let kemContext := encPubEph ++ prim.curve.bytes pubRecipient
  return (extractAndExpand prim kemID dhVal kemContext, encPubEph)

def decap (kemID : UInt16) (encPubEph : List UInt8) (secRecipient : Priv) :
    Except String (List UInt8) := do
  let pubEph ← prim.curve.newPublicKey encPubEph
  let dhVal ← prim.curve.ecdh secRecipient pubEph
  let kemContext := encPubEph ++ prim.curve.bytes (prim.curve.publicKey secRecipient)
  return extractAndExpand prim kemID dhVal kemContext

def setupSender (privEph : Except String Priv) (kemID kdfID aeadID : UInt16) (pub : Pub)
    (info : List UInt8) : Except String (List UInt8 × Context) := do
  if !supportedKEMs.contains kemID then throw "unsupported suite ID"
  let (sharedSecret, encapsulatedKey) ← encap prim kemID privEph pub
  let context ← newContext prim sharedSecret kemID kdfID aeadID info
  return (encapsulatedKey, context)

def setupReceipient (kemID kdfID aeadID : UInt16) (priv : Priv) (info encPubEph : List UInt8) :
    Except String Context := do
  if !supportedKEMs.contains kemID then throw "unsupported suite ID"
  let sharedSecret ← decap prim kemID encPubEph priv
  newContext prim sharedSecret kemID kdfID aeadID info

def parseHPKEPublicKey (kemID : UInt16) (bytes : List UInt8) : Except String Pub :=
  if !supportedKEMs.contains kemID then .error "unsupported KEM id"
  else prim.curve.newPublicKey bytes

def parseHPKEPrivateKey (kemID : UInt16) (bytes : List UInt8) : Except String Priv :=
  if !supportedKEMs.contains kemID then .error "unsupported KEM id"
  else prim.curve.newPrivateKey bytes

/-- The library as a client uses it for one connection. -/
def clientHpke (privEph : Except String Priv) : Hpke Pub Context :=
  ⟨parseHPKEPublicKey prim, setupSender prim privEph⟩

variable {prim}

/-- The recipient's context is the sender's. -/
theorem setupReceipient_setupSender (hcurve : prim.curve.Lawful) {privEph : Except String Priv}
    {kemID kdfID aeadID : UInt16} {priv : Priv} {info enc : List UInt8} {ctx : Context}
    (h : setupSender prim privEph kemID kdfID aeadID (prim.curve.publicKey priv) info =
      .ok (enc, ctx)) :
    setupReceipient prim kemID kdfID aeadID priv info enc = .ok ctx := by
  unfold setupSender at h
  by_cases hkem : supportedKEMs.contains kemID = true
  · simp only [hkem, Bool.not_true, Bool.false_eq_true, if_false] at h
    obtain ⟨⟨secret, enc'⟩, hencap, h⟩ := ok_of_bind h
    obtain ⟨ctx', hctx, h⟩ := ok_of_bind h
    cases h
    obtain ⟨eph, -, hencap⟩ := ok_of_bind hencap
    obtain ⟨dhVal, hdh, hencap⟩ := ok_of_bind hencap
    cases hencap
    have hdecap : decap prim kemID (prim.curve.bytes (prim.curve.publicKey eph)) priv =
        .ok (extractAndExpand prim kemID dhVal (prim.curve.bytes (prim.curve.publicKey eph) ++
          prim.curve.bytes (prim.curve.publicKey priv))) := by
      simp only [decap, hcurve.newPublicKey_bytes, hcurve.ecdh_comm priv eph, hdh, bind, Except.bind]
      rfl
    simp only [setupReceipient, hkem, hdecap, bind, Except.bind, Bool.not_true, Bool.false_eq_true,
      if_false]
    exact hctx
  · simp only [hkem, Bool.not_false, if_true] at h
    cases h

end Setup

/-! ## The message counter -/

namespace Uint128

theorem addOne_toNat (u : Uint128) (h : u.toNat + 1 < 2 ^ 128) : u.addOne.toNat = u.toNat + 1 := by
  have hlo := u.lo.toNat_lt
  have hhi := u.hi.toNat_lt
  unfold toNat at h ⊢
  by_cases hcarry : u.lo.toNat + 1 < 2 ^ 64
  · simp only [addOne, hcarry, if_true, UInt64.toNat_add]
    simp
    omega
  · simp only [addOne, hcarry, if_false, UInt64.toNat_add]
    simp
    omega

theorem bytes_eq (u : Uint128) : u.bytes = putUint 16 u.toNat := by
  have hlo := u.lo.toNat_lt
  have hhi : u.toNat / 256 ^ 8 = u.hi.toNat := by
    unfold toNat
    omega
  rw [putUint_add 8 8, hhi]
  exact congrArg (_ ++ ·) (putUint_mul_add 8 u.hi.toNat u.lo.toNat).symm

/-- The first count at which the limit is seen, when counting from zero. -/
def limit : Nat := 2 ^ 94 + 2 ^ 63

theorem bitLen_limit {u : Uint128} (h : u.toNat = limit) : u.bitLen = 95 := by
  have hlo := u.lo.toNat_lt
  unfold toNat limit at h
  have h1 : u.hi.toNat = 2 ^ 30 := by omega
  have h2 : u.lo.toNat = 2 ^ 63 := by omega
  rw [bitLen, len64, len64, h1, h2, Nat.size_pow, Nat.size_pow]

end Uint128

namespace Context

/-- The nonce of message number `n`. -/
def nonceAt (baseNonce : List UInt8) (n : Nat) : List UInt8 :=
  List.zipWith (· ^^^ ·) (putUint nonceSize n) baseNonce

theorem nextNonce_eq (ctx : Context) : ctx.nextNonce = nonceAt ctx.baseNonce ctx.seqNum.toNat := by
  rw [nextNonce, nonceAt, Uint128.bytes_eq, putUint_add 4 12, List.drop_left' (by simp; rfl)]
  rfl

theorem zipWith_xor_injective {as bs base : List UInt8} (ha : as.length = base.length)
    (hb : bs.length = base.length)
    (h : List.zipWith (· ^^^ ·) as base = List.zipWith (· ^^^ ·) bs base) : as = bs := by
  induction base generalizing as bs with
  | nil => rw [List.length_eq_zero_iff.mp ha, List.length_eq_zero_iff.mp hb]
  | cons c base ih =>
    obtain ⟨a, as, rfl⟩ := List.exists_cons_of_length_eq_add_one ha
    obtain ⟨b, bs, rfl⟩ := List.exists_cons_of_length_eq_add_one hb
    simp only [List.zipWith_cons_cons, List.cons.injEq, UInt8.xor_left_inj] at h
    rw [h.1, ih (by simpa using ha) (by simpa using hb) h.2]

theorem nonceAt_injOn {base : List UInt8} (hbase : base.length = nonceSize) {m n : Nat}
    (hm : m < 256 ^ nonceSize) (hn : n < 256 ^ nonceSize) (h : nonceAt base m = nonceAt base n) :
    m = n :=
  putUint_injOn hm hn (zipWith_xor_injective (by simp [hbase]) (by simp [hbase]) h)

/-- One step of the counter, which is kept at or below the limit. -/
theorem incrementNonce_inv {ctx ctx' : Context} (h : ctx.incrementNonce = some ctx')
    (hle : ctx.seqNum.toNat ≤ Uint128.limit) :
    ctx'.aead = ctx.aead ∧ ctx'.baseNonce = ctx.baseNonce ∧
      ctx'.seqNum.toNat = ctx.seqNum.toNat + 1 ∧ ctx'.seqNum.toNat ≤ Uint128.limit := by
  unfold incrementNonce at h
  split at h
  next => cases h
  next hlimit =>
    cases h
    have hne : ctx.seqNum.toNat ≠ Uint128.limit := fun heq =>
      hlimit (Uint128.bitLen_limit heq).ge
    have hnext := ctx.seqNum.addOne_toNat (by unfold Uint128.limit at hle; omega)
    exact ⟨rfl, rfl, hnext, hnext.trans_le (by omega)⟩

/-- The messages of a context, sealed one after another: nonces and ciphertexts. -/
def sealRun : Context → List (List UInt8 × List UInt8) →
    Option (List (List UInt8 × List UInt8) × Context)
  | ctx, [] => some ([], ctx)
  | ctx, (aad, plaintext) :: msgs => do
    let (ciphertext, next) ← ctx.sealNext aad plaintext
    let (out, last) ← sealRun next msgs
    return ((ctx.nextNonce, ciphertext) :: out, last)

/-- The other side, given the associated data and the ciphertexts in order. -/
def openRun : Context → List (List UInt8 × List UInt8) →
    Option (Except String (List (List UInt8) × Context))
  | ctx, [] => some (.ok ([], ctx))
  | ctx, (aad, ciphertext) :: msgs => do
    match ← ctx.openNext aad ciphertext with
    | .error err => return .error err
    | .ok (plaintext, next) =>
      let rest ← openRun next msgs
      return rest.map fun p => (plaintext :: p.1, p.2)

theorem sealNext_inv {ctx ctx' : Context} {aad plaintext ciphertext : List UInt8}
    (h : ctx.sealNext aad plaintext = some (ciphertext, ctx')) :
    ciphertext = ctx.aead.encrypt ctx.nextNonce plaintext aad ∧
      ctx.incrementNonce = some ctx' := by
  simp only [sealNext, Option.bind_eq_bind, Option.bind_eq_some_iff] at h
  obtain ⟨next, hnext, heq⟩ := h
  cases heq
  exact ⟨rfl, hnext⟩

theorem sealRun_cons {ctx last : Context} {aad plaintext : List UInt8}
    {msgs out : List (List UInt8 × List UInt8)}
    (h : sealRun ctx ((aad, plaintext) :: msgs) = some (out, last)) :
    ∃ next out', ctx.incrementNonce = some next ∧ sealRun next msgs = some (out', last) ∧
      out = (ctx.nextNonce, ctx.aead.encrypt ctx.nextNonce plaintext aad) :: out' := by
  rw [sealRun, Option.bind_eq_bind, Option.bind_eq_some_iff] at h
  obtain ⟨⟨ciphertext, next⟩, hstep, h⟩ := h
  rw [Option.bind_eq_bind, Option.bind_eq_some_iff] at h
  obtain ⟨⟨out', last'⟩, hrest, heq⟩ := h
  cases heq
  obtain ⟨rfl, hnext⟩ := sealNext_inv hstep
  exact ⟨next, out', hnext, hrest, rfl⟩

/-- A run numbers its messages from the counter on, and stays below the limit. -/
theorem sealRun_nonces {msgs out : List (List UInt8 × List UInt8)} {ctx last : Context}
    (h : sealRun ctx msgs = some (out, last)) (hle : ctx.seqNum.toNat ≤ Uint128.limit) :
    out.map Prod.fst =
        (List.range' ctx.seqNum.toNat msgs.length).map (nonceAt ctx.baseNonce) ∧
      ctx.seqNum.toNat + msgs.length ≤ Uint128.limit := by
  induction msgs generalizing ctx out with
  | nil =>
    cases h
    exact ⟨rfl, by rwa [List.length_nil, Nat.add_zero]⟩
  | cons m msgs ih =>
    obtain ⟨next, out', hnext, hrest, rfl⟩ := sealRun_cons h
    obtain ⟨-, hbase, hseq, hle'⟩ := incrementNonce_inv hnext hle
    obtain ⟨hmap, hlen⟩ := ih hrest hle'
    rw [hseq] at hmap hlen
    rw [List.map_cons, List.length_cons, List.range'_succ, List.map_cons, hmap, hbase,
      nextNonce_eq]
    exact ⟨rfl, by omega⟩

/-- No two messages of a new context are sealed under the same nonce. -/
theorem nonces_nodup (ctx last : Context) (msgs out : List (List UInt8 × List UInt8))
    (hnew : ctx.seqNum = ⟨0, 0⟩) (h : ctx.sealRun msgs = some (out, last)) :
    (out.map Prod.fst).Nodup := by
  have hzero : ctx.seqNum.toNat = 0 := by rw [hnew]; rfl
  obtain ⟨hnonces, hlen⟩ := sealRun_nonces h (by rw [hzero]; exact Nat.zero_le _)
  rw [hnonces]
  refine List.Nodup.map_on (fun m hm n hn heq => ?_) List.nodup_range'
  rw [List.mem_range'_1] at hm hn
  unfold Uint128.limit at hlen
  exact nonceAt_injOn ctx.baseNonce_length (by unfold nonceSize; omega) (by unfold nonceSize; omega)
    heq

/-- A cipher that only adds a tag. -/
def tagOnly : Aead where
  encrypt _ plaintext _ := plaintext ++ List.replicate 16 0
  decrypt _ ciphertext _ := .ok (ciphertext.take (ciphertext.length - 16))

theorem tagOnly_lawful : tagOnly.Lawful := by
  constructor <;> intros <;> simp [tagOnly]

def sampleContext : Context := ⟨tagOnly, List.replicate 12 1, ⟨0, 0⟩, rfl⟩

theorem sampleContext_seals : sampleContext.sealRun [([1], [2]), ([3], [4])] =
    some ([(List.replicate 12 1, [2] ++ List.replicate 16 0),
      (List.replicate 11 1 ++ [0], [4] ++ List.replicate 16 0)],
      ⟨tagOnly, List.replicate 12 1, ⟨0, 2⟩, rfl⟩) := by
  rfl

theorem sample_nonces : ([List.replicate 12 1, List.replicate 11 1 ++ [(0 : UInt8)]]).Nodup :=
  nonces_nodup sampleContext _ [([1], [2]), ([3], [4])] _ rfl sampleContext_seals

theorem openNext_seal {ctx ctx' : Context} (hlaw : ctx.aead.Lawful)
    {aad plaintext ciphertext : List UInt8}
    (h : ctx.sealNext aad plaintext = some (ciphertext, ctx')) :
    ctx.openNext aad ciphertext = some (.ok (plaintext, ctx')) := by
  obtain ⟨rfl, hnext⟩ := sealNext_inv h
  simp only [openNext, hlaw.opens, hnext, Option.bind_eq_bind, Option.bind_some]
  rfl

theorem incrementNonce_aead {ctx ctx' : Context} (h : ctx.incrementNonce = some ctx') :
    ctx'.aead = ctx.aead := by
  unfold incrementNonce at h
  split at h
  next => cases h
  next =>
    cases h
    rfl

/-- A recipient with the sender's context opens all that the sender seals. -/
theorem openRun_sealRun (ctx last : Context) (msgs out : List (List UInt8 × List UInt8))
    (hlaw : ctx.aead.Lawful) (h : ctx.sealRun msgs = some (out, last)) :
    ctx.openRun ((msgs.map Prod.fst).zip (out.map Prod.snd)) =
      some (.ok (msgs.map Prod.snd, last)) := by
  induction msgs generalizing ctx out with
  | nil =>
    cases h
    rfl
  | cons m msgs ih =>
    obtain ⟨next, out', hnext, hrest, rfl⟩ := sealRun_cons h
    have hopen : ctx.openNext m.1 (ctx.aead.encrypt ctx.nextNonce m.2 m.1) =
        some (.ok (m.2, next)) :=
      openNext_seal hlaw (by simp [sealNext, hnext])
    have htail := ih next out' (by rw [incrementNonce_aead hnext]; exact hlaw) hrest
    simp only [List.map_cons, List.zip_cons_cons, openRun, hopen, htail, Option.bind_eq_bind,
      Option.bind_some]
    rfl

theorem sample_opens : ∃ last,
    sampleContext.openRun [([1], [2] ++ List.replicate 16 0), ([3], [4] ++ List.replicate 16 0)] =
      some (.ok ([[2], [4]], last)) :=
  ⟨_, openRun_sealRun sampleContext _ [([1], [2]), ([3], [4])] _ tagOnly_lawful
    sampleContext_seals⟩

end Context

end SniShaper.Ech
