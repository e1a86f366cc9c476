import SniShaper.Lib.Bounds
import SniShaper.Lib.Frames

/-! Reading and parsing the first TLS record of a client (`proxy/tls_fragment.go`).

Proved here, for every byte string:

* `readInitialTLSRecord_length`: the record has five header bytes and as many
  payload bytes as its length field says;
* `parseClientHello_returns`: the parser never leaves the bounds of its input,
  its extension loop ends, and a name it reports lies inside the input, at the
  earliest at byte 58, with its length in the two bytes before it. -/

namespace SniShaper.Hello

open Bounds Frames

def tlsRecordHeaderLen : Int := 5

/-- The client's bytes: the record that `io.ReadFull` assembles and what is
left unread. `none` is a connection that ends first. -/
def readInitialTLSRecord (conn : List UInt8) : Option (List UInt8 × List UInt8) :=
  match conn with
  | t :: a :: b :: hi :: lo :: rest =>
    if be16 hi lo ≤ rest.length then
      some (t :: a :: b :: hi :: lo :: rest.take (be16 hi lo), rest.drop (be16 hi lo))
    else none
  | _ => none

/-- What `parseClientHello` returns: its five results, the error as its text. -/
structure HelloInfo where
  prtVer : List UInt8
  sniPos : Int
  sniLen : Int
  hasKeyShare : Bool
  err : Option String
  deriving DecidableEq, Repr

def HelloInfo.fail (st : HelloInfo) (msg : String) : HelloInfo := { st with err := some msg }

/-- `int(binary.BigEndian.Uint16(data[off : off+2]))` -/
def uint16At (data : List UInt8) (off : Int) : Checked Int := do
  let s ← slice data off (off + 2)
  match s with
  | [hi, lo] => pure (be16 hi lo)
  | _ => .error .outOfRange

def handshakeHeaderLen : Int := 4
def handshakeTypeClientHello : UInt8 := 0x01
def extTypeSNI : Int := 0x0000
def extTypeKeyShare : Int := 0x0033

/-- The body of the server_name branch: the first name of the list. -/
def serverName (data : List UInt8) (extDataStart extLen extDataEnd : Int) (st : HelloInfo) :
    Checked HelloInfo := do
  if extLen < 2 then return st.fail "malformed SNI extension"
  let listLen ← uint16At data extDataStart
  if listLen + 2 ≠ extLen then return st.fail "SNI list length field mismatch"
  let cursor := extDataStart + 2
  if cursor + 3 > extDataEnd then return st.fail "SNI entry too short"
  let nameType ← index data cursor
  if nameType ≠ 0 then return st.fail "unsupported SNI name type"
  let nameLen ← uint16At data (cursor + 1)
  let nameStart := cursor + 3
  let nameEnd := nameStart + nameLen
  if nameEnd > extDataEnd then return st.fail "SNI name length exceeds extension"
  return { st with sniPos := nameStart, sniLen := nameLen }

/-- The loop over the extensions block. -/
def extensionLoop (data : List UInt8) (extensionsEnd : Int) :
    Nat → Int → HelloInfo → Checked HelloInfo
  | 0, _, _ => .error .diverged
  | fuel + 1, offset, st =>
    if offset + 4 ≤ extensionsEnd then do
      let extType ← uint16At data offset
      let extLen ← uint16At data (offset + 2)
      let extDataStart := offset + 4
      let extDataEnd := extDataStart + extLen
      if extDataEnd > extensionsEnd then
        return { st with hasKeyShare := false }.fail "extension length exceeds extensions block"
      let st := if extType = extTypeKeyShare then { st with hasKeyShare := true } else st
      if extType = extTypeKeyShare ∧ st.sniPos ≠ -1 then return st
      if st.sniPos = -1 ∧ extType = extTypeSNI then
        let st ← serverName data extDataStart extLen extDataEnd st
        if st.err.isSome ∨ st.hasKeyShare then return st
        extensionLoop data extensionsEnd fuel extDataEnd st
      else extensionLoop data extensionsEnd fuel extDataEnd st
    else pure st

/-- From the compression methods on: the extensions block and its loop. -/
def parseExtensions (data : List UInt8) (offset : Int) (st : HelloInfo) : Checked HelloInfo := do
  if offset + 2 > data.length then return st
  let extTotalLen ← uint16At data offset
  let offset := offset + 2
  if offset + extTotalLen > data.length then
    return st.fail "extensions length exceeds data"
  extensionLoop data (offset + extTotalLen) (data.length + 1) offset st

/-- The cipher suites and the compression methods. -/
def parseSuites (data : List UInt8) (offset : Int) (st : HelloInfo) : Checked HelloInfo := do
  if offset + 2 > data.length then return st.fail "cannot read cipher_suites length"
  let csLen ← uint16At data offset
  let offset := offset + 2
  if offset + csLen > data.length then return st.fail "cipher_suites exceed data"
  let offset := offset + csLen
  if offset ≥ data.length then return st.fail "cannot read compression_methods length"
  let compMethodsLen ← index data offset
  let offset := offset + 1
  if offset + compMethodsLen.toNat > data.length then
    return st.fail "compression_methods exceed data"
  parseExtensions data (offset + compMethodsLen.toNat) st

/-- The message after its handshake header: version, random, session id. -/
def parseBody (data : List UInt8) (offset : Int) (st : HelloInfo) : Checked HelloInfo := do
  let prtVer ← slice data offset (offset + 2)
  let st := { st with prtVer := prtVer }
  let offset := offset + 2 + 32
  if offset ≥ data.length then return st.fail "unexpected end after Random"
  let sessionIDLen ← index data offset
  let offset := offset + 1
  if offset + sessionIDLen.toNat > data.length then
    return st.fail "session_id length exceeds data"
  parseSuites data (offset + sessionIDLen.toNat) st

/-- The handshake header at `offset`. -/
def parseHandshake (data : List UInt8) (recordLen offset : Int) (st : HelloInfo) :
    Checked HelloInfo := do
  let msgType ← index data offset
  if msgType ≠ handshakeTypeClientHello then
    return st.fail ("not a ClientHello handshake (type=" ++ toString msgType.toNat ++ ")")
  let b1 ← index data (offset + 1)
  let b2 ← index data (offset + 2)
  let b3 ← index data (offset + 3)
  let handshakeLen : Int := b1.toNat * 65536 + b2.toNat * 256 + b3.toNat
  if handshakeLen + handshakeHeaderLen > recordLen then
    return st.fail "handshake length exceeds record length"
  if handshakeLen < 2 + 32 + 1 then
    return st.fail "ClientHello too short for mandatory fields"
  parseBody data (offset + handshakeHeaderLen) st

/-- The parser, cut where the source's `offset` passes from one part of the
message to the next. -/
def parseClientHello (data : List UInt8) : Checked HelloInfo := do
  let st : HelloInfo := ⟨[], -1, 0, false, none⟩
  if (data.length : Int) < tlsRecordHeaderLen then return st.fail "TLS record too short"
  let recordLen ← uint16At data 3
  if (data.length : Int) < tlsRecordHeaderLen + recordLen then
    return st.fail "record length exceeds data size"
  if recordLen < handshakeHeaderLen then return st.fail "handshake message too short"
  parseHandshake data recordLen tlsRecordHeaderLen st

/-! ## The record -/

theorem readInitialTLSRecord_length (conn r rest : List UInt8)
    (h : readInitialTLSRecord conn = some (r, rest)) :
    ∃ t a b hi lo body, r = t :: a :: b :: hi :: lo :: body ∧ body.length = be16 hi lo := by
  unfold readInitialTLSRecord at h
  split at h
  · rename_i t a b hi lo tail
    split at h
    · rename_i hle
      simp only [Option.some.injEq, Prod.mk.injEq] at h
      exact ⟨t, a, b, hi, lo, tail.take (be16 hi lo), h.1.symm, by simp [hle]⟩
    · cases h
  · cases h

/-! ## Reading numbers -/

theorem uint16At_returns (data : List UInt8) (off : Int) (h0 : 0 ≤ off)
    (h : off + 2 ≤ data.length) : ∃ v, uint16At data off = .ok v ∧ 0 ≤ v := by
  have hs := slice_ok data off (off + 2) h0 (by omega) h
  have hl : ((data.drop off.toNat).take (off + 2 - off).toNat).length = 2 := by
    have := slice_length hs
    omega
  obtain ⟨hi, lo, hd⟩ := List.length_eq_two.mp hl
  refine ⟨be16 hi lo, ?_, by omega⟩
  rw [uint16At, hs, hd]
  rfl

/-! ## The name -/

/-- Either no name was found, or it lies in the input before `stop`, with its
length in the two bytes before it. -/
def Located (data : List UInt8) (stop : Int) (st : HelloInfo) : Prop :=
  (st.sniPos = -1 ∧ st.sniLen = 0) ∨
    (58 ≤ st.sniPos ∧ 0 ≤ st.sniLen ∧ st.sniPos + st.sniLen ≤ stop ∧
      uint16At data (st.sniPos - 2) = .ok st.sniLen)

theorem Located.mono {data : List UInt8} {stop stop' : Int} {st : HelloInfo}
    (h : Located data stop st) (hle : stop ≤ stop') : Located data stop' st := by
  rcases h with h | ⟨h1, h2, h3, h4⟩
  · exact Or.inl h
  · exact Or.inr ⟨h1, h2, by omega, h4⟩

/-- The branch reads only inside its extension, and sets the name or an error. -/
theorem serverName_returns (data : List UInt8) (start extLen : Int) (st : HelloInfo)
    (hstart : 53 ≤ start) (hend : start + extLen ≤ data.length)
    (hst : Located data (start + extLen) st) :
    ∃ st', serverName data start extLen (start + extLen) st = .ok st' ∧
      Located data (start + extLen) st' := by
  have hfail : ∀ msg, Located data (start + extLen) (st.fail msg) := fun _ => hst
  unfold serverName
  split
  · exact ⟨_, rfl, hfail _⟩
  rename_i h2
  obtain ⟨listLen, hl, hl0⟩ := uint16At_returns data start (by omega) (by omega)
  simp only [hl, bind, Except.bind]
  split
  · exact ⟨_, rfl, hfail _⟩
  split
  · exact ⟨_, rfl, hfail _⟩
  rename_i h5
  obtain ⟨nameType, hn, _⟩ := index_returns data (start + 2) (by omega) (by omega)
  simp only [hn]
  split
  · exact ⟨_, rfl, hfail _⟩
  obtain ⟨nameLen, hm, hm0⟩ := uint16At_returns data (start + 2 + 1) (by omega) (by omega)
  simp only [hm]
  split
  · exact ⟨_, rfl, hfail _⟩
  rename_i h6
  refine ⟨_, rfl, Or.inr ⟨?_, hm0, ?_, ?_⟩⟩
  · show 58 ≤ start + 2 + 3
    omega
  · show start + 2 + 3 + nameLen ≤ start + extLen
    omega
  · show uint16At data (start + 2 + 3 - 2) = .ok nameLen
    rw [← hm]
    congr 1
    omega

/-- The loop ends within its fuel and keeps the name located: every round moves
on by at least the four bytes of an extension header. -/
theorem extensionLoop_returns (data : List UInt8) (stop : Int) (hstop : stop ≤ data.length)
    (fuel : Nat) (offset : Int) (st : HelloInfo) (hoff : 49 ≤ offset) (hle : offset ≤ stop)
    (hfuel : stop - offset < 4 * fuel) (hst : Located data stop st) :
    ∃ st', extensionLoop data stop fuel offset st = .ok st' ∧ Located data stop st' := by
  induction fuel generalizing offset st with
  | zero => omega
  | succ fuel ih =>
    unfold extensionLoop
    split
    · rename_i hmore
      obtain ⟨extType, ht, _⟩ := uint16At_returns data offset (by omega) (by omega)
      obtain ⟨extLen, hl, hl0⟩ := uint16At_returns data (offset + 2) (by omega) (by omega)
      simp only [ht, hl, bind, Except.bind]
      split
      · exact ⟨_, rfl, hst⟩
      rename_i hend
      have hst' : Located data stop
          (if extType = extTypeKeyShare then { st with hasKeyShare := true } else st) := by
        split <;> exact hst
      generalize (if extType = extTypeKeyShare then { st with hasKeyShare := true } else st) = st1
        at hst' ⊢
      split
      · exact ⟨_, rfl, hst'⟩
      split
      · rename_i hfirst
        have hnone : st1.sniPos = -1 ∧ st1.sniLen = 0 := by
          rcases hst' with h | h
          · exact h
          · omega
        obtain ⟨st2, hs, hst2⟩ := serverName_returns data (offset + 4) extLen st1 (by omega)
          (by omega) (Or.inl hnone)
        simp only [hs]
        split
        · exact ⟨_, rfl, hst2.mono (by omega)⟩
        · exact ih _ _ (by omega) (by omega) (by omega) (hst2.mono (by omega))
      · exact ih _ _ (by omega) (by omega) (by omega) hst'
    · exact ⟨_, rfl, hst⟩

theorem parseExtensions_returns (data : List UInt8) (offset : Int) (st : HelloInfo)
    (hoff : 47 ≤ offset) (hst : st.sniPos = -1 ∧ st.sniLen = 0) :
    ∃ st', parseExtensions data offset st = .ok st' ∧ Located data data.length st' := by
  unfold parseExtensions
  split
  · exact ⟨_, rfl, Or.inl hst⟩
  obtain ⟨extTotalLen, ht, ht0⟩ := uint16At_returns data offset (by omega) (by omega)
  simp only [ht, bind, Except.bind]
  split
  · exact ⟨_, rfl, Or.inl hst⟩
  obtain ⟨st', hs, hl⟩ := extensionLoop_returns data (offset + 2 + extTotalLen) (by omega)
    (data.length + 1) (offset + 2) st (by omega) (by omega) (by omega) (Or.inl hst)
  exact ⟨st', hs, hl.mono (by omega)⟩

theorem parseSuites_returns (data : List UInt8) (offset : Int) (st : HelloInfo)
    (hoff : 44 ≤ offset) (hst : st.sniPos = -1 ∧ st.sniLen = 0) :
    ∃ st', parseSuites data offset st = .ok st' ∧ Located data data.length st' := by
  unfold parseSuites
  split
  · exact ⟨_, rfl, Or.inl hst⟩
  obtain ⟨csLen, hcs, hcs0⟩ := uint16At_returns data offset (by omega) (by omega)
  simp only [hcs, bind, Except.bind]
  split
  · exact ⟨_, rfl, Or.inl hst⟩
  split
  · exact ⟨_, rfl, Or.inl hst⟩
  obtain ⟨comp, hcomp, _⟩ := index_returns data (offset + 2 + csLen) (by omega) (by omega)
  simp only [hcomp]
  split
  · exact ⟨_, rfl, Or.inl hst⟩
  exact parseExtensions_returns data _ st (by omega) hst

theorem parseBody_returns (data : List UInt8) (offset : Int) (st : HelloInfo)
    (hoff : 9 ≤ offset) (hlen : offset + 2 ≤ data.length)
    (hst : st.sniPos = -1 ∧ st.sniLen = 0) :
    ∃ st', parseBody data offset st = .ok st' ∧ Located data data.length st' := by
  have hv := slice_ok data offset (offset + 2) (by omega) (by omega) hlen
  unfold parseBody
  simp only [hv, bind, Except.bind]
  split
  · exact ⟨_, rfl, Or.inl hst⟩
  obtain ⟨sid, hsid, _⟩ := index_returns data (offset + 2 + 32) (by omega) (by omega)
  simp only [hsid]
  split
  · exact ⟨_, rfl, Or.inl hst⟩
  exact parseSuites_returns data _ _ (by omega) hst

theorem parseHandshake_returns (data : List UInt8) (recordLen : Int) (st : HelloInfo)
    (h4 : 4 ≤ recordLen) (hlen : 5 + recordLen ≤ data.length)
    (hst : st.sniPos = -1 ∧ st.sniLen = 0) :
    ∃ st', parseHandshake data recordLen 5 st = .ok st' ∧ Located data data.length st' := by
  obtain ⟨msgType, hm, _⟩ := index_returns data 5 (by omega) (by omega)
  obtain ⟨b1, hb1, _⟩ := index_returns data (5 + 1) (by omega) (by omega)
  obtain ⟨b2, hb2, _⟩ := index_returns data (5 + 2) (by omega) (by omega)
  obtain ⟨b3, hb3, _⟩ := index_returns data (5 + 3) (by omega) (by omega)
  have hh : handshakeHeaderLen = 4 := rfl
  unfold parseHandshake
  simp only [hm, hb1, hb2, hb3, bind, Except.bind]
  split
  · exact ⟨_, rfl, Or.inl hst⟩
  split
  · exact ⟨_, rfl, Or.inl hst⟩
  split
  · exact ⟨_, rfl, Or.inl hst⟩
  exact parseBody_returns data _ _ (by omega) (by omega) hst

/-- **The parser is total.** No read leaves the input, the loop ends, and a name
is reported only where it lies. -/
theorem parseClientHello_returns (data : List UInt8) :
    ∃ info, parseClientHello data = .ok info ∧ Located data data.length info := by
  have ht : tlsRecordHeaderLen = 5 := rfl
  have hh : handshakeHeaderLen = 4 := rfl
  unfold parseClientHello
  simp only
  split
  · exact ⟨_, rfl, Or.inl ⟨rfl, rfl⟩⟩
  obtain ⟨recordLen, hr, _⟩ := uint16At_returns data 3 (by omega) (by omega)
  simp only [hr, bind, Except.bind]
  split
  · exact ⟨_, rfl, Or.inl ⟨rfl, rfl⟩⟩
  split
  · exact ⟨_, rfl, Or.inl ⟨rfl, rfl⟩⟩
  exact parseHandshake_returns data recordLen _ (by omega) (by omega) ⟨rfl, rfl⟩

end SniShaper.Hello
