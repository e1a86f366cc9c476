import SniShaper.Tls.ClientHello

/-! The ClientHello that a record declares, and the name `parseClientHello` reports. The
parser checks the declared length near the start; the fields that follow are checked
against the input, so it may read past the end of the message.

* `NameHead.bytes_unique`: bytes begin in one way with a hello up to its first host name;
* `parseClientHello_reads`: the parser reports a name only at the end of such a beginning;
* `name_inside_message_iff`: so the name is inside the declared message exactly when the
  message itself begins that way. -/

namespace SniShaper.ClientHello

open Bounds Frames Hello

/-- The length that the handshake header declares, in `data[6:9]`. -/
def declaredLen (data : List UInt8) : Checked Int := do
  let b1 ← index data 6
  let b2 ← index data 7
  let b3 ← index data 8
  return b1.toNat * 65536 + b2.toNat * 256 + b3.toNat

/-- The message that is declared to have the length. -/
def declaredMessage (data : List UInt8) (len : Int) : List UInt8 := (data.drop 9).take len.toNat

/-- The beginning of a server_name extension, up to the end of its first host name. -/
def nameEntry (extLen listLen : Nat) (name : List UInt8) : List UInt8 :=
  put16 0 ++ (put16 extLen ++ (put16 listLen ++ (0 :: (put16 name.length ++ name))))

/-- The beginning of an extensions block, up to the end of its first host name. -/
structure NameBlock where
  before : List Extension
  extLen : Nat
  listLen : Nat
  name : List UInt8
  body_length : ∀ e ∈ before, e.body.length < 65536
  unnamed : ∀ e ∈ before, e.isServerName = false
  name_length : name.length < 65536

def NameBlock.bytes (b : NameBlock) : List UInt8 :=
  encodeAll b.before ++ nameEntry b.extLen b.listLen b.name

/-- The beginning of a ClientHello, up to the end of its first host name: each part is as
long as its length field says, and no server_name stands before the one that is cut off
after its name. The lengths of the block, of this extension and of its list are free. -/
structure NameHead where
  version : List UInt8
  random : List UInt8
  sessionID : List UInt8
  suites : List UInt8
  compression : List UInt8
  extTotalLen : Nat
  block : NameBlock
  version_length : version.length = 2
  random_length : random.length = 32
  sessionID_length : sessionID.length ≤ 255
  suites_length : suites.length < 65536
  compression_length : compression.length ≤ 255

def NameHead.bytes (h : NameHead) : List UInt8 :=
  h.version ++ (h.random ++ (UInt8.ofNat h.sessionID.length :: (h.sessionID ++
    (put16 h.suites.length ++ (h.suites ++ (UInt8.ofNat h.compression.length :: (h.compression ++
      (put16 h.extTotalLen ++ h.block.bytes))))))))

/-! ## One beginning -/

theorem byteField_inj {a b r r' : List UInt8} (ha : a.length ≤ 255) (hb : b.length ≤ 255)
    (h : UInt8.ofNat a.length :: (a ++ r) = UInt8.ofNat b.length :: (b ++ r')) :
    a = b ∧ r = r' := by
  obtain ⟨hlen, hrest⟩ := List.cons.inj h
  have hnat := congrArg UInt8.toNat hlen
  rw [toNat_ofNat_of_le _ ha, toNat_ofNat_of_le _ hb] at hnat
  exact List.append_inj hrest hnat

theorem put16_inj {n m : Nat} (hn : n < 65536) (hm : m < 65536) (h : put16 n = put16 m) :
    n = m := by
  have hbytes : UInt8.ofNat (n / 256) = UInt8.ofNat (m / 256) ∧ UInt8.ofNat n = UInt8.ofNat m := by
    simpa [put16] using h
  have hvalue := be16_put16 n hn
  rw [hbytes.1, hbytes.2, be16_put16 m hm] at hvalue
  exact hvalue.symm

theorem wordField_inj {a b r r' : List UInt8} (ha : a.length < 65536) (hb : b.length < 65536)
    (h : put16 a.length ++ (a ++ r) = put16 b.length ++ (b ++ r')) : a = b ∧ r = r' := by
  obtain ⟨hlen, hrest⟩ := List.append_inj h rfl
  exact List.append_inj hrest (put16_inj ha hb hlen)

theorem Extension.encode_append_inj {e e' : Extension} {r r' : List UInt8}
    (he : e.body.length < 65536) (he' : e'.body.length < 65536)
    (h : e.encode ++ r = e'.encode ++ r') : e = e' ∧ r = r' := by
  simp only [Extension.encode, List.append_assoc] at h
  obtain ⟨htype, hfield⟩ := List.append_inj h rfl
  obtain ⟨hbody, hrest⟩ := wordField_inj he he' hfield
  have hnat := put16_inj e.extType.toNat_lt e'.extType.toNat_lt htype
  refine ⟨?_, hrest⟩
  cases e
  cases e'
  simp only [Extension.mk.injEq]
  exact ⟨UInt16.toNat_inj.mp hnat, hbody⟩

/-- The type of a server_name extension ends the extensions before it. -/
theorem encodeAll_unique {exts exts' : List Extension} {r r' : List UInt8}
    (hlen : ∀ e ∈ exts, e.body.length < 65536) (hlen' : ∀ e ∈ exts', e.body.length < 65536)
    (hno : ∀ e ∈ exts, e.isServerName = false) (hno' : ∀ e ∈ exts', e.isServerName = false)
    (h : encodeAll exts ++ (put16 0 ++ r) = encodeAll exts' ++ (put16 0 ++ r')) :
    exts = exts' ∧ r = r' := by
  have hmark : ∀ (e : Extension) (exts : List Extension) {r r' : List UInt8},
      e.isServerName = false → put16 0 ++ r ≠ encodeAll (e :: exts) ++ r' := by
    intro e exts r r' he heq
    simp only [encodeAll_cons, Extension.encode, List.append_assoc] at heq
    have hzero := put16_inj (by omega) e.extType.toNat_lt (List.append_inj heq rfl).1
    have htype : (e.extType.toNat : Int) = extTypeSNI := by
      rw [← hzero]
      rfl
    rw [(isServerName_iff e).mp htype] at he
    cases he
  induction exts generalizing exts' with
  | nil =>
    cases exts' with
    | nil => exact ⟨rfl, List.append_cancel_left h⟩
    | cons e' exts' => exact absurd h (hmark e' exts' (hno' e' List.mem_cons_self))
  | cons e exts ih =>
    cases exts' with
    | nil => exact absurd h.symm (hmark e exts (hno e List.mem_cons_self))
    | cons e' exts' =>
      rw [encodeAll_cons, encodeAll_cons, List.append_assoc, List.append_assoc] at h
      obtain ⟨rfl, hrest⟩ := Extension.encode_append_inj (hlen e List.mem_cons_self)
        (hlen' e' List.mem_cons_self) h
      obtain ⟨rfl, hr⟩ := ih (fun x hx => hlen x (List.mem_cons_of_mem _ hx))
        (fun x hx => hlen' x (List.mem_cons_of_mem _ hx))
        (fun x hx => hno x (List.mem_cons_of_mem _ hx))
        (fun x hx => hno' x (List.mem_cons_of_mem _ hx)) hrest
      exact ⟨rfl, hr⟩

theorem NameBlock.bytes_unique {b b' : NameBlock} {r r' : List UInt8}
    (heq : b.bytes ++ r = b'.bytes ++ r') : b.bytes = b'.bytes := by
  simp only [NameBlock.bytes, nameEntry, List.append_assoc, List.cons_append] at heq ⊢
  obtain ⟨hbefore, heq⟩ := encodeAll_unique b.body_length b'.body_length b.unnamed b'.unnamed heq
  obtain ⟨hext, heq⟩ := List.append_inj heq rfl
  obtain ⟨hlist, heq⟩ := List.append_inj heq rfl
  obtain ⟨hname, -⟩ := wordField_inj b.name_length b'.name_length (List.cons.inj heq).2
  rw [hbefore, hext, hlist, hname]

theorem NameHead.bytes_unique {h h' : NameHead} {r r' : List UInt8}
    (heq : h.bytes ++ r = h'.bytes ++ r') : h.bytes = h'.bytes := by
  simp only [NameHead.bytes, List.append_assoc, List.cons_append] at heq ⊢
  obtain ⟨hversion, heq⟩ := List.append_inj heq (by rw [h.version_length, h'.version_length])
  obtain ⟨hrandom, heq⟩ := List.append_inj heq (by rw [h.random_length, h'.random_length])
  obtain ⟨hsession, heq⟩ := byteField_inj h.sessionID_length h'.sessionID_length heq
  obtain ⟨hsuites, heq⟩ := wordField_inj h.suites_length h'.suites_length heq
  obtain ⟨hcompression, heq⟩ := byteField_inj h.compression_length h'.compression_length heq
  obtain ⟨htotal, heq⟩ := List.append_inj heq rfl
  rw [hversion, hrandom, hsession, hsuites, hcompression, htotal, NameBlock.bytes_unique heq]

/-! ## What the parser has read -/

theorem uint16At_lt {data : List UInt8} {off v : Int} (h : uint16At data off = .ok v) :
    0 ≤ v ∧ v < 65536 := by
  unfold uint16At at h
  cases hs : slice data off (off + 2) with
  | error f => simp [hs, bind, Except.bind] at h
  | ok s =>
    simp only [hs, bind, Except.bind] at h
    split at h
    · rename_i hi lo
      obtain rfl := Except.ok.inj h
      have := be16_lt hi lo
      omega
    · cases h

/-- A field inside the input, of a given length. -/
theorem slice_field (data : List UInt8) (off n : Int) (h0 : 0 ≤ off) (hn : 0 ≤ n)
    (h : off + n ≤ data.length) :
    ∃ field, slice data off (off + n) = .ok field ∧ field.length = n.toNat := by
  have hs := slice_ok data off (off + n) h0 (by omega) h
  exact ⟨_, hs, by have := slice_length hs; omega⟩

theorem fail_ne (st : HelloInfo) (msg : String) {st' : HelloInfo} (herr : st'.err = none) :
    (Except.ok (st.fail msg) : Checked HelloInfo) ≠ .ok st' := by
  intro heq
  obtain rfl := Except.ok.inj heq
  cases herr

/-- The branch that succeeds has read the length of the list and its first name. -/
theorem serverName_reads {data : List UInt8} {start extLen stop : Int} {st st' : HelloInfo}
    (h : serverName data start extLen stop st = .ok st') (herr : st'.err = none)
    (hstart : 0 ≤ start) (hstop : stop ≤ data.length) :
    st'.sniPos ≠ -1 ∧ ∃ (listLen : Nat) (name : List UInt8), name.length < 65536 ∧
      slice data start (st'.sniPos + st'.sniLen) =
        .ok (put16 listLen ++ (0 :: (put16 name.length ++ name))) := by
  unfold serverName at h
  split at h
  · exact absurd h (fail_ne _ _ herr)
  obtain ⟨listLen, hlist, h⟩ := bind_eq_ok h
  simp only at h
  split at h
  · exact absurd h (fail_ne _ _ herr)
  split at h
  · exact absurd h (fail_ne _ _ herr)
  obtain ⟨nameType, htype, h⟩ := bind_eq_ok h
  split at h
  · exact absurd h (fail_ne _ _ herr)
  rename_i hzero
  obtain rfl : nameType = 0 := by simpa using hzero
  obtain ⟨nameLen, hname, h⟩ := bind_eq_ok h
  split at h
  · exact absurd h (fail_ne _ _ herr)
  obtain rfl := Except.ok.inj h
  obtain ⟨hn0, hnlt⟩ := uint16At_lt hname
  obtain ⟨name, hfield, hlen⟩ :=
    slice_field data (start + 2 + 1 + 2) nameLen (by omega) hn0 (by omega)
  have hread := slice_concat (slice_of_uint16At hlist) (slice_concat (slice_of_index htype)
    (slice_concat (slice_of_uint16At hname) hfield))
  refine ⟨by simp only; omega, listLen.toNat, name, by omega, ?_⟩
  rw [← hlen, show start + 2 + 1 + 2 = start + 2 + 3 by omega] at hread
  exact hread

/-- One pass of the loop: there is no room for another extension, or it visits one. -/
theorem extensionLoop_pass {data : List UInt8} {stop offset : Int} {fuel : Nat}
    {st st' : HelloInfo} (h : extensionLoop data stop (fuel + 1) offset st = .ok st')
    (herr : st'.err = none) (h0 : 0 ≤ offset) (hstop : stop ≤ data.length) :
    st' = st ∨ ∃ e : Extension, e.body.length < 65536 ∧ offset + 4 + e.body.length ≤ stop ∧
      slice data offset (offset + 4 + e.body.length) = .ok e.encode ∧
      visit data stop fuel offset e st = .ok st' := by
  have hloop := h
  unfold extensionLoop at h
  split at h
  · obtain ⟨extType, htype, h⟩ := bind_eq_ok h
    obtain ⟨extLen, hext, h⟩ := bind_eq_ok h
    simp only at h
    split at h
    · exact absurd h (fail_ne _ _ herr)
    rename_i hroom
    obtain ⟨ht0, htlt⟩ := uint16At_lt htype
    obtain ⟨hx0, hxlt⟩ := uint16At_lt hext
    obtain ⟨body, hbody, hlen⟩ :=
      slice_field data (offset + 2 + 2) extLen (by omega) hx0 (by omega)
    have hread := slice_concat (slice_of_uint16At htype)
      (slice_concat (slice_of_uint16At hext) hbody)
    let e : Extension := ⟨UInt16.ofNat extType.toNat, body⟩
    have hcode : e.encode = put16 extType.toNat ++ (put16 extLen.toNat ++ body) := by
      simp only [e, Extension.encode, hlen, UInt16.toNat_ofNat']
      rw [Nat.mod_eq_of_lt (by omega)]
    have hend : offset + 2 + 2 + extLen = offset + 4 + (e.body.length : Int) := by
      simp only [e, hlen]
      omega
    rw [← hcode, hend] at hread
    obtain ⟨pre, post, hdata, hpre⟩ := slice_split hread
    have hsmall : e.body.length < 65536 := by
      simp only [e, hlen]
      omega
    refine .inr ⟨e, hsmall, by omega, hread, ?_⟩
    rw [← extensionLoop_visit data pre post e stop offset fuel st hdata hpre hsmall (by omega)]
    exact hloop
  · exact .inl (Except.ok.inj h).symm

/-- Once there is a name the loop keeps it. -/
theorem extensionLoop_keeps {data : List UInt8} {stop : Int} (fuel : Nat) {offset : Int}
    {st st' : HelloInfo} (h : extensionLoop data stop fuel offset st = .ok st')
    (herr : st'.err = none) (h0 : 0 ≤ offset) (hstop : stop ≤ data.length)
    (hst : st.sniPos ≠ -1) : st'.sniPos = st.sniPos ∧ st'.sniLen = st.sniLen := by
  induction fuel generalizing offset st with
  | zero => cases h
  | succ fuel ih =>
    rcases extensionLoop_pass h herr h0 hstop with rfl | ⟨e, -, -, -, hvisit⟩
    · exact ⟨rfl, rfl⟩
    · simp only [visit, hst, ne_eq, not_false_eq_true, and_true, false_and, if_false] at hvisit
      split at hvisit
      · obtain rfl := Except.ok.inj hvisit
        exact ⟨rfl, rfl⟩
      · have hkept := ih hvisit (by omega) hst
        exact hkept

/-- A loop that starts without a name and ends with one has read the extensions before the
server_name and the name. -/
theorem extensionLoop_reads {data : List UInt8} {stop : Int} (fuel : Nat) {offset : Int}
    {st st' : HelloInfo} (h : extensionLoop data stop fuel offset st = .ok st')
    (herr : st'.err = none) (h0 : 0 ≤ offset) (hstop : stop ≤ data.length)
    (hst : st.sniPos = -1) (hpos : st'.sniPos ≠ -1) :
    ∃ b : NameBlock, slice data offset (st'.sniPos + st'.sniLen) = .ok b.bytes := by
  induction fuel generalizing offset st with
  | zero => cases h
  | succ fuel ih =>
    rcases extensionLoop_pass h herr h0 hstop with rfl | ⟨e, hlen, hroom, hread, hvisit⟩
    · exact absurd hst hpos
    simp only [visit, hst, ne_eq, not_true_eq_false, and_false, if_false, true_and] at hvisit
    split at hvisit
    · rename_i hname
      obtain ⟨named, hserver, hvisit⟩ := bind_eq_ok hvisit
      have hkept : named.err = none ∧ st'.sniPos = named.sniPos ∧ st'.sniLen = named.sniLen := by
        split at hvisit
        · obtain rfl := Except.ok.inj hvisit
          exact ⟨herr, rfl, rfl⟩
        · rename_i hgo
          have hnone : named.err = none := by simpa using (not_or.mp hgo).1
          obtain ⟨hfound, -⟩ := serverName_reads hserver hnone (by omega) (by omega)
          exact ⟨hnone, extensionLoop_keeps fuel hvisit herr (by omega) hstop hfound⟩
      obtain ⟨hnone, hsame, hsame'⟩ := hkept
      obtain ⟨-, listLen, name, hshort, hlist⟩ :=
        serverName_reads hserver hnone (by omega) (by omega)
      have hzero : e.extType.toNat = 0 := congrArg UInt16.toNat (beq_iff_eq.mp hname)
      rw [Extension.encode, hzero, ← List.append_assoc] at hread
      have hhead := slice_left hread
      refine ⟨⟨[], e.body.length, listLen, name, by simp, by simp, hshort⟩, ?_⟩
      rw [hsame, hsame', slice_concat hhead hlist]
      simp [NameBlock.bytes, nameEntry, encodeAll]
    · rename_i hname
      obtain ⟨b, hb⟩ := ih hvisit (by omega) rfl
      refine ⟨{ b with
        before := e :: b.before
        body_length := List.forall_mem_cons.mpr ⟨hlen, b.body_length⟩
        unnamed := List.forall_mem_cons.mpr ⟨by simpa using hname, b.unnamed⟩ }, ?_⟩
      rw [slice_concat hread hb, NameBlock.bytes, NameBlock.bytes, encodeAll_cons, List.append_assoc]

theorem parseExtensions_reads {data : List UInt8} {offset : Int} {st st' : HelloInfo}
    (h : parseExtensions data offset st = .ok st') (herr : st'.err = none) (h0 : 0 ≤ offset)
    (hst : st.sniPos = -1) (hpos : st'.sniPos ≠ -1) :
    ∃ (extTotalLen : Nat) (b : NameBlock),
      slice data offset (st'.sniPos + st'.sniLen) = .ok (put16 extTotalLen ++ b.bytes) := by
  unfold parseExtensions at h
  split at h
  · obtain rfl := Except.ok.inj h
    exact absurd hst hpos
  obtain ⟨total, htotal, h⟩ := bind_eq_ok h
  simp only at h
  split at h
  · exact absurd h (fail_ne _ _ herr)
  obtain ⟨b, hb⟩ := extensionLoop_reads _ h herr (by omega) (by omega) hst hpos
  exact ⟨total.toNat, b, slice_concat (slice_of_uint16At htotal) hb⟩

theorem parseSuites_reads {data : List UInt8} {offset : Int} {st st' : HelloInfo}
    (h : parseSuites data offset st = .ok st') (herr : st'.err = none) (h0 : 0 ≤ offset)
    (hst : st.sniPos = -1) (hpos : st'.sniPos ≠ -1) :
    ∃ (suites compression : List UInt8) (extTotalLen : Nat) (b : NameBlock),
      suites.length < 65536 ∧ compression.length ≤ 255 ∧
      slice data offset (st'.sniPos + st'.sniLen) =
        .ok (put16 suites.length ++ (suites ++ (UInt8.ofNat compression.length :: (compression ++
          (put16 extTotalLen ++ b.bytes))))) := by
  unfold parseSuites at h
  split at h
  · exact absurd h (fail_ne _ _ herr)
  obtain ⟨csLen, hcs, h⟩ := bind_eq_ok h
  simp only at h
  split at h
  · exact absurd h (fail_ne _ _ herr)
  split at h
  · exact absurd h (fail_ne _ _ herr)
  obtain ⟨compLen, hcomp, h⟩ := bind_eq_ok h
  split at h
  · exact absurd h (fail_ne _ _ herr)
  obtain ⟨hcs0, hcslt⟩ := uint16At_lt hcs
  have hcomplt := compLen.toNat_lt
  obtain ⟨suites, hsuites, hslen⟩ := slice_field data (offset + 2) csLen (by omega) hcs0 (by omega)
  obtain ⟨compression, hcompression, hclen⟩ :=
    slice_field data (offset + 2 + csLen + 1) compLen.toNat (by omega) (by omega) (by omega)
  obtain ⟨total, b, hblock⟩ := parseExtensions_reads h herr (by omega) hst hpos
  refine ⟨suites, compression, total, b, by omega, by omega, ?_⟩
  rw [hslen, hclen, Int.toNat_natCast, UInt8.ofNat_toNat]
  exact slice_concat (slice_of_uint16At hcs) (slice_concat hsuites
    (slice_concat (slice_of_index hcomp) (slice_concat hcompression hblock)))

theorem parseBody_reads {data : List UInt8} {offset : Int} {st st' : HelloInfo}
    (h : parseBody data offset st = .ok st') (herr : st'.err = none) (h0 : 0 ≤ offset)
    (hst : st.sniPos = -1) (hpos : st'.sniPos ≠ -1) :
    ∃ hd : NameHead, slice data offset (st'.sniPos + st'.sniLen) = .ok hd.bytes := by
  unfold parseBody at h
  obtain ⟨version, hversion, h⟩ := bind_eq_ok h
  simp only at h
  split at h
  · exact absurd h (fail_ne _ _ herr)
  obtain ⟨sidLen, hsid, h⟩ := bind_eq_ok h
  split at h
  · exact absurd h (fail_ne _ _ herr)
  have hsidlt := sidLen.toNat_lt
  have hvlen := slice_length hversion
  obtain ⟨random, hrandom, hrlen⟩ := slice_field data (offset + 2) 32 (by omega) (by omega) (by omega)
  obtain ⟨session, hsession, hslen⟩ :=
    slice_field data (offset + 2 + 32 + 1) sidLen.toNat (by omega) (by omega) (by omega)
  obtain ⟨suites, compression, total, b, hsuites, hcomp, hrest⟩ :=
    parseSuites_reads h herr (by omega) hst hpos
  refine ⟨⟨version, random, session, suites, compression, total, b, by omega, hrlen, by omega,
    hsuites, hcomp⟩, ?_⟩
  simp only [NameHead.bytes]
  rw [hslen, Int.toNat_natCast, UInt8.ofNat_toNat]
  exact slice_concat hversion (slice_concat hrandom (slice_concat (slice_of_index hsid)
    (slice_concat hsession hrest)))

/-- The handshake header has been read too when there is a name. -/
theorem parseHandshake_reads {data : List UInt8} {recordLen offset : Int} {st st' : HelloInfo}
    (h : parseHandshake data recordLen offset st = .ok st') (herr : st'.err = none)
    (h0 : 0 ≤ offset) (hst : st.sniPos = -1) (hpos : st'.sniPos ≠ -1) :
    ∃ hd : NameHead, slice data (offset + 4) (st'.sniPos + st'.sniLen) = .ok hd.bytes := by
  unfold parseHandshake at h
  obtain ⟨msgType, -, h⟩ := bind_eq_ok h
  split at h
  · exact absurd h (fail_ne _ _ herr)
  obtain ⟨b1, -, h⟩ := bind_eq_ok h
  obtain ⟨b2, -, h⟩ := bind_eq_ok h
  obtain ⟨b3, -, h⟩ := bind_eq_ok h
  simp only at h
  split at h
  · exact absurd h (fail_ne _ _ herr)
  split at h
  · exact absurd h (fail_ne _ _ herr)
  exact parseBody_reads h herr (by have : handshakeHeaderLen = 4 := rfl; omega) hst hpos

/-- **A reported name ends a hello's beginning**, which starts behind the handshake header. -/
theorem parseClientHello_reads {data : List UInt8} {info : HelloInfo}
    (h : parseClientHello data = .ok info) (herr : info.err = none) (hpos : 0 < info.sniPos) :
    ∃ hd : NameHead, slice data 9 (info.sniPos + info.sniLen) = .ok hd.bytes := by
  unfold parseClientHello at h
  simp only at h
  split at h
  · exact absurd h (fail_ne _ _ herr)
  obtain ⟨recordLen, -, h⟩ := bind_eq_ok h
  split at h
  · exact absurd h (fail_ne _ _ herr)
  split at h
  · exact absurd h (fail_ne _ _ herr)
  exact parseHandshake_reads h herr (by decide) rfl (by omega)

/-! ## The declared message -/

theorem declaredLen_returns (data : List UInt8) (h : 9 ≤ data.length) :
    ∃ len, declaredLen data = .ok len ∧ 0 ≤ len := by
  obtain ⟨b1, hb1, _⟩ := index_returns data 6 (by omega) (by omega)
  obtain ⟨b2, hb2, _⟩ := index_returns data 7 (by omega) (by omega)
  obtain ⟨b3, hb3, _⟩ := index_returns data 8 (by omega) (by omega)
  simp only [declaredLen, hb1, hb2, hb3, bind, Except.bind]
  exact ⟨_, rfl, by omega⟩

/-- **The name is inside the message exactly when the message has it.** Without an error,
a reported name ends inside the declared message if and only if the declared message begins
with a hello up to its first host name. -/
theorem name_inside_message_iff (data : List UInt8) (info : HelloInfo)
    (hp : parseClientHello data = .ok info) (herr : info.err = none) (hpos : 0 < info.sniPos) :
    ∃ len, declaredLen data = .ok len ∧
      (info.sniPos + info.sniLen ≤ 9 + len ↔
        ∃ hd : NameHead, hd.bytes <+: declaredMessage data len) := by
  obtain ⟨hd, hread⟩ := parseClientHello_reads hp herr hpos
  obtain ⟨⟨-, hstart, hend⟩, hbytes⟩ := (slice_eq_ok_iff data 9 _ _).mp hread
  have hlen := slice_length hread
  obtain ⟨len, hdecl, hlen0⟩ := declaredLen_returns data (by omega)
  have hall : hd.bytes <+: data.drop 9 := by
    rw [hbytes]
    exact List.take_prefix _ _
  refine ⟨len, hdecl, ?_, ?_⟩
  · intro hin
    refine ⟨hd, ?_⟩
    rw [hbytes]
    exact List.take_prefix_take_left (by omega)
  · rintro ⟨hd', hmsg⟩
    -- both beginnings are prefixes of the bytes behind the header, so they are the same
    have hall' : hd'.bytes <+: data.drop 9 := hmsg.trans (List.take_prefix _ _)
    obtain ⟨r, hr⟩ := hall
    obtain ⟨r', hr'⟩ := hall'
    have hsame := NameHead.bytes_unique (hr.trans hr'.symm)
    have hle := hmsg.length_le
    rw [declaredMessage, List.length_take, ← hsame] at hle
    omega

/-- A record with an empty session id, no suites, the name `a.b` and an empty key share
behind it; the header declares `len` bytes for the message, of which there are 56. -/
def declaring (len : UInt8) : List UInt8 :=
  [22, 3, 1, 0, 60, 1, 0, 0, len, 3, 3] ++ List.replicate 32 8 ++
    [0, 0, 0, 0, 0, 16, 0, 0, 0, 8, 0, 6, 0, 0, 3, 97, 46, 98, 0, 51, 0, 0]

/-- The beginning of these messages. -/
def declaringHead : NameHead where
  version := [3, 3]
  random := List.replicate 32 8
  sessionID := []
  suites := []
  compression := []
  extTotalLen := 16
  block := ⟨[], 8, 6, [97, 46, 98], by simp, by simp, by decide⟩
  version_length := rfl
  random_length := rfl
  sessionID_length := by decide
  suites_length := by decide
  compression_length := by decide

/-- A declared message that ends with the name, before the key share, is long enough. -/
theorem declaring_name_inside :
    ∃ info, parseClientHello (declaring 52) = .ok info ∧ info.err = none ∧ 0 < info.sniPos ∧
      info.sniPos + info.sniLen ≤ 9 + 52 := by
  have hp : parseClientHello (declaring 52) = .ok ⟨[3, 3], 58, 3, true, none⟩ := by decide +kernel
  obtain ⟨len, hlen, hiff⟩ := name_inside_message_iff _ _ hp rfl (by decide)
  obtain rfl : len = 52 := by
    have : declaredLen (declaring 52) = .ok 52 := by decide +kernel
    exact Except.ok.inj (hlen.symm.trans this)
  exact ⟨_, hp, rfl, by decide, hiff.mpr ⟨declaringHead, by decide +kernel⟩⟩

/-- One that ends with the session id is read all the same: the name is outside it. -/
theorem declaring_short_outside :
    ∃ info, parseClientHello (declaring 35) = .ok info ∧ info.err = none ∧ 0 < info.sniPos ∧
      declaredLen (declaring 35) = .ok 35 ∧ ¬ info.sniPos + info.sniLen ≤ 9 + 35 :=
  ⟨⟨[3, 3], 58, 3, true, none⟩, by decide +kernel, rfl, by decide, by decide +kernel, by decide⟩

end SniShaper.ClientHello
