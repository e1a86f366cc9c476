import SniShaper.Tls.Hello

/-! ClientHello messages as structures, and what `parseClientHello` makes of them.

* `parseClientHello_finds`: in every well-formed message that fills one record
  the parser finds the version, the first host name and the key share;
* `parseClientHello_total`: on any bytes at all it returns, and a name it
  reports has its length in the two bytes before it. -/

namespace SniShaper.ClientHello

open Bounds Frames Hello

/-! ## Messages -/

/-- The three bytes of a handshake length. -/
def put24 (n : Nat) : List UInt8 :=
  [UInt8.ofNat (n / 65536), UInt8.ofNat (n / 256), UInt8.ofNat n]

structure Extension where
  extType : UInt16
  body : List UInt8
  deriving DecidableEq, Repr

def Extension.encode (e : Extension) : List UInt8 :=
  put16 e.extType.toNat ++ (put16 e.body.length ++ e.body)

def Extension.isServerName (e : Extension) : Bool := e.extType == 0x0000

def Extension.isKeyShare (e : Extension) : Bool := e.extType == 0x0033

/-- A server_name list that starts with a host_name entry for `name`. -/
def nameList (name more : List UInt8) : List UInt8 :=
  put16 (3 + name.length + more.length) ++ (0 :: (put16 name.length ++ (name ++ more)))

def encodeAll (exts : List Extension) : List UInt8 := exts.flatMap Extension.encode

/-- The extensions block, which a message may lack. -/
def encodeBlock : Option (List Extension) → List UInt8
  | none => []
  | some exts => put16 (encodeAll exts).length ++ encodeAll exts

def encodeSuites (suites compression : List UInt8) (extensions : Option (List Extension)) :
    List UInt8 :=
  put16 suites.length ++
    (suites ++ (UInt8.ofNat compression.length :: (compression ++ encodeBlock extensions)))

def encodeBody (version random sessionID suites compression : List UInt8)
    (extensions : Option (List Extension)) : List UInt8 :=
  version ++ (random ++ (UInt8.ofNat sessionID.length ::
    (sessionID ++ encodeSuites suites compression extensions)))

/-- A well-formed ClientHello: every part fits its length field, the first
server_name extension holds a host name, and the message fits one record. -/
structure Message where
  version : List UInt8
  random : List UInt8
  sessionID : List UInt8
  suites : List UInt8
  compression : List UInt8
  extensions : Option (List Extension)
  version_length : version.length = 2
  random_length : random.length = 32
  sessionID_length : sessionID.length ≤ 255
  compression_length : compression.length ≤ 255
  named : ∀ e, (extensions.getD []).find? Extension.isServerName = some e →
    ∃ name more, e.body = nameList name more
  fits : 4 + (encodeBody version random sessionID suites compression extensions).length < 65536

namespace Message

variable (m : Message)

def body : List UInt8 :=
  encodeBody m.version m.random m.sessionID m.suites m.compression m.extensions

/-- The message as one handshake record of the version `major.minor`. -/
def record (major minor : UInt8) : List UInt8 :=
  [22, major, minor] ++ (put16 (4 + m.body.length) ++ (1 :: (put24 m.body.length ++ m.body)))

/-- Where the first extension stands in the record. -/
def extensionsStart : Nat :=
  5 + 4 + (2 + 32 + 1 + m.sessionID.length) + (2 + m.suites.length) +
    (1 + m.compression.length) + 2

end Message

/-! ## Reading what was written -/

theorem uint16At_append (pre : List UInt8) (n : Nat) (post : List UInt8) (off : Int)
    (hn : n < 65536) (hoff : off = pre.length) :
    uint16At (pre ++ (put16 n ++ post)) off = .ok n := by
  have hs := slice_append pre (put16 n) post off (off + 2) hoff (by rw [put16_length]; omega)
  rw [uint16At, hs]
  show Except.ok (be16 (UInt8.ofNat (n / 256)) (UInt8.ofNat n) : Int) = _
  rw [be16_put16 n hn]

theorem toNat_ofNat_of_le (n : Nat) (h : n ≤ 255) : (UInt8.ofNat n).toNat = n := by
  rw [UInt8.toNat_ofNat']
  omega

theorem put24_value (n : Nat) (h : n < 16777216) :
    ((UInt8.ofNat (n / 65536)).toNat : Int) * 65536 + (UInt8.ofNat (n / 256)).toNat * 256 +
      (UInt8.ofNat n).toNat = n := by
  simp only [UInt8.toNat_ofNat']
  omega

theorem Extension.encode_length (e : Extension) : e.encode.length = 4 + e.body.length := by
  simp only [Extension.encode, List.length_append, put16_length]
  omega

theorem nameList_length (name more : List UInt8) :
    (nameList name more).length = 5 + name.length + more.length := by
  simp only [nameList, List.length_append, List.length_cons, put16_length]
  omega

theorem encodeAll_cons (e : Extension) (exts : List Extension) :
    encodeAll (e :: exts) = e.encode ++ encodeAll exts := rfl

theorem encodeAll_append (exts exts' : List Extension) :
    encodeAll (exts ++ exts') = encodeAll exts ++ encodeAll exts' := List.flatMap_append

theorem length_le_encodeAll (exts : List Extension) : exts.length ≤ (encodeAll exts).length := by
  induction exts with
  | nil => simp
  | cons e exts ih =>
    rw [encodeAll_cons, List.length_append, e.encode_length, List.length_cons]
    omega

/-! ## The extensions -/

theorem isServerName_iff (e : Extension) :
    (e.extType.toNat : Int) = extTypeSNI ↔ e.isServerName = true := by
  rw [Extension.isServerName, beq_iff_eq, ← UInt16.toNat_inj]
  show (e.extType.toNat : Int) = 0 ↔ e.extType.toNat = 0
  omega

theorem isKeyShare_iff (e : Extension) :
    (e.extType.toNat : Int) = extTypeKeyShare ↔ e.isKeyShare = true := by
  rw [Extension.isKeyShare, beq_iff_eq, ← UInt16.toNat_inj]
  show (e.extType.toNat : Int) = 51 ↔ e.extType.toNat = 51
  omega

theorem not_isKeyShare (e : Extension) (he : e.isServerName = true) : e.isKeyShare = false := by
  have hz : e.extType = 0x0000 := beq_iff_eq.mp he
  simp [Extension.isKeyShare, hz]

/-- What the loop does with one extension that lies inside the block. -/
def visit (data : List UInt8) (stop : Int) (fuel : Nat) (start : Int) (e : Extension)
    (st : HelloInfo) : Checked HelloInfo :=
  let st := { st with hasKeyShare := st.hasKeyShare || e.isKeyShare }
  if e.isKeyShare ∧ st.sniPos ≠ -1 then .ok st
  else if st.sniPos = -1 ∧ e.isServerName then do
    let st ← serverName data (start + 4) e.body.length (start + 4 + e.body.length) st
    if st.err.isSome ∨ st.hasKeyShare then return st
    extensionLoop data stop fuel (start + 4 + e.body.length) st
  else extensionLoop data stop fuel (start + 4 + e.body.length) st

theorem extensionLoop_visit (data pre post : List UInt8) (e : Extension) (stop start : Int)
    (fuel : Nat) (st : HelloInfo) (hdata : data = pre ++ (e.encode ++ post))
    (hstart : start = pre.length) (hlen : e.body.length < 65536)
    (hstop : start + 4 + e.body.length ≤ stop) :
    extensionLoop data stop (fuel + 1) start st = visit data stop fuel start e st := by
  have htype : uint16At data start = .ok e.extType.toNat := by
    rw [hdata, Extension.encode, List.append_assoc]
    exact uint16At_append pre _ _ start e.extType.toNat_lt hstart
  have hbody : uint16At data (start + 2) = .ok e.body.length := by
    have happ : data =
        (pre ++ put16 e.extType.toNat) ++ (put16 e.body.length ++ (e.body ++ post)) := by
      simp [hdata, Extension.encode]
    rw [happ]
    apply uint16At_append _ _ _ _ hlen
    rw [List.length_append, put16_length]
    omega
  have hkey : (if (e.extType.toNat : Int) = extTypeKeyShare then
      { st with hasKeyShare := true } else st) =
      { st with hasKeyShare := st.hasKeyShare || e.isKeyShare } := by
    cases hk : e.isKeyShare with
    | true => rw [if_pos ((isKeyShare_iff e).mpr hk), Bool.or_true]
    | false =>
      have hne : (e.extType.toNat : Int) ≠ extTypeKeyShare := by
        intro h
        rw [(isKeyShare_iff e).mp h] at hk
        cases hk
      rw [if_neg hne, Bool.or_false]
  rw [extensionLoop, if_pos (by omega)]
  simp only [htype, hbody, bind, Except.bind]
  rw [if_neg (by omega), hkey]
  simp only [isKeyShare_iff, isServerName_iff]
  rfl

/-- Extensions before the first server_name are passed over; only a key share
among them leaves a mark. -/
theorem extensionLoop_skip (data post : List UInt8) (before : List Extension) (stop : Int)
    (fuel : Nat) (pre : List UInt8) (start : Int) (st : HelloInfo)
    (hdata : data = pre ++ (encodeAll before ++ post)) (hstart : start = pre.length)
    (hlen : (encodeAll before).length < 65536) (hstop : start + (encodeAll before).length ≤ stop)
    (hno : ∀ e ∈ before, e.isServerName = false) (hst : st.sniPos = -1) :
    extensionLoop data stop (before.length + fuel) start st =
      extensionLoop data stop fuel (start + (encodeAll before).length)
        { st with hasKeyShare := st.hasKeyShare || before.any Extension.isKeyShare } := by
  induction before generalizing pre start st with
  | nil => simp [encodeAll]
  | cons e before ih =>
    rw [encodeAll_cons, List.append_assoc] at hdata
    rw [encodeAll_cons, List.length_append, e.encode_length] at hlen hstop
    have hfirst : e.isServerName = false := hno e (List.mem_cons_self ..)
    have hvisit := extensionLoop_visit data pre (encodeAll before ++ post) e stop start
      (before.length + fuel) st hdata hstart (by omega) (by omega)
    have hrest := ih (pre ++ e.encode) (start + 4 + e.body.length)
      { st with hasKeyShare := st.hasKeyShare || e.isKeyShare } (by simp [hdata])
      (by rw [List.length_append, e.encode_length]; omega) (by omega) (by omega)
      (fun x hx => hno x (List.mem_cons_of_mem _ hx)) hst
    rw [show (e :: before).length + fuel = before.length + fuel + 1 by simp; omega, hvisit, visit,
      if_neg (by simp [hst]), if_neg (by simp [hfirst]), hrest]
    congr 1
    · rw [encodeAll_cons, List.length_append, e.encode_length]
      omega
    · simp [Bool.or_assoc]

/-- Once the name is known the loop only looks for a key share. -/
theorem extensionLoop_found (data post : List UInt8) (exts : List Extension) (stop : Int)
    (fuel : Nat) (pre : List UInt8) (start : Int) (st : HelloInfo)
    (hdata : data = pre ++ (encodeAll exts ++ post)) (hstart : start = pre.length)
    (hlen : (encodeAll exts).length < 65536) (hstop : stop = start + (encodeAll exts).length)
    (hfuel : exts.length < fuel) (hpos : st.sniPos ≠ -1) (hkey : st.hasKeyShare = false) :
    extensionLoop data stop fuel start st =
      .ok { st with hasKeyShare := exts.any Extension.isKeyShare } := by
  induction exts generalizing pre start st fuel with
  | nil =>
    obtain ⟨fuel, rfl⟩ : ∃ n, fuel = n + 1 := ⟨fuel - 1, by omega⟩
    simp only [encodeAll, List.flatMap_nil, List.length_nil] at hstop
    rw [extensionLoop, if_neg (by omega)]
    simp [← hkey, pure, Except.pure]
  | cons e exts ih =>
    obtain ⟨fuel, rfl⟩ : ∃ n, fuel = n + 1 := ⟨fuel - 1, by omega⟩
    rw [encodeAll_cons, List.append_assoc] at hdata
    rw [encodeAll_cons, List.length_append, e.encode_length] at hlen hstop
    have hvisit := extensionLoop_visit data pre (encodeAll exts ++ post) e stop start fuel st
      hdata hstart (by omega) (by omega)
    rw [hvisit, visit]
    cases hk : e.isKeyShare with
    | true => simp [hpos, hk]
    | false =>
      have hrest := ih fuel (pre ++ e.encode) (start + 4 + e.body.length) st (by simp [hdata])
        (by rw [List.length_append, e.encode_length]; omega) (by omega) (by omega)
        (by simp only [List.length_cons] at hfuel; omega) hpos hkey
      simp [hpos, hrest, hk]

/-- The branch takes the first entry of a well-formed list. -/
theorem serverName_nameList (data pre post name more : List UInt8) (start extLen : Int)
    (st : HelloInfo) (hdata : data = pre ++ (nameList name more ++ post))
    (hstart : start = pre.length) (hext : extLen = (nameList name more).length)
    (hlen : (nameList name more).length < 65536) :
    serverName data start extLen (start + extLen) st =
      .ok { st with sniPos := start + 5, sniLen := name.length } := by
  rw [nameList_length] at hext hlen
  have hlist : uint16At data start = .ok ((3 + name.length + more.length : Nat) : Int) := by
    rw [hdata, nameList, List.append_assoc]
    exact uint16At_append pre _ _ start (by omega) hstart
  have htype : index data (start + 2) = .ok 0 := by
    have happ : data = (pre ++ put16 (3 + name.length + more.length)) ++
        (0 :: (put16 name.length ++ (name ++ (more ++ post)))) := by simp [hdata, nameList]
    rw [happ]
    apply index_append
    rw [List.length_append, put16_length]
    omega
  have hname : uint16At data (start + 2 + 1) = .ok name.length := by
    have happ : data = (pre ++ (put16 (3 + name.length + more.length) ++ [0])) ++
        (put16 name.length ++ (name ++ (more ++ post))) := by simp [hdata, nameList]
    rw [happ]
    apply uint16At_append _ _ _ _ (by omega)
    simp only [List.length_append, put16_length, List.length_singleton]
    omega
  unfold serverName
  rw [if_neg (by omega)]
  simp only [hlist, htype, hname, bind, Except.bind]
  rw [if_neg (by omega), if_neg (by omega), if_neg (by simp), if_neg (by omega)]
  simp only [pure, Except.pure, Except.ok.injEq, HelloInfo.mk.injEq, true_and, and_true]
  omega

/-- A block without a server_name. -/
theorem extensionLoop_unnamed (data pre : List UInt8) (exts : List Extension) (stop start : Int)
    (fuel : Nat) (st : HelloInfo) (hdata : data = pre ++ encodeAll exts)
    (hstart : start = pre.length) (hstop : stop = start + (encodeAll exts).length)
    (hlen : (encodeAll exts).length < 65536) (hfuel : exts.length < fuel)
    (hno : ∀ e ∈ exts, e.isServerName = false) (hst : st.sniPos = -1) :
    extensionLoop data stop fuel start st =
      .ok { st with hasKeyShare := st.hasKeyShare || exts.any Extension.isKeyShare } := by
  obtain ⟨k, rfl⟩ : ∃ k, fuel = exts.length + (k + 1) := ⟨fuel - exts.length - 1, by omega⟩
  rw [extensionLoop_skip data [] exts stop (k + 1) pre start st (by simpa using hdata) hstart hlen
    (by omega) hno hst, extensionLoop, if_neg (by omega)]
  rfl

/-- The extension that holds the name. With a key share seen before it, the loop
ends here. -/
theorem visit_named (data pre post name more : List UInt8) (e : Extension) (stop start : Int)
    (fuel : Nat) (st : HelloInfo) (hdata : data = pre ++ (e.encode ++ post))
    (hstart : start = pre.length) (hlen : e.body.length < 65536) (he : e.isServerName = true)
    (hbody : e.body = nameList name more) (hst : st.sniPos = -1) (herr : st.err = none) :
    visit data stop fuel start e st =
      if st.hasKeyShare then .ok { st with sniPos := start + 9, sniLen := name.length }
      else extensionLoop data stop fuel (start + 4 + e.body.length)
        { st with sniPos := start + 9, sniLen := name.length } := by
  have hname := serverName_nameList data (pre ++ (put16 e.extType.toNat ++ put16 e.body.length))
    post name more (start + 4) e.body.length st (by simp [hdata, Extension.encode, ← hbody])
    (by simp only [List.length_append, put16_length]; omega) (by rw [hbody]) (hbody ▸ hlen)
  rw [show start + 4 + 5 = start + 9 by omega] at hname
  have hst' : { st with hasKeyShare := st.hasKeyShare || e.isKeyShare } = st := by
    rw [not_isKeyShare e he, Bool.or_false]
  rw [visit, hst', not_isKeyShare e he, if_neg (by simp), if_pos ⟨hst, he⟩, hname]
  simp [bind, Except.bind, herr, pure, Except.pure]

/-- A block whose first server_name holds a host name. -/
theorem extensionLoop_named (data pre : List UInt8) (before after : List Extension) (e : Extension)
    (name more : List UInt8) (stop start : Int) (fuel : Nat) (st : HelloInfo)
    (hdata : data = pre ++ encodeAll (before ++ e :: after)) (hstart : start = pre.length)
    (hstop : stop = start + (encodeAll (before ++ e :: after)).length)
    (hlen : (encodeAll (before ++ e :: after)).length < 65536)
    (hfuel : (before ++ e :: after).length < fuel)
    (hno : ∀ x ∈ before, x.isServerName = false) (he : e.isServerName = true)
    (hbody : e.body = nameList name more) (hst : st.sniPos = -1) (hkey : st.hasKeyShare = false)
    (herr : st.err = none) :
    extensionLoop data stop fuel start st =
      .ok { st with
        sniPos := start + (encodeAll before).length + 9
        sniLen := name.length
        hasKeyShare := (before ++ e :: after).any Extension.isKeyShare } := by
  rw [encodeAll_append, encodeAll_cons] at hdata hstop hlen
  simp only [List.length_append, e.encode_length] at hstop hlen
  simp only [List.length_append, List.length_cons] at hfuel
  obtain ⟨k, rfl⟩ : ∃ k, fuel = before.length + (k + 1) := ⟨fuel - before.length - 1, by omega⟩
  rw [extensionLoop_skip data (e.encode ++ encodeAll after) before stop (k + 1) pre start st hdata
    hstart (by omega) (by omega) hno hst]
  have hdata' : data = (pre ++ encodeAll before) ++ (e.encode ++ encodeAll after) := by
    rw [hdata, List.append_assoc]
  have hstart' : start + (encodeAll before).length = (pre ++ encodeAll before).length := by
    rw [List.length_append]
    omega
  rw [extensionLoop_visit data _ _ e stop _ k _ hdata' hstart' (by omega) (by omega),
    visit_named data _ _ name more e stop _ k
      { st with hasKeyShare := st.hasKeyShare || before.any Extension.isKeyShare } hdata' hstart'
      (by omega) he hbody hst herr]
  simp only [hkey, Bool.false_or, List.any_append, List.any_cons, not_isKeyShare e he]
  cases before.any Extension.isKeyShare with
  | true => rfl
  | false =>
    rw [if_neg (by simp)]
    exact extensionLoop_found data [] after stop k (pre ++ (encodeAll before ++ e.encode)) _ _
      (by simp [hdata]) (by simp only [List.length_append, e.encode_length]; omega) (by omega)
      (by omega) (by omega) (by simp only [ne_eq]; omega) rfl

/-! ## The message -/

theorem parseExtensions_none (data : List UInt8) (offset : Int) (st : HelloInfo)
    (h : offset = data.length) : parseExtensions data offset st = .ok st := by
  rw [parseExtensions, if_pos (by omega)]
  rfl

theorem parseExtensions_some (data pre : List UInt8) (exts : List Extension) (offset : Int)
    (st : HelloInfo) (hdata : data = pre ++ encodeBlock (some exts)) (hoff : offset = pre.length)
    (hlen : (encodeAll exts).length < 65536) :
    parseExtensions data offset st =
      extensionLoop data (offset + 2 + (encodeAll exts).length) (data.length + 1) (offset + 2)
        st := by
  have hsize : (data.length : Int) = offset + 2 + (encodeAll exts).length := by
    simp only [hdata, encodeBlock, List.length_append, put16_length]
    omega
  have htotal : uint16At data offset = .ok (encodeAll exts).length := by
    rw [hdata]
    exact uint16At_append pre _ _ offset hlen hoff
  rw [parseExtensions, if_neg (by omega)]
  simp only [htotal, bind, Except.bind]
  rw [if_neg (by omega)]

theorem parseSuites_encode (data pre suites compression : List UInt8)
    (extensions : Option (List Extension)) (offset : Int) (st : HelloInfo)
    (hdata : data = pre ++ encodeSuites suites compression extensions)
    (hoff : offset = pre.length) (hsuites : suites.length < 65536)
    (hcomp : compression.length ≤ 255) :
    parseSuites data offset st =
      parseExtensions data (offset + 2 + suites.length + 1 + compression.length) st := by
  have hsize : offset + 2 + suites.length + 1 + compression.length ≤ data.length := by
    simp only [hdata, encodeSuites, List.length_append, List.length_cons, put16_length]
    omega
  have hcs : uint16At data offset = .ok suites.length := by
    rw [hdata]
    exact uint16At_append pre _ _ offset hsuites hoff
  have hcm : index data (offset + 2 + suites.length) = .ok (UInt8.ofNat compression.length) := by
    have happ : data = (pre ++ (put16 suites.length ++ suites)) ++
        (UInt8.ofNat compression.length :: (compression ++ encodeBlock extensions)) := by
      simp [hdata, encodeSuites]
    rw [happ]
    apply index_append
    simp only [List.length_append, put16_length]
    omega
  rw [parseSuites, if_neg (by omega)]
  simp only [hcs, bind, Except.bind]
  rw [if_neg (by omega), if_neg (by omega)]
  simp only [hcm, toNat_ofNat_of_le _ hcomp]
  rw [if_neg (by omega)]

theorem parseBody_encode (data pre : List UInt8) (m : Message) (offset : Int) (st : HelloInfo)
    (hdata : data = pre ++ m.body) (hoff : offset = pre.length) :
    parseBody data offset st =
      parseSuites data (offset + 2 + 32 + 1 + m.sessionID.length)
        { st with prtVer := m.version } := by
  have hv := m.version_length
  have hr := m.random_length
  have hsize : offset + 2 + 32 + 1 + m.sessionID.length ≤ data.length := by
    simp only [hdata, Message.body, encodeBody, List.length_append, List.length_cons]
    omega
  have hver : slice data offset (offset + 2) = .ok m.version := by
    rw [hdata, Message.body, encodeBody]
    exact slice_append pre m.version _ offset (offset + 2) hoff (by omega)
  have hsid : index data (offset + 2 + 32) = .ok (UInt8.ofNat m.sessionID.length) := by
    have happ : data = (pre ++ (m.version ++ m.random)) ++
        (UInt8.ofNat m.sessionID.length :: (m.sessionID ++
          encodeSuites m.suites m.compression m.extensions)) := by
      simp [hdata, Message.body, encodeBody]
    rw [happ]
    apply index_append
    simp only [List.length_append]
    omega
  rw [parseBody]
  simp only [hver, bind, Except.bind]
  rw [if_neg (by omega)]
  simp only [hsid, toNat_ofNat_of_le _ m.sessionID_length]
  rw [if_neg (by omega)]

namespace Message

variable (m : Message) (major minor : UInt8)

theorem body_length : m.body.length = 2 + 32 + 1 + m.sessionID.length + (2 + m.suites.length) +
    (1 + m.compression.length) + (encodeBlock m.extensions).length := by
  have hv := m.version_length
  have hr := m.random_length
  simp only [body, encodeBody, encodeSuites, List.length_append, List.length_cons, put16_length]
  omega

theorem record_length : (m.record major minor).length = 9 + m.body.length := by
  simp only [record, List.length_append, List.length_cons, put16_length, put24, List.length_nil]
  omega

/-- The record in front of the message, and the message. -/
theorem record_eq : m.record major minor =
    ([22, major, minor] ++ (put16 (4 + m.body.length) ++ (1 :: put24 m.body.length))) ++
      m.body := by
  simp [record]

theorem record_suites : m.record major minor =
    ([22, major, minor] ++ (put16 (4 + m.body.length) ++ (1 :: (put24 m.body.length ++
      (m.version ++ (m.random ++ (UInt8.ofNat m.sessionID.length :: m.sessionID))))))) ++
      encodeSuites m.suites m.compression m.extensions := by
  simp [record, body, encodeBody]

omit m major minor in
/-- A message that is long enough and inside the record is read from its version on. -/
theorem parseHandshake_header {data : List UInt8} {recordLen offset len : Int} {b1 b2 b3 : UInt8}
    (htype : index data offset = .ok handshakeTypeClientHello)
    (h1 : index data (offset + 1) = .ok b1) (h2 : index data (offset + 2) = .ok b2)
    (h3 : index data (offset + 3) = .ok b3)
    (hlen : (b1.toNat : Int) * 65536 + b2.toNat * 256 + b3.toNat = len)
    (hfits : len + handshakeHeaderLen ≤ recordLen) (hmin : 2 + 32 + 1 ≤ len) (st : HelloInfo) :
    parseHandshake data recordLen offset st = parseBody data (offset + handshakeHeaderLen) st := by
  simp only [parseHandshake, htype, h1, h2, h3, hlen, bind, Except.bind]
  rw [if_neg (not_not_intro rfl), if_neg (by omega), if_neg (by omega)]

/-- The header of the record and of the message. -/
theorem record_header :
    uint16At (m.record major minor) 3 = .ok ((4 + m.body.length : Nat) : Int) ∧
      index (m.record major minor) 5 = .ok 1 ∧
      index (m.record major minor) (5 + 1) = .ok (UInt8.ofNat (m.body.length / 65536)) ∧
      index (m.record major minor) (5 + 2) = .ok (UInt8.ofNat (m.body.length / 256)) ∧
      index (m.record major minor) (5 + 3) = .ok (UInt8.ofNat m.body.length) := by
  refine ⟨uint16At_append [22, major, minor] _ _ 3 m.fits rfl, ?_, ?_, ?_, ?_⟩
  · exact index_append ([22, major, minor] ++ put16 (4 + m.body.length)) 1 _ 5 rfl
  · exact index_append ([22, major, minor] ++ (put16 (4 + m.body.length) ++ [1])) _ _ _ rfl
  · exact index_append ([22, major, minor] ++ (put16 (4 + m.body.length) ++
      [1, UInt8.ofNat (m.body.length / 65536)])) _ _ _ rfl
  · exact index_append ([22, major, minor] ++ (put16 (4 + m.body.length) ++
      [1, UInt8.ofNat (m.body.length / 65536), UInt8.ofNat (m.body.length / 256)])) _ _ _ rfl

/-- Up to the extensions the parser goes through the message as it was written. -/
theorem parseClientHello_record :
    parseClientHello (m.record major minor) =
      parseExtensions (m.record major minor) (m.extensionsStart - 2)
        ⟨m.version, -1, 0, false, none⟩ := by
  have hfits : 4 + m.body.length < 65536 := m.fits
  have hbody := m.body_length
  have hsize := m.record_length major minor
  have hv := m.version_length
  have hr := m.random_length
  have ht : tlsRecordHeaderLen = 5 := rfl
  have hh : handshakeHeaderLen = 4 := rfl
  obtain ⟨hrecord, htype, hb1, hb2, hb3⟩ := m.record_header major minor
  have hvalue := put24_value m.body.length (by omega)
  have hstart : (5 : Int) + 4 = ([22, major, minor] ++ (put16 (4 + m.body.length) ++
      (1 :: put24 m.body.length))).length := rfl
  rw [parseClientHello]
  simp only [ht, hh, hrecord, bind, Except.bind]
  rw [if_neg (by omega), if_neg (by omega), if_neg (by omega),
    parseHandshake_header htype hb1 hb2 hb3 hvalue (by omega) (by omega), hh,
    parseBody_encode _ _ m _ _ (m.record_eq major minor) hstart,
    parseSuites_encode _ _ m.suites m.compression m.extensions _ _ (m.record_suites major minor)
      (by simp only [List.length_append, List.length_cons, put16_length, put24, List.length_nil]
          omega)
      (by omega) m.compression_length]
  congr 1
  simp only [extensionsStart]
  omega

theorem record_extensions (exts : List Extension) (h : m.extensions = some exts) :
    ∃ pre, m.record major minor = pre ++ encodeBlock (some exts) ∧
      (m.extensionsStart : Int) - 2 = pre.length := by
  refine ⟨[22, major, minor] ++ (put16 (4 + m.body.length) ++ (1 :: (put24 m.body.length ++
      (m.version ++ (m.random ++ (UInt8.ofNat m.sessionID.length :: (m.sessionID ++
        (put16 m.suites.length ++ (m.suites ++
          (UInt8.ofNat m.compression.length :: m.compression)))))))))), ?_, ?_⟩
  · simp [record, body, encodeBody, encodeSuites, h]
  · have hv := m.version_length
    have hr := m.random_length
    simp only [extensionsStart, List.length_append, List.length_cons, List.length_nil, put16_length,
      put24]
    omega

/-- The loop over the block is all that is left of the parser. -/
theorem parseClientHello_loop (exts : List Extension) (h : m.extensions = some exts) :
    ∃ pre, m.record major minor = pre ++ encodeAll exts ∧ m.extensionsStart = pre.length ∧
      (encodeAll exts).length < 65536 ∧ exts.length < (m.record major minor).length + 1 ∧
      parseClientHello (m.record major minor) =
        extensionLoop (m.record major minor) (m.extensionsStart + (encodeAll exts).length)
          ((m.record major minor).length + 1) m.extensionsStart
          ⟨m.version, -1, 0, false, none⟩ := by
  obtain ⟨pre, hpre, hlen⟩ := m.record_extensions major minor exts h
  have hfits : 4 + m.body.length < 65536 := m.fits
  have hsmall : (encodeAll exts).length < 65536 := by
    have hbody := m.body_length
    simp only [h, encodeBlock, List.length_append] at hbody
    omega
  have hmany : exts.length ≤ (encodeAll exts).length := length_le_encodeAll exts
  have hsize := congrArg List.length hpre
  simp only [encodeBlock, List.length_append, put16_length] at hsize
  refine ⟨pre ++ put16 (encodeAll exts).length, ?_, ?_, hsmall, by omega, ?_⟩
  · rw [hpre, encodeBlock, List.append_assoc]
  · rw [List.length_append, put16_length]
    omega
  · rw [m.parseClientHello_record, parseExtensions_some _ pre exts _ _ hpre hlen hsmall]
    congr 1 <;> omega

theorem parseClientHello_unnamed
    (hno : ∀ e ∈ m.extensions.getD [], e.isServerName = false) :
    parseClientHello (m.record major minor) =
      .ok ⟨m.version, -1, 0, (m.extensions.getD []).any Extension.isKeyShare, none⟩ := by
  cases h : m.extensions with
  | none =>
    rw [m.parseClientHello_record]
    apply parseExtensions_none
    have hbody := m.body_length
    have hsize := m.record_length major minor
    simp only [h, encodeBlock, List.length_nil] at hbody
    simp only [extensionsStart]
    omega
  | some exts =>
    rw [h, Option.getD_some] at hno
    obtain ⟨pre, hpre, hstart, hsmall, hfuel, hloop⟩ := m.parseClientHello_loop major minor exts h
    rw [hloop, extensionLoop_unnamed _ pre exts _ _ _ _ hpre (by rw [hstart]) rfl hsmall hfuel hno
      rfl]
    simp

theorem parseClientHello_named (before after : List Extension) (e : Extension)
    (name more : List UInt8) (hexts : m.extensions.getD [] = before ++ e :: after)
    (hno : ∀ x ∈ before, x.isServerName = false) (he : e.isServerName = true)
    (hbody : e.body = nameList name more) :
    parseClientHello (m.record major minor) =
      .ok ⟨m.version, m.extensionsStart + (encodeAll before).length + 9, name.length,
        (m.extensions.getD []).any Extension.isKeyShare, none⟩ := by
  cases h : m.extensions with
  | none => simp [h] at hexts
  | some exts =>
    rw [h, Option.getD_some] at hexts
    subst hexts
    obtain ⟨pre, hpre, hstart, hsmall, hfuel, hloop⟩ := m.parseClientHello_loop major minor _ h
    rw [hloop, extensionLoop_named _ pre before after e name more _ _ _ _ hpre (by rw [hstart]) rfl
      hsmall hfuel hno he hbody rfl rfl rfl]
    rfl

/-- The bytes of the name are where the parser says they are. -/
theorem record_name (before after : List Extension) (e : Extension)
    (name more : List UInt8) (hexts : m.extensions.getD [] = before ++ e :: after)
    (hbody : e.body = nameList name more) :
    ∃ front back, m.record major minor = front ++ (name ++ back) ∧
      front.length = m.extensionsStart + (encodeAll before).length + 9 := by
  cases h : m.extensions with
  | none => simp [h] at hexts
  | some exts =>
    rw [h, Option.getD_some] at hexts
    obtain ⟨pre, hpre, hstart, -⟩ := m.parseClientHello_loop major minor _ h
    refine ⟨pre ++ (encodeAll before ++ (put16 e.extType.toNat ++ (put16 e.body.length ++
      (put16 (3 + name.length + more.length) ++ (0 :: put16 name.length))))),
      more ++ encodeAll after, ?_, ?_⟩
    · simp [hpre, hexts, encodeAll_append, encodeAll_cons, Extension.encode, hbody, nameList]
    · simp only [List.length_append, List.length_cons, put16_length, hstart]
      omega

theorem name_found (info : HelloInfo) (hp : parseClientHello (m.record major minor) = .ok info)
    (before : List Extension) (e : Extension) (after : List Extension)
    (hexts : m.extensions.getD [] = before ++ e :: after)
    (hno : ∀ x ∈ before, x.extType ≠ 0x0000) (he : e.extType = 0x0000) :
    ∃ name more, e.body = nameList name more ∧
      info.sniPos = m.extensionsStart + (encodeAll before).length + 9 ∧
      info.sniLen = name.length ∧
      slice (m.record major minor) info.sniPos (info.sniPos + info.sniLen) = .ok name := by
  have hno' : ∀ x ∈ before, x.isServerName = false :=
    fun x hx => beq_eq_false_iff_ne.mpr (hno x hx)
  have he' : e.isServerName = true := beq_iff_eq.mpr he
  have hfirst : (m.extensions.getD []).find? Extension.isServerName = some e :=
    List.find?_eq_some_iff_append.mpr ⟨he', before, after, hexts, by simpa using hno'⟩
  obtain ⟨name, more, hbody⟩ := m.named e hfirst
  rw [m.parseClientHello_named major minor before after e name more hexts hno' he' hbody] at hp
  obtain rfl := Except.ok.inj hp
  obtain ⟨front, back, hrec, hfront⟩ := m.record_name major minor before after e name more hexts
    hbody
  refine ⟨name, more, hbody, rfl, rfl, ?_⟩
  rw [hrec]
  apply slice_append <;> simp only [hfront] <;> omega

end Message

/-- **The parser finds the name.** On the record of a well-formed ClientHello it
returns no error, the message's version, whether there is a key share, and the
place of the first host name. -/
theorem parseClientHello_finds (m : Message) (major minor : UInt8) :
    ∃ info, parseClientHello (m.record major minor) = .ok info ∧
      info.err = none ∧ info.prtVer = m.version ∧
      (info.hasKeyShare = true ↔ ∃ e ∈ m.extensions.getD [], e.extType = 0x0033) ∧
      ((∀ e ∈ m.extensions.getD [], e.extType ≠ 0x0000) → info.sniPos = -1 ∧ info.sniLen = 0) ∧
      ∀ before e after, m.extensions.getD [] = before ++ e :: after →
        (∀ x ∈ before, x.extType ≠ 0x0000) → e.extType = 0x0000 →
        ∃ name more, e.body = nameList name more ∧
          info.sniPos = m.extensionsStart + (encodeAll before).length + 9 ∧
          info.sniLen = name.length ∧
          slice (m.record major minor) info.sniPos (info.sniPos + info.sniLen) = .ok name := by
  have hkey : (m.extensions.getD []).any Extension.isKeyShare = true ↔
      ∃ e ∈ m.extensions.getD [], e.extType = 0x0033 := by
    simp [List.any_eq_true, Extension.isKeyShare]
  have hname := m.name_found major minor
  cases hf : (m.extensions.getD []).find? Extension.isServerName with
  | none =>
    have hno : ∀ e ∈ m.extensions.getD [], e.isServerName = false := by
      simpa using List.find?_eq_none.mp hf
    have hparse := m.parseClientHello_unnamed major minor hno
    exact ⟨_, hparse, rfl, rfl, hkey, fun _ => ⟨rfl, rfl⟩, hname _ hparse⟩
  | some e =>
    obtain ⟨name, more, hbody⟩ := m.named e hf
    obtain ⟨he, before, after, hexts, hno⟩ := List.find?_eq_some_iff_append.mp hf
    have hparse := m.parseClientHello_named major minor before after e name more hexts
      (by simpa using hno) he hbody
    refine ⟨_, hparse, rfl, rfl, hkey, ?_, hname _ hparse⟩
    intro hnone
    exact absurd (beq_iff_eq.mp he) (hnone e (by simp [hexts]))

example : ∃ m : Message, m.extensions = some [⟨0x0033, [1]⟩, ⟨0x0000, nameList [97, 46, 98] []⟩] ∧
    parseClientHello (m.record 3 1) = .ok ⟨[3, 3], 63, 3, true, none⟩ :=
  ⟨{ version := [3, 3], random := List.replicate 32 7, sessionID := [], suites := []
     compression := [], extensions := some [⟨0x0033, [1]⟩, ⟨0x0000, nameList [97, 46, 98] []⟩]
     version_length := rfl, random_length := rfl, sessionID_length := by decide
     compression_length := by decide, named := fun e he => ⟨[97, 46, 98], [], by cases he; rfl⟩
     fits := by decide }, rfl, by decide⟩

/-! ## Any bytes -/

theorem slice_of_uint16At {data : List UInt8} {off v : Int} (h : uint16At data off = .ok v) :
    slice data off (off + 2) = .ok (put16 v.toNat) := by
  unfold uint16At at h
  cases hs : slice data off (off + 2) with
  | error f => simp [hs, bind, Except.bind] at h
  | ok s =>
    simp only [hs, bind, Except.bind] at h
    split at h
    · rename_i hi lo
      obtain rfl := Except.ok.inj h
      rw [Int.toNat_natCast, put16_be16]
    · cases h

/-- **The parser is total.** Every read is inside the bytes and the loop ends;
without an error there is no name, or it lies in the bytes behind its length. -/
theorem parseClientHello_total (data : List UInt8) :
    ∃ info, parseClientHello data = .ok info ∧
      (info.err = none →
        (info.sniPos = -1 ∧ info.sniLen = 0) ∨
          (58 ≤ info.sniPos ∧ 0 ≤ info.sniLen ∧ info.sniPos + info.sniLen ≤ data.length ∧
            slice data (info.sniPos - 2) info.sniPos = .ok (put16 info.sniLen.toNat))) := by
  obtain ⟨info, hp, hloc⟩ := parseClientHello_returns data
  refine ⟨info, hp, fun _ => ?_⟩
  rcases hloc with hnone | ⟨hpos, hlen, hend, hsize⟩
  · exact Or.inl hnone
  · have hs := slice_of_uint16At hsize
    rw [show info.sniPos - 2 + 2 = info.sniPos by omega] at hs
    exact Or.inr ⟨hpos, hlen, hend, hs⟩

end SniShaper.ClientHello
