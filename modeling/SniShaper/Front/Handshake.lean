import SniShaper.Front.Bytes
import SniShaper.Front.Tunnel
import SniShaper.Tls.Reassembly

/-! The handlers of mode `tls-rf` with the bytes that they pass on (`handleTLSFragment` and
`handleTLSRFFallback` of `proxy/tls_fragment.go`): the client's connection is read by
`io.ReadFull`, the record stands in a buffer that the fragmented send changes, an upstream
connection keeps what was written to it, and the byte that is read as a probe is put back in
front of the rest.

* `readInitialTLSRecord_eq`: reading the record takes its bytes from the client, however they
  arrive, and leaves those that follow;
* `sendInPlace_saved`: the copy that is made for the fallback has the record as it was read;
* `handleTLSFragment_refines`: without the bytes, these are the handlers of
  `SniShaper.Front.Tunnel`;
* `forwards_once`: the tunnel that is reached has carried the client's handshake once, goes on
  with the client's next byte, and gives the client all that the upstream sends. -/

namespace SniShaper.Handshake

open Config Bounds Frames Hello Fragment Readers Reader Tunnel

/-! ## The source's functions -/

/-- A byte slice of a handler: nil, or one of its buffers. -/
abbrev Slice := Option Nat

/-- The buffers that a handler has made, by their numbers. -/
abbrev Buffers := List (List UInt8)

namespace Buffers

def bytes (m : Buffers) : Slice → List UInt8
  | none => []
  | some b => m.getD b []

/-- A new buffer that holds the bytes. -/
def make (m : Buffers) (bytes : List UInt8) : Slice × Buffers := (some m.length, m ++ [bytes])

/-- The bytes are written into the slice's buffer. -/
def store (m : Buffers) (s : Slice) (bytes : List UInt8) : Buffers :=
  match s with
  | none => m
  | some b => m.set b bytes

end Buffers

/-- An upstream connection: what was written to it, and what its reads give. -/
structure Upstream where
  sent : Fragment.Conn
  reader : Front.Conn

/-- What a handler finds on its connections: the client's as it is handed on, what the dialled
upstream and the fallback send, and the error of the probe when it does not come to a byte. -/
structure Wire where
  client : Front.Conn
  incoming : Front.Segments
  fallbackIncoming : Front.Segments
  probeErr : Option String := none

/-- The three ways to a tunnel. -/
inductive Path where
  | passthrough
  | fragments
  | fallback
  deriving DecidableEq, Repr

/-- The arguments of `directTunnel`. -/
structure Tunnelled where
  path : Path
  clientConn : Front.Conn
  upstreamConn : Upstream

inductive Outcome where
  | panicked (f : Fault)
  /-- Both connections are closed. -/
  | closed
  /-- The fallback was dialled and is closed as well. -/
  | abandoned
  | tunnelled (t : Tunnelled)

def readInitialTLSRecord (conn : Front.Conn) : Option (List UInt8 × Front.Conn) := do
  let (header, conn) ← Front.connReader.readFull 5 conn
  let recordLen := be16 (header.getD 3 0) (header.getD 4 0)
  if 0 < recordLen then
    let (body, conn) ← Front.connReader.readFull recordLen conn
    return (header ++ body, conn)
  else return (header, conn)

/-- `upstreamConn.Read(probe)`, with what is left to read. -/
def readProbe (wire : Wire) : Except String (UInt8 × Front.Segments) :=
  match wire.probeErr with
  | some err => .error err
  | none =>
    match socket.read wire.incoming 1 with
    | (some (b :: _), segments) => .ok (b, segments)
    | _ => .error "EOF"

def handleTLSRFFallback (w : World) (wire : Wire) (clientConn : Front.Conn) (host : String)
    (rule : Rule) (originalRecord : List UInt8) : Outcome :=
  match dialFallback w rule.fallbackMode (Net.joinHostPort host "443") w.serverHost with
  | .error _ => .closed
  | .ok () =>
    match write originalRecord (Conn.fresh w.fallbackSends) with
    | (.error _, _) => .abandoned
    | (.ok (), newConn) =>
      .tunnelled ⟨.fallback, clientConn, ⟨newConn, .raw wire.fallbackIncoming⟩⟩

/-- After the fragments were sent. -/
def afterFragments (w : World) (wire : Wire) (clientConn : Front.Conn) (host : String)
    (rule : Rule) (savedRecord : List UInt8) (conn : Fragment.Conn) : Outcome :=
  if rule.fallbackMode ≠ "" then
    match readProbe wire with
    | .error _ => handleTLSRFFallback w wire clientConn host rule savedRecord
    | .ok (probe, segments) =>
      .tunnelled ⟨.fragments, clientConn, ⟨conn, .bufferedReadConn (some [probe], segments)⟩⟩
  else .tunnelled ⟨.fragments, clientConn, ⟨conn, .raw wire.incoming⟩⟩

/-- `sendRecords` as it is called: `clientHello[2] = 0x04` changes the caller's buffer, and
what is sent is cut from that buffer. -/
def sendInPlace (record : Slice) (info : HelloInfo) (m : Buffers) (conn : Fragment.Conn) :
    Except Stop Unit × Fragment.Conn × Buffers :=
  let m := m.store record (patchMinor defaultTLSRFModMinorVer (m.bytes record))
  let sent :=
    sendPatched (m.bytes record) info.sniPos info.sniLen defaultTLSRFNumRecords
      defaultTLSRFNumSegments defaultTLSRFOOB defaultTLSRFOOBEx conn
  (sent.1, sent.2, m)

/-- `savedRecord`: a copy of the record if the rule has a fallback, and nil otherwise. -/
def saveRecord (rule : Rule) (record : Slice) (m : Buffers) : Slice × Buffers :=
  if rule.fallbackMode ≠ "" then m.make (m.bytes record) else (none, m)

def handleTLSFragment (w : World) (wire : Wire) (host : String) (rule : Rule) : Outcome :=
  match readInitialTLSRecord wire.client with
  | none => .closed
  | some (bytes, clientConn) =>
    let (record, m) := Buffers.make [] bytes
    match parseClientHello (m.bytes record) with
    | .error f => .panicked f
    | .ok info =>
      if info.err ≠ none then .closed
      else if info.sniPos ≤ 0 ∨ info.sniLen ≤ 0 then
        match write (m.bytes record) (Conn.fresh w.sends) with
        | (.error _, _) => .closed
        | (.ok (), conn) => .tunnelled ⟨.passthrough, clientConn, ⟨conn, .raw wire.incoming⟩⟩
      else
        let (savedRecord, m) := saveRecord rule record m
        match sendInPlace record info m (Conn.fresh w.sends) with
        | (.error (.fault f), _, _) => .panicked f
        | (.error (.failed _), _, m) =>
          if rule.fallbackMode ≠ "" then
            handleTLSRFFallback w wire clientConn host rule (m.bytes savedRecord)
          else .closed
        | (.ok (), conn, m) =>
          afterFragments w wire clientConn host rule (m.bytes savedRecord) conn

/-! ## The buffers -/

namespace Buffers

variable (m : Buffers)

@[simp]
theorem bytes_make (x : List UInt8) : (m.make x).2.bytes (m.make x).1 = x := by
  simp [make, bytes]

theorem bytes_store_self {b : Nat} (hb : b < m.length) (x : List UInt8) :
    (m.store (some b) x).bytes (some b) = x := by
  simp [store, bytes, hb]

theorem bytes_store_of_ne {b b' : Nat} (hne : b ≠ b') (x : List UInt8) :
    (m.store (some b) x).bytes (some b') = m.bytes (some b') := by
  simp [store, bytes, List.getElem?_set_ne hne]

end Buffers

/-- What is sent is the record's; its buffer has the changed version afterwards. -/
theorem sendInPlace_eq {b : Nat} {m : Buffers} (hb : b < m.length) (info : HelloInfo)
    (conn : Fragment.Conn) :
    sendInPlace (some b) info m conn =
      ((sendFragmented (m.bytes (some b)) info conn).1,
        (sendFragmented (m.bytes (some b)) info conn).2,
        m.store (some b) (patchMinor true (m.bytes (some b)))) := by
  simp only [sendInPlace, Buffers.bytes_store_self m hb]
  rfl

/-- **The copy is the record.** The send reads the bytes that were read from the client and
changes them where they are; the copy for a fallback is another buffer and stays. -/
theorem sendInPlace_saved (rule : Rule) (bytes : List UInt8) (info : HelloInfo)
    (conn : Fragment.Conn) :
    ∃ m, sendInPlace (some 0) info (saveRecord rule (some 0) [bytes]).2 conn =
        ((sendFragmented bytes info conn).1, (sendFragmented bytes info conn).2, m) ∧
      m.bytes (some 0) = patchMinor true bytes ∧
      (rule.fallbackMode ≠ "" → m.bytes (saveRecord rule (some 0) [bytes]).1 = bytes) := by
  by_cases hfb : rule.fallbackMode ≠ ""
  · have hsave : saveRecord rule (some 0) [bytes] = (some 1, [bytes, bytes]) := if_pos hfb
    have hb : 0 < [bytes, bytes].length := Nat.two_pos
    rw [hsave, sendInPlace_eq hb]
    exact ⟨_, rfl, Buffers.bytes_store_self _ hb _,
      fun _ => Buffers.bytes_store_of_ne _ Nat.zero_ne_one _⟩
  · have hsave : saveRecord rule (some 0) [bytes] = (none, [bytes]) := if_neg hfb
    have hb : 0 < [bytes].length := Nat.one_pos
    rw [hsave, sendInPlace_eq hb]
    exact ⟨_, rfl, Buffers.bytes_store_self _ hb _, fun h => absurd h hfb⟩

/-! ## Reading the record -/

theorem connReader_within : Front.connReader.Within := by
  intro conn n items h
  cases conn with
  | raw s => exact socket_within s n items h
  | bufferedReadConn s => exact multi_within bytes_within socket_within s n items h
  | socks5HijackConn s => exact bufio_within socket_within s n items h

/-- The record and what is left are those of the client's bytes as one stream. -/
theorem readInitialTLSRecord_eq (conn : Front.Conn) :
    (readInitialTLSRecord conn).map (fun (record, conn') => (record, Front.connReader.rest conn')) =
      Hello.readInitialTLSRecord (Front.connReader.rest conn) := by
  have hshort : ∀ l : List UInt8, l.length < 5 → Hello.readInitialTLSRecord l = none := by
    intro l hl
    unfold Hello.readInitialTLSRecord
    split
    · simp only [List.length_cons] at hl
      omega
    · rfl
  unfold readInitialTLSRecord
  rcases readFull_cases Front.connReader connReader_within 5 conn with
    ⟨hlong, conn1, hread, hrest⟩ | ⟨hfew, hread⟩
  · obtain ⟨t, a, b, hi, lo, tail, htail⟩ : ∃ t a b hi lo tail,
        Front.connReader.rest conn = t :: a :: b :: hi :: lo :: tail := by
      generalize Front.connReader.rest conn = l at hlong
      match l, hlong with
      | t :: a :: b :: hi :: lo :: tail, _ => exact ⟨t, a, b, hi, lo, tail, rfl⟩
    rw [htail] at hread hrest
    simp only [List.take_succ_cons, List.take_zero, List.drop_succ_cons,
      List.drop_zero] at hread hrest
    rw [hread, htail]
    simp only [Option.bind_eq_bind, Option.bind_some, List.getD_cons_succ, List.getD_cons_zero,
      Hello.readInitialTLSRecord]
    rcases readFull_cases Front.connReader connReader_within (be16 hi lo) conn1 with
      ⟨hmany, conn2, hbody, hleft⟩ | ⟨hless, hbody⟩
    · rw [hrest] at hbody hleft hmany
      rw [if_pos hmany]
      by_cases hpos : 0 < be16 hi lo
      · rw [if_pos hpos, hbody]
        simp [hleft]
      · have hzero : be16 hi lo = 0 := by omega
        rw [if_neg hpos]
        simp [hzero, hrest]
    · rw [hrest] at hless
      rw [if_pos (by omega), hbody, if_neg (by omega)]
      rfl
  · rw [hread, hshort _ hfew]
    rfl

theorem readInitialTLSRecord_some {conn : Front.Conn} {record : List UInt8} {conn' : Front.Conn}
    (h : readInitialTLSRecord conn = some (record, conn')) :
    Hello.readInitialTLSRecord (Front.connReader.rest conn) =
      some (record, Front.connReader.rest conn') := by
  rw [← readInitialTLSRecord_eq, h]
  rfl

/-! ## The handlers without the bytes -/

/-- The outcomes of the network that the handlers of `Tunnel` are given. -/
def Wire.world (wire : Wire) (w : World) : World :=
  { w with
    client := { w.client with bytes := Front.connReader.rest wire.client }
    probe := (readProbe wire).map Prod.fst }

def Outcome.ending : Outcome → Ending
  | .panicked f => .panicked f
  | .closed | .abandoned | .tunnelled _ => .returned

/-- What an outcome leaves of the connections; `conn` is the dialled upstream. -/
def Outcome.session (conn : Nat) (s : Session) : Outcome → Session
  | .panicked _ => s
  | .closed => (s.close .client).close (.upstream conn)
  | .abandoned =>
    let s := s.close (.upstream conn)
    (s.dial.close (.upstream s.upstream.length)).close .client
  | .tunnelled t =>
    match t.path with
    | .passthrough | .fragments => directTunnel s .client (.upstream conn)
    | .fallback =>
      let s := s.close (.upstream conn)
      directTunnel s.dial .client (.upstream s.upstream.length)

theorem handleTLSRFFallback_refines (w : World) (wire : Wire) (clientConn : Front.Conn)
    (host : String) (rule : Rule) (record : List UInt8) (conn : Nat) (s : Session) :
    (handleTLSRFFallback w wire clientConn host rule record).ending = .returned ∧
      (handleTLSRFFallback w wire clientConn host rule record).session conn s =
        Tunnel.handleTLSRFFallback (wire.world w) host rule record (s.close (.upstream conn)) := by
  have hdial : dialFallback (wire.world w) rule.fallbackMode (Net.joinHostPort host "443")
      (wire.world w).serverHost =
        dialFallback w rule.fallbackMode (Net.joinHostPort host "443") w.serverHost := rfl
  have hsends : (wire.world w).fallbackSends = w.fallbackSends := rfl
  unfold handleTLSRFFallback Tunnel.handleTLSRFFallback
  rw [hdial, hsends]
  cases dialFallback w rule.fallbackMode (Net.joinHostPort host "443") w.serverHost with
  | error err => exact ⟨rfl, rfl⟩
  | ok _ =>
    cases hw : write record (Conn.fresh w.fallbackSends) with
    | mk result newConn =>
      cases result with
      | error stop => exact ⟨rfl, rfl⟩
      | ok _ => exact ⟨rfl, rfl⟩

theorem afterFragments_refines (w : World) (wire : Wire) (clientConn : Front.Conn) (host : String)
    (rule : Rule) (record : List UInt8) (sent : Fragment.Conn) (conn : Nat) (s : Session) :
    (afterFragments w wire clientConn host rule record sent).ending = .returned ∧
      (afterFragments w wire clientConn host rule record sent).session conn s =
        Tunnel.afterFragments (wire.world w) host rule record conn s := by
  have hprobe : (wire.world w).probe = (readProbe wire).map Prod.fst := rfl
  unfold afterFragments Tunnel.afterFragments
  rw [hprobe]
  by_cases hfb : rule.fallbackMode ≠ ""
  · rw [if_pos hfb, if_pos hfb]
    cases readProbe wire with
    | error err => exact handleTLSRFFallback_refines w wire clientConn host rule record conn s
    | ok probe => exact ⟨rfl, rfl⟩
  · rw [if_neg hfb, if_neg hfb]
    exact ⟨rfl, rfl⟩

/-- What was saved is read only for a fallback. -/
theorem afterFragments_saved {w : World} {wire : Wire} {clientConn : Front.Conn} {host : String}
    {rule : Rule} {saved record : List UInt8} (conn : Fragment.Conn)
    (h : rule.fallbackMode ≠ "" → saved = record) :
    afterFragments w wire clientConn host rule saved conn =
      afterFragments w wire clientConn host rule record conn := by
  by_cases hfb : rule.fallbackMode ≠ ""
  · rw [h hfb]
  · simp only [afterFragments, if_neg hfb]

/-- **Refinement.** A handler leaves the connections as the handler of `Tunnel` does in the
world that has these bytes. -/
theorem handleTLSFragment_refines (w : World) (wire : Wire) (host : String) (rule : Rule)
    (conn : Nat) (s : Session) :
    Tunnel.handleTLSFragment (wire.world w) conn host rule s =
      ((handleTLSFragment w wire host rule).ending,
        (handleTLSFragment w wire host rule).session conn s) := by
  have hbytes : (wire.world w).client.bytes = Front.connReader.rest wire.client := rfl
  have hsends : (wire.world w).sends = w.sends := rfl
  unfold handleTLSFragment Tunnel.handleTLSFragment
  rw [hbytes, hsends, ← readInitialTLSRecord_eq]
  cases readInitialTLSRecord wire.client with
  | none => rfl
  | some read =>
    obtain ⟨record, clientConn⟩ := read
    simp only [Option.map_some, Buffers.bytes_make]
    cases parseClientHello record with
    | error f => rfl
    | ok info =>
      simp only
      by_cases herr : info.err ≠ none
      · simp only [if_pos herr]
        rfl
      · simp only [if_neg herr]
        by_cases hno : info.sniPos ≤ 0 ∨ info.sniLen ≤ 0
        · simp only [if_pos hno]
          cases write record (Conn.fresh w.sends) with
          | mk result sent => cases result <;> rfl
        · simp only [if_neg hno]
          obtain ⟨m, hsend, -, hsaved⟩ :=
            sendInPlace_saved rule record info (Conn.fresh w.sends)
          simp only [Buffers.make, List.length_nil, List.nil_append, hsend]
          cases sendFragmented record info (Conn.fresh w.sends) with
          | mk result sent =>
            cases result with
            | error stop =>
              cases stop with
              | fault f => rfl
              | failed msg =>
                by_cases hfb : rule.fallbackMode ≠ ""
                · simp only [if_pos hfb, hsaved hfb]
                  obtain ⟨hend, hsession⟩ :=
                    handleTLSRFFallback_refines w wire clientConn host rule record conn s
                  rw [hend, hsession]
                · simp only [if_neg hfb]
                  rfl
            | ok _ =>
              obtain ⟨hend, hsession⟩ :=
                afterFragments_refines w wire clientConn host rule record sent conn s
              simp only [afterFragments_saved sent hsaved, hend, hsession]

/-! ## What is passed on -/

/-- One TLS record: five header bytes, of which the last two give the length of the rest. -/
def WholeRecord (r : List UInt8) : Prop :=
  ∃ t a b hi lo body, r = t :: a :: b :: hi :: lo :: body ∧ body.length = be16 hi lo

/-- The first record of a stream is the one that is read. -/
theorem readInitialTLSRecord_append {r s : List UInt8} (hr : WholeRecord r) :
    Hello.readInitialTLSRecord (r ++ s) = some (r, s) := by
  obtain ⟨t, a, b, hi, lo, body, rfl, hlen⟩ := hr
  simp only [Hello.readInitialTLSRecord, List.cons_append, List.length_append]
  rw [if_pos (by omega), List.take_left' hlen, List.drop_left' hlen]

theorem parseFrames_record {r : List UInt8} (hr : WholeRecord r) :
    parseFrames 3 r = some [⟨r.take 3, r.drop 5⟩] := by
  obtain ⟨t, a, b, hi, lo, body, rfl, hlen⟩ := hr
  have hone : [(⟨[t, a, b], body⟩ : Frame)].flatMap Frame.encode =
      t :: a :: b :: hi :: lo :: body := by
    simp [Frame.encode, hlen, put16_be16]
  have hfits : ∀ f ∈ [(⟨[t, a, b], body⟩ : Frame)], f.Fits 3 := by
    intro f hf
    obtain rfl := List.mem_singleton.mp hf
    exact ⟨rfl, hlen ▸ be16_lt hi lo⟩
  have hparse := parseFrames_encode 3 _ hfits
  rwa [hone] at hparse

/-- A probe that succeeds takes the first byte of what the upstream sends. -/
theorem readProbe_ok {wire : Wire} {b : UInt8} {segments : Front.Segments}
    (h : readProbe wire = .ok (b, segments)) : b :: segments.flatten = wire.incoming.flatten := by
  unfold readProbe at h
  split at h
  · cases h
  · split at h
    · rename_i b' more segments' hread
      obtain ⟨rfl, rfl⟩ := Prod.mk.inj (Except.ok.inj h)
      have hone := socket_within wire.incoming 1 (b' :: more) (by rw [hread])
      have hmore : more = [] := List.length_eq_zero_iff.mp (by simpa using hone)
      rcases socket.read_cases wire.incoming Nat.one_pos with ⟨hnone, -⟩ | ⟨items, hsome, -, hrest⟩
      · rw [hread] at hnone
        cases hnone
      · rw [hread] at hsome hrest
        obtain rfl := Option.some.inj hsome
        rw [hmore] at hrest
        exact hrest.symm
    · cases h

/-- What the upstream of a tunnel sends. -/
def Wire.sentBy (wire : Wire) : Path → List UInt8
  | .passthrough | .fragments => wire.incoming.flatten
  | .fallback => wire.fallbackIncoming.flatten

/-- What is left to read at both ends of a tunnel, and what the upstream has received of the
client's record `r`. -/
structure Forwarded (wire : Wire) (r s : List UInt8) (t : Tunnelled) : Prop where
  client : Front.connReader.rest t.clientConn = s
  upstream : Front.connReader.rest t.upstreamConn.reader = wire.sentBy t.path
  records : ∃ fs, parseFrames 3 t.upstreamConn.sent.written = some fs ∧
    fs.flatMap Frame.payload = r.drop 5
  unmodified : t.path ≠ .fragments → t.upstreamConn.sent.written = r

/-- The record in one write on a new connection. -/
theorem forwarded_of_write {wire : Wire} {r s : List UInt8} (hr : WholeRecord r) {t : Tunnelled}
    {fails : Nat → Option (Nat × String)}
    (hw : write r (Conn.fresh fails) = (.ok (), t.upstreamConn.sent))
    (hclient : Front.connReader.rest t.clientConn = s)
    (hup : Front.connReader.rest t.upstreamConn.reader = wire.sentBy t.path) :
    Forwarded wire r s t := by
  have hwritten : t.upstreamConn.sent.written = r := Reassembly.write_sent hw
  refine ⟨hclient, hup, ⟨[⟨r.take 3, r.drop 5⟩], ?_, ?_⟩, fun _ => hwritten⟩
  · rw [hwritten]
    exact parseFrames_record hr
  · simp

theorem handleTLSRFFallback_forwards {w : World} {wire : Wire} {clientConn : Front.Conn}
    {host : String} {rule : Rule} {r s : List UInt8} {t : Tunnelled} (hr : WholeRecord r)
    (hclient : Front.connReader.rest clientConn = s)
    (h : handleTLSRFFallback w wire clientConn host rule r = .tunnelled t) :
    Forwarded wire r s t := by
  unfold handleTLSRFFallback at h
  cases hdial : dialFallback w rule.fallbackMode (Net.joinHostPort host "443") w.serverHost with
  | error err => simp [hdial] at h
  | ok _ =>
    simp only [hdial] at h
    cases hw : write r (Conn.fresh w.fallbackSends) with
    | mk result newConn =>
      cases result with
      | error stop => simp [hw] at h
      | ok _ =>
        simp only [hw, Outcome.tunnelled.injEq] at h
        subst h
        exact forwarded_of_write hr hw hclient rfl

theorem afterFragments_forwards {w : World} {wire : Wire} {clientConn : Front.Conn} {host : String}
    {rule : Rule} {r s : List UInt8} {sent : Fragment.Conn} {t : Tunnelled} (hr : WholeRecord r)
    (hclient : Front.connReader.rest clientConn = s)
    (hsent : ∃ fs, parseFrames 3 sent.written = some fs ∧ fs.flatMap Frame.payload = r.drop 5)
    (h : afterFragments w wire clientConn host rule r sent = .tunnelled t) :
    Forwarded wire r s t := by
  unfold afterFragments at h
  by_cases hfb : rule.fallbackMode ≠ ""
  · rw [if_pos hfb] at h
    cases hprobe : readProbe wire with
    | error err =>
      rw [hprobe] at h
      exact handleTLSRFFallback_forwards hr hclient h
    | ok read =>
      simp only [hprobe, Outcome.tunnelled.injEq] at h
      subst h
      exact ⟨hclient, readProbe_ok hprobe, hsent, fun hne => absurd rfl hne⟩
  · rw [if_neg hfb, Outcome.tunnelled.injEq] at h
    subst h
    exact ⟨hclient, rfl, hsent, fun hne => absurd rfl hne⟩

/-- What the fragments carry, for a record with a name. -/
theorem sendFragmented_carries {conn r rest : List UInt8} {info : HelloInfo}
    (hread : Hello.readInitialTLSRecord conn = some (r, rest))
    (hp : parseClientHello r = .ok info) (herr : info.err = none) (hpos : 0 < info.sniPos)
    (hlen : 0 < info.sniLen) {fails : Nat → Option (Nat × String)} {sent : Fragment.Conn}
    (h : sendFragmented r info (Conn.fresh fails) = (.ok (), sent)) :
    ∃ fs, parseFrames 3 sent.written = some fs ∧ fs.flatMap Frame.payload = r.drop 5 := by
  have ha : Reassembly.Accepted r info := ⟨⟨conn, rest, hread⟩, hp, herr, hpos, hlen⟩
  obtain ⟨hfar, -⟩ := ha.bounds
  obtain ⟨cut, found, -, hlo, -, hparse⟩ := Reassembly.sendRecords_sent ha 4 1 (by decide)
    (by decide) true fails sent h
  refine ⟨_, hparse, ?_⟩
  rw [Reassembly.frames, Reassembly.flatMap_payload,
    Reassembly.payloads_flatten _ 4 cut (by decide) (by omega), Reassembly.patchMinor_drop]

theorem handleTLSFragment_forwards {w : World} {wire : Wire} {host : String} {rule : Rule}
    {r s : List UInt8} {t : Tunnelled} (hr : WholeRecord r)
    (hstream : Front.connReader.rest wire.client = r ++ s)
    (h : handleTLSFragment w wire host rule = .tunnelled t) : Forwarded wire r s t := by
  have hfirst := readInitialTLSRecord_append (s := s) hr
  unfold handleTLSFragment at h
  cases hread : readInitialTLSRecord wire.client with
  | none => simp [hread] at h
  | some read =>
    obtain ⟨record, clientConn⟩ := read
    have hsome := readInitialTLSRecord_some hread
    rw [hstream, hfirst] at hsome
    obtain ⟨rfl, hclient⟩ := Prod.mk.inj (Option.some.inj hsome)
    simp only [hread, Buffers.bytes_make] at h
    cases hp : parseClientHello r with
    | error f => simp [hp] at h
    | ok info =>
      simp only [hp] at h
      by_cases herr : info.err ≠ none
      · simp [if_pos herr] at h
      · simp only [if_neg herr] at h
        by_cases hno : info.sniPos ≤ 0 ∨ info.sniLen ≤ 0
        · simp only [if_pos hno] at h
          cases hw : write r (Conn.fresh w.sends) with
          | mk result sent =>
            cases result with
            | error stop => simp [hw] at h
            | ok _ =>
              simp only [hw, Outcome.tunnelled.injEq] at h
              subst h
              exact forwarded_of_write hr hw hclient.symm rfl
        · simp only [if_neg hno] at h
          obtain ⟨m, hplace, -, hsaved⟩ := sendInPlace_saved rule r info (Conn.fresh w.sends)
          simp only [Buffers.make, List.length_nil, List.nil_append, hplace] at h
          cases hsend : sendFragmented r info (Conn.fresh w.sends) with
          | mk result sent =>
            simp only [hsend] at h
            cases result with
            | error stop =>
              cases stop with
              | fault f => simp at h
              | failed msg =>
                simp only at h
                split at h
                · rename_i hfb
                  rw [hsaved hfb] at h
                  exact handleTLSRFFallback_forwards hr hclient.symm h
                · cases h
            | ok _ =>
              have hcarries := sendFragmented_carries hfirst hp (not_not.mp herr) (by omega)
                (by omega) hsend
              simp only [afterFragments_saved sent hsaved] at h
              exact afterFragments_forwards hr hclient.symm hcarries h

/-- **The handshake is forwarded once.** Whatever becomes of the sends, the probe and the
fallback: when a tunnel is reached, its upstream has received the client's first record, as
records whose payloads are its payload or as it is, and nothing else; the tunnel reads the
client's next bytes, and gives the client what that upstream sends from its first byte on. -/
theorem forwards_once (w : World) (wire : Wire) (host : String) (rule : Rule) (r s : List UInt8)
    (hr : WholeRecord r) (hstream : Front.connReader.rest wire.client = r ++ s) (t : Tunnelled)
    (h : handleTLSFragment w wire host rule = .tunnelled t) :
    (∃ fs, parseFrames 3 t.upstreamConn.sent.written = some fs ∧
        fs.flatMap Frame.payload = r.drop 5) ∧
      (t.path ≠ .fragments → t.upstreamConn.sent.written = r) ∧
      Front.connReader.ReadsExactly t.clientConn s ∧
      Front.connReader.ReadsExactly t.upstreamConn.reader (wire.sentBy t.path) := by
  obtain ⟨hclient, hup, hrecords, hsame⟩ := handleTLSFragment_forwards hr hstream h
  exact ⟨hrecords, hsame, (readsExactly_iff _ _ _).mpr hclient, (readsExactly_iff _ _ _).mpr hup⟩

/-- A client whose record arrives in two segments, the second with two bytes that follow; an
upstream that answers with three bytes, unless the probe ends in an error; and a fallback. -/
def sampleWire (probeErr : Option String) : Wire where
  client := .raw [Reassembly.helloNameFirst.take 30, Reassembly.helloNameFirst.drop 30 ++ [8, 9]]
  incoming := [[1, 2], [3]]
  fallbackIncoming := [[4], [5, 6]]
  probeErr := probeErr

def fallbackWorld : World := { sampleWorld "" [] with serverHost := "s" }

/-- The probe gives back its byte; after a failed one the fallback gets the record as it was
read, and not as the fragments were cut from it. -/
theorem sampleWire_forwarded :
    (∃ t, handleTLSFragment fallbackWorld (sampleWire none) "a.b" { fallbackMode := "server" } =
        .tunnelled t ∧ t.path = .fragments ∧
      Front.connReader.ReadsExactly t.clientConn [8, 9] ∧
      Front.connReader.ReadsExactly t.upstreamConn.reader [1, 2, 3]) ∧
    ∃ t, handleTLSFragment fallbackWorld (sampleWire (some "reset")) "a.b"
        { fallbackMode := "server" } = .tunnelled t ∧ t.path = .fallback ∧
      t.upstreamConn.sent.written = Reassembly.helloNameFirst ∧
      Reassembly.helloNameFirst ≠ patchMinor true Reassembly.helloNameFirst ∧
      Front.connReader.ReadsExactly t.clientConn [8, 9] ∧
      Front.connReader.ReadsExactly t.upstreamConn.reader [4, 5, 6] := by
  have hrun := fun probeErr t => forwards_once fallbackWorld (sampleWire probeErr) "a.b"
    { fallbackMode := "server" } Reassembly.helloNameFirst [8, 9]
    ⟨_, _, _, _, _, _, rfl, rfl⟩ rfl t
  refine ⟨?_, ?_⟩
  · obtain ⟨t, ht, hpath⟩ : ∃ t, handleTLSFragment fallbackWorld (sampleWire none) "a.b"
        { fallbackMode := "server" } = .tunnelled t ∧ t.path = .fragments := ⟨_, rfl, rfl⟩
    obtain ⟨-, -, hclient, hup⟩ := hrun none t ht
    rw [hpath] at hup
    exact ⟨t, ht, hpath, hclient, hup⟩
  · obtain ⟨t, ht, hpath⟩ : ∃ t, handleTLSFragment fallbackWorld (sampleWire (some "reset")) "a.b"
        { fallbackMode := "server" } = .tunnelled t ∧ t.path = .fallback := ⟨_, rfl, rfl⟩
    obtain ⟨-, hsame, hclient, hup⟩ := hrun (some "reset") t ht
    rw [hpath] at hup hsame
    exact ⟨t, ht, hpath, hsame (by decide), by decide, hclient, hup⟩

end SniShaper.Handshake
