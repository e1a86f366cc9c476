import SniShaper.Lib.Chunks
import SniShaper.Tls.Hello

/-! TLS record fragmentation (`sendRecords` of `proxy/tls_fragment.go`): the
first record of the client is cut inside its server name, each half is cut into
chunks, every chunk is framed as a record of its own, and the records are sent
as one write, as one write each or as a given number of TCP segments.

The connection is a trace of packets with an outcome for every send. A send that
fails keeps the bytes that were accepted before the error; sleeping between two
sends leaves no trace. -/

namespace SniShaper.Fragment

open Bounds Frames Chunks Hello

/-! ## The connection -/

inductive Packet
  | data (bytes : List UInt8)
  | oob (bytes : List UInt8) (urgent : UInt8)
  deriving DecidableEq, Repr

def Packet.bytes : Packet → List UInt8
  | .data bs => bs
  | .oob bs b => bs ++ [b]

/-- What was sent so far, and for the `k`-th send the number of bytes accepted
and the error, if it fails. -/
structure Conn where
  sent : List Packet
  fails : Nat → Option (Nat × String)

/-- A connection on which nothing was sent. -/
def Conn.fresh (fails : Nat → Option (Nat × String)) : Conn := ⟨[], fails⟩

/-- All bytes written to the connection, in order. -/
def Conn.written (c : Conn) : List UInt8 := c.sent.flatMap Packet.bytes

/-- Why a send does not return nil. -/
inductive Stop
  | failed (msg : String)
  | fault (f : Fault)
  deriving DecidableEq, Repr

def SendM (α : Type) : Type := Conn → Except Stop α × Conn

def SendM.bind {α β : Type} (x : SendM α) (f : α → SendM β) : SendM β := fun c =>
  match x c with
  | (.ok a, c') => f a c'
  | (.error e, c') => (.error e, c')

instance : Monad SendM where
  pure a := fun c => (.ok a, c)
  bind := SendM.bind

def lift {α : Type} (x : Checked α) : SendM α := fun c =>
  match x with
  | .ok a => (.ok a, c)
  | .error f => (.error (.fault f), c)

def transmit (p : Packet) (accepted : Nat → Packet) : SendM Unit := fun c =>
  match c.fails c.sent.length with
  | none => (.ok (), { c with sent := c.sent ++ [p] })
  | some (n, e) => (.error (.failed e), { c with sent := c.sent ++ [accepted n] })

/-- `conn.Write(p)` -/
def write (p : List UInt8) : SendM Unit := transmit (.data p) (fun n => .data (p.take n))

def sendWithOOB (data : List UInt8) (oob : UInt8) : SendM Unit :=
  transmit (.oob data oob) (fun n => .data (data.take n))

/-- `wrap(msg, err)` around a send that fails. -/
def wrap (msg : String) (x : SendM Unit) : SendM Unit := fun c =>
  match x c with
  | (.error (.failed e), c') => (.error (.failed (msg ++ ": " ++ e)), c')
  | r => r

/-! ## Cutting -/

def dot : UInt8 := 0x2e

/-- The downward scan of `findLastDot`, from `lo + k - 1` to `lo`. -/
def scanDot (data : List UInt8) (lo : Int) : Nat → Checked (Option Int)
  | 0 => pure none
  | k + 1 => do
    let b ← index data (lo + k)
    if b = dot then return some (lo + k)
    scanDot data lo k

def findLastDot (data : List UInt8) (sniPos sniLen : Int) : Checked (Int × Bool) := do
  match ← scanDot data sniPos (sniLen + 1).toNat with
  | some i => return (i, true)
  | none => return (sniLen.tdiv 2 + sniPos, false)

/-- Five header bytes, of which `copy` fills the first three, and the payload. -/
def makeRecord (header payload : List UInt8) : List UInt8 :=
  (header ++ [0, 0, 0]).take 3 ++ (put16 payload.length ++ payload)

def addHeader (header : Option (List UInt8)) (part : List UInt8) : List UInt8 :=
  match header with
  | some h => makeRecord h part
  | none => part

/-- Part `i` of `n`: the last one takes what is left. -/
def splitPart (data : List UInt8) (n base i : Int) : Checked (List UInt8) :=
  if i = n - 1 then sliceFrom data (i * base) else slice data (i * base) ((i + 1) * base)

/-- The loop of `splitAndAppend`: `k` rounds are left, the next one is `i`. -/
def splitLoop (data : List UInt8) (header : Option (List UInt8)) (n base : Int) :
    Nat → Nat → List (List UInt8) → Checked (List (List UInt8))
  | 0, _, result => pure result
  | k + 1, i, result => do
    let part ← splitPart data n base i
    splitLoop data header n base k (i + 1) (result ++ [addHeader header part])

def splitAndAppend (data : List UInt8) (header : Option (List UInt8)) (n : Int)
    (result : List (List UInt8)) : Checked (List (List UInt8)) :=
  if n ≤ 0 then pure result
  else if n = 1 ∨ (data.length : Int) < n then pure (result ++ [addHeader header data])
  else splitLoop data header n ((data.length : Int).tdiv n) n.toNat 0 result

/-- `make([][]byte, 0, n)` -/
def makeCap (n : Int) : Checked (List (List UInt8)) :=
  if n < 0 then .error .outOfRange else pure []

/-! ## Sending -/

/-- The packets of a single record that was cut into TCP segments. -/
def sendPackets (oob : Bool) : Nat → List (List UInt8) → SendM Unit
  | _, [] => pure ()
  | i, packet :: packets => do
    if i = 0 ∧ oob then wrap "oob" (sendWithOOB packet 0x0)
    else wrap ("write packet " ++ toString (i + 1)) (write packet)
    sendPackets oob (i + 1) packets

def sendSingleRecord (clientHello : List UInt8) (offset length segments : Int)
    (oob oobex : Bool) : SendM Unit := do
  let clientHello ←
    if oobex then do
      let first ← lift (slice clientHello 0 15)
      let urgent ← lift (index clientHello 15)
      wrap "oob 1" (sendWithOOB first urgent)
      let second ← lift (slice clientHello 16 20)
      wrap "oob 2" (sendWithOOB second 0x0)
      lift (sliceFrom clientHello 20)
    else pure clientHello
  if segments = 1 then wrap "send remaining data" (write clientHello)
  else
    let leftSegments := segments.tdiv 2
    let rightSegments := segments - leftSegments
    let packets ← lift (makeCap segments)
    let (cut, _) ← lift (findLastDot clientHello (offset - 20) length)
    let left ← lift (slice clientHello 0 cut)
    let packets ← lift (splitAndAppend left none leftSegments packets)
    let right ← lift (sliceFrom clientHello cut)
    let packets ← lift (splitAndAppend right none rightSegments packets)
    sendPackets oob 0 packets

/-- The records: the half before the cut in `records / 2` chunks, the other half
in the rest. -/
def recordChunks (clientHello : List UInt8) (offset length records : Int) :
    Checked (List (List UInt8)) := do
  let leftChunks := records.tdiv 2
  let rightChunks := records - leftChunks
  let chunks ← makeCap records
  let (cut, _) ← findLastDot clientHello offset length
  let header ← slice clientHello 0 3
  let left ← slice clientHello 5 cut
  let chunks ← splitAndAppend left (some header) leftChunks chunks
  let right ← sliceFrom clientHello cut
  splitAndAppend right (some header) rightChunks chunks

/-- One write per record (`segments = -1`). The first record is sent only by the
two out-of-band branches. -/
def sendChunks (oob oobex : Bool) : Nat → List (List UInt8) → SendM Unit
  | _, [] => pure ()
  | i, chunk :: chunks => do
    if i = 0 then
      if oob then wrap "oob" (sendWithOOB chunk 0x0)
      else if oobex then do
        let body ← lift (slice chunk 0 (chunk.length - 1))
        let last ← lift (index chunk (chunk.length - 1))
        wrap "oob 1" (sendWithOOB body last)
      else pure ()
    else if i = 1 ∧ oobex then wrap "oob 2" (sendWithOOB chunk 0x0)
    else wrap ("write record " ++ toString (i + 1)) (write chunk)
    sendChunks oob oobex (i + 1) chunks

/-- The TCP segments of the merged records: `k` are left, the next one is `i`. -/
def sendSegments (merged : List UInt8) (segments base : Int) (oob : Bool) :
    Nat → Nat → SendM Unit
  | 0, _ => pure ()
  | k + 1, i => do
    let start : Int := i * base
    let stop : Int := if (i : Int) = segments - 1 then merged.length else start + base
    let part ← lift (slice merged start stop)
    if i = 0 ∧ oob then wrap "oob" (sendWithOOB part 0x0)
    else wrap ("write segment " ++ toString (i + 1)) (write part)
    sendSegments merged segments base oob k (i + 1)

def sendMerged (merged : List UInt8) (segments : Int) (oob oobex : Bool) : SendM Unit := do
  let merged ←
    if oobex then do
      let first ← lift (slice merged 0 15)
      let urgent ← lift (index merged 15)
      wrap "oob 1" (sendWithOOB first urgent)
      let second ← lift (slice merged 16 20)
      wrap "oob 2" (sendWithOOB second 0x0)
      lift (sliceFrom merged 20)
    else pure merged
  if segments = 1 ∨ (merged.length : Int) ≤ segments then write merged
  else
    let base ← lift (quo merged.length segments)
    sendSegments merged segments base oob segments.toNat 0

/-- `clientHello[2] = 0x04`, when the minor version is to be modified. -/
def patchMinor (modMinorVer : Bool) (clientHello : List UInt8) : List UInt8 :=
  if modMinorVer ∧ 3 ≤ clientHello.length then clientHello.set 2 0x04 else clientHello

/-- `sendRecords` behind the change of the minor version. -/
def sendPatched (clientHello : List UInt8) (offset length records segments : Int)
    (oob oobex : Bool) : SendM Unit := do
  if records = 1 then sendSingleRecord clientHello offset length segments oob oobex
  else
    let chunks ← lift (recordChunks clientHello offset length records)
    if segments = -1 then sendChunks oob oobex 0 chunks
    else sendMerged chunks.flatten segments oob oobex

def sendRecords (clientHello : List UInt8) (offset length records segments : Int)
    (oob oobex modMinorVer : Bool) : SendM Unit :=
  sendPatched (patchMinor modMinorVer clientHello) offset length records segments oob oobex

def defaultTLSRFNumRecords : Int := 4
def defaultTLSRFNumSegments : Int := 1
def defaultTLSRFModMinorVer : Bool := true
def defaultTLSRFOOB : Bool := false
def defaultTLSRFOOBEx : Bool := false

/-- The call that `handleTLSFragment` makes for a parsed record. -/
def sendFragmented (record : List UInt8) (info : HelloInfo) : SendM Unit :=
  sendRecords record info.sniPos info.sniLen defaultTLSRFNumRecords defaultTLSRFNumSegments
    defaultTLSRFOOB defaultTLSRFOOBEx defaultTLSRFModMinorVer

end SniShaper.Fragment
