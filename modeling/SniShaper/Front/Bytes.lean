import SniShaper.Front.Connect
import SniShaper.Lib.Readers

/-! The bytes behind a CONNECT or SOCKS5 request, and the connection that the front end hands
on: `wrapHijackedConn` and `bufferedReadConn` of `proxy/proxy.go`, `socks5HijackConn` and the
branches of `handleSocks5Connect` in `proxy/socks5.go`.

Both front ends read the request through a `bufio.Reader`, which may hold bytes of the client
that come after it. What is left is in segments on the socket, cut in any way.

* `rest_wrapHijackedConn`, `rest_socks5HijackConn`, `rest_raw_iff`: what the three kinds of
  connection give;
* `conserves_iff`: when the handler that takes over reads the client's bytes from the first
  one on. -/

namespace SniShaper.Front

open Strings Net Config Hosts Match Readers Reader

/-- What is still to come on a socket. -/
abbrev Segments := List (List UInt8)

/-- The `bufio.Reader` of a front end, over the client's socket. -/
abbrev Buffer := Bufio Segments UInt8

/-- All that the client sent after the request. -/
def clientBytes (buf : Buffer) : List UInt8 := buf.buffered ++ buf.under.flatten

/-! ## The source's functions -/

/-- The connections that are handed on: the socket itself, a `bufferedReadConn` with its
`io.MultiReader`, or a `socks5HijackConn` with the reader of the request. -/
inductive Conn where
  | raw (conn : Segments)
  | bufferedReadConn (reader : Option (List UInt8) × Segments)
  | socks5HijackConn (reader : Buffer)

/-- `Read` of the connections. -/
def connReader : Reader Conn UInt8 where
  read conn n :=
    match conn with
    | .raw s => ((socket.read s n).1, .raw (socket.read s n).2)
    | .bufferedReadConn s =>
      (((multi bytes socket).read s n).1, .bufferedReadConn ((multi bytes socket).read s n).2)
    | .socks5HijackConn s =>
      (((bufio socket).read s n).1, .socks5HijackConn ((bufio socket).read s n).2)
  rest conn :=
    match conn with
    | .raw s => socket.rest s
    | .bufferedReadConn s => (multi bytes socket).rest s
    | .socks5HijackConn s => (bufio socket).rest s
  answers conn n hn := by
    cases conn with
    | raw s => exact socket.answers s n hn
    | bufferedReadConn s => exact (multi bytes socket).answers s n hn
    | socks5HijackConn s => exact (bufio socket).answers s n hn

def wrapHijackedConn (rw : Buffer) : Conn :=
  if rw.buffered.length = 0 then .raw rw.under
  else
    let n := rw.buffered.length
    let buffered := ((bufio socket).read rw n).1.getD []
    .bufferedReadConn (some buffered, ((bufio socket).read rw n).2.under)

/-- The connection that `handleConnect` and `directConnect` give to the handler. -/
def connectConn (rw : Buffer) : Action → Option Conn
  | .refused => none
  | .direct | .server | .quic | .mitm | .tlsRF | .tunnel => some (wrapHijackedConn rw)

/-- The connection that `handleSocks5Connect` gives to the handler; the socket is the one
that its tracker knows. -/
def socks5Conn (reader : Buffer) : Action → Option Conn
  | .refused => none
  | .direct | .tunnel => some (.raw reader.under)
  | .server | .quic | .mitm | .tlsRF => some (.socks5HijackConn reader)

/-- A request at one of the front ends. -/
inductive Request where
  | connect (urlHost reqHost : String)
  | socks5 (dest : AddrSpec)

section

variable [CaseTables]

def Request.handOn (router : Router) (mode : String) (buf : Buffer) : Request → Option Conn
  | .connect urlHost reqHost => connectConn buf (handleRequest router mode urlHost reqHost).action
  | .socks5 dest => socks5Conn buf (handleSocks5Connect router mode dest).action

/-! ## What the handler reads -/

omit [CaseTables] in
theorem rest_wrapHijackedConn (rw : Buffer) :
    connReader.rest (wrapHijackedConn rw) = clientBytes rw := by
  unfold wrapHijackedConn
  split
  · rename_i hempty
    simp [connReader, clientBytes, socket, List.length_eq_zero_iff.mp hempty]
  · rename_i hne
    rw [List.length_eq_zero_iff] at hne
    simp only [bufio_read_buffered socket hne, Option.getD_some]
    rfl

omit [CaseTables] in
theorem rest_socks5HijackConn (reader : Buffer) :
    connReader.rest (.socks5HijackConn reader) = clientBytes reader := rfl

omit [CaseTables] in
/-- The socket alone gives all bytes exactly when none of them is in the buffer. -/
theorem rest_raw_iff (reader : Buffer) :
    connReader.rest (.raw reader.under) = clientBytes reader ↔ reader.buffered = [] := by
  simp [connReader, socket, clientBytes]

/-- The modes whose handlers get the reader of a SOCKS5 request. -/
def wrappedModes : List String := ["server", "quic", "mitm", "tls-rf"]

omit [CaseTables] in
theorem socks5Conn_cases (reader : Buffer) (mode : String) :
    (mode ∈ wrappedModes ∧ socks5Conn reader (socks5Action mode) = some (.socks5HijackConn reader)) ∨
      (mode ∉ wrappedModes ∧ socks5Conn reader (socks5Action mode) = some (.raw reader.under)) := by
  unfold socks5Action
  split
  · exact .inr ⟨by decide, rfl⟩
  · exact .inl ⟨by decide, rfl⟩
  · exact .inl ⟨by decide, rfl⟩
  · exact .inl ⟨by decide, rfl⟩
  · exact .inl ⟨by decide, rfl⟩
  · rename_i h1 h2 h3 h4 h5
    exact .inr ⟨by simpa [wrappedModes] using ⟨h2, h3, h4, h5⟩, rfl⟩

/-- A SOCKS5 request for a destination whose handler gets the socket. -/
def Request.Bypasses (router : Router) (mode : String) (req : Request) : Prop :=
  ∃ dest, req = .socks5 dest ∧
    effectiveMode (matchRule router (normalizeHost dest.host) mode) ∉ wrappedModes

/-- **Byte conservation**: the handler that takes over reads what the client sent after the
request, from the first byte on and nothing else, exactly when no byte is in the buffer of a
SOCKS5 request that bypasses it. -/
theorem conserves_iff (router : Router) (mode : String) (req : Request) (buf : Buffer) :
    (∀ conn, req.handOn router mode buf = some conn →
        connReader.ReadsExactly conn (clientBytes buf)) ↔
      (req.Bypasses router mode → buf.buffered = []) := by
  cases req with
  | connect urlHost reqHost =>
    have hno : ¬ (Request.connect urlHost reqHost).Bypasses router mode := by
      rintro ⟨dest, hdest, -⟩
      cases hdest
    refine iff_of_true (fun conn hconn => ?_) fun hb => absurd hb hno
    have hwrap : conn = wrapHijackedConn buf := by
      simp only [Request.handOn] at hconn
      cases haction : (handleRequest router mode urlHost reqHost).action <;>
        rw [haction] at hconn <;> cases hconn <;> rfl
    rw [hwrap, readsExactly_iff, rest_wrapHijackedConn]
  | socks5 dest =>
    have haction : (handleSocks5Connect router mode dest).action =
        socks5Action (effectiveMode (matchRule router (normalizeHost dest.host) mode)) := by
      simp only [handleSocks5Connect, prepareConnect]
    simp only [Request.handOn, haction, Request.Bypasses, Request.socks5.injEq, exists_eq_left']
    rcases socks5Conn_cases buf (effectiveMode (matchRule router (normalizeHost dest.host) mode))
      with ⟨hmem, hconn⟩ | ⟨hmem, hconn⟩
    · simp [hconn, hmem, readsExactly_iff, rest_socks5HijackConn]
    · simp [hconn, hmem, readsExactly_iff, rest_raw_iff]

end

/-- A client that sends its first three bytes together with the request. -/
def earlyBytes : Buffer where
  size := 4096
  size_pos := by decide
  buffered := [22, 3, 1]
  under := [[1, 2]]

/-- The destination has no rule, and the tunnel of the SOCKS5 request starts at the fourth
byte; that of the CONNECT request has all five. -/
theorem socks5_loses_bytes :
    ((Request.socks5 otherHost).handOn blocking "mitm" earlyBytes).map
          (connReader.reads · [5, 5, 5]) = some [1, 2] ∧
      ((Request.connect otherHost.authority otherHost.authority).handOn blocking "mitm"
        earlyBytes).map (connReader.reads · [5, 5, 5]) = some [22, 3, 1, 1, 2] ∧
      ¬ ∀ conn, (Request.socks5 otherHost).handOn blocking "mitm" earlyBytes = some conn →
        connReader.ReadsExactly conn (clientBytes earlyBytes) := by
  refine ⟨by decide, by decide, fun h => ?_⟩
  have haction : (handleSocks5Connect blocking "mitm" otherHost).action = .direct := by decide
  have hraw :
      (Request.socks5 otherHost).handOn blocking "mitm" earlyBytes = some (.raw [[1, 2]]) := by
    rw [Request.handOn, haction]
    rfl
  have hall := (h _ hraw [5, 5, 5, 5, 5] (by decide)).2 (by decide)
  revert hall
  decide

end SniShaper.Front
