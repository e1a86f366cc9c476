import SniShaper.Front.Tunnel
import SniShaper.Lib.Machine
import SniShaper.Tls.Reassembly

/-! The upstream connections of a CONNECT request: which of them are open when
`handleConnect` is left.

Each handler is described by what it does to the set of open connections, `Session.Done`;
all but the one of mode mitm close the connection that was dialled for them.

* `handleConnect_returned_iff`: when the handler of mode tls-rf panics;
* `upstream_closed_iff`: when every connection of a request is closed at its end;
* `handleConnect_client`: the client's own connection is closed in every mode;
* `handleConnect_panicked`: what a panic leaves open;
* `serve_noneOpen_iff`: the same over any number of requests. -/

namespace SniShaper.Tunnel

open Strings Net Config Hosts Match Profiles Candidates Establish Alpn Handles Bounds Hello
  Fragment Front Machine

/-- The upstream connections that are open. -/
def Session.opened (s : Session) : Set Nat := openIn s.upstream

/-- Every connection opened since `before` has been closed. -/
def Session.ClosedSince (before after : Session) : Prop :=
  ∀ conn ∈ after.opened, conn < before.upstream.length

theorem closedSince_of_eq {before after : Session} (h : after.opened = before.opened) :
    Session.ClosedSince before after := by
  intro conn hconn
  rw [h] at hconn
  exact lt_of_mem_openIn hconn

/-! ## Steps -/

section Steps

variable (s : Session)

@[simp] theorem opened_close_client : (s.close .client).opened = s.opened := rfl

@[simp] theorem opened_close_upstream (conn : Nat) :
    (s.close (.upstream conn)).opened = s.opened \ {conn} :=
  openIn_release s.upstream conn

@[simp] theorem opened_dial : s.dial.opened = insert s.upstream.length s.opened :=
  openIn_acquire s.upstream

@[simp] theorem opened_error (code : Nat) (msg : String) : (s.error code msg).opened = s.opened :=
  rfl

@[simp] theorem opened_directTunnel_upstream (conn : Nat) :
    (directTunnel s .client (.upstream conn)).opened = s.opened \ {conn} := by
  simp [directTunnel]

@[simp] theorem opened_directTunnel_client :
    (directTunnel s .client .client).opened = s.opened := rfl

/-- The next connection to be dialled is not open. -/
@[simp] theorem length_notMem_opened : s.upstream.length ∉ s.opened :=
  length_notMem_openIn s.upstream

end Steps

/-- The client's connection is taken over and the 200 is sent. -/
def Client.Accepts (c : Client) : Prop :=
  c.hijacker = true ∧ c.hijack = .ok () ∧ c.writeString = .ok () ∧ c.flush = .ok ()

theorem accept_of_accepts {c : Client} (h : c.Accepts) (held : Option Nat) (s : Session) :
    accept c held s = (true, { s with client := true }) := by
  obtain ⟨hhijacker, hhijack, hwrite, hflush⟩ := h
  simp [accept, hhijacker, hhijack, hwrite, hflush]

/-- When the client is not accepted, the connection that is held is closed, and the client's
if it was taken over. -/
theorem accept_of_not_accepts {c : Client} (h : ¬ c.Accepts) (held : Option Nat) (s : Session) :
    ∃ s', accept c held s = (false, s') ∧ s'.opened = s.opened \ {conn | held = some conn} ∧
      (s.client = false → s'.client = false) := by
  have hheld : ∀ s' : Session, s'.opened = s.opened → (s.client = false → s'.client = false) →
      (held.elim s' fun conn => s'.close (.upstream conn)).opened =
          s.opened \ {conn | held = some conn} ∧
        (s.client = false →
          (held.elim s' fun conn => s'.close (.upstream conn)).client = false) := by
    intro s' hopened hclient
    cases held with
    | none => exact ⟨by simp [hopened], hclient⟩
    | some conn => exact ⟨by simp [hopened], hclient⟩
  unfold accept
  by_cases hhijacker : c.hijacker = false
  · rw [if_pos hhijacker]
    exact ⟨_, rfl, hheld _ rfl id⟩
  · rw [if_neg hhijacker]
    cases hhijack : c.hijack with
    | error err => exact ⟨_, rfl, hheld _ rfl id⟩
    | ok u =>
      cases hwrite : c.writeString with
      | error err => exact ⟨_, rfl, hheld _ rfl fun _ => rfl⟩
      | ok u =>
        cases hflush : c.flush with
        | error err => exact ⟨_, rfl, hheld _ rfl fun _ => rfl⟩
        | ok u => exact absurd ⟨by simpa using hhijacker, hhijack, hwrite, hflush⟩ h

/-- A client that is not accepted costs the connection that was just dialled. -/
theorem accept_dialled {c : Client} (h : ¬ c.Accepts) (s : Session) :
    ∃ s', accept c (some s.upstream.length) s.dial = (false, s') ∧ s'.opened = s.opened ∧
      (s.client = false → s'.client = false) := by
  obtain ⟨s', heq, hopened, hclient⟩ :=
    accept_of_not_accepts h (some s.upstream.length) s.dial
  refine ⟨s', heq, ?_, hclient⟩
  rw [hopened]
  simp

/-! ## Handlers -/

/-- What a handler does to the connections it finds: those in `closed` are closed, and so
is the client's. -/
structure Session.Done (before after : Session) (closed : Set Nat) : Prop where
  opened : after.opened = before.opened \ closed
  client : after.client = false

theorem close_client_done (s : Session) : s.Done (s.close .client) ∅ :=
  ⟨by simp, rfl⟩

theorem directTunnel_done (s : Session) (conn : Nat) :
    s.Done (directTunnel s .client (.upstream conn)) {conn} :=
  ⟨opened_directTunnel_upstream s conn, rfl⟩

theorem Session.Done.after_close {s s' : Session} {conn : Nat}
    (h : (s.close (.upstream conn)).Done s' ∅) : s.Done s' {conn} :=
  ⟨by simpa using h.opened, h.client⟩

theorem handleTLSRFFallback_done (w : World) (host : String) (rule : Rule)
    (originalRecord : List UInt8) (s : Session) :
    s.Done (handleTLSRFFallback w host rule originalRecord s) ∅ := by
  unfold handleTLSRFFallback
  cases dialFallback w rule.fallbackMode (joinHostPort host "443") w.serverHost with
  | error err => exact close_client_done s
  | ok u =>
    simp only
    split
    · exact ⟨by simp, rfl⟩
    · exact ⟨by simp, rfl⟩

theorem afterFragments_done (w : World) (host : String) (rule : Rule) (record : List UInt8)
    (conn : Nat) (s : Session) : s.Done (afterFragments w host rule record conn s) {conn} := by
  unfold afterFragments
  split
  · split
    · exact (handleTLSRFFallback_done ..).after_close
    · exact directTunnel_done s conn
  · exact directTunnel_done s conn

/-- The handler of mode tls-rf closes the connection it was given, unless it panics. -/
theorem handleTLSFragment_done (w : World) (conn : Nat) (host : String) (rule : Rule)
    (s : Session) :
    ((handleTLSFragment w conn host rule s).1 = .returned ∧
        s.Done (handleTLSFragment w conn host rule s).2 {conn}) ∨
      ∃ f, handleTLSFragment w conn host rule s = (.panicked f, s) := by
  have hboth : s.Done ((s.close .client).close (.upstream conn)) {conn} := ⟨by simp, rfl⟩
  unfold handleTLSFragment
  simp only
  split
  · exact .inl ⟨rfl, hboth⟩
  · split
    · exact .inr ⟨_, rfl⟩
    · split
      · exact .inl ⟨rfl, hboth⟩
      · split
        · split
          · exact .inl ⟨rfl, hboth⟩
          · exact .inl ⟨rfl, directTunnel_done s conn⟩
        · split
          · exact .inr ⟨_, rfl⟩
          · refine .inl ⟨rfl, Session.Done.after_close ?_⟩
            simp only
            split
            · exact handleTLSRFFallback_done ..
            · exact close_client_done _
          · exact .inl ⟨rfl, afterFragments_done ..⟩

theorem handleTLSFragment_of_returned (w : World) {conn : Nat} {host : String} {rule : Rule}
    {s : Session} (hret : (handleTLSFragment w conn host rule s).1 = .returned) :
    s.Done (handleTLSFragment w conn host rule s).2 {conn} := by
  rcases handleTLSFragment_done w conn host rule s with ⟨-, hdone⟩ | ⟨f, heq⟩
  · exact hdone
  · rw [heq] at hret
    cases hret

section

variable [CaseTables] (w : World)

/-- A failed `establishUpstreamConn` leaves no connection open; the one that a successful
one returns is the only one. -/
theorem establish_opened (host : String) (rule : Rule) (dialCandidates : List String)
    (s : Session) :
    (∃ err s', establish w host rule dialCandidates s = (.error err, s') ∧
        s'.opened = s.opened) ∨
      ∃ conn alpn s', establish w host rule dialCandidates s = (.ok (conn, alpn), s') ∧
        s'.opened \ {conn} = s.opened := by
  have hadds : Adds (withUTLS w.servers) { store := w.store } _ _ :=
    establishUpstreamConn_adds host rule dialCandidates "" { store := w.store }
  unfold establish
  generalize establishUpstreamConn (withUTLS w.servers) host rule dialCandidates ""
    { store := w.store } = outcome at hadds
  obtain ⟨result, run⟩ := outcome
  have hclosed : ∀ failed : List Attempt, (∀ a ∈ failed, a.completed = false) →
      openIn (s.upstream ++ failed.map Attempt.completed) = s.opened := by
    intro failed hfailed
    exact openIn_append_closed (by simpa using hfailed)
  cases result with
  | error err =>
    cases hadds with
    | gaveUp failed hfailed heq =>
      refine .inl ⟨err, _, rfl, ?_⟩
      rw [heq]
      exact hclosed failed hfailed
  | ok alpn =>
    cases hadds with
    | connected _ failed last n hfailed hnetwork hdone heq =>
      have hlast : last.completed = true := last.completed_iff.mpr ⟨alpn, hdone⟩
      have htable : s.upstream ++ run.handshakes.map Attempt.completed =
          acquire (s.upstream ++ failed.map Attempt.completed) := by
        rw [heq]
        simp [acquire, hlast]
      refine .inr ⟨_, alpn, _, rfl, ?_⟩
      rw [htable, length_acquire, Nat.add_sub_cancel, Session.opened, openIn_acquire_sdiff]
      exact hclosed failed hfailed

theorem handleMITM_done (host : String) (rule : Rule) (dialCandidates : List String)
    (initialDialAddr : String) (s : Session) :
    s.Done (handleMITM w host rule dialCandidates initialDialAddr s).2 ∅ := by
  unfold handleMITM
  split
  · exact close_client_done s
  · split
    · exact close_client_done s
    · rcases establish_opened w host rule (mitmCandidates dialCandidates initialDialAddr) s with
        ⟨err, s', heq, hopened⟩ | ⟨conn, alpn, s', heq, hopened⟩
      · rw [heq]
        exact ⟨by simp [hopened], rfl⟩
      · rw [heq]
        -- the deferred close finds the connection closed
        have hagain : s.opened \ {conn} = s.opened := by rw [← hopened, sdiff_idem]
        simp only
        split
        · refine ⟨?_, rfl⟩
          simp only [opened_close_upstream, opened_close_client, hopened, hagain, Set.sdiff_empty]
        · refine ⟨?_, rfl⟩
          simp only [opened_close_upstream, opened_directTunnel_upstream, hopened, hagain,
            Set.sdiff_empty]

theorem handleServerMITM_done (rule : Rule) (s : Session) :
    s.Done (handleServerMITM w rule s) ∅ := by
  unfold handleServerMITM
  split
  · exact close_client_done s
  · split
    · exact close_client_done s
    · split
      · exact close_client_done s
      · rcases establish_opened w w.serverHost rule (serverCandidates w rule) s with
          ⟨err, s', heq, hopened⟩ | ⟨conn, alpn, s', heq, hopened⟩
        · rw [heq]
          exact ⟨by simp [hopened], rfl⟩
        · rw [heq]
          exact ⟨by simpa using hopened, rfl⟩

omit [CaseTables] in
theorem acceptThen_opened {handler : Session → Session}
    (h : ∀ s : Session, s.Done (handler s) ∅) (s : Session) :
    (acceptThen w handler s).opened = s.opened := by
  unfold acceptThen
  by_cases hacc : w.client.Accepts
  · rw [accept_of_accepts hacc]
    exact (h _).opened.trans Set.sdiff_empty
  · obtain ⟨s', heq, hopened, -⟩ := accept_of_not_accepts hacc none s
    rw [heq]
    simpa using hopened

omit [CaseTables] in
theorem directConnect_opened (targetAddr : String) (s : Session) :
    (directConnect w targetAddr s).opened = s.opened := by
  unfold directConnect
  split
  · rfl
  · by_cases hacc : w.client.Accepts
    · simp only [accept_of_accepts hacc, opened_directTunnel_upstream]
      exact openIn_acquire_sdiff s.upstream
    · obtain ⟨s', heq, hopened, -⟩ := accept_dialled hacc s
      simpa only [heq] using hopened

/-! ## Requests -/

omit [CaseTables] in
/-- The loop finds an address exactly when one of its dials succeeds. -/
theorem dialFirst_ok_iff (dial : Nat → Except String Unit) (n : Nat) (addrs : List String)
    (lastErr : String) :
    (∃ addr, dialFirst dial n addrs lastErr = .ok addr) ↔
      ∃ i < addrs.length, dial (n + i) = .ok () := by
  induction addrs generalizing n lastErr with
  | nil => simp [dialFirst]
  | cons addr rest ih =>
    unfold dialFirst
    cases hdial : dial n with
    | ok u =>
      exact iff_of_true ⟨addr, rfl⟩ ⟨0, by simp, hdial⟩
    | error err =>
      simp only [ih]
      constructor
      · rintro ⟨i, hi, hok⟩
        exact ⟨i + 1, by simpa using hi, by rw [← hok]; congr 1; omega⟩
      · rintro ⟨i, hi, hok⟩
        cases i with
        | zero => simp [hdial] at hok
        | succ i => exact ⟨i, by simpa using hi, by rw [← hok]; congr 1; omega⟩

/-- One of the candidates answers. -/
def World.Connects (cr : ConnectResult) : Prop :=
  ∃ n < (connectCandidates w cr).length, w.dial n = .ok ()

theorem connects_iff (cr : ConnectResult) :
    w.Connects cr ↔ ∃ addr, dialFirst w.dial 0 (connectCandidates w cr) "" = .ok addr := by
  rw [dialFirst_ok_iff, World.Connects]
  simp only [Nat.zero_add]

theorem dialUpstream_of_connects {w : World} {cr : ConnectResult} (h : w.Connects cr)
    (s : Session) :
    ∃ dialled, dialUpstream w cr s = (.ok dialled, s.dial) ∧ dialled.conn = s.upstream.length := by
  obtain ⟨addr, haddr⟩ := (connects_iff w cr).mp h
  simp only [dialUpstream, haddr]
  exact ⟨_, rfl, rfl⟩

theorem dialUpstream_of_not_connects {w : World} {cr : ConnectResult} (h : ¬ w.Connects cr)
    (s : Session) : ∃ err, dialUpstream w cr s = (.error err, s) := by
  unfold dialUpstream
  simp only
  split
  · rename_i addr haddr
    exact absurd ((connects_iff w cr).mpr ⟨addr, haddr⟩) h
  · exact ⟨_, rfl⟩

/-- A request that gets through to its handler, which is given the connection that was
dialled for it. -/
theorem connectThen_of_reaches {w : World} {cr : ConnectResult} (hconn : w.Connects cr)
    (hacc : w.client.Accepts) (handler : Dialled → Session → Ending × Session) (s : Session) :
    ∃ dialled : Dialled, dialled.conn = s.upstream.length ∧
      connectThen w cr handler s = handler dialled { s.dial with client := true } := by
  obtain ⟨dialled, hdial, hnumber⟩ := dialUpstream_of_connects hconn s
  refine ⟨dialled, hnumber, ?_⟩
  simp only [connectThen, hdial, accept_of_accepts hacc]

/-- Before the handler is reached nothing is left open. -/
theorem connectThen_of_not_reaches {w : World} {cr : ConnectResult}
    (h : ¬ (w.Connects cr ∧ w.client.Accepts))
    (handler : Dialled → Session → Ending × Session) (s : Session) :
    ∃ s', connectThen w cr handler s = (.returned, s') ∧ s'.opened = s.opened ∧
      (s.client = false → s'.client = false) := by
  unfold connectThen
  by_cases hconn : w.Connects cr
  · obtain ⟨dialled, hdial, hnumber⟩ := dialUpstream_of_connects hconn s
    obtain ⟨s', heq, hkept⟩ := accept_dialled (fun hacc => h ⟨hconn, hacc⟩) s
    simp only [hdial, hnumber, heq]
    exact ⟨s', rfl, hkept⟩
  · obtain ⟨err, hdial⟩ := dialUpstream_of_not_connects hconn s
    simp only [hdial]
    exact ⟨_, rfl, rfl, id⟩

omit [CaseTables] in
theorem connectAction_mitm_iff (mode : String) : connectAction mode = .mitm ↔ mode = "mitm" := by
  unfold connectAction
  split
  case h_8 h1 h2 h3 h4 h5 h6 h7 => exact iff_of_false (by simp) h6
  all_goals decide

/-- What the modes leave open whose handlers close the connection they were given. -/
theorem connectThen_opened {w : World} {cr : ConnectResult}
    {handler : Dialled → Session → Ending × Session} (s : Session)
    (h : ∀ dialled s, (handler dialled s).1 = .returned →
      s.Done (handler dialled s).2 {dialled.conn})
    (hret : (connectThen w cr handler s).1 = .returned) :
    (connectThen w cr handler s).2.opened = s.opened := by
  by_cases hreach : w.Connects cr ∧ w.client.Accepts
  · obtain ⟨dialled, hnumber, heq⟩ := connectThen_of_reaches hreach.1 hreach.2 handler s
    rw [heq] at hret ⊢
    rw [(h dialled _ hret).opened, hnumber]
    exact openIn_acquire_sdiff s.upstream
  · obtain ⟨s', heq, hopened, -⟩ := connectThen_of_not_reaches hreach handler s
    rw [heq, hopened]

/-- What mode mitm leaves open: its handler is not given the connection that was dialled
for the request, and dials again. -/
theorem takeOver_mitm_reached {w : World} {cr : ConnectResult}
    (h : w.Connects cr ∧ w.client.Accepts) (s : Session) :
    (takeOver w cr s .mitm).1 = .returned ∧
      (takeOver w cr s .mitm).2.opened = insert s.upstream.length s.opened := by
  simp only [takeOver]
  generalize hhandler : (fun (dialled : Dialled) (s : Session) => (Ending.returned,
    (handleMITM w cr.targetHost cr.rule dialled.dialCandidates dialled.dialAddr s).2)) = handler
  obtain ⟨dialled, -, heq⟩ := connectThen_of_reaches h.1 h.2 handler s
  rw [heq, ← hhandler]
  refine ⟨rfl, ?_⟩
  rw [(handleMITM_done ..).opened, Set.sdiff_empty]
  exact opened_dial s

theorem takeOver_mitm_not_reached {w : World} {cr : ConnectResult}
    (h : ¬ (w.Connects cr ∧ w.client.Accepts)) (s : Session) :
    (takeOver w cr s .mitm).2.opened = s.opened := by
  simp only [takeOver]
  generalize (fun (dialled : Dialled) (s : Session) => (Ending.returned,
    (handleMITM w cr.targetHost cr.rule dialled.dialCandidates dialled.dialAddr s).2)) = handler
  obtain ⟨s', heq, hopened, -⟩ := connectThen_of_not_reaches h handler s
  rw [heq, hopened]

/-- The other modes leave nothing open when they return. -/
theorem takeOver_opened {w : World} {cr : ConnectResult} {s : Session} {action : Action}
    (haction : action ≠ .mitm) (hret : (takeOver w cr s action).1 = .returned) :
    (takeOver w cr s action).2.opened = s.opened := by
  cases action with
  | mitm => exact absurd rfl haction
  | refused => simp only [takeOver, opened_error]
  | direct =>
    simp only [takeOver]
    exact directConnect_opened w cr.targetAddr s
  | server =>
    simp only [takeOver]
    exact acceptThen_opened w (handleServerMITM_done w cr.rule) s
  | quic =>
    simp only [takeOver]
    exact acceptThen_opened w close_client_done s
  | tlsRF =>
    simp only [takeOver] at hret ⊢
    exact connectThen_opened s (fun dialled s' => handleTLSFragment_of_returned w) hret
  | tunnel =>
    simp only [takeOver] at hret ⊢
    exact connectThen_opened s (fun dialled s' _ => directTunnel_done s' dialled.conn) hret

/-- Only a handler that is reached can panic. -/
theorem connectThen_panicked {w : World} {cr : ConnectResult}
    {handler : Dialled → Session → Ending × Session} {s : Session} {f : Fault}
    (h : (connectThen w cr handler s).1 = .panicked f) :
    (w.Connects cr ∧ w.client.Accepts) ∧
      ∃ dialled, connectThen w cr handler s = handler dialled { s.dial with client := true } := by
  by_cases hreach : w.Connects cr ∧ w.client.Accepts
  · obtain ⟨dialled, -, heq⟩ := connectThen_of_reaches hreach.1 hreach.2 handler s
    exact ⟨hreach, dialled, heq⟩
  · obtain ⟨s', heq, -⟩ := connectThen_of_not_reaches hreach handler s
    rw [heq] at h
    cases h

/-- A panic leaves open what was dialled. -/
theorem takeOver_panicked {w : World} {cr : ConnectResult} {s : Session} {action : Action}
    {f : Fault} (h : (takeOver w cr s action).1 = .panicked f) :
    action = .tlsRF ∧ (takeOver w cr s action).2.opened = insert s.upstream.length s.opened := by
  cases action with
  | refused | direct | server | quic =>
    simp only [takeOver] at h
    cases h
  | mitm | tunnel =>
    simp only [takeOver] at h
    obtain ⟨-, dialled, heq⟩ := connectThen_panicked h
    rw [heq] at h
    cases h
  | tlsRF =>
    refine ⟨rfl, ?_⟩
    simp only [takeOver] at h ⊢
    obtain ⟨-, dialled, heq⟩ := connectThen_panicked h
    rw [heq] at h ⊢
    rcases handleTLSFragment_done w dialled.conn cr.targetHost cr.rule
        { s.dial with client := true } with ⟨hret, -⟩ | ⟨f', hpanic⟩
    · rw [hret] at h
      cases h
    · rw [hpanic]
      exact opened_dial s

/-- The request gets to the handler of mode mitm. -/
def World.ReachesMITM (urlHost reqHost : String) (rule : Rule) : Prop :=
  effectiveMode rule = "mitm" ∧
    w.Connects (Front.handleConnect w.router urlHost reqHost rule).result ∧ w.client.Accepts

theorem handleConnect_action (urlHost reqHost : String) (rule : Rule) :
    (Front.handleConnect w.router urlHost reqHost rule).action =
      connectAction (effectiveMode rule) := by
  simp only [Front.handleConnect, prepareConnect]

theorem handleConnect_reaches {w : World} {urlHost reqHost : String} {rule : Rule}
    (h : w.ReachesMITM urlHost reqHost rule) (s : Session) :
    (handleConnect w urlHost reqHost rule s).1 = .returned ∧
      (handleConnect w urlHost reqHost rule s).2.opened = insert s.upstream.length s.opened := by
  obtain ⟨hmode, hreach⟩ := h
  simp only [handleConnect, handleConnect_action, (connectAction_mitm_iff _).mpr hmode]
  exact takeOver_mitm_reached hreach s

theorem handleConnect_opened {w : World} {urlHost reqHost : String} {rule : Rule}
    (h : ¬ w.ReachesMITM urlHost reqHost rule) {s : Session}
    (hret : (handleConnect w urlHost reqHost rule s).1 = .returned) :
    (handleConnect w urlHost reqHost rule s).2.opened = s.opened := by
  simp only [handleConnect, handleConnect_action] at hret ⊢
  by_cases hmode : effectiveMode rule = "mitm"
  · rw [(connectAction_mitm_iff _).mpr hmode]
    exact takeOver_mitm_not_reached (fun hreach => h ⟨hmode, hreach⟩) s
  · exact takeOver_opened (fun haction => hmode ((connectAction_mitm_iff _).mp haction)) hret

/-- A request can panic only in mode tls-rf, and the panic leaves its connection open. -/
theorem handleConnect_panicked {w : World} {urlHost reqHost : String} {rule : Rule} {s : Session}
    {f : Fault} (h : (handleConnect w urlHost reqHost rule s).1 = .panicked f) :
    connectAction (effectiveMode rule) = .tlsRF ∧
      (handleConnect w urlHost reqHost rule s).2.opened = insert s.upstream.length s.opened := by
  simp only [handleConnect, handleConnect_action] at h ⊢
  exact takeOver_panicked h

/-- The client's first record is a ClientHello whose server name ends at its last byte. -/
def Client.NameLast (client : Client) : Prop :=
  ∃ record rest info, readInitialTLSRecord client.bytes = some (record, rest) ∧
    parseClientHello record = .ok info ∧ info.err = none ∧ 0 < info.sniPos ∧ 0 < info.sniLen ∧
    info.sniPos + info.sniLen = record.length

omit [CaseTables] in
theorem handleTLSFragment_panics_iff (conn : Nat) (host : String) (rule : Rule) (s : Session) :
    (∃ f, (handleTLSFragment w conn host rule s).1 = .panicked f) ↔ w.client.NameLast := by
  unfold handleTLSFragment Client.NameLast
  cases hread : readInitialTLSRecord w.client.bytes with
  | none => simp
  | some read =>
    obtain ⟨record, rest⟩ := read
    obtain ⟨info, hp, -⟩ := parseClientHello_returns record
    simp only [hp]
    constructor
    · rintro ⟨f, hpanic⟩
      split at hpanic
      · cases hpanic
      rename_i herr
      split at hpanic
      · split at hpanic <;> cases hpanic
      rename_i hname
      have ha : Reassembly.Accepted record info :=
        ⟨⟨_, rest, hread⟩, hp, not_not.mp herr, by omega, by omega⟩
      refine ⟨record, rest, info, rfl, hp, ha.noError, ha.pos, ha.len,
        (Reassembly.sendFragmented_faults_iff ha (Conn.fresh w.sends)).mp ?_⟩
      split at hpanic
      · exact ⟨_, ‹_›⟩
      · cases hpanic
      · cases hpanic
    · rintro ⟨record', rest', info', hsame, hp', herr, hpos, hlen, hlast⟩
      obtain ⟨rfl, rfl⟩ := Prod.mk.inj (Option.some.inj hsame)
      obtain rfl := Except.ok.inj (hp.symm.trans hp')
      have ha : Reassembly.Accepted record info := ⟨⟨_, rest, hread⟩, hp, herr, hpos, hlen⟩
      obtain ⟨f, hf⟩ :=
        (Reassembly.sendFragmented_faults_iff ha (Conn.fresh w.sends)).mpr hlast
      refine ⟨f, ?_⟩
      rw [if_neg (by simp [herr]), if_neg (by omega), hf]

/-- The request gets to the handler of mode tls-rf with such a record. -/
def World.Panics (urlHost reqHost : String) (rule : Rule) : Prop :=
  connectAction (effectiveMode rule) = .tlsRF ∧
    w.Connects (Front.handleConnect w.router urlHost reqHost rule).result ∧ w.client.Accepts ∧
    w.client.NameLast

theorem handleConnect_returned_iff (urlHost reqHost : String) (rule : Rule) (s : Session) :
    (handleConnect w urlHost reqHost rule s).1 = .returned ↔
      ¬ w.Panics urlHost reqHost rule := by
  simp only [handleConnect, handleConnect_action, World.Panics]
  generalize (Front.handleConnect w.router urlHost reqHost rule).result = cr
  generalize connectAction (effectiveMode rule) = action
  constructor
  · rintro hret ⟨rfl, hconnects, haccepts, hlast⟩
    simp only [takeOver] at hret
    obtain ⟨dialled, -, heq⟩ := connectThen_of_reaches hconnects haccepts
      (fun dialled s => handleTLSFragment w dialled.conn cr.targetHost cr.rule s) s
    obtain ⟨f, hpanic⟩ := (handleTLSFragment_panics_iff w dialled.conn cr.targetHost cr.rule
      { s.dial with client := true }).mpr hlast
    rw [heq, hpanic] at hret
    cases hret
  · intro hnot
    cases hend : (takeOver w cr s action).1 with
    | returned => rfl
    | panicked f =>
      obtain ⟨rfl, -⟩ := takeOver_panicked hend
      simp only [takeOver] at hend
      obtain ⟨hreach, dialled, heq⟩ := connectThen_panicked hend
      rw [heq] at hend
      exact absurd ⟨rfl, hreach.1, hreach.2, (handleTLSFragment_panics_iff ..).mp ⟨f, hend⟩⟩ hnot

omit [CaseTables] in
theorem not_closedSince_of_insert {before after : Session}
    (h : after.opened = insert before.upstream.length before.opened) :
    ¬ Session.ClosedSince before after := by
  intro hclosed
  have hleaked : before.upstream.length ∈ after.opened := by
    rw [h]
    exact Set.mem_insert _ _
  exact absurd (hclosed _ hleaked) (Nat.lt_irrefl _)

/-- **No leaks.** The connections that a request opens are closed when `handleConnect`
returns, exactly when the request does not get to the handler of mode mitm; and they are closed
at its end, in whichever way it ends, exactly when it does not panic either. -/
theorem upstream_closed_iff (urlHost reqHost : String) (rule : Rule) (s : Session) :
    (((handleConnect w urlHost reqHost rule s).1 = .returned →
        Session.ClosedSince s (handleConnect w urlHost reqHost rule s).2) ↔
      ¬ w.ReachesMITM urlHost reqHost rule) ∧
    (Session.ClosedSince s (handleConnect w urlHost reqHost rule s).2 ↔
      ¬ w.ReachesMITM urlHost reqHost rule ∧ ¬ w.Panics urlHost reqHost rule) := by
  have hleaks : w.ReachesMITM urlHost reqHost rule →
      (handleConnect w urlHost reqHost rule s).1 = .returned ∧
        ¬ Session.ClosedSince s (handleConnect w urlHost reqHost rule s).2 := by
    intro hreach
    obtain ⟨hret, hopened⟩ := handleConnect_reaches hreach s
    exact ⟨hret, not_closedSince_of_insert hopened⟩
  have hreturns := handleConnect_returned_iff w urlHost reqHost rule s
  refine ⟨⟨fun hclosed hreach => ?_, fun hnot hret => ?_⟩, fun hclosed => ⟨fun hreach => ?_, ?_⟩,
    fun hnot => ?_⟩
  · obtain ⟨hret, hopen⟩ := hleaks hreach
    exact hopen (hclosed hret)
  · exact closedSince_of_eq (handleConnect_opened hnot hret)
  · exact (hleaks hreach).2 hclosed
  · rw [← hreturns]
    cases hend : (handleConnect w urlHost reqHost rule s).1 with
    | returned => rfl
    | panicked f => exact absurd hclosed (not_closedSince_of_insert (handleConnect_panicked hend).2)
  · exact closedSince_of_eq (handleConnect_opened hnot.1 (hreturns.mpr hnot.2))

/-! ## The client's connection -/

omit [CaseTables] in
theorem acceptThen_client {handler : Session → Session} (h : ∀ s : Session, s.Done (handler s) ∅)
    {s : Session} (hs : s.client = false) : (acceptThen w handler s).client = false := by
  unfold acceptThen
  by_cases hacc : w.client.Accepts
  · rw [accept_of_accepts hacc]
    exact (h _).client
  · obtain ⟨s', heq, -, hclient⟩ := accept_of_not_accepts hacc none s
    rw [heq]
    exact hclient hs

omit [CaseTables] in
theorem directConnect_client (targetAddr : String) {s : Session} (hs : s.client = false) :
    (directConnect w targetAddr s).client = false := by
  unfold directConnect
  split
  · exact hs
  · by_cases hacc : w.client.Accepts
    · simp only [accept_of_accepts hacc]
      rfl
    · obtain ⟨s', heq, -, hclient⟩ := accept_dialled hacc s
      simpa only [heq] using hclient hs

theorem connectThen_client {w : World} {cr : ConnectResult}
    {handler : Dialled → Session → Ending × Session} {s : Session} (hs : s.client = false)
    (h : ∀ dialled s, (handler dialled s).1 = .returned → (handler dialled s).2.client = false)
    (hret : (connectThen w cr handler s).1 = .returned) :
    (connectThen w cr handler s).2.client = false := by
  by_cases hreach : w.Connects cr ∧ w.client.Accepts
  · obtain ⟨dialled, -, heq⟩ := connectThen_of_reaches hreach.1 hreach.2 handler s
    rw [heq] at hret ⊢
    exact h dialled _ hret
  · obtain ⟨s', heq, -, hclient⟩ := connectThen_of_not_reaches hreach handler s
    rw [heq]
    exact hclient hs

theorem takeOver_client {w : World} {cr : ConnectResult} {s : Session} (hs : s.client = false)
    (action : Action) (hret : (takeOver w cr s action).1 = .returned) :
    (takeOver w cr s action).2.client = false := by
  cases action with
  | refused =>
    simp only [takeOver]
    exact hs
  | direct =>
    simp only [takeOver]
    exact directConnect_client w cr.targetAddr hs
  | server =>
    simp only [takeOver]
    exact acceptThen_client w (handleServerMITM_done w cr.rule) hs
  | quic =>
    simp only [takeOver]
    exact acceptThen_client w close_client_done hs
  | mitm =>
    simp only [takeOver] at hret ⊢
    exact connectThen_client hs (fun dialled s' _ => (handleMITM_done ..).client) hret
  | tlsRF =>
    simp only [takeOver] at hret ⊢
    exact connectThen_client hs
      (fun dialled s' hret' => (handleTLSFragment_of_returned w hret').client) hret
  | tunnel =>
    simp only [takeOver] at hret ⊢
    exact connectThen_client hs (fun dialled s' _ => rfl) hret

/-- The connection taken over from the client is closed in every mode, mitm included: what
mode mitm leaves open is on the upstream side only. -/
theorem handleConnect_client (urlHost reqHost : String) (rule : Rule) {s : Session}
    (hs : s.client = false) (hret : (handleConnect w urlHost reqHost rule s).1 = .returned) :
    (handleConnect w urlHost reqHost rule s).2.client = false := by
  simp only [handleConnect, handleConnect_action] at hret ⊢
  exact takeOver_client hs _ hret

/-! ## Many requests -/

/-- A request, with what it finds. -/
structure Request where
  world : World
  urlHost : String
  reqHost : String
  rule : Rule

def Request.session (r : Request) (upstream : Table) : Ending × Session :=
  handleConnect r.world r.urlHost r.reqHost r.rule { upstream := upstream }

/-- The upstream connections after one more request. -/
def serve (upstream : Table) (r : Request) : Table := (r.session upstream).2.upstream

/-- Nothing is open after any of the requests exactly when none of them gets to the
handler of mode mitm and none panics. -/
theorem serve_noneOpen_iff (requests : List Request) :
    Always serve (fun upstream => openIn upstream = ∅) [] requests ↔
      EachStep serve (fun upstream r =>
        ¬ r.world.ReachesMITM r.urlHost r.reqHost r.rule ∧
          (r.session upstream).1 = .returned) [] requests := by
  refine always_iff_eachStep (fun upstream r hnone => ?_) (by ext; simp [mem_openIn]) requests
  have hserve : openIn (serve upstream r) = (r.session upstream).2.opened := by
    simp only [serve, Session.opened]
  rw [hserve, Request.session]
  by_cases hreach : r.world.ReachesMITM r.urlHost r.reqHost r.rule
  · rw [(handleConnect_reaches hreach _).2]
    exact iff_of_false (Set.insert_nonempty _ _).ne_empty fun h => h.1 hreach
  · cases hend : (handleConnect r.world r.urlHost r.reqHost r.rule { upstream := upstream }).1 with
    | returned =>
      rw [handleConnect_opened hreach hend]
      exact iff_of_true hnone ⟨hreach, rfl⟩
    | panicked f =>
      rw [(handleConnect_panicked hend).2]
      exact iff_of_false (Set.insert_nonempty _ _).ne_empty fun h => Ending.noConfusion h.2

end

/-- A request of mode mitm in which every step succeeds: the connection that was dialled
first is open after the return, the one of the handler is closed. -/
theorem mitm_leaks :
    (handleConnect (sampleWorld "h2" ["h2", "http/1.1"]) "a.example:443" "" mitmRule {}).1 =
        .returned ∧
      (handleConnect (sampleWorld "h2" ["h2", "http/1.1"]) "a.example:443" "" mitmRule
        {}).2.upstream = [true, false] ∧
      ¬ Session.ClosedSince {}
        (handleConnect (sampleWorld "h2" ["h2", "http/1.1"]) "a.example:443" "" mitmRule {}).2 := by
  have htable : (handleConnect (sampleWorld "h2" ["h2", "http/1.1"]) "a.example:443" "" mitmRule
      {}).2.upstream = [true, false] := by decide
  refine ⟨by decide, htable, fun hclosed => ?_⟩
  have hopen : 0 ∈ (handleConnect (sampleWorld "h2" ["h2", "http/1.1"]) "a.example:443" ""
      mitmRule {}).2.opened := by
    rw [Session.opened, htable]
    rfl
  exact absurd (hclosed 0 hopen) (by decide)

end SniShaper.Tunnel
