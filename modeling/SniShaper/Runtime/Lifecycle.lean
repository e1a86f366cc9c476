import SniShaper.Runtime.Start

/-! The life of the two servers (`Start`, `startSocks5` and `Stop` of `proxy/proxy.go`), with
the listeners they open. The sections that the functions run under the lock stand for
themselves, so that they can also be interleaved.

Here the calls come one after the other. An address can be bound once; what else `net.Listen`
says is an argument, and `http.Server.Close` closes the listener of its server. Between the
calls the HTTP server may end by itself.

* `start_refines`, `stop_refines`: the calls are those of `Runtime.Start`;
* `socks5_run`: the SOCKS5 listeners are those that the starts opened, none is ever closed;
* `stopsEverything_iff`: when nothing listens after a stop, and the right thing after a start. -/

namespace SniShaper.Lifecycle

open Machine

/-- The fields of `ProxyServer` that the calls use. A server is named by the number of the
call of `Start` that made it; `poolRunning` is the flag of the Cloudflare pool. -/
structure ProxyServer where
  listenAddr : String
  socks5Addr : String := ""
  socks5Enabled : Bool := false
  running : Bool := false
  server : Option Nat := none
  poolRunning : Bool := false
  deriving DecidableEq, Repr

/-! ## The sections under the lock -/

/-- The first section of `Start`; `none` when the proxy is running. -/
def beginStart (p : ProxyServer) : Option ProxyServer :=
  if p.running then none else some { p with poolRunning := true }

/-- The end of a `Start` whose listener was not opened. -/
def listenFailed (p : ProxyServer) : ProxyServer := { p with poolRunning := false }

/-- The second section of `Start`; `none` when another one was faster. -/
def install (p : ProxyServer) (srv : Nat) : Option ProxyServer :=
  if p.running then none else some { p with server := some srv, running := true }

/-- The end of the goroutine that serves `srv`. -/
def exitSection (p : ProxyServer) (srv : Nat) : ProxyServer :=
  if p.server = some srv then { p with running := false } else p

/-- The section of `Stop`, but for the closing of the server. -/
def stopSection (p : ProxyServer) : ProxyServer :=
  if p.running then { p with running := false, poolRunning := false } else p

/-! ## Calls -/

/-- The proxy with its listeners, and how many servers were made. -/
structure Host where
  proxy : ProxyServer
  /-- The open listeners of the HTTP servers: the server and the address. -/
  http : List (Nat × String) := []
  /-- The addresses of the open SOCKS5 listeners. -/
  socks5 : List String := []
  servers : Nat := 0
  deriving DecidableEq, Repr

/-- What `net.Listen` says to the two addresses, if this process does not hold them. -/
structure Listening where
  http : Except String Unit := .ok ()
  socks5 : Except String Unit := .ok ()

/-- An address that is held cannot be bound again. -/
def Host.listen (h : Host) (answer : Except String Unit) (addr : String) : Except String Unit :=
  if addr ∈ h.http.map Prod.snd ∨ addr ∈ h.socks5 then .error "address already in use" else answer

def startSocks5 (h : Host) (answer : Except String Unit) : Host :=
  match h.listen answer h.proxy.socks5Addr with
  | .error _ => h
  | .ok () => { h with socks5 := h.proxy.socks5Addr :: h.socks5 }

def start (h : Host) (l : Listening) : Option String × Host :=
  match beginStart h.proxy with
  | none => (none, h)
  | some p =>
    match h.listen l.http p.listenAddr with
    | .error err =>
      (some ("failed to listen on " ++ p.listenAddr ++ ": " ++ err),
        { h with proxy := listenFailed p, servers := h.servers + 1 })
    | .ok () =>
      match install p h.servers with
      | none => (none, { h with proxy := p, servers := h.servers + 1 })
      | some p =>
        let h := { h with
          proxy := p
          http := (h.servers, p.listenAddr) :: h.http
          servers := h.servers + 1 }
        (none, if p.socks5Enabled then startSocks5 h l.socks5 else h)

/-- The listener of the server is closed. -/
def Host.closeServer (h : Host) (srv : Option Nat) : Host :=
  { h with http := h.http.filter fun l => some l.1 ≠ srv }

def stop (h : Host) (close : Except String Unit) : Option String × Host :=
  if h.proxy.running then
    let stopped := { h.closeServer h.proxy.server with proxy := stopSection h.proxy }
    match close with
    | .error err => (some err, stopped)
    | .ok () => (none, stopped)
  else (none, h)

/-- The HTTP server ends by itself, and its goroutine runs its last section. -/
def serverEnded (h : Host) : Host :=
  match h.proxy.server with
  | none => h
  | some srv => { h.closeServer (some srv) with proxy := exitSection h.proxy srv }

inductive Call where
  | start (l : Listening)
  | stop (close : Except String Unit)
  | setSocks5Enabled (enabled : Bool)
  | setSocks5Addr (addr : String)
  | serverEnded

/-- The error a call returns, and what it leaves. -/
def perform (h : Host) : Call → Option String × Host
  | .start l => start h l
  | .stop close => stop h close
  | .setSocks5Enabled enabled =>
    (none, { h with proxy := { h.proxy with socks5Enabled := enabled } })
  | .setSocks5Addr addr => (none, { h with proxy := { h.proxy with socks5Addr := addr } })
  | .serverEnded => (none, serverEnded h)

def step (h : Host) (call : Call) : Host := (perform h call).2

/-- `NewProxyServer` -/
def newProxyServer (addr : String) : Host := { proxy := { listenAddr := addr } }

/-! ## The calls without their listeners -/

/-- The proxy as the runtime sees it. -/
def Host.core (h : Host) (listenPort : String) : Runtime.Core :=
  { listenAddr := h.proxy.listenAddr, running := h.proxy.running, listenPort := listenPort }

theorem startSocks5_proxy (h : Host) (answer : Except String Unit) :
    (startSocks5 h answer).proxy = h.proxy := by
  unfold startSocks5
  split <;> rfl

theorem startSocks5_http (h : Host) (answer : Except String Unit) :
    (startSocks5 h answer).http = h.http := by
  unfold startSocks5
  split <;> rfl

/-- The proxy with its HTTP server started. -/
def Host.started (h : Host) : Host :=
  { h with
    proxy := { h.proxy with running := true, server := some h.servers, poolRunning := true }
    http := (h.servers, h.proxy.listenAddr) :: h.http
    servers := h.servers + 1 }

/-- The three ways a start can end. -/
theorem start_cases (h : Host) (l : Listening) :
    (h.proxy.running = true ∧ start h l = (none, h)) ∨
      (h.proxy.running = false ∧ ∃ err, h.listen l.http h.proxy.listenAddr = .error err ∧
        start h l = (some ("failed to listen on " ++ h.proxy.listenAddr ++ ": " ++ err),
          { h with proxy := { h.proxy with poolRunning := false }, servers := h.servers + 1 })) ∨
      (h.proxy.running = false ∧ h.listen l.http h.proxy.listenAddr = .ok () ∧
        start h l =
          (none, if h.proxy.socks5Enabled then startSocks5 h.started l.socks5 else h.started)) := by
  cases hrun : h.proxy.running with
  | true => exact .inl ⟨rfl, by simp only [start, beginStart, hrun, if_true]⟩
  | false =>
    right
    cases hanswer : h.listen l.http h.proxy.listenAddr with
    | error err =>
      left
      refine ⟨rfl, err, rfl, ?_⟩
      simp only [start, beginStart, hrun, hanswer, listenFailed, Bool.false_eq_true, if_false]
    | ok u =>
      right
      refine ⟨rfl, rfl, ?_⟩
      simp only [start, beginStart, install, hrun, hanswer, Host.started, Bool.false_eq_true,
        if_false]

/-- The SOCKS5 listener is opened after everything else. -/
theorem startedProxy (h : Host) (answer : Except String Unit) :
    (if h.proxy.socks5Enabled then startSocks5 h.started answer else h.started).proxy =
      h.started.proxy := by
  split
  · exact startSocks5_proxy h.started answer
  · rfl

theorem start_refines (h : Host) (l : Listening) (port : String) :
    ((start h l).1, (start h l).2.core port) =
      Runtime.start (h.core port) (h.listen l.http h.proxy.listenAddr) := by
  rcases start_cases h l with ⟨hrun, heq⟩ | ⟨hrun, err, hanswer, heq⟩ | ⟨hrun, hanswer, heq⟩
  · simp [heq, Runtime.start, Host.core, hrun]
  · simp [heq, Runtime.start, Host.core, hrun, hanswer]
  · simp only [heq, Host.core, startedProxy]
    simp [Runtime.start, hrun, hanswer, Host.started]

theorem stop_refines (h : Host) (close : Except String Unit) (port : String) :
    ((stop h close).1, (stop h close).2.core port) = Runtime.stop (h.core port) close := by
  unfold stop Runtime.stop
  cases hrun : h.proxy.running with
  | true => cases close <;> simp [Host.core, stopSection, hrun]
  | false => simp [Host.core, hrun]

/-! ## The HTTP listener -/

/-- The proxy listens exactly while it is running, for the server it has installed. -/
structure Host.Consistent (h : Host) : Prop where
  running : h.proxy.running = true → ∃ srv addr, h.proxy.server = some srv ∧ h.http = [(srv, addr)]
  stopped : h.proxy.running = false → h.http = []

theorem start_consistent {h : Host} (hc : h.Consistent) (l : Listening) :
    (start h l).2.Consistent := by
  rcases start_cases h l with ⟨-, heq⟩ | ⟨hrun, err, -, heq⟩ | ⟨hrun, -, heq⟩
  · rw [heq]
    exact hc
  · rw [heq]
    exact ⟨fun hon => absurd (hrun.symm.trans hon) (by decide), fun _ => hc.stopped hrun⟩
  · have hstarted : h.started.Consistent := by
      refine ⟨fun _ => ⟨h.servers, h.proxy.listenAddr, rfl, ?_⟩, fun hoff => by cases hoff⟩
      simp [Host.started, hc.stopped hrun]
    rw [heq]
    simp only
    split
    · constructor
      · rw [startSocks5_proxy, startSocks5_http]
        exact hstarted.running
      · rw [startSocks5_proxy, startSocks5_http]
        exact hstarted.stopped
    · exact hstarted

/-- A stop that has something to stop, whatever closing the server says. -/
theorem stop_cases (h : Host) (close : Except String Unit) :
    (h.proxy.running = false ∧ stop h close = (none, h)) ∨
      (h.proxy.running = true ∧ (stop h close).2 = { h.closeServer h.proxy.server with
        proxy := { h.proxy with running := false, poolRunning := false } }) := by
  unfold stop
  cases hrun : h.proxy.running with
  | false => exact .inl ⟨rfl, by simp⟩
  | true =>
    right
    refine ⟨rfl, ?_⟩
    simp only [if_true, stopSection, hrun]
    cases close <;> rfl

theorem closeServer_running {h : Host} (hc : h.Consistent) (hrun : h.proxy.running = true) :
    (h.closeServer h.proxy.server).http = [] := by
  obtain ⟨srv, addr, hserver, hhttp⟩ := hc.running hrun
  simp [Host.closeServer, hserver, hhttp]

theorem stop_consistent {h : Host} (hc : h.Consistent) (close : Except String Unit) :
    (stop h close).2.Consistent ∧ (stop h close).2.http = [] := by
  rcases stop_cases h close with ⟨hrun, heq⟩ | ⟨hrun, heq⟩
  · rw [heq]
    exact ⟨hc, hc.stopped hrun⟩
  · have hclosed := closeServer_running hc hrun
    rw [heq]
    exact ⟨⟨fun hon => (by cases hon), fun _ => hclosed⟩, hclosed⟩

theorem serverEnded_consistent {h : Host} (hc : h.Consistent) : (serverEnded h).Consistent := by
  unfold serverEnded
  cases hserver : h.proxy.server with
  | none => exact hc
  | some srv =>
    have hclosed : (h.closeServer (some srv)).http = [] := by
      cases hrun : h.proxy.running with
      | true =>
        rw [← hserver]
        exact closeServer_running hc hrun
      | false => simp [Host.closeServer, hc.stopped hrun]
    have hoff : (exitSection h.proxy srv).running = false := by simp [exitSection, hserver]
    exact ⟨fun hon => absurd (hoff.symm.trans hon) (by decide), fun _ => hclosed⟩

theorem step_consistent (h : Host) (call : Call) (hc : h.Consistent) :
    (step h call).Consistent := by
  cases call with
  | start l => exact start_consistent hc l
  | stop close => exact (stop_consistent hc close).1
  | setSocks5Enabled enabled => exact ⟨hc.running, hc.stopped⟩
  | setSocks5Addr addr => exact ⟨hc.running, hc.stopped⟩
  | serverEnded => exact serverEnded_consistent hc

theorem newProxyServer_consistent (addr : String) : (newProxyServer addr).Consistent :=
  ⟨fun hon => (by cases hon), fun _ => rfl⟩

/-! ## The SOCKS5 listeners -/

/-- The call is a start that opens a SOCKS5 listener. -/
def Opens (h : Host) (call : Call) : Prop :=
  ∃ l, call = .start l ∧ h.proxy.running = false ∧
    h.listen l.http h.proxy.listenAddr = .ok () ∧ h.proxy.socks5Enabled = true ∧
    h.started.listen l.socks5 h.proxy.socks5Addr = .ok ()

/-- Of all calls only a start that opens a listener changes the SOCKS5 listeners. -/
theorem step_socks5 (h : Host) (call : Call) :
    (Opens h call ∧ (step h call).socks5 = h.proxy.socks5Addr :: h.socks5) ∨
      (¬ Opens h call ∧ (step h call).socks5 = h.socks5) := by
  cases call with
  | start l =>
    simp only [step, perform, Opens, Call.start.injEq, exists_eq_left']
    rcases start_cases h l with ⟨hrun, heq⟩ | ⟨hrun, err, hanswer, heq⟩ | ⟨hrun, hanswer, heq⟩
    · simp [heq, hrun]
    · simp [heq, hrun, hanswer]
    · rw [heq]
      cases hon : h.proxy.socks5Enabled with
      | false => simp [Host.started]
      | true =>
        simp only [hrun, hanswer, if_true, true_and, startSocks5]
        have haddr : h.started.proxy.socks5Addr = h.proxy.socks5Addr := rfl
        rw [haddr]
        cases hsocks : h.started.listen l.socks5 h.proxy.socks5Addr with
        | error err => simp [Host.started]
        | ok u => simp [Host.started]
  | stop close =>
    right
    refine ⟨fun ⟨l, hl, _⟩ => (by cases hl), ?_⟩
    rcases stop_cases h close with ⟨-, heq⟩ | ⟨-, heq⟩
    · simp only [step, perform, heq]
    · simp only [step, perform, heq, Host.closeServer]
  | setSocks5Enabled enabled => exact .inr ⟨fun ⟨l, hl, _⟩ => (by cases hl), rfl⟩
  | setSocks5Addr addr => exact .inr ⟨fun ⟨l, hl, _⟩ => (by cases hl), rfl⟩
  | serverEnded =>
    right
    refine ⟨fun ⟨l, hl, _⟩ => (by cases hl), ?_⟩
    simp only [step, perform, serverEnded]
    split <;> rfl

/-- No SOCKS5 listener is open exactly when no start has opened one: none is ever closed. -/
theorem socks5_run (h : Host) (calls : List Call) :
    (run step h calls).socks5 = [] ↔
      h.socks5 = [] ∧ ∀ pre call post, calls = pre ++ call :: post →
        ¬ Opens (run step h pre) call := by
  induction calls generalizing h with
  | nil => simp [run]
  | cons call calls ih =>
    have hcons : run step h (call :: calls) = run step (step h call) calls := rfl
    rw [hcons, ih]
    constructor
    · rintro ⟨hnil, hnone⟩
      rcases step_socks5 h call with ⟨-, heq⟩ | ⟨hnot, heq⟩
      · rw [heq] at hnil
        cases hnil
      · refine ⟨heq ▸ hnil, fun pre c post hsplit => ?_⟩
        cases pre with
        | nil =>
          obtain ⟨rfl, -⟩ := List.cons.inj hsplit
          exact hnot
        | cons c' pre =>
          obtain ⟨rfl, htail⟩ := List.cons.inj hsplit
          exact hnone pre c post htail
    · rintro ⟨hnil, hnone⟩
      rcases step_socks5 h call with ⟨hopens, -⟩ | ⟨-, heq⟩
      · exact absurd hopens (hnone [] call calls rfl)
      · refine ⟨heq.trans hnil, fun pre c post hsplit => ?_⟩
        exact hnone (call :: pre) c post (by rw [hsplit]; rfl)

/-! ## Stopping and starting again -/

/-- The SOCKS5 listeners that the settings ask for. -/
def Host.wanted (h : Host) : List String :=
  if h.proxy.socks5Enabled then [h.proxy.socks5Addr] else []

/-- A stop among the calls has returned nil. -/
def HasStopped (h : Host) (calls : List Call) : Prop :=
  ∃ pre close post, calls = pre ++ .stop close :: post ∧
    (stop (run step h pre) close).1 = none

/-- Nothing listens after a stop that returns nil, and after a later start that returns nil
the SOCKS5 listener is the one that the settings ask for. -/
structure StopsEverything (h : Host) (calls : List Call) : Prop where
  stops : ∀ pre close, pre ++ [.stop close] <+: calls → (stop (run step h pre) close).1 = none →
    (stop (run step h pre) close).2.http = [] ∧ (stop (run step h pre) close).2.socks5 = []
  restarts : ∀ pre l, pre ++ [.start l] <+: calls → HasStopped h pre →
    (start (run step h pre) l).1 = none →
      (start (run step h pre) l).2.socks5 = (start (run step h pre) l).2.wanted

/-- A start finds the listener that the settings ask for, or can open it where there is
none. -/
def Ready (h : Host) (l : Listening) : Prop :=
  if h.proxy.running then h.socks5 = h.wanted
  else if h.proxy.socks5Enabled then
    h.socks5 = [h.proxy.socks5Addr] ∨
      (h.socks5 = [] ∧ h.started.listen l.socks5 h.proxy.socks5Addr = .ok ())
  else h.socks5 = []

theorem not_mem_of_listen {h : Host} {answer : Except String Unit} {addr : String}
    (hok : h.listen answer addr = .ok ()) : addr ∉ h.socks5 := by
  intro hmem
  rw [Host.listen, if_pos (.inr hmem)] at hok
  cases hok

theorem ready_iff {h : Host} {l : Listening} (hret : (start h l).1 = none) :
    (start h l).2.socks5 = (start h l).2.wanted ↔ Ready h l := by
  unfold Ready
  rcases start_cases h l with ⟨hrun, heq⟩ | ⟨hrun, err, hanswer, heq⟩ | ⟨hrun, hanswer, heq⟩
  · rw [heq, if_pos hrun]
  · rw [heq] at hret
    cases hret
  · rw [heq]
    simp only [hrun, Bool.false_eq_true, if_false]
    cases hon : h.proxy.socks5Enabled with
    | false => simp [Host.wanted, Host.started, hon]
    | true =>
      have hwanted : (startSocks5 h.started l.socks5).wanted = [h.proxy.socks5Addr] := by
        simp [Host.wanted, startSocks5_proxy, Host.started, hon]
      simp only [if_true]
      rw [hwanted]
      unfold startSocks5
      have haddr : h.started.proxy.socks5Addr = h.proxy.socks5Addr := rfl
      rw [haddr]
      cases hsocks : h.started.listen l.socks5 h.proxy.socks5Addr with
      | error err => simp [Host.started]
      | ok u =>
        have hnot : h.proxy.socks5Addr ∉ h.started.socks5 := not_mem_of_listen hsocks
        have hne : h.socks5 ≠ [h.proxy.socks5Addr] := by
          intro hopen
          exact hnot (by rw [show h.started.socks5 = h.socks5 from rfl, hopen]; simp)
        simp [Host.started, hne]

/-- A stop leaves the SOCKS5 listeners. -/
theorem stop_socks5 (h : Host) (close : Except String Unit) : (stop h close).2.socks5 = h.socks5 := by
  rcases step_socks5 h (.stop close) with ⟨⟨l, hl, -⟩, -⟩ | ⟨-, heq⟩
  · cases hl
  · exact heq

/-- **Stop stops everything** exactly when no start that opened a SOCKS5 listener comes before
a stop that returns nil, and every later start that returns nil is ready for it. -/
theorem stopsEverything_iff (addr : String) (calls : List Call) :
    StopsEverything (newProxyServer addr) calls ↔
      (∀ pre call mid close, pre ++ call :: (mid ++ [.stop close]) <+: calls →
          (stop (run step (newProxyServer addr) (pre ++ call :: mid)) close).1 = none →
            ¬ Opens (run step (newProxyServer addr) pre) call) ∧
        ∀ pre l, pre ++ [.start l] <+: calls → HasStopped (newProxyServer addr) pre →
          (start (run step (newProxyServer addr) pre) l).1 = none →
            Ready (run step (newProxyServer addr) pre) l := by
  constructor
  · rintro ⟨hstops, hrestarts⟩
    refine ⟨fun pre call mid close hprefix hret => ?_, fun pre l hprefix hstopped hret => ?_⟩
    · have hassoc : (pre ++ call :: mid) ++ [.stop close] <+: calls := by simpa using hprefix
      have hnil := (hstops _ close hassoc hret).2
      rw [stop_socks5, socks5_run] at hnil
      exact hnil.2 pre call mid rfl
    · exact (ready_iff hret).mp (hrestarts pre l hprefix hstopped hret)
  · rintro ⟨hapart, hready⟩
    refine ⟨fun pre close hprefix hret => ⟨?_, ?_⟩, fun pre l hprefix hstopped hret => ?_⟩
    · have hc := run_invariant step_consistent (newProxyServer_consistent addr) pre
      exact (stop_consistent hc close).2
    · rw [stop_socks5, socks5_run]
      refine ⟨rfl, fun pre' call mid hsplit => ?_⟩
      subst hsplit
      exact hapart pre' call mid close (by simpa using hprefix) hret
    · exact (ready_iff hret).mpr (hready pre l hprefix hstopped hret)

/-- SOCKS5 is on, and the proxy is started and stopped. -/
def startThenStop : List Call :=
  [.setSocks5Enabled true, .setSocks5Addr "127.0.0.1:8081", .start {}, .stop (.ok ())]

/-- The stop returns nil and the SOCKS5 listener is open. Turned off, it stays open through
the next start. -/
theorem socks5_stays_open :
    (stop (run step (newProxyServer "127.0.0.1:8080") startThenStop.dropLast) (.ok ())).1 = none ∧
      (run step (newProxyServer "127.0.0.1:8080") startThenStop).socks5 = ["127.0.0.1:8081"] ∧
      (run step (newProxyServer "127.0.0.1:8080")
        (startThenStop ++ [.setSocks5Enabled false, .start {}])).socks5 = ["127.0.0.1:8081"] ∧
      ¬ StopsEverything (newProxyServer "127.0.0.1:8080") startThenStop := by
  refine ⟨by decide, by decide, by decide, fun h => ?_⟩
  have hnil := (h.stops startThenStop.dropLast (.ok ()) (by simp [startThenStop]) (by decide)).2
  revert hnil
  decide

end SniShaper.Lifecycle
