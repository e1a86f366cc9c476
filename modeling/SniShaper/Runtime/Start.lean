import SniShaper.Lib.Machine
import SniShaper.Runtime.Ports

/-! Starting and stopping the proxy: `startProxy` and `stopProxy` of `core_runtime.go` with
`Start` and `Stop` of `proxy/proxy.go`.

A run is a sequence of the two calls, each given what the system does in it. Between the
calls the HTTP server may end by itself.

* `getListenPort_step`: a configured port number stays one;
* `spares_iff`: when no call of a run signals the process itself. -/

namespace SniShaper.Runtime

open Strings Net Numbers Ports Machine

/-- The address and the state of the proxy server, and the port of the rule manager. -/
structure Core where
  listenAddr : String
  running : Bool := false
  listenPort : String := ""
  deriving DecidableEq, Repr

/-- What the system does in one call of `startProxy`: the tables at each port that is
tried, saving the config, listening, and waiting for the listener. -/
structure StartCall where
  tables : Nat → Tables
  saveConfig : Except String Unit := .ok ()
  listen : Except String Unit := .ok ()
  waitForListen : Except String Unit := .ok ()

inductive Call where
  | start (c : StartCall)
  | stop (close : Except String Unit)
  /-- The HTTP server ended by itself. -/
  | serverEnded

/-- The error, the processes signalled and the state afterwards. -/
structure Outcome where
  err : Option String
  signalled : List Int
  core : Core
  deriving DecidableEq, Repr

/-! ## The source's functions -/

def localAddr (port : String) : String := "127.0.0.1:" ++ port

/-- `fmt.Sscanf(addr, "127.0.0.1:%d", &port)`; the port stays 0 when the text is another. -/
def getListenPort (listenAddr : String) : Int :=
  if hasPrefix listenAddr "127.0.0.1:" then
    (scanInt (listenAddr.toList.drop "127.0.0.1:".length)).getD 0
  else 0

def setListenAddr (core : Core) (addr : String) : Except String Core :=
  if core.running then .error "cannot change address while proxy is running"
  else .ok { core with listenAddr := addr }

def setListenPort (core : Core) (port : Int) (saveConfig : Except String Unit) :
    Option String × Core :=
  if port < 1 ∨ 65535 < port then (some ("invalid port number: " ++ toString port), core)
  else match setListenAddr core (localAddr (toString port)) with
    | .error err => (some err, core)
    | .ok core =>
      let core := { core with listenPort := toString port }
      match saveConfig with
      | .error err => (some err, core)
      | .ok () => (none, core)

/-- `ProxyServer.Start` -/
def start (core : Core) (listen : Except String Unit) : Option String × Core :=
  if core.running then (none, core)
  else match listen with
    | .error err => (some ("failed to listen on " ++ core.listenAddr ++ ": " ++ err), core)
    | .ok () => (none, { core with running := true })

/-- `ProxyServer.Stop` -/
def stop (core : Core) (close : Except String Unit) : Option String × Core :=
  if core.running = false then (none, core)
  else
    let core := { core with running := false }
    match close with
    | .error err => (some err, core)
    | .ok () => (none, core)

/-- The port that `startProxy` tries first. -/
def originalPort (core : Core) : Int :=
  let port := getListenPort core.listenAddr
  if port = 0 then 8080 else port

def selfNames : List String := ["snishaper"]

section

variable [CaseTables]

/-- The port that `startProxy` goes on with, and the processes signalled. -/
def availablePort (core : Core) (c : StartCall) : Int × List Int :=
  match ensurePortAvailable c.tables (originalPort core) selfNames with
  | (.ok port, signalled) => (port, signalled)
  | (.error _, signalled) => (originalPort core, signalled)

/-- `startProxy` from the choice of the port on. -/
def startOn (core : Core) (c : StartCall) (port : Int) : Option String × Core :=
  let (err, core) :=
    if port ≠ originalPort core then setListenPort core port c.saveConfig else (none, core)
  match err with
  | some err => (some err, core)
  | none =>
    match start core c.listen with
    | (some err, core) => (some err, core)
    | (none, core) =>
      match c.waitForListen with
      | .ok () => (none, core)
      | .error err =>
        let (_, stopped) := stop core (.ok ())
        (some ("proxy started but not listening on " ++ core.listenAddr ++ ": " ++ err), stopped)

def startProxy (core : Core) (c : StartCall) : Outcome :=
  let (port, signalled) := availablePort core c
  let (err, next) := startOn core c port
  ⟨err, signalled, next⟩

def stopProxy (core : Core) (close : Except String Unit) : Outcome :=
  let (err, next) := stop core close
  ⟨err, [], next⟩

def perform (core : Core) : Call → Outcome
  | .start c => startProxy core c
  | .stop close => stopProxy core close
  | .serverEnded => ⟨none, [], { core with running := false }⟩

def step (core : Core) (call : Call) : Core := (perform core call).core

/-! ## The configured port -/

omit [CaseTables] in
theorem getListenPort_localAddr {n : Nat} (h : n ≤ maxInt) :
    getListenPort (localAddr (toString n)) = n := by
  have hprefix : hasPrefix (localAddr (toString n)) "127.0.0.1:" = true := by
    simp [hasPrefix, localAddr]
  have hdrop : (localAddr (toString n)).toList.drop "127.0.0.1:".length = (toString n).toList := by
    rw [localAddr, String.toList_append]
    exact List.drop_left
  rw [getListenPort, if_pos hprefix, hdrop, scanInt_toString h]
  rfl

omit [CaseTables] in
theorem setListenPort_addr (core : Core) (port : Int) (saveConfig : Except String Unit)
    (h : getListenPort core.listenAddr ≠ 0) :
    getListenPort (setListenPort core port saveConfig).2.listenAddr ≠ 0 := by
  unfold setListenPort setListenAddr
  split
  · exact h
  · rename_i hrange
    obtain ⟨n, rfl⟩ : ∃ n : Nat, port = n := ⟨port.toNat, by omega⟩
    have haddr : getListenPort (localAddr (toString (n : Int))) ≠ 0 := by
      rw [show toString (n : Int) = toString n from rfl, getListenPort_localAddr (by unfold maxInt; omega)]
      omega
    cases hrun : core.running with
    | true => simpa only [if_true] using h
    | false =>
      simp only [Bool.false_eq_true, if_false]
      cases saveConfig with
      | error err => simpa only using haddr
      | ok u => simpa only using haddr

omit [CaseTables] in
/-- Only `running` changes in `Start`. -/
theorem start_ports (core : Core) (listen : Except String Unit) :
    (start core listen).2.listenAddr = core.listenAddr ∧
      (start core listen).2.listenPort = core.listenPort := by
  unfold start
  split
  · exact ⟨rfl, rfl⟩
  · split <;> exact ⟨rfl, rfl⟩

omit [CaseTables] in
/-- Only `running` changes in `Stop`. -/
theorem stop_ports (core : Core) (close : Except String Unit) :
    (stop core close).2.listenAddr = core.listenAddr ∧
      (stop core close).2.listenPort = core.listenPort := by
  unfold stop
  split
  · exact ⟨rfl, rfl⟩
  · simp only
    split <;> exact ⟨rfl, rfl⟩

/-- The core of `startProxy` once the port is chosen. -/
def chosenPort (core : Core) (c : StartCall) (port : Int) : Core :=
  (if port ≠ originalPort core then setListenPort core port c.saveConfig else (none, core)).2

omit [CaseTables] in
theorem startOn_ports (core : Core) (c : StartCall) (port : Int) :
    (startOn core c port).2.listenAddr = (chosenPort core c port).listenAddr ∧
      (startOn core c port).2.listenPort = (chosenPort core c port).listenPort := by
  unfold startOn chosenPort
  generalize (if port ≠ originalPort core then setListenPort core port c.saveConfig
    else (none, core)) = chosen
  obtain ⟨err, next⟩ := chosen
  cases err with
  | some err => exact ⟨rfl, rfl⟩
  | none =>
    have hstart := start_ports next c.listen
    simp only
    split
    · rename_i heq
      rwa [heq] at hstart
    · rename_i started heq
      rw [heq] at hstart
      have hstop := stop_ports started (.ok ())
      cases c.waitForListen with
      | ok u => exact hstart
      | error err => exact ⟨hstop.1.trans hstart.1, hstop.2.trans hstart.2⟩

omit [CaseTables] in
theorem startOn_addr (core : Core) (c : StartCall) (port : Int)
    (h : getListenPort core.listenAddr ≠ 0) :
    getListenPort (startOn core c port).2.listenAddr ≠ 0 := by
  rw [(startOn_ports core c port).1, chosenPort]
  split
  · exact setListenPort_addr core port c.saveConfig h
  · exact h

/-- Every call keeps a port number in the address. -/
theorem getListenPort_step (core : Core) (call : Call) (h : getListenPort core.listenAddr ≠ 0) :
    getListenPort (step core call).listenAddr ≠ 0 := by
  cases call with
  | start c => exact startOn_addr core c _ h
  | stop close =>
    have haddr := (stop_ports core close).1
    simp only [step, perform, stopProxy, haddr]
    exact h
  | serverEnded => exact h

/-! ## Signals -/

/-- What is known of the tables of a call: this process has the name `snishaper`, and the
port it listens on is found to be its own. -/
structure Truthful (own : Int) (core : Core) (c : StartCall) : Prop where
  named : ∀ k, getProcessNameByPID (c.tables k) own = .ok "snishaper"
  owned : core.running = true → ∀ k,
    findProcessByPort (c.tables k) (getListenPort core.listenAddr) = .ok own

/-- The call does not signal this process, and does nothing at all if it is a start of the
proxy that is running. -/
def Spares (own : Int) (core : Core) (call : Call) : Prop :=
  own ∉ (perform core call).signalled ∧
    ∀ c, call = .start c → core.running = true → perform core call = ⟨none, [], core⟩

/-- A start is made only of a proxy that is not running, and every port of this process
among those that are tried comes after one at which the search ends. -/
def StartsApart (own : Int) (core : Core) (call : Call) : Prop :=
  ∀ c, call = .start c → core.running = false ∧
    ∀ k < maxAttempts, findProcessByPort (c.tables k) (originalPort core + k) = .ok own →
      ∃ j < k, Ends (c.tables j) selfNames (originalPort core + j)

theorem startProxy_signalled (core : Core) (c : StartCall) :
    (startProxy core c).signalled =
      (ensurePortAvailable c.tables (originalPort core) selfNames).2 := by
  simp only [startProxy, availablePort]
  split
  · rename_i heq
    rw [heq]
  · rename_i heq
    rw [heq]

/-- When `startProxy` signals the process it runs in. -/
theorem own_signalled_iff {own : Int} (hown : own ≠ 0) {core : Core} {c : StartCall}
    (h : Truthful own core c) :
    own ∈ (startProxy core c).signalled ↔
      ∃ k < maxAttempts, findProcessByPort (c.tables k) (originalPort core + k) = .ok own ∧
        ∀ j < k, ¬ Ends (c.tables j) selfNames (originalPort core + j) := by
  have hname : ∀ k, isSelf (c.tables k) selfNames own = true := by
    intro k
    simp [isSelf, h.named k, Except.toOption, selfNames, equalFold]
  rw [startProxy_signalled, mem_signalled_iff]
  simp only [mem_tryPort_iff hown (hname _)]

/-- A start of the proxy that is running signals the process itself. -/
theorem running_signalled {own : Int} (hown : own ≠ 0) {core : Core} {c : StartCall}
    (h : Truthful own core c) (hport : getListenPort core.listenAddr ≠ 0)
    (hrun : core.running = true) : own ∈ (startProxy core c).signalled := by
  refine (own_signalled_iff hown h).mpr ⟨0, by decide, ?_, fun j hj => absurd hj (by omega)⟩
  have horiginal : originalPort core = getListenPort core.listenAddr := if_neg hport
  rw [horiginal]
  simpa using h.owned hrun 0

/-- One call. -/
theorem spares_step_iff {own : Int} (hown : own ≠ 0) {core : Core} {call : Call}
    (h : ∀ c, call = .start c → Truthful own core c)
    (hport : getListenPort core.listenAddr ≠ 0) :
    Spares own core call ↔ StartsApart own core call := by
  cases call with
  | stop close => exact iff_of_true ⟨by simp [perform, stopProxy], by simp⟩ (by simp [StartsApart])
  | serverEnded => exact iff_of_true ⟨by simp [perform], by simp⟩ (by simp [StartsApart])
  | start c =>
    have htruth := h c rfl
    constructor
    · rintro ⟨hspared, -⟩ c' hc
      cases hc
      have hrun : core.running = false := by
        by_contra hrun
        exact hspared (running_signalled hown htruth hport (by simpa using hrun))
      refine ⟨hrun, fun k hk howner => ?_⟩
      by_contra hnone
      push Not at hnone
      exact hspared ((own_signalled_iff hown htruth).mpr ⟨k, hk, howner, hnone⟩)
    · intro hapart
      obtain ⟨hrun, hends⟩ := hapart c rfl
      refine ⟨fun hmem => ?_, fun c' _ hrun' => absurd (hrun.symm.trans hrun') (by simp)⟩
      obtain ⟨k, hk, howner, hnone⟩ := (own_signalled_iff hown htruth).mp hmem
      obtain ⟨j, hj, hend⟩ := hends k hk howner
      exact hnone j hj hend

/-- **Starting the proxy.** No call of a run signals the process itself, and every start of
the running proxy does nothing, exactly when every start of the run is apart. -/
theorem spares_iff (own : Int) (hown : 0 < own) (core : Core) (calls : List Call)
    (hport : getListenPort core.listenAddr ≠ 0)
    (htruth : EachStep step (fun core call => ∀ c, call = .start c → Truthful own core c)
      core calls) :
    EachStep step (Spares own) core calls ↔ EachStep step (StartsApart own) core calls := by
  have hports := eachStep_of_invariant getListenPort_step hport calls
  refine (htruth.and hports).iff_of fun core call h => ?_
  exact spares_step_iff (by omega) h.1 h.2

end

/-- The process 42 is the proxy; nothing listens. -/
def freeTables : Tables where
  tcp := some []
  comm := fun pid => if pid = 42 then some "snishaper\n" else none
  listen := fun _ => true

/-- The process 42 listens on the port 8080. -/
def ownTables : Tables where
  tcp := some
    ["   0: 0100007F:1F90 00000000:0000 0A 00000000:00000000 00:00000000 00000000 0 0 100 1"]
  proc := .ok [{ name := "42", fds := some [some "/dev/null", some "socket:[100]"] }]
  comm := fun pid => if pid = 42 then some "snishaper\n" else none
  listen := fun port => port ≠ 8080

def core8080 : Core := { listenAddr := "127.0.0.1:8080" }

def freshStart : StartCall := { tables := fun _ => freeTables }

def secondStart : StartCall := { tables := fun _ => ownTables }

theorem freshStart_truthful {core : Core} (h : core.running = false) :
    Truthful 42 core freshStart := by
  have hname : getProcessNameByPID freeTables 42 = .ok "snishaper" := by decide
  exact ⟨fun _ => hname, fun hrun => absurd (h.symm.trans hrun) (by decide)⟩

/-- Nothing is in the way of a start when every port is free. -/
theorem freshStart_apart {core : Core} (h : core.running = false) :
    StartsApart 42 core (.start freshStart) := by
  intro c hc
  cases hc
  refine ⟨h, fun k _ howner => ?_⟩
  have hfree : findProcessByPort (freshStart.tables k) (originalPort core + k) = .ok 0 := rfl
  rw [hfree] at howner
  exact absurd (Except.ok.inj howner) (by decide)

theorem restart_spares :
    getListenPort core8080.listenAddr ≠ 0 ∧
      EachStep step (Spares 42) core8080 [.start freshStart, .stop (.ok ()), .start freshStart] := by
  have hport : getListenPort core8080.listenAddr ≠ 0 := by decide
  have hstopped : (step (step core8080 (.start freshStart)) (.stop (.ok ()))).running = false := by
    decide
  refine ⟨hport, (spares_iff 42 (by decide) core8080 _ hport ?_).mpr ?_⟩
  · refine eachStep_cons.mpr ⟨fun c hc => ?_, eachStep_cons.mpr ⟨fun c hc => ?_,
      eachStep_cons.mpr ⟨fun c hc => ?_, eachStep_nil⟩⟩⟩
    · obtain rfl := Call.start.inj hc
      exact freshStart_truthful rfl
    · cases hc
    · obtain rfl := Call.start.inj hc
      exact freshStart_truthful hstopped
  · refine eachStep_cons.mpr ⟨freshStart_apart rfl, eachStep_cons.mpr ⟨fun c hc => ?_,
      eachStep_cons.mpr ⟨freshStart_apart hstopped, eachStep_nil⟩⟩⟩
    cases hc

/-- Starting the proxy twice: the second start finds the proxy's own port and signals the
process it runs in. -/
theorem second_start_signals_own :
    (step core8080 (.start freshStart)).running = true ∧
      Truthful 42 core8080 freshStart ∧
      Truthful 42 (step core8080 (.start freshStart)) secondStart ∧
      perform (step core8080 (.start freshStart)) (.start secondStart) =
        ⟨none, [42], step core8080 (.start freshStart)⟩ := by
  have hname : getProcessNameByPID ownTables 42 = .ok "snishaper" := by decide
  have howner : findProcessByPort ownTables
      (getListenPort (step core8080 (.start freshStart)).listenAddr) = .ok 42 := by decide +kernel
  exact ⟨by decide, freshStart_truthful rfl, ⟨fun _ => hname, fun _ _ => howner⟩,
    by decide +kernel⟩

end SniShaper.Runtime
