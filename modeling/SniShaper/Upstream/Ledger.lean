import SniShaper.Lib.Handles
import SniShaper.Upstream.Trace

/-! The books of `establishUpstreamConn` (`proxy/proxy.go`): the tries of each candidate, the
errors, the reports to the pool and the raw connections. The rounds, loops and calls of
`Upstream.Establish` are run together with the table of the raw connections.

* `establishPass_run`, `establishUpstreamConn_run`: without the table these are the loops and
  the call of `Upstream.Establish`;
* `attemptOnce_booked`: what one round enters in the books;
* `attemptLoop_booked`: what one candidate enters;
* `establishUpstreamConn_accounts`: the books of a pass and the calls of a run. -/

namespace SniShaper.Ledger

open Strings Net Config Establish Handles

/-- A run and the raw connections it dialled. -/
structure Books where
  run : Run
  conns : Table := []

/-- What a round does to the raw connections: `rawConn` is closed unless the handshake
completes. -/
def roundConns (net : Network) (conns : Table) : Table :=
  match net.dial with
  | .error _ => conns
  | .ok () =>
    let rawConn := conns.length
    match net.handshake with
    | .done _ => acquire conns
    | .echRejected _ => release (acquire conns) rawConn
    | .failed _ => release (acquire conns) rawConn

section

variable [CaseTables]

def attemptOnce (env : Env) (pass : Pass) (addr : String) (attempt : Nat) (b : Books) :
    Verdict × Books :=
  let (verdict, run) := Establish.attemptOnce env pass addr attempt b.run
  (verdict, { run := run, conns := roundConns (env.network b.run.attempts) b.conns })

/-- The inner loop: the negotiated protocol and the connection it returns, if any. -/
def attemptLoop (env : Env) (pass : Pass) (addr : String) :
    List Nat → Books → Option (String × Nat) × Books
  | [], b => (none, b)
  | attempt :: rest, b =>
    match attemptOnce env pass addr attempt b with
    | (.connected alpn, next) => (some (alpn, b.conns.length), next)
    | (.nextAddr, next) => (none, next)
    | (.retry, next) => attemptLoop env pass addr rest next

def addrLoop (env : Env) (pass : Pass) : List String → Books → Option (String × Nat) × Books
  | [], b => (none, b)
  | addr :: rest, b =>
    match attemptLoop env pass addr [0, 1] b with
    | (some found, b) => (some found, b)
    | (none, b) => addrLoop env pass rest b

/-- The candidates of a pass. -/
def ordered (host : String) (dialCandidates : List String) : List String :=
  if dialCandidates = [] then [joinHostPort host "443"] else dialCandidates

def establishPass (env : Env) (host : String) (rule : Rule) (dialCandidates : List String)
    (initialALPN : String) (b : Books) : Option (String × Nat) × Books :=
  addrLoop env (passUnder host initialALPN rule) (ordered host dialCandidates)
    { b with run := { b.run with errs := [] } }

/-- The call with its recursion: `none` when more than `depth` calls are nested. -/
def establishUpstreamConn (env : Env) (host : String) (dialCandidates : List String)
    (initialALPN : String) : Nat → Rule → Books → Option (Except String (String × Nat) × Books)
  | 0, _, _ => none
  | depth + 1, rule, b =>
    match establishPass env host rule dialCandidates initialALPN b with
    | (some found, b) => some (.ok found, b)
    | (none, b) =>
      if b.run.errs = [] then some (.error "all candidates failed with unknown error", b)
      else match fallbackRule rule with
        | some next => establishUpstreamConn env host dialCandidates initialALPN depth next b
        | none => some (.error ("all candidates failed: " ++ join b.run.errs "; "), b)

/-! ## The run in the books -/

theorem attemptOnce_run (env : Env) (pass : Pass) (addr : String) (attempt : Nat) (b : Books) :
    ((attemptOnce env pass addr attempt b).1, (attemptOnce env pass addr attempt b).2.run) =
      Establish.attemptOnce env pass addr attempt b.run := rfl

theorem attemptLoop_run (env : Env) (pass : Pass) (addr : String) (attempts : List Nat)
    (b : Books) :
    ((attemptLoop env pass addr attempts b).1.map Prod.fst,
        (attemptLoop env pass addr attempts b).2.run) =
      Establish.attemptLoop env pass addr attempts b.run := by
  induction attempts generalizing b with
  | nil => rfl
  | cons attempt rest ih =>
    rw [attemptLoop, Establish.attemptLoop, ← attemptOnce_run]
    rcases attemptOnce env pass addr attempt b with ⟨verdict, next⟩
    cases verdict with
    | connected alpn => rfl
    | nextAddr => rfl
    | retry => exact ih next

theorem addrLoop_run (env : Env) (pass : Pass) (addrs : List String) (b : Books) :
    ((addrLoop env pass addrs b).1.map Prod.fst, (addrLoop env pass addrs b).2.run) =
      Establish.addrLoop env pass addrs b.run := by
  induction addrs generalizing b with
  | nil => rfl
  | cons addr rest ih =>
    rw [addrLoop, Establish.addrLoop, ← attemptLoop_run]
    rcases attemptLoop env pass addr [0, 1] b with ⟨found, next⟩
    cases found with
    | some found => rfl
    | none => exact ih next

theorem establishPass_run (env : Env) (host : String) (rule : Rule) (dialCandidates : List String)
    (initialALPN : String) (b : Books) :
    ((establishPass env host rule dialCandidates initialALPN b).1.map Prod.fst,
        (establishPass env host rule dialCandidates initialALPN b).2.run) =
      Establish.establishPass env host rule dialCandidates initialALPN b.run :=
  addrLoop_run _ _ _ _

/-- The last pass of a call, or the one before the re-run, without the table. -/
theorem establishUpstreamConn_last {env : Env} {host initialALPN : String} {rule : Rule}
    {dialCandidates : List String} (h : fallbackRule rule = none) (depth : Nat) (b : Books) :
    ∃ r, establishUpstreamConn env host dialCandidates initialALPN (depth + 1) rule b = some r ∧
      (r.1.map Prod.fst, r.2.run) =
        afterPass none
          (Establish.establishPass env host rule dialCandidates initialALPN b.run) := by
  rw [establishUpstreamConn, ← establishPass_run]
  rcases establishPass env host rule dialCandidates initialALPN b with ⟨found, next⟩
  cases found with
  | some found => exact ⟨_, rfl, rfl⟩
  | none =>
    by_cases herrs : next.run.errs = []
    · exact ⟨_, if_pos herrs, by simp [afterPass, herrs, Except.map]⟩
    · simp only [herrs, ↓reduceIte, h]
      exact ⟨_, rfl, by simp [afterPass, herrs, Except.map]⟩

/-- A run is over after two calls, and is the run of `Upstream.Establish`. -/
theorem establishUpstreamConn_run (env : Env) (host : String) (rule : Rule)
    (dialCandidates : List String) (initialALPN : String) (depth : Nat) (b : Books) :
    ∃ r, establishUpstreamConn env host dialCandidates initialALPN (depth + 2) rule b = some r ∧
      (r.1.map Prod.fst, r.2.run) =
        Establish.establishUpstreamConn env host rule dialCandidates initialALPN b.run := by
  cases hfall : fallbackRule rule with
  | none =>
    obtain ⟨r, hr, hrun⟩ := establishUpstreamConn_last hfall (depth + 1) b
    exact ⟨r, hr, by rw [hrun, Establish.establishUpstreamConn, hfall, Option.map_none]⟩
  | some next =>
    rw [establishUpstreamConn, Establish.establishUpstreamConn, hfall, ← establishPass_run]
    rcases establishPass env host rule dialCandidates initialALPN b with ⟨found, after⟩
    cases found with
    | some found => exact ⟨_, rfl, rfl⟩
    | none =>
      by_cases herrs : after.run.errs = []
      · exact ⟨_, if_pos herrs, by simp [afterPass, herrs, Except.map]⟩
      · obtain ⟨r, hr, hrun⟩ := establishUpstreamConn_last (fallbackRule_final hfall) depth after
        refine ⟨r, by simpa only [herrs, ↓reduceIte] using hr, ?_⟩
        rw [hrun]
        simp [afterPass, herrs]

end

/-! ## What is entered in the books -/

/-- The dial gave a connection. -/
def gaveConn (net : Network) : Bool := net.dial.isOk

/-- The try is followed by a second one: the server rejected the ECH config and the refresh
found a new one. -/
def Retries (env : Env) (pass : Pass) (net : Network) : Prop :=
  net.dial = .ok () ∧ (∃ err, net.handshake = .echRejected err) ∧ pass.rule.echEnabled = true ∧
    refreshECH env net pass ≠ []

/-- What the last try of a candidate ends with: the negotiated protocol or the error. -/
def ended (addr : String) (net : Network) : Except String String :=
  match net.dial with
  | .error err => .error (addr ++ " dial: " ++ err)
  | .ok () =>
    match net.handshake with
    | .done alpn => .ok alpn
    | .echRejected err => .error (addr ++ " utls: " ++ err)
    | .failed err => .error (addr ++ " utls: " ++ err)

/-- From `b` to `b'` the tries were made, the errors and the reports were added, and of the
connections that were dialled only `conn` is left open. -/
structure Booked (env : Env) (tries : List Network) (errs : List String) (reports : List Report)
    (conn : Option Nat) (b b' : Books) : Prop where
  networks : tries = (List.range' b.run.attempts tries.length).map env.network
  attempts : b'.run.attempts = b.run.attempts + tries.length
  errs : b'.run.errs = b.run.errs ++ errs
  reports : b'.run.reports = b.run.reports ++ reports
  dialled : b'.conns.length = b.conns.length + tries.countP gaveConn
  opened : openIn b'.conns = openIn b.conns ∪ {c | conn = some c}

theorem Booked.nothing (env : Env) (b : Books) : Booked env [] [] [] none b b :=
  ⟨by simp, by simp, by simp, by simp, by simp, by simp⟩

/-- Two parts of a run, the first of which leaves nothing open. -/
theorem Booked.trans {env : Env} {tries tries' : List Network} {errs errs' : List String}
    {reports reports' : List Report} {conn : Option Nat} {b b' b'' : Books}
    (h : Booked env tries errs reports none b b')
    (h' : Booked env tries' errs' reports' conn b' b'') :
    Booked env (tries ++ tries') (errs ++ errs') (reports ++ reports') conn b b'' where
  networks := by
    rw [List.length_append, ← List.range'_append_1, List.map_append, ← h.networks, ← h.attempts,
      ← h'.networks]
  attempts := by rw [h'.attempts, h.attempts, List.length_append, Nat.add_assoc]
  errs := by rw [h'.errs, h.errs, List.append_assoc]
  reports := by rw [h'.reports, h.reports, List.append_assoc]
  dialled := by rw [h'.dialled, h.dialled, List.countP_append, Nat.add_assoc]
  opened := by
    rw [h'.opened, h.opened]
    simp

/-- What one round enters, by its verdict. -/
inductive RoundBooked (env : Env) (pass : Pass) (addr : String) (attempt : Nat) (net : Network)
    (b b' : Books) : Verdict → Prop where
  | retry (hfirst : attempt = 0) (hretries : Retries env pass net)
      (hbooked : Booked env [net] [] [] none b b') :
      RoundBooked env pass addr attempt net b b' .retry
  | nextAddr (err : String) (hover : attempt = 0 → ¬ Retries env pass net)
      (hended : ended addr net = .error err)
      (hbooked : Booked env [net] [err] (poolReport env pass.rule addr false) none b b') :
      RoundBooked env pass addr attempt net b b' .nextAddr
  | connected (alpn : String) (hended : ended addr net = .ok alpn)
      (hbooked : Booked env [net] [] (poolReport env pass.rule addr true) (some b.conns.length)
        b b') :
      RoundBooked env pass addr attempt net b b' (.connected alpn)

theorem roundConns_length (net : Network) (conns : Table) :
    (roundConns net conns).length = conns.length + [net].countP gaveConn := by
  unfold roundConns
  cases hdial : net.dial with
  | error err => simp [gaveConn, hdial, Except.isOk, Except.toBool]
  | ok _ =>
    cases net.handshake with
    | done alpn => simp [gaveConn, hdial, Except.isOk, Except.toBool]
    | echRejected err => simp [gaveConn, hdial, Except.isOk, Except.toBool, release]
    | failed err => simp [gaveConn, hdial, Except.isOk, Except.toBool, release]

/-- The connection of a round that does not connect is closed. -/
theorem openIn_roundConns_error {addr err : String} {net : Network}
    (h : ended addr net = .error err) (conns : Table) :
    openIn (roundConns net conns) = openIn conns := by
  unfold ended at h
  unfold roundConns
  cases hdial : net.dial with
  | error err => rfl
  | ok _ =>
    cases hshake : net.handshake with
    | done alpn =>
      rw [hdial, hshake] at h
      cases h
    | echRejected err => exact (openIn_release _ _).trans (openIn_acquire_sdiff conns)
    | failed err => exact (openIn_release _ _).trans (openIn_acquire_sdiff conns)

theorem openIn_roundConns_ok {addr alpn : String} {net : Network} (h : ended addr net = .ok alpn)
    (conns : Table) : openIn (roundConns net conns) = insert conns.length (openIn conns) := by
  unfold ended at h
  unfold roundConns
  cases hdial : net.dial with
  | error err =>
    rw [hdial] at h
    cases h
  | ok _ =>
    cases hshake : net.handshake with
    | done alpn => exact openIn_acquire conns
    | echRejected err =>
      rw [hdial, hshake] at h
      cases h
    | failed err =>
      rw [hdial, hshake] at h
      cases h

section Round

variable {env : Env} {b : Books} {run : Run} {errs : List String} {reports : List Report}
variable (hattempts : run.attempts = b.run.attempts + 1) (herrs : run.errs = b.run.errs ++ errs)
variable (hreports : run.reports = b.run.reports ++ reports)

include hattempts herrs hreports

theorem Booked.failedRound {addr err : String}
    (hended : ended addr (env.network b.run.attempts) = .error err) :
    Booked env [env.network b.run.attempts] errs reports none b
      ⟨run, roundConns (env.network b.run.attempts) b.conns⟩ where
  networks := by simp
  attempts := hattempts
  errs := herrs
  reports := hreports
  dialled := roundConns_length _ _
  opened := by
    rw [openIn_roundConns_error hended]
    simp

theorem Booked.connectedRound {addr alpn : String}
    (hended : ended addr (env.network b.run.attempts) = .ok alpn) :
    Booked env [env.network b.run.attempts] errs reports (some b.conns.length) b
      ⟨run, roundConns (env.network b.run.attempts) b.conns⟩ where
  networks := by simp
  attempts := hattempts
  errs := herrs
  reports := hreports
  dialled := roundConns_length _ _
  opened := by
    rw [openIn_roundConns_ok hended]
    ext c
    simp [eq_comm]

end Round

section

variable [CaseTables]

theorem attemptOnce_booked (env : Env) (pass : Pass) (addr : String) (attempt : Nat) (b : Books) :
    RoundBooked env pass addr attempt (env.network b.run.attempts) b
      (attemptOnce env pass addr attempt b).2 (attemptOnce env pass addr attempt b).1 := by
  cases hdial : (env.network b.run.attempts).dial with
  | error err =>
    have hended : ended addr (env.network b.run.attempts) = .error (addr ++ " dial: " ++ err) := by
      rw [ended, hdial]
    simp only [attemptOnce, Establish.attemptOnce, hdial]
    refine .nextAddr _ (fun _ hretries => ?_) hended (.failedRound rfl rfl rfl hended)
    rw [hretries.1] at hdial
    cases hdial
  | ok _ =>
    cases hshake : (env.network b.run.attempts).handshake with
    | done alpn =>
      have hended : ended addr (env.network b.run.attempts) = .ok alpn := by
        rw [ended, hdial, hshake]
      simp only [attemptOnce, Establish.attemptOnce, hdial, afterHandshake, hshake]
      exact .connected alpn hended (.connectedRound rfl (by simp) rfl hended)
    | failed err =>
      have hended : ended addr (env.network b.run.attempts) =
          .error (addr ++ " utls: " ++ err) := by
        rw [ended, hdial, hshake]
      simp only [attemptOnce, Establish.attemptOnce, hdial, afterHandshake, hshake]
      refine .nextAddr _ (fun _ hretries => ?_) hended (.failedRound rfl rfl rfl hended)
      obtain ⟨_, ⟨_, hrejected⟩, -⟩ := hretries
      rw [hshake] at hrejected
      cases hrejected
    | echRejected err =>
      have hended : ended addr (env.network b.run.attempts) =
          .error (addr ++ " utls: " ++ err) := by
        rw [ended, hdial, hshake]
      simp only [attemptOnce, Establish.attemptOnce, hdial, afterHandshake, hshake]
      by_cases hretry : attempt = 0 ∧ pass.rule.echEnabled = true ∧
          refreshECH env (env.network b.run.attempts) pass ≠ []
      · rw [if_pos hretry]
        exact .retry hretry.1 ⟨hdial, ⟨err, hshake⟩, hretry.2⟩
          (.failedRound rfl (by simp) (by simp) hended)
      · rw [if_neg hretry]
        refine .nextAddr _ (fun hfirst hretries => ?_) hended (.failedRound rfl rfl rfl hended)
        exact hretry ⟨hfirst, hretries.2.2⟩

end

/-! ## The candidates of a pass -/

/-- A candidate that was tried: what the network did in the first try and, if there was one,
in the second. -/
structure Entry where
  addr : String
  first : Network
  second : Option Network

namespace Entry

def tries (e : Entry) : List Network := e.first :: e.second.toList

def result (e : Entry) : Except String String := ended e.addr (e.second.getD e.first)

def succeeded (e : Entry) : Bool := e.result.isOk

/-- The one error of a candidate that fails. -/
def errs (e : Entry) : List String :=
  match e.result with
  | .ok _ => []
  | .error err => [err]

/-- The one report about a candidate, if its address names a host. -/
def report (e : Entry) : Option Report :=
  match splitHostPort e.addr with
  | .ok (h, _) => if h ≠ "" then some ⟨h, e.succeeded⟩ else none
  | .error _ => none

theorem poolReport_eq (env : Env) (rule : Rule) (e : Entry) :
    poolReport env rule e.addr e.succeeded =
      if rule.useCFPool = true ∧ env.cfPool = true then e.report.toList else [] := by
  unfold poolReport report
  cases splitHostPort e.addr with
  | error err => rfl
  | ok found =>
    by_cases hhost : found.1 = ""
    · simp [hhost]
    · simp [hhost]

end Entry

/-- The reports about the candidates, if the rule uses the pool and it is set. -/
def reported (env : Env) (rule : Rule) (entries : List Entry) : List Report :=
  if rule.useCFPool = true ∧ env.cfPool = true then entries.filterMap Entry.report else []

theorem reported_nil (env : Env) (rule : Rule) : reported env rule [] = [] := by
  simp [reported]

theorem reported_cons (env : Env) (rule : Rule) (e : Entry) (entries : List Entry) :
    reported env rule (e :: entries) =
      poolReport env rule e.addr e.succeeded ++ reported env rule entries := by
  rw [Entry.poolReport_eq]
  unfold reported
  by_cases hpool : rule.useCFPool = true ∧ env.cfPool = true
  · cases hreport : e.report with
    | none => simp [hpool, hreport]
    | some report => simp [hpool, hreport]
  · simp [hpool]

/-- How a candidate ends: it fails, or the loop returns the connection that was dialled last. -/
inductive Ends (e : Entry) (b' : Books) : Option (String × Nat) → Prop where
  | failed (err : String) (hresult : e.result = .error err) : Ends e b' none
  | connected (alpn : String) (conn : Nat) (hresult : e.result = .ok alpn)
      (hlast : conn + 1 = b'.conns.length) : Ends e b' (some (alpn, conn))

/-- What a round without a retry returns. -/
def returned (verdict : Verdict) (b : Books) : Option (String × Nat) :=
  verdict.protocol.map fun alpn => (alpn, b.conns.length)

theorem gaveConn_of_ended {addr alpn : String} {net : Network} (h : ended addr net = .ok alpn) :
    gaveConn net = true := by
  unfold ended at h
  unfold gaveConn
  cases hdial : net.dial with
  | error err =>
    rw [hdial] at h
    cases h
  | ok _ => rfl

/-- The last round of a candidate. -/
theorem RoundBooked.ends {env : Env} {pass : Pass} {addr : String} {attempt : Nat} {net : Network}
    {b b' : Books} {verdict : Verdict} (h : RoundBooked env pass addr attempt net b b' verdict)
    (hlast : verdict ≠ .retry) {e : Entry} (hresult : e.result = ended addr net) :
    Booked env [net] e.errs (poolReport env pass.rule addr e.succeeded)
        ((returned verdict b).map Prod.snd) b b' ∧ Ends e b' (returned verdict b) := by
  cases h with
  | retry => exact absurd rfl hlast
  | nextAddr err _ hended hbooked =>
    rw [hended] at hresult
    refine ⟨?_, .failed err hresult⟩
    simpa [Entry.errs, Entry.succeeded, hresult, returned, Verdict.protocol, Except.isOk,
      Except.toBool] using hbooked
  | connected alpn hended hbooked =>
    have hlength := hbooked.dialled
    rw [List.countP_singleton, if_pos (gaveConn_of_ended hended)] at hlength
    rw [hended] at hresult
    refine ⟨?_, .connected alpn _ hresult hlength.symm⟩
    simpa [Entry.errs, Entry.succeeded, hresult, returned, Verdict.protocol, Except.isOk,
      Except.toBool] using hbooked

/-- A first round without a retry had no reason for one. -/
theorem RoundBooked.not_retries {env : Env} {pass : Pass} {addr : String} {net : Network}
    {b b' : Books} {verdict : Verdict} (h : RoundBooked env pass addr 0 net b b' verdict)
    (hlast : verdict ≠ .retry) : ¬ Retries env pass net := by
  cases h with
  | retry => exact absurd rfl hlast
  | nextAddr _ hover => exact hover rfl
  | connected alpn hended =>
    rintro ⟨hdial, ⟨err, hrejected⟩, -⟩
    rw [ended, hdial, hrejected] at hended
    cases hended

section

variable [CaseTables]

theorem attemptLoop_last {env : Env} {pass : Pass} {addr : String} {attempt : Nat} {b : Books}
    (h : (attemptOnce env pass addr attempt b).1 ≠ .retry) (rest : List Nat) :
    attemptLoop env pass addr (attempt :: rest) b =
      (returned (attemptOnce env pass addr attempt b).1 b,
        (attemptOnce env pass addr attempt b).2) := by
  rw [attemptLoop]
  rcases hround : attemptOnce env pass addr attempt b with ⟨verdict, next⟩
  rw [hround] at h
  cases verdict with
  | connected alpn => rfl
  | nextAddr => rfl
  | retry => exact absurd rfl h

theorem attemptLoop_retry {env : Env} {pass : Pass} {addr : String} {attempt : Nat} {b : Books}
    (h : (attemptOnce env pass addr attempt b).1 = .retry) (rest : List Nat) :
    attemptLoop env pass addr (attempt :: rest) b =
      attemptLoop env pass addr rest (attemptOnce env pass addr attempt b).2 := by
  rw [attemptLoop]
  rcases hround : attemptOnce env pass addr attempt b with ⟨verdict, next⟩
  rw [hround] at h
  cases h
  rfl

/-- The tries of one candidate and what they enter. -/
theorem attemptLoop_booked (env : Env) (pass : Pass) (addr : String) (b : Books) :
    ∃ e : Entry, e.addr = addr ∧ (e.second ≠ none ↔ Retries env pass e.first) ∧
      Booked env e.tries e.errs (poolReport env pass.rule addr e.succeeded)
        ((attemptLoop env pass addr [0, 1] b).1.map Prod.snd) b
        (attemptLoop env pass addr [0, 1] b).2 ∧
      Ends e (attemptLoop env pass addr [0, 1] b).2 (attemptLoop env pass addr [0, 1] b).1 := by
  have hfirst := attemptOnce_booked env pass addr 0 b
  by_cases hretry : (attemptOnce env pass addr 0 b).1 = .retry
  · rw [attemptLoop_retry hretry]
    rw [hretry] at hfirst
    obtain ⟨-, hretries, hbooked⟩ := hfirst
    -- the second round cannot ask for a third
    have hsecond := attemptOnce_booked env pass addr 1 (attemptOnce env pass addr 0 b).2
    have hover : (attemptOnce env pass addr 1 (attemptOnce env pass addr 0 b).2).1 ≠ .retry := by
      intro hagain
      rw [hagain] at hsecond
      obtain ⟨hzero, -⟩ := hsecond
      exact absurd hzero (by decide)
    rw [attemptLoop_last hover]
    let e : Entry := ⟨addr, env.network b.run.attempts,
      some (env.network (attemptOnce env pass addr 0 b).2.run.attempts)⟩
    obtain ⟨hlast, hends⟩ := @RoundBooked.ends _ _ _ _ _ _ _ _ hsecond hover e rfl
    exact ⟨e, rfl, iff_of_true (by simp [e]) hretries, hbooked.trans hlast, hends⟩
  · rw [attemptLoop_last hretry]
    let e : Entry := ⟨addr, env.network b.run.attempts, none⟩
    refine ⟨e, rfl, iff_of_false (by simp [e]) ?_, hfirst.ends hretry rfl⟩
    exact hfirst.not_retries hretry

end

/-- How a pass ends: the connection of the last candidate is returned and those before it
failed, or all candidates were tried and failed. -/
inductive Concludes (candidates : List String) (b' : Books) :
    List Entry → Option (String × Nat) → Prop where
  | allFailed (entries : List Entry) (hall : entries.map Entry.addr = candidates)
      (hfailed : ∀ e ∈ entries, e.succeeded = false) : Concludes candidates b' entries none
  | connected (failed : List Entry) (last : Entry) (alpn : String) (conn : Nat)
      (hfailed : ∀ e ∈ failed, e.succeeded = false) (hresult : last.result = .ok alpn)
      (hlast : conn + 1 = b'.conns.length) :
      Concludes candidates b' (failed ++ [last]) (some (alpn, conn))

theorem Concludes.cons {candidates : List String} {b' : Books} {entries : List Entry}
    {found : Option (String × Nat)} {e : Entry} (h : Concludes candidates b' entries found)
    (he : e.succeeded = false) : Concludes (e.addr :: candidates) b' (e :: entries) found := by
  cases h with
  | allFailed _ hall hfailed =>
    exact .allFailed _ (by rw [List.map_cons, hall]) (List.forall_mem_cons.mpr ⟨he, hfailed⟩)
  | connected failed last alpn conn hfailed hresult hlast =>
    exact .connected (e :: failed) last alpn conn (List.forall_mem_cons.mpr ⟨he, hfailed⟩) hresult
      hlast

/-- The books of a pass, from `b` to `b'`, in terms of the candidates that were tried. -/
structure Accounts (env : Env) (pass : Pass) (candidates : List String)
    (found : Option (String × Nat)) (b b' : Books) (entries : List Entry) : Prop where
  order : entries.map Entry.addr <+: candidates
  second : ∀ e ∈ entries, e.second ≠ none ↔ Retries env pass e.first
  booked : Booked env (entries.flatMap Entry.tries) (entries.flatMap Entry.errs)
    (reported env pass.rule entries) (found.map Prod.snd) b b'
  concludes : Concludes candidates b' entries found

section

variable [CaseTables]

theorem addrLoop_accounts (env : Env) (pass : Pass) (candidates : List String) (b : Books) :
    ∃ entries, Accounts env pass candidates (addrLoop env pass candidates b).1 b
      (addrLoop env pass candidates b).2 entries := by
  induction candidates generalizing b with
  | nil =>
    refine ⟨[], List.nil_prefix, by simp, ?_, .allFailed [] rfl (by simp)⟩
    rw [reported_nil]
    exact .nothing env b
  | cons addr rest ih =>
    obtain ⟨e, rfl, hsecond, hbooked, hends⟩ := attemptLoop_booked env pass addr b
    rw [addrLoop]
    rcases hloop : attemptLoop env pass e.addr [0, 1] b with ⟨found, next⟩
    rw [hloop] at hbooked hends
    cases hends with
    | connected alpn conn hresult hlast =>
      refine ⟨[e], List.prefix_append [e.addr] rest, by simpa using hsecond, ?_, ?_⟩
      · rw [reported_cons, reported_nil, List.append_nil]
        simpa using hbooked
      · exact .connected [] e alpn conn (by simp) hresult hlast
    | failed err hresult =>
      have hfailed : e.succeeded = false := by
        rw [Entry.succeeded, hresult]
        rfl
      obtain ⟨entries, hrest⟩ := ih next
      refine ⟨e :: entries, ?_, ?_, ?_, hrest.concludes.cons hfailed⟩
      · exact (List.prefix_cons_inj _).mpr hrest.order
      · exact List.forall_mem_cons.mpr ⟨hsecond, hrest.second⟩
      · rw [reported_cons, List.flatMap_cons, List.flatMap_cons]
        exact hbooked.trans hrest.booked

omit [CaseTables] in
/-- A pass that does not connect has an error of every candidate. -/
theorem Accounts.errs_ne_nil {env : Env} {pass : Pass} {candidates : List String} {b b' : Books}
    {entries : List Entry} (h : Accounts env pass candidates none b b' entries)
    (hne : candidates ≠ []) : b'.run.errs ≠ [] := by
  obtain ⟨_, hall, hfailed⟩ := h.concludes
  rw [h.booked.errs]
  cases entries with
  | nil => exact absurd hall.symm hne
  | cons e entries =>
    have he := hfailed e (List.mem_cons_self ..)
    cases hresult : e.result with
    | ok alpn =>
      rw [Entry.succeeded, hresult] at he
      cases he
    | error err => simp [Entry.errs, hresult]

/-- **The books of an establishment.** One pass over the candidates is accounted for by the
candidates it tried, in order: the second tries, the errors, the reports and the connections.
A pass without a connection has an error to report, and a run is over after at most one
re-run. -/
theorem establishUpstreamConn_accounts (env : Env) (host : String) (rule : Rule)
    (dialCandidates : List String) (initialALPN : String) (b : Books)
    (hne : dialCandidates ≠ []) :
    (∃ entries, Accounts env (passUnder host initialALPN rule) dialCandidates
        (establishPass env host rule dialCandidates initialALPN b).1
        { b with run := { b.run with errs := [] } }
        (establishPass env host rule dialCandidates initialALPN b).2 entries) ∧
      ((establishPass env host rule dialCandidates initialALPN b).1 = none →
        (establishPass env host rule dialCandidates initialALPN b).2.run.errs ≠ []) ∧
      ∀ depth, ∃ out,
        establishUpstreamConn env host dialCandidates initialALPN (depth + 2) rule b = some out ∧
        (out.1.map Prod.fst, out.2.run) =
          Establish.establishUpstreamConn env host rule dialCandidates initialALPN b.run := by
  have haccounts : ∃ entries, Accounts env (passUnder host initialALPN rule) dialCandidates
      (establishPass env host rule dialCandidates initialALPN b).1
      { b with run := { b.run with errs := [] } }
      (establishPass env host rule dialCandidates initialALPN b).2 entries := by
    rw [establishPass, ordered, if_neg hne]
    exact addrLoop_accounts _ _ _ _
  refine ⟨haccounts, ?_, fun depth => establishUpstreamConn_run ..⟩
  intro hnone
  obtain ⟨entries, h⟩ := haccounts
  rw [hnone] at h
  exact h.errs_ne_nil hne

end

/-- A network with a pool and a resolver: the first dial fails, the first handshake is rejected
for its ECH config and a new one is found, and from then on all goes well. -/
def mixedNetwork : Env where
  dohResolver := true
  cfPool := true
  certBypassMap := []
  network := fun n =>
    { resolveECH := fun _ => .ok [1]
      dial := if n = 0 then .error "timeout" else .ok ()
      handshake := if n = 1 then .echRejected "ech rejected" else .done "h2"
      resolveECHSafe := fun _ => .ok [2] }

def mixedRule : Rule := { useCFPool := true, echEnabled := true }

/-- The first candidate fails; the second one is tried twice and connects. -/
theorem mixed_candidates_account :
    let pass := establishPass mixedNetwork "a.example" mixedRule ["192.0.2.1:443", "192.0.2.2:443"]
      "" { run := { store := [] } }
    (pass.1, pass.2.run.attempts, pass.2.run.errs, pass.2.run.reports, pass.2.conns) =
        (some ("h2", 1), 3, ["192.0.2.1:443 dial: timeout"],
          [⟨"192.0.2.1", false⟩, ⟨"192.0.2.2", true⟩], [false, true]) ∧
      ∃ entries, Accounts mixedNetwork (passUnder "a.example" "" mixedRule)
        ["192.0.2.1:443", "192.0.2.2:443"] pass.1 { run := { store := [] } } pass.2 entries :=
  ⟨by decide, (establishUpstreamConn_accounts mixedNetwork "a.example" mixedRule
    ["192.0.2.1:443", "192.0.2.2:443"] "" { run := { store := [] } } (by decide)).1⟩

/-- A network in which no dial succeeds, with a pool. -/
def deadNetwork : Env where
  dohResolver := false
  cfPool := true
  certBypassMap := []
  network := fun _ =>
    { resolveECH := fun _ => .ok []
      dial := .error "timeout"
      handshake := .failed ""
      resolveECHSafe := fun _ => .ok [] }

/-- An address without a host fails, and the pool is not told. -/
theorem hostless_failure_unreported :
    (establishPass deadNetwork "a.example" { useCFPool := true } [":8443"] ""
        { run := { store := [] } }).1 = none ∧
      (establishPass deadNetwork "a.example" { useCFPool := true } [":8443"] ""
        { run := { store := [] } }).2.run.errs = [":8443 dial: timeout"] ∧
      (establishPass deadNetwork "a.example" { useCFPool := true } [":8443"] ""
        { run := { store := [] } }).2.run.reports = [] := by
  decide

end SniShaper.Ledger
