import Mathlib.Logic.Function.Basic
import SniShaper.Lib.Machine
import SniShaper.Tun.Status

/-! The runs of the external Mihomo process's manager (`externalMihomoManager` of
`external_mihomo.go`). A `Start` that has spawned its process keeps the mutex while it waits;
meanwhile processes log, exit and start, and no other call goes on.

* `start_error_leaves_none_iff`: when a `Start` that fails leaves no process of its own;
* `stop_kills_own`: when a stop kills no process of another program, in one call and in runs. -/

namespace SniShaper.Tun

open Strings Numbers Bounds Lines RingLog LineBreaks Machine

/-! ## The source's functions -/

/-- A `Start` in its `select`. -/
structure Waiting where
  child : Nat
  readyChan : Bool
  fatalChan : Option String
  deriving DecidableEq, Repr

/-- `restarting` counts the calls of `RestartIfRunning` that have found a process and have not
called `Start` yet, `returned` is what the last `Start` has returned, and `kills` is what
`stopLocked` has killed. -/
structure State extends Host where
  waiting : Option Waiting
  restarting : Nat
  returned : Option (Except String Unit)
  kills : List (Nat × Owner)

/-- What happens to the pid file when it is written. The few digits are not written in parts. -/
inductive PidWrite
  | whole
  | notOpened
  | truncated
  deriving DecidableEq, Repr

/-- What the system answers to a call of `Start`. -/
structure StartCall where
  listenPort : String
  mkdir : Except String Unit
  coreFound : Bool
  writeConfig : Except String Unit
  removed : Bool
  spawned : Except String Nat
  pidWrite : PidWrite

/-- The case of the `select` that is taken. -/
inductive Choice
  | ready
  | fatal
  | timeout (removed : Bool)
  deriving DecidableEq, Repr

/-- `own` lines come from the process of the `Start` that waits, others from earlier ones. -/
inductive Event
  | start (call : StartCall)
  | stop (removed : Bool)
  | restart (removed : Bool)
  | restartStart (call : StartCall)
  | status (removed coreFound : Bool)
  | select (choice : Choice)
  | line (own : Bool) (text : String)
  | exit (pid : Nat)
  | spawn (pid : Nat)

/-- What the runs do not change. `errorf` is `fmt.Errorf` of a text without arguments. -/
structure Setup where
  corePath : String
  errorf : String → String
  grow : Nat → Nat

def removePidFile (removed : Bool) (pidFile : Option String) : Option String :=
  if removed then none else pidFile

/-- The process that a stop kills, with who has started it; there may be none with the pid. -/
def killed (s : State) : List (Nat × Owner) :=
  if s.readPIDLocked = 0 then []
  else ((s.procs s.readPIDLocked).map fun owner => (s.readPIDLocked, owner)).toList

/-- A process that is killed is gone at once. -/
def stopLocked (removed : Bool) (s : State) : State :=
  let pid := s.readPIDLocked
  let pidFile := removePidFile removed s.pidFile
  if pid = 0 then { s with pidFile := pidFile }
  else
    { s with
      procs := Function.update s.procs pid none
      pidFile := pidFile
      kills := s.kills ++ killed s }

def ensureConfigLocked (env : Setup) (call : StartCall) (listenPort : String) :
    Except String Unit :=
  if trimSpace listenPort = "" then .error "proxy listen port is empty"
  else
    match call.mkdir with
    | .error err => .error err
    | .ok () =>
      if call.coreFound then call.writeConfig
      else .error ("mihomo core not found: " ++ env.corePath)

def writePID (pid : Nat) (pidFile : Option String) : PidWrite → Option String
  | .whole => some (toString pid)
  | .notOpened => pidFile
  | .truncated => some ""

/-- A pid that the system can give to a new process. -/
def FreePID (s : State) (pid : Nat) : Prop := 0 < pid ∧ pid ≤ maxInt ∧ s.procs pid = none

instance (s : State) (pid : Nat) : Decidable (FreePID s pid) :=
  inferInstanceAs (Decidable (_ ∧ _ ∧ _))

/-- The part of `Start` after the configuration is written, up to the `select`. -/
def spawnChild (call : StartCall) (s : State) : Option State :=
  let s := { s with logBuffer := clear s.logBuffer }
  match call.spawned with
  | .error err => some { s with returned := some (.error err) }
  | .ok pid =>
    if FreePID s pid then
      some { s with
        procs := Function.update s.procs pid (some .child)
        pidFile := writePID pid s.pidFile call.pidWrite
        waiting := some { child := pid, readyChan := false, fatalChan := none } }
    else none

def startLocked (env : Setup) (call : StartCall) (s : State) : Option State :=
  let listenPort := trimSpace call.listenPort
  if listenPort = "" then
    some { s with returned := some (.error "proxy listen port is empty") }
  else
    match ensureConfigLocked env call listenPort with
    | .error err => some { s with returned := some (.error err) }
    | .ok () => spawnChild call (stopLocked call.removed s)

section

variable {env : Setup} {s t : State}

/-! ## What a start leaves -/

/-- The port and the configuration let a start go on. -/
def Configured (env : Setup) (call : StartCall) : Prop :=
  trimSpace call.listenPort ≠ "" ∧
    ensureConfigLocked env call (trimSpace call.listenPort) = .ok ()

/-- The processes of the manager that are there once a start has stopped the one in the pid file
and spawned its own. -/
def Left (env : Setup) (call : StartCall) (s : State) (pid : Nat) : Prop :=
  (s.procs pid = some .child ∧ ¬ (Configured env call ∧ s.readPIDLocked = pid ∧ pid ≠ 0)) ∨
    Configured env call ∧ call.spawned = .ok pid

/-- A start fails before it has stopped anything, or it stops and spawns. -/
theorem startLocked_cases {call : StartCall} (h : startLocked env call s = some t) :
    (¬ Configured env call ∧ ∃ err, t = { s with returned := some (.error err) }) ∨
      Configured env call ∧ spawnChild call (stopLocked call.removed s) = some t := by
  unfold startLocked at h
  simp only at h
  by_cases hport : trimSpace call.listenPort = ""
  · rw [if_pos hport] at h
    exact .inl ⟨fun hconf => hconf.1 hport, _, (Option.some.inj h).symm⟩
  · rw [if_neg hport] at h
    cases hensure : ensureConfigLocked env call (trimSpace call.listenPort) with
    | error err =>
      rw [hensure] at h
      refine .inl ⟨fun hconf => ?_, err, (Option.some.inj h).symm⟩
      rw [hconf.2] at hensure
      cases hensure
    | ok u =>
      rw [hensure] at h
      exact .inr ⟨⟨hport, hensure⟩, h⟩

theorem stopLocked_procs (removed : Bool) (s : State) (pid : Nat) :
    (stopLocked removed s).procs pid =
      if s.readPIDLocked = pid ∧ pid ≠ 0 then none else s.procs pid := by
  unfold stopLocked
  simp only
  by_cases hnone : s.readPIDLocked = 0
  · rw [if_pos hnone, if_neg]
    rintro ⟨heq, hpid⟩
    exact hpid (heq.symm.trans hnone)
  · rw [if_neg hnone]
    by_cases hpid : s.readPIDLocked = pid
    · subst hpid
      rw [if_pos ⟨rfl, hnone⟩]
      exact Function.update_self ..
    · rw [if_neg fun h => hpid h.1]
      exact Function.update_of_ne (Ne.symm hpid) _ _

/-- A spawn that is answered: it fails, or the pid was free and is that of a child now. -/
theorem spawnChild_cases {call : StartCall} (h : spawnChild call s = some t) :
    (∃ err, call.spawned = .error err ∧ t.procs = s.procs ∧ t.pidFile = s.pidFile ∧
        t.kills = s.kills ∧ t.waiting = s.waiting) ∨
      ∃ new, call.spawned = .ok new ∧ 0 < new ∧ new ≤ maxInt ∧ s.procs new = none ∧
        t.procs = Function.update s.procs new (some .child) ∧
        t.pidFile = writePID new s.pidFile call.pidWrite ∧ t.kills = s.kills := by
  unfold spawnChild at h
  cases hspawned : call.spawned with
  | error err =>
    rw [hspawned] at h
    cases h
    exact .inl ⟨err, rfl, rfl, rfl, rfl, rfl⟩
  | ok new =>
    rw [hspawned] at h
    simp only at h
    split at h
    · rename_i hfree
      cases h
      exact .inr ⟨new, rfl, hfree.1, hfree.2.1, hfree.2.2, rfl, rfl, rfl⟩
    · cases h

theorem startLocked_child_iff {call : StartCall} (h : startLocked env call s = some t)
    (pid : Nat) : t.procs pid = some .child ↔ Left env call s pid := by
  rcases startLocked_cases h with ⟨hconf, err, rfl⟩ | ⟨hconf, hspawn⟩
  · simp [Left, hconf]
  · have hstopped := stopLocked_procs call.removed s pid
    rcases spawnChild_cases hspawn with
      ⟨err, hspawned, hprocs, -⟩ | ⟨new, hspawned, -, -, -, hprocs, -⟩
    · rw [hprocs, hstopped]
      simp only [Left, hconf, hspawned, true_and, reduceCtorEq, or_false]
      split <;> simp_all
    · rw [hprocs]
      simp only [Left, hconf, hspawned, true_and, Except.ok.injEq]
      by_cases hpid : pid = new
      · subst hpid
        simp
      · rw [Function.update_of_ne hpid, hstopped, or_iff_left (Ne.symm hpid)]
        split <;> simp_all

/-! ## Whom a stop kills -/

/-- The pid file names a live process of another program. -/
def NamesOther (s : State) : Prop :=
  s.readPIDLocked ≠ 0 ∧ s.procs s.readPIDLocked = some .other

/-- What is killed is alive; it is a process of the manager unless the pid file names another
one. -/
theorem killed_own_iff (s : State) :
    (∀ k ∈ killed s, s.procs k.1 = some k.2 ∧ k.2 = .child) ↔ ¬ NamesOther s := by
  unfold killed NamesOther
  by_cases hnone : s.readPIDLocked = 0
  · simp [hnone]
  · cases hproc : s.procs s.readPIDLocked with
    | none => simp [hnone]
    | some owner => cases owner <;> simp [hnone, hproc]

theorem stopLocked_kills (removed : Bool) (s : State) :
    (stopLocked removed s).kills = s.kills ++ killed s := by
  unfold stopLocked killed
  simp only
  split <;> simp

/-- Only processes of the manager were killed, and the next stop kills no other one. -/
structure OwnOnly (s : State) : Prop where
  names : ¬ NamesOther s
  kills : ∀ k ∈ s.kills, k.2 = .child

/-- A step that leaves the pid file and the kills alone. -/
theorem OwnOnly.of_procs (h : OwnOnly s) (hfile : t.pidFile = s.pidFile)
    (hkills : t.kills = s.kills)
    (hother : t.procs s.readPIDLocked = some .other → s.procs s.readPIDLocked = some .other) :
    OwnOnly t where
  names := by
    rintro ⟨hnamed, hnames⟩
    have hsame : t.readPIDLocked = s.readPIDLocked := congrArg readPID hfile
    rw [hsame] at hnamed hnames
    exact h.names ⟨hnamed, hother hnames⟩
  kills := by
    rw [hkills]
    exact h.kills

theorem not_namesOther_of_no_file (h : t.pidFile = none) : ¬ NamesOther t := by
  rintro ⟨hnamed, -⟩
  apply hnamed
  rw [Host.readPIDLocked, h]
  rfl

/-- No process and no kill is different, and the pid file is at most gone. -/
structure Reads (s t : State) : Prop where
  procs : t.procs = s.procs
  kills : t.kills = s.kills
  pidFile : t.pidFile = s.pidFile ∨ t.pidFile = none

theorem OwnOnly.reads (h : OwnOnly s) (hreads : Reads s t) : OwnOnly t := by
  rcases hreads.pidFile with hfile | hfile
  · exact h.of_procs hfile hreads.kills (by rw [hreads.procs]; exact id)
  · exact ⟨not_namesOther_of_no_file hfile, by rw [hreads.kills]; exact h.kills⟩

theorem readPID_toString {pid : Nat} (hpos : 0 < pid) (hmax : pid ≤ maxInt) :
    readPID (some (toString pid)) = pid := by
  have hplain : ∀ c ∈ (toString pid).toList, isSpace c = false :=
    fun c hc => (isDigit_plain (Net.toList_toString_digits hc)).1
  have hread : atoi (trimSpace (toString pid)) = some (pid : Int) := by
    rw [trimSpace_eq_self _ hplain, atoi_toString hmax]
  simp only [readPID, hread]
  rw [if_neg (by omega), Int.toNat_natCast]

theorem OwnOnly.stopLocked (h : OwnOnly s) (removed : Bool) : OwnOnly (stopLocked removed s) where
  names := by
    rintro ⟨hnamed, hother⟩
    have hfile : (Tun.stopLocked removed s).pidFile = removePidFile removed s.pidFile := by
      unfold Tun.stopLocked
      simp only
      split <;> rfl
    cases removed with
    | true => exact not_namesOther_of_no_file hfile ⟨hnamed, hother⟩
    | false =>
      -- the file stays, but the process that it names is gone
      have hsame : (Tun.stopLocked false s).readPIDLocked = s.readPIDLocked :=
        congrArg readPID hfile
      rw [hsame] at hnamed hother
      rw [stopLocked_procs, if_pos ⟨rfl, hnamed⟩] at hother
      cases hother
  kills := by
    rw [stopLocked_kills]
    intro k hk
    rcases List.mem_append.mp hk with hk | hk
    · exact h.kills k hk
    · exact ((killed_own_iff s).mpr h.names k hk).2

/-- The pid file names the new process, the one it named before, or none. -/
theorem OwnOnly.spawnChild {call : StartCall} (h : OwnOnly s)
    (hspawn : spawnChild call s = some t) : OwnOnly t := by
  rcases spawnChild_cases hspawn with
    ⟨err, -, hprocs, hfile, hkills, -⟩ | ⟨new, -, hpos, hmax, -, hprocs, hfile, hkills⟩
  · exact h.of_procs hfile hkills (by rw [hprocs]; exact id)
  · have hother : ∀ pid, t.procs pid = some .other → s.procs pid = some .other := by
      intro pid hpid
      rw [hprocs] at hpid
      by_cases heq : pid = new
      · subst heq
        simp at hpid
      · rwa [Function.update_of_ne heq] at hpid
    cases hwrite : call.pidWrite with
    | whole =>
      rw [hwrite, writePID] at hfile
      refine ⟨?_, by rw [hkills]; exact h.kills⟩
      rintro ⟨-, hnames⟩
      rw [Host.readPIDLocked, hfile, readPID_toString hpos hmax, hprocs,
        Function.update_self] at hnames
      cases hnames
    | notOpened =>
      rw [hwrite] at hfile
      exact h.of_procs hfile hkills (hother _)
    | truncated =>
      rw [hwrite, writePID] at hfile
      refine ⟨?_, by rw [hkills]; exact h.kills⟩
      rintro ⟨hnamed, -⟩
      rw [Host.readPIDLocked, hfile] at hnamed
      exact hnamed (by decide)

theorem OwnOnly.startLocked {call : StartCall} (h : OwnOnly s)
    (hstart : startLocked env call s = some t) : OwnOnly t := by
  rcases startLocked_cases hstart with ⟨-, err, rfl⟩ | ⟨-, hspawn⟩
  · exact ⟨h.names, h.kills⟩
  · exact (h.stopLocked call.removed).spawnChild hspawn

end

/-! ## Calls and events -/

section

variable [CaseTables] (env : Setup)

/-- The channels of a `Start` after a line of its process: each of them takes one message. -/
def checkLine (text : String) (w : Waiting) : Checked Waiting :=
  if isReadyMihomoLine text then .ok { w with readyChan := true }
  else
    match fatalMihomoLine text with
    | .error fault => .error fault
    | .ok fatal =>
      if fatal ≠ "" then .ok { w with fatalChan := some (w.fatalChan.getD fatal) } else .ok w

/-- A round of `pipeDrain`. The lines of earlier processes are checked too, for channels that
nobody reads; a check that faults ends the program. -/
def drainLine (own : Bool) (text : String) (s : State) : Option State :=
  if '\n' ∈ text.toList then none
  else
    let s := { s with logBuffer := write env.grow s.logBuffer (text.toList ++ [lf]) }
    let w := s.waiting.getD { child := 0, readyChan := false, fatalChan := none }
    match checkLine text w with
    | .error _ => none
    | .ok w => some (if own && s.waiting.isSome then { s with waiting := some w } else s)

/-- The end of `Start`: nothing is undone. -/
def selectReturn (choice : Choice) (s : State) : Option State :=
  match s.waiting with
  | none => none
  | some w =>
    match choice with
    | .ready =>
      if w.readyChan then some { s with waiting := none, returned := some (.ok ()) } else none
    | .fatal =>
      w.fatalChan.map fun msg =>
        { s with waiting := none, returned := some (.error (env.errorf msg)) }
    | .timeout removed =>
      match runningStateLocked removed s.toHost with
      | .error _ => none
      | .ok ((_, message), h) =>
        let err :=
          if trimSpace message ≠ "" then env.errorf message
          else "external mihomo TUN did not enter running state within 12s"
        some { s with toHost := h, waiting := none, returned := some (.error err) }

/-- The first part of `RestartIfRunning`; the mutex is free again before `Start` is called. -/
def restartCheck (removed : Bool) (s : State) : Option State :=
  match statusMessageLocked removed s.toHost with
  | .error _ => none
  | .ok ((_, pid), h) =>
    some { s with toHost := h, restarting := s.restarting + if 0 < pid then 1 else 0 }

/-- What `Status` leaves; it does not look at the process without the core. -/
def statusCall (removed coreFound : Bool) (s : State) : Option State :=
  if coreFound then
    match runningStateLocked removed s.toHost with
    | .error _ => none
    | .ok (_, h) => some { s with toHost := h }
  else some s

/-- Calls wait for the mutex, which a `Start` keeps until it returns; `none` stands for what is
not possible in the state. -/
def step (s : State) : Event → Option State
  | .start call => if s.waiting = none then startLocked env call s else none
  | .stop removed => if s.waiting = none then some (stopLocked removed s) else none
  | .restart removed => if s.waiting = none then restartCheck removed s else none
  | .restartStart call =>
    if s.waiting = none ∧ 0 < s.restarting then
      startLocked env call { s with restarting := s.restarting - 1 }
    else none
  | .status removed coreFound => if s.waiting = none then statusCall removed coreFound s else none
  | .select choice => selectReturn env choice s
  | .line own text => drainLine env own text s
  | .exit pid =>
    if s.procs pid ≠ none then some { s with procs := Function.update s.procs pid none }
    else none
  | .spawn pid =>
    if FreePID s pid then some { s with procs := Function.update s.procs pid (some .other) }
    else none

theorem step_line (s : State) (own : Bool) (text : String) :
    step env s (.line own text) = drainLine env own text s := by rw [step]

theorem step_select (s : State) (choice : Choice) :
    step env s (.select choice) = selectReturn env choice s := by rw [step]

/-! ## What is only read -/

section

variable {env} {s t : State} {pid : Nat}

theorem statusMessageLocked_host {removed : Bool} {h h' : Host} {r : String × Nat}
    (hstatus : statusMessageLocked removed h = .ok (r, h')) :
    h'.procs = h.procs ∧ (h'.pidFile = h.pidFile ∨ h'.pidFile = none) := by
  unfold statusMessageLocked at hstatus
  simp only at hstatus
  split at hstatus
  · cases hstatus
    exact ⟨rfl, .inl rfl⟩
  · split at hstatus
    · cases hscan : scanMessage (h.recentLogLinesLocked 200).reverse with
      | error fault =>
        rw [hscan] at hstatus
        cases hstatus
      | ok message =>
        rw [hscan] at hstatus
        cases hstatus
        exact ⟨rfl, .inl rfl⟩
    · cases hstatus
      cases removed with
      | false => exact ⟨rfl, .inl rfl⟩
      | true => exact ⟨rfl, .inr rfl⟩

theorem runningStateLocked_host {removed : Bool} {h h' : Host} {r : Bool × String}
    (hrunning : runningStateLocked removed h = .ok (r, h')) :
    h'.procs = h.procs ∧ (h'.pidFile = h.pidFile ∨ h'.pidFile = none) := by
  unfold runningStateLocked at hrunning
  cases hstatus : statusMessageLocked removed h with
  | error fault =>
    rw [hstatus] at hrunning
    cases hrunning
  | ok result =>
    obtain ⟨⟨message, pid⟩, h₁⟩ := result
    have hsame : h' = h₁ := by
      rw [hstatus] at hrunning
      simp only at hrunning
      split at hrunning
      · cases hrunning
        rfl
      · split at hrunning <;>
        · cases hrunning
          rfl
    rw [hsame]
    exact statusMessageLocked_host hstatus

theorem selectReturn_reads {choice : Choice} (h : selectReturn env choice s = some t) :
    Reads s t := by
  unfold selectReturn at h
  cases hwaiting : s.waiting with
  | none =>
    rw [hwaiting] at h
    cases h
  | some w =>
    rw [hwaiting] at h
    cases choice with
    | ready =>
      simp only at h
      split at h
      · cases h
        exact ⟨rfl, rfl, .inl rfl⟩
      · cases h
    | fatal =>
      obtain ⟨msg, -, rfl⟩ := Option.map_eq_some_iff.mp h
      exact ⟨rfl, rfl, .inl rfl⟩
    | timeout removed =>
      cases hrunning : runningStateLocked removed s.toHost with
      | error fault =>
        simp only [hrunning] at h
        cases h
      | ok result =>
        obtain ⟨⟨running, message⟩, h'⟩ := result
        obtain ⟨hprocs, hfile⟩ := runningStateLocked_host hrunning
        simp only [hrunning] at h
        cases h
        exact ⟨hprocs, rfl, hfile⟩

theorem restartCheck_reads {removed : Bool} (h : restartCheck removed s = some t) :
    Reads s t := by
  unfold restartCheck at h
  cases hstatus : statusMessageLocked removed s.toHost with
  | error fault =>
    rw [hstatus] at h
    cases h
  | ok result =>
    obtain ⟨⟨message, pid⟩, h'⟩ := result
    obtain ⟨hprocs, hfile⟩ := statusMessageLocked_host hstatus
    rw [hstatus] at h
    cases h
    exact ⟨hprocs, rfl, hfile⟩

theorem statusCall_reads {removed coreFound : Bool} (h : statusCall removed coreFound s = some t) :
    Reads s t := by
  unfold statusCall at h
  split at h
  · cases hrunning : runningStateLocked removed s.toHost with
    | error fault =>
      rw [hrunning] at h
      cases h
    | ok result =>
      obtain ⟨r, h'⟩ := result
      obtain ⟨hprocs, hfile⟩ := runningStateLocked_host hrunning
      rw [hrunning] at h
      cases h
      exact ⟨hprocs, rfl, hfile⟩
  · cases h
    exact ⟨rfl, rfl, .inl rfl⟩

theorem drainLine_reads {own : Bool} {text : String} (h : drainLine env own text s = some t) :
    Reads s t := by
  unfold drainLine at h
  split at h
  · cases h
  · simp only at h
    split at h
    · cases h
    · cases h
      split <;> exact ⟨rfl, rfl, .inl rfl⟩

/-! ## While a start waits -/

/-- What can happen while a start waits: the processes log, exit and start. -/
def Event.Environment : Event → Prop
  | .line .. | .exit _ | .spawn _ => True
  | _ => False

/-- A process of the manager stays until it exits, and no new one comes. -/
theorem step_environment_child_iff {e : Event} (he : e.Environment) (h : step env s e = some t)
    (pid : Nat) : t.procs pid = some .child ↔ s.procs pid = some .child ∧ e ≠ .exit pid := by
  cases e with
  | line own text =>
    rw [step_line] at h
    rw [(drainLine_reads h).procs]
    simp
  | exit gone =>
    simp only [step] at h
    split at h
    · cases h
      by_cases hpid : pid = gone
      · subst hpid
        simp
      · simp [Function.update_of_ne hpid, Ne.symm hpid]
    · cases h
  | spawn new =>
    simp only [step] at h
    split at h
    · rename_i hfree
      cases h
      by_cases hpid : pid = new
      · -- the pid was free, so it was no child's, and it is another program's now
        subst hpid
        simp [hfree.2.2]
      · simp [Function.update_of_ne hpid]
    · cases h
  | _ => exact he.elim

theorem exec_environment_child_iff {es : List Event} (hes : ∀ e ∈ es, e.Environment)
    (h : exec (step env) s es = some t) (pid : Nat) :
    t.procs pid = some .child ↔ s.procs pid = some .child ∧ .exit pid ∉ es := by
  induction es generalizing s with
  | nil =>
    obtain rfl := Option.some.inj h
    simp
  | cons e es ih =>
    obtain ⟨he, hrest⟩ := List.forall_mem_cons.mp hes
    obtain ⟨u, hstep, hexec⟩ := Option.bind_eq_some_iff.mp h
    rw [ih hrest hexec, step_environment_child_iff he hstep, List.mem_cons, not_or, and_assoc,
      ne_comm]

/-- A call of `Start` from its state before to its return, with what happens meanwhile. -/
inductive StartReturns (env : Setup) (s : State) (call : StartCall) : List Event → State → Prop
  | atOnce {t : State} : step env s (.start call) = some t → t.waiting = none →
      StartReturns env s call [] t
  | selected {es : List Event} (choice : Choice) {t : State} : (∀ e ∈ es, e.Environment) →
      exec (step env) s (.start call :: (es ++ [.select choice])) = some t →
      StartReturns env s call es t

theorem StartReturns.child_iff {call : StartCall} {es : List Event}
    (h : StartReturns env s call es t) (pid : Nat) :
    t.procs pid = some .child ↔ Left env call s pid ∧ .exit pid ∉ es := by
  have hstarted : ∀ u, step env s (.start call) = some u →
      (u.procs pid = some .child ↔ Left env call s pid) := by
    intro u hu
    simp only [step] at hu
    split at hu
    · exact startLocked_child_iff hu pid
    · cases hu
  cases h with
  | atOnce hstep _ => simpa using hstarted t hstep
  | selected choice hes hexec =>
    obtain ⟨u, hstep, hrest⟩ := Option.bind_eq_some_iff.mp hexec
    obtain ⟨v, hwaited, hselect⟩ := exec_concat.mp hrest
    rw [step_select] at hselect
    rw [(selectReturn_reads hselect).procs, exec_environment_child_iff hes hwaited,
      hstarted u hstep]

/-- A start that fails leaves no process of the manager exactly if every one that is there after
the spawn exits by itself before the start returns. -/
theorem start_error_leaves_none_iff (env : Setup) (s : State) (call : StartCall)
    (es : List Event) (t : State) (h : StartReturns env s call es t) :
    (∃ err, t.returned = some (.error err)) →
      (((∀ pid, t.procs pid ≠ some .child) ∧ t.procs t.readPIDLocked ≠ some .child) ↔
        ∀ pid, Left env call s pid → .exit pid ∈ es) := by
  intro _
  constructor
  · rintro ⟨hnone, -⟩ pid hleft
    by_contra hexit
    exact hnone pid ((h.child_iff pid).mpr ⟨hleft, hexit⟩)
  · intro hexits
    have hnone : ∀ pid, t.procs pid ≠ some .child := by
      intro pid hchild
      obtain ⟨hleft, hexit⟩ := (h.child_iff pid).mp hchild
      exact hexit (hexits pid hleft)
    exact ⟨hnone, hnone _⟩

end

end

def plainSetup : Setup := { corePath := "mihomo", errorf := id, grow := fun _ => 0 }

/-- A host without processes of its own. -/
def freshState : State where
  procs _ := none
  pidFile := none
  logBuffer := newRingLogWriter 50
  waiting := none
  restarting := 0
  returned := none
  kills := []

/-- A start that spawns the process 100. -/
def startHundred : StartCall where
  listenPort := "8080"
  mkdir := .ok ()
  coreFound := true
  writeConfig := .ok ()
  removed := true
  spawned := .ok 100
  pidWrite := .whole

/-- A failure that the process logs: the start returns it, and the process stays. -/
theorem start_error_leaves_none_fails :
    ∃ t, StartReturns plainSetup freshState startHundred [.line true "access is denied"] t ∧
      t.returned = some (.error "access is denied") ∧ t.procs 100 = some .child ∧
        t.readPIDLocked = 100 := by
  have hrun : (exec (step plainSetup) freshState
      [.start startHundred, .line true "access is denied", .select .fatal]).map
        (fun t => (t.returned, t.procs 100, t.readPIDLocked)) =
      some (some (.error "access is denied"), some .child, 100) := by
    decide +kernel
  obtain ⟨t, hexec, hfields⟩ := Option.map_eq_some_iff.mp hrun
  obtain ⟨hreturned, hfields⟩ := Prod.mk.inj hfields
  obtain ⟨hchild, hpid⟩ := Prod.mk.inj hfields
  refine ⟨t, .selected .fatal ?_ hexec, hreturned, hchild, hpid⟩
  simp [Event.Environment]

theorem start_error_leaves_none_of_exit :
    ∃ t, StartReturns plainSetup freshState startHundred
        [.line true "access is denied", .exit 100] t ∧
      ∀ pid, t.procs pid ≠ some .child := by
  have hrun : (exec (step plainSetup) freshState
      [.start startHundred, .line true "access is denied", .exit 100, .select .fatal]).map
        (fun t => t.returned) = some (some (.error "access is denied")) := by
    decide +kernel
  obtain ⟨t, hexec, hreturned⟩ := Option.map_eq_some_iff.mp hrun
  have hreturns : StartReturns plainSetup freshState startHundred
      [.line true "access is denied", .exit 100] t := by
    refine .selected .fatal ?_ hexec
    simp [Event.Environment]
  refine ⟨t, hreturns, ((start_error_leaves_none_iff plainSetup freshState startHundred _ t
    hreturns ⟨_, hreturned⟩).mpr fun pid hleft => ?_).1⟩
  rcases hleft with ⟨hchild, -⟩ | ⟨-, hspawned⟩
  · cases hchild
  · cases hspawned
    simp

/-! ## Runs -/

section

variable [CaseTables] {env : Setup} {s t : State}

/-- No other program gets the pid that the file names. -/
def Allowed (s : State) : Event → Prop
  | .spawn pid => s.readPIDLocked ≠ pid
  | _ => True

theorem step_ownOnly {e : Event} (h : OwnOnly s) (hallowed : Allowed s e)
    (hstep : step env s e = some t) : OwnOnly t := by
  cases e with
  | start call =>
    simp only [step] at hstep
    split at hstep
    · exact h.startLocked hstep
    · cases hstep
  | stop removed =>
    simp only [step] at hstep
    split at hstep
    · cases hstep
      exact h.stopLocked removed
    · cases hstep
  | restart removed =>
    simp only [step] at hstep
    split at hstep
    · exact h.reads (restartCheck_reads hstep)
    · cases hstep
  | restartStart call =>
    simp only [step] at hstep
    split at hstep
    · have hsame : OwnOnly { s with restarting := s.restarting - 1 } := ⟨h.names, h.kills⟩
      exact hsame.startLocked hstep
    · cases hstep
  | status removed coreFound =>
    simp only [step] at hstep
    split at hstep
    · exact h.reads (statusCall_reads hstep)
    · cases hstep
  | select choice =>
    rw [step_select] at hstep
    exact h.reads (selectReturn_reads hstep)
  | line own text =>
    rw [step_line] at hstep
    exact h.reads (drainLine_reads hstep)
  | exit pid =>
    simp only [step] at hstep
    split at hstep
    · cases hstep
      refine h.of_procs rfl rfl fun hother => ?_
      by_cases heq : s.readPIDLocked = pid
      · subst heq
        simp at hother
      · simp only at hother
        rwa [Function.update_of_ne heq] at hother
    · cases hstep
  | spawn pid =>
    simp only [step] at hstep
    split at hstep
    · cases hstep
      refine h.of_procs rfl rfl fun hother => ?_
      simp only at hother
      rwa [Function.update_of_ne hallowed] at hother
    · cases hstep

/-- A stop kills only live processes of the manager exactly if the pid file names no live process
of another program; and in every run that begins so, it kills no others as long as no other
program gets the pid that the file names. -/
theorem stop_kills_own (env : Setup) :
    (∀ (removed : Bool) (s : State), (stopLocked removed s).kills = s.kills ++ killed s ∧
      ((∀ k ∈ killed s, s.procs k.1 = some k.2 ∧ k.2 = .child) ↔ ¬ NamesOther s)) ∧
    ∀ (s t : State) (es : List Event), exec (step env) s es = some t → s.kills = [] →
      ¬ NamesOther s → Meets (step env) Allowed s es → ∀ k ∈ t.kills, k.2 = .child := by
  refine ⟨fun removed s => ⟨stopLocked_kills removed s, killed_own_iff s⟩, ?_⟩
  intro s t es hexec hkills hnames hmeets
  have hbegin : OwnOnly s := ⟨hnames, by simp [hkills]⟩
  have hend : OwnOnly t :=
    Meets.invariant (fun _ _ _ h ha hstep => step_ownOnly h ha hstep) hexec hmeets hbegin
  exact hend.kills

end

/-- The process exits, and its pid is given to another program before the stop. -/
theorem stop_kills_own_fails :
    (exec (step plainSetup) freshState
      [.start startHundred, .line true "[TCP] a", .select .ready, .exit 100, .spawn 100,
        .stop true]).map (fun t => t.kills) = some [(100, .other)] := by
  decide +kernel

theorem stop_kills_own_of_running :
    ∃ t, exec (step plainSetup) freshState
        [.start startHundred, .line true "[TCP] a", .select .ready, .stop true] = some t ∧
      t.kills.length = 1 ∧ ∀ k ∈ t.kills, k.2 = .child := by
  have hrun : (exec (step plainSetup) freshState
      [.start startHundred, .line true "[TCP] a", .select .ready, .stop true]).map
        (fun t => t.kills.length) = some 1 := by
    decide +kernel
  obtain ⟨t, hexec, hlength⟩ := Option.map_eq_some_iff.mp hrun
  refine ⟨t, hexec, hlength, (stop_kills_own plainSetup).2 freshState t _ hexec rfl
    (fun h => h.1 rfl) ?_⟩
  intro pre e u hpre _
  have hmem : e ∈ ([.start startHundred, .line true "[TCP] a", .select .ready, .stop true] :
      List Event) := hpre.subset (by simp)
  simp only [List.mem_cons, List.not_mem_nil, or_false] at hmem
  rcases hmem with rfl | rfl | rfl | rfl <;> trivial

end SniShaper.Tun
