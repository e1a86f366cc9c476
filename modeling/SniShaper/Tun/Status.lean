import SniShaper.Go.Numbers
import SniShaper.Lib.Bounds
import SniShaper.Runtime.RingLog

/-! The state of the external Mihomo process as `external_mihomo.go` reads it: from the pid file,
from the processes of the system and from the last lines that the process has logged.

`statusMessageLocked` takes the newest line that says something, `runningStateLocked` any line
that says the process is ready; `runningStateLocked_follows_iff` says for which lines they
agree. -/

namespace SniShaper.Tun

open Strings Numbers Bounds Lines RingLog LineBreaks

section

variable [CaseTables]

/-! ## Log lines -/

/-- The bytes that a text takes. -/
def utf8Length (cs : List Char) : Nat := cs.foldl (fun n c => n + c.utf8Size) 0

/-- `s[n:]` with a position in bytes. The bytes that are left of a character are read as
U+FFFD each. -/
def dropBytes : List Char → Nat → Checked (List Char)
  | [], n => if n = 0 then .ok [] else .error .outOfRange
  | c :: cs, n =>
    if n = 0 then .ok (c :: cs)
    else if n < c.utf8Size then .ok (List.replicate (c.utf8Size - n) '�' ++ cs)
    else dropBytes cs (n - c.utf8Size)

/-- The message of a line that says the process has failed, blank for any other line. The
position in the lower-cased line is used on the line itself, which can be shorter. -/
def fatalMihomoLine (line : String) : Checked String :=
  let line := trimSpace line
  if line = "" then .ok ""
  else
    let lower := toLower line
    match index lower "start tun listening error:" with
    | some idx =>
      (dropBytes line.toList (utf8Length (lower.toList.take idx))).map fun rest =>
        trimSpace (String.ofList rest)
    | none =>
      if contains lower "access is denied" || contains lower "configure tun interface" ||
          contains lower "failed to start tun" then .ok line
      else .ok ""

def isReadyMihomoLine (line : String) : Bool :=
  let lower := toLower (trimSpace line)
  if lower = "" then false
  else
    contains lower "tun adapter listening at" || contains lower "[tcp]" ||
      contains lower "[udp]" || contains lower "match using proxy[" ||
      contains lower "start initial compatible provider"

theorem fatalMihomoLine_trimSpace (line : String) :
    fatalMihomoLine (trimSpace line) = fatalMihomoLine line := by
  unfold fatalMihomoLine
  rw [trimSpace_trimSpace]

theorem isReadyMihomoLine_trimSpace (line : String) :
    isReadyMihomoLine (trimSpace line) = isReadyMihomoLine line := by
  unfold isReadyMihomoLine
  rw [trimSpace_trimSpace]

/-! ## The host -/

/-- Who has started a process. -/
inductive Owner
  | child
  | other
  deriving DecidableEq, Repr

/-- The processes of the system, and what the manager has of its own one. -/
structure Host where
  procs : Nat → Option Owner
  pidFile : Option String
  logBuffer : RingLogWriter Char

/-- The process in the pid file, with 0 for none. -/
def readPID (pidFile : Option String) : Nat :=
  match pidFile with
  | none => 0
  | some data =>
    match atoi (trimSpace data) with
    | none => 0
    | some pid => if pid ≤ 0 then 0 else pid.toNat

def Host.readPIDLocked (h : Host) : Nat := readPID h.pidFile

def Host.processRunning (h : Host) (pid : Nat) : Bool := pid ≠ 0 && (h.procs pid).isSome

def Host.recentLogLinesLocked (h : Host) (limit : Int) : List String :=
  (snapshot h.logBuffer limit).map String.ofList

def runningMessage : String := "External Mihomo TUN is running"

def startingMessage : String := "External Mihomo process is starting"

/-- The loop of `statusMessageLocked`, over the newest line first. -/
def scanMessage : List String → Checked String
  | [] => .ok startingMessage
  | line :: older =>
    let line := trimSpace line
    match fatalMihomoLine line with
    | .error fault => .error fault
    | .ok fatal =>
      if fatal ≠ "" then .ok fatal
      else if isReadyMihomoLine line then .ok runningMessage
      else scanMessage older

/-- `removed` says whether the pid file of a process that is gone can be removed. -/
def statusMessageLocked (removed : Bool) (h : Host) : Checked ((String × Nat) × Host) :=
  let pid := h.readPIDLocked
  if pid = 0 then .ok (("External Mihomo TUN is configured but not running", 0), h)
  else if h.processRunning pid then
    (scanMessage (h.recentLogLinesLocked 200).reverse).map fun message => ((message, pid), h)
  else
    .ok (("External Mihomo process is not running", 0),
      if removed then { h with pidFile := none } else h)

def runningStateLocked (removed : Bool) (h : Host) : Checked ((Bool × String) × Host) :=
  match statusMessageLocked removed h with
  | .error fault => .error fault
  | .ok ((message, pid), h) =>
    if pid = 0 then .ok ((false, message), h)
    else if (h.recentLogLinesLocked 200).any isReadyMihomoLine then
      .ok ((true, runningMessage), h)
    else .ok ((false, message), h)

/-! ## The newest line that says something -/

/-- What a line says of the process; a failure comes first. -/
inductive Verdict
  | fatal (message : String)
  | ready
  deriving DecidableEq, Repr

def verdict (line : String) : Option Verdict :=
  match fatalMihomoLine line with
  | .error _ => none
  | .ok fatal =>
    if fatal ≠ "" then some (.fatal fatal)
    else if isReadyMihomoLine line then some .ready
    else none

def lastVerdict (lines : List String) : Option Verdict := lines.reverse.findSome? verdict

def verdictMessage : Option Verdict → String
  | none => startingMessage
  | some (.fatal message) => message
  | some .ready => runningMessage

/-- The line says nothing. -/
def Neutral (line : String) : Prop := fatalMihomoLine line = .ok "" ∧ isReadyMihomoLine line = false

/-- The line can be read, and if it says that the process has failed, no line up to it says that
the process is ready. -/
def Settles (pre : List String) (line : String) : Prop :=
  ∃ fatal, fatalMihomoLine line = .ok fatal ∧
    (fatal ≠ "" → ∀ l ∈ pre ++ [line], isReadyMihomoLine l = false)

/-- The newest line that is not neutral settles the state. -/
def NewestSettles (lines : List String) : Prop :=
  ∀ pre line post, lines = pre ++ line :: post → (∀ l ∈ post, Neutral l) → Settles pre line

/-- The two scans of the lines agree on the newest line that says something. -/
def ScansAgree (lines : List String) : Prop :=
  scanMessage lines.reverse = .ok (verdictMessage (lastVerdict lines)) ∧
    (lines.any isReadyMihomoLine = true ↔ lastVerdict lines = some .ready)

section

variable {lines : List String} {line : String}

theorem scanMessage_cons (line : String) (older : List String) :
    scanMessage (line :: older) =
      match fatalMihomoLine line with
      | .error fault => .error fault
      | .ok fatal =>
        if fatal ≠ "" then .ok fatal
        else if isReadyMihomoLine line then .ok runningMessage
        else scanMessage older := by
  rw [scanMessage, fatalMihomoLine_trimSpace, isReadyMihomoLine_trimSpace]

theorem lastVerdict_concat (lines : List String) (line : String) :
    lastVerdict (lines ++ [line]) = (verdict line).or (lastVerdict lines) := by
  rw [lastVerdict, List.reverse_append, List.reverse_singleton, List.singleton_append,
    List.findSome?_cons]
  cases verdict line <;> rfl

/-- Where the newest line is not neutral, only it has to settle the state. -/
theorem newestSettles_concat_iff (hline : ¬ Neutral line) :
    NewestSettles (lines ++ [line]) ↔ Settles lines line := by
  constructor
  · intro h
    exact h lines line [] rfl (by simp)
  · intro h pre l post heq hpost
    rcases List.eq_nil_or_concat post with rfl | ⟨post, x, rfl⟩
    · obtain ⟨rfl, hl⟩ := List.append_inj' heq rfl
      obtain rfl := List.singleton_inj.mp hl
      exact h
    · rw [List.concat_eq_append, ← List.cons_append, ← List.append_assoc] at heq
      obtain ⟨-, hl⟩ := List.append_inj' heq rfl
      obtain rfl := List.singleton_inj.mp hl
      exact absurd (hpost line (by simp)) hline

theorem newestSettles_concat_neutral_iff (hline : Neutral line) :
    NewestSettles (lines ++ [line]) ↔ NewestSettles lines := by
  constructor
  · intro h pre l post heq hpost
    refine h pre l (post ++ [line]) (by rw [heq, List.append_assoc, List.cons_append]) ?_
    intro x hx
    rcases List.mem_append.mp hx with hx | hx
    · exact hpost x hx
    · rw [List.mem_singleton.mp hx]
      exact hline
  · intro h pre l post heq hpost
    rcases List.eq_nil_or_concat post with rfl | ⟨post, x, rfl⟩
    · obtain ⟨rfl, hl⟩ := List.append_inj' heq rfl
      obtain rfl := List.singleton_inj.mp hl
      exact ⟨"", hline.1, fun hne => absurd rfl hne⟩
    · rw [List.concat_eq_append] at heq hpost
      rw [← List.cons_append, ← List.append_assoc] at heq
      obtain ⟨rfl, -⟩ := List.append_inj' heq rfl
      exact h pre l post rfl fun y hy => hpost y (List.mem_append_left _ hy)

theorem scansAgree_concat (lines : List String) (line : String) :
    ScansAgree (lines ++ [line]) ↔
      scanMessage (line :: lines.reverse) =
          .ok (verdictMessage ((verdict line).or (lastVerdict lines))) ∧
        ((lines.any isReadyMihomoLine || isReadyMihomoLine line) = true ↔
          (verdict line).or (lastVerdict lines) = some .ready) := by
  rw [ScansAgree, lastVerdict_concat, List.reverse_append, List.reverse_singleton,
    List.singleton_append, List.any_append, List.any_cons, List.any_nil, Bool.or_false]

/-- A failure has to be the only thing that was said. -/
theorem scansAgree_of_fatal {fatal : String} (hfatal : fatalMihomoLine line = .ok fatal)
    (hne : fatal ≠ "") : ScansAgree (lines ++ [line]) ↔ Settles lines line := by
  have hverdict : verdict line = some (.fatal fatal) := by simp [verdict, hfatal, hne]
  have hscan : scanMessage (line :: lines.reverse) = .ok fatal := by
    simp [scanMessage_cons, hfatal, hne]
  have hquiet : Settles lines line ↔ ∀ l ∈ lines ++ [line], isReadyMihomoLine l = false := by
    constructor
    · rintro ⟨found, hfound, hready⟩
      rw [hfatal] at hfound
      obtain rfl := Except.ok.inj hfound
      exact hready hne
    · intro h
      exact ⟨fatal, hfatal, fun _ => h⟩
  rw [scansAgree_concat, hscan, hverdict, hquiet]
  simp [verdictMessage, or_imp, forall_and]

theorem scansAgree_of_ready (hfatal : fatalMihomoLine line = .ok "")
    (hready : isReadyMihomoLine line = true) : ScansAgree (lines ++ [line]) := by
  have hverdict : verdict line = some .ready := by simp [verdict, hfatal, hready]
  rw [scansAgree_concat, scanMessage_cons, hfatal, hverdict]
  simp [hready, verdictMessage]

theorem scansAgree_of_neutral (hline : Neutral line) :
    ScansAgree (lines ++ [line]) ↔ ScansAgree lines := by
  obtain ⟨hfatal, hready⟩ := hline
  have hverdict : verdict line = none := by simp [verdict, hfatal, hready]
  rw [scansAgree_concat, scanMessage_cons, hfatal, hverdict, ScansAgree]
  simp [hready]

/-- By the newest line: it cannot be read, it is fatal, it is ready, or it is neutral. -/
theorem scansAgree_iff (lines : List String) : ScansAgree lines ↔ NewestSettles lines := by
  induction lines using List.reverseRecOn with
  | nil =>
    refine ⟨fun _ pre line post heq => ?_, fun _ => ⟨rfl, by simp [lastVerdict]⟩⟩
    simp at heq
  | append_singleton lines line ih =>
    cases hfatal : fatalMihomoLine line with
    | error fault =>
      have hspeaks : ¬ Neutral line := by simp [Neutral, hfatal]
      rw [newestSettles_concat_iff hspeaks, scansAgree_concat, scanMessage_cons, hfatal]
      constructor
      · rintro ⟨hscan, -⟩
        cases hscan
      · rintro ⟨found, hfound, -⟩
        rw [hfatal] at hfound
        cases hfound
    | ok fatal =>
      by_cases hne : fatal = ""
      · subst hne
        cases hready : isReadyMihomoLine line with
        | true =>
          have hspeaks : ¬ Neutral line := by simp [Neutral, hready]
          rw [newestSettles_concat_iff hspeaks]
          exact ⟨fun _ => ⟨"", hfatal, fun h => absurd rfl h⟩,
            fun _ => scansAgree_of_ready hfatal hready⟩
        | false =>
          rw [scansAgree_of_neutral ⟨hfatal, hready⟩, ih,
            newestSettles_concat_neutral_iff ⟨hfatal, hready⟩]
      · have hspeaks : ¬ Neutral line := fun h => hne (by simpa [hfatal] using h.1)
        rw [newestSettles_concat_iff hspeaks, scansAgree_of_fatal hfatal hne]

end

/-! ## The lines of the process -/

/-- The buffer after the process has logged these lines (`pipeDrain`). -/
def drain (grow : Nat → Nat) (w : RingLogWriter Char) (lines : List String) : RingLogWriter Char :=
  writes grow w ((lines.map String.toList).map (· ++ [lf]))

/-- The newest of the lines that are not empty, without carriage returns at their ends. -/
def recent (max : Nat) (lines : List String) : List String :=
  ((((lines.map String.toList).map withoutCR).filter (· ≠ [])).rtake max).map String.ofList

omit [CaseTables] in
theorem recentLogLinesLocked_drain {grow : Nat → Nat} {w : RingLogWriter Char} (hw : Empty w)
    (hmax : w.max = 50) {lines : List String} (hlines : ∀ line ∈ lines, '\n' ∉ line.toList)
    {h : Host} (hlog : h.logBuffer = drain grow w lines) :
    h.recentLogLinesLocked 200 = recent 50 lines := by
  have hends : ∀ line ∈ lines.map String.toList, lf ∉ line := by
    intro cs hcs
    obtain ⟨line, hline, rfl⟩ := List.mem_map.mp hcs
    exact hlines line hline
  obtain ⟨hpending, helems⟩ := writes_of_lines grow hw.pending hends
  rw [← drain] at hpending helems
  have hsize : (drain grow w lines).max ≤ (200 : Int).toNat := by
    rw [drain, writes_max, hmax]
    decide
  rw [Host.recentLogLinesLocked, hlog, snapshot_all hpending hsize, helems, hw.lines, hmax,
    List.nil_append, recent]

/-- The state of a live process is what the newest of the lines says that says something. -/
def Follows (removed : Bool) (h : Host) (lines : List String) : Prop :=
  ∃ running message, runningStateLocked removed h = .ok ((running, message), h) ∧
    (running = true ↔ lastVerdict lines = some .ready) ∧
    statusMessageLocked removed h =
      .ok ((verdictMessage (lastVerdict lines), h.readPIDLocked), h)

theorem follows_iff_scansAgree (removed : Bool) {h : Host} (hpid : h.readPIDLocked ≠ 0)
    (hlive : h.processRunning h.readPIDLocked = true) :
    Follows removed h (h.recentLogLinesLocked 200) ↔ ScansAgree (h.recentLogLinesLocked 200) := by
  have hstatus : statusMessageLocked removed h =
      (scanMessage (h.recentLogLinesLocked 200).reverse).map
        fun message => ((message, h.readPIDLocked), h) := by
    rw [statusMessageLocked]
    simp only [hpid, hlive, if_false, if_true]
  generalize hlines : h.recentLogLinesLocked 200 = lines at hstatus
  rw [Follows, runningStateLocked, ScansAgree, hstatus]
  cases scanMessage lines.reverse with
  | error fault =>
    constructor
    · rintro ⟨running, message, hrun, -⟩
      cases hrun
    · rintro ⟨hscan, -⟩
      cases hscan
  | ok message =>
    have hrun : (if h.readPIDLocked = 0 then Except.ok ((false, message), h)
        else if (h.recentLogLinesLocked 200).any isReadyMihomoLine then
          .ok ((true, runningMessage), h)
        else .ok ((false, message), h) : Checked ((Bool × String) × Host)) =
          .ok ((lines.any isReadyMihomoLine,
            if lines.any isReadyMihomoLine then runningMessage else message), h) := by
      rw [if_neg hpid, hlines]
      cases lines.any isReadyMihomoLine <;> rfl
    simp only [Except.map, hrun, Except.ok.injEq, Prod.mk.injEq, and_true]
    constructor
    · rintro ⟨running, shown, ⟨rfl, rfl⟩, hready, hmessage⟩
      exact ⟨hmessage, hready⟩
    · rintro ⟨hmessage, hready⟩
      exact ⟨_, _, ⟨rfl, rfl⟩, hready, hmessage⟩

/-- The state of a live process follows its log exactly if the newest line that says something
can be read, and is no failure after or in a line that says the process is ready. -/
theorem runningStateLocked_follows_iff (grow : Nat → Nat) (w : RingLogWriter Char) (hw : Empty w)
    (hmax : w.max = 50) (lines : List String) (hlines : ∀ line ∈ lines, '\n' ∉ line.toList)
    (removed : Bool) (h : Host) (hlog : h.logBuffer = drain grow w lines)
    (hpid : h.readPIDLocked ≠ 0) (hlive : h.processRunning h.readPIDLocked = true) :
    Follows removed h (recent 50 lines) ↔ NewestSettles (recent 50 lines) := by
  rw [← recentLogLinesLocked_drain hw hmax hlines hlog, follows_iff_scansAgree removed hpid hlive,
    scansAgree_iff]

end

/-- A host with the process 100, which has logged these lines. -/
def loggedHost (lines : List String) : Host where
  procs pid := if pid = 100 then some .child else none
  pidFile := some "100"
  logBuffer := drain (fun _ => 0) (newRingLogWriter 50) lines

/-- A failure after the process was ready: it is still said to run. -/
theorem runningStateLocked_follows_fails :
    (runningStateLocked true (loggedHost ["[TCP] a", "access is denied"])).map Prod.fst =
        .ok (true, runningMessage) ∧
      (statusMessageLocked true (loggedHost ["[TCP] a", "access is denied"])).map Prod.fst =
        .ok ("access is denied", 100) ∧
      lastVerdict (recent 50 ["[TCP] a", "access is denied"]) =
        some (.fatal "access is denied") := by
  decide +kernel

theorem runningStateLocked_follows_ready :
    Follows true (loggedHost ["access is denied", "[TCP] a"])
      (recent 50 ["access is denied", "[TCP] a"]) := by
  refine (runningStateLocked_follows_iff (fun _ => 0) (newRingLogWriter 50) (Empty.new 50) rfl
    ["access is denied", "[TCP] a"] (by decide +kernel) true
    (loggedHost ["access is denied", "[TCP] a"]) rfl (by decide +kernel) (by decide +kernel)).mpr ?_
  have hrecent : recent 50 ["access is denied", "[TCP] a"] =
      ["access is denied"] ++ ["[TCP] a"] := by
    decide +kernel
  have hspeaks : ¬ Neutral "[TCP] a" := fun h => absurd h.2 (by decide +kernel)
  rw [hrecent, newestSettles_concat_iff hspeaks]
  exact ⟨"", by decide +kernel, fun h => absurd rfl h⟩

end SniShaper.Tun
