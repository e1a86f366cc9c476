import SniShaper.Go.Numbers

/-! Who owns a port, and making one available: `proxy/port_manager_linux.go`.

What the functions read is a value of `Tables`: the lines of `/proc/net/tcp`, the output of
`ss`, the process directories, and whether a port can be listened on and a process be
signalled. The tables may be different at each port that is tried.

* `mem_signalled_iff`: which processes `EnsurePortAvailable` signals. -/

namespace SniShaper.Ports

open Strings Net Numbers

/-- An entry of `/proc`: the links of its `fd` directory, if that can be read. -/
structure ProcEntry where
  name : String
  isDir : Bool := true
  fds : Option (List (Option String)) := none
  deriving DecidableEq, Repr

structure Tables where
  /-- The lines of `/proc/net/tcp`, if it can be opened. -/
  tcp : Option (List String)
  /-- The lines of `ss -tlnp`. -/
  ss : Except String (List String) := .error "exec: ss: executable file not found in $PATH"
  proc : Except String (List ProcEntry) := .ok []
  /-- `/proc/<pid>/comm` -/
  comm : Int → Option String := fun _ => none
  /-- `net.Listen` on the port of 127.0.0.1 succeeds. -/
  listen : Int → Bool
  signal : Int → Except String Unit := fun _ => .ok ()

/-! ## The source's functions -/

/-- The process of an entry, if one of its files is the socket. -/
def socketOwner (targetInode : String) (entry : ProcEntry) : Option Int :=
  if entry.isDir = false then none
  else match atoi entry.name, entry.fds with
    | some pid, some links =>
      if 0 < pid ∧ links.any (fun link =>
          link.any fun target => contains target ("socket:[" ++ targetInode ++ "]")) = true then
        some pid
      else none
    | _, _ => none

def findPIDByInode (t : Tables) (targetInode : String) : Except String Int :=
  match t.proc with
  | .error err => .error err
  | .ok procDirs => .ok ((procDirs.findSome? (socketOwner targetInode)).getD 0)

/-- The owner of the port in a line of `ss`. -/
def ssOwner (portStr line : String) : Option Int :=
  if contains line portStr = false then none
  else match index line "pid=" with
    | none => none
    | some idx =>
      let rest := line.toList.drop (idx + 4)
      match rest.findIdx? fun c => c = ',' ∨ c = ')' with
      | none => none
      | some endIdx => atoi (String.ofList (rest.take endIdx))

def findProcessByPortSS (t : Tables) (port : Int) : Except String Int :=
  match t.ss with
  | .error err => .error err
  | .ok lines => .ok ((lines.findSome? (ssOwner (":" ++ toString port))).getD 0)

def getProcessNameByPID (t : Tables) (pid : Int) : Except String String :=
  match t.comm pid with
  | none => .error ("process not found: " ++ toString pid)
  | some data => .ok (trimSpace data)

def killProcessByPID (t : Tables) (pid : Int) : Except String Unit := t.signal pid

section

variable [CaseTables]

/-- The owner of the port in a line of `/proc/net/tcp`. -/
def tcpOwner (t : Tables) (hexPort line : String) : Option Int :=
  let parts := fields line
  if parts.length < 10 then none
  else match split (parts.getD 1 "") ':' with
    | [_, port] =>
      if equalFold port hexPort then
        match findPIDByInode t (parts.getD 9 "") with
        | .ok pid => if 0 < pid then some pid else none
        | .error _ => none
      else none
    | _ => none

/-- The process that has the port, or 0. -/
def findProcessByPort (t : Tables) (port : Int) : Except String Int :=
  match t.tcp with
  | none => findProcessByPortSS t port
  | some lines => .ok ((lines.findSome? (tcpOwner t (hex04 port))).getD 0)

/-- The process has one of the names; a name that cannot be read is empty. -/
def isSelf (t : Tables) (selfNames : List String) (pid : Int) : Bool :=
  selfNames.any (equalFold ((getProcessNameByPID t pid).toOption.getD ""))

/-- One round of `EnsurePortAvailable`: whether it returns the port, and the processes it
signals. -/
def tryPort (t : Tables) (selfNames : List String) (port : Int) : Bool × List Int :=
  let free := (t.listen port, [])
  match findProcessByPort t port with
  | .error _ => free
  | .ok pid =>
    if pid = 0 then free
    else if isSelf t selfNames pid then ((killProcessByPID t pid).isOk, [pid])
    else (false, [])

/-- The rounds that are left, from the i-th on: the port, if one was found, and the
processes signalled. -/
def tryPorts (tables : Nat → Tables) (selfNames : List String) :
    Nat → Nat → Int → Option Int × List Int
  | 0, _, _ => (none, [])
  | attempts + 1, i, currentPort =>
    let (done, signalled) := tryPort (tables i) selfNames currentPort
    if done then (some currentPort, signalled)
    else
      let (found, later) := tryPorts tables selfNames attempts (i + 1) (currentPort + 1)
      (found, signalled ++ later)

def maxAttempts : Nat := 10

/-- The port or the error, and the processes signalled. -/
def ensurePortAvailable (tables : Nat → Tables) (startPort : Int) (selfNames : List String) :
    Except String Int × List Int :=
  match tryPorts tables selfNames maxAttempts 0 startPort with
  | (some port, signalled) => (.ok port, signalled)
  | (none, signalled) =>
    (.error ("could not find available port after " ++ toString maxAttempts ++ " attempts"),
      signalled)

/-! ## Who is signalled -/

/-- A process is signalled in a round that signals it, unless an earlier round returned. -/
theorem mem_tryPorts_iff (tables : Nat → Tables) (selfNames : List String) (pid : Int)
    (attempts i : Nat) (port : Int) :
    pid ∈ (tryPorts tables selfNames attempts i port).2 ↔
      ∃ k < attempts, pid ∈ (tryPort (tables (i + k)) selfNames (port + k)).2 ∧
        ∀ j < k, (tryPort (tables (i + j)) selfNames (port + j)).1 = false := by
  induction attempts generalizing i port with
  | zero => simp [tryPorts]
  | succ attempts ih =>
    have hshift : ∀ k : Nat, tryPort (tables (i + 1 + k)) selfNames (port + 1 + k) =
        tryPort (tables (i + (k + 1))) selfNames (port + ((k + 1 : Nat) : Int)) := by
      intro k
      rw [show i + 1 + k = i + (k + 1) by omega,
        show port + 1 + (k : Int) = port + ((k + 1 : Nat) : Int) by omega]
    have hfirst : tryPort (tables (i + 0)) selfNames (port + ((0 : Nat) : Int)) =
        tryPort (tables i) selfNames port := by simp
    unfold tryPorts
    simp only
    cases hdone : (tryPort (tables i) selfNames port).1 with
    | true =>
      rw [if_pos rfl]
      constructor
      · intro hmem
        exact ⟨0, by omega, by rwa [hfirst], fun j hj => absurd hj (by omega)⟩
      · rintro ⟨k, -, hmem, hearlier⟩
        -- a later round is not reached
        cases k with
        | zero => rwa [hfirst] at hmem
        | succ k =>
          have hgone := hearlier 0 (by omega)
          rw [hfirst, hdone] at hgone
          cases hgone
    | false =>
      rw [if_neg (by simp), List.mem_append, ih (i + 1) (port + 1)]
      constructor
      · rintro (hmem | ⟨k, hk, hmem, hearlier⟩)
        · exact ⟨0, by omega, by rwa [hfirst], fun j hj => absurd hj (by omega)⟩
        · refine ⟨k + 1, by omega, by rwa [← hshift], fun j hj => ?_⟩
          cases j with
          | zero => rwa [hfirst]
          | succ j =>
            rw [← hshift]
            exact hearlier j (by omega)
      · rintro ⟨k, hk, hmem, hearlier⟩
        cases k with
        | zero =>
          rw [hfirst] at hmem
          exact .inl hmem
        | succ k =>
          refine .inr ⟨k, by omega, by rwa [hshift], fun j hj => ?_⟩
          rw [hshift]
          exact hearlier (j + 1) (by omega)

/-- A process that has one of the names is signalled in every round that finds it as the
owner of the port. -/
theorem mem_tryPort_iff {t : Tables} {selfNames : List String} {pid : Int} (hpid : pid ≠ 0)
    (hself : isSelf t selfNames pid = true) (port : Int) :
    pid ∈ (tryPort t selfNames port).2 ↔ findProcessByPort t port = .ok pid := by
  unfold tryPort
  simp only
  cases findProcessByPort t port with
  | error err => simp
  | ok owner =>
    by_cases howner : owner = 0
    · subst howner
      simp [Ne.symm hpid]
    · by_cases hsame : owner = pid
      · subst hsame
        simp [hpid, hself]
      · have hother : pid ≠ owner := Ne.symm hsame
        simp only [howner, if_false]
        split <;> simp [hsame, hother]

/-- The search ends at the port: it is free and can be listened on, or a process with one
of the names has it and takes the signal. -/
def Ends (t : Tables) (selfNames : List String) (port : Int) : Prop :=
  ((∀ pid, findProcessByPort t port = .ok pid → pid = 0) ∧ t.listen port = true) ∨
    ∃ pid, findProcessByPort t port = .ok pid ∧ pid ≠ 0 ∧ isSelf t selfNames pid = true ∧
      killProcessByPID t pid = .ok ()

theorem tryPort_ends_iff (t : Tables) (selfNames : List String) (port : Int) :
    (tryPort t selfNames port).1 = true ↔ Ends t selfNames port := by
  unfold tryPort Ends
  simp only
  cases findProcessByPort t port with
  | error err => simp
  | ok owner =>
    by_cases howner : owner = 0
    · simp [howner]
    · have hkill : (killProcessByPID t owner).isOk = true ↔ killProcessByPID t owner = .ok () := by
        cases killProcessByPID t owner <;> simp [Except.isOk, Except.toBool]
      cases hself : isSelf t selfNames owner <;> simp [howner, hkill, hself]

theorem mem_signalled_iff (tables : Nat → Tables) (startPort : Int) (selfNames : List String)
    (pid : Int) :
    pid ∈ (ensurePortAvailable tables startPort selfNames).2 ↔
      ∃ k < maxAttempts, pid ∈ (tryPort (tables k) selfNames (startPort + k)).2 ∧
        ∀ j < k, ¬ Ends (tables j) selfNames (startPort + j) := by
  have hloop := mem_tryPorts_iff tables selfNames pid maxAttempts 0 startPort
  simp only [Nat.zero_add] at hloop
  simp only [← tryPort_ends_iff, Bool.not_eq_true]
  rw [← hloop, ensurePortAvailable]
  split
  · rename_i heq
    rw [heq]
  · rename_i heq
    rw [heq]

end

end SniShaper.Ports
