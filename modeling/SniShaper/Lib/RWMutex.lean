import Mathlib.Data.List.GetD
import Mathlib.Logic.Function.Basic
import Mathlib.Logic.Relation

/-! Threads on one writer-preferring read-write lock, as Go's `sync.RWMutex`.

A writer first announces itself, which only one can do at a time, and then waits until
no read lock is held. A reader that comes while a writer is announced is parked; the
writer's unlock hands the lock to every parked reader. Read locks are counted for each
thread but are not reentrant: a thread that holds one is parked like any other.

A thread can start two others and wait for both (`fork`; for more of them, `forkAll`), or
start one and go on (`go`).

* `move_of_advance`: the moves a thread can make;
* `Wf.step`: every move keeps the state well-formed, if the programs are. -/

namespace SniShaper.RWMutex

/-- What a thread still does. -/
inductive Prog where
  | done
  | rlock (k : Prog)
  | runlock (k : Prog)
  | lock (k : Prog)
  | acquire (k : Prog)
  | unlock (k : Prog)
  | fork (a b k : Prog)
  | go (a k : Prog)
  deriving DecidableEq, Repr

/-- Start all the given threads and wait for them: after the first, for the wait for the
others. -/
def Prog.forkAll : List Prog → Prog → Prog
  | [], k => k
  | a :: as, k => .fork a (forkAll as .done) k

inductive Status where
  | running
  | parked
  | waiting (i j : Nat)
  deriving DecidableEq, Repr

/-- A thread: its program, the read locks it holds, and what it waits for. -/
structure Thread where
  prog : Prog
  held : Nat := 0
  status : Status := .running
  deriving DecidableEq, Repr

def idle : Thread := { prog := .done }

def Thread.Finished (t : Thread) : Prop := t.prog = .done ∧ t.status = .running

instance (t : Thread) : Decidable t.Finished := inferInstanceAs (Decidable (_ ∧ _))

/-- The threads, how many there are, and the writer that has announced itself. -/
structure State where
  count : Nat
  thread : Nat → Thread
  writer : Option Nat

/-- Threads that start with the given programs. -/
def start (progs : List Prog) : State where
  count := progs.length
  thread i := { prog := progs.getD i .done }
  writer := none

def State.set (s : State) (i : Nat) (t : Thread) : State :=
  { s with thread := Function.update s.thread i t }

/-- A new thread. -/
def State.spawn (s : State) (a : Prog) : State :=
  { s with count := s.count + 1, thread := Function.update s.thread s.count { prog := a } }

/-- A parked reader gets its lock. -/
def grant (t : Thread) : Thread :=
  if t.status = .parked then { t with status := .running, held := t.held + 1 } else t

/-- One step of thread `i`, if it is not blocked. -/
def advance (s : State) (i : Nat) : Option State :=
  let t := s.thread i
  match t.status with
  | .parked => none
  | .waiting a b =>
    if (s.thread a).Finished ∧ (s.thread b).Finished then
      some (s.set i { t with status := .running })
    else none
  | .running =>
    match t.prog with
    | .done => none
    | .rlock k =>
      if s.writer = none then some (s.set i { t with prog := k, held := t.held + 1 })
      else some (s.set i { t with prog := k, status := .parked })
    | .runlock k => some (s.set i { t with prog := k, held := t.held - 1 })
    | .lock k =>
      if s.writer = none then some { s.set i { t with prog := k } with writer := some i } else none
    | .acquire k =>
      if ∀ j < s.count, (s.thread j).held = 0 then some (s.set i { t with prog := k }) else none
    | .unlock k =>
      let s := s.set i { t with prog := k }
      some { s with thread := fun j => grant (s.thread j), writer := none }
    | .fork a b k =>
      some (((s.spawn a).spawn b).set i
        { t with prog := k, status := .waiting s.count (s.count + 1) })
    | .go a k => some ((s.spawn a).set i { t with prog := k })

/-- Some thread takes a step. -/
def Next (s s' : State) : Prop := ∃ i, advance s i = some s'

def Reaches : State → State → Prop := Relation.ReflTransGen Next

/-- The state after the threads were scheduled in the given order; a blocked one waits. -/
def runs (s : State) (schedule : List Nat) : State :=
  schedule.foldl (fun s i => (advance s i).getD s) s

theorem reaches_runs (s : State) (schedule : List Nat) : Reaches s (runs s schedule) := by
  induction schedule generalizing s with
  | nil => exact .refl
  | cons i schedule ih =>
    cases h : advance s i with
    | none => simpa [runs, h] using ih s
    | some s' =>
      have := ih s'
      simp only [runs, List.foldl_cons, h, Option.getD_some] at this ⊢
      exact .head ⟨i, h⟩ this

/-- A thread that has not finished and never moves again. -/
def WaitsForever (s : State) (i : Nat) : Prop :=
  ¬ (s.thread i).Finished ∧ ∀ s', Reaches s s' → s'.thread i = s.thread i

/-! ## Well-formed programs -/

/-- A program that is run with `h` read locks held gives them all back, and it writes in
sections of their own, without a read lock. -/
def Ok : Nat → Prog → Prop
  | h, .done => h = 0
  | h, .rlock k => Ok (h + 1) k
  | h, .runlock k => 0 < h ∧ Ok (h - 1) k
  | h, .lock (.acquire (.unlock k)) => h = 0 ∧ Ok 0 k
  | _, .lock _ => False
  | _, .acquire _ => False
  | _, .unlock _ => False
  | h, .fork a b k => Ok 0 a ∧ Ok 0 b ∧ Ok h k
  | h, .go a k => Ok 0 a ∧ Ok h k

theorem Ok.forkAll {h : Nat} {as : List Prog} {k : Prog} (has : ∀ a ∈ as, Ok 0 a) (hk : Ok h k) :
    Ok h (.forkAll as k) := by
  induction as generalizing h k with
  | nil => exact hk
  | cons a as ih =>
    exact ⟨has a List.mem_cons_self, ih (fun b hb => has b (List.mem_cons_of_mem _ hb)) rfl, hk⟩

theorem Ok.lock {h : Nat} {k : Prog} (hk : Ok h (.lock k)) :
    h = 0 ∧ ∃ k', k = .acquire (.unlock k') ∧ Ok 0 k' := by
  match k, hk with
  | .acquire (.unlock k'), hk => exact ⟨hk.1, k', rfl, hk.2⟩

/-! ## What a step does -/

/-- The moves of a thread, each with what it needs. -/
inductive Move (s : State) (i : Nat) : State → Prop where
  | wake {a b : Nat} (hs : (s.thread i).status = .waiting a b) (ha : (s.thread a).Finished)
      (hb : (s.thread b).Finished) : Move s i (s.set i { s.thread i with status := .running })
  | read {k : Prog} (hs : (s.thread i).status = .running) (hp : (s.thread i).prog = .rlock k)
      (hw : s.writer = none) :
      Move s i (s.set i { s.thread i with prog := k, held := (s.thread i).held + 1 })
  | park {k : Prog} (hs : (s.thread i).status = .running) (hp : (s.thread i).prog = .rlock k)
      (hw : s.writer ≠ none) : Move s i (s.set i { s.thread i with prog := k, status := .parked })
  | release {k : Prog} (hs : (s.thread i).status = .running) (hp : (s.thread i).prog = .runlock k) :
      Move s i (s.set i { s.thread i with prog := k, held := (s.thread i).held - 1 })
  | announce {k : Prog} (hs : (s.thread i).status = .running) (hp : (s.thread i).prog = .lock k)
      (hw : s.writer = none) :
      Move s i { s.set i { s.thread i with prog := k } with writer := some i }
  | acquire {k : Prog} (hs : (s.thread i).status = .running) (hp : (s.thread i).prog = .acquire k)
      (hfree : ∀ j < s.count, (s.thread j).held = 0) :
      Move s i (s.set i { s.thread i with prog := k })
  | unlock {k : Prog} (hs : (s.thread i).status = .running) (hp : (s.thread i).prog = .unlock k) :
      Move s i { s.set i { s.thread i with prog := k } with
        thread := fun j => grant ((s.set i { s.thread i with prog := k }).thread j)
        writer := none }
  | fork {a b k : Prog} (hs : (s.thread i).status = .running)
      (hp : (s.thread i).prog = .fork a b k) :
      Move s i (((s.spawn a).spawn b).set i
        { s.thread i with prog := k, status := .waiting s.count (s.count + 1) })
  | go {a k : Prog} (hs : (s.thread i).status = .running) (hp : (s.thread i).prog = .go a k) :
      Move s i ((s.spawn a).set i { s.thread i with prog := k })

theorem move_of_advance {s s' : State} {i : Nat} (h : advance s i = some s') : Move s i s' := by
  unfold advance at h
  simp only at h
  split at h
  · cases h
  · split at h
    · rename_i a b hs hf
      cases h
      exact .wake hs hf.1 hf.2
    · cases h
  · rename_i hs
    split at h
    · cases h
    · rename_i k hp
      split at h
      · rename_i hw
        cases h
        exact .read hs hp hw
      · rename_i hw
        cases h
        exact .park hs hp hw
    · rename_i k hp
      cases h
      exact .release hs hp
    · rename_i k hp
      split at h
      · rename_i hw
        cases h
        exact .announce hs hp hw
      · cases h
    · rename_i k hp
      split at h
      · rename_i hfree
        cases h
        exact .acquire hs hp hfree
      · cases h
    · rename_i k hp
      cases h
      exact .unlock hs hp
    · rename_i a b k hp
      cases h
      exact .fork hs hp
    · rename_i a k hp
      cases h
      exact .go hs hp

@[simp] theorem set_thread_self (s : State) (i : Nat) (t : Thread) : (s.set i t).thread i = t := by
  simp [State.set]

theorem set_thread_ne (s : State) {i j : Nat} (t : Thread) (h : j ≠ i) :
    (s.set i t).thread j = s.thread j := by
  simp [State.set, h]

@[simp] theorem set_writer (s : State) (i : Nat) (t : Thread) : (s.set i t).writer = s.writer := rfl

@[simp] theorem set_count (s : State) (i : Nat) (t : Thread) : (s.set i t).count = s.count := rfl

@[simp] theorem spawn_writer (s : State) (a : Prog) : (s.spawn a).writer = s.writer := rfl

@[simp] theorem spawn_count (s : State) (a : Prog) : (s.spawn a).count = s.count + 1 := rfl

@[simp] theorem spawn_thread_new (s : State) (a : Prog) :
    (s.spawn a).thread s.count = { prog := a } := by
  simp [State.spawn]

theorem spawn_thread_old (s : State) (a : Prog) {j : Nat} (h : j ≠ s.count) :
    (s.spawn a).thread j = s.thread j := by
  simp [State.spawn, h]

theorem spawn_spawn_thread_old (s : State) (a b : Prog) {j : Nat} (h : j < s.count) :
    ((s.spawn a).spawn b).thread j = s.thread j := by
  rw [spawn_thread_old _ b (by simp only [spawn_count]; omega), spawn_thread_old s a (by omega)]

/-- The two threads that a fork starts. -/
theorem fork_threads {s : State} {i : Nat} (hi : i < s.count) (a b : Prog) (t : Thread) :
    (((s.spawn a).spawn b).set i t).thread s.count = { prog := a } ∧
      (((s.spawn a).spawn b).set i t).thread (s.count + 1) = { prog := b } := by
  constructor
  · rw [set_thread_ne _ _ (by omega), spawn_thread_old _ b (by simp), spawn_thread_new]
  · rw [set_thread_ne _ _ (by omega), ← spawn_count s a, spawn_thread_new]

theorem grant_prog (t : Thread) : (grant t).prog = t.prog := by
  unfold grant
  split <;> rfl

/-! ## Well-formed states -/

/-- The read lock a parked thread is about to get. -/
def Thread.owed (t : Thread) : Nat := if t.status = .parked then 1 else 0

theorem owed_running {t : Thread} (h : t.status = .running) : t.owed = 0 := by
  simp [Thread.owed, h]

theorem owed_waiting {t : Thread} {a b : Nat} (h : t.status = .waiting a b) : t.owed = 0 := by
  simp [Thread.owed, h]

/-- A read lock that is granted was owed. -/
theorem grant_held_owed (t : Thread) : (grant t).held + (grant t).owed = t.held + t.owed := by
  by_cases h : t.status = .parked
  · simp [grant, Thread.owed, h]
  · simp [grant, h]

/-- What holds of thread `j`, of so many and with the given writer. -/
structure ThreadWf (count : Nat) (writer : Option Nat) (j : Nat) (t : Thread) : Prop where
  ok : writer ≠ some j → Ok (t.held + t.owed) t.prog
  writes : writer = some j → t.held = 0 ∧ t.status = .running ∧
    ∃ k, Ok 0 k ∧ (t.prog = .acquire (.unlock k) ∨ t.prog = .unlock k)
  parked : t.status = .parked → writer ≠ none
  waits : ∀ a b, t.status = .waiting a b → j < a ∧ j < b ∧ a < count ∧ b < count

structure Wf (s : State) : Prop where
  threads : ∀ j, ThreadWf s.count s.writer j (s.thread j)
  fresh : ∀ j, s.count ≤ j → s.thread j = idle

/-- A thread that has not finished is one of the threads. -/
theorem Wf.lt_count {s : State} (h : Wf s) {i : Nat} (hi : ¬ (s.thread i).Finished) :
    i < s.count := by
  by_contra hge
  rw [h.fresh i (by omega)] at hi
  exact hi ⟨rfl, rfl⟩

theorem Wf.mover_lt {s s' : State} (h : Wf s) {i : Nat} (hstep : advance s i = some s') :
    i < s.count := by
  refine h.lt_count fun hf => ?_
  simp [advance, hf.1, hf.2] at hstep

/-- A running thread that is not the writer runs a program it may run. -/
theorem Wf.ok_running {s : State} (h : Wf s) {i : Nat} (hs : (s.thread i).status = .running)
    (hw : s.writer ≠ some i) : Ok (s.thread i).held (s.thread i).prog := by
  simpa [owed_running hs] using (h.threads i).ok hw

/-- Only a thread inside its write section is the writer. -/
theorem Wf.not_writer {s : State} (h : Wf s) {i : Nat}
    (ha : ∀ k, (s.thread i).prog ≠ .acquire k) (hu : ∀ k, (s.thread i).prog ≠ .unlock k) :
    s.writer ≠ some i := by
  intro hw
  obtain ⟨-, -, k, -, hp | hp⟩ := (h.threads i).writes hw
  · exact ha _ hp
  · exact hu _ hp

theorem Wf.writer_acquire {s : State} (h : Wf s) {i : Nat} {k : Prog}
    (hp : (s.thread i).prog = .acquire k) : s.writer = some i := by
  by_contra hw
  have hok := (h.threads i).ok hw
  simp [hp, Ok] at hok

/-- A thread at the end of a write section is the writer. -/
theorem Wf.writer_unlock {s : State} (h : Wf s) {i : Nat} {k : Prog}
    (hp : (s.thread i).prog = .unlock k) : s.writer = some i := by
  by_contra hw
  have hok := (h.threads i).ok hw
  simp [hp, Ok] at hok

/-! ## Every step keeps them -/

theorem fresh_set {s : State} (h : Wf s) {i : Nat} (hi : i < s.count) (t : Thread) {j : Nat}
    (hj : s.count ≤ j) : (s.set i t).thread j = idle := by
  rw [set_thread_ne s t (by omega)]
  exact h.fresh j hj

theorem Wf.set {s : State} (h : Wf s) {i : Nat} (hi : i < s.count) {t : Thread}
    (ht : ThreadWf s.count s.writer i t) : Wf (s.set i t) := by
  refine ⟨fun j => ?_, fun j hj => fresh_set h hi t hj⟩
  by_cases hj : j = i
  · subst hj
    simpa using ht
  · rw [set_thread_ne s t hj]
    exact h.threads j

theorem ThreadWf.spawned {count : Nat} {writer : Option Nat} {j : Nat} {t : Thread}
    (h : ThreadWf count writer j t) : ThreadWf (count + 1) writer j t where
  ok := h.ok
  writes := h.writes
  parked := h.parked
  waits a b hc := by
    have := h.waits a b hc
    omega

theorem Wf.spawn {s : State} (h : Wf s) {a : Prog} (ha : Ok 0 a) : Wf (s.spawn a) := by
  constructor
  · intro j
    rw [spawn_writer]
    by_cases hn : j = s.count
    · subst hn
      rw [spawn_thread_new]
      have hidle := h.fresh s.count (Nat.le_refl _)
      have hnot : s.writer ≠ some s.count :=
        h.not_writer (by simp [hidle, idle]) (by simp [hidle, idle])
      exact
        { ok := fun _ => by simpa [Thread.owed] using ha
          writes := fun hc => absurd hc hnot
          parked := fun hc => by simp at hc
          waits := fun _ _ hc => by simp at hc }
    · rw [spawn_thread_old s a hn]
      exact (h.threads j).spawned
  · intro j hj
    rw [spawn_count] at hj
    rw [spawn_thread_old s a (by omega)]
    exact h.fresh j (by omega)

theorem ThreadWf.announced {count w j : Nat} {t : Thread} (h : ThreadWf count none j t)
    (hj : j ≠ w) : ThreadWf count (some w) j t where
  ok _ := h.ok (by simp)
  writes hc := absurd (Option.some.inj hc).symm hj
  parked _ := by simp
  waits := h.waits

theorem Wf.announce {s : State} (h : Wf s) {i : Nat} (hi : i < s.count) (hw : s.writer = none)
    {t : Thread} (ht : ThreadWf s.count (some i) i t) : Wf { s.set i t with writer := some i } := by
  refine ⟨fun j => ?_, fun j hj => fresh_set h hi t hj⟩
  by_cases hj : j = i
  · subst hj
    simpa using ht
  · have hthread := h.threads j
    rw [hw] at hthread
    simpa [set_thread_ne s t hj] using hthread.announced hj

theorem ThreadWf.granted {count w j : Nat} {t : Thread} (h : ThreadWf count (some w) j t)
    (hj : j ≠ w) : ThreadWf count none j (grant t) where
  ok _ := by
    rw [grant_held_owed, grant_prog]
    exact h.ok (by simpa using hj.symm)
  writes hc := by simp at hc
  parked hc := by
    unfold grant at hc
    split at hc
    · simp at hc
    · contradiction
  waits a b hc := by
    unfold grant at hc
    split at hc
    · simp at hc
    · exact h.waits a b hc

theorem Wf.release {s : State} (h : Wf s) {i : Nat} (hi : i < s.count) (hw : s.writer = some i)
    {t : Thread} (hs : t.status ≠ .parked) (ht : ThreadWf s.count none i t) :
    Wf { s.set i t with thread := fun j => grant ((s.set i t).thread j), writer := none } := by
  constructor
  · intro j
    by_cases hj : j = i
    · subst hj
      simpa [grant, hs] using ht
    · have hthread := h.threads j
      rw [hw] at hthread
      simpa [set_thread_ne s t hj] using hthread.granted hj
  · intro j hj
    simp only [fresh_set h hi t hj]
    rfl

/-- A move that leaves thread `i` running, outside a write section. -/
theorem ThreadWf.running {count : Nat} {writer : Option Nat} {i : Nat} {t : Thread}
    (hw : writer ≠ some i) (hs : t.status = .running) (hok : Ok t.held t.prog) :
    ThreadWf count writer i t where
  ok _ := by simpa [owed_running hs] using hok
  writes hc := absurd hc hw
  parked hc := by simp [hs] at hc
  waits _ _ hc := by simp [hs] at hc

/-- A move inside the write section of thread `i`. -/
theorem ThreadWf.writing {count i : Nat} {t : Thread} {k : Prog} (hheld : t.held = 0)
    (hs : t.status = .running) (hk : Ok 0 k)
    (hp : t.prog = .acquire (.unlock k) ∨ t.prog = .unlock k) : ThreadWf count (some i) i t where
  ok hc := absurd rfl hc
  writes _ := ⟨hheld, hs, k, hk, hp⟩
  parked hc := by simp [hs] at hc
  waits _ _ hc := by simp [hs] at hc

/-- Every step keeps a state well-formed. -/
theorem Wf.step {s s' : State} {i : Nat} (h : Wf s) (hstep : advance s i = some s') : Wf s' := by
  have hti := h.threads i
  have hi := h.mover_lt hstep
  cases move_of_advance hstep with
  | wake hs ha hb =>
    have hw : s.writer ≠ some i := by
      intro hw
      have := (hti.writes hw).2.1
      simp [hs] at this
    have hok := hti.ok hw
    rw [owed_waiting hs] at hok
    exact h.set hi (.running hw rfl hok)
  | read hs hp hnone =>
    have hw : s.writer ≠ some i := by simp [hnone]
    have hok := h.ok_running hs hw
    simp only [hp, Ok] at hok
    exact h.set hi (.running hw hs hok)
  | park hs hp hsome =>
    have hw : s.writer ≠ some i := h.not_writer (by simp [hp]) (by simp [hp])
    have hok := h.ok_running hs hw
    simp only [hp, Ok] at hok
    refine h.set hi ?_
    exact
      { ok := fun _ => by simpa [Thread.owed] using hok
        writes := fun hc => absurd hc hw
        parked := fun _ => hsome
        waits := fun _ _ hc => by simp at hc }
  | release hs hp =>
    have hw : s.writer ≠ some i := h.not_writer (by simp [hp]) (by simp [hp])
    have hok := h.ok_running hs hw
    simp only [hp, Ok] at hok
    exact h.set hi (.running hw hs hok.2)
  | announce hs hp hnone =>
    have hok := h.ok_running hs (by simp [hnone])
    rw [hp] at hok
    obtain ⟨hheld, k', rfl, hk'⟩ := hok.lock
    exact h.announce hi hnone (.writing hheld hs hk' (.inl rfl))
  | acquire hs hp hfree =>
    have hw := h.writer_acquire hp
    obtain ⟨hheld, -, k', hk', hp' | hp'⟩ := hti.writes hw
    · rw [hp] at hp'
      injection hp' with hp'
      refine h.set hi ?_
      rw [hw]
      exact .writing hheld hs hk' (.inr hp')
    · simp [hp] at hp'
  | unlock hs hp =>
    have hw := h.writer_unlock hp
    obtain ⟨hheld, -, k', hk', hp' | hp'⟩ := hti.writes hw
    · simp [hp] at hp'
    · rw [hp] at hp'
      injection hp' with hp'
      refine h.release hi hw (by simp [hs]) (.running (by simp) hs ?_)
      simpa [hheld, hp'] using hk'
  | fork hs hp =>
    have hw : s.writer ≠ some i := h.not_writer (by simp [hp]) (by simp [hp])
    have hok := h.ok_running hs hw
    simp only [hp, Ok] at hok
    refine ((h.spawn hok.1).spawn hok.2.1).set (by simp only [spawn_count]; omega) ?_
    exact
      { ok := fun _ => by simpa [Thread.owed] using hok.2.2
        writes := fun hc => absurd hc hw
        parked := fun hc => by simp at hc
        waits := fun a b hc => by
          obtain ⟨rfl, rfl⟩ : s.count = a ∧ s.count + 1 = b := by simpa using hc
          simp only [spawn_count]
          omega }
  | go hs hp =>
    have hw : s.writer ≠ some i := h.not_writer (by simp [hp]) (by simp [hp])
    have hok := h.ok_running hs hw
    simp only [hp, Ok] at hok
    exact (h.spawn hok.1).set (by simp only [spawn_count]; omega) (.running hw hs hok.2)

theorem Wf.reaches {s s' : State} (h : Wf s) (hreach : Reaches s s') : Wf s' := by
  induction hreach with
  | refl => exact h
  | tail _ hnext ih =>
    obtain ⟨i, hstep⟩ := hnext
    exact ih.step hstep

theorem getD_of_forall {P : Prog → Prop} {progs : List Prog} (h : ∀ p ∈ progs, P p)
    (hdone : P .done) (j : Nat) : P (progs.getD j .done) := by
  by_cases hj : j < progs.length
  · rw [List.getD_eq_getElem _ _ hj]
    exact h _ (List.getElem_mem hj)
  · rw [List.getD_eq_default _ _ (by omega)]
    exact hdone

theorem start_wf {progs : List Prog} (h : ∀ p ∈ progs, Ok 0 p) : Wf (start progs) := by
  constructor
  · intro j
    exact .running (by simp [start]) rfl (getD_of_forall h rfl j)
  · intro j hj
    simp only [start] at hj ⊢
    rw [List.getD_eq_default _ _ hj]
    rfl

end SniShaper.RWMutex
