import Mathlib.Algebra.BigOperators.Group.Finset.Basic
import Mathlib.Algebra.Order.BigOperators.Group.Finset
import SniShaper.Lib.RWMutex

/-! Threads on a read-write lock: when they all can finish.

A program is careful if, while it holds a read lock, it waits only for programs that do
not write, and takes another read lock afterwards.

* `Care.step`: every step keeps a state of careful programs;
* `Calm.step`: what a step keeps if no writer announces itself while a holder of a read
  lock still has to take another one;
* `Wf.progress`, `Wf.finishes`: from such a state some thread moves, and all can finish;
* `HeedingRun.live`: no run of such steps reaches a state where a thread waits forever. -/

namespace SniShaper.RWMutex

/-! ## Careful programs -/

/-- A thread with `h` read locks takes another one before it has given them back. -/
def nests : Nat → Prog → Bool
  | 0, _ => false
  | _ + 1, .done => false
  | _ + 1, .rlock _ => true
  | h + 1, .runlock k => nests h k
  | h + 1, .lock k => nests (h + 1) k
  | h + 1, .acquire k => nests (h + 1) k
  | h + 1, .unlock k => nests (h + 1) k
  | h + 1, .fork _ _ k => nests (h + 1) k
  | h + 1, .go _ k => nests (h + 1) k

/-- The program, and those it waits for, never take the lock for writing. -/
def writeFree : Prog → Bool
  | .done => true
  | .rlock k => writeFree k
  | .runlock k => writeFree k
  | .lock _ => false
  | .acquire _ => false
  | .unlock _ => false
  | .fork a b k => writeFree a && writeFree b && writeFree k
  | .go _ k => writeFree k

/-- Run with `h` read locks held, the program waits only for what does not write. -/
def Careful : Nat → Prog → Prop
  | _, .done => True
  | h, .rlock k => Careful (h + 1) k
  | h, .runlock k => Careful (h - 1) k
  | h, .lock k => Careful h k
  | h, .acquire k => Careful h k
  | h, .unlock k => Careful h k
  | h, .fork a b k => Careful 0 a ∧ Careful 0 b ∧ Careful h k ∧
      (0 < h → nests h k = true ∧ writeFree a = true ∧ writeFree b = true)
  | h, .go a k => Careful 0 a ∧ Careful h k

section nests

variable {h : Nat} (hh : 0 < h)
include hh

theorem nests_rlock (k : Prog) : nests h (.rlock k) = true := by
  cases h with
  | zero => omega
  | succ h => rfl

theorem nests_runlock (k : Prog) : nests h (.runlock k) = nests (h - 1) k := by
  cases h with
  | zero => omega
  | succ h => rfl

theorem nests_fork (a b k : Prog) : nests h (.fork a b k) = nests h k := by
  cases h with
  | zero => omega
  | succ h => rfl

theorem nests_go (a k : Prog) : nests h (.go a k) = nests h k := by
  cases h with
  | zero => omega
  | succ h => rfl

theorem nests_forkAll (as : List Prog) (k : Prog) : nests h (.forkAll as k) = nests h k := by
  cases as with
  | nil => rfl
  | cons a as => exact nests_fork hh a _ k

end nests

theorem writeFree_forkAll (as : List Prog) (k : Prog) :
    writeFree (.forkAll as k) = (as.all writeFree && writeFree k) := by
  induction as generalizing k with
  | nil => simp [Prog.forkAll]
  | cons a as ih => simp [Prog.forkAll, writeFree, ih]

theorem Careful.forkAll {h : Nat} {as : List Prog} {k : Prog} (has : ∀ a ∈ as, Careful 0 a)
    (hk : Careful h k) (hh : 0 < h → nests h k = true ∧ as.all writeFree = true) :
    Careful h (.forkAll as k) := by
  induction as generalizing h k with
  | nil => exact hk
  | cons a as ih =>
    have hrest : Careful 0 (.forkAll as .done) :=
      ih (fun b hb => has b (List.mem_cons_of_mem _ hb)) trivial fun h0 => absurd h0 (by omega)
    refine ⟨has a List.mem_cons_self, hrest, hk, fun h0 => ?_⟩
    obtain ⟨hnests, hfree⟩ := hh h0
    rw [List.all_cons, Bool.and_eq_true] at hfree
    exact ⟨hnests, hfree.1, by simp [writeFree_forkAll, hfree.2, writeFree]⟩

theorem held_pos_of_nests {h : Nat} {p : Prog} (hn : nests h p = true) : 0 < h := by
  cases h with
  | zero => simp [nests] at hn
  | succ h => omega

/-! ## What a move leaves alone -/

/-- Another thread is as before, or gets the read lock it waits for. -/
theorem Move.other {s s' : State} {i j : Nat} (hm : Move s i s') (hj : j < s.count) (hne : j ≠ i) :
    s'.thread j = s.thread j ∨ s'.thread j = grant (s.thread j) := by
  cases hm with
  | wake hs ha hb => exact .inl (set_thread_ne s _ hne)
  | read hs hp hnone => exact .inl (set_thread_ne s _ hne)
  | park hs hp hsome => exact .inl (set_thread_ne s _ hne)
  | release hs hp => exact .inl (set_thread_ne s _ hne)
  | announce hs hp hnone => exact .inl (set_thread_ne s _ hne)
  | acquire hs hp hfree => exact .inl (set_thread_ne s _ hne)
  | unlock hs hp => exact .inr (by simp only [set_thread_ne s _ hne])
  | fork hs hp => exact .inl (by rw [set_thread_ne _ _ hne, spawn_spawn_thread_old s _ _ hj])
  | go hs hp => exact .inl (by rw [set_thread_ne _ _ hne, spawn_thread_old s _ (by omega)])

/-- What a thread has to write it had to write before. -/
theorem Move.writeFree {s s' : State} {i j : Nat} (hm : Move s i s') (hj : j < s.count)
    (hw : writeFree (s.thread j).prog = true) : writeFree (s'.thread j).prog = true := by
  by_cases hne : j = i
  · subst hne
    cases hm with
    | wake hs ha hb => simpa using hw
    | read hs hp hnone => simpa [hp, RWMutex.writeFree] using hw
    | park hs hp hsome => simpa [hp, RWMutex.writeFree] using hw
    | release hs hp => simpa [hp, RWMutex.writeFree] using hw
    | announce hs hp hnone => simp [hp, RWMutex.writeFree] at hw
    | acquire hs hp hfree => simp [hp, RWMutex.writeFree] at hw
    | unlock hs hp => simp [hp, RWMutex.writeFree] at hw
    | fork hs hp =>
      simp only [hp, RWMutex.writeFree, Bool.and_eq_true] at hw
      simpa using hw.2
    | go hs hp => simpa [hp, RWMutex.writeFree] using hw
  · rcases hm.other hj hne with h | h
    · rw [h]
      exact hw
    · rw [h, grant_prog]
      exact hw

/-- A thread that waits did so before, or has just started what it waits for. -/
theorem Move.waiting {s s' : State} {i j a b : Nat} (hm : Move s i s') (hj : j < s.count)
    (hs' : (s'.thread j).status = .waiting a b) : s'.thread j = s.thread j ∨
      ∃ p q k, (s.thread j).prog = .fork p q k ∧ (s.thread j).status = .running ∧
        (s'.thread j).prog = k ∧ (s'.thread j).held = (s.thread j).held ∧
        s'.thread a = { prog := p } ∧ s'.thread b = { prog := q } := by
  by_cases hne : j = i
  · subst hne
    cases hm with
    | wake hs ha hb => simp at hs'
    | read hs hp hnone => simp [hs] at hs'
    | park hs hp hsome => simp at hs'
    | release hs hp => simp [hs] at hs'
    | announce hs hp hnone => simp [hs] at hs'
    | acquire hs hp hfree => simp [hs] at hs'
    | unlock hs hp => simp [grant, hs] at hs'
    | @fork p q k hs hp =>
      obtain ⟨rfl, rfl⟩ : s.count = a ∧ s.count + 1 = b := by simpa using hs'
      exact .inr ⟨p, q, k, hp, hs, by simp, by simp, fork_threads hj p q _⟩
    | go hs hp => simp [hs] at hs'
  · rcases hm.other hj hne with h | h
    · exact .inl h
    · left
      rw [h] at hs' ⊢
      unfold grant at hs' ⊢
      split
      · rename_i hp
        simp [hp] at hs'
      · rfl

/-! ## Threads that are waited for -/

/-- Thread `t` still has to write, or waits for one that has. -/
inductive Owes (s : State) : Nat → Prop where
  | own {t : Nat} (h : writeFree (s.thread t).prog = false) : Owes s t
  | left {t a b : Nat} (hs : (s.thread t).status = .waiting a b) (h : Owes s a) : Owes s t
  | right {t a b : Nat} (hs : (s.thread t).status = .waiting a b) (h : Owes s b) : Owes s t

theorem Owes.unfinished {s : State} {t : Nat} (h : Owes s t) : ¬ (s.thread t).Finished := by
  rintro ⟨hp, hs⟩
  cases h with
  | own h => simp [hp, writeFree] at h
  | left hs' _ => simp [hs] at hs'
  | right hs' _ => simp [hs] at hs'

theorem owes_new {s : State} {t : Nat} {p : Prog} (ht : s.thread t = { prog := p })
    (h : Owes s t) : writeFree p = false := by
  cases h with
  | own h => simpa [ht] using h
  | left hs _ => simp [ht] at hs
  | right hs _ => simp [ht] at hs

theorem Owes.of_step {s s' : State} {i t : Nat} (hwf : Wf s) (hstep : advance s i = some s')
    (h : Owes s' t) (ht : t < s.count) : Owes s t := by
  have hm := move_of_advance hstep
  induction h with
  | own h =>
    refine .own ?_
    by_contra hc
    rw [hm.writeFree ht (by simpa using hc)] at h
    cases h
  | @left t a b hs h ih =>
    rcases hm.waiting ht hs with hsame | ⟨p, q, k, hp, -, -, -, ha, -⟩
    · rw [hsame] at hs
      exact .left hs (ih ((hwf.threads t).waits a b hs).2.2.1)
    · exact .own (by simp [hp, writeFree, owes_new ha h])
  | @right t a b hs h ih =>
    rcases hm.waiting ht hs with hsame | ⟨p, q, k, hp, -, -, -, -, hb⟩
    · rw [hsame] at hs
      exact .right hs (ih ((hwf.threads t).waits a b hs).2.2.2)
    · exact .own (by simp [hp, writeFree, owes_new hb h])

/-- A careful thread, which waits only for what does not write while it holds a lock. -/
structure ThreadCare (s : State) (t : Thread) : Prop where
  careful : Careful (t.held + t.owed) t.prog
  waits : ∀ a b, t.status = .waiting a b → 0 < t.held →
    nests t.held t.prog = true ∧ ¬ Owes s a ∧ ¬ Owes s b

def Care (s : State) : Prop := ∀ j, ThreadCare s (s.thread j)

theorem Care.careful_running {s : State} (h : Care s) {i : Nat}
    (hs : (s.thread i).status = .running) : Careful (s.thread i).held (s.thread i).prog := by
  simpa [owed_running hs] using (h i).careful

/-- The program of a thread stays careful. -/
theorem Care.careful_step {s s' : State} {i j : Nat} (h : Care s) (hm : Move s i s')
    (hj : j < s.count) :
    Careful ((s'.thread j).held + (s'.thread j).owed) (s'.thread j).prog := by
  have hcare := (h j).careful
  by_cases hne : j = i
  · subst hne
    cases hm with
    | wake hs ha hb => simpa [Thread.owed, hs] using hcare
    | read hs hp hnone => simpa [Thread.owed, hs, hp, Careful] using hcare
    | park hs hp hsome => simpa [Thread.owed, hs, hp, Careful] using hcare
    | release hs hp => simpa [Thread.owed, hs, hp, Careful] using hcare
    | announce hs hp hnone => simpa [Thread.owed, hs, hp, Careful] using hcare
    | acquire hs hp hfree => simpa [Thread.owed, hs, hp, Careful] using hcare
    | unlock hs hp => simpa [Thread.owed, grant, hs, hp, Careful] using hcare
    | fork hs hp =>
      simp only [Thread.owed, hs, hp, Careful] at hcare
      simpa [Thread.owed] using hcare.2.2.1
    | go hs hp =>
      simp only [Thread.owed, hs, hp, Careful] at hcare
      simpa [Thread.owed, hs] using hcare.2
  · rcases hm.other hj hne with heq | heq
    · rw [heq]
      exact hcare
    · rw [heq, grant_held_owed, grant_prog]
      exact hcare

/-- A thread that a move has started is careful. -/
theorem Care.careful_new {s s' : State} {i j : Nat} (hwf : Wf s) (h : Care s) (hm : Move s i s')
    (hi : i < s.count) (hj : s.count ≤ j) :
    ∃ p, s'.thread j = { prog := p } ∧ Careful 0 p := by
  have hidle : s.thread j = { prog := .done } := hwf.fresh j hj
  have hne : j ≠ i := by omega
  have hset (t : Thread) : (s.set i t).thread j = { prog := .done } :=
    (set_thread_ne s t hne).trans hidle
  cases hm with
  | wake hs ha hb => exact ⟨.done, hset _, trivial⟩
  | read hs hp hnone => exact ⟨.done, hset _, trivial⟩
  | park hs hp hsome => exact ⟨.done, hset _, trivial⟩
  | release hs hp => exact ⟨.done, hset _, trivial⟩
  | announce hs hp hnone => exact ⟨.done, hset _, trivial⟩
  | acquire hs hp hfree => exact ⟨.done, hset _, trivial⟩
  | unlock hs hp =>
    refine ⟨.done, ?_, trivial⟩
    simp only [hset]
    rfl
  | @fork p q k hs hp =>
    have hcare := h.careful_running hs
    rw [hp] at hcare
    rw [set_thread_ne _ _ hne]
    by_cases hq : j = s.count + 1
    · subst hq
      exact ⟨q, spawn_thread_new (s.spawn p) q, hcare.2.1⟩
    · rw [spawn_thread_old _ q (by simpa using hq)]
      by_cases hp' : j = s.count
      · subst hp'
        exact ⟨p, spawn_thread_new s p, hcare.1⟩
      · rw [spawn_thread_old s p hp']
        exact ⟨.done, hidle, trivial⟩
  | @go p k hs hp =>
    have hcare := h.careful_running hs
    rw [hp] at hcare
    rw [set_thread_ne _ _ hne]
    by_cases hp' : j = s.count
    · subst hp'
      exact ⟨p, spawn_thread_new s p, hcare.1⟩
    · rw [spawn_thread_old s p hp']
      exact ⟨.done, hidle, trivial⟩

theorem Care.step {s s' : State} {i : Nat} (hwf : Wf s) (h : Care s)
    (hstep : advance s i = some s') : Care s' := by
  have hm := move_of_advance hstep
  have hi := hwf.mover_lt hstep
  intro j
  by_cases hj : j < s.count
  · refine ⟨h.careful_step hm hj, fun a b hs hheld => ?_⟩
    rcases hm.waiting hj hs with hsame | ⟨p, q, k, hp, hrun, hk, hsame, ha, hb⟩
    · rw [hsame] at hs hheld ⊢
      obtain ⟨hn, hna, hnb⟩ := (h j).waits a b hs hheld
      obtain ⟨-, -, hla, hlb⟩ := (hwf.threads j).waits a b hs
      exact ⟨hn, fun hc => hna (hc.of_step hwf hstep hla), fun hc => hnb (hc.of_step hwf hstep hlb)⟩
    · have hcare := h.careful_running hrun
      rw [hp] at hcare
      rw [hsame] at hheld ⊢
      obtain ⟨hn, hfa, hfb⟩ := hcare.2.2.2 hheld
      rw [hk]
      refine ⟨hn, fun hc => ?_, fun hc => ?_⟩
      · simp [owes_new ha hc] at hfa
      · simp [owes_new hb hc] at hfb
  · obtain ⟨p, hp, hcare⟩ := h.careful_new hwf hm hi (Nat.le_of_not_lt hj)
    rw [hp]
    exact ⟨by simpa [Thread.owed] using hcare, fun a b hs => by simp at hs⟩

theorem start_care {progs : List Prog} (h : ∀ p ∈ progs, Careful 0 p) : Care (start progs) := by
  intro j
  refine ⟨?_, fun a b hs => by simp [start] at hs⟩
  simpa [start, Thread.owed] using getD_of_forall h trivial j

/-! ## Calm states -/

/-- While a writer is announced, those who hold a read lock only have to give it back. -/
def Calm (s : State) : Prop :=
  s.writer ≠ none → ∀ j, 0 < (s.thread j).held →
    (s.thread j).status ≠ .parked ∧ nests (s.thread j).held (s.thread j).prog = false

/-- Thread `i` does not announce a write while a holder of a read lock still has to take
another one. -/
def Heeds (s : State) (i : Nat) : Prop :=
  (s.thread i).status = .running → (∃ k, (s.thread i).prog = .lock k) →
    ∀ j, nests (s.thread j).held (s.thread j).prog = false

theorem Calm.set {s : State} (h : Calm s) {i : Nat} {t : Thread}
    (ht : s.writer ≠ none → 0 < t.held → t.status ≠ .parked ∧ nests t.held t.prog = false) :
    Calm (s.set i t) := by
  intro hw j hj
  by_cases hji : j = i
  · subst hji
    rw [set_thread_self] at hj ⊢
    exact ht hw hj
  · rw [set_thread_ne s t hji] at hj ⊢
    exact h hw j hj

theorem Calm.spawn {s : State} (h : Calm s) (a : Prog) : Calm (s.spawn a) := by
  intro hw j hj
  by_cases hn : j = s.count
  · subst hn
    simp at hj
  · rw [spawn_thread_old s a hn] at hj ⊢
    exact h hw j hj

theorem start_calm (progs : List Prog) : Calm (start progs) := fun hw => absurd rfl hw

theorem Calm.step {s s' : State} {i : Nat} (hwf : Wf s) (h : Calm s) (hheeds : Heeds s i)
    (hstep : advance s i = some s') : Calm s' := by
  cases move_of_advance hstep with
  | wake hs ha hb => exact h.set fun hw hh => ⟨by simp, (h hw i hh).2⟩
  | read hs hp hnone => exact h.set fun hw => absurd hnone hw
  | @park k hs hp hsome =>
    refine h.set fun hw hh => ?_
    -- a holder that nests is ruled out, so only threads without a lock are parked
    have hn := (h hw i hh).2
    rw [hp, nests_rlock hh] at hn
    cases hn
  | @release k hs hp =>
    refine h.set fun hw hh => ⟨by simp [hs], ?_⟩
    have hpos : 0 < (s.thread i).held := by
      simp only at hh
      omega
    have hn := (h hw i hpos).2
    rwa [hp, nests_runlock hpos] at hn
  | @announce k hs hp hnone =>
    intro _ j hj
    have hn := hheeds hs ⟨k, hp⟩ j
    have hpark : (s.thread j).status ≠ .parked := fun hc => (hwf.threads j).parked hc hnone
    have hheld : (s.thread i).held = 0 := by
      have hok := hwf.ok_running hs (by simp [hnone])
      rw [hp] at hok
      exact hok.lock.1
    have hji : j ≠ i := by
      rintro rfl
      simp [hheld] at hj
    simp only [set_thread_ne s _ hji] at hj ⊢
    exact ⟨hpark, hn⟩
  | @acquire k hs hp hfree =>
    refine h.set fun hw hh => ?_
    have hheld := ((hwf.threads i).writes (hwf.writer_acquire hp)).1
    simp only at hh
    omega
  | unlock hs hp => exact fun hw => absurd rfl hw
  | @fork a b k hs hp =>
    refine ((h.spawn _).spawn _).set fun hw hh => ⟨by simp, ?_⟩
    have hn := (h hw i hh).2
    rwa [hp, nests_fork hh] at hn
  | @go a k hs hp =>
    refine (h.spawn _).set fun hw hh => ⟨by simp [hs], ?_⟩
    have hn := (h hw i hh).2
    rwa [hp, nests_go hh] at hn

/-! ## Progress -/

/-- With no writer announced, an unfinished thread moves, or one it waits for does, which
writes only if the thread waits for a write. -/
theorem Wf.exists_step {s : State} (h : Wf s) (hnone : s.writer = none) {j : Nat}
    (hj : ¬ (s.thread j).Finished) : ∃ i, (advance s i).isSome ∧
      ((∃ k, (s.thread i).prog = .lock k) → i = j ∧ (s.thread j).held = 0 ∨
        ∃ a b, (s.thread j).status = .waiting a b ∧ (Owes s a ∨ Owes s b)) := by
  -- threads wait for younger ones: induction on how many are younger
  generalize hm : s.count - j = m
  induction m using Nat.strong_induction_on generalizing j with
  | _ m ih =>
    subst hm
    have hlt := h.lt_count hj
    have htj := h.threads j
    have howes (c i : Nat) (hstep : (∃ k, (s.thread i).prog = .lock k) →
        i = c ∧ (s.thread c).held = 0 ∨
          ∃ a b, (s.thread c).status = .waiting a b ∧ (Owes s a ∨ Owes s b))
        (hk : ∃ k, (s.thread i).prog = .lock k) : Owes s c := by
      rcases hstep hk with ⟨rfl, -⟩ | ⟨a, b, hs, ha | hb⟩
      · obtain ⟨k, hk⟩ := hk
        exact .own (by simp [hk, writeFree])
      · exact .left hs ha
      · exact .right hs hb
    cases hs : (s.thread j).status with
    | parked => exact absurd hnone (htj.parked hs)
    | waiting a b =>
      obtain ⟨hja, hjb, -, -⟩ := htj.waits a b hs
      by_cases ha : (s.thread a).Finished
      · by_cases hb : (s.thread b).Finished
        · refine ⟨j, by simp [advance, hs, ha, hb], fun ⟨k, hk⟩ => .inl ⟨rfl, ?_⟩⟩
          have hok := htj.ok (by simp [hnone])
          rw [hk] at hok
          have := hok.lock.1
          omega
        · obtain ⟨i, hstep, hi⟩ := ih (s.count - b) (by omega) hb rfl
          exact ⟨i, hstep, fun hk => .inr ⟨a, b, rfl, .inr (howes b i hi hk)⟩⟩
      · obtain ⟨i, hstep, hi⟩ := ih (s.count - a) (by omega) ha rfl
        exact ⟨i, hstep, fun hk => .inr ⟨a, b, rfl, .inl (howes a i hi hk)⟩⟩
    | running =>
      cases hp : (s.thread j).prog with
      | done => exact absurd ⟨hp, hs⟩ hj
      | rlock k => exact ⟨j, by simp [advance, hs, hp, hnone], by simp [hp]⟩
      | runlock k => exact ⟨j, by simp [advance, hs, hp], by simp [hp]⟩
      | lock k =>
        refine ⟨j, by simp [advance, hs, hp, hnone], fun _ => .inl ⟨rfl, ?_⟩⟩
        have hok := h.ok_running hs (by simp [hnone])
        rw [hp] at hok
        exact hok.lock.1
      | acquire k =>
        have := h.writer_acquire hp
        simp [hnone] at this
      | unlock k =>
        have := h.writer_unlock hp
        simp [hnone] at this
      | fork a b k => exact ⟨j, by simp [advance, hs, hp], by simp [hp]⟩
      | go a k => exact ⟨j, by simp [advance, hs, hp], by simp [hp]⟩

/-- With a writer announced in a calm state, the writer moves or a holder of a read lock
does. -/
theorem Wf.exists_step_writer {s : State} (h : Wf s) (hcare : Care s) (hcalm : Calm s) {w : Nat}
    (hw : s.writer = some w) : ∃ i, (advance s i).isSome ∧ ∀ k, (s.thread i).prog ≠ .lock k := by
  obtain ⟨hheld, hs, k, -, hp | hp⟩ := (h.threads w).writes hw
  · by_cases hfree : ∀ j < s.count, (s.thread j).held = 0
    · refine ⟨w, ?_, by simp [hp]⟩
      simp only [advance, hs, hp, if_pos hfree, Option.isSome_some]
    · push Not at hfree
      obtain ⟨j, -, hj⟩ := hfree
      have hpos : 0 < (s.thread j).held := by omega
      obtain ⟨hpark, hn⟩ := hcalm (by simp [hw]) j hpos
      have hne : s.writer ≠ some j := by
        rw [hw]
        rintro ⟨⟩
        exact hj hheld
      have hrun : (s.thread j).status = .running := by
        cases hsj : (s.thread j).status with
        | running => rfl
        | parked => exact absurd hsj hpark
        | waiting a b =>
          have := ((hcare j).waits a b hsj hpos).1
          rw [hn] at this
          cases this
      have hok := h.ok_running hrun hne
      -- a holder that is neither waiting nor about to nest gives a lock back or goes on
      cases hpj : (s.thread j).prog with
      | done =>
        rw [hpj] at hok
        exact absurd hok hj
      | rlock k =>
        rw [hpj, nests_rlock hpos] at hn
        cases hn
      | runlock k => exact ⟨j, by simp [advance, hrun, hpj], by simp [hpj]⟩
      | lock k =>
        rw [hpj] at hok
        exact absurd hok.lock.1 hj
      | acquire k => simp [hpj, Ok] at hok
      | unlock k => simp [hpj, Ok] at hok
      | fork a b k =>
        have hcareful := hcare.careful_running hrun
        rw [hpj] at hcareful
        rw [hpj, nests_fork hpos, (hcareful.2.2.2 hpos).1] at hn
        cases hn
      | go a k => exact ⟨j, by simp [advance, hrun, hpj], by simp [hpj]⟩
  · exact ⟨w, by simp [advance, hs, hp], by simp [hp]⟩

theorem Wf.progress {s : State} (h : Wf s) (hcare : Care s) (hcalm : Calm s) {j : Nat}
    (hj : ¬ (s.thread j).Finished) : ∃ i, Heeds s i ∧ (advance s i).isSome := by
  cases hw : s.writer with
  | some w =>
    obtain ⟨i, hstep, hi⟩ := h.exists_step_writer hcare hcalm hw
    exact ⟨i, fun _ ⟨k, hk⟩ => absurd hk (hi k), hstep⟩
  | none =>
    by_cases hwin : ∃ t, nests (s.thread t).held (s.thread t).prog = true
    · obtain ⟨t, ht⟩ := hwin
      have hpos := held_pos_of_nests ht
      have hunf : ¬ (s.thread t).Finished := by
        rintro ⟨hp, hs⟩
        have hok := h.ok_running hs (by simp [hw])
        rw [hp] at hok
        exact absurd hok (Nat.ne_of_gt hpos)
      obtain ⟨i, hstep, hi⟩ := h.exists_step hw hunf
      refine ⟨i, fun _ hk => ?_, hstep⟩
      rcases hi hk with ⟨-, hzero⟩ | ⟨a, b, hs, howes⟩
      · omega
      · obtain ⟨-, hna, hnb⟩ := (hcare t).waits a b hs hpos
        exact absurd howes (not_or.mpr ⟨hna, hnb⟩)
    · push Not at hwin
      obtain ⟨i, hstep, -⟩ := h.exists_step hw hj
      exact ⟨i, fun _ _ t => by simpa using hwin t, hstep⟩

/-! ## Every run is finite -/

/-- The steps a program can still take, with those of the threads it starts. -/
def Prog.size : Prog → Nat
  | .done => 0
  | .rlock k => k.size + 1
  | .runlock k => k.size + 1
  | .lock k => k.size + 1
  | .acquire k => k.size + 1
  | .unlock k => k.size + 1
  | .fork a b k => a.size + b.size + k.size + 2
  | .go a k => a.size + k.size + 1

def Thread.cost (t : Thread) : Nat :=
  t.prog.size + match t.status with
    | .waiting _ _ => 1
    | _ => 0

def State.total (s : State) : Nat := ∑ j ∈ Finset.range s.count, (s.thread j).cost

theorem total_set {s : State} {i : Nat} (hi : i < s.count) (t : Thread) :
    (s.set i t).total + (s.thread i).cost = s.total + t.cost := by
  have hmem : i ∈ Finset.range s.count := by simpa using hi
  have hrest : ∑ j ∈ (Finset.range s.count).erase i, ((s.set i t).thread j).cost =
      ∑ j ∈ (Finset.range s.count).erase i, (s.thread j).cost := by
    refine Finset.sum_congr rfl fun j hj => ?_
    rw [set_thread_ne s t (Finset.ne_of_mem_erase hj)]
  have hnew := Finset.add_sum_erase _ (fun j => ((s.set i t).thread j).cost) hmem
  have hold := Finset.add_sum_erase _ (fun j => (s.thread j).cost) hmem
  simp only [set_thread_self] at hnew
  simp only [State.total, set_count]
  omega

theorem total_set_lt {s : State} {i : Nat} (hi : i < s.count) {t : Thread}
    (ht : t.cost < (s.thread i).cost) : (s.set i t).total < s.total := by
  have := total_set hi t
  omega

theorem total_spawn (s : State) (a : Prog) :
    (s.spawn a).total = s.total + a.size := by
  have hrest : ∑ j ∈ Finset.range s.count, ((s.spawn a).thread j).cost =
      ∑ j ∈ Finset.range s.count, (s.thread j).cost := by
    refine Finset.sum_congr rfl fun j hj => ?_
    rw [spawn_thread_old s a (by simp at hj; omega)]
  simp only [State.total, spawn_count, Finset.sum_range_succ, hrest, spawn_thread_new]
  rfl

theorem grant_cost_le (t : Thread) : (grant t).cost ≤ t.cost := by
  unfold grant
  split <;> simp [Thread.cost]

theorem Wf.total_lt {s s' : State} {i : Nat} (h : Wf s) (hstep : advance s i = some s') :
    s'.total < s.total := by
  have hmove := move_of_advance hstep
  have hi := h.mover_lt hstep
  cases hmove with
  | wake hs ha hb => exact total_set_lt hi (by simp [Thread.cost, hs])
  | read hs hp hnone => exact total_set_lt hi (by simp [Thread.cost, hs, hp, Prog.size])
  | park hs hp hsome => exact total_set_lt hi (by simp [Thread.cost, hs, hp, Prog.size])
  | release hs hp => exact total_set_lt hi (by simp [Thread.cost, hs, hp, Prog.size])
  | announce hs hp hnone => exact total_set_lt hi (by simp [Thread.cost, hs, hp, Prog.size])
  | acquire hs hp hfree => exact total_set_lt hi (by simp [Thread.cost, hs, hp, Prog.size])
  | @unlock k hs hp =>
    have hlt : (s.set i { s.thread i with prog := k }).total < s.total :=
      total_set_lt hi (by simp [Thread.cost, hs, hp, Prog.size])
    refine lt_of_le_of_lt ?_ hlt
    exact Finset.sum_le_sum fun j _ => grant_cost_le _
  | @fork a b k hs hp =>
    have hlt : i < ((s.spawn a).spawn b).count := by
      simp only [spawn_count]
      omega
    have hset := total_set hlt { s.thread i with prog := k, status := .waiting s.count (s.count + 1) }
    rw [spawn_spawn_thread_old s a b hi, total_spawn, total_spawn] at hset
    have hcost : (s.thread i).cost = a.size + b.size + k.size + 2 := by
      simp [Thread.cost, hs, hp, Prog.size]
    have hnew : Thread.cost { s.thread i with
        prog := k, status := .waiting s.count (s.count + 1) } = k.size + 1 := rfl
    omega
  | @go a k hs hp =>
    have hlt : i < (s.spawn a).count := by
      simp only [spawn_count]
      omega
    have hset := total_set hlt { s.thread i with prog := k }
    rw [spawn_thread_old s a (by omega), total_spawn] at hset
    have hcost : (s.thread i).cost = a.size + k.size + 1 := by
      simp [Thread.cost, hs, hp, Prog.size]
    have hnew : Thread.cost { s.thread i with prog := k } = k.size := by
      simp [Thread.cost, hs]
    omega

/-- From a calm state of careful programs all threads can finish. -/
theorem Wf.finishes {s : State} (h : Wf s) (hcare : Care s) (hcalm : Calm s) :
    ∃ s', Reaches s s' ∧ ∀ j, (s'.thread j).Finished := by
  generalize hm : s.total = m
  induction m using Nat.strong_induction_on generalizing s with
  | _ m ih =>
    by_cases hall : ∀ j, (s.thread j).Finished
    · exact ⟨s, .refl, hall⟩
    · push Not at hall
      obtain ⟨j, hj⟩ := hall
      obtain ⟨i, hheeds, hsome⟩ := h.progress hcare hcalm hj
      obtain ⟨s₁, hstep⟩ := Option.isSome_iff_exists.mp hsome
      obtain ⟨s', hreach, hfin⟩ := ih s₁.total (hm ▸ h.total_lt hstep) (h.step hstep)
        (hcare.step h hstep) (hcalm.step h hheeds hstep) rfl
      exact ⟨s', .head ⟨i, hstep⟩ hreach, hfin⟩

theorem Wf.not_waitsForever {s : State} (h : Wf s) (hcare : Care s) (hcalm : Calm s) (i : Nat) :
    ¬ WaitsForever s i := by
  rintro ⟨hunf, hstay⟩
  obtain ⟨s', hreach, hfin⟩ := h.finishes hcare hcalm
  exact hunf (hstay s' hreach ▸ hfin i)

/-! ## Runs -/

/-- A run whose announcements all heed the holders of read locks. -/
def HeedingRun : State → State → Prop :=
  Relation.ReflTransGen fun s s' => ∃ i, Heeds s i ∧ advance s i = some s'

theorem HeedingRun.keeps {s s' : State} (hwf : Wf s) (hcare : Care s) (hcalm : Calm s)
    (hrun : HeedingRun s s') : Wf s' ∧ Care s' ∧ Calm s' := by
  induction hrun with
  | refl => exact ⟨hwf, hcare, hcalm⟩
  | tail _ hnext ih =>
    obtain ⟨hwf₁, hcare₁, hcalm₁⟩ := ih
    obtain ⟨i, hheeds, hstep⟩ := hnext
    exact ⟨hwf₁.step hstep, hcare₁.step hwf₁ hstep, hcalm₁.step hwf₁ hheeds hstep⟩

/-- In every state such a run of careful programs reaches, no thread waits forever. -/
theorem HeedingRun.live {progs : List Prog} {s : State} (hok : ∀ p ∈ progs, Ok 0 p)
    (hcareful : ∀ p ∈ progs, Careful 0 p) (hrun : HeedingRun (start progs) s) (i : Nat) :
    ¬ WaitsForever s i := by
  obtain ⟨hwf, hcare, hcalm⟩ :=
    hrun.keeps (start_wf hok) (start_care hcareful) (start_calm progs)
  exact hwf.not_waitsForever hcare hcalm i

end SniShaper.RWMutex
