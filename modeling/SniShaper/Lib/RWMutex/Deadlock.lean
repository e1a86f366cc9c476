import SniShaper.Lib.RWMutex.Progress

/-! Threads on a read-write lock: when some never finish.

* `Locked.step`: a writer that waits for a holder of a read lock which has to take another
  one is never let in, whatever the threads do;
* `Locked.waitsForever`: once the holder is parked both wait forever;
* `announce_waitsForever`: so does every writer that announces itself in that moment;
* `Exclusive.step`: inside a write section nobody else holds the lock;
* `Doomed.never_finishes`: so a thread that waits for a write while it holds a read lock
  never finishes. -/

namespace SniShaper.RWMutex

/-- The writer `w` waits for thread `j`, which holds a read lock and has to take another. -/
structure Locked (s : State) (w j : Nat) : Prop where
  writer : s.writer = some w
  at_acquire : ∃ k, (s.thread w).prog = .acquire k
  holds : 0 < (s.thread j).held
  nested : (s.thread j).status = .parked ∨ nests (s.thread j).held (s.thread j).prog = true

/-- With a writer announced, a move outside its section changes no other thread. -/
theorem Move.frame {s s' : State} {i : Nat} (hm : Move s i s') (hw : s.writer ≠ none)
    (hu : ∀ k, (s.thread i).prog ≠ .unlock k) :
    s'.writer = s.writer ∧ ∀ t < s.count, t ≠ i → s'.thread t = s.thread t := by
  cases hm with
  | wake hs ha hb => exact ⟨rfl, fun t _ hne => set_thread_ne s _ hne⟩
  | read hs hp hnone => exact absurd hnone hw
  | park hs hp hsome => exact ⟨rfl, fun t _ hne => set_thread_ne s _ hne⟩
  | release hs hp => exact ⟨rfl, fun t _ hne => set_thread_ne s _ hne⟩
  | announce hs hp hnone => exact absurd hnone hw
  | acquire hs hp hfree => exact ⟨rfl, fun t _ hne => set_thread_ne s _ hne⟩
  | unlock hs hp => exact absurd hp (hu _)
  | fork hs hp =>
    refine ⟨rfl, fun t ht hne => ?_⟩
    rw [set_thread_ne _ _ hne, spawn_spawn_thread_old s _ _ ht]
  | go hs hp =>
    refine ⟨rfl, fun t ht hne => ?_⟩
    rw [set_thread_ne _ _ hne, spawn_thread_old s _ (by omega)]

theorem Locked.ne {s : State} {w j : Nat} (hwf : Wf s) (h : Locked s w j) : j ≠ w := by
  rintro rfl
  have := ((hwf.threads j).writes h.writer).1
  have := h.holds
  omega

theorem Locked.not_writer {s : State} {w j : Nat} (hwf : Wf s) (h : Locked s w j) :
    s.writer ≠ some j := fun hc => h.ne hwf (Option.some.inj (hc.symm.trans h.writer))

theorem Locked.holder_unfinished {s : State} {w j : Nat} (hwf : Wf s) (h : Locked s w j) :
    ¬ (s.thread j).Finished := by
  intro hf
  have hok := hwf.ok_running hf.2 (h.not_writer hwf)
  rw [hf.1] at hok
  exact absurd hok (Nat.ne_of_gt h.holds)

theorem Locked.writer_unfinished {s : State} {w j : Nat} (h : Locked s w j) :
    ¬ (s.thread w).Finished := by
  obtain ⟨k, hp⟩ := h.at_acquire
  simp [Thread.Finished, hp]

/-- A move of the holder: it keeps a read lock until it is parked. -/
theorem Locked.holder_move {s s' : State} {w j : Nat} (hwf : Wf s) (h : Locked s w j)
    (hm : Move s j s') : 0 < (s'.thread j).held ∧
      ((s'.thread j).status = .parked ∨ nests (s'.thread j).held (s'.thread j).prog = true) := by
  have hsome : s.writer ≠ none := by simp [h.writer]
  have hne := h.not_writer hwf
  have hnest (hs : (s.thread j).status ≠ .parked) :
      nests (s.thread j).held (s.thread j).prog = true := h.nested.resolve_left hs
  cases hm with
  | wake hs ha hb =>
    rw [set_thread_self]
    exact ⟨h.holds, .inr (hnest (by simp [hs]))⟩
  | read hs hp hnone => exact absurd hnone hsome
  | park hs hp _ =>
    rw [set_thread_self]
    exact ⟨h.holds, .inl rfl⟩
  | release hs hp =>
    have hn := hnest (by simp [hs])
    rw [hp, nests_runlock h.holds] at hn
    rw [set_thread_self]
    exact ⟨held_pos_of_nests hn, .inr hn⟩
  | announce hs hp hnone => exact absurd hnone hsome
  | acquire hs hp hfree => exact absurd (hwf.writer_acquire hp) hne
  | unlock hs hp => exact absurd (hwf.writer_unlock hp) hne
  | fork hs hp =>
    have hn := hnest (by simp [hs])
    rw [hp, nests_fork h.holds] at hn
    rw [set_thread_self]
    exact ⟨h.holds, .inr hn⟩
  | go hs hp =>
    have hn := hnest (by simp [hs])
    rw [hp, nests_go h.holds] at hn
    rw [set_thread_self]
    exact ⟨h.holds, .inr hn⟩

theorem Locked.writer_blocked {s : State} {w j : Nat} (hwf : Wf s) (h : Locked s w j) :
    advance s w = none := by
  obtain ⟨k, hp⟩ := h.at_acquire
  have hs := ((hwf.threads w).writes h.writer).2.1
  simp only [advance, hs, hp]
  exact if_neg fun hfree => absurd (hfree j (hwf.lt_count (h.holder_unfinished hwf))) (Nat.ne_of_gt h.holds)

/-- Nothing any thread does ends the deadlock. -/
theorem Locked.step {s s' : State} {i w j : Nat} (hwf : Wf s) (h : Locked s w j)
    (hstep : advance s i = some s') : Locked s' w j ∧ s'.thread w = s.thread w ∧
      ((s.thread j).status = .parked → s'.thread j = s.thread j) := by
  have hm := move_of_advance hstep
  have hiw : i ≠ w := by
    rintro rfl
    simp [h.writer_blocked hwf] at hstep
  have hu : ∀ k, (s.thread i).prog ≠ .unlock k := by
    intro k hk
    exact hiw (Option.some.inj ((hwf.writer_unlock hk).symm.trans h.writer))
  obtain ⟨hwriter, hframe⟩ := hm.frame (by simp [h.writer]) hu
  have hthread : s'.thread w = s.thread w :=
    hframe w (hwf.lt_count h.writer_unfinished) hiw.symm
  have hj : 0 < (s'.thread j).held ∧
      ((s'.thread j).status = .parked ∨ nests (s'.thread j).held (s'.thread j).prog = true) := by
    by_cases hij : i = j
    · subst hij
      exact h.holder_move hwf hm
    · rw [hframe j (hwf.lt_count (h.holder_unfinished hwf)) (Ne.symm hij)]
      exact ⟨h.holds, h.nested⟩
  refine ⟨⟨hwriter.trans h.writer, hthread ▸ h.at_acquire, hj.1, hj.2⟩, hthread, fun hpark => ?_⟩
  have hij : j ≠ i := by
    rintro rfl
    simp [advance, hpark] at hstep
  exact hframe j (hwf.lt_count (h.holder_unfinished hwf)) hij

theorem Locked.reaches {s s' : State} {w j : Nat} (hwf : Wf s) (h : Locked s w j)
    (hreach : Reaches s s') : Wf s' ∧ Locked s' w j ∧ s'.thread w = s.thread w ∧
      ((s.thread j).status = .parked → s'.thread j = s.thread j) := by
  induction hreach with
  | refl => exact ⟨hwf, h, rfl, fun _ => rfl⟩
  | tail _ hnext ih =>
    obtain ⟨hwf₁, h₁, hw₁, hj₁⟩ := ih
    obtain ⟨i, hstep⟩ := hnext
    obtain ⟨h₂, hw₂, hj₂⟩ := h₁.step hwf₁ hstep
    refine ⟨hwf₁.step hstep, h₂, hw₂.trans hw₁, fun hpark => ?_⟩
    exact (hj₂ (hj₁ hpark ▸ hpark)).trans (hj₁ hpark)

/-- A writer and a parked holder of a read lock wait for each other for good. -/
theorem Locked.waitsForever {s : State} {w j : Nat} (hwf : Wf s) (h : Locked s w j)
    (hpark : (s.thread j).status = .parked) : WaitsForever s w ∧ WaitsForever s j :=
  ⟨⟨h.writer_unfinished, fun _ hreach => (h.reaches hwf hreach).2.2.1⟩,
    ⟨h.holder_unfinished hwf, fun _ hreach => (h.reaches hwf hreach).2.2.2 hpark⟩⟩

/-- A writer that does not heed the holders of read locks never gets the lock. -/
theorem announce_waitsForever {s s' : State} {i : Nat} (hwf : Wf s) (hstep : advance s i = some s')
    (hheeds : ¬ Heeds s i) : WaitsForever s' i := by
  simp only [Heeds, not_forall, Bool.not_eq_false] at hheeds
  obtain ⟨hs, ⟨k, hk⟩, j, hn⟩ := hheeds
  have hpos := held_pos_of_nests hn
  cases hw : s.writer with
  | some w => simp [advance, hs, hk, hw] at hstep
  | none =>
    have hok := hwf.ok_running hs (by simp [hw])
    rw [hk] at hok
    obtain ⟨hheld, k', rfl, -⟩ := hok.lock
    have hji : j ≠ i := by
      rintro rfl
      omega
    have hwf' := hwf.step hstep
    obtain rfl : { s.set i { s.thread i with prog := .acquire (.unlock k') } with
        writer := some i } = s' := by
      simpa [advance, hs, hk, hw] using hstep
    have hlocked : Locked { s.set i { s.thread i with prog := .acquire (.unlock k') } with
        writer := some i } i j := by
      refine ⟨rfl, ⟨.unlock k', ?_⟩, ?_, .inr ?_⟩
      · simp
      · simpa only [set_thread_ne s _ hji] using hpos
      · simpa only [set_thread_ne s _ hji] using hn
    exact ⟨hlocked.writer_unfinished, fun s₁ hreach => (hlocked.reaches hwf' hreach).2.2.1⟩

/-! ## A writer excludes readers -/

/-- While a thread is inside its write section nobody holds a read lock. -/
def Exclusive (s : State) : Prop :=
  ∀ w k, (s.thread w).prog = .unlock k → ∀ j, (s.thread j).held = 0

theorem start_exclusive {progs : List Prog} : Exclusive (start progs) := fun _ _ _ _ => rfl

/-- With a writer announced, a move outside its section takes no read lock. -/
theorem Move.held_le {s s' : State} {i : Nat} (hm : Move s i s') (hw : s.writer ≠ none)
    (hu : ∀ k, (s.thread i).prog ≠ .unlock k) (j : Nat) :
    (s'.thread j).held ≤ (s.thread j).held := by
  have hset (t : Thread) (ht : t.held ≤ (s.thread i).held) :
      ((s.set i t).thread j).held ≤ (s.thread j).held := by
    by_cases hj : j = i
    · subst hj
      simpa using ht
    · rw [set_thread_ne s t hj]
  have hspawn (s₁ : State) (p : Prog) : ((s₁.spawn p).thread j).held ≤ (s₁.thread j).held := by
    by_cases hj : j = s₁.count
    · subst hj
      simp
    · rw [spawn_thread_old s₁ p hj]
  have hspawned (s₁ : State) (t : Thread) (h₁ : (s₁.thread j).held ≤ (s.thread j).held)
      (ht : t.held = (s.thread i).held) : ((s₁.set i t).thread j).held ≤ (s.thread j).held := by
    by_cases hj : j = i
    · subst hj
      simp [ht]
    · rw [set_thread_ne s₁ t hj]
      exact h₁
  cases hm with
  | wake hs ha hb => exact hset _ le_rfl
  | read hs hp hnone => exact absurd hnone hw
  | park hs hp hsome => exact hset _ le_rfl
  | release hs hp => exact hset _ (Nat.sub_le _ _)
  | announce hs hp hnone => exact absurd hnone hw
  | acquire hs hp hfree => exact hset _ le_rfl
  | unlock hs hp => exact absurd hp (hu _)
  | fork hs hp => exact hspawned _ _ ((hspawn _ _).trans (hspawn _ _)) rfl
  | go hs hp => exact hspawned _ _ (hspawn _ _) rfl

/-- Only an announcement makes a writer. -/
theorem Move.writer_none {s s' : State} {i w : Nat} (hm : Move s i s') (hw : s.writer = none)
    (hw' : s'.writer = some w) : w = i ∧ ∃ k, (s.thread i).prog = .lock k ∧
      (s.thread i).status = .running ∧ (s'.thread i).prog = k := by
  cases hm with
  | announce hs hp hnone =>
    obtain rfl : i = w := Option.some.inj hw'
    exact ⟨rfl, _, hp, hs, by simp⟩
  | unlock hs hp => cases hw'
  | _ => simp [hw] at hw'

theorem Exclusive.step {s s' : State} {i : Nat} (hwf : Wf s) (h : Exclusive s)
    (hstep : advance s i = some s') : Exclusive s' := by
  intro w k hk j
  have hm := move_of_advance hstep
  have hw' : s'.writer = some w := (hwf.step hstep).writer_unlock hk
  by_cases hu : ∃ k, (s.thread i).prog = .unlock k
  · obtain ⟨k', hp⟩ := hu
    have hs := ((hwf.threads i).writes (hwf.writer_unlock hp)).2.1
    simp only [advance, hs, hp, Option.some.injEq] at hstep
    subst hstep
    cases hw'
  · push Not at hu
    cases hw : s.writer with
    | none =>
      obtain ⟨rfl, k', hp, hs, hk'⟩ := hm.writer_none hw hw'
      have hok := hwf.ok_running hs (by simp [hw])
      rw [hp] at hok
      obtain ⟨-, k'', rfl, -⟩ := hok.lock
      rw [hk'] at hk
      cases hk
    | some v =>
      have hsome : s.writer ≠ none := by simp [hw]
      obtain ⟨hwriter, hframe⟩ := hm.frame hsome hu
      have hwv : s.writer = some w := hwriter.symm.trans hw'
      refine Nat.le_zero.mp ((hm.held_le hsome hu j).trans (Nat.le_zero.mpr ?_))
      by_cases hiw : w = i
      · -- the writer has just been let in
        subst hiw
        obtain ⟨-, hs, k', -, hp | hp⟩ := (hwf.threads w).writes hwv
        · by_cases hfree : ∀ j < s.count, (s.thread j).held = 0
          · by_cases hj : j < s.count
            · exact hfree j hj
            · rw [hwf.fresh j (by omega)]
              rfl
          · simp only [advance, hs, hp, if_neg hfree] at hstep
            cases hstep
        · exact absurd hp (hu _)
      · have hlt : w < s.count := by
          refine hwf.lt_count ?_
          obtain ⟨-, -, k', -, hp | hp⟩ := (hwf.threads w).writes hwv
          · simp [Thread.Finished, hp]
          · simp [Thread.Finished, hp]
        exact h w k (hframe w hlt hiw ▸ hk) j

/-! ## Waiting for a write with a read lock held -/

/-- Run with `h` read locks held, the program waits for a write while it holds one. -/
def waitsForWrite : Nat → Prog → Bool
  | _, .done => false
  | h, .rlock k => waitsForWrite (h + 1) k
  | h, .runlock k => waitsForWrite (h - 1) k
  | h, .lock k => waitsForWrite h k
  | h, .acquire k => waitsForWrite h k
  | h, .unlock k => waitsForWrite h k
  | h, .fork a b k =>
    decide (0 < h) && (!writeFree a || !writeFree b) || waitsForWrite h k
  | h, .go _ k => waitsForWrite h k

theorem waitsForWrite_forkAll {h : Nat} (hh : 0 < h) (as : List Prog) (k : Prog) :
    waitsForWrite h (.forkAll as k) = (!as.all writeFree || waitsForWrite h k) := by
  cases as with
  | nil => simp [Prog.forkAll]
  | cons a as => simp [Prog.forkAll, waitsForWrite, writeFree_forkAll, writeFree, hh]

/-- Thread `i` will wait for a write with a read lock held, or does. -/
def Doomed (s : State) (i : Nat) : Prop :=
  waitsForWrite ((s.thread i).held + (s.thread i).owed) (s.thread i).prog = true ∨
    0 < (s.thread i).held ∧ ∃ a b, (s.thread i).status = .waiting a b ∧ (Owes s a ∨ Owes s b)

theorem Doomed.unfinished {s : State} {i : Nat} (h : Doomed s i) : ¬ (s.thread i).Finished := by
  rintro ⟨hp, hs⟩
  rcases h with h | ⟨-, a, b, hw, -⟩
  · simp [hp, waitsForWrite] at h
  · simp [hs] at hw

/-- While a read lock is held nobody enters a write section, and nobody leaves one. -/
theorem Exclusive.no_write {s : State} (h : Exclusive s) (hwf : Wf s) {i : Nat}
    (hheld : 0 < (s.thread i).held) (j : Nat) :
    (∀ k, (s.thread j).prog ≠ .unlock k) ∧ ¬ ∀ t < s.count, (s.thread t).held = 0 := by
  constructor
  · intro k hk
    have := h j k hk i
    omega
  · intro hfree
    by_cases hi : i < s.count
    · have := hfree i hi
      omega
    · rw [hwf.fresh i (by omega)] at hheld
      simp [idle] at hheld

/-- A waiting thread stays as it is until what it waits for has finished. -/
theorem Move.keeps_waiting {s s' : State} {j t a b : Nat} (hm : Move s j s') (ht : t < s.count)
    (hs : (s.thread t).status = .waiting a b) :
    s'.thread t = s.thread t ∨ (s.thread a).Finished ∧ (s.thread b).Finished := by
  by_cases hne : t = j
  · subst hne
    cases hm with
    | wake hs' ha hb =>
      obtain ⟨rfl, rfl⟩ := Status.waiting.inj (hs.symm.trans hs')
      exact .inr ⟨ha, hb⟩
    | read hs' | park hs' | release hs' | announce hs' | acquire hs' | unlock hs' | fork hs'
    | go hs' => simp [hs] at hs'
  · rcases hm.other ht hne with h | h
    · exact .inl h
    · left
      rw [h, grant, if_neg (by simp [hs])]

/-- A move of a thread that has to write. -/
theorem Move.owes {s s' : State} {t : Nat} (hm : Move s t s') (hwf : Wf s) (ht : t < s.count)
    (hunlock : ∀ k, (s.thread t).prog ≠ .unlock k)
    (hfree : ¬ ∀ j < s.count, (s.thread j).held = 0)
    (h : RWMutex.writeFree (s.thread t).prog = false) : Owes s' t := by
  cases hm with
  | wake hs ha hb => exact .own (by simpa using h)
  | read hs hp hnone => exact .own (by simpa [hp, RWMutex.writeFree] using h)
  | park hs hp hsome => exact .own (by simpa [hp, RWMutex.writeFree] using h)
  | release hs hp => exact .own (by simpa [hp, RWMutex.writeFree] using h)
  | announce hs hp hnone =>
    have hok := hwf.ok_running hs (by simp [hnone])
    rw [hp] at hok
    obtain ⟨-, k', rfl, -⟩ := hok.lock
    exact .own (by simp [RWMutex.writeFree])
  | acquire hs hp hfree' => exact absurd hfree' hfree
  | unlock hs hp => exact absurd hp (hunlock _)
  | @fork p q k hs hp =>
    obtain ⟨hnewp, hnewq⟩ := fork_threads ht p q
      { s.thread t with prog := k, status := .waiting s.count (s.count + 1) }
    have hstatus : ((((s.spawn p).spawn q).set t { s.thread t with
        prog := k, status := .waiting s.count (s.count + 1) }).thread t).status =
        .waiting s.count (s.count + 1) := by simp
    simp only [hp, RWMutex.writeFree, Bool.and_eq_false_iff] at h
    rcases h with (h | h) | h
    · exact .left hstatus (.own (by simpa [hnewp] using h))
    · exact .right hstatus (.own (by simpa [hnewq] using h))
    · exact .own (by simpa using h)
  | go hs hp => exact .own (by simpa [hp, RWMutex.writeFree] using h)

/-- A thread that has to write, or waits for one, keeps having to. -/
theorem Owes.step {s s' : State} {i j t : Nat} (hwf : Wf s) (hex : Exclusive s)
    (hheld : 0 < (s.thread i).held) (hstep : advance s j = some s') (h : Owes s t) :
    Owes s' t := by
  obtain ⟨hunlock, hfree⟩ := hex.no_write hwf hheld j
  have hm := move_of_advance hstep
  induction h with
  | @own t h =>
    have ht := hwf.lt_count (Owes.own h).unfinished
    by_cases hne : t = j
    · subst hne
      exact hm.owes hwf ht hunlock hfree h
    · rcases hm.other ht hne with heq | heq
      · exact .own (heq ▸ h)
      · exact .own (by rw [heq, grant_prog]; exact h)
  | @left t a b hs h ih =>
    have ht := hwf.lt_count (Owes.left hs h).unfinished
    rcases hm.keeps_waiting ht hs with heq | ⟨ha, -⟩
    · exact .left (heq ▸ hs) ih
    · exact absurd ha h.unfinished
  | @right t a b hs h ih =>
    have ht := hwf.lt_count (Owes.right hs h).unfinished
    rcases hm.keeps_waiting ht hs with heq | ⟨-, hb⟩
    · exact .right (heq ▸ hs) ih
    · exact absurd hb h.unfinished

/-- A move of a thread that will wait for a write. -/
theorem Move.doomed {s s' : State} {i : Nat} (hm : Move s i s') (hi : i < s.count)
    (h : waitsForWrite ((s.thread i).held + (s.thread i).owed) (s.thread i).prog = true) :
    Doomed s' i := by
  cases hm with
  | wake hs ha hb => exact .inl (by simpa [Thread.owed, hs] using h)
  | read hs hp hnone => exact .inl (by simpa [Thread.owed, hs, hp, waitsForWrite] using h)
  | park hs hp hsome => exact .inl (by simpa [Thread.owed, hs, hp, waitsForWrite] using h)
  | release hs hp => exact .inl (by simpa [Thread.owed, hs, hp, waitsForWrite] using h)
  | announce hs hp hnone => exact .inl (by simpa [Thread.owed, hs, hp, waitsForWrite] using h)
  | acquire hs hp hfree => exact .inl (by simpa [Thread.owed, hs, hp, waitsForWrite] using h)
  | unlock hs hp => exact .inl (by simpa [Thread.owed, grant, hs, hp, waitsForWrite] using h)
  | @fork p q k hs hp =>
    obtain ⟨hnewp, hnewq⟩ := fork_threads hi p q
      { s.thread i with prog := k, status := .waiting s.count (s.count + 1) }
    rw [owed_running hs, hp] at h
    simp only [waitsForWrite, Nat.add_zero, Bool.or_eq_true, Bool.and_eq_true, Bool.not_eq_true',
      decide_eq_true_eq] at h
    rcases h with ⟨hheld, h⟩ | h
    · refine .inr ⟨by simpa using hheld, s.count, s.count + 1, by simp, ?_⟩
      exact h.imp (fun h => .own (by simpa [hnewp] using h)) fun h => .own (by simpa [hnewq] using h)
    · exact .inl (by simpa [Thread.owed] using h)
  | go hs hp => exact .inl (by simpa [Thread.owed, hs, hp, waitsForWrite] using h)

/-- A doomed thread stays doomed. -/
theorem Doomed.step {s s' : State} {i j : Nat} (hwf : Wf s) (hex : Exclusive s)
    (hstep : advance s j = some s') (h : Doomed s i) : Doomed s' i := by
  have hm := move_of_advance hstep
  have hi := hwf.lt_count h.unfinished
  rcases h with h | ⟨hheld, a, b, hs, howes⟩
  · by_cases hne : i = j
    · subst hne
      exact hm.doomed hi h
    · left
      rcases hm.other hi hne with heq | heq
      · rw [heq]
        exact h
      · rw [heq, grant_held_owed, grant_prog]
        exact h
  · rcases hm.keeps_waiting hi hs with heq | ⟨ha, hb⟩
    · refine .inr ⟨heq ▸ hheld, a, b, heq ▸ hs, ?_⟩
      exact howes.imp (·.step hwf hex hheld hstep) (·.step hwf hex hheld hstep)
    · rcases howes with howes | howes
      · exact absurd ha howes.unfinished
      · exact absurd hb howes.unfinished

/-- A thread that waits for a write with a read lock held never finishes. -/
theorem Doomed.never_finishes {s s' : State} {i : Nat} (hwf : Wf s) (hex : Exclusive s)
    (h : Doomed s i) (hreach : Reaches s s') : ¬ (s'.thread i).Finished := by
  have hkeeps : Wf s' ∧ Exclusive s' ∧ Doomed s' i := by
    induction hreach with
    | refl => exact ⟨hwf, hex, h⟩
    | tail _ hnext ih =>
      obtain ⟨hwf₁, hex₁, h₁⟩ := ih
      obtain ⟨j, hstep⟩ := hnext
      exact ⟨hwf₁.step hstep, hex₁.step hwf₁ hstep, h₁.step hwf₁ hex₁ hstep⟩
  exact hkeeps.2.2.unfinished

end SniShaper.RWMutex
