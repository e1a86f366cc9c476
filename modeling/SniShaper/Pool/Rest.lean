import SniShaper.Pool.Cloudflare

/-! The active list of the pool when nothing is under way. Whoever changes a record or the map
goes on to make the active list anew, except `ReportSuccess`: it takes back a failure and
leaves the list as it is.

* `Settled.step`: between two rebuilds the list lacks exactly what `ReportSuccess` brought back;
* `atRest_exact_iff`: when the list is right in a pool at rest. -/

namespace SniShaper.Pool

open Machine

/-! ## Rebuilds to come -/

/-- The tasks that end with a rebuild. A check that has not read the map may find nothing to
test, and then ends without one. -/
def Task.promises : Task → Bool
  | .checkIPs _ => true
  | .rebuildActiveIPs => true
  | _ => false

/-- A rebuild is still to come. -/
def CloudflarePool.Owed (p : CloudflarePool) : Prop := ∃ t ∈ p.tasks, t.promises = true

theorem owed_set {p : CloudflarePool} {i : Nat} {t : Task} (hi : i < p.tasks.length)
    (ht : t.promises = true) : ∃ t' ∈ p.tasks.set i t, t'.promises = true :=
  ⟨t, List.mem_set hi t, ht⟩

theorem afterTest_promises (todo : List String) : (afterTest todo).promises = true := by
  unfold afterTest
  split <;> rfl

/-- Removing a task that promises nothing. -/
theorem owed_eraseIdx {p : CloudflarePool} {i : Nat} {t : Task} (ht : p.tasks[i]? = some t)
    (hno : t.promises = false) (h : p.Owed) : ∃ t' ∈ p.tasks.eraseIdx i, t'.promises = true := by
  obtain ⟨t', hmem, hyes⟩ := h
  obtain ⟨j, hj⟩ := List.mem_iff_getElem?.mp hmem
  refine ⟨t', List.mem_eraseIdx_iff_getElem?.mpr ⟨j, ?_, hj⟩, hyes⟩
  rintro rfl
  rw [hj] at ht
  obtain rfl := Option.some.inj ht
  rw [hyes] at hno
  cases hno

/-- A check that reads the map goes on to a rebuild, or leaves everything as it is. -/
theorem beginCheck_quiet {p : CloudflarePool} {i : Nat} {t : Task} (ht : p.tasks[i]? = some t)
    (hno : t.promises = false) (ips : List String) (howed : ¬ (beginCheck p i ips).Owed) :
    ¬ p.Owed := by
  intro h
  refine howed ?_
  unfold beginCheck
  split
  · exact owed_eraseIdx ht hno h
  · obtain ⟨hi, -⟩ := List.getElem?_eq_some_iff.mp ht
    exact owed_set hi rfl

/-- A section after which no rebuild is to come has changed nothing, unless it was one of
`ReportSuccess`. -/
theorem step_quiet {p p' : CloudflarePool} {e : Event} (h : step p e = some p')
    (he : e.rebuilds = false) (hne : ∀ ip, e ≠ .reportSuccess ip) (howed : ¬ p'.Owed) :
    ¬ p.Owed ∧ ∃ tasks, p' = { p with tasks := tasks } := by
  cases e with
  | updateIPs ips order => cases he
  | rebuildActiveIPs i order => cases he
  | reportSuccess ip => exact absurd rfl (hne ip)
  | reportFailure ip =>
    obtain rfl := Option.some.inj h
    refine absurd ⟨.rebuildActiveIPs, ?_, rfl⟩ howed
    unfold reportFailure
    split <;> simp
  | removeInvalidIPs =>
    obtain rfl := Option.some.inj h
    unfold removeInvalidIPs at howed ⊢
    split
    · rename_i hany
      rw [if_pos hany] at howed
      exact absurd ⟨.rebuildActiveIPs, by simp, rfl⟩ howed
    · rename_i hany
      rw [if_neg hany] at howed
      exact ⟨howed, p.tasks, rfl⟩
  | checkAllIPs =>
    obtain rfl := Option.some.inj h
    exact ⟨fun ⟨t, ht, hyes⟩ => howed ⟨t, List.mem_append_left _ ht, hyes⟩, _, rfl⟩
  | checkIncremental =>
    obtain rfl := Option.some.inj h
    exact ⟨fun ⟨t, ht, hyes⟩ => howed ⟨t, List.mem_append_left _ ht, hyes⟩, _, rfl⟩
  | readIPs i now =>
    refine ⟨?_, readIPs_eq h⟩
    simp only [step, readIPs] at h
    split at h
    · rename_i ht
      obtain rfl := Option.some.inj h
      exact beginCheck_quiet ht rfl _ howed
    · rename_i ht
      obtain rfl := Option.some.inj h
      exact beginCheck_quiet ht rfl _ howed
    · cases h
  | finishTest i targetIP latency now =>
    simp only [step, finishTest] at h
    split at h
    · rename_i todo ht
      obtain ⟨hi, -⟩ := List.getElem?_eq_some_iff.mp ht
      have hset := owed_set hi (afterTest_promises (todo.erase targetIP))
      split at h
      · split at h
        · obtain rfl := Option.some.inj h
          exact absurd hset howed
        · obtain rfl := Option.some.inj h
          exact absurd hset howed
      · cases h
    · cases h

/-! ## What the list lacks -/

/-- The call takes back the third failure of the record `r`, whose latency is known. -/
def Revives (p : CloudflarePool) (ip : String) (r : Nat) : Prop :=
  p.allIPs.lookup ip = some r ∧ (p.heap r).failures = 3 ∧ 0 < (p.heap r).latencyVal

/-- The record was brought back by a `ReportSuccess` since the list was made. -/
def Unlisted (trace : List Event) (r : Nat) : Prop :=
  ∃ pre ip post q, trace = pre ++ .reportSuccess ip :: post ∧ Reaches pre q ∧ Revives q ip r ∧
    ∀ e ∈ post, e.rebuilds = false

theorem unlisted_concat {trace : List Event} {p : CloudflarePool} (hp : Reaches trace p)
    {e : Event} {r : Nat} :
    Unlisted (trace ++ [e]) r ↔
      (e.rebuilds = false ∧ Unlisted trace r) ∨ ∃ ip, e = .reportSuccess ip ∧ Revives p ip r := by
  constructor
  · rintro ⟨pre, ip, post, q, heq, hq, hrevives, hpost⟩
    rcases Machine.concat_eq_append_cons.mp heq with ⟨rfl, rfl, rfl⟩ | ⟨post', rfl, rfl⟩
    · obtain rfl : p = q := Option.some.inj (hp.symm.trans hq)
      exact .inr ⟨ip, rfl, hrevives⟩
    · refine .inl ⟨hpost e (by simp), pre, ip, post', q, rfl, hq, hrevives, fun e' he' => ?_⟩
      exact hpost e' (by simp [he'])
  · rintro (⟨he, pre, ip, post, q, rfl, hq, hrevives, hpost⟩ | ⟨ip, rfl, hrevives⟩)
    · refine ⟨pre, ip, post ++ [e], q, by simp, hq, hrevives, fun e' he' => ?_⟩
      rcases List.mem_append.mp he' with hmem | hmem
      · exact hpost e' hmem
      · rwa [List.mem_singleton.mp hmem]
    · exact ⟨trace, ip, [], p, rfl, hp, hrevives, by simp⟩

/-- What `ReportSuccess` leaves, and the one record that can become healthy by it. -/
theorem reportSuccess_spec (p : CloudflarePool) (ip : String) :
    (reportSuccess p ip).allIPs = p.allIPs ∧ (reportSuccess p ip).tasks = p.tasks ∧
      (∀ r, ((reportSuccess p ip).heap r).latencyVal = (p.heap r).latencyVal) ∧
      ∀ r, r ∈ (reportSuccess p ip).healthyIPs ↔ r ∈ p.healthyIPs ∨ Revives p ip r := by
  have hsame : ∀ r, ¬ Revives p ip r → (r ∈ p.healthyIPs ↔ r ∈ p.healthyIPs ∨ Revives p ip r) := by
    intro r hnot
    simp [hnot]
  unfold reportSuccess
  split
  · rename_i hnone
    refine ⟨rfl, rfl, fun _ => rfl, fun r => hsame r fun h => ?_⟩
    rw [h.1] at hnone
    cases hnone
  · rename_i r₀ hr₀
    simp only
    split
    · rename_i hpos
      refine ⟨rfl, rfl, fun r => ?_, fun r => ?_⟩
      · by_cases heq : r = r₀
        · subst heq
          simp
        · simp [heq]
      · by_cases heq : r = r₀
        · subst heq
          simp only [mem_healthyIPs, IPStats.healthy_iff, Revives, Function.update_self, hr₀,
            true_and]
          have hin : ∃ ip, p.allIPs.lookup ip = some r := ⟨ip, hr₀⟩
          simp only [hin, true_and]
          omega
        · have hnot : ¬ Revives p ip r := by
            rintro ⟨h, -⟩
            rw [hr₀] at h
            exact heq (Option.some.inj h).symm
          rw [← hsame r hnot]
          simp only [mem_healthyIPs, Function.update_of_ne heq]
    · rename_i hpos
      refine ⟨rfl, rfl, fun _ => rfl, fun r => hsame r fun h => ?_⟩
      rw [h.1] at hr₀
      obtain rfl := Option.some.inj hr₀
      exact hpos (by rw [h.2.1]; decide)

/-! ## Between two rebuilds -/

/-- The active list since it was made: sorted, and without the records that were brought back
since. -/
structure Settled (trace : List Event) (p : CloudflarePool) : Prop where
  nodup : p.activeIPs.Nodup
  sorted : p.activeIPs.Pairwise fun a b => (p.heap a).latencyVal ≤ (p.heap b).latencyVal
  mem_iff : ∀ r, r ∈ p.activeIPs ↔ r ∈ p.healthyIPs ∧ ¬ Unlisted trace r
  healthy : ∀ r, Unlisted trace r → r ∈ p.healthyIPs

theorem settled_empty : Settled [] {} := by
  have hnone : ∀ r, ¬ Unlisted [] r := by
    rintro r ⟨pre, ip, post, q, heq, -⟩
    simp at heq
  refine ⟨List.nodup_nil, List.Pairwise.nil, fun r => ?_, fun r h => absurd h (hnone r)⟩
  simp [CloudflarePool.healthyIPs]

/-- A list that was just made is settled. -/
theorem settled_of_sorts {trace : List Event} {p p' : CloudflarePool} (hp : Reaches trace p)
    {e : Event} (he : e.rebuilds = true) (hwf : p'.WellFormed) (hsorts : p'.Sorts p'.activeIPs) :
    Settled (trace ++ [e]) p' := by
  have hnone : ∀ r, ¬ Unlisted (trace ++ [e]) r := by
    intro r h
    rcases (unlisted_concat hp).mp h with ⟨hno, -⟩ | ⟨ip, rfl, -⟩
    · rw [he] at hno
      cases hno
    · cases he
  refine ⟨(hsorts.nodup hwf).of_map, hsorts.2, fun r => ?_, fun r h => absurd h (hnone r)⟩
  rw [hsorts.1.mem_iff]
  exact (and_iff_left (hnone r)).symm

theorem Settled.reportSuccess {trace : List Event} {p : CloudflarePool} (hp : Reaches trace p)
    (h : Settled trace p) (ip : String) :
    Settled (trace ++ [.reportSuccess ip]) (reportSuccess p ip) := by
  obtain ⟨-, -, hlatency, hhealthy⟩ := reportSuccess_spec p ip
  have hactive := (reportSuccess_keeps p ip).activeIPs
  have hunlisted : ∀ r, Unlisted (trace ++ [.reportSuccess ip]) r ↔
      Unlisted trace r ∨ Revives p ip r := by
    intro r
    rw [unlisted_concat hp]
    simp [Event.rebuilds]
  refine ⟨?_, ?_, fun r => ?_, fun r hr => ?_⟩
  · rw [hactive]
    exact h.nodup
  · rw [hactive]
    simpa only [hlatency] using h.sorted
  · rw [hactive, h.mem_iff, hhealthy, hunlisted]
    constructor
    · rintro ⟨hin, hnot⟩
      refine ⟨.inl hin, fun hor => ?_⟩
      rcases hor with hun | hrevives
      · exact hnot hun
      · have hfew := ((p.heap r).healthy_iff.mp (mem_healthyIPs.mp hin).2).2
        rw [hrevives.2.1] at hfew
        exact absurd hfew (by decide)
    · rintro ⟨hin | hrevives, hnot⟩
      · exact ⟨hin, fun hun => hnot (Or.inl hun)⟩
      · exact absurd (Or.inr hrevives) hnot
  · rw [hhealthy]
    rcases (hunlisted r).mp hr with hun | hrevives
    · exact .inl (h.healthy r hun)
    · exact .inr hrevives

/-- Either a rebuild is to come, or the list is settled. -/
theorem owed_or_settled {trace : List Event} {p : CloudflarePool} (h : Reaches trace p) :
    p.Owed ∨ Settled trace p := by
  refine exec_invariant (I := fun trace p => p.Owed ∨ Settled trace p) h (.inr settled_empty)
    fun trace p e p' hp hor hstep => ?_
  cases he : e.rebuilds with
  | true =>
    obtain ⟨hwf, hsorts, -⟩ := step_rebuilds hstep he (Reaches.inv hp).wellFormed
    exact .inr (settled_of_sorts hp he hwf hsorts)
  | false =>
    by_cases howed : p'.Owed
    · exact .inl howed
    · right
      by_cases hsuccess : ∃ ip, e = .reportSuccess ip
      · obtain ⟨ip, rfl⟩ := hsuccess
        obtain rfl := Option.some.inj hstep
        rw [CloudflarePool.Owed, (reportSuccess_spec p ip).2.1] at howed
        exact (hor.resolve_left howed).reportSuccess hp ip
      · push Not at hsuccess
        obtain ⟨hnot, tasks, rfl⟩ := step_quiet hstep he hsuccess howed
        have hsettled := hor.resolve_left hnot
        have hunlisted : ∀ r, Unlisted (trace ++ [e]) r ↔ Unlisted trace r := by
          intro r
          rw [unlisted_concat hp]
          simp [he, hsuccess]
        refine ⟨hsettled.nodup, hsettled.sorted, fun r => ?_, fun r hr => ?_⟩
        · rw [hunlisted]
          exact hsettled.mem_iff r
        · exact hsettled.healthy r ((hunlisted r).mp hr)

/-- **At rest.** When no call and no check is under way, the active list has exactly the
entries of the map with a latency and less than three failures, each once and by rising
latency, exactly when after every `ReportSuccess` that took back the third failure of an entry
with a latency the list was made anew. -/
theorem atRest_exact_iff {trace : List Event} {p : CloudflarePool} (h : Reaches trace p)
    (hrest : p.tasks = []) :
    p.Sorts p.activeIPs ↔
      ∀ pre ip post q r, trace = pre ++ .reportSuccess ip :: post → Reaches pre q →
        Revives q ip r → ∃ e ∈ post, e.rebuilds = true := by
  have howed : ¬ p.Owed := by
    rintro ⟨t, ht, -⟩
    rw [hrest] at ht
    cases ht
  have hsettled := (owed_or_settled h).resolve_left howed
  have hnodup : p.healthyIPs.Nodup := (healthyIPs_nodup h.inv.wellFormed).of_map
  constructor
  · intro hsorts pre ip post q r heq hq hrevives
    by_contra hnone
    push Not at hnone
    have hun : Unlisted trace r :=
      ⟨pre, ip, post, q, heq, hq, hrevives, fun e he => by simpa using hnone e he⟩
    have hin : r ∈ p.activeIPs := hsorts.1.mem_iff.mpr (hsettled.healthy r hun)
    exact ((hsettled.mem_iff r).mp hin).2 hun
  · intro hrebuilt
    have hnone : ∀ r, ¬ Unlisted trace r := by
      rintro r ⟨pre, ip, post, q, heq, hq, hrevives, hpost⟩
      obtain ⟨e, he, hyes⟩ := hrebuilt pre ip post q r heq hq hrevives
      rw [hpost e he] at hyes
      cases hyes
    refine ⟨(List.perm_ext_iff_of_nodup hsettled.nodup hnodup).mpr fun r => ?_, hsettled.sorted⟩
    rw [hsettled.mem_iff]
    exact and_iff_left (hnone r)

/-- An address is tested, and fails three times. Two successes come before the two checks
that the failures started read the map, and find nothing to test. -/
def revived : List Event :=
  [.updateIPs ["192.0.2.1"] [], .readIPs 0 0, .finishTest 0 "192.0.2.1" (some 5) 0,
    .rebuildActiveIPs 0 [0],
    .reportFailure "192.0.2.1", .rebuildActiveIPs 0 [0],
    .reportFailure "192.0.2.1", .rebuildActiveIPs 1 [0],
    .reportFailure "192.0.2.1", .rebuildActiveIPs 2 [],
    .reportSuccess "192.0.2.1", .reportSuccess "192.0.2.1",
    .readIPs 0 1, .readIPs 0 1]

/-- The pool is at rest, its only address has a latency and one failure, and the active list
is empty. -/
theorem revived_not_exact :
    ∃ p, Reaches revived p ∧ p.tasks = [] ∧ p.healthyIPs = [0] ∧ p.activeIPs = [] ∧
      ¬ p.Sorts p.activeIPs := by
  have hrun : (exec step {} revived).map (fun p => (p.tasks, p.healthyIPs, p.activeIPs)) =
      some ([], [0], []) := by decide
  obtain ⟨p, hp, hfields⟩ := Option.map_eq_some_iff.mp hrun
  obtain ⟨htasks, hhealthy, hactive⟩ :
      p.tasks = [] ∧ p.healthyIPs = [0] ∧ p.activeIPs = [] := by simpa using hfields
  refine ⟨p, hp, htasks, hhealthy, hactive, fun hsorts => ?_⟩
  have hperm := hsorts.1
  rw [hhealthy, hactive] at hperm
  simp at hperm

/-- One success less: the first check finds two failures, tests the address and goes on to a
rebuild. -/
def rechecked : List Event :=
  [.updateIPs ["192.0.2.1"] [], .readIPs 0 0, .finishTest 0 "192.0.2.1" (some 5) 0,
    .rebuildActiveIPs 0 [0],
    .reportFailure "192.0.2.1", .rebuildActiveIPs 0 [0],
    .reportFailure "192.0.2.1", .rebuildActiveIPs 1 [0],
    .reportFailure "192.0.2.1", .rebuildActiveIPs 2 [],
    .reportSuccess "192.0.2.1",
    .readIPs 0 1, .finishTest 0 "192.0.2.1" (some 7) 1, .rebuildActiveIPs 0 [0], .readIPs 0 1]

theorem rechecked_exact :
    ∃ p, Reaches rechecked p ∧ p.tasks = [] ∧ p.activeIPs = [0] ∧ p.Sorts p.activeIPs := by
  have hrun : (exec step {} rechecked).map (fun p => (p.tasks, p.activeIPs)) =
      some ([], [0]) := by decide
  have hrebuilt : ∀ n < rechecked.length, rechecked[n]? = some (.reportSuccess "192.0.2.1") →
      ∃ e ∈ rechecked.drop (n + 1), e.rebuilds = true := by decide
  obtain ⟨p, hp, hfields⟩ := Option.map_eq_some_iff.mp hrun
  obtain ⟨htasks, hactive⟩ : p.tasks = [] ∧ p.activeIPs = [0] := by simpa using hfields
  refine ⟨p, hp, htasks, hactive, (atRest_exact_iff hp htasks).mpr ?_⟩
  intro pre ip post q r heq _ _
  have hget : rechecked[pre.length]? = some (.reportSuccess ip) := by simp [heq]
  obtain rfl : ip = "192.0.2.1" := by
    have hmem := List.mem_of_getElem? hget
    simpa [rechecked] using hmem
  have hdrop : rechecked.drop (pre.length + 1) = post := by simp [heq]
  rw [← hdrop]
  exact hrebuilt pre.length (by simp [heq]) hget

end SniShaper.Pool
