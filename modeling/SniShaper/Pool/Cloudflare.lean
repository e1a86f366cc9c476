import Mathlib.Data.List.AList
import SniShaper.Go.Strings
import SniShaper.Lib.Machine

/-! The pool of Cloudflare addresses (`proxy/cf_pool.go`). The records of the addresses are
shared by pointer between the map and the list of active ones, so they lie in a heap.

A run is an interleaving of the sections that the functions run under the lock of the pool.
What is still to come of a call, or of a check that was started, is a task; a check tests its
addresses when the scheduler lets it, and every test may end in any way. In which order a map
is read, and how equal latencies are sorted, is left open.

* `Inv.step`: the map, the records and the active list stay in step with the latest list;
* `getTopIPs_current`: what is handed out is in the latest list. -/

namespace SniShaper.Pool

open Strings Machine

structure IPStats where
  ip : String := ""
  failures : Int := 0
  latencyVal : Int := 0
  /-- `none` is the zero time. -/
  lastCheckTime : Option Int := none
  deriving DecidableEq, Repr

/-- What calls and checks still have to do. -/
inductive Task where
  /-- `checkAllIPs`, before it reads the map -/
  | checkAllIPs
  /-- `checkIncremental`, before it reads the map -/
  | checkIncremental
  /-- `checkIPs`, with the addresses whose test has not ended -/
  | checkIPs (todo : List String)
  | rebuildActiveIPs
  deriving DecidableEq, Repr

/-- A pointer is a number of the heap. -/
structure CloudflarePool where
  heap : Nat → IPStats := fun _ => {}
  next : Nat := 0
  allIPs : AList (fun _ : String => Nat) := ∅
  activeIPs : List Nat := []
  tasks : List Task := []

/-! ## The source's functions -/

/-- Addition of 64-bit integers. -/
def wrap (n : Int) : Int := n.bmod 18446744073709551616

def second : Int := 1000000000

def thirtyMinutes : Int := 1800 * second

def IPStats.healthy (stats : IPStats) : Bool := 0 < stats.latencyVal && stats.failures < 3

/-- The entries that `rebuildActiveIPs` collects. -/
def CloudflarePool.healthyIPs (p : CloudflarePool) : List Nat :=
  (p.allIPs.entries.map Sigma.snd).filter fun r => (p.heap r).healthy

/-- The entries in an order in which `sort.Slice` can leave them. -/
def CloudflarePool.Sorts (p : CloudflarePool) (order : List Nat) : Prop :=
  order.Perm p.healthyIPs ∧
    order.Pairwise fun a b => (p.heap a).latencyVal ≤ (p.heap b).latencyVal

instance (p : CloudflarePool) (order : List Nat) : Decidable (p.Sorts order) :=
  inferInstanceAs (Decidable (_ ∧ _))

/-- `&IPStats{IP: ip}` -/
def CloudflarePool.alloc (p : CloudflarePool) (ip : String) : CloudflarePool :=
  { p with heap := Function.update p.heap p.next { ip := ip }, next := p.next + 1 }

/-- One address of `UpdateIPs`: a record of the old map is kept. -/
def putIP (old : AList fun _ : String => Nat) (p : CloudflarePool) (ip : String) :
    CloudflarePool :=
  let ip := trimSpace ip
  if ip = "" then p
  else match old.lookup ip with
    | some r => { p with allIPs := p.allIPs.insert ip r }
    | none => { p.alloc ip with allIPs := p.allIPs.insert ip p.next }

/-- The new map of `UpdateIPs`. -/
def replaceIPs (p : CloudflarePool) (ips : List String) : CloudflarePool :=
  ips.foldl (putIP p.allIPs) { p with allIPs := ∅ }

/-- `order` is the active list it ends with. -/
def updateIPs (p : CloudflarePool) (ips : List String) (order : List Nat) :
    Option CloudflarePool :=
  let p := replaceIPs p ips
  if p.Sorts order then
    some { p with activeIPs := order, tasks := p.tasks ++ [.checkAllIPs] }
  else none

/-- Up to `n` addresses; `keys` are those of the map in the order they are read. -/
def getTopIPs (p : CloudflarePool) (keys : List String) (n : Nat) : List String :=
  if p.activeIPs = [] then keys.take (max n 1)
  else (p.activeIPs.take n).map fun r => (p.heap r).ip

/-- The map without the entries that failed three times. -/
def validIPs (p : CloudflarePool) : AList fun _ : String => Nat where
  entries := p.allIPs.entries.filter fun e => (p.heap e.2).failures < 3
  nodupKeys := p.allIPs.nodupKeys.sublist List.filter_sublist

def removeInvalidIPs (p : CloudflarePool) : CloudflarePool :=
  if p.allIPs.entries.any fun e => 3 ≤ (p.heap e.2).failures then
    { p with allIPs := validIPs p, tasks := p.tasks ++ [.rebuildActiveIPs] }
  else p

/-- The record after a failure that was reported. -/
def IPStats.failed (stats : IPStats) : IPStats :=
  { stats with
    failures := wrap (stats.failures + 1)
    latencyVal := wrap (stats.latencyVal + second) }

def reportFailure (p : CloudflarePool) (ip : String) : CloudflarePool :=
  match p.allIPs.lookup ip with
  | none => { p with tasks := p.tasks ++ [.rebuildActiveIPs] }
  | some r =>
    let stats := (p.heap r).failed
    let checks := if 2 ≤ stats.failures then [.checkIncremental] else []
    { p with
      heap := Function.update p.heap r stats
      tasks := p.tasks ++ checks ++ [.rebuildActiveIPs] }

def reportSuccess (p : CloudflarePool) (ip : String) : CloudflarePool :=
  match p.allIPs.lookup ip with
  | none => p
  | some r =>
    let stats := p.heap r
    if 0 < stats.failures then
      { p with heap := Function.update p.heap r { stats with failures := stats.failures - 1 } }
    else p

/-- The addresses that `checkIncremental` tests. -/
def isProblematic (stats : IPStats) (now : Int) : Bool :=
  2 ≤ stats.failures ||
    match stats.lastCheckTime with
    | none => true
    | some t => thirtyMinutes < now - t

/-- A check goes on to `checkIPs`, which ends at once if there is nothing to test. -/
def beginCheck (p : CloudflarePool) (i : Nat) (ipsToCheck : List String) : CloudflarePool :=
  if ipsToCheck = [] then { p with tasks := p.tasks.eraseIdx i }
  else { p with tasks := p.tasks.set i (.checkIPs ipsToCheck) }

/-- A check reads the map. -/
def readIPs (p : CloudflarePool) (i : Nat) (now : Int) : Option CloudflarePool :=
  match p.tasks[i]? with
  | some .checkAllIPs => some (beginCheck p i p.allIPs.keys)
  | some .checkIncremental =>
    some (beginCheck p i
      ((p.allIPs.entries.filter fun e => isProblematic (p.heap e.2) now).map Sigma.fst))
  | _ => none

/-- The record after a test; `none` is a failed one. -/
def IPStats.tested (stats : IPStats) (latency : Option Int) (now : Int) : IPStats :=
  match latency with
  | none =>
    { stats with
      failures := wrap (stats.failures + 1), latencyVal := 0, lastCheckTime := some now }
  | some d => { stats with failures := 0, latencyVal := d, lastCheckTime := some now }

/-- What follows a test that ended. -/
def afterTest (todo : List String) : Task :=
  if todo = [] then .rebuildActiveIPs else .checkIPs todo

/-- A test of `checkIPs` ends. -/
def finishTest (p : CloudflarePool) (i : Nat) (targetIP : String) (latency : Option Int)
    (now : Int) : Option CloudflarePool :=
  match p.tasks[i]? with
  | some (.checkIPs todo) =>
    if targetIP ∈ todo then
      let p := { p with tasks := p.tasks.set i (afterTest (todo.erase targetIP)) }
      match p.allIPs.lookup targetIP with
      | none => some p
      | some r =>
        some { p with heap := Function.update p.heap r ((p.heap r).tested latency now) }
    else none
  | _ => none

def rebuildActiveIPs (p : CloudflarePool) (i : Nat) (order : List Nat) : Option CloudflarePool :=
  if p.tasks[i]? = some .rebuildActiveIPs ∧ p.Sorts order then
    some { p with activeIPs := order, tasks := p.tasks.eraseIdx i }
  else none

/-! ## Runs -/

/-- The sections, and the calls that start a check. -/
inductive Event where
  | updateIPs (ips : List String) (order : List Nat)
  | reportFailure (ip : String)
  | reportSuccess (ip : String)
  | removeInvalidIPs
  | checkAllIPs
  | checkIncremental
  | readIPs (i : Nat) (now : Int)
  | finishTest (i : Nat) (targetIP : String) (latency : Option Int) (now : Int)
  | rebuildActiveIPs (i : Nat) (order : List Nat)
  deriving DecidableEq, Repr

def step (p : CloudflarePool) : Event → Option CloudflarePool
  | .updateIPs ips order => updateIPs p ips order
  | .reportFailure ip => some (reportFailure p ip)
  | .reportSuccess ip => some (reportSuccess p ip)
  | .removeInvalidIPs => some (removeInvalidIPs p)
  | .checkAllIPs => some { p with tasks := p.tasks ++ [.checkAllIPs] }
  | .checkIncremental => some { p with tasks := p.tasks ++ [.checkIncremental] }
  | .readIPs i now => readIPs p i now
  | .finishTest i targetIP latency now => finishTest p i targetIP latency now
  | .rebuildActiveIPs i order => rebuildActiveIPs p i order

/-- A run of a pool that starts empty; `NewCloudflarePool` goes on with `UpdateIPs`. -/
def Reaches (trace : List Event) (p : CloudflarePool) : Prop := exec step {} trace = some p

/-- The addresses of a list as they stand in the map. -/
def trimmedIPs (ips : List String) : List String := (ips.map trimSpace).filter (· ≠ "")

def Event.ips : Event → Option (List String)
  | .updateIPs ips _ => some ips
  | _ => none

/-- The list of the latest `UpdateIPs`. -/
def latestIPs (trace : List Event) : List String := (trace.filterMap Event.ips).getLast?.getD []

theorem latestIPs_concat (trace : List Event) (e : Event) :
    latestIPs (trace ++ [e]) = e.ips.getD (latestIPs trace) := by
  unfold latestIPs
  cases h : e.ips with
  | none => simp [h]
  | some ips => simp [h]

/-! ## The map and the records -/

/-- Every entry of a map is a record with its address. -/
def CloudflarePool.Points (p : CloudflarePool) (m : AList fun _ : String => Nat) : Prop :=
  ∀ ip r, m.lookup ip = some r → r < p.next ∧ (p.heap r).ip = ip

def CloudflarePool.WellFormed (p : CloudflarePool) : Prop := p.Points p.allIPs

theorem CloudflarePool.Points.insert {p : CloudflarePool} {m : AList fun _ : String => Nat}
    (h : p.Points m) {ip : String} {r : Nat} (hr : r < p.next ∧ (p.heap r).ip = ip) :
    p.Points (m.insert ip r) := by
  intro ip' r' hlookup
  by_cases heq : ip' = ip
  · subst heq
    rw [AList.lookup_insert] at hlookup
    obtain rfl := Option.some.inj hlookup
    exact hr
  · rw [AList.lookup_insert_ne heq] at hlookup
    exact h ip' r' hlookup

theorem mem_entries_iff {m : AList fun _ : String => Nat} {e : Sigma fun _ : String => Nat} :
    e ∈ m.entries ↔ m.lookup e.1 = some e.2 :=
  AList.mem_lookup_iff.symm

theorem mem_healthyIPs {p : CloudflarePool} {r : Nat} :
    r ∈ p.healthyIPs ↔ (∃ ip, p.allIPs.lookup ip = some r) ∧ (p.heap r).healthy = true := by
  unfold CloudflarePool.healthyIPs
  rw [List.mem_filter, List.mem_map]
  refine and_congr_left fun _ => ?_
  constructor
  · rintro ⟨e, he, rfl⟩
    exact ⟨e.1, mem_entries_iff.mp he⟩
  · rintro ⟨ip, hip⟩
    exact ⟨⟨ip, r⟩, mem_entries_iff.mpr hip, rfl⟩

theorem IPStats.healthy_iff (stats : IPStats) :
    stats.healthy = true ↔ 0 < stats.latencyVal ∧ stats.failures < 3 := by
  simp [IPStats.healthy]

/-- The records of the entries have different addresses. -/
theorem healthyIPs_nodup {p : CloudflarePool} (h : p.WellFormed) :
    (p.healthyIPs.map fun r => (p.heap r).ip).Nodup := by
  have hkeys : (p.allIPs.entries.map Sigma.snd).map (fun r => (p.heap r).ip) = p.allIPs.keys := by
    rw [List.map_map]
    exact List.map_congr_left fun e he => (h _ _ (mem_entries_iff.mp he)).2
  have hsub : p.healthyIPs.Sublist (p.allIPs.entries.map Sigma.snd) := List.filter_sublist
  exact (hkeys ▸ p.allIPs.keys_nodup).sublist (hsub.map _)

theorem CloudflarePool.Sorts.nodup {p : CloudflarePool} {order : List Nat} (h : p.Sorts order)
    (hp : p.WellFormed) : (order.map fun r => (p.heap r).ip).Nodup :=
  (h.1.map _).nodup_iff.mpr (healthyIPs_nodup hp)

/-- The sort may leave a record in front of those that have its latency. -/
theorem CloudflarePool.exists_sorts_ahead (p : CloudflarePool) (r : Nat) :
    ∃ order, p.Sorts order ∧
      order.Pairwise fun a b => b = r → a ≠ r →
        (p.heap a).latencyVal < (p.heap r).latencyVal := by
  let Le (a b : Nat) : Prop := (p.heap a).latencyVal < (p.heap b).latencyVal ∨
    ((p.heap a).latencyVal = (p.heap b).latencyVal ∧ (b = r → a = r))
  have htrans : ∀ a b c, Le a b → Le b c → Le a c := by
    intro a b c hab hbc
    rcases hab with hab | ⟨hab, hr⟩ <;> rcases hbc with hbc | ⟨hbc, hr'⟩
    · exact .inl (by omega)
    · exact .inl (by omega)
    · exact .inl (by omega)
    · exact .inr ⟨by omega, fun hc => hr (hr' hc)⟩
  have htotal : ∀ a b, Le a b ∨ Le b a := by
    intro a b
    rcases Int.lt_trichotomy (p.heap a).latencyVal (p.heap b).latencyVal with h | h | h
    · exact .inl (.inl h)
    · by_cases hb : b = r
      · exact .inr (.inr ⟨h.symm, fun _ => hb⟩)
      · exact .inl (.inr ⟨h, fun h' => absurd h' hb⟩)
    · exact .inr (.inl h)
  have hsorted : (p.healthyIPs.mergeSort fun a b => decide (Le a b)).Pairwise
      fun a b => decide (Le a b) = true :=
    List.pairwise_mergeSort (by simpa using htrans) (by simpa using htotal) p.healthyIPs
  refine ⟨_, ⟨List.mergeSort_perm _ _, hsorted.imp fun h => ?_⟩, hsorted.imp fun h => ?_⟩
  · rcases of_decide_eq_true h with h | h <;> omega
  · rintro rfl hne
    rcases of_decide_eq_true h with h | ⟨-, h⟩
    · exact h
    · exact absurd (h rfl) hne

/-- The sort always ends with some list. -/
theorem CloudflarePool.exists_sorts (p : CloudflarePool) : ∃ order, p.Sorts order := by
  obtain ⟨order, h, -⟩ := p.exists_sorts_ahead 0
  exact ⟨order, h⟩

/-! ## `UpdateIPs` -/

theorem CloudflarePool.Points.alloc {p : CloudflarePool} {m : AList fun _ : String => Nat}
    (h : p.Points m) (ip : String) : (p.alloc ip).Points m := by
  intro ip' r hlookup
  obtain ⟨hlt, hip⟩ := h ip' r hlookup
  refine ⟨Nat.lt_succ_of_lt hlt, ?_⟩
  simpa only [CloudflarePool.alloc, Function.update_of_ne hlt.ne] using hip

/-- What one address of the list does. -/
theorem putIP_cases (old : AList fun _ : String => Nat) (p : CloudflarePool) (ip : String) :
    (trimSpace ip = "" ∧ putIP old p ip = p) ∨
      (trimSpace ip ≠ "" ∧ ∃ r, old.lookup (trimSpace ip) = some r ∧
        putIP old p ip = { p with allIPs := p.allIPs.insert (trimSpace ip) r }) ∨
      (trimSpace ip ≠ "" ∧ putIP old p ip =
        { p.alloc (trimSpace ip) with allIPs := p.allIPs.insert (trimSpace ip) p.next }) := by
  unfold putIP
  simp only
  by_cases hblank : trimSpace ip = ""
  · exact .inl ⟨hblank, if_pos hblank⟩
  · rw [if_neg hblank]
    cases hlookup : old.lookup (trimSpace ip) with
    | none => exact .inr (.inr ⟨hblank, rfl⟩)
    | some r => exact .inr (.inl ⟨hblank, r, rfl, rfl⟩)

/-- What `UpdateIPs` makes of the map: the addresses of the list, with the records that were
there, and the rest of the pool as it was. -/
theorem replaceIPs_spec {p : CloudflarePool} (h : p.WellFormed) (ips : List String) :
    (replaceIPs p ips).Points p.allIPs ∧ (replaceIPs p ips).WellFormed ∧
      (∀ ip, ip ∈ (replaceIPs p ips).allIPs ↔ ip ∈ trimmedIPs ips) := by
  induction ips using List.reverseRecOn with
  | nil =>
    refine ⟨h, fun ip r hlookup => ?_, fun ip => by simp [replaceIPs, trimmedIPs]⟩
    simp [replaceIPs] at hlookup
  | append_singleton ips ip ih =>
    obtain ⟨hold, hnew, hkeys⟩ := ih
    have happend : replaceIPs p (ips ++ [ip]) = putIP p.allIPs (replaceIPs p ips) ip := by
      simp only [replaceIPs, List.foldl_append, List.foldl_cons, List.foldl_nil]
    have htrimmed : ∀ ip', ip' ∈ trimmedIPs (ips ++ [ip]) ↔
        ip' ∈ trimmedIPs ips ∨ ip' = trimSpace ip ∧ trimSpace ip ≠ "" := by
      intro ip'
      simp only [trimmedIPs, List.map_append, List.map_cons, List.map_nil, List.filter_append,
        List.mem_append, List.mem_filter, List.mem_singleton, decide_eq_true_eq]
      exact or_congr_right (and_congr_right fun heq => by rw [heq])
    rw [happend]
    rcases putIP_cases p.allIPs (replaceIPs p ips) ip with
      ⟨hblank, heq⟩ | ⟨hip, r, hr, heq⟩ | ⟨hip, heq⟩
    · rw [heq]
      refine ⟨hold, hnew, fun ip' => ?_⟩
      rw [htrimmed, hkeys]
      simp [hblank]
    · rw [heq]
      refine ⟨hold, hnew.insert (hold _ _ hr), fun ip' => ?_⟩
      rw [htrimmed, ← hkeys, AList.mem_insert]
      simp [hip, or_comm]
    · rw [heq]
      refine ⟨hold.alloc _, (hnew.alloc _).insert ⟨Nat.lt_succ_self _, ?_⟩, fun ip' => ?_⟩
      · simp [CloudflarePool.alloc]
      · rw [htrimmed, ← hkeys, AList.mem_insert]
        simp [hip, or_comm]

/-! ## The other sections -/

/-- What the sections apart from `UpdateIPs` and `rebuildActiveIPs` leave as it is: the
addresses of the records, the active list, and the map but for entries that are deleted. -/
structure Keeps (p p' : CloudflarePool) : Prop where
  next : p'.next = p.next
  ip : ∀ r, (p'.heap r).ip = (p.heap r).ip
  lookup : ∀ ip r, p'.allIPs.lookup ip = some r → p.allIPs.lookup ip = some r
  activeIPs : p'.activeIPs = p.activeIPs

theorem Keeps.tasks (p : CloudflarePool) (tasks : List Task) :
    Keeps p { p with tasks := tasks } :=
  ⟨rfl, fun _ => rfl, fun _ _ h => h, rfl⟩

/-- A record is changed, but for its address. -/
theorem Keeps.update {p : CloudflarePool} {r : Nat} {stats : IPStats}
    (h : stats.ip = (p.heap r).ip) (tasks : List Task) :
    Keeps p { p with heap := Function.update p.heap r stats, tasks := tasks } := by
  refine ⟨rfl, fun r' => ?_, fun _ _ h => h, rfl⟩
  by_cases heq : r' = r
  · subst heq
    simpa using h
  · simp [heq]

theorem lookup_validIPs {p : CloudflarePool} {ip : String} {r : Nat}
    (h : (validIPs p).lookup ip = some r) : p.allIPs.lookup ip = some r := by
  have hmem : (⟨ip, r⟩ : Sigma fun _ : String => Nat) ∈ (validIPs p).entries :=
    mem_entries_iff.mpr h
  exact mem_entries_iff.mp (List.mem_of_mem_filter hmem)

theorem reportFailure_keeps (p : CloudflarePool) (ip : String) : Keeps p (reportFailure p ip) := by
  unfold reportFailure
  split
  · exact .tasks p _
  · rename_i r hr
    have hip : (p.heap r).failed.ip = (p.heap r).ip := rfl
    exact .update hip _

theorem reportSuccess_keeps (p : CloudflarePool) (ip : String) : Keeps p (reportSuccess p ip) := by
  unfold reportSuccess
  split
  · exact .tasks p p.tasks
  · simp only
    split
    · refine .update ?_ p.tasks
      rfl
    · exact .tasks p p.tasks

theorem removeInvalidIPs_keeps (p : CloudflarePool) : Keeps p (removeInvalidIPs p) := by
  unfold removeInvalidIPs
  split
  · exact ⟨rfl, fun _ => rfl, fun _ _ h => lookup_validIPs h, rfl⟩
  · exact .tasks p p.tasks

/-- A check that reads the map only changes the tasks. -/
theorem readIPs_eq {p p' : CloudflarePool} {i : Nat} {now : Int}
    (h : readIPs p i now = some p') : ∃ tasks, p' = { p with tasks := tasks } := by
  have hbegin : ∀ ips, ∃ tasks, beginCheck p i ips = { p with tasks := tasks } := by
    intro ips
    unfold beginCheck
    split
    · exact ⟨_, rfl⟩
    · exact ⟨_, rfl⟩
  unfold readIPs at h
  split at h
  · obtain rfl := Option.some.inj h
    exact hbegin _
  · obtain rfl := Option.some.inj h
    exact hbegin _
  · cases h

theorem IPStats.tested_ip (stats : IPStats) (latency : Option Int) (now : Int) :
    (stats.tested latency now).ip = stats.ip := by
  cases latency <;> rfl

theorem finishTest_keeps {p p' : CloudflarePool} {i : Nat} {targetIP : String}
    {latency : Option Int} {now : Int} (h : finishTest p i targetIP latency now = some p') :
    Keeps p p' ∧ p'.allIPs = p.allIPs := by
  unfold finishTest at h
  split at h
  · split at h
    · simp only at h
      split at h
      · obtain rfl := Option.some.inj h
        exact ⟨.tasks p _, rfl⟩
      · obtain rfl := Option.some.inj h
        exact ⟨.update (IPStats.tested_ip ..) _, rfl⟩
    · cases h
  · cases h

/-- The sections that make the active list anew. -/
def Event.rebuilds : Event → Bool
  | .updateIPs _ _ => true
  | .rebuildActiveIPs _ _ => true
  | _ => false

theorem step_keeps {p p' : CloudflarePool} {e : Event} (h : step p e = some p')
    (he : e.rebuilds = false) :
    Keeps p p' ∧ (e ≠ .removeInvalidIPs → p'.allIPs = p.allIPs) := by
  cases e with
  | updateIPs ips order => cases he
  | rebuildActiveIPs i order => cases he
  | reportFailure ip =>
    obtain rfl := Option.some.inj h
    refine ⟨reportFailure_keeps p ip, fun _ => ?_⟩
    unfold reportFailure
    split <;> rfl
  | reportSuccess ip =>
    obtain rfl := Option.some.inj h
    refine ⟨reportSuccess_keeps p ip, fun _ => ?_⟩
    unfold reportSuccess
    split
    · rfl
    · simp only
      split <;> rfl
  | removeInvalidIPs =>
    obtain rfl := Option.some.inj h
    exact ⟨removeInvalidIPs_keeps p, fun hne => absurd rfl hne⟩
  | checkAllIPs =>
    obtain rfl := Option.some.inj h
    exact ⟨.tasks p _, fun _ => rfl⟩
  | checkIncremental =>
    obtain rfl := Option.some.inj h
    exact ⟨.tasks p _, fun _ => rfl⟩
  | readIPs i now =>
    obtain ⟨tasks, rfl⟩ := readIPs_eq h
    exact ⟨.tasks p _, fun _ => rfl⟩
  | finishTest i targetIP latency now =>
    obtain ⟨hkeeps, heq⟩ := finishTest_keeps h
    exact ⟨hkeeps, fun _ => heq⟩

/-- What the two that make the active list anew do to the pool. -/
theorem step_rebuilds {p p' : CloudflarePool} {e : Event} (h : step p e = some p')
    (he : e.rebuilds = true) (hp : p.WellFormed) :
    p'.WellFormed ∧ p'.Sorts p'.activeIPs ∧
      ∀ ip, ip ∈ p'.allIPs ↔ ip ∈ (e.ips.map trimmedIPs).getD p.allIPs.keys := by
  cases e with
  | updateIPs ips order =>
    simp only [step, updateIPs] at h
    split at h
    · rename_i hsorts
      obtain rfl := Option.some.inj h
      obtain ⟨-, hwf, hkeys⟩ := replaceIPs_spec hp ips
      exact ⟨hwf, hsorts, hkeys⟩
    · cases h
  | rebuildActiveIPs i order =>
    simp only [step, rebuildActiveIPs] at h
    split at h
    · rename_i hguard
      obtain rfl := Option.some.inj h
      exact ⟨hp, hguard.2, fun ip => Iff.rfl⟩
    · cases h
  | _ => cases he

/-! ## What is handed out -/

/-- The map, the records and the active list, as the calls so far determine them. -/
structure Inv (trace : List Event) (p : CloudflarePool) : Prop where
  wellFormed : p.WellFormed
  listed : ∀ ip, ip ∈ p.allIPs → ip ∈ trimmedIPs (latestIPs trace)
  complete : .removeInvalidIPs ∉ trace → ∀ ip ∈ trimmedIPs (latestIPs trace), ip ∈ p.allIPs
  active : ∀ r ∈ p.activeIPs, (p.heap r).ip ∈ trimmedIPs (latestIPs trace)
  distinct : (p.activeIPs.map fun r => (p.heap r).ip).Nodup

theorem inv_empty : Inv [] {} where
  wellFormed ip r h := by simp at h
  listed ip h := absurd h (AList.notMem_empty ip)
  complete _ ip h := by simp [trimmedIPs, latestIPs] at h
  active r h := by cases h
  distinct := List.nodup_nil

theorem Inv.step {trace : List Event} {p p' : CloudflarePool} {e : Event} (h : Inv trace p)
    (hstep : step p e = some p') : Inv (trace ++ [e]) p' := by
  cases he : e.rebuilds with
  | true =>
    obtain ⟨hwf, hsorts, hkeys⟩ := step_rebuilds hstep he h.wellFormed
    have hlisted : ∀ ip, ip ∈ p'.allIPs → ip ∈ trimmedIPs (latestIPs (trace ++ [e])) := by
      intro ip hip
      rw [latestIPs_concat]
      have hmem := (hkeys ip).mp hip
      cases hips : e.ips with
      | none =>
        rw [hips] at hmem
        exact h.listed ip hmem
      | some ips =>
        rw [hips] at hmem
        exact hmem
    refine ⟨hwf, hlisted, fun hnone ip hip => ?_, fun r hr => ?_, hsorts.nodup hwf⟩
    · rw [latestIPs_concat] at hip
      refine (hkeys ip).mpr ?_
      cases hips : e.ips with
      | none =>
        rw [hips] at hip
        exact h.complete (fun hmem => hnone (List.mem_append_left _ hmem)) ip hip
      | some ips =>
        rw [hips] at hip
        exact hip
    · obtain ⟨⟨ip, hip⟩, -⟩ := mem_healthyIPs.mp (hsorts.1.mem_iff.mp hr)
      rw [(hwf ip r hip).2]
      exact hlisted ip (AList.lookup_isSome.mp (by rw [hip]; rfl))
  | false =>
    obtain ⟨hkeeps, hmap⟩ := step_keeps hstep he
    have hlatest : latestIPs (trace ++ [e]) = latestIPs trace := by
      rw [latestIPs_concat]
      cases e with
      | updateIPs ips order => cases he
      | _ => rfl
    have hsub : ∀ ip, ip ∈ p'.allIPs → ip ∈ p.allIPs := by
      intro ip hip
      obtain ⟨r, hr⟩ := Option.isSome_iff_exists.mp (AList.lookup_isSome.mpr hip)
      exact AList.lookup_isSome.mp (by rw [hkeeps.lookup ip r hr]; rfl)
    refine ⟨fun ip r hr => ?_, fun ip hip => ?_, fun hnone ip hip => ?_, fun r hr => ?_, ?_⟩
    · rw [hkeeps.next, hkeeps.ip]
      exact h.wellFormed ip r (hkeeps.lookup ip r hr)
    · rw [hlatest]
      exact h.listed ip (hsub ip hip)
    · rw [hlatest] at hip
      rw [hmap fun heq => hnone (by simp [heq])]
      exact h.complete (fun hmem => hnone (List.mem_append_left _ hmem)) ip hip
    · rw [hkeeps.activeIPs] at hr
      rw [hlatest, hkeeps.ip]
      exact h.active r hr
    · rw [hkeeps.activeIPs]
      simpa only [hkeeps.ip] using h.distinct

theorem Reaches.inv {trace : List Event} {p : CloudflarePool} (h : Reaches trace p) :
    Inv trace p :=
  exec_invariant h inv_empty fun _ _ _ _ _ hinv hstep => hinv.step hstep

/-- **No retired address.** In every state of a run at most `n` addresses are handed out,
each once and each of them in the latest list; and one at least, if that list has one and
no entries are deleted for their failures. -/
theorem getTopIPs_current {trace : List Event} {p : CloudflarePool} (h : Reaches trace p)
    {keys : List String} (hkeys : keys.Perm p.allIPs.keys) {n : Nat} (hn : 1 ≤ n) :
    (getTopIPs p keys n).length ≤ n ∧ (getTopIPs p keys n).Nodup ∧
      (∀ ip ∈ getTopIPs p keys n, ip ∈ trimmedIPs (latestIPs trace)) ∧
      (.removeInvalidIPs ∉ trace → trimmedIPs (latestIPs trace) ≠ [] →
        getTopIPs p keys n ≠ []) := by
  have hinv := h.inv
  unfold getTopIPs
  by_cases hnone : p.activeIPs = []
  · rw [if_pos hnone, max_eq_left hn]
    refine ⟨List.length_take_le n keys, ?_, fun ip hip => ?_, fun hremove hlist => ?_⟩
    · exact (hkeys.nodup_iff.mpr p.allIPs.keys_nodup).sublist (List.take_sublist n keys)
    · exact hinv.listed ip (AList.mem_keys.mpr (hkeys.mem_iff.mp (List.mem_of_mem_take hip)))
    · obtain ⟨ip, hip⟩ := List.exists_mem_of_ne_nil _ hlist
      have hmem : ip ∈ keys :=
        hkeys.mem_iff.mpr (AList.mem_keys.mp (hinv.complete hremove ip hip))
      rw [ne_eq, List.take_eq_nil_iff, not_or]
      exact ⟨by omega, List.ne_nil_of_mem hmem⟩
  · rw [if_neg hnone, List.length_map]
    refine ⟨List.length_take_le n _, ?_, fun ip hip => ?_, fun _ _ => ?_⟩
    · exact hinv.distinct.sublist ((List.take_sublist n _).map _)
    · obtain ⟨r, hr, rfl⟩ := List.mem_map.mp hip
      exact hinv.active r (List.mem_of_mem_take hr)
    · rw [ne_eq, List.map_eq_nil_iff, List.take_eq_nil_iff, not_or]
      exact ⟨by omega, hnone⟩

/-- An address is tested, retired while the test is under way, and the test ends after the
map was replaced. -/
def retired : List Event :=
  [.updateIPs ["192.0.2.1", " 192.0.2.2"] [], .readIPs 0 0, .updateIPs ["192.0.2.2"] [],
    .finishTest 0 "192.0.2.1" (some 5) 1, .finishTest 0 "192.0.2.2" (some 7) 1,
    .rebuildActiveIPs 0 [1]]

theorem retired_current :
    ∃ p, Reaches retired p ∧ getTopIPs p ["192.0.2.2"] 5 ≠ [] ∧
      ∀ ip ∈ getTopIPs p ["192.0.2.2"] 5, ip ∈ trimmedIPs (latestIPs retired) := by
  have hkeys : (exec step {} retired).map (·.allIPs.keys) = some ["192.0.2.2"] := by decide
  obtain ⟨p, hp, hperm⟩ := Option.map_eq_some_iff.mp hkeys
  obtain ⟨-, -, hlisted, hsome⟩ := getTopIPs_current hp (by rw [hperm]) (by decide : 1 ≤ 5)
  exact ⟨p, hp, hsome (by decide) (by decide), hlisted⟩

end SniShaper.Pool
