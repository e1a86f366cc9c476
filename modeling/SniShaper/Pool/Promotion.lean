import SniShaper.Pool.Cloudflare

/-! What a failure that is reported does to the active list of the pool (`ReportFailure` of
`proxy/cf_pool.go`). A latency of zero marks an address that was not checked, or not with
success, and is also the number the penalty is added to.

* `step_record`: what a section does to a record;
* `failureCall_lists_iff`: when the call puts an address on the list that was not there;
* `failureCall_keepsOrder_iff`: when the call brings the address ahead of another;
* `unproven_latency`: the latency of an address without a successful check;
* `failure_promotion`: the three together, over runs. -/

namespace SniShaper.Pool

open Strings Machine

/-- The address is on the active list. -/
def CloudflarePool.Lists (p : CloudflarePool) (ip : String) : Prop :=
  ∃ r ∈ p.activeIPs, (p.heap r).ip = ip

/-- `ReportFailure` to its end: the section with the record and the rebuilding of the list. -/
def failureCall (p : CloudflarePool) (ip : String) (order : List Nat) : Option CloudflarePool :=
  let p := reportFailure p ip
  rebuildActiveIPs p (p.tasks.length - 1) order

/-- With the failure counted and the penalty added, in 64-bit numbers, the record is healthy. -/
def IPStats.Survives (stats : IPStats) : Prop :=
  0 < wrap (stats.latencyVal + second) ∧ wrap (stats.failures + 1) < 3

theorem IPStats.failed_healthy_iff (stats : IPStats) :
    stats.failed.healthy = true ↔ stats.Survives :=
  stats.failed.healthy_iff

/-! ## The records -/

/-- What a section does to a record. -/
inductive RecordStep (p : CloudflarePool) (e : Event) (r : Nat) (before : IPStats) :
    IPStats → Prop where
  | same (huntested : ∀ i ip latency now, e = .finishTest i ip latency now →
      p.allIPs.lookup ip ≠ some r) : RecordStep p e r before before
  | fresh (ip : String) (hnew : p.next ≤ r) : RecordStep p e r before { ip := ip }
  | failed (ip : String) (he : e = .reportFailure ip) (hr : p.allIPs.lookup ip = some r) :
      RecordStep p e r before before.failed
  | succeeded (ip : String) (he : e = .reportSuccess ip) :
      RecordStep p e r before { before with failures := before.failures - 1 }
  | tested (i : Nat) (ip : String) (latency : Option Int) (now : Int)
      (he : e = .finishTest i ip latency now) (hr : p.allIPs.lookup ip = some r) :
      RecordStep p e r before (before.tested latency now)

/-- What `UpdateIPs` leaves of the records, and which records its map has. -/
structure Replaces (p p' : CloudflarePool) : Prop where
  next : p.next ≤ p'.next
  heap : ∀ r, p'.heap r = p.heap r ∨ p.next ≤ r ∧ ∃ ip, p'.heap r = { ip := ip }
  lookup : ∀ ip r, p'.allIPs.lookup ip = some r →
    p.allIPs.lookup ip = some r ∨ (p'.heap r).latencyVal = 0

theorem replaceIPs_replaces (p : CloudflarePool) (ips : List String) :
    Replaces p (replaceIPs p ips) := by
  induction ips using List.reverseRecOn with
  | nil =>
    refine ⟨le_rfl, fun _ => .inl rfl, fun ip r hr => ?_⟩
    simp [replaceIPs] at hr
  | append_singleton ips ip ih =>
    have happend : replaceIPs p (ips ++ [ip]) = putIP p.allIPs (replaceIPs p ips) ip := by
      simp only [replaceIPs, List.foldl_append, List.foldl_cons, List.foldl_nil]
    rw [happend]
    rcases putIP_cases p.allIPs (replaceIPs p ips) ip with
      ⟨-, heq⟩ | ⟨-, r, hr, heq⟩ | ⟨-, heq⟩
    · rw [heq]
      exact ih
    · rw [heq]
      refine ⟨ih.next, ih.heap, fun ip' r' hr' => ?_⟩
      by_cases hip : ip' = trimSpace ip
      · subst hip
        rw [AList.lookup_insert] at hr'
        exact .inl (hr' ▸ hr)
      · rw [AList.lookup_insert_ne hip] at hr'
        exact ih.lookup ip' r' hr'
    · rw [heq]
      refine ⟨ih.next.trans (Nat.le_succ _), fun r => ?_, fun ip' r' hr' => ?_⟩
      · by_cases hlast : r = (replaceIPs p ips).next
        · exact .inr ⟨hlast ▸ ih.next, trimSpace ip, by simp [CloudflarePool.alloc, hlast]⟩
        · simpa [CloudflarePool.alloc, hlast] using ih.heap r
      · by_cases hlast : r' = (replaceIPs p ips).next
        · exact .inr (by simp [CloudflarePool.alloc, hlast])
        · by_cases hip : ip' = trimSpace ip
          · subst hip
            rw [AList.lookup_insert] at hr'
            exact absurd (Option.some.inj hr').symm hlast
          · rw [AList.lookup_insert_ne hip] at hr'
            simpa [CloudflarePool.alloc, hlast] using ih.lookup ip' r' hr'

/-- Only the record that a section writes changes. -/
theorem RecordStep.update {p : CloudflarePool} {e : Event} {r r₀ : Nat} {stats : IPStats}
    (h : RecordStep p e r₀ (p.heap r₀) stats)
    (hother : r ≠ r₀ → ∀ i ip latency now, e = .finishTest i ip latency now →
      p.allIPs.lookup ip ≠ some r) :
    RecordStep p e r (p.heap r) (Function.update p.heap r₀ stats r) := by
  by_cases hr : r = r₀
  · subst hr
    rwa [Function.update_self]
  · rw [Function.update_of_ne hr]
    exact .same (hother hr)

theorem step_record {p p' : CloudflarePool} {e : Event} (h : step p e = some p') (r : Nat) :
    RecordStep p e r (p.heap r) (p'.heap r) := by
  cases e with
  | updateIPs ips order =>
    simp only [step, updateIPs] at h
    split at h
    · obtain rfl := Option.some.inj h
      rcases (replaceIPs_replaces p ips).heap r with hsame | ⟨hnew, ip, hfresh⟩
      · simp only [hsame]
        exact .same (by simp)
      · simp only [hfresh]
        exact .fresh ip hnew
    · cases h
  | reportFailure ip =>
    obtain rfl := Option.some.inj h
    unfold reportFailure
    cases hlookup : p.allIPs.lookup ip with
    | none => exact .same (by simp)
    | some r₀ => exact .update (.failed ip rfl hlookup) (by simp)
  | reportSuccess ip =>
    obtain rfl := Option.some.inj h
    unfold reportSuccess
    cases p.allIPs.lookup ip with
    | none => exact .same (by simp)
    | some r₀ =>
      simp only
      split
      · exact .update (.succeeded ip rfl) (by simp)
      · exact .same (by simp)
  | removeInvalidIPs =>
    obtain rfl := Option.some.inj h
    unfold removeInvalidIPs
    split
    · exact .same (by simp)
    · exact .same (by simp)
  | checkAllIPs =>
    obtain rfl := Option.some.inj h
    exact .same (by simp)
  | checkIncremental =>
    obtain rfl := Option.some.inj h
    exact .same (by simp)
  | readIPs i now =>
    obtain ⟨tasks, rfl⟩ := readIPs_eq h
    exact .same (by simp)
  | finishTest i targetIP latency now =>
    simp only [step, finishTest] at h
    split at h
    · split at h
      · cases hlookup : p.allIPs.lookup targetIP with
        | none =>
          simp only [hlookup] at h
          obtain rfl := Option.some.inj h
          refine .same fun _ _ _ _ heq => ?_
          cases heq
          simp [hlookup]
        | some r₀ =>
          simp only [hlookup] at h
          obtain rfl := Option.some.inj h
          refine .update (.tested i targetIP latency now rfl hlookup) fun hne _ _ _ _ heq => ?_
          cases heq
          simpa [hlookup] using Ne.symm hne
      · cases h
    · cases h
  | rebuildActiveIPs i order =>
    simp only [step, rebuildActiveIPs] at h
    split at h
    · obtain rfl := Option.some.inj h
      exact .same (by simp)
    · cases h

/-! ## One call -/

/-- Two addresses with one record are one address. -/
theorem CloudflarePool.WellFormed.ip_eq {p : CloudflarePool} (h : p.WellFormed) {ip ip' : String}
    {r : Nat} (hr : p.allIPs.lookup ip = some r) (hr' : p.allIPs.lookup ip' = some r) : ip' = ip :=
  (h ip' r hr').2.symm.trans (h ip r hr).2

theorem reportFailure_wellFormed {p : CloudflarePool} (h : p.WellFormed) (ip : String) :
    (reportFailure p ip).WellFormed := by
  have hkeeps := reportFailure_keeps p ip
  intro ip' r hr
  rw [hkeeps.next, hkeeps.ip]
  exact h ip' r (hkeeps.lookup ip' r hr)

theorem reportFailure_allIPs (p : CloudflarePool) (ip : String) :
    (reportFailure p ip).allIPs = p.allIPs := by
  unfold reportFailure
  cases p.allIPs.lookup ip with
  | none => rfl
  | some r => rfl

theorem reportFailure_heap {p : CloudflarePool} {ip : String} {r : Nat}
    (h : p.allIPs.lookup ip = some r) :
    (reportFailure p ip).heap = Function.update p.heap r (p.heap r).failed := by
  rw [reportFailure, h]

/-- The call ends with the rebuilding it has put down as its last task. -/
theorem failureCall_eq_some_iff {p q : CloudflarePool} {ip : String} {order : List Nat} :
    failureCall p ip order = some q ↔
      (reportFailure p ip).Sorts order ∧
        q = { reportFailure p ip with
          activeIPs := order
          tasks :=
            (reportFailure p ip).tasks.eraseIdx ((reportFailure p ip).tasks.length - 1) } := by
  have hlast : (reportFailure p ip).tasks[(reportFailure p ip).tasks.length - 1]? =
      some .rebuildActiveIPs := by
    rw [← List.getLast?_eq_getElem?]
    unfold reportFailure
    cases p.allIPs.lookup ip with
    | none => simp
    | some r => simp
  unfold failureCall rebuildActiveIPs
  simp only [hlast, true_and]
  constructor
  · intro h
    split at h
    · exact ⟨‹_›, (Option.some.inj h).symm⟩
    · cases h
  · rintro ⟨hsorts, rfl⟩
    rw [if_pos hsorts]

/-- The list that a rebuilding makes has the healthy records of the map. -/
theorem lists_iff_of_sorts {p : CloudflarePool} (hp : p.WellFormed) (h : p.Sorts p.activeIPs)
    (ip : String) :
    p.Lists ip ↔ ∃ r, p.allIPs.lookup ip = some r ∧ (p.heap r).healthy = true := by
  constructor
  · rintro ⟨r, hr, rfl⟩
    obtain ⟨⟨ip', hip'⟩, hhealthy⟩ := mem_healthyIPs.mp (h.1.mem_iff.mp hr)
    rw [(hp ip' r hip').2]
    exact ⟨r, hip', hhealthy⟩
  · rintro ⟨r, hr, hhealthy⟩
    exact ⟨r, h.1.mem_iff.mpr (mem_healthyIPs.mpr ⟨⟨ip, hr⟩, hhealthy⟩), (hp ip r hr).2⟩

theorem failureCall_lists_iff {p q : CloudflarePool} (hp : p.WellFormed) {ip : String}
    {order : List Nat} (h : failureCall p ip order = some q) :
    q.Lists ip ↔ ∃ r, p.allIPs.lookup ip = some r ∧ (p.heap r).Survives := by
  obtain ⟨hsorts, hq⟩ := failureCall_eq_some_iff.mp h
  have hwf : q.WellFormed := hq ▸ reportFailure_wellFormed hp ip
  have hlist : q.Sorts q.activeIPs := hq ▸ hsorts
  have hmap : q.allIPs = p.allIPs := hq ▸ reportFailure_allIPs p ip
  have hheap : q.heap = (reportFailure p ip).heap := by rw [hq]
  rw [lists_iff_of_sorts hwf hlist, hmap, hheap]
  refine exists_congr fun r => and_congr_right fun hr => ?_
  rw [reportFailure_heap hr, Function.update_self, IPStats.failed_healthy_iff]

/-- The call does not list an address that was not listed exactly when the address has no
record, or one that is not healthy with the failure and the penalty. -/
theorem failureCall_keepsOut_iff {p : CloudflarePool} (hp : p.WellFormed) (ip : String) :
    (∀ order q, failureCall p ip order = some q → ¬ p.Lists ip → ¬ q.Lists ip) ↔
      p.Lists ip ∨ ∀ r, p.allIPs.lookup ip = some r → ¬ (p.heap r).Survives := by
  constructor
  · intro hkeeps
    rw [or_iff_not_imp_left]
    intro hout r hr hsurvives
    obtain ⟨order, horder⟩ := (reportFailure p ip).exists_sorts
    have hcall := failureCall_eq_some_iff.mpr ⟨horder, rfl⟩
    exact hkeeps order _ hcall hout ((failureCall_lists_iff hp hcall).mpr ⟨r, hr, hsurvives⟩)
  · rintro (hlisted | hnone) order q hcall hout hlists
    · exact hout hlisted
    · obtain ⟨r, hr, hsurvives⟩ := (failureCall_lists_iff hp hcall).mp hlists
      exact hnone r hr hsurvives

/-! ## The order of the list -/

/-- A 64-bit number, as `time.Duration` is. -/
def IsDuration (d : Int) : Prop := -9223372036854775808 ≤ d ∧ d < 9223372036854775808

theorem wrap_isDuration (n : Int) : IsDuration (wrap n) := by
  unfold IsDuration wrap
  rw [Int.bmod_def]
  split <;> omega

/-- The penalty makes a latency greater, or turns it negative. -/
theorem lt_penalty {d : Int} (hd : IsDuration d) (hpos : 0 < wrap (d + second)) :
    d < wrap (d + second) := by
  unfold IsDuration at hd
  unfold wrap second at *
  rw [Int.bmod_def] at *
  split at hpos <;> omega

def Event.Fits : Event → Prop
  | .finishTest _ _ (some d) _ => IsDuration d
  | _ => True

theorem latency_isDuration {trace : List Event} {p : CloudflarePool} (h : Reaches trace p)
    (hfits : ∀ e ∈ trace, e.Fits) (r : Nat) : IsDuration (p.heap r).latencyVal := by
  have hzero : IsDuration 0 := by
    unfold IsDuration
    omega
  refine exec_invariant
    (I := fun trace p => (∀ e ∈ trace, e.Fits) → ∀ r, IsDuration (p.heap r).latencyVal) h
    (fun _ _ => hzero) (fun trace p e p' _ hinv hstep hfits r => ?_) hfits r
  have hbefore := hinv (fun e he => hfits e (List.mem_append_left _ he)) r
  have hrecord := step_record hstep r
  generalize p'.heap r = after at hrecord ⊢
  cases hrecord with
  | same => exact hbefore
  | fresh => exact hzero
  | failed => exact wrap_isDuration _
  | succeeded => exact hbefore
  | tested i ip latency now he =>
    cases latency with
    | none => exact hzero
    | some d =>
      have hd := hfits e (by simp)
      rw [he] at hd
      exact hd

/-- The address `a` stands ahead of `b` on the active list. -/
def CloudflarePool.Ahead (p : CloudflarePool) (a b : String) : Prop :=
  [a, b].Sublist (p.activeIPs.map fun r => (p.heap r).ip)

/-- Whoever stands ahead of the address, and is healthy, is faster than the address with the
penalty, unless the failure takes the address off the list. -/
def CloudflarePool.InOrder (p : CloudflarePool) (ip : String) : Prop :=
  ∀ r, p.allIPs.lookup ip = some r → (p.heap r).Survives →
    ∀ a ra, p.Ahead a ip → p.allIPs.lookup a = some ra → (p.heap ra).healthy = true →
      (p.heap ra).latencyVal < wrap ((p.heap r).latencyVal + second)

theorem CloudflarePool.Ahead.lists {p : CloudflarePool} {a b : String} (h : p.Ahead a b) :
    p.Lists a ∧ p.Lists b := by
  have hmem := h.subset
  simp only [List.cons_subset, List.mem_map, List.nil_subset, and_true] at hmem
  exact hmem

/-- On a list that was just rebuilt who is ahead is not slower. -/
theorem latency_le_of_ahead {p : CloudflarePool} (hp : p.WellFormed) (h : p.Sorts p.activeIPs)
    {a b : String} {ra rb : Nat} (ha : p.allIPs.lookup a = some ra)
    (hb : p.allIPs.lookup b = some rb) (hahead : p.Ahead a b) :
    (p.heap ra).latencyVal ≤ (p.heap rb).latencyVal := by
  have hentry : ∀ {ip : String} {r s : Nat}, p.allIPs.lookup ip = some r → s ∈ p.activeIPs →
      (p.heap s).ip = ip → s = r := by
    intro ip r s hr hs hip
    obtain ⟨⟨ip', hip'⟩, -⟩ := mem_healthyIPs.mp (h.1.mem_iff.mp hs)
    rw [(hp ip' s hip').2] at hip
    rw [hip, hr] at hip'
    exact (Option.some.inj hip').symm
  obtain ⟨l, hsub, hl⟩ := List.sublist_map_iff.mp hahead
  match l, hl with
  | [s, t], hl =>
    simp only [List.map_cons, List.map_nil, List.cons.injEq, and_true] at hl
    obtain rfl := hentry ha (hsub.subset (by simp)) hl.1.symm
    obtain rfl := hentry hb (hsub.subset (by simp)) hl.2.symm
    simpa using h.2.sublist hsub

/-- On such a list the penalty only moves an address back. -/
theorem inOrder_of_sorts {p : CloudflarePool} (hp : p.WellFormed) (h : p.Sorts p.activeIPs)
    (hduration : ∀ r, IsDuration (p.heap r).latencyVal) (ip : String) : p.InOrder ip := by
  intro r hr hsurvives a ra hahead ha _
  have hle := latency_le_of_ahead hp h ha hr hahead
  have hlt := lt_penalty (hduration r) hsurvives.1
  omega

/-- One of two entries stands ahead of the other. -/
theorem pair_sublist_of_pairwise {R : Nat → Nat → Prop} {order : List Nat} {r s : Nat}
    (h : order.Pairwise R) (hr : r ∈ order) (hs : s ∈ order) (hne : s ≠ r) (hnot : ¬ R s r) :
    [r, s].Sublist order := by
  obtain ⟨front, back, rfl⟩ := List.append_of_mem hr
  rw [List.mem_append, List.mem_cons] at hs
  rcases hs with hfront | heq | hback
  · exact absurd ((List.pairwise_append.mp h).2.2 s hfront r List.mem_cons_self) hnot
  · exact absurd heq hne
  · exact ((List.singleton_sublist.mpr hback).cons_cons r).trans (List.sublist_append_right front _)

/-- A failed address that stays healthy can come out ahead of every healthy address that is
not faster than it is with the penalty. -/
theorem exists_overtakes {p : CloudflarePool} (hp : p.WellFormed) {ip a : String} {r ra : Nat}
    (hr : p.allIPs.lookup ip = some r) (hsurvives : (p.heap r).Survives)
    (ha : p.allIPs.lookup a = some ra) (hhealthy : (p.heap ra).healthy = true) (hne : ra ≠ r)
    (hslow : ¬ (p.heap ra).latencyVal < wrap ((p.heap r).latencyVal + second)) :
    ∃ order q, failureCall p ip order = some q ∧ q.Ahead ip a := by
  have hheap := reportFailure_heap hr
  have hfailed : (reportFailure p ip).heap r = (p.heap r).failed := by
    rw [hheap, Function.update_self]
  have hsame : (reportFailure p ip).heap ra = p.heap ra := by
    rw [hheap, Function.update_of_ne hne]
  -- a sort that leaves the failed address in front of those that have its latency
  obtain ⟨order, hsorts, hfirst⟩ := (reportFailure p ip).exists_sorts_ahead r
  have hr' : r ∈ order := by
    rw [hsorts.1.mem_iff, mem_healthyIPs, reportFailure_allIPs, hfailed]
    exact ⟨⟨ip, hr⟩, (IPStats.failed_healthy_iff _).mpr hsurvives⟩
  have hra' : ra ∈ order := by
    rw [hsorts.1.mem_iff, mem_healthyIPs, reportFailure_allIPs, hsame]
    exact ⟨⟨a, ha⟩, hhealthy⟩
  have hpair : [r, ra].Sublist order := by
    refine pair_sublist_of_pairwise hfirst hr' hra' hne fun hbefore => hslow ?_
    have hlt := hbefore rfl hne
    rw [hsame, hfailed] at hlt
    exact hlt
  refine ⟨order, _, failureCall_eq_some_iff.mpr ⟨hsorts, rfl⟩, ?_⟩
  have hips := hpair.map fun r => ((reportFailure p ip).heap r).ip
  have hip : ((reportFailure p ip).heap r).ip = ip :=
    (reportFailure_wellFormed hp ip ip r (by rw [reportFailure_allIPs]; exact hr)).2
  rw [List.map_cons, List.map_cons, List.map_nil, hip, hsame, (hp a ra ha).2] at hips
  exact hips

/-- On a list that is in order the failed address overtakes nobody. -/
theorem CloudflarePool.InOrder.not_overtakes {p q : CloudflarePool} (hp : p.WellFormed) {ip a : String}
    {order : List Nat} (h : p.InOrder ip) (hcall : failureCall p ip order = some q)
    (hahead : p.Ahead a ip) : ¬ q.Ahead ip a := by
  intro hback
  obtain ⟨hsorts, hq⟩ := failureCall_eq_some_iff.mp hcall
  have hwf : q.WellFormed := hq ▸ reportFailure_wellFormed hp ip
  have hlist : q.Sorts q.activeIPs := hq ▸ hsorts
  have hmap : q.allIPs = p.allIPs := hq ▸ reportFailure_allIPs p ip
  obtain ⟨r, hr, hhealthy⟩ := (lists_iff_of_sorts hwf hlist ip).mp hback.lists.1
  obtain ⟨ra, ha, hhealthy'⟩ := (lists_iff_of_sorts hwf hlist a).mp hback.lists.2
  have hle := latency_le_of_ahead hwf hlist hr ha hback
  rw [hmap] at hr ha
  have hheap : q.heap = Function.update p.heap r (p.heap r).failed := by
    rw [hq]
    exact reportFailure_heap hr
  have hne : ra ≠ r := by
    rintro rfl
    obtain rfl := hp.ip_eq hr ha
    have hnodup := (hlist.nodup hwf).sublist hback
    simp at hnodup
  rw [hheap, Function.update_self] at hhealthy hle
  rw [hheap, Function.update_of_ne hne] at hhealthy'
  rw [Function.update_of_ne hne] at hle
  have hlt := h r hr ((IPStats.failed_healthy_iff _).mp hhealthy) a ra hahead ha hhealthy'
  exact absurd (Int.lt_of_lt_of_le hlt hle) (Int.lt_irrefl _)

theorem failureCall_keepsOrder_iff {p : CloudflarePool} (hp : p.WellFormed)
    (hduration : ∀ r, IsDuration (p.heap r).latencyVal) (ip : String) :
    (∀ order q, failureCall p ip order = some q → ∀ a, p.Ahead a ip → ¬ q.Ahead ip a) ↔
      p.InOrder ip := by
  constructor
  · intro hkeeps r hr hsurvives a ra hahead ha hhealthy
    by_contra hslow
    have hlt := lt_penalty (hduration r) hsurvives.1
    have hne : ra ≠ r := by
      rintro rfl
      omega
    obtain ⟨order, q, hcall, hback⟩ := exists_overtakes hp hr hsurvives ha hhealthy hne hslow
    exact hkeeps order q hcall a hahead hback
  · intro horder order q hcall a hahead
    exact horder.not_overtakes hp hcall hahead

/-! ## Addresses without a successful check -/

/-- The outcome of a test of the address that a section enters in its record. -/
def checkOf (ip : String) (p : CloudflarePool) : Event → Option Bool
  | .finishTest _ targetIP latency _ =>
    if targetIP = ip ∧ (p.allIPs.lookup ip).isSome = true then some latency.isSome else none
  | _ => none

/-- The outcome of the last check of an address, if it was checked. -/
def lastCheck (trace : List Event) (ip : String) : Option Bool :=
  lastWrite step (checkOf ip) {} trace

/-- No failure in the run was reported of an address whose record has no positive latency. -/
def NoBlindReport (trace : List Event) : Prop :=
  ∀ pre ip post q r, trace = pre ++ .reportFailure ip :: post → Reaches pre q →
    q.allIPs.lookup ip = some r → 0 < (q.heap r).latencyVal

theorem NoBlindReport.left {trace more : List Event} (h : NoBlindReport (trace ++ more)) :
    NoBlindReport trace := by
  rintro pre ip post q r rfl
  exact h pre ip (post ++ more) q r (by simp)

theorem lastCheck_concat {trace : List Event} {p : CloudflarePool} (h : Reaches trace p)
    (e : Event) (ip : String) :
    lastCheck (trace ++ [e]) ip = (checkOf ip p e).or (lastCheck trace ip) :=
  lastWrite_concat h e

/-- A record of the map was there before, or it is new. -/
theorem step_lookup {p p' : CloudflarePool} {e : Event} (h : step p e = some p') {ip : String}
    {r : Nat} (hr : p'.allIPs.lookup ip = some r) :
    p.allIPs.lookup ip = some r ∨ (p'.heap r).latencyVal = 0 := by
  cases he : e.rebuilds with
  | false => exact .inl ((step_keeps h he).1.lookup ip r hr)
  | true =>
    cases e with
    | updateIPs ips order =>
      simp only [step, updateIPs] at h
      split at h
      · obtain rfl := Option.some.inj h
        exact (replaceIPs_replaces p ips).lookup ip r hr
      · cases h
    | rebuildActiveIPs i order =>
      simp only [step, rebuildActiveIPs] at h
      split at h
      · obtain rfl := Option.some.inj h
        exact .inl hr
      · cases h
    | _ => cases he

/-- In a run without such reports a record that no check has proved has no latency. -/
theorem unproven_latency {trace : List Event} {p : CloudflarePool} (h : Reaches trace p)
    (hreports : NoBlindReport trace) {ip : String} (hcheck : lastCheck trace ip ≠ some true)
    {r : Nat} (hr : p.allIPs.lookup ip = some r) : (p.heap r).latencyVal ≤ 0 := by
  refine exec_invariant
    (I := fun trace p => NoBlindReport trace → lastCheck trace ip ≠ some true →
      ∀ r, p.allIPs.lookup ip = some r → (p.heap r).latencyVal ≤ 0) h
    (fun _ _ _ _ => Int.le_refl 0) (fun trace p e p' hp hinv hstep hreports hcheck r hr => ?_)
    hreports hcheck r hr
  rw [lastCheck_concat hp] at hcheck
  rcases step_lookup hstep hr with hold | hnew
  swap
  · exact Int.le_of_eq hnew
  have hwf : p.WellFormed := (Reaches.inv hp).wellFormed
  have hbefore : checkOf ip p e = none → (p.heap r).latencyVal ≤ 0 := by
    intro hnone
    rw [hnone, Option.none_or] at hcheck
    exact hinv hreports.left hcheck r hold
  have hrecord := step_record hstep r
  generalize p'.heap r = after at hrecord ⊢
  cases hrecord with
  | same huntested =>
    refine hbefore ?_
    cases e with
    | finishTest i targetIP latency now =>
      refine if_neg fun htarget => huntested i targetIP latency now rfl ?_
      rw [htarget.1]
      exact hold
    | _ => rfl
  | fresh => exact Int.le_refl 0
  | failed ip' he hr' =>
    subst he
    obtain rfl := hwf.ip_eq hold hr'
    have hpos := hreports trace ip' [] p r rfl hp hold
    have hle := hbefore rfl
    omega
  | succeeded ip' he =>
    subst he
    exact hbefore rfl
  | tested i ip' latency now he hr' =>
    subst he
    obtain rfl := hwf.ip_eq hold hr'
    cases latency with
    | none => exact Int.le_refl 0
    | some d => simp [checkOf, hold] at hcheck

/-- Such an address does not come on the list. -/
theorem unproven_step {trace : List Event} {p p' : CloudflarePool} {e : Event}
    (h : Reaches trace p) (hstep : step p e = some p') (hreports : NoBlindReport (trace ++ [e]))
    {ip : String} (hcheck : lastCheck (trace ++ [e]) ip ≠ some true) (hout : ¬ p.Lists ip) :
    ¬ p'.Lists ip := by
  cases he : e.rebuilds with
  | true =>
    obtain ⟨hwf, hsorts, -⟩ := step_rebuilds hstep he h.inv.wellFormed
    rw [lists_iff_of_sorts hwf hsorts]
    rintro ⟨r, hr, hhealthy⟩
    have hle := unproven_latency (exec_concat.mpr ⟨p, h, hstep⟩) hreports hcheck hr
    have hpos := ((p'.heap r).healthy_iff.mp hhealthy).1
    omega
  | false =>
    have hkeeps := (step_keeps hstep he).1
    rintro ⟨r, hr, hip⟩
    rw [hkeeps.activeIPs] at hr
    exact hout ⟨r, hr, by rw [← hkeeps.ip, hip]⟩

theorem unproven_stays_out {trace more : List Event} {p p' : CloudflarePool}
    (h : Reaches trace p) (hmore : exec step p more = some p')
    (hreports : NoBlindReport (trace ++ more)) {ip : String}
    (hcheck : ∀ pre, pre <+: more → lastCheck (trace ++ pre) ip ≠ some true)
    (hout : ¬ p.Lists ip) : ¬ p'.Lists ip := by
  induction more using List.reverseRecOn generalizing p' with
  | nil =>
    obtain rfl := Option.some.inj hmore
    exact hout
  | append_singleton more e ih =>
    obtain ⟨q, hq, hstep⟩ := exec_concat.mp hmore
    rw [← List.append_assoc] at hreports
    have hqout := ih hq hreports.left fun pre hpre =>
      hcheck pre (hpre.trans (List.prefix_append more [e]))
    have hreach : Reaches (trace ++ more) q := by
      rw [Reaches, exec_append, show exec step {} trace = some p from h]
      exact hq
    refine unproven_step hreach hstep hreports ?_ hqout
    rw [List.append_assoc]
    exact hcheck _ List.prefix_rfl

/-- **Failing and the active list.** In every state of a run: a report of a failure leaves an
address off the list exactly when it was on it, has no record, or has one that is not healthy
with the failure and the penalty; it leaves the address behind those that were ahead of it
exactly when these are faster than the address with the penalty, which they are on a list that
is up to date; and in a run in which no failure is reported of an address without a positive
latency, an address off the list stays off it until a check of it succeeds. -/
theorem failure_promotion {trace : List Event} {p : CloudflarePool} (h : Reaches trace p)
    (hfits : ∀ e ∈ trace, e.Fits) (ip : String) :
    ((∀ order q, failureCall p ip order = some q → ¬ p.Lists ip → ¬ q.Lists ip) ↔
        p.Lists ip ∨ ∀ r, p.allIPs.lookup ip = some r → ¬ (p.heap r).Survives) ∧
      ((∀ order q, failureCall p ip order = some q → ∀ a, p.Ahead a ip → ¬ q.Ahead ip a) ↔
        p.InOrder ip) ∧
      (p.Sorts p.activeIPs → p.InOrder ip) ∧
      ∀ more q, NoBlindReport (trace ++ more) → exec step p more = some q →
        (∀ pre, pre <+: more → lastCheck (trace ++ pre) ip ≠ some true) →
        ¬ p.Lists ip → ¬ q.Lists ip := by
  have hwf : p.WellFormed := h.inv.wellFormed
  have hduration := latency_isDuration h hfits
  refine ⟨failureCall_keepsOut_iff hwf ip, failureCall_keepsOrder_iff hwf hduration ip,
    fun hsorts => inOrder_of_sorts hwf hsorts hduration ip, ?_⟩
  intro more q hreports hmore hcheck hout
  exact unproven_stays_out h hmore hreports hcheck hout

/-- An address that is checked and then fails three times. -/
def struck : List Event :=
  [.updateIPs ["192.0.2.1"] [], .readIPs 0 0, .finishTest 0 "192.0.2.1" (some 5) 0,
    .rebuildActiveIPs 0 [0],
    .reportFailure "192.0.2.1", .rebuildActiveIPs 0 [0],
    .reportFailure "192.0.2.1", .rebuildActiveIPs 1 [0],
    .reportFailure "192.0.2.1", .rebuildActiveIPs 2 []]

theorem struck_stays_out :
    ∃ p, Reaches struck p ∧ (∀ e ∈ struck, e.Fits) ∧ ¬ p.Lists "192.0.2.1" ∧
      ∀ order q, failureCall p "192.0.2.1" order = some q → ¬ q.Lists "192.0.2.1" := by
  have hrun : (exec step {} struck).map
      (fun p => (p.activeIPs, p.allIPs.lookup "192.0.2.1", (p.heap 0).failures)) =
        some ([], some 0, 3) := by decide
  obtain ⟨p, hp, heq⟩ := Option.map_eq_some_iff.mp hrun
  simp only [Prod.mk.injEq] at heq
  obtain ⟨hactive, hlookup, hfailures⟩ := heq
  have hfits : ∀ e ∈ struck, e.Fits := by
    simp [struck, Event.Fits, IsDuration]
  have hout : ¬ p.Lists "192.0.2.1" := by
    rintro ⟨r, hr, -⟩
    rw [hactive] at hr
    cases hr
  refine ⟨p, hp, hfits, hout, fun order q hcall => ?_⟩
  refine (failure_promotion hp hfits "192.0.2.1").1.mpr (.inr fun r hr hsurvives => ?_)
    order q hcall hout
  rw [hlookup] at hr
  obtain rfl := Option.some.inj hr
  have hlt := hsurvives.2
  rw [hfailures] at hlt
  revert hlt
  decide

/-- An address that was never checked comes on the list by failing. -/
theorem unchecked_promoted :
    ∃ p q, Reaches [.updateIPs ["192.0.2.1"] []] p ∧
      lastCheck [.updateIPs ["192.0.2.1"] []] "192.0.2.1" = none ∧ ¬ p.Lists "192.0.2.1" ∧
      failureCall p "192.0.2.1" [0] = some q ∧ q.Lists "192.0.2.1" := by
  have hrun : (exec step {} [.updateIPs ["192.0.2.1"] []]).map (·.activeIPs) = some [] := by decide
  obtain ⟨p, hp, hactive⟩ := Option.map_eq_some_iff.mp hrun
  have hcall : ((exec step {} [.updateIPs ["192.0.2.1"] []]).bind
      (failureCall · "192.0.2.1" [0])).map (fun q => (q.activeIPs, (q.heap 0).ip)) =
        some ([0], "192.0.2.1") := by decide
  rw [hp, Option.bind_some] at hcall
  obtain ⟨q, hq, heq⟩ := Option.map_eq_some_iff.mp hcall
  rw [Prod.mk.injEq] at heq
  refine ⟨p, q, hp, rfl, ?_, hq, 0, by simp [heq.1], heq.2⟩
  rintro ⟨r, hr, -⟩
  rw [hactive] at hr
  cases hr

/-- Two addresses on the list, and a check that has measured ten seconds for the first of them
and is not done yet. -/
def outOfDate : List Event :=
  [.updateIPs ["192.0.2.1", "192.0.2.2"] [], .readIPs 0 0,
    .finishTest 0 "192.0.2.1" (some 5) 0, .finishTest 0 "192.0.2.2" (some 6) 0,
    .rebuildActiveIPs 0 [0, 1], .checkAllIPs, .readIPs 0 0,
    .finishTest 0 "192.0.2.1" (some (10 * second)) 0]

/-- The report of a failure of the second address brings it to the front. -/
example : (exec step {} outOfDate).map (·.activeIPs) = some [0, 1] ∧
    ((exec step {} outOfDate).bind (failureCall · "192.0.2.2" [1, 0])).map (·.activeIPs) =
      some [1, 0] := by
  decide

end SniShaper.Pool
