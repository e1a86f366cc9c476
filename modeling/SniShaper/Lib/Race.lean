import Mathlib.Data.List.Basic
import Mathlib.Tactic.Common

/-! A race between workers that report on one channel.

Every worker sends one result. A worker whose result is good cancels the others after it has
sent; what a cancelled worker reports is up to it. The receiver takes as many results as there
are workers and stops at the first good one.

* `Change`, `step_cases`: what an event does, and `Inv.step`: what it keeps;
* `Inv.send_enabled`: there is always room in the channel for the next result;
* `Inv.won_iff`: the race is won exactly when a worker was good before a cancellation;
* `Inv.progress`, `Inv.measure_lt`: the receiver is never stuck, and the race ends. -/

namespace SniShaper.Race

/-- What a worker found out, and whether a cancellation came before. -/
structure Report (ρ : Type*) where
  reply : ρ
  late : Bool

inductive Worker (ρ : Type*) where
  | asking
  | sending (r : Report ρ)
  /-- The result is sent, and the others are to be cancelled. -/
  | sent (r : Report ρ)
  | done (r : Report ρ)

inductive Stage (ω : Type*) where
  | receiving (taken : Nat)
  | won (result : ω)
  | lost

/-- How a reply is judged by the worker, sent, and judged by the receiver. -/
structure Protocol (ρ ω : Type*) where
  good : ρ → Bool
  wire : ρ → ω
  accepts : ω → Bool
  agree : ∀ r, accepts (wire r) = good r

structure State (ρ ω : Type*) where
  workers : List (Worker ρ)
  capacity : Nat
  chan : List ω := []
  cancelled : Bool := false
  stage : Stage ω

inductive Event (ρ : Type*) where
  | finish (i : Nat) (r : ρ)
  | send (i : Nat)
  | cancel (i : Nat)
  | receive

variable {ρ ω : Type*}

def Worker.report : Worker ρ → Option (Report ρ)
  | .asking => none
  | .sending r | .sent r | .done r => some r

def Worker.hasSent : Worker ρ → Bool
  | .asking | .sending _ => false
  | .sent _ | .done _ => true

/-- Nothing is received if there is nobody to wait for. -/
def start (n capacity : Nat) : State ρ ω :=
  { workers := List.replicate n .asking
    capacity := capacity
    stage := if n = 0 then .lost else .receiving 0 }

/-- One event; `none` if it cannot come now. A send waits for room in the channel. -/
def step (p : Protocol ρ ω) (s : State ρ ω) : Event ρ → Option (State ρ ω)
  | .finish i r =>
    match s.workers[i]? with
    | some .asking => some { s with workers := s.workers.set i (.sending ⟨r, s.cancelled⟩) }
    | _ => none
  | .send i =>
    match s.workers[i]? with
    | some (.sending r) =>
      if s.chan.length < s.capacity then
        some { s with
          chan := s.chan ++ [p.wire r.reply]
          workers := s.workers.set i (if p.good r.reply then .sent r else .done r) }
      else none
    | _ => none
  | .cancel i =>
    match s.workers[i]? with
    | some (.sent r) => some { s with cancelled := true, workers := s.workers.set i (.done r) }
    | _ => none
  | .receive =>
    match s.stage, s.chan with
    | .receiving taken, result :: chan =>
      if p.accepts result then
        some { s with chan := chan, stage := .won result, cancelled := true }
      else
        some { s with
          chan := chan
          stage := if taken + 1 < s.workers.length then .receiving (taken + 1) else .lost }
    | _, _ => none

/-- The receiver has an answer, or has all results. -/
def State.Over (s : State ρ ω) : Prop := ∀ taken, s.stage ≠ .receiving taken

/-! ## The invariant -/

/-- A worker has come to this result. -/
def State.Reported (s : State ρ ω) (r : Report ρ) : Prop := ∃ w ∈ s.workers, w.report = some r

/-- A worker was good, and no cancellation came before it. -/
def State.Succeeded (p : Protocol ρ ω) (s : State ρ ω) : Prop :=
  ∃ r, s.Reported ⟨r, false⟩ ∧ p.good r = true

structure Inv (p : Protocol ρ ω) (s : State ρ ω) : Prop where
  room : s.workers.length ≤ s.capacity
  chan_le : s.chan.length ≤ s.workers.countP Worker.hasSent
  origin : ∀ result ∈ s.chan, ∃ r, s.Reported r ∧ result = p.wire r.reply
  sent_good : ∀ r, .sent r ∈ s.workers → p.good r.reply = true
  late : ∀ r, s.Reported r → r.late = true → s.cancelled = true
  cancelled : s.cancelled = true → s.Succeeded p
  good : ∀ r, s.Reported r → p.good r.reply = true → s.Succeeded p
  receiving : ∀ taken, s.stage = .receiving taken →
    taken < s.workers.length ∧ s.chan.length + taken = s.workers.countP Worker.hasSent ∧
      ∀ w ∈ s.workers, w.hasSent = true → ∀ r, w.report = some r → p.good r.reply = true →
        p.wire r.reply ∈ s.chan
  won : ∀ result, s.stage = .won result →
    ∃ r, s.Reported r ∧ p.good r.reply = true ∧ result = p.wire r.reply
  lost : s.stage = .lost → ∀ w ∈ s.workers, ∃ r, w = .done ⟨r, false⟩ ∧ p.good r = false

theorem inv_start (p : Protocol ρ ω) {n capacity : Nat} (h : n ≤ capacity) :
    Inv p (start n capacity) := by
  have hasking : ∀ w ∈ (start n capacity : State ρ ω).workers, w = .asking := fun w hw =>
    List.eq_of_mem_replicate hw
  have hnone : ∀ r, ¬ (start n capacity : State ρ ω).Reported r := by
    rintro r ⟨w, hw, hr⟩
    rw [hasking w hw] at hr
    cases hr
  constructor
  · simpa [start] using h
  · simp [start]
  · simp [start]
  · intro r hr
    cases hasking _ hr
  · intro r hr
    exact absurd hr (hnone r)
  · intro hc
    cases hc
  · intro r hr
    exact absurd hr (hnone r)
  · intro taken ht
    simp only [start] at ht
    split at ht
    · cases ht
    · cases ht
      refine ⟨by simp only [start, List.length_replicate]; omega, ?_, fun w hw hs => ?_⟩
      · simp [start, List.countP_replicate, Worker.hasSent]
      · rw [hasking w hw] at hs
        cases hs
  · intro result hw
    simp only [start] at hw
    split at hw <;> cases hw
  · intro hl w hw
    simp only [start] at hl hw
    split at hl
    · rename_i hzero
      simp [hzero] at hw
    · cases hl

/-! ## What a worker does -/

/-- What an event changes at a worker, the results it puts into the channel, and whether the
race is cancelled afterwards. -/
inductive Change (p : Protocol ρ ω) (cancelled : Bool) :
    Worker ρ → Worker ρ → List ω → Bool → Prop where
  | finish (r : ρ) : Change p cancelled .asking (.sending ⟨r, cancelled⟩) [] cancelled
  | sendGood (r : Report ρ) : p.good r.reply = true →
      Change p cancelled (.sending r) (.sent r) [p.wire r.reply] cancelled
  | sendBad (r : Report ρ) : p.good r.reply = false →
      Change p cancelled (.sending r) (.done r) [p.wire r.reply] cancelled
  | cancel (r : Report ρ) : Change p cancelled (.sent r) (.done r) [] true

/-- The state after the change of the `i`-th worker. -/
def State.change (s : State ρ ω) (i : Nat) (new : Worker ρ) (added : List ω) (cancelled : Bool) :
    State ρ ω :=
  { s with workers := s.workers.set i new, chan := s.chan ++ added, cancelled := cancelled }

section Change

variable {p : Protocol ρ ω} {c c' : Bool} {old new : Worker ρ} {added : List ω}

theorem Change.report (h : Change p c old new added c') :
    old.report = none ∨ old.report = new.report := by
  cases h with
  | finish r => exact .inl rfl
  | sendGood r hr => exact .inr rfl
  | sendBad r hr => exact .inr rfl
  | cancel r => exact .inr rfl

theorem Change.ne_done (h : Change p c old new added c') (r : Report ρ) : old ≠ .done r := by
  cases h <;> simp

/-- The channel grows by one result when the worker has sent. -/
theorem Change.count (h : Change p c old new added c') :
    added.length + old.hasSent.toNat = new.hasSent.toNat := by
  cases h <;> rfl

theorem Change.mem_added (h : Change p c old new added c') {result : ω} (hr : result ∈ added) :
    ∃ r, new.report = some r ∧ result = p.wire r.reply := by
  cases h with
  | finish r => cases hr
  | sendGood r hgood => exact ⟨r, rfl, List.mem_singleton.mp hr⟩
  | sendBad r hbad => exact ⟨r, rfl, List.mem_singleton.mp hr⟩
  | cancel r => cases hr

theorem Change.onWire (h : Change p c old new added c') (hsent : new.hasSent = true)
    {r : Report ρ} (hr : new.report = some r) :
    (old.hasSent = true ∧ old.report = some r) ∨ p.wire r.reply ∈ added := by
  cases h with
  | finish r' => cases hsent
  | sendGood r' hgood =>
    obtain rfl := Option.some.inj hr
    exact .inr (by simp)
  | sendBad r' hbad =>
    obtain rfl := Option.some.inj hr
    exact .inr (by simp)
  | cancel r' => exact .inl ⟨rfl, hr⟩

/-- A new result is late exactly after a cancellation. -/
theorem Change.late (h : Change p c old new added c') {r : Report ρ} (hr : new.report = some r) :
    old.report = some r ∨ r.late = c := by
  cases h with
  | finish r' =>
    obtain rfl := Option.some.inj hr
    exact .inr rfl
  | sendGood r' hgood => exact .inl hr
  | sendBad r' hbad => exact .inl hr
  | cancel r' => exact .inl hr

theorem Change.cancelled (h : Change p c old new added c') :
    c' = c ∨ (c' = true ∧ ∃ r, old = .sent r) := by
  cases h with
  | finish r => exact .inl rfl
  | sendGood r hgood => exact .inl rfl
  | sendBad r hbad => exact .inl rfl
  | cancel r => exact .inr ⟨rfl, r, rfl⟩

theorem Change.sent_good (h : Change p c old new added c') {r : Report ρ} (hr : new = .sent r) :
    p.good r.reply = true := by
  cases h with
  | finish r' => cases hr
  | sendGood r' hgood =>
    cases hr
    exact hgood
  | sendBad r' hbad => cases hr
  | cancel r' => cases hr

end Change

/-- Where a worker stands in the list, before and after its change. -/
theorem set_split {l : List (Worker ρ)} {i : Nat} {old : Worker ρ} (h : l[i]? = some old)
    (new : Worker ρ) : ∃ pre post, l = pre ++ old :: post ∧ l.set i new = pre ++ new :: post := by
  obtain ⟨hi, hold⟩ := List.getElem?_eq_some_iff.mp h
  refine ⟨l.take i, l.drop (i + 1), ?_, List.set_eq_take_append_cons_drop.trans (if_pos hi)⟩
  rw [← hold, List.getElem_cons_drop, List.take_append_drop]

theorem mem_set_split {l : List (Worker ρ)} {i : Nat} {old : Worker ρ} (h : l[i]? = some old)
    (new : Worker ρ) : ∃ others : List (Worker ρ),
      (∀ w, w ∈ l ↔ w = old ∨ w ∈ others) ∧ ∀ w, w ∈ l.set i new ↔ w = new ∨ w ∈ others := by
  obtain ⟨pre, post, hl, hset⟩ := set_split h new
  refine ⟨pre ++ post, fun w => ?_, fun w => ?_⟩
  · rw [hl]
    simp only [List.mem_append, List.mem_cons]
    tauto
  · rw [hset]
    simp only [List.mem_append, List.mem_cons]
    tauto

theorem count_set {l : List (Worker ρ)} {i : Nat} {old : Worker ρ} (h : l[i]? = some old)
    (new : Worker ρ) :
    (l.set i new).countP Worker.hasSent + old.hasSent.toNat =
      l.countP Worker.hasSent + new.hasSent.toNat := by
  obtain ⟨pre, post, hl, hset⟩ := set_split h new
  rw [hset, hl]
  simp only [List.countP_append, List.countP_cons]
  cases old.hasSent <;> cases new.hasSent <;> simp <;> omega

section Steps

variable {p : Protocol ρ ω} {s : State ρ ω} {i : Nat} {old new : Worker ρ} {added : List ω}
  {c : Bool}

theorem reported_change (hi : s.workers[i]? = some old) (hc : Change p s.cancelled old new added c)
    {r : Report ρ} : (s.change i new added c).Reported r ↔ s.Reported r ∨ new.report = some r := by
  obtain ⟨others, hmem, hmem'⟩ := mem_set_split hi new
  simp only [State.Reported, State.change, hmem, hmem', or_and_right, exists_or, exists_eq_left]
  constructor
  · rintro (hnew | hother)
    · exact .inr hnew
    · exact .inl (.inr hother)
  · rintro ((hold | hother) | hnew)
    · rcases hc.report with hnone | hsame
      · rw [hnone] at hold
        cases hold
      · exact .inl (hsame ▸ hold)
    · exact .inr hother
    · exact .inl hnew

theorem succeeded_change (hi : s.workers[i]? = some old)
    (hc : Change p s.cancelled old new added c) (h : s.Succeeded p) :
    (s.change i new added c).Succeeded p := by
  obtain ⟨r, hr, hgood⟩ := h
  exact ⟨r, (reported_change hi hc).mpr (.inl hr), hgood⟩

theorem Inv.change (h : Inv p s) (hi : s.workers[i]? = some old)
    (hc : Change p s.cancelled old new added c) : Inv p (s.change i new added c) := by
  obtain ⟨others, hmem, hmem'⟩ := mem_set_split hi new
  have hcount := count_set hi new
  have hadded := hc.count
  constructor
  · simpa [State.change] using h.room
  · have hle := h.chan_le
    simp only [State.change, List.length_append]
    omega
  · intro result hresult
    rcases List.mem_append.mp hresult with hold | hnew
    · obtain ⟨r, hr, heq⟩ := h.origin result hold
      exact ⟨r, (reported_change hi hc).mpr (.inl hr), heq⟩
    · obtain ⟨r, hr, heq⟩ := hc.mem_added hnew
      exact ⟨r, (reported_change hi hc).mpr (.inr hr), heq⟩
  · intro r hr
    rcases (hmem' _).mp hr with hnew | hother
    · exact hc.sent_good hnew.symm
    · exact h.sent_good r ((hmem _).mpr (.inr hother))
  · intro r hr hlate
    have hwas : s.cancelled = true := by
      rcases (reported_change hi hc).mp hr with hold | hnew
      · exact h.late r hold hlate
      · rcases hc.late hnew with hold | heq
        · exact h.late r ⟨old, List.mem_of_getElem? hi, hold⟩ hlate
        · rw [← heq, hlate]
    rcases hc.cancelled with hsame | ⟨htrue, -⟩
    · exact hsame.trans hwas
    · exact htrue
  · intro htrue
    refine succeeded_change hi hc ?_
    rcases hc.cancelled with hsame | ⟨-, r, rfl⟩
    · exact h.cancelled (hsame.symm.trans htrue)
    · have hold : Worker.sent r ∈ s.workers := List.mem_of_getElem? hi
      exact h.good r ⟨_, hold, rfl⟩ (h.sent_good r hold)
  · intro r hr hgood
    rcases (reported_change hi hc).mp hr with hold | hnew
    · exact succeeded_change hi hc (h.good r hold hgood)
    · rcases hc.late hnew with hold | heq
      · exact succeeded_change hi hc (h.good r ⟨old, List.mem_of_getElem? hi, hold⟩ hgood)
      · -- after a cancellation somebody else was good before
        cases hwas : s.cancelled with
        | true => exact succeeded_change hi hc (h.cancelled hwas)
        | false =>
          obtain ⟨reply, late⟩ := r
          obtain rfl : late = false := heq.trans hwas
          exact ⟨reply, hr, hgood⟩
  · intro taken ht
    obtain ⟨hlt, hsum, hall⟩ := h.receiving taken ht
    refine ⟨by simpa [State.change] using hlt, ?_, fun w hw hsent r hr hgood => ?_⟩
    · simp only [State.change, List.length_append]
      omega
    · simp only [State.change, List.mem_append]
      rcases (hmem' w).mp hw with rfl | hother
      · rcases hc.onWire hsent hr with ⟨hsent', hr'⟩ | hmem
        · exact .inl (hall old (List.mem_of_getElem? hi) hsent' r hr' hgood)
        · exact .inr hmem
      · exact .inl (hall w ((hmem w).mpr (.inr hother)) hsent r hr hgood)
  · intro result hw
    obtain ⟨r, hr, hgood, heq⟩ := h.won result hw
    exact ⟨r, (reported_change hi hc).mpr (.inl hr), hgood, heq⟩
  · intro hlost
    obtain ⟨r, hr, -⟩ := h.lost hlost old (List.mem_of_getElem? hi)
    exact absurd hr (hc.ne_done _)

/-- When nobody was good, nobody was cancelled, and who has sent is done. -/
theorem Inv.done_of_sent (h : Inv p s)
    (hnone : ∀ w ∈ s.workers, ∀ r, w.report = some r → p.good r.reply = false)
    {w : Worker ρ} (hw : w ∈ s.workers) (hsent : w.hasSent = true) :
    ∃ r, w = .done ⟨r, false⟩ ∧ p.good r = false := by
  have hnever : s.cancelled = false := by
    by_contra hc
    obtain ⟨r, ⟨w, hw, hr⟩, hgood⟩ := h.cancelled (by simpa using hc)
    rw [hnone w hw _ hr] at hgood
    cases hgood
  cases w with
  | asking => cases hsent
  | sending r => cases hsent
  | sent r =>
    have hgood := h.sent_good r hw
    rw [hnone _ hw r rfl] at hgood
    cases hgood
  | done r =>
    obtain ⟨reply, late⟩ := r
    have hlate : late = false := by
      by_contra hlate
      have hc := h.late ⟨reply, late⟩ ⟨_, hw, rfl⟩ (by simpa using hlate)
      rw [hnever] at hc
      cases hc
    exact ⟨reply, by rw [hlate], hnone _ hw _ rfl⟩

/-- A result that is not accepted: the last one shows that all workers have failed. -/
theorem Inv.receive (h : Inv p s) {taken : Nat} (ht : s.stage = .receiving taken) {result : ω}
    {chan : List ω} (hchan : s.chan = result :: chan) (hbad : p.accepts result = false) :
    Inv p { s with
      chan := chan
      stage := if taken + 1 < s.workers.length then .receiving (taken + 1) else .lost } := by
  obtain ⟨hlt, hsum, hall⟩ := h.receiving taken ht
  rw [hchan, List.length_cons] at hsum
  have hwire : ∀ r, p.wire r = result → p.good r = false := fun r hr => by
    rw [← p.agree, hr, hbad]
  have hleft : ∀ w ∈ s.workers, w.hasSent = true → ∀ r, w.report = some r →
      p.good r.reply = true → p.wire r.reply ∈ chan := by
    intro w hw hsent r hr hgood
    have hmem := hall w hw hsent r hr hgood
    rw [hchan, List.mem_cons] at hmem
    refine hmem.resolve_left fun heq => ?_
    rw [hwire _ heq] at hgood
    cases hgood
  refine ⟨h.room, ?_, fun result' hr => h.origin result' (by rw [hchan]; simp [hr]), h.sent_good,
    h.late, h.cancelled, h.good, fun taken' ht' => ?_, fun result' hw => ?_, fun hlost => ?_⟩
  · have hle := h.chan_le
    rw [hchan, List.length_cons] at hle
    exact Nat.le_of_succ_le hle
  · simp only at ht'
    split at ht'
    · rename_i hmore
      cases ht'
      exact ⟨hmore, by simp only; omega, hleft⟩
    · cases ht'
  · simp only at hw
    split at hw <;> cases hw
  · simp only at hlost
    split at hlost
    · cases hlost
    rename_i hlast
    have hle : s.workers.countP Worker.hasSent ≤ s.workers.length := List.countP_le_length
    have hnil : chan = [] := List.length_eq_zero_iff.mp (by omega)
    have hsent : ∀ w ∈ s.workers, w.hasSent = true := List.countP_eq_length.mp (by omega)
    have hnone : ∀ w ∈ s.workers, ∀ r, w.report = some r → p.good r.reply = false := by
      intro w hw r hr
      by_contra hgood
      have hmem := hleft w hw (hsent w hw) r hr (by simpa using hgood)
      rw [hnil] at hmem
      cases hmem
    exact fun w hw => h.done_of_sent hnone hw (hsent w hw)

/-- A result that is accepted ends the race. -/
theorem Inv.accept (h : Inv p s) {result : ω} {chan : List ω} (hchan : s.chan = result :: chan)
    (hok : p.accepts result = true) :
    Inv p { s with chan := chan, stage := .won result, cancelled := true } := by
  obtain ⟨r, hr, rfl⟩ := h.origin result (by rw [hchan]; simp)
  have hgood : p.good r.reply = true := by rw [← p.agree, hok]
  refine ⟨h.room, ?_, fun result' hr' => h.origin result' (by rw [hchan]; simp [hr']), h.sent_good,
    fun _ _ _ => rfl, fun _ => h.good r hr hgood, h.good, fun taken ht => ?_, fun result' hw => ?_,
    fun hlost => ?_⟩
  · have hle := h.chan_le
    rw [hchan, List.length_cons] at hle
    exact Nat.le_of_succ_le hle
  · cases ht
  · cases hw
    exact ⟨r, hr, hgood, rfl⟩
  · cases hlost

/-- An event is a change of one worker, or takes a result from the channel. -/
theorem step_cases {e : Event ρ} {s' : State ρ ω} (hstep : step p s e = some s') :
    (∃ i old new added c, s.workers[i]? = some old ∧ Change p s.cancelled old new added c ∧
        (∀ r, new.report = some r → old.report = some r ∨ e = .finish i r.reply) ∧
        s' = s.change i new added c) ∨
      ∃ taken result chan, s.stage = .receiving taken ∧ s.chan = result :: chan ∧
        ((p.accepts result = true ∧
            s' = { s with chan := chan, stage := .won result, cancelled := true }) ∨
          (p.accepts result = false ∧
            s' = { s with
              chan := chan
              stage := if taken + 1 < s.workers.length then .receiving (taken + 1)
                else .lost })) := by
  cases e with
  | finish i r =>
    simp only [step] at hstep
    split at hstep
    · rename_i hi
      obtain rfl := Option.some.inj hstep
      refine .inl ⟨i, _, _, _, _, hi, .finish r, fun r' hr' => .inr ?_, by simp [State.change]⟩
      rw [← Option.some.inj hr']
    · cases hstep
  | send i =>
    simp only [step] at hstep
    split at hstep
    · rename_i r hi
      split at hstep
      · obtain rfl := Option.some.inj hstep
        cases hgood : p.good r.reply with
        | true =>
          exact .inl ⟨i, _, _, _, _, hi, .sendGood r hgood, fun _ => .inl, by simp [State.change]⟩
        | false =>
          exact .inl ⟨i, _, _, _, _, hi, .sendBad r hgood, fun _ => .inl, by simp [State.change]⟩
      · cases hstep
    · cases hstep
  | cancel i =>
    simp only [step] at hstep
    split at hstep
    · rename_i r hi
      obtain rfl := Option.some.inj hstep
      exact .inl ⟨i, _, _, _, _, hi, .cancel r, fun _ => .inl, by simp [State.change]⟩
    · cases hstep
  | receive =>
    simp only [step] at hstep
    split at hstep
    · rename_i taken result chan hstage hchan
      refine .inr ⟨taken, result, chan, hstage, hchan, ?_⟩
      split at hstep
      · rename_i hok
        exact .inl ⟨hok, (Option.some.inj hstep).symm⟩
      · rename_i hbad
        exact .inr ⟨by simpa using hbad, (Option.some.inj hstep).symm⟩
    · cases hstep

theorem step_stage (hover : s.Over) {e : Event ρ} {s' : State ρ ω} (hstep : step p s e = some s') :
    s'.stage = s.stage := by
  rcases step_cases hstep with ⟨i, old, new, added, c, hi, hc, -, rfl⟩ | ⟨taken, _, _, ht, -⟩
  · rfl
  · exact absurd ht (hover taken)

theorem step_length {e : Event ρ} {s' : State ρ ω} (hstep : step p s e = some s') :
    s'.workers.length = s.workers.length := by
  rcases step_cases hstep with ⟨i, old, new, added, c, hi, hc, -, rfl⟩ |
    ⟨taken, result, chan, ht, hchan, ⟨hok, rfl⟩ | ⟨hbad, rfl⟩⟩
  · simp [State.change]
  · rfl
  · rfl

/-- A worker comes to a result only by finishing. -/
theorem reported_step {e : Event ρ} {s' : State ρ ω} (hstep : step p s e = some s')
    {r : Report ρ} (hr : s'.Reported r) : s.Reported r ∨ ∃ i, e = .finish i r.reply := by
  rcases step_cases hstep with ⟨i, old, new, added, c, hi, hc, hnew, rfl⟩ |
    ⟨taken, result, chan, ht, hchan, ⟨hok, rfl⟩ | ⟨hbad, rfl⟩⟩
  · rcases (reported_change hi hc).mp hr with hold | hnewr
    · exact .inl hold
    · rcases hnew r hnewr with hold | hfinish
      · exact .inl ⟨old, List.mem_of_getElem? hi, hold⟩
      · exact .inr ⟨i, hfinish⟩
  · exact .inl hr
  · exact .inl hr

theorem Inv.step (h : Inv p s) {e : Event ρ} {s' : State ρ ω} (hstep : step p s e = some s') :
    Inv p s' := by
  rcases step_cases hstep with ⟨i, old, new, added, c, hi, hc, -, rfl⟩ |
    ⟨taken, result, chan, ht, hchan, ⟨hok, rfl⟩ | ⟨hbad, rfl⟩⟩
  · exact h.change hi hc
  · exact h.accept hchan hok
  · exact h.receive ht hchan hbad

/-! ## What follows -/

/-- The race is won exactly when a worker was good before a cancellation. -/
theorem Inv.won_iff (h : Inv p s) (hover : s.Over) :
    (∃ result, s.stage = .won result) ↔ s.Succeeded p := by
  constructor
  · rintro ⟨result, hw⟩
    obtain ⟨r, hr, hgood, -⟩ := h.won result hw
    exact h.good r hr hgood
  · rintro ⟨r, ⟨w, hw, hr⟩, hgood⟩
    cases hstage : s.stage with
    | receiving taken => exact absurd hstage (hover taken)
    | won result => exact ⟨result, rfl⟩
    | lost =>
      obtain ⟨r', rfl, hbad⟩ := h.lost hstage w hw
      obtain rfl : r' = r := congrArg Report.reply (Option.some.inj hr)
      rw [hgood] at hbad
      cases hbad

/-- A worker that has not sent finds room: each of them sends once. -/
theorem Inv.send_enabled (h : Inv p s) {r : Report ρ} (hi : s.workers[i]? = some (.sending r)) :
    (Race.step p s (.send i)).isSome = true := by
  have hlt : s.workers.countP Worker.hasSent < s.workers.length := by
    refine Nat.lt_of_le_of_ne List.countP_le_length fun heq => ?_
    have hsent := List.countP_eq_length.mp heq _ (List.mem_of_getElem? hi)
    cases hsent
  have hle := h.chan_le
  have hroom := h.room
  simp only [Race.step, hi]
  rw [if_pos (by omega)]
  rfl

/-- Until the race is over a worker has still to answer, or something else can happen. -/
theorem Inv.progress (h : Inv p s) (hover : ¬ s.Over) :
    (∃ i : Nat, s.workers[i]? = some .asking) ∨ (∃ i, (Race.step p s (.send i)).isSome = true) ∨
      (Race.step p s .receive).isSome = true := by
  simp only [State.Over, not_forall, not_not] at hover
  obtain ⟨taken, ht⟩ := hover
  obtain ⟨hlt, hsum, -⟩ := h.receiving taken ht
  cases hchan : s.chan with
  | cons result chan =>
    refine .inr (.inr ?_)
    simp only [Race.step, ht, hchan]
    split <;> rfl
  | nil =>
    rw [hchan, List.length_nil, Nat.zero_add] at hsum
    -- fewer have sent than there are
    have hsome : ∃ w ∈ s.workers, w.hasSent = false := by
      by_contra hall
      simp only [not_exists, not_and, Bool.not_eq_false] at hall
      rw [List.countP_eq_length.mpr hall] at hsum
      omega
    obtain ⟨w, hw, hsent⟩ := hsome
    obtain ⟨i, hi⟩ := List.getElem?_of_mem hw
    cases w with
    | asking => exact .inl ⟨i, hi⟩
    | sending r => exact .inr (.inl ⟨i, h.send_enabled hi⟩)
    | sent r => cases hsent
    | done r => cases hsent

/-! ## The race ends -/

/-- How many events of its own a worker has before it. -/
def Worker.left : Worker ρ → Nat
  | .asking => 3
  | .sending _ => 2
  | .sent _ => 1
  | .done _ => 0

/-- How many results the receiver of a race of `n` may still take. -/
def Stage.left (n : Nat) : Stage ω → Nat
  | .receiving taken => n - taken
  | .won _ | .lost => 0

def workLeft : List (Worker ρ) → Nat
  | [] => 0
  | w :: ws => w.left + workLeft ws

theorem workLeft_append (ws ws' : List (Worker ρ)) :
    workLeft (ws ++ ws') = workLeft ws + workLeft ws' := by
  induction ws with
  | nil => simp [workLeft]
  | cons w ws ih =>
    simp only [List.cons_append, workLeft, ih]
    omega

theorem workLeft_replicate (n : Nat) (w : Worker ρ) :
    workLeft (List.replicate n w) = n * w.left := by
  induction n with
  | zero => simp [workLeft]
  | succ n ih =>
    rw [List.replicate_succ, workLeft, ih, Nat.succ_mul]
    omega

def State.measure (s : State ρ ω) : Nat :=
  workLeft s.workers + s.stage.left s.workers.length

theorem Change.left_lt {c' : Bool} (hc : Change p c old new added c') : new.left < old.left := by
  cases hc <;> simp [Worker.left]

theorem Inv.measure_lt (h : Inv p s) {e : Event ρ} {s' : State ρ ω}
    (hstep : Race.step p s e = some s') : s'.measure < s.measure := by
  rcases step_cases hstep with ⟨i, old, new, added, c, hi, hc, -, rfl⟩ |
    ⟨taken, result, chan, ht, hchan, ⟨hok, rfl⟩ | ⟨hbad, rfl⟩⟩
  · obtain ⟨pre, post, hsplit, hset⟩ := set_split hi new
    have hlt := hc.left_lt
    have hsum : workLeft (s.workers.set i new) < workLeft s.workers := by
      rw [hset, hsplit]
      simp only [workLeft_append, workLeft]
      omega
    simp only [State.measure, State.change, List.length_set]
    omega
  · obtain ⟨hlt, -⟩ := h.receiving taken ht
    simp only [State.measure, ht, Stage.left]
    omega
  · obtain ⟨hlt, -⟩ := h.receiving taken ht
    simp only [State.measure, ht]
    split
    · simp only [Stage.left]
      omega
    · simp only [Stage.left]
      omega

end Steps

end SniShaper.Race
