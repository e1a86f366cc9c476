import SniShaper.Runtime.Lifecycle

/-! Starts and stops at the same time (`Start` and `Stop` of `proxy/proxy.go`). An event is one
section that a call, or the goroutine that serves a server, runs under the lock; between its
sections a call can wait for as long as it likes, and so can the goroutine before its last one.

* `live_concat`, `step_sound`: what one section does to the generation that is running;
* `generations_sound`: the running server is the last one installed, with nothing that ended
  it since, and a section of another generation does not touch it;
* `exec_startEvents`: a start that nothing interrupts is the `start` of `Runtime.Lifecycle`. -/

namespace SniShaper.Lifecycle

open Machine

/-- Where the `i`-th call of `Start` is, with the server it makes. -/
inductive Phase where
  | fresh | listening | listened | serving | exited | returned
  deriving DecidableEq, Repr

inductive Event where
  /-- The first section of the `i`-th `Start`, when nothing runs and when something does. -/
  | begin (i : Nat)
  | alreadyRunning (i : Nat)
  /-- `net.Listen` returns. -/
  | listen (i : Nat)
  | listenFailed (i : Nat)
  /-- The second section, when nothing runs and when something does. -/
  | install (i : Nat)
  | abandon (i : Nat)
  /-- The last section of the goroutine that serves the `i`-th server. -/
  | exit (i : Nat)
  | stop
  deriving DecidableEq, Repr

structure System where
  proxy : ProxyServer
  phase : Nat → Phase := fun _ => .fresh

def System.move (s : System) (i : Nat) (next : Phase) : System :=
  { s with phase := fun j => if j = i then next else s.phase j }

/-- One section; `none` if it cannot come now. -/
def advance (s : System) : Event → Option System
  | .begin i =>
    if s.phase i = .fresh then
      (beginStart s.proxy).map fun p => { s with proxy := p }.move i .listening
    else none
  | .alreadyRunning i =>
    if s.phase i = .fresh ∧ beginStart s.proxy = none then some (s.move i .returned) else none
  | .listen i => if s.phase i = .listening then some (s.move i .listened) else none
  | .listenFailed i =>
    if s.phase i = .listening then
      some ({ s with proxy := listenFailed s.proxy }.move i .returned)
    else none
  | .install i =>
    if s.phase i = .listened then
      (install s.proxy i).map fun p => { s with proxy := p }.move i .serving
    else none
  | .abandon i =>
    if s.phase i = .listened ∧ install s.proxy i = none then some (s.move i .returned) else none
  | .exit i =>
    if s.phase i = .serving then
      some ({ s with proxy := exitSection s.proxy i }.move i .exited)
    else none
  | .stop => some { s with proxy := stopSection s.proxy }

/-! ## Generations -/

/-- The server `i` is the last one installed, and neither a stop nor the end of its own
goroutine has come since. -/
def Live (trace : List Event) (i : Nat) : Prop :=
  ∃ pre post, trace = pre ++ .install i :: post ∧ (∀ j, .install j ∉ post) ∧
    .stop ∉ post ∧ .exit i ∉ post

/-- A stop, or the end of its own goroutine, has come since the server `i` was installed. -/
def Retired (trace : List Event) (i : Nat) : Prop :=
  ∃ pre post, trace = pre ++ .install i :: post ∧ (.stop ∈ post ∨ .exit i ∈ post)

theorem live_concat {trace : List Event} {e : Event} {i : Nat} :
    Live (trace ++ [e]) i ↔
      e = .install i ∨
        (Live trace i ∧ (∀ j, e ≠ .install j) ∧ e ≠ .stop ∧ e ≠ .exit i) := by
  constructor
  · rintro ⟨pre, post, hsplit, hinstall, hstop, hexit⟩
    rcases concat_eq_append_cons.mp hsplit with ⟨-, rfl, -⟩ | ⟨post', rfl, rfl⟩
    · exact .inl rfl
    · simp only [List.mem_append, List.mem_singleton, not_or] at hinstall hstop hexit
      exact .inr ⟨⟨pre, post', rfl, fun j => (hinstall j).1, hstop.1, hexit.1⟩,
        fun j h => (hinstall j).2 h.symm, fun h => hstop.2 h.symm, fun h => hexit.2 h.symm⟩
  · rintro (rfl | ⟨⟨pre, post, rfl, hinstall, hstop, hexit⟩, hni, hns, hne⟩)
    · exact ⟨trace, [], rfl, by simp, by simp, by simp⟩
    · refine ⟨pre, post ++ [e], by simp, fun j => ?_, ?_, ?_⟩
      · simpa using ⟨hinstall j, fun h => hni j h.symm⟩
      · simpa using ⟨hstop, fun h => hns h.symm⟩
      · simpa using ⟨hexit, fun h => hne h.symm⟩

theorem Retired.concat {trace : List Event} {i : Nat} (h : Retired trace i) (e : Event) :
    Retired (trace ++ [e]) i := by
  obtain ⟨pre, post, rfl, hend⟩ := h
  refine ⟨pre, post ++ [e], by simp, hend.imp ?_ ?_⟩ <;>
  · intro h
    exact List.mem_append_left [e] h

theorem Live.retire {trace : List Event} {i : Nat} (h : Live trace i) {e : Event}
    (he : e = .stop ∨ e = .exit i) : Retired (trace ++ [e]) i := by
  obtain ⟨pre, post, rfl, -⟩ := h
  refine ⟨pre, post ++ [e], by simp, he.imp ?_ ?_⟩ <;>
  · rintro rfl
    simp

/-- What the flag and the server say about the events so far. -/
structure Sound (trace : List Event) (s : System) : Prop where
  live : ∀ i, s.proxy.running = true ∧ s.proxy.server = some i ↔ Live trace i
  server : s.proxy.running = true → ∃ i, s.proxy.server = some i
  retired : ∀ i, .install i ∈ trace →
    (s.proxy.running = true ∧ s.proxy.server = some i) ∨ Retired trace i

/-- The event is none of those that change the flag. -/
def Event.Neutral (e : Event) : Prop := (∀ i, e ≠ .install i) ∧ e ≠ .stop ∧ ∀ i, e ≠ .exit i

theorem Sound.neutral {trace : List Event} {s s' : System} (h : Sound trace s) {e : Event}
    (he : e.Neutral) (hrun : s'.proxy.running = s.proxy.running)
    (hserver : s'.proxy.server = s.proxy.server) : Sound (trace ++ [e]) s' := by
  obtain ⟨hni, hns, hne⟩ := he
  refine ⟨fun i => ?_, ?_, fun i hi => ?_⟩
  · rw [hrun, hserver, h.live i, live_concat]
    simp [hni, hns, hne]
  · rw [hrun, hserver]
    exact h.server
  · rw [hrun, hserver]
    rcases List.mem_append.mp hi with hi | hi
    · exact (h.retired i hi).imp id fun hr => hr.concat e
    · exact absurd (List.mem_singleton.mp hi).symm (hni i)

theorem Sound.install {trace : List Event} {s : System} (h : Sound trace s) {i : Nat}
    {p : ProxyServer} (hp : install s.proxy i = some p) :
    Sound (trace ++ [.install i]) ({ s with proxy := p }.move i .serving) := by
  unfold Lifecycle.install at hp
  split at hp
  · cases hp
  rename_i hoff
  obtain rfl := Option.some.inj hp
  refine ⟨fun j => ?_, fun _ => ⟨i, rfl⟩, fun j hj => ?_⟩
  · rw [live_concat]
    simp [System.move]
  · rcases List.mem_append.mp hj with hj | hj
    · -- nothing was running, so all that came before have ended
      have hold := (h.retired j hj).resolve_left fun hlive => hoff hlive.1
      exact .inr (hold.concat _)
    · left
      simp only [List.mem_singleton, Event.install.injEq] at hj
      simp [System.move, hj]

theorem Sound.stop {trace : List Event} {s : System} (h : Sound trace s) :
    Sound (trace ++ [.stop]) { s with proxy := stopSection s.proxy } := by
  have hoff : (stopSection s.proxy).running = false := by
    unfold stopSection
    split
    · rfl
    · rename_i hrun
      exact Bool.eq_false_iff.mpr hrun
  refine ⟨fun i => ?_, fun hon => ?_, fun i hi => .inr ?_⟩
  · rw [live_concat]
    simp [hoff]
  · exact absurd (hoff.symm.trans hon) (by decide)
  · rcases List.mem_append.mp hi with hi | hi
    · rcases h.retired i hi with hlive | hr
      · exact ((h.live i).mp hlive).retire (.inl rfl)
      · exact hr.concat _
    · simp at hi

/-- The last section of another generation changes nothing. -/
theorem exitSection_of_ne {p : ProxyServer} {i : Nat} (hne : p.server ≠ some i) :
    exitSection p i = p := by
  simp [exitSection, hne]

theorem Sound.exit {trace : List Event} {s : System} (h : Sound trace s) (i : Nat) :
    Sound (trace ++ [.exit i]) ({ s with proxy := exitSection s.proxy i }.move i .exited) := by
  by_cases hi : s.proxy.server = some i
  · refine ⟨fun j => ?_, fun hon => ?_, fun j hj => .inr ?_⟩
    · rw [live_concat, ← h.live j]
      simp [System.move, exitSection, hi]
    · simp [System.move, exitSection, hi] at hon
    · rcases List.mem_append.mp hj with hj | hj
      · rcases h.retired j hj with hlive | hr
        · obtain rfl : i = j := Option.some.inj (hi.symm.trans hlive.2)
          exact ((h.live i).mp hlive).retire (.inr rfl)
        · exact hr.concat _
      · simp at hj
  · rw [exitSection_of_ne hi]
    refine ⟨fun j => ?_, h.server, fun j hj => ?_⟩
    · rw [live_concat, ← h.live j]
      constructor
      · rintro ⟨hrun, hj⟩
        refine .inr ⟨⟨hrun, hj⟩, by simp, by simp, ?_⟩
        rintro ⟨⟩
        exact hi hj
      · rintro (hinst | ⟨hlive, -⟩)
        · cases hinst
        · exact hlive
    · rcases List.mem_append.mp hj with hj | hj
      · exact (h.retired j hj).imp id fun hr => hr.concat _
      · simp at hj

theorem step_sound {trace : List Event} {s s' : System} {e : Event} (h : Sound trace s)
    (hstep : advance s e = some s') : Sound (trace ++ [e]) s' := by
  cases e with
  | begin i =>
    simp only [advance, beginStart] at hstep
    split at hstep
    · split at hstep
      · cases hstep
      · obtain rfl := Option.some.inj hstep
        exact h.neutral (by simp [Event.Neutral]) rfl rfl
    · cases hstep
  | alreadyRunning i =>
    simp only [advance, Option.ite_none_right_eq_some, Option.some.injEq] at hstep
    obtain ⟨-, rfl⟩ := hstep
    exact h.neutral (by simp [Event.Neutral]) rfl rfl
  | listen i =>
    simp only [advance, Option.ite_none_right_eq_some, Option.some.injEq] at hstep
    obtain ⟨-, rfl⟩ := hstep
    exact h.neutral (by simp [Event.Neutral]) rfl rfl
  | listenFailed i =>
    simp only [advance, Option.ite_none_right_eq_some, Option.some.injEq] at hstep
    obtain ⟨-, rfl⟩ := hstep
    exact h.neutral (by simp [Event.Neutral]) rfl rfl
  | install i =>
    simp only [advance, Option.ite_none_right_eq_some, Option.map_eq_some_iff] at hstep
    obtain ⟨-, p, hp, rfl⟩ := hstep
    exact h.install hp
  | abandon i =>
    simp only [advance, Option.ite_none_right_eq_some, Option.some.injEq] at hstep
    obtain ⟨-, rfl⟩ := hstep
    exact h.neutral (by simp [Event.Neutral]) rfl rfl
  | exit i =>
    simp only [advance, Option.ite_none_right_eq_some, Option.some.injEq] at hstep
    obtain ⟨-, rfl⟩ := hstep
    exact h.exit i
  | stop =>
    obtain rfl := Option.some.inj hstep
    exact h.stop

theorem exec_sound {p : ProxyServer} (hoff : p.running = false) {trace : List Event} {s : System}
    (h : exec advance { proxy := p } trace = some s) : Sound trace s := by
  refine exec_invariant (I := Sound) h ?_ fun pre s e s' _ hs hstep => step_sound hs hstep
  refine ⟨fun i => ?_, fun hon => ?_, fun i hi => ?_⟩
  · simp [hoff, Live]
  · exact absurd (hoff.symm.trans hon) (by decide)
  · simp at hi

theorem install_of_advance {s s' : System} {i : Nat} (h : advance s (.install i) = some s') :
    s.proxy.running = false := by
  simp only [advance, install, Option.ite_none_right_eq_some, Option.map_eq_some_iff] at h
  obtain ⟨-, p, hp, -⟩ := h
  split at hp
  · cases hp
  · rename_i hoff
    exact Bool.eq_false_iff.mpr hoff

theorem exit_of_advance {s s' : System} {i : Nat} (h : advance s (.exit i) = some s') :
    s'.proxy = exitSection s.proxy i := by
  simp only [advance, Option.ite_none_right_eq_some, Option.some.injEq] at h
  obtain ⟨-, rfl⟩ := h
  rfl

/-- After any interleaving from a proxy that is not running: the flag is set exactly while the
server in the field is the last one installed and nothing has ended it since; the last section
of another server leaves the flag alone; nothing is installed while the flag is set, and
every other server that was ever installed has ended. -/
theorem generations_sound (addr : String) (trace : List Event) (s : System)
    (h : exec advance { proxy := { listenAddr := addr } } trace = some s) :
    (s.proxy.running = true → ∃ i, s.proxy.server = some i ∧ Live trace i) ∧
      (∀ i, Live trace i → s.proxy.running = true ∧ s.proxy.server = some i) ∧
      (∀ i s', s.proxy.server ≠ some i → advance s (.exit i) = some s' →
        s'.proxy.running = s.proxy.running) ∧
      (∀ i s', advance s (.install i) = some s' → s.proxy.running = false) ∧
      (s.proxy.running = true → ∀ j, .install j ∈ trace → s.proxy.server ≠ some j →
        Retired trace j) := by
  have hs := exec_sound rfl h
  refine ⟨fun hon => ?_, fun i hlive => (hs.live i).mpr hlive, fun i s' hne hstep => ?_,
    fun i s' hstep => install_of_advance hstep, fun _ j hj hne => ?_⟩
  · obtain ⟨i, hi⟩ := hs.server hon
    exact ⟨i, hi, (hs.live i).mp ⟨hon, hi⟩⟩
  · rw [exit_of_advance hstep, exitSection_of_ne hne]
  · exact (hs.retired j hj).resolve_left fun hlive => hne hlive.2

/-- Two starts overlap and the faster one is stopped; its goroutine ends only after the other
one has installed its own server. -/
def lateExit : List Event :=
  [.begin 0, .begin 1, .listen 0, .install 0, .stop, .listen 1, .install 1, .exit 0]

theorem lateExit_sound :
    ∃ s, exec advance { proxy := { listenAddr := "127.0.0.1:8080" } } lateExit = some s ∧
      s.proxy.running = true ∧ s.proxy.server = some 1 ∧ Live lateExit 1 ∧ Retired lateExit 0 := by
  refine ⟨_, rfl, by decide, by decide, ?_⟩
  obtain ⟨hlive, -, -, -, hretired⟩ := generations_sound "127.0.0.1:8080" lateExit _ rfl
  obtain ⟨i, hi, hi'⟩ := hlive (by decide)
  obtain rfl : 1 = i := Option.some.inj ((show _ = some 1 by decide).symm.trans hi)
  exact ⟨hi', hretired (by decide) 0 (by decide) (by decide)⟩

/-! ## A start that nothing interrupts -/

/-- The sections of a whole call of `Start`. -/
def startEvents (h : Host) (l : Listening) : List Event :=
  if h.proxy.running then [.alreadyRunning h.servers]
  else match h.listen l.http h.proxy.listenAddr with
    | .error _ => [.begin h.servers, .listenFailed h.servers]
    | .ok () => [.begin h.servers, .listen h.servers, .install h.servers]

theorem exec_startEvents {s : System} {h : Host} (hp : s.proxy = h.proxy)
    (hfresh : s.phase h.servers = .fresh) (l : Listening) :
    ∃ s', exec advance s (startEvents h l) = some s' ∧ s'.proxy = (start h l).2.proxy := by
  unfold startEvents
  rcases start_cases h l with ⟨hrun, heq⟩ | ⟨hrun, err, hanswer, heq⟩ | ⟨hrun, hanswer, heq⟩
  · simp [heq, hrun, exec, advance, beginStart, hp, hfresh, System.move]
  · simp [heq, hrun, hanswer, exec, advance, beginStart, hp, hfresh, System.move, listenFailed]
  · have hproxy : (start h l).2.proxy = h.started.proxy := by rw [heq, startedProxy]
    simp [hproxy, hrun, hanswer, exec, advance, beginStart, hp, hfresh, System.move, install,
      Host.started]

end SniShaper.Lifecycle
