import SniShaper.Upstream.Establish

/-! The handshakes of `establishUpstreamConn` in the order they are made: all of them
fail but the last one of a run that connects.

* `Adds`: what one part of a run adds to the handshakes;
* `establishUpstreamConn_adds`: what a whole run adds. -/

namespace SniShaper.Establish

open Strings Config Profiles

/-- The handshake completed; otherwise the source closes the connection it was made on. -/
def Attempt.completed (a : Attempt) : Bool :=
  match a.network.handshake with
  | .done _ => true
  | .echRejected _ => false
  | .failed _ => false

theorem Attempt.completed_iff (a : Attempt) :
    a.completed = true ↔ ∃ alpn, a.network.handshake = .done alpn := by
  unfold Attempt.completed
  cases a.network.handshake <;> simp

/-- From `before` to `after` handshakes were made that failed and, if `result` is a
protocol, a last one that completed with it. -/
inductive Adds (env : Env) (before after : Run) : Option String → Prop where
  | gaveUp (failed : List Attempt) (hfailed : ∀ a ∈ failed, a.completed = false)
      (heq : after.handshakes = before.handshakes ++ failed) : Adds env before after none
  | connected (alpn : String) (failed : List Attempt) (last : Attempt) (n : Nat)
      (hfailed : ∀ a ∈ failed, a.completed = false)
      (hnetwork : last.network = env.network n) (hdone : last.network.handshake = .done alpn)
      (heq : after.handshakes = before.handshakes ++ (failed ++ [last])) :
      Adds env before after (some alpn)

section

variable {env : Env} {before middle after : Run} {result : Option String}

/-- Only the handshakes of the two runs matter. -/
theorem Adds.congr {before' after' : Run} (h : Adds env before after result)
    (hbefore : before'.handshakes = before.handshakes)
    (hafter : after'.handshakes = after.handshakes) : Adds env before' after' result := by
  cases h with
  | gaveUp failed hfailed heq =>
    exact .gaveUp failed hfailed (by rw [hafter, heq, hbefore])
  | connected alpn failed last n hfailed hnetwork hdone heq =>
    exact .connected alpn failed last n hfailed hnetwork hdone (by rw [hafter, heq, hbefore])

theorem Adds.none_of_eq (h : after.handshakes = before.handshakes) :
    Adds env before after none :=
  .gaveUp [] (by simp) (by simp [h])

/-- A part that gives up, and the rest of the run. -/
theorem Adds.trans (h1 : Adds env before middle none) (h2 : Adds env middle after result) :
    Adds env before after result := by
  obtain ⟨failed, hfailed, heq⟩ := h1
  cases h2 with
  | gaveUp failed' hfailed' heq' =>
    refine .gaveUp (failed ++ failed') (fun a ha => ?_) (by rw [heq', heq, List.append_assoc])
    exact (List.mem_append.mp ha).elim (hfailed a) (hfailed' a)
  | connected alpn failed' last n hfailed' hnetwork hdone heq' =>
    refine .connected alpn (failed ++ failed') last n (fun a ha => ?_) hnetwork hdone ?_
    · exact (List.mem_append.mp ha).elim (hfailed a) (hfailed' a)
    · rw [heq', heq]
      simp only [List.append_assoc]

/-- The protocol of a round of the inner loop, if it connected. -/
def Verdict.protocol : Verdict → Option String
  | .connected alpn => some alpn
  | .retry => none
  | .nextAddr => none

theorem afterHandshake_adds {net : Network} {pass : Pass} {addr : String} {attempt : Nat}
    {made : Attempt} {n : Nat} (hnet : net = env.network n) (hmade : made.network = net)
    (hrun : middle.handshakes = before.handshakes ++ [made]) :
    Adds env before (afterHandshake env net pass addr attempt middle).2
      (afterHandshake env net pass addr attempt middle).1.protocol := by
  have hfails : made.completed = false → Adds env before middle none := by
    intro hopen
    exact .gaveUp [made] (by simpa using hopen) hrun
  unfold Attempt.completed at hfails
  rw [hmade] at hfails
  unfold afterHandshake
  split
  · rename_i alpn hdone
    refine .connected alpn [] made n (by simp) (hmade.trans hnet) ?_ (by simpa using hrun)
    rw [hmade, hdone]
  · rename_i err hfailed
    rw [hfailed] at hfails
    exact (hfails rfl).congr rfl rfl
  · rename_i err hrejected
    rw [hrejected] at hfails
    simp only
    split
    · exact (hfails rfl).congr rfl rfl
    · exact (hfails rfl).congr rfl rfl

variable [CaseTables]

theorem attemptOnce_adds (pass : Pass) (addr : String) (attempt : Nat) (run : Run) :
    Adds env run (attemptOnce env pass addr attempt run).2
      (attemptOnce env pass addr attempt run).1.protocol := by
  unfold attemptOnce
  simp only
  split
  · exact .none_of_eq rfl
  · exact afterHandshake_adds rfl rfl rfl

theorem attemptLoop_adds (pass : Pass) (addr : String) (attempts : List Nat) (run : Run) :
    Adds env run (attemptLoop env pass addr attempts run).2
      (attemptLoop env pass addr attempts run).1 := by
  induction attempts generalizing run with
  | nil => exact .none_of_eq rfl
  | cons attempt rest ih =>
    have hstep : Adds env run (attemptOnce env pass addr attempt run).2
        (attemptOnce env pass addr attempt run).1.protocol := attemptOnce_adds pass addr attempt run
    unfold attemptLoop
    split
    all_goals
      rename_i heq
      rw [heq] at hstep
    · exact hstep
    · exact hstep
    · exact hstep.trans (ih _)

theorem addrLoop_adds (pass : Pass) (addrs : List String) (run : Run) :
    Adds env run (addrLoop env pass addrs run).2 (addrLoop env pass addrs run).1 := by
  induction addrs generalizing run with
  | nil => exact .none_of_eq rfl
  | cons addr rest ih =>
    have hstep : Adds env run (attemptLoop env pass addr [0, 1] run).2
        (attemptLoop env pass addr [0, 1] run).1 := attemptLoop_adds pass addr [0, 1] run
    unfold addrLoop
    split
    all_goals
      rename_i heq
      rw [heq] at hstep
    · exact hstep
    · exact hstep.trans (ih _)

theorem establishPass_adds (host : String) (rule : Rule) (dialCandidates : List String)
    (initialALPN : String) (run : Run) :
    Adds env run (establishPass env host rule dialCandidates initialALPN run).2
      (establishPass env host rule dialCandidates initialALPN run).1 :=
  (addrLoop_adds _ _ _).congr rfl rfl

omit [CaseTables] in
/-- A pass and what follows it, when what follows adds handshakes in the same way. -/
theorem afterPass_adds {rerun : Option (Run → Except String String × Run)}
    (hrerun : ∀ again ∈ rerun, ∀ run, Adds env run (again run).2 (again run).1.toOption)
    {pass : Option String × Run} (h : Adds env before pass.2 pass.1) :
    Adds env before (afterPass rerun pass).2 (afterPass rerun pass).1.toOption := by
  obtain ⟨result, run⟩ := pass
  unfold afterPass
  split
  · rename_i heq
    cases heq
    exact h
  · rename_i heq
    cases heq
    split
    · exact h
    · split
      · exact h.trans (hrerun _ rfl _)
      · exact h

theorem establishUpstreamConn_adds (host : String) (rule : Rule) (dialCandidates : List String)
    (initialALPN : String) (run : Run) :
    Adds env run (establishUpstreamConn env host rule dialCandidates initialALPN run).2
      (establishUpstreamConn env host rule dialCandidates initialALPN run).1.toOption := by
  refine afterPass_adds (fun again hagain run => ?_) (establishPass_adds ..)
  obtain ⟨next, -, rfl⟩ := Option.map_eq_some_iff.mp hagain
  exact afterPass_adds (by simp) (establishPass_adds ..)

end

end SniShaper.Establish
