import Mathlib.Data.List.Count
import Mathlib.Data.List.Induction
import Mathlib.Logic.Function.Basic
import SniShaper.Lib.Machine

/-! Calls that update a value in memory and write it to a file later. A call makes three
steps: it updates the value, it copies the value, it writes its copy. The steps of
different calls come in any order.

* `memory_run`: the value is what the updates give, in the order of the first steps;
* `file_run`: the file is written from the value before the copy of the call that makes
  the last step. -/

namespace SniShaper.WriteBack

open Machine

variable {ι S F : Type*} [DecidableEq ι]

/-- How far a call is. -/
inductive Phase (S : Type*) where
  | start
  | updated
  | copied (copy : S)
  | done

structure State (ι S F : Type*) where
  memory : S
  file : F
  phase : ι → Phase S

variable (update : ι → S → S) (write : S → F)

/-- The next step of the call `i`. -/
def step (s : State ι S F) (i : ι) : State ι S F :=
  match s.phase i with
  | .start => { s with memory := update i s.memory, phase := Function.update s.phase i .updated }
  | .updated => { s with phase := Function.update s.phase i (.copied s.memory) }
  | .copied copy => { s with file := write copy, phase := Function.update s.phase i .done }
  | .done => s

/-- No call has made a step. -/
def initial (memory : S) (file : F) : State ι S F := ⟨memory, file, fun _ => .start⟩

/-- What the updates make of a value, in the order of the first steps. -/
def updates (memory : S) (steps : List ι) : S :=
  steps.eraseDups.foldl (fun m i => update i m) memory

/-- Every call makes its three steps. -/
def Complete (steps : List ι) : Prop := ∀ i ∈ steps, steps.count i = 3

instance (steps : List ι) : Decidable (Complete steps) :=
  inferInstanceAs (Decidable (∀ i ∈ steps, steps.count i = 3))

/-- The steps before the copy that the last step writes: what comes before the second step
of the call that makes the last step. -/
def beforeCopy (steps : List ι) : List ι :=
  match steps.reverse with
  | [] => []
  | w :: rest => ((rest.dropWhile (· ≠ w)).drop 1).reverse

/-! ## Phases -/

/-- The number of steps a call has made. -/
def Phase.stage : Phase S → Nat
  | .start => 0
  | .updated => 1
  | .copied _ => 2
  | .done => 3

theorem Phase.eq_updated {p : Phase S} (h : p.stage = 1) : p = .updated := by
  cases p with
  | updated => rfl
  | start => cases h
  | copied copy => cases h
  | done => cases h

theorem Phase.eq_done {p : Phase S} (h : p.stage = 3) : p = .done := by
  cases p with
  | done => rfl
  | start => cases h
  | updated => cases h
  | copied copy => cases h

variable {update write}

theorem stage_step (s : State ι S F) (i j : ι) :
    ((step update write s i).phase j).stage =
      if j = i then min 3 ((s.phase j).stage + 1) else (s.phase j).stage := by
  unfold step
  by_cases hij : j = i
  · subst hij
    cases hphase : s.phase j <;> simp [hphase, Phase.stage]
  · cases s.phase i <;> simp [hij]

theorem run_concat (s : State ι S F) (steps : List ι) (i : ι) :
    run (step update write) s (steps ++ [i]) =
      step update write (run (step update write) s steps) i := by
  simp [run]

/-- A call is as far as it has steps in the run. -/
theorem stage_run (update : ι → S → S) (write : S → F) (memory : S) (file : F) (steps : List ι)
    (i : ι) :
    ((run (step update write) (initial memory file) steps).phase i).stage =
      min 3 (steps.count i) := by
  induction steps using List.reverseRecOn with
  | nil => rfl
  | append_singleton steps j ih =>
    rw [run_concat, stage_step, ih, List.count_append, List.count_singleton]
    by_cases hij : i = j
    · subst hij
      simp
      omega
    · simp [hij, Ne.symm hij]

theorem phase_step_of_ne {s : State ι S F} {i j : ι} (hij : i ≠ j) :
    (step update write s j).phase i = s.phase i := by
  unfold step
  cases s.phase j <;> simp [hij]

theorem phase_of_not_mem {s : State ι S F} {i : ι} {steps : List ι} (hi : i ∉ steps) :
    (run (step update write) s steps).phase i = s.phase i := by
  induction steps using List.reverseRecOn with
  | nil => rfl
  | append_singleton steps j ih =>
    rw [List.mem_append, List.mem_singleton, not_or] at hi
    rw [run_concat, phase_step_of_ne hi.2, ih hi.1]

/-- After its three steps a call is done. -/
theorem done_of_complete {steps : List ι} (h : Complete steps) (memory : S) (file : F) {i : ι}
    (hi : i ∈ steps) :
    (run (step update write) (initial memory file) steps).phase i = .done := by
  apply Phase.eq_done
  rw [stage_run, h i hi]
  rfl

/-! ## The value and the file -/

theorem memory_step (s : State ι S F) (i : ι) :
    (step update write s i).memory =
      if (s.phase i).stage = 0 then update i s.memory else s.memory := by
  unfold step
  cases s.phase i <;> simp [Phase.stage]

/-- The value after a run is what the updates give in the order of the first steps. -/
theorem memory_run (memory : S) (file : F) (steps : List ι) :
    (run (step update write) (initial memory file) steps).memory = updates update memory steps := by
  induction steps using List.reverseRecOn with
  | nil => rfl
  | append_singleton steps i ih =>
    rw [run_concat, memory_step, stage_run, ih]
    unfold updates
    rw [List.eraseDups_append]
    by_cases hi : i ∈ steps
    · have hcount := List.count_pos_iff.mpr hi
      have hold : [i].removeAll steps = [] := by simp [List.removeAll, hi]
      rw [if_neg (by omega), hold, List.eraseDups_nil, List.append_nil]
    · have hnew : [i].removeAll steps = [i] := by simp [List.removeAll, hi]
      rw [List.count_eq_zero_of_not_mem hi, if_pos (by omega), hnew, List.foldl_append]
      simp [List.eraseDups_cons]

/-- The last step of a complete run writes a copy of its call, which was taken in between. -/
theorem split_complete {steps : List ι} (h : Complete steps) (hne : steps ≠ []) :
    ∃ w post, steps = beforeCopy steps ++ w :: (post ++ [w]) ∧ (beforeCopy steps).count w = 1 ∧
      w ∉ post := by
  obtain ⟨front, w, rfl⟩ := (List.eq_nil_or_concat' steps).resolve_left hne
  have hcount : front.count w = 2 := by
    have hw := h w (by simp)
    simpa using hw
  have hmem : w ∈ front.reverse := List.mem_reverse.mpr (List.count_pos_iff.mp (by omega))
  obtain ⟨late, early, heq, hlate⟩ := List.eq_append_cons_of_mem hmem
  have hfront : front = early.reverse ++ w :: late.reverse := by
    rw [← List.reverse_reverse front, heq]
    simp
  have hbefore : beforeCopy (front ++ [w]) = early.reverse := by
    have hskip : (late ++ w :: early).dropWhile (· ≠ w) = w :: early := by
      rw [List.dropWhile_append_of_pos (by
        intro i hi
        simp only [ne_eq, decide_not, Bool.not_eq_true', decide_eq_false_iff_not]
        exact fun hiw => hlate (hiw ▸ hi))]
      simp
    simp only [beforeCopy, List.reverse_append, List.reverse_singleton, List.singleton_append, heq,
      hskip, List.drop_succ_cons, List.drop_zero]
  have hpost : w ∉ late.reverse := fun hw => hlate (List.mem_reverse.mp hw)
  refine ⟨w, late.reverse, ?_, ?_, hpost⟩
  · rw [hbefore, hfront, List.append_assoc, List.cons_append]
  · rw [hfront, List.count_append, List.count_cons_self, List.count_eq_zero_of_not_mem hpost] at hcount
    rw [hbefore]
    omega

/-- The file after a complete run: it was written from the value before the copy that the
last step writes. -/
theorem file_run {steps : List ι} (h : Complete steps) (hne : steps ≠ []) (memory : S) (file : F) :
    (run (step update write) (initial memory file) steps).file =
      write (updates update memory (beforeCopy steps)) := by
  obtain ⟨w, post, hsplit, hcount, hpost⟩ := split_complete h hne
  generalize beforeCopy steps = pre at hsplit hcount
  -- the call has made its first step, and so copies the value
  have hupdated : (run (step update write) (initial memory file) pre).phase w = .updated := by
    apply Phase.eq_updated
    rw [stage_run, hcount]
    rfl
  have hcopied : (run (step update write) (initial memory file) (pre ++ w :: post)).phase w =
      .copied (updates update memory pre) := by
    have happend : run (step update write) (initial memory file) (pre ++ w :: post) =
        run (step update write)
          (step update write (run (step update write) (initial memory file) pre) w) post := by
      simp [run]
    rw [happend, phase_of_not_mem hpost, step, hupdated, memory_run]
    simp
  have hlast : steps = (pre ++ w :: post) ++ [w] := by
    rw [hsplit, List.append_assoc, List.cons_append]
  rw [hlast, run_concat, step, hcopied]

end SniShaper.WriteBack
