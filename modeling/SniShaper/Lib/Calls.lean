import Mathlib.Algebra.BigOperators.Group.List.Basic
import Mathlib.Algebra.Order.BigOperators.Group.List
import Mathlib.Algebra.Order.Ring.Nat
import Mathlib.Data.List.Pairwise
import Mathlib.Tactic.Common

/-! Nested calls. Which calls a call makes depends on an outcome, and the environment
chooses an outcome for every call from the calls that are in progress then.

* `Stack.sorted`: if every call has a larger rank than those it makes, so have the calls
  of a stack, and stacks are short (`Stack.length_le`);
* `Stack.unbounded`: if a call can be made again below itself, stacks are not bounded;
* `count_le`: how many calls of a kind one call makes altogether. -/

namespace SniShaper.Calls

variable {κ ω : Type*} (calls : ω → κ → List κ)

/-- The calls in progress after `c₀` was made, the newest first. -/
inductive Stack (net : List κ → ω) (c₀ : κ) : List κ → Prop where
  | base : Stack net c₀ [c₀]
  | call {c c' : κ} {s : List κ} (h : Stack net c₀ (c :: s)) (hc : c' ∈ calls (net (c :: s)) c) :
      Stack net c₀ (c' :: c :: s)

variable {calls} {net : List κ → ω} {c₀ : κ} {s : List κ}

/-! ## Calls of falling rank -/

section rank

variable {Inv : κ → Prop} {rank : κ → Nat}
  (hstep : ∀ o c c', Inv c → c' ∈ calls o c → Inv c' ∧ rank c' < rank c)
include hstep

theorem Stack.inv (h : Stack calls net c₀ s) (h₀ : Inv c₀) : ∀ c ∈ s, Inv c := by
  induction h with
  | base =>
    intro c hc
    rw [List.mem_singleton.mp hc]
    exact h₀
  | call _ hc ih =>
    intro c hmem
    rcases List.mem_cons.mp hmem with rfl | hmem
    · exact (hstep _ _ _ (ih _ List.mem_cons_self) hc).1
    · exact ih c hmem

theorem Stack.sorted (h : Stack calls net c₀ s) (h₀ : Inv c₀) :
    s.Pairwise (rank · < rank ·) := by
  induction h with
  | base => exact List.pairwise_singleton _ _
  | @call c c' s h hc ih =>
    have hlt : rank c' < rank c := (hstep _ _ _ (h.inv hstep h₀ c List.mem_cons_self) hc).2
    rw [List.pairwise_cons]
    refine ⟨fun d hd => ?_, ih⟩
    rcases List.mem_cons.mp hd with rfl | hd
    · exact hlt
    · exact hlt.trans (List.rel_of_pairwise_cons ih hd)

theorem Stack.length_le (h : Stack calls net c₀ s) (h₀ : Inv c₀) : s.length ≤ rank c₀ + 1 := by
  have hhead : ∀ c t, s = c :: t → t.length + rank c ≤ rank c₀ := by
    induction h with
    | base =>
      rintro c t ⟨⟩
      simp
    | @call c c' s h hc ih =>
      rintro _ _ ⟨⟩
      have hlt : rank c' < rank c := (hstep _ _ _ (h.inv hstep h₀ c List.mem_cons_self) hc).2
      have := ih c s rfl
      simp only [List.length_cons]
      omega
  cases s with
  | nil => simp
  | cons c t =>
    have := hhead c t rfl
    simp only [List.length_cons]
    omega

end rank

/-- In a list of rising rank, calls of one rank occur once. -/
theorem countP_le_one {rank : κ → Nat} {P : κ → Bool} {r : Nat}
    (hP : ∀ c ∈ s, P c = true → rank c = r) (hs : s.Pairwise (rank · < rank ·)) :
    s.countP P ≤ 1 := by
  induction s with
  | nil => simp
  | cons c t ih =>
    rw [List.pairwise_cons] at hs
    have ht := ih (fun d hd => hP d (List.mem_cons_of_mem _ hd)) hs.2
    by_cases hc : P c = true
    · have hnone : t.countP P = 0 := by
        rw [List.countP_eq_zero]
        intro d hd hPd
        have hlt := hs.1 d hd
        rw [hP c List.mem_cons_self hc, hP d (List.mem_cons_of_mem _ hd) hPd] at hlt
        exact lt_irrefl _ hlt
      rw [List.countP_cons_of_pos hc, hnone]
    · rw [List.countP_cons_of_neg hc]
      exact ht

/-! ## Calls that come back -/

theorem Stack.append {o : ω} {c : κ} {t : List κ} (ht : Stack calls (fun _ => o) c₀ (c :: t))
    (h : Stack calls (fun _ => o) c s) : Stack calls (fun _ => o) c₀ (s.dropLast ++ c :: t) := by
  induction h with
  | base => exact ht
  | @call d d' s h hd ih =>
    cases s with
    | nil =>
      cases h
      exact ih.call hd
    | cons e s => exact ih.call hd

/-- A call that is made again below itself goes on without end. -/
theorem Stack.unbounded {o : ω} {c : κ} {t u : List κ}
    (ht : Stack calls (fun _ => o) c₀ (c :: t)) (hloop : Stack calls (fun _ => o) c (c :: u))
    (hu : u ≠ []) (P : κ → Bool) (hP : (c :: u).dropLast.countP P ≠ 0) (n : Nat) :
    ∃ s, Stack calls (fun _ => o) c₀ (c :: s) ∧ n ≤ (c :: s).countP P := by
  induction n with
  | zero => exact ⟨t, ht, Nat.zero_le _⟩
  | succ n ih =>
    obtain ⟨s, hs, hn⟩ := ih
    have happ := hs.append hloop
    rw [List.dropLast_cons_of_ne_nil hu] at happ hP
    refine ⟨u.dropLast ++ c :: s, happ, ?_⟩
    have hcount : (c :: (u.dropLast ++ c :: s)).countP P =
        (c :: u.dropLast).countP P + (c :: s).countP P := by
      rw [← List.cons_append, List.countP_append]
    omega

/-! ## How many calls -/

variable (calls)

/-- The calls of a kind in the first levels of the calls that `c` makes. -/
def count (P : κ → Bool) (net : List κ → ω) : Nat → List κ → κ → Nat
  | 0, _, _ => 0
  | levels + 1, s, c =>
    (if P c then 1 else 0) +
      ((calls (net (c :: s)) c).map (count P net levels (c :: s))).sum

variable {calls}

theorem count_le {P : κ → Bool} {Inv : κ → Prop} {weight : κ → Nat}
    (hinv : ∀ o c c', Inv c → c' ∈ calls o c → Inv c')
    (hweight : ∀ o c, Inv c → (if P c then 1 else 0) + ((calls o c).map weight).sum ≤ weight c)
    (levels : Nat) (s : List κ) {c : κ} (hc : Inv c) :
    count calls P net levels s c ≤ weight c := by
  induction levels generalizing s c with
  | zero => exact Nat.zero_le _
  | succ levels ih =>
    have hsum : ((calls (net (c :: s)) c).map (count calls P net levels (c :: s))).sum ≤
        ((calls (net (c :: s)) c).map weight).sum :=
      List.sum_le_sum fun c' hc' => ih (c :: s) (hinv _ _ _ hc hc')
    calc count calls P net (levels + 1) s c
        ≤ (if P c then 1 else 0) + ((calls (net (c :: s)) c).map weight).sum :=
          Nat.add_le_add_left hsum _
      _ ≤ weight c := hweight _ c hc

end SniShaper.Calls
