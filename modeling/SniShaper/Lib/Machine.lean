import Mathlib.Data.List.Basic
import Mathlib.Data.List.Induction
import Mathlib.Tactic.Common

/-! Runs of a deterministic machine that is driven by a list of inputs.

* `always_iff_eachStep`: a property that a step keeps exactly under a condition holds in
  every state of a run exactly when every step of the run meets the condition;
* `exec_invariant`: what holds of every run of a machine that can refuse an input;
* `Meets.invariant`: what holds of such a run if its inputs meet a condition;
* `exec_lastWrite`: what holds of the value that such a run wrote last. -/

namespace SniShaper.Machine

variable {σ ι : Type*} (step : σ → ι → σ)

/-- The state a run ends in. -/
def run (s : σ) (inputs : List ι) : σ := inputs.foldl step s

/-- `P` holds in every state of the run. -/
def Always (P : σ → Prop) (s : σ) (inputs : List ι) : Prop :=
  ∀ pre, pre <+: inputs → P (run step s pre)

/-- Every step of the run meets `C`, in the state before it. -/
def EachStep (C : σ → ι → Prop) (s : σ) (inputs : List ι) : Prop :=
  ∀ pre i, pre ++ [i] <+: inputs → C (run step s pre) i

variable {step} {P : σ → Prop} {C : σ → ι → Prop}

theorem always_nil {s : σ} : Always step P s [] ↔ P s := by
  constructor
  · intro h
    exact h [] (List.nil_prefix)
  · intro h pre hpre
    rw [List.prefix_nil.mp hpre]
    exact h

theorem always_cons {s : σ} {i : ι} {inputs : List ι} :
    Always step P s (i :: inputs) ↔ P s ∧ Always step P (step s i) inputs := by
  constructor
  · intro h
    refine ⟨h [] (List.nil_prefix), fun pre hpre => ?_⟩
    exact h (i :: pre) (List.cons_prefix_cons.mpr ⟨rfl, hpre⟩)
  · rintro ⟨hs, h⟩ pre hpre
    cases pre with
    | nil => exact hs
    | cons j pre =>
      obtain ⟨rfl, htail⟩ := List.cons_prefix_cons.mp hpre
      exact h pre htail

theorem eachStep_nil {s : σ} : EachStep step C s [] := by
  intro pre i hpre
  simp at hpre

theorem eachStep_cons {s : σ} {i : ι} {inputs : List ι} :
    EachStep step C s (i :: inputs) ↔ C s i ∧ EachStep step C (step s i) inputs := by
  constructor
  · intro h
    refine ⟨h [] i ⟨inputs, rfl⟩, fun pre j hpre => ?_⟩
    exact h (i :: pre) j (List.cons_prefix_cons.mpr ⟨rfl, hpre⟩)
  · rintro ⟨hs, h⟩ pre j hpre
    cases pre with
    | nil =>
      obtain ⟨rfl, -⟩ := List.cons_prefix_cons.mp hpre
      exact hs
    | cons k pre =>
      obtain ⟨rfl, htail⟩ := List.cons_prefix_cons.mp hpre
      exact h pre j htail

theorem always_iff_eachStep (hstep : ∀ s i, P s → (P (step s i) ↔ C s i)) {s : σ} (hs : P s)
    (inputs : List ι) : Always step P s inputs ↔ EachStep step C s inputs := by
  induction inputs generalizing s with
  | nil => simp [always_nil, eachStep_nil, hs]
  | cons i inputs ih =>
    rw [always_cons, eachStep_cons]
    constructor
    · rintro ⟨_, h⟩
      have hnext : P (step s i) := h [] (List.nil_prefix)
      exact ⟨(hstep s i hs).mp hnext, (ih hnext).mp h⟩
    · rintro ⟨hc, h⟩
      exact ⟨hs, (ih ((hstep s i hs).mpr hc)).mpr h⟩

/-- Two conditions that agree wherever a third one holds. -/
theorem EachStep.iff_of {A B : σ → ι → Prop} {s : σ} {inputs : List ι}
    (h : EachStep step A s inputs) (hiff : ∀ s i, A s i → (B s i ↔ C s i)) :
    EachStep step B s inputs ↔ EachStep step C s inputs := by
  constructor
  · intro hB pre i hpre
    exact (hiff _ _ (h pre i hpre)).mp (hB pre i hpre)
  · intro hC pre i hpre
    exact (hiff _ _ (h pre i hpre)).mpr (hC pre i hpre)

theorem EachStep.and {A B : σ → ι → Prop} {s : σ} {inputs : List ι}
    (hA : EachStep step A s inputs) (hB : EachStep step B s inputs) :
    EachStep step (fun s i => A s i ∧ B s i) s inputs :=
  fun pre i hpre => ⟨hA pre i hpre, hB pre i hpre⟩

theorem run_invariant (hstep : ∀ s i, P s → P (step s i)) {s : σ} (hs : P s) (inputs : List ι) :
    P (run step s inputs) := by
  induction inputs generalizing s with
  | nil => exact hs
  | cons i inputs ih => exact ih (hstep s i hs)

/-- What every step keeps holds before every step. -/
theorem eachStep_of_invariant (hstep : ∀ s i, P s → P (step s i)) {s : σ} (hs : P s)
    (inputs : List ι) : EachStep step (fun s _ => P s) s inputs := by
  induction inputs generalizing s with
  | nil => exact eachStep_nil
  | cons i inputs ih => exact eachStep_cons.mpr ⟨hs, ih (hstep s i hs)⟩

/-! ## Machines that refuse inputs -/

section Partial

variable (step : σ → ι → Option σ)

/-- The state after the inputs; `none` if one of them is not possible where it comes. -/
def exec : σ → List ι → Option σ
  | s, [] => some s
  | s, i :: inputs => (step s i).bind fun s' => exec s' inputs

variable {step}

theorem exec_append {s : σ} {xs ys : List ι} :
    exec step s (xs ++ ys) = (exec step s xs).bind fun s' => exec step s' ys := by
  induction xs generalizing s with
  | nil => rfl
  | cons i xs ih =>
    simp only [List.cons_append, exec]
    cases step s i with
    | none => rfl
    | some s' => exact ih

theorem exec_concat {s s'' : σ} {inputs : List ι} {i : ι} :
    exec step s (inputs ++ [i]) = some s'' ↔
      ∃ s', exec step s inputs = some s' ∧ step s' i = some s'' := by
  rw [exec_append]
  cases exec step s inputs with
  | none => simp
  | some s' => simp [exec]

/-- An invariant that may speak of the inputs so far. -/
theorem exec_invariant {I : List ι → σ → Prop} {s₀ s : σ} {inputs : List ι}
    (h : exec step s₀ inputs = some s) (h₀ : I [] s₀)
    (hstep : ∀ pre s i s', exec step s₀ pre = some s → I pre s → step s i = some s' →
      I (pre ++ [i]) s') : I inputs s := by
  induction inputs using List.reverseRecOn generalizing s with
  | nil =>
    obtain rfl := Option.some.inj h
    exact h₀
  | append_singleton pre i ih =>
    obtain ⟨s', hpre, hi⟩ := exec_concat.mp h
    exact hstep pre s' i s hpre (ih hpre) hi

variable (step) in
/-- Every input of the run meets `A`, in the state where it comes. -/
def Meets (A : σ → ι → Prop) (s : σ) (inputs : List ι) : Prop :=
  ∀ pre i s', pre ++ [i] <+: inputs → exec step s pre = some s' → A s' i

/-- An invariant of the steps that meet a condition. -/
theorem Meets.invariant {P : σ → Prop} {A : σ → ι → Prop}
    (hstep : ∀ s i s', P s → A s i → step s i = some s' → P s') {s t : σ} {inputs : List ι}
    (h : exec step s inputs = some t) (hmeets : Meets step A s inputs) (hs : P s) : P t := by
  induction inputs generalizing s with
  | nil =>
    obtain rfl := Option.some.inj h
    exact hs
  | cons i inputs ih =>
    obtain ⟨s', hi, hrest⟩ := Option.bind_eq_some_iff.mp h
    have hfirst : A s i := hmeets [] i s ⟨inputs, rfl⟩ rfl
    refine ih hrest (fun pre j u hpre hexec => ?_) (hstep s i s' hs hfirst hi)
    refine hmeets (i :: pre) j u (List.cons_prefix_cons.mpr ⟨rfl, hpre⟩) ?_
    rw [exec, hi]
    exact hexec

/-- A measure that every step lowers bounds the length of a run. -/
theorem exec_length_le {P : σ → Prop} {μ : σ → Nat} {s₀ s : σ} {inputs : List ι}
    (h : exec step s₀ inputs = some s) (h₀ : P s₀)
    (hstep : ∀ s i s', P s → step s i = some s' → P s' ∧ μ s' < μ s) :
    inputs.length + μ s ≤ μ s₀ := by
  have hrun : P s ∧ inputs.length + μ s ≤ μ s₀ := by
    refine exec_invariant (I := fun pre s => P s ∧ pre.length + μ s ≤ μ s₀) h
      ⟨h₀, by simp⟩ fun pre s i s' _ hs hi => ?_
    obtain ⟨hP, hlt⟩ := hstep s i s' hs.1 hi
    refine ⟨hP, ?_⟩
    rw [List.length_append, List.length_singleton]
    omega
  exact hrun.2

variable {α : Type*} (step) in
/-- The last value that an input of a run writes, if `write` says what each of them does. -/
def lastWrite (write : σ → ι → Option α) : σ → List ι → Option α
  | _, [] => none
  | s, i :: inputs => ((step s i).bind fun s' => lastWrite write s' inputs).or (write s i)

theorem lastWrite_concat {α : Type*} {write : σ → ι → Option α} {s s' : σ} {inputs : List ι}
    (h : exec step s inputs = some s') (i : ι) :
    lastWrite step write s (inputs ++ [i]) =
      (write s' i).or (lastWrite step write s inputs) := by
  induction inputs generalizing s with
  | nil =>
    obtain rfl := Option.some.inj h
    cases hstep : step s i with
    | none => simp [lastWrite, hstep]
    | some s'' => simp [lastWrite, hstep]
  | cons j inputs ih =>
    obtain ⟨next, hnext, hrest⟩ := Option.bind_eq_some_iff.mp h
    simp only [List.cons_append, lastWrite, hnext, Option.bind_some, ih hrest, Option.or_assoc]

/-- What holds of a state and a value, and after each step of the value it wrote, holds of
the value that was written last. -/
theorem exec_lastWrite {α : Type*} {write : σ → ι → Option α} {R : σ → α → Prop}
    (hstep : ∀ s i s' a, step s i = some s' → R s a → R s' ((write s i).getD a))
    {s s' : σ} {a : α} {inputs : List ι} (h : exec step s inputs = some s') (hs : R s a) :
    R s' ((lastWrite step write s inputs).getD a) := by
  induction inputs generalizing s a with
  | nil =>
    obtain rfl := Option.some.inj h
    exact hs
  | cons i inputs ih =>
    obtain ⟨next, hnext, hrest⟩ := Option.bind_eq_some_iff.mp h
    have hlast := ih hrest (hstep s i next a hnext hs)
    simp only [lastWrite, hnext, Option.bind_some]
    cases hlater : lastWrite step write next inputs with
    | none => simpa only [hlater, Option.none_or, Option.getD_none] using hlast
    | some b => simpa only [hlater, Option.some_or, Option.getD_some] using hlast

end Partial

/-- Where an input stands in a run that one more input ends. -/
theorem concat_eq_append_cons {xs pre post : List ι} {x y : ι} :
    xs ++ [x] = pre ++ y :: post ↔
      (pre = xs ∧ y = x ∧ post = []) ∨ ∃ post', post = post' ++ [x] ∧ xs = pre ++ y :: post' := by
  constructor
  · intro h
    rcases List.eq_nil_or_concat post with rfl | ⟨post', last, rfl⟩
    · obtain ⟨rfl, hlast⟩ := List.append_inj' h rfl
      exact .inl ⟨rfl, (List.singleton_inj.mp hlast).symm, rfl⟩
    · rw [List.concat_eq_append, ← List.cons_append, ← List.append_assoc] at h
      obtain ⟨rfl, hlast⟩ := List.append_inj' h rfl
      obtain rfl := List.singleton_inj.mp hlast
      exact .inr ⟨post', List.concat_eq_append, rfl⟩
  · rintro (⟨rfl, rfl, rfl⟩ | ⟨post', rfl, rfl⟩)
    · rfl
    · simp

end SniShaper.Machine
