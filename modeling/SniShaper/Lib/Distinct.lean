import Mathlib.Data.List.Basic
import Mathlib.Tactic.Common

/-! A loop that collects the values of a list: each is computed, a blank value is left out
and so is one that was collected before.

* `mem_collect`: what is collected;
* `collect_nodup`: nothing is collected twice;
* `collect_cons`: the first value, if it is not blank, comes first. -/

namespace SniShaper.Distinct

variable {α β : Type*} [DecidableEq β] (value : α → β) (blank : β)

/-- The loop, with what was collected so far. -/
def collect : List α → List β → List β
  | [], out => out
  | x :: xs, out =>
    if value x = blank ∨ value x ∈ out then collect xs out else collect xs (out ++ [value x])

variable {value blank}

theorem mem_collect {xs : List α} {out : List β} {b : β} :
    b ∈ collect value blank xs out ↔ b ∈ out ∨ b ≠ blank ∧ ∃ x ∈ xs, value x = b := by
  induction xs generalizing out with
  | nil => simp [collect]
  | cons x xs ih =>
    by_cases hskip : value x = blank ∨ value x ∈ out
    · rw [collect, if_pos hskip, ih]
      constructor
      · rintro (h | ⟨hb, y, hy, h⟩)
        · exact .inl h
        · exact .inr ⟨hb, y, List.mem_cons_of_mem _ hy, h⟩
      · rintro (h | ⟨hb, y, hy, rfl⟩)
        · exact .inl h
        · rcases List.mem_cons.mp hy with rfl | hy
          · exact .inl (hskip.resolve_left hb)
          · exact .inr ⟨hb, y, hy, rfl⟩
    · rw [collect, if_neg hskip, ih, List.mem_append, List.mem_singleton]
      constructor
      · rintro ((h | rfl) | ⟨hb, y, hy, h⟩)
        · exact .inl h
        · exact .inr ⟨fun hb => hskip (.inl hb), x, List.mem_cons_self .., rfl⟩
        · exact .inr ⟨hb, y, List.mem_cons_of_mem _ hy, h⟩
      · rintro (h | ⟨hb, y, hy, rfl⟩)
        · exact .inl (.inl h)
        · rcases List.mem_cons.mp hy with rfl | hy
          · exact .inl (.inr rfl)
          · exact .inr ⟨hb, y, hy, rfl⟩

theorem collect_nodup {xs : List α} {out : List β} (h : out.Nodup) :
    (collect value blank xs out).Nodup := by
  induction xs generalizing out with
  | nil => exact h
  | cons x xs ih =>
    unfold collect
    split
    · exact ih h
    · rename_i hnew
      refine ih (List.nodup_append.mpr ⟨h, by simp, ?_⟩)
      rintro b hb _ hx rfl
      rw [List.mem_singleton.mp hx] at hb
      exact hnew (.inr hb)

/-- What was collected stays in front. -/
theorem collect_keeps (xs : List α) (out : List β) : out <+: collect value blank xs out := by
  induction xs generalizing out with
  | nil => exact List.prefix_rfl
  | cons x xs ih =>
    unfold collect
    split
    · exact ih out
    · exact (List.prefix_append out _).trans (ih _)

theorem collect_cons {x : α} (h : value x ≠ blank) (xs : List α) :
    ∃ rest, collect value blank (x :: xs) [] = value x :: rest := by
  obtain ⟨rest, hrest⟩ := @collect_keeps _ _ _ value blank xs [value x]
  refine ⟨rest, ?_⟩
  rw [collect, if_neg (by simp [h])]
  exact hrest.symm

end SniShaper.Distinct
