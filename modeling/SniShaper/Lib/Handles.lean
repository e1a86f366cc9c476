import Mathlib.Order.BooleanAlgebra.Set
import Mathlib.Tactic.Common

/-! Handles that are opened and closed. A table has an entry for each handle that was
ever opened; the number of a handle is its position.

* `openIn_acquire`, `openIn_release`: what opening and closing do to the open handles;
* `openIn_append_closed`: handles that are closed again leave no trace. -/

namespace SniShaper.Handles

/-- `true` for a handle that is open. -/
abbrev Table := List Bool

/-- Opens the handle with the number `t.length`. -/
def acquire (t : Table) : Table := t ++ [true]

@[simp] theorem length_acquire (t : Table) : (acquire t).length = t.length + 1 := by
  simp [acquire]

def release (t : Table) (i : Nat) : Table := t.set i false

/-- The handles that are open. -/
def openIn (t : Table) : Set Nat := {i | t[i]? = some true}

variable {t : Table} {i : Nat}

theorem mem_openIn : i ∈ openIn t ↔ t[i]? = some true := Iff.rfl

theorem lt_of_mem_openIn (h : i ∈ openIn t) : i < t.length := by
  obtain ⟨hlt, -⟩ := List.getElem?_eq_some_iff.mp (mem_openIn.mp h)
  exact hlt

/-- The number of the next handle is not in use. -/
theorem length_notMem_openIn (t : Table) : t.length ∉ openIn t := by
  intro h
  exact absurd (lt_of_mem_openIn h) (Nat.lt_irrefl _)

theorem openIn_acquire (t : Table) : openIn (acquire t) = insert t.length (openIn t) := by
  ext i
  rw [mem_openIn, Set.mem_insert_iff, mem_openIn, acquire]
  rcases lt_trichotomy i t.length with h | h | h
  · rw [List.getElem?_append_left h]
    simp [Nat.ne_of_lt h]
  · simp [h]
  · rw [List.getElem?_eq_none (by simp; omega), List.getElem?_eq_none (Nat.le_of_lt h)]
    simp [Nat.ne_of_gt h]

theorem openIn_release (t : Table) (i : Nat) : openIn (release t i) = openIn t \ {i} := by
  ext j
  rw [mem_openIn, Set.mem_sdiff, mem_openIn, Set.mem_singleton_iff, release, List.getElem?_set]
  by_cases h : i = j
  · subst h
    simp
  · simp [h, Ne.symm h]

/-- All that an opening adds is the new handle. -/
theorem openIn_acquire_sdiff (t : Table) : openIn (acquire t) \ {t.length} = openIn t := by
  rw [openIn_acquire, Set.insert_sdiff_self_of_notMem (length_notMem_openIn t)]

theorem openIn_append_closed {closed : Table} (h : ∀ b ∈ closed, b = false) :
    openIn (t ++ closed) = openIn t := by
  ext i
  rw [mem_openIn, mem_openIn, List.getElem?_append]
  split
  · exact Iff.rfl
  · rename_i hle
    rw [List.getElem?_eq_none (Nat.le_of_not_lt hle)]
    refine iff_of_false (fun hi => ?_) (by simp)
    exact absurd (h true (List.mem_of_getElem? hi)) (by simp)

end SniShaper.Handles
