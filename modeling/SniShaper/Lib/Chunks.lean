import Mathlib.Data.List.Basic
import Mathlib.Tactic.Common

/-! Cutting a list into `n` pieces of equal length, the last one taking the
remainder. Proved here, for every list and every `n ≥ 1`:

* `evenChunks_flatten`: the pieces in order give the list back;
* `evenChunks_length`: there are `n` of them;
* `evenChunks_ne_nil`: none is empty when the list has at least `n` elements. -/

namespace SniShaper.Chunks

variable {α : Type}

/-- Piece `i` of `n`: `d.length / n` elements, the last piece up to the end. -/
def chunkAt (n : Nat) (d : List α) (i : Nat) : List α :=
  if i + 1 = n then d.drop (i * (d.length / n))
  else (d.drop (i * (d.length / n))).take (d.length / n)

def evenChunks (n : Nat) (d : List α) : List (List α) := (List.range n).map (chunkAt n d)

theorem evenChunks_length (n : Nat) (d : List α) : (evenChunks n d).length = n := by
  simp [evenChunks]

/-- The first `k` pieces, the last one not among them, are the first elements. -/
theorem chunkAt_flatten_take (n : Nat) (d : List α) (k : Nat) (hk : k < n) :
    ((List.range k).map (chunkAt n d)).flatten = d.take (k * (d.length / n)) := by
  induction k with
  | zero => simp
  | succ k ih =>
    have hlast : ¬ k + 1 = n := by omega
    rw [List.range_succ, List.map_append, List.flatten_append, ih (by omega)]
    simp only [List.map_cons, List.map_nil, List.flatten_cons, List.flatten_nil,
      List.append_nil, chunkAt, hlast, ↓reduceIte]
    rw [← List.take_add, Nat.succ_mul]

theorem evenChunks_flatten (n : Nat) (hn : 1 ≤ n) (d : List α) : (evenChunks n d).flatten = d := by
  obtain ⟨m, rfl⟩ : ∃ m, n = m + 1 := ⟨n - 1, by omega⟩
  rw [evenChunks, List.range_succ, List.map_append, List.flatten_append,
    chunkAt_flatten_take (m + 1) d m (by omega)]
  simp [chunkAt]

/-- No piece is shorter than `d.length / n`. -/
theorem chunkAt_length_ge (n : Nat) (d : List α) (i : Nat) (hi : i < n) :
    d.length / n ≤ (chunkAt n d i).length := by
  have hle : (i + 1) * (d.length / n) ≤ d.length :=
    Nat.le_trans (Nat.mul_le_mul_right _ hi) (Nat.mul_div_le d.length n)
  rw [Nat.succ_mul] at hle
  unfold chunkAt
  split <;> simp only [List.length_take, List.length_drop] <;> omega

theorem evenChunks_ne_nil (n : Nat) (d : List α) (hn : 1 ≤ n) (hd : n ≤ d.length) :
    ∀ c ∈ evenChunks n d, c ≠ [] := by
  intro c hc hnil
  obtain ⟨i, hi, rfl⟩ := List.mem_map.mp hc
  have hbase : 1 ≤ d.length / n := (Nat.le_div_iff_mul_le hn).mpr (by omega)
  have hlen := chunkAt_length_ge n d i (List.mem_range.mp hi)
  rw [hnil, List.length_nil] at hlen
  omega

end SniShaper.Chunks
