import Mathlib.Data.List.Basic
import Mathlib.Tactic.Common

/-! Bounds-checked access to Go slices. A call either returns or stops with a
`Fault`: an index or a slice expression outside its bounds, or a loop that does
not end within its fuel. Indices are `Int`, as Go's `int` may be negative; a
slice expression is checked against the length, so a slice with spare capacity
is outside this model. -/

namespace SniShaper.Bounds

/-- Why a call does not return. -/
inductive Fault
  | outOfRange
  | divideByZero
  | diverged
  deriving DecidableEq, Repr

abbrev Checked (α : Type) := Except Fault α

variable {α : Type}

/-- The index expression `d[i]`. -/
def index (d : List α) (i : Int) : Checked α :=
  if 0 ≤ i then
    match d[i.toNat]? with
    | some b => .ok b
    | none => .error .outOfRange
  else .error .outOfRange

/-- The slice expression `d[lo:hi]`. -/
def slice (d : List α) (lo hi : Int) : Checked (List α) :=
  if 0 ≤ lo ∧ lo ≤ hi ∧ hi ≤ d.length then
    .ok ((d.drop lo.toNat).take (hi - lo).toNat)
  else .error .outOfRange

/-- The slice expression `d[lo:]`. -/
def sliceFrom (d : List α) (lo : Int) : Checked (List α) := slice d lo d.length

/-- Go's integer division, which truncates and panics on a zero divisor. -/
def quo (a b : Int) : Checked Int :=
  if b = 0 then .error .divideByZero else .ok (a.tdiv b)

theorem bind_eq_ok {β : Type} {x : Checked α} {f : α → Checked β} {b : β}
    (h : x >>= f = .ok b) : ∃ a, x = .ok a ∧ f a = .ok b := by
  cases x with
  | error e => cases h
  | ok a => exact ⟨a, rfl, h⟩

theorem index_eq_ok_iff (d : List α) (i : Int) (b : α) :
    index d i = .ok b ↔ 0 ≤ i ∧ d[i.toNat]? = some b := by
  unfold index
  split
  · cases h : d[i.toNat]? <;> simp [*]
  · simp [*]

/-- Inside the bounds an index expression always returns. -/
theorem index_returns (d : List α) (i : Int) (h0 : 0 ≤ i) (h : i < d.length) :
    ∃ b, index d i = .ok b ∧ d[i.toNat]? = some b := by
  have hlt : i.toNat < d.length := by omega
  exact ⟨d[i.toNat], (index_eq_ok_iff d i _).mpr ⟨h0, by simp [hlt]⟩, by simp [hlt]⟩

theorem index_faults (d : List α) (i : Int) (h : d.length ≤ i) :
    index d i = .error .outOfRange := by
  have hn : d[i.toNat]? = none := List.getElem?_eq_none_iff.mpr (by omega)
  simp [index, hn]

theorem slice_ok (d : List α) (lo hi : Int) (h0 : 0 ≤ lo) (h1 : lo ≤ hi) (h2 : hi ≤ d.length) :
    slice d lo hi = .ok ((d.drop lo.toNat).take (hi - lo).toNat) := by
  simp [slice, h0, h1, h2]

theorem slice_eq_ok_iff (d : List α) (lo hi : Int) (s : List α) :
    slice d lo hi = .ok s ↔
      (0 ≤ lo ∧ lo ≤ hi ∧ hi ≤ d.length) ∧ s = (d.drop lo.toNat).take (hi - lo).toNat := by
  unfold slice
  split <;> simp [*, eq_comm]

theorem slice_length {d : List α} {lo hi : Int} {s : List α} (h : slice d lo hi = .ok s) :
    (s.length : Int) = hi - lo := by
  obtain ⟨hb, rfl⟩ := (slice_eq_ok_iff d lo hi s).mp h
  simp only [List.length_take, List.length_drop]
  omega

theorem sliceFrom_ok (d : List α) (lo : Int) (h0 : 0 ≤ lo) (h1 : lo ≤ d.length) :
    sliceFrom d lo = .ok (d.drop lo.toNat) := by
  rw [sliceFrom, slice_ok d lo d.length h0 h1 (Int.le_refl _)]
  congr 1
  exact List.take_of_length_le (by simp only [List.length_drop]; omega)

/-- Slices that follow each other. -/
theorem slice_concat {d x y : List α} {a b c : Int} (hx : slice d a b = .ok x)
    (hy : slice d b c = .ok y) : slice d a c = .ok (x ++ y) := by
  obtain ⟨⟨ha, hab, hb⟩, rfl⟩ := (slice_eq_ok_iff d a b x).mp hx
  obtain ⟨⟨-, hbc, hc⟩, rfl⟩ := (slice_eq_ok_iff d b c y).mp hy
  refine (slice_eq_ok_iff d a c _).mpr ⟨⟨ha, by omega, hc⟩, ?_⟩
  have hsplit : (c - a).toNat = (b - a).toNat + (c - b).toNat := by omega
  have hdrop : a.toNat + (b - a).toNat = b.toNat := by omega
  rw [hsplit, List.take_add, List.drop_drop, hdrop]

/-- The first part of a slice. -/
theorem slice_left {d x y : List α} {a c : Int} (h : slice d a c = .ok (x ++ y)) :
    slice d a (a + x.length) = .ok x := by
  have hlen := slice_length h
  obtain ⟨⟨h0, h1, h2⟩, hxy⟩ := (slice_eq_ok_iff d a c _).mp h
  rw [List.length_append] at hlen
  refine (slice_eq_ok_iff d a _ x).mpr ⟨⟨h0, by omega, by omega⟩, ?_⟩
  have hx := congrArg (List.take x.length) hxy
  rw [List.take_left, List.take_take, Nat.min_eq_left (by omega)] at hx
  rw [show (a + x.length - a).toNat = x.length by omega]
  exact hx

/-- The list around a slice. -/
theorem slice_split {d s : List α} {lo hi : Int} (h : slice d lo hi = .ok s) :
    ∃ pre post, d = pre ++ (s ++ post) ∧ lo = pre.length := by
  obtain ⟨⟨h0, h1, h2⟩, rfl⟩ := (slice_eq_ok_iff d lo hi s).mp h
  refine ⟨d.take lo.toNat, (d.drop lo.toNat).drop (hi - lo).toNat, ?_, ?_⟩
  · rw [List.take_append_drop, List.take_append_drop]
  · rw [List.length_take]
    omega

theorem slice_of_index {d : List α} {i : Int} {b : α} (h : index d i = .ok b) :
    slice d i (i + 1) = .ok [b] := by
  obtain ⟨h0, hget⟩ := (index_eq_ok_iff d i b).mp h
  obtain ⟨hlt, hb⟩ := List.getElem?_eq_some_iff.mp hget
  have hone : (i + 1 - i).toNat = 1 := by omega
  rw [slice_ok d i (i + 1) h0 (by omega) (by omega), hone, List.drop_eq_getElem_cons hlt, hb]
  rfl

/-! Reading a list that is written as what stands before the offset, the part that
is read, and the rest. -/

theorem index_append (pre : List α) (b : α) (post : List α) (i : Int) (hi : i = pre.length) :
    index (pre ++ b :: post) i = .ok b := by
  subst hi
  exact (index_eq_ok_iff _ _ _).mpr ⟨by omega, by simp⟩

theorem slice_append (pre mid post : List α) (lo hi : Int) (hlo : lo = pre.length)
    (hhi : hi = pre.length + mid.length) : slice (pre ++ (mid ++ post)) lo hi = .ok mid := by
  subst hlo hhi
  have hs := slice_ok (pre ++ (mid ++ post)) pre.length (pre.length + mid.length) (by omega)
    (by omega) (by simp only [List.length_append]; omega)
  have hlen : ((pre.length : Int) + mid.length - pre.length).toNat = mid.length := by omega
  rw [hs, hlen]
  simp

end SniShaper.Bounds
