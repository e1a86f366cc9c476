import Mathlib.Data.List.DropRight
import Mathlib.Tactic.Common

/-! Lines of a text that comes in chunks, over any alphabet with a line feed and a carriage
return, and the newest entries of a list.

* `lines_append`: the lines of two chunks, with what the first one left unfinished;
* `unify_append`: line breaks are found chunk by chunk unless a chunk ends inside of one;
* `rtake_concat_eq_iff`: when one more entry does not show among the newest. -/

namespace SniShaper.Lines

/-! ## The newest entries -/

section Newest

variable {α : Type*} {n : Nat}

theorem rtake_of_length_le {l : List α} (h : l.length ≤ n) : l.rtake n = l := by
  rw [List.rtake, Nat.sub_eq_zero_of_le h, List.drop_zero]

theorem length_rtake (l : List α) : (l.rtake n).length = min n l.length := by
  rw [List.rtake, List.length_drop]
  omega

/-- What comes before enough newer entries is not seen. -/
theorem rtake_append_of_le (xs : List α) {ys : List α} (h : n ≤ ys.length) :
    (xs ++ ys).rtake n = ys.rtake n := by
  have hlen : (xs ++ ys).length - n = xs.length + (ys.length - n) := by
    rw [List.length_append]
    omega
  rw [List.rtake, hlen, List.drop_append, List.rtake]
  simp

theorem rtake_append_of_ge (xs : List α) {ys : List α} (h : ys.length ≤ n) :
    (xs ++ ys).rtake n = xs.rtake (n - ys.length) ++ ys := by
  have hlen : (xs ++ ys).length - n = xs.length - (n - ys.length) := by
    rw [List.length_append]
    omega
  rw [List.rtake, hlen, List.drop_append_of_le_length (Nat.sub_le _ _), List.rtake]

/-- Dropping what is too old before entries are added changes nothing. -/
theorem rtake_append_rtake (xs ys : List α) : (xs.rtake n ++ ys).rtake n = (xs ++ ys).rtake n := by
  rcases Nat.le_total n ys.length with h | h
  · rw [rtake_append_of_le _ h, rtake_append_of_le _ h]
  · rw [rtake_append_of_ge _ h, rtake_append_of_ge _ h]
    congr 1
    have hsub : xs.length - n + ((xs.drop (xs.length - n)).length - (n - ys.length)) =
        xs.length - (n - ys.length) := by
      rw [List.length_drop]
      omega
    rw [List.rtake, List.rtake, List.rtake, List.drop_drop, hsub]

theorem rtake_eq_rtake_min (l : List α) : l.rtake n = l.rtake (min n l.length) := by
  rw [List.rtake, List.rtake]
  congr 1
  omega

/-- An entry that is added in the place of the oldest one. -/
theorem drop_one_rtake_concat {l : List α} (x : α) (hle : n ≤ l.length) :
    (l.rtake n ++ [x]).drop 1 = (l ++ [x]).rtake n := by
  have hstart : l.length - n + 1 = (l ++ [x]).length - n := by
    rw [List.length_append, List.length_singleton]
    omega
  rw [List.rtake, ← List.drop_append_of_le_length (Nat.sub_le _ _), List.drop_drop, hstart,
    List.rtake]

/-- As many newest entries are the same ones. -/
theorem rtake_eq_rtake_iff {m : Nat} (l : List α) :
    l.rtake m = l.rtake n ↔ min m l.length = min n l.length := by
  constructor
  · intro h
    rw [← length_rtake, ← length_rtake, h]
  · intro h
    rw [rtake_eq_rtake_min, h, ← rtake_eq_rtake_min]

/-- One more entry does not show among the newest when they are all like it. -/
theorem rtake_concat_eq_iff {xs : List α} {x : α} (hn : 0 < n) :
    (xs ++ [x]).rtake n = xs.rtake n ↔ List.replicate n x <:+ xs := by
  induction n generalizing xs with
  | zero => exact absurd hn (Nat.lt_irrefl 0)
  | succ n ih =>
    rw [List.rtake_concat_succ, List.replicate_succ']
    rcases List.eq_nil_or_concat xs with rfl | ⟨ys, y, rfl⟩
    · simp
    · have hshorter : (ys ++ [x]).rtake n = ys.rtake n ↔ List.replicate n x <:+ ys := by
        rcases Nat.eq_zero_or_pos n with rfl | hpos
        · simp
        · exact ih hpos
      rw [List.concat_eq_append, List.rtake_concat_succ]
      constructor
      · intro h
        obtain ⟨hrest, hlast⟩ := List.append_inj' h rfl
        obtain rfl := List.singleton_inj.mp hlast
        exact List.suffix_append_self_iff.mpr (hshorter.mp hrest)
      · intro h
        obtain ⟨pre, hpre⟩ := h
        rw [← List.append_assoc] at hpre
        obtain ⟨hrest, hlast⟩ := List.append_inj' hpre rfl
        obtain rfl := List.singleton_inj.mp hlast
        rw [hshorter.mpr ⟨pre, hrest⟩]

end Newest

/-! ## Complete lines -/

section Split

variable {α : Type*} [DecidableEq α] (lf : α)

/-- The lines that have ended. -/
def complete (s : List α) : List (List α) := (s.splitOn lf).dropLast

/-- The text after the last line that has ended. -/
def remainder (s : List α) : List α := (s.splitOn lf).getLast (List.splitOn_ne_nil lf s)

variable {lf} {s t : List α}

theorem splitOn_eq (s : List α) : s.splitOn lf = complete lf s ++ [remainder lf s] :=
  (List.dropLast_concat_getLast (List.splitOn_ne_nil lf s)).symm

theorem eq_of_splitOn_eq {fields : List (List α)} {last : List α}
    (h : s.splitOn lf = fields ++ [last]) : complete lf s = fields ∧ remainder lf s = last := by
  rw [splitOn_eq] at h
  obtain ⟨hfields, hlast⟩ := List.append_inj' h rfl
  exact ⟨hfields, List.singleton_inj.mp hlast⟩

theorem lines_of_not_mem (h : lf ∉ s) : complete lf s = [] ∧ remainder lf s = s :=
  eq_of_splitOn_eq (List.splitOn_eq_singleton h)

/-- A line feed ends the line. -/
theorem lines_append_cons (s t : List α) :
    complete lf (s ++ lf :: t) = complete lf s ++ remainder lf s :: complete lf t ∧
      remainder lf (s ++ lf :: t) = remainder lf t := by
  apply eq_of_splitOn_eq
  rw [List.splitOn_append_cons_self, splitOn_eq s, splitOn_eq t]
  simp

/-- A text ends after its last line feed, if there is one. -/
theorem exists_remainder (lf : α) (s : List α) : lf ∉ s ∨ ∃ u x, s = u ++ lf :: x ∧ lf ∉ x := by
  induction s with
  | nil => exact .inl (List.not_mem_nil)
  | cons c s ih =>
    rcases ih with hnone | ⟨u, x, rfl, hx⟩
    · by_cases hc : c = lf
      · exact .inr ⟨[], s, by rw [hc, List.nil_append], hnone⟩
      · refine .inl fun hmem => ?_
        rcases List.mem_cons.mp hmem with h | h
        · exact hc h.symm
        · exact hnone h
    · exact .inr ⟨c :: u, x, rfl, hx⟩

theorem not_mem_remainder (s : List α) : lf ∉ remainder lf s := by
  rcases exists_remainder lf s with h | ⟨u, x, rfl, hx⟩
  · rw [(lines_of_not_mem h).2]
    exact h
  · rw [(lines_append_cons u x).2, (lines_of_not_mem hx).2]
    exact hx

/-- The lines of a text that goes on are those that have ended, and those of what was left
with the rest. -/
theorem lines_append (s t : List α) :
    complete lf (s ++ t) = complete lf s ++ complete lf (remainder lf s ++ t) ∧
      remainder lf (s ++ t) = remainder lf (remainder lf s ++ t) := by
  rcases exists_remainder lf s with h | ⟨u, x, rfl, hx⟩
  · obtain ⟨hnone, hall⟩ := lines_of_not_mem h
    rw [hnone, hall]
    exact ⟨rfl, rfl⟩
  · obtain ⟨hnone, hall⟩ := lines_of_not_mem hx
    rw [(lines_append_cons u x).1, (lines_append_cons u x).2, hnone, hall, List.append_assoc,
      List.cons_append, (lines_append_cons u (x ++ t)).1, (lines_append_cons u (x ++ t)).2]
    simp

/-- Text without a line feed makes the unfinished line longer. -/
theorem lines_append_of_not_mem (h : lf ∉ t) :
    complete lf (s ++ t) = complete lf s ∧ remainder lf (s ++ t) = remainder lf s ++ t := by
  have hopen : lf ∉ remainder lf s ++ t := by
    rw [List.mem_append, not_or]
    exact ⟨not_mem_remainder s, h⟩
  rw [(lines_append s t).1, (lines_append s t).2, (lines_of_not_mem hopen).1,
    (lines_of_not_mem hopen).2, List.append_nil]
  exact ⟨rfl, rfl⟩

end Split

/-! ## Line breaks -/

/-- An alphabet with the two characters of line breaks. -/
class LineBreaks (α : Type*) where
  cr : α
  lf : α
  cr_ne_lf : cr ≠ lf

instance : LineBreaks UInt8 := ⟨13, 10, by decide⟩

instance : LineBreaks Char := ⟨'\r', '\n', by decide⟩

section Breaks

open LineBreaks

variable {α : Type*} [DecidableEq α] [LineBreaks α]

/-- Every `\r\n` replaced by `\n`. -/
def unify : List α → List α
  | [] => []
  | [c] => [c]
  | c :: d :: s => if c = cr ∧ d = lf then lf :: unify s else c :: unify (d :: s)

/-- A chunk ends in the middle of a line break. -/
def SplitsBreak (p q : List α) : Prop := p.getLast? = some cr ∧ q.head? = some lf

instance (p q : List α) : Decidable (SplitsBreak p q) :=
  inferInstanceAs (Decidable (_ ∧ _))

theorem unify_cons_cons (c d : α) (s : List α) :
    unify (c :: d :: s) = if c = cr ∧ d = lf then lf :: unify s else c :: unify (d :: s) := rfl

theorem unify_append {p q : List α} (h : ¬ SplitsBreak p q) :
    unify (p ++ q) = unify p ++ unify q := by
  induction p using unify.induct with
  | case1 => rfl
  | case2 c =>
    cases q with
    | nil => rfl
    | cons d q =>
      have hno : ¬ (c = cr ∧ d = lf) := by simpa [SplitsBreak] using h
      rw [List.singleton_append, unify_cons_cons, if_neg hno]
      rfl
  | case3 c d s hbreak ih =>
    have hrest : ¬ SplitsBreak s q := by
      rintro ⟨hlast, hhead⟩
      refine h ⟨?_, hhead⟩
      simp [List.getLast?_cons, hlast]
    rw [List.cons_append, List.cons_append, unify_cons_cons, unify_cons_cons, if_pos hbreak,
      if_pos hbreak, ih hrest, List.cons_append]
  | case4 c d s hno ih =>
    have hrest : ¬ SplitsBreak (d :: s) q := by
      rintro ⟨hlast, hhead⟩
      exact h ⟨by rw [List.getLast?_cons_cons, hlast], hhead⟩
    rw [List.cons_append, List.cons_append, unify_cons_cons, unify_cons_cons, if_neg hno,
      if_neg hno, ← List.cons_append, ih hrest, List.cons_append]

theorem unify_concat_cr (p : List α) : unify (p ++ [cr]) = unify p ++ [cr] :=
  unify_append fun h => cr_ne_lf (Option.some.inj h.2)

theorem unify_lf_cons (q : List α) : unify (lf :: q) = lf :: unify q :=
  @unify_append _ _ _ [lf] q fun h => cr_ne_lf (Option.some.inj h.1).symm

/-- A line break that is not cut. -/
theorem unify_break (p q : List α) : unify (p ++ cr :: lf :: q) = unify p ++ lf :: unify q := by
  have hwhole : ¬ SplitsBreak p (cr :: lf :: q) := fun h => cr_ne_lf (Option.some.inj h.2)
  rw [unify_append hwhole, unify_cons_cons, if_pos ⟨rfl, rfl⟩]

theorem unify_of_not_mem {s : List α} (h : lf ∉ s) : unify s = s := by
  induction s using unify.induct with
  | case1 => rfl
  | case2 c => rfl
  | case3 c d s hbreak ih => exact absurd (by simp [hbreak.2]) h
  | case4 c d s hno ih =>
    rw [unify_cons_cons, if_neg hno, ih fun hmem => h (List.mem_cons_of_mem c hmem)]

/-- A line without the carriage return at its end. -/
def withoutCR (line : List α) : List α :=
  if line.getLast? = some cr then line.dropLast else line

/-- The end of a line takes a carriage return with it. -/
theorem unify_line {line : List α} (h : lf ∉ line) :
    unify (line ++ [lf]) = withoutCR line ++ [lf] := by
  unfold withoutCR
  split
  · rename_i hlast
    obtain ⟨s, rfl⟩ := List.getLast?_eq_some_iff.mp hlast
    have hs : lf ∉ s := fun hmem => h (List.mem_append_left _ hmem)
    rw [List.append_assoc, List.singleton_append, unify_break, unify_of_not_mem hs,
      List.dropLast_concat]
    rfl
  · rename_i hlast
    have hwhole : ¬ SplitsBreak line [lf] := fun hcut => hlast hcut.1
    rw [unify_append hwhole, unify_of_not_mem h]
    rfl

theorem not_mem_withoutCR {line : List α} (h : lf ∉ line) : lf ∉ withoutCR line := by
  unfold withoutCR
  split
  · exact fun hmem => h (List.dropLast_subset line hmem)
  · exact h

end Breaks

end SniShaper.Lines
