import Mathlib.Data.List.Basic
import Mathlib.Tactic.Common

/-! Slices, as Go has them: windows on arrays that several slices may share. `append` writes
behind the window while the capacity lasts, and copies to a new array otherwise.

* `elems_append`: the slice that is returned holds what was there and what was appended;
* `elems_append_of_ne`: slices of other arrays keep what they hold. -/

namespace SniShaper.Slices

variable {α : Type}

/-- The arrays, by the order in which they were made. -/
abbrev Heap (α : Type) := List (List α)

structure Slice where
  array : Nat
  off : Nat
  len : Nat
  cap : Nat
  deriving DecidableEq, Repr

def elems (h : Heap α) (s : Slice) : List α := ((h.getD s.array []).drop s.off).take s.len

/-- `s[i:j]` -/
def Slice.sub (s : Slice) (i j : Nat) : Slice :=
  { s with off := s.off + i, len := j - i, cap := s.cap - i }

/-- `xs` written over the elements from position `i` on. -/
def overwrite (l : List α) (i : Nat) (xs : List α) : List α :=
  l.take i ++ xs ++ l.drop (i + xs.length)

/-- A slice literal. -/
def alloc (h : Heap α) (xs : List α) : Heap α × Slice :=
  (h ++ [xs], ⟨h.length, 0, xs.length, xs.length⟩)

/-- `append(s, xs...)`. The elements were read before any is written, so they may come from
the same array. A new array has the slots `spare` left. -/
def append (spare : List α) (h : Heap α) (s : Slice) (xs : List α) : Heap α × Slice :=
  if s.len + xs.length ≤ s.cap then
    (h.modify s.array (overwrite · (s.off + s.len) xs), { s with len := s.len + xs.length })
  else
    (h ++ [elems h s ++ xs ++ spare],
      ⟨h.length, 0, s.len + xs.length, s.len + xs.length + spare.length⟩)

/-- The window lies in its array. -/
structure Slice.Valid (h : Heap α) (s : Slice) : Prop where
  made : s.array < h.length
  fits : s.off + s.cap ≤ (h.getD s.array []).length
  len_le : s.len ≤ s.cap

variable {h : Heap α} {s t : Slice}

/-! ## Reading -/

theorem length_elems (hs : s.Valid h) : (elems h s).length = s.len := by
  have hfits := hs.fits
  have hlen := hs.len_le
  simp only [elems, List.length_take, List.length_drop]
  omega

theorem elems_sub {i j : Nat} (hj : j ≤ s.len) :
    elems h (s.sub i j) = ((elems h s).take j).drop i := by
  simp only [elems, Slice.sub]
  rw [List.take_take, Nat.min_eq_left hj, List.drop_take, List.drop_drop]

theorem Slice.Valid.sub (hs : s.Valid h) {i j : Nat} (hij : i ≤ j) (hj : j ≤ s.len) :
    (s.sub i j).Valid h := by
  have hfits := hs.fits
  have hlen := hs.len_le
  refine ⟨hs.made, ?_, ?_⟩
  · simp only [Slice.sub]
    omega
  · simp only [Slice.sub]
    omega

/-! ## New arrays -/

theorem getD_concat {k : Nat} (hk : k < h.length) (arr : List α) :
    (h ++ [arr]).getD k [] = h.getD k [] := by
  rw [List.getD_eq_getElem?_getD, List.getD_eq_getElem?_getD, List.getElem?_append_left hk]

theorem getD_concat_length (h : Heap α) (arr : List α) : (h ++ [arr]).getD h.length [] = arr := by
  simp

theorem elems_concat (hs : s.array < h.length) (arr : List α) :
    elems (h ++ [arr]) s = elems h s := by
  rw [elems, getD_concat hs, elems]

theorem Slice.Valid.concat (hs : s.Valid h) (arr : List α) : s.Valid (h ++ [arr]) where
  made := by
    rw [List.length_append]
    exact Nat.lt_add_right _ hs.made
  fits := by
    rw [getD_concat hs.made]
    exact hs.fits
  len_le := hs.len_le

theorem valid_alloc (h : Heap α) (xs : List α) : (alloc h xs).2.Valid (alloc h xs).1 := by
  refine ⟨by simp [alloc], ?_, Nat.le_refl _⟩
  simp only [alloc, getD_concat_length]
  omega

theorem elems_alloc (h : Heap α) (xs : List α) : elems (alloc h xs).1 (alloc h xs).2 = xs := by
  simp [elems, alloc]

/-! ## Writing -/

theorem length_overwrite {l xs : List α} {i : Nat} (h : i + xs.length ≤ l.length) :
    (overwrite l i xs).length = l.length := by
  simp only [overwrite, List.length_append, List.length_take, List.length_drop]
  omega

/-- From a position before the place on, the elements in between are kept. -/
theorem take_drop_overwrite {l xs : List α} {i j : Nat} (hij : j ≤ i) (hi : i ≤ l.length) :
    ((overwrite l i xs).drop j).take (i - j + xs.length) = (l.drop j).take (i - j) ++ xs := by
  have hlen : (l.take i).length = i := List.length_take_of_le hi
  have hkept : ((l.drop j).take (i - j)).length = i - j := by
    rw [List.length_take, List.length_drop]
    omega
  rw [overwrite, List.append_assoc, List.drop_append_of_le_length (by omega), List.drop_take,
    List.take_append, hkept, Nat.add_sub_cancel_left, List.take_left,
    List.take_of_length_le (by omega)]

/-- The array behind a slice after another one was appended to. -/
theorem getD_modify (h : Heap α) (i k : Nat) (f : List α → List α) (hk : k < h.length) :
    (h.modify i f).getD k [] = if i = k then f (h.getD k []) else h.getD k [] := by
  rw [List.getD_eq_getElem?_getD, List.getD_eq_getElem?_getD, List.getElem?_modify,
    List.getElem?_eq_getElem hk]
  split <;> simp_all

variable {spare xs : List α}

/-- Appending makes arrays and changes none in length. -/
theorem length_getD_append (hs : s.Valid h) {k : Nat} (hk : k < h.length) :
    k < (append spare h s xs).1.length ∧
      ((append spare h s xs).1.getD k []).length = (h.getD k []).length := by
  unfold append
  split
  · rename_i hcap
    refine ⟨by simpa using hk, ?_⟩
    simp only [getD_modify h s.array k _ hk]
    split
    · rename_i heq
      have hfits := hs.fits
      exact length_overwrite (by rw [← heq]; omega)
    · rfl
  · refine ⟨?_, ?_⟩
    · simp only [List.length_append]
      omega
    · simp only [getD_concat hk]

/-- Slices stay valid. -/
theorem Slice.Valid.of_append (ht : t.Valid h) (hs : s.Valid h) :
    t.Valid (append spare h s xs).1 := by
  obtain ⟨hmade, hlen⟩ := @length_getD_append _ _ _ spare xs hs _ ht.made
  refine ⟨hmade, ?_, ht.len_le⟩
  rw [hlen]
  exact ht.fits

theorem valid_append (hs : s.Valid h) : (append spare h s xs).2.Valid (append spare h s xs).1 := by
  have hkept := @Slice.Valid.of_append _ _ _ _ spare xs hs hs
  revert hkept
  unfold append
  split
  · rename_i hcap
    exact fun hkept => ⟨hkept.made, hkept.fits, hcap⟩
  · intro _
    have hread := length_elems hs
    refine ⟨by simp, ?_, Nat.le_add_right _ _⟩
    simp only [getD_concat_length, List.length_append]
    omega

/-- The slice that is returned holds what was there and what was appended. -/
theorem elems_append (hs : s.Valid h) :
    elems (append spare h s xs).1 (append spare h s xs).2 = elems h s ++ xs := by
  have hfits := hs.fits
  have hlen := hs.len_le
  unfold append
  split
  · rename_i hcap
    have hat := @take_drop_overwrite _ (h.getD s.array []) xs (s.off + s.len) s.off (by omega)
      (by omega)
    rw [Nat.add_sub_cancel_left] at hat
    simp only [elems, getD_modify h s.array s.array _ hs.made, ↓reduceIte]
    exact hat
  · have hread := length_elems hs
    simp only [elems, getD_concat_length, List.drop_zero]
    simp only [elems] at hread
    rw [List.take_append_of_le_length (by rw [List.length_append]; omega),
      List.take_of_length_le (by rw [List.length_append]; omega)]

/-- Slices of other arrays keep what they hold. -/
theorem elems_append_of_ne (ht : t.array < h.length) (hne : t.array ≠ s.array) :
    elems (append spare h s xs).1 t = elems h t := by
  unfold append
  split
  · simp only [elems, getD_modify h s.array t.array _ ht, if_neg (Ne.symm hne)]
  · exact elems_concat ht _

/-- What is appended to a new slice does not lie in an array that was there before. -/
theorem array_append_alloc_ne (ys : List α) {k : Nat} (hk : k < h.length) :
    (append spare (alloc h ys).1 (alloc h ys).2 xs).2.array ≠ k := by
  unfold append
  split
  · exact Nat.ne_of_gt hk
  · simp only [alloc, List.length_append]
    omega

/-- A valid slice with its arrays. -/
structure Stored (α : Type) where
  heap : Heap α
  slice : Slice
  valid : slice.Valid heap

def Stored.elems (st : Stored α) : List α := Slices.elems st.heap st.slice

/-- `make([]T, 0, n)` -/
def Stored.make (zero : α) (n : Nat) : Stored α where
  heap := [List.replicate n zero]
  slice := ⟨0, 0, 0, n⟩
  valid := ⟨Nat.zero_lt_one, by simp, Nat.zero_le n⟩

def Stored.append (spare : List α) (st : Stored α) (xs : List α) : Stored α where
  heap := (Slices.append spare st.heap st.slice xs).1
  slice := (Slices.append spare st.heap st.slice xs).2
  valid := valid_append st.valid

/-- `s[i:j]` -/
def Stored.sub (st : Stored α) (i j : Nat) (hij : i ≤ j) (hj : j ≤ st.slice.len) : Stored α where
  heap := st.heap
  slice := st.slice.sub i j
  valid := st.valid.sub hij hj

/-- A new slice with these elements. -/
def Stored.copied (st : Stored α) (xs : List α) : Stored α where
  heap := (alloc st.heap xs).1
  slice := (alloc st.heap xs).2
  valid := valid_alloc st.heap xs

@[simp]
theorem Stored.length_elems (st : Stored α) : st.elems.length = st.slice.len :=
  Slices.length_elems st.valid

@[simp]
theorem Stored.elems_make (zero : α) (n : Nat) : (Stored.make zero n).elems = [] := by
  simp [Stored.elems, Slices.elems, Stored.make]

@[simp]
theorem Stored.elems_append (spare : List α) (st : Stored α) (xs : List α) :
    (st.append spare xs).elems = st.elems ++ xs :=
  Slices.elems_append st.valid

theorem Stored.elems_sub (st : Stored α) {i j : Nat} (hij : i ≤ j) (hj : j ≤ st.slice.len) :
    (st.sub i j hij hj).elems = (st.elems.take j).drop i :=
  Slices.elems_sub hj

/-- `s[i:]` -/
theorem Stored.elems_sub_len (st : Stored α) {i : Nat} (hi : i ≤ st.slice.len) :
    (st.sub i st.slice.len hi (Nat.le_refl _)).elems = st.elems.drop i := by
  rw [elems_sub, List.take_of_length_le (Nat.le_of_eq st.length_elems)]

@[simp]
theorem Stored.elems_copied (st : Stored α) (xs : List α) : (st.copied xs).elems = xs :=
  elems_alloc st.heap xs

end SniShaper.Slices
