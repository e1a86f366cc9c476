import Mathlib.Data.List.Find
import Mathlib.Data.List.Induction
import Mathlib.Data.List.Nodup
import Mathlib.Tactic.Common

/-! Merging rows into a list by key: a row whose key is in the list already replaces the
last row that has it, any other row is added at the end. `put old new` is what a
replaced row becomes.

* `lastIdx_eq_some_iff`, `lastIdx_eq_none_iff`: the position that is replaced;
* `merged_upsertAll`: what a list of rows does to a list;
* `upsertAll_eq_nil_iff`: when it does the same to a list as to an empty one. -/

namespace SniShaper.Upsert

variable {α κ : Type*} [DecidableEq κ] (key : α → κ)

/-- The last position with the key. -/
def lastIdx (l : List α) (k : κ) : Option Nat :=
  (List.range l.length).reverse.find? fun i => (l[i]?.map key) = some k

/-- The last row with the key. -/
def lastWith (l : List α) (k : κ) : Option α := l.reverse.find? fun x => key x = k

variable {key}

/-! ## The position of a key -/

theorem lastIdx_congr {l l' : List α} (h : l.map key = l'.map key) (k : κ) :
    lastIdx key l k = lastIdx key l' k := by
  have hlen : l.length = l'.length := by simpa using congrArg List.length h
  unfold lastIdx
  simp only [← List.getElem?_map, h, hlen]

theorem lastIdx_concat (l : List α) (x : α) (k : κ) :
    lastIdx key (l ++ [x]) k = if key x = k then some l.length else lastIdx key l k := by
  have hsame : (List.range l.length).reverse.find?
      (fun i => ((l ++ [x])[i]?.map key) = some k) = lastIdx key l k := by
    refine List.find?_congr fun i hi => ?_
    rw [List.getElem?_append_left (by simpa using hi)]
  rw [lastIdx, List.length_append, List.length_singleton, List.range_succ, List.reverse_append,
    List.reverse_singleton, List.singleton_append, List.find?_cons,
    List.getElem?_concat_length, hsame]
  by_cases hx : key x = k
  · simp [hx]
  · simp [hx, lastIdx]

theorem lastIdx_eq_none_iff {l : List α} {k : κ} : lastIdx key l k = none ↔ k ∉ l.map key := by
  induction l using List.reverseRecOn with
  | nil => simp [lastIdx]
  | append_singleton l x ih =>
    rw [lastIdx_concat]
    by_cases hx : key x = k
    · simp [hx]
    · simp only [hx, if_false, ih, List.map_append, List.map_cons, List.map_nil, List.mem_append,
        List.mem_singleton, not_or, Ne.symm hx, not_false_eq_true, and_true]

/-- The position that is found has the key, and no later one has it. -/
theorem lastIdx_eq_some_iff {l : List α} {k : κ} {i : Nat} :
    lastIdx key l k = some i ↔
      (l[i]?.map key) = some k ∧ ∀ j, i < j → (l[j]?.map key) ≠ some k := by
  induction l using List.reverseRecOn with
  | nil => simp [lastIdx]
  | append_singleton l x ih =>
    have hpast : ∀ j, l.length < j → (l ++ [x])[j]? = none := by
      intro j hj
      simp only [List.getElem?_eq_none_iff, List.length_append, List.length_singleton]
      omega
    rw [lastIdx_concat]
    by_cases hx : key x = k
    · rw [if_pos hx, Option.some.injEq]
      constructor
      · rintro rfl
        refine ⟨by simp [hx], fun j hj => by simp [hpast j hj]⟩
      · rintro ⟨hi, hlater⟩
        rcases Nat.lt_trichotomy i l.length with hlt | heq | hgt
        · exact absurd (by simp [hx]) (hlater l.length hlt)
        · exact heq.symm
        · simp [hpast i hgt] at hi
    · rw [if_neg hx, ih]
      constructor
      · rintro ⟨hi, hlater⟩
        have hlt : i < l.length := by
          by_contra hge
          simp [List.getElem?_eq_none (Nat.le_of_not_lt hge)] at hi
        refine ⟨by rwa [List.getElem?_append_left hlt], fun j hj => ?_⟩
        rcases Nat.lt_trichotomy j l.length with hjl | rfl | hjl
        · rw [List.getElem?_append_left hjl]
          exact hlater j hj
        · simp [hx]
        · simp [hpast j hjl]
      · rintro ⟨hi, hlater⟩
        have hlt : i < l.length := by
          rcases Nat.lt_trichotomy i l.length with hlt | rfl | hgt
          · exact hlt
          · simp [hx] at hi
          · simp [hpast i hgt] at hi
        refine ⟨by rwa [List.getElem?_append_left hlt] at hi, fun j hj => ?_⟩
        by_cases hjl : j < l.length
        · have h := hlater j hj
          rwa [List.getElem?_append_left hjl] at h
        · simp [List.getElem?_eq_none (Nat.le_of_not_lt hjl)]

/-- A key that is nowhere else is at its last place. -/
theorem lastIdx_of_nodup {l : List α} (h : (l.map key).Nodup) {i : Nat} {x : α}
    (hi : l[i]? = some x) : lastIdx key l (key x) = some i := by
  rw [lastIdx_eq_some_iff, hi]
  refine ⟨rfl, fun j hij hj => ?_⟩
  rw [← List.getElem?_map] at hj
  have hlt := (List.getElem?_eq_some_iff.mp hj).1
  refine List.nodup_iff_getElem?_ne_getElem?.mp h i j hij hlt ?_
  rw [hj, List.getElem?_map, hi, Option.map_some]

theorem lastWith_cons (x : α) (l : List α) (k : κ) :
    lastWith key (x :: l) k = (lastWith key l k).or (if key x = k then some x else none) := by
  unfold lastWith
  rw [List.reverse_cons, List.find?_append, List.find?_singleton]
  simp

theorem lastWith_concat (l : List α) (x : α) (k : κ) :
    lastWith key (l ++ [x]) k = if key x = k then some x else lastWith key l k := by
  unfold lastWith
  rw [List.reverse_append, List.reverse_singleton, List.singleton_append, List.find?_cons]
  by_cases hx : key x = k
  · simp [hx]
  · simp [hx]

/-- The last row with a key stands at its last position. -/
theorem getElem?_lastIdx {l : List α} {k : κ} {i : Nat} (h : lastIdx key l k = some i) :
    l[i]? = lastWith key l k := by
  induction l using List.reverseRecOn with
  | nil => cases h
  | append_singleton l x ih =>
    rw [lastIdx_concat] at h
    rw [lastWith_concat]
    by_cases hx : key x = k
    · rw [if_pos hx] at h ⊢
      rw [← Option.some.inj h, List.getElem?_concat_length]
    · rw [if_neg hx] at h ⊢
      have hlt : i < l.length := by
        by_contra hge
        have hnone := (lastIdx_eq_some_iff.mp h).1
        rw [List.getElem?_eq_none (Nat.le_of_not_lt hge)] at hnone
        cases hnone
      rw [List.getElem?_append_left hlt, ih h]

theorem lastWith_eq_none_iff {l : List α} {k : κ} : lastWith key l k = none ↔ k ∉ l.map key := by
  unfold lastWith
  simp [List.find?_eq_none]

theorem exists_lastWith {l : List α} {k : κ} (h : k ∈ l.map key) :
    ∃ x, lastWith key l k = some x :=
  Option.ne_none_iff_exists'.mp fun hnone => lastWith_eq_none_iff.mp hnone h

theorem lastWith_eq_some {l : List α} {k : κ} {x : α} (h : lastWith key l k = some x) :
    x ∈ l ∧ key x = k := by
  unfold lastWith at h
  refine ⟨List.mem_reverse.mp (List.mem_of_find?_eq_some h), ?_⟩
  simpa using List.find?_some h

/-! ## Merging -/

variable (key) (put : α → α → α)

def upsert (l : List α) (x : α) : List α :=
  match lastIdx key l (key x) with
  | some i => l.modify i fun old => put old x
  | none => l ++ [x]

def upsertAll (l rows : List α) : List α := rows.foldl (upsert key put) l

/-- What becomes of the row at position `i`: the last one with its key takes what the last
of the new rows with the key brings. -/
def keptRow (before rows : List α) (i : Nat) (old : α) : α :=
  if lastIdx key before (key old) = some i then (lastWith key rows (key old)).elim old (put old)
  else old

/-- The rows `after` are `before` with `rows` merged in: old rows keep their places, and
every new key is added once, in the order in which the keys first occur. -/
structure Merged (before rows after : List α) : Prop where
  length_le : before.length ≤ after.length
  kept : ∀ i old, before[i]? = some old → after[i]? = some (keptRow key put before rows i old)
  keys_added : (after.drop before.length).map key =
    ((rows.map key).filter (· ∉ before.map key)).eraseDups
  added : ∀ x ∈ after.drop before.length, ∃ first ∈ rows, ∃ last,
    key first = key x ∧ lastWith key rows (key x) = some last ∧ x = put first last

/-- A replaced row keeps something of the old one, and of nothing else. -/
structure Keeps : Prop where
  key_put : ∀ old new, key (put old new) = key new
  put_put : ∀ old mid new, put (put old mid) new = put old new
  put_self : ∀ x, put x x = x

variable {key put} (hput : Keeps key put)
include hput

omit hput in
/-- Rows with new keys are all added as they are. -/
theorem upsertAll_of_nodup {l rows : List α} (h : ((l ++ rows).map key).Nodup) :
    upsertAll key put l rows = l ++ rows := by
  induction rows generalizing l with
  | nil => simp [upsertAll]
  | cons x rows ih =>
    have hnew : lastIdx key l (key x) = none := by
      rw [lastIdx_eq_none_iff]
      intro hx
      rw [List.map_append, List.nodup_append] at h
      exact h.2.2 _ hx _ (List.mem_map_of_mem List.mem_cons_self) rfl
    have hstep : upsertAll key put l (x :: rows) = upsertAll key put (l ++ [x]) rows := by
      simp [upsertAll, upsert, hnew]
    rw [hstep, ih (by simpa using h), List.append_assoc, List.singleton_append]

omit [DecidableEq κ] in
theorem map_key_modify {l : List α} {x : α} {i : Nat} (h : (l[i]?.map key) = some (key x)) :
    (l.modify i fun old => put old x).map key = l.map key := by
  apply List.ext_getElem?
  intro j
  rw [List.getElem?_map, List.getElem?_map, List.getElem?_modify]
  by_cases hij : i = j
  · subst hij
    cases hl : l[i]? with
    | none => simp
    | some old => simpa [hl, hput.key_put] using h.symm
  · simp [hij]

/-- What the old row becomes when a row with its key comes before the others. -/
theorem elim_lastWith_cons (old x : α) (rows : List α) :
    (lastWith key (x :: rows) (key x)).elim old (put old) =
      (lastWith key rows (key x)).elim (put old x) (put (put old x)) := by
  rw [lastWith_cons, if_pos rfl]
  cases lastWith key rows (key x) with
  | none => rfl
  | some y => exact (hput.put_put old x y).symm

/-- A row whose key is there replaces the last one with it; the keys stay as they are. -/
theorem merged_replace {before rows after : List α} {x : α} {i : Nat}
    (hi : lastIdx key before (key x) = some i)
    (h : Merged key put (before.modify i fun old => put old x) rows after) :
    Merged key put before (x :: rows) after := by
  have hat := (lastIdx_eq_some_iff.mp hi).1
  have hkeys := map_key_modify hput hat
  have hmem : key x ∈ before.map key := by
    by_contra hx
    rw [lastIdx_eq_none_iff.mpr hx] at hi
    cases hi
  constructor
  · simpa using h.length_le
  · intro j old hj
    by_cases hij : i = j
    · subst hij
      have hkey : key old = key x := by simpa [hj] using hat
      have hrow := h.kept i (put old x) (by simp [hj])
      rw [hrow, keptRow, keptRow, lastIdx_congr hkeys, hput.key_put, hkey, if_pos hi, if_pos hi,
        elim_lastWith_cons hput]
    · have hrow := h.kept j old (by simp [hij, hj])
      rw [hrow, keptRow, keptRow, lastIdx_congr hkeys]
      by_cases hlast : lastIdx key before (key old) = some j
      · have hne : key x ≠ key old := by
          intro heq
          rw [← heq, hi] at hlast
          exact hij (Option.some.inj hlast)
        rw [if_pos hlast, if_pos hlast, lastWith_cons, if_neg hne, Option.or_none]
      · rw [if_neg hlast, if_neg hlast]
  · have hadded := h.keys_added
    rw [List.length_modify, hkeys] at hadded
    rw [hadded, List.map_cons, List.filter_cons_of_neg (by simpa using hmem)]
  · intro y hy
    obtain ⟨first, hfirst, last, hkey, hlast, rfl⟩ := h.added y (by simpa using hy)
    refine ⟨first, List.mem_cons_of_mem _ hfirst, last, hkey, ?_, rfl⟩
    rw [lastWith_cons, hlast, Option.some_or]

/-- A row with a new key is added at the end. -/
theorem merged_add {before rows after : List α} {x : α} (hx : key x ∉ before.map key)
    (h : Merged key put (before ++ [x]) rows after) :
    Merged key put before (x :: rows) after := by
  have hlen : before.length < after.length := by
    have hle := h.length_le
    simp only [List.length_append, List.length_singleton] at hle
    omega
  -- the row at the end of the old ones, and the rows after it
  have hrow := h.kept before.length x (by simp)
  have hnew : keptRow key put (before ++ [x]) rows before.length x =
      (lastWith key rows (key x)).elim x (put x) := by
    rw [keptRow, lastIdx_concat, if_pos rfl, if_pos rfl]
  rw [hnew] at hrow
  have hdrop : after.drop before.length =
      (lastWith key rows (key x)).elim x (put x) :: after.drop (before.length + 1) := by
    rw [List.drop_eq_getElem_cons hlen]
    rw [List.getElem?_eq_getElem hlen] at hrow
    rw [Option.some.inj hrow]
  have hkey : key ((lastWith key rows (key x)).elim x (put x)) = key x := by
    cases hlast : lastWith key rows (key x) with
    | none => rfl
    | some y => rw [Option.elim_some, hput.key_put, (lastWith_eq_some hlast).2]
  constructor
  · omega
  · intro j old hj
    have hne : key x ≠ key old := by
      intro heq
      exact hx (heq ▸ List.mem_map_of_mem (List.mem_of_getElem? hj))
    have hjlt : j < before.length := by
      by_contra hge
      rw [List.getElem?_eq_none (Nat.le_of_not_lt hge)] at hj
      cases hj
    have hrow := h.kept j old (by rw [List.getElem?_append_left hjlt, hj])
    rw [hrow, keptRow, keptRow, lastIdx_concat, if_neg hne, lastWith_cons, if_neg hne,
      Option.or_none]
  · have hadded := h.keys_added
    rw [List.length_append, List.length_singleton] at hadded
    rw [hdrop, List.map_cons, hkey, hadded, List.map_cons,
      List.filter_cons_of_pos (by simpa using hx), List.eraseDups_cons, List.filter_filter]
    congr 2
    refine List.filter_congr fun k _ => ?_
    by_cases hk : k = key x
    · simp [hk]
    · simp [hk]
  · intro y hy
    rw [hdrop, List.mem_cons] at hy
    rcases hy with rfl | hy
    · cases hlast : lastWith key rows (key x) with
      | none =>
        refine ⟨x, List.mem_cons_self, x, rfl, ?_, (hput.put_self x).symm⟩
        rw [Option.elim_none, lastWith_cons, hlast, if_pos rfl, Option.none_or]
      | some z =>
        have hz := (lastWith_eq_some hlast).2
        refine ⟨x, List.mem_cons_self, z, ?_, ?_, rfl⟩
        · rw [Option.elim_some, hput.key_put, hz]
        · rw [Option.elim_some, hput.key_put, hz, lastWith_cons, hlast, Option.some_or]
    · obtain ⟨first, hfirst, last, hkey, hlast, rfl⟩ := h.added y (by simpa using hy)
      refine ⟨first, List.mem_cons_of_mem _ hfirst, last, hkey, ?_, rfl⟩
      rw [lastWith_cons, hlast, Option.some_or]

theorem merged_upsertAll (before rows : List α) :
    Merged key put before rows (upsertAll key put before rows) := by
  induction rows generalizing before with
  | nil =>
    refine ⟨le_rfl, fun i old hi => ?_, by simp [upsertAll], by simp [upsertAll]⟩
    simp [upsertAll, keptRow, lastWith, hi]
  | cons x rows ih =>
    cases hi : lastIdx key before (key x) with
    | some i =>
      have hstep : upsertAll key put before (x :: rows) =
          upsertAll key put (before.modify i fun old => put old x) rows := by
        simp [upsertAll, upsert, hi]
      rw [hstep]
      exact merged_replace hput hi (ih _)
    | none =>
      have hstep : upsertAll key put before (x :: rows) = upsertAll key put (before ++ [x]) rows := by
        simp [upsertAll, upsert, hi]
      rw [hstep]
      exact merged_add hput (lastIdx_eq_none_iff.mp hi) (ih _)

omit hput in
theorem eraseDups_eq_nil {ks : List κ} : ks.eraseDups = [] ↔ ks = [] := by
  cases ks with
  | nil => simp
  | cons k ks => simp [List.eraseDups_cons]

/-- Nothing changes exactly when every row is there already: `put` gives back the last row
with its key. -/
theorem upsertAll_eq_self_iff (before rows : List α) :
    upsertAll key put before rows = before ↔
      ∀ x ∈ rows, ∃ old new, lastWith key before (key x) = some old ∧
        lastWith key rows (key x) = some new ∧ put old new = old := by
  have h := merged_upsertAll hput before rows
  constructor
  · intro heq x hx
    have hnone := h.keys_added
    rw [heq, List.drop_length, List.map_nil, eq_comm, eraseDups_eq_nil,
      List.filter_eq_nil_iff] at hnone
    have hmem : key x ∈ before.map key := by
      simpa using hnone (key x) (List.mem_map_of_mem hx)
    obtain ⟨i, hi⟩ : ∃ i, lastIdx key before (key x) = some i :=
      Option.ne_none_iff_exists'.mp fun hno => lastIdx_eq_none_iff.mp hno hmem
    obtain ⟨old, hold⟩ := exists_lastWith hmem
    obtain ⟨new, hnew⟩ := exists_lastWith (List.mem_map_of_mem (f := key) hx)
    have hat : before[i]? = some old := (getElem?_lastIdx hi).trans hold
    have hkept := h.kept i old hat
    rw [heq, hat, keptRow, (lastWith_eq_some hold).2, if_pos hi, hnew] at hkept
    exact ⟨old, new, hold, hnew, (Option.some.inj hkept).symm⟩
  · intro hall
    have hlen : (upsertAll key put before rows).drop before.length = [] := by
      rw [← List.map_eq_nil_iff (f := key), h.keys_added, eraseDups_eq_nil,
        List.filter_eq_nil_iff]
      intro k hk
      obtain ⟨x, hx, rfl⟩ := List.mem_map.mp hk
      obtain ⟨old, new, hold, -⟩ := hall x hx
      obtain ⟨hmem, hkey⟩ := lastWith_eq_some hold
      simpa using ⟨old, hmem, hkey⟩
    rw [List.drop_eq_nil_iff] at hlen
    apply List.ext_getElem?
    intro i
    cases hi : before[i]? with
    | none => exact List.getElem?_eq_none (hlen.trans (List.getElem?_eq_none_iff.mp hi))
    | some old =>
      rw [h.kept i old hi, keptRow]
      by_cases hlast : lastIdx key before (key old) = some i
      · rw [if_pos hlast]
        cases hnew : lastWith key rows (key old) with
        | none => rfl
        | some new =>
          obtain ⟨hx, hkey⟩ := lastWith_eq_some hnew
          obtain ⟨old', new', hold', hnew', hput'⟩ := hall new hx
          rw [hkey] at hold' hnew'
          rw [← getElem?_lastIdx hlast, hi] at hold'
          rw [hnew] at hnew'
          rw [Option.elim_some, Option.some.inj hold', Option.some.inj hnew', hput']
      · rw [if_neg hlast]

/-! ## Merging the same rows into different lists -/

theorem key_keptRow (before rows : List α) (i : Nat) (old : α) :
    key (keptRow key put before rows i old) = key old := by
  unfold keptRow
  by_cases hlast : lastIdx key before (key old) = some i
  · rw [if_pos hlast]
    cases hnew : lastWith key rows (key old) with
    | none => rfl
    | some new => rw [Option.elim_some, hput.key_put, (lastWith_eq_some hnew).2]
  · rw [if_neg hlast]

/-- The keys stay in their places, and the new ones follow. -/
theorem Merged.map_key {before rows after : List α} (h : Merged key put before rows after) :
    after.map key =
      before.map key ++ ((rows.map key).filter (· ∉ before.map key)).eraseDups := by
  have htake : (after.take before.length).map key = before.map key := by
    apply List.ext_getElem?
    intro i
    rw [List.getElem?_map, List.getElem?_map, List.getElem?_take]
    cases hi : before[i]? with
    | none =>
      have hge := List.getElem?_eq_none_iff.mp hi
      rw [if_neg (Nat.not_lt.mpr hge)]
    | some old =>
      have hlt := (List.getElem?_eq_some_iff.mp hi).1
      rw [if_pos hlt, h.kept i old hi, Option.map_some, Option.map_some, key_keptRow hput]
  calc after.map key
      = (after.take before.length).map key ++ (after.drop before.length).map key := by
        rw [← List.map_append, List.take_append_drop]
    _ = _ := by rw [htake, h.keys_added]

/-- Where every key is once in the list and among the new rows, all rows are replaced or
added. -/
theorem Merged.brought {before rows after : List α} (h : Merged key put before rows after)
    (hnodup : (before.map key).Nodup) (hsub : before.map key ⊆ rows.map key) {x : α}
    (hx : x ∈ after) : ∃ old new, lastWith key rows (key x) = some new ∧ x = put old new := by
  obtain ⟨i, hi⟩ := List.getElem?_of_mem hx
  cases hold : before[i]? with
  | none =>
    have hdrop : x ∈ after.drop before.length := by
      rw [List.mem_iff_getElem?]
      refine ⟨i - before.length, ?_⟩
      rw [List.getElem?_drop, Nat.add_sub_cancel' (List.getElem?_eq_none_iff.mp hold), hi]
    obtain ⟨first, -, last, -, hlast, heq⟩ := h.added x hdrop
    exact ⟨first, last, hlast, heq⟩
  | some old =>
    have hrow := h.kept i old hold
    have hmem := List.mem_map_of_mem (f := key) (List.mem_of_getElem? hold)
    have hlast := lastIdx_of_nodup hnodup hold
    obtain ⟨new, hnew⟩ := exists_lastWith (hsub hmem)
    rw [hi, keptRow, if_pos hlast, hnew, Option.elim_some] at hrow
    refine ⟨old, new, ?_, Option.some.inj hrow⟩
    rw [Option.some.inj hrow, hput.key_put, (lastWith_eq_some hnew).2, hnew]

omit hput in
/-- Merging goes through a map that keeps the keys. -/
theorem map_upsertAll {put' : α → α → α} {f : α → α} (hkey : ∀ x, key (f x) = key x)
    (hf : ∀ old new, f (put old new) = put' (f old) (f new)) (l rows : List α) :
    (upsertAll key put l rows).map f = upsertAll key put' (l.map f) (rows.map f) := by
  induction rows generalizing l with
  | nil => rfl
  | cons x rows ih =>
    have hkeys : (l.map f).map key = l.map key := by simp [hkey]
    have hstep : (upsert key put l x).map f = upsert key put' (l.map f) (f x) := by
      unfold upsert
      rw [hkey, lastIdx_congr hkeys]
      cases lastIdx key l (key x) with
      | none => simp
      | some i =>
        apply List.ext_getElem?
        intro j
        simp only [List.getElem?_map, List.getElem?_modify]
        by_cases hij : i = j
        · cases l[j]? <;> simp [hij, hf]
        · simp [hij]
    have hcons := ih (upsert key put l x)
    rw [hstep] at hcons
    exact hcons

omit hput in
/-- The first keys of a list without its repetitions: each is there once, and the other
keys follow. -/
theorem prefix_eraseDups {p ks : List κ} (h : p <+: ks.eraseDups) :
    p.Nodup ∧ p ++ (ks.filter (· ∉ p)).eraseDups = ks.eraseDups := by
  induction p generalizing ks with
  | nil => simp [List.filter_true]
  | cons k p ih =>
    cases ks with
    | nil => simp at h
    | cons k' ks =>
      rw [List.eraseDups_cons, List.cons_prefix_cons] at h
      obtain ⟨rfl, h⟩ := h
      obtain ⟨hnodup, heq⟩ := ih h
      have hk : k ∉ p := by
        intro hmem
        have hin := List.mem_eraseDups.mp (h.subset hmem)
        simp at hin
      have hfilter : (k :: ks).filter (· ∉ k :: p) =
          (ks.filter fun b => !b == k).filter (· ∉ p) := by
        rw [List.filter_filter, List.filter_cons_of_neg (by simp)]
        refine List.filter_congr fun b _ => ?_
        by_cases hb : b = k
        · simp [hb]
        · simp [hb]
      refine ⟨List.nodup_cons.mpr ⟨hk, hnodup⟩, ?_⟩
      rw [hfilter, List.eraseDups_cons, List.cons_append, heq]

omit hput [DecidableEq κ] in
theorem keeps_new : Keeps key fun _ new : α => new where
  key_put _ _ := rfl
  put_put _ _ _ := rfl
  put_self _ := rfl

omit hput in
/-- Rows that replace others as a whole make the same of a list as of an empty one exactly
when its keys are the first keys of the rows. -/
theorem upsertAll_eq_nil_iff (key : α → κ) (before rows : List α) :
    upsertAll key (fun _ new => new) before rows = upsertAll key (fun _ new => new) [] rows ↔
      before.map key <+: (rows.map key).eraseDups := by
  have hkeeps : Keeps key fun _ new : α => new := keeps_new
  have hbefore := merged_upsertAll hkeeps before rows
  have hnil := merged_upsertAll hkeeps [] rows
  have hkeys := hbefore.map_key hkeeps
  have hkeys' : (upsertAll key (fun _ new => new) [] rows).map key = (rows.map key).eraseDups := by
    have h := hnil.map_key hkeeps
    simpa [List.filter_true] using h
  constructor
  · intro heq
    rw [heq, hkeys'] at hkeys
    exact ⟨_, hkeys.symm⟩
  · intro hpre
    obtain ⟨hnodup, hrest⟩ := prefix_eraseDups hpre
    have hsub : before.map key ⊆ rows.map key := fun k hk => List.mem_eraseDups.mp (hpre.subset hk)
    -- either list is read off its keys
    have hread : ∀ {l : List α}, (∀ x ∈ l, lastWith key rows (key x) = some x) →
        l.map some = (l.map key).map (lastWith key rows) := by
      intro l hl
      rw [List.map_map]
      exact List.map_congr_left fun x hx => (hl x hx).symm
    have hall : ∀ {before after : List α}, Merged key (fun _ new => new) before rows after →
        (before.map key).Nodup → before.map key ⊆ rows.map key →
        ∀ x ∈ after, lastWith key rows (key x) = some x := by
      intro before after h hnodup hsub x hx
      obtain ⟨-, new, hnew, rfl⟩ := h.brought hkeeps hnodup hsub hx
      exact hnew
    apply List.map_injective_iff.mpr fun _ _ h => Option.some.inj h
    rw [hread (hall hbefore hnodup hsub), hread (hall hnil List.nodup_nil (List.nil_subset _)),
      hkeys, hkeys', hrest]

end SniShaper.Upsert
