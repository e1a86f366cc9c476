import Mathlib.Data.List.Basic
import Mathlib.Tactic.Common

/-! Readers in the manner of `io.Reader`: a read is given a length and returns some of the
items that are left, or says that there are none.

A reader carries the law that makes it one, so that a reader built from others is correct by
its construction. `readsExactly_iff` then says what reading it gives, for every choice of
lengths: all that `rest` says is left, in order, and then nothing.

* `bytes`, `socket`: a slice in memory, and a connection on which segments arrive;
* `multi`: one reader and then another one;
* `bufio`: a reader with a buffer in front of it;
* `readFull`: reading a given number of items, which gives the first of those that are left. -/

namespace SniShaper.Readers

/-- What a read may answer, between what was left before it and what is left after it. -/
inductive Answers {β : Type*} : List β → Option (List β) → List β → Prop where
  | done : Answers [] none []
  | got (items after : List β) : items ≠ [] → Answers (items ++ after) (some items) after

structure Reader (σ β : Type*) where
  /-- What a read of so many items gives; `none` at the end. -/
  read : σ → Nat → Option (List β) × σ
  /-- All that is left to read. -/
  rest : σ → List β
  answers : ∀ s n, 0 < n → Answers (rest s) (read s n).1 (rest (read s n).2)

namespace Reader

variable {σ τ β : Type*}

/-! ## Reading to the end -/

/-- What reads of these lengths give together. -/
def reads (r : Reader σ β) : σ → List Nat → List β
  | _, [] => []
  | s, n :: sizes => (r.read s n).1.elim [] (· ++ r.reads (r.read s n).2 sizes)

/-- Reads of whatever lengths give these items in order, and all of them when there are
enough reads. -/
def ReadsExactly (r : Reader σ β) (s : σ) (items : List β) : Prop :=
  ∀ sizes : List Nat, (∀ n ∈ sizes, 0 < n) →
    r.reads s sizes <+: items ∧ (items.length ≤ sizes.length → r.reads s sizes = items)

/-- A read is the end, or gives the first items and leaves less. -/
theorem read_cases (r : Reader σ β) (s : σ) {n : Nat} (hn : 0 < n) :
    ((r.read s n).1 = none ∧ r.rest s = []) ∨
      ∃ items, (r.read s n).1 = some items ∧ items ≠ [] ∧
        r.rest s = items ++ r.rest (r.read s n).2 := by
  have h := r.answers s n hn
  generalize hbefore : r.rest s = before at h ⊢
  generalize hanswer : (r.read s n).1 = answer at h ⊢
  generalize hafter : r.rest (r.read s n).2 = after at h ⊢
  cases h with
  | done => exact .inl ⟨rfl, rfl⟩
  | got items after hne => exact .inr ⟨items, rfl, hne, rfl⟩

theorem reads_isPrefix_rest (r : Reader σ β) {s : σ} {sizes : List Nat} (hpos : ∀ n ∈ sizes, 0 < n) :
    r.reads s sizes <+: r.rest s := by
  induction sizes generalizing s with
  | nil => exact List.nil_prefix
  | cons n sizes ih =>
    rcases r.read_cases s (hpos n (by simp)) with ⟨hread, -⟩ | ⟨items, hread, -, hrest⟩
    · simp [reads, hread]
    · rw [reads, hread, hrest]
      exact (List.prefix_append_right_inj items).mpr (ih fun m hm => hpos m (by simp [hm]))

theorem reads_eq_rest (r : Reader σ β) {s : σ} {sizes : List Nat} (hpos : ∀ n ∈ sizes, 0 < n)
    (hlen : (r.rest s).length ≤ sizes.length) : r.reads s sizes = r.rest s := by
  induction sizes generalizing s with
  | nil => exact (List.length_eq_zero_iff.mp (Nat.le_zero.mp hlen)).symm
  | cons n sizes ih =>
    rcases r.read_cases s (hpos n (by simp)) with ⟨hread, hrest⟩ | ⟨items, hread, hne, hrest⟩
    · simp [reads, hread, hrest]
    · have hitems := List.length_pos_of_ne_nil hne
      rw [hrest, List.length_append, List.length_cons] at hlen
      rw [reads, hread, hrest, Option.elim_some,
        ih (fun m hm => hpos m (by simp [hm])) (by omega)]

theorem readsExactly_iff (r : Reader σ β) (s : σ) (items : List β) :
    r.ReadsExactly s items ↔ r.rest s = items := by
  constructor
  · intro h
    let sizes := List.replicate ((r.rest s).length + items.length) 1
    have hpos : ∀ n ∈ sizes, 0 < n := fun n hn => by simp [List.eq_of_mem_replicate hn]
    have hall : r.reads s sizes = items := (h sizes hpos).2 (by simp [sizes])
    rwa [reads_eq_rest r hpos (by simp [sizes])] at hall
  · rintro rfl sizes hpos
    exact ⟨reads_isPrefix_rest r hpos, reads_eq_rest r hpos⟩

/-! ## Slices and connections -/

theorem take_answers {items : List β} (hne : items ≠ []) {n : Nat} (hn : 0 < n) (after : List β) :
    Answers (items ++ after) (some (items.take n)) (items.drop n ++ after) := by
  have hsplit : items ++ after = items.take n ++ (items.drop n ++ after) := by
    rw [← List.append_assoc, List.take_append_drop]
  rw [hsplit]
  refine .got _ _ fun hnil => ?_
  rcases List.take_eq_nil_iff.mp hnil with h | h
  · omega
  · exact hne h

/-- `bytes.Reader` -/
def bytes : Reader (List β) β where
  read s n := if s = [] then (none, s) else (some (s.take n), s.drop n)
  rest s := s
  answers s n hn := by
    split
    · rename_i hnil
      exact hnil ▸ .done
    · rename_i hne
      simpa using take_answers hne hn []

/-- A read takes from the first segment that has something. -/
def socketRead : List (List β) → Nat → Option (List β) × List (List β)
  | [], _ => (none, [])
  | [] :: segments, n => socketRead segments n
  | (b :: segment) :: segments, n =>
    (some ((b :: segment).take n), (b :: segment).drop n :: segments)

/-- A connection, with the segments that arrive on it. -/
def socket : Reader (List (List β)) β where
  read := socketRead
  rest segments := segments.flatten
  answers segments n hn := by
    fun_induction socketRead segments n with
    | case1 n => exact .done
    | case2 segments n ih => exact ih hn
    | case3 b segment segments n => exact take_answers (by simp) hn segments.flatten

/-! ## Readers made of readers -/

/-- The first reader is dropped when it is at its end. -/
def multiRead (r : Reader σ β) (q : Reader τ β) (s : Option σ × τ) (n : Nat) :
    Option (List β) × (Option σ × τ) :=
  match s.1.map (r.read · n) with
  | some (some items, first) => (some items, (some first, s.2))
  | _ => ((q.read s.2 n).1, (none, (q.read s.2 n).2))

/-- `io.MultiReader` of two readers -/
def multi (r : Reader σ β) (q : Reader τ β) : Reader (Option σ × τ) β where
  read := multiRead r q
  rest s := s.1.elim [] r.rest ++ q.rest s.2
  answers s n hn := by
    obtain ⟨_ | first, second⟩ := s
    · exact q.answers second n hn
    · cases hread : r.read first n with
      | mk answer first' =>
        rcases r.read_cases first hn with ⟨hnone, hrest⟩ | ⟨items, hsome, hne, hrest⟩
        · obtain rfl : answer = none := by simpa [hread] using hnone
          simpa [multiRead, hread, hrest] using q.answers second n hn
        · obtain rfl : answer = some items := by simpa [hread] using hsome
          simpa [multiRead, hread, hrest] using Answers.got items _ hne

/-- The state of a `bufio.Reader`: the bytes in its buffer, and the reader behind it. -/
structure Bufio (σ β : Type*) where
  size : Nat
  size_pos : 0 < size
  buffered : List β
  under : σ

/-- An empty buffer is filled by one read, or passed by if the read asks for as much as it
holds. -/
def bufioRead (r : Reader σ β) (b : Bufio σ β) (n : Nat) : Option (List β) × Bufio σ β :=
  if b.buffered ≠ [] then (some (b.buffered.take n), { b with buffered := b.buffered.drop n })
  else if b.size ≤ n then ((r.read b.under n).1, { b with under := (r.read b.under n).2 })
  else
    ((r.read b.under b.size).1.map (·.take n),
      { b with
        buffered := ((r.read b.under b.size).1.getD []).drop n
        under := (r.read b.under b.size).2 })

/-- `bufio.Reader` -/
def bufio (r : Reader σ β) : Reader (Bufio σ β) β where
  read := bufioRead r
  rest b := b.buffered ++ r.rest b.under
  answers b n hn := by
    by_cases hnil : b.buffered = []
    · by_cases hsize : b.size ≤ n
      · simpa [bufioRead, hnil, hsize] using r.answers b.under n hn
      · rcases r.read_cases b.under b.size_pos with ⟨hread, hrest⟩ | ⟨items, hread, hne, hrest⟩
        · have hend := r.answers b.under b.size b.size_pos
          rw [hread] at hend
          simpa [bufioRead, hnil, hsize, hread] using hend
        · simpa [bufioRead, hnil, hsize, hread, hrest] using take_answers hne hn _
    · simpa [bufioRead, hnil] using take_answers hnil hn (r.rest b.under)

/-- A read for all that is in the buffer gives it, and leaves the reader behind alone. -/
theorem bufio_read_buffered (r : Reader σ β) {b : Bufio σ β} (hne : b.buffered ≠ []) :
    (bufio r).read b b.buffered.length = (some b.buffered, { b with buffered := [] }) := by
  simp [bufio, bufioRead, hne]

/-! ## Reading a given number of items -/

/-- A read gives no more than it was asked for. -/
def Within (r : Reader σ β) : Prop :=
  ∀ s n items, (r.read s n).1 = some items → items.length ≤ n

theorem bytes_within : (bytes : Reader (List β) β).Within := by
  intro s n items h
  simp only [bytes] at h
  split at h
  · cases h
  · obtain rfl := Option.some.inj h
    exact List.length_take_le n s

theorem socket_within : (socket : Reader (List (List β)) β).Within := by
  intro segments n items h
  simp only [socket] at h
  fun_induction socketRead segments n with
  | case1 n => cases h
  | case2 segments n ih => exact ih h
  | case3 b segment segments n =>
    obtain rfl := Option.some.inj h
    exact List.length_take_le n _

theorem multi_within {r : Reader σ β} {q : Reader τ β} (hr : r.Within) (hq : q.Within) :
    (multi r q).Within := by
  intro s n items h
  simp only [multi, multiRead] at h
  split at h
  · rename_i items' first hfirst
    obtain rfl := Option.some.inj h
    obtain ⟨s1, -, hread⟩ := Option.map_eq_some_iff.mp hfirst
    exact hr s1 n items' (by rw [hread])
  · exact hq s.2 n items h

theorem bufio_within {r : Reader σ β} (hr : r.Within) : (bufio r).Within := by
  intro b n items h
  simp only [bufio, bufioRead] at h
  split at h
  · obtain rfl := Option.some.inj h
    exact List.length_take_le n _
  · split at h
    · exact hr b.under n items h
    · obtain ⟨items', -, rfl⟩ := Option.map_eq_some_iff.mp h
      exact List.length_take_le n items'

/-- The rounds of `io.ReadFull`, of which no more are needed than there are items. -/
def readFullLoop (r : Reader σ β) : Nat → Nat → σ → Option (List β × σ)
  | _, 0, s => some ([], s)
  | 0, _ + 1, _ => none
  | fuel + 1, n + 1, s =>
    match r.read s (n + 1) with
    | (none, _) => none
    | (some items, s') =>
      (readFullLoop r fuel (n + 1 - items.length) s').map fun (more, s'') => (items ++ more, s'')

/-- `io.ReadFull` -/
def readFull (r : Reader σ β) (n : Nat) (s : σ) : Option (List β × σ) := readFullLoop r n n s

/-- The rounds give the next `n` items and leave the others, or fail when there are not so
many. -/
theorem readFullLoop_cases (r : Reader σ β) (hr : r.Within) (fuel n : Nat) (s : σ)
    (hfuel : n ≤ fuel) :
    (n ≤ (r.rest s).length ∧ ∃ s', r.readFullLoop fuel n s = some ((r.rest s).take n, s') ∧
        r.rest s' = (r.rest s).drop n) ∨
      ((r.rest s).length < n ∧ r.readFullLoop fuel n s = none) := by
  induction fuel generalizing n s with
  | zero =>
    obtain rfl : n = 0 := by omega
    exact .inl ⟨by omega, s, rfl, rfl⟩
  | succ fuel ih =>
    cases n with
    | zero => exact .inl ⟨by omega, s, rfl, rfl⟩
    | succ n =>
      unfold readFullLoop
      rcases r.read_cases s (Nat.succ_pos n) with ⟨hread, hrest⟩ | ⟨items, hread, hne, hrest⟩
      · refine .inr ⟨by simp [hrest], ?_⟩
        split
        · rfl
        · rename_i items s' heq
          rw [heq] at hread
          cases hread
      · have hle := hr s (n + 1) items hread
        have hpos := List.length_pos_of_ne_nil hne
        split
        · rename_i s' heq
          rw [heq] at hread
          cases hread
        · rename_i items' s' heq
          rw [heq] at hread hrest
          obtain rfl := Option.some.inj hread
          simp only at hrest
          rw [hrest, List.length_append]
          rcases ih (n + 1 - items'.length) s' (by omega) with
            ⟨hmany, s'', hloop, hleft⟩ | ⟨hfew, hloop⟩
          · refine .inl ⟨by omega, s'', ?_, ?_⟩
            · rw [hloop, List.take_append, List.take_of_length_le hle]
              rfl
            · rw [hleft, List.drop_append, List.drop_of_length_le hle, List.nil_append]
          · refine .inr ⟨by omega, ?_⟩
            rw [hloop]
            rfl

theorem readFull_cases (r : Reader σ β) (hr : r.Within) (n : Nat) (s : σ) :
    (n ≤ (r.rest s).length ∧ ∃ s', r.readFull n s = some ((r.rest s).take n, s') ∧
        r.rest s' = (r.rest s).drop n) ∨
      ((r.rest s).length < n ∧ r.readFull n s = none) :=
  readFullLoop_cases r hr n n s (Nat.le_refl n)

end Reader

end SniShaper.Readers
