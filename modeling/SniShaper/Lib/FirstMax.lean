import Mathlib.Data.List.Basic
import Mathlib.Order.Lattice
import Mathlib.Tactic.Common

/-! A scan for the best element of a list: an element may have a key, and one with a
greater key replaces the best element so far.

* `scan_eq_some_iff`: it finds the first element of the greatest key;
* `scan_eq_none_iff`: it finds nothing when no element has a key;
* `scan_congr`: two lists with the same elements of each key, in the same order, have the
  same best element. -/

namespace SniShaper.FirstMax

variable {α κ : Type*} [LinearOrder κ] (key : α → Option κ)

/-- The best element so far and its key. -/
def scan : List α → Option (α × κ) → Option (α × κ)
  | [], best => best
  | a :: l, best =>
    match key a, best with
    | none, _ => scan l best
    | some k, none => scan l (some (a, k))
    | some k, some (_, m) => if m < k then scan l (some (a, k)) else scan l best

/-- `a` is the first element of `l` with the greatest key `k`. -/
def IsFirstMax (l : List α) (a : α) (k : κ) : Prop :=
  ∃ before after, l = before ++ a :: after ∧ key a = some k ∧
    (∀ x ∈ before, ∀ m, key x = some m → m < k) ∧ ∀ x ∈ after, ∀ m, key x = some m → m ≤ k

/-- The best of the elements that were seen. -/
def Best (seen : List α) : Option (α × κ) → Prop
  | none => ∀ x ∈ seen, key x = none
  | some (a, k) => IsFirstMax key seen a k

variable {key}

theorem Best.skip {seen : List α} {best : Option (α × κ)} (h : Best key seen best) {x : α}
    (hx : key x = none) : Best key (seen ++ [x]) best := by
  cases best with
  | none =>
    intro y hy
    rcases List.mem_append.mp hy with hy | hy
    · exact h y hy
    · rw [List.mem_singleton.mp hy, hx]
  | some found =>
    obtain ⟨before, after, rfl, hkey, hbefore, hafter⟩ := h
    refine ⟨before, after ++ [x], by simp, hkey, hbefore, ?_⟩
    intro y hy m hm
    rcases List.mem_append.mp hy with hy | hy
    · exact hafter y hy m hm
    · rw [List.mem_singleton.mp hy, hx] at hm
      cases hm

theorem Best.first {seen : List α} (h : Best key seen none) {x : α} {k : κ} (hx : key x = some k) :
    Best key (seen ++ [x]) (some (x, k)) := by
  refine ⟨seen, [], rfl, hx, ?_, by simp⟩
  intro y hy m hm
  rw [h y hy] at hm
  cases hm

theorem Best.replace {seen : List α} {a : α} {m : κ} (h : Best key seen (some (a, m))) {x : α}
    {k : κ} (hx : key x = some k) (hlt : m < k) : Best key (seen ++ [x]) (some (x, k)) := by
  obtain ⟨before, after, rfl, hkey, hbefore, hafter⟩ := h
  refine ⟨_, [], rfl, hx, ?_, by simp⟩
  intro y hy n hn
  rcases List.mem_append.mp hy with hy | hy
  · exact (hbefore y hy n hn).trans hlt
  · rcases List.mem_cons.mp hy with rfl | hy
    · rw [hkey] at hn
      exact Option.some.inj hn ▸ hlt
    · exact (hafter y hy n hn).trans_lt hlt

theorem Best.keep {seen : List α} {a : α} {m : κ} (h : Best key seen (some (a, m))) {x : α}
    {k : κ} (hx : key x = some k) (hle : k ≤ m) : Best key (seen ++ [x]) (some (a, m)) := by
  obtain ⟨before, after, rfl, hkey, hbefore, hafter⟩ := h
  refine ⟨before, after ++ [x], by simp, hkey, hbefore, ?_⟩
  intro y hy n hn
  rcases List.mem_append.mp hy with hy | hy
  · exact hafter y hy n hn
  · rw [List.mem_singleton.mp hy, hx] at hn
    exact Option.some.inj hn ▸ hle

/-- The scan keeps the best of what was seen. -/
theorem scan_best (l seen : List α) (best : Option (α × κ)) (h : Best key seen best) :
    Best key (seen ++ l) (scan key l best) := by
  induction l generalizing seen best with
  | nil => simpa [scan] using h
  | cons x l ih =>
    rw [show seen ++ x :: l = seen ++ [x] ++ l by simp]
    unfold scan
    cases hx : key x with
    | none => exact ih _ _ (h.skip hx)
    | some k =>
      cases best with
      | none => exact ih _ _ (h.first hx)
      | some found =>
        obtain ⟨a, m⟩ := found
        by_cases hlt : m < k
        · simp only [if_pos hlt]
          exact ih _ _ (h.replace hx hlt)
        · simp only [if_neg hlt]
          exact ih _ _ (h.keep hx (not_lt.mp hlt))

theorem scan_none_best (l : List α) : Best key l (scan key l none) :=
  scan_best l [] none (by simp [Best])

/-- In terms of the elements of each key. -/
theorem isFirstMax_iff (l : List α) (a : α) (k : κ) :
    IsFirstMax key l a k ↔
      (l.filter fun x => key x = some k).head? = some a ∧ ∀ x ∈ l, ∀ m, key x = some m → m ≤ k := by
  constructor
  · rintro ⟨before, after, rfl, hkey, hbefore, hafter⟩
    have hnone : before.filter (fun x => key x = some k) = [] := by
      rw [List.filter_eq_nil_iff]
      intro x hx hk
      exact lt_irrefl k (hbefore x hx k (of_decide_eq_true hk))
    refine ⟨by simp [hnone, hkey], ?_⟩
    intro x hx m hm
    rcases List.mem_append.mp hx with hx | hx
    · exact (hbefore x hx m hm).le
    · rcases List.mem_cons.mp hx with rfl | hx
      · rw [hkey] at hm
        exact (Option.some.inj hm).ge
      · exact hafter x hx m hm
  · rintro ⟨hhead, hmax⟩
    rw [List.head?_filter] at hhead
    obtain ⟨hkey, before, after, rfl, hbefore⟩ := List.find?_eq_some_iff_append.mp hhead
    refine ⟨before, after, rfl, of_decide_eq_true hkey, ?_, ?_⟩
    · intro x hx m hm
      refine lt_of_le_of_ne (hmax x (by simp [hx]) m hm) ?_
      rintro rfl
      simpa [hm] using hbefore x hx
    · exact fun x hx => hmax x (by simp [hx])

/-- The best element stands behind another one only when it has a greater key. -/
theorem IsFirstMax.mem_cases {before after : List α} {a b : α} {k m : κ}
    (h : IsFirstMax key (before ++ b :: after) a k) (hb : key b = some m) :
    a ∈ before ∨ a = b ∨ (a ∈ after ∧ m < k) := by
  obtain ⟨hhead, hmax⟩ := (isFirstMax_iff _ a k).mp h
  rcases (hmax b (by simp) m hb).lt_or_eq with hlt | rfl
  · have hmem := (List.mem_filter.mp (List.mem_of_mem_head? hhead)).1
    rcases List.mem_append.mp hmem with hmem | hmem
    · exact .inl hmem
    · rcases List.mem_cons.mp hmem with heq | hmem
      · exact .inr (.inl heq)
      · exact .inr (.inr ⟨hmem, hlt⟩)
  · rw [List.filter_append, List.filter_cons_of_pos (by simpa using hb)] at hhead
    cases hf : before.filter fun x => key x = some m with
    | nil =>
      rw [hf] at hhead
      exact .inr (.inl (Option.some.inj hhead).symm)
    | cons first rest =>
      rw [hf] at hhead
      obtain rfl : first = a := Option.some.inj hhead
      exact .inl (List.mem_filter.mp (hf ▸ List.mem_cons_self ..)).1

theorem IsFirstMax.unique {l : List α} {a b : α} {k m : κ} (ha : IsFirstMax key l a k)
    (hb : IsFirstMax key l b m) : a = b ∧ k = m := by
  have hmem : ∀ {c : α} {n : κ}, IsFirstMax key l c n → c ∈ l ∧ key c = some n := by
    rintro c n ⟨before, after, rfl, hkey, -⟩
    exact ⟨by simp, hkey⟩
  obtain ⟨hhead, hmax⟩ := (isFirstMax_iff l a k).mp ha
  obtain ⟨hhead', hmax'⟩ := (isFirstMax_iff l b m).mp hb
  obtain rfl : k = m :=
    le_antisymm (hmax' a (hmem ha).1 k (hmem ha).2) (hmax b (hmem hb).1 m (hmem hb).2)
  exact ⟨Option.some.inj (hhead.symm.trans hhead'), rfl⟩

theorem scan_eq_some_iff (l : List α) (a : α) (k : κ) :
    scan key l none = some (a, k) ↔ IsFirstMax key l a k := by
  have hbest : Best key l (scan key l none) := scan_none_best l
  constructor
  · intro h
    rwa [h] at hbest
  · intro h
    cases hs : scan key l none with
    | none =>
      rw [hs] at hbest
      obtain ⟨before, after, rfl, hkey, -⟩ := h
      rw [hbest a (by simp)] at hkey
      cases hkey
    | some found =>
      rw [hs] at hbest
      obtain ⟨rfl, rfl⟩ := IsFirstMax.unique hbest h
      rfl

theorem scan_eq_none_iff (l : List α) :
    scan key l none = none ↔ ∀ x ∈ l, key x = none := by
  have hbest : Best key l (scan key l none) := scan_none_best l
  constructor
  · intro h
    rwa [h] at hbest
  · intro h
    cases hs : scan key l none with
    | none => rfl
    | some found =>
      rw [hs] at hbest
      obtain ⟨before, after, rfl, hkey, -⟩ := hbest
      rw [h _ (by simp)] at hkey
      cases hkey

/-- The best element depends only on the elements of each key and their order. -/
theorem scan_congr {l l' : List α}
    (h : ∀ k, (l.filter fun x => key x = some k) = l'.filter fun x => key x = some k) :
    scan key l none = scan key l' none := by
  have hle : ∀ k, (∀ x ∈ l, ∀ m, key x = some m → m ≤ k) ↔
      ∀ x ∈ l', ∀ m, key x = some m → m ≤ k := by
    have hmem : ∀ x m, key x = some m → (x ∈ l ↔ x ∈ l') := by
      intro x m hm
      have hx := congrArg (x ∈ ·) (h m)
      simpa [hm] using hx
    exact fun k => ⟨fun hl x hx m hm => hl x ((hmem x m hm).mpr hx) m hm,
      fun hl x hx m hm => hl x ((hmem x m hm).mp hx) m hm⟩
  apply Option.ext
  rintro ⟨a, k⟩
  rw [scan_eq_some_iff, scan_eq_some_iff, isFirstMax_iff, isFirstMax_iff, h k, hle k]

end SniShaper.FirstMax
