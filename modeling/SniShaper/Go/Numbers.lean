import SniShaper.Go.Net

/-! Numbers in texts: `strconv.Atoi`, the verb `%d` of `fmt.Sscanf` and the verb `%04X` of
`fmt.Sprintf`. An `int` has 64 bits.

* `scanInt_toString`: `%d` reads back the text of a number. -/

namespace SniShaper.Numbers

open Strings Net

/-- The least and the greatest `int`. -/
def minInt : Int := -9223372036854775808
def maxInt : Int := 9223372036854775807

/-- The value of digits after a sign, if there are any and the value is an `int`. -/
def signed (neg : Bool) (ds : List Char) : Option Int :=
  let v : Int := if neg then -(decimal ds : Int) else decimal ds
  if ds ≠ [] ∧ ds.all Char.isDigit = true ∧ minInt ≤ v ∧ v ≤ maxInt then some v else none

/-- Whether there is a minus, and what follows the sign. -/
def splitSign : List Char → Bool × List Char
  | '-' :: ds => (true, ds)
  | '+' :: ds => (false, ds)
  | ds => (false, ds)

def atoi (s : String) : Option Int :=
  let (neg, ds) := splitSign s.toList
  signed neg ds

/-- The verb `%d`: spaces are skipped unless there is a newline among them, and what
follows the digits is left unread. -/
def scanInt (cs : List Char) : Option Int :=
  if '\n' ∈ cs.takeWhile isSpace then none
  else
    let (neg, rest) := splitSign (cs.dropWhile isSpace)
    signed neg (rest.takeWhile Char.isDigit)

/-- The verb `%04X`; a minus counts for the width. -/
def hex04 (v : Int) : String :=
  let minus := if v < 0 then ['-'] else []
  let ds := (Nat.toDigits 16 v.natAbs).map Char.toUpper
  String.ofList (minus ++ List.replicate (4 - minus.length - ds.length) '0' ++ ds)

example : atoi "-17" = some (-17) ∧ atoi "1 7" = none := by decide
example : scanInt " 8080/x".toList = some 8080 := by decide
example : hex04 8080 = "1F90" ∧ hex04 80 = "0050" := by decide

theorem decimal_toDigits (n : Nat) : decimal (Nat.toDigits 10 n) = n := by
  have hfold : decimal (Nat.toDigits 10 n) = Nat.ofDigitChars 10 (Nat.toDigits 10 n) 0 := by
    simp only [decimal, Nat.ofDigitChars, Nat.mul_comm]
    rfl
  rw [hfold]
  exact Nat.ofDigitChars_toDigits (by decide) (by decide)

/-- A digit is neither a space nor a sign. -/
theorem isDigit_plain {c : Char} (h : c.isDigit = true) :
    isSpace c = false ∧ c ≠ '-' ∧ c ≠ '+' := by
  have hplain : ∀ c ∈ ipChars, isSpace c = false ∧ c ≠ '-' ∧ c ≠ '+' :=
    List.all_iff_forall_prop.mp (by decide)
  exact hplain c (mem_ipChars_of_isDigit h).1

theorem splitSign_digit {c : Char} (h : c.isDigit = true) (cs : List Char) :
    splitSign (c :: cs) = (false, c :: cs) := by
  obtain ⟨-, hminus, hplus⟩ := isDigit_plain h
  unfold splitSign
  split
  · rename_i heq
    cases heq
    exact absurd rfl hminus
  · rename_i heq
    cases heq
    exact absurd rfl hplus
  · rfl

/-- The digits of a number that fits are read as the number. -/
theorem signed_toString {n : Nat} (h : n ≤ maxInt) : signed false (toString n).toList = some (n : Int) := by
  have hall : ∀ c ∈ (toString n).toList, c.isDigit = true := fun _ => toList_toString_digits
  have hvalue : decimal (toString n).toList = n := by
    rw [Nat.toString_eq_ofList_toDigits, String.toList_ofList, decimal_toDigits]
  have hne : (toString n).toList ≠ [] := by
    rw [Nat.toString_eq_ofList_toDigits, String.toList_ofList]
    exact Nat.toDigits_ne_nil
  have hrange : minInt ≤ (n : Int) ∧ (n : Int) ≤ maxInt := ⟨by unfold minInt; omega, h⟩
  simp only [signed, hvalue, Bool.false_eq_true, if_false]
  exact if_pos ⟨hne, List.all_eq_true.mpr hall, hrange⟩

/-- A number is written as a digit and more digits. -/
theorem toList_toString_cons (n : Nat) : ∃ c cs, (toString n).toList = c :: cs ∧
    c.isDigit = true ∧ ∀ d ∈ c :: cs, d.isDigit = true := by
  have hall : ∀ c ∈ (toString n).toList, c.isDigit = true := fun _ => toList_toString_digits
  have hne : (toString n).toList ≠ [] := by
    rw [Nat.toString_eq_ofList_toDigits, String.toList_ofList]
    exact Nat.toDigits_ne_nil
  obtain ⟨c, cs, heq⟩ := List.exists_cons_of_ne_nil hne
  rw [heq] at hall
  exact ⟨c, cs, heq, hall c (List.mem_cons_self ..), hall⟩

theorem scanInt_toString {n : Nat} (h : n ≤ maxInt) : scanInt (toString n).toList = some n := by
  have hread := signed_toString h
  obtain ⟨c, cs, heq, hc, hall⟩ := toList_toString_cons n
  rw [heq] at hread ⊢
  have hspace : isSpace c = false := (isDigit_plain hc).1
  have hskip : (c :: cs).takeWhile isSpace = [] := List.takeWhile_cons_of_neg (by simp [hspace])
  have hdrop : (c :: cs).dropWhile isSpace = c :: cs :=
    List.dropWhile_cons_of_neg (by simp [hspace])
  have htake : (c :: cs).takeWhile Char.isDigit = c :: cs := List.takeWhile_eq_self_iff.mpr hall
  simp only [scanInt, hskip, List.not_mem_nil, if_false, hdrop, splitSign_digit hc, htake]
  exact hread

theorem atoi_toString {n : Nat} (h : n ≤ maxInt) : atoi (toString n) = some (n : Int) := by
  have hread := signed_toString h
  obtain ⟨c, cs, heq, hc, -⟩ := toList_toString_cons n
  rw [heq] at hread
  simp only [atoi, heq, splitSign_digit hc]
  exact hread

end SniShaper.Numbers
