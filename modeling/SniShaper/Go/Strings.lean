import Mathlib.Data.List.DropRight
import Mathlib.Data.List.TakeWhile
import Mathlib.Tactic.Common

/-! The functions of Go's `strings` package that the proxy calls, on strings of
Unicode characters. Positions are counted in characters.

Go's case tables cover all of Unicode; they are the class `CaseTables`, with what
they do to ASCII text. `asciiTables` is the instance that leaves every other
character alone, for runs on ASCII text. -/

namespace SniShaper.Strings

/-- The tables of Go's `unicode` package. Two characters are equal under
`EqualFold` when they have the same `fold`. -/
class CaseTables where
  lower : Char → Char
  fold : Char → Char
  lower_ascii : ∀ c : Char, c.toNat < 128 → lower c = c.toLower
  fold_ascii : ∀ c : Char, c.toNat < 128 → fold c = c.toLower

instance asciiTables : CaseTables where
  lower := Char.toLower
  fold := Char.toLower
  lower_ascii _ _ := rfl
  fold_ascii _ _ := rfl

/-- What holds of the codes below 128 holds of the characters of ASCII. -/
theorem ascii_forall {P : Char → Prop} (h : ∀ n < 128, P (Char.ofNat n)) {c : Char}
    (hc : c.toNat < 128) : P c := by
  have hn := h c.toNat hc
  rwa [Char.ofNat_toNat] at hn

/-- Letters and digits, as `Char.isAlphanum` knows them, are ASCII. -/
theorem ascii_of_isAlphanum {c : Char} (h : c.isAlphanum = true) : c.toNat < 128 := by
  rcases Bool.or_eq_true_iff.mp h with halpha | hdigit
  · rcases Bool.or_eq_true_iff.mp halpha with hupper | hlower
    · have hle := UInt32.le_iff_toNat_le.mp (of_decide_eq_true hupper).2
      exact Nat.lt_of_le_of_lt hle (by decide)
    · have hle := UInt32.le_iff_toNat_le.mp (of_decide_eq_true (Bool.and_eq_true_iff.mp hlower).2)
      exact Nat.lt_of_le_of_lt hle (by decide)
  · have hle := UInt32.le_iff_toNat_le.mp (of_decide_eq_true (Bool.and_eq_true_iff.mp hdigit).2)
    exact Nat.lt_of_le_of_lt hle (by decide)

/-- `unicode.IsSpace` -/
def isSpace (c : Char) : Bool :=
  let n := c.toNat
  n == 0x20 || (0x09 ≤ n && n ≤ 0x0d) || n == 0x85 || n == 0xa0 || n == 0x1680 ||
    (0x2000 ≤ n && n ≤ 0x200a) || n == 0x2028 || n == 0x2029 || n == 0x202f ||
    n == 0x205f || n == 0x3000

/-- What the tables satisfy besides: lower-casing twice is lower-casing once, and it neither
makes nor removes spaces. -/
class LawfulTables [CaseTables] : Prop where
  lower_lower : ∀ c : Char, CaseTables.lower (CaseTables.lower c) = CaseTables.lower c
  isSpace_lower : ∀ c : Char, isSpace (CaseTables.lower c) = isSpace c

/-- Characters outside ASCII fold to such ones, but for the Kelvin sign and the long s. -/
class FoldTables [CaseTables] : Prop where
  fold_letter : ∀ c : Char, 128 ≤ c.toNat → (CaseTables.fold c).toNat < 128 →
    CaseTables.fold c = 'k' ∨ CaseTables.fold c = 's'

theorem toLower_of_nonAscii {c : Char} (h : 128 ≤ c.toNat) : c.toLower = c := by
  refine dif_neg fun hupper => absurd h (Nat.not_le.mpr ?_)
  exact lt_of_le_of_lt (UInt32.le_iff_toNat_le.mp hupper.2) (by decide)

instance : LawfulTables := by
  have hall : ∀ c : Char, c.toLower.toLower = c.toLower ∧ isSpace c.toLower = isSpace c := by
    intro c
    by_cases hc : c.toNat < 128
    · exact @ascii_forall (fun c => c.toLower.toLower = c.toLower ∧ isSpace c.toLower = isSpace c)
        (by decide) c hc
    · have hstays : c.toLower = c := toLower_of_nonAscii (Nat.le_of_not_lt hc)
      rw [hstays, hstays]
      exact ⟨rfl, rfl⟩
  exact ⟨fun c => (hall c).1, fun c => (hall c).2⟩

/-- Characters outside ASCII are lower-cased to such ones or to letters. -/
class LetterTables [CaseTables] : Prop where
  lower_letter : ∀ c : Char, 128 ≤ c.toNat → (CaseTables.lower c).toNat < 128 →
    (CaseTables.lower c).isLower = true

instance : LetterTables := by
  refine ⟨fun c hc hlow => absurd hc (Nat.not_le.mpr ?_)⟩
  have hstays : CaseTables.lower c = c := toLower_of_nonAscii hc
  rwa [hstays] at hlow

instance : FoldTables := by
  refine ⟨fun c hc hlow => absurd hc (Nat.not_le.mpr ?_)⟩
  have hstays : CaseTables.fold c = c := toLower_of_nonAscii hc
  rwa [hstays] at hlow

def trimBy (p : Char → Bool) (s : List Char) : List Char :=
  ((s.dropWhile p).reverse.dropWhile p).reverse

def trimSpace (s : String) : String := String.ofList (trimBy isSpace s.toList)

/-- `strings.Trim(s, cutset)` -/
def trim (s cutset : String) : String :=
  String.ofList (trimBy (fun c => cutset.toList.contains c) s.toList)

def toLower [CaseTables] (s : String) : String := String.ofList (s.toList.map CaseTables.lower)

def equalFold [CaseTables] (s t : String) : Bool :=
  s.toList.map CaseTables.fold == t.toList.map CaseTables.fold

def hasPrefix (s p : String) : Bool := p.toList.isPrefixOf s.toList

def hasSuffix (s p : String) : Bool := p.toList.isSuffixOf s.toList

def trimPrefix (s p : String) : String :=
  if hasPrefix s p then String.ofList (s.toList.drop p.toList.length) else s

def trimSuffix (s p : String) : String :=
  if hasSuffix s p then String.ofList (s.toList.take (s.toList.length - p.toList.length)) else s

/-- `strings.Count` of one character. -/
def count (s : String) (c : Char) : Nat := s.toList.count c

/-- First position at which `sub` occurs. -/
def indexFrom (sub : List Char) : List Char → Option Nat
  | [] => if sub = [] then some 0 else none
  | c :: cs => if sub.isPrefixOf (c :: cs) then some 0 else (indexFrom sub cs).map (· + 1)

/-- `strings.Index(s, sub)`, with `none` for -1. -/
def index (s sub : String) : Option Nat := indexFrom sub.toList s.toList

def contains (s sub : String) : Bool := (index s sub).isSome

/-- Replace every occurrence of `old`; `skip` characters of one are still to pass. -/
def replaceFrom (old new : List Char) : Nat → List Char → List Char
  | _, [] => []
  | skip + 1, _ :: cs => replaceFrom old new skip cs
  | 0, c :: cs =>
    if old.isPrefixOf (c :: cs) then new ++ replaceFrom old new (old.length - 1) cs
    else c :: replaceFrom old new 0 cs

/-- `strings.ReplaceAll(s, old, new)` for a non-empty `old`. -/
def replaceAll (s old new : String) : String :=
  String.ofList (replaceFrom old.toList new.toList 0 s.toList)

/-- `strings.Split` at a separator of one character. -/
def split (s : String) (sep : Char) : List String := (s.toList.splitOn sep).map String.ofList

/-- `strings.Fields` -/
def fields (s : String) : List String :=
  ((s.toList.splitOnP isSpace).filter (· ≠ [])).map String.ofList

def join (xs : List String) (sep : String) : String :=
  String.ofList (sep.toList.intercalate (xs.map String.toList))

example : trimSpace "  a b\t" = "a b" := by decide
example : replaceAll "a.b.c" "." "-" = "a-b-c" := by decide
example : split "a,b,,c" ',' = ["a", "b", "", "c"] := by decide
example : fields "  a  b\tc " = ["a", "b", "c"] := by decide

/-! ## Trimming -/

/-- Trimming leaves text alone that neither starts nor ends with what is trimmed. -/
theorem trimBy_eq_self (p : Char → Bool) (s : List Char) (h : ∀ c ∈ s, p c = false) :
    trimBy p s = s := by
  have hdrop : ∀ l : List Char, (∀ c ∈ l, p c = false) → l.dropWhile p = l := by
    intro l hl
    cases l with
    | nil => rfl
    | cons c l => simp [hl c (List.mem_cons_self ..)]
  rw [trimBy, hdrop s h, hdrop s.reverse (by simpa using h), List.reverse_reverse]

theorem mem_of_mem_trimBy {p : Char → Bool} {s : List Char} {c : Char} (h : c ∈ trimBy p s) :
    c ∈ s := by
  have h1 : c ∈ (s.dropWhile p).reverse :=
    (List.dropWhile_suffix p).mem (List.mem_reverse.mp h)
  exact (List.dropWhile_suffix p).mem (List.mem_reverse.mp h1)

/-- What is not trimmed stays. -/
theorem mem_trimBy {p : Char → Bool} {s : List Char} {c : Char} (h : c ∈ s) (hp : p c = false) :
    c ∈ trimBy p s := by
  have hdrop : ∀ l : List Char, c ∈ l → c ∈ l.dropWhile p := by
    intro l hl
    rw [← List.takeWhile_append_dropWhile (p := p) (l := l)] at hl
    rcases List.mem_append.mp hl with hl | hl
    · rw [List.mem_takeWhile_imp hl] at hp
      cases hp
    · exact hl
  exact List.mem_reverse.mpr (hdrop _ (List.mem_reverse.mpr (hdrop s h)))

/-- Blank text is made of spaces. -/
theorem trimSpace_eq_empty_iff {s : String} :
    trimSpace s = "" ↔ ∀ c ∈ s.toList, isSpace c = true := by
  constructor
  · intro h c hc
    by_contra hspace
    have hmem := mem_trimBy hc (Bool.eq_false_iff.mpr hspace)
    rw [← String.toList_ofList (l := trimBy _ _), ← trimSpace, h] at hmem
    simp at hmem
  · intro h
    rw [trimSpace, trimBy, List.dropWhile_eq_nil_iff.mpr h]
    rfl

theorem trimBy_sublist (p : Char → Bool) (s : List Char) : (trimBy p s).Sublist s :=
  (List.rdropWhile_prefix p _).sublist.trans (List.dropWhile_sublist p)

theorem trimSpace_sublist (s : String) : (trimSpace s).toList.Sublist s.toList := by
  rw [trimSpace, String.toList_ofList]
  exact trimBy_sublist isSpace s.toList

/-- Trimming leaves exactly the texts alone whose ends are not trimmed. -/
theorem trimBy_eq_self_iff {p : Char → Bool} {s : List Char} :
    trimBy p s = s ↔ (∀ c ∈ s.head?, p c = false) ∧ ∀ c ∈ s.getLast?, p c = false := by
  have hstart : s.dropWhile p = s ↔ ∀ c ∈ s.head?, p c = false := by
    cases s with
    | nil => simp
    | cons c s => simp [List.dropWhile_eq_self_iff]
  have hend : s.rdropWhile p = s ↔ ∀ c ∈ s.getLast?, p c = false := by
    rw [List.rdropWhile_eq_self_iff]
    constructor
    · intro h c hc
      obtain ⟨hne, rfl⟩ := List.mem_getLast?_eq_getLast hc
      simpa using h hne
    · intro h hne
      simpa using h _ (List.getLast?_eq_some_getLast hne)
  rw [← hstart, ← hend]
  constructor
  · intro h
    -- neither pass can have removed anything
    have hlen : s.length ≤ (s.dropWhile p).length := by
      conv_lhs => rw [← h]
      exact (List.rdropWhile_prefix p _).length_le
    have hdrop : s.dropWhile p = s :=
      (List.dropWhile_suffix p).eq_of_length (le_antisymm (List.dropWhile_suffix p).length_le hlen)
    refine ⟨hdrop, ?_⟩
    conv_rhs => rw [← h]
    rw [trimBy, hdrop]
    rfl
  · rintro ⟨hdrop, hrdrop⟩
    rw [trimBy, hdrop]
    exact hrdrop

theorem trimBy_map {p : Char → Bool} {f : Char → Char} (h : ∀ c, p (f c) = p c) (s : List Char) :
    trimBy p (s.map f) = (trimBy p s).map f := by
  have hcomp : p ∘ f = p := funext h
  simp only [trimBy, List.dropWhile_map, hcomp, ← List.map_reverse]

theorem trimSpace_eq_self (s : String) (h : ∀ c ∈ s.toList, isSpace c = false) :
    trimSpace s = s := by
  rw [trimSpace, trimBy_eq_self isSpace s.toList h, String.ofList_toList]

theorem trimBy_trimBy (p : Char → Bool) (s : List Char) : trimBy p (trimBy p s) = trimBy p s := by
  have hstart : (trimBy p s).dropWhile p = trimBy p s := by
    rw [List.dropWhile_eq_self_iff]
    intro hl
    -- what is left starts with the first character the first pass kept
    have hpre : trimBy p s <+: s.dropWhile p := List.rdropWhile_prefix p _
    rw [hpre.getElem hl]
    exact List.dropWhile_get_zero_not p s (lt_of_lt_of_le hl hpre.length_le)
  rw [trimBy, hstart]
  exact List.rdropWhile_idempotent p (s.dropWhile p)

/-- Trimming stops on both sides of a character that stays. -/
theorem trimBy_append_cons {p : Char → Bool} {c : Char} (hc : p c = false) (s t : List Char) :
    trimBy p (s ++ c :: t) = s.dropWhile p ++ c :: t.rdropWhile p := by
  -- one pass, for either end
  have hpass : ∀ a b : List Char, (a ++ c :: b).dropWhile p = a.dropWhile p ++ c :: b := by
    intro a b
    rw [List.dropWhile_append]
    split
    · rename_i hempty
      rw [List.isEmpty_iff.mp hempty, List.dropWhile_cons_of_neg (by simp [hc]), List.nil_append]
    · rfl
  rw [trimBy, hpass, List.reverse_append, List.reverse_cons, List.append_assoc,
    List.singleton_append, hpass]
  simp [List.rdropWhile]

/-- What is trimmed at the end makes no difference. -/
theorem trimBy_concat {p : Char → Bool} {c : Char} (hc : p c = true) (s : List Char) :
    trimBy p (s ++ [c]) = trimBy p s := by
  rw [trimBy, List.dropWhile_append]
  split
  · rename_i hempty
    rw [trimBy, List.isEmpty_iff.mp hempty, List.dropWhile_cons_of_pos hc]
    rfl
  · rw [List.reverse_append, List.reverse_singleton, List.singleton_append,
      List.dropWhile_cons_of_pos hc, trimBy]

/-- A text between two characters that are no spaces is already trimmed. -/
theorem trimSpace_between {first last : Char} (hfirst : isSpace first = false)
    (hlast : isSpace last = false) (s : String) :
    trimSpace (String.singleton first ++ s ++ String.singleton last) =
      String.singleton first ++ s ++ String.singleton last := by
  simp [trimSpace, trimBy, hfirst, hlast, ← String.toList_inj]

theorem trimSpace_trimSpace (s : String) : trimSpace (trimSpace s) = trimSpace s := by
  rw [trimSpace, trimSpace, String.toList_ofList, trimBy_trimBy]

/-! ## Case -/

theorem toList_toLower_ascii [CaseTables] {s : String} (h : ∀ c ∈ s.toList, c.toNat < 128) :
    (toLower s).toList = s.toList.map Char.toLower := by
  rw [toLower, String.toList_ofList]
  exact List.map_congr_left fun c hc => CaseTables.lower_ascii c (h c hc)

/-- Text in lower-case ASCII stays as it is. -/
theorem toLower_eq_self [CaseTables] {s : String}
    (h : ∀ c ∈ s.toList, c.toNat < 128 ∧ c.toLower = c) : toLower s = s := by
  apply String.toList_injective
  rw [toList_toLower_ascii fun c hc => (h c hc).1]
  exact (List.map_congr_left fun c hc => (h c hc).2).trans (List.map_id _)

theorem toLower_toLower_of_lawful [CaseTables] [LawfulTables] (s : String) :
    toLower (toLower s) = toLower s := by
  apply String.toList_injective
  simp only [toLower, String.toList_ofList, List.map_map]
  exact List.map_congr_left fun c _ => LawfulTables.lower_lower c

theorem trimSpace_toLower [CaseTables] [LawfulTables] (s : String) :
    trimSpace (toLower s) = toLower (trimSpace s) := by
  rw [trimSpace, toLower, String.toList_ofList, trimBy_map LawfulTables.isSpace_lower, toLower,
    trimSpace, String.toList_ofList]

/-- ASCII texts are equal under folding when they differ in the case of letters only. -/
theorem equalFold_ascii [CaseTables] {s t : String} (hs : ∀ c ∈ s.toList, c.toNat < 128)
    (ht : ∀ c ∈ t.toList, c.toNat < 128) :
    equalFold s t = true ↔ s.toList.map Char.toLower = t.toList.map Char.toLower := by
  rw [equalFold, beq_iff_eq, List.map_congr_left fun c hc => CaseTables.fold_ascii c (hs c hc),
    List.map_congr_left fun c hc => CaseTables.fold_ascii c (ht c hc)]

theorem toLower_append [CaseTables] (s t : String) : toLower (s ++ t) = toLower s ++ toLower t := by
  simp [toLower]

theorem length_toLower [CaseTables] (s : String) : (toLower s).toList.length = s.toList.length := by
  simp [toLower]

theorem toLower_eq_empty [CaseTables] {s : String} (h : toLower s = "") : s = "" := by
  have hl := congrArg String.toList h
  simpa [toLower] using hl

/-- Characters of ASCII that are no letters come from themselves. -/
theorem eq_of_lower_eq [CaseTables] [LetterTables] {c x : Char} (hx : x.toNat < 128)
    (hletter : x.isAlpha = false) (h : CaseTables.lower c = x) : c = x := by
  rcases Nat.lt_or_ge c.toNat 128 with hc | hc
  · have hstays := @ascii_forall (fun c => c.toLower.isAlpha = false → c.toLower = c)
      (by decide) c hc
    rw [← CaseTables.lower_ascii c hc, h] at hstays
    exact (hstays hletter).symm
  · have hlower := LetterTables.lower_letter c hc (h ▸ hx)
    rw [h] at hlower
    have halpha : x.isAlpha = true := Bool.or_eq_true_iff.mpr (Or.inr hlower)
    rw [halpha] at hletter
    cases hletter

/-- No character is lower-cased to a capital of ASCII. -/
theorem lower_ne_capital [CaseTables] [LetterTables] {x : Char} (hx : x.toNat < 128)
    (hupper : x.isUpper = true) (c : Char) : CaseTables.lower c ≠ x := by
  intro h
  rcases Nat.lt_or_ge c.toNat 128 with hc | hc
  · have hlower := @ascii_forall (fun c => c.toLower.isUpper = false) (by decide) c hc
    rw [← CaseTables.lower_ascii c hc, h, hupper] at hlower
    cases hlower
  · have hlower := LetterTables.lower_letter c hc (h ▸ hx)
    have hcapital := @ascii_forall (fun c => c.isUpper = true → c.isLower = false) (by decide) x hx
    rw [h, hcapital hupper] at hlower
    cases hlower

/-! ## Searching -/

/-- Text without the first character of the searched one does not contain it. -/
theorem contains_eq_false {s : String} {c : Char} {sub : List Char} (h : c ∉ s.toList) :
    contains s (String.ofList (c :: sub)) = false := by
  have hnone : ∀ l : List Char, c ∉ l → indexFrom (c :: sub) l = none := by
    intro l
    induction l with
    | nil => simp [indexFrom]
    | cons x xs ih =>
      intro hx
      simp only [List.mem_cons, not_or] at hx
      simp [indexFrom, List.isPrefixOf, hx.1, ih hx.2]
  rw [contains, index, String.toList_ofList, hnone s.toList h]
  rfl

theorem hasPrefix_eq_false {s : String} {c : Char} {sub : List Char} (h : c ∉ s.toList) :
    hasPrefix s (String.ofList (c :: sub)) = false := by
  rw [hasPrefix, String.toList_ofList]
  cases hs : s.toList with
  | nil => rfl
  | cons x xs =>
    rw [hs, List.mem_cons, not_or] at h
    simp [List.isPrefixOf, h.1]

theorem hasSuffix_iff {s p : String} : hasSuffix s p = true ↔ ∃ t, s = t ++ p := by
  rw [hasSuffix, List.isSuffixOf_iff_suffix]
  constructor
  · rintro ⟨t, ht⟩
    refine ⟨String.ofList t, ?_⟩
    rw [← String.toList_inj, String.toList_append, String.toList_ofList, ht]
  · rintro ⟨t, rfl⟩
    exact ⟨t.toList, by rw [String.toList_append]⟩

theorem trimSuffix_append (s p : String) : trimSuffix (s ++ p) p = s := by
  rw [trimSuffix, if_pos (hasSuffix_iff.mpr ⟨s, rfl⟩), ← String.toList_inj]
  simp

theorem hasPrefix_iff {s p : String} : hasPrefix s p = true ↔ ∃ t, s = p ++ t := by
  rw [hasPrefix, List.isPrefixOf_iff_prefix]
  constructor
  · rintro ⟨t, ht⟩
    refine ⟨String.ofList t, ?_⟩
    rw [← String.toList_inj, String.toList_append, String.toList_ofList, ht]
  · rintro ⟨t, rfl⟩
    exact ⟨t.toList, by rw [String.toList_append]⟩

theorem hasPrefix_append (p s : String) : hasPrefix (p ++ s) p = true := by
  rw [hasPrefix, List.isPrefixOf_iff_prefix, String.toList_append]
  exact List.prefix_append _ _

theorem trimPrefix_append (p s : String) : trimPrefix (p ++ s) p = s := by
  rw [trimPrefix, if_pos (hasPrefix_append p s), String.toList_append, List.drop_left,
    String.ofList_toList]

theorem trimPrefix_sublist (s p : String) : (trimPrefix s p).toList.Sublist s.toList := by
  unfold trimPrefix
  split
  · rw [String.toList_ofList]
    exact List.drop_sublist _ _
  · exact List.Sublist.refl _

theorem trimSuffix_sublist (s p : String) : (trimSuffix s p).toList.Sublist s.toList := by
  unfold trimSuffix
  split
  · rw [String.toList_ofList]
    exact List.take_sublist _ _
  · exact List.Sublist.refl _

/-! ## Splitting -/

theorem splitOn_injective {c : Char} {s t : List Char} (h : s.splitOn c = t.splitOn c) : s = t :=
  calc
    s = [c].intercalate (s.splitOn c) := (List.intercalate_splitOn c).symm
    _ = [c].intercalate (t.splitOn c) := by rw [h]
    _ = t := List.intercalate_splitOn c

/-- The fields of `t` end the fields of `s` when `t` is the whole text or follows a
separator up to its end. -/
theorem splitOn_suffix_iff (c : Char) (s t : List Char) :
    t.splitOn c <:+ s.splitOn c ↔ s = t ∨ c :: t <:+ s := by
  constructor
  · rintro ⟨fields, h⟩
    induction fields generalizing s with
    | nil => exact .inl (splitOn_injective h).symm
    | cons first fields ih =>
      by_cases hc : c ∈ s
      · obtain ⟨a, b, rfl, ha⟩ := List.eq_append_cons_of_mem hc
        rw [List.splitOn_append_cons_self_of_not_mem ha] at h
        right
        rcases ih b (List.cons.inj h).2 with rfl | hb
        · exact List.suffix_append a _
        · exact (hb.trans (List.suffix_cons c b)).trans (List.suffix_append a _)
      · rw [List.splitOn_eq_singleton hc] at h
        have hnil := (List.append_eq_nil_iff.mp (List.cons.inj h).2).2
        exact absurd hnil (List.splitOn_ne_nil c t)
  · rintro (rfl | ⟨a, rfl⟩)
    · exact List.suffix_rfl
    · rw [List.splitOn_append_cons_self]
      exact List.suffix_append _ _

theorem split_suffix_iff (s t : String) (sep : Char) :
    split t sep <:+ split s sep ↔ s = t ∨ hasSuffix s (String.singleton sep ++ t) = true := by
  have hmap : split t sep <:+ split s sep ↔ t.toList.splitOn sep <:+ s.toList.splitOn sep := by
    rw [split, split]
    exact List.suffix_map_iff_of_injective fun _ _ h => String.ofList_injective h
  rw [hmap, splitOn_suffix_iff, String.toList_inj, hasSuffix, List.isSuffixOf_iff_suffix]
  simp

/-! ## Replacing -/

/-- Replacing one character by another acts on every character alone. -/
theorem replaceFrom_char (x y : Char) (s : List Char) :
    replaceFrom [x] [y] 0 s = s.map fun c => if c = x then y else c := by
  induction s with
  | nil => rfl
  | cons c cs ih =>
    unfold replaceFrom
    by_cases hc : x = c
    · subst hc
      simp [List.isPrefixOf, ih]
    · simp [hc, Ne.symm hc, List.isPrefixOf, ih]

theorem toList_replaceAll_char (s : String) (x y : Char) :
    (replaceAll s (String.singleton x) (String.singleton y)).toList =
      s.toList.map fun c => if c = x then y else c := by
  rw [replaceAll, String.toList_ofList, String.toList_singleton, String.toList_singleton,
    replaceFrom_char]

/-! ## Joining -/

theorem toList_join_cons (x y : String) (xs : List String) (sep : String) :
    (join (x :: y :: xs) sep).toList = x.toList ++ sep.toList ++ (join (y :: xs) sep).toList := by
  simp [join, List.intercalate]

theorem mem_join {xs : List String} {sep : String} {c : Char} (h : c ∈ (join xs sep).toList) :
    c ∈ sep.toList ∨ ∃ x ∈ xs, c ∈ x.toList := by
  induction xs with
  | nil => simp [join, List.intercalate] at h
  | cons x xs ih =>
    cases xs with
    | nil => exact .inr ⟨x, List.mem_cons_self .., by simpa [join, List.intercalate] using h⟩
    | cons y xs =>
      rw [toList_join_cons, List.mem_append, List.mem_append] at h
      rcases h with (h | h) | h
      · exact .inr ⟨x, List.mem_cons_self .., h⟩
      · exact .inl h
      · exact (ih h).imp id fun ⟨z, hz, hc⟩ => ⟨z, List.mem_cons_of_mem _ hz, hc⟩

theorem join_split (s : String) (sep : Char) : join (split s sep) (String.singleton sep) = s := by
  rw [join, split, List.map_map, String.toList_singleton]
  simp [Function.comp_def, List.intercalate_splitOn]

/-- A joined text has the pieces of its parts. -/
theorem split_join_eq_flatMap {xs : List String} (sep : Char) (hne : xs ≠ []) :
    split (join xs (String.singleton sep)) sep = xs.flatMap (split · sep) := by
  induction xs with
  | nil => exact absurd rfl hne
  | cons x xs ih =>
    cases xs with
    | nil => simp [join, List.intercalate]
    | cons y xs =>
      rw [List.flatMap_cons, ← ih (List.cons_ne_nil y xs), split, toList_join_cons,
        String.toList_singleton, List.append_assoc, List.singleton_append,
        List.splitOn_append_cons_self, List.map_append]
      rfl

theorem split_injective {s t : String} {sep : Char} (h : split s sep = split t sep) : s = t := by
  rw [← join_split s sep, h, join_split]

theorem split_ne_nil (s : String) (sep : Char) : split s sep ≠ [] := by
  simp [split, List.splitOn_ne_nil]

theorem join_cons_ne_empty {x : String} (hx : x ≠ "") (xs : List String) (sep : String) :
    join (x :: xs) sep ≠ "" := by
  intro h
  have hnone := congrArg String.toList h
  cases xs with
  | nil => exact hx (String.toList_injective (by simpa [join, List.intercalate] using hnone))
  | cons y xs =>
    rw [toList_join_cons, String.toList_empty, List.append_eq_nil_iff,
      List.append_eq_nil_iff] at hnone
    exact hx (String.toList_injective hnone.1.1)

/-- Lists without blank parts are joined to the same text if they have the same pieces. -/
theorem join_eq_join_iff {xs ys : List String} (sep : Char) (hx : ∀ x ∈ xs, x ≠ "")
    (hy : ∀ y ∈ ys, y ≠ "") :
    join xs (String.singleton sep) = join ys (String.singleton sep) ↔
      xs.flatMap (split · sep) = ys.flatMap (split · sep) := by
  cases xs with
  | nil =>
    cases ys with
    | nil => exact ⟨fun _ => rfl, fun _ => rfl⟩
    | cons y ys =>
      constructor
      · intro h
        exact absurd h.symm (join_cons_ne_empty (hy y (List.mem_cons_self ..)) ys _)
      · intro h
        exact absurd (List.append_eq_nil_iff.mp h.symm).1 (split_ne_nil y sep)
  | cons x xs =>
    cases ys with
    | nil =>
      constructor
      · intro h
        exact absurd h (join_cons_ne_empty (hx x (List.mem_cons_self ..)) xs _)
      · intro h
        exact absurd (List.append_eq_nil_iff.mp h).1 (split_ne_nil x sep)
    | cons y ys =>
      rw [← split_join_eq_flatMap sep (List.cons_ne_nil x xs),
        ← split_join_eq_flatMap sep (List.cons_ne_nil y ys)]
      exact ⟨fun h => congrArg (split · sep) h, split_injective⟩

/-- Two texts with a separator: it is the same one, or one of the texts goes on beyond the
separator of the other. -/
theorem append_sep_eq_iff (sep : Char) (s t u v : String) :
    s ++ String.singleton sep ++ t = u ++ String.singleton sep ++ v ↔
      (s = u ∧ t = v) ∨
        (∃ r, s = u ++ String.singleton sep ++ r ∧ v = r ++ String.singleton sep ++ t) ∨
          ∃ r, u = s ++ String.singleton sep ++ r ∧ t = r ++ String.singleton sep ++ v := by
  constructor
  · intro h
    have hlist := congrArg String.toList h
    simp only [String.toList_append, String.toList_singleton, List.append_assoc,
      List.singleton_append] at hlist
    rcases List.append_eq_append_iff.mp hlist with ⟨r, hu, ht⟩ | ⟨r, hs, hv⟩
    · cases r with
      | nil =>
        exact .inl ⟨String.toList_injective (by simpa using hu.symm),
          String.toList_injective (by simpa using ht)⟩
      | cons c r =>
        obtain ⟨rfl, ht⟩ := List.cons.inj ht
        refine .inr (.inr ⟨String.ofList r, String.toList_injective ?_,
          String.toList_injective ?_⟩)
        · simpa using hu
        · simpa using ht
    · cases r with
      | nil =>
        exact .inl ⟨String.toList_injective (by simpa using hs),
          String.toList_injective (by simpa using hv.symm)⟩
      | cons c r =>
        obtain ⟨rfl, hv⟩ := List.cons.inj hv
        refine .inr (.inl ⟨String.ofList r, String.toList_injective ?_,
          String.toList_injective ?_⟩)
        · simpa using hs
        · simpa using hv
  · rintro (⟨rfl, rfl⟩ | ⟨r, rfl, rfl⟩ | ⟨r, rfl, rfl⟩)
    · rfl
    · simp only [String.append_assoc]
    · simp only [String.append_assoc]

/-- Parts without the separator are found again. -/
theorem split_join {xs : List String} {sep : Char} (h : ∀ x ∈ xs, sep ∉ x.toList) (hne : xs ≠ []) :
    split (join xs (String.singleton sep)) sep = xs := by
  have hparts : ∀ l ∈ xs.map String.toList, sep ∉ l := by
    intro l hl
    obtain ⟨x, hx, rfl⟩ := List.mem_map.mp hl
    exact h x hx
  rw [split, join, String.toList_ofList, String.toList_singleton,
    List.splitOn_intercalate sep hparts (by simpa using hne), List.map_map]
  simp [Function.comp_def]

/-- A character of a text is the separator or stands in a part. -/
theorem mem_split {s : String} {sep c : Char} (h : c ∈ s.toList) :
    c = sep ∨ ∃ part ∈ split s sep, c ∈ part.toList := by
  rw [← join_split s sep] at h
  exact (mem_join h).imp (fun hc => by simpa using hc) id

theorem mem_join_of_mem {xs : List String} {x : String} {c : Char} (hx : x ∈ xs)
    (hc : c ∈ x.toList) (sep : String) : c ∈ (join xs sep).toList := by
  induction xs with
  | nil => cases hx
  | cons y xs ih =>
    cases xs with
    | nil =>
      rw [List.mem_singleton.mp hx] at hc
      simpa [join, List.intercalate] using hc
    | cons z xs =>
      rw [toList_join_cons, List.mem_append, List.mem_append]
      rcases List.mem_cons.mp hx with rfl | hx
      · exact .inl (.inl hc)
      · exact .inr (ih hx)

/-- The parts are made of characters of the text. -/
theorem mem_of_mem_split {s part : String} {sep c : Char} (hp : part ∈ split s sep)
    (hc : c ∈ part.toList) : c ∈ s.toList := by
  rw [← join_split s sep]
  exact mem_join_of_mem hp hc _

theorem not_mem_of_mem_splitOn {c : Char} {s part : List Char} (h : part ∈ s.splitOn c) :
    c ∉ part := by
  induction s generalizing part with
  | nil =>
    rw [List.splitOn_nil, List.mem_singleton] at h
    simp [h]
  | cons d s ih =>
    rw [List.splitOn_cons_eq_if_modifyHead] at h
    split at h
    · rcases List.mem_cons.mp h with rfl | h
      · simp
      · exact ih h
    · rename_i hd
      cases hsplit : s.splitOn c with
      | nil => exact absurd hsplit (List.splitOn_ne_nil _ _)
      | cons first rest =>
        rw [hsplit, List.modifyHead_cons] at h
        rcases List.mem_cons.mp h with rfl | h
        · have hfirst : c ∉ first := ih (by simp [hsplit])
          rintro (_ | ⟨_, hmem⟩)
          · simp at hd
          · exact hfirst hmem
        · exact ih (by simp [hsplit, h])

theorem not_mem_of_mem_split {s part : String} {sep : Char} (h : part ∈ split s sep) :
    sep ∉ part.toList := by
  obtain ⟨chars, hchars, rfl⟩ := List.mem_map.mp h
  rw [String.toList_ofList]
  exact not_mem_of_mem_splitOn hchars

/-- The separators of a joined text are counted in it. -/
theorem length_le_count_join (xs : List String) (c : Char) :
    xs.length ≤ (join xs (String.singleton c)).toList.count c + 1 := by
  induction xs with
  | nil => simp
  | cons x xs ih =>
    cases xs with
    | nil => simp
    | cons y xs =>
      rw [toList_join_cons, List.count_append, List.count_append]
      simp only [List.length_cons, String.toList_singleton, List.count_singleton_self] at ih ⊢
      omega

end SniShaper.Strings
