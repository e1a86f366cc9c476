import Mathlib.Data.Bool.AllAny
import Mathlib.Data.List.GetD
import Mathlib.Data.List.Nodup
import Mathlib.Tactic.Common

/-! Standard base64 with padding. The decoder skips line breaks and does not look at
the unused bits of the last digit.

* `decode_encode`: decoding undoes encoding;
* `ascii_of_decode`: a text that can be decoded is ASCII. -/

namespace SniShaper.Base64

def alphabet : List Char :=
  "ABCDEFGHIJKLMNOPQRSTUVWXYZabcdefghijklmnopqrstuvwxyz0123456789+/".toList

def digit (n : Nat) : Char := alphabet.getD n '='

def value (c : Char) : Option Nat := alphabet.idxOf? c

def encodeBytes : List UInt8 → List Char
  | [] => []
  | [a] => [digit (a.toNat / 4), digit (a.toNat % 4 * 16), '=', '=']
  | [a, b] =>
    [digit (a.toNat / 4), digit (a.toNat % 4 * 16 + b.toNat / 16), digit (b.toNat % 16 * 4), '=']
  | a :: b :: c :: rest =>
    digit (a.toNat / 4) :: digit (a.toNat % 4 * 16 + b.toNat / 16) ::
      digit (b.toNat % 16 * 4 + c.toNat / 64) :: digit (c.toNat % 64) :: encodeBytes rest

/-- The first, second and third byte of four digits. -/
def byte0 (v w : Nat) : UInt8 := UInt8.ofNat (v * 4 + w / 16)
def byte1 (w x : Nat) : UInt8 := UInt8.ofNat (w % 16 * 16 + x / 4)
def byte2 (x y : Nat) : UInt8 := UInt8.ofNat (x % 4 * 64 + y)

def decodeDigits : List Char → Option (List UInt8)
  | [] => some []
  | [a, b, '=', '='] => do
    let v ← value a
    let w ← value b
    return [byte0 v w]
  | [a, b, c, '='] => do
    let v ← value a
    let w ← value b
    let x ← value c
    return [byte0 v w, byte1 w x]
  | a :: b :: c :: d :: rest => do
    let v ← value a
    let w ← value b
    let x ← value c
    let y ← value d
    return byte0 v w :: byte1 w x :: byte2 x y :: (← decodeDigits rest)
  | _ => none

def isBreak (c : Char) : Bool := c = '\r' || c = '\n'

def encode (bs : List UInt8) : String := String.ofList (encodeBytes bs)

def decode (s : String) : Option (List UInt8) :=
  decodeDigits (s.toList.filter fun c => !isBreak c)

example : encode [77, 97, 110, 33] = "TWFuIQ==" := by decide
example : decode "TWFu\nIQ==" = some [77, 97, 110, 33] := by decide
example : decode "TWF" = none := by decide

/-! ## Round trip -/

theorem alphabet_length : alphabet.length = 64 := by decide

theorem alphabet_nodup : alphabet.Nodup := by decide

theorem alphabet_plain : ∀ c ∈ alphabet, c.toNat < 128 ∧ c ≠ '=' ∧ isBreak c = false :=
  List.all_iff_forall_prop.mp (by decide)

theorem digit_eq_getElem {n : Nat} (h : n < alphabet.length) : digit n = alphabet[n] :=
  List.getD_eq_getElem _ _ h

theorem digit_mem {n : Nat} (h : n < 64) : digit n ∈ alphabet := by
  have hlt : n < alphabet.length := Nat.lt_of_lt_of_eq h alphabet_length.symm
  rw [digit_eq_getElem hlt]
  exact List.getElem_mem hlt

theorem value_digit (n : Nat) (h : n < 64) : value (digit n) = some n := by
  have hlt : n < alphabet.length := Nat.lt_of_lt_of_eq h alphabet_length.symm
  rw [value, List.idxOf?, List.findIdx?_eq_some_iff_getElem, digit_eq_getElem hlt]
  refine ⟨hlt, by simp, fun j hj => ?_⟩
  -- no digit stands at two places
  have hjlt : j < alphabet.length := Nat.lt_trans hj hlt
  have hne : alphabet[j] ≠ alphabet[n] := by
    rw [ne_eq, alphabet_nodup.getElem_inj_iff]
    omega
  simpa using hne

theorem digit_ne_pad (n : Nat) (h : n < 64) : digit n ≠ '=' := (alphabet_plain _ (digit_mem h)).2.1

theorem digit_not_break (n : Nat) (h : n < 64) : isBreak (digit n) = false :=
  (alphabet_plain _ (digit_mem h)).2.2

theorem byte0_digits (a : UInt8) (k : Nat) (hk : k < 16) :
    byte0 (a.toNat / 4) (a.toNat % 4 * 16 + k) = a := by
  have ha := a.toNat_lt
  have h : a.toNat / 4 * 4 + (a.toNat % 4 * 16 + k) / 16 = a.toNat := by omega
  rw [byte0, h, UInt8.ofNat_toNat]

theorem byte1_digits (b : UInt8) (j k : Nat) (hk : k < 4) :
    byte1 (j * 16 + b.toNat / 16) (b.toNat % 16 * 4 + k) = b := by
  have hb := b.toNat_lt
  have h : (j * 16 + b.toNat / 16) % 16 * 16 + (b.toNat % 16 * 4 + k) / 4 = b.toNat := by omega
  rw [byte1, h, UInt8.ofNat_toNat]

theorem byte2_digits (c : UInt8) (j : Nat) :
    byte2 (j * 4 + c.toNat / 64) (c.toNat % 64) = c := by
  have hc := c.toNat_lt
  have h : (j * 4 + c.toNat / 64) % 4 * 64 + c.toNat % 64 = c.toNat := by omega
  rw [byte2, h, UInt8.ofNat_toNat]

/-- Four digits of which the last is not padding are decoded in full. -/
theorem decodeDigits_full {a b c d : Char} (rest : List Char) (hd : d ≠ '=') :
    decodeDigits (a :: b :: c :: d :: rest) = (do
      let v ← value a
      let w ← value b
      let x ← value c
      let y ← value d
      return byte0 v w :: byte1 w x :: byte2 x y :: (← decodeDigits rest)) := by
  rw [decodeDigits]
  · intro _ h _
    exact absurd h hd
  · intro h _
    exact absurd h hd

/-- Three digits and padding give two bytes. -/
theorem decodeDigits_padded {a b c : Char} (hc : c ≠ '=') :
    decodeDigits [a, b, c, '='] = (do
      let v ← value a
      let w ← value b
      let x ← value c
      return [byte0 v w, byte1 w x]) := by
  rw [decodeDigits]
  intro h
  exact absurd h hc

theorem decodeDigits_encodeBytes (bs : List UInt8) : decodeDigits (encodeBytes bs) = some bs := by
  induction bs using encodeBytes.induct with
  | case1 => rfl
  | case2 a =>
    have ha := a.toNat_lt
    have h0 := byte0_digits a 0 (by omega)
    simp only [Nat.add_zero] at h0
    simp [encodeBytes, decodeDigits, value_digit _ (show a.toNat / 4 < 64 by omega),
      value_digit _ (show a.toNat % 4 * 16 < 64 by omega), h0]
  | case3 a b =>
    have ha := a.toNat_lt
    have hb := b.toNat_lt
    have h1 := byte1_digits b (a.toNat % 4) 0 (by omega)
    simp only [Nat.add_zero] at h1
    rw [encodeBytes, decodeDigits_padded (digit_ne_pad _ (by omega)),
      value_digit _ (show a.toNat / 4 < 64 by omega),
      value_digit _ (show a.toNat % 4 * 16 + b.toNat / 16 < 64 by omega),
      value_digit _ (show b.toNat % 16 * 4 < 64 by omega)]
    simp [byte0_digits a (b.toNat / 16) (by omega), h1]
  | case4 a b c rest ih =>
    have ha := a.toNat_lt
    have hb := b.toNat_lt
    have hc := c.toNat_lt
    rw [encodeBytes, decodeDigits_full _ (digit_ne_pad _ (by omega)), ih,
      value_digit _ (show a.toNat / 4 < 64 by omega),
      value_digit _ (show a.toNat % 4 * 16 + b.toNat / 16 < 64 by omega),
      value_digit _ (show b.toNat % 16 * 4 + c.toNat / 64 < 64 by omega),
      value_digit _ (show c.toNat % 64 < 64 by omega)]
    simp [byte0_digits a (b.toNat / 16) (by omega),
      byte1_digits b (a.toNat % 4) (c.toNat / 64) (by omega), byte2_digits c]

theorem encodeBytes_no_break (bs : List UInt8) : ∀ c ∈ encodeBytes bs, isBreak c = false := by
  have hpad : isBreak '=' = false := by decide
  induction bs using encodeBytes.induct with
  | case1 => simp [encodeBytes]
  | case2 a =>
    have ha := a.toNat_lt
    simp [encodeBytes, hpad, digit_not_break _ (show a.toNat / 4 < 64 by omega),
      digit_not_break _ (show a.toNat % 4 * 16 < 64 by omega)]
  | case3 a b =>
    have ha := a.toNat_lt
    have hb := b.toNat_lt
    simp [encodeBytes, hpad, digit_not_break _ (show a.toNat / 4 < 64 by omega),
      digit_not_break _ (show a.toNat % 4 * 16 + b.toNat / 16 < 64 by omega),
      digit_not_break _ (show b.toNat % 16 * 4 < 64 by omega)]
  | case4 a b c rest ih =>
    have ha := a.toNat_lt
    have hb := b.toNat_lt
    have hc := c.toNat_lt
    simp only [encodeBytes, List.mem_cons]
    rintro x (rfl | rfl | rfl | rfl | hx)
    · exact digit_not_break _ (by omega)
    · exact digit_not_break _ (by omega)
    · exact digit_not_break _ (by omega)
    · exact digit_not_break _ (by omega)
    · exact ih x hx

theorem decode_encode (bs : List UInt8) : decode (encode bs) = some bs := by
  have hkeep : (encodeBytes bs).filter (fun c => !isBreak c) = encodeBytes bs := by
    rw [List.filter_eq_self]
    intro c hc
    simp [encodeBytes_no_break bs c hc]
  rw [decode, encode, String.toList_ofList, hkeep, decodeDigits_encodeBytes]

/-! ## The characters of a valid text -/

theorem mem_alphabet_of_value {c : Char} {n : Nat} (h : value c = some n) : c ∈ alphabet := by
  rw [value, List.idxOf?, List.findIdx?_eq_some_iff_getElem] at h
  obtain ⟨hlt, heq, -⟩ := h
  rw [← beq_iff_eq.mp heq]
  exact List.getElem_mem hlt

theorem ascii_of_value {c : Char} {n : Nat} (h : value c = some n) : c.toNat < 128 :=
  (alphabet_plain c (mem_alphabet_of_value h)).1

theorem ascii_of_decodeDigits {cs : List Char} {bs : List UInt8}
    (h : decodeDigits cs = some bs) : ∀ c ∈ cs, c.toNat < 128 := by
  induction cs using decodeDigits.induct generalizing bs with
  | case1 => simp
  | case2 a b =>
    simp only [decodeDigits, Option.bind_eq_bind, Option.bind_eq_some_iff] at h
    obtain ⟨v, hv, w, hw, -⟩ := h
    simp [ascii_of_value hv, ascii_of_value hw]
  | case3 a b c hc =>
    rw [decodeDigits_padded hc] at h
    simp only [Option.bind_eq_bind, Option.bind_eq_some_iff] at h
    obtain ⟨v, hv, w, hw, x, hx, -⟩ := h
    simp [ascii_of_value hv, ascii_of_value hw, ascii_of_value hx]
  | case4 a b c d rest hpads hpad ih =>
    rw [decodeDigits.eq_4 _ _ _ _ _ hpads hpad] at h
    simp only [Option.bind_eq_bind, Option.bind_eq_some_iff] at h
    obtain ⟨v, hv, w, hw, x, hx, y, hy, out, hout, -⟩ := h
    simp only [List.mem_cons]
    rintro z (rfl | rfl | rfl | rfl | hz)
    · exact ascii_of_value hv
    · exact ascii_of_value hw
    · exact ascii_of_value hx
    · exact ascii_of_value hy
    · exact ih hout z hz
  | case5 cs hnil hone htwo hmore =>
    rw [decodeDigits.eq_5 _ hnil hone htwo hmore] at h
    cases h

theorem ascii_of_decode {s : String} {bs : List UInt8} (h : decode s = some bs) :
    ∀ c ∈ s.toList, c.toNat < 128 := by
  intro c hc
  cases hbreak : isBreak c with
  | true =>
    rw [isBreak, Bool.or_eq_true, decide_eq_true_iff, decide_eq_true_iff] at hbreak
    rcases hbreak with rfl | rfl
    · decide
    · decide
  | false => exact ascii_of_decodeDigits h c (List.mem_filter.mpr ⟨hc, by simp [hbreak]⟩)

end SniShaper.Base64
