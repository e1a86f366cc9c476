import Mathlib.Data.List.Induction
import Mathlib.Tactic.Common
import Mathlib.Tactic.Ring

/-! Reading and writing a binary format: big-endian numbers, fixed runs of bytes
and length-prefixed parts.

A reader takes the bytes that are left and gives a value with the bytes after
it; a writer gives the bytes, and fails where a part is too long for its length
prefix. `drain` is the loop that reads until nothing is left.

Proved here:

* `readUint_put`, `readLengthPrefixed_add`: each reader gives back what its
  writer wrote, whatever follows;
* `readUint_inv`, `readLengthPrefixed_inv`: what a reader accepts is what its
  writer writes, followed by the rest;
* `Format.readAll_putAll`, `Format.readAll_inv`: the same for lists of entries;
* `drain_eq_foldlM`, `drain_ok_iff`: a loop is the fold of its step over the
  entries that it reads. -/

namespace SniShaper.Wire

/-! ## Numbers -/

/-- The value of big-endian bytes. -/
def beNat (bs : List UInt8) : Nat := bs.foldl (fun acc b => acc * 256 + b.toNat) 0

/-- The last `k` big-endian bytes of `n`. -/
def putUint : Nat → Nat → List UInt8
  | 0, _ => []
  | k + 1, n => putUint k (n / 256) ++ [UInt8.ofNat n]

@[simp] theorem putUint_length (k n : Nat) : (putUint k n).length = k := by
  induction k generalizing n with
  | zero => rfl
  | succ k ih => simp [putUint, ih]

theorem beNat_concat (bs : List UInt8) (b : UInt8) : beNat (bs ++ [b]) = beNat bs * 256 + b.toNat := by
  simp [beNat]

theorem beNat_lt (bs : List UInt8) : beNat bs < 256 ^ bs.length := by
  induction bs using List.reverseRecOn with
  | nil => simp [beNat]
  | append_singleton bs b ih =>
    have hb := b.toNat_lt
    rw [beNat_concat, List.length_append, List.length_singleton, pow_succ]
    omega

theorem beNat_putUint (k n : Nat) (h : n < 256 ^ k) : beNat (putUint k n) = n := by
  induction k generalizing n with
  | zero =>
    have h0 : n = 0 := by simpa using h
    subst h0
    rfl
  | succ k ih =>
    have hdiv : n / 256 < 256 ^ k := by
      rw [pow_succ] at h
      omega
    rw [putUint, beNat_concat, ih (n / 256) hdiv]
    simp only [UInt8.toNat_ofNat']
    omega

/-- The bytes of a number are those of its high part and of its low part. -/
theorem putUint_add (j k n : Nat) : putUint (j + k) n = putUint j (n / 256 ^ k) ++ putUint k n := by
  induction k generalizing n with
  | zero => simp [putUint]
  | succ k ih =>
    rw [← Nat.add_assoc, putUint, ih, putUint, Nat.div_div_eq_div_mul, ← Nat.pow_succ',
      List.append_assoc]

theorem putUint_mul_add (k a b : Nat) : putUint k (a * 256 ^ k + b) = putUint k b := by
  induction k generalizing b with
  | zero => rfl
  | succ k ih =>
    have hshift : a * 256 ^ (k + 1) + b = 256 * (a * 256 ^ k) + b := by ring
    have hdiv : (a * 256 ^ (k + 1) + b) / 256 = a * 256 ^ k + b / 256 := by omega
    have hbyte : UInt8.ofNat (a * 256 ^ (k + 1) + b) = UInt8.ofNat b := by
      apply UInt8.toNat_inj.mp
      rw [UInt8.toNat_ofNat', UInt8.toNat_ofNat']
      omega
    rw [putUint, putUint, hdiv, ih, hbyte]

theorem putUint_injOn {k m n : Nat} (hm : m < 256 ^ k) (hn : n < 256 ^ k)
    (h : putUint k m = putUint k n) : m = n := by
  rw [← beNat_putUint k m hm, h, beNat_putUint k n hn]

theorem putUint_beNat (bs : List UInt8) : putUint bs.length (beNat bs) = bs := by
  induction bs using List.reverseRecOn with
  | nil => rfl
  | append_singleton bs b ih =>
    have hb := b.toNat_lt
    have hdiv : (beNat bs * 256 + b.toNat) / 256 = beNat bs := by omega
    have hmod : UInt8.ofNat (beNat bs * 256 + b.toNat) = b := by
      apply UInt8.toNat_inj.mp
      simp only [UInt8.toNat_ofNat']
      omega
    rw [List.length_append, List.length_singleton, putUint, beNat_concat, hdiv, ih, hmod]

/-! ## Readers -/

/-- `n` bytes, as they are. -/
def readBytes (n : Nat) (s : List UInt8) : Option (List UInt8 × List UInt8) :=
  if n ≤ s.length then some (s.take n, s.drop n) else none

def readUint (k : Nat) (s : List UInt8) : Option (Nat × List UInt8) := do
  let (b, s) ← readBytes k s
  return (beNat b, s)

/-- A part with a length prefix of `k` bytes. -/
def readLengthPrefixed (k : Nat) (s : List UInt8) : Option (List UInt8 × List UInt8) := do
  let (n, s) ← readUint k s
  readBytes n s

def readUint8 (s : List UInt8) : Option (UInt8 × List UInt8) := do
  let (n, s) ← readUint 1 s
  return (UInt8.ofNat n, s)

def readUint16 (s : List UInt8) : Option (UInt16 × List UInt8) := do
  let (n, s) ← readUint 2 s
  return (UInt16.ofNat n, s)

def readUint32 (s : List UInt8) : Option (UInt32 × List UInt8) := do
  let (n, s) ← readUint 4 s
  return (UInt32.ofNat n, s)

def readUint8LengthPrefixed : List UInt8 → Option (List UInt8 × List UInt8) := readLengthPrefixed 1

def readUint16LengthPrefixed : List UInt8 → Option (List UInt8 × List UInt8) := readLengthPrefixed 2

def skip (n : Nat) (s : List UInt8) : Option (List UInt8) := (readBytes n s).map Prod.snd

/-- A reader's failure as an error of the caller. -/
def orError {ε α : Type} (e : ε) : Option α → Except ε α
  | none => .error e
  | some a => .ok a

@[simp] theorem orError_none {ε α : Type} (e : ε) : orError e (none : Option α) = .error e := rfl

@[simp] theorem orError_some {ε α : Type} (e : ε) (a : α) : orError e (some a) = .ok a := rfl

theorem orError_ok {ε α : Type} {e : ε} {x : Option α} {a : α} :
    orError e x = .ok a ↔ x = some a := by
  cases x <;> simp [orError]

theorem ok_of_bind {ε α β : Type} {x : Except ε α} {f : α → Except ε β} {b : β}
    (h : (x >>= f) = .ok b) : ∃ a, x = .ok a ∧ f a = .ok b := by
  cases x with
  | error e => cases h
  | ok a => exact ⟨a, rfl, h⟩

/-! ## Writers -/

def addUint8 (v : UInt8) : List UInt8 := putUint 1 v.toNat

def addUint16 (v : UInt16) : List UInt8 := putUint 2 v.toNat

def addUint32 (v : UInt32) : List UInt8 := putUint 4 v.toNat

/-- A part behind its length; the error is that of a builder whose child outgrew
the prefix. -/
def addLengthPrefixed (k : Nat) (body : List UInt8) : Except String (List UInt8) :=
  if body.length < 256 ^ k then .ok (putUint k body.length ++ body)
  else .error s!"cryptobyte: pending child length {body.length} exceeds {k}-byte length prefix"

def addUint8LengthPrefixed : List UInt8 → Except String (List UInt8) := addLengthPrefixed 1

def addUint16LengthPrefixed : List UInt8 → Except String (List UInt8) := addLengthPrefixed 2

def addUint24LengthPrefixed : List UInt8 → Except String (List UInt8) := addLengthPrefixed 3

/-- What one builder is given piece after piece; the first error stops it. -/
def concat : List (Except String (List UInt8)) → Except String (List UInt8)
  | [] => .ok []
  | p :: ps => do
    let b ← p
    let bs ← concat ps
    return b ++ bs

/-! ## Readers against writers -/

theorem readBytes_append {n : Nat} {b : List UInt8} (h : b.length = n) (rest : List UInt8) :
    readBytes n (b ++ rest) = some (b, rest) := by
  subst h
  simp [readBytes]

theorem readBytes_inv {n : Nat} {s b rest : List UInt8} (h : readBytes n s = some (b, rest)) :
    s = b ++ rest ∧ b.length = n := by
  unfold readBytes at h
  split at h
  next hn =>
    cases h
    exact ⟨(List.take_append_drop n s).symm, by simpa using hn⟩
  next => cases h

theorem readUint_put (k n : Nat) (h : n < 256 ^ k) (rest : List UInt8) :
    readUint k (putUint k n ++ rest) = some (n, rest) := by
  simp [readUint, readBytes_append (putUint_length k n), beNat_putUint k n h]

theorem readUint_inv {k n : Nat} {s rest : List UInt8} (h : readUint k s = some (n, rest)) :
    s = putUint k n ++ rest ∧ n < 256 ^ k := by
  simp only [readUint, Option.bind_eq_bind, Option.bind_eq_some_iff, Option.pure_def,
    Option.some.injEq, Prod.mk.injEq] at h
  obtain ⟨⟨b, s'⟩, hb, rfl, rfl⟩ := h
  obtain ⟨rfl, rfl⟩ := readBytes_inv hb
  exact ⟨by rw [putUint_beNat], beNat_lt b⟩

theorem readLengthPrefixed_add {k : Nat} {body bs : List UInt8}
    (h : addLengthPrefixed k body = .ok bs) (rest : List UInt8) :
    readLengthPrefixed k (bs ++ rest) = some (body, rest) := by
  unfold addLengthPrefixed at h
  split at h
  next hlt =>
    cases h
    simp [readLengthPrefixed, readUint_put k _ hlt, readBytes_append rfl]
  next => cases h

theorem addLengthPrefixed_ok {k : Nat} {body bs : List UInt8} :
    addLengthPrefixed k body = .ok bs ↔
      body.length < 256 ^ k ∧ bs = putUint k body.length ++ body := by
  unfold addLengthPrefixed
  split
  next h => simp [h, eq_comm]
  next h => simp [h]

theorem readLengthPrefixed_inv {k : Nat} {s body rest : List UInt8}
    (h : readLengthPrefixed k s = some (body, rest)) :
    ∃ bs, addLengthPrefixed k body = .ok bs ∧ s = bs ++ rest := by
  simp only [readLengthPrefixed, Option.bind_eq_bind, Option.bind_eq_some_iff] at h
  obtain ⟨⟨n, s'⟩, hn, hb⟩ := h
  obtain ⟨rfl, hlt⟩ := readUint_inv hn
  obtain ⟨rfl, rfl⟩ := readBytes_inv hb
  exact ⟨_, addLengthPrefixed_ok.mpr ⟨hlt, rfl⟩, (List.append_assoc _ _ _).symm⟩

@[simp] theorem readUint8_cons (b : UInt8) (rest : List UInt8) :
    readUint8 (b :: rest) = some (b, rest) := by
  simp [readUint8, readUint, readBytes, beNat]

@[simp] theorem readUint8_add (v : UInt8) (rest : List UInt8) :
    readUint8 (addUint8 v ++ rest) = some (v, rest) := by
  simp [readUint8, addUint8, readUint_put 1 v.toNat v.toNat_lt]

@[simp] theorem readUint16_add (v : UInt16) (rest : List UInt8) :
    readUint16 (addUint16 v ++ rest) = some (v, rest) := by
  simp [readUint16, addUint16, readUint_put 2 v.toNat v.toNat_lt]

@[simp] theorem readUint32_add (v : UInt32) (rest : List UInt8) :
    readUint32 (addUint32 v ++ rest) = some (v, rest) := by
  simp [readUint32, addUint32, readUint_put 4 v.toNat v.toNat_lt]

theorem readUint8_inv {s rest : List UInt8} {v : UInt8} (h : readUint8 s = some (v, rest)) :
    s = addUint8 v ++ rest := by
  simp only [readUint8, Option.bind_eq_bind, Option.bind_eq_some_iff, Option.pure_def,
    Option.some.injEq, Prod.mk.injEq] at h
  obtain ⟨⟨n, s'⟩, hn, rfl, rfl⟩ := h
  obtain ⟨rfl, hlt⟩ := readUint_inv hn
  rw [addUint8, UInt8.toNat_ofNat', Nat.mod_eq_of_lt (by simpa using hlt)]

theorem readUint16_inv {s rest : List UInt8} {v : UInt16} (h : readUint16 s = some (v, rest)) :
    s = addUint16 v ++ rest := by
  simp only [readUint16, Option.bind_eq_bind, Option.bind_eq_some_iff, Option.pure_def,
    Option.some.injEq, Prod.mk.injEq] at h
  obtain ⟨⟨n, s'⟩, hn, rfl, rfl⟩ := h
  obtain ⟨rfl, hlt⟩ := readUint_inv hn
  rw [addUint16, UInt16.toNat_ofNat', Nat.mod_eq_of_lt (by simpa using hlt)]

theorem readUint32_inv {s rest : List UInt8} {v : UInt32} (h : readUint32 s = some (v, rest)) :
    s = addUint32 v ++ rest := by
  simp only [readUint32, Option.bind_eq_bind, Option.bind_eq_some_iff, Option.pure_def,
    Option.some.injEq, Prod.mk.injEq] at h
  obtain ⟨⟨n, s'⟩, hn, rfl, rfl⟩ := h
  obtain ⟨rfl, hlt⟩ := readUint_inv hn
  rw [addUint32, UInt32.toNat_ofNat', Nat.mod_eq_of_lt (by simpa using hlt)]

@[simp] theorem addUint8_length (v : UInt8) : (addUint8 v).length = 1 := putUint_length 1 _

@[simp] theorem addUint16_length (v : UInt16) : (addUint16 v).length = 2 := putUint_length 2 _

@[simp] theorem addUint32_length (v : UInt32) : (addUint32 v).length = 4 := putUint_length 4 _

/-- Two bytes of a number are those of the number cut to 16 bits. -/
theorem addUint16_ofNat (n : Nat) : addUint16 (UInt16.ofNat n) = putUint 2 n := by
  have hhi : UInt8.ofNat (n % 65536 / 256) = UInt8.ofNat (n / 256) := by
    apply UInt8.toNat_inj.mp
    simp only [UInt8.toNat_ofNat']
    omega
  have hlo : UInt8.ofNat (n % 65536) = UInt8.ofNat n := by
    apply UInt8.toNat_inj.mp
    simp only [UInt8.toNat_ofNat']
    omega
  simp [addUint16, putUint, hhi, hlo]

/-- The two bytes at the front, put together by shifting. -/
theorem shifted_eq (hi lo : UInt8) :
    hi.toUInt16 <<< 8 ||| lo.toUInt16 = UInt16.ofNat (beNat [hi, lo]) := by
  have hhi := hi.toNat_lt
  have hlo := lo.toNat_lt
  apply UInt16.toNat_inj.mp
  simp only [beNat, UInt16.toNat_or, UInt16.toNat_shiftLeft, UInt8.toNat_toUInt16,
    UInt16.toNat_ofNat', List.foldl_cons, List.foldl_nil]
  rw [show (8 : UInt16).toNat % 16 = 8 from rfl, Nat.shiftLeft_eq,
    Nat.mod_eq_of_lt (by omega : hi.toNat * 2 ^ 8 < 2 ^ 16), Nat.mul_comm,
    ← Nat.two_pow_add_eq_or_of_lt (by omega)]
  omega

theorem addUint8_eq (v : UInt8) : addUint8 v = [v] := by
  simp [addUint8, putUint]

theorem skip_append {n : Nat} {b : List UInt8} (h : b.length = n) (rest : List UInt8) :
    skip n (b ++ rest) = some rest := by
  simp [skip, readBytes_append h]

theorem skip_inv {n : Nat} {s rest : List UInt8} (h : skip n s = some rest) :
    ∃ b, b.length = n ∧ s = b ++ rest := by
  obtain ⟨p, hp, rfl⟩ := Option.map_eq_some_iff.mp h
  obtain ⟨hs, hlen⟩ := readBytes_inv hp
  exact ⟨p.1, hlen, hs⟩

/-! ## Builders -/

theorem concat_nil : concat [] = .ok [] := rfl

@[simp] theorem concat_nil_cons (ps : List (Except String (List UInt8))) :
    concat (.ok [] :: ps) = concat ps := by
  rw [concat]
  cases concat ps <;> rfl

theorem concat_skip (ps qs : List (Except String (List UInt8))) :
    concat (ps ++ .ok [] :: qs) = concat (ps ++ qs) := by
  induction ps with
  | nil => exact concat_nil_cons qs
  | cons p ps ih =>
    cases p with
    | error e => rfl
    | ok b => rw [List.cons_append, List.cons_append, concat, concat, ih]

/-- Pieces that write nothing can be left out. -/
theorem concat_map_filter {α : Type} (p : α → Bool) (f : α → Except String (List UInt8))
    (as : List α) (ps qs : List (Except String (List UInt8))) :
    concat (ps ++ (as.map fun a => if p a then .ok [] else f a) ++ qs) =
      concat (ps ++ (as.filter fun a => !p a).map f ++ qs) := by
  induction as generalizing ps with
  | nil => rfl
  | cons a as ih =>
    cases hp : p a with
    | true =>
      have hskip := concat_skip ps ((as.map fun a => if p a then .ok [] else f a) ++ qs)
      simpa [hp, ih ps] using hskip.trans (by simpa using ih ps)
    | false => simpa [hp] using ih (ps ++ [f a])

theorem concat_cons_ok {p : Except String (List UInt8)} {ps : List (Except String (List UInt8))}
    {bs : List UInt8} :
    concat (p :: ps) = .ok bs ↔ ∃ b rest, p = .ok b ∧ concat ps = .ok rest ∧ bs = b ++ rest := by
  cases p with
  | error e => simp [concat, bind, Except.bind]
  | ok b => cases hc : concat ps <;> simp [concat, hc, bind, Except.bind, pure, Except.pure, eq_comm]

theorem concat_append_ok {ps qs : List (Except String (List UInt8))} {bs : List UInt8} :
    concat (ps ++ qs) = .ok bs ↔
      ∃ b rest, concat ps = .ok b ∧ concat qs = .ok rest ∧ bs = b ++ rest := by
  induction ps generalizing bs with
  | nil => simp [concat_nil]
  | cons p ps ih =>
    simp only [List.cons_append, concat_cons_ok, ih]
    constructor
    · rintro ⟨b, _, hb, ⟨c, d, hc, hd, rfl⟩, rfl⟩
      exact ⟨b ++ c, d, ⟨b, c, hb, hc, rfl⟩, hd, (List.append_assoc b c d).symm⟩
    · rintro ⟨_, d, ⟨b, c, hb, hc, rfl⟩, hd, rfl⟩
      exact ⟨b, c ++ d, hb, ⟨c, d, hc, hd, rfl⟩, List.append_assoc b c d⟩

/-! ## Formats -/

/-- An entry of a list: how it is written and how it is read. `Fits` says which
values the writer can write; what the reader accepts is one of them. -/
structure Format (α : Type) where
  put : α → List UInt8
  read : List UInt8 → Option (α × List UInt8)
  Fits : α → Prop
  put_ne_nil : ∀ a, put a ≠ []
  read_put : ∀ a, Fits a → ∀ rest, read (put a ++ rest) = some (a, rest)
  read_inv : ∀ s a rest, read s = some (a, rest) → Fits a ∧ s = put a ++ rest

def Format.uint16 : Format UInt16 where
  put := addUint16
  read := readUint16
  Fits _ := True
  put_ne_nil v h := by simpa using congrArg List.length h
  read_put v _ rest := readUint16_add v rest
  read_inv _ _ _ h := ⟨trivial, readUint16_inv h⟩

def Format.uint32 : Format UInt32 where
  put := addUint32
  read := readUint32
  Fits _ := True
  put_ne_nil v h := by simpa using congrArg List.length h
  read_put v _ rest := readUint32_add v rest
  read_inv _ _ _ h := ⟨trivial, readUint32_inv h⟩

def Format.uint8 : Format UInt8 where
  put := addUint8
  read := readUint8
  Fits _ := True
  put_ne_nil v h := by simpa using congrArg List.length h
  read_put v _ rest := readUint8_add v rest
  read_inv _ _ _ h := ⟨trivial, readUint8_inv h⟩

/-- Bytes behind a length prefix of `k + 1` bytes. -/
def Format.prefixed (k : Nat) : Format (List UInt8) where
  put body := putUint (k + 1) body.length ++ body
  read := readLengthPrefixed (k + 1)
  Fits body := body.length < 256 ^ (k + 1)
  put_ne_nil body h := by simpa using congrArg List.length h
  read_put body h rest := readLengthPrefixed_add (addLengthPrefixed_ok.mpr ⟨h, rfl⟩) rest
  read_inv _ _ _ h := by
    obtain ⟨bs, hb, rfl⟩ := readLengthPrefixed_inv h
    obtain ⟨hlt, rfl⟩ := addLengthPrefixed_ok.mp hb
    exact ⟨hlt, rfl⟩

/-- One entry after another. -/
def Format.pair {α β : Type} (F : Format α) (G : Format β) : Format (α × β) where
  put p := F.put p.1 ++ G.put p.2
  read s := do
    let (a, s) ← F.read s
    let (b, s) ← G.read s
    return ((a, b), s)
  Fits p := F.Fits p.1 ∧ G.Fits p.2
  put_ne_nil p h := F.put_ne_nil p.1 (List.append_eq_nil_iff.mp h).1
  read_put p h rest := by
    simp [F.read_put p.1 h.1, G.read_put p.2 h.2]
  read_inv s p rest h := by
    simp only [Option.bind_eq_bind, Option.bind_eq_some_iff, Option.pure_def, Option.some.injEq,
      Prod.mk.injEq] at h
    obtain ⟨⟨a, s'⟩, ha, ⟨b, s''⟩, hb, rfl, rfl⟩ := h
    obtain ⟨hfa, rfl⟩ := F.read_inv _ _ _ ha
    obtain ⟨hfb, rfl⟩ := G.read_inv _ _ _ hb
    exact ⟨⟨hfa, hfb⟩, (List.append_assoc _ _ _).symm⟩

/-- A type, and contents behind a 16-bit length. -/
def Format.block : Format (UInt16 × List UInt8) := Format.uint16.pair (Format.prefixed 1)

theorem block_put (t : UInt16) (body : List UInt8) :
    Format.block.put (t, body) = addUint16 t ++ (putUint 2 body.length ++ body) := rfl

@[simp] theorem block_put_length (t : UInt16) (body : List UInt8) :
    (Format.block.put (t, body)).length = body.length + 4 := by
  simp only [block_put, List.length_append, addUint16_length, putUint_length]
  omega

/-- Entries that are stored as another type. -/
def Format.ofEquiv {α β : Type} (F : Format α) (e : α ≃ β) : Format β where
  put b := F.put (e.symm b)
  read s := (F.read s).map fun p => (e p.1, p.2)
  Fits b := F.Fits (e.symm b)
  put_ne_nil b := F.put_ne_nil (e.symm b)
  read_put b h rest := by simp [F.read_put (e.symm b) h]
  read_inv s b rest h := by
    obtain ⟨p, hp, heq⟩ := Option.map_eq_some_iff.mp h
    cases heq
    rw [e.symm_apply_apply]
    exact F.read_inv _ _ _ hp

section Format

variable {α : Type} (F : Format α)

/-- A reader does not look at what follows its entry. -/
theorem Format.read_append {s rest : List UInt8} {a : α} (h : F.read s = some (a, rest))
    (more : List UInt8) : F.read (s ++ more) = some (a, rest ++ more) := by
  obtain ⟨hfit, rfl⟩ := F.read_inv _ _ _ h
  rw [List.append_assoc]
  exact F.read_put a hfit _

def Format.readAllFuel : Nat → List UInt8 → Option (List α)
  | _, [] => some []
  | 0, _ :: _ => none
  | fuel + 1, b :: bs => do
    let (a, rest) ← F.read (b :: bs)
    let as ← readAllFuel fuel rest
    return a :: as

/-- The entries of a list that ends where the bytes end. Every entry takes at
least a byte, so the number of bytes is enough fuel. -/
def Format.readAll (bs : List UInt8) : Option (List α) := F.readAllFuel bs.length bs

def Format.putAll (as : List α) : List UInt8 := as.flatMap F.put

@[simp] theorem Format.putAll_nil : F.putAll [] = [] := rfl

theorem Format.putAll_cons (a : α) (as : List α) : F.putAll (a :: as) = F.put a ++ F.putAll as := rfl

theorem Format.putAll_append (as as' : List α) : F.putAll (as ++ as') = F.putAll as ++ F.putAll as' := by
  simp [putAll]

theorem Format.putAll_eq_nil {as : List α} : F.putAll as = [] ↔ as = [] := by
  cases as with
  | nil => simp
  | cons a as => simp [putAll_cons, F.put_ne_nil a]

theorem Format.length_le_putAll (as : List α) : as.length ≤ (F.putAll as).length := by
  induction as with
  | nil => simp
  | cons a as ih =>
    have ha : 0 < (F.put a).length := List.length_pos_iff.mpr (F.put_ne_nil a)
    rw [putAll_cons, List.length_append, List.length_cons]
    omega

theorem Format.readAllFuel_put (as : List α) (h : ∀ a ∈ as, F.Fits a) (fuel : Nat)
    (hfuel : as.length ≤ fuel) : F.readAllFuel fuel (F.putAll as) = some as := by
  induction as generalizing fuel with
  | nil => cases fuel <;> rfl
  | cons a as ih =>
    obtain ⟨fuel, rfl⟩ : ∃ k, fuel = k + 1 :=
      Nat.exists_eq_succ_of_ne_zero (by simp only [List.length_cons] at hfuel; omega)
    have hread := F.read_put a (h a (by simp)) (F.putAll as)
    obtain ⟨b, bs, hb⟩ := List.exists_cons_of_ne_nil (F.put_ne_nil a)
    rw [putAll_cons]
    rw [hb, List.cons_append] at hread ⊢
    simp [readAllFuel, hread, ih (fun c hc => h c (by simp [hc])) fuel (by simpa using hfuel)]

theorem Format.readAll_putAll (as : List α) (h : ∀ a ∈ as, F.Fits a) :
    F.readAll (F.putAll as) = some as :=
  F.readAllFuel_put as h _ (F.length_le_putAll as)

theorem Format.readAllFuel_inv (fuel : Nat) (bs : List UInt8) (as : List α)
    (h : F.readAllFuel fuel bs = some as) : (∀ a ∈ as, F.Fits a) ∧ bs = F.putAll as := by
  induction fuel generalizing bs as with
  | zero =>
    cases bs with
    | nil =>
      cases h
      exact ⟨by simp, rfl⟩
    | cons b bs => cases h
  | succ fuel ih =>
    cases bs with
    | nil =>
      cases h
      exact ⟨by simp, rfl⟩
    | cons b bs =>
      simp only [readAllFuel, Option.bind_eq_bind, Option.bind_eq_some_iff, Option.pure_def,
        Option.some.injEq] at h
      obtain ⟨⟨a, rest⟩, ha, as', has, rfl⟩ := h
      obtain ⟨hfit, hbytes⟩ := F.read_inv _ _ _ ha
      obtain ⟨hfits, rfl⟩ := ih rest as' has
      exact ⟨by simpa using ⟨hfit, hfits⟩, hbytes⟩

/-- What is accepted as a list is the list, written out. -/
theorem Format.readAll_inv {bs : List UInt8} {as : List α} (h : F.readAll bs = some as) :
    (∀ a ∈ as, F.Fits a) ∧ bs = F.putAll as :=
  F.readAllFuel_inv _ bs as h

/-- A builder that is given one entry after another. -/
theorem Format.concat_ok_iff (write : α → Except String (List UInt8))
    (hwrite : ∀ a b, write a = .ok b ↔ F.Fits a ∧ b = F.put a) (as : List α) (bs : List UInt8) :
    concat (as.map write) = .ok bs ↔ (∀ a ∈ as, F.Fits a) ∧ bs = F.putAll as := by
  induction as generalizing bs with
  | nil => simp [concat_nil, eq_comm]
  | cons a as ih =>
    rw [List.map_cons, concat_cons_ok, putAll_cons, List.forall_mem_cons]
    constructor
    · rintro ⟨b, rest, hb, hrest, rfl⟩
      obtain ⟨hfit, rfl⟩ := (hwrite a b).mp hb
      obtain ⟨hfits, rfl⟩ := (ih rest).mp hrest
      exact ⟨⟨hfit, hfits⟩, rfl⟩
    · rintro ⟨⟨hfit, hfits⟩, rfl⟩
      exact ⟨_, _, (hwrite a _).mpr ⟨hfit, rfl⟩, (ih _).mpr ⟨hfits, rfl⟩, rfl⟩

end Format

/-! ## Loops -/

section Loops

variable {σ α : Type}

/-- `for !s.Empty() { … }`: the body reads from what is left and updates the state. -/
def drainFuel {m : Type → Type} [Monad m] (stuck : m σ)
    (body : σ → List UInt8 → m (σ × List UInt8)) : Nat → σ → List UInt8 → m σ
  | _, st, [] => pure st
  | 0, _, _ :: _ => stuck
  | fuel + 1, st, b :: bs => do
    let (st, rest) ← body st (b :: bs)
    drainFuel stuck body fuel st rest

/-- A body that always takes a byte runs at most once per byte; `stuck` stands
for the loop that does not end. -/
def drain {m : Type → Type} [Monad m] (stuck : m σ) (body : σ → List UInt8 → m (σ × List UInt8))
    (st : σ) (bs : List UInt8) : m σ :=
  drainFuel stuck body bs.length st bs

/-- The fold of a step that is told whether its entry is the last one. -/
def foldLast (step : σ → α → Bool → Option σ) : σ → List α → Option σ
  | st, [] => some st
  | st, a :: as => (step st a as.isEmpty).bind fun st => foldLast step st as

/-- A loop that can only fail or go on reads the list and folds its step, which
may depend on whether anything is left. -/
theorem drain_eq_foldLast (F : Format α) (step : σ → α → Bool → Option σ)
    (body : σ → List UInt8 → Option (σ × List UInt8))
    (hbody : ∀ st s, body st s = (F.read s).bind fun p => (step st p.1 p.2.isEmpty).map (·, p.2))
    (st : σ) (bs : List UInt8) :
    drain none body st bs = (F.readAll bs).bind (foldLast step st) := by
  suffices h : ∀ fuel st bs, drainFuel none body fuel st bs =
      (F.readAllFuel fuel bs).bind (foldLast step st) from h _ st bs
  intro fuel
  induction fuel with
  | zero =>
    intro st bs
    cases bs <;> rfl
  | succ fuel ih =>
    intro st bs
    cases bs with
    | nil => rfl
    | cons b bs =>
      simp only [drainFuel, Format.readAllFuel, hbody, Option.bind_eq_bind]
      cases F.read (b :: bs) with
      | none => rfl
      | some p =>
        cases hr : F.readAllFuel fuel p.2 with
        | none => cases hs : step st p.1 p.2.isEmpty <;> simp [hs, hr, ih]
        | some as =>
          have hlast : p.2.isEmpty = as.isEmpty := by
            rw [(F.readAllFuel_inv fuel p.2 as hr).2, Bool.eq_iff_iff, List.isEmpty_iff,
              List.isEmpty_iff]
            exact F.putAll_eq_nil
          cases hs : step st p.1 p.2.isEmpty <;> simp [hs, hr, ih, foldLast, ← hlast]

theorem foldLast_eq_foldlM (step : σ → α → Option σ) (st : σ) (as : List α) :
    foldLast (fun st a _ => step st a) st as = as.foldlM step st := by
  induction as generalizing st with
  | nil => rfl
  | cons a as ih =>
    rw [foldLast, List.foldlM_cons]
    exact congrArg (step st a).bind (funext ih)

theorem drain_eq_foldlM (F : Format α) (step : σ → α → Option σ)
    (body : σ → List UInt8 → Option (σ × List UInt8))
    (hbody : ∀ st s, body st s = (F.read s).bind fun p => (step st p.1).map (·, p.2))
    (st : σ) (bs : List UInt8) :
    drain none body st bs = (F.readAll bs).bind fun as => as.foldlM step st := by
  rw [drain_eq_foldLast F (fun st a _ => step st a) body hbody]
  exact congrArg (F.readAll bs).bind (funext fun as => foldLast_eq_foldlM step st as)

/-- A loop that collects what it accepts. -/
theorem foldlM_collect {β : Type} (f : α → Option β) (as : List α) (acc : List β) :
    as.foldlM (fun acc a => (f a).map fun b => acc ++ [b]) acc = (as.mapM f).map (acc ++ ·) := by
  induction as generalizing acc with
  | nil => simp
  | cons a as ih =>
    rw [List.foldlM_cons, List.mapM_cons]
    cases f a with
    | none => rfl
    | some b =>
      simp only [Option.map_some, Option.bind_eq_bind, Option.bind_some, ih]
      cases as.mapM f <;> simp

theorem mapM_of_forall {β : Type} {f : α → Option β} {g : α → β} {as : List α}
    (h : ∀ a ∈ as, f a = some (g a)) : as.mapM f = some (as.map g) := by
  induction as with
  | nil => rfl
  | cons a as ih =>
    rw [List.mapM_cons, h a (by simp), ih fun b hb => h b (by simp [hb])]
    rfl

/-- A loop that collects entries with a check on each of them. -/
theorem drain_collect {β : Type} (F : Format α) (f : α → Option β)
    (body : List β → List UInt8 → Option (List β × List UInt8))
    (hbody : ∀ acc s, body acc s =
      (F.read s).bind fun p => (f p.1).map fun b => (acc ++ [b], p.2)) (bs : List UInt8) :
    drain none body [] bs = (F.readAll bs).bind fun as => as.mapM f := by
  have hstep : ∀ acc s, body acc s = (F.read s).bind fun p =>
      ((f p.1).map fun b => acc ++ [b]).map (·, p.2) := by
    intro acc s
    rw [hbody]
    simp [Function.comp_def]
  rw [drain_eq_foldlM F (fun acc a => (f a).map fun b => acc ++ [b]) body hstep]
  congr 1
  funext as
  rw [foldlM_collect]
  simp

/-- Such a loop over written entries that all pass the check. -/
theorem drain_collect_put (F : Format α) (f : α → Option α)
    (body : List α → List UInt8 → Option (List α × List UInt8))
    (hbody : ∀ acc s, body acc s =
      (F.read s).bind fun p => (f p.1).map fun b => (acc ++ [b], p.2))
    (as : List α) (hfits : ∀ a ∈ as, F.Fits a) (hf : ∀ a ∈ as, f a = some a) :
    drain none body [] (F.putAll as) = some as := by
  rw [drain_collect F f body hbody, F.readAll_putAll as hfits, Option.bind_some,
    mapM_of_forall (g := id) hf, List.map_id]

/-- A loop with errors ends well exactly if the bytes are a list of entries and
its step goes through all of them. -/
theorem drain_ok_iff {ε : Type} (F : Format α) (stuck e : ε) (step : σ → α → Except ε σ)
    (body : σ → List UInt8 → Except ε (σ × List UInt8))
    (hbody : ∀ st s, body st s = (orError e (F.read s)).bind fun p => (step st p.1).map (·, p.2))
    (st st' : σ) (bs : List UInt8) :
    drain (.error stuck) body st bs = .ok st' ↔
      ∃ as, F.readAll bs = some as ∧ as.foldlM step st = .ok st' := by
  suffices h : ∀ fuel st bs, drainFuel (.error stuck) body fuel st bs = .ok st' ↔
      ∃ as, F.readAllFuel fuel bs = some as ∧ as.foldlM step st = .ok st' from h _ st bs
  intro fuel
  induction fuel with
  | zero =>
    intro st bs
    cases bs with
    | nil => simp [drainFuel, Format.readAllFuel]
    | cons b bs => simp [drainFuel, Format.readAllFuel]
  | succ fuel ih =>
    intro st bs
    cases bs with
    | nil => simp [drainFuel, Format.readAllFuel]
    | cons b bs =>
      simp only [drainFuel, Format.readAllFuel, hbody]
      cases F.read (b :: bs) with
      | none => simp [bind, Except.bind]
      | some p =>
        cases hs : step st p.1 with
        | error e' =>
          simp [bind, Except.bind, Except.map, hs, List.foldlM_cons, Option.bind_eq_some_iff]
        | ok st'' =>
          simp [bind, Except.bind, Except.map, hs, List.foldlM_cons, Option.bind_eq_some_iff, ih]

end Loops

end SniShaper.Wire
