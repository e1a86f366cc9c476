import Mathlib.Data.List.Basic
import Mathlib.Tactic.Common

/-! Frames on a byte stream: a header of `k` bytes, a big-endian 16-bit length
and that many payload bytes. `parseFrames` reads a stream that is nothing but
frames; `parseFrames_encode` says that it gives back the frames that were
written, provided that every payload length fits its field. -/

namespace SniShaper.Frames

/-- Big-endian 16-bit value of two bytes. -/
def be16 (hi lo : UInt8) : Nat := hi.toNat * 256 + lo.toNat

/-- The two bytes of a length, which is cut to 16 bits. -/
def put16 (n : Nat) : List UInt8 := [UInt8.ofNat (n / 256), UInt8.ofNat n]

structure Frame where
  header : List UInt8
  payload : List UInt8
  deriving DecidableEq, Repr

def Frame.encode (f : Frame) : List UInt8 :=
  f.header ++ (put16 f.payload.length ++ f.payload)

/-- A frame that a reader of `k`-byte headers can give back. -/
def Frame.Fits (k : Nat) (f : Frame) : Prop :=
  f.header.length = k ∧ f.payload.length < 65536

/-- Read one frame and the bytes after it. -/
def readFrame (k : Nat) (bs : List UInt8) : Option (Frame × List UInt8) :=
  match bs.drop k with
  | hi :: lo :: rest =>
    if be16 hi lo ≤ rest.length then
      some (⟨bs.take k, rest.take (be16 hi lo)⟩, rest.drop (be16 hi lo))
    else none
  | _ => none

def readFrames (k : Nat) : Nat → List UInt8 → Option (List Frame)
  | _, [] => some []
  | 0, _ :: _ => none
  | fuel + 1, b :: bs => do
    let (f, rest) ← readFrame k (b :: bs)
    let fs ← readFrames k fuel rest
    return f :: fs

/-- A stream that is a sequence of whole frames. Every frame has at least its
length field, so the stream's own length is enough fuel. -/
def parseFrames (k : Nat) (bs : List UInt8) : Option (List Frame) := readFrames k bs.length bs

theorem be16_lt (hi lo : UInt8) : be16 hi lo < 65536 := by
  have := hi.toNat_lt
  have := lo.toNat_lt
  unfold be16
  omega

theorem be16_put16 (n : Nat) (h : n < 65536) :
    be16 (UInt8.ofNat (n / 256)) (UInt8.ofNat n) = n := by
  simp only [be16, UInt8.toNat_ofNat']
  omega

theorem put16_be16 (hi lo : UInt8) : put16 (be16 hi lo) = [hi, lo] := by
  have hlo := lo.toNat_lt
  have h1 : UInt8.ofNat (be16 hi lo / 256) = hi := by
    rw [show be16 hi lo / 256 = hi.toNat by unfold be16; omega]
    exact UInt8.ofNat_toNat
  have h2 : UInt8.ofNat (be16 hi lo) = lo := by
    apply UInt8.toNat_inj.mp
    rw [UInt8.toNat_ofNat']
    unfold be16
    omega
  rw [put16, h1, h2]

theorem put16_length (n : Nat) : (put16 n).length = 2 := rfl

theorem readFrame_encode (k : Nat) (f : Frame) (hf : f.Fits k) (rest : List UInt8) :
    readFrame k (f.encode ++ rest) = some (f, rest) := by
  obtain ⟨hk, hl⟩ := hf
  have hd : (f.encode ++ rest).drop k =
      UInt8.ofNat (f.payload.length / 256) :: UInt8.ofNat f.payload.length ::
        (f.payload ++ rest) := by
    simp [Frame.encode, put16, ← hk]
  have ht : (f.encode ++ rest).take k = f.header := by
    simp [Frame.encode, ← hk]
  unfold readFrame
  rw [hd, ht]
  simp only [be16_put16 _ hl]
  simp

theorem encode_ne_nil (f : Frame) : f.encode ≠ [] := by
  intro h
  have := congrArg List.length h
  simp only [Frame.encode, List.length_append, put16_length, List.length_nil] at this
  omega

theorem readFrames_encode (k : Nat) (fs : List Frame) (hf : ∀ f ∈ fs, f.Fits k) (fuel : Nat)
    (hfuel : fs.length ≤ fuel) : readFrames k fuel (fs.flatMap Frame.encode) = some fs := by
  induction fs generalizing fuel with
  | nil => cases fuel <;> rfl
  | cons f fs ih =>
    obtain ⟨fuel, rfl⟩ : ∃ n, fuel = n + 1 := ⟨fuel - 1, by simp at hfuel; omega⟩
    have hrest := ih (fun g hg => hf g (List.mem_cons_of_mem _ hg)) fuel (by simpa using hfuel)
    have hone := readFrame_encode k f (hf f (List.mem_cons_self ..)) (fs.flatMap Frame.encode)
    rw [List.flatMap_cons]
    cases hb : f.encode ++ fs.flatMap Frame.encode with
    | nil => exact absurd (List.append_eq_nil_iff.mp hb).1 (encode_ne_nil f)
    | cons b bs =>
      rw [hb] at hone
      simp [readFrames, hone, hrest]

theorem length_le_encode (fs : List Frame) : fs.length ≤ (fs.flatMap Frame.encode).length := by
  induction fs with
  | nil => simp
  | cons f fs ih =>
    have := List.length_pos_iff.mpr (encode_ne_nil f)
    simp only [List.flatMap_cons, List.length_append, List.length_cons]
    omega

/-- **What was written as frames is read back as the same frames.** -/
theorem parseFrames_encode (k : Nat) (fs : List Frame) (hf : ∀ f ∈ fs, f.Fits k) :
    parseFrames k (fs.flatMap Frame.encode) = some fs :=
  readFrames_encode k fs hf _ (length_le_encode fs)

end SniShaper.Frames
