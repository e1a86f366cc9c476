import SniShaper.Tls.Reassembly

/-! The ways of sending the records, compared on a connection that takes every
write: all in one write (`segments = 1`), in a number of TCP segments, or one
write for each record (`segments = -1`).

* `emits_sendMerged`: the number of segments does not change the bytes;
* `emits_sendChunks_first`: one write for each record leaves the first record
  out, for which the loop has only the two out-of-band branches;
* `streams_agree_iff`: so two calls write the same bytes exactly when both or
  neither of them have `segments = -1`. -/

namespace SniShaper.Segments

open Bounds Frames Chunks Hello Fragment Reassembly

/-! ## What a send emits -/

def Reliable (c : Conn) : Prop := ∀ k, c.fails k = none

/-- On a connection that takes every write, `x` returns `a` and has written
exactly `bs`. -/
def Emits {α : Type} (x : SendM α) (a : α) (bs : List UInt8) : Prop :=
  ∀ c, Reliable c → ∃ c', x c = (.ok a, c') ∧ Reliable c' ∧ c'.written = c.written ++ bs

theorem emits_pure {α : Type} (a : α) : Emits (pure a) a [] :=
  fun c hc => ⟨c, rfl, hc, (List.append_nil _).symm⟩

theorem emits_bind {α β : Type} {x : SendM α} {f : α → SendM β} {a : α} {b : β}
    {bs bs' : List UInt8} (hx : Emits x a bs) (hf : Emits (f a) b bs') :
    Emits (x >>= f) b (bs ++ bs') := by
  intro c hc
  obtain ⟨c1, h1, hc1, hw1⟩ := hx c hc
  obtain ⟨c2, h2, hc2, hw2⟩ := hf c1 hc1
  exact ⟨c2, bind_sent.mpr ⟨a, c1, h1, h2⟩, hc2, by rw [hw2, hw1, List.append_assoc]⟩

theorem emits_lift {α : Type} {x : Checked α} {a : α} (h : x = .ok a) : Emits (lift x) a [] :=
  fun c hc => ⟨c, lift_sent.mpr ⟨h, rfl⟩, hc, (List.append_nil _).symm⟩

theorem emits_wrap {msg : String} {x : SendM Unit} {bs : List UInt8} (h : Emits x () bs) :
    Emits (wrap msg x) () bs := by
  intro c hc
  obtain ⟨c', hx, hc', hw⟩ := h c hc
  exact ⟨c', wrap_sent.mpr hx, hc', hw⟩

theorem emits_write (p : List UInt8) : Emits (write p) () p := by
  intro c hc
  have hsend : write p c = (.ok (), { c with sent := c.sent ++ [.data p] }) := by
    rw [write, transmit, hc]
  exact ⟨_, hsend, hc, write_sent hsend⟩

/-! ## Segments -/

/-- A segment is the part that `splitAndAppend` would cut. -/
theorem segment_returns (merged : List UInt8) (n i : Nat) (hi : i < n) :
    slice merged ((i : Int) * ((merged.length / n : Nat) : Int))
      (if (i : Int) = (n : Int) - 1 then merged.length
        else (i : Int) * ((merged.length / n : Nat) : Int) + ((merged.length / n : Nat) : Int)) =
      .ok (chunkAt n merged i) := by
  have hpart := splitPart_returns merged n i hi
  unfold splitPart at hpart
  split
  · rename_i hlast
    rw [if_pos hlast] at hpart
    exact hpart
  · rename_i hlast
    rw [if_neg hlast, Int.add_mul, Int.one_mul] at hpart
    exact hpart

theorem emits_sendSegments (merged : List UInt8) (n k i : Nat) (hn : i + k = n) :
    Emits (sendSegments merged n ((merged.length / n : Nat) : Int) false k i) ()
      ((List.range' i k).map (chunkAt n merged)).flatten := by
  induction k generalizing i with
  | zero => exact emits_pure ()
  | succ k ih =>
    have hslice := segment_returns merged n i (by omega)
    rw [List.range'_succ, List.map_cons, List.flatten_cons,
      ← List.nil_append (chunkAt n merged i ++ _)]
    unfold sendSegments
    simp only [Bool.false_eq_true, and_false, ↓reduceIte]
    apply emits_bind (emits_lift hslice)
    apply emits_bind (emits_wrap (emits_write _))
    exact ih (i + 1) (by omega)

/-- The merged records arrive as they are, in however many segments. -/
theorem emits_sendMerged (merged : List UInt8) (segments : Int) (hs : 1 ≤ segments) :
    Emits (sendMerged merged segments false false) () merged := by
  obtain ⟨n, rfl⟩ : ∃ n : Nat, segments = n := ⟨segments.toNat, by omega⟩
  have hquo : quo merged.length n = .ok ((merged.length / n : Nat) : Int) := by
    rw [quo, if_neg (by omega), Int.tdiv_eq_ediv_of_nonneg (by omega)]
    rfl
  have hwhole : ((List.range' 0 n).map (chunkAt n merged)).flatten = merged := by
    rw [← List.range_eq_range']
    exact evenChunks_flatten n (by omega) merged
  unfold sendMerged
  simp only [Bool.false_eq_true, ↓reduceIte]
  rw [← List.nil_append merged]
  apply emits_bind (emits_pure _)
  split
  · exact emits_write _
  · rw [← List.nil_append merged]
    apply emits_bind (emits_lift hquo)
    rw [Int.toNat_natCast]
    nth_rewrite 3 [← hwhole]
    exact emits_sendSegments merged n n 0 (by omega)

/-- After the first record each one has a write of its own. -/
theorem emits_sendChunks (chunks : List (List UInt8)) (i : Nat) (hi : 1 ≤ i) :
    Emits (sendChunks false false i chunks) () chunks.flatten := by
  induction chunks generalizing i with
  | nil => exact emits_pure ()
  | cons chunk chunks ih =>
    unfold sendChunks
    simp only [Bool.false_eq_true, and_false, ↓reduceIte]
    rw [if_neg (show ¬ i = 0 by omega), List.flatten_cons]
    apply emits_bind (emits_wrap (emits_write _))
    exact ih (i + 1) (by omega)

/-- The first record is passed over. -/
theorem emits_sendChunks_first (chunk : List UInt8) (chunks : List (List UInt8)) :
    Emits (sendChunks false false 0 (chunk :: chunks)) () chunks.flatten := by
  unfold sendChunks
  simp only [Bool.false_eq_true, ↓reduceIte]
  rw [← List.nil_append chunks.flatten]
  apply emits_bind (emits_pure _)
  exact emits_sendChunks chunks 1 (by omega)

/-! ## The calls -/

/-- A record with a name that does not end with it is cut into at least two
records, and the first of them has bytes. -/
theorem recordChunks_cons {r : List UInt8} {info : HelloInfo}
    (hp : parseClientHello r = .ok info) (hpos : 0 < info.sniPos)
    (hlast : info.sniPos + info.sniLen < r.length) (records : Nat) (h2 : 2 ≤ records) (m : Bool) :
    ∃ first rest, recordChunks (patchMinor m r) info.sniPos info.sniLen records =
      .ok (first :: rest) ∧ first ≠ [] := by
  have hplen := patchMinor_length m r
  obtain ⟨info', hp', hloc⟩ := parseClientHello_returns r
  rw [hp] at hp'
  obtain rfl := Except.ok.inj hp'
  obtain ⟨h58, hlen⟩ : 58 ≤ info.sniPos ∧ 0 ≤ info.sniLen := by
    rcases hloc with hnone | ⟨h58, hlen, -⟩ <;> omega
  obtain ⟨cut, found, hfind⟩ : ∃ cut found,
      findLastDot (patchMinor m r) info.sniPos info.sniLen = .ok (cut, found) := by
    rcases findLastDot_returns (patchMinor m r) info.sniPos info.sniLen (by omega) hlen
      (by omega) with ⟨hs, _⟩ | ⟨i, hs, _⟩
    · exact ⟨_, _, hs⟩
    · exact ⟨_, _, hs⟩
  obtain ⟨hlo, hhi, _⟩ := findLastDot_bounds (by omega) hlen hfind
  obtain ⟨cut, rfl⟩ : ∃ n : Nat, cut = n := ⟨cut.toNat, by omega⟩
  have hret := recordChunks_returns (patchMinor m r) info.sniPos info.sniLen records cut found h2
    (by omega) (by omega) hfind
  have hmany := payloads_length (patchMinor m r) records cut h2
  cases hps : payloads (patchMinor m r) records cut with
  | nil => simp [hps] at hmany
  | cons p ps =>
    rw [hps, List.map_cons] at hret
    exact ⟨_, _, hret, by simp [makeRecord, put16]⟩

/-- What a call emits, from the records it makes. -/
theorem emits_sendRecords {r : List UInt8} {pos len : Int} {records : Nat} {m : Bool}
    {first : List UInt8} {rest : List (List UInt8)} (h2 : 2 ≤ records)
    (h : recordChunks (patchMinor m r) pos len records = .ok (first :: rest)) (segments : Int)
    (hs : segments = -1 ∨ 1 ≤ segments) :
    Emits (sendRecords r pos len records segments false false m) ()
      (if segments = -1 then rest.flatten else first ++ rest.flatten) := by
  unfold sendRecords sendPatched
  rw [if_neg (show ¬ (records : Int) = 1 by omega),
    ← List.nil_append (if segments = -1 then rest.flatten else first ++ rest.flatten)]
  apply emits_bind (emits_lift h)
  by_cases hone : segments = -1
  · rw [if_pos hone, if_pos hone]
    exact emits_sendChunks_first first rest
  · rw [if_neg hone, if_neg hone, ← List.flatten_cons]
    exact emits_sendMerged _ segments (by omega)

/-- The bytes that arrive when every write is taken. -/
def stream (r : List UInt8) (info : HelloInfo) (records segments : Int) (m : Bool) : List UInt8 :=
  (sendRecords r info.sniPos info.sniLen records segments false false m
    (Conn.fresh fun _ => none)).2.written

theorem stream_of_emits {r : List UInt8} {info : HelloInfo} {records segments : Int} {m : Bool}
    {bs : List UInt8}
    (h : Emits (sendRecords r info.sniPos info.sniLen records segments false false m) () bs) :
    stream r info records segments m = bs := by
  obtain ⟨c', hsend, _, hw⟩ := h (Conn.fresh fun _ => none) (fun _ => rfl)
  rw [stream, hsend, hw]
  rfl

/-- **Sending agrees with itself but for `segments = -1`.** With one write for
each record the first record is missing; all other numbers of segments give the
same bytes. -/
theorem streams_agree_iff {r : List UInt8} {info : HelloInfo}
    (hp : parseClientHello r = .ok info) (hpos : 0 < info.sniPos)
    (hlast : info.sniPos + info.sniLen < r.length) (records : Int) (h2 : 2 ≤ records) (m : Bool)
    (s t : Int) (hs : s = -1 ∨ 1 ≤ s) (ht : t = -1 ∨ 1 ≤ t) :
    stream r info records s m = stream r info records t m ↔ (s = -1 ↔ t = -1) := by
  obtain ⟨n, rfl⟩ : ∃ n : Nat, records = n := ⟨records.toNat, by omega⟩
  obtain ⟨first, rest, hchunks, hne⟩ := recordChunks_cons hp hpos hlast n (by omega) m
  have hshorter : rest.flatten ≠ first ++ rest.flatten := by
    intro h
    have hlen := congrArg List.length h
    rw [List.length_append] at hlen
    exact hne (List.length_eq_zero_iff.mp (by omega))
  rw [stream_of_emits (emits_sendRecords (by omega) hchunks s hs),
    stream_of_emits (emits_sendRecords (by omega) hchunks t ht)]
  by_cases h1 : s = -1 <;> by_cases h1' : t = -1
  · simp [h1, h1']
  · simpa [h1, h1'] using hshorter
  · simpa [h1, h1'] using hshorter
  · simp [h1, h1']

theorem nameFirst_merged_agree :
    parseClientHello helloNameFirst = .ok (nameFound 61) ∧
      stream helloNameFirst (nameFound 61) 4 1 true =
        stream helloNameFirst (nameFound 61) 4 3 true :=
  ⟨helloNameFirst_accepted.parsed,
    (streams_agree_iff helloNameFirst_accepted.parsed (by decide) (by decide) 4 (by decide) true 1 3
      (by decide) (by decide)).mpr (by decide)⟩

/-- Two records: with one write for each, only the second arrives. -/
theorem nameFirst_loses_first :
    Accepted helloNameFirst (nameFound 61) ∧ (61 + 3 : Int) < helloNameFirst.length ∧
      (sendRecords helloNameFirst 61 3 2 (-1) false false true (Conn.fresh fun _ => none)).1 =
        .ok () ∧
      stream helloNameFirst (nameFound 61) 2 (-1) true ≠
        stream helloNameFirst (nameFound 61) 2 1 true :=
  ⟨helloNameFirst_accepted, by decide, by decide, by decide⟩

end SniShaper.Segments
