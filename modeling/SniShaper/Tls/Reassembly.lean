import SniShaper.Tls.Fragment

/-! What fragmentation sends.

* `sendRecords_reassembles`: whatever the number of records and segments, a send
  that returns nil has written whole TLS records, at most as many as asked for
  and none empty, whose payloads put together are the client's own bytes;
* `sendRecords_safe_iff`: the call made for a client never leaves the bounds of
  its input exactly when the server name is not the last thing in the record;
* `sendRecords_splits_iff`: when the cut falls inside the name, so that no record
  carries all of it. -/

namespace SniShaper.Reassembly

open Bounds Frames Chunks Hello Fragment

/-! ## Running a send -/

theorem bind_sent {α β : Type} {x : SendM α} {f : α → SendM β} {c c' : Conn} {b : β} :
    (x >>= f) c = (.ok b, c') ↔ ∃ a c1, x c = (.ok a, c1) ∧ f a c1 = (.ok b, c') := by
  show SendM.bind x f c = _ ↔ _
  unfold SendM.bind
  split
  · rename_i a c1 hx
    simp [hx]
  · rename_i e c1 hx
    simp [hx]

theorem lift_sent {α : Type} {x : Checked α} {c c' : Conn} {a : α} :
    lift x c = (.ok a, c') ↔ x = .ok a ∧ c = c' := by
  cases x <;> simp [lift]

theorem pure_sent {α : Type} {a b : α} {c c' : Conn} :
    (pure a : SendM α) c = (.ok b, c') ↔ a = b ∧ c = c' := by
  show (Except.ok a, c) = (Except.ok b, c') ↔ _
  simp

theorem wrap_sent {msg : String} {x : SendM Unit} {c c' : Conn} :
    wrap msg x c = (.ok (), c') ↔ x c = (.ok (), c') := by
  unfold wrap
  split
  · rename_i e c1 hx
    simp [hx]
  · rfl

/-- A write that returns nil has put all its bytes on the connection. -/
theorem write_sent {p : List UInt8} {c c' : Conn} (h : write p c = (.ok (), c')) :
    c'.written = c.written ++ p := by
  unfold write transmit at h
  split at h
  · simp only [Prod.mk.injEq, true_and] at h
    subst h
    simp [Conn.written, Packet.bytes]
  · simp at h

/-- The segments that are left, in order. -/
theorem sendSegments_sent (merged : List UInt8) (n : Nat) (k i : Nat) (c c' : Conn)
    (hn : i + k = n)
    (h : sendSegments merged n ((merged.length / n : Nat) : Int) false k i c = (.ok (), c')) :
    c'.written = c.written ++ ((List.range' i k).map (chunkAt n merged)).flatten := by
  induction k generalizing i c with
  | zero =>
    obtain ⟨_, rfl⟩ := pure_sent.mp h
    simp
  | succ k ih =>
    unfold sendSegments at h
    simp only [Bool.false_eq_true, and_false, ↓reduceIte] at h
    obtain ⟨part, c1, hcut, hsend⟩ := bind_sent.mp h
    obtain ⟨hp, rfl⟩ := lift_sent.mp hcut
    obtain ⟨_, c2, hfirst, hmore⟩ := bind_sent.mp hsend
    have hw := write_sent (wrap_sent.mp hfirst)
    have hrest := ih (i + 1) c2 (by omega) hmore
    have hpart : part = chunkAt n merged i := by
      obtain ⟨hb, rfl⟩ := (slice_eq_ok_iff _ _ _ _).mp hp
      have hcast : ((i : Int) * ((merged.length / n : Nat) : Int)).toNat =
          i * (merged.length / n) := by
        rw [← Int.natCast_mul]
        exact Int.toNat_natCast _
      rw [chunkAt, hcast]
      split
      · rename_i hlast
        rw [if_pos (by omega)]
        refine List.take_of_length_le ?_
        simp only [List.length_drop]
        omega
      · rename_i hlast
        rw [if_neg (by omega)]
        congr 1
        omega
    rw [hrest, hw, List.range'_succ, List.map_cons, List.flatten_cons, List.append_assoc, hpart]

/-- However the merged records are cut into segments, they are what arrives. -/
theorem sendMerged_sent (merged : List UInt8) (segments : Int) (hs : 1 ≤ segments) (c c' : Conn)
    (h : sendMerged merged segments false false c = (.ok (), c')) :
    c'.written = c.written ++ merged := by
  unfold sendMerged at h
  simp only [Bool.false_eq_true, ↓reduceIte] at h
  obtain ⟨m, c1, hm, hsend⟩ := bind_sent.mp h
  obtain ⟨rfl, rfl⟩ := pure_sent.mp hm
  split at hsend
  · exact write_sent hsend
  · obtain ⟨base, c2, hquo, hloop⟩ := bind_sent.mp hsend
    obtain ⟨hb, rfl⟩ := lift_sent.mp hquo
    obtain ⟨n, rfl⟩ : ∃ n : Nat, segments = n := ⟨segments.toNat, by omega⟩
    have hbase : base = ((merged.length / n : Nat) : Int) := by
      have hne : ¬ (n : Int) = 0 := by omega
      simp only [quo, hne, ↓reduceIte, Except.ok.injEq] at hb
      rw [← hb, Int.tdiv_eq_ediv_of_nonneg (by omega)]
      rfl
    rw [hbase, Int.toNat_natCast] at hloop
    have hsent := sendSegments_sent merged n n 0 c c' (by omega) hloop
    rw [hsent, ← List.range_eq_range']
    exact congrArg _ (evenChunks_flatten n (by omega) merged)

/-! ## Cutting into records -/

/-- The payloads `splitAndAppend` makes of one half. -/
def parts (n : Nat) (data : List UInt8) : List (List UInt8) :=
  if n = 1 ∨ data.length < n then [data] else evenChunks n data

theorem parts_flatten (n : Nat) (hn : 1 ≤ n) (data : List UInt8) :
    (parts n data).flatten = data := by
  unfold parts
  split
  · simp
  · exact evenChunks_flatten n hn data

theorem parts_ne_nil (n : Nat) (hn : 1 ≤ n) (data : List UInt8) (hd : data ≠ []) :
    ∀ p ∈ parts n data, p ≠ [] := by
  unfold parts
  split
  · simpa using hd
  · exact evenChunks_ne_nil n data hn (by omega)

theorem parts_length (n : Nat) (hn : 1 ≤ n) (data : List UInt8) :
    1 ≤ (parts n data).length ∧ (parts n data).length ≤ n := by
  unfold parts
  split
  · simpa using hn
  · rw [evenChunks_length]
    omega

theorem splitPart_returns (data : List UInt8) (n i : Nat) (hi : i < n) :
    splitPart data n ((data.length / n : Nat) : Int) i = .ok (chunkAt n data i) := by
  have hle : (i + 1) * (data.length / n) ≤ data.length :=
    Nat.le_trans (Nat.mul_le_mul_right _ hi) (Nat.mul_div_le data.length n)
  unfold splitPart chunkAt
  generalize data.length / n = base at hle ⊢
  rw [show (i : Int) * (base : Int) = ((i * base : Nat) : Int) from (Int.natCast_mul _ _).symm,
    show ((i : Int) + 1) * (base : Int) = (((i + 1) * base : Nat) : Int) from
      (Int.natCast_mul (i + 1) base).symm]
  rw [Nat.succ_mul] at hle ⊢
  generalize i * base = lo at hle ⊢
  split
  · rw [sliceFrom_ok _ _ (by omega) (by omega), if_pos (by omega), Int.toNat_natCast]
  · rw [slice_ok _ _ _ (by omega) (by omega) (by omega), if_neg (by omega), Int.toNat_natCast]
    congr 2
    omega

/-- The loop never leaves the data, and appends the pieces that are left. -/
theorem splitLoop_returns (data : List UInt8) (header : Option (List UInt8)) (n k i : Nat)
    (result : List (List UInt8)) (hn : i + k = n) :
    splitLoop data header n ((data.length / n : Nat) : Int) k i result =
      .ok (result ++ (List.range' i k).map (fun j => addHeader header (chunkAt n data j))) := by
  induction k generalizing i result with
  | zero => simp [splitLoop, pure, Except.pure]
  | succ k ih =>
    unfold splitLoop
    rw [splitPart_returns data n i (by omega)]
    simp only [bind, Except.bind]
    rw [ih (i + 1) _ (by omega), List.range'_succ]
    simp

theorem splitAndAppend_returns (data : List UInt8) (header : Option (List UInt8)) (n : Nat)
    (hn : 1 ≤ n) (result : List (List UInt8)) :
    splitAndAppend data header n result =
      .ok (result ++ (parts n data).map (addHeader header)) := by
  unfold splitAndAppend parts
  rw [if_neg (by omega)]
  by_cases hone : n = 1 ∨ data.length < n
  · rw [if_pos (by omega), if_pos hone]
    rfl
  · have hbase : (data.length : Int).tdiv n = ((data.length / n : Nat) : Int) := by
      rw [Int.tdiv_eq_ediv_of_nonneg (by omega)]
      rfl
    rw [if_neg (by omega), if_neg hone, hbase, Int.toNat_natCast,
      splitLoop_returns data header n n 0 result (by omega), evenChunks, List.map_map,
      ← List.range_eq_range']
    rfl

/-! ## The cut -/

/-- Byte `i` exists and is a dot. -/
def IsDot (data : List UInt8) (i : Int) : Prop := index data i = .ok dot

instance (data : List UInt8) (i : Int) : Decidable (IsDot data i) :=
  inferInstanceAs (Decidable (_ = _))

/-- What the downward scan over `[lo, lo + k)` finds: the highest dot, or none. -/
theorem scanDot_returns (data : List UInt8) (lo : Int) (h0 : 0 ≤ lo) (k : Nat)
    (h : lo + k ≤ data.length) :
    (scanDot data lo k = .ok none ∧ ∀ i, lo ≤ i → i < lo + k → ¬ IsDot data i) ∨
      ∃ i, scanDot data lo k = .ok (some i) ∧ lo ≤ i ∧ i < lo + k ∧ IsDot data i ∧
        ∀ j, i < j → j < lo + k → ¬ IsDot data j := by
  induction k with
  | zero => exact Or.inl ⟨rfl, fun i h1 h2 => by omega⟩
  | succ k ih =>
    obtain ⟨b, hb, _⟩ := index_returns data (lo + k) (by omega) (by omega)
    unfold scanDot
    simp only [hb, bind, Except.bind]
    by_cases hdot : b = dot
    · subst hdot
      exact Or.inr ⟨lo + k, by simp [pure, Except.pure], by omega, by omega, hb,
        fun j h1 h2 => by omega⟩
    · have hno : ¬ IsDot data (lo + k) := by
        intro h'
        rw [IsDot, hb] at h'
        exact hdot (Except.ok.inj h')
      have hext : ∀ j, j < lo + (k + 1 : Nat) → j < lo + k ∨ j = lo + k := by omega
      rw [if_neg hdot]
      rcases ih (by omega) with ⟨hs, hnone⟩ | ⟨i, hs, h1, h2, h3, h4⟩
      · refine Or.inl ⟨hs, fun i h1 h2 => ?_⟩
        rcases hext i h2 with h' | rfl
        · exact hnone i h1 h'
        · exact hno
      · refine Or.inr ⟨i, hs, h1, by omega, h3, fun j hj1 hj2 => ?_⟩
        rcases hext j hj2 with h' | rfl
        · exact h4 j hj1 h'
        · exact hno

/-- The scan starts one byte after the name, so it needs that byte. -/
theorem findLastDot_faults (data : List UInt8) (pos len : Int) (hl : 0 ≤ len)
    (h : data.length ≤ pos + len) : findLastDot data pos len = .error .outOfRange := by
  obtain ⟨n, rfl⟩ : ∃ n : Nat, len = n := ⟨len.toNat, by omega⟩
  have hk : ((n : Int) + 1).toNat = n + 1 := by omega
  have hfault := index_faults data (pos + n) h
  unfold findLastDot
  rw [hk, scanDot, hfault]
  rfl

/-- The cut is the highest dot from the name's first byte to the byte after the
name, or the middle of the name when there is none. -/
theorem findLastDot_returns (data : List UInt8) (pos len : Int) (h0 : 0 ≤ pos) (hl : 0 ≤ len)
    (h : pos + len < data.length) :
    (findLastDot data pos len = .ok (len / 2 + pos, false) ∧
        ∀ i, pos ≤ i → i ≤ pos + len → ¬ IsDot data i) ∨
      ∃ i, findLastDot data pos len = .ok (i, true) ∧ pos ≤ i ∧ i ≤ pos + len ∧ IsDot data i ∧
        ∀ j, i < j → j ≤ pos + len → ¬ IsDot data j := by
  have hk : ((len + 1).toNat : Int) = len + 1 := by omega
  unfold findLastDot
  rw [Int.tdiv_eq_ediv_of_nonneg hl]
  rcases scanDot_returns data pos h0 (len + 1).toNat (by omega) with
    ⟨hs, hnone⟩ | ⟨i, hs, h1, h2, h3, h4⟩
  · exact Or.inl ⟨by rw [hs]; rfl, fun i h1 h2 => hnone i h1 (by omega)⟩
  · exact Or.inr ⟨i, by rw [hs]; rfl, h1, by omega, h3, fun j hj1 hj2 => h4 j hj1 (by omega)⟩

theorem findLastDot_bounds {data : List UInt8} {pos len cut : Int} {found : Bool} (h0 : 0 ≤ pos)
    (hl : 0 ≤ len) (h : findLastDot data pos len = .ok (cut, found)) :
    pos ≤ cut ∧ cut ≤ pos + len ∧ pos + len < data.length := by
  have hin : pos + len < data.length := by
    by_contra hout
    rw [findLastDot_faults data pos len hl (by omega)] at h
    cases h
  rcases findLastDot_returns data pos len h0 hl hin with ⟨hs, _⟩ | ⟨i, hs, h1, h2, _⟩
  · rw [hs] at h
    obtain ⟨rfl, _⟩ := Prod.mk.inj (Except.ok.inj h)
    omega
  · rw [hs] at h
    obtain ⟨rfl, _⟩ := Prod.mk.inj (Except.ok.inj h)
    omega

/-- **Where the cut falls.** It is inside the name unless the byte after the name
is a dot, or the only dot of the name is its first byte. -/
theorem findLastDot_inside_iff (data : List UInt8) (pos len : Int) (h0 : 0 ≤ pos) (hl : 2 ≤ len) :
    (∃ cut found, findLastDot data pos len = .ok (cut, found) ∧ pos < cut ∧ cut < pos + len) ↔
      pos + len < data.length ∧ ¬ IsDot data (pos + len) ∧
        (¬ IsDot data pos ∨ ∃ i, pos < i ∧ i < pos + len ∧ IsDot data i) := by
  constructor
  · rintro ⟨cut, found, h, hlo, hhi⟩
    obtain ⟨_, _, hin⟩ := findLastDot_bounds h0 (by omega) h
    rcases findLastDot_returns data pos len h0 (by omega) hin with
      ⟨_, hnone⟩ | ⟨i, hs, h1, h2, h3, h4⟩
    · exact ⟨hin, hnone _ (by omega) (by omega), Or.inl (hnone _ (by omega) (by omega))⟩
    · rw [hs] at h
      obtain ⟨rfl, _⟩ := Prod.mk.inj (Except.ok.inj h)
      exact ⟨hin, h4 _ hhi (by omega), Or.inr ⟨i, hlo, hhi, h3⟩⟩
  · rintro ⟨hin, hafter, hdot⟩
    rcases findLastDot_returns data pos len h0 (by omega) hin with
      ⟨hs, _⟩ | ⟨i, hs, h1, h2, h3, h4⟩
    · exact ⟨_, _, hs, by omega, by omega⟩
    · have hne : i ≠ pos + len := by
        rintro rfl
        exact hafter h3
      refine ⟨i, true, hs, ?_, by omega⟩
      rcases hdot with hfirst | ⟨j, hj1, hj2, hj3⟩
      · have : i ≠ pos := by
          rintro rfl
          exact hfirst h3
        omega
      · by_contra hle
        exact h4 j (by omega) (by omega) hj3

/-! ## The records of a client -/

theorem makeRecord_eq_encode (header payload : List UInt8) (h : header.length = 3) :
    makeRecord header payload = Frame.encode ⟨header, payload⟩ := by
  simp [makeRecord, Frame.encode, ← h]

/-- The two halves around the cut, each in its chunks. -/
def payloads (r : List UInt8) (records : Nat) (cut : Nat) : List (List UInt8) :=
  parts (records / 2) ((r.drop 5).take (cut - 5)) ++ parts (records - records / 2) (r.drop cut)

theorem recordChunks_returns (r : List UInt8) (pos len : Int) (records cut : Nat) (found : Bool)
    (h2 : 2 ≤ records) (h5 : 5 ≤ cut) (hcut : cut < r.length)
    (hfind : findLastDot r pos len = .ok ((cut : Int), found)) :
    recordChunks r pos len records =
      .ok ((payloads r records cut).map (makeRecord (r.take 3))) := by
  have hhalf : (records : Int).tdiv 2 = ((records / 2 : Nat) : Int) := by
    rw [Int.tdiv_eq_ediv_of_nonneg (by omega)]
    rfl
  have hrest : (records : Int) - ((records / 2 : Nat) : Int) = ((records - records / 2 : Nat) : Int) := by
    omega
  have hcap : makeCap (records : Int) = .ok [] := by
    simp [makeCap, pure, Except.pure]
  have hleft : slice r 5 cut = .ok ((r.drop 5).take (cut - 5)) := by
    rw [slice_ok r 5 cut (by omega) (by omega) (by omega)]
    congr 2
    omega
  have hheader : slice r 0 3 = .ok (r.take 3) := by
    rw [slice_ok r 0 3 (by omega) (by omega) (by omega)]
    rfl
  have hright : sliceFrom r cut = .ok (r.drop cut) := by
    rw [sliceFrom_ok r cut (by omega) (by omega)]
    rfl
  unfold recordChunks
  simp only [hhalf, hrest, hcap, hfind, hheader, hleft, hright, bind, Except.bind]
  rw [splitAndAppend_returns _ _ _ (by omega)]
  simp only
  rw [splitAndAppend_returns _ _ _ (by omega)]
  simp only [payloads, List.map_append, List.nil_append]
  rfl

theorem payloads_flatten (r : List UInt8) (records cut : Nat) (h2 : 2 ≤ records) (h5 : 5 ≤ cut) :
    (payloads r records cut).flatten = r.drop 5 := by
  rw [payloads, List.flatten_append, parts_flatten _ (by omega), parts_flatten _ (by omega)]
  have hdrop : r.drop cut = (r.drop 5).drop (cut - 5) := by
    rw [List.drop_drop]
    congr 1
    omega
  rw [hdrop, List.take_append_drop]

theorem payloads_ne_nil (r : List UInt8) (records cut : Nat) (h2 : 2 ≤ records) (h5 : 5 < cut)
    (hcut : cut < r.length) : ∀ p ∈ payloads r records cut, p ≠ [] := by
  have hleft : (r.drop 5).take (cut - 5) ≠ [] := by
    rw [← List.length_pos_iff]
    simp only [List.length_take, List.length_drop]
    omega
  have hright : r.drop cut ≠ [] := by
    rw [← List.length_pos_iff]
    simp only [List.length_drop]
    omega
  intro p hp
  rcases List.mem_append.mp hp with hp | hp
  · exact parts_ne_nil _ (by omega) _ hleft p hp
  · exact parts_ne_nil _ (by omega) _ hright p hp

theorem payloads_length (r : List UInt8) (records cut : Nat) (h2 : 2 ≤ records) :
    2 ≤ (payloads r records cut).length ∧ (payloads r records cut).length ≤ records := by
  have hl := parts_length (records / 2) (by omega) ((r.drop 5).take (cut - 5))
  have hr := parts_length (records - records / 2) (by omega) (r.drop cut)
  rw [payloads, List.length_append]
  omega

theorem length_le_of_mem_flatten {p : List UInt8} {ps : List (List UInt8)} (h : p ∈ ps) :
    p.length ≤ ps.flatten.length := (List.sublist_flatten_of_mem h).length_le

/-- A record read from a client in which the parser finds a server name. -/
structure Accepted (r : List UInt8) (info : HelloInfo) : Prop where
  read : ∃ conn rest, readInitialTLSRecord conn = some (r, rest)
  parsed : parseClientHello r = .ok info
  noError : info.err = none
  pos : 0 < info.sniPos
  len : 0 < info.sniLen

theorem Accepted.bounds {r : List UInt8} {info : HelloInfo} (h : Accepted r info) :
    58 ≤ info.sniPos ∧ info.sniPos + info.sniLen ≤ r.length := by
  obtain ⟨info', hp, hl⟩ := parseClientHello_returns r
  rw [h.parsed] at hp
  cases hp
  have := h.pos
  rcases hl with hl | hl <;> omega

/-- The header and the body of the record; the body fits a length field. -/
theorem Accepted.shape {r : List UInt8} {info : HelloInfo} (h : Accepted r info) :
    ∃ t a b hi lo body, r = t :: a :: b :: hi :: lo :: body ∧ body.length < 65536 := by
  obtain ⟨conn, rest, hr⟩ := h.read
  obtain ⟨t, a, b, hi, lo, body, rfl, hl⟩ := readInitialTLSRecord_length conn r rest hr
  exact ⟨t, a, b, hi, lo, body, rfl, hl ▸ be16_lt hi lo⟩

theorem patchMinor_length (m : Bool) (r : List UInt8) : (patchMinor m r).length = r.length := by
  unfold patchMinor
  split <;> simp

/-- Only the header is modified. -/
theorem index_patchMinor (m : Bool) (r : List UInt8) (i : Int) (hi : 3 ≤ i) :
    index (patchMinor m r) i = index r i := by
  unfold patchMinor
  split
  · unfold index
    rw [List.getElem?_set_ne (by omega)]
  · rfl

theorem IsDot_patchMinor (m : Bool) (r : List UInt8) (i : Int) (hi : 3 ≤ i) :
    IsDot (patchMinor m r) i ↔ IsDot r i := by
  rw [IsDot, IsDot, index_patchMinor m r i hi]

/-- The frames on the wire for a client's record. -/
def frames (r : List UInt8) (records cut : Nat) : List Frame :=
  (payloads r records cut).map (fun p => ⟨r.take 3, p⟩)

/-- What a successful send has written: the frames of the patched record, for the
cut that the scan returned. -/
theorem sendRecords_sent {r : List UInt8} {info : HelloInfo} (ha : Accepted r info)
    (records : Nat) (segments : Int) (h2 : 2 ≤ records) (hs : 1 ≤ segments) (m : Bool)
    (fails : Nat → Option (Nat × String)) (c' : Conn)
    (h : sendRecords r info.sniPos info.sniLen records segments false false m (Conn.fresh fails) =
      (.ok (), c')) :
    ∃ (cut : Nat) (found : Bool),
      findLastDot (patchMinor m r) info.sniPos info.sniLen = .ok ((cut : Int), found) ∧
      info.sniPos ≤ cut ∧ cut < r.length ∧
      parseFrames 3 c'.written = some (frames (patchMinor m r) records cut) := by
  obtain ⟨hpos, hend⟩ := ha.bounds
  have hlen := ha.len
  have hplen := patchMinor_length m r
  unfold sendRecords sendPatched at h
  simp only [if_neg (show ¬ (records : Int) = 1 by omega),
    if_neg (show ¬ segments = -1 by omega)] at h
  obtain ⟨chunks, c1, hc, hsend⟩ := bind_sent.mp h
  obtain ⟨hchunks, rfl⟩ := lift_sent.mp hc
  -- the chunks exist, so the scan returned
  obtain ⟨cut, found, hfind⟩ : ∃ cut found,
      findLastDot (patchMinor m r) info.sniPos info.sniLen = .ok (cut, found) := by
    cases hf : findLastDot (patchMinor m r) info.sniPos info.sniLen with
    | ok v => exact ⟨v.1, v.2, rfl⟩
    | error e =>
      rw [recordChunks, show makeCap (records : Int) = .ok [] by simp [makeCap, pure, Except.pure],
        hf] at hchunks
      cases hchunks
  obtain ⟨hlo, hhi, hin⟩ := findLastDot_bounds (by omega) (by omega) hfind
  obtain ⟨cut, rfl⟩ : ∃ n : Nat, cut = n := ⟨cut.toNat, by omega⟩
  refine ⟨cut, found, hfind, hlo, by omega, ?_⟩
  have hret := recordChunks_returns (patchMinor m r) info.sniPos info.sniLen records cut found h2
    (by omega) (by omega) hfind
  rw [hret] at hchunks
  have hwritten := sendMerged_sent chunks.flatten segments hs _ c' hsend
  have htake : ((patchMinor m r).take 3).length = 3 := by
    rw [List.length_take]
    omega
  have hencode : chunks.flatten = (frames (patchMinor m r) records cut).flatMap Frame.encode := by
    rw [← Except.ok.inj hchunks, frames, List.flatMap_def, List.map_map]
    congr 1
    exact List.map_congr_left fun p _ => makeRecord_eq_encode _ p htake
  rw [hwritten, hencode]
  apply parseFrames_encode
  intro f hf
  obtain ⟨p, hp, rfl⟩ := List.mem_map.mp hf
  obtain ⟨t, a, b, hi, lo, body, rfl, hbody⟩ := ha.shape
  have hle := length_le_of_mem_flatten hp
  rw [payloads_flatten _ records cut h2 (by omega), List.length_drop, hplen] at hle
  refine ⟨htake, ?_⟩
  show p.length < 65536
  simp only [List.length_cons] at hle
  omega

/-! ## Reassembly -/

theorem patchMinor_take (m : Bool) (t a b : UInt8) (rest : List UInt8) :
    (patchMinor m (t :: a :: b :: rest)).take 3 = [t, a, if m then 4 else b] := by
  cases m <;> simp [patchMinor]

theorem patchMinor_drop (m : Bool) (r : List UInt8) : (patchMinor m r).drop 5 = r.drop 5 := by
  unfold patchMinor
  split
  · exact List.drop_set_of_lt (by omega)
  · rfl

theorem flatMap_payload (h : List UInt8) (ps : List (List UInt8)) :
    (ps.map (fun p => (⟨h, p⟩ : Frame))).flatMap Frame.payload = ps.flatten := by
  rw [List.flatMap_def, List.map_map]
  congr 1
  exact List.map_id ps

/-- **Reassembly.** A send that returns nil has put on the wire between two and
`records` whole TLS records with the type and version bytes of the client's
record (the minor version being 4 when it is modified), none of them empty, and
their payloads in order are the client's own handshake bytes. -/
theorem sendRecords_reassembles {r : List UInt8} {info : HelloInfo} (ha : Accepted r info)
    (records segments : Int) (h2 : 2 ≤ records) (hs : 1 ≤ segments) (m : Bool)
    (fails : Nat → Option (Nat × String)) (c' : Conn)
    (h : sendRecords r info.sniPos info.sniLen records segments false false m (Conn.fresh fails) =
      (.ok (), c')) :
    ∃ fs : List Frame, parseFrames 3 c'.written = some fs ∧
      2 ≤ fs.length ∧ (fs.length : Int) ≤ records ∧
      (∀ f ∈ fs, f.header = [r.getD 0 0, r.getD 1 0, if m then 4 else r.getD 2 0] ∧
        f.payload ≠ []) ∧
      fs.flatMap Frame.payload = r.drop 5 := by
  obtain ⟨n, rfl⟩ : ∃ n : Nat, records = n := ⟨records.toNat, by omega⟩
  have hn : 2 ≤ n := by omega
  obtain ⟨hpos, _⟩ := ha.bounds
  obtain ⟨cut, found, _, hlo, hcut, hparse⟩ := sendRecords_sent ha n segments hn hs m fails c' h
  have hlen := payloads_length (patchMinor m r) n cut hn
  obtain ⟨t, a, b, hi, lo, body, rfl, _⟩ := ha.shape
  refine ⟨_, hparse, ?_, ?_, ?_, ?_⟩
  · simpa [frames] using hlen.1
  · simpa [frames] using hlen.2
  · intro f hf
    obtain ⟨p, hp, rfl⟩ := List.mem_map.mp hf
    refine ⟨patchMinor_take m t a b _, ?_⟩
    exact payloads_ne_nil _ n cut hn (by omega) (by rw [patchMinor_length]; exact hcut) p hp
  · rw [frames, flatMap_payload, payloads_flatten _ n cut hn (by omega), patchMinor_drop]

/-- A ClientHello with one cipher suite and the given extensions block. -/
def sampleHello (extensions : List UInt8) : List UInt8 :=
  let body := [3, 3] ++ List.replicate 32 0 ++ [0, 0, 2, 0x13, 0x01, 1, 0, 0] ++
    (UInt8.ofNat extensions.length :: extensions)
  [22, 3, 1, 0, UInt8.ofNat (body.length + 4), 1, 0, 0, UInt8.ofNat body.length] ++ body

/-- The server_name extension for `a.b`. -/
def sampleName : List UInt8 := [0, 0, 0, 8, 0, 6, 0, 0, 3, 0x61, 0x2e, 0x62]

/-- The name, then an empty key_share. -/
def helloNameFirst : List UInt8 := sampleHello (sampleName ++ [0, 0x33, 0, 0])

/-- The name in the last extension. -/
def helloNameLast : List UInt8 := sampleHello ([0, 0x33, 0, 0] ++ sampleName)

def nameFound (pos : Int) : HelloInfo := ⟨[3, 3], pos, 3, true, none⟩

theorem helloNameFirst_accepted : Accepted helloNameFirst (nameFound 61) :=
  ⟨⟨helloNameFirst, [], by decide⟩, by decide, rfl, by decide, by decide⟩

theorem helloNameLast_accepted : Accepted helloNameLast (nameFound 65) :=
  ⟨⟨helloNameLast, [], by decide⟩, by decide, rfl, by decide, by decide⟩

theorem reassembles_nameFirst :
    ∃ fs, parseFrames 3 (sendRecords helloNameFirst 61 3 4 3 false false true
        (Conn.fresh fun _ => none)).2.written = some fs ∧
      2 ≤ fs.length ∧ fs.flatMap Frame.payload = helloNameFirst.drop 5 := by
  obtain ⟨fs, h1, h2, _, _, h5⟩ := sendRecords_reassembles helloNameFirst_accepted 4 3 (by decide)
    (by decide) true (fun _ => none) _ (Prod.ext (by decide) rfl)
  exact ⟨fs, h1, h2, h5⟩

/-! ## Bounds -/

/-- The default call, once the records are known, is one write. -/
theorem sendFragmented_eq {r : List UInt8} {info : HelloInfo} {chunks : List (List UInt8)}
    (h : recordChunks (patchMinor true r) info.sniPos info.sniLen 4 = .ok chunks) (c : Conn) :
    sendFragmented r info c = write chunks.flatten c := by
  show SendM.bind (lift (recordChunks (patchMinor true r) info.sniPos info.sniLen 4)) _ c = _
  rw [h]
  rfl

theorem recordChunks_faults (r : List UInt8) (pos len : Int) (hl : 0 ≤ len)
    (h : r.length ≤ pos + len) : recordChunks r pos len 4 = .error .outOfRange := by
  unfold recordChunks
  rw [findLastDot_faults r pos len hl h]
  rfl

/-- The call for a client panics, whatever the connection does, exactly when the server name
ends at the last byte of the record. -/
theorem sendFragmented_faults_iff {r : List UInt8} {info : HelloInfo} (ha : Accepted r info)
    (c : Conn) :
    (∃ f, (sendFragmented r info c).1 = .error (.fault f)) ↔
      info.sniPos + info.sniLen = r.length := by
  obtain ⟨hpos, hend⟩ := ha.bounds
  have hlen := ha.len
  have hplen := patchMinor_length true r
  constructor
  · rintro ⟨f, hfault⟩
    by_contra hin
    obtain ⟨cut, found, hfind⟩ : ∃ cut found,
        findLastDot (patchMinor true r) info.sniPos info.sniLen = .ok (cut, found) := by
      rcases findLastDot_returns (patchMinor true r) info.sniPos info.sniLen (by omega) (by omega)
        (by omega) with ⟨hs, _⟩ | ⟨i, hs, _⟩
      · exact ⟨_, _, hs⟩
      · exact ⟨_, _, hs⟩
    obtain ⟨hlo, hhi, _⟩ := findLastDot_bounds (by omega) (by omega) hfind
    obtain ⟨cut, rfl⟩ : ∃ n : Nat, cut = n := ⟨cut.toNat, by omega⟩
    have hret := recordChunks_returns (patchMinor true r) info.sniPos info.sniLen 4 cut found
      (by omega) (by omega) (by omega) hfind
    rw [sendFragmented_eq hret] at hfault
    unfold write transmit at hfault
    split at hfault <;> cases hfault
  · intro hout
    have hf := recordChunks_faults (patchMinor true r) info.sniPos info.sniLen (by omega) (by omega)
    refine ⟨.outOfRange, ?_⟩
    show (SendM.bind (lift (recordChunks (patchMinor true r) info.sniPos info.sniLen 4)) _ _).1 = _
    rw [hf]
    rfl

/-- **Bounds.** The call made for a client stays inside its record exactly when
the server name does not end at the last byte of the record. -/
theorem sendRecords_safe_iff {r : List UInt8} {info : HelloInfo} (ha : Accepted r info) :
    (∀ fails f, (sendFragmented r info (Conn.fresh fails)).1 ≠ .error (.fault f)) ↔
      info.sniPos + info.sniLen < r.length := by
  obtain ⟨-, hend⟩ := ha.bounds
  have hfaults := fun fails => sendFragmented_faults_iff ha (Conn.fresh fails)
  constructor
  · intro hsafe
    by_contra hout
    obtain ⟨f, hf⟩ := (hfaults fun _ => none).mpr (by omega)
    exact hsafe _ f hf
  · intro hin fails f hfault
    have hout := (hfaults fails).mp ⟨f, hfault⟩
    omega

theorem safe_nameFirst :
    Accepted helloNameFirst (nameFound 61) ∧
      ∀ fails f, (sendFragmented helloNameFirst (nameFound 61) (Conn.fresh fails)).1 ≠
        .error (.fault f) :=
  ⟨helloNameFirst_accepted, (sendRecords_safe_iff helloNameFirst_accepted).mpr (by decide)⟩

/-- With the name in the last extension the scan reads one byte too far. -/
theorem nameLast_out_of_range :
    Accepted helloNameLast (nameFound 65) ∧
      (sendFragmented helloNameLast (nameFound 65) (Conn.fresh fun _ => none)).1 =
        .error (.fault .outOfRange) :=
  ⟨helloNameLast_accepted, by decide⟩

/-! ## Splitting the name -/

/-- One of the records carries all of the client's bytes from `lo` to `hi`; the
payload of the first record starts at byte 5. -/
def CarriesRange (fs : List Frame) (lo hi : Int) : Prop :=
  ∃ pre f post, fs = pre ++ f :: post ∧
    5 + ((pre.flatMap Frame.payload).length : Int) ≤ lo ∧
    hi ≤ 5 + ((pre.flatMap Frame.payload).length : Int) + f.payload.length

/-- The cut is inside the name, and no record on the wire carries the whole name. -/
def SplitsName (r : List UInt8) (info : HelloInfo) : Prop :=
  (∃ cut found, findLastDot (patchMinor true r) info.sniPos info.sniLen = .ok (cut, found) ∧
    info.sniPos < cut ∧ cut < info.sniPos + info.sniLen) ∧
  ∀ fails c' fs, sendFragmented r info (Conn.fresh fails) = (.ok (), c') →
    parseFrames 3 c'.written = some fs →
    ¬ CarriesRange fs info.sniPos (info.sniPos + info.sniLen)

/-- A record lies on one side of the cut, so a range around the cut is in none. -/
theorem frames_not_carry (r : List UInt8) (records cut : Nat) (h2 : 2 ≤ records) (h5 : 5 ≤ cut)
    (hcut : cut ≤ r.length) (lo hi : Int) (hlo : lo < cut) (hhi : cut < hi) :
    ¬ CarriesRange (frames r records cut) lo hi := by
  rintro ⟨pre, f, post, hsplit, hbefore, hafter⟩
  rw [frames, payloads, List.map_append] at hsplit
  have hleft : (((parts (records / 2) ((r.drop 5).take (cut - 5))).map
      (fun p => (⟨r.take 3, p⟩ : Frame))).flatMap Frame.payload).length = cut - 5 := by
    rw [flatMap_payload, parts_flatten _ (by omega), List.length_take, List.length_drop]
    omega
  generalize (parts (records / 2) ((r.drop 5).take (cut - 5))).map
    (fun p => (⟨r.take 3, p⟩ : Frame)) = left at hsplit hleft
  rcases List.append_eq_append_iff.mp hsplit with ⟨mid, hpre, _⟩ | ⟨mid, hl, hf⟩
  · -- the record is right of the cut
    rw [hpre, List.flatMap_append, List.length_append] at hbefore
    omega
  · cases mid with
    | nil =>
      rw [List.append_nil] at hl
      rw [← hl] at hbefore
      omega
    | cons g mid =>
      -- the record is left of the cut
      obtain ⟨rfl, _⟩ := List.cons.inj hf
      rw [hl, List.flatMap_append, List.flatMap_cons, List.length_append,
        List.length_append] at hleft
      omega

/-- **Splitting the name.** With a name of at least two bytes the cut is inside
the name, and the name in no single record, exactly when the record goes on after
the name with a byte that is not a dot, and the first byte of the name is not its
only dot. -/
theorem sendRecords_splits_iff {r : List UInt8} {info : HelloInfo} (ha : Accepted r info)
    (hname : 2 ≤ info.sniLen) :
    SplitsName r info ↔
      info.sniPos + info.sniLen < r.length ∧ ¬ IsDot r (info.sniPos + info.sniLen) ∧
        (¬ IsDot r info.sniPos ∨
          ∃ i, info.sniPos < i ∧ i < info.sniPos + info.sniLen ∧ IsDot r i) := by
  obtain ⟨hpos, hend⟩ := ha.bounds
  have hinside := findLastDot_inside_iff (patchMinor true r) info.sniPos info.sniLen (by omega) hname
  have hdot : ∀ i, info.sniPos ≤ i → (IsDot (patchMinor true r) i ↔ IsDot r i) :=
    fun i hi => IsDot_patchMinor true r i (by omega)
  have hcond : (∃ i, info.sniPos < i ∧ i < info.sniPos + info.sniLen ∧
      IsDot (patchMinor true r) i) ↔
        ∃ i, info.sniPos < i ∧ i < info.sniPos + info.sniLen ∧ IsDot r i := by
    constructor
    · rintro ⟨i, h1, h2, h3⟩
      exact ⟨i, h1, h2, (hdot i (by omega)).mp h3⟩
    · rintro ⟨i, h1, h2, h3⟩
      exact ⟨i, h1, h2, (hdot i (by omega)).mpr h3⟩
  rw [patchMinor_length, hdot _ (by omega), hdot _ (by omega), hcond] at hinside
  rw [← hinside]
  constructor
  · exact fun h => h.1
  · intro hcut
    refine ⟨hcut, fun fails c' fs hsend hparse => ?_⟩
    obtain ⟨cut, found, hfind, hlo, hhi⟩ := hcut
    obtain ⟨n, found', hfind', _, hn, hframes⟩ :=
      sendRecords_sent ha 4 1 (by decide) (by decide) true fails c' hsend
    rw [hfind] at hfind'
    obtain ⟨rfl, _⟩ := Prod.mk.inj (Except.ok.inj hfind')
    rw [hframes] at hparse
    cases hparse
    exact frames_not_carry _ 4 n (by omega) (by omega)
      (by rw [patchMinor_length]; omega) _ _ hlo hhi

theorem splits_nameFirst : SplitsName helloNameFirst (nameFound 61) :=
  (sendRecords_splits_iff helloNameFirst_accepted (by decide)).mpr
    ⟨by decide, by decide, Or.inl (by decide)⟩

/-- The name, then an empty extension whose type starts with the byte of a dot. -/
def helloDotAfter : List UInt8 := sampleHello (sampleName ++ [0x2e, 0, 0, 0])

/-- The cut falls after the name, and the second record carries all of it. -/
theorem dotAfter_carries_name :
    Accepted helloDotAfter ⟨[3, 3], 61, 3, false, none⟩ ∧
    ∃ fs, parseFrames 3 (sendFragmented helloDotAfter ⟨[3, 3], 61, 3, false, none⟩
        (Conn.fresh fun _ => none)).2.written = some fs ∧ CarriesRange fs 61 (61 + 3) := by
  refine ⟨⟨⟨helloDotAfter, [], by decide⟩, by decide, rfl, by decide, by decide⟩,
    (frames (patchMinor true helloDotAfter) 4 64), by decide, ?_⟩
  exact ⟨(frames (patchMinor true helloDotAfter) 4 64).take 1,
    (frames (patchMinor true helloDotAfter) 4 64).getD 1 ⟨[], []⟩,
    (frames (patchMinor true helloDotAfter) 4 64).drop 2, by decide, by decide, by decide⟩

end SniShaper.Reassembly
