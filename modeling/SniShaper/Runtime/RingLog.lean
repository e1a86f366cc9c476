import SniShaper.Lib.Lines
import SniShaper.Lib.Slices

/-! The log buffer (`ringLogWriter` of `core_runtime.go`): texts that are written in chunks are
cut into lines, and the newest lines are kept. The characters are bytes, or those of texts.

* `write_lines`, `write_pending`: what a write leaves;
* `write_append_iff`: when two writes leave what one write of both texts leaves;
* `writes_lines`: the lines after any writes that cut no line break;
* `snapshot_newest_iff`: when a snapshot has the newest entries. -/

namespace SniShaper.RingLog

open Lines Slices LineBreaks

/-! ## The source's functions -/

/-- The lines are never more than `max`, which is not zero. -/
structure RingLogWriter (α : Type) where
  lines : Stored (List α)
  pending : List α
  max : Nat
  max_pos : 0 < max
  bounded : lines.elems.length ≤ max

def newRingLogWriter {α : Type} (max : Int) : RingLogWriter α :=
  let max := if max ≤ 0 then 1000 else max.toNat
  { lines := Stored.make [] max
    pending := []
    max := max
    max_pos := by
      simp only [max]
      split <;> omega
    bounded := by
      rw [Stored.elems_make]
      exact Nat.zero_le _ }

/-- `lines[len(lines)-max:]` -/
def window {β : Type} (max : Nat) (lines : Stored β) : Stored β :=
  lines.sub (lines.slice.len - max) lines.slice.len (Nat.sub_le _ _) (Nat.le_refl _)

/-- The two branches that drop the oldest lines: a copy where the array has grown too large,
else a shorter window on it. -/
def evict {β : Type} (max : Nat) (lines : Stored β) : Stored β :=
  if max < lines.slice.len then
    if max * 2 < lines.slice.cap then lines.copied (window max lines).elems
    else window max lines
  else lines

theorem elems_window {β : Type} (max : Nat) (lines : Stored β) :
    (window max lines).elems = lines.elems.rtake max := by
  rw [window, Stored.elems_sub_len, List.rtake, Stored.length_elems]

theorem elems_evict {β : Type} (max : Nat) (lines : Stored β) :
    (evict max lines).elems = lines.elems.rtake max := by
  unfold evict
  split
  · split
    · rw [Stored.elems_copied, elems_window]
    · exact elems_window max lines
  · rename_i hle
    rw [rtake_of_length_le (by rw [Stored.length_elems]; exact Nat.le_of_not_lt hle)]

variable {α : Type}

/-- One round of the loop in `Write`. `grow` is what a new array has left, by the capacity of
the old one. -/
def storeLine (grow : Nat → Nat) (max : Nat) (lines : Stored (List α)) (line : List α) :
    Stored (List α) :=
  if line = [] then lines
  else evict max (lines.append (List.replicate (grow lines.slice.cap) []) [line])

variable (grow : Nat → Nat)

theorem elems_storeLine {max : Nat} {lines : Stored (List α)} (h : lines.elems.length ≤ max)
    (line : List α) :
    (storeLine grow max lines line).elems =
      (lines.elems ++ [line].filter (· ≠ [])).rtake max := by
  unfold storeLine
  split
  · rename_i hempty
    simp [hempty, rtake_of_length_le h]
  · rename_i hline
    rw [elems_evict, Stored.elems_append]
    simp [hline]

/-- The loop keeps the newest of the lines that are not empty. -/
theorem elems_storeLines {max : Nat} (parts : List (List α)) {lines : Stored (List α)}
    (h : lines.elems.length ≤ max) :
    (parts.foldl (storeLine grow max) lines).elems =
      (lines.elems ++ parts.filter (· ≠ [])).rtake max := by
  induction parts generalizing lines with
  | nil => simp [rtake_of_length_le h]
  | cons line parts ih =>
    have hstored := elems_storeLine grow h line
    have hbounded : (storeLine grow max lines line).elems.length ≤ max := by
      rw [hstored, length_rtake]
      exact Nat.min_le_left _ _
    rw [List.foldl_cons, ih hbounded, hstored, rtake_append_rtake, List.append_assoc,
      ← List.filter_append, List.singleton_append]

/-- A limit that is not positive stands for 200. -/
def snapshot (w : RingLogWriter α) (limit : Int) : List (List α) :=
  let limit := if limit ≤ 0 then 200 else limit.toNat
  let total := w.lines.slice.len
  if total = 0 then
    if w.pending ≠ [] then [w.pending] else []
  else
    let limit := if total < limit then total else limit
    let out := w.lines.elems.drop (total - limit)
    if w.pending ≠ [] then
      let out := out ++ [w.pending]
      if limit < out.length then out.drop 1 else out
    else out

theorem elems_truncated (lines : Stored (List α)) :
    (lines.sub 0 0 (Nat.le_refl 0) (Nat.zero_le _)).elems = [] := by
  rw [Stored.elems_sub, List.take_zero, List.drop_nil]

def clear (w : RingLogWriter α) : RingLogWriter α :=
  { w with
    lines := w.lines.sub 0 0 (Nat.le_refl 0) (Nat.zero_le _)
    pending := []
    bounded := by
      rw [elems_truncated]
      exact Nat.zero_le _ }

/-- The same lines and the same pending text. -/
structure SameText (w v : RingLogWriter α) : Prop where
  lines : w.lines.elems = v.lines.elems
  pending : w.pending = v.pending

theorem SameText.trans {w v u : RingLogWriter α} (h : SameText w v) (h' : SameText v u) :
    SameText w u :=
  ⟨h.lines.trans h'.lines, h.pending.trans h'.pending⟩

/-- Nothing is stored. -/
structure Empty (w : RingLogWriter α) : Prop where
  lines : w.lines.elems = []
  pending : w.pending = []

theorem Empty.new (max : Int) : Empty (newRingLogWriter max : RingLogWriter α) :=
  ⟨Stored.elems_make _ _, rfl⟩

theorem Empty.clear (w : RingLogWriter α) : Empty (clear w) := ⟨elems_truncated w.lines, rfl⟩

variable [DecidableEq α] [LineBreaks α]

def write (w : RingLogWriter α) (p : List α) : RingLogWriter α :=
  let text := w.pending ++ unify p
  { w with
    lines := (complete lf text).foldl (storeLine grow w.max) w.lines
    pending := remainder lf text
    bounded := by
      rw [elems_storeLines grow _ w.bounded, length_rtake]
      exact Nat.min_le_left _ _ }

/-! ## What a write leaves -/

/-- The complete lines that are not empty. -/
def keptLines (text : List α) : List (List α) := (complete lf text).filter (· ≠ [])

theorem write_lines (w : RingLogWriter α) (p : List α) :
    (write grow w p).lines.elems =
      (w.lines.elems ++ keptLines (w.pending ++ unify p)).rtake w.max :=
  elems_storeLines grow _ w.bounded

theorem write_pending (w : RingLogWriter α) (p : List α) :
    (write grow w p).pending = remainder lf (w.pending ++ unify p) := rfl

theorem write_max (w : RingLogWriter α) (p : List α) : (write grow w p).max = w.max := rfl

theorem keptLines_append (s t : List α) :
    keptLines (s ++ t) = keptLines s ++ keptLines (remainder lf s ++ t) := by
  rw [keptLines, (lines_append s t).1, List.filter_append]
  rfl

/-- A line feed ends the line, which is kept unless it is empty. -/
theorem keptLines_append_cons (s t : List α) :
    keptLines (s ++ lf :: t) =
      keptLines s ++ ([remainder lf s].filter (· ≠ []) ++ keptLines t) := by
  rw [keptLines, (lines_append_cons s t).1, List.filter_append, ← List.singleton_append,
    List.filter_append]
  rfl

/-- The lines after two writes. -/
theorem write_write_lines (w : RingLogWriter α) (p q : List α) :
    (write grow (write grow w p) q).lines.elems =
      (w.lines.elems ++ keptLines (w.pending ++ unify p ++ unify q)).rtake w.max := by
  rw [write_lines, write_lines, write_pending, write_max, rtake_append_rtake, List.append_assoc,
    ← keptLines_append]

theorem write_write_pending (w : RingLogWriter α) (p q : List α) :
    (write grow (write grow w p) q).pending =
      remainder lf (w.pending ++ unify p ++ unify q) := by
  rw [write_pending, write_pending, ← (lines_append _ _).2]

/-- The line that a cut line break leaves wrong is not among the newest, or it is a lone
carriage return in place of an empty line and all lines before it are like it. -/
def CutUnseen (w : RingLogWriter α) (p q : List α) : Prop :=
  let text := w.pending ++ unify p
  let newer := (keptLines (unify q)).length
  w.max ≤ newer ∨
    remainder lf text = [cr] ∧
      List.replicate (w.max - newer) [cr] <:+ w.lines.elems ++ keptLines text

omit [DecidableEq α] in
/-- The newest entries do not tell whether a line came with a carriage return at its end. -/
theorem rtake_cut_iff (max : Nat) (A K : List (List α)) (x : List α) :
    (A ++ ([x ++ [cr]] ++ K)).rtake max = (A ++ ([x].filter (· ≠ []) ++ K)).rtake max ↔
      max ≤ K.length ∨ x = [] ∧ List.replicate (max - K.length) [cr] <:+ A := by
  rw [← List.append_assoc, ← List.append_assoc]
  rcases Nat.lt_or_ge K.length max with hlt | hle
  · have hpos : 0 < max - K.length := Nat.sub_pos_of_lt hlt
    rw [rtake_append_of_ge _ (Nat.le_of_lt hlt), rtake_append_of_ge _ (Nat.le_of_lt hlt),
      List.append_left_inj, or_iff_right (Nat.not_le_of_lt hlt)]
    -- an empty line is not kept, so there the carriage return is one entry more
    by_cases hx : x = []
    · subst hx
      simpa using rtake_concat_eq_iff hpos
    · obtain ⟨n, hn⟩ := Nat.exists_eq_succ_of_ne_zero (Nat.ne_of_gt hpos)
      have hkept : [x].filter (· ≠ []) = [x] := by simp [hx]
      rw [hkept, hn, List.rtake_concat_succ, List.rtake_concat_succ]
      simp [hx]
  · rw [rtake_append_of_le _ hle, rtake_append_of_le _ hle]
    exact ⟨fun _ => .inl hle, fun _ => rfl⟩

theorem sameText_of_whole (w : RingLogWriter α) {p q : List α} (h : ¬ SplitsBreak p q) :
    SameText (write grow (write grow w p) q) (write grow w (p ++ q)) where
  lines := by rw [write_write_lines, write_lines, unify_append h, List.append_assoc]
  pending := by rw [write_write_pending, write_pending, unify_append h, List.append_assoc]

/-- A carriage return makes the unfinished line longer. -/
theorem lines_concat_cr (s : List α) :
    keptLines (s ++ [cr]) = keptLines s ∧ remainder lf (s ++ [cr]) = remainder lf s ++ [cr] := by
  have hcr : lf ∉ [(cr : α)] := by simpa using (cr_ne_lf (α := α)).symm
  obtain ⟨hsame, hlonger⟩ := @lines_append_of_not_mem α _ lf s [cr] hcr
  exact ⟨congrArg (List.filter (· ≠ [])) hsame, hlonger⟩

/-- A chunk that ends in a line break's first half: only the line that the break ends can
differ. -/
theorem sameText_of_cut_iff (w : RingLogWriter α) (p q : List α) :
    SameText (write grow (write grow w (p ++ [cr])) (lf :: q))
        (write grow w (p ++ [cr] ++ lf :: q)) ↔
      CutUnseen w (p ++ [cr]) (lf :: q) := by
  generalize htext : w.pending ++ unify p = text
  have hcut : w.pending ++ unify (p ++ [cr]) = text ++ [cr] := by
    rw [unify_concat_cr, ← List.append_assoc, htext]
  have hwhole : w.pending ++ unify (p ++ [cr] ++ lf :: q) = text ++ lf :: unify q := by
    rw [List.append_assoc p, List.singleton_append, unify_break, ← List.append_assoc, htext]
  obtain ⟨hkept, hlonger⟩ := lines_concat_cr text
  have hended : [remainder lf text ++ [cr]].filter (· ≠ []) = [remainder lf text ++ [cr]] := by
    simp
  have htwo : (write grow (write grow w (p ++ [cr])) (lf :: q)).lines.elems =
      (w.lines.elems ++ keptLines text ++
        ([remainder lf text ++ [cr]] ++ keptLines (unify q))).rtake w.max := by
    rw [write_write_lines, hcut, unify_lf_cons, keptLines_append_cons, hkept, hlonger, hended,
      ← List.append_assoc]
  have hone : (write grow w (p ++ [cr] ++ lf :: q)).lines.elems =
      (w.lines.elems ++ keptLines text ++
        ([remainder lf text].filter (· ≠ []) ++ keptLines (unify q))).rtake w.max := by
    rw [write_lines, hwhole, keptLines_append_cons, ← List.append_assoc]
  -- the line feed ends the line either way, so what is pending comes from `q` alone
  have hpending : (write grow (write grow w (p ++ [cr])) (lf :: q)).pending =
      (write grow w (p ++ [cr] ++ lf :: q)).pending := by
    rw [write_write_pending, hcut, unify_lf_cons, write_pending, hwhole,
      (lines_append_cons _ _).2, (lines_append_cons _ _).2]
  have hnewer : keptLines (unify (lf :: q)) = keptLines (unify q) := by
    rw [unify_lf_cons]
    exact keptLines_append_cons [] (unify q)
  have hlines := rtake_cut_iff w.max (w.lines.elems ++ keptLines text) (keptLines (unify q))
    (remainder lf text)
  rw [← htwo, ← hone] at hlines
  simp only [CutUnseen, hcut, hkept, hlonger, hnewer, List.append_left_eq_self]
  rw [← hlines]
  exact ⟨SameText.lines, fun h => ⟨h, hpending⟩⟩

/-- When two writes leave what one write of both texts leaves. -/
theorem sameText_iff (w : RingLogWriter α) (p q : List α) :
    SameText (write grow (write grow w p) q) (write grow w (p ++ q)) ↔
      ¬ SplitsBreak p q ∨ CutUnseen w p q := by
  by_cases h : SplitsBreak p q
  · obtain ⟨hlast, hhead⟩ := h
    obtain ⟨p', rfl⟩ := List.getLast?_eq_some_iff.mp hlast
    obtain ⟨q', rfl⟩ := List.head?_eq_some_iff.mp hhead
    rw [sameText_of_cut_iff, or_iff_right (not_not_intro ⟨hlast, hhead⟩)]
  · exact ⟨fun _ => .inl h, fun _ => sameText_of_whole grow w h⟩

/-! ## Any number of writes -/

/-- The writer after these writes. -/
def writes (w : RingLogWriter α) (chunks : List (List α)) : RingLogWriter α :=
  chunks.foldl (write grow) w

theorem writes_max (w : RingLogWriter α) (chunks : List (List α)) :
    (writes grow w chunks).max = w.max := by
  induction chunks generalizing w with
  | nil => rfl
  | cons p chunks ih => exact ih (write grow w p)

/-- Between any two of the chunks no line break is cut. -/
def Whole (chunks : List (List α)) : Prop :=
  ∀ i ≤ chunks.length, ¬ SplitsBreak (chunks.take i).flatten (chunks.drop i).flatten

omit [DecidableEq α] in
theorem Whole.of_concat {chunks : List (List α)} {p : List α} (h : Whole (chunks ++ [p])) :
    Whole chunks := by
  rintro i hi ⟨hlast, hhead⟩
  refine h i (by rw [List.length_append]; omega) ⟨?_, ?_⟩
  · rwa [List.take_append_of_le_length hi]
  · rw [List.drop_append_of_le_length hi, List.flatten_append, List.head?_append, hhead]
    rfl

omit [DecidableEq α] in
theorem Whole.last {chunks : List (List α)} {p : List α} (h : Whole (chunks ++ [p])) :
    ¬ SplitsBreak chunks.flatten p := by
  have hcut := h chunks.length (by rw [List.length_append]; omega)
  rwa [List.take_left, List.drop_left, List.flatten_singleton] at hcut

/-- A write depends on the text alone. -/
theorem SameText.write {w v : RingLogWriter α} (h : SameText w v) (hmax : w.max = v.max)
    (p : List α) : SameText (write grow w p) (write grow v p) where
  lines := by rw [write_lines, write_lines, h.lines, h.pending, hmax]
  pending := by rw [write_pending, write_pending, h.pending]

/-- Any writes that cut no line break leave what one write of all texts leaves. -/
theorem writes_sameText {w : RingLogWriter α} (hw : Empty w) {chunks : List (List α)}
    (h : Whole chunks) : SameText (writes grow w chunks) (write grow w chunks.flatten) := by
  induction chunks using List.reverseRecOn with
  | nil =>
    have hnone : keptLines (unify ([] : List (List α)).flatten) = [] :=
      congrArg (List.filter (· ≠ [])) (lines_of_not_mem List.not_mem_nil).1
    constructor
    · rw [write_lines, hw.pending, List.nil_append, hnone, List.append_nil,
        rtake_of_length_le w.bounded]
      rfl
    · rw [write_pending, hw.pending]
      exact hw.pending
  | append_singleton chunks p ih =>
    have hbefore := ih h.of_concat
    rw [writes, List.foldl_concat, List.flatten_append, List.flatten_singleton]
    exact (hbefore.write grow (writes_max grow w chunks) p).trans
      (sameText_of_whole grow w h.last)

theorem writes_lines {w : RingLogWriter α} (hw : Empty w) {chunks : List (List α)}
    (h : Whole chunks) :
    (writes grow w chunks).lines.elems = (keptLines (unify chunks.flatten)).rtake w.max := by
  rw [(writes_sameText grow hw h).lines, write_lines, hw.lines, hw.pending, List.nil_append,
    List.nil_append]

/-- Two writes leave what one write of both texts leaves if they cut no line break, or the line
that a cut one leaves wrong is not seen; and any writes to an empty writer that cut no line
break leave the newest of the lines of all texts. -/
theorem write_chunks_iff :
    (∀ (w : RingLogWriter α) (p q : List α),
      SameText (write grow (write grow w p) q) (write grow w (p ++ q)) ↔
        ¬ SplitsBreak p q ∨ CutUnseen w p q) ∧
    ∀ (w : RingLogWriter α) (chunks : List (List α)), Empty w → Whole chunks →
      (writes grow w chunks).lines.elems =
        (keptLines (unify chunks.flatten)).rtake
          (min w.max (keptLines (unify chunks.flatten)).length) := by
  refine ⟨sameText_iff grow, fun w chunks hw h => ?_⟩
  rw [writes_lines grow hw h]
  exact rtake_eq_rtake_min _

/-- A line break that two writes cut: the line keeps the carriage return. -/
theorem write_chunks_fails :
    ∃ (w : RingLogWriter UInt8) (p q : List UInt8),
      (write (fun _ => 0) (write (fun _ => 0) w p) q).lines.elems = [[97, 13]] ∧
        (write (fun _ => 0) w (p ++ q)).lines.elems = [[97]] :=
  ⟨newRingLogWriter 3, [97, 13], [10, 98], by decide, by decide⟩

theorem write_chunks_of_whole :
    (writes (fun _ => 0) (newRingLogWriter 1 : RingLogWriter UInt8)
      [[97], [13, 10, 98], [10]]).lines.elems = [[98]] := by
  have hwhole : Whole ([[97], [13, 10, 98], [10]] : List (List UInt8)) := by
    unfold Whole
    decide
  rw [(write_chunks_iff (fun _ => 0)).2 _ _ (Empty.new 1) hwhole]
  decide

/-- What lines of texts that are written one by one leave in a writer without pending text. -/
theorem writes_of_lines {w : RingLogWriter α} (hw : w.pending = []) {lines : List (List α)}
    (h : ∀ line ∈ lines, lf ∉ line) :
    (writes grow w (lines.map (· ++ [lf]))).pending = [] ∧
      (writes grow w (lines.map (· ++ [lf]))).lines.elems =
        (w.lines.elems ++ (lines.map withoutCR).filter (· ≠ [])).rtake w.max := by
  induction lines generalizing w with
  | nil => exact ⟨hw, by simp [writes, rtake_of_length_le w.bounded]⟩
  | cons line lines ih =>
    obtain ⟨hline, hlines⟩ := List.forall_mem_cons.mp h
    have htext : w.pending ++ unify (line ++ [lf]) = withoutCR line ++ [lf] := by
      rw [hw, unify_line hline, List.nil_append]
    obtain ⟨hnone, hall⟩ := lines_of_not_mem (not_mem_withoutCR hline)
    have hpending : (write grow w (line ++ [lf])).pending = [] := by
      rw [write_pending, htext, (lines_append_cons _ []).2, (lines_of_not_mem (by simp)).2]
    have hkept : keptLines (withoutCR line ++ [lf]) = [withoutCR line].filter (· ≠ []) := by
      rw [keptLines_append_cons, keptLines, hnone, hall, keptLines,
        (lines_of_not_mem (by simp)).1]
      simp
    obtain ⟨ihpending, ihlines⟩ := ih hpending hlines
    refine ⟨ihpending, ?_⟩
    rw [List.map_cons, writes, List.foldl_cons, ← writes, ihlines, write_lines, write_max, htext,
      hkept, rtake_append_rtake, List.append_assoc, ← List.filter_append, List.singleton_append,
      List.map_cons]

/-! ## Snapshots -/

section Snapshot

variable {α : Type} (w : RingLogWriter α)

/-- The stored entries, the newest last. -/
def entries : List (List α) := w.lines.elems ++ if w.pending ≠ [] then [w.pending] else []

variable {w} {limit : Int}

theorem snapshot_of_no_lines (h : w.lines.elems = []) : snapshot w limit = entries w := by
  have htotal : w.lines.slice.len = 0 := by rw [← Stored.length_elems, h, List.length_nil]
  simp [snapshot, htotal, entries, h]

/-- Where there are complete lines, there are no more entries than these. -/
theorem snapshot_of_lines (hlimit : 0 < limit) (h : w.lines.elems ≠ []) :
    snapshot w limit = (entries w).rtake (min limit.toNat w.lines.elems.length) := by
  have hlen := w.lines.length_elems
  have hpos : 0 < w.lines.elems.length := List.length_pos_iff.mpr h
  have hclamp : (if w.lines.slice.len < limit.toNat then w.lines.slice.len else limit.toNat) =
      min limit.toNat w.lines.elems.length := by
    rw [hlen]
    split <;> omega
  simp only [snapshot, if_neg (Int.not_le.mpr hlimit), hclamp]
  rw [if_neg (by omega), ← hlen, entries]
  by_cases hpending : w.pending = []
  · simp [hpending, List.rtake]
  · have hnewest : w.lines.elems.drop
        (w.lines.elems.length - min limit.toNat w.lines.elems.length) =
          w.lines.elems.rtake (min limit.toNat w.lines.elems.length) := rfl
    have hout : (w.lines.elems.rtake (min limit.toNat w.lines.elems.length) ++
        [w.pending]).length = min limit.toNat w.lines.elems.length + 1 := by
      rw [List.length_append, length_rtake, List.length_singleton]
      omega
    rw [if_pos hpending, if_pos hpending, hnewest, hout, if_pos (Nat.lt_succ_self _),
      drop_one_rtake_concat _ (Nat.min_le_right _ _)]

/-- A snapshot of as many entries as the writer can have, when nothing is pending. -/
theorem snapshot_all (hpending : w.pending = []) (hlimit : w.max ≤ limit.toNat) :
    snapshot w limit = w.lines.elems := by
  have hentries : entries w = w.lines.elems := by simp [entries, hpending]
  by_cases hlines : w.lines.elems = []
  · rw [snapshot_of_no_lines hlines, hentries]
  · have hpos := w.max_pos
    rw [snapshot_of_lines (by omega) hlines, hentries,
      Nat.min_eq_right (Nat.le_trans w.bounded hlimit), rtake_of_length_le (Nat.le_refl _)]

theorem length_entries : (entries w).length =
    w.lines.elems.length + if w.pending ≠ [] then 1 else 0 := by
  rw [entries, List.length_append]
  split <;> rfl

/-- A snapshot has the newest entries unless the pending text makes one more than there are
complete lines and the limit asks for it. -/
theorem snapshot_newest_iff (w : RingLogWriter α) (limit : Int) (hlimit : 0 < limit) :
    snapshot w limit = (entries w).rtake (min limit.toNat (entries w).length) ↔
      limit ≤ w.lines.elems.length ∨ w.pending = [] ∨ w.lines.elems = [] := by
  by_cases hlines : w.lines.elems = []
  · have hfew : (entries w).length ≤ limit.toNat := by
      rw [length_entries, hlines, List.length_nil]
      split <;> omega
    rw [snapshot_of_no_lines hlines, ← rtake_eq_rtake_min, rtake_of_length_le hfew]
    exact ⟨fun _ => .inr (.inr hlines), fun _ => rfl⟩
  · rw [snapshot_of_lines hlimit hlines, rtake_eq_rtake_iff, length_entries]
    by_cases hpending : w.pending = []
    · rw [if_neg (not_not_intro hpending), Nat.add_zero]
      exact ⟨fun _ => .inr (.inl hpending), fun _ => rfl⟩
    · rw [if_pos hpending, or_iff_left (not_or_intro hpending hlines)]
      omega

/-- One line and a pending text, with a limit that is large enough for both. -/
theorem snapshot_newest_fails :
    ∃ w : RingLogWriter UInt8, snapshot w 200 ≠
      (entries w).rtake (min (200 : Int).toNat (entries w).length) :=
  ⟨write (fun _ => 0) (newRingLogWriter 3) [97, 10, 98], by decide⟩

theorem snapshot_newest_of_one : snapshot
    (write (fun _ => 0) (newRingLogWriter 3) [97, 10, 98] : RingLogWriter UInt8) 1 = [[98]] := by
  rw [(snapshot_newest_iff (write (fun _ => 0) (newRingLogWriter 3) [97, 10, 98]) 1
    (by decide)).mpr (.inl (by decide))]
  decide

end Snapshot

end SniShaper.RingLog
