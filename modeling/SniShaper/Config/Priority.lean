import Mathlib.Data.List.Perm.Basic
import SniShaper.Config.Mutations
import SniShaper.Lib.Slices

/-! `SetDNSNodePriority` of `proxy/proxy.go` on the slice of nodes: the node is taken out and
put in again by appends that write into the array they read from.

* `elems_moveInPlace`: the appends move the node and lose none;
* `setDNSNodePriority_refines`: the method does on the slice what `setDNSNodePriority` of the
  rule manager does on the list;
* `setDNSNodePriority_moves`: it is a move. -/

namespace SniShaper.Priority

open Config Manager Slices

/-! ## The source's method -/

/-- The appends of the method. `spare` is what a new array has left. -/
def moveInPlace (spare : List DNSNode) (h : Heap DNSNode) (dnsNodes : Slice) (node : DNSNode)
    (srcIdx targetIndex : Nat) : Heap DNSNode × Slice :=
  let (h, dnsNodes) := append spare h (dnsNodes.sub 0 srcIdx)
    (elems h (dnsNodes.sub (srcIdx + 1) dnsNodes.len))
  let (h, empty) := alloc h []
  let (h, tail) := append spare h empty (elems h (dnsNodes.sub targetIndex dnsNodes.len))
  let (h, dnsNodes) := append spare h (dnsNodes.sub 0 targetIndex) [node]
  append spare h dnsNodes (elems h tail)

/-- The target index, as the method corrects it. -/
def correctedIndex (targetIndex : Int) (length : Nat) : Int :=
  let targetIndex := if targetIndex < 0 then 0 else targetIndex
  if targetIndex ≥ length then length - 1 else targetIndex

theorem correctedIndex_eq (targetIndex : Int) {length : Nat} (h : 0 < length) :
    correctedIndex targetIndex length = clampIndex targetIndex length := by
  unfold correctedIndex clampIndex
  simp only
  omega

theorem clampIndex_lt (targetIndex : Int) {length : Nat} (h : 0 < length) :
    clampIndex targetIndex length < length := by
  unfold clampIndex
  omega

/-! ## The appends -/

variable {spare : List DNSNode} {h : Heap DNSNode} {dnsNodes : Slice} {node : DNSNode}
  {srcIdx targetIndex : Nat}

/-- The first append writes into the array it reads from, and takes the node out. -/
theorem elems_removed (hs : dnsNodes.Valid h) (hsrc : srcIdx < dnsNodes.len) :
    let r := append spare h (dnsNodes.sub 0 srcIdx)
      (elems h (dnsNodes.sub (srcIdx + 1) dnsNodes.len))
    r.2.Valid r.1 ∧ elems r.1 r.2 = (elems h dnsNodes).eraseIdx srcIdx := by
  intro r
  have hstart : (dnsNodes.sub 0 srcIdx).Valid h := hs.sub (Nat.zero_le _) hsrc.le
  refine ⟨valid_append hstart, ?_⟩
  have hlen := length_elems hs
  have hread : elems r.1 r.2 = _ := elems_append hstart
  rw [hread, elems_sub hsrc.le, elems_sub (Nat.le_refl _), List.drop_zero,
    List.take_of_length_le hlen.le, List.eraseIdx_eq_take_drop_succ]

theorem elems_inserted (hs : dnsNodes.Valid h) (htarget : targetIndex ≤ dnsNodes.len) :
    let a := alloc h []
    let tail := append spare a.1 a.2 (elems a.1 (dnsNodes.sub targetIndex dnsNodes.len))
    let front := append spare tail.1 (dnsNodes.sub 0 targetIndex) [node]
    let r := append spare front.1 front.2 (elems front.1 tail.2)
    r.2.Valid r.1 ∧
      elems r.1 r.2 =
        (elems h dnsNodes).take targetIndex ++ [node] ++ (elems h dnsNodes).drop targetIndex := by
  intro a tail front r
  -- the copied tail lies in an array of its own
  have hne : tail.2.array ≠ dnsNodes.array := array_append_alloc_ne [] hs.made
  have ha : a.2.Valid a.1 := valid_alloc h []
  have hnodes : dnsNodes.Valid a.1 := hs.concat []
  have htail : tail.2.Valid tail.1 := valid_append ha
  have hnodes' : dnsNodes.Valid tail.1 := hnodes.of_append ha
  have hstart : (dnsNodes.sub 0 targetIndex).Valid tail.1 :=
    hnodes'.sub (Nat.zero_le _) htarget
  have hfront : front.2.Valid front.1 := valid_append hstart
  refine ⟨valid_append hfront, ?_⟩
  have hlen := length_elems hs
  have hkept : elems a.1 dnsNodes = elems h dnsNodes := elems_concat hs.made _
  have hkept' : elems tail.1 dnsNodes = elems a.1 dnsNodes :=
    elems_append_of_ne hnodes.made (Nat.ne_of_lt hs.made)
  have hcopy : elems front.1 tail.2 = (elems h dnsNodes).drop targetIndex := by
    have hframe : elems front.1 tail.2 = elems tail.1 tail.2 := elems_append_of_ne htail.made hne
    have hread : elems tail.1 tail.2 = _ := elems_append ha
    have hempty : elems a.1 a.2 = [] := elems_alloc h []
    rw [hframe, hread, hempty, List.nil_append, elems_sub (Nat.le_refl _), hkept,
      List.take_of_length_le hlen.le]
  have hread : elems r.1 r.2 = _ := elems_append hfront
  have hreadFront : elems front.1 front.2 = _ := elems_append hstart
  rw [hread, hreadFront, hcopy, elems_sub htarget, hkept', hkept, List.drop_zero]

/-- The appends move the node and lose none. -/
theorem elems_moveInPlace (hs : dnsNodes.Valid h) (hnode : (elems h dnsNodes)[srcIdx]? = some node)
    (htarget : targetIndex < dnsNodes.len) :
    let r := moveInPlace spare h dnsNodes node srcIdx targetIndex
    r.2.Valid r.1 ∧ elems r.1 r.2 = moveNode (elems h dnsNodes) srcIdx targetIndex := by
  have hlen := length_elems hs
  obtain ⟨hsrc, hget⟩ := List.getElem?_eq_some_iff.mp hnode
  rw [hlen] at hsrc
  obtain ⟨hvalid, hread⟩ := @elems_removed spare h dnsNodes srcIdx hs hsrc
  have hremoved := length_elems hvalid
  rw [hread, List.length_eraseIdx_of_lt (by omega), hlen] at hremoved
  obtain ⟨hvalid', hread'⟩ := @elems_inserted spare _ _ node targetIndex hvalid (by omega)
  refine ⟨hvalid', hread'.trans ?_⟩
  have hone : ((elems h dnsNodes).drop srcIdx).take 1 = [node] := by
    rw [List.drop_eq_getElem_cons (by omega), List.take_succ_cons, List.take_zero, hget]
  rw [hread, moveNode, hone]

/-! ## The method -/

/-- The slice after the move. -/
def move (spare : List DNSNode) (st : Stored DNSNode) (srcIdx : Fin st.elems.length)
    (targetIndex : Nat) (h : targetIndex < st.slice.len) : Stored DNSNode :=
  let r := moveInPlace spare st.heap st.slice (st.elems.get srcIdx) srcIdx targetIndex
  ⟨r.1, r.2, (elems_moveInPlace st.valid (List.getElem?_eq_getElem srcIdx.isLt) h).1⟩

theorem elems_move (st : Stored DNSNode) (srcIdx : Fin st.elems.length) {targetIndex : Nat}
    (h : targetIndex < st.slice.len) :
    (move spare st srcIdx targetIndex h).elems = moveNode st.elems srcIdx targetIndex :=
  (elems_moveInPlace st.valid (List.getElem?_eq_getElem srcIdx.isLt) h).2

theorem toNat_correctedIndex_lt (st : Stored DNSNode) (srcIdx : Fin st.elems.length)
    (targetIndex : Int) : (correctedIndex targetIndex st.slice.len).toNat < st.slice.len := by
  have hlen : 0 < st.slice.len := length_elems st.valid ▸ Nat.zero_lt_of_lt srcIdx.isLt
  rw [correctedIndex_eq targetIndex hlen, Int.toNat_natCast]
  exact clampIndex_lt targetIndex hlen

/-- `saved` is what `saveRulesConfig` returns. -/
def setDNSNodePriority (spare : List DNSNode) (saved : Except String Unit) (st : Stored DNSNode)
    (id : String) (targetIndex : Int) : Except String Unit × Stored DNSNode :=
  match st.elems.findFinIdx? (·.id = id) with
  | none => (.error ("dns node " ++ id ++ " not found"), st)
  | some srcIdx =>
    let target := correctedIndex targetIndex st.slice.len
    if (srcIdx : Int) = target then (.ok (), st)
    else (saved, move spare st srcIdx target.toNat (toNat_correctedIndex_lt st srcIdx targetIndex))

theorem setDNSNodePriority_absent {st : Stored DNSNode} {id : String}
    (hfind : st.elems.findFinIdx? (·.id = id) = none) (saved : Except String Unit)
    (targetIndex : Int) :
    setDNSNodePriority spare saved st id targetIndex =
      (.error ("dns node " ++ id ++ " not found"), st) := by
  rw [setDNSNodePriority, hfind]

/-- A node that is found is moved; where it stands already, nothing is saved. -/
theorem setDNSNodePriority_found {st : Stored DNSNode} {id : String}
    {srcIdx : Fin st.elems.length} (hfind : st.elems.findFinIdx? (·.id = id) = some srcIdx)
    (saved : Except String Unit) (targetIndex : Int) {target : Nat}
    (htarget : target = clampIndex targetIndex st.elems.length)
    {r : Except String Unit × Stored DNSNode}
    (hr : r = setDNSNodePriority spare saved st id targetIndex) :
    ((srcIdx : Nat) = target ∧ r = (.ok (), st)) ∨
      ((srcIdx : Nat) ≠ target ∧ r.1 = saved ∧ r.2.elems = moveNode st.elems srcIdx target) := by
  have hpos : 0 < st.elems.length := Nat.zero_lt_of_lt srcIdx.isLt
  have hcorrected : correctedIndex targetIndex st.slice.len = target := by
    rw [← length_elems st.valid, htarget]
    exact correctedIndex_eq targetIndex hpos
  simp only [setDNSNodePriority, hfind] at hr
  split at hr
  · rename_i heq
    rw [hcorrected] at heq
    exact .inl ⟨by exact_mod_cast heq, hr⟩
  · rename_i hne
    rw [hcorrected] at hne
    refine .inr ⟨by exact_mod_cast hne, congrArg Prod.fst hr, ?_⟩
    have helems := congrArg (fun r => r.2.elems) hr
    rw [elems_move, hcorrected, Int.toNat_natCast] at helems
    exact helems

/-- On the slice the method does what it does on the list. -/
theorem setDNSNodePriority_refines (saved : Except String Unit) {rm : RuleManager}
    {st : Stored DNSNode} (hst : st.elems = rm.dnsNodes) (id : String) (targetIndex : Int) :
    let r := setDNSNodePriority spare saved st id targetIndex
    let call := saveIfChanged saved rm (Manager.setDNSNodePriority rm id targetIndex)
    r.1 = call.1 ∧ r.2.elems = call.2.dnsNodes := by
  intro r call
  have hcall : call = saveIfChanged saved rm (Manager.setDNSNodePriority rm id targetIndex) := rfl
  rw [Manager.setDNSNodePriority, ← hst, List.findIdx?_eq_map_findFinIdx?_val] at hcall
  cases hfind : st.elems.findFinIdx? (·.id = id) with
  | none =>
    have hr : r = _ := setDNSNodePriority_absent hfind saved targetIndex
    rw [hr, hcall, hfind]
    exact ⟨rfl, hst⟩
  | some srcIdx =>
    have hr : r = setDNSNodePriority spare saved st id targetIndex := rfl
    simp only [hfind, Option.map_some] at hcall
    rcases setDNSNodePriority_found hfind saved targetIndex rfl hr with
      ⟨heq, hsame⟩ | ⟨hne, hresult, helems⟩
    · rw [if_pos heq] at hcall
      rw [hsame, hcall]
      exact ⟨rfl, hst⟩
    · rw [if_neg hne] at hcall
      rw [hresult, helems, hcall]
      exact ⟨rfl, rfl⟩

/-! ## The move -/

section

variable {α : Type} {l : List α} {src target : Nat}

theorem moveNode_eq (hsrc : src < l.length) :
    moveNode l src target =
      (l.eraseIdx src).take target ++ [l[src]] ++ (l.eraseIdx src).drop target := by
  rw [moveNode, List.drop_eq_getElem_cons hsrc, List.take_succ_cons, List.take_zero]

theorem moveNode_perm (hsrc : src < l.length) (target : Nat) : (moveNode l src target).Perm l := by
  have hmiddle : (moveNode l src target).Perm
      (l[src] :: ((l.eraseIdx src).take target ++ (l.eraseIdx src).drop target)) := by
    rw [moveNode_eq hsrc, List.append_assoc]
    exact List.perm_middle
  rw [List.take_append_drop] at hmiddle
  exact hmiddle.trans (List.getElem_cons_eraseIdx_perm hsrc)

/-- What is not moved keeps its order. -/
theorem filter_moveNode {p : α → Bool} (hsrc : src < l.length) (hp : p l[src] = false)
    (target : Nat) : (moveNode l src target).filter p = l.filter p := by
  have hrest : (l.eraseIdx src).filter p = l.filter p := by
    conv_rhs => rw [← List.take_append_drop src l, List.drop_eq_getElem_cons hsrc]
    rw [List.eraseIdx_eq_take_drop_succ, List.filter_append, List.filter_append,
      List.filter_cons_of_neg (by simp [hp])]
  rw [moveNode_eq hsrc, List.filter_append, List.filter_append,
    List.filter_cons_of_neg (by simp [hp]), List.filter_nil, List.append_nil,
    ← List.filter_append, List.take_append_drop, hrest]

theorem getElem?_moveNode_target (hsrc : src < l.length) (htarget : target < l.length) :
    (moveNode l src target)[target]? = some l[src] := by
  rw [getElem?_moveNode hsrc htarget, if_neg (Nat.lt_irrefl _), if_pos rfl,
    List.getElem?_eq_getElem hsrc]

end

/-- The index that was asked for, clamped to the positions of the list. -/
theorem clampIndex_eq (targetIndex : Int) {length : Nat} (h : 0 < length) :
    (clampIndex targetIndex length : Int) = max 0 (min targetIndex (length - 1)) := by
  unfold clampIndex
  omega

/-- Reprioritising is a move: without a node of the id nothing is changed and an error is
returned; otherwise the nodes are permuted, the node stands at the target index clamped to the
list, and the others keep their order. -/
theorem setDNSNodePriority_moves (saved : Except String Unit) (st : Stored DNSNode)
    (hdistinct : (st.elems.map DNSNode.id).Nodup) (id : String) (targetIndex : Int) :
    let r := setDNSNodePriority spare saved st id targetIndex
    ((∀ n ∈ st.elems, n.id ≠ id) → r = (.error ("dns node " ++ id ++ " not found"), st)) ∧
      ∀ node ∈ st.elems, node.id = id →
        (r.1 = .ok () ∨ r.1 = saved) ∧ r.2.elems.Perm st.elems ∧
          (∃ k : Nat, (k : Int) = max 0 (min targetIndex (st.elems.length - 1)) ∧
            r.2.elems[k]? = some node) ∧
          r.2.elems.filter (·.id ≠ id) = st.elems.filter (·.id ≠ id) := by
  intro r
  cases hfind : st.elems.findFinIdx? (·.id = id) with
  | none =>
    refine ⟨fun _ => setDNSNodePriority_absent hfind saved targetIndex, fun node hnode hid => ?_⟩
    have hnone := List.findFinIdx?_eq_none_iff.mp hfind node hnode
    exact absurd hid (by simpa using hnone)
  | some srcIdx =>
    obtain ⟨hsrc, -⟩ := List.findFinIdx?_eq_some_iff.mp hfind
    have hsrcid : st.elems[srcIdx].id = id := by simpa using hsrc
    refine ⟨fun habsent => absurd hsrcid (habsent _ (List.getElem_mem _)), fun node hnode hid => ?_⟩
    -- the ids are distinct, so it is the node that was found
    obtain rfl : st.elems[srcIdx] = node :=
      List.inj_on_of_nodup_map hdistinct (List.getElem_mem _) hnode (hsrcid.trans hid.symm)
    have hpos : 0 < st.elems.length := Nat.zero_lt_of_lt srcIdx.isLt
    have hr : r = setDNSNodePriority spare saved st id targetIndex := rfl
    clear_value r
    rcases setDNSNodePriority_found hfind saved targetIndex rfl hr with
      ⟨heq, hsame⟩ | ⟨-, hresult, helems⟩
    · rw [hsame]
      refine ⟨.inl rfl, .refl _, ⟨srcIdx, ?_, List.getElem?_eq_getElem srcIdx.isLt⟩, rfl⟩
      rw [heq, clampIndex_eq targetIndex hpos]
    · refine ⟨.inr hresult, ?_, ⟨_, clampIndex_eq targetIndex hpos, ?_⟩, ?_⟩
      · rw [helems]
        exact moveNode_perm srcIdx.isLt _
      · rw [helems]
        exact getElem?_moveNode_target srcIdx.isLt (clampIndex_lt targetIndex hpos)
      · rw [helems]
        exact filter_moveNode srcIdx.isLt (by simpa using hsrcid) _

/-- Three nodes in an array with a slot to spare. -/
def threeNodes : Stored DNSNode where
  heap := [[{ id := "a" }, { id := "b" }, { id := "c" }, {}]]
  slice := ⟨0, 0, 3, 4⟩
  valid := ⟨by decide, by decide, by decide⟩

/-- The last node is put first. -/
theorem threeNodes_moved :
    (threeNodes.elems.map DNSNode.id).Nodup ∧
      (setDNSNodePriority [] (.ok ()) threeNodes "c" (-1)).2.elems.Perm threeNodes.elems ∧
      (setDNSNodePriority [] (.ok ()) threeNodes "c" (-1)).2.elems.map DNSNode.id =
        ["c", "a", "b"] := by
  have hdistinct : (threeNodes.elems.map DNSNode.id).Nodup := by decide
  obtain ⟨-, hperm, -, -⟩ :=
    (@setDNSNodePriority_moves [] (.ok ()) threeNodes hdistinct "c" (-1)).2 { id := "c" }
      (by decide) rfl
  exact ⟨hdistinct, hperm, by decide⟩

end SniShaper.Priority
