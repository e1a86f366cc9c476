import SniShaper.Go.Numbers

/-! Every address that `IP.String` writes is read back by `ParseIP`.

* `octet_toString`, `hexNumber_hexText`: one field of an address;
* `ipv6Fields_hexGroups`: the fields of an IPv6 address;
* `zeroRun_spec`: the zeros that `::` stands for;
* `parseIP_ipString`: the round trip. -/

namespace SniShaper.Net

/-! ## IPv4 -/

/-- A number above zero is written without a leading zero. -/
theorem toDigits_head (n : Nat) (h : 0 < n) : (Nat.toDigits 10 n).head? ≠ some '0' := by
  induction n using Nat.strongRecOn with
  | ind n ih =>
    by_cases hlt : n < 10
    · have hdigit : ∀ n < 10, 0 < n → some n.digitChar ≠ some '0' := by decide
      rw [Nat.toDigits_of_lt_base hlt, List.head?_cons]
      exact hdigit n hlt h
    · rw [Nat.toDigits_of_base_le (by decide) (by omega),
        List.head?_append_of_ne_nil _ Nat.toDigits_ne_nil]
      exact ih (n / 10) (by omega) (by omega)

theorem octet_toString (b : UInt8) : octet (toString b.toNat).toList = some b := by
  have hlt := b.toNat_lt
  rw [Nat.toString_eq_ofList_toDigits, String.toList_ofList]
  have hread : Nat.toDigits 10 b.toNat ≠ [] ∧ (Nat.toDigits 10 b.toNat).all Char.isDigit ∧
      ((Nat.toDigits 10 b.toNat).length = 1 ∨ (Nat.toDigits 10 b.toNat).head? ≠ some '0') ∧
      decimal (Nat.toDigits 10 b.toNat) ≤ 255 := by
    refine ⟨Nat.toDigits_ne_nil, List.all_eq_true.mpr fun c hc => ?_, ?_, ?_⟩
    · exact Nat.isDigit_of_mem_toDigits (by decide) (by decide) hc
    · by_cases hzero : b.toNat = 0
      · rw [hzero]
        exact .inl rfl
      · exact .inr (toDigits_head _ (Nat.pos_of_ne_zero hzero))
    · rw [Numbers.decimal_toDigits]
      omega
  rw [octet, if_pos hread, Numbers.decimal_toDigits, UInt8.ofNat_toNat]

theorem splitOn_join {xs : List String} (hne : xs ≠ []) {sep : Char}
    (h : ∀ x ∈ xs, sep ∉ x.toList) :
    (Strings.join xs (String.singleton sep)).toList.splitOn sep = xs.map String.toList := by
  rw [Strings.join, String.toList_ofList, String.toList_singleton]
  exact List.splitOn_intercalate sep (by simpa using h) (by simpa using hne)

theorem parseIPv4_text (a b c d : UInt8) :
    parseIPv4 (Strings.join ([a, b, c, d].map fun b => toString b.toNat) ".").toList =
      some [a, b, c, d] := by
  have hdot : ∀ x ∈ [a, b, c, d].map (fun b => toString b.toNat), '.' ∉ x.toList := by
    intro x hx hdot
    obtain ⟨y, -, rfl⟩ := List.mem_map.mp hx
    exact absurd (toList_toString_digits hdot) (by decide)
  have hsplit := splitOn_join (by simp) hdot
  rw [parseIPv4, show "." = String.singleton '.' from rfl, hsplit]
  simp only [List.map_cons, List.map_nil, octet_toString, Option.pure_def, Option.bind_eq_bind,
    Option.bind_some]

/-! ## The groups of an IPv6 address -/

/-- The two bytes of each group. -/
def bytes (gs : List Nat) : List UInt8 :=
  gs.flatMap fun n => [UInt8.ofNat (n / 256), UInt8.ofNat n]

theorem bytes_length (gs : List Nat) : (bytes gs).length = 2 * gs.length := by
  induction gs with
  | nil => rfl
  | cons n gs ih =>
    rw [bytes, List.flatMap_cons, List.length_append, ← bytes, ih]
    simp only [List.length_cons, List.length_nil]
    omega

theorem bytes_append (gs hs : List Nat) : bytes (gs ++ hs) = bytes gs ++ bytes hs :=
  List.flatMap_append

theorem bytes_zeros (n : Nat) : bytes (List.replicate n 0) = List.replicate (2 * n) 0 := by
  induction n with
  | zero => rfl
  | succ n ih =>
    rw [List.replicate_succ, bytes, List.flatMap_cons, ← bytes, ih,
      show 2 * (n + 1) = 2 * n + 1 + 1 from rfl, List.replicate_succ, List.replicate_succ]
    rfl

theorem bytes_groups {ip : List UInt8} (h : ip.length % 2 = 0) : bytes (groups ip) = ip := by
  induction ip using groups.induct with
  | case1 hi lo rest ih =>
    have hlo := lo.toNat_lt
    have hrest : rest.length % 2 = 0 := by
      simp only [List.length_cons] at h
      omega
    have hhigh : UInt8.ofNat ((hi.toNat * 256 + lo.toNat) / 256) = hi := by
      rw [show (hi.toNat * 256 + lo.toNat) / 256 = hi.toNat by omega, UInt8.ofNat_toNat]
    have hlow : UInt8.ofNat (hi.toNat * 256 + lo.toNat) = lo := by
      apply UInt8.toNat_inj.mp
      rw [UInt8.toNat_ofNat']
      omega
    rw [groups, bytes, List.flatMap_cons, ← bytes, ih hrest, hhigh, hlow]
    rfl
  | case2 ip hshort =>
    rcases short_cases hshort with rfl | ⟨b, rfl⟩
    · rfl
    · simp at h

theorem groups_lt {ip : List UInt8} : ∀ n ∈ groups ip, n < 65536 := by
  induction ip using groups.induct with
  | case1 hi lo rest ih =>
    have hhi := hi.toNat_lt
    have hlo := lo.toNat_lt
    rw [groups]
    refine List.forall_mem_cons.mpr ⟨by omega, ih⟩
  | case2 ip hshort =>
    rcases short_cases hshort with rfl | ⟨b, rfl⟩
    · simp [groups]
    · simp [groups]

/-! ## One group -/

theorem hexValue_digitChar : ∀ d < 16, hexValue (Nat.digitChar d) = d := by decide

theorem isHexDigit_digitChar : ∀ d < 16, (Nat.digitChar d).isHexDigit = true := by decide

/-- The digits of a group, the last one and what is left of the others. -/
def hexDigits (n : Nat) : List Nat :=
  [n / 4096 % 16, n / 256 % 16, n / 16 % 16].dropWhile (· = 0) ++ [n % 16]

theorem toList_hexText (n : Nat) : (hexText n).toList = (hexDigits n).map Nat.digitChar := by
  rw [hexText, String.toList_ofList]
  rfl

theorem hexDigits_lt {n d : Nat} (h : d ∈ hexDigits n) : d < 16 := by
  rcases List.mem_append.mp h with hd | hd
  · have hmem := (List.dropWhile_suffix _).mem hd
    simp only [List.mem_cons, List.not_mem_nil, or_false] at hmem
    omega
  · rw [List.mem_singleton] at hd
    omega

theorem hexText_length (n : Nat) : (hexText n).toList ≠ [] ∧ (hexText n).toList.length ≤ 4 := by
  have hle : ([n / 4096 % 16, n / 256 % 16, n / 16 % 16].dropWhile (· = 0)).length ≤ 3 :=
    (List.dropWhile_suffix _).length_le
  rw [toList_hexText]
  refine ⟨by simp [hexDigits], ?_⟩
  rw [List.length_map, hexDigits, List.length_append, List.length_singleton]
  omega

theorem isHexDigit_hexText {n : Nat} {c : Char} (h : c ∈ (hexText n).toList) :
    c.isHexDigit = true := by
  rw [toList_hexText] at h
  obtain ⟨d, hd, rfl⟩ := List.mem_map.mp h
  exact isHexDigit_digitChar d (hexDigits_lt hd)

theorem hexNumber_digits {ds : List Nat} (h : ∀ d ∈ ds, d < 16) :
    hexNumber (ds.map Nat.digitChar) = ds.foldl (fun n d => n * 16 + d) 0 := by
  have hfold : ∀ (ds : List Nat) (m : Nat), (∀ d ∈ ds, d < 16) →
      (ds.map Nat.digitChar).foldl (fun n d => n * 16 + hexValue d) m =
        ds.foldl (fun n d => n * 16 + d) m := by
    intro ds
    induction ds with
    | nil => intros; rfl
    | cons d ds ih =>
      intro m hds
      obtain ⟨hd, hrest⟩ := List.forall_mem_cons.mp hds
      rw [List.map_cons, List.foldl_cons, List.foldl_cons, hexValue_digitChar d hd]
      exact ih _ hrest
  exact hfold ds 0 h

/-- Leading zeros do not count. -/
theorem foldl_dropWhile_zero (ds rest : List Nat) :
    (ds.dropWhile (· = 0) ++ rest).foldl (fun n d => n * 16 + d) 0 =
      (ds ++ rest).foldl (fun n d => n * 16 + d) 0 := by
  induction ds with
  | nil => rfl
  | cons d ds ih =>
    by_cases hd : d = 0
    · simpa [hd] using ih
    · simp [hd]

theorem hexNumber_hexText {n : Nat} (h : n < 65536) : hexNumber (hexText n).toList = n := by
  rw [toList_hexText, hexNumber_digits fun d => hexDigits_lt, hexDigits, foldl_dropWhile_zero]
  simp only [List.cons_append, List.nil_append, List.foldl_cons, List.foldl_nil]
  omega

/-! ## The fields -/

/-- What `ipv6Fields` does after a field. -/
def afterField (fuel : Nat) (rest : List Char) (ip : List UInt8) (ellipsis : Option Nat) :
    Option (List Char × List UInt8 × Option Nat) :=
  match rest with
  | [] => some ([], ip, ellipsis)
  | c :: rest =>
    if c ≠ ':' then none
    else match rest with
      | [] => none
      | ':' :: rest =>
        if ellipsis ≠ none then none
        else if rest = [] then some ([], ip, some ip.length)
        else ipv6Fields fuel rest ip (some ip.length)
      | c :: rest => ipv6Fields fuel (c :: rest) ip ellipsis

/-- A colon and another field. -/
theorem afterField_colon {c : Char} (hc : c ≠ ':') (fuel : Nat) (rest : List Char)
    (ip : List UInt8) (ellipsis : Option Nat) :
    afterField fuel (':' :: c :: rest) ip ellipsis = ipv6Fields fuel (c :: rest) ip ellipsis := by
  simp [afterField]

section Field

variable {n : Nat} (hn : n < 65536) (fuel : Nat) (ip : List UInt8)

/-- The digits of a group are read up to what follows it. -/
theorem takeWhile_hexText {rest : List Char} (h : ∀ c ∈ rest.head?, c = ':') :
    ((hexText n).toList ++ rest).takeWhile Char.isHexDigit = (hexText n).toList ∧
      ((hexText n).toList ++ rest).dropWhile Char.isHexDigit = rest := by
  have hdigits : ∀ c ∈ (hexText n).toList, c.isHexDigit = true := fun c => isHexDigit_hexText
  have hcolon : ':'.isHexDigit = false := by decide
  rw [List.takeWhile_append_of_pos hdigits, List.dropWhile_append_of_pos hdigits]
  cases rest with
  | nil => simp
  | cons c rest =>
    rw [h c rfl]
    simp [hcolon]

include hn

/-- One field that is not the start of an IPv4 address. -/
theorem ipv6Fields_field {rest : List Char} (h : ∀ c ∈ rest.head?, c = ':')
    (ellipsis : Option Nat) :
    ipv6Fields (fuel + 1) ((hexText n).toList ++ rest) ip ellipsis =
      afterField fuel rest (ip ++ bytes [n]) ellipsis := by
  obtain ⟨htake, hdrop⟩ := @takeWhile_hexText n rest h
  obtain ⟨hne, hlen⟩ := hexText_length n
  have hno4 : ¬ (rest.head? = some '.') := by
    intro hdot
    exact absurd (h '.' hdot) (by decide)
  have hdigits : ¬ ((hexText n).toList = [] ∨ 4 < (hexText n).toList.length) := by
    rintro (hnil | hlong)
    · exact hne hnil
    · omega
  have hbytes : bytes [n] = [UInt8.ofNat (n / 256), UInt8.ofNat n] := rfl
  rw [ipv6Fields]
  simp only [htake, hdrop, hno4, hdigits, ↓reduceIte, hexNumber_hexText hn, hbytes]
  rfl

end Field

/-- The first character of a group is a digit. -/
theorem hexGroups_head {n : Nat} {gs : List Nat} :
    ∃ c text, (hexGroups (n :: gs)).toList = c :: text ∧ c ≠ ':' := by
  cases htext : (hexText n).toList with
  | nil => exact absurd htext (hexText_length n).1
  | cons c text =>
    have hdigit : c.isHexDigit = true := isHexDigit_hexText (n := n) (by rw [htext]; simp)
    have hne : c ≠ ':' := by
      rintro rfl
      exact absurd hdigit (by decide)
    cases gs with
    | nil => exact ⟨c, text, by simp [hexGroups, Strings.join, List.intercalate, htext], hne⟩
    | cons m gs =>
      have hcons := Strings.toList_join_cons (hexText n) (hexText m) (gs.map hexText) ":"
      refine ⟨c, text ++ ":".toList ++ (hexGroups (m :: gs)).toList, ?_, hne⟩
      rw [hexGroups, List.map_cons, List.map_cons, hcons, htext]
      rfl

theorem toList_hexGroups_cons (n m : Nat) (gs : List Nat) :
    (hexGroups (n :: m :: gs)).toList =
      (hexText n).toList ++ ':' :: (hexGroups (m :: gs)).toList := by
  rw [hexGroups, List.map_cons, List.map_cons, Strings.toList_join_cons]
  simp [hexGroups]

theorem toList_hexGroups_one (n : Nat) : (hexGroups [n]).toList = (hexText n).toList := by
  simp [hexGroups, Strings.join, List.intercalate]

/-- The groups are read one after the other, and then what follows the last of them. -/
theorem ipv6Fields_hexGroups {gs : List Nat} (hne : gs ≠ []) (hgs : ∀ n ∈ gs, n < 65536)
    {fuel : Nat} (hfuel : gs.length ≤ fuel) (ip : List UInt8) (ellipsis : Option Nat) :
    ipv6Fields fuel (hexGroups gs).toList ip ellipsis = some ([], ip ++ bytes gs, ellipsis) := by
  induction gs generalizing fuel ip with
  | nil => exact absurd rfl hne
  | cons n gs ih =>
    obtain ⟨fuel, rfl⟩ : ∃ k, fuel = k + 1 := ⟨fuel - 1, by simp at hfuel; omega⟩
    obtain ⟨hn, hrest⟩ := List.forall_mem_cons.mp hgs
    cases gs with
    | nil =>
      rw [toList_hexGroups_one, ← List.append_nil (hexText n).toList,
        ipv6Fields_field hn fuel ip (by simp)]
      rfl
    | cons m gs =>
      obtain ⟨c, text, htext, hc⟩ := @hexGroups_head m gs
      rw [toList_hexGroups_cons, ipv6Fields_field hn fuel ip (by simp), htext,
        afterField_colon hc, ← htext, ih (by simp) hrest (by simpa using hfuel)]
      simp [bytes]

/-- `::` after the groups, and what follows it. -/
theorem ipv6Fields_ellipsis {gs hs : List Nat} (hne : gs ≠ []) (hgs : ∀ n ∈ gs, n < 65536)
    (hhs : ∀ n ∈ hs, n < 65536) {fuel : Nat} (hfuel : gs.length + hs.length ≤ fuel)
    (ip : List UInt8) :
    ipv6Fields fuel ((hexGroups gs).toList ++ ':' :: ':' :: (hexGroups hs).toList) ip none =
      some ([], ip ++ bytes gs ++ bytes hs, some (ip ++ bytes gs).length) := by
  induction gs generalizing fuel ip with
  | nil => exact absurd rfl hne
  | cons n gs ih =>
    obtain ⟨fuel, rfl⟩ : ∃ k, fuel = k + 1 := ⟨fuel - 1, by simp at hfuel; omega⟩
    obtain ⟨hn, hrest⟩ := List.forall_mem_cons.mp hgs
    cases gs with
    | nil =>
      rw [toList_hexGroups_one, ipv6Fields_field hn fuel ip (by simp)]
      cases hs with
      | nil => simp [afterField, hexGroups, Strings.join, List.intercalate, bytes]
      | cons m hs =>
        obtain ⟨c, text, htext, -⟩ := @hexGroups_head m hs
        have hfields := ipv6Fields_hexGroups (by simp : m :: hs ≠ []) hhs
          (by simp at hfuel ⊢; omega : (m :: hs).length ≤ fuel) (ip ++ bytes [n])
          (some (ip ++ bytes [n]).length)
        rw [htext] at hfields
        simp only [afterField, htext, ne_eq, not_true_eq_false, ↓reduceIte, reduceCtorEq, hfields]
    | cons m gs =>
      obtain ⟨c, text, htext, hc⟩ := @hexGroups_head m gs
      have hfuel' : (m :: gs).length + hs.length ≤ fuel := by
        simp at hfuel ⊢
        omega
      have hmore := ih (by simp) hrest hfuel' (ip ++ bytes [n])
      rw [htext, List.cons_append] at hmore
      rw [toList_hexGroups_cons, List.append_assoc, List.cons_append,
        ipv6Fields_field hn fuel ip (by simp), htext, List.cons_append, afterField_colon hc, hmore]
      simp [bytes]

/-! ## The run of zeros -/

/-- Where a run of zeros starts and how long it is. -/
def IsRun (gs : List Nat) (run : Nat × Nat) : Prop :=
  2 ≤ run.2 ∧ run.2 = ((gs.drop run.1).takeWhile (· = 0)).length

theorem zeroRun_isRun {gs : List Nat} {run : Nat × Nat} (h : zeroRun gs = some run) :
    IsRun gs run := by
  have hfold : ∀ (is : List Nat) (best : Option (Nat × Nat)), (∀ run ∈ best, IsRun gs run) →
      ∀ run ∈ is.foldl (fun best i =>
        let len := ((gs.drop i).takeWhile (· = 0)).length
        if 2 ≤ len ∧ (best.map Prod.snd).getD 0 < len then some (i, len) else best) best,
        IsRun gs run := by
    intro is
    induction is with
    | nil =>
      intro best hbest
      exact hbest
    | cons i is ih =>
      intro best hbest
      refine ih _ fun run hrun => ?_
      simp only at hrun
      split at hrun
      · obtain rfl := Option.some.inj hrun
        exact ⟨‹_ ∧ _›.1, rfl⟩
      · exact hbest run hrun
  exact hfold _ none (by simp) run h

theorem zeroRun_spec {gs : List Nat} {start len : Nat} (h : zeroRun gs = some (start, len)) :
    2 ≤ len ∧ gs = gs.take start ++ List.replicate len 0 ++ gs.drop (start + len) := by
  obtain ⟨hlen, hrun⟩ := zeroRun_isRun h
  simp only at hlen hrun
  refine ⟨hlen, ?_⟩
  have hzeros : (gs.drop start).takeWhile (· = 0) = List.replicate len 0 := by
    rw [List.eq_replicate_iff]
    refine ⟨hrun.symm, fun n hn => ?_⟩
    simpa using List.mem_takeWhile_imp hn
  have hafter : (gs.drop start).dropWhile (· = 0) = gs.drop (start + len) := by
    conv_rhs => rw [← List.drop_drop,
      ← List.takeWhile_append_dropWhile (p := fun n => decide (n = 0)) (l := gs.drop start), hzeros]
    rw [List.drop_left' (by simp)]
  rw [List.append_assoc, ← hzeros, ← hafter, List.takeWhile_append_dropWhile,
    List.take_append_drop]

/-! ## The round trip -/

theorem find_colon {s : List Char} (hcolon : ':' ∈ s) (hdot : '.' ∉ s) :
    s.find? (fun c => c = '.' ∨ c = ':') = some ':' := by
  induction s with
  | nil => cases hcolon
  | cons c s ih =>
    simp only [List.mem_cons, not_or] at hcolon hdot
    by_cases hc : c = ':'
    · simp [hc]
    · rw [List.find?_cons_of_neg (by simp [hc, Ne.symm hdot.1])]
      exact ih (hcolon.resolve_left (Ne.symm hc)) hdot.2

theorem find_dot {s : List Char} (hdot : '.' ∈ s) (hcolon : ':' ∉ s) :
    s.find? (fun c => c = '.' ∨ c = ':') = some '.' := by
  induction s with
  | nil => cases hdot
  | cons c s ih =>
    simp only [List.mem_cons, not_or] at hcolon hdot
    by_cases hc : c = '.'
    · simp [hc]
    · rw [List.find?_cons_of_neg (by simp [hc, Ne.symm hcolon.1])]
      exact ih (hdot.resolve_left (Ne.symm hc)) hcolon.2

theorem to4_cases {ip p4 : IP} (h : to4 ip = some p4) :
    p4.length = 4 ∧ to16 ip = some (v4Prefix ++ p4) := by
  unfold to4 at h
  split at h
  · rename_i hlen
    obtain rfl := Option.some.inj h
    exact ⟨hlen, by simp [to16, hlen]⟩
  · split at h
    · rename_i hlen
      obtain rfl := Option.some.inj h
      refine ⟨by simp [hlen.1], ?_⟩
      rw [← hlen.2, List.take_append_drop]
      simp [to16, hlen.1]
    · cases h

theorem parseIP_v4 {ip p4 : IP} (hp4 : to4 ip = some p4) :
    parseIP (ipString ip) = some (v4Prefix ++ p4) := by
  obtain ⟨a, b, c, d, rfl⟩ : ∃ a b c d, p4 = [a, b, c, d] := by
    match p4, (to4_cases hp4).1 with
    | [a, b, c, d], _ => exact ⟨a, b, c, d, rfl⟩
  have htext : ipString ip = Strings.join ([a, b, c, d].map fun b => toString b.toNat) "." := by
    rw [ipString, hp4]
  have hdot : '.' ∈ (ipString ip).toList := by
    rw [htext, List.map_cons, List.map_cons, Strings.toList_join_cons]
    simp
  have hcolon : ':' ∉ (ipString ip).toList := fun hc => (mem_ipv4Text (htext ▸ hc)).2 rfl
  have hzone : '%' ∉ (ipString ip).toList := fun hc => absurd (mem_ipString hc) (by decide)
  rw [parseIP]
  simp only [hzone, ↓reduceIte, find_dot hdot hcolon]
  rw [htext, parseIPv4_text, Option.map_some]

/-- The end of `parseIPv6`. -/
def finishIPv6 (read : List Char × List UInt8 × Option Nat) : Option (List UInt8) :=
  if read.1 ≠ [] then none
  else match read.2.2 with
    | none => if read.2.1.length = 16 then some read.2.1 else none
    | some e =>
      if read.2.1.length = 16 then none
      else some (read.2.1.take e ++ List.replicate (16 - read.2.1.length) 0 ++ read.2.1.drop e)

theorem parseIPv6_fields {c : Char} (hc : c ≠ ':') (s : List Char) :
    parseIPv6 (c :: s) = (ipv6Fields 8 (c :: s) [] none).bind finishIPv6 := by
  unfold parseIPv6
  split
  · rename_i heq
    exact absurd (List.cons.inj heq).1 hc
  · rfl

theorem parseIPv6_ellipsis {s : List Char} (hne : s ≠ []) :
    parseIPv6 (':' :: ':' :: s) = (ipv6Fields 8 s [] (some 0)).bind finishIPv6 := by
  unfold parseIPv6
  simp only [Prod.mk.injEq, hne, false_and, ↓reduceIte]
  rfl

/-- What `::` was put for is put back. -/
theorem finishIPv6_ellipsis {gs hs : List Nat} {len : Nat} (hlen : 0 < len)
    (h : gs.length + len + hs.length = 8) :
    finishIPv6 ([], bytes gs ++ bytes hs, some (bytes gs).length) =
      some (bytes (gs ++ List.replicate len 0 ++ hs)) := by
  have hshort : (bytes gs ++ bytes hs).length = 16 - 2 * len := by
    rw [List.length_append, bytes_length, bytes_length]
    omega
  have hne : (bytes gs ++ bytes hs).length ≠ 16 := by omega
  have hzeros : 16 - (bytes gs ++ bytes hs).length = 2 * len := by omega
  simp only [finishIPv6, hne, hzeros, ne_eq, not_true_eq_false, ↓reduceIte, List.take_left,
    List.drop_left, bytes_append, bytes_zeros]

theorem parseIPv6_run {gs hs : List Nat} {len : Nat} (hlen : 0 < len)
    (h : gs.length + len + hs.length = 8) (hgs : ∀ n ∈ gs, n < 65536) (hhs : ∀ n ∈ hs, n < 65536) :
    parseIPv6 ((hexGroups gs).toList ++ ':' :: ':' :: (hexGroups hs).toList) =
      some (bytes (gs ++ List.replicate len 0 ++ hs)) := by
  have hfinish := @finishIPv6_ellipsis gs hs len hlen h
  cases gs with
  | nil =>
    have hempty : (hexGroups []).toList = [] := rfl
    rw [hempty, List.nil_append]
    cases hs with
    | nil =>
      obtain rfl : len = 8 := by simpa using h
      rfl
    | cons m hs =>
      obtain ⟨c, text, htext, -⟩ := @hexGroups_head m hs
      rw [parseIPv6_ellipsis (by simp [htext]),
        ipv6Fields_hexGroups (by simp) hhs (by simp at h ⊢; omega)]
      exact hfinish
  | cons n gs =>
    obtain ⟨c, text, htext, hc⟩ := @hexGroups_head n gs
    have hfields := @ipv6Fields_ellipsis (n :: gs) hs (by simp) hgs hhs 8 (by omega) []
    rw [htext, List.cons_append] at hfields ⊢
    rw [parseIPv6_fields hc, hfields]
    exact hfinish

theorem parseIPv6_groups {gs : List Nat} (h : gs.length = 8) (hgs : ∀ n ∈ gs, n < 65536) :
    parseIPv6 (hexGroups gs).toList = some (bytes gs) := by
  cases gs with
  | nil => cases h
  | cons n gs =>
    obtain ⟨c, text, htext, hc⟩ := @hexGroups_head n gs
    have hfields := @ipv6Fields_hexGroups (n :: gs) (by simp) hgs 8 h.le [] none
    have hlen : (bytes (n :: gs)).length = 16 := by rw [bytes_length, h]
    rw [htext] at hfields ⊢
    rw [parseIPv6_fields hc, hfields]
    simp [finishIPv6, hlen]

theorem dot_not_mem_hexGroups (gs : List Nat) : '.' ∉ (hexGroups gs).toList := by
  intro hdot
  rcases Strings.mem_join hdot with hsep | ⟨x, hx, hc⟩
  · exact absurd hsep (by decide)
  · obtain ⟨n, -, rfl⟩ := List.mem_map.mp hx
    exact absurd (isHexDigit_hexText hc) (by decide)

theorem parseIP_v6 {ip : IP} (h : ip.length = 16) (hv6 : isV4 ip = false) :
    parseIP (ipString ip) = some ip := by
  have hgroups : (groups ip).length = 8 := by rw [groups_length, h]
  have hbytes : bytes (groups ip) = ip := bytes_groups (by omega)
  have hlt := @groups_lt ip
  have hzone : '%' ∉ (ipString ip).toList := fun hc => absurd (mem_ipString hc) (by decide)
  have hread : parseIPv6 (ipString ip).toList = some ip ∧ ':' ∈ (ipString ip).toList ∧
      '.' ∉ (ipString ip).toList := by
    unfold ipString
    simp only [to4_eq_none hv6]
    cases hrun : zeroRun (groups ip) with
    | none =>
      refine ⟨(parseIPv6_groups hgroups hlt).trans (by rw [hbytes]), ?_,
        dot_not_mem_hexGroups _⟩
      match groups ip, hgroups with
      | n :: m :: gs, _ => simp [toList_hexGroups_cons]
    | some run =>
      obtain ⟨start, len⟩ := run
      obtain ⟨hlen, hsplit⟩ := zeroRun_spec hrun
      have htotal : ((groups ip).take start).length + len +
          ((groups ip).drop (start + len)).length = 8 := by
        rw [← hgroups]
        conv_rhs => rw [hsplit]
        simp only [List.length_append, List.length_replicate]
      have hparse := parseIPv6_run (by omega) htotal
        (fun n hn => hlt n (List.mem_of_mem_take hn)) (fun n hn => hlt n (List.mem_of_mem_drop hn))
      rw [← hsplit, hbytes] at hparse
      simp only [String.toList_append, String.reduceToList, List.append_assoc, List.cons_append,
        List.nil_append]
      refine ⟨hparse, by simp, ?_⟩
      simp [dot_not_mem_hexGroups]
  rw [parseIP]
  simp only [hzone, ↓reduceIte, find_colon hread.2.1 hread.2.2]
  exact hread.1

/-- `ParseIP` reads what `IP.String` writes, in sixteen bytes. -/
theorem parseIP_ipString {ip : IP} (h : ip.length = 4 ∨ ip.length = 16) :
    parseIP (ipString ip) = to16 ip := by
  cases hp4 : to4 ip with
  | some p4 => rw [parseIP_v4 hp4, (to4_cases hp4).2]
  | none =>
    have hv6 : isV4 ip = false := by simp [isV4, hp4]
    have hlen := length_of_isV4_eq_false h hv6
    rw [parseIP_v6 hlen hv6]
    simp [to16, hlen]

theorem isV4_to16 {ip p16 : IP} (h : to16 ip = some p16) : isV4 p16 = isV4 ip := by
  unfold to16 at h
  split at h
  · rename_i hlen
    obtain rfl := Option.some.inj h
    have hpre : v4Prefix.length = 12 := rfl
    simp [isV4, to4, hlen, hpre]
  · split at h
    · obtain rfl := Option.some.inj h
      rfl
    · cases h

end SniShaper.Net
