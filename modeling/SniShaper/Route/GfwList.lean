import Mathlib.Data.Finset.Card
import Mathlib.Data.Finset.Lattice.Lemmas
import SniShaper.Route.Match

/-! The GFW list (`proxy/gfwlist.go`): a set of domains that is read line by line, asked about
a host and its parent domains, and kept in a cache file.

* `isBlocked_loaded_iff`: a host is blocked exactly when it is a loaded domain or ends with a
  dot and one;
* `reload_same_iff`: the cache file is read back as the same list exactly when no domain has
  grown past the scanner's limit by being lower-cased. -/

namespace SniShaper.Gfw

open Strings Match

/-! ## The source's functions -/

/-- The keys of the map, and how many lines were kept. -/
structure GFWList where
  domains : Finset String
  count : Nat
  deriving DecidableEq

def newGFWList : GFWList := ⟨∅, 0⟩

/-- `bufio.MaxScanTokenSize` -/
def maxScanTokenSize : Nat := 64 * 1024

def errTooLong : String := "bufio.Scanner: token too long"

/-- The lines that the scanner finds; behind the last newline there is none. -/
def rawLines (text : String) : List String :=
  let lines := split text '\n'
  if lines.getLast? = some "" then lines.dropLast else lines

/-- The carriage return that `bufio.ScanLines` drops. -/
def dropCR (line : String) : String := trimSuffix line "\r"

def skipped (line : String) : Bool :=
  line = "" || hasPrefix line "#" || hasPrefix line "!" || hasPrefix line "Source:" ||
    hasPrefix line "---"

/-- The iteration order of a map is any order of its keys. -/
structure Order (g : GFWList) (order : List String) : Prop where
  nodup : order.Nodup
  mem_iff : ∀ d, d ∈ order ↔ d ∈ g.domains

/-- What `SaveToFile` writes, in the order in which it finds the keys. -/
def saveToFile (order : List String) : String :=
  order.foldl (fun sb domain => sb ++ domain ++ "\n") ""

section

variable [CaseTables]

/-- The loop over the lines; a line that does not fit into the scanner's buffer ends it. -/
def loadLines : List String → Finset String → Nat → Except String (Finset String × Nat)
  | [], domains, count => .ok (domains, count)
  | raw :: rest, domains, count =>
    if maxScanTokenSize ≤ byteLen raw then .error errTooLong
    else
      let line := trimSpace (dropCR raw)
      if skipped line then loadLines rest domains count
      else loadLines rest (insert (toLower line) domains) (count + 1)

def loadFromReader (g : GFWList) (text : String) : Except String Nat × GFWList :=
  match loadLines (rawLines text) ∅ 0 with
  | .error err => (.error err, g)
  | .ok (domains, count) => (.ok count, ⟨domains, count⟩)

def isBlocked (g : GFWList) (host : String) : Bool :=
  let host := toLower (trimSpace host)
  if host = "" then false
  else if g.domains.card = 0 then false
  else if host ∈ g.domains then true
  else
    let parts := split host '.'
    (List.range' 1 (parts.length - 1)).any fun i => join (parts.drop i) "." ∈ g.domains

/-! ## The lines of a text -/

/-- The domain of a line, unless the line is skipped. -/
def domainOf (line : String) : Option String :=
  if skipped (trimSpace line) then none else some (toLower (trimSpace line))

omit [CaseTables] in
theorem trimSpace_dropCR (line : String) : trimSpace (dropCR line) = trimSpace line := by
  unfold dropCR
  cases hcr : hasSuffix line "\r" with
  | false => rw [trimSuffix, hcr]; rfl
  | true =>
    obtain ⟨s, rfl⟩ := hasSuffix_iff.mp hcr
    have hcut : trimBy isSpace (s.toList ++ ['\r']) = trimBy isSpace s.toList :=
      trimBy_concat (by decide) s.toList
    rw [trimSuffix_append, trimSpace, trimSpace, String.toList_append]
    exact congrArg String.ofList hcut.symm

/-- What the loop over the lines returns. -/
theorem loadLines_eq (lines : List String) (domains : Finset String) (count : Nat) :
    loadLines lines domains count =
      if ∀ l ∈ lines, byteLen l < maxScanTokenSize then
        .ok (domains ∪ (lines.filterMap domainOf).toFinset,
          count + (lines.filterMap domainOf).length)
      else .error errTooLong := by
  induction lines generalizing domains count with
  | nil => simp [loadLines]
  | cons raw rest ih =>
    unfold loadLines
    by_cases hlong : maxScanTokenSize ≤ byteLen raw
    · have hnot : ¬ ∀ l ∈ raw :: rest, byteLen l < maxScanTokenSize := fun h =>
        absurd (h raw (List.mem_cons_self ..)) (Nat.not_lt.mpr hlong)
      rw [if_pos hlong, if_neg hnot]
    · simp only [if_neg hlong, trimSpace_dropCR, ih, List.forall_mem_cons,
        Nat.lt_of_not_le hlong, true_and]
      cases hskip : skipped (trimSpace raw) with
      | true => simp [domainOf, hskip]
      | false =>
        simp [domainOf, hskip, Finset.insert_union, Finset.union_insert, Nat.add_assoc,
          Nat.add_comm 1]

/-- The list that a text with short lines is loaded to. -/
theorem loadFromReader_eq (g : GFWList) (text : String) :
    loadFromReader g text =
      if ∀ l ∈ rawLines text, byteLen l < maxScanTokenSize then
        (.ok ((rawLines text).filterMap domainOf).length,
          ⟨((rawLines text).filterMap domainOf).toFinset,
            ((rawLines text).filterMap domainOf).length⟩)
      else (.error errTooLong, g) := by
  rw [loadFromReader, loadLines_eq]
  by_cases hshort : ∀ l ∈ rawLines text, byteLen l < maxScanTokenSize
  · simp only [if_pos hshort, Finset.empty_union, Nat.zero_add]
  · simp only [if_neg hshort]

/-- A domain was loaded from the text: a line that was kept, trimmed and lower-cased. -/
def Loaded (text d : String) : Prop :=
  ∃ line ∈ split text '\n', skipped (trimSpace line) = false ∧ d = toLower (trimSpace line)

theorem domainOf_eq_some_iff {line d : String} :
    domainOf line = some d ↔ skipped (trimSpace line) = false ∧ d = toLower (trimSpace line) := by
  unfold domainOf
  cases skipped (trimSpace line) with
  | true => simp
  | false => simp [eq_comm]

omit [CaseTables] in
/-- The scanner misses no line but the empty text behind the last newline. -/
theorem mem_rawLines {text line : String} (h : line ∈ split text '\n') (hne : line ≠ "") :
    line ∈ rawLines text := by
  unfold rawLines
  simp only
  split
  · rename_i hlast
    obtain ⟨init, hinit⟩ := List.getLast?_eq_some_iff.mp hlast
    rw [hinit] at h ⊢
    rw [List.dropLast_concat]
    rcases List.mem_append.mp h with h | h
    · exact h
    · exact absurd (List.mem_singleton.mp h) hne
  · exact h

omit [CaseTables] in
theorem mem_split_of_mem_rawLines {text line : String} (h : line ∈ rawLines text) :
    line ∈ split text '\n' := by
  unfold rawLines at h
  simp only at h
  split at h
  · exact List.mem_of_mem_dropLast h
  · exact h

theorem mem_domains_iff {text d : String} :
    d ∈ ((rawLines text).filterMap domainOf).toFinset ↔ Loaded text d := by
  rw [List.mem_toFinset, List.mem_filterMap]
  constructor
  · rintro ⟨line, hline, hd⟩
    exact ⟨line, mem_split_of_mem_rawLines hline, domainOf_eq_some_iff.mp hd⟩
  · rintro ⟨line, hline, hd⟩
    refine ⟨line, mem_rawLines hline ?_, domainOf_eq_some_iff.mpr hd⟩
    rintro rfl
    exact absurd hd.1 (by decide)

/-- After a load that succeeds the list has the domains of the text. -/
theorem mem_loaded_iff {g g' : GFWList} {text : String} {n : Nat}
    (h : loadFromReader g text = (.ok n, g')) (d : String) : d ∈ g'.domains ↔ Loaded text d := by
  rw [loadFromReader_eq] at h
  split at h
  · rw [← (Prod.mk.inj h).2]
    exact mem_domains_iff
  · cases (Prod.mk.inj h).1

/-! ## Membership -/

omit [CaseTables] in
/-- The parents of a host, and the host itself, are the domains whose labels end its own. -/
theorem exists_parent_iff (host d : String) :
    (host = d ∨ ∃ i ∈ List.range' 1 ((split host '.').length - 1),
        join ((split host '.').drop i) "." = d) ↔
      split d '.' <:+ split host '.' := by
  rw [show ("." : String) = String.singleton '.' from rfl]
  constructor
  · rintro (rfl | ⟨i, hi, rfl⟩)
    · exact List.suffix_rfl
    · have hlt : i < (split host '.').length := by
        rw [List.mem_range'_1] at hi
        omega
      have hparts : ∀ x ∈ (split host '.').drop i, '.' ∉ x.toList := fun x hx =>
        not_mem_of_mem_split (List.mem_of_mem_drop hx)
      rw [split_join hparts (by simpa using hlt)]
      exact List.drop_suffix i _
  · rintro ⟨front, hfront⟩
    cases front with
    | nil =>
      left
      rw [← join_split host '.', ← join_split d '.', ← hfront, List.nil_append]
    | cons first front =>
      right
      refine ⟨(first :: front).length, ?_, ?_⟩
      · have hne : split d '.' ≠ [] := by simp [split]
        have hpos := List.length_pos_of_ne_nil hne
        rw [← hfront, List.mem_range'_1, List.length_append, List.length_cons]
        omega
      · rw [← hfront, List.drop_left]
        exact join_split d '.'

theorem isBlocked_iff (g : GFWList) (host : String) :
    isBlocked g host = true ↔ toLower (trimSpace host) ≠ "" ∧
      ∃ d ∈ g.domains, toLower (trimSpace host) = d ∨
        hasSuffix (toLower (trimSpace host)) ("." ++ d) = true := by
  unfold isBlocked
  simp only
  generalize toLower (trimSpace host) = host
  by_cases hempty : host = ""
  · simp [hempty]
  · have hparent : ∀ d, (host = d ∨ hasSuffix host ("." ++ d) = true) ↔
        host = d ∨ ∃ i ∈ List.range' 1 ((split host '.').length - 1),
          join ((split host '.').drop i) "." = d := fun d =>
      (split_suffix_iff host d '.').symm.trans (exists_parent_iff host d).symm
    simp only [hempty, if_false, ne_eq, not_false_iff, true_and, hparent]
    by_cases hcard : g.domains.card = 0
    · simp [Finset.card_eq_zero.mp hcard]
    · rw [if_neg hcard]
      by_cases hmem : host ∈ g.domains
      · simp only [hmem, if_true, true_iff]
        exact ⟨host, hmem, .inl rfl⟩
      · simp only [hmem, if_false, List.any_eq_true, decide_eq_true_eq]
        constructor
        · rintro ⟨i, hi, hd⟩
          exact ⟨_, hd, .inr ⟨i, hi, rfl⟩⟩
        · rintro ⟨d, hd, rfl | ⟨i, hi, rfl⟩⟩
          · exact absurd hd hmem
          · exact ⟨i, hi, hd⟩

/-- A host is blocked exactly when it is not blank and is a loaded domain, or ends with a dot
and a loaded domain. -/
theorem isBlocked_loaded_iff {g g' : GFWList} {text : String} {n : Nat}
    (h : loadFromReader g text = (.ok n, g')) (host : String) :
    isBlocked g' host = true ↔ toLower (trimSpace host) ≠ "" ∧
      ∃ d, Loaded text d ∧ (toLower (trimSpace host) = d ∨
        hasSuffix (toLower (trimSpace host)) ("." ++ d) = true) := by
  simp only [isBlocked_iff, mem_loaded_iff h]

end

/-- A list with a comment, in mixed case. -/
def sampleText : String := "# list\nExample.COM\n"

def sampleList : GFWList := ⟨{"example.com"}, 1⟩

theorem isBlocked_subdomain :
    loadFromReader newGFWList sampleText = (.ok 1, sampleList) ∧
      isBlocked sampleList " WWW.example.com" = true := by
  have hload : loadFromReader newGFWList sampleText = (.ok 1, sampleList) := by decide
  refine ⟨hload, (isBlocked_loaded_iff hload _).mpr ⟨by decide, "example.com", ?_, .inr ?_⟩⟩
  · exact ⟨"Example.COM", by decide, by decide, by decide⟩
  · decide

/-! ## The cache file -/

section

variable [CaseTables]

section

variable [LawfulTables] [LetterTables]

omit [LawfulTables] in
/-- A prefix of ASCII characters that are no letters was there before lower-casing. -/
theorem hasPrefix_of_toLower {line p : String}
    (hp : ∀ c ∈ p.toList, c.toNat < 128 ∧ c.isAlpha = false)
    (h : hasPrefix (toLower line) p = true) : hasPrefix line p = true := by
  rw [hasPrefix, List.isPrefixOf_iff_prefix, toLower, String.toList_ofList] at h
  rw [hasPrefix, List.isPrefixOf_iff_prefix]
  obtain ⟨front, hfront, hmap⟩ := List.prefix_map_iff.mp h
  have hsame : front = front.map CaseTables.lower := by
    refine (List.map_id front).symm.trans (List.map_congr_left fun c hc => ?_)
    have hmem : CaseTables.lower c ∈ p.toList := hmap ▸ List.mem_map_of_mem hc
    exact eq_of_lower_eq (hp _ hmem).1 (hp _ hmem).2 rfl
  rw [hmap, ← hsame]
  exact hfront

omit [LawfulTables] in
/-- A line that was kept is kept when it is lower-cased. -/
theorem skipped_toLower {line : String} (h : skipped line = false) :
    skipped (toLower line) = false := by
  simp only [skipped, Bool.or_eq_false_iff, decide_eq_false_iff_not] at h ⊢
  obtain ⟨⟨⟨⟨hempty, hhash⟩, hbang⟩, -⟩, hdash⟩ := h
  have hkept : ∀ p : String, (∀ c ∈ p.toList, c.toNat < 128 ∧ c.isAlpha = false) →
      hasPrefix line p = false → hasPrefix (toLower line) p = false := by
    intro p hp hline
    rw [Bool.eq_false_iff] at hline ⊢
    exact fun hlower => hline (hasPrefix_of_toLower hp hlower)
  refine ⟨⟨⟨⟨fun he => hempty (toLower_eq_empty he), ?_⟩, ?_⟩, ?_⟩, ?_⟩
  · exact hkept _ (List.all_iff_forall_prop.mp (by decide)) hhash
  · exact hkept _ (List.all_iff_forall_prop.mp (by decide)) hbang
  · -- no lower-cased text starts with a capital
    rw [Bool.eq_false_iff, ne_eq, hasPrefix_iff]
    rintro ⟨rest, hrest⟩
    have hmem : 'S' ∈ (toLower line).toList := by
      rw [hrest, String.toList_append]
      exact List.mem_append_left _ (by decide)
    rw [toLower, String.toList_ofList] at hmem
    obtain ⟨c, -, hcapital⟩ := List.mem_map.mp hmem
    exact lower_ne_capital (by decide) (by decide) c hcapital
  · exact hkept _ (List.all_iff_forall_prop.mp (by decide)) hdash

/-- A loaded domain is a line of its own that is kept as it is. -/
theorem Loaded.stays {text d : String} (h : Loaded text d) :
    domainOf d = some d ∧ '\n' ∉ d.toList := by
  obtain ⟨line, hline, hkept, rfl⟩ := h
  have htrim : trimSpace (toLower (trimSpace line)) = toLower (trimSpace line) := by
    rw [trimSpace_toLower, trimSpace_trimSpace]
  constructor
  · rw [domainOf_eq_some_iff, htrim, toLower_toLower_of_lawful]
    exact ⟨skipped_toLower hkept, rfl⟩
  · rw [toLower, String.toList_ofList]
    intro hmem
    obtain ⟨c, hc, hlower⟩ := List.mem_map.mp hmem
    obtain rfl := eq_of_lower_eq (by decide) (by decide) hlower
    exact not_mem_of_mem_split hline ((trimSpace_sublist line).mem hc)

end

omit [CaseTables] in
theorem toList_saveToFile (order : List String) :
    (saveToFile order).toList = order.flatMap fun d => d.toList ++ ['\n'] := by
  have hacc : ∀ sb : String,
      (order.foldl (fun sb domain => sb ++ domain ++ "\n") sb).toList =
        sb.toList ++ order.flatMap fun d => d.toList ++ ['\n'] := by
    induction order with
    | nil => simp
    | cons d order ih =>
      intro sb
      rw [List.foldl_cons, ih]
      simp
  rw [saveToFile, hacc]
  rfl

omit [CaseTables] in
/-- The scanner finds the domains again, in the order in which they were written. -/
theorem rawLines_saveToFile {order : List String} (h : ∀ d ∈ order, '\n' ∉ d.toList) :
    rawLines (saveToFile order) = order := by
  have hsplit : (order.flatMap fun d => d.toList ++ ['\n']).splitOn '\n' =
      order.map String.toList ++ [[]] := by
    induction order with
    | nil => simp
    | cons d order ih =>
      rw [List.flatMap_cons, List.append_assoc, List.singleton_append,
        List.splitOn_append_cons_self_of_not_mem (h d (List.mem_cons_self ..)),
        ih fun x hx => h x (List.mem_cons_of_mem _ hx)]
      rfl
  have hlines : split (saveToFile order) '\n' = order ++ [""] := by
    rw [split, toList_saveToFile, hsplit]
    simp [Function.comp_def]
  rw [rawLines, hlines]
  simp

section

variable [LawfulTables] [LetterTables]

/-- What the cache file is read back as. -/
theorem loadFromReader_saveToFile {g g' : GFWList} {text : String} {n : Nat}
    (h : loadFromReader g text = (.ok n, g')) {order : List String} (horder : Order g' order)
    (fresh : GFWList) :
    (loadFromReader fresh (saveToFile order)).2.domains =
      if ∀ d ∈ g'.domains, byteLen d < maxScanTokenSize then g'.domains else fresh.domains := by
  have hstays : ∀ d ∈ order, domainOf d = some d ∧ '\n' ∉ d.toList := fun d hd =>
    ((mem_loaded_iff h d).mp ((horder.mem_iff d).mp hd)).stays
  have hkept : order.filterMap domainOf = order := by
    rw [List.filterMap_congr fun d hd => (hstays d hd).1, List.filterMap_some]
  rw [loadFromReader_eq, rawLines_saveToFile fun d hd => (hstays d hd).2, hkept]
  simp only [horder.mem_iff]
  split
  · ext d
    rw [List.mem_toFinset, horder.mem_iff]
  · rfl

/-- The list that was saved is found again, and every host is answered as before, exactly
when no loaded domain is too long for the scanner. -/
theorem reload_same_iff (g : GFWList) {text : String}
    (hshort : ∀ line ∈ split text '\n', byteLen line < maxScanTokenSize) {order : List String}
    (horder : Order (loadFromReader g text).2 order) :
    let first := (loadFromReader g text).2
    let again := (loadFromReader newGFWList (saveToFile order)).2
    (again.domains = first.domains ∧ ∀ host, isBlocked again host = isBlocked first host) ↔
      ∀ d, Loaded text d → byteLen d < maxScanTokenSize := by
  intro first again
  have hload : loadFromReader g text =
      (.ok ((rawLines text).filterMap domainOf).length, first) := by
    have heq := loadFromReader_eq g text
    rw [if_pos fun l hl => hshort l (mem_split_of_mem_rawLines hl)] at heq
    rw [heq]
    exact congrArg (Prod.mk _) (congrArg Prod.snd heq).symm
  have hagain : again.domains = _ := loadFromReader_saveToFile hload horder newGFWList
  have hdomains : (∀ d ∈ first.domains, byteLen d < maxScanTokenSize) ↔
      ∀ d, Loaded text d → byteLen d < maxScanTokenSize := by
    simp only [mem_loaded_iff hload]
  rw [← hdomains]
  constructor
  · rintro ⟨hsame, -⟩ d hd
    by_contra hlong
    -- a domain that is too long leaves the new list empty
    rw [if_neg fun hall => hlong (hall d hd), hsame] at hagain
    rw [hagain] at hd
    exact absurd hd (Finset.notMem_empty d)
  · intro hfits
    rw [if_pos hfits] at hagain
    refine ⟨hagain, fun host => ?_⟩
    rw [Bool.eq_iff_iff, isBlocked_iff, isBlocked_iff, hagain]

end

end

theorem reload_same_sample :
    (∀ line ∈ split sampleText '\n', byteLen line < maxScanTokenSize) ∧
      (loadFromReader newGFWList (saveToFile ["example.com"])).2.domains =
        (loadFromReader newGFWList sampleText).2.domains := by
  have hload : (loadFromReader newGFWList sampleText).2 = sampleList := by decide
  have hshort : ∀ line ∈ split sampleText '\n', byteLen line < maxScanTokenSize :=
    List.all_iff_forall_prop.mp (by decide)
  have horder : Order (loadFromReader newGFWList sampleText).2 ["example.com"] := by
    rw [hload]
    exact ⟨by decide, fun d => by simp [sampleList]⟩
  refine ⟨hshort, ((reload_same_iff newGFWList hshort horder).mpr ?_).1⟩
  rintro d ⟨line, hline, hkept, rfl⟩
  have hall : ∀ line ∈ split sampleText '\n',
      byteLen (toLower (trimSpace line)) < maxScanTokenSize :=
    List.all_iff_forall_prop.mp (by decide)
  exact hall line hline

/-! ## A letter that grows -/

/-- Tables that have U+023A as well, which is two bytes long; its lower case U+2C65 has
three. -/
@[reducible] def latinTables : CaseTables where
  lower c := if c = 'Ⱥ' then 'ⱥ' else c.toLower
  fold c := if c = 'Ⱥ' then 'ⱥ' else c.toLower
  lower_ascii c hc := if_neg (by rintro rfl; exact absurd hc (by decide))
  fold_ascii c hc := if_neg (by rintro rfl; exact absurd hc (by decide))

theorem latinTables_lawful : @LawfulTables latinTables ∧ @LetterTables latinTables := by
  have hlower : ∀ c, latinTables.lower c = if c = 'Ⱥ' then 'ⱥ' else c.toLower := fun _ => rfl
  have hstroke : ∀ c : Char, c ≠ 'Ⱥ' → c.toLower ≠ 'Ⱥ' := by
    intro c hc
    rcases Nat.lt_or_ge c.toNat 128 with hlt | hge
    · exact @ascii_forall (fun c => c.toLower ≠ 'Ⱥ') (by decide) c hlt
    · rwa [toLower_of_nonAscii hge]
  refine ⟨@LawfulTables.mk latinTables (fun c => ?_) fun c => ?_, @LetterTables.mk latinTables ?_⟩
  · by_cases hc : c = 'Ⱥ'
    · rw [hlower c, if_pos hc]
      decide
    · rw [hlower c, if_neg hc, hlower, if_neg (hstroke c hc)]
      exact @LawfulTables.lower_lower asciiTables _ c
  · by_cases hc : c = 'Ⱥ'
    · rw [hlower, if_pos hc, hc]
      decide
    · rw [hlower, if_neg hc]
      exact @LawfulTables.isSpace_lower asciiTables _ c
  · intro c hc hlow
    by_cases hstrokeC : c = 'Ⱥ'
    · rw [hlower, if_pos hstrokeC] at hlow
      exact absurd hlow (by decide)
    · rw [hlower, if_neg hstrokeC] at hlow ⊢
      exact @LetterTables.lower_letter asciiTables _ c hc hlow

/-- A line of one letter. -/
def repeated (c : Char) (n : Nat) : String := String.ofList (List.replicate n c)

theorem mem_repeated {c x : Char} {n : Nat} (h : x ∈ (repeated c n).toList) : x = c := by
  rw [repeated, String.toList_ofList] at h
  exact List.eq_of_mem_replicate h

theorem repeated_ne_empty (c : Char) {n : Nat} (hn : n ≠ 0) : repeated c n ≠ "" := by
  intro he
  have hl := congrArg (fun s => s.toList.length) he
  simp only [repeated, String.toList_ofList, List.length_replicate] at hl
  exact hn hl

theorem byteLen_repeated (c : Char) (n : Nat) : byteLen (repeated c n) = n * c.utf8Size := by
  rw [byteLen, repeated, String.toList_ofList, List.map_replicate, List.sum_replicate_nat]

/-- The line of a text without newlines. -/
theorem rawLines_single {s : String} (h : '\n' ∉ s.toList) (hne : s ≠ "") :
    split s '\n' = [s] ∧ rawLines s = [s] := by
  have hsplit : split s '\n' = [s] := by
    rw [split, List.splitOn_eq_singleton h]
    simp
  refine ⟨hsplit, ?_⟩
  rw [rawLines, hsplit]
  simp [hne]

theorem domainOf_repeated [CaseTables] {c : Char} {n : Nat} (hn : n ≠ 0)
    (hspace : isSpace c = false) (hc : c ≠ '#' ∧ c ≠ '!' ∧ c ≠ 'S' ∧ c ≠ '-') :
    domainOf (repeated c n) = some (repeated (CaseTables.lower c) n) := by
  have hmark : ∀ x : Char, c ≠ x → ∀ p, hasPrefix (repeated c n) (String.ofList (x :: p)) = false :=
    fun x hx p => hasPrefix_eq_false fun hmem => hx (mem_repeated hmem).symm
  have htrim : trimSpace (repeated c n) = repeated c n :=
    trimSpace_eq_self _ fun x hx => mem_repeated hx ▸ hspace
  rw [domainOf_eq_some_iff, htrim]
  refine ⟨?_, ?_⟩
  · simp only [skipped, Bool.or_eq_false_iff, decide_eq_false_iff_not]
    obtain ⟨hhash, hbang, hS, hdash⟩ := hc
    exact ⟨⟨⟨⟨repeated_ne_empty c hn, hmark _ hhash []⟩, hmark _ hbang []⟩, hmark _ hS _⟩,
      hmark _ hdash _⟩
  · rw [toLower, repeated, repeated, String.toList_ofList, List.map_replicate]

/-- A line that fits into the scanner's buffer, but not in lower case, is lost by the cache
file, and the list with it. -/
theorem repeated_lost {n : Nat} (hn : n ≠ 0) (hshort : n * 2 < maxScanTokenSize)
    (hlong : maxScanTokenSize ≤ n * 3) :
    (∀ line ∈ split (repeated 'Ⱥ' n) '\n', byteLen line < maxScanTokenSize) ∧
      (@loadFromReader latinTables newGFWList (repeated 'Ⱥ' n)).2.domains = {repeated 'ⱥ' n} ∧
      @loadFromReader latinTables newGFWList (saveToFile [repeated 'ⱥ' n]) =
        (.error errTooLong, newGFWList) := by
  have hdomain : @domainOf latinTables (repeated 'Ⱥ' n) = some (repeated 'ⱥ' n) :=
    @domainOf_repeated latinTables 'Ⱥ' n hn (by decide) (by decide)
  have hnewline : ∀ c : Char, c ≠ '\n' → '\n' ∉ (repeated c n).toList := fun c hc hmem =>
    hc (mem_repeated hmem).symm
  obtain ⟨hsplit, hraw⟩ :=
    rawLines_single (hnewline 'Ⱥ' (by decide)) (repeated_ne_empty 'Ⱥ' hn)
  have hfits : ∀ line ∈ [repeated 'Ⱥ' n], byteLen line < maxScanTokenSize := by
    intro line hline
    rw [List.mem_singleton.mp hline, byteLen_repeated]
    exact hshort
  refine ⟨hsplit ▸ hfits, ?_, ?_⟩
  · rw [@loadFromReader_eq latinTables, hraw, if_pos hfits]
    simp [hdomain]
  · have hsaved : rawLines (saveToFile [repeated 'ⱥ' n]) = [repeated 'ⱥ' n] :=
      rawLines_saveToFile fun d hd => List.mem_singleton.mp hd ▸ hnewline 'ⱥ' (by decide)
    rw [@loadFromReader_eq latinTables, hsaved, if_neg]
    intro hall
    have hlt := hall _ (List.mem_singleton_self _)
    rw [byteLen_repeated] at hlt
    exact absurd hlt (Nat.not_lt.mpr hlong)

/-- 32767 letters are 65534 bytes, and 98301 in lower case. -/
theorem stretched_list_lost :
    @LawfulTables latinTables ∧ @LetterTables latinTables ∧
      (∀ line ∈ split (repeated 'Ⱥ' 32767) '\n', byteLen line < maxScanTokenSize) ∧
      (@loadFromReader latinTables newGFWList (repeated 'Ⱥ' 32767)).2.domains =
        {repeated 'ⱥ' 32767} ∧
      @loadFromReader latinTables newGFWList (saveToFile [repeated 'ⱥ' 32767]) =
        (.error errTooLong, newGFWList) :=
  ⟨latinTables_lawful.1, latinTables_lawful.2,
    repeated_lost (by decide) (by decide) (by decide)⟩

end SniShaper.Gfw
