import Mathlib.Data.Bool.AllAny
import SniShaper.Go.Strings

/-! The headers that are not forwarded (`removeHopByHopHeaders` of `proxy/proxy.go`), on the
header maps of Go's `net/http`.

* `canonicalMIMEHeaderKey_eq_iff`: the canonical key stands for all spellings of a name;
* `removeHopByHopHeaders_apply`: which headers are removed;
* `nominated_removed_iff`: when no header that a Connection value names is left. -/

namespace SniShaper.Headers

open Strings

/-! ## Header maps -/

/-- The bytes of a header name: letters, digits and these. -/
def headerMarks : List Char := "!#$%&'*+-.^_`|~".toList

def validHeaderFieldByte (c : Char) : Bool := c.isAlphanum || c ∈ headerMarks

/-- Upper case at the start and behind a dash, lower case elsewhere. -/
def canonicalCase : Bool → List Char → List Char
  | _, [] => []
  | upper, c :: cs =>
    let c := if upper then c.toUpper else c.toLower
    c :: canonicalCase (c = '-') cs

/-- `textproto.CanonicalMIMEHeaderKey` -/
def canonicalMIMEHeaderKey (s : String) : String :=
  if s.toList.all validHeaderFieldByte then String.ofList (canonicalCase true s.toList) else s

/-- A `http.Header`: the values of the keys that are in the map. -/
abbrev Header := String → Option (List String)

/-- `h.Values(key)` -/
def Header.values (h : Header) (key : String) : List String :=
  (h (canonicalMIMEHeaderKey key)).getD []

/-- `h.Get(key)`: the first value. -/
def Header.get (h : Header) (key : String) : String := (h.values key).head?.getD ""

/-- `h.Del(key)` -/
def Header.del (h : Header) (key : String) : Header := fun k =>
  if k = canonicalMIMEHeaderKey key then none else h k

/-- `textproto.TrimString` -/
def trimString (s : String) : String :=
  String.ofList (trimBy (fun c => c ∈ [' ', '\t', '\n', '\r']) s.toList)

/-! ## The source's function -/

def hopByHopHeaders : List String :=
  ["Proxy-Connection", "Keep-Alive", "Proxy-Authenticate", "Proxy-Authorization", "Te", "Trailer",
    "Transfer-Encoding"]

section

variable [CaseTables]

/-- The loop over the tokens of the Connection header. -/
def removeNominated : List String → Header → Header
  | [], h => h
  | f :: fs, h =>
    let name := trimString f
    if name ≠ "" ∧ equalFold name "Upgrade" = false then removeNominated fs (h.del name)
    else removeNominated fs h

def removeHopByHopHeaders (h : Header) : Header :=
  let c := h.get "Connection"
  let h := if c ≠ "" then removeNominated (split c ',') h else h
  hopByHopHeaders.foldl Header.del h

end

/-! ## Names -/

theorem valid_ascii {c : Char} (h : validHeaderFieldByte c = true) : c.toNat < 128 := by
  have hmarks : ∀ x ∈ headerMarks, x.toNat < 128 := List.all_iff_forall_prop.mp (by decide)
  rcases Bool.or_eq_true_iff.mp h with hletter | hmark
  · exact ascii_of_isAlphanum hletter
  · exact hmarks c (of_decide_eq_true hmark)

theorem toLower_toUpper_ascii {c : Char} (h : c.toNat < 128) :
    c.toUpper.toLower = c.toLower ∧ c.toLower.toUpper = c.toUpper :=
  @ascii_forall (fun c => c.toUpper.toLower = c.toLower ∧ c.toLower.toUpper = c.toUpper)
    (by decide) c h

/-- The case of a character tells nothing that its lower case does not. -/
theorem cased_eq_iff {c d : Char} (hc : c.toNat < 128) (hd : d.toNat < 128) (upper : Bool) :
    (if upper then c.toUpper else c.toLower) = (if upper then d.toUpper else d.toLower) ↔
      c.toLower = d.toLower := by
  cases upper with
  | false => exact Iff.rfl
  | true =>
    constructor
    · intro h
      rw [← (toLower_toUpper_ascii hc).1, ← (toLower_toUpper_ascii hd).1]
      exact congrArg Char.toLower h
    · intro h
      have hupper := congrArg Char.toUpper h
      rwa [(toLower_toUpper_ascii hc).2, (toLower_toUpper_ascii hd).2] at hupper

theorem canonicalCase_eq_iff {a b : List Char} (ha : ∀ c ∈ a, c.toNat < 128)
    (hb : ∀ c ∈ b, c.toNat < 128) (upper : Bool) :
    canonicalCase upper a = canonicalCase upper b ↔ a.map Char.toLower = b.map Char.toLower := by
  induction a generalizing b upper with
  | nil => cases b <;> simp [canonicalCase]
  | cons c a ih =>
    cases b with
    | nil => simp [canonicalCase]
    | cons d b =>
      have hhead := cased_eq_iff (ha c (List.mem_cons_self ..)) (hb d (List.mem_cons_self ..)) upper
      have htail := @ih b (fun x hx => ha x (List.mem_cons_of_mem _ hx))
        fun x hx => hb x (List.mem_cons_of_mem _ hx)
      simp only [canonicalCase, List.map_cons, List.cons.injEq]
      constructor
      · rintro ⟨hc, hrest⟩
        rw [hc] at hrest
        exact ⟨hhead.mp hc, (htail _).mp hrest⟩
      · rintro ⟨hc, hrest⟩
        rw [hhead.mpr hc]
        exact ⟨rfl, (htail _).mpr hrest⟩

/-- A text that can name a header. -/
def Token (s : String) : Prop := ∀ c ∈ s.toList, validHeaderFieldByte c = true

theorem canonicalMIMEHeaderKey_token {s : String} (h : Token s) :
    canonicalMIMEHeaderKey s = String.ofList (canonicalCase true s.toList) :=
  if_pos (List.all_eq_true.mpr h)

theorem canonicalMIMEHeaderKey_other {s : String} (h : ¬ Token s) :
    canonicalMIMEHeaderKey s = s :=
  if_neg fun hall => h (List.all_eq_true.mp hall)

/-- Two names have the same key exactly when they differ in the case of letters only. -/
theorem canonicalMIMEHeaderKey_eq_iff {s t : String} (hs : Token s) (ht : Token t) :
    canonicalMIMEHeaderKey s = canonicalMIMEHeaderKey t ↔
      s.toList.map Char.toLower = t.toList.map Char.toLower := by
  rw [canonicalMIMEHeaderKey_token hs, canonicalMIMEHeaderKey_token ht, String.ofList_inj]
  exact canonicalCase_eq_iff (fun c hc => valid_ascii (hs c hc))
    (fun c hc => valid_ascii (ht c hc)) true

theorem token_upgrade : Token "Upgrade" := List.all_iff_forall_prop.mp (by decide)

theorem canonical_upgrade : canonicalMIMEHeaderKey "Upgrade" = "Upgrade" := by decide

section

variable [CaseTables] [FoldTables]

/-- What folds to a letter other than k and s is that letter. -/
theorem ascii_of_fold {c : Char} (h : CaseTables.fold c ∈ "upgrade".toList) : c.toNat < 128 := by
  have hletters : ∀ x ∈ "upgrade".toList, x.toNat < 128 ∧ x ≠ 'k' ∧ x ≠ 's' :=
    List.all_iff_forall_prop.mp (by decide)
  obtain ⟨hascii, hk, hs⟩ := hletters _ h
  by_contra hc
  rcases FoldTables.fold_letter c (Nat.le_of_not_lt hc) hascii with hfold | hfold
  · exact hk hfold
  · exact hs hfold

/-- The test for Upgrade is a test of the key. -/
theorem equalFold_upgrade_iff (name : String) :
    equalFold name "Upgrade" = true ↔ canonicalMIMEHeaderKey name = "Upgrade" := by
  have hfolded : "Upgrade".toList.map CaseTables.fold = "upgrade".toList := by
    have hascii : ∀ c ∈ "Upgrade".toList, c.toNat < 128 := List.all_iff_forall_prop.mp (by decide)
    rw [List.map_congr_left fun c hc => CaseTables.fold_ascii c (hascii c hc)]
    decide
  constructor
  · intro h
    rw [equalFold, beq_iff_eq, hfolded] at h
    have hascii : ∀ c ∈ name.toList, c.toNat < 128 := fun c hc =>
      ascii_of_fold (h ▸ List.mem_map_of_mem hc)
    rw [List.map_congr_left fun c hc => CaseTables.fold_ascii c (hascii c hc)] at h
    have htoken : Token name := by
      intro c hc
      have hletter := @ascii_forall
        (fun c => c.toLower ∈ "upgrade".toList → c ∈ "upgradeUPGRADE".toList) (by decide) c
        (hascii c hc) (h ▸ List.mem_map_of_mem hc)
      have hvalid : ∀ x ∈ "upgradeUPGRADE".toList, validHeaderFieldByte x = true :=
        List.all_iff_forall_prop.mp (by decide)
      exact hvalid c hletter
    rw [← canonical_upgrade, canonicalMIMEHeaderKey_eq_iff htoken token_upgrade, h]
    decide
  · intro h
    have htoken : Token name := by
      by_contra hother
      rw [canonicalMIMEHeaderKey_other hother] at h
      exact hother (h ▸ token_upgrade)
    rw [← canonical_upgrade, canonicalMIMEHeaderKey_eq_iff htoken token_upgrade] at h
    exact (equalFold_ascii (fun c hc => valid_ascii (htoken c hc))
      fun c hc => valid_ascii (token_upgrade c hc)).mpr h

/-! ## What is removed -/

/-- The names in a Connection value. -/
def tokens (value : String) : List String :=
  ((split value ',').map trimString).filter (· ≠ "")

/-- The key is named in a Connection value. -/
def Named (value key : String) : Prop := ∃ name ∈ tokens value, canonicalMIMEHeaderKey name = key

instance (value key : String) : Decidable (Named value key) :=
  inferInstanceAs (Decidable (∃ name ∈ tokens value, canonicalMIMEHeaderKey name = key))

omit [CaseTables] [FoldTables] in
theorem mem_tokens {value name : String} :
    name ∈ tokens value ↔ ∃ f ∈ split value ',', trimString f = name ∧ name ≠ "" := by
  simp only [tokens, List.mem_filter, List.mem_map, decide_eq_true_eq]
  constructor
  · rintro ⟨⟨f, hf, rfl⟩, hne⟩
    exact ⟨f, hf, rfl, hne⟩
  · rintro ⟨f, hf, rfl, hne⟩
    exact ⟨⟨f, hf, rfl⟩, hne⟩

omit [CaseTables] [FoldTables] in
theorem del_apply (h : Header) (name k : String) :
    h.del name k = if k = canonicalMIMEHeaderKey name then none else h k := rfl

theorem removeNominated_apply (fs : List String) (h : Header) (k : String) :
    removeNominated fs h k =
      if k ≠ "Upgrade" ∧
          ∃ f ∈ fs, trimString f ≠ "" ∧ canonicalMIMEHeaderKey (trimString f) = k then
        none
      else h k := by
  induction fs generalizing h with
  | nil => simp [removeNominated]
  | cons f fs ih =>
    unfold removeNominated
    by_cases hname : trimString f ≠ "" ∧ equalFold (trimString f) "Upgrade" = false
    · have hkey : canonicalMIMEHeaderKey (trimString f) ≠ "Upgrade" := fun he =>
        absurd ((equalFold_upgrade_iff _).mpr he) (by simp [hname.2])
      simp only [hname, and_self, if_true, ih, del_apply, List.exists_mem_cons_iff, ne_eq,
        not_false_eq_true, true_and]
      by_cases hk : k = canonicalMIMEHeaderKey (trimString f)
      · simp [hk, hkey]
      · simp [hk, Ne.symm hk]
    · rw [if_neg hname, ih]
      -- a token that is skipped is blank or Upgrade
      have hskip : ∀ k, k ≠ "Upgrade" →
          ¬ (trimString f ≠ "" ∧ canonicalMIMEHeaderKey (trimString f) = k) := by
        rintro k hk ⟨hne, hcanon⟩
        refine hname ⟨hne, Bool.eq_false_iff.mpr fun hfold => hk ?_⟩
        exact hcanon.symm.trans ((equalFold_upgrade_iff _).mp hfold)
      by_cases hk : k = "Upgrade"
      · simp [hk]
      · simp only [List.exists_mem_cons_iff, hskip k hk, false_or]

omit [CaseTables] [FoldTables] in
theorem named_iff {value key : String} :
    Named value key ↔
      ∃ f ∈ split value ',', trimString f ≠ "" ∧ canonicalMIMEHeaderKey (trimString f) = key := by
  simp only [Named, mem_tokens]
  constructor
  · rintro ⟨_, ⟨f, hf, rfl, hne⟩, hkey⟩
    exact ⟨f, hf, hne, hkey⟩
  · rintro ⟨f, hf, hne, hkey⟩
    exact ⟨_, ⟨f, hf, rfl, hne⟩, hkey⟩

omit [CaseTables] [FoldTables] in
theorem not_named_empty (key : String) : ¬ Named "" key := by
  have hnone : tokens "" = [] := by decide
  simp [Named, hnone]

omit [CaseTables] [FoldTables] in
theorem foldl_del_apply (names : List String) (h : Header) (k : String) :
    names.foldl Header.del h k =
      if k ∈ names.map canonicalMIMEHeaderKey then none else h k := by
  induction names generalizing h with
  | nil => simp
  | cons name names ih =>
    simp only [List.foldl_cons, ih, del_apply, List.map_cons, List.mem_cons]
    by_cases hk : k = canonicalMIMEHeaderKey name
    · simp [hk]
    · simp [hk]

omit [CaseTables] [FoldTables] in
theorem hopByHopHeaders_canonical :
    hopByHopHeaders.map canonicalMIMEHeaderKey = hopByHopHeaders := by decide

/-- The headers that are removed: the listed ones, and those but Upgrade that the first value of
Connection names. -/
theorem removeHopByHopHeaders_apply (h : Header) (k : String) :
    removeHopByHopHeaders h k =
      if k ∈ hopByHopHeaders ∨ k ≠ "Upgrade" ∧ Named (h.get "Connection") k then none
      else h k := by
  unfold removeHopByHopHeaders
  simp only [foldl_del_apply, hopByHopHeaders_canonical]
  by_cases hhop : k ∈ hopByHopHeaders
  · simp [hhop]
  · simp only [hhop, if_false, false_or]
    by_cases hc : h.get "Connection" = ""
    · simp [hc, not_named_empty]
    · simp only [hc, ne_eq, not_false_iff, if_true, removeNominated_apply, named_iff]

/-- A header that is left keeps its values. -/
theorem removeHopByHopHeaders_eq_self {h : Header} {k : String} (hhop : k ∉ hopByHopHeaders)
    (hname : k = "Upgrade" ∨ ¬ Named (h.get "Connection") k) :
    removeHopByHopHeaders h k = h k := by
  rw [removeHopByHopHeaders_apply, if_neg]
  rintro (hmem | ⟨hup, hnamed⟩)
  · exact hhop hmem
  · exact hname.elim hup fun hnot => hnot hnamed

omit [CaseTables] [FoldTables] in
theorem get_mem_values {h : Header} {key k : String} (hnamed : Named (h.get key) k) :
    h.get key ∈ h.values key := by
  unfold Header.get at hnamed ⊢
  cases hvalues : h.values key with
  | nil =>
    rw [hvalues] at hnamed
    exact absurd hnamed (not_named_empty k)
  | cons first rest => exact List.mem_cons_self ..

/-- A second pass removes nothing: the first value of Connection is the same, or Connection
was removed. -/
theorem removeHopByHopHeaders_idempotent (h : Header) :
    removeHopByHopHeaders (removeHopByHopHeaders h) = removeHopByHopHeaders h := by
  have hconnection : ∀ k, Named ((removeHopByHopHeaders h).get "Connection") k →
      Named (h.get "Connection") k := by
    intro k hk
    have hkey : canonicalMIMEHeaderKey "Connection" = "Connection" := by decide
    simp only [Header.get, Header.values, hkey, removeHopByHopHeaders_apply] at hk ⊢
    split at hk
    · exact absurd hk (not_named_empty k)
    · exact hk
  funext k
  rw [removeHopByHopHeaders_apply]
  split
  · rename_i hremoved
    rw [removeHopByHopHeaders_apply, if_pos (hremoved.imp id fun h => ⟨h.1, hconnection k h.2⟩)]
  · rfl

/-- What is to be removed, and what is to be kept. -/
structure Stripped (h h' : Header) : Prop where
  nominated : ∀ value ∈ h.values "Connection", ∀ k, Named value k → k ≠ "Upgrade" →
    k ≠ "Connection" → h' k = none
  hopByHop : ∀ k ∈ hopByHopHeaders, h' k = none
  kept : ∀ k, k ∉ hopByHopHeaders →
    (k = "Upgrade" ∨ ∀ value ∈ h.values "Connection", ¬ Named value k) → h' k = h k

/-- The headers that the Connection values name are removed, with the listed ones, and no
other, also by two passes, exactly when a header that some value names, apart from Upgrade,
Connection and the listed ones, is named by the first value or not there. -/
theorem nominated_removed_iff (h : Header) :
    (Stripped h (removeHopByHopHeaders h) ∧
        removeHopByHopHeaders (removeHopByHopHeaders h) = removeHopByHopHeaders h) ↔
      ∀ value ∈ h.values "Connection", ∀ k, Named value k → k ≠ "Upgrade" → k ≠ "Connection" →
        k ∈ hopByHopHeaders ∨ Named (h.get "Connection") k ∨ h k = none := by
  rw [and_iff_left (removeHopByHopHeaders_idempotent h)]
  constructor
  · intro hs value hvalue k hnamed hup hconn
    have hnone := hs.nominated value hvalue k hnamed hup hconn
    by_contra hkept
    simp only [not_or] at hkept
    rw [removeHopByHopHeaders_eq_self hkept.1 (.inr hkept.2.1)] at hnone
    exact hkept.2.2 hnone
  · intro hcond
    refine ⟨fun value hvalue k hnamed hup hconn => ?_, fun k hk => ?_, fun k hhop hname => ?_⟩
    · rw [removeHopByHopHeaders_apply]
      rcases hcond value hvalue k hnamed hup hconn with hhop | hfirst | hnone
      · exact if_pos (.inl hhop)
      · exact if_pos (.inr ⟨hup, hfirst⟩)
      · rw [hnone, ite_self]
    · rw [removeHopByHopHeaders_apply, if_pos (.inl hk)]
    · refine removeHopByHopHeaders_eq_self hhop (hname.imp id fun hnone hnamed => ?_)
      exact hnone _ (get_mem_values hnamed) hnamed

end

/-- A request with a Connection value that names a header. -/
def oneConnection : Header := fun k =>
  if k = "Connection" then some ["upgrade, x-secret"]
  else if k = "X-Secret" then some ["1"]
  else if k = "Upgrade" then some ["websocket"]
  else none

theorem oneConnection_stripped :
    Stripped oneConnection (removeHopByHopHeaders oneConnection) ∧
      removeHopByHopHeaders oneConnection "X-Secret" = none ∧
      removeHopByHopHeaders oneConnection "Upgrade" = some ["websocket"] := by
  refine ⟨((nominated_removed_iff oneConnection).mpr ?_).1, by decide, by decide⟩
  intro value hvalue k hnamed _ _
  have hfirst : oneConnection.values "Connection" = [oneConnection.get "Connection"] := by decide
  rw [hfirst, List.mem_singleton] at hvalue
  exact .inr (.inl (hvalue ▸ hnamed))

/-- A request with two Connection values. -/
def twoConnections : Header := fun k =>
  if k = "Connection" then some ["keep-alive", "X-Secret"]
  else if k = "X-Secret" then some ["1"]
  else none

/-- The header that the second value names is left. -/
theorem second_nomination_left :
    "X-Secret" ∈ twoConnections.values "Connection" ∧ Named "X-Secret" "X-Secret" ∧
      removeHopByHopHeaders twoConnections "X-Secret" = some ["1"] := by
  decide

end SniShaper.Headers
