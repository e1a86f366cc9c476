import SniShaper.Upstream.ClientConfig
import SniShaper.Lib.Base64
import SniShaper.Lib.Distinct

/-! Which certificates the allow-lists of a rule accept (`proxy/cert_verify.go`): by name,
by suffix of a name and by the hash of the public key.

* `allowedSuffixes_bounded_iff`: when a list of suffixes accepts on label boundaries only;
* `allowedNames_oneLabel_iff`: when a list of names takes a wildcard for one label only;
* `pins_exact_iff`: when a list of pins accepts the pinned keys only. -/

namespace SniShaper.CertVerify

open Strings

/-- The parts of a certificate that the allow-lists look at. -/
structure Certificate where
  commonName : String := ""
  dnsNames : List String := []
  rawSubjectPublicKeyInfo : List UInt8 := []
  deriving DecidableEq, Repr

/-- The values of SHA-256. -/
def Digest : Type := { bytes : List UInt8 // bytes.length = 32 }

section

variable [CaseTables]

def normalName (v : String) : String := toLower (trimSpace v)

def certNames (cert : Certificate) : List String :=
  Distinct.collect normalName "" (cert.commonName :: cert.dnsNames) []

def dnsMatch (certName host : String) : Bool :=
  let certName := normalName certName
  let host := normalName host
  if certName = "" ∨ host = "" then false
  else if certName = host then true
  else if hasPrefix certName "*." then
    let base := trimPrefix certName "*."
    hasSuffix host ("." ++ base) && decide (count host '.' ≥ count base '.' + 1)
  else false

def matchesAllowedNames (cert : Option Certificate) (names : List String) : Bool :=
  match cert with
  | none => false
  | some cert =>
    names.any fun allowed =>
      let allowed := normalName allowed
      decide (allowed ≠ "") && (certNames cert).any fun candidate =>
        dnsMatch candidate allowed || dnsMatch allowed candidate

/-- The test in the loops of `matchesAllowedSuffixes`. -/
def suffixMatch (candidate suffix : String) : Bool :=
  let candidate := toLower candidate
  if candidate = suffix ∨ hasSuffix candidate suffix = true then true
  else if hasPrefix candidate "*." then
    let base := trimPrefix candidate "*"
    decide (base = suffix) || hasSuffix base suffix
  else false

def matchesAllowedSuffixes (cert : Option Certificate) (suffixes : List String) : Bool :=
  match cert with
  | none => false
  | some cert =>
    suffixes.any fun suffix =>
      let suffix := normalName suffix
      decide (suffix ≠ "") && (certNames cert).any fun candidate => suffixMatch candidate suffix

def spkiHashBase64 (sum256 : List UInt8 → Digest) (cert : Option Certificate) : String :=
  match cert with
  | none => ""
  | some cert => Base64.encode (sum256 cert.rawSubjectPublicKeyInfo).val

def matchesSPKI (sum256 : List UInt8 → Digest) (cert : Option Certificate)
    (allowed : List String) : Bool :=
  let hash := spkiHashBase64 sum256 cert
  allowed.any fun item => equalFold (trimSpace item) hash

/-! ## Names in normal form -/

theorem mem_certNames {cert : Certificate} {name : String} :
    name ∈ certNames cert ↔
      name ≠ "" ∧ ∃ v ∈ cert.commonName :: cert.dnsNames, normalName v = name := by
  rw [certNames, Distinct.mem_collect]
  simp

theorem normalName_normalName [LawfulTables] (v : String) :
    normalName (normalName v) = normalName v := by
  rw [normalName, normalName, trimSpace_toLower, trimSpace_trimSpace, toLower_toLower_of_lawful]

theorem normalName_of_mem_certNames [LawfulTables] {cert : Certificate} {name : String}
    (h : name ∈ certNames cert) : normalName name = name := by
  obtain ⟨-, v, -, rfl⟩ := mem_certNames.mp h
  exact normalName_normalName v

theorem normalName_eq_self_iff {s : String} :
    normalName s = s ↔ trimSpace s = s ∧ toLower s = s := by
  constructor
  · intro h
    -- lower-casing keeps the length, so nothing was trimmed
    have hlen : s.toList.length ≤ (trimSpace s).toList.length := by
      conv_lhs => rw [← h]
      exact (length_toLower _).le
    have htrim : trimSpace s = s :=
      String.toList_injective ((trimSpace_sublist s).eq_of_length_le hlen)
    exact ⟨htrim, by rwa [normalName, htrim] at h⟩
  · rintro ⟨htrim, hlower⟩
    rw [normalName, htrim, hlower]

/-- Characters a name may start with: lower-case ASCII and no space. -/
def Plain (s : String) : Prop :=
  ∀ c ∈ s.toList, c.toNat < 128 ∧ c.toLower = c ∧ isSpace c = false

/-- The start of a name in normal form can be exchanged. -/
theorem normalName_exchange {x y t : String} (h : normalName (x ++ t) = x ++ t) (ht : t ≠ "")
    (hy : y ≠ "") (hplain : Plain y) : normalName (y ++ t) = y ++ t := by
  obtain ⟨htrim, hlower⟩ := normalName_eq_self_iff.mp h
  have hnil : t.toList ≠ [] := fun hnil => ht (String.toList_eq_nil_iff.mp hnil)
  refine normalName_eq_self_iff.mpr ⟨?_, ?_⟩
  · have hends : trimBy isSpace (x ++ t).toList = (x ++ t).toList := by
      have := congrArg String.toList htrim
      rwa [trimSpace, String.toList_ofList] at this
    rw [trimSpace, trimBy_eq_self_iff.mpr, String.ofList_toList]
    rw [trimBy_eq_self_iff] at hends
    rw [String.toList_append] at hends ⊢
    refine ⟨?_, ?_⟩
    · intro c hc
      cases hchars : y.toList with
      | nil => exact absurd (String.toList_eq_nil_iff.mp hchars) hy
      | cons first rest =>
        rw [hchars, List.cons_append, List.head?_cons, Option.mem_some_iff] at hc
        subst hc
        exact (hplain first (by simp [hchars])).2.2
    · rw [List.getLast?_append_of_ne_nil _ hnil] at hends ⊢
      exact hends.2
  · have hback : toLower t = t := by
      rw [toLower_append, ← String.toList_inj, String.toList_append, String.toList_append] at hlower
      exact String.toList_injective (List.append_inj_right hlower (length_toLower x))
    rw [toLower_append, hback, toLower_eq_self fun c hc => ⟨(hplain c hc).1, (hplain c hc).2.1⟩]

/-- A certificate with one name. -/
def named (name : String) : Certificate where
  dnsNames := [name]

theorem mem_certNames_named {name v : String} (hv : normalName v = v) (hne : v ≠ "") :
    name ∈ certNames (named v) ↔ name = v := by
  have hblank : normalName "" = "" := rfl
  rw [mem_certNames]
  constructor
  · rintro ⟨hname, w, hw, rfl⟩
    simp only [named, List.mem_cons, List.not_mem_nil, or_false] at hw
    rcases hw with rfl | rfl
    · exact absurd hblank hname
    · exact hv
  · rintro rfl
    exact ⟨hne, name, by simp [named], hv⟩

/-! ## Suffixes -/

/-- The test for a wildcard adds nothing: its base is a suffix of the name. -/
theorem suffixMatch_iff {candidate suffix : String} (h : toLower candidate = candidate) :
    suffixMatch candidate suffix = true ↔ ∃ x, candidate = x ++ suffix := by
  rw [← hasSuffix_iff]
  simp only [suffixMatch, h]
  constructor
  · intro hmatch
    split at hmatch
    · rename_i hfound
      rcases hfound with rfl | hfound
      · exact hasSuffix_iff.mpr ⟨"", by simp⟩
      · exact hfound
    · split at hmatch
      · rename_i hwild
        obtain ⟨rest, rfl⟩ := hasPrefix_iff.mp hwild
        have hbase : trimPrefix ("*." ++ rest) "*" = "." ++ rest :=
          trimPrefix_append "*" ("." ++ rest)
        rw [hbase, Bool.or_eq_true, decide_eq_true_iff] at hmatch
        rcases hmatch with rfl | hmatch
        · exact hasSuffix_iff.mpr ⟨"*", rfl⟩
        · obtain ⟨x, hx⟩ := hasSuffix_iff.mp hmatch
          exact hasSuffix_iff.mpr ⟨"*" ++ x, by rw [String.append_assoc, ← hx]; rfl⟩
      · cases hmatch
  · intro hsuffix
    rw [if_pos (.inr hsuffix)]

theorem matchesAllowedSuffixes_iff [LawfulTables] (cert : Certificate) (suffixes : List String) :
    matchesAllowedSuffixes (some cert) suffixes = true ↔
      ∃ item ∈ suffixes, normalName item ≠ "" ∧
        ∃ name ∈ certNames cert, ∃ x, name = x ++ normalName item := by
  have hlower : ∀ name ∈ certNames cert, toLower name = name := fun name hname =>
    (normalName_eq_self_iff.mp (normalName_of_mem_certNames hname)).2
  simp only [matchesAllowedSuffixes, List.any_eq_true, Bool.and_eq_true, decide_eq_true_iff]
  refine exists_congr fun item => and_congr_right fun _ => and_congr_right fun _ => ?_
  exact exists_congr fun name => and_congr_right fun hname => suffixMatch_iff (hlower name hname)

/-- A listed suffix, one leading dot removed. -/
def listed (item : String) : String := trimPrefix (normalName item) "."

/-- The name is the suffix, or ends with it after a dot. -/
def OnBoundary (name s : String) : Prop := name = s ∨ ∃ x, name = x ++ "." ++ s

/-- Some name of the certificate, or the base of a wildcard, has a listed suffix on a label
boundary. -/
def Bounded (suffixes : List String) (cert : Certificate) : Prop :=
  ∃ item ∈ suffixes, listed item ≠ "" ∧ ∃ name ∈ certNames cert,
    OnBoundary name (listed item) ∨ ∃ base, name = "*." ++ base ∧ OnBoundary base (listed item)

/-- Every listed suffix ends with a dot and a listed suffix: it was written with its dot, or
another one of the list was. -/
def Dotted (suffixes : List String) : Prop :=
  ∀ item ∈ suffixes, normalName item ≠ "" →
    ∃ other ∈ suffixes, listed other ≠ "" ∧ ∃ x, normalName item = x ++ "." ++ listed other

theorem listed_length_le (item : String) :
    (listed item).toList.length ≤ (normalName item).toList.length :=
  (trimPrefix_sublist _ _).length_le

/-- So many letters that no listed suffix is as long. -/
def letters (suffixes : List String) : String :=
  String.ofList
    (List.replicate ((suffixes.flatMap fun item => (normalName item).toList).length + 1) 'x')

theorem mem_letters {suffixes : List String} {c : Char} (h : c ∈ (letters suffixes).toList) :
    c = 'x' := by
  rw [letters, String.toList_ofList] at h
  exact List.eq_of_mem_replicate h

theorem plain_letters (suffixes : List String) : Plain (letters suffixes) := by
  intro c hc
  rw [mem_letters hc]
  decide

theorem listed_lt_letters {suffixes : List String} {item : String} (h : item ∈ suffixes) :
    (listed item).toList.length < (letters suffixes).toList.length := by
  have hle : (normalName item).toList.length ≤
      (suffixes.flatMap fun item => (normalName item).toList).length := by
    have hmem : (normalName item).toList ∈ suffixes.map fun item => (normalName item).toList :=
      List.mem_map.mpr ⟨item, h, rfl⟩
    rw [List.flatMap_def]
    exact (List.sublist_flatten_of_mem hmem).length_le
  have hlisted := listed_length_le item
  rw [letters, String.toList_ofList, List.length_replicate]
  omega

theorem letters_ne_empty (suffixes : List String) : letters suffixes ≠ "" := by
  intro h
  have hlen := congrArg (fun s => s.toList.length) h
  simp [letters] at hlen

/-- After letters a dotted suffix can only end the rest of the name. -/
theorem suffix_of_letters {suffixes : List String} {t x s : String}
    (h : letters suffixes ++ t = x ++ "." ++ s) : ∃ y, t = y ++ "." ++ s := by
  have hchars := congrArg String.toList h
  simp only [String.toList_append] at hchars
  rw [List.append_assoc] at hchars
  rcases List.append_eq_append_iff.mp hchars with ⟨y, -, hy⟩ | ⟨y, hy, hrest⟩
  · exact ⟨String.ofList y, by rw [← String.toList_inj]; simp [hy]⟩
  · cases y with
    | nil => exact ⟨"", by rw [← String.toList_inj]; simpa using hrest.symm⟩
    | cons c y =>
      -- the dot would be one of the letters
      have hdot : c = '.' := by simpa using (congrArg List.head? hrest).symm
      have hletter := @mem_letters _ suffixes c (by rw [hy]; simp)
      exact absurd (hdot.symm.trans hletter) (by decide)

/-- **Label boundaries.** A list of suffixes accepts only certificates with a listed suffix
on a label boundary exactly when every suffix of the list ends with a dot and a suffix of
the list. -/
theorem allowedSuffixes_bounded_iff [LawfulTables] (suffixes : List String) :
    (∀ cert, matchesAllowedSuffixes (some cert) suffixes = true → Bounded suffixes cert) ↔
      Dotted suffixes := by
  constructor
  · intro hbounded item hitem hne
    have hnormal : normalName (letters suffixes ++ normalName item) =
        letters suffixes ++ normalName item :=
      normalName_exchange (x := "") (by simpa using normalName_normalName item) hne
        (letters_ne_empty suffixes) (plain_letters suffixes)
    have hname : letters suffixes ++ normalName item ≠ "" := by
      intro h
      exact hne (String.append_eq_empty_iff.mp h).2
    have hmatch : matchesAllowedSuffixes (some (named (letters suffixes ++ normalName item)))
        suffixes = true :=
      (matchesAllowedSuffixes_iff _ _).mpr
        ⟨item, hitem, hne, _, (mem_certNames_named hnormal hname).mpr rfl, _, rfl⟩
    obtain ⟨other, hother, hlisted, name, hmem, hon⟩ := hbounded _ hmatch
    obtain rfl := (mem_certNames_named hnormal hname).mp hmem
    refine ⟨other, hother, hlisted, ?_⟩
    rcases hon with (heq | ⟨x, hx⟩) | ⟨base, hbase, -⟩
    · have hlen := congrArg (fun s => s.toList.length) heq
      have hlt := listed_lt_letters hother
      simp only [String.toList_append, List.length_append] at hlen
      omega
    · exact suffix_of_letters hx
    · -- the name does not start with a star
      have hhead := congrArg (fun s => s.toList.head?) hbase
      simp [letters, List.replicate_succ] at hhead
  · intro hdotted cert hmatch
    obtain ⟨item, hitem, hne, name, hname, x, rfl⟩ := (matchesAllowedSuffixes_iff _ _).mp hmatch
    obtain ⟨other, hother, hlisted, y, hy⟩ := hdotted item hitem hne
    refine ⟨other, hother, hlisted, _, hname, .inl (.inr ⟨x ++ y, ?_⟩)⟩
    rw [hy]
    simp only [String.append_assoc]

end

theorem dotted_list_bounded :
    Dotted [".example.com"] ∧
      ∀ cert, matchesAllowedSuffixes (some cert) [".example.com"] = true →
        Bounded [".example.com"] cert := by
  have hdotted : Dotted [".example.com"] := by
    intro item hitem _
    rw [List.mem_singleton.mp hitem]
    exact ⟨".example.com", by simp, by decide, "", by decide⟩
  exact ⟨hdotted, (allowedSuffixes_bounded_iff [".example.com"]).mpr hdotted⟩

/-- A name that only ends like the listed domain is accepted. -/
theorem lookalike_accepted :
    matchesAllowedSuffixes (some (named "evilexample.com")) ["example.com"] = true ∧
      ¬ Bounded ["example.com"] (named "evilexample.com") := by
  refine ⟨by decide, ?_⟩
  have hlisted : listed "example.com" = "example.com" := by decide
  rintro ⟨item, hitem, -, name, hname, hon⟩
  rw [List.mem_singleton.mp hitem, hlisted] at hon
  rw [(mem_certNames_named (by decide) (by decide)).mp hname] at hon
  rcases hon with (heq | ⟨x, hx⟩) | ⟨base, hbase, -⟩
  · exact absurd heq (by decide)
  · have hsuffix : hasSuffix "evilexample.com" ".example.com" = true :=
      hasSuffix_iff.mpr ⟨x, hx.trans (String.append_assoc ..)⟩
    exact absurd hsuffix (by decide)
  · exact absurd (hasPrefix_iff.mpr ⟨base, hbase⟩) (by decide)

section

variable [CaseTables]

/-! ## Names -/

theorem dnsMatch_iff {pattern host : String} (hp : normalName pattern = pattern)
    (hpne : pattern ≠ "") (hh : normalName host = host) (hhne : host ≠ "") :
    dnsMatch pattern host = true ↔
      pattern = host ∨ ∃ base, pattern = "*." ++ base ∧ ∃ x, host = x ++ "." ++ base := by
  simp only [dnsMatch, hp, hh, hpne, hhne, or_self, ↓reduceIte]
  by_cases heq : pattern = host
  · simp [heq]
  · by_cases hwild : hasPrefix pattern "*." = true
    · obtain ⟨base, rfl⟩ := hasPrefix_iff.mp hwild
      rw [if_neg heq, if_pos hwild, trimPrefix_append, Bool.and_eq_true, hasSuffix_iff]
      constructor
      · rintro ⟨⟨x, hx⟩, -⟩
        exact .inr ⟨base, rfl, x, by rw [hx, String.append_assoc]⟩
      · rintro (h | ⟨base', hbase, x, hx⟩)
        · exact absurd h heq
        · obtain rfl := (String.append_right_inj _).mp hbase
          -- the dots of the base and the one before it are in the host
          refine ⟨⟨x, by rw [hx, String.append_assoc]⟩, decide_eq_true ?_⟩
          rw [hx, count, count]
          simp
    · rw [if_neg heq, if_neg hwild]
      constructor
      · intro h
        cases h
      · rintro (h | ⟨base, rfl, -⟩)
        · exact absurd h heq
        · exact absurd (hasPrefix_append "*." base) hwild

/-- An allowed name and a certificate name that fit, with a wildcard standing for any number
of labels on either side. -/
def Fits (a c : String) : Prop :=
  c = a ∨ (∃ b, a = "*." ++ b ∧ ∃ x, c = x ++ "." ++ b) ∨
    ∃ b, c = "*." ++ b ∧ ∃ x, a = x ++ "." ++ b

theorem matchesAllowedNames_iff [LawfulTables] (cert : Certificate) (names : List String) :
    matchesAllowedNames (some cert) names = true ↔
      ∃ allowed ∈ names, normalName allowed ≠ "" ∧
        ∃ c ∈ certNames cert, Fits (normalName allowed) c := by
  simp only [matchesAllowedNames, List.any_eq_true, Bool.and_eq_true, decide_eq_true_iff,
    Bool.or_eq_true]
  refine exists_congr fun allowed => and_congr_right fun _ => and_congr_right fun hne => ?_
  refine exists_congr fun c => and_congr_right fun hc => ?_
  have hnormal := normalName_of_mem_certNames hc
  have hcne := (mem_certNames.mp hc).1
  rw [dnsMatch_iff hnormal hcne (normalName_normalName allowed) hne,
    dnsMatch_iff (normalName_normalName allowed) hne hnormal hcne]
  constructor
  · rintro ((h | h) | (h | h))
    · exact .inl h
    · exact .inr (.inr h)
    · exact .inl h.symm
    · exact .inr (.inl h)
  · rintro (h | h | h)
    · exact .inl (.inl h)
    · exact .inr (.inr h)
    · exact .inl (.inr h)

/-- The same, with the wildcard of a certificate standing for one label. -/
def OneLabel (a c : String) : Prop :=
  c = a ∨ (∃ b, a = "*." ++ b ∧ ∃ x, c = x ++ "." ++ b) ∨
    ∃ b l, c = "*." ++ b ∧ a = l ++ "." ++ b ∧ l ≠ "" ∧ '.' ∉ l.toList

def Honoured (names : List String) (cert : Certificate) : Prop :=
  ∃ allowed ∈ names, ∃ c ∈ certNames cert, OneLabel (normalName allowed) c

/-- Where a listed name goes on to the left of a domain with no label or with several, some
listed name takes the wildcard of that domain for one label. -/
def Shallow (names : List String) : Prop :=
  ∀ allowed ∈ names, ∀ x b, normalName allowed = x ++ "." ++ b → x = "" ∨ '.' ∈ x.toList →
    ∃ other ∈ names, OneLabel (normalName other) ("*." ++ b)

/-- **Wildcards of certificates.** A list of names takes the wildcard of a certificate for
one label exactly when no name of it is deeper under a domain than the list allows. -/
theorem allowedNames_oneLabel_iff [LawfulTables] (names : List String) :
    (∀ cert, matchesAllowedNames (some cert) names = true → Honoured names cert) ↔
      Shallow names := by
  constructor
  · intro hhonoured allowed hallowed x b hx hdeep
    have hwild : normalName ("*." ++ b) = "*." ++ b := by
      refine @normalName_exchange _ x "*" ("." ++ b) ?_ (by simp) (by decide)
        (List.all_iff_forall_prop.mp (by decide))
      rw [← String.append_assoc, ← hx]
      exact normalName_normalName allowed
    have hne : "*." ++ b ≠ "" := by simp
    have hfits : Fits (normalName allowed) ("*." ++ b) := .inr (.inr ⟨b, rfl, x, hx⟩)
    have hmatch : matchesAllowedNames (some (named ("*." ++ b))) names = true :=
      (matchesAllowedNames_iff _ _).mpr
        ⟨allowed, hallowed, by simp [hx], _, (mem_certNames_named hwild hne).mpr rfl, hfits⟩
    obtain ⟨other, hother, c, hc, hone⟩ := hhonoured _ hmatch
    rw [(mem_certNames_named hwild hne).mp hc] at hone
    exact ⟨other, hother, hone⟩
  · intro hshallow cert hmatch
    obtain ⟨allowed, hallowed, -, c, hc, hfits⟩ := (matchesAllowedNames_iff _ _).mp hmatch
    rcases hfits with heq | hpattern | ⟨b, rfl, x, hx⟩
    · exact ⟨allowed, hallowed, c, hc, .inl heq⟩
    · exact ⟨allowed, hallowed, c, hc, .inr (.inl hpattern)⟩
    · by_cases hdeep : x = "" ∨ '.' ∈ x.toList
      · obtain ⟨other, hother, hone⟩ := hshallow allowed hallowed x b hx hdeep
        exact ⟨other, hother, _, hc, hone⟩
      · rw [not_or] at hdeep
        exact ⟨allowed, hallowed, _, hc, .inr (.inr ⟨b, x, rfl, hx, hdeep.1, hdeep.2⟩)⟩

end

theorem two_labels_honoured :
    Shallow ["example.com"] ∧
      ∀ cert, matchesAllowedNames (some cert) ["example.com"] = true →
        Honoured ["example.com"] cert := by
  suffices hshallow : Shallow ["example.com"] from
    ⟨hshallow, (allowedNames_oneLabel_iff ["example.com"]).mpr hshallow⟩
  intro allowed hallowed x b hx hdeep
  rw [List.mem_singleton.mp hallowed] at hx
  have hchars : "example.com".toList = x.toList ++ '.' :: b.toList := by
    have hnormal : normalName "example.com" = "example.com" := by decide
    rw [← hnormal, hx]
    simp
  rcases hdeep with rfl | hdot
  · exact absurd (congrArg List.head? hchars) (by simp)
  · -- a second dot
    have hcount := congrArg (List.count '.') hchars
    have hpos : 0 < x.toList.count '.' := List.count_pos_iff.mpr hdot
    rw [List.count_append, List.count_cons_self] at hcount
    have hone : "example.com".toList.count '.' = 1 := by decide
    omega

/-- The wildcard stands for two labels. -/
theorem deep_wildcard_accepted :
    matchesAllowedNames (some (named "*.example.com")) ["a.b.example.com"] = true ∧
      ¬ Honoured ["a.b.example.com"] (named "*.example.com") := by
  refine ⟨by decide, ?_⟩
  have hnormal : normalName "a.b.example.com" = "a.b.example.com" := by decide
  rintro ⟨allowed, hallowed, c, hc, hone⟩
  rw [List.mem_singleton.mp hallowed, hnormal] at hone
  rw [(mem_certNames_named (by decide) (by decide)).mp hc] at hone
  rcases hone with heq | ⟨b, hb, -⟩ | ⟨b, l, hb, hl, -, hdots⟩
  · exact absurd heq (by decide)
  · exact absurd (hasPrefix_iff.mpr ⟨b, hb⟩) (by decide)
  · have hbase : "example.com" = b := (String.append_right_inj "*.").mp hb
    have hchars := congrArg (List.count '.' ∘ String.toList) hl
    rw [← hbase] at hchars
    simp [List.count_eq_zero_of_not_mem hdots] at hchars

section

variable [CaseTables]

/-! ## Pins -/

/-- The texts differ in the case of letters only. -/
def SameUpToCase (s t : String) : Prop := s.toList.map Char.toLower = t.toList.map Char.toLower

/-- **Pins.** A list of valid pins accepts the keys with a pinned hash only exactly when every
hash whose text differs from a pin in the case of letters only is pinned as well. -/
theorem pins_exact_iff (pins : List String)
    (hvalid : ∀ pin ∈ pins, ∃ hash : Digest, Base64.decode pin = some hash.val) :
    (∀ (sum256 : List UInt8 → Digest) (cert : Certificate),
        matchesSPKI sum256 (some cert) pins = true →
        ∃ pin ∈ pins, Base64.decode pin = some (sum256 cert.rawSubjectPublicKeyInfo).val) ↔
      ∀ pin ∈ pins, ∀ hash : Digest, SameUpToCase (trimSpace pin) (Base64.encode hash.val) →
        ∃ other ∈ pins, Base64.decode other = some hash.val := by
  have hfold : ∀ pin ∈ pins, ∀ hash : Digest,
      equalFold (trimSpace pin) (Base64.encode hash.val) = true ↔
        SameUpToCase (trimSpace pin) (Base64.encode hash.val) := by
    intro pin hpin hash
    obtain ⟨_, hdecode⟩ := hvalid pin hpin
    refine equalFold_ascii (fun c hc => ?_) (Base64.ascii_of_decode (Base64.decode_encode _))
    exact Base64.ascii_of_decode hdecode c ((trimSpace_sublist pin).mem hc)
  constructor
  · intro hexact pin hpin hash hsame
    refine hexact (fun _ => hash) {} (List.any_eq_true.mpr ⟨pin, hpin, ?_⟩)
    exact (hfold pin hpin hash).mpr hsame
  · intro hpinned sum256 cert hmatch
    obtain ⟨pin, hpin, hequal⟩ := List.any_eq_true.mp hmatch
    exact hpinned pin hpin _ ((hfold pin hpin _).mp hequal)

end

/-- Neither case of a letter is anything but a letter. -/
theorem toLower_eq_or_isAlpha {c : Char} (hc : c.toNat < 128) :
    c.toLower = c ∨ c.isAlpha = true ∧ c.toLower.isAlpha = true :=
  @ascii_forall (fun c => c.toLower = c ∨ c.isAlpha = true ∧ c.toLower.isAlpha = true)
    (by decide +kernel) c hc

/-- ASCII text without letters. -/
def Letterless (s : String) : Prop := ∀ c ∈ s.toList, c.toNat < 128 ∧ c.isAlpha = false

/-- Text without letters has no other spelling. -/
theorem eq_of_sameUpToCase {s t : String} (hs : Letterless s)
    (ht : ∀ c ∈ t.toList, c.toNat < 128) (h : SameUpToCase s t) : s = t := by
  have hchars : ∀ xs ys : List Char, (∀ c ∈ xs, c.toNat < 128 ∧ c.isAlpha = false) →
      (∀ c ∈ ys, c.toNat < 128) → xs.map Char.toLower = ys.map Char.toLower → xs = ys := by
    intro xs
    induction xs with
    | nil =>
      intro ys _ _ hmap
      exact (List.map_eq_nil_iff.mp hmap.symm).symm
    | cons x xs ih =>
      intro ys hxs hys hmap
      cases ys with
      | nil => cases hmap
      | cons y ys =>
        rw [List.map_cons, List.map_cons, List.cons.injEq] at hmap
        rw [List.forall_mem_cons] at hxs hys
        have hx : x.toLower = x := by
          refine (toLower_eq_or_isAlpha hxs.1.1).resolve_right fun halpha => ?_
          exact absurd (hxs.1.2.symm.trans halpha.1) (by decide)
        have hy : y.toLower = y := by
          refine (toLower_eq_or_isAlpha hys.1).resolve_right fun halpha => ?_
          rw [← hmap.1, hx, hxs.1.2] at halpha
          exact absurd halpha.2 (by decide)
        rw [← hx, hmap.1, hy, ih ys hxs.2 hys.2 hmap.2]
  exact String.toList_injective (hchars _ _ hs ht h)

/-- A pin of digits and signs is met by its own hash only. -/
theorem decode_letterless {pin : String} {hash : Digest} (hletters : Letterless pin)
    (h : SameUpToCase pin (Base64.encode hash.val)) : Base64.decode pin = some hash.val := by
  rw [eq_of_sameUpToCase hletters (Base64.ascii_of_decode (Base64.decode_encode _)) h,
    Base64.decode_encode]

/-- A pin of zeros, and the hash it stands for. -/
def zerosPin : String := String.ofList (List.replicate 43 '0' ++ ['='])

def zerosHash : Digest :=
  ⟨(List.replicate 10 [0xd3, 0x4d, 0x34]).flatten ++ [0xd3, 0x4d], rfl⟩

theorem zeros_pin_exact :
    (∀ pin ∈ [zerosPin], ∃ hash : Digest, Base64.decode pin = some hash.val) ∧
      ∀ (sum256 : List UInt8 → Digest) (cert : Certificate),
        matchesSPKI sum256 (some cert) [zerosPin] = true →
        ∃ pin ∈ [zerosPin],
          Base64.decode pin = some (sum256 cert.rawSubjectPublicKeyInfo).val := by
  have hvalid : ∀ pin ∈ [zerosPin], ∃ hash : Digest, Base64.decode pin = some hash.val := by
    intro pin hpin
    exact ⟨zerosHash, by rw [List.mem_singleton.mp hpin]; decide +kernel⟩
  refine ⟨hvalid, (pins_exact_iff [zerosPin] hvalid).mpr ?_⟩
  intro pin hpin hash hsame
  have htrim : trimSpace zerosPin = zerosPin := by decide +kernel
  have hletters : Letterless zerosPin := List.all_iff_forall_prop.mp (by decide +kernel)
  rw [List.mem_singleton.mp hpin, htrim] at hsame
  exact ⟨zerosPin, List.mem_singleton_self _, decode_letterless hletters hsame⟩

/-- The pin `aAA…A=` accepts the key whose hash is written `AAA…A=`. -/
theorem respelled_pin_accepted :
    (∀ pin ∈ [String.ofList ('a' :: List.replicate 42 'A' ++ ['='])],
        ∃ hash : Digest, Base64.decode pin = some hash.val) ∧
      matchesSPKI (fun _ => ⟨List.replicate 32 0, rfl⟩) (some {})
        [String.ofList ('a' :: List.replicate 42 'A' ++ ['='])] = true ∧
      ¬ ∃ pin ∈ [String.ofList ('a' :: List.replicate 42 'A' ++ ['='])],
        Base64.decode pin = some (List.replicate 32 0) := by
  refine ⟨?_, by decide +kernel, by decide +kernel⟩
  intro pin hpin
  exact ⟨⟨0x68 :: List.replicate 31 0, rfl⟩, by rw [List.mem_singleton.mp hpin]; decide +kernel⟩

end SniShaper.CertVerify
