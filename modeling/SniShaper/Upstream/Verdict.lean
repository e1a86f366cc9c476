import SniShaper.Upstream.CertVerify

/-! The verdict on a peer: the closure that `buildVerifyConnection` of `proxy/cert_verify.go`
installs in the config of a connection. The verification of a chain against the system's roots
is given.

* `verdict_eq_none_iff`: which peers are accepted, by the mode;
* `inferredMode_same_iff`: when a mode that is inferred from the lists gives the same config
  and the same verdicts as the mode that is written down. -/

namespace SniShaper.CertVerify

open Strings Config Hosts ClientConfig

/-- The errors of `x509.Certificate.Verify`. -/
inductive ChainError where
  | unknownAuthority (text : String)
  | other (text : String)
  deriving DecidableEq, Repr

def ChainError.text : ChainError → String
  | .unknownAuthority text => text
  | .other text => text

/-- The verification of a chain for a name, or for none when it is empty. -/
abbrev Verify := String → List Certificate → Option ChainError

def maybeIgnoreUnknownAuthority (err : Option ChainError) (cfg : CertVerifyConfig) :
    Option ChainError :=
  match err with
  | some (.unknownAuthority text) =>
    if cfg.allowUnknownAuthority then none else some (.unknownAuthority text)
  | err => err

/-- The end of the modes with a list. -/
def listVerdict (chain : Option ChainError) (matched : Bool) (message : String) : Option String :=
  match chain with
  | some err => some err.text
  | none => if matched then none else some message

section

variable [CaseTables] (verify : Verify) (sum256 : List UInt8 → Digest)

/-- The error that the closure returns, if any. -/
def verdict (v : Verifier) (peerCertificates : List Certificate) : Option String :=
  match peerCertificates with
  | [] => some "no peer certificates"
  | leaf :: rest =>
    let verifyChain (withDNSName : Bool) : Option ChainError :=
      maybeIgnoreUnknownAuthority
        (verify (if withDNSName then v.realName else "") (leaf :: rest)) v.cfg
    match v.cfg.mode with
    | "strict_real" => (verifyChain true).map ChainError.text
    | "chain_only" => (verifyChain false).map ChainError.text
    | "allow_names" =>
      listVerdict (verifyChain false) (matchesAllowedNames (some leaf) v.cfg.names)
        "certificate names do not match configured allow_names"
    | "allow_suffixes" =>
      listVerdict (verifyChain false) (matchesAllowedSuffixes (some leaf) v.cfg.suffixes)
        "certificate names do not match configured allow_suffixes"
    | "allow_spki" =>
      listVerdict (verifyChain false) (matchesSPKI sum256 (some leaf) v.cfg.spkiSHA256)
        ("leaf spki " ++ spkiHashBase64 sum256 (some leaf) ++ " not in allowlist")
    | mode => some ("unknown cert_verify mode: " ++ mode)

/-- What the config says of a peer; without a closure it says nothing. -/
def configVerdict (config : TLSConfig) (peerCertificates : List Certificate) : Option String :=
  match config.verifyConnection with
  | none => none
  | some v => verdict verify sum256 v peerCertificates

/-! ## Accepted peers -/

omit [CaseTables] in
theorem maybeIgnoreUnknownAuthority_eq_none_iff {err : Option ChainError}
    {cfg : CertVerifyConfig} :
    maybeIgnoreUnknownAuthority err cfg = none ↔
      err = none ∨
        cfg.allowUnknownAuthority = true ∧ ∃ text, err = some (.unknownAuthority text) := by
  unfold maybeIgnoreUnknownAuthority
  rcases err with _ | ⟨text⟩ | ⟨text⟩
  · simp
  · simp
  · simp

omit [CaseTables] in
theorem listVerdict_eq_none_iff {chain : Option ChainError} {matched : Bool} {message : String} :
    listVerdict chain matched message = none ↔ chain = none ∧ matched = true := by
  unfold listVerdict
  cases chain with
  | some err => simp
  | none => cases matched <;> simp

/-- The chain is good for the name, or only its authority is unknown and that is allowed. -/
def ChainAccepted (v : Verifier) (name : String) (chain : List Certificate) : Prop :=
  verify name chain = none ∨
    v.cfg.allowUnknownAuthority = true ∧ ∃ text, verify name chain = some (.unknownAuthority text)

/-- Which peers a mode accepts. -/
inductive Accepts (v : Verifier) (leaf : Certificate) (rest : List Certificate) : Prop
  | strictReal (hmode : v.cfg.mode = "strict_real")
      (hchain : ChainAccepted verify v v.realName (leaf :: rest))
  | chainOnly (hmode : v.cfg.mode = "chain_only")
      (hchain : ChainAccepted verify v "" (leaf :: rest))
  | allowNames (hmode : v.cfg.mode = "allow_names")
      (hchain : ChainAccepted verify v "" (leaf :: rest))
      (hnames : matchesAllowedNames (some leaf) v.cfg.names = true)
  | allowSuffixes (hmode : v.cfg.mode = "allow_suffixes")
      (hchain : ChainAccepted verify v "" (leaf :: rest))
      (hsuffixes : matchesAllowedSuffixes (some leaf) v.cfg.suffixes = true)
  | allowSPKI (hmode : v.cfg.mode = "allow_spki")
      (hchain : ChainAccepted verify v "" (leaf :: rest))
      (hpins : matchesSPKI sum256 (some leaf) v.cfg.spkiSHA256 = true)

/-- A peer with certificates is accepted exactly as the mode says. -/
theorem verdict_eq_none_iff (v : Verifier) (leaf : Certificate) (rest : List Certificate) :
    verdict verify sum256 v (leaf :: rest) = none ↔ Accepts verify sum256 v leaf rest := by
  have hchain : ∀ name, maybeIgnoreUnknownAuthority (verify name (leaf :: rest)) v.cfg = none ↔
      ChainAccepted verify v name (leaf :: rest) := fun _ =>
    maybeIgnoreUnknownAuthority_eq_none_iff
  unfold verdict
  simp only [if_true, Bool.false_eq_true, if_false]
  constructor
  · intro h
    split at h
    · rename_i hmode
      exact .strictReal hmode ((hchain _).mp (Option.map_eq_none_iff.mp h))
    · rename_i hmode
      exact .chainOnly hmode ((hchain _).mp (Option.map_eq_none_iff.mp h))
    · rename_i hmode
      obtain ⟨hc, hmatched⟩ := listVerdict_eq_none_iff.mp h
      exact .allowNames hmode ((hchain _).mp hc) hmatched
    · rename_i hmode
      obtain ⟨hc, hmatched⟩ := listVerdict_eq_none_iff.mp h
      exact .allowSuffixes hmode ((hchain _).mp hc) hmatched
    · rename_i hmode
      obtain ⟨hc, hmatched⟩ := listVerdict_eq_none_iff.mp h
      exact .allowSPKI hmode ((hchain _).mp hc) hmatched
    · cases h
  · intro h
    cases h with
    | strictReal hmode hc =>
      simp only [hmode]
      exact Option.map_eq_none_iff.mpr ((hchain _).mpr hc)
    | chainOnly hmode hc =>
      simp only [hmode]
      exact Option.map_eq_none_iff.mpr ((hchain _).mpr hc)
    | allowNames hmode hc hnames =>
      simp only [hmode]
      exact listVerdict_eq_none_iff.mpr ⟨(hchain _).mpr hc, hnames⟩
    | allowSuffixes hmode hc hsuffixes =>
      simp only [hmode]
      exact listVerdict_eq_none_iff.mpr ⟨(hchain _).mpr hc, hsuffixes⟩
    | allowSPKI hmode hc hpins =>
      simp only [hmode]
      exact listVerdict_eq_none_iff.mpr ⟨(hchain _).mpr hc, hpins⟩

end

/-! ## Inferred modes -/

section

variable [CaseTables]

/-- The rule with the mode written down that is inferred for it. -/
def writeMode (rule : Rule) (verifyName : String) : Rule :=
  { rule with
    certVerify := { rule.certVerify with
      mode := (normalizeCertVerifyConfig rule.certVerify verifyName).mode } }

omit [CaseTables] in
theorem inferMode_trimmed (cfg : CertVerifyConfig) : trimSpace (inferMode cfg) = inferMode cfg := by
  unfold inferMode
  split
  · decide
  · split
    · decide
    · split <;> decide

theorem normalize_mode (cfg : CertVerifyConfig) (verifyName : String)
    (h : trimSpace cfg.mode = "") :
    (normalizeCertVerifyConfig cfg verifyName).mode = inferMode cfg := by
  simp only [normalizeCertVerifyConfig, h, if_true]

/-- Writing the inferred mode down leaves the normal form as it is. -/
theorem normalize_writeMode (rule : Rule) (verifyName name : String)
    (hblank : trimSpace rule.certVerify.mode = "") (hlist : inferMode rule.certVerify ≠ "") :
    normalizeCertVerifyConfig (writeMode rule verifyName).certVerify name =
      normalizeCertVerifyConfig rule.certVerify name := by
  simp only [writeMode, normalizeCertVerifyConfig, inferMode_trimmed, hlist, if_false, hblank,
    if_true]

/-- A mode that is inferred gives the flag and the verdicts of the mode that is written down
exactly when there is an ECH config, the host is bypassed, the caller allows insecure
connections or the blank mode is not empty. -/
theorem inferredMode_same_iff (bypassed : List String) (sni verifyName : String) (rule : Rule)
    (allowInsecure : Bool) (alpn : String) (echConfig : List UInt8)
    (hblank : trimSpace rule.certVerify.mode = "")
    (hlist : rule.certVerify.names ≠ [] ∨ rule.certVerify.suffixes ≠ [] ∨
      rule.certVerify.spkiSHA256 ≠ []) :
    let inferred := getUConn bypassed sni verifyName rule allowInsecure alpn echConfig
    let explicit :=
      getUConn bypassed sni verifyName (writeMode rule verifyName) allowInsecure alpn echConfig
    (inferred.insecureSkipVerify = explicit.insecureSkipVerify ∧
        ∀ verify sum256 peerCertificates,
          configVerdict verify sum256 inferred peerCertificates =
            configVerdict verify sum256 explicit peerCertificates) ↔
      echConfig ≠ [] ∨ normalizeHost verifyName ∈ bypassed ∨ allowInsecure = true ∨
        rule.certVerify.mode ≠ "" := by
  intro inferred explicit
  have hmode : inferMode rule.certVerify ≠ "" := by
    rw [ne_eq, inferMode_eq_empty_iff]
    tauto
  have hexplicit : (writeMode rule verifyName).certVerify.mode ≠ "" := by
    rw [writeMode, normalize_mode _ _ hblank]
    exact hmode
  -- the closures are the same
  have hverifier : inferred.verifyConnection = explicit.verifyConnection := by
    simp only [inferred, explicit, getUConn, buildVerifyConnection,
      normalize_writeMode rule verifyName verifyName hblank hmode]
  have hverdict : ∀ verify sum256 peerCertificates,
      configVerdict verify sum256 inferred peerCertificates =
        configVerdict verify sum256 explicit peerCertificates := by
    intro verify sum256 peerCertificates
    rw [configVerdict, configVerdict, hverifier]
  rw [and_iff_left hverdict]
  simp only [inferred, explicit, getUConn]
  by_cases hech : echConfig = []
  · by_cases hhost : normalizeHost verifyName ∈ bypassed
    · simp [hhost]
    · by_cases hraw : rule.certVerify.mode = ""
      · simp [hech, hhost, hraw, hexplicit]
      · simp [hhost, hraw, hexplicit]
  · simp [hech]

end

/-- A rule that lists a name without a mode. -/
def namesOnly : Rule := { certVerify := { names := ["a.example"] } }

theorem inferredMode_same_insecure :
    trimSpace namesOnly.certVerify.mode = "" ∧
      (getUConn [] "" "b.example" namesOnly true "" []).insecureSkipVerify =
        (getUConn [] "" "b.example" (writeMode namesOnly "b.example") true ""
          []).insecureSkipVerify := by
  have hblank : trimSpace namesOnly.certVerify.mode = "" := by decide
  refine ⟨hblank, ((inferredMode_same_iff [] "" "b.example" namesOnly true "" [] hblank
    (.inl (by decide))).mpr (.inr (.inr (.inl rfl)))).1⟩

/-- Without a written mode the names are checked on top of the standard verification, with the
mode that is inferred in place of it. -/
theorem inferredMode_differs :
    trimSpace namesOnly.certVerify.mode = "" ∧ namesOnly.certVerify.names ≠ [] ∧
      (writeMode namesOnly "b.example").certVerify.mode = "allow_names" ∧
      (getUConn [] "" "b.example" namesOnly false "" []).insecureSkipVerify = false ∧
      (getUConn [] "" "b.example" (writeMode namesOnly "b.example") false ""
        []).insecureSkipVerify = true := by
  decide

end SniShaper.CertVerify
