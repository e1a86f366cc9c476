import SniShaper.Route.Candidates

/-! The TLS client configs of upstream connections: `GetUConn` of `proxy/proxy.go` with
the verification it installs (`proxy/cert_verify.go`). The ClientHello fingerprint that
uTLS applies on top is not part of the config.

* `buildVerifyConnection_eq_none_iff`: when no verification is installed;
* `verified_iff`: when the config does not switch off all verification. -/

namespace SniShaper.ClientConfig

open Strings Config Hosts

section

variable [CaseTables]

/-- The mode of a config that names none. -/
def inferMode (cfg : CertVerifyConfig) : String :=
  if cfg.names ≠ [] then "allow_names"
  else if cfg.suffixes ≠ [] then "allow_suffixes"
  else if cfg.spkiSHA256 ≠ [] then "allow_spki"
  else ""

def normalizeCertVerifyConfig (cfg : CertVerifyConfig) (verifyName : String) :
    CertVerifyConfig :=
  let mode := trimSpace cfg.mode
  let mode := if mode = "" then inferMode cfg else mode
  let names := cfg.names.map normalizeHost
  { cfg with
    mode := mode
    names :=
      if mode = "strict_real" ∧ verifyName ≠ "" ∧ names = [] then [normalizeHost verifyName]
      else names
    suffixes := cfg.suffixes.map fun s => toLower (trimSpace s)
    spkiSHA256 := cfg.spkiSHA256.map trimSpace }

/-- The closure `buildVerifyConnection` returns, by what it captures. -/
structure Verifier where
  realName : String
  cfg : CertVerifyConfig
  deriving DecidableEq, Repr

def buildVerifyConnection (realName : String) (cfg : CertVerifyConfig) : Option Verifier :=
  let cfg := normalizeCertVerifyConfig cfg realName
  if cfg.mode = "" then none else some ⟨realName, cfg⟩

/-- A TLS client config, of uTLS or of `crypto/tls`. -/
structure TLSConfig where
  serverName : String
  insecureSkipVerify : Bool
  encryptedClientHelloConfigList : List UInt8
  nextProtos : List String
  verifyConnection : Option Verifier
  insecureServerNameToVerify : String := ""
  deriving DecidableEq, Repr

/-- The config of `GetUConn`; `bypassed` are the hosts in `certBypassMap`. -/
def getUConn (bypassed : List String) (sni verifyName : String) (rule : Rule)
    (allowInsecure : Bool) (alpn : String) (echConfig : List UInt8) : TLSConfig :=
  let manual := normalizeHost verifyName ∈ bypassed
  let ech := echConfig ≠ []
  { serverName :=
      if ech then verifyName
      else if sni = "" then verifyName
      else sni
    insecureSkipVerify :=
      if ech then false
      else if manual then true
      else if rule.certVerify.mode ≠ "" then true
      else allowInsecure
    encryptedClientHelloConfigList := echConfig
    nextProtos :=
      if equalFold (trimSpace alpn) "http/1.1" then ["http/1.1"] else ["h2", "http/1.1"]
    verifyConnection :=
      if ech ∨ manual then none else buildVerifyConnection verifyName rule.certVerify
    insecureServerNameToVerify := if ech then "*" else "" }

/-- Without an ECH config the plain SNI is the chosen name, or the target when no name
was chosen. -/
theorem getUConn_serverName_plain (bypassed : List String) (sni verifyName : String) (rule : Rule)
    (allowInsecure : Bool) (alpn : String) :
    (getUConn bypassed sni verifyName rule allowInsecure alpn []).serverName =
      if sni = "" then verifyName else sni := by
  simp [getUConn]

/-! ## No verification at all -/

/-- The config asks for nothing: its mode is blank and its lists are empty. -/
def Blank (cfg : CertVerifyConfig) : Prop :=
  trimSpace cfg.mode = "" ∧ cfg.names = [] ∧ cfg.suffixes = [] ∧ cfg.spkiSHA256 = []

omit [CaseTables] in
theorem inferMode_eq_empty_iff (cfg : CertVerifyConfig) :
    inferMode cfg = "" ↔ cfg.names = [] ∧ cfg.suffixes = [] ∧ cfg.spkiSHA256 = [] := by
  unfold inferMode
  by_cases hnames : cfg.names = []
  · by_cases hsuffixes : cfg.suffixes = []
    · by_cases hspki : cfg.spkiSHA256 = []
      · simp [hnames, hsuffixes, hspki]
      · simp [hnames, hsuffixes, hspki]
    · simp [hnames, hsuffixes]
  · simp [hnames]

theorem buildVerifyConnection_eq_none_iff (realName : String) (cfg : CertVerifyConfig) :
    buildVerifyConnection realName cfg = none ↔ Blank cfg := by
  have hmode : (normalizeCertVerifyConfig cfg realName).mode =
      if trimSpace cfg.mode = "" then inferMode cfg else trimSpace cfg.mode := rfl
  unfold buildVerifyConnection Blank
  simp only [hmode]
  by_cases hblank : trimSpace cfg.mode = ""
  · rw [if_pos hblank, ← inferMode_eq_empty_iff]
    by_cases hinfer : inferMode cfg = ""
    · simp [hblank, hinfer]
    · simp [hinfer]
  · simp [hblank]

/-- **Verification is on.** A host that is not bypassed is dialled without any verification
exactly when there is no ECH config and the rule asks for nothing in a mode that is written
down as spaces. -/
theorem verified_iff (bypassed : List String) (sni verifyName : String) (rule : Rule)
    (alpn : String) (echConfig : List UInt8) (hhost : normalizeHost verifyName ∉ bypassed) :
    ¬ ((getUConn bypassed sni verifyName rule false alpn echConfig).insecureSkipVerify = true ∧
        (getUConn bypassed sni verifyName rule false alpn echConfig).verifyConnection = none) ↔
      echConfig ≠ [] ∨ rule.certVerify.mode = "" ∨ ¬ Blank rule.certVerify := by
  by_cases hech : echConfig = []
  · subst hech
    simp only [getUConn, hhost, ne_eq, not_true_eq_false, ↓reduceIte, or_self, false_or,
      buildVerifyConnection_eq_none_iff]
    by_cases hmode : rule.certVerify.mode = ""
    · simp [hmode]
    · simp [hmode]
  · simp [getUConn, hech]

end

theorem named_mode_verified :
    normalizeHost "www.example.com" ∉ ["example.org"] ∧
      ¬ ((getUConn ["example.org"] "" "www.example.com" { certVerify := { mode := "chain_only" } }
            false "" []).insecureSkipVerify = true ∧
          (getUConn ["example.org"] "" "www.example.com" { certVerify := { mode := "chain_only" } }
            false "" []).verifyConnection = none) := by
  have hhost : normalizeHost "www.example.com" ∉ ["example.org"] := by decide
  refine ⟨hhost, (verified_iff _ _ _ _ _ _ hhost).mpr (.inr (.inr fun hblank => ?_))⟩
  exact absurd hblank.1 (by decide)

/-- The mode is a space: `GetUConn` takes it for a mode, `buildVerifyConnection` for none. -/
theorem spaces_mode_unverified :
    normalizeHost "www.example.com" ∉ [] ∧
      (getUConn [] "" "www.example.com" { certVerify := { mode := " " } } false ""
        []).insecureSkipVerify = true ∧
      (getUConn [] "" "www.example.com" { certVerify := { mode := " " } } false ""
        []).verifyConnection = none := by
  decide

end SniShaper.ClientConfig
