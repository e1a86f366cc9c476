import SniShaper.Upstream.Trace

/-! The choice of the application protocol (ALPN) on the two sides of the proxy:
`negotiateALPN` and `checkALPN` of `utls`, which are those of `crypto/tls`, and
`nextProtosForNegotiatedALPN` of `proxy/proxy.go`.

* `establishUpstreamConn_offers`: what every upstream handshake offers;
* `establishUpstreamConn_negotiates`: what an upstream connection can speak;
* `negotiateALPN_h2`: which clients a server of h2 alone serves without h2. -/

namespace SniShaper.Alpn

open Strings Config ClientConfig Profiles Establish

/-! ## The source's functions -/

/-- The server's side: its first protocol that the client offers. A client that offers
http/1.1 to a server of h2 alone is served without ALPN. -/
def negotiateALPN (serverProtos clientProtos : List String) (quic : Bool) :
    Except String String :=
  if serverProtos = [] ∨ clientProtos = [] then
    if quic = true ∧ serverProtos ≠ [] then
      .error "tls: client did not request an application protocol"
    else .ok ""
  else match serverProtos.find? fun s => decide (s ∈ clientProtos) with
    | some s => .ok s
    | none =>
      if "h2" ∈ serverProtos ∧ "http/1.1" ∈ clientProtos then .ok ""
      else .error ("tls: client requested unsupported application protocols ([" ++
        join clientProtos " " ++ "])")

/-- The client's side: the server has to choose a protocol that was offered. -/
def checkALPN (clientProtos : List String) (serverProto : String) (quic : Bool) :
    Except String Unit :=
  if serverProto = "" then
    if quic = true ∧ clientProtos ≠ [] then
      .error "tls: server did not select an ALPN protocol"
    else .ok ()
  else if clientProtos = [] then .error "tls: server advertised unrequested ALPN extension"
  else if serverProto ∈ clientProtos then .ok ()
  else .error "tls: server selected unadvertised ALPN protocol"

/-- The handshake of a uTLS client with a server that chooses a protocol. -/
def utlsHandshake (offered : List String) : Handshake → Handshake
  | .done serverProto =>
    match checkALPN offered serverProto false with
    | .ok () => .done serverProto
    | .error err => .failed err
  | .echRejected err => .echRejected err
  | .failed err => .failed err

/-- What the upstream side offers when it is not asked for http/1.1 only. -/
def upstreamOffer : List String := ["h2", "http/1.1"]

/-- The network of a run whose handshakes are those of uTLS, over what the servers choose. -/
def withUTLS (servers : Env) : Env :=
  { servers with
    network := fun n =>
      { servers.network n with
        handshake := utlsHandshake upstreamOffer (servers.network n).handshake } }

section

variable [CaseTables]

def nextProtosForNegotiatedALPN (alpn : String) : List String :=
  if equalFold (trimSpace alpn) "h2" then ["h2"] else ["http/1.1"]

/-! ## The upstream side -/

theorem getUConn_nextProtos (bypassed : List String) (sni verifyName : String) (rule : Rule)
    (allowInsecure : Bool) (echConfig : List UInt8) :
    (getUConn bypassed sni verifyName rule allowInsecure "h2_h1" echConfig).nextProtos =
      upstreamOffer := by
  have hne : equalFold (trimSpace "h2_h1") "http/1.1" = false := by
    rw [show trimSpace "h2_h1" = "h2_h1" by decide]
    unfold equalFold
    simp
  simp only [getUConn, hne, Bool.false_eq_true, if_false, upstreamOffer]

/-- Without an initial protocol every handshake of a run offers h2 and http/1.1. -/
theorem establishUpstreamConn_offers (env : Env) (host : String) (rule : Rule)
    (dialCandidates : List String) (store : List ECHProfile) :
    ∀ a ∈ (establishUpstreamConn env host rule dialCandidates "" { store := store }).2.handshakes,
      a.config.nextProtos = upstreamOffer := by
  have hkeeps : (establishUpstreamConn env host rule dialCandidates "" { store := store }).2.Keeps
      (fun _ => True) (fun a => a.config.nextProtos = upstreamOffer) := by
    refine establishUpstreamConn_keeps (fun _ _ _ h => h) (fun r _ a hmakes _ => ?_)
      ⟨trivial, by simp⟩
    obtain ⟨_, _, hconfig⟩ := hmakes
    rw [hconfig]
    exact getUConn_nextProtos ..
  exact hkeeps.made

omit [CaseTables] in
theorem utlsHandshake_done {offered : List String} {h : Handshake} {alpn : String}
    (hdone : utlsHandshake offered h = .done alpn) : alpn = "" ∨ alpn ∈ offered := by
  cases h with
  | echRejected err => simp [utlsHandshake] at hdone
  | failed err => simp [utlsHandshake] at hdone
  | done serverProto =>
    unfold utlsHandshake at hdone
    simp only at hdone
    by_cases hempty : serverProto = ""
    · simp only [checkALPN, hempty, if_true] at hdone
      left
      simpa using hdone.symm
    · by_cases hin : serverProto ∈ offered
      · have hne : offered ≠ [] := List.ne_nil_of_mem hin
        simp only [checkALPN, hempty, hne, hin, if_true, if_false, Handshake.done.injEq] at hdone
        right
        rwa [← hdone]
      · by_cases hnil : offered = [] <;> simp [checkALPN, hempty, hin, hnil] at hdone

/-- An upstream connection speaks h2 or http/1.1, or no protocol was chosen. -/
theorem establishUpstreamConn_negotiates {servers : Env} {host : String} {rule : Rule}
    {dialCandidates : List String} {initialALPN : String} {run : Run} {alpn : String}
    (h : (establishUpstreamConn (withUTLS servers) host rule dialCandidates initialALPN run).1 =
      .ok alpn) : alpn = "" ∨ alpn ∈ upstreamOffer := by
  have hadds : Adds (withUTLS servers) run _ _ :=
    establishUpstreamConn_adds host rule dialCandidates initialALPN run
  rw [h] at hadds
  cases hadds with
  | connected _ failed last n hfailed hnetwork hdone heq =>
    rw [hnetwork] at hdone
    exact utlsHandshake_done hdone

/-! ## The client's side -/

theorem nextProtosForNegotiatedALPN_h2 : nextProtosForNegotiatedALPN "h2" = ["h2"] := by
  have heq : equalFold (trimSpace "h2") "h2" = true := by
    rw [show trimSpace "h2" = "h2" by decide]
    simp [equalFold]
  simp only [nextProtosForNegotiatedALPN, heq, if_true]

theorem nextProtosForNegotiatedALPN_other {alpn : String} (h : alpn = "" ∨ alpn ∈ upstreamOffer)
    (hne : alpn ≠ "h2") : nextProtosForNegotiatedALPN alpn = ["http/1.1"] := by
  have hfold : equalFold (trimSpace alpn) "h2" = false := by
    simp only [upstreamOffer, List.mem_cons, List.not_mem_nil, or_false] at h
    rcases h with rfl | rfl | rfl
    · rw [show trimSpace "" = "" by decide]
      simp [equalFold]
    · exact absurd rfl hne
    · rw [show trimSpace "http/1.1" = "http/1.1" by decide]
      simp [equalFold]
  simp only [nextProtosForNegotiatedALPN, hfold, Bool.false_eq_true, if_false]

omit [CaseTables] in
/-- A server of one protocol. -/
theorem negotiateALPN_single {proto : String} {clientProtos : List String} {alpn : String}
    (h : negotiateALPN [proto] clientProtos false = .ok alpn) : alpn = "" ∨ alpn = proto := by
  unfold negotiateALPN at h
  split at h
  · simp only [Bool.false_eq_true, false_and, if_false, Except.ok.injEq] at h
    exact .inl h.symm
  · by_cases hin : proto ∈ clientProtos
    · simp only [List.find?, hin, decide_true, Except.ok.injEq] at h
      exact .inr h.symm
    · simp only [List.find?, hin, decide_false] at h
      split at h
      · exact .inl (Except.ok.inj h).symm
      · cases h

end

/-- A client that a server of h2 alone serves, without h2. -/
def ServedPlain (clientProtos : List String) : Prop :=
  "h2" ∉ clientProtos ∧ (clientProtos = [] ∨ "http/1.1" ∈ clientProtos)

instance (clientProtos : List String) : Decidable (ServedPlain clientProtos) :=
  inferInstanceAs (Decidable (_ ∧ _))

/-- What a server of h2 alone chooses. -/
theorem negotiateALPN_h2 (clientProtos : List String) :
    (∃ alpn, negotiateALPN ["h2"] clientProtos false = .ok alpn ∧ alpn ≠ "h2") ↔
      ServedPlain clientProtos := by
  unfold ServedPlain negotiateALPN
  by_cases hnil : clientProtos = []
  · simp [hnil]
  · by_cases hin : "h2" ∈ clientProtos
    · simp [hnil, hin]
    · by_cases hplain : "http/1.1" ∈ clientProtos <;> simp [hnil, hin, hplain]

end SniShaper.Alpn
