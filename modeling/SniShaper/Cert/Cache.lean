import Mathlib.Data.List.Induction
import Mathlib.Logic.Function.Basic
import SniShaper.Lib.Machine
import SniShaper.Route.Hosts

/-! The certificates that the proxy shows its clients (`generateCert` of `proxy/proxy.go`):
they are kept by host, and neither their end nor a change of the CA removes them.

Times are nanoseconds; a certificate has whole seconds. `CA` is the type of CA
certificates. Whether a certificate can be made (the keys, the signature) is an argument.

* `certCache_run`: what the cache holds after any run;
* `served_valid_iff`: when all certificates of a run are valid as they are served. -/

namespace SniShaper.Cert

open Strings Hosts Machine

section

variable [CaseTables] {CA : Type}

structure Certificate (CA : Type) where
  commonName : String
  notBefore : Nat
  notAfter : Nat
  issuer : CA
  deriving DecidableEq, Repr

/-- The fields of `ProxyServer` that are used here. -/
structure ProxyServer (CA : Type) where
  certGenerator : Option CA := none
  certCache : String → Option (Certificate CA) := fun _ => none

/-! ## The source's functions -/

def second : Nat := 1000000000

def hour : Nat := 3600 * second

/-- A time as it stands in a certificate. -/
def wholeSeconds (t : Nat) : Nat := t / second * second

/-- The certificate that is made at a time. -/
def newCertificate (host : String) (caCert : CA) (now : Nat) : Certificate CA :=
  { commonName := host
    notBefore := wholeSeconds now
    notAfter := wholeSeconds (now + 24 * hour)
    issuer := caCert }

def generateCert (p : ProxyServer CA) (host : String) (caCert : CA) (now : Nat)
    (created : Except String Unit) : Except String (Certificate CA) × ProxyServer CA :=
  let host := normalizeHost host
  match p.certCache host with
  | some cert => (.ok cert, p)
  | none =>
    match created with
    | .error err => (.error err, p)
    | .ok () =>
      let cert := newCertificate host caCert now
      (.ok cert, { p with certCache := Function.update p.certCache host (some cert) })

def setCertGenerator (p : ProxyServer CA) (cg : CA) : ProxyServer CA :=
  { p with certGenerator := some cg }

def clearCertCache (p : ProxyServer CA) : ProxyServer CA := { p with certCache := fun _ => none }

/-- The calls of a run. -/
inductive Op (CA : Type) where
  | generateCert (host : String) (caCert : CA) (now : Nat) (created : Except String Unit)
  | setCertGenerator (cg : CA)
  | clearCertCache

def step (p : ProxyServer CA) : Op CA → ProxyServer CA
  | .generateCert host caCert now created => (generateCert p host caCert now created).2
  | .setCertGenerator cg => setCertGenerator p cg
  | .clearCertCache => clearCertCache p

/-! ## The cache -/

def Op.clears : Op CA → Bool
  | .clearCertCache => true
  | _ => false

/-- The calls since the cache was cleared. -/
def sinceClear (ops : List (Op CA)) : List (Op CA) :=
  (ops.reverse.takeWhile fun op => !op.clears).reverse

/-- A call that can make a certificate for the host: its CA and its time. -/
def Op.issues (host : String) : Op CA → Option (CA × Nat)
  | .generateCert name caCert now (.ok ()) =>
    if normalizeHost name = host then some (caCert, now) else none
  | _ => none

/-- The first call since the cache was cleared that could make a certificate for the host. -/
def firstIssue (host : String) (ops : List (Op CA)) : Option (CA × Nat) :=
  (sinceClear ops).findSome? (Op.issues host)

omit [CaseTables] in
theorem sinceClear_concat (ops : List (Op CA)) (op : Op CA) :
    sinceClear (ops ++ [op]) = if op.clears then [] else sinceClear ops ++ [op] := by
  unfold sinceClear
  rw [List.reverse_append, List.reverse_singleton, List.singleton_append, List.takeWhile_cons]
  cases op.clears <;> simp

theorem firstIssue_concat (host : String) (ops : List (Op CA)) (op : Op CA) :
    firstIssue host (ops ++ [op]) =
      if op.clears then none else (firstIssue host ops).or (op.issues host) := by
  unfold firstIssue
  rw [sinceClear_concat]
  cases op.clears <;> simp [List.findSome?_append]

/-- One call: the cache is cleared, or it keeps what it has and takes what the call makes. -/
theorem certCache_step (p : ProxyServer CA) (op : Op CA) (host : String) :
    (step p op).certCache host =
      if op.clears then none
      else (p.certCache host).or ((op.issues host).map fun i => newCertificate host i.1 i.2) := by
  cases op with
  | setCertGenerator cg => simp [step, setCertGenerator, Op.clears, Op.issues]
  | clearCertCache => simp [step, clearCertCache, Op.clears]
  | generateCert name caCert now created =>
    simp only [step, generateCert, Op.clears]
    by_cases hhost : normalizeHost name = host
    · subst hhost
      cases hcached : p.certCache (normalizeHost name) with
      | some cert => simp [hcached]
      | none =>
        cases created with
        | error err => simp [Op.issues, hcached]
        | ok u => simp [Op.issues]
    · have hother : Op.issues host (.generateCert name caCert now created) = none := by
        cases created <;> simp [Op.issues, hhost]
      rw [hother]
      cases p.certCache (normalizeHost name) with
      | some cert => simp
      | none =>
        cases created with
        | error err => simp
        | ok u => simp [Ne.symm hhost]

/-- The cache after a run has for each host the certificate of the first call that made
one since it was cleared. -/
theorem certCache_run (cg : Option CA) (ops : List (Op CA)) (host : String) :
    (run step { certGenerator := cg } ops).certCache host =
      (firstIssue host ops).map fun i => newCertificate host i.1 i.2 := by
  induction ops using List.reverseRecOn with
  | nil => rfl
  | append_singleton ops op ih =>
    have hconcat : run step { certGenerator := cg } (ops ++ [op]) =
        step (run step { certGenerator := cg } ops) op := by
      simp [run]
    rw [hconcat, certCache_step, firstIssue_concat, ih]
    cases op.clears with
    | true => rfl
    | false => cases firstIssue host ops <;> simp

/-- What a call after a run returns: the certificate of the first call, or else its own if
it can be made. -/
theorem generateCert_run (cg : Option CA) (ops : List (Op CA)) (host : String) (caCert : CA)
    (now : Nat) (created : Except String Unit) :
    (generateCert (run step { certGenerator := cg } ops) host caCert now created).1 =
      match firstIssue (normalizeHost host) ops with
      | some i => .ok (newCertificate (normalizeHost host) i.1 i.2)
      | none => created.map fun _ => newCertificate (normalizeHost host) caCert now := by
  have hcache := certCache_run cg ops (normalizeHost host)
  unfold generateCert
  cases hfirst : firstIssue (normalizeHost host) ops with
  | some i => simp only [hcache, hfirst, Option.map_some]
  | none =>
    cases created with
    | error err =>
      simp only [hcache, hfirst, Option.map_none]
      rfl
    | ok u =>
      simp only [hcache, hfirst, Option.map_none]
      rfl

/-! ## Validity -/

/-- A certificate that is in force at the time and comes from the CA. -/
structure ValidAt (cert : Certificate CA) (now : Nat) (caCert : CA) : Prop where
  notBefore : cert.notBefore ≤ now
  notAfter : now ≤ cert.notAfter
  issuer : cert.issuer = caCert

omit [CaseTables] in
theorem wholeSeconds_le (t : Nat) : wholeSeconds t ≤ t := Nat.div_mul_le_self t second

omit [CaseTables] in
theorem le_wholeSeconds (t : Nat) : t ≤ wholeSeconds (t + 24 * hour) := by
  unfold wholeSeconds hour second
  omega

omit [CaseTables] in
/-- A certificate made at a time not after `now`. -/
theorem newCertificate_valid_iff {host : String} {issuer caCert : CA} {made now : Nat}
    (hmade : made ≤ now) :
    ValidAt (newCertificate host issuer made) now caCert ↔
      issuer = caCert ∧ now ≤ wholeSeconds (made + 24 * hour) := by
  constructor
  · intro h
    exact ⟨h.issuer, h.notAfter⟩
  · rintro ⟨hissuer, hafter⟩
    exact ⟨(wholeSeconds_le made).trans hmade, hafter, hissuer⟩

def Op.time : Op CA → Option Nat
  | .generateCert _ _ now _ => some now
  | _ => none

/-- Every certificate that a call of the run returns is valid then. -/
def ServesValid (cg : Option CA) (ops : List (Op CA)) : Prop :=
  EachStep step (fun p op => ∀ host caCert now created cert,
    op = .generateCert host caCert now created →
      (generateCert p host caCert now created).1 = .ok cert → ValidAt cert now caCert)
    { certGenerator := cg } ops

/-- A host that was asked for before, since the cache was cleared, is asked for with the
same CA and within a day. -/
def AskedInTime (ops : List (Op CA)) : Prop :=
  ∀ pre host caCert now created, pre ++ [.generateCert host caCert now created] <+: ops →
    ∀ i ∈ firstIssue (normalizeHost host) pre,
      i.1 = caCert ∧ now ≤ wholeSeconds (i.2 + 24 * hour)

theorem mem_time_of_firstIssue {host : String} {ops : List (Op CA)} {i : CA × Nat}
    (h : firstIssue host ops = some i) : i.2 ∈ ops.filterMap Op.time := by
  obtain ⟨op, hop, hissues⟩ := List.exists_of_findSome?_eq_some h
  have hmem : op ∈ ops :=
    List.mem_reverse.mp ((List.takeWhile_prefix _).subset (List.mem_reverse.mp hop))
  refine List.mem_filterMap.mpr ⟨op, hmem, ?_⟩
  cases op with
  | setCertGenerator cg => cases hissues
  | clearCertCache => cases hissues
  | generateCert name caCert now created =>
    cases created with
    | error err => cases hissues
    | ok u =>
      have htime : (caCert, now) = i := by
        by_cases hhost : normalizeHost name = host
        · rw [Op.issues, if_pos hhost] at hissues
          exact Option.some.inj hissues
        · rw [Op.issues, if_neg hhost] at hissues
          cases hissues
      rw [← htime]
      rfl

/-- Times do not go back: what was made in a run was made before its next call. -/
theorem firstIssue_le {ops pre : List (Op CA)} {host name : String} {caCert : CA} {now : Nat}
    {created : Except String Unit} {i : CA × Nat}
    (htimes : (ops.filterMap Op.time).Pairwise (· ≤ ·))
    (hpre : pre ++ [.generateCert name caCert now created] <+: ops)
    (hfirst : firstIssue host pre = some i) : i.2 ≤ now := by
  have hsub := (hpre.filterMap Op.time).sublist
  rw [List.filterMap_append] at hsub
  have hall := List.pairwise_append.mp (htimes.sublist hsub)
  exact hall.2.2 i.2 (mem_time_of_firstIssue hfirst) now (by simp [Op.time])

/-- The certificates of a run are valid as they are served exactly when no host is asked
for again, more than a day later or with another CA, without clearing the cache. -/
theorem served_valid_iff (cg : Option CA) {ops : List (Op CA)}
    (htimes : (ops.filterMap Op.time).Pairwise (· ≤ ·)) :
    ServesValid cg ops ↔ AskedInTime ops := by
  constructor
  · intro hvalid pre host caCert now created hpre i hfirst
    have hcached := generateCert_run cg pre host caCert now created
    rw [hfirst] at hcached
    have h := hvalid pre _ hpre host caCert now created _ rfl hcached
    exact (newCertificate_valid_iff (firstIssue_le htimes hpre hfirst)).mp h
  · rintro hasked pre op hpre host caCert now created cert rfl hcert
    rw [generateCert_run] at hcert
    cases hfirst : firstIssue (normalizeHost host) pre with
    | some i =>
      rw [hfirst] at hcert
      obtain rfl := Except.ok.inj hcert
      exact (newCertificate_valid_iff (firstIssue_le htimes hpre hfirst)).mpr
        (hasked pre host caCert now created hpre i hfirst)
    | none =>
      rw [hfirst] at hcert
      cases created with
      | error err => cases hcert
      | ok u =>
        obtain rfl := Except.ok.inj hcert
        exact (newCertificate_valid_iff le_rfl).mpr ⟨rfl, le_wholeSeconds now⟩

end

/-! ## Two calls for one host -/

def firstCall : Op Nat := .generateCert "a.com" 1 0 (.ok ())

theorem firstIssue_firstCall : firstIssue (normalizeHost "a.com") [firstCall] = some (1, 0) := by
  decide +kernel

/-- A second call within a day. -/
theorem sameDay_valid :
    ([firstCall, .generateCert "a.com" 1 (23 * hour) (.ok ())].filterMap Op.time).Pairwise (· ≤ ·) ∧
      ServesValid none [firstCall, .generateCert "a.com" 1 (23 * hour) (.ok ())] := by
  have htimes : ([firstCall, .generateCert "a.com" 1 (23 * hour) (.ok ())].filterMap
      Op.time).Pairwise (· ≤ ·) := by
    decide
  refine ⟨htimes, (served_valid_iff none htimes).mpr ?_⟩
  intro pre host caCert now created hpre i hi
  match pre with
  | [] =>
    have hnone : firstIssue (normalizeHost host) ([] : List (Op Nat)) = none := by
      simp [firstIssue, sinceClear]
    rw [hnone] at hi
    cases hi
  | first :: rest =>
    obtain ⟨rfl, hrest⟩ := List.cons_prefix_cons.mp hpre
    match rest with
    | _ :: _ =>
      have hlen := hrest.length_le
      simp at hlen
    | [] =>
      obtain ⟨heq, -⟩ := List.cons_prefix_cons.mp hrest
      obtain ⟨rfl, rfl, rfl, -⟩ := Op.generateCert.inj heq
      rw [firstIssue_firstCall] at hi
      obtain rfl := Option.some.inj hi
      decide

/-- A call two days later gets the certificate of the first call, which has ended, and a call
with another CA gets one that is not from that CA. -/
theorem cached_not_valid :
    (generateCert (run step {} [firstCall]) "a.com" 1 (48 * hour) (.ok ())).1 =
        .ok (newCertificate (normalizeHost "a.com") 1 0) ∧
      (newCertificate (normalizeHost "a.com") (1 : Nat) 0).notAfter < 48 * hour ∧
      (generateCert (run step {} [firstCall, .setCertGenerator 2]) "a.com" 2 hour (.ok ())).1 =
        .ok (newCertificate (normalizeHost "a.com") 1 0) := by
  have hfirst : firstIssue (normalizeHost "a.com") [firstCall, .setCertGenerator 2] =
      some (1, 0) := by
    decide +kernel
  have hlater := generateCert_run none [firstCall] "a.com" 1 (48 * hour) (.ok ())
  have hother := generateCert_run none [firstCall, .setCertGenerator 2] "a.com" 2 hour (.ok ())
  rw [firstIssue_firstCall] at hlater
  rw [hfirst] at hother
  exact ⟨hlater, by decide, hother⟩

end SniShaper.Cert
