import Mathlib.Data.List.Forall2
import SniShaper.Front.Tunnel

/-! The reports of `dialUpstream` (`proxy/proxy.go`) to the Cloudflare pool. A single
candidate is dialled by a loop of its own.

* `dialUpstream_erases`: without the reports these are the dials of `Front.Tunnel`;
* `exact_iff`: when every dial is reported. -/

namespace SniShaper.Reports

open Strings Net Config Establish Front Tunnel

section Loops

variable (servers : Env) (rule : Rule) (dial : Nat → Except String Unit)

/-- The loop over several candidates: the address that answers or the last error, and the
reports. -/
def sequentialDial : Nat → List String → String → Except String String × List Report
  | _, [], lastErr => (.error lastErr, [])
  | n, addr :: rest, _ =>
    match dial n with
    | .ok () => (.ok addr, poolReport servers rule addr true)
    | .error err =>
      let (result, reports) := sequentialDial (n + 1) rest err
      (result, poolReport servers rule addr false ++ reports)

/-- The loop over a single candidate. -/
def singleDial : Nat → List String → Option String
  | _, [] => none
  | n, candidate :: rest =>
    match dial n with
    | .ok () => some candidate
    | .error _ => singleDial (n + 1) rest

/-- What `dialUpstream` does with its candidates: the address that answers or the error, and
the reports. -/
def dialCandidates (candidates : List String) : Except String String × List Report :=
  if 1 < candidates.length then sequentialDial servers rule dial 0 candidates ""
  else
    match singleDial dial 0 candidates with
    | some candidate => (.ok candidate, [])
    | none =>
      (.error ("all upstream connect attempts failed: [" ++ join candidates " " ++ "]"), [])

/-- The dials that are made: up to the first address that answers. -/
def dials : Nat → List String → List (String × Bool)
  | _, [] => []
  | n, addr :: rest =>
    match dial n with
    | .ok () => [(addr, true)]
    | .error _ => (addr, false) :: dials (n + 1) rest

end Loops

section

variable [CaseTables]

def dialUpstream (w : World) (cr : ConnectResult) (s : Session) :
    Except String Dialled × Session × List Report :=
  let candidates := connectCandidates w cr
  match dialCandidates w.servers cr.rule w.dial candidates with
  | (.ok addr, reports) => (.ok ⟨candidates, addr, s.upstream.length⟩, s.dial, reports)
  | (.error err, reports) => (.error err, s, reports)

/-! ## The same dials -/

omit [CaseTables] in
theorem sequentialDial_result (servers : Env) (rule : Rule) (dial : Nat → Except String Unit)
    (n : Nat) (candidates : List String) (lastErr : String) :
    (sequentialDial servers rule dial n candidates lastErr).1 =
      dialFirst dial n candidates lastErr := by
  induction candidates generalizing n lastErr with
  | nil => rfl
  | cons addr rest ih =>
    rw [sequentialDial, dialFirst]
    cases dial n with
    | ok _ => rfl
    | error err => exact ih (n + 1) err

omit [CaseTables] in
theorem singleDial_eq (dial : Nat → Except String Unit) (n : Nat) (candidates : List String)
    (lastErr : String) :
    singleDial dial n candidates = (dialFirst dial n candidates lastErr).toOption := by
  induction candidates generalizing n lastErr with
  | nil => rfl
  | cons addr rest ih =>
    rw [singleDial, dialFirst]
    cases dial n with
    | ok _ => rfl
    | error err => exact ih (n + 1) err

theorem dialUpstream_erases (w : World) (cr : ConnectResult) (s : Session) :
    ((dialUpstream w cr s).1, (dialUpstream w cr s).2.1) = Tunnel.dialUpstream w cr s := by
  unfold dialUpstream Tunnel.dialUpstream dialCandidates
  by_cases hmany : 1 < (connectCandidates w cr).length
  · simp only [hmany, ↓reduceIte, ← sequentialDial_result w.servers cr.rule]
    rcases sequentialDial w.servers cr.rule w.dial 0 (connectCandidates w cr) "" with ⟨result, _⟩
    cases result with
    | ok addr => rfl
    | error err => rfl
  · simp only [hmany, ↓reduceIte, singleDial_eq w.dial 0 _ ""]
    cases dialFirst w.dial 0 (connectCandidates w cr) "" with
    | ok addr => rfl
    | error err => rfl

end

/-! ## Which dials are reported -/

/-- The pool can be told about the address. -/
def NamesHost (addr : String) : Prop := ∃ h p, splitHostPort addr = .ok (h, p) ∧ h ≠ ""

/-- The report is the one about the dial. -/
def About (report : Report) (dialled : String × Bool) : Prop :=
  report.success = dialled.2 ∧ ∃ p, splitHostPort dialled.1 = .ok (report.ip, p)

/-- Each dial is reported once, with its outcome, and nothing else is. -/
def Exact (reports : List Report) (dialled : List (String × Bool)) : Prop :=
  List.Forall₂ About reports dialled

theorem poolReport_named {servers : Env} {rule : Rule} {addr : String}
    (hrule : rule.useCFPool = true) (hpool : servers.cfPool = true) (h : NamesHost addr)
    (success : Bool) :
    ∃ report, poolReport servers rule addr success = [report] ∧ About report (addr, success) := by
  obtain ⟨host, p, hsplit, hne⟩ := h
  refine ⟨⟨host, success⟩, ?_, rfl, p, hsplit⟩
  simp [poolReport, hrule, hpool, hsplit, hne]

theorem poolReport_length_le (servers : Env) (rule : Rule) (addr : String) (success : Bool) :
    (poolReport servers rule addr success).length ≤ 1 := by
  unfold poolReport
  split
  · split
    · split <;> simp
    · simp
  · simp

theorem poolReport_pos {servers : Env} {rule : Rule} {addr : String} {success : Bool}
    (h : poolReport servers rule addr success ≠ []) :
    servers.cfPool = true ∧ NamesHost addr := by
  unfold poolReport at h
  split at h
  · rename_i hpool
    split at h
    · rename_i host p hsplit
      split at h
      · rename_i hne
        exact ⟨hpool.2, host, p, hsplit, hne⟩
      · exact absurd rfl h
    · exact absurd rfl h
  · exact absurd rfl h

section

variable (servers : Env) (rule : Rule) (dial : Nat → Except String Unit)

/-- The reports of the loop over several candidates, by the dials it makes. -/
theorem sequentialDial_reports (n : Nat) (candidates : List String) (lastErr : String) :
    (sequentialDial servers rule dial n candidates lastErr).2 =
      (dials dial n candidates).flatMap fun d => poolReport servers rule d.1 d.2 := by
  induction candidates generalizing n lastErr with
  | nil => rfl
  | cons addr rest ih =>
    rw [sequentialDial, dials]
    cases dial n with
    | ok _ => simp
    | error err => simp [ih (n + 1) err]

theorem dials_ne_nil {candidates : List String} (h : candidates ≠ []) (n : Nat) :
    dials dial n candidates ≠ [] := by
  cases candidates with
  | nil => exact absurd rfl h
  | cons addr rest =>
    rw [dials]
    cases dial n <;> simp

theorem length_reports_le (dialled : List (String × Bool)) :
    (dialled.flatMap fun d => poolReport servers rule d.1 d.2).length ≤ dialled.length := by
  induction dialled with
  | nil => simp
  | cons d dialled ih =>
    have hle := poolReport_length_le servers rule d.1 d.2
    simp only [List.flatMap_cons, List.length_append, List.length_cons]
    omega

/-- At most one report is made about a dial, so one that is missing shows in their number. -/
theorem reported_of_length {dialled : List (String × Bool)}
    (h : (dialled.flatMap fun d => poolReport servers rule d.1 d.2).length = dialled.length) :
    ∀ d ∈ dialled, poolReport servers rule d.1 d.2 ≠ [] := by
  induction dialled with
  | nil => simp
  | cons d dialled ih =>
    have hle := poolReport_length_le servers rule d.1 d.2
    have hrest := length_reports_le servers rule dialled
    simp only [List.flatMap_cons, List.length_append, List.length_cons] at h
    refine List.forall_mem_cons.mpr ⟨fun hnil => ?_, ih (by omega)⟩
    rw [hnil, List.length_nil] at h
    omega

variable {servers rule}

theorem exact_of_named (hrule : rule.useCFPool = true) (hpool : servers.cfPool = true)
    {dialled : List (String × Bool)} (h : ∀ d ∈ dialled, NamesHost d.1) :
    Exact (dialled.flatMap fun d => poolReport servers rule d.1 d.2) dialled := by
  induction dialled with
  | nil => exact .nil
  | cons d dialled ih =>
    obtain ⟨hd, hrest⟩ := List.forall_mem_cons.mp h
    obtain ⟨report, heq, habout⟩ := poolReport_named hrule hpool hd d.2
    rw [List.flatMap_cons, heq]
    exact .cons habout (ih hrest)

theorem exact_reports_iff (hrule : rule.useCFPool = true) {dialled : List (String × Bool)}
    (hne : dialled ≠ []) :
    Exact (dialled.flatMap fun d => poolReport servers rule d.1 d.2) dialled ↔
      servers.cfPool = true ∧ ∀ d ∈ dialled, NamesHost d.1 := by
  constructor
  · intro hexact
    have hreported := reported_of_length servers rule hexact.length_eq
    obtain ⟨d, hd⟩ := List.exists_mem_of_ne_nil _ hne
    exact ⟨(poolReport_pos (hreported d hd)).1, fun d hd => (poolReport_pos (hreported d hd)).2⟩
  · rintro ⟨hpool, hnamed⟩
    exact exact_of_named hrule hpool hnamed

/-- **Reports of the dials.** Every dial under a rule that uses the pool is reported exactly
when there is a pool, there are two candidates or more and every address that is dialled
names a host. -/
theorem exact_iff (servers : Env) {rule : Rule} (dial : Nat → Except String Unit)
    {candidates : List String} (hne : candidates ≠ []) (hrule : rule.useCFPool = true) :
    Exact (dialCandidates servers rule dial candidates).2 (dials dial 0 candidates) ↔
      servers.cfPool = true ∧ 1 < candidates.length ∧
        ∀ d ∈ dials dial 0 candidates, NamesHost d.1 := by
  have hdials := dials_ne_nil dial hne 0
  unfold dialCandidates
  by_cases hmany : 1 < candidates.length
  · rw [if_pos hmany, sequentialDial_reports, exact_reports_iff hrule hdials]
    simp [hmany]
  · rw [if_neg hmany]
    refine iff_of_false (fun hexact => hdials ?_) (fun h => hmany h.2.1)
    -- the loop over a single candidate reports nothing
    cases hsingle : singleDial dial 0 candidates with
    | some candidate =>
      rw [hsingle] at hexact
      exact List.forall₂_nil_left_iff.mp hexact
    | none =>
      rw [hsingle] at hexact
      exact List.forall₂_nil_left_iff.mp hexact

end

/-- A pool and nothing else. -/
def poolOnly : Env where
  dohResolver := false
  cfPool := true
  certBypassMap := []
  network := fun _ =>
    { resolveECH := fun _ => .ok []
      dial := .ok ()
      handshake := .failed ""
      resolveECHSafe := fun _ => .ok [] }

/-- Only the second dial gets through. -/
def secondAnswers : Nat → Except String Unit
  | 1 => .ok ()
  | _ => .error "timeout"

theorem two_dials_reported :
    Exact (dialCandidates poolOnly { useCFPool := true } secondAnswers
        ["192.0.2.1:443", "192.0.2.2:443"]).2
      (dials secondAnswers 0 ["192.0.2.1:443", "192.0.2.2:443"]) := by
  refine (exact_iff poolOnly secondAnswers (by decide) rfl).mpr ⟨rfl, by decide, ?_⟩
  have hdials : dials secondAnswers 0 ["192.0.2.1:443", "192.0.2.2:443"] =
      [("192.0.2.1:443", false), ("192.0.2.2:443", true)] := rfl
  rw [hdials]
  simp only [List.forall_mem_cons]
  exact ⟨⟨"192.0.2.1", "443", by decide, by decide⟩, ⟨"192.0.2.2", "443", by decide, by decide⟩,
    by simp⟩

/-- The only address of the pool fails, and the pool is not told. -/
theorem single_dial_unreported :
    dials secondAnswers 0 ["192.0.2.1:443"] = [("192.0.2.1:443", false)] ∧
      (dialCandidates poolOnly { useCFPool := true } secondAnswers ["192.0.2.1:443"]).2 = [] ∧
      ¬ Exact (dialCandidates poolOnly { useCFPool := true } secondAnswers ["192.0.2.1:443"]).2
        (dials secondAnswers 0 ["192.0.2.1:443"]) := by
  refine ⟨rfl, rfl, ?_⟩
  intro hexact
  exact absurd hexact.length_eq (by decide)

end SniShaper.Reports
