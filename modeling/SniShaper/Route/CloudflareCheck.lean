import SniShaper.Doh.Failover
import SniShaper.Route.GfwList

/-! The Cloudflare check of the auto router (`proxy/auto_routing.go`). One verdict per host is
cached for half an hour, whatever it came from.

A run is a list of calls, each with the times of its cache lookup and of its end, and with
what the resolver answers if it is asked. What happened is kept in a log.

* `sound_step`: the cache holds the verdict of the one call of the last half hour that was
  not answered from it;
* `good_iff`: a call is answered by the latest successful resolution, or asks the resolver,
  exactly when no resolution of the host has failed within the last half hour;
* `goodRun_iff`: the same for whole runs. -/

namespace SniShaper.AutoRoute

open Strings Net Doh Machine

/-! ## Networks -/

structure IPNet where
  ip : IP
  mask : List UInt8
  deriving DecidableEq, Repr

/-- `net.CIDRMask` -/
def cidrMask (ones bytes : Nat) : List UInt8 :=
  (List.range bytes).map fun i => UInt8.ofNat (256 - 2 ^ (8 - min 8 (ones - 8 * i)))

def maskBytes (ip mask : List UInt8) : List UInt8 := List.zipWith (· &&& ·) ip mask

/-- The network of `net.ParseCIDR`. -/
def parseCIDR (s : String) : Option IPNet :=
  match split s '/' with
  | [addr, bits] =>
    match parseIP addr with
    | none => none
    | some ip =>
      let bitLen := if ':' ∈ addr.toList then 128 else 32
      let ip := if bitLen = 32 then ip.drop 12 else ip
      let digits := bits.toList
      if digits ≠ [] ∧ digits.all Char.isDigit ∧ decimal digits ≤ bitLen then
        let mask := cidrMask (decimal digits) (bitLen / 8)
        some ⟨maskBytes ip mask, mask⟩
      else none
  | _ => none

def networkNumberAndMask (n : IPNet) : IP × List UInt8 :=
  let ip := (to4 n.ip).getD n.ip
  match ip.length, n.mask.length with
  | 4, 4 => (ip, n.mask)
  | 4, 16 => (ip, n.mask.drop 12)
  | 16, 16 => (ip, n.mask)
  | _, _ => ([], [])

def IPNet.contains (n : IPNet) (ip : IP) : Bool :=
  let (nn, m) := networkNumberAndMask n
  let ip := (to4 ip).getD ip
  ip.length = nn.length && maskBytes nn m = maskBytes ip m

def cloudflareCIDRStrings : List String :=
  ["173.245.48.0/20", "103.21.244.0/22", "103.22.200.0/22", "103.31.4.0/22", "141.101.64.0/18",
    "108.162.192.0/18", "190.93.240.0/20", "188.114.96.0/20", "197.234.240.0/22",
    "198.41.128.0/17", "162.158.0.0/15", "104.16.0.0/13", "104.24.0.0/14", "172.64.0.0/13",
    "131.0.72.0/22"]

/-- The networks of `NewAutoRouter`. -/
def cfNets : List IPNet := cloudflareCIDRStrings.filterMap parseCIDR

def isCloudflareIP (ip : IP) : Bool := cfNets.any (·.contains ip)

example : cfNets.length = 15 := by decide
example : isCloudflareIP [104, 23, 255, 255] = true := by decide
example : isCloudflareIP (v4Prefix ++ [104, 32, 0, 0]) = false := by decide

/-- The verdict on the addresses of a host. -/
def classify (ips : List IP) : Bool := ips.any isCloudflareIP

/-! ## The check -/

structure CacheEntry where
  isCF : Bool
  checkedAt : Nat

abbrev Cache := String → Option CacheEntry

/-- Thirty minutes, in nanoseconds. -/
def cfCacheTTL : Nat := 30 * 60 * 1000000000

/-- The cached verdict on a host, unless it is too old. -/
def Cache.lookup (cache : Cache) (host : String) (now : Nat) : Option Bool :=
  match cache host with
  | none => none
  | some entry => if now < entry.checkedAt + cfCacheTTL then some entry.isCF else none

/-- A call: what `ResolveIPAddrs` answers if it is asked, and when the call has ended. -/
structure Call where
  host : String
  now : Nat
  resolved : Except String (List IP)
  doneAt : Nat

/-- Where an answer comes from. -/
inductive Source where
  | blank
  | cache
  | resolver
  /-- There is no resolver. -/
  | nobody
  deriving DecidableEq, Repr

section

variable [CaseTables]

def Call.key (call : Call) : String := toLower (trimSpace call.host)

/-- What a call finds out that is not answered from the cache. -/
def check (dohResolver : Bool) (call : Call) : Bool × Source :=
  if dohResolver then
    match call.resolved with
    | .ok ips => (classify ips, .resolver)
    | .error _ => (false, .resolver)
  else (false, .nobody)

def isCloudflare (dohResolver : Bool) (cache : Cache) (call : Call) : (Bool × Source) × Cache :=
  let host := call.key
  if host = "" then ((false, .blank), cache)
  else match cache.lookup host call.now with
    | some isCF => ((isCF, .cache), cache)
    | none =>
      let found := check dohResolver call
      (found, Function.update cache host (some ⟨found.1, call.doneAt⟩))

/-! ## Runs -/

structure Event where
  call : Call
  isCF : Bool
  source : Source

/-- The cache and what has happened, the latest call first. -/
structure State where
  cache : Cache
  log : List Event

def start : State := ⟨fun _ => none, []⟩

def step (dohResolver : Bool) (s : State) (call : Call) : State :=
  let ((isCF, source), cache) := isCloudflare dohResolver s.cache call
  ⟨cache, ⟨call, isCF, source⟩ :: s.log⟩

/-- Calls one after the other. -/
def Ordered (t : Nat) : List Call → Prop
  | [] => True
  | call :: calls => t ≤ call.now ∧ call.now ≤ call.doneAt ∧ Ordered call.doneAt calls

/-- The event is of the host and has entered its verdict into the cache. -/
def Event.Entered (e : Event) (host : String) : Prop :=
  e.call.key = host ∧ (e.source = .resolver ∨ e.source = .nobody)

/-- It is not older than the cache allows. -/
def Event.Recent (e : Event) (now : Nat) : Prop := now < e.call.doneAt + cfCacheTTL

/-- The addresses of the latest successful resolution of the host that is recent. -/
def latestSuccess (log : List Event) (host : String) (now : Nat) : Option (List IP) :=
  log.findSome? fun e =>
    if e.call.key = host ∧ e.source = .resolver ∧ now < e.call.doneAt + cfCacheTTL then
      e.call.resolved.toOption
    else none

/-- The answer is the verdict of the latest recent success, and without one the resolver is
asked. -/
def Good (dohResolver : Bool) (s : State) (call : Call) : Prop :=
  let answer := (isCloudflare dohResolver s.cache call).1
  call.key ≠ "" →
    match latestSuccess s.log call.key call.now with
    | some ips => answer.1 = classify ips
    | none => answer.2 = .resolver ∧ ∀ ips, call.resolved = .ok ips → answer.1 = classify ips

/-- There is a resolver, and no resolution of the host has failed recently. -/
def Undisturbed (dohResolver : Bool) (s : State) (call : Call) : Prop :=
  call.key ≠ "" → dohResolver = true ∧
    ∀ e ∈ s.log, e.call.key = call.key → e.source = .resolver →
      (∃ err, e.call.resolved = .error err) → e.call.doneAt + cfCacheTTL ≤ call.now

/-! ## What the cache holds -/

/-- At any time from `t` on: the verdicts of the cache were entered by events of the log; a
recent event that has entered one is the only one of its host, and in the cache. -/
structure Sound (dohResolver : Bool) (t : Nat) (s : State) : Prop where
  entered : ∀ host entry, s.cache host = some entry →
    ∃ e ∈ s.log, e.Entered host ∧ entry = ⟨e.isCF, e.call.doneAt⟩
  cached : ∀ host, ∀ e ∈ s.log, e.Entered host → ∀ now ≥ t, e.Recent now →
    s.cache host = some ⟨e.isCF, e.call.doneAt⟩
  unique : ∀ host, ∀ e ∈ s.log, ∀ e' ∈ s.log, e.Entered host → e'.Entered host →
    ∀ now ≥ t, e.Recent now → e'.Recent now → e = e'
  found : ∀ host, ∀ e ∈ s.log, e.Entered host → (e.isCF, e.source) = check dohResolver e.call

variable {dohResolver : Bool} {t : Nat} {s : State} {call : Call}

theorem sound_start (dohResolver : Bool) : Sound dohResolver 0 start where
  entered _ _ h := by cases h
  cached _ _ h := by cases h
  unique _ _ h := by cases h
  found _ _ h := by cases h

/-- What a call does: it is blank, answered from the cache, or checked and entered. -/
theorem step_cases (dohResolver : Bool) (s : State) (call : Call) :
    (call.key = "" ∧ step dohResolver s call = ⟨s.cache, ⟨call, false, .blank⟩ :: s.log⟩) ∨
      (call.key ≠ "" ∧ ∃ isCF, s.cache.lookup call.key call.now = some isCF ∧
        step dohResolver s call = ⟨s.cache, ⟨call, isCF, .cache⟩ :: s.log⟩) ∨
      (call.key ≠ "" ∧ s.cache.lookup call.key call.now = none ∧
        step dohResolver s call =
          ⟨Function.update s.cache call.key (some ⟨(check dohResolver call).1, call.doneAt⟩),
            ⟨call, (check dohResolver call).1, (check dohResolver call).2⟩ :: s.log⟩) := by
  by_cases hkey : call.key = ""
  · exact .inl ⟨hkey, by simp [step, isCloudflare, hkey]⟩
  · cases hlookup : s.cache.lookup call.key call.now with
    | some isCF => exact .inr (.inl ⟨hkey, isCF, rfl, by simp [step, isCloudflare, hkey, hlookup]⟩)
    | none => exact .inr (.inr ⟨hkey, rfl, by simp [step, isCloudflare, hkey, hlookup]⟩)

omit [CaseTables] in
theorem lookup_eq_some_iff {cache : Cache} {host : String} {now : Nat} {isCF : Bool} :
    cache.lookup host now = some isCF ↔
      ∃ checkedAt, cache host = some ⟨isCF, checkedAt⟩ ∧ now < checkedAt + cfCacheTTL := by
  unfold Cache.lookup
  cases cache host with
  | none => simp
  | some entry =>
    obtain ⟨entryCF, checkedAt⟩ := entry
    simp only [Option.ite_none_right_eq_some, Option.some.injEq, CacheEntry.mk.injEq]
    constructor
    · rintro ⟨hrecent, rfl⟩
      exact ⟨checkedAt, ⟨rfl, rfl⟩, hrecent⟩
    · rintro ⟨_, ⟨rfl, rfl⟩, hrecent⟩
      exact ⟨hrecent, rfl⟩

omit [CaseTables] in
theorem Event.Recent.earlier {e : Event} {now now' : Nat} (h : e.Recent now') (hle : now ≤ now') :
    e.Recent now := Nat.lt_of_le_of_lt hle h

/-- A host that is not found in the cache has no recent verdict. -/
theorem Sound.not_recent (hs : Sound dohResolver t s) {host : String} {now : Nat} (hnow : t ≤ now)
    (hmiss : s.cache.lookup host now = none) {e : Event} (he : e ∈ s.log) (hent : e.Entered host) :
    ¬ e.Recent now := by
  intro hrecent
  have hhit : s.cache.lookup host now = some e.isCF :=
    lookup_eq_some_iff.mpr ⟨_, hs.cached host e he hent now hnow hrecent, hrecent⟩
  rw [hmiss] at hhit
  cases hhit

/-- A call that enters nothing keeps the cache sound. -/
theorem Sound.answered (hs : Sound dohResolver t s) {t' : Nat} (ht : t ≤ t') {e : Event}
    (he : ∀ host, ¬ e.Entered host) : Sound dohResolver t' ⟨s.cache, e :: s.log⟩ := by
  have hold : ∀ {host : String} {e' : Event}, e' ∈ e :: s.log → e'.Entered host → e' ∈ s.log := by
    intro host e' hmem hent
    rcases List.mem_cons.mp hmem with rfl | hmem
    · exact absurd hent (he host)
    · exact hmem
  refine ⟨?_, ?_, ?_, ?_⟩
  · intro host entry hcache
    obtain ⟨e', hmem, hent, hentry⟩ := hs.entered host entry hcache
    exact ⟨e', List.mem_cons_of_mem _ hmem, hent, hentry⟩
  · intro host e' hmem hent now hnow hrecent
    exact hs.cached host e' (hold hmem hent) hent now (ht.trans hnow) hrecent
  · intro host e₁ hmem₁ e₂ hmem₂ hent₁ hent₂ now hnow
    exact hs.unique host e₁ (hold hmem₁ hent₁) e₂ (hold hmem₂ hent₂) hent₁ hent₂ now (ht.trans hnow)
  · intro host e' hmem hent
    exact hs.found host e' (hold hmem hent) hent

omit [CaseTables] in
theorem check_source (dohResolver : Bool) (call : Call) :
    (check dohResolver call).2 = .resolver ∨ (check dohResolver call).2 = .nobody := by
  unfold check
  cases dohResolver with
  | true => cases call.resolved <;> exact .inl rfl
  | false => exact .inr rfl

/-- A call that is not answered from the cache leaves its own verdict there. -/
theorem Sound.checked (hs : Sound dohResolver t s) {e : Event} {cache : Cache}
    (hnow : t ≤ e.call.now) (hdone : e.call.now ≤ e.call.doneAt)
    (hmiss : s.cache.lookup e.call.key e.call.now = none)
    (hfound : (e.isCF, e.source) = check dohResolver e.call)
    (hself : cache e.call.key = some ⟨e.isCF, e.call.doneAt⟩)
    (hothers : ∀ host, host ≠ e.call.key → cache host = s.cache host) :
    Sound dohResolver e.call.doneAt ⟨cache, e :: s.log⟩ := by
  -- what was entered for the host before is too old by now
  have hold : ∀ e' ∈ s.log, e'.Entered e.call.key → ∀ now ≥ e.call.doneAt, ¬ e'.Recent now :=
    fun e' he' hent now hle hrecent =>
      hs.not_recent hnow hmiss he' hent (hrecent.earlier (hdone.trans hle))
  refine ⟨?_, ?_, ?_, ?_⟩
  · intro host entry (hcache : cache host = some entry)
    by_cases hhost : host = e.call.key
    · rw [hhost, hself] at hcache
      refine ⟨e, List.mem_cons_self .., ⟨hhost.symm, ?_⟩, (Option.some.inj hcache).symm⟩
      rw [show e.source = (check dohResolver e.call).2 from congrArg Prod.snd hfound]
      exact check_source dohResolver e.call
    · rw [hothers host hhost] at hcache
      obtain ⟨e', he', hent, hentry⟩ := hs.entered host entry hcache
      exact ⟨e', List.mem_cons_of_mem _ he', hent, hentry⟩
  · intro host e' hmem hent now hle hrecent
    rcases List.mem_cons.mp hmem with rfl | hmem
    · exact hent.1 ▸ hself
    · by_cases hhost : host = e.call.key
      · exact absurd hrecent (hold e' hmem (hhost ▸ hent) now hle)
      · refine (hothers host hhost).trans ?_
        exact hs.cached host e' hmem hent now (hnow.trans (hdone.trans hle)) hrecent
  · intro host e₁ hmem₁ e₂ hmem₂ hent₁ hent₂ now hle hrecent₁ hrecent₂
    rcases List.mem_cons.mp hmem₁ with heq₁ | hmem₁
    · obtain rfl : e.call.key = host := heq₁ ▸ hent₁.1
      rcases List.mem_cons.mp hmem₂ with heq₂ | hmem₂
      · rw [heq₁, heq₂]
      · exact absurd hrecent₂ (hold e₂ hmem₂ hent₂ now hle)
    · rcases List.mem_cons.mp hmem₂ with heq₂ | hmem₂
      · obtain rfl : e.call.key = host := heq₂ ▸ hent₂.1
        exact absurd hrecent₁ (hold e₁ hmem₁ hent₁ now hle)
      · exact hs.unique host e₁ hmem₁ e₂ hmem₂ hent₁ hent₂ now (hnow.trans (hdone.trans hle))
          hrecent₁ hrecent₂
  · intro host e' hmem hent
    rcases List.mem_cons.mp hmem with rfl | hmem
    · exact hfound
    · exact hs.found host e' hmem hent

theorem sound_step (hs : Sound dohResolver t s) (hnow : t ≤ call.now)
    (hdone : call.now ≤ call.doneAt) : Sound dohResolver call.doneAt (step dohResolver s call) := by
  rcases step_cases dohResolver s call with ⟨-, hstep⟩ | ⟨-, isCF, -, hstep⟩ | ⟨-, hmiss, hstep⟩
  · rw [hstep]
    exact hs.answered (hnow.trans hdone) fun host hent => by simp [Event.Entered] at hent
  · rw [hstep]
    exact hs.answered (hnow.trans hdone) fun host hent => by simp [Event.Entered] at hent
  · rw [hstep]
    exact hs.checked (e := ⟨call, _, _⟩) hnow hdone hmiss rfl (Function.update_self ..)
      fun host hhost => Function.update_of_ne hhost ..

/-! ## What a call answers -/

/-- The latest success is the only recent one. -/
theorem latestSuccess_eq_some_iff (hs : Sound dohResolver t s) {host : String} {now : Nat}
    (hnow : t ≤ now) {ips : List IP} :
    latestSuccess s.log host now = some ips ↔
      ∃ e ∈ s.log, e.call.key = host ∧ e.source = .resolver ∧ e.Recent now ∧
        e.call.resolved = .ok ips := by
  have hsome : ∀ e : Event, ∀ ips' : List IP,
      (if e.call.key = host ∧ e.source = .resolver ∧ now < e.call.doneAt + cfCacheTTL then
        e.call.resolved.toOption else none) = some ips' ↔
      e.call.key = host ∧ e.source = .resolver ∧ e.Recent now ∧ e.call.resolved = .ok ips' := by
    intro e ips'
    rw [Option.ite_none_right_eq_some, and_assoc, and_assoc]
    refine and_congr_right fun _ => and_congr_right fun _ => and_congr_right fun _ => ?_
    cases e.call.resolved <;> simp [Except.toOption]
  constructor
  · intro h
    obtain ⟨e, he, hips⟩ := List.exists_of_findSome?_eq_some h
    exact ⟨e, he, (hsome e ips).mp hips⟩
  · rintro ⟨e, he, hkey, hsource, hrecent, hips⟩
    cases hlatest : latestSuccess s.log host now with
    | none =>
      have hnone := List.findSome?_eq_none_iff.mp hlatest e he
      rw [(hsome e ips).mpr ⟨hkey, hsource, hrecent, hips⟩] at hnone
      cases hnone
    | some ips' =>
      obtain ⟨e', he', hips'⟩ := List.exists_of_findSome?_eq_some hlatest
      obtain ⟨hkey', hsource', hrecent', hips'⟩ := (hsome e' ips').mp hips'
      obtain rfl := hs.unique host e he e' he' ⟨hkey, .inl hsource⟩ ⟨hkey', .inl hsource'⟩ now hnow
        hrecent hrecent'
      rw [hips] at hips'
      rw [Except.ok.inj hips']

omit [CaseTables] in
theorem check_true (call : Call) :
    (check true call).2 = .resolver ∧
      (∀ ips, call.resolved = .ok ips → (check true call).1 = classify ips) := by
  unfold check
  cases call.resolved with
  | ok ips => exact ⟨rfl, fun ips' h => by rw [Except.ok.inj h]; rfl⟩
  | error err => exact ⟨rfl, fun ips' h => by cases h⟩

/-- A call that is not answered from the cache is as good as there is a resolver. -/
theorem good_miss_iff (hs : Sound dohResolver t s) (hnow : t ≤ call.now) (hkey : call.key ≠ "")
    (hmiss : s.cache.lookup call.key call.now = none) :
    (Good dohResolver s call ↔ dohResolver = true) ∧
      (Undisturbed dohResolver s call ↔ dohResolver = true) := by
  have hold : ∀ e ∈ s.log, e.Entered call.key → ¬ e.Recent call.now := fun e he hent =>
    hs.not_recent hnow hmiss he hent
  have hnone : latestSuccess s.log call.key call.now = none := by
    rw [Option.eq_none_iff_forall_ne_some]
    intro ips hips
    obtain ⟨e, he, hk, hsource, hrecent, -⟩ := (latestSuccess_eq_some_iff hs hnow).mp hips
    exact hold e he ⟨hk, .inl hsource⟩ hrecent
  constructor
  · simp only [Good, isCloudflare, hkey, hmiss, hnone, if_false, ne_eq, not_false_iff,
      forall_const]
    cases dohResolver with
    | true => exact iff_of_true (check_true call) rfl
    | false => exact iff_of_false (fun h => by cases h.1) (by decide)
  · refine ⟨fun h => (h hkey).1, fun h _ => ⟨h, fun e he hk hsource _ => ?_⟩⟩
    exact Nat.le_of_not_lt (hold e he ⟨hk, .inl hsource⟩)

/-- A call that is answered from the cache is good exactly when the verdict there comes from
addresses. -/
theorem good_hit_iff (hs : Sound dohResolver t s) (hnow : t ≤ call.now) (hkey : call.key ≠ "")
    {e : Event} (he : e ∈ s.log) (hent : e.Entered call.key) (hrecent : e.Recent call.now)
    (hhit : s.cache.lookup call.key call.now = some e.isCF) :
    (Good dohResolver s call ↔ e.source = .resolver ∧ ∃ ips, e.call.resolved = .ok ips) ∧
      (Undisturbed dohResolver s call ↔
        e.source = .resolver ∧ ∃ ips, e.call.resolved = .ok ips) := by
  -- every recent event that has entered a verdict is this one
  have honly : ∀ e' ∈ s.log, e'.call.key = call.key → e'.source = .resolver →
      e'.Recent call.now → e' = e := fun e' he' hk hsource hrecent' =>
    hs.unique call.key e' he' e he ⟨hk, .inl hsource⟩ hent call.now hnow hrecent' hrecent
  have hfound := hs.found call.key e he hent
  have hgood : Good dohResolver s call ↔
      match latestSuccess s.log call.key call.now with
      | some ips => e.isCF = classify ips
      | none => False := by
    simp only [Good, isCloudflare, hkey, hhit, if_false, ne_eq, not_false_iff, forall_const]
    cases latestSuccess s.log call.key call.now with
    | some ips => exact Iff.rfl
    | none => exact iff_of_false (fun h => by cases h.1) id
  constructor
  · rw [hgood]
    cases hlatest : latestSuccess s.log call.key call.now with
    | some ips =>
      obtain ⟨e', he', hk, hsource, hrecent', hips⟩ :=
        (latestSuccess_eq_some_iff hs hnow).mp hlatest
      obtain rfl := honly e' he' hk hsource hrecent'
      refine iff_of_true ?_ ⟨hsource, ips, hips⟩
      cases dohResolver with
      | true =>
        have hverdict : e'.isCF = (check true e'.call).1 := congrArg Prod.fst hfound
        exact hverdict.trans ((check_true e'.call).2 ips hips)
      | false =>
        have hsource' : e'.source = .nobody := congrArg Prod.snd hfound
        rw [hsource'] at hsource
        cases hsource
    | none =>
      refine iff_of_false id fun ⟨hsource, ips, hips⟩ => ?_
      have hsome := (latestSuccess_eq_some_iff hs hnow).mpr ⟨e, he, hent.1, hsource, hrecent, hips⟩
      rw [hlatest] at hsome
      cases hsome
  · constructor
    · intro h
      obtain ⟨hresolver, hfailed⟩ := h hkey
      subst hresolver
      have hsource : e.source = .resolver :=
        (congrArg Prod.snd hfound).trans (check_true e.call).1
      cases hres : e.call.resolved with
      | ok ips => exact ⟨hsource, ips, rfl⟩
      | error err =>
        exact absurd hrecent (Nat.not_lt.mpr (hfailed e he hent.1 hsource ⟨err, hres⟩))
    · rintro ⟨hsource, ips, hips⟩ -
      constructor
      · cases dohResolver with
        | true => rfl
        | false =>
          have hsource' : e.source = .nobody := congrArg Prod.snd hfound
          rw [hsource] at hsource'
          cases hsource'
      · rintro e' he' hk hsource' ⟨err, herr⟩
        by_contra hrecent'
        obtain rfl := honly e' he' hk hsource' (Nat.lt_of_not_le hrecent')
        rw [hips] at herr
        cases herr

/-- A call is answered by the latest recent success, or asks the resolver, exactly when there
is a resolver and no resolution of the host has failed recently. -/
theorem good_iff (hs : Sound dohResolver t s) (hnow : t ≤ call.now) :
    Good dohResolver s call ↔ Undisturbed dohResolver s call := by
  by_cases hkey : call.key = ""
  · exact iff_of_true (fun h => absurd hkey h) fun h => absurd hkey h
  cases hlookup : s.cache.lookup call.key call.now with
  | none =>
    obtain ⟨hgood, hundisturbed⟩ := good_miss_iff hs hnow hkey hlookup
    exact hgood.trans hundisturbed.symm
  | some isCF =>
    obtain ⟨checkedAt, hcache, hrecent⟩ := lookup_eq_some_iff.mp hlookup
    obtain ⟨e, he, hent, hentry⟩ := hs.entered _ _ hcache
    obtain ⟨rfl, rfl⟩ := CacheEntry.mk.inj hentry
    obtain ⟨hgood, hundisturbed⟩ := good_hit_iff hs hnow hkey he hent hrecent hlookup
    exact hgood.trans hundisturbed.symm

/-! ## Whole runs -/

/-- Before every call of a run the cache is sound. -/
theorem eachStep_sound (hs : Sound dohResolver t s) {calls : List Call} (h : Ordered t calls) :
    EachStep (step dohResolver) (fun s call => ∃ t, Sound dohResolver t s ∧ t ≤ call.now) s
      calls := by
  induction calls generalizing s t with
  | nil => exact eachStep_nil
  | cons call calls ih =>
    obtain ⟨hnow, hdone, hrest⟩ := h
    exact eachStep_cons.mpr ⟨⟨t, hs, hnow⟩, ih (sound_step hs hnow hdone) hrest⟩

/-- In a run of calls one after the other, every answer is the verdict of the latest recent
success, and without one the resolver is asked, exactly when there is a resolver and no call
comes within the cache time of a failed resolution of its host. -/
theorem goodRun_iff (dohResolver : Bool) {calls : List Call} (h : Ordered 0 calls) :
    EachStep (step dohResolver) (Good dohResolver) start calls ↔
      EachStep (step dohResolver) (Undisturbed dohResolver) start calls := by
  refine (eachStep_sound (sound_start dohResolver) h).iff_of ?_
  rintro s call ⟨t, hs, hnow⟩
  exact good_iff hs hnow

/-! ## The route -/

/-- The auto router at a call of `Decide`. -/
def autoRouter (mode : String) (g : Gfw.GFWList) (dohResolver : Bool) (cache : Cache)
    (call : Call) : Match.AutoRouter where
  mode := mode
  isBlocked := Gfw.isBlocked g
  isCloudflare host := (isCloudflare dohResolver cache { call with host := host }).1.1

omit [CaseTables] in
theorem decide_blocked {ar : Match.AutoRouter} {host : String} (hmode : ar.mode ≠ "")
    (hblocked : ar.isBlocked host = true) :
    (ar.decide host).mode = if ar.isCloudflare host then "mitm" else "tls-rf" := by
  have hon : ¬ (ar.mode = "" ∨ ar.isBlocked host = false) := by simp [hmode, hblocked]
  rw [Match.AutoRouter.decide, if_neg hon]
  cases ar.isCloudflare host with
  | true => simp only [if_true]
  | false => simp only [Bool.false_eq_true, if_false]

/-- A blocked host is routed by the addresses of the latest recent success. -/
theorem decide_mode (hs : Sound dohResolver t s) (hnow : t ≤ call.now) {mode : String}
    (hmode : mode ≠ "") {g : Gfw.GFWList} (hblocked : Gfw.isBlocked g call.host = true)
    (hcall : Undisturbed dohResolver s call) {ips : List IP}
    (hlatest : latestSuccess s.log call.key call.now = some ips) :
    ((autoRouter mode g dohResolver s.cache call).decide call.host).mode =
      if classify ips then "mitm" else "tls-rf" := by
  have hkey : call.key ≠ "" := ((Gfw.isBlocked_iff g call.host).mp hblocked).1
  have hgood := (good_iff hs hnow).mpr hcall
  simp only [Good, hlatest, ne_eq, hkey, not_false_iff, forall_const] at hgood
  have hmode' : (autoRouter mode g dohResolver s.cache call).mode ≠ "" := by
    simpa only [autoRouter] using hmode
  have hblocked' : (autoRouter mode g dohResolver s.cache call).isBlocked call.host = true := by
    simpa only [autoRouter] using hblocked
  rw [decide_blocked hmode' hblocked']
  simp only [autoRouter, hgood]

end

def lookupAt (now : Nat) (resolved : Except String (List IP)) : Call where
  host := "a.example"
  now := now
  resolved := resolved
  doneAt := now + 1

/-- A lookup that succeeds, and one a second later that would not. -/
theorem goodRun_cached :
    Ordered 0 [lookupAt 0 (.ok [[104, 16, 0, 1]]), lookupAt 1000000000 (.error "timeout")] ∧
      EachStep (step true) (Good true) start
        [lookupAt 0 (.ok [[104, 16, 0, 1]]), lookupAt 1000000000 (.error "timeout")] := by
  have hordered : Ordered 0
      [lookupAt 0 (.ok [[104, 16, 0, 1]]), lookupAt 1000000000 (.error "timeout")] :=
    ⟨Nat.le_refl _, by decide, by decide, by decide, trivial⟩
  refine ⟨hordered, (goodRun_iff true hordered).mpr ?_⟩
  refine eachStep_cons.mpr ⟨fun _ => ⟨rfl, fun e he => by cases he⟩, ?_⟩
  refine eachStep_cons.mpr ⟨fun _ => ⟨rfl, ?_⟩, eachStep_nil⟩
  rintro e he - - ⟨err, herr⟩
  rw [List.mem_singleton.mp he] at herr
  cases herr

/-- A lookup that fails answers the next call, a second later, and routes the host: the
resolver is not asked, though it would find an address of Cloudflare. -/
theorem failed_lookup_fixes_route :
    Ordered 0 [lookupAt 0 (.error "timeout"), lookupAt 1000000000 (.ok [[104, 16, 0, 1]])] ∧
      latestSuccess (step true start (lookupAt 0 (.error "timeout"))).log "a.example" 1000000000 =
        none ∧
      (isCloudflare true (step true start (lookupAt 0 (.error "timeout"))).cache
        (lookupAt 1000000000 (.ok [[104, 16, 0, 1]]))).1 = (false, .cache) ∧
      classify [[104, 16, 0, 1]] = true ∧
      ((autoRouter "default" ⟨{"a.example"}, 1⟩ true
        (step true start (lookupAt 0 (.error "timeout"))).cache
        (lookupAt 1000000000 (.ok [[104, 16, 0, 1]]))).decide "a.example").mode = "tls-rf" := by
  refine ⟨⟨Nat.le_refl _, by decide, by decide, by decide, trivial⟩, ?_, ?_, ?_, ?_⟩
  all_goals decide +kernel

end SniShaper.AutoRoute
