import SniShaper.Doh.Resolver
import SniShaper.Lib.Machine
import SniShaper.Lib.Race

/-! The failover of the DoH resolver (`exchange`, `exchangeNode` and `exchangeNodeWithRetry` of
`proxy/doh.go`) as a protocol: the first node is asked alone, the others race against each
other, and the system resolver comes last. The context of the caller does not expire.

The goroutines, the channel and the loop over it are a `Race`. An event is given what the
network, or the system resolver, has answered.

* `exchangeNode_determined`: a node returns a message or an error, never neither;
* `exchangeSystem_family_iff`: the system resolver's addresses answer the question that was
  asked, except that an IPv4 address also makes an AAAA record;
* `step_sound`: what the protocol keeps;
* `failover_sound`: no working node is missed, and the exchange returns. -/

namespace SniShaper.Doh

open Strings Net Config Machine Race

variable {Msg : Type}

/-! ## One node -/

/-- The two results of `exchangeNode`, either of which may be nil. -/
structure Reply (Msg : Type) where
  msg : Option Msg
  err : Option String

def Reply.fail (err : String) : Reply Msg := ⟨none, some err⟩

/-- `err == nil && msg != nil` -/
def Reply.ok (r : Reply Msg) : Bool := r.err.isNone && r.msg.isSome

/-- What a call of `exchangeNodeWithRetry` meets. -/
structure Attempt (Msg : Type) where
  getNodeClient : Except String Unit
  pack : Except String Unit
  newRequest : Except String Unit
  /-- `client.Do`: the status code. -/
  response : Except String Nat
  readAll : Except String (List UInt8)
  unpack : List UInt8 → Except String Msg
  /-- `url.Parse` has a result. -/
  parsed : Bool
  resolveECHSafe : Except String (List UInt8)

/-- The config that a node which is allowed to try again has found. -/
def Attempt.refreshes (a : Attempt Msg) (node : DNSNode) : Bool :=
  node.echEnabled && node.echAutoUpdate && a.parsed &&
    match a.resolveECHSafe with
    | .ok newECH => newECH ≠ []
    | .error _ => false

/-- The end of a call, when the server has answered. -/
def readReply (a : Attempt Msg) (statusCode : Nat) : Reply Msg :=
  if statusCode ≠ 200 then .fail ("DoH server returned status " ++ toString statusCode)
  else
    match a.readAll with
    | .error err => .fail err
    | .ok respBuf =>
      match a.unpack respBuf with
      | .error err => .fail err
      | .ok resMsg => ⟨some resMsg, none⟩

/-- One call; `retry` is what the second one returns, if there may be one. -/
def exchangeAttempt (node : DNSNode) (a : Attempt Msg) (retry : Option (Reply Msg)) : Reply Msg :=
  match a.getNodeClient with
  | .error err => .fail err
  | .ok () =>
    match a.pack with
    | .error err => .fail err
    | .ok () =>
      match a.newRequest with
      | .error err => .fail err
      | .ok () =>
        match a.response with
        | .error err =>
          match retry with
          | some again => if a.refreshes node then again else .fail err
          | none => .fail err
        | .ok statusCode => readReply a statusCode

def exchangeNodeWithRetry (node : DNSNode) (net : Bool → Attempt Msg) : Bool → Reply Msg
  | false => exchangeAttempt node (net false) none
  | true => exchangeAttempt node (net true) (some (exchangeAttempt node (net false) none))

def exchangeNode (node : DNSNode) (net : Bool → Attempt Msg) : Reply Msg :=
  exchangeNodeWithRetry node net true

/-- A message or an error. -/
def Reply.Determined (r : Reply Msg) : Prop :=
  (∃ msg, r = ⟨some msg, none⟩) ∨ ∃ err, r = .fail err

theorem fail_determined (err : String) : (Reply.fail err : Reply Msg).Determined := .inr ⟨err, rfl⟩

theorem readReply_determined (a : Attempt Msg) (statusCode : Nat) :
    (readReply a statusCode).Determined := by
  unfold readReply
  split
  · exact fail_determined _
  · split
    · exact fail_determined _
    · split
      · exact fail_determined _
      · exact .inl ⟨_, rfl⟩

theorem exchangeAttempt_determined (node : DNSNode) (a : Attempt Msg) {retry : Option (Reply Msg)}
    (h : ∀ again, retry = some again → again.Determined) :
    (exchangeAttempt node a retry).Determined := by
  unfold exchangeAttempt
  split
  · exact fail_determined _
  · split
    · exact fail_determined _
    · split
      · exact fail_determined _
      · split
        · split
          · split
            · exact h _ rfl
            · exact fail_determined _
          · exact fail_determined _
        · exact readReply_determined a _

theorem exchangeNode_determined (node : DNSNode) (net : Bool → Attempt Msg) :
    (exchangeNode node net).Determined := by
  unfold exchangeNode exchangeNodeWithRetry
  refine exchangeAttempt_determined node (net true) fun again hagain => ?_
  obtain rfl := Option.some.inj hagain
  exact exchangeAttempt_determined node (net false) fun again hagain => by cases hagain

/-- What a node answers. -/
abbrev Answer (Msg : Type) := { r : Reply Msg // r.Determined }

def ask (node : DNSNode) (net : Bool → Attempt Msg) : Answer Msg :=
  ⟨exchangeNode node net, exchangeNode_determined node net⟩

/-! ## The system resolver -/

/-- The records of a reply that is made from the system's answer. -/
inductive Record where
  | a (name : String) (ip : IP)
  | aaaa (name : String) (ip : IP)
  deriving DecidableEq, Repr

/-- The nodes of the rule manager, the first question, and the message with these answers. -/
structure Query (Msg : Type) where
  nodes : List DNSNode
  question : Option (String × QType)
  setReply : List Record → Msg

def systemRecord (target : String) (ip : IP) : QType → Option Record
  | .a => (to4 ip).map (.a target)
  | .aaaa => (to16 ip).map (.aaaa target)
  | .https => none

/-- The last step of `exchange`. -/
def exchangeSystem (q : Query Msg) (lookupIP : String → Except String (List IP)) :
    Except String Msg :=
  let failed := .error ("all DNS resolution attempts failed (tried " ++
    toString (activeNodes q.nodes).length ++ " active nodes and system DNS)")
  match q.question with
  | none => failed
  | some (target, qtype) =>
    if qtype = .https then failed
    else match lookupIP (trimSuffix target ".") with
      | .error _ => failed
      | .ok ips =>
        if ips = [] then failed
        else .ok (q.setReply (ips.filterMap fun ip => systemRecord target ip qtype))

/-- The addresses of the family that was asked for. -/
def familyRecords (target : String) (ips : List IP) : QType → List Record
  | .a => (ips.filterMap to4).map (.a target)
  | .aaaa => (ips.filter fun ip => (to4 ip).isNone).map (.aaaa target)
  | .https => []

/-- An IPv6 address has one form. -/
theorem to16_of_to4_eq_none {ip : IP} (h : ip.length = 4 ∨ ip.length = 16) (h4 : to4 ip = none) :
    to16 ip = some ip := by
  unfold to4 at h4
  rcases h with h | h
  · simp [h] at h4
  · simp [to16, h]

/-- An AAAA record is made of every address, so the list must not have an IPv4 one. -/
theorem systemRecord_aaaa_iff (target : String) {ips : List IP}
    (hlen : ∀ ip ∈ ips, ip.length = 4 ∨ ip.length = 16) :
    (ips.filterMap fun ip => systemRecord target ip .aaaa) = familyRecords target ips .aaaa ↔
      ∀ ip ∈ ips, to4 ip = none := by
  constructor
  · intro h
    have hcount := congrArg List.length h
    -- no address is passed over on the left
    have hall : (ips.filterMap fun ip => systemRecord target ip .aaaa).length = ips.length := by
      rw [List.length_filterMap_eq_countP, List.countP_eq_length]
      intro ip hip
      simpa [systemRecord] using to16_isSome (hlen ip hip)
    rw [hall, familyRecords, List.length_map] at hcount
    intro ip hip
    have hkept := List.filter_eq_self.mp (List.filter_sublist.eq_of_length hcount.symm) ip hip
    simpa using hkept
  · intro h
    have hfilter : (ips.filter fun ip => (to4 ip).isNone) = ips :=
      List.filter_eq_self.mpr fun ip hip => by simp [h ip hip]
    rw [familyRecords, hfilter, ← List.filterMap_eq_map]
    refine List.filterMap_congr fun ip hip => ?_
    simp [systemRecord, to16_of_to4_eq_none (hlen ip hip) (h ip hip)]

theorem exchangeSystem_eq {q : Query Msg} {target : String} {qtype : QType}
    (hq : q.question = some (target, qtype)) (htype : qtype ≠ .https)
    {lookupIP : String → Except String (List IP)} {ips : List IP}
    (hips : lookupIP (trimSuffix target ".") = .ok ips) (hne : ips ≠ []) :
    exchangeSystem q lookupIP =
      .ok (q.setReply (ips.filterMap fun ip => systemRecord target ip qtype)) := by
  simp only [exchangeSystem, hq, if_neg htype, hips, if_neg hne]

/-- The system resolver's answer to an A or AAAA query has exactly the addresses of the family
that was asked for, in order, unless AAAA was asked for and there is an IPv4 address. -/
theorem exchangeSystem_family_iff {q : Query Msg} (hmsg : Function.Injective q.setReply)
    {target : String} {qtype : QType} (hq : q.question = some (target, qtype))
    (htype : qtype ≠ .https) {lookupIP : String → Except String (List IP)} {ips : List IP}
    (hips : lookupIP (trimSuffix target ".") = .ok ips) (hne : ips ≠ [])
    (hlen : ∀ ip ∈ ips, ip.length = 4 ∨ ip.length = 16) :
    exchangeSystem q lookupIP = .ok (q.setReply (familyRecords target ips qtype)) ↔
      qtype = .a ∨ ∀ ip ∈ ips, to4 ip = none := by
  rw [exchangeSystem_eq hq htype hips hne, Except.ok.injEq, hmsg.eq_iff]
  cases qtype with
  | a =>
    refine iff_of_true ?_ (.inl rfl)
    rw [familyRecords, List.map_filterMap]
    rfl
  | aaaa => rw [systemRecord_aaaa_iff target hlen, or_iff_right (by decide)]
  | https => exact absurd rfl htype

/-- A query whose answers are looked at. -/
def question (qtype : QType) : Query (List Record) where
  nodes := []
  question := some ("example.com.", qtype)
  setReply := id

/-- `192.0.2.1` in sixteen bytes. -/
def mapped : IP := v4Prefix ++ [192, 0, 2, 1]

/-- Addresses of both families: `192.0.2.1` in both forms, and `2001:db8::1`. -/
def mixed : List IP :=
  [mapped, [0x20, 0x01, 0x0d, 0xb8, 0, 0, 0, 0, 0, 0, 0, 0, 0, 0, 0, 1], [192, 0, 2, 1]]

theorem exchangeSystem_a_query :
    familyRecords "example.com." mixed .a =
        [.a "example.com." [192, 0, 2, 1], .a "example.com." [192, 0, 2, 1]] ∧
      exchangeSystem (question .a) (fun _ => .ok mixed) =
        .ok (familyRecords "example.com." mixed .a) := by
  refine ⟨by decide, ?_⟩
  exact (@exchangeSystem_family_iff _ (question .a) Function.injective_id "example.com." .a rfl
    (by decide) (fun _ => .ok mixed) mixed rfl (by decide) (by decide)).mpr (.inl rfl)

/-- An IPv4 address is the answer to an AAAA query. -/
theorem exchangeSystem_mapped_record :
    exchangeSystem (question .aaaa) (fun _ => .ok [mapped]) =
        .ok [.aaaa "example.com." mapped] ∧
      to4 mapped = some [192, 0, 2, 1] ∧ familyRecords "example.com." [mapped] .aaaa = [] :=
  ⟨rfl, by decide, by decide⟩

/-! ## The protocol -/

/-- A goroutine sends the message and no error, or no message and its error; the loop looks
at the error only. -/
def raceProtocol : Protocol (Answer Msg) (Reply Msg) where
  good r := r.1.ok
  wire r := if r.1.ok then ⟨r.1.msg, none⟩ else ⟨none, r.1.err⟩
  accepts res := res.err.isNone
  agree r := by
    obtain ⟨r, ⟨msg, rfl⟩ | ⟨err, rfl⟩⟩ := r <;> rfl

/-- The nodes that race. -/
def others (q : Query Msg) : List DNSNode := (activeNodes q.nodes).tail

/-- What the call of `exchange` and its goroutines have come to. -/
structure Exchange (Msg : Type) where
  primary : Option (Answer Msg) := none
  race : Option (State (Answer Msg) (Reply Msg)) := none
  /-- What was returned from the last step. -/
  resolved : Option (Except String Msg) := none

inductive Event (Msg : Type) where
  | primary (net : Bool → Attempt Msg)
  | finish (i : Nat) (net : Bool → Attempt Msg)
  | send (i : Nat)
  | cancel (i : Nat)
  | receive
  | system (lookupIP : String → Except String (List IP))

/-- What was returned from the first two steps. -/
def Exchange.answer (s : Exchange Msg) : Option (Option Msg) :=
  match s.primary with
  | none => none
  | some r =>
    if r.1.ok then some r.1.msg
    else match s.race.map State.stage with
      | some (.won res) => some res.msg
      | _ => none

/-- The first two steps are over without an answer. -/
def Exchange.atSystem (q : Query Msg) (s : Exchange Msg) : Bool :=
  match s.primary with
  | none => activeNodes q.nodes = []
  | some r =>
    !r.1.ok && match s.race.map State.stage with
      | none => others q = []
      | some .lost => true
      | some _ => false

def Exchange.advance (s : Exchange Msg) (e : Race.Event (Answer Msg)) : Option (Exchange Msg) :=
  s.race.bind fun race => (Race.step raceProtocol race e).map fun race => { s with race := some race }

def step (q : Query Msg) (s : Exchange Msg) : Event Msg → Option (Exchange Msg)
  | .primary net =>
    match s.primary, activeNodes q.nodes with
    | none, node :: rest =>
      let r := ask node net
      some { s with
        primary := some r
        race := if r.1.ok = true ∨ rest = [] then none else some (start rest.length rest.length) }
    | _, _ => none
  | .finish i net => (others q)[i]?.bind fun node => s.advance (.finish i (ask node net))
  | .send i => s.advance (.send i)
  | .cancel i => s.advance (.cancel i)
  | .receive => s.advance .receive
  | .system lookupIP =>
    if s.atSystem q = true ∧ s.resolved.isNone = true then
      some { s with resolved := some (exchangeSystem q lookupIP) }
    else none

/-! ## What the protocol keeps -/

theorem answer_eq_some_iff {s : Exchange Msg} {m : Option Msg} :
    s.answer = some m ↔
      ∃ r, s.primary = some r ∧
        ((r.1.ok = true ∧ r.1.msg = m) ∨
          (r.1.ok = false ∧
            ∃ race res, s.race = some race ∧ race.stage = .won res ∧ res.msg = m)) := by
  unfold Exchange.answer
  cases s.primary with
  | none => simp
  | some r =>
    cases hok : r.1.ok with
    | true => simp [hok]
    | false =>
      cases s.race with
      | none => simp [hok]
      | some race => cases hstage : race.stage <;> simp [hok, hstage]

theorem atSystem_iff {q : Query Msg} {s : Exchange Msg} :
    s.atSystem q = true ↔
      (s.primary = none ∧ activeNodes q.nodes = []) ∨
        ∃ r, s.primary = some r ∧ r.1.ok = false ∧
          ((s.race = none ∧ others q = []) ∨ ∃ race, s.race = some race ∧ race.stage = .lost) := by
  unfold Exchange.atSystem
  cases s.primary with
  | none => simp
  | some r =>
    cases hok : r.1.ok with
    | true => simp [hok]
    | false =>
      cases s.race with
      | none => simp [hok]
      | some race => cases hstage : race.stage <;> simp [hok, hstage]

/-- A node in use was asked in the run, and this is what its call has met. -/
def Asked (q : Query Msg) (trace : List (Event Msg)) (node : DNSNode)
    (net : Bool → Attempt Msg) : Prop :=
  (.primary net ∈ trace ∧ (activeNodes q.nodes).head? = some node) ∨
    ∃ i, .finish i net ∈ trace ∧ (others q)[i]? = some node

/-- The answer is that of a node that was asked. -/
def Produced (q : Query Msg) (trace : List (Event Msg)) (r : Answer Msg) : Prop :=
  ∃ node net, Asked q trace node net ∧ r = ask node net

structure Sound (q : Query Msg) (trace : List (Event Msg)) (s : Exchange Msg) : Prop where
  /-- The answer of the first node. -/
  asked : ∀ r, s.primary = some r → Produced q trace r
  /-- The others race when the first one has failed. -/
  race : ∀ race, s.race = some race →
    Inv raceProtocol race ∧ race.workers.length = (others q).length ∧
      (∃ r, s.primary = some r ∧ r.1.ok = false) ∧
      ∀ r, race.Reported r → Produced q trace r.reply
  alone : ∀ r, s.primary = some r → r.1.ok = false → s.race = none → others q = []
  resolved : s.resolved.isSome = true → s.atSystem q = true

theorem sound_start (q : Query Msg) : Sound q [] {} := by
  constructor
  · intro r hr
    cases hr
  · intro race hrace
    cases hrace
  · intro r hr
    cases hr
  · intro hr
    cases hr

theorem Asked.mem {q : Query Msg} {trace : List (Event Msg)} {node : DNSNode}
    {net : Bool → Attempt Msg} (h : Asked q trace node net) : node ∈ activeNodes q.nodes := by
  rcases h with ⟨-, hfirst⟩ | ⟨i, -, hi⟩
  · exact List.mem_of_mem_head? hfirst
  · exact List.mem_of_mem_tail (List.mem_of_getElem? hi)

theorem Produced.concat {q : Query Msg} {trace : List (Event Msg)} {r : Answer Msg}
    (h : Produced q trace r) (e : Event Msg) : Produced q (trace ++ [e]) r := by
  obtain ⟨node, net, hasked, rfl⟩ := h
  refine ⟨node, net, ?_, rfl⟩
  exact hasked.imp (fun h => ⟨List.mem_append_left _ h.1, h.2⟩)
    fun ⟨i, h⟩ => ⟨i, List.mem_append_left _ h.1, h.2⟩

/-- An event of the race. What it brings, if it brings anything, is the answer of a node. -/
theorem Sound.advance {q : Query Msg} {trace : List (Event Msg)} {s s' : Exchange Msg}
    (h : Sound q trace s) {e : Event Msg} {e' : Race.Event (Answer Msg)}
    (hstep : s.advance e' = some s')
    (he : ∀ i r, e' = .finish i r → Produced q (trace ++ [e]) r) : Sound q (trace ++ [e]) s' := by
  simp only [Exchange.advance, Option.bind_eq_some_iff, Option.map_eq_some_iff] at hstep
  obtain ⟨race, hrace, race', hnext, rfl⟩ := hstep
  obtain ⟨hinv, hlen, hfailed, horigin⟩ := h.race race hrace
  refine ⟨fun r hr => (h.asked r hr).concat e, fun race'' heq => ?_,
    fun r hr hbad hnone => (by cases hnone), fun hres => ?_⟩
  · obtain rfl := Option.some.inj heq
    refine ⟨hinv.step hnext, (step_length hnext).trans hlen, hfailed, fun r hr => ?_⟩
    rcases reported_step hnext hr with hold | ⟨i, hi⟩
    · exact (horigin r hold).concat e
    · exact he i r.reply hi
  · rcases atSystem_iff.mp (h.resolved hres) with ⟨hnone, -⟩ | ⟨r, hr, hbad, ⟨hnone, -⟩ | hlost⟩
    · obtain ⟨r, hr, -⟩ := hfailed
      rw [hnone] at hr
      cases hr
    · rw [hrace] at hnone
      cases hnone
    · -- a race that is lost stays lost
      obtain ⟨race'', heq, hstage⟩ := hlost
      obtain rfl := Option.some.inj (hrace.symm.trans heq)
      have hsame := step_stage (fun taken ht => by rw [hstage] at ht; cases ht) hnext
      exact atSystem_iff.mpr (.inr ⟨r, hr, hbad, .inr ⟨race', rfl, hsame.trans hstage⟩⟩)

theorem Sound.primary {q : Query Msg} {trace : List (Event Msg)} {s : Exchange Msg}
    (h : Sound q trace s) (hnone : s.primary = none)
    {node : DNSNode} {rest : List DNSNode} (hactive : activeNodes q.nodes = node :: rest)
    (net : Bool → Attempt Msg) :
    Sound q (trace ++ [.primary net]) { s with
      primary := some (ask node net)
      race := if (ask node net).1.ok = true ∨ rest = [] then none
        else some (start rest.length rest.length) } := by
  have hothers : others q = rest := by rw [others, hactive, List.tail_cons]
  refine ⟨fun r hr => ?_, fun race hrace => ?_, fun r hr hbad hrace => ?_, fun hres => ?_⟩
  · obtain rfl := Option.some.inj hr
    exact ⟨node, net, .inl ⟨by simp, by rw [hactive]; rfl⟩, rfl⟩
  · simp only at hrace
    split at hrace
    · cases hrace
    · rename_i hcond
      obtain rfl := Option.some.inj hrace
      refine ⟨inv_start raceProtocol le_rfl, by rw [hothers]; simp [start],
        ⟨_, rfl, ?_⟩, fun r hr => ?_⟩
      · simpa using fun hok => hcond (.inl hok)
      · obtain ⟨w, hw, hwr⟩ := hr
        rw [List.eq_of_mem_replicate hw] at hwr
        cases hwr
  · obtain rfl := Option.some.inj hr
    simp only at hrace
    split at hrace
    · rename_i hcond
      rw [hothers]
      exact hcond.resolve_left (by rw [hbad]; decide)
    · cases hrace
  · rcases atSystem_iff.mp (h.resolved hres) with ⟨-, hempty⟩ | ⟨r, hr, -⟩
    · rw [hactive] at hempty
      cases hempty
    · rw [hnone] at hr
      cases hr

theorem step_sound {q : Query Msg} {trace : List (Event Msg)} {s s' : Exchange Msg}
    {e : Event Msg} (h : Sound q trace s) (hstep : step q s e = some s') :
    Sound q (trace ++ [e]) s' := by
  cases e with
  | primary net =>
    simp only [step] at hstep
    split at hstep
    · rename_i node rest hnone hactive
      obtain rfl := Option.some.inj hstep
      exact h.primary hnone hactive net
    · cases hstep
  | finish i net =>
    simp only [step, Option.bind_eq_some_iff] at hstep
    obtain ⟨node, hi, hadvance⟩ := hstep
    refine h.advance hadvance fun j r heq => ?_
    cases heq
    exact ⟨node, net, .inr ⟨i, by simp, hi⟩, rfl⟩
  | send i => exact h.advance hstep fun j r heq => by cases heq
  | cancel i => exact h.advance hstep fun j r heq => by cases heq
  | receive => exact h.advance hstep fun j r heq => by cases heq
  | system lookupIP =>
    simp only [step, Option.ite_none_right_eq_some, Option.some.injEq] at hstep
    obtain ⟨⟨hat, -⟩, rfl⟩ := hstep
    refine ⟨fun r hr => (h.asked r hr).concat _, fun race hrace => ?_, h.alone, fun _ => hat⟩
    obtain ⟨hinv, hlen, hfailed, horigin⟩ := h.race race hrace
    exact ⟨hinv, hlen, hfailed, fun r hr => (horigin r hr).concat _⟩

theorem exec_sound {q : Query Msg} {s : Exchange Msg} {trace : List (Event Msg)}
    (h : exec (step q) {} trace = some s) : Sound q trace s :=
  exec_invariant (I := Sound q) h (sound_start q) fun _ _ _ _ _ hs hstep => step_sound hs hstep

/-! ## No working node is missed -/

/-- The call has returned. -/
def Exchange.Returned (s : Exchange Msg) : Prop :=
  s.answer.isSome = true ∨ s.resolved.isSome = true

/-- The first node has succeeded, or another one before a cancellation. -/
def Exchange.Succeeded (s : Exchange Msg) : Prop :=
  (∃ r, s.primary = some r ∧ r.1.ok = true) ∨
    ∃ race, s.race = some race ∧ race.Succeeded raceProtocol

/-- Every enabled node has failed, and none of them because of a cancellation. -/
def AllFailed (q : Query Msg) (s : Exchange Msg) : Prop :=
  activeNodes q.nodes = [] ∨
    (∃ r, s.primary = some r ∧ r.1.ok = false) ∧
      ∀ i, i < (others q).length → ∃ race r, s.race = some race ∧
        race.workers[i]? = some (.done ⟨r, false⟩) ∧ r.1.ok = false

theorem Reply.Determined.msg_isSome {r : Reply Msg} (h : r.Determined) (hok : r.ok = true) :
    ∃ m, r.msg = some m := by
  obtain ⟨m, rfl⟩ | ⟨err, rfl⟩ := h
  · exact ⟨m, rfl⟩
  · cases hok

theorem Sound.produced {q : Query Msg} {trace : List (Event Msg)} {s : Exchange Msg}
    (h : Sound q trace s) {m : Option Msg} (hm : s.answer = some m) :
    ∃ node ∈ activeNodes q.nodes, ∃ net, Asked q trace node net ∧
      (exchangeNode node net).ok = true ∧ m = (exchangeNode node net).msg := by
  obtain ⟨r, hr, ⟨hok, rfl⟩ | ⟨hbad, race, res, hrace, hwon, rfl⟩⟩ := answer_eq_some_iff.mp hm
  · obtain ⟨node, net, hasked, rfl⟩ := h.asked r hr
    exact ⟨node, hasked.mem, net, hasked, hok, rfl⟩
  · obtain ⟨hinv, -, -, horigin⟩ := h.race race hrace
    obtain ⟨r', hr', hgood, rfl⟩ := hinv.won res hwon
    obtain ⟨node, net, hasked, heq⟩ := horigin r' hr'
    rw [heq] at hgood ⊢
    refine ⟨node, hasked.mem, net, hasked, hgood, ?_⟩
    simp only [raceProtocol] at hgood ⊢
    rw [if_pos hgood]
    rfl

theorem Sound.allFailed {q : Query Msg} {trace : List (Event Msg)} {s : Exchange Msg}
    (h : Sound q trace s)
    (hat : s.atSystem q = true) : AllFailed q s := by
  rcases atSystem_iff.mp hat with ⟨-, hempty⟩ | ⟨r, hr, hbad, ⟨hnone, hothers⟩ | hlost⟩
  · exact .inl hempty
  · refine .inr ⟨⟨r, hr, hbad⟩, fun i hi => ?_⟩
    rw [hothers] at hi
    cases hi
  · obtain ⟨race, hrace, hstage⟩ := hlost
    obtain ⟨hinv, hlen, -⟩ := h.race race hrace
    refine .inr ⟨⟨r, hr, hbad⟩, fun i hi => ?_⟩
    rw [← hlen] at hi
    obtain ⟨r', hr', hbad'⟩ := hinv.lost hstage race.workers[i] (List.getElem_mem hi)
    exact ⟨race, r', hrace, by rw [List.getElem?_eq_getElem hi, hr'], hbad'⟩

theorem Sound.answered_iff {q : Query Msg} {trace : List (Event Msg)} {s : Exchange Msg}
    (h : Sound q trace s) (hret : s.Returned) :
    (∃ m, s.answer = some (some m)) ↔ s.Succeeded := by
  constructor
  · rintro ⟨m, hm⟩
    obtain ⟨r, hr, ⟨hok, -⟩ | ⟨hbad, race, res, hrace, hwon, -⟩⟩ := answer_eq_some_iff.mp hm
    · exact .inl ⟨r, hr, hok⟩
    · obtain ⟨hinv, -⟩ := h.race race hrace
      refine .inr ⟨race, hrace, (hinv.won_iff fun taken ht => ?_).mp ⟨res, hwon⟩⟩
      rw [hwon] at ht
      cases ht
  · intro hsucc
    have hsome : s.answer.isSome = true := by
      refine hret.resolve_right fun hres => ?_
      rcases hsucc with ⟨r, hr, hok⟩ | ⟨race, hrace, hrsucc⟩
      · rcases atSystem_iff.mp (h.resolved hres) with ⟨hnone, -⟩ | ⟨r', hr', hbad, -⟩
        · rw [hnone] at hr
          cases hr
        · obtain rfl := Option.some.inj (hr.symm.trans hr')
          rw [hok] at hbad
          cases hbad
      · rcases atSystem_iff.mp (h.resolved hres) with
          ⟨hnone, -⟩ | ⟨r', hr', hbad, ⟨hnone, -⟩ | ⟨race', hrace', hlost⟩⟩
        · obtain ⟨-, -, ⟨r, hr, -⟩, -⟩ := h.race race hrace
          rw [hnone] at hr
          cases hr
        · rw [hnone] at hrace
          cases hrace
        · obtain rfl := Option.some.inj (hrace.symm.trans hrace')
          obtain ⟨hinv, -⟩ := h.race race hrace
          have hover : race.Over := fun taken ht => by
            rw [hlost] at ht
            cases ht
          obtain ⟨res, hwon⟩ := (hinv.won_iff hover).mpr hrsucc
          rw [hlost] at hwon
          cases hwon
    obtain ⟨m, hm⟩ := Option.isSome_iff_exists.mp hsome
    obtain ⟨node, -, net, -, hok, rfl⟩ := h.produced hm
    obtain ⟨m, hmsg⟩ := (exchangeNode_determined node net).msg_isSome hok
    exact ⟨m, by rw [hm, hmsg]⟩

/-! ## The call returns -/

/-- A node that cannot be reached. -/
def unreachable (_ : Bool) : Attempt Msg where
  getNodeClient := .ok ()
  pack := .ok ()
  newRequest := .ok ()
  response := .error "connection refused"
  readAll := .ok []
  unpack _ := .error "overflow unpacking uint16"
  parsed := true
  resolveECHSafe := .ok []

/-- Until the call has returned, the next event can come. -/
theorem Sound.progress {q : Query Msg} {trace : List (Event Msg)} {s : Exchange Msg}
    (h : Sound q trace s)
    (hret : ¬ s.Returned) : ∃ e, (step q s e).isSome = true := by
  unfold Exchange.Returned at hret
  rw [not_or] at hret
  have hsystem : s.atSystem q = true → ∃ e, (step q s e).isSome = true := fun hat =>
    ⟨.system fun _ => .ok [], by simpa [step, hat] using hret.2⟩
  cases hprimary : s.primary with
  | none =>
    cases hactive : activeNodes q.nodes with
    | nil => exact hsystem (atSystem_iff.mpr (.inl ⟨hprimary, hactive⟩))
    | cons node rest => exact ⟨.primary unreachable, by simp [step, hprimary, hactive]⟩
  | some r =>
    have hbad : r.1.ok = false := by
      by_contra hok
      have hsome : s.answer = some r.1.msg :=
        answer_eq_some_iff.mpr ⟨r, hprimary, .inl ⟨by simpa using hok, rfl⟩⟩
      exact hret.1 (by rw [hsome]; rfl)
    cases hrace : s.race with
    | none =>
      exact hsystem (atSystem_iff.mpr
        (.inr ⟨r, hprimary, hbad, .inl ⟨hrace, h.alone r hprimary hbad hrace⟩⟩))
    | some race =>
      obtain ⟨hinv, hlen, -⟩ := h.race race hrace
      cases hstage : race.stage with
      | won res =>
        have hsome : s.answer = some res.msg :=
          answer_eq_some_iff.mpr ⟨r, hprimary, .inr ⟨hbad, race, res, hrace, hstage, rfl⟩⟩
        exact absurd (by rw [hsome]; rfl) hret.1
      | lost =>
        exact hsystem (atSystem_iff.mpr
          (.inr ⟨r, hprimary, hbad, .inr ⟨race, hrace, hstage⟩⟩))
      | receiving taken =>
        rcases hinv.progress fun hover => hover taken hstage with ⟨i, hi⟩ | ⟨i, hi⟩ | hi
        · have hlt : i < (others q).length := by
            rw [← hlen]
            exact (List.getElem?_eq_some_iff.mp hi).1
          refine ⟨.finish i unreachable, ?_⟩
          simp [step, Exchange.advance, hrace, Race.step, hi, List.getElem?_eq_getElem hlt]
        · exact ⟨.send i, by simpa [step, Exchange.advance, hrace] using hi⟩
        · exact ⟨.receive, by simpa [step, Exchange.advance, hrace] using hi⟩

/-- A bound on the events that can still come. -/
def Exchange.measure (q : Query Msg) (s : Exchange Msg) : Nat :=
  (if s.primary.isNone then 4 * (others q).length + 1 else 0) +
    (s.race.elim 0 State.measure) + if s.resolved.isNone then 1 else 0

theorem measure_start (n : Nat) :
    (start n n : State (Answer Msg) (Reply Msg)).measure ≤ 4 * n := by
  unfold start State.measure
  simp only [workLeft_replicate, List.length_replicate, Worker.left]
  split <;> simp only [Stage.left] <;> omega

theorem measure_advance {q : Query Msg} {trace : List (Event Msg)} {s s' : Exchange Msg}
    (h : Sound q trace s) {e : Race.Event (Answer Msg)} (hstep : s.advance e = some s') :
    s'.measure q < s.measure q := by
  simp only [Exchange.advance, Option.bind_eq_some_iff, Option.map_eq_some_iff] at hstep
  obtain ⟨race, hrace, race', hnext, rfl⟩ := hstep
  have hlt := (h.race race hrace).1.measure_lt hnext
  simp only [Exchange.measure, hrace, Option.elim_some]
  omega

theorem measure_lt {q : Query Msg} {trace : List (Event Msg)} {s s' : Exchange Msg}
    {e : Event Msg} (h : Sound q trace s) (hstep : step q s e = some s') : s'.measure q < s.measure q := by
  cases e with
  | primary net =>
    simp only [step] at hstep
    split at hstep
    · rename_i node rest hnone hactive
      obtain rfl := Option.some.inj hstep
      have hothers : others q = rest := by rw [others, hactive, List.tail_cons]
      have hrace : s.race = none := by
        by_contra hsome
        obtain ⟨race, hrace⟩ := Option.ne_none_iff_exists'.mp hsome
        obtain ⟨-, -, ⟨r, hr, -⟩, -⟩ := h.race race hrace
        rw [hnone] at hr
        cases hr
      have hstart : (start rest.length rest.length : State (Answer Msg) (Reply Msg)).measure ≤
          4 * rest.length := measure_start rest.length
      simp only [Exchange.measure, hnone, hrace, hothers, Option.isNone_none, Option.isNone_some,
        if_true, Bool.false_eq_true, if_false, Option.elim_none]
      split
      · simp only [Option.elim_none]
        omega
      · simp only [Option.elim_some]
        omega
    · cases hstep
  | finish i net =>
    simp only [step, Option.bind_eq_some_iff] at hstep
    obtain ⟨node, -, hadvance⟩ := hstep
    exact measure_advance h hadvance
  | send i => exact measure_advance h hstep
  | cancel i => exact measure_advance h hstep
  | receive => exact measure_advance h hstep
  | system lookupIP =>
    simp only [step, Option.ite_none_right_eq_some, Option.some.injEq] at hstep
    obtain ⟨⟨-, hnone⟩, rfl⟩ := hstep
    simp [Exchange.measure, hnone]

/-- After any events of a call of `exchange`, in any order that is possible:
the call that has returned has a node's answer exactly when the first node has succeeded or
another one before a cancellation, and it is what a node that was asked in the run has
produced; a goroutine that is to send can
do so; the system resolver is asked only when every enabled node has failed; and the call is
not stuck and returns after finitely many events. -/
theorem failover_sound (q : Query Msg) (trace : List (Event Msg)) (s : Exchange Msg)
    (h : exec (step q) {} trace = some s) :
    (s.Returned → ((∃ m, s.answer = some (some m)) ↔ s.Succeeded)) ∧
      (∀ m, s.answer = some m → ∃ node ∈ activeNodes q.nodes, ∃ net, Asked q trace node net ∧
        (exchangeNode node net).ok = true ∧ m = (exchangeNode node net).msg) ∧
      (∀ race i r, s.race = some race → race.workers[i]? = some (.sending r) →
        (step q s (.send i)).isSome = true) ∧
      (∀ lookupIP, (step q s (.system lookupIP)).isSome = true → AllFailed q s) ∧
      (¬ s.Returned → ∃ e, (step q s e).isSome = true) ∧
      trace.length ≤ 4 * (others q).length + 2 := by
  have hs := exec_sound h
  refine ⟨hs.answered_iff, fun m hm => hs.produced hm, fun race i r hrace hi => ?_,
    fun lookupIP hsome => ?_, hs.progress, ?_⟩
  · have hsend := (hs.race race hrace).1.send_enabled hi
    simpa [step, Exchange.advance, hrace] using hsend
  · refine hs.allFailed ?_
    simp only [step] at hsome
    split at hsome
    · rename_i hcond
      exact hcond.1
    · cases hsome
  · have hlen := exec_length_le (P := fun s => ∃ trace, Sound q trace s)
      (μ := Exchange.measure q) h ⟨[], sound_start q⟩
      fun _ _ _ ⟨_, hs⟩ hstep => ⟨⟨_, step_sound hs hstep⟩, measure_lt hs hstep⟩
    have hbound : Exchange.measure q ({} : Exchange Msg) = 4 * (others q).length + 2 := rfl
    omega

/-- A node that answers. -/
def answering (msg : Msg) (_ : Bool) : Attempt Msg :=
  { (unreachable true : Attempt Msg) with response := .ok 200, unpack := fun _ => .ok msg }

def threeNodes : Query Nat where
  nodes := [{ id := "1", enabled := true }, { id := "2", enabled := true },
    { id := "3", enabled := true }]
  question := some ("example.com.", .a)
  setReply _ := 0

/-- The first node fails and the third one answers; the second one, cancelled by it, sends its
error before the answer is received. -/
def lateError : List (Event Nat) :=
  [.primary unreachable, .finish 1 (answering 7), .send 1, .cancel 1, .finish 0 unreachable,
    .send 0, .receive]

theorem lateError_answered :
    ∃ s, exec (step threeNodes) {} lateError = some s ∧ s.answer = some (some 7) ∧
      s.Succeeded ∧ ∃ node ∈ activeNodes threeNodes.nodes, ∃ net,
        Asked threeNodes lateError node net ∧ (exchangeNode node net).ok = true ∧
          some 7 = (exchangeNode node net).msg := by
  obtain ⟨hanswered, hproduced, -⟩ := failover_sound threeNodes lateError _ rfl
  exact ⟨_, rfl, rfl, (hanswered (.inl rfl)).mp ⟨7, rfl⟩, hproduced _ rfl⟩

end SniShaper.Doh
