import SniShaper.Doh.Resolver
import SniShaper.Lib.RWMutex.Deadlock

/-! The methods of the rule manager (`proxy/proxy.go`, `proxy/config.go`) as users of its
lock `mu`. Each is the sequence of its lock, unlock and wait steps; nothing else of it is
modelled here. `matchRule` keeps its read lock while the auto router looks a host up and
while `emitRouteEvent` takes the lock again.

* `matchRule_live`: no goroutine waits forever if no lookup that `matchRule` waits for
  updates a profile, and no writer asks for the lock while a `matchRule` has yet to take
  it again;
* `matchRule_update_never_returns`, `unheeded_waitsForever`: and neither can be spared;
* `matchRule_addSiteGroup_deadlock`: one `matchRule` and one writer are enough. -/

namespace SniShaper.Locking

open RWMutex Doh Config

/-! ## The methods -/

def readSection (k : Prog) : Prog := .rlock (.runlock k)

def writeSection (k : Prog) : Prog := .lock (.acquire (.unlock k))

/-- The methods that wait for nothing but the lock. -/
inductive Method where
  | getSiteGroups | getServerHost | getServerAuth | getListenPort | getSocks5Enabled
  | getSocks5Port | getCloudflareConfig | getTUNConfig | getCloseToTray | getAutoStart
  | getShowMainWindowOnAutoStart | getAutoEnableProxyOnAutoStart | getLanguage | getTheme
  | getUpstreams | getDNSNodes | getECHProfiles | getBinaryECHConfig | getAutoRoutingConfig
  | getAutoRouter | getAutoRoutingStatus | saveConfig | exportConfig
  | setRouteEventCallback | setOnConfigSaved | setRules | setListenPort | setSocks5Enabled
  | setSocks5Port | setCloseToTray | setAutoStart | setShowMainWindowOnAutoStart
  | setAutoEnableProxyOnAutoStart | setLanguage | setTheme | updateServerConfig
  | updateCloudflareConfig | updateTUNConfig | addSiteGroup | updateSiteGroup | deleteSiteGroup
  | addUpstream | updateUpstream | deleteUpstream | addDNSNode | updateDNSNode | deleteDNSNode
  | setDNSNodePriority | upsertECHProfile | deleteECHProfile | updateECHProfileConfig
  | updateAutoRoutingConfig | initAutoRouter | importConfigWithSummary | refreshGFWList
  deriving DecidableEq, Repr

/-- What a method does with the lock. `RefreshGFWList` fetches the list between two sections;
`SaveConfig` and `ExportConfig` only read. -/
def Method.steps : Method → Prog
  | .getSiteGroups | .getServerHost | .getServerAuth | .getListenPort | .getSocks5Enabled
  | .getSocks5Port | .getCloudflareConfig | .getTUNConfig | .getCloseToTray | .getAutoStart
  | .getShowMainWindowOnAutoStart | .getAutoEnableProxyOnAutoStart | .getLanguage | .getTheme
  | .getUpstreams | .getDNSNodes | .getECHProfiles | .getBinaryECHConfig | .getAutoRoutingConfig
  | .getAutoRouter | .getAutoRoutingStatus | .saveConfig | .exportConfig => readSection .done
  | .refreshGFWList => readSection (writeSection .done)
  | _ => writeSection .done

def emitRouteEvent (k : Prog) : Prog := readSection k

/-! ## The resolver -/

/-- What a call of the resolver itself does with the lock. -/
def ownSteps : Call → Prog → Prog
  | .getDNSNodes, k => readSection k
  | .getBinaryECHConfig _, k => readSection k
  | .updateECHProfileConfig _, k => writeSection k
  | _, k => k

/-- How a call waits for the calls it makes. A goroutine that is waited for as long as a
context lasts keeps nobody waiting forever. -/
def nestedSteps (run : Call → Prog → Prog) : Nested → Prog → Prog
  | .call c, k => run c k
  | .all cs, k => .forkAll (cs.map (run · .done)) k
  | .spawn c, k => .go (run c .done) k

def isUpdate : Call → Bool
  | .updateECHProfileConfig _ => true
  | _ => false

def waitsFor (p : Call → Bool) : Nested → Bool
  | .call c => p c
  | .all cs => cs.any p
  | .spawn _ => false

/-- A lookup: what it finds, and how deep its calls are nested. -/
structure Resolution where
  env : Env
  net : List Call → Outcome
  levels : Nat

/-! ## What may follow under a read lock -/

/-- What may follow with `h` read locks held: with one, the lock is taken again. -/
def Follows (h : Nat) (k : Prog) : Prop := Ok h k ∧ Careful h k ∧ (0 < h → nests h k = true)

theorem Follows.of_zero {k : Prog} (hok : Ok 0 k) (hcare : Careful 0 k) : Follows 0 k :=
  ⟨hok, hcare, fun hh => absurd hh (Nat.lt_irrefl 0)⟩

theorem Follows.read {h : Nat} {k : Prog} (hk : Follows h k) : Follows h (readSection k) :=
  ⟨⟨Nat.succ_pos h, hk.1⟩, hk.2.1, fun hh => nests_rlock hh _⟩

theorem Follows.write {k : Prog} (hk : Follows 0 k) : Follows 0 (writeSection k) :=
  .of_zero ⟨rfl, hk.1⟩ hk.2.1

theorem follows_done : Follows 0 .done := .of_zero rfl trivial

theorem Method.follows (m : Method) : Follows 0 m.steps := by
  have hread := follows_done.read
  have hwrite := follows_done.write
  cases m <;> first | exact hread | exact hwrite | exact hwrite.read

/-- The event is emitted under the read lock of `matchRule`. -/
theorem follows_emit : Follows 1 (emitRouteEvent (.runlock .done)) :=
  ⟨⟨by simp, by simp, rfl⟩, trivial, fun _ => rfl⟩

theorem Follows.ownSteps {h : Nat} {c : Call} {k : Prog} (hk : Follows h k)
    (hc : 0 < h → isUpdate c = false) : Follows h (ownSteps c k) := by
  cases c with
  | getDNSNodes => exact hk.read
  | getBinaryECHConfig id => exact hk.read
  | updateECHProfileConfig id =>
    obtain rfl : h = 0 := by
      by_contra hne
      exact absurd (hc (Nat.pos_of_ne_zero hne)) (by simp [isUpdate])
    exact hk.write
  | _ => exact hk

theorem writeFree_ownSteps (c : Call) (k : Prog) :
    writeFree (ownSteps c k) = (!isUpdate c && writeFree k) := by
  cases c <;> simp [ownSteps, readSection, writeSection, writeFree, isUpdate]

section

variable [Strings.CaseTables]

/-! ## Tasks -/

/-- The steps of a call, with those of the calls it makes. -/
def callSteps (env : Env) (net : List Call → Outcome) : Nat → List Call → Call → Prog → Prog
  | 0, _, _, k => k
  | levels + 1, s, c, k =>
    ownSteps c ((nested env (net (c :: s)) c).foldr
      (nestedSteps (callSteps env net levels (c :: s))) k)

/-- The call waits for an update of a profile. -/
def awaitsUpdate (env : Env) (net : List Call → Outcome) : Nat → List Call → Call → Bool
  | 0, _, _ => false
  | levels + 1, s, c =>
    isUpdate c ||
      (nested env (net (c :: s)) c).any (waitsFor (awaitsUpdate env net levels (c :: s)))

def Resolution.steps (r : Resolution) (c : Call) (k : Prog) : Prog :=
  callSteps r.env r.net r.levels [] c k

/-- The rule of a host. With auto routing a host that no rule matches may have to be
looked up to see whether it is Cloudflare's. -/
def matchRule (asked : Option (Resolution × String)) : Prog :=
  .rlock <|
    match asked with
    | none => emitRouteEvent (.runlock .done)
    | some (r, host) => r.steps (.resolveIPAddrs .timeout host) (emitRouteEvent (.runlock .done))

/-- What a goroutine does with the rule manager. -/
inductive Task where
  | matchRule (asked : Option (Resolution × String))
  | method (m : Method)
  | resolve (r : Resolution) (c : Call)

def Task.prog : Task → Prog
  | .matchRule asked => Locking.matchRule asked
  | .method m => m.steps
  | .resolve r c => r.steps c .done

/-- No `matchRule` waits for an update of a profile. -/
def Task.Quiet : Task → Prop
  | .matchRule (some (r, host)) =>
    awaitsUpdate r.env r.net r.levels [] (.resolveIPAddrs .timeout host) = false
  | _ => True

/-! ## Every task uses the lock properly -/

/-- What a call waits for writes only if it updates a profile. -/
theorem writeFree_callSteps (env : Env) (net : List Call → Outcome) (levels : Nat) (s : List Call)
    (c : Call) (k : Prog) :
    writeFree (callSteps env net levels s c k) =
      (!awaitsUpdate env net levels s c && writeFree k) := by
  induction levels generalizing s c k with
  | zero => simp [callSteps, awaitsUpdate]
  | succ levels ih =>
    have hlist : ∀ ns : List Nested,
        writeFree (ns.foldr (nestedSteps (callSteps env net levels (c :: s))) k) =
          (!ns.any (waitsFor (awaitsUpdate env net levels (c :: s))) && writeFree k) := by
      intro ns
      induction ns with
      | nil => simp
      | cons n ns ihns =>
        rw [List.foldr_cons, List.any_cons]
        cases n with
        | call a =>
          simp only [nestedSteps, waitsFor, ih, ihns]
          simp [Bool.and_assoc]
        | all cs =>
          have hall : (cs.map (callSteps env net levels (c :: s) · .done)).all writeFree =
              !cs.any (awaitsUpdate env net levels (c :: s)) := by
            simp [Function.comp_def, ih, writeFree, List.all_eq_not_any_not]
          simp only [nestedSteps, waitsFor, writeFree_forkAll, hall, ihns]
          simp [Bool.and_assoc]
        | spawn a =>
          simp only [nestedSteps, waitsFor, writeFree, ihns]
          simp
    simp only [callSteps, awaitsUpdate, writeFree_ownSteps, hlist]
    simp [Bool.and_assoc]

theorem all_writeFree_callSteps (env : Env) (net : List Call → Outcome) (levels : Nat)
    (s : List Call) (cs : List Call) :
    (cs.map (callSteps env net levels s · .done)).all writeFree =
      !cs.any (awaitsUpdate env net levels s) := by
  simp [Function.comp_def, writeFree_callSteps, writeFree, List.all_eq_not_any_not]

theorem Follows.callSteps {env : Env} {net : List Call → Outcome} {levels : Nat} {s : List Call}
    {c : Call} {h : Nat} {k : Prog} (hk : Follows h k)
    (hc : 0 < h → awaitsUpdate env net levels s c = false) :
    Follows h (callSteps env net levels s c k) := by
  induction levels generalizing s c h k with
  | zero => exact hk
  | succ levels ih =>
    simp only [awaitsUpdate, Bool.or_eq_false_iff] at hc
    have hzero (a : Call) : Follows 0 (Locking.callSteps env net levels (c :: s) a .done) :=
      ih follows_done fun hh => absurd hh (Nat.lt_irrefl 0)
    have hlist : ∀ ns : List Nested,
        (0 < h → ns.any (waitsFor (awaitsUpdate env net levels (c :: s))) = false) →
        Follows h (ns.foldr (nestedSteps (Locking.callSteps env net levels (c :: s))) k) := by
      intro ns
      induction ns with
      | nil => exact fun _ => hk
      | cons n ns ihns =>
        intro hns
        simp only [List.any_cons, Bool.or_eq_false_iff] at hns
        have hrest := ihns fun hh => (hns hh).2
        rw [List.foldr_cons]
        cases n with
        | call a => exact ih hrest fun hh => (hns hh).1
        | all cs =>
          have hgo : ∀ p ∈ cs.map (Locking.callSteps env net levels (c :: s) · .done),
              Follows 0 p := by
            intro p hp
            obtain ⟨a, -, rfl⟩ := List.mem_map.mp hp
            exact hzero a
          refine ⟨.forkAll (fun p hp => (hgo p hp).1) hrest.1,
            .forkAll (fun p hp => (hgo p hp).2.1) hrest.2.1 fun hh => ⟨hrest.2.2 hh, ?_⟩,
            fun hh => (nests_forkAll hh _ _).trans (hrest.2.2 hh)⟩
          have hquiet : cs.any (awaitsUpdate env net levels (c :: s)) = false := (hns hh).1
          rw [all_writeFree_callSteps, hquiet]
          rfl
        | spawn a =>
          exact ⟨⟨(hzero a).1, hrest.1⟩, ⟨(hzero a).2.1, hrest.2.1⟩,
            fun hh => (nests_go hh _ _).trans (hrest.2.2 hh)⟩
    exact (hlist _ fun hh => (hc hh).2).ownSteps fun hh => (hc hh).1

theorem callSteps_zero_ok (r : Resolution) (s : List Call) (levels : Nat) (c : Call) :
    Follows 0 (callSteps r.env r.net levels s c .done) :=
  follows_done.callSteps fun hh => absurd hh (Nat.lt_irrefl 0)

theorem Task.careful {t : Task} (ht : t.Quiet) : Careful 0 t.prog := by
  cases t with
  | matchRule asked =>
    cases asked with
    | none => exact follows_emit.2.1
    | some p => exact (follows_emit.callSteps fun _ => ht).2.1
  | method m => exact m.follows.2.1
  | resolve r c => exact (callSteps_zero_ok r [] r.levels c).2.1

theorem awaitsUpdate_getDNSNodes (env : Env) (net : List Call → Outcome) (levels : Nat)
    (s : List Call) : awaitsUpdate env net levels s .getDNSNodes = false := by
  cases levels with
  | zero => rfl
  | succ levels => rfl

/-- The lookup of `matchRule` reads the nodes and waits for the exchanges it starts. -/
theorem callSteps_resolveIPAddrs (r : Resolution) (levels : Nat) (ctx : Ctx) (host : String)
    (k : Prog) : ∃ as, callSteps r.env r.net (levels + 1) [] (.resolveIPAddrs ctx host) k =
        callSteps r.env r.net levels [.resolveIPAddrs ctx host] .getDNSNodes (.forkAll as k) ∧
      (∀ a ∈ as, Ok 0 a) ∧
      awaitsUpdate r.env r.net (levels + 1) [] (.resolveIPAddrs ctx host) = !as.all writeFree := by
  have hread := awaitsUpdate_getDNSNodes r.env r.net levels [.resolveIPAddrs ctx host]
  simp only [callSteps, awaitsUpdate, nested, ownSteps, isUpdate, List.foldr_cons, nestedSteps,
    List.any_cons, waitsFor, hread, Bool.false_or]
  split
  · exact ⟨[], rfl, by simp, rfl⟩
  · refine ⟨_, rfl, ?_, ?_⟩
    · intro a ha
      obtain ⟨c, -, rfl⟩ := List.mem_map.mp ha
      exact (callSteps_zero_ok r _ levels c).1
    · rw [all_writeFree_callSteps]
      simp [waitsFor]

theorem callSteps_getDNSNodes (r : Resolution) (levels : Nat) (s : List Call) (k : Prog) :
    callSteps r.env r.net levels s .getDNSNodes k = k ∨
      callSteps r.env r.net levels s .getDNSNodes k = readSection k := by
  cases levels with
  | zero => exact .inl rfl
  | succ levels => exact .inr rfl

theorem matchRule_ok (asked : Option (Resolution × String)) : Ok 0 (matchRule asked) := by
  cases asked with
  | none => exact follows_emit.1
  | some p =>
    obtain ⟨r, host⟩ := p
    change Ok 1 (callSteps r.env r.net r.levels [] (.resolveIPAddrs .timeout host) _)
    cases r.levels with
    | zero => exact follows_emit.1
    | succ levels =>
      obtain ⟨as, hsteps, has, -⟩ :=
        callSteps_resolveIPAddrs r levels .timeout host (emitRouteEvent (.runlock .done))
      have hok : Ok 1 (.forkAll as (emitRouteEvent (.runlock .done))) := .forkAll has follows_emit.1
      rw [hsteps]
      rcases callSteps_getDNSNodes r levels [.resolveIPAddrs .timeout host]
        (.forkAll as (emitRouteEvent (.runlock .done))) with h | h
      · rw [h]
        exact hok
      · rw [h]
        exact ⟨by simp, hok⟩

theorem Task.ok (t : Task) : Ok 0 t.prog := by
  cases t with
  | matchRule asked => exact matchRule_ok asked
  | method m => exact m.follows.1
  | resolve r c => exact (callSteps_zero_ok r [] r.levels c).1

theorem tasks_ok (tasks : List Task) : ∀ p ∈ tasks.map Task.prog, Ok 0 p := by
  intro p hp
  obtain ⟨t, -, rfl⟩ := List.mem_map.mp hp
  exact t.ok

/-! ## Deadlock -/

/-- In every run in which no writer asks for the lock while a `matchRule` has yet to take
it again, and no `matchRule` waits for an update of a profile, nobody waits forever. -/
theorem matchRule_live {tasks : List Task} {s : State} (hquiet : ∀ t ∈ tasks, t.Quiet)
    (hrun : HeedingRun (start (tasks.map Task.prog)) s) (i : Nat) : ¬ WaitsForever s i := by
  refine hrun.live (tasks_ok tasks) ?_ i
  intro p hp
  obtain ⟨t, ht, rfl⟩ := List.mem_map.mp hp
  exact Task.careful (hquiet t ht)

/-- A writer that asks for the lock in such a moment waits forever. -/
theorem unheeded_waitsForever {tasks : List Task} {s s' : State} {i : Nat}
    (hreach : Reaches (start (tasks.map Task.prog)) s) (hstep : advance s i = some s')
    (hheeds : ¬ Heeds s i) : WaitsForever s' i :=
  announce_waitsForever ((start_wf (tasks_ok tasks)).reaches hreach) hstep hheeds

/-- A `matchRule` that waits for an update of a profile never returns. -/
theorem matchRule_update_never_returns {tasks : List Task} {s : State} {i : Nat}
    {r : Resolution} {host : String} (hi : tasks[i]? = some (.matchRule (some (r, host))))
    (hupdate : awaitsUpdate r.env r.net r.levels [] (.resolveIPAddrs .timeout host) = true)
    (hreach : Reaches (start (tasks.map Task.prog)) s) : ¬ (s.thread i).Finished := by
  refine Doomed.never_finishes (start_wf (tasks_ok tasks)) start_exclusive (.inl ?_) hreach
  have hprog : ((start (tasks.map Task.prog)).thread i).prog = matchRule (some (r, host)) := by
    simp [start, List.getD_eq_getElem?_getD, hi, Task.prog]
  rw [hprog]
  change waitsForWrite 1 (callSteps r.env r.net r.levels [] (.resolveIPAddrs .timeout host) _) = true
  cases hl : r.levels with
  | zero => simp [hl, awaitsUpdate] at hupdate
  | succ levels =>
    rw [hl] at hupdate
    obtain ⟨as, hsteps, -, hawaits⟩ :=
      callSteps_resolveIPAddrs r levels .timeout host (emitRouteEvent (.runlock .done))
    have hwaits : waitsForWrite 1 (.forkAll as (emitRouteEvent (.runlock .done))) = true := by
      rw [waitsForWrite_forkAll (by omega), ← hawaits, hupdate, Bool.true_or]
    rw [hsteps]
    rcases callSteps_getDNSNodes r levels [.resolveIPAddrs .timeout host]
      (.forkAll as (emitRouteEvent (.runlock .done))) with h | h
    · rw [h]
      exact hwaits
    · rw [h]
      exact hwaits

end

/-- An ECH node, a QUIC node that the system does not know, and another ECH node. -/
def raceEnv : Env :=
  let ech : DNSNode :=
    { echEnabled := true, echProfileID := "dns", echAutoUpdate := true, enabled := true }
  { nodes := [{ ech with url := "0" }, { url := "1", quic := true, enabled := true },
      { ech with url := "2" }]
    profiles := []
    parseURL := fun url =>
      some { scheme := "https", host := url ++ ".example", hostname := url ++ ".example" }
    system := fun _ => false }

/-- The config of the first node is refreshed through the second, whose host is looked up
under the background context; in that race the config of the third is refreshed. -/
def raceNet : List Call → Outcome
  | .exchangeNode node _ _ true :: .exchange .timeout _ _ :: _ =>
    { packed := true, failed := node.url = "0" }
  | .exchangeSafe _ :: _ => { asked := 1 }
  | .exchange .background _ _ :: _ => { primaryFailed := true, answeredBy := some 1 }
  | .exchangeNode node _ _ true :: .exchange .background _ _ :: _ =>
    { packed := true, failed := node.url = "2", refreshed := true }
  | _ => { packed := true }

example : ¬ (Task.matchRule (some (⟨raceEnv, raceNet, 14⟩, "a.example"))).Quiet := by
  simp only [Task.Quiet]
  decide +kernel

/-- A host is matched while a site group is added. -/
def sampleTasks : List Task := [.matchRule none, .method .addSiteGroup]

/-- The writer is first. -/
theorem matchRule_live_sample : (∀ t ∈ sampleTasks, t.Quiet) ∧
    HeedingRun (start (sampleTasks.map Task.prog)) (runs (start (sampleTasks.map Task.prog)) [1]) ∧
    ¬ WaitsForever (runs (start (sampleTasks.map Task.prog)) [1]) 0 := by
  have hquiet : ∀ t ∈ sampleTasks, t.Quiet := by simp [sampleTasks, Task.Quiet]
  have hrun : HeedingRun (start (sampleTasks.map Task.prog))
      (runs (start (sampleTasks.map Task.prog)) [1]) :=
    .single ⟨1, fun _ _ _ => by simp [start, nests], rfl⟩
  exact ⟨hquiet, hrun, matchRule_live hquiet hrun 0⟩

/-- The writer comes between the two read locks of `matchRule`. -/
theorem matchRule_addSiteGroup_deadlock :
    ∃ s, Reaches (start (sampleTasks.map Task.prog)) s ∧ WaitsForever s 0 ∧ WaitsForever s 1 := by
  have hreach := reaches_runs (start (sampleTasks.map Task.prog)) [0, 1, 0]
  have hwf := (start_wf (tasks_ok sampleTasks)).reaches hreach
  have hlocked : Locked (runs (start (sampleTasks.map Task.prog)) [0, 1, 0]) 1 0 :=
    ⟨rfl, ⟨_, rfl⟩, by decide, .inl rfl⟩
  obtain ⟨hwriter, hreader⟩ := hlocked.waitsForever hwf rfl
  exact ⟨_, hreach, hreader, hwriter⟩

end SniShaper.Locking
