import SniShaper.Cert.Manager

/-! The CA files when creating, writing and removing them can fail (`generateCAUnlocked`,
`saveCA`, `LoadCA`, `RegenerateCA` and `InitCertManager` of `cert/cert.go`). An operation is
given the outcome of each of its steps. A write that fails leaves something that cannot be
read, or all that was to be written.

The log is not in the program: it keeps what every call of `generateCAUnlocked`, `saveCA` and
`LoadCA` has returned, also of those that another call makes.

* `saveCA_spec`: what a save leaves in the two files;
* `generateCAUnlocked_inv`, `loadCA_inv`, `initCertManager_inv`: what the calls keep;
* `pairs_iff`: when every pair that is loaded belongs together, and every call that fails to
  make a pair keeps the old one;
* `initCertManager_refines`: without failures this is the model of `Cert.Manager`. -/

namespace SniShaper.Cert.Files

open Machine

variable {Cert Key Pub : Type}

/-- Which keys belong together, and the pairs that the calls of `rsa.GenerateKey` and
`x509.CreateCertificate` make, one after the other. -/
structure KeySource (Cert Key Pub : Type) where
  certPub : Cert → Pub
  keyPub : Key → Pub
  pair : Nat → Cert × Key
  corresponds : ∀ n, certPub (pair n).1 = keyPub (pair n).2
  /-- No key is made twice. -/
  fresh : ∀ m n, certPub (pair m).1 = certPub (pair n).1 → m = n

/-! ## Outcomes -/

/-- A write that fails, and whether the file can be read all the same. -/
structure WriteError where
  msg : String
  whole : Bool

structure SaveOutcome where
  createCA : Except String Unit := .ok ()
  encodeCA : Except WriteError Unit := .ok ()
  createKey : Except String Unit := .ok ()
  encodeKey : Except WriteError Unit := .ok ()

structure GenerateOutcome where
  generateKey : Except String Unit := .ok ()
  createCertificate : Except String Unit := .ok ()
  parseCertificate : Except String Unit := .ok ()
  save : SaveOutcome := {}

structure InitOutcome where
  load : GenerateOutcome := {}
  removeCA : Except String Unit := .ok ()
  removeKey : Except String Unit := .ok ()
  generate : GenerateOutcome := {}

/-- What a call has returned: the pair before and after it, or the pair that was loaded. -/
inductive Observation (Cert Key : Type) where
  | saved (err : Option String)
  | generated (err : Option String) (before after : CertManager Cert Key)
  | loaded (err : Option String) (cm : CertManager Cert Key)

/-- The directory, how many pairs were asked for, and what the calls have returned. -/
structure Disk (Cert Key : Type) where
  dir : CertDir Cert Key
  made : Nat := 0
  log : List (Observation Cert Key) := []

def Disk.observe (d : Disk Cert Key) (obs : Observation Cert Key) : Disk Cert Key :=
  { d with log := d.log ++ [obs] }

/-! ## The source's functions -/

/-- A file after `pem.Encode`. -/
def written {α : Type} (content : α) : Except WriteError Unit → FileState α
  | .ok () => .holds content
  | .error err => if err.whole then .holds content else .garbage

def saveCA (o : SaveOutcome) (pair : Cert × Key) (dir : CertDir Cert Key) :
    Option String × CertDir Cert Key :=
  match o.createCA with
  | .error err => (some err, dir)
  | .ok () =>
    let dir := { dir with ca := written pair.1 o.encodeCA }
    match o.encodeCA with
    | .error err => (some err.msg, dir)
    | .ok () =>
      match o.createKey with
      | .error err => (some err, dir)
      | .ok () =>
        let dir := { dir with key := written pair.2 o.encodeKey }
        match o.encodeKey with
        | .error err => (some err.msg, dir)
        | .ok () => (none, dir)

/-- A call that makes a pair is over: it has been asked for, and the result is observed. -/
def finish (d : Disk Cert Key) (err : Option String) (before after : CertManager Cert Key) :
    Option String × CertManager Cert Key × Disk Cert Key :=
  (err, after, { d with made := d.made + 1 }.observe (.generated err before after))

variable (src : KeySource Cert Key Pub)

def generateCAUnlocked (o : GenerateOutcome) (cm : CertManager Cert Key) (d : Disk Cert Key) :
    Option String × CertManager Cert Key × Disk Cert Key :=
  match o.generateKey with
  | .error err => finish d (some ("failed to generate CA private key: " ++ err)) cm cm
  | .ok () =>
    match o.createCertificate with
    | .error err => finish d (some ("failed to create CA certificate: " ++ err)) cm cm
    | .ok () =>
      match o.parseCertificate with
      | .error err => finish d (some err) cm cm
      | .ok () =>
        -- the manager has the pair before it is saved
        let pair := src.pair d.made
        let (err, dir) := saveCA o.save pair d.dir
        finish ({ d with dir := dir }.observe (.saved err)) err cm
          { caCert := some pair.1, caKey := some pair.2 }

/-- The result of a call of `LoadCA` is observed. -/
def loaded (r : Option String × CertManager Cert Key × Disk Cert Key) :
    Option String × CertManager Cert Key × Disk Cert Key :=
  (r.1, r.2.1, r.2.2.observe (.loaded r.1 r.2.1))

def loadCA (o : GenerateOutcome) (cm : CertManager Cert Key) (d : Disk Cert Key) :
    Option String × CertManager Cert Key × Disk Cert Key :=
  loaded <|
    match d.dir.ca with
    | .notExist => generateCAUnlocked src o cm d
    | .unreadable => (some "open ca.crt", cm, d)
    | .garbage => (some "failed to decode PEM block from CA certificate", cm, d)
    | .holds cert =>
      match d.dir.key with
      | .notExist => (some "open ca.key", cm, d)
      | .unreadable => (some "open ca.key", cm, d)
      | .garbage => (some "failed to decode PEM block from CA key", cm, d)
      | .holds key => (none, { caCert := some cert, caKey := some key }, d)

/-- A file after `os.Remove`. -/
def removed {α : Type} (file : FileState α) : Except String Unit → FileState α
  | .ok () => .notExist
  | .error _ => file

def Disk.remove (d : Disk Cert Key) (removeCA removeKey : Except String Unit) : Disk Cert Key :=
  { d with dir := { ca := removed d.dir.ca removeCA, key := removed d.dir.key removeKey } }

/-- `none` when there is no manager. -/
def initCertManager (o : InitOutcome) (d : Disk Cert Key) :
    Option (CertManager Cert Key) × Disk Cert Key :=
  let (err, cm, d) := loadCA src o.load {} d
  match err with
  | none => (some cm, d)
  | some _ =>
    let (err, cm, d) := generateCAUnlocked src o.generate cm (d.remove o.removeCA o.removeKey)
    match err with
    | none => (some cm, d)
    | some _ => (none, d)

/-! ## Runs -/

/-- The managers that were opened share the directory. -/
structure World (Cert Key : Type) where
  disk : Disk Cert Key
  managers : List (CertManager Cert Key) := []

/-- A call on the `i`-th manager, if there is one. What `RegenerateCA` does to the system's
store before and after is not in the directory. -/
inductive Op where
  | initCertManager (o : InitOutcome)
  | generateCA (i : Nat) (o : GenerateOutcome)
  | regenerateCA (i : Nat) (o : GenerateOutcome)
  | loadCA (i : Nat) (o : GenerateOutcome)

/-- The manager and the directory after a call on the manager. -/
def World.on (w : World Cert Key) (i : Nat)
    (call : CertManager Cert Key → Disk Cert Key →
      Option String × CertManager Cert Key × Disk Cert Key) : World Cert Key :=
  match w.managers[i]? with
  | none => w
  | some cm =>
    { disk := (call cm w.disk).2.2, managers := w.managers.set i (call cm w.disk).2.1 }

def step (w : World Cert Key) : Op → World Cert Key
  | .initCertManager o =>
    { disk := (initCertManager src o w.disk).2
      managers := w.managers ++ (initCertManager src o w.disk).1.toList }
  | .generateCA i o => w.on i (generateCAUnlocked src o)
  | .regenerateCA i o => w.on i (generateCAUnlocked src o)
  | .loadCA i o => w.on i (loadCA src o)

/-! ## Pairs that belong together -/

/-- The manager has a certificate and the key of it. -/
def Matches (cm : CertManager Cert Key) : Prop :=
  ∃ cert key, cm = { caCert := some cert, caKey := some key } ∧ src.certPub cert = src.keyPub key

/-- What is asked of a call: a pair that is loaded belongs together, and a call that fails to
make a pair leaves the one before. -/
def Observation.Good : Observation Cert Key → Prop
  | .saved _ => True
  | .generated err before after => err ≠ none → after = before
  | .loaded err cm => err = none → Matches src cm

def AllGood (log : List (Observation Cert Key)) : Prop := ∀ obs ∈ log, obs.Good src

/-- The directory has a certificate and a key of two pairs. -/
def Torn (dir : CertDir Cert Key) : Prop :=
  ∃ cert key, dir.ca = .holds cert ∧ dir.key = .holds key ∧ src.certPub cert ≠ src.keyPub key

/-- A call of `saveCA` has failed. -/
def SaveFailed (log : List (Observation Cert Key)) : Prop := ∃ err, .saved (some err) ∈ log

/-- The certificate was in the directory at the start, or was made since. -/
def Old (start : CertDir Cert Key) (made : Nat) (cert : Cert) : Prop :=
  start.ca = .holds cert ∨ ∃ m, m < made ∧ cert = (src.pair m).1

def Knows (start : CertDir Cert Key) (made : Nat) (cm : CertManager Cert Key) : Prop :=
  ∀ cert, cm.caCert = some cert → Old src start made cert

/-- As long as no save has failed, all is good and the directory is not torn; a save that has
failed has left its mark. -/
structure Inv (start : CertDir Cert Key) (d : Disk Cert Key) : Prop where
  known : ∀ cert, d.dir.ca = .holds cert → Old src start d.made cert
  verdict : (SaveFailed d.log ∧ ¬ AllGood src d.log) ∨
    (¬ SaveFailed d.log ∧ AllGood src d.log ∧ ¬ Torn src d.dir)

variable {src} {start : CertDir Cert Key} {d : Disk Cert Key} {cm : CertManager Cert Key}

theorem allGood_concat {log : List (Observation Cert Key)} {obs : Observation Cert Key} :
    AllGood src (log ++ [obs]) ↔ AllGood src log ∧ obs.Good src := by
  simp [AllGood, or_imp, forall_and]

theorem saveFailed_concat {log : List (Observation Cert Key)} {obs : Observation Cert Key} :
    SaveFailed (log ++ [obs]) ↔ SaveFailed log ∨ ∃ err, obs = .saved (some err) := by
  simp [SaveFailed, exists_or, eq_comm]

theorem Old.mono {m n : Nat} {cert : Cert} (h : Old src start m cert) (hle : m ≤ n) :
    Old src start n cert := by
  rcases h with h | ⟨k, hk, rfl⟩
  · exact .inl h
  · exact .inr ⟨k, by omega, rfl⟩

theorem Knows.mono {m n : Nat} (h : Knows src start m cm) (hle : m ≤ n) : Knows src start n cm :=
  fun cert hcert => (h cert hcert).mono hle

theorem old_pair (n : Nat) : Old src start (n + 1) (src.pair n).1 := .inr ⟨n, by omega, rfl⟩

/-- The next pair is a new one. -/
theorem not_old_pair (hstart : ∀ n, start.ca ≠ .holds (src.pair n).1) (n : Nat) :
    ¬ Old src start n (src.pair n).1 := by
  rintro (h | ⟨m, hm, heq⟩)
  · exact hstart n h
  · have hmn := src.fresh n m (by rw [heq])
    omega

theorem matches_pair (n : Nat) :
    Matches src { caCert := some (src.pair n).1, caKey := some (src.pair n).2 } :=
  ⟨_, _, rfl, src.corresponds n⟩

theorem Inv.observe (h : Inv src start d) {obs : Observation Cert Key}
    (hsave : ∀ err, obs ≠ .saved (some err)) (hgood : ¬ Torn src d.dir → obs.Good src) :
    Inv src start (d.observe obs) := by
  refine ⟨h.known, ?_⟩
  simp only [Disk.observe, saveFailed_concat, allGood_concat, hsave, exists_false, or_false]
  rcases h.verdict with ⟨hfailed, hbad⟩ | ⟨hok, hall, htorn⟩
  · exact .inl ⟨hfailed, fun hall => hbad hall.1⟩
  · exact .inr ⟨hok, ⟨hall, hgood htorn⟩, htorn⟩

/-! ## What the calls keep -/

/-- The two files after a save: both new, or what the failure has left. -/
theorem saveCA_spec (o : SaveOutcome) (pair : Cert × Key) (dir : CertDir Cert Key) :
    saveCA o pair dir = (none, { ca := .holds pair.1, key := .holds pair.2 }) ∨
      ∃ err dir', saveCA o pair dir = (some err, dir') ∧
        (dir'.ca = dir.ca ∨ dir'.ca = .holds pair.1 ∨ dir'.ca = .garbage) := by
  have hca : ∀ w, written pair.1 w = .holds pair.1 ∨ written pair.1 w = .garbage := by
    intro w
    unfold written
    split
    · exact .inl rfl
    · split
      · exact .inl rfl
      · exact .inr rfl
  unfold saveCA
  cases o.createCA with
  | error err => exact .inr ⟨err, dir, rfl, .inl rfl⟩
  | ok u =>
    cases hencode : o.encodeCA with
    | error err => exact .inr ⟨err.msg, _, rfl, .inr (hca (.error err))⟩
    | ok u =>
      cases o.createKey with
      | error err => exact .inr ⟨err, _, rfl, .inr (hca (.ok ()))⟩
      | ok u =>
        cases o.encodeKey with
        | error err => exact .inr ⟨err.msg, _, rfl, .inr (hca (.ok ()))⟩
        | ok u => exact .inl rfl

/-- What a call on a manager leaves. -/
structure Kept (src : KeySource Cert Key Pub) (start : CertDir Cert Key) (d : Disk Cert Key)
    (r : Option String × CertManager Cert Key × Disk Cert Key) : Prop where
  inv : Inv src start r.2.2
  knows : Knows src start r.2.2.made r.2.1
  made : d.made ≤ r.2.2.made

theorem generateCAUnlocked_cases (o : GenerateOutcome) (cm : CertManager Cert Key)
    (d : Disk Cert Key) :
    (∃ err, generateCAUnlocked src o cm d = finish d (some err) cm cm) ∨
      ∃ err dir, saveCA o.save (src.pair d.made) d.dir = (err, dir) ∧
        generateCAUnlocked src o cm d =
          finish ({ d with dir := dir }.observe (.saved err)) err cm
            { caCert := some (src.pair d.made).1, caKey := some (src.pair d.made).2 } := by
  unfold generateCAUnlocked
  cases o.generateKey with
  | error err => exact .inl ⟨_, rfl⟩
  | ok u =>
    cases o.createCertificate with
    | error err => exact .inl ⟨_, rfl⟩
    | ok u =>
      cases o.parseCertificate with
      | error err => exact .inl ⟨_, rfl⟩
      | ok u => exact .inr ⟨_, _, rfl, rfl⟩

/-- The manager has a pair when the call returns nil. -/
theorem generateCAUnlocked_matches (o : GenerateOutcome) (cm : CertManager Cert Key)
    (d : Disk Cert Key) (h : (generateCAUnlocked src o cm d).1 = none) :
    Matches src (generateCAUnlocked src o cm d).2.1 := by
  rcases generateCAUnlocked_cases o cm d with ⟨err, heq⟩ | ⟨err, dir, -, heq⟩
  · rw [heq] at h
    cases h
  · rw [heq]
    exact matches_pair d.made

/-- A save that succeeds makes the directory whole. -/
theorem Inv.saved (h : Inv src start d) :
    Inv src start (finish ({ d with dir :=
      { ca := .holds (src.pair d.made).1, key := .holds (src.pair d.made).2 } }.observe
        (.saved none)) none cm
      { caCert := some (src.pair d.made).1, caKey := some (src.pair d.made).2 }).2.2 := by
  refine ⟨fun cert hcert => ?_, ?_⟩
  · obtain rfl := FileState.holds.inj hcert
    exact old_pair d.made
  · have htorn : ¬ Torn src
        { ca := .holds (src.pair d.made).1, key := .holds (src.pair d.made).2 } := by
      rintro ⟨cert, key, hcert, hkey, hne⟩
      obtain rfl := FileState.holds.inj hcert
      obtain rfl := FileState.holds.inj hkey
      exact hne (src.corresponds d.made)
    simp only [finish, Disk.observe, saveFailed_concat, allGood_concat]
    rcases h.verdict with ⟨hfailed, hbad⟩ | ⟨hnot, hall, -⟩
    · exact .inl ⟨.inl (.inl hfailed), fun hgood => hbad hgood.1.1⟩
    · exact .inr ⟨by simp [hnot], ⟨⟨hall, trivial⟩, fun hne => absurd rfl hne⟩, htorn⟩

/-- A save that fails: the manager has the new pair, which it cannot have had before. -/
theorem Inv.saveFailed (hstart : ∀ n, start.ca ≠ .holds (src.pair n).1) (h : Inv src start d)
    (hcm : Knows src start d.made cm) {err : String} {dir : CertDir Cert Key}
    (hca : dir.ca = d.dir.ca ∨ dir.ca = .holds (src.pair d.made).1 ∨ dir.ca = .garbage) :
    Inv src start (finish ({ d with dir := dir }.observe (.saved (some err))) (some err) cm
      { caCert := some (src.pair d.made).1, caKey := some (src.pair d.made).2 }).2.2 := by
  refine ⟨fun cert hcert => ?_, .inl ⟨?_, fun hgood => ?_⟩⟩
  · rcases hca with hsame | hnew | hgarbage
    · exact (h.known cert (hsame.symm.trans hcert)).mono (by simp [finish, Disk.observe])
    · obtain rfl := FileState.holds.inj (hnew.symm.trans hcert)
      exact old_pair d.made
    · cases hgarbage.symm.trans hcert
  · simp only [finish, Disk.observe, saveFailed_concat]
    exact .inl (.inr ⟨err, rfl⟩)
  · have hkept := hgood (.generated (some err) cm _)
      (List.mem_append_right _ (List.mem_singleton_self _)) (by simp)
    refine not_old_pair hstart d.made (hcm _ ?_)
    rw [← hkept]

theorem generateCAUnlocked_inv (hstart : ∀ n, start.ca ≠ .holds (src.pair n).1)
    (h : Inv src start d) (hcm : Knows src start d.made cm) (o : GenerateOutcome) :
    Kept src start d (generateCAUnlocked src o cm d) := by
  rcases generateCAUnlocked_cases o cm d with ⟨err, heq⟩ | ⟨err, dir, hsave, heq⟩
  · -- nothing was touched
    rw [heq]
    have hnext : Inv src start { d with made := d.made + 1 } :=
      ⟨fun cert hcert => (h.known cert hcert).mono (by simp), h.verdict⟩
    exact ⟨hnext.observe (by simp) fun _ _ => rfl, hcm.mono (by simp [finish, Disk.observe]),
      by simp [finish, Disk.observe]⟩
  · rw [heq]
    refine ⟨?_, fun cert hcert => ?_, by simp [finish, Disk.observe]⟩
    · rcases saveCA_spec o.save (src.pair d.made) d.dir with hok | ⟨err', dir', hfail, hca⟩
      · obtain ⟨rfl, rfl⟩ := Prod.mk.inj (hsave.symm.trans hok)
        exact h.saved
      · obtain ⟨rfl, rfl⟩ := Prod.mk.inj (hsave.symm.trans hfail)
        exact h.saveFailed hstart hcm hca
    · obtain rfl := Option.some.inj hcert
      exact old_pair d.made

theorem loadCA_inv (hstart : ∀ n, start.ca ≠ .holds (src.pair n).1) (h : Inv src start d)
    (hcm : Knows src start d.made cm) (o : GenerateOutcome) :
    Kept src start d (loadCA src o cm d) := by
  -- a call that fails changes nothing
  have hfail : ∀ err, Kept src start d (loaded (some err, cm, d)) := fun err =>
    ⟨h.observe (by simp) fun _ hnone => (by cases hnone), hcm, Nat.le_refl _⟩
  unfold loadCA
  cases hca : d.dir.ca with
  | notExist =>
    obtain ⟨hinv, hknows, hmade⟩ := generateCAUnlocked_inv hstart h hcm o
    exact ⟨hinv.observe (by simp) fun _ hnone => generateCAUnlocked_matches o cm d hnone,
      hknows, hmade⟩
  | unreadable => exact hfail _
  | garbage => exact hfail _
  | holds cert =>
    cases hkey : d.dir.key with
    | notExist => exact hfail _
    | unreadable => exact hfail _
    | garbage => exact hfail _
    | holds key =>
      refine ⟨h.observe (by simp) fun htorn _ => ⟨cert, key, rfl, ?_⟩, fun cert' hcert => ?_,
        Nat.le_refl _⟩
      · by_contra hne
        exact htorn ⟨cert, key, hca, hkey, hne⟩
      · obtain rfl := Option.some.inj hcert
        exact h.known cert hca

/-- Removing files does not tear a directory. -/
theorem Inv.remove (h : Inv src start d) (removeCA removeKey : Except String Unit) :
    Inv src start (d.remove removeCA removeKey) := by
  have hca : ∀ cert, removed d.dir.ca removeCA = .holds cert → d.dir.ca = .holds cert := by
    intro cert hcert
    cases removeCA with
    | ok u => cases hcert
    | error err => exact hcert
  have hkey : ∀ key, removed d.dir.key removeKey = .holds key → d.dir.key = .holds key := by
    intro key hkey
    cases removeKey with
    | ok u => cases hkey
    | error err => exact hkey
  refine ⟨fun cert hcert => h.known cert (hca cert hcert), h.verdict.imp id ?_⟩
  rintro ⟨hok, hall, htorn⟩
  refine ⟨hok, hall, ?_⟩
  rintro ⟨cert, key, hcert, hk, hne⟩
  exact htorn ⟨cert, key, hca cert hcert, hkey key hk, hne⟩

theorem initCertManager_inv (hstart : ∀ n, start.ca ≠ .holds (src.pair n).1)
    (h : Inv src start d) (o : InitOutcome) :
    Inv src start (initCertManager src o d).2 ∧ d.made ≤ (initCertManager src o d).2.made ∧
      ∀ cm ∈ (initCertManager src o d).1, Knows src start (initCertManager src o d).2.made cm := by
  have hempty : Knows src start d.made {} := fun cert hcert => by cases hcert
  have hload := loadCA_inv hstart h hempty o.load
  unfold initCertManager
  cases hr : loadCA src o.load {} d with
  | mk err r =>
    obtain ⟨cm, d'⟩ := r
    rw [hr] at hload
    cases err with
    | none =>
      refine ⟨hload.inv, hload.made, fun cm' hcm' => ?_⟩
      obtain rfl := Option.some.inj hcm'
      exact hload.knows
    | some err =>
      have hgen := generateCAUnlocked_inv hstart (hload.inv.remove o.removeCA o.removeKey)
        hload.knows o.generate
      simp only
      cases hr' : generateCAUnlocked src o.generate cm (d'.remove o.removeCA o.removeKey) with
      | mk err' r' =>
        obtain ⟨cm', d''⟩ := r'
        rw [hr'] at hgen
        have hmade : d.made ≤ d''.made := Nat.le_trans hload.made hgen.made
        cases err' with
        | none =>
          refine ⟨hgen.inv, hmade, fun cm'' hcm'' => ?_⟩
          obtain rfl := Option.some.inj hcm''
          exact hgen.knows
        | some err' => exact ⟨hgen.inv, hmade, fun cm'' hcm'' => by cases hcm''⟩

/-- The directory and all managers. -/
structure World.Sound (src : KeySource Cert Key Pub) (start : CertDir Cert Key)
    (w : World Cert Key) : Prop where
  disk : Inv src start w.disk
  managers : ∀ cm ∈ w.managers, Knows src start w.disk.made cm

theorem World.Sound.on {w : World Cert Key} (h : w.Sound src start) {i : Nat}
    {call : CertManager Cert Key → Disk Cert Key →
      Option String × CertManager Cert Key × Disk Cert Key}
    (hcall : ∀ cm, Knows src start w.disk.made cm → Kept src start w.disk (call cm w.disk)) :
    (w.on i call).Sound src start := by
  unfold World.on
  cases hi : w.managers[i]? with
  | none => exact h
  | some cm =>
    have hkept := hcall cm (h.managers cm (List.mem_of_getElem? hi))
    refine ⟨hkept.inv, fun cm' hcm' => ?_⟩
    rcases List.mem_or_eq_of_mem_set hcm' with hold | rfl
    · exact (h.managers cm' hold).mono hkept.made
    · exact hkept.knows

theorem step_sound (hstart : ∀ n, start.ca ≠ .holds (src.pair n).1) (w : World Cert Key) (op : Op)
    (h : w.Sound src start) : (step src w op).Sound src start := by
  cases op with
  | initCertManager o =>
    obtain ⟨hinv, hmade, hnew⟩ := initCertManager_inv hstart h.disk o
    refine ⟨hinv, fun cm hcm => ?_⟩
    rcases List.mem_append.mp hcm with hold | hopened
    · exact (h.managers cm hold).mono hmade
    · exact hnew cm (Option.mem_toList.mp hopened)
  | generateCA i o => exact h.on fun cm hcm => generateCAUnlocked_inv hstart h.disk hcm o
  | regenerateCA i o => exact h.on fun cm hcm => generateCAUnlocked_inv hstart h.disk hcm o
  | loadCA i o => exact h.on fun cm hcm => loadCA_inv hstart h.disk hcm o

/-! ## A directory that is torn from the start -/

theorem mem_log_generateCAUnlocked {obs : Observation Cert Key} (h : obs ∈ d.log)
    (o : GenerateOutcome) (cm : CertManager Cert Key) :
    obs ∈ (generateCAUnlocked src o cm d).2.2.log := by
  rcases generateCAUnlocked_cases o cm d with ⟨err, heq⟩ | ⟨err, dir, -, heq⟩
  · rw [heq]
    exact List.mem_append_left _ h
  · rw [heq]
    exact List.mem_append_left _ (List.mem_append_left _ h)

theorem mem_log_loadCA {obs : Observation Cert Key} (h : obs ∈ d.log) (o : GenerateOutcome)
    (cm : CertManager Cert Key) : obs ∈ (loadCA src o cm d).2.2.log := by
  refine List.mem_append_left _ ?_
  split
  · exact mem_log_generateCAUnlocked h o cm
  · exact h
  · exact h
  · split <;> exact h

/-- What the load has logged stays in the log. -/
theorem mem_log_of_loadCA {obs : Observation Cert Key} {o : InitOutcome}
    (h : obs ∈ (loadCA src o.load {} d).2.2.log) : obs ∈ (initCertManager src o d).2.log := by
  unfold initCertManager
  cases hr : loadCA src o.load {} d with
  | mk err r =>
    rw [hr] at h
    cases err with
    | none => exact h
    | some err =>
      have hremoved : obs ∈ (r.2.remove o.removeCA o.removeKey).log := h
      have hgen : obs ∈ (generateCAUnlocked src o.generate r.1
          (r.2.remove o.removeCA o.removeKey)).2.2.log :=
        mem_log_generateCAUnlocked hremoved o.generate r.1
      simp only
      split <;> exact hgen

theorem mem_log_step {obs : Observation Cert Key} (w : World Cert Key) (op : Op)
    (h : obs ∈ w.disk.log) : obs ∈ (step src w op).disk.log := by
  have hon : ∀ i call, (∀ cm, obs ∈ (call cm w.disk).2.2.log) → obs ∈ (w.on i call).disk.log := by
    intro i call hcall
    unfold World.on
    split
    · exact h
    · exact hcall _
  cases op with
  | initCertManager o => exact mem_log_of_loadCA (mem_log_loadCA h _ _)
  | generateCA i o => exact hon i _ fun cm => mem_log_generateCAUnlocked h o cm
  | regenerateCA i o => exact hon i _ fun cm => mem_log_generateCAUnlocked h o cm
  | loadCA i o => exact hon i _ fun cm => mem_log_loadCA h o cm

/-- The first manager that is opened over a torn directory has two halves. -/
theorem initCertManager_torn (htorn : Torn src d.dir) (o : InitOutcome) :
    ∃ obs ∈ (initCertManager src o d).2.log, ¬ obs.Good src := by
  obtain ⟨cert, key, hca, hkey, hne⟩ := htorn
  refine ⟨.loaded none { caCert := some cert, caKey := some key }, mem_log_of_loadCA ?_, ?_⟩
  · simp [loadCA, hca, hkey, loaded, Disk.observe]
  · intro hgood
    obtain ⟨cert', key', heq, hsame⟩ := hgood rfl
    cases heq
    exact hne hsame

/-- Without a manager nothing happens until one is opened. -/
theorem torn_run {dir : CertDir Cert Key} (htorn : Torn src dir) (ops : List Op) :
    (run (step src) { disk := { dir := dir } } ops = { disk := { dir := dir } } ∧
        ∀ o, .initCertManager o ∉ ops) ∨
      (¬ AllGood src (run (step src) { disk := { dir := dir } } ops).disk.log ∧
        ∃ o, .initCertManager o ∈ ops) := by
  induction ops with
  | nil => exact .inl ⟨rfl, by simp⟩
  | cons op ops ih =>
    cases op with
    | initCertManager o =>
      obtain ⟨obs, hobs, hbad⟩ : ∃ obs ∈ (initCertManager src o { dir := dir }).2.log,
        ¬ obs.Good src := initCertManager_torn htorn o
      have hlater : obs ∈ (run (step src)
          (step src { disk := { dir := dir } } (.initCertManager o)) ops).disk.log :=
        run_invariant (P := fun w : World Cert Key => obs ∈ w.disk.log) mem_log_step hobs ops
      exact .inr ⟨fun hall => hbad (hall obs hlater), o, by simp⟩
    | generateCA i o | regenerateCA i o | loadCA i o => simpa [run, step, World.on] using ih

/-! ## The law -/

/-- **Every pair that is loaded belongs together and every failed call keeps the pair before
it** exactly when no save fails, and no manager is opened over a directory that was torn at
the start. -/
theorem pairs_iff (dir : CertDir Cert Key) (hnew : ∀ n, dir.ca ≠ .holds (src.pair n).1)
    (ops : List Op) :
    AllGood src (run (step src) { disk := { dir := dir } } ops).disk.log ↔
      ¬ SaveFailed (run (step src) { disk := { dir := dir } } ops).disk.log ∧
        (Torn src dir → ∀ o, .initCertManager o ∉ ops) := by
  by_cases htorn : Torn src dir
  · rcases torn_run htorn ops with ⟨hrun, hnone⟩ | ⟨hbad, o, ho⟩
    · rw [hrun]
      exact iff_of_true (by simp [AllGood]) ⟨by simp [SaveFailed], fun _ => hnone⟩
    · exact iff_of_false hbad fun h => h.2 htorn o ho
  · have hinit : World.Sound src dir { disk := { dir := dir } } :=
      ⟨⟨fun cert hcert => .inl hcert, .inr ⟨by simp [SaveFailed], by simp [AllGood], htorn⟩⟩,
        by simp⟩
    have hend := run_invariant (step_sound hnew) hinit ops
    rcases hend.disk.verdict with ⟨hfailed, hbad⟩ | ⟨hok, hall, -⟩
    · exact iff_of_false hbad fun h => h.1 hfailed
    · exact iff_of_true hall ⟨hok, fun h => absurd h htorn⟩

/-- Pairs of equal numbers. -/
def numbers : KeySource Nat Nat Nat where
  certPub := id
  keyPub := id
  pair n := (n, n)
  corresponds _ := rfl
  fresh _ _ h := h

/-- A CA is made, made anew, and opened again. -/
def remake : List Op := [.initCertManager {}, .regenerateCA 0 {}, .initCertManager {}]

theorem remake_pairs :
    (∀ n, ({} : CertDir Nat Nat).ca ≠ .holds (numbers.pair n).1) ∧
      AllGood numbers (run (step numbers) { disk := { dir := {} } } remake).disk.log := by
  have hnew : ∀ n, ({} : CertDir Nat Nat).ca ≠ .holds (numbers.pair n).1 := fun n h => by cases h
  refine ⟨hnew, (pairs_iff {} hnew remake).mpr ⟨?_, ?_⟩⟩
  · rintro ⟨err, herr⟩
    simp [run, remake, step, initCertManager, loadCA, generateCAUnlocked, saveCA, written, loaded,
      finish, Disk.observe, World.on] at herr
  · rintro ⟨cert, key, hca, -⟩
    cases hca

/-- The key file cannot be created when the CA is made anew. -/
def remakeHalf : List Op :=
  [.initCertManager {}, .regenerateCA 0 { save := { createKey := .error "permission denied" } }]

/-- The call fails and the manager has the new pair; the manager that is opened next loads the
new certificate with the old key. -/
theorem remakeHalf_tears :
    (run (step numbers) { disk := { dir := {} } } remakeHalf).managers =
        [{ caCert := some 1, caKey := some 1 }] ∧
      (run (step numbers) { disk := { dir := {} } } remakeHalf).disk.dir =
        { ca := .holds 1, key := .holds 0 } ∧
      (initCertManager numbers {} (run (step numbers) { disk := { dir := {} } } remakeHalf).disk).1 =
        some { caCert := some 1, caKey := some 0 } ∧
      ¬ AllGood numbers (run (step numbers) { disk := { dir := {} } } remakeHalf).disk.log := by
  refine ⟨rfl, rfl, rfl, fun h => ?_⟩
  have hkept := h (.generated (some "permission denied") { caCert := some 0, caKey := some 0 }
    { caCert := some 1, caKey := some 1 }) (List.mem_append_right _ (List.mem_singleton_self _))
    (by simp)
  cases hkept

/-! ## Without failures -/

theorem initCertManager_refines (d : Disk Cert Key) :
    (initCertManager src {} d).1 =
        some (SniShaper.Cert.initCertManager d.dir (src.pair d.made)).1 ∧
      (initCertManager src {} d).2.dir =
        (SniShaper.Cert.initCertManager d.dir (src.pair d.made)).2 := by
  unfold initCertManager loadCA SniShaper.Cert.initCertManager SniShaper.Cert.loadCA
  cases d.dir.ca with
  | notExist => exact ⟨rfl, rfl⟩
  | unreadable => exact ⟨rfl, rfl⟩
  | garbage => exact ⟨rfl, rfl⟩
  | holds cert =>
    cases hkey : d.dir.key with
    | notExist => exact ⟨rfl, rfl⟩
    | unreadable => exact ⟨rfl, rfl⟩
    | garbage => exact ⟨rfl, rfl⟩
    | holds key => exact ⟨rfl, rfl⟩

end SniShaper.Cert.Files
