import SniShaper.Lib.Machine

/-! The CA of the proxy (`cert/cert.go`) and the requests of the dashboard that open it
(`web.go`). The runtime loads the CA at its start and keeps it; every request opens the
cert directory anew.

Creating, writing and removing files and making keys works; a key pair that is made is an
argument. What a file holds when it is read may be anything. The system's certificate
store is a parameter.

* `initCertManager_stored`: the directory holds what a manager was opened with;
* `inSync_iff`: when the runtime has the CA of the directory after every request. -/

namespace SniShaper.Cert

open Machine

variable {Cert Key Store : Type}

/-- What reading a file gives: nothing, an error, something that is no PEM block or does
not parse, or a value. -/
inductive FileState (α : Type) where
  | notExist
  | unreadable
  | garbage
  | holds (content : α)
  deriving DecidableEq, Repr

/-- The files `ca.crt` and `ca.key`. -/
structure CertDir (Cert Key : Type) where
  ca : FileState Cert := .notExist
  key : FileState Key := .notExist
  deriving DecidableEq, Repr

structure CertManager (Cert Key : Type) where
  caCert : Option Cert := none
  caKey : Option Key := none
  deriving DecidableEq, Repr

/-- The system's certificate store. -/
structure TrustStore (Cert Store : Type) where
  caStatus : Option Cert → Store → Bool
  installCA : Option Cert → String → Store → Store
  installedCertificates : Store → List String
  uninstallCertificate : String → String → Store → Store

/-! ## The source's functions -/

/-- A new pair is held and saved. -/
def generateCA (pair : Cert × Key) : CertManager Cert Key × CertDir Cert Key :=
  ({ caCert := some pair.1, caKey := some pair.2 }, { ca := .holds pair.1, key := .holds pair.2 })

def loadCA (dir : CertDir Cert Key) (pair : Cert × Key) :
    Except String (CertManager Cert Key × CertDir Cert Key) :=
  match dir.ca with
  | .notExist => .ok (generateCA pair)
  | .unreadable => .error "open ca.crt"
  | .garbage => .error "failed to decode PEM block from CA certificate"
  | .holds cert =>
    match dir.key with
    | .notExist => .error "open ca.key"
    | .unreadable => .error "open ca.key"
    | .garbage => .error "failed to decode PEM block from CA key"
    | .holds key => .ok ({ caCert := some cert, caKey := some key }, dir)

/-- A directory that cannot be loaded gets a new pair. -/
def initCertManager (dir : CertDir Cert Key) (pair : Cert × Key) :
    CertManager Cert Key × CertDir Cert Key :=
  match loadCA dir pair with
  | .ok opened => opened
  | .error _ => generateCA pair

/-- The runtime with the manager its proxy signs with, the directory and the store. -/
structure Runtime (Cert Key Store : Type) where
  certManager : CertManager Cert Key
  dir : CertDir Cert Key
  store : Store

/-- The part of `coreRuntime.start` about the CA. -/
def start (dir : CertDir Cert Key) (store : Store) (pair : Cert × Key) : Runtime Cert Key Store :=
  let opened := initCertManager dir pair
  { certManager := opened.1, dir := opened.2, store := store }

variable (sys : TrustStore Cert Store)

def uninstallAll (password : String) (store : Store) : Store :=
  (sys.installedCertificates store).foldl
    (fun store token => sys.uninstallCertificate token password store) store

/-- The certificates of the store are removed, a new pair is made, and its certificate is
installed. The pair the manager had before is written over. -/
def regenerateCA (password : String) (pair : Cert × Key) (store : Store) :
    CertDir Cert Key × Store :=
  let store := uninstallAll sys password store
  let (cm, dir) := generateCA pair
  (dir, sys.installCA cm.caCert password store)

/-- A request; `pair` is the key pair that would be made on opening the directory. -/
inductive Request (Cert Key : Type) where
  | status (pair : Cert × Key)
  | certStatus (pair : Cert × Key)
  | install (method password : String) (pair : Cert × Key)
  | uninstall (method password : String) (pair : Cert × Key)
  | regenerate (method password : String) (pair newPair : Cert × Key)
  | exportCert (pair : Cert × Key)

inductive Response (Cert : Type) where
  | installed (installed : Bool)
  | done (status : String)
  | pem (cert : Option Cert)
  | error (msg : String) (code : Nat)
  deriving DecidableEq, Repr

def handle (rt : Runtime Cert Key Store) :
    Request Cert Key → Response Cert × Runtime Cert Key Store
  | .status pair | .certStatus pair =>
    let (cm, dir) := initCertManager rt.dir pair
    (.installed (sys.caStatus cm.caCert rt.store), { rt with dir := dir })
  | .install method password pair =>
    if method ≠ "POST" then (.error "Method not allowed" 405, rt)
    else
      let (cm, dir) := initCertManager rt.dir pair
      (.done "installed",
        { rt with dir := dir, store := sys.installCA cm.caCert password rt.store })
  | .uninstall method password pair =>
    if method ≠ "POST" then (.error "Method not allowed" 405, rt)
    else
      let (_, dir) := initCertManager rt.dir pair
      (.done "uninstalled", { rt with dir := dir, store := uninstallAll sys password rt.store })
  | .regenerate method password _ newPair =>
    if method ≠ "POST" then (.error "Method not allowed" 405, rt)
    else
      -- what the opened manager has loaded or made is not used
      let (dir, store) := regenerateCA sys password newPair rt.store
      (.done "regenerated", { rt with dir := dir, store := store })
  | .exportCert pair =>
    let (cm, dir) := initCertManager rt.dir pair
    (.pem cm.caCert, { rt with dir := dir })

/-- The runtime after a request. -/
def afterRequest (rt : Runtime Cert Key Store) (req : Request Cert Key) : Runtime Cert Key Store :=
  (handle sys rt req).2

/-! ## The pair of a manager and of a directory -/

/-- The directory has the pair. -/
structure Stored (dir : CertDir Cert Key) (pair : Cert × Key) : Prop where
  ca : dir.ca = .holds pair.1
  key : dir.key = .holds pair.2

/-- The manager has the pair. -/
structure Holds (cm : CertManager Cert Key) (pair : Cert × Key) : Prop where
  caCert : cm.caCert = some pair.1
  caKey : cm.caKey = some pair.2

theorem Stored.unique {dir : CertDir Cert Key} {p q : Cert × Key} (hp : Stored dir p)
    (hq : Stored dir q) : p = q :=
  Prod.ext (FileState.holds.inj (hp.ca.symm.trans hq.ca))
    (FileState.holds.inj (hp.key.symm.trans hq.key))

/-- A directory with a pair is opened as it is. -/
theorem initCertManager_of_stored {dir : CertDir Cert Key} {p : Cert × Key} (h : Stored dir p)
    (pair : Cert × Key) :
    initCertManager dir pair = ({ caCert := some p.1, caKey := some p.2 }, dir) := by
  simp only [initCertManager, loadCA, h.ca, h.key]

/-- After a directory was opened, it has the pair of the manager. -/
theorem initCertManager_stored (dir : CertDir Cert Key) (pair : Cert × Key) :
    ∃ p, Stored (initCertManager dir pair).2 p ∧ Holds (initCertManager dir pair).1 p := by
  have hnew : ∃ p, Stored (generateCA pair).2 p ∧ Holds (generateCA pair).1 p :=
    ⟨pair, ⟨rfl, rfl⟩, ⟨rfl, rfl⟩⟩
  unfold initCertManager loadCA
  cases hca : dir.ca with
  | notExist => exact hnew
  | unreadable => exact hnew
  | garbage => exact hnew
  | holds cert =>
    cases hkey : dir.key with
    | notExist => exact hnew
    | unreadable => exact hnew
    | garbage => exact hnew
    | holds key => exact ⟨(cert, key), ⟨hca, hkey⟩, ⟨rfl, rfl⟩⟩

/-! ## Requests -/

/-- The pair that a request puts into the directory in any case. -/
def Request.newPair : Request Cert Key → Option (Cert × Key)
  | .regenerate method _ _ newPair => if method = "POST" then some newPair else none
  | _ => none

/-- No request touches the manager of the runtime. -/
theorem handle_certManager (rt : Runtime Cert Key Store) (req : Request Cert Key) :
    (handle sys rt req).2.certManager = rt.certManager := by
  cases req with
  | status pair => rfl
  | certStatus pair => rfl
  | exportCert pair => rfl
  | install method password pair | uninstall method password pair =>
    by_cases hpost : method ≠ "POST"
    · rw [handle, if_pos hpost]
    · rw [handle, if_neg hpost]
  | regenerate method password pair newPair =>
    by_cases hpost : method ≠ "POST"
    · rw [handle, if_pos hpost]
    · rw [handle, if_neg hpost]

/-- A directory with a pair keeps it, unless the request makes a new one. -/
theorem handle_stored {rt : Runtime Cert Key Store} {p : Cert × Key} (h : Stored rt.dir p)
    (req : Request Cert Key) : Stored (handle sys rt req).2.dir (req.newPair.getD p) := by
  have hopened : ∀ pair, Stored (initCertManager rt.dir pair).2 p := by
    intro pair
    rw [initCertManager_of_stored h]
    exact h
  cases req with
  | status pair => exact hopened pair
  | certStatus pair => exact hopened pair
  | exportCert pair => exact hopened pair
  | install method password pair | uninstall method password pair =>
    by_cases hpost : method ≠ "POST"
    · rw [handle, if_pos hpost]
      exact h
    · rw [handle, if_neg hpost]
      exact hopened pair
  | regenerate method password pair newPair =>
    by_cases hpost : method = "POST"
    · rw [handle, if_neg (not_not.mpr hpost), Request.newPair, if_pos hpost]
      exact ⟨rfl, rfl⟩
    · rw [handle, if_pos hpost, Request.newPair, if_neg hpost]
      exact h

/-- The runtime has the pair of the directory. -/
def InSync (rt : Runtime Cert Key Store) : Prop :=
  ∃ pair, Stored rt.dir pair ∧ Holds rt.certManager pair

theorem inSync_start (dir : CertDir Cert Key) (store : Store) (pair : Cert × Key) :
    InSync (start dir store pair) := initCertManager_stored dir pair

/-- A request keeps both in step exactly when the pair it makes, if any, is the one the
runtime has. -/
theorem inSync_handle_iff {rt : Runtime Cert Key Store} (h : InSync rt) (req : Request Cert Key) :
    InSync (afterRequest sys rt req) ↔ ∀ new ∈ req.newPair, Holds rt.certManager new := by
  obtain ⟨p, hdir, hcm⟩ := h
  have hnext := handle_stored sys hdir req
  unfold InSync afterRequest
  rw [handle_certManager]
  constructor
  · rintro ⟨q, hq, hheld⟩ new hnew
    rw [Option.mem_def.mp hnew, Option.getD_some] at hnext
    rw [hnext.unique hq]
    exact hheld
  · intro hnew
    refine ⟨_, hnext, ?_⟩
    cases hreq : req.newPair with
    | none => exact hcm
    | some new => exact hnew new hreq

theorem run_certManager (rt : Runtime Cert Key Store) (reqs : List (Request Cert Key)) :
    (run (afterRequest sys) rt reqs).certManager = rt.certManager := by
  induction reqs generalizing rt with
  | nil => rfl
  | cons req reqs ih => exact (ih _).trans (handle_certManager sys rt req)

/-- After every request the proxy signs with the CA of the directory exactly when no
request to make a new CA came, or the pairs that were made are the one the runtime has. -/
theorem inSync_iff (dir : CertDir Cert Key) (store : Store) (pair : Cert × Key)
    (reqs : List (Request Cert Key)) :
    Always (afterRequest sys) InSync (start dir store pair) reqs ↔
      ∀ req ∈ reqs, ∀ new ∈ req.newPair, Holds (start dir store pair).certManager new := by
  have hstep : ∀ (rt : Runtime Cert Key Store) (req : Request Cert Key), InSync rt →
      (InSync (afterRequest sys rt req) ↔ ∀ new ∈ req.newPair, Holds rt.certManager new) :=
    fun _ req h => inSync_handle_iff sys h req
  rw [always_iff_eachStep hstep (inSync_start dir store pair)]
  constructor
  · intro hsteps req hreq
    obtain ⟨pre, post, rfl⟩ := List.append_of_mem hreq
    have hlast := hsteps pre req ⟨post, by simp⟩
    simp only [run_certManager] at hlast
    exact hlast
  · intro hall pre req hpre
    simp only [run_certManager]
    exact hall req (hpre.subset (by simp))

/-- A store that is a list of certificates. -/
def listStore : TrustStore Nat (List Nat) where
  caStatus cert store := cert.any fun c => store.contains c
  installCA cert _ store := store ++ cert.toList
  installedCertificates store := store.map toString
  uninstallCertificate token _ store := store.filter fun c => toString c ≠ token

/-- A new CA is made: the directory has it, and the runtime has the old one. -/
theorem regenerate_not_inSync :
    (start {} [] (1, 1) : Runtime Nat Nat (List Nat)).certManager =
        { caCert := some 1, caKey := some 1 } ∧
      (handle listStore (start {} [] (1, 1)) (.regenerate "POST" "" (2, 2) (3, 3))).2.certManager =
        { caCert := some 1, caKey := some 1 } ∧
      (handle listStore (start {} [] (1, 1)) (.regenerate "POST" "" (2, 2) (3, 3))).2.dir =
        { ca := .holds 3, key := .holds 3 } := by
  decide

end SniShaper.Cert
