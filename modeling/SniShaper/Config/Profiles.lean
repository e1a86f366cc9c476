import SniShaper.Config.Types
import SniShaper.Lib.Base64

/-! The store of ECH profiles (`GetBinaryECHConfig` and `UpdateECHProfileConfig` of
`proxy/proxy.go`). A profile holds its ECH config list in base64; of several profiles
with one id only the first is read and written.

* `getBinaryECHConfig_sync`: what is synced into a profile is read back;
* `getBinaryECHConfig_sync_ne_nil`: syncing never takes a usable config away. -/

namespace SniShaper.Profiles

open Config

/-- The config bytes of a profile, empty when they cannot be decoded. -/
def getBinaryECHConfig (profiles : List ECHProfile) (id : String) : List UInt8 :=
  match profiles.find? (·.id = id) with
  | some p => (Base64.decode p.config).getD []
  | none => []

/-- The first profile with the id holds the new config. -/
def setConfig (id config : String) : List ECHProfile → List ECHProfile
  | [] => []
  | p :: ps => if p.id = id then { p with config := config } :: ps else p :: setConfig id config ps

/-- `none` when there is nothing to change and nothing is saved. -/
def updateECHProfileConfig (profiles : List ECHProfile) (profileID : String)
    (configBytes : List UInt8) : Except String (Option (List ECHProfile)) :=
  if profileID = "" ∨ configBytes = [] then .ok none
  else match profiles.find? (·.id = profileID) with
    | none => .error ("profile " ++ profileID ++ " not found")
    | some p =>
      if p.config = Base64.encode configBytes then .ok none
      else .ok (some (setConfig profileID (Base64.encode configBytes) profiles))

/-- The store after the proxy's `UpdateECHProfileConfig`, which ignores the error. -/
def sync (profiles : List ECHProfile) (profileID : String) (configBytes : List UInt8) :
    List ECHProfile :=
  match updateECHProfileConfig profiles profileID configBytes with
  | .ok (some profiles') => profiles'
  | _ => profiles

/-! ## Reading what was written -/

theorem find_setConfig_self {id config : String} {profiles : List ECHProfile} {p : ECHProfile}
    (h : profiles.find? (·.id = id) = some p) :
    (setConfig id config profiles).find? (·.id = id) = some { p with config := config } := by
  induction profiles with
  | nil => cases h
  | cons q qs ih =>
    by_cases hq : q.id = id
    · simp only [List.find?_cons, hq, decide_true, Option.some.injEq] at h
      subst h
      simp [setConfig, hq]
    · simp only [List.find?_cons, hq, decide_false] at h
      simp [setConfig, hq, ih h]

theorem find_setConfig_other {id other config : String} (hne : other ≠ id)
    (profiles : List ECHProfile) :
    (setConfig id config profiles).find? (·.id = other) = profiles.find? (·.id = other) := by
  induction profiles with
  | nil => rfl
  | cons q qs ih =>
    by_cases hq : q.id = id
    · simp [setConfig, hq, Ne.symm hne]
    · by_cases ho : q.id = other
      · simp [setConfig, ho, hne]
      · simp [setConfig, hq, ho, ih]

/-- What syncing does to a profile that exists: it then holds the new config. -/
theorem find_sync {profiles : List ECHProfile} {id : String} {bytes : List UInt8} {p : ECHProfile}
    (hid : id ≠ "") (hb : bytes ≠ []) (h : profiles.find? (·.id = id) = some p) :
    (sync profiles id bytes).find? (·.id = id) =
      some { p with config := Base64.encode bytes } := by
  unfold sync updateECHProfileConfig
  simp only [hid, hb, or_self, ↓reduceIte, h]
  by_cases hc : p.config = Base64.encode bytes
  · simp only [hc, ↓reduceIte, h]
    rw [← hc]
  · simp only [hc, ↓reduceIte]
    exact find_setConfig_self h

theorem getBinaryECHConfig_sync {profiles : List ECHProfile} {id : String} {bytes : List UInt8}
    {p : ECHProfile} (hid : id ≠ "") (hb : bytes ≠ [])
    (h : profiles.find? (·.id = id) = some p) :
    getBinaryECHConfig (sync profiles id bytes) id = bytes := by
  simp [getBinaryECHConfig, find_sync hid hb h, Base64.decode_encode]

/-- Syncing another profile is not seen. -/
theorem getBinaryECHConfig_sync_other {id other : String} (hne : other ≠ id)
    (profiles : List ECHProfile) (bytes : List UInt8) :
    getBinaryECHConfig (sync profiles id bytes) other = getBinaryECHConfig profiles other := by
  have hfind : (sync profiles id bytes).find? (·.id = other) = profiles.find? (·.id = other) := by
    unfold sync
    split
    · rename_i profiles' h
      unfold updateECHProfileConfig at h
      split at h
      · cases h
      · split at h
        · cases h
        · split at h
          · cases h
          · cases h
            exact find_setConfig_other hne profiles
    · rfl
  rw [getBinaryECHConfig, getBinaryECHConfig, hfind]

theorem getBinaryECHConfig_sync_ne_nil {profiles : List ECHProfile} {other : String}
    (h : getBinaryECHConfig profiles other ≠ []) (id : String) (bytes : List UInt8) :
    getBinaryECHConfig (sync profiles id bytes) other ≠ [] := by
  by_cases hne : other = id
  · subst hne
    by_cases hskip : other = "" ∨ bytes = []
    · simpa [sync, updateECHProfileConfig, hskip] using h
    · rw [not_or] at hskip
      cases hf : profiles.find? (·.id = other) with
      | none => simp [getBinaryECHConfig, hf] at h
      | some p =>
        rw [getBinaryECHConfig_sync hskip.1 hskip.2 hf]
        exact hskip.2
  · rwa [getBinaryECHConfig_sync_other hne]

end SniShaper.Profiles
