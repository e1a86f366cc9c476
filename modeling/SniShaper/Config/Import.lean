import Mathlib.Data.List.Sort
import SniShaper.Config.RuleManager

/-! Importing a configuration (`ImportConfigWithSummary` of `proxy/config.go`): the
imported groups are merged into the site groups by mode and domains. Decoding JSON is
left to a `Decoder`. -/

namespace SniShaper.Manager

open Strings Config Hosts Candidates

variable [CaseTables]

structure ConfigRule where
  name : String := ""
  website : String := ""
  mode : String := ""
  enabled : Bool := false
  domains : List String := []
  upstream : String := ""
  upstreams : List String := []
  dnsMode : String := ""
  sniFake : String := ""
  connectPolicy : String := ""
  sniPolicy : String := ""
  echEnabled : Bool := false
  echProfileID : String := ""
  echDomain : String := ""
  useCFPool : Bool := false
  certVerify : CertVerifyConfig := {}
  deriving DecidableEq, Repr

structure ConfigFile where
  version : String := ""
  type : String := ""
  rules : List ConfigRule := []
  deriving DecidableEq, Repr

structure ImportSummary where
  total : Nat := 0
  added : Nat := 0
  overwritten : Nat := 0
  skipped : Nat := 0
  deriving DecidableEq, Repr

/-- A value of the wrapper object: a text, or anything else as it marshals. -/
inductive RawValue where
  | text (payload : String)
  | other (marshalled : Except String String)

/-- `encoding/json` at the two types the import decodes. -/
structure Decoder where
  wrapper : String → Option (String → Option RawValue)
  configFile : String → Except String ConfigFile

/-! ## The merge key -/

/-- The domains of the key: normalized, not blank, each once, in the order they come. -/
def keyDomains : List String → List String → List String
  | [], out => out
  | d :: ds, out =>
    let n := toLower (trimSpace d)
    if n = "" ∨ n ∈ out then keyDomains ds out else keyDomains ds (out ++ [n])

def normalizeDomainsForKey (domains : List String) : String :=
  join ((keyDomains domains []).insertionSort (· ≤ ·)) ","

def importMergeKey (sg : SiteGroup) : String :=
  toLower (trimSpace sg.mode) ++ "|" ++ normalizeDomainsForKey sg.domains

/-! ## Reading the payload -/

def importableMode (mode : String) : Bool :=
  mode = "mitm" || mode = "transparent" || mode = "server" || mode = "tls-rf" || mode = "quic" ||
    mode = "warp"

/-- The site group of an imported rule; it is always enabled. -/
def importedGroup (rule : ConfigRule) (ruleMode newID : String) : SiteGroup :=
  let name := trimSpace rule.name
  { id := newID
    name := if name = "" then rule.domains.headD "" else name
    website := trimSpace rule.website
    domains := rule.domains
    mode := ruleMode
    upstream := trimSpace rule.upstream
    upstreams := rule.upstreams
    dnsMode := normalizeDNSMode rule.dnsMode
    sniFake := trimSpace rule.sniFake
    connectPolicy := toLower (trimSpace rule.connectPolicy)
    sniPolicy := toLower (trimSpace rule.sniPolicy)
    enabled := true
    echEnabled := rule.echEnabled
    echProfileID := rule.echProfileID
    echDomain := rule.echDomain
    useCFPool := rule.useCFPool
    certVerify := rule.certVerify }

/-- What was read so far: the groups, how many rules there were and how many of them
were skipped. The number of groups says which id is generated next. -/
structure Imported where
  groups : List SiteGroup := []
  total : Nat := 0
  skipped : Nat := 0
  deriving DecidableEq, Repr

/-- The loop over the rules of a payload. -/
def importRules (newID : Nat → String) (mode : String) : List ConfigRule → Imported → Imported
  | [], acc => acc
  | rule :: rules, acc =>
    let ruleMode := toLower (trimSpace rule.mode)
    let ruleMode := if ruleMode = "" then mode else ruleMode
    if rule.domains = [] ∨ importableMode ruleMode = false then
      importRules newID mode rules { acc with total := acc.total + 1, skipped := acc.skipped + 1 }
    else
      importRules newID mode rules
        { acc with
          groups := acc.groups ++ [importedGroup rule ruleMode (newID acc.groups.length)]
          total := acc.total + 1 }

def parseConfigPayload (dec : Decoder) (newID : Nat → String) (payload forcedType : String)
    (acc : Imported) : Except String Imported :=
  match dec.configFile payload with
  | .error err => .error err
  | .ok cfg =>
    let mode := toLower (trimSpace cfg.type)
    let mode := if mode = "" then toLower (trimSpace forcedType) else mode
    if mode ≠ "mitm" ∧ mode ≠ "transparent" then .error "invalid or missing config type"
    else .ok (importRules newID mode cfg.rules acc)

/-- One part of the wrapper; a part that cannot be read is passed over. -/
def importPart (dec : Decoder) (newID : Nat → String) (parts : String → Option RawValue)
    (acc : Imported) (key : String) : Imported :=
  let payload :=
    match parts key with
    | none => none
    | some (.text v) => some v
    | some (.other (.ok v)) => some v
    | some (.other (.error _)) => none
  match payload with
  | none => acc
  | some v =>
    match parseConfigPayload dec newID v key acc with
    | .ok acc => acc
    | .error _ => acc

def importContent (dec : Decoder) (newID : Nat → String) (content : String) : Imported :=
  let wrapped :=
    match dec.wrapper content with
    | some parts => ["mitm", "transparent"].foldl (importPart dec newID parts) {}
    | none => {}
  if wrapped.groups = [] then
    match parseConfigPayload dec newID content "" wrapped with
    | .ok acc => acc
    | .error _ => wrapped
  else wrapped

/-! ## The merge -/

/-- The merged groups, the index map from keys to their positions, and the counts of what
was added, overwritten and skipped. -/
structure Merge where
  merged : List SiteGroup
  index : String → Option Nat
  added : Nat := 0
  overwritten : Nat := 0
  skipped : Nat := 0

/-- The loop that fills the index map. -/
def mergeIndex (merged : List SiteGroup) : String → Option Nat :=
  merged.zipIdx.foldl
    (fun index p =>
      let key := importMergeKey p.1
      if key = "|" then index else Function.update index key (some p.2))
    fun _ => none

def mergeGroup (acc : Merge) (sg : SiteGroup) : Merge :=
  let key := importMergeKey sg
  if key = "|" then { acc with skipped := acc.skipped + 1 }
  else match acc.index key with
    | some idx =>
      { acc with
        merged := acc.merged.modify idx fun old => { sg with id := old.id }
        overwritten := acc.overwritten + 1 }
    | none =>
      let merged := acc.merged ++ [sg]
      { acc with
        merged := merged
        index := Function.update acc.index key (some (merged.length - 1))
        added := acc.added + 1 }

def importConfigWithSummary (dec : Decoder) (newID : Nat → String) (rm : RuleManager)
    (content : String) (saved : Except String Unit) : Except String ImportSummary × RuleManager :=
  let content := trimSpace content
  if content = "" then (.error "empty config content", rm)
  else
    let imported := importContent dec newID content
    if imported.groups = [] then (.error "no valid rules found", rm)
    else
      let merge := imported.groups.foldl mergeGroup
        { merged := rm.siteGroups, index := mergeIndex rm.siteGroups
          skipped := imported.skipped }
      let rm := buildRules { rm with siteGroups := merge.merged }
      match saved with
      | .error err => (.error err, rm)
      | .ok () =>
        let total :=
          if imported.total = 0 then imported.groups.length + merge.skipped else imported.total
        (.ok { total := total, added := merge.added, overwritten := merge.overwritten
               skipped := merge.skipped }, rm)

end SniShaper.Manager
