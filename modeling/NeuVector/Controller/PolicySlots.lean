import NeuVector.Library.RoundRobin
import NeuVector.Controller.PolicyStore

/-!
# Policy slots

The controller writes the calculated policy of the cluster for the agents.
`preparePolicySlots` and `putPolicyIPRulesToClusterScale` of
`controller/cache/policy.go` deal the rules into slots, small enough for a
value of the cluster store each, and write the slots under a new version.
The first rule has the addresses of all workloads and is dealt by itself.
The encoding of a slot and the outcome of each write are parameters.
-/

namespace NeuVector.Controller

open Library

variable {Addr Bytes : Type}

/-- A rule between addresses; the addresses are pointers. -/
structure GroupIPPolicy (Addr : Type) where
  id : Nat
  fromAddr : List (Option Addr)
  toAddr : List (Option Addr)
  action : Nat
  deriving DecidableEq

def GroupIPPolicy.zero : GroupIPPolicy Addr :=
  { id := 0, fromAddr := [], toAddr := [], action := 0 }

def defaultGroupRuleID : Nat := 0

def maxPolicySlots : Nat := 512

def kvValueSizeMax : Nat := 512 * 1024

structure SlotCodec (Addr Bytes : Type) where
  marshal : List (GroupIPPolicy Addr) → Bytes
  gzipBytes : Bytes → Bytes
  gunzipBytes : Bytes → Option Bytes
  unmarshal : Bytes → Option (List (GroupIPPolicy Addr))
  length : Bytes → Nat
  gunzip_gzip : ∀ bytes, gunzipBytes (gzipBytes bytes) = some bytes
  unmarshal_marshal : ∀ rules, unmarshal (marshal rules) = some rules

inductive SlotError where
  | tooLarge
  | indexOutOfRange
  deriving DecidableEq

/-- A rule for some of the addresses of the default rule. -/
def workloadRule (addresses : List (Option Addr)) : GroupIPPolicy Addr :=
  { GroupIPPolicy.zero with id := defaultGroupRuleID, fromAddr := addresses }

/-- The address with index `i` starts the rule with this index, or goes to
the end of one that exists. -/
def splitAddress (wlSlots : Nat) (rulesWl : List (GroupIPPolicy Addr))
    (entry : Option Addr × Nat) : List (GroupIPPolicy Addr) :=
  if entry.2 < wlSlots then rulesWl.set entry.2 (workloadRule [entry.1])
  else
    rulesWl.modify (entry.2 % wlSlots) fun rule =>
      { rule with fromAddr := rule.fromAddr ++ [entry.1] }

def splitWorkloads (wlSlots : Nat) (addresses : List (Option Addr)) : List (GroupIPPolicy Addr) :=
  addresses.zipIdx.foldl (splitAddress wlSlots) (List.replicate wlSlots .zero)

variable (codec : SlotCodec Addr Bytes)

def zipSlot (rules : List (GroupIPPolicy Addr)) : Bytes := codec.gzipBytes (codec.marshal rules)

def zipSlots (plcs : List (List (GroupIPPolicy Addr))) : Option (List Bytes) :=
  if plcs.any fun rules => kvValueSizeMax ≤ codec.length (zipSlot codec rules) then none
  else some (plcs.map (zipSlot codec))

structure PreparedSlots (Bytes : Type) where
  zbs : List Bytes
  wlSlots : Nat
  wlLens : Nat
  deriving DecidableEq

def smaller (length slots : Nat) : Nat :=
  if length < slots then length else slots

def newRules (slots : Nat) (first : GroupIPPolicy Addr)
    (rest : List (GroupIPPolicy Addr)) : List (GroupIPPolicy Addr) :=
  splitWorkloads (smaller first.fromAddr.length slots) first.fromAddr ++ rest

def trySlots (first : GroupIPPolicy Addr) (rest : List (GroupIPPolicy Addr))
    (slots : Nat) : Option (PreparedSlots Bytes) :=
  let rules := newRules slots first rest
  let finalSlots := smaller rules.length slots
  (zipSlots codec (RoundRobin.deal finalSlots rules)).map fun zbs =>
    { zbs := zbs, wlSlots := smaller first.fromAddr.length slots, wlLens := first.fromAddr.length }

/-- The numbers of slots that are tried, doubled up to the maximum. -/
def slotCounts : List Nat := [16, 32, 64, 128, 256, maxPolicySlots]

def preparePolicySlots : List (GroupIPPolicy Addr) → Except SlotError (PreparedSlots Bytes)
  | [] => .error .indexOutOfRange
  | first :: rest =>
    match slotCounts.findSome? (trySlots codec first rest) with
    | some prepared => .ok prepared
    | none => .error .tooLarge

structure SlotKey where
  version : String
  slot : Nat
  deriving DecidableEq

structure PolicyVer where
  policyIPRulesVersion : String
  slotNo : Nat
  rulesLen : Nat
  workloadSlot : Nat
  workloadLen : Nat
  deriving DecidableEq

structure PolicyKV (Bytes : Type) where
  slots : GoMap SlotKey Bytes
  policyVer : Option PolicyVer

/-- The outcome of what a write asks of the cluster store. -/
structure PutOutcome where
  verstr : String
  putFails : Nat → Bool
  verFails : Bool
  /-- The keys that are listed and deleted in the end. -/
  deleted : SlotKey → Bool

def policyIPRulesCleanup (outcome : PutOutcome) (ruleKeys : List SlotKey)
    (kv : PolicyKV Bytes) : PolicyKV Bytes :=
  { kv with
    slots := (ruleKeys.filter outcome.deleted).foldl (fun slots key => slots.erase key) kv.slots }

/-- Write the slots from `i` on, up to the first failure. -/
def putSlots (outcome : PutOutcome) (i : Nat) (kv : PolicyKV Bytes) :
    List Bytes → PolicyKV Bytes × Bool
  | [] => (kv, true)
  | zb :: zbs =>
    if outcome.putFails i then (kv, false)
    else putSlots outcome (i + 1) { kv with slots := kv.slots.insert ⟨outcome.verstr, i⟩ zb } zbs

def keysOf (version : String) (kv : PolicyKV Bytes) : List SlotKey :=
  kv.slots.keys.filter fun key => key.version = version

def policyVerOf (verstr : String) (rules : List (GroupIPPolicy Addr))
    (prepared : PreparedSlots Bytes) : PolicyVer :=
  { policyIPRulesVersion := verstr
    slotNo := prepared.zbs.length
    rulesLen := rules.length + prepared.wlSlots - 1
    workloadSlot := prepared.wlSlots
    workloadLen := prepared.wlLens }

def putPolicyIPRulesToClusterScale (outcome : PutOutcome)
    (rules : List (GroupIPPolicy Addr)) (kv : PolicyKV Bytes) :
    Except SlotError (PolicyKV Bytes) :=
  let oldKeys := kv.slots.keys
  match preparePolicySlots codec rules with
  | .error .tooLarge => .ok kv
  | .error .indexOutOfRange => .error .indexOutOfRange
  | .ok prepared =>
    let (written, all) := putSlots outcome 0 kv prepared.zbs
    if all = false ∨ outcome.verFails = true then
      .ok (policyIPRulesCleanup outcome (keysOf outcome.verstr written) written)
    else
      .ok (policyIPRulesCleanup outcome oldKeys
        { written with policyVer := some (policyVerOf outcome.verstr rules prepared) })

end NeuVector.Controller
