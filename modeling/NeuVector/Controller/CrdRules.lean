import NeuVector.Controller.PolicyStore

/-!
# Network rules of a custom resource

This module embeds `crdHandleRules` of `controller/rest/crdsecurityrule.go`.
The rules of one record are given ids, written, and merged with the rule heads
of the other records by priority.  Pointers to rule heads are positions in the
stored list.  The order in which maps are enumerated and the order of heads
with equal priority after sorting are parameters.
-/

namespace NeuVector.Controller

/-- A rule as the parser of custom resources gives it; the comment is the name
of the rule. -/
structure PolicyRuleConfig where
  comment : String
  fromGroup : Option String
  toGroup : Option String
  ports : Option String
  action : Option String
  applications : Option (List String)
  priority : Nat
  deriving DecidableEq

structure CrdEnv where
  now : Nat
  appNames2IDs : List String → List Nat
  /-- The order in which the map of rule heads is enumerated. -/
  headOrder : List RuleHead → List RuleHead
  headOrder_perm : ∀ heads, (headOrder heads).Perm heads
  /-- The order in which the rules of the record are enumerated. -/
  nameOrder : List (String × Nat) → List (String × Nat)
  nameOrder_perm : ∀ entries, (nameOrder entries).Perm entries
  sortByPriority : List RuleHead → List RuleHead
  sort_perm : ∀ heads, (sortByPriority heads).Perm heads
  sort_ordered : ∀ heads, (sortByPriority heads).Pairwise fun first second =>
    second.priority ≤ first.priority

structure HeadScan where
  ids : List Nat
  /-- The position of the head of each rule of a custom resource. -/
  ruleHead : GoMap Nat Nat
  startIdx : Nat
  startFind : Bool
  endIdx : Nat
  endFind : Bool

def HeadScan.init : HeadScan :=
  { ids := [], ruleHead := ∅, startIdx := 0, startFind := false, endIdx := 0, endFind := false }

variable (scan : HeadScan) (i : Nat)

def noteGround (crh : RuleHead) : HeadScan :=
  if crh.cfgType = .ground then
    { scan with ids := scan.ids ++ [crh.id], ruleHead := scan.ruleHead.insert crh.id i }
  else scan

def noteStart : HeadScan :=
  if scan.startFind then scan
  else { scan with startIdx := i, startFind := true }

def noteEnd (crh : RuleHead) : HeadScan :=
  if crh.cfgType ≠ .ground ∧ scan.endFind = false then { scan with endIdx := i, endFind := true }
  else scan

def scanHead (crh : RuleHead) : HeadScan :=
  let scan := noteGround scan i crh
  if crh.cfgType ≠ .federal then noteEnd (noteStart scan i) i crh else scan

def scanHeads (scan : HeadScan) (i : Nat) : List RuleHead → HeadScan
  | [] => scan
  | crh :: crhs => scanHeads (scanHead scan i crh) (i + 1) crhs

structure CrdLoop where
  crhs : List RuleHead
  ids : List Nat
  /-- The rules of the record with the names added so far. -/
  rules : GoMap String Nat
  news : List RuleHead
  newRules : GoMap String Nat
  puts : List PolicyRule

/-- The id of a rule: the one in the record, or a new one. -/
def assignID (loop : CrdLoop) (name : String) : CrdLoop × Nat :=
  match loop.rules.lookup name with
  | some id => (loop, id)
  | none =>
    let id := getAvailablePolicyID loop.ids .ground
    ({ loop with
        rules := loop.rules.insert name id, ids := id :: loop.ids },
      id)

def newHead (id priority : Nat) : RuleHead := { id := id, priority := priority, cfgType := .ground }

def setPriority (priority : Nat) (head : RuleHead) : RuleHead := { head with priority := priority }

/-- The head of a rule: a new one, unless both the rule and its head exist. -/
def placeHead (stored : Nat → Option PolicyRule) (ruleHead : GoMap Nat Nat)
    (loop : CrdLoop) (id priority : Nat) : CrdLoop :=
  match stored id with
  | none => { loop with news := loop.news ++ [newHead id priority] }
  | some _ =>
    match ruleHead.lookup id with
    | some i => { loop with crhs := loop.crhs.modify i (setPriority priority) }
    | none => { loop with news := loop.news ++ [newHead id priority] }

variable (env : CrdEnv)

def newRule (id : Nat) : PolicyRule :=
  { id := id, comment := "", fromGroup := "", toGroup := "", ports := ""
    applications := [], action := "", disable := false, createdAt := env.now
    lastModAt := 0, cfgType := .ground, priority := 0 }

def fillRule (rule : PolicyRule) (conf : PolicyRuleConfig) : PolicyRule :=
  { rule with
    fromGroup := conf.fromGroup.getD rule.fromGroup
    toGroup := conf.toGroup.getD rule.toGroup
    ports := conf.ports.getD rule.ports
    applications := (conf.applications.map env.appNames2IDs).getD rule.applications
    action := conf.action.getD rule.action
    comment := conf.comment
    lastModAt := env.now
    priority := conf.priority }

def handleRule (stored : Nat → Option PolicyRule) (ruleHead : GoMap Nat Nat)
    (loop : CrdLoop) (conf : PolicyRuleConfig) : CrdLoop :=
  let (loop, id) := assignID loop conf.comment
  let loop := placeHead stored ruleHead loop id conf.priority
  let rule := fillRule env ((stored id).getD (newRule env id)) conf
  { loop with puts := loop.puts ++ [rule], newRules := loop.newRules.insert conf.comment id }

/-- The ids of the record that no rule has under the same name any more. -/
def goneIDs (newRules : GoMap String Nat) (entries : List (String × Nat)) : List Nat :=
  (entries.filter fun entry => newRules.lookup entry.1 ≠ some entry.2).map (·.2)

def dropHeads (ruleHead : GoMap Nat Nat) (gone : List Nat) : GoMap Nat Nat :=
  gone.foldl (fun heads id => heads.erase id) ruleHead

def recordEntries (rules : GoMap String Nat) : List (String × Nat) :=
  rules.entries.map fun entry => (entry.1, entry.2)

def headsAt (crhs : List RuleHead) (ruleHead : GoMap Nat Nat) : List RuleHead :=
  ruleHead.entries.filterMap fun entry => crhs[entry.2]?

structure CrdResult where
  written : Option (List RuleHead)
  puts : List PolicyRule
  deletes : List Nat
  newRules : GoMap String Nat

def crdHandleRules (crhs : List RuleHead) (stored : Nat → Option PolicyRule)
    (record : GoMap String Nat) (rules : List PolicyRuleConfig) : CrdResult :=
  if rules = [] ∧ record.entries = [] then
    { written := none, puts := [], deletes := [], newRules := ∅ }
  else
    let scan := scanHeads .init 0 crhs
    let loop := rules.foldl (handleRule env stored scan.ruleHead)
      { crhs := crhs, ids := scan.ids, rules := record, news := [], newRules := ∅, puts := [] }
    let gone := goneIDs loop.newRules (env.nameOrder (recordEntries loop.rules))
    let ruleHead := dropHeads scan.ruleHead gone
    let news := env.sortByPriority (loop.news ++ env.headOrder (headsAt loop.crhs ruleHead))
    let newPlus :=
      if scan.endFind then news ++ loop.crhs.drop scan.endIdx else news
    { written := some (loop.crhs.take scan.startIdx ++ newPlus)
      puts := loop.puts
      deletes := gone
      newRules := loop.newRules }

end NeuVector.Controller
