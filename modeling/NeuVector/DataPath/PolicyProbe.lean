import NeuVector.DataPath.PolicyConfig

/-!
# What one lookup key sees of the rule tables

A lookup reads two probes: its own key and, when the other side is external,
the same key with that address replaced by zero.  Both probes are hashed to
the same list of range rules.  The lemmas below state how the insertion of a
single table entry changes a probe: the first entry that matches keeps it.
-/

namespace NeuVector.DataPath

open Library

variable (key : RuleKey) (isIngress : Bool) (app ip : UInt32)

namespace RuleKey

@[simp] theorem withApp_withApp (first second : UInt32) :
    (key.withApp first).withApp second = key.withApp second := rfl

@[simp] theorem peer_withApp : (key.withApp app).peer isIngress = key.peer isIngress := by
  cases isIngress <;> rfl

theorem withPeer_withApp :
    (key.withApp app).withPeer isIngress ip = (key.withPeer isIngress ip).withApp app := by
  cases isIngress <;> rfl

@[simp] theorem own_withPeer : (key.withPeer isIngress ip).own isIngress = key.own isIngress := by
  cases isIngress <;> rfl

@[simp] theorem withPeer_withPeer (first second : UInt32) :
    (key.withPeer isIngress first).withPeer isIngress second = key.withPeer isIngress second := by
  cases isIngress <;> rfl

@[simp] theorem withPeer_proto : (key.withPeer isIngress ip).proto = key.proto := by
  cases isIngress <;> rfl

@[simp] theorem withPeer_dport : (key.withPeer isIngress ip).dport = key.dport := by
  cases isIngress <;> rfl

end RuleKey

@[simp] theorem directedRangeKey_withApp : directedRangeKey (key.withApp app) isIngress =
      directedRangeKey key isIngress := by cases isIngress <;> rfl

@[simp] theorem directedRangeKey_withPeer : directedRangeKey (key.withPeer isIngress ip) isIngress =
      directedRangeKey key isIngress := by cases isIngress <;> rfl

@[simp] theorem undirectedRangeKey_withApp :
    undirectedRangeKey (key.withApp app) = undirectedRangeKey key := rfl

@[simp] theorem undirectedRangeKey_withPeer : undirectedRangeKey (key.withPeer isIngress ip) =
      undirectedRangeKey key := by cases isIngress <;> rfl

theorem directedRangeKey_ne_undirected (other : RuleKey) (isIngress : Bool) :
    directedRangeKey key isIngress ≠ undirectedRangeKey other := by
  intro equality
  have flags := congrArg RangeRuleKey.flag equality
  cases isIngress <;> simp [directedRangeKey, undirectedRangeKey,
    rangeRuleIngress, rangeRuleEgress] at flags

variable (hdl : PolicyHdl)

/-- The range rules a key of the given direction is compared with. -/
def directedItems (key : RuleKey) (isIngress : Bool) : List RangeRuleItem :=
  (hdl.rangePolicyMap.lookup (directedRangeKey key isIngress)).getD []

variable (items : List RangeRuleItem)

def rangeProbe (key : RuleKey) : Option PolicyDesc :=
  (dpiRangeRuleMatch items key).map RangeRuleItem.desc

/-- The match a key finds among the exact and directed range rules. -/
def probe (key : RuleKey) (isIngress : Bool) : Option PolicyDesc :=
  (hdl.policyMap.lookup key).or (rangeProbe (directedItems hdl key isIngress) key)

/-- No rule without direction has been stored for the protocol of a key. -/
def NoUndirected (key : RuleKey) : Prop := hdl.rangePolicyMap.lookup (undirectedRangeKey key) = none

theorem findRule_eq_probe_or (key : RuleKey) (isIngress : Bool) :
    findRule hdl key isIngress = (probe hdl key isIngress).or
        (rangeLookup hdl (undirectedRangeKey key) key) := by
  unfold findRule probe rangeLookup directedItems
  cases hdl.policyMap.lookup key with
  | some desc => rfl
  | none =>
    cases hdl.rangePolicyMap.lookup (directedRangeKey key isIngress) with
    | none => rfl
    | some items =>
      simp only [Option.bind_some, Option.getD_some, Option.none_or]
      unfold rangeProbe
      cases (dpiRangeRuleMatch items key).map RangeRuleItem.desc <;> rfl

theorem rangeProbe_append (item : RangeRuleItem) (key : RuleKey) :
    rangeProbe (items ++ [item]) key = (rangeProbe items key).or
        (if ruleKeyInRange item key then some item.desc else none) := by
  unfold rangeProbe dpiRangeRuleMatch
  rw [List.find?_append]
  cases List.find? (fun item => ruleKeyInRange item key) items with
  | some found => rfl
  | none => cases matched : ruleKeyInRange item key <;> simp [matched]

theorem rangeProbe_isSome_of_mem {items : List RangeRuleItem} {item : RangeRuleItem} {key : RuleKey}
    (member : item ∈ items) (matched : ruleKeyInRange item key = true) :
    (rangeProbe items key).isSome = true := by
  unfold rangeProbe dpiRangeRuleMatch
  rw [Option.isSome_map, List.find?_isSome]
  exact ⟨item, member, matched⟩

/-- The parts of a handle a range insertion leaves alone. -/
structure SameOutside (hdl hdl' : PolicyHdl) : Prop where
  policyMap : hdl'.policyMap = hdl.policyMap
  flag : hdl'.flag = hdl.flag
  applyDir : hdl'.applyDir = hdl.applyDir
  defAction : hdl'.defAction = hdl.defAction
  ver : hdl'.ver = hdl.ver
  refCnt : hdl'.refCnt = hdl.refCnt

def appendItem (item : RangeRuleItem) : List RangeRuleItem :=
  match findSameItem items item.keyL item.keyH with
  | some _ => items
  | none => items ++ [item]

variable {keyL keyH : RuleKey}

theorem findSameItem_isSome {items : List RangeRuleItem} {item : RangeRuleItem}
    (member : item ∈ items) (low : item.keyL = keyL) (high : item.keyH = keyH) :
    (findSameItem items keyL keyH).isSome = true := by
  unfold findSameItem
  rw [List.find?_isSome]
  exact ⟨item, member, decide_eq_true ⟨low, high⟩⟩

theorem findSameItem_spec {items : List RangeRuleItem} {item : RangeRuleItem}
    (found : findSameItem items keyL keyH = some item) :
    item ∈ items ∧ item.keyL = keyL ∧ item.keyH = keyH := by
  have keys := List.find?_some found
  simp only [decide_eq_true_eq] at keys
  exact ⟨List.mem_of_find?_eq_some found, keys⟩

theorem ruleKeyInRange_congr {first second : RangeRuleItem}
    (low : first.keyL = second.keyL) (high : first.keyH = second.keyH) (key : RuleKey) :
    ruleKeyInRange first key = ruleKeyInRange second key := by
  unfold ruleKeyInRange
  rw [low, high]

theorem rangeProbe_appendItem (item : RangeRuleItem) (key : RuleKey) :
    rangeProbe (appendItem items item) key = (rangeProbe items key).or
        (if ruleKeyInRange item key then some item.desc else none) := by
  unfold appendItem
  cases found : findSameItem items item.keyL item.keyH with
  | none => exact rangeProbe_append items item key
  | some same =>
    obtain ⟨member, low, high⟩ := findSameItem_spec found
    by_cases matched : ruleKeyInRange item key = true
    · have sameMatched : ruleKeyInRange same key = true := by
        rw [ruleKeyInRange_congr low high]
        exact matched
      have present := rangeProbe_isSome_of_mem member sameMatched
      obtain ⟨desc, equality⟩ := Option.isSome_iff_exists.mp present
      simp [equality]
    · simp [matched]

structure RangeAdded (hdl : PolicyHdl) (rangeKey : RangeRuleKey)
    (item : RangeRuleItem) (existDesc : PolicyDesc)
    (result : PolicyHdl × PolicyDesc × Int) : Prop where
  outside : SameOutside hdl result.1
  own : result.1.rangePolicyMap.lookup rangeKey =
    some (appendItem ((hdl.rangePolicyMap.lookup rangeKey).getD []) item)
  other : ∀ key, key ≠ rangeKey → result.1.rangePolicyMap.lookup key = hdl.rangePolicyMap.lookup key
  outcome : match findSameItem
      ((hdl.rangePolicyMap.lookup rangeKey).getD []) item.keyL item.keyH with
    | some same => result.2 = (same.desc, 0)
    | none => result.2 = (existDesc, 1)

variable {dir : RuleDir}

theorem dpiRangeRuleAdd_spec {rangeKey : RangeRuleKey} (desc existDesc : PolicyDesc)
    (hashed : getRangeKey keyL keyH dir = some rangeKey) :
    RangeAdded hdl rangeKey { desc := desc, keyL := keyL, keyH := keyH }
      existDesc (dpiRangeRuleAdd hdl keyL keyH dir desc existDesc) := by
  unfold dpiRangeRuleAdd
  simp only [hashed]
  cases stored : hdl.rangePolicyMap.lookup rangeKey with
  | none =>
    have fresh : (hdl.rangePolicyMap.add rangeKey []).lookup rangeKey = some [] := by
      simp [RcuMap.lookup_add, stored]
    have absent : findSameItem [] keyL keyH = none := rfl
    simp only [fresh, Option.getD_some, absent]
    refine ⟨⟨rfl, rfl, rfl, rfl, rfl, rfl⟩, ?_, ?_, ?_⟩
    · simp [RcuMap.lookup_modify, fresh, stored, appendItem, absent]
    · intro key different
      simp [RcuMap.lookup_modify, different, RcuMap.lookup_add_of_ne _ _ different]
    · simp [stored, absent]
  | some items =>
    simp only [stored, Option.getD_some]
    cases found : findSameItem items keyL keyH with
    | some same =>
      refine ⟨⟨rfl, rfl, rfl, rfl, rfl, rfl⟩, ?_, ?_, ?_⟩
      · simp [stored, appendItem, found]
      · intro key _
        rfl
      · simp [stored, found]
    | none =>
      refine ⟨⟨rfl, rfl, rfl, rfl, rfl, rfl⟩, ?_, ?_, ?_⟩
      · simp [RcuMap.lookup_modify, stored, appendItem, found]
      · intro key different
        simp [RcuMap.lookup_modify, different]
      · simp [stored, found]

section Preservation

variable {kept : PolicyHdl → Prop} {ctx : IpContext} {dir : RuleDir}

section

variable (one : ∀ hdl keyL keyH desc existDesc, kept hdl →
  kept (dpiRuleAddOne ctx hdl keyL keyH dir desc existDesc).1)
include one

theorem addAppRules_preserves (appRules : List PolicyAppRule) (state : RuleAddState)
    (desc : PolicyDesc) (before : kept state.hdl) :
    kept (addAppRules ctx dir desc appRules state).hdl := by
  induction appRules generalizing state with
  | nil => exact before
  | cons appRule rest induction =>
    apply induction
    exact one _ _ _ _ _ before

theorem ruleAddRest_preserves (keyL : RuleKey) (keyH : Option RuleKey)
    (appRules : List PolicyAppRule) (desc : PolicyDesc)
    (main : PolicyHdl × PolicyDesc × Int) (before : kept main.1) :
    kept (ruleAddRest ctx keyL keyH appRules dir desc main).hdl := by
  obtain ⟨hdl, existDesc, result⟩ := main
  unfold ruleAddRest
  simp only
  split
  · exact before
  · split
    · exact before
    · by_cases plain : result = 0 ∧ existDesc.id > 0 ∧ desc.action ≠ .actionCheckApp
      · split
        · exact one _ _ _ _ _ before
        · apply addAppRules_preserves one
          exact one _ _ _ _ _ before
      · split
        · exact before
        · exact addAppRules_preserves one _ _ _ before

theorem dpiRuleAdd_preserves (hdl : PolicyHdl) (keyL : RuleKey) (keyH : Option RuleKey)
    (appRules : List PolicyAppRule) (desc : PolicyDesc) (before : kept hdl) :
    kept (dpiRuleAdd ctx hdl keyL keyH appRules dir desc).hdl := by
  apply ruleAddRest_preserves one
  exact one _ _ _ _ _ before

end

theorem dir_ne_none (rule : PolicyRule) : rule.dir ≠ .none := by
  unfold PolicyRule.dir
  cases rule.ingress <;> simp

variable (one : ∀ dir, dir ≠ .none → ∀ hdl keyL keyH desc existDesc, kept hdl →
  kept (dpiRuleAddOne ctx hdl keyL keyH dir desc existDesc).1)
include one

theorem addRule_preserves (hdl : PolicyHdl) (rule : PolicyRule) (order : UInt32)
    (before : kept hdl) : kept (addRule ctx hdl rule order) := by
  have directed := one rule.dir (dir_ne_none rule)
  unfold addRule
  split
  · exact dpiRuleAdd_preserves directed _ _ _ _ _ before
  · apply dpiRuleAdd_preserves directed
    exact dpiRuleAdd_preserves directed _ _ _ _ _ before

/-- Whatever a single directed entry and the domain name flag preserve is
preserved by a whole rule list. -/
theorem cfgRules_preserves (flagged : ∀ hdl flag, kept hdl → kept { hdl with flag := flag })
    (rules : List PolicyRule) (hdl : PolicyHdl) (order : UInt32)
    (before : kept hdl) : kept (cfgRules ctx rules (hdl, order)).1 := by
  induction rules generalizing hdl order with
  | nil => exact before
  | cons rule rest induction =>
    apply induction
    split
    · exact before
    · apply addRule_preserves one
      split
      · exact before
      · exact flagged _ _ before

end Preservation

/-- The fields a handle keeps from its creation. -/
structure HdlHeader where
  refCnt : UInt16
  ver : UInt16
  defAction : PolicyAction
  applyDir : UInt32
  deriving DecidableEq

def PolicyHdl.header : HdlHeader :=
  { refCnt := hdl.refCnt, ver := hdl.ver, defAction := hdl.defAction, applyDir := hdl.applyDir }

variable (ctx : IpContext)

/-- No rule without direction has been stored at all. -/
def AllDirected : Prop := ∀ rangeKey, rangeKey.flag = 0 → hdl.rangePolicyMap.lookup rangeKey = none

theorem getRangeKey_flag {rangeKey : RangeRuleKey} (directed : dir ≠ .none)
    (hashed : getRangeKey keyL keyH dir = some rangeKey) :
    rangeKey.flag ≠ 0 := by
  unfold getRangeKey at hashed
  split at hashed
  · simp at hashed
  · cases dir with
    | none => exact absurd rfl directed
    | ingress =>
      have same := Option.some.inj hashed
      rw [← same]
      simp [rangeRuleIngress]
    | egress =>
      have same := Option.some.inj hashed
      rw [← same]
      simp [rangeRuleEgress]

theorem dpiRuleAddOne_keeps (hdl : PolicyHdl) (keyL : RuleKey)
    (keyH : Option RuleKey) (dir : RuleDir) (desc existDesc : PolicyDesc) :
    (dpiRuleAddOne ctx hdl keyL keyH dir desc existDesc).1.header = hdl.header ∧
      (dir ≠ .none → AllDirected hdl →
        AllDirected (dpiRuleAddOne ctx hdl keyL keyH dir desc existDesc).1) := by
  cases keyH with
  | none =>
    unfold dpiRuleAddOne
    simp only
    split <;> exact ⟨rfl, fun _ before => before⟩
  | some high =>
    change (dpiRangeRuleAdd hdl keyL high dir desc existDesc).1.header = _ ∧
      (_ → _ → AllDirected (dpiRangeRuleAdd hdl keyL high dir desc existDesc).1)
    cases hashed : getRangeKey keyL high dir with
    | none =>
      unfold dpiRangeRuleAdd
      rw [hashed]
      exact ⟨rfl, fun _ before => before⟩
    | some rangeKey =>
      have spec := dpiRangeRuleAdd_spec hdl desc existDesc hashed
      constructor
      · unfold PolicyHdl.header
        rw [spec.outside.refCnt, spec.outside.ver, spec.outside.defAction, spec.outside.applyDir]
      · intro directed before other isZero
        rw [spec.other other (fun same => getRangeKey_flag directed hashed (same ▸ isZero))]
        exact before other isZero

theorem cfgRules_header (rules : List PolicyRule) (hdl : PolicyHdl) (order : UInt32) :
    (cfgRules ctx rules (hdl, order)).1.header = hdl.header := by
  refine @cfgRules_preserves (fun after => after.header = hdl.header) ctx ?_ ?_ rules hdl order rfl
  · intro dir _ before keyL keyH desc existDesc same
    exact (dpiRuleAddOne_keeps ..).1.trans same
  · intro before flag same
    exact same

theorem dpiAddDefaultPolicy_header (hdl : PolicyHdl) :
    (dpiAddDefaultPolicy ctx hdl).header = hdl.header := by
  refine @dpiRuleAdd_preserves (fun after => after.header = hdl.header) ctx .none ?_ hdl _ _ _ _ rfl
  intro before keyL keyH desc existDesc same
  exact (dpiRuleAddOne_keeps ..).1.trans same

theorem cfgRules_allDirected (rules : List PolicyRule) (hdl : PolicyHdl)
    (order : UInt32) (before : AllDirected hdl) :
    AllDirected (cfgRules ctx rules (hdl, order)).1 := by
  apply cfgRules_preserves
  · intro dir directed hdl keyL keyH desc existDesc
    exact (dpiRuleAddOne_keeps ..).2 directed
  · intro hdl flag kept
    exact kept
  · exact before

end NeuVector.DataPath
