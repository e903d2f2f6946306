import NeuVector.DataPath.PolicyInsertion

/-!
# Insertion of a configured rule

The entries of a configured rule share its addresses and ports and differ in
the applications they match.  For a query hashed to the same list the whole
of `dpi_rule_add` is described by one function of the application; for any
other query the insertion leaves everything the query reads unchanged.
-/

namespace NeuVector.DataPath

open Library

theorem isXInRange_uint32_self (x low : UInt32) : isXInRange x low low = decide (x = low) := by
  rw [Bool.eq_iff_iff]
  simp only [isXInRange, Bool.and_eq_true, decide_eq_true_eq]
  exact ⟨fun both => UInt32.le_antisymm both.2 both.1,
    fun same => same ▸ ⟨UInt32.le_refl _, UInt32.le_refl _⟩⟩

theorem isXInRange_uint16_self (x low : UInt16) : isXInRange x low low = decide (x = low) := by
  rw [Bool.eq_iff_iff]
  simp only [isXInRange, Bool.and_eq_true, decide_eq_true_eq]
  exact ⟨fun both => UInt16.le_antisymm both.2 both.1,
    fun same => same ▸ ⟨UInt16.le_refl _, UInt16.le_refl _⟩⟩

theorem isXInRange_zero_appLimit (app : UInt32) : isXInRange app 0 appLimit = true := by
  have low : (0 : UInt32) ≤ app := UInt32.le_iff_toNat_le.mpr (by simp)
  have high : app ≤ appLimit := by
    rw [UInt32.le_iff_toNat_le]
    have bound := app.toNat_lt
    have limit : appLimit.toNat = 4294967295 := by decide
    omega
  simp [isXInRange, low, high]

namespace PolicyRule

def contains (rule : PolicyRule) (key : RuleKey) : Bool :=
  isXInRange key.dport rule.dport rule.dportR && isXInRange key.sip rule.sip rule.sipR &&
    isXInRange key.dip rule.dip rule.dipR

theorem isRange_eq_false {rule : PolicyRule} : rule.isRange = false ↔
    (rule.dport = rule.dportR ∧ rule.sip = rule.sipR) ∧ rule.dip = rule.dipR := by simp [isRange]

theorem keyR_eq_keyL {rule : PolicyRule} (exact : rule.isRange = false)
    (proto : UInt16) : rule.keyR proto = rule.keyL proto := by
  obtain ⟨⟨samePort, sameSip⟩, sameDip⟩ := isRange_eq_false.mp exact
  simp [keyR, keyL, samePort, sameSip, sameDip]

theorem contains_iff_of_exact {rule : PolicyRule} {key : RuleKey} (exact : rule.isRange = false) :
    rule.contains key = true ↔ (rule.keyL key.proto).withApp 0 = key.withApp 0 := by
  obtain ⟨⟨samePort, sameSip⟩, sameDip⟩ := isRange_eq_false.mp exact
  simp only [contains, ← samePort, ← sameSip, ← sameDip,
    isXInRange_uint16_self, isXInRange_uint32_self, Bool.and_eq_true,
    decide_eq_true_eq, keyL, RuleKey.withApp, RuleKey.mk.injEq, and_true]
  constructor
  · rintro ⟨⟨port, sip⟩, dip⟩
    exact ⟨sip.symm, dip.symm, port.symm⟩
  · rintro ⟨sip, dip, port⟩
    exact ⟨⟨port.symm, sip.symm⟩, dip.symm⟩

def item (rule : PolicyRule) (proto : UInt16) (low high : UInt32)
    (desc : PolicyDesc) : RangeRuleItem :=
  { desc := desc, keyL := (rule.keyL proto).withApp low, keyH := (rule.keyR proto).withApp high }

theorem getRangeKey_eq (rule : PolicyRule) (proto : UInt16) (low high : UInt32) :
    getRangeKey ((rule.keyL proto).withApp low) ((rule.keyR proto).withApp high) rule.dir =
      some (directedRangeKey (rule.keyL proto) rule.ingress) := by
  have sameProto : ((rule.keyL proto).withApp low).proto =
      ((rule.keyR proto).withApp high).proto := rfl
  unfold getRangeKey dir directedRangeKey
  rw [if_neg (not_not_intro sameProto)]
  cases rule.ingress <;> rfl

theorem dir_isIngress (rule : PolicyRule) : rule.dir.isIngress = rule.ingress := by
  unfold dir
  cases rule.ingress <;> rfl

end PolicyRule

namespace PolicyRule

def highKey (rule : PolicyRule) (proto : UInt16) (app : UInt32) : Option RuleKey :=
  if rule.isRange then some ((rule.keyR proto).withApp app) else none

/-- The upper key of an application entry: the entry of any application is a
range even when the rule itself is exact. -/
def appHighKey (rule : PolicyRule) (proto : UInt16) (app : UInt32) : Option RuleKey :=
  if app = 0 then some ((rule.keyR proto).withApp appLimit)
  else rule.highKey proto app

theorem appRuleKeys_eq (rule : PolicyRule) (proto : UInt16) (low high app : UInt32) :
    appRuleKeys ((rule.keyL proto).withApp low) (rule.highKey proto high) app =
      ((rule.keyL proto).withApp app, rule.highKey proto (if app = 0 then appLimit else app),
        rule.appHighKey proto app) := by
  unfold appRuleKeys appHighKey highKey
  by_cases any : app = 0
  · cases isRange : rule.isRange with
    | true => simp [any]
    | false => simp [any, keyR_eq_keyL isRange]
  · cases isRange : rule.isRange <;> simp [any]

end PolicyRule

/-- The caller's keys while the entries of a rule are inserted. -/
def RuleKeys (rule : PolicyRule) (proto : UInt16) (state : RuleAddState) : Prop :=
  ∃ low high, state.keyL = (rule.keyL proto).withApp low ∧ state.keyH = rule.highKey proto high

def appRuleMatches (appRule : PolicyAppRule) (app : UInt32) : Bool :=
  decide (appRule.app = 0) || decide (app = appRule.app)

def appRuleDesc (desc : PolicyDesc) (appRule : PolicyAppRule) : PolicyDesc :=
  { id := appRule.ruleId
    action := appRule.action
    flags := desc.flags
    hdlVer := 0
    order := desc.order }

def firstAppDesc (desc : PolicyDesc) (appRules : List PolicyAppRule)
    (app : UInt32) : Option PolicyDesc :=
  (appRules.find? fun appRule => appRuleMatches appRule app).map (appRuleDesc desc)

namespace PolicyQuery

/-- The query reads the range list the rule is stored in. -/
structure Hashed (query : PolicyQuery) (rule : PolicyRule) (proto : UInt16) : Prop where
  direction : rule.ingress = query.isIngress
  sameProto : query.key.proto = proto
  own : (rule.keyL proto).own query.isIngress = query.key.own query.isIngress

namespace Hashed

variable {query : PolicyQuery} {rule : PolicyRule} {proto : UInt16}

theorem rangeKey (hashed : query.Hashed rule proto) (low high : UInt32) :
    getRangeKey ((rule.keyL proto).withApp low) ((rule.keyR proto).withApp high) rule.dir =
      some (directedRangeKey query.key query.isIngress) := by
  rw [rule.getRangeKey_eq, hashed.direction]
  unfold directedRangeKey
  rw [hashed.own, hashed.sameProto]
  rfl

theorem exactAt (hashed : query.Hashed rule proto) (exact : rule.isRange = false) :
    query.ExactAt rule.contains (rule.keyL proto) where
  own := by rw [PolicyRule.contains_iff_of_exact exact, hashed.sameProto]
  zero := by
    rw [PolicyRule.contains_iff_of_exact exact]
    simp only [zeroPeer, RuleKey.withPeer_proto, hashed.sameProto]

end Hashed

section AppRules

variable {query : PolicyQuery} {rule : PolicyRule} {proto : UInt16}
  {order : UInt32} {desc : PolicyDesc} {state : RuleAddState}

section

variable (hashed : query.Hashed rule proto)
include hashed

theorem grown_item {hdl : PolicyHdl}
    (loading : query.Loading rule.contains order hdl) (low high : UInt32)
    {entry : PolicyDesc} (existDesc : PolicyDesc) (positive : 0 < entry.id)
    (ordered : entry.order = order) :
    query.Grown rule.contains order
      (fun app => if isXInRange app low high then some entry else none) hdl
      (dpiRangeRuleAdd hdl ((rule.keyL proto).withApp low)
        ((rule.keyR proto).withApp high) rule.dir entry existDesc).1 :=
  grown_of_rangeAdded loading (dpiRangeRuleAdd_spec hdl entry existDesc (hashed.rangeKey low high))
    ordered positive fun _ _ => rfl

variable (hdl : PolicyHdl)

theorem noPlainItems_item {low high : UInt32} (entry existDesc : PolicyDesc)
    (known : ¬ (low = 0 ∧ high = 0)) :
    query.NoPlainItems hdl (dpiRangeRuleAdd hdl ((rule.keyL proto).withApp low)
        ((rule.keyR proto).withApp high) rule.dir entry existDesc).1 :=
  noPlainItems_of_rangeAdded (dpiRangeRuleAdd_spec hdl entry existDesc (hashed.rangeKey low high))
    known

theorem grown_appEntry {hdl : PolicyHdl}
    (loading : query.Loading rule.contains order hdl) (appRule : PolicyAppRule)
    {entry : PolicyDesc} (existDesc : PolicyDesc) (positive : 0 < entry.id)
    (ordered : entry.order = order) :
    query.Grown rule.contains order
      (fun app => if appRuleMatches appRule app then some entry else none)
      hdl
      (dpiRuleAddOne query.ctx hdl ((rule.keyL proto).withApp appRule.app)
        (rule.appHighKey proto appRule.app) rule.dir entry existDesc).1 := by
  unfold PolicyRule.appHighKey PolicyRule.highKey
  by_cases any : appRule.app = 0
  · rw [any]
    refine (grown_item hashed loading 0 appLimit existDesc positive ordered).congr ?_
    intro app
    simp [appRuleMatches, any, isXInRange_zero_appLimit]
  · rw [if_neg any]
    cases isRange : rule.isRange with
    | true =>
      refine (grown_item hashed loading appRule.app appRule.app existDesc positive ordered).congr ?_
      intro app
      simp [appRuleMatches, any, isXInRange_uint32_self]
    | false =>
      have direction : rule.dir.isIngress = query.isIngress :=
        rule.dir_isIngress.trans hashed.direction
      refine (grown_of_exact appRule.app entry existDesc loading
        (hashed.exactAt isRange) direction positive ordered).congr ?_
      intro app
      simp [appRuleMatches, any]

theorem noPlainItems_appEntry (app : UInt32) (entry existDesc : PolicyDesc) :
    query.NoPlainItems hdl (dpiRuleAddOne query.ctx hdl ((rule.keyL proto).withApp app)
        (rule.appHighKey proto app) rule.dir entry existDesc).1 := by
  unfold PolicyRule.appHighKey PolicyRule.highKey
  by_cases any : app = 0
  · rw [any]
    exact noPlainItems_item hashed hdl entry existDesc (by decide)
  · rw [if_neg any]
    cases isRange : rule.isRange with
    | true => exact noPlainItems_item hashed hdl entry existDesc (fun both => any both.1)
    | false =>
      intro item member _ _
      simp only [Bool.false_eq_true, if_false] at member
      rwa [items_of_exact (rule.keyL proto) app] at member

end

variable (ctx : IpContext)

section

variable (keys : RuleKeys rule proto state)
include keys

theorem dpiAddAppRule_hdl (appRule : PolicyAppRule) :
    (dpiAddAppRule ctx state appRule rule.dir desc).1.hdl =
      (dpiRuleAddOne ctx state.hdl ((rule.keyL proto).withApp appRule.app)
        (rule.appHighKey proto appRule.app) rule.dir
        (appRuleDesc desc appRule) state.existDesc).1 := by
  obtain ⟨low, high, lowKey, highKey⟩ := keys
  unfold dpiAddAppRule
  rw [lowKey, highKey, PolicyRule.appRuleKeys_eq]
  rfl

theorem dpiAddAppRule_keyL (appRule : PolicyAppRule) :
    (dpiAddAppRule ctx state appRule rule.dir desc).1.keyL =
      (rule.keyL proto).withApp appRule.app := by
  obtain ⟨low, high, lowKey, highKey⟩ := keys
  unfold dpiAddAppRule
  rw [lowKey, highKey, PolicyRule.appRuleKeys_eq]

theorem dpiAddAppRule_keyH (appRule : PolicyAppRule) :
    (dpiAddAppRule ctx state appRule rule.dir desc).1.keyH = rule.highKey proto
        (if appRule.app = 0 then appLimit else appRule.app) := by
  obtain ⟨low, high, lowKey, highKey⟩ := keys
  unfold dpiAddAppRule
  rw [lowKey, highKey, PolicyRule.appRuleKeys_eq]

end

theorem dpiAddAppRule_keys (desc : PolicyDesc) (ctx : IpContext)
    (keys : RuleKeys rule proto state) (appRule : PolicyAppRule) :
    RuleKeys rule proto (dpiAddAppRule ctx state appRule rule.dir desc).1 :=
  ⟨_, _, dpiAddAppRule_keyL ctx keys appRule, dpiAddAppRule_keyH ctx keys appRule⟩

theorem addAppRules_keys (desc : PolicyDesc) (ctx : IpContext) (appRules : List PolicyAppRule)
    (keys : RuleKeys rule proto state) :
    RuleKeys rule proto (addAppRules ctx rule.dir desc appRules state) := by
  induction appRules generalizing state with
  | nil => exact keys
  | cons appRule rest induction => exact induction (dpiAddAppRule_keys desc ctx keys appRule)

structure AppsAdded (query : PolicyQuery) (rule : PolicyRule)
    (order : UInt32) (added : UInt32 → Option PolicyDesc)
    (before after : PolicyHdl) : Prop where
  grown : query.Grown rule.contains order added before after
  items : query.NoPlainItems before after

theorem dpiAddAppRule_added (hashed : query.Hashed rule proto) (appRule : PolicyAppRule)
    (loading : query.Loading rule.contains order state.hdl) (keys : RuleKeys rule proto state)
    (positive : 0 < appRule.ruleId) (ordered : desc.order = order) :
    query.AppsAdded rule order (fun app => if appRuleMatches appRule app
        then some (appRuleDesc desc appRule) else none)
      state.hdl
      (dpiAddAppRule query.ctx state appRule rule.dir desc).1.hdl := by
  rw [dpiAddAppRule_hdl query.ctx keys]
  exact ⟨grown_appEntry hashed loading appRule _ positive ordered,
    noPlainItems_appEntry hashed _ _ _ _⟩

theorem addAppRules_added (hashed : query.Hashed rule proto) (appRules : List PolicyAppRule)
    (loading : query.Loading rule.contains order state.hdl) (keys : RuleKeys rule proto state)
    (positive : ∀ appRule ∈ appRules, 0 < appRule.ruleId) (ordered : desc.order = order) :
    query.AppsAdded rule order (firstAppDesc desc appRules)
      state.hdl (addAppRules query.ctx rule.dir desc appRules state).hdl := by
  induction appRules generalizing state with
  | nil => exact ⟨Grown.refl loading, fun _ member _ _ => member⟩
  | cons appRule rest induction =>
    have head := dpiAddAppRule_added hashed appRule loading keys
      (positive appRule (by simp)) ordered
    have tail := induction head.grown.loading (dpiAddAppRule_keys desc query.ctx keys appRule)
      (fun other member => positive other (by simp [member]))
    refine ⟨(head.grown.trans tail.grown).congr ?_, head.items.trans tail.items⟩
    intro app
    unfold firstAppDesc
    cases matched : appRuleMatches appRule app <;> simp [matched]

end AppRules

/-- The applications the main entry of a rule matches; the upper bound is the
application its upper key carries. -/
def mainMatches (rule : PolicyRule) (high app : UInt32) : Bool :=
  if rule.isRange then isXInRange app 0 high else app == 0

/-- What the entries after the main one add, given the entry found in the
place of the main one and whether the main one was stored. -/
def restAdded (rule : PolicyRule) (order : UInt32)
    (outcome : PolicyDesc × Int) (app : UInt32) : Option PolicyDesc :=
  if outcome.2 = 0 ∧ outcome.1.id > 0 ∧ outcome.1.action ≠ .actionCheckApp then none
  else if outcome.2 = 0 ∧ outcome.1.id > 0 ∧
      rule.action ≠ .actionCheckApp then some (rule.desc order)
  else firstAppDesc (rule.desc order) rule.appRules app

section WholeRule

variable {query : PolicyQuery} {rule : PolicyRule} {proto : UInt16}
  {order : UInt32} {hdl : PolicyHdl}

def mainEntry (ctx : IpContext) (hdl : PolicyHdl) (rule : PolicyRule)
    (proto : UInt16) (high order : UInt32) : PolicyHdl × PolicyDesc × Int :=
  dpiRuleAddOne ctx hdl ((rule.keyL proto).withApp 0)
    (rule.highKey proto high) rule.dir (rule.desc order) emptyDesc

variable (ctx : IpContext)

theorem mainEntry_range (isRange : rule.isRange = true) (high : UInt32) :
    mainEntry ctx hdl rule proto high order = dpiRangeRuleAdd hdl ((rule.keyL proto).withApp 0)
        ((rule.keyR proto).withApp high) rule.dir (rule.desc order)
        emptyDesc := by
  unfold mainEntry PolicyRule.highKey
  rw [if_pos isRange]
  rfl

theorem mainEntry_exact (isRange : rule.isRange = false) (high : UInt32) :
    mainEntry ctx hdl rule proto high order =
      dpiRuleAddOne ctx hdl ((rule.keyL proto).withApp 0) none rule.dir
        (rule.desc order) emptyDesc := by
  unfold mainEntry PolicyRule.highKey
  simp [isRange]

theorem mainEntry_nonneg (high : UInt32) : 0 ≤ (mainEntry ctx hdl rule proto high order).2.2 := by
  cases isRange : rule.isRange with
  | false =>
    rw [mainEntry_exact ctx isRange]
    simp only [dpiRuleAddOne]
    split <;> simp
  | true =>
    have spec := dpiRangeRuleAdd_spec hdl (rule.desc order) emptyDesc
      (rule.getRangeKey_eq proto 0 high)
    have outcome := spec.outcome
    rw [mainEntry_range ctx isRange]
    split at outcome <;> simp [outcome]

theorem mainEntry_grown (hashed : query.Hashed rule proto)
    (loading : query.Loading rule.contains order hdl) (high : UInt32) (positive : 0 < rule.id) :
    query.Grown rule.contains order
      (fun app => if mainMatches rule high app then some (rule.desc order)
        else none)
      hdl (mainEntry query.ctx hdl rule proto high order).1 := by
  cases isRange : rule.isRange with
  | true =>
    rw [mainEntry_range query.ctx isRange]
    simp only [mainMatches, isRange, if_true]
    exact grown_item hashed loading 0 high emptyDesc positive rfl
  | false =>
    have direction : rule.dir.isIngress = query.isIngress :=
      rule.dir_isIngress.trans hashed.direction
    rw [mainEntry_exact query.ctx isRange]
    simp only [mainMatches, isRange, Bool.false_eq_true, if_false]
    exact grown_of_exact 0 (rule.desc order) emptyDesc loading
      (hashed.exactAt isRange) direction positive rfl

theorem mainEntry_items_range (hashed : query.Hashed rule proto)
    (isRange : rule.isRange = true) (high : UInt32) :
    query.items (mainEntry query.ctx hdl rule proto high order).1 = appendItem (query.items hdl)
        (rule.item proto 0 high (rule.desc order)) := by
  rw [mainEntry_range query.ctx isRange]
  exact items_of_rangeAdded (dpiRangeRuleAdd_spec hdl _ _ (hashed.rangeKey 0 high))

theorem mainEntry_items_exact (isRange : rule.isRange = false) (high : UInt32) :
    query.items (mainEntry query.ctx hdl rule proto high order).1 = query.items hdl := by
  rw [mainEntry_exact query.ctx isRange, items_of_exact]

theorem dpiRuleAdd_eq_rest (high : UInt32) :
    dpiRuleAdd ctx hdl (rule.keyL proto) (rule.highKey proto high)
        rule.appRules rule.dir (rule.desc order) =
      ruleAddRest ctx (rule.keyL proto) (rule.highKey proto high)
        rule.appRules rule.dir (rule.desc order)
        (mainEntry ctx hdl rule proto high order) := rfl

/-- The entry a plain rule leaves behind an application rule. -/
def anyAppRule (rule : PolicyRule) : PolicyAppRule :=
  { ruleId := rule.id, app := 0, action := rule.action }

theorem ruleAddRest_hdl (start : RuleAddState) (appRules : List PolicyAppRule)
    (dir : RuleDir) (desc : PolicyDesc) (result : Int) :
    (ruleAddRest ctx start.keyL start.keyH appRules dir desc
        (start.hdl, start.existDesc, result)).hdl =
      if result < 0 then start.hdl
      else if result = 0 ∧ start.existDesc.id > 0 ∧ start.existDesc.action ≠ .actionCheckApp then
        start.hdl
      else
        (addAppRules ctx dir desc appRules
          (if result = 0 ∧ start.existDesc.id > 0 ∧ desc.action ≠ .actionCheckApp then
            (dpiAddAppRule ctx start { ruleId := desc.id, app := 0, action := desc.action }
              dir desc).1
          else start)).hdl := by
  unfold ruleAddRest
  simp only
  split
  · rfl
  · split
    · rfl
    · by_cases empty : appRules = []
      · rw [empty]
        rfl
      · simp only [if_neg empty]

theorem AppsAdded.trans {first second : UInt32 → Option PolicyDesc}
    {before middle after : PolicyHdl} (left : query.AppsAdded rule order first before middle)
    (right : query.AppsAdded rule order second middle after) :
    query.AppsAdded rule order (fun app => (first app).or (second app)) before after :=
  ⟨left.grown.trans right.grown, left.items.trans right.items⟩

theorem ruleAddRest_added (hashed : query.Hashed rule proto) (high : UInt32)
    {main : PolicyHdl × PolicyDesc × Int} (loading : query.Loading rule.contains order main.1)
    (nonneg : 0 ≤ main.2.2) (positive : 0 < rule.id)
    (appsPositive : ∀ appRule ∈ rule.appRules, 0 < appRule.ruleId) :
    query.AppsAdded rule order (restAdded rule order main.2) main.1
      (ruleAddRest query.ctx (rule.keyL proto) (rule.highKey proto high)
        rule.appRules rule.dir (rule.desc order) main).hdl := by
  obtain ⟨added, existDesc, result⟩ := main
  have startKeys : RuleKeys rule proto
      ⟨added, rule.keyL proto, rule.highKey proto high, existDesc⟩ := ⟨0, high, rfl, rfl⟩
  rw [ruleAddRest_hdl query.ctx ⟨added, rule.keyL proto, rule.highKey proto high, existDesc⟩]
  unfold restAdded
  simp only [if_neg (Int.not_lt.mpr nonneg)]
  by_cases blocked : result = 0 ∧ existDesc.id > 0 ∧ existDesc.action ≠ .actionCheckApp
  · simp only [if_pos blocked]
    exact ⟨Grown.refl loading, fun _ member _ _ => member⟩
  · simp only [if_neg blocked]
    by_cases plain : result = 0 ∧ existDesc.id > 0 ∧ rule.action ≠ .actionCheckApp
    · have anyAdded := dpiAddAppRule_added hashed (anyAppRule rule) loading
        startKeys positive (rfl : (rule.desc order).order = order)
      have appsAdded := addAppRules_added hashed rule.appRules anyAdded.grown.loading
        (dpiAddAppRule_keys _ query.ctx startKeys (anyAppRule rule))
        appsPositive (rfl : (rule.desc order).order = order)
      have both := anyAdded.trans appsAdded
      have plainDesc : result = 0 ∧ existDesc.id > 0 ∧
          (rule.desc order).action ≠ .actionCheckApp := plain
      simp only [if_pos plainDesc, if_pos plain]
      refine ⟨both.grown.congr ?_, both.items⟩
      intro app
      simp [appRuleMatches, anyAppRule, appRuleDesc, PolicyRule.desc]
    · have notPlainDesc : ¬ (result = 0 ∧ existDesc.id > 0 ∧
          (rule.desc order).action ≠ .actionCheckApp) := plain
      simp only [if_neg notPlainDesc, if_neg plain]
      exact addAppRules_added hashed rule.appRules loading startKeys appsPositive rfl

/-- Only a plain rule leaves the application limit in its upper key. -/
def HighApp (rule : PolicyRule) (high : UInt32) : Prop :=
  high = 0 ∨ (high = appLimit ∧ rule.action ≠ .actionCheckApp)

theorem dpiRuleAdd_keys (hdl : PolicyHdl) (rule : PolicyRule) (proto : UInt16)
    (order : UInt32) {high : UInt32} (highApp : HighApp rule high) :
    (dpiRuleAdd ctx hdl (rule.keyL proto) (rule.highKey proto high)
        rule.appRules rule.dir (rule.desc order)).keyL = rule.keyL proto ∧
      ∃ next, HighApp rule next ∧ (dpiRuleAdd ctx hdl (rule.keyL proto) (rule.highKey proto high)
          rule.appRules rule.dir (rule.desc order)).keyH = rule.highKey proto next := by
  rw [dpiRuleAdd_eq_rest]
  generalize mainEntry ctx hdl rule proto high order = main
  obtain ⟨added, existDesc, result⟩ := main
  let start : RuleAddState := ⟨added, rule.keyL proto, rule.highKey proto high, existDesc⟩
  have startKeys : RuleKeys rule proto start := ⟨0, high, rfl, rfl⟩
  have appsKeys : ∀ state, RuleKeys rule proto state →
      (addAppRules ctx rule.dir (rule.desc order) rule.appRules
          state).keyL.withApp 0 = rule.keyL proto ∧
        (addAppRules ctx rule.dir (rule.desc order) rule.appRules
          state).keyH.map (fun key => key.withApp 0) = rule.highKey proto 0 := by
    intro state keys
    obtain ⟨low, next, lowKey, nextKey⟩ := addAppRules_keys (rule.desc order) ctx rule.appRules keys
    rw [lowKey, nextKey]
    unfold PolicyRule.highKey
    cases rule.isRange with
    | true | false => exact ⟨rfl, rfl⟩
  unfold ruleAddRest
  simp only
  split
  · exact ⟨rfl, high, highApp, rfl⟩
  · split
    · exact ⟨rfl, high, highApp, rfl⟩
    · by_cases plain : result = 0 ∧ existDesc.id > 0 ∧ (rule.desc order).action ≠ .actionCheckApp
      · have anyKeys := dpiAddAppRule_keys (rule.desc order) ctx startKeys (anyAppRule rule)
        split
        · exact ⟨dpiAddAppRule_keyL ctx startKeys (anyAppRule rule),
            appLimit, Or.inr ⟨rfl, plain.2.2⟩, dpiAddAppRule_keyH ctx startKeys (anyAppRule rule)⟩
        · exact ⟨(appsKeys _ anyKeys).1, 0, Or.inl rfl, (appsKeys _ anyKeys).2⟩
      · split
        · exact ⟨rfl, high, highApp, rfl⟩
        · exact ⟨(appsKeys _ startKeys).1, 0, Or.inl rfl, (appsKeys _ startKeys).2⟩

end WholeRule

/-- Everything a query reads is the same in two handles. -/
structure SameView (query : PolicyQuery) (before after : PolicyHdl) : Prop where
  own : ∀ app, after.policyMap.lookup (query.key.withApp app) =
    before.policyMap.lookup (query.key.withApp app)
  zero : query.external = true → ∀ app, after.policyMap.lookup (query.zeroPeer.withApp app) =
      before.policyMap.lookup (query.zeroPeer.withApp app)
  range : after.rangePolicyMap.lookup (directedRangeKey query.key query.isIngress) =
    before.rangePolicyMap.lookup (directedRangeKey query.key query.isIngress)
  undirected : after.rangePolicyMap.lookup (undirectedRangeKey query.key) =
    before.rangePolicyMap.lookup (undirectedRangeKey query.key)
  flag : after.flag = before.flag
  applyDir : after.applyDir = before.applyDir
  defAction : after.defAction = before.defAction

/-- The query is not hashed to any entry of the rule. -/
structure Unseen (query : PolicyQuery) (rule : PolicyRule) (proto : UInt16) : Prop where
  range : directedRangeKey (rule.keyL proto) rule.ingress ≠
    directedRangeKey query.key query.isIngress
  exactOwn : rule.isRange = false → (rule.keyL proto).withApp 0 ≠ query.key.withApp 0
  exactZero : rule.isRange = false → query.external = true →
    (rule.keyL proto).withApp 0 ≠ query.zeroPeer.withApp 0

section View

variable {query : PolicyQuery} {rule : PolicyRule} {proto : UInt16}
  {desc : PolicyDesc} {state : RuleAddState}

theorem SameView.refl (hdl : PolicyHdl) : query.SameView hdl hdl :=
  ⟨fun _ => rfl, fun _ _ => rfl, rfl, rfl, rfl, rfl, rfl⟩

theorem SameView.trans {before middle after : PolicyHdl} (left : query.SameView before middle)
    (right : query.SameView middle after) :
    query.SameView before after where
  own := fun app => (right.own app).trans (left.own app)
  zero := fun external app => (right.zero external app).trans (left.zero external app)
  range := right.range.trans left.range
  undirected := right.undirected.trans left.undirected
  flag := right.flag.trans left.flag
  applyDir := right.applyDir.trans left.applyDir
  defAction := right.defAction.trans left.defAction

section

variable (unseen : query.Unseen rule proto)
include unseen

theorem sameView_item (hdl : PolicyHdl) (low high : UInt32) (entry existDesc : PolicyDesc) :
    query.SameView hdl (dpiRangeRuleAdd hdl ((rule.keyL proto).withApp low)
        ((rule.keyR proto).withApp high) rule.dir entry existDesc).1 := by
  have spec := dpiRangeRuleAdd_spec hdl entry existDesc (rule.getRangeKey_eq proto low high)
  refine ⟨?_, ?_, spec.other _ unseen.range.symm,
    spec.other _ (directedRangeKey_ne_undirected _ _ _).symm,
    spec.outside.flag, spec.outside.applyDir, spec.outside.defAction⟩
  · intro app
    rw [spec.outside.policyMap]
  · intro _ app
    rw [spec.outside.policyMap]

theorem sameView_exact (isRange : rule.isRange = false) (ctx : IpContext)
    (hdl : PolicyHdl) (app : UInt32) (entry existDesc : PolicyDesc) :
    query.SameView hdl (dpiRuleAddOne ctx hdl ((rule.keyL proto).withApp app) none rule.dir
        entry existDesc).1 := by
  unfold dpiRuleAddOne
  simp only
  split
  · exact SameView.refl hdl
  · refine ⟨?_, ?_, rfl, rfl, rfl, rfl, rfl⟩
    · intro other
      apply RcuMap.lookup_add_of_ne
      intro same
      exact unseen.exactOwn isRange (base_of_withApp_eq same).1
    · intro external other
      apply RcuMap.lookup_add_of_ne
      intro same
      exact unseen.exactZero isRange external (base_of_withApp_eq same).1

variable (ctx : IpContext)

theorem sameView_highKey (hdl : PolicyHdl) (low high : UInt32) (entry existDesc : PolicyDesc) :
    query.SameView hdl (dpiRuleAddOne ctx hdl ((rule.keyL proto).withApp low)
        (rule.highKey proto high) rule.dir entry existDesc).1 := by
  unfold PolicyRule.highKey
  cases isRange : rule.isRange with
  | true => exact sameView_item unseen hdl low high entry existDesc
  | false => exact sameView_exact unseen isRange ctx hdl low entry existDesc

theorem sameView_appEntry (hdl : PolicyHdl) (app : UInt32) (entry existDesc : PolicyDesc) :
    query.SameView hdl (dpiRuleAddOne ctx hdl ((rule.keyL proto).withApp app)
        (rule.appHighKey proto app) rule.dir entry existDesc).1 := by
  unfold PolicyRule.appHighKey
  split
  · exact sameView_item unseen hdl app appLimit entry existDesc
  · exact sameView_highKey unseen ctx hdl app app entry existDesc

theorem dpiAddAppRule_sameView (keys : RuleKeys rule proto state) (appRule : PolicyAppRule) :
    query.SameView state.hdl (dpiAddAppRule ctx state appRule rule.dir desc).1.hdl := by
  rw [dpiAddAppRule_hdl ctx keys]
  exact sameView_appEntry unseen ..

theorem addAppRules_sameView (appRules : List PolicyAppRule) (keys : RuleKeys rule proto state) :
    query.SameView state.hdl (addAppRules ctx rule.dir desc appRules state).hdl := by
  induction appRules generalizing state with
  | nil => exact SameView.refl _
  | cons appRule rest induction =>
    exact (dpiAddAppRule_sameView unseen ctx keys appRule).trans
      (induction (dpiAddAppRule_keys desc ctx keys appRule))

theorem dpiRuleAdd_sameView (hdl : PolicyHdl) (order high : UInt32) :
    query.SameView hdl (dpiRuleAdd ctx hdl (rule.keyL proto) (rule.highKey proto high)
        rule.appRules rule.dir (rule.desc order)).hdl := by
  have mainView : query.SameView hdl (mainEntry ctx hdl rule proto high order).1 :=
    sameView_highKey unseen ctx hdl 0 high _ _
  rw [dpiRuleAdd_eq_rest]
  generalize mainEntry ctx hdl rule proto high order = main at mainView ⊢
  obtain ⟨added, existDesc, result⟩ := main
  refine mainView.trans ?_
  let start : RuleAddState := ⟨added, rule.keyL proto, rule.highKey proto high, existDesc⟩
  have startKeys : RuleKeys rule proto start := ⟨0, high, rfl, rfl⟩
  rw [ruleAddRest_hdl ctx start]
  split
  · exact SameView.refl added
  · split
    · exact SameView.refl added
    · split
      · exact (dpiAddAppRule_sameView unseen ctx startKeys _).trans
          (addAppRules_sameView unseen ctx rule.appRules (dpiAddAppRule_keys _ ctx startKeys _))
      · exact addAppRules_sameView unseen ctx rule.appRules startKeys

end

end View

end PolicyQuery

end NeuVector.DataPath
