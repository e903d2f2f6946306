import NeuVector.DataPath.PolicyRuleInsertion
import NeuVector.DataPath.SessionPolicy

/-!
# First match in list order

The specification of a policy is a scan of its rule list.  The tables built
from the list represent it for a query when the lookup reports the verdict of
the scan.  The invariant below carries, besides the two verdicts, what the
insertion of a later rule inspects: the entries that stand for an unknown
application must belong to application rules as long as the scan falls
through for the application of the query.
-/

namespace NeuVector.DataPath

open Library

variable (rules : List PolicyRule) (rule : PolicyRule) (query : PolicyQuery) (app : UInt32)

namespace PolicyRule

/-- A rule without protocol stands for TCP and UDP. -/
def matchesProto (proto : UInt16) : Bool :=
  if rule.proto > 0 then rule.proto == proto
  else proto == ipprotoTcp || proto == ipprotoUdp

/-- The rule applies to a query; an external address is also compared as the
zero address. -/
def covers : Bool :=
  rule.ingress == query.isIngress && rule.matchesProto query.key.proto &&
    query.reached rule.contains

/-- The decision of one rule for an application, zero being unknown. -/
def decidesAt : Option Verdict :=
  if rule.covers query then
    if rule.action = .actionCheckApp ∧ app ≠ 0 then
      (rule.appRules.find? fun appRule => appRuleMatches appRule app).map
        fun appRule => { id := appRule.ruleId, action := appRule.action }
    else some { id := rule.id, action := rule.action }
  else none

end PolicyRule

/-- The verdict of the first rule of the list that decides. -/
def firstDecision : Option Verdict := rules.findSome? fun rule => rule.decidesAt query app

/-- First match in list order, with the default action at the end. -/
def firstMatch (defAction : PolicyAction) (query : PolicyQuery) : Verdict :=
  (firstDecision rules query query.key.app).getD { id := 0, action := defAction }

/-- The lookups of a session: first with an unknown application, and with the
application only when the verdict asks for it. -/
def sessionVerdict (env : LookupEnv) (map : UnknownIpMap) (hdl : PolicyHdl)
    (p : LookupPacket) : Verdict :=
  let result := dpiPolicyLookup env p (some hdl) 0 map
  if result.2.action = .actionCheckApp ∧ p.key.app ≠ 0 then
    (dpiPolicyLookup env p (some hdl) p.key.app result.1).2.verdict
  else result.2.verdict

def PolicyQuery.packet : LookupPacket :=
  { supported := true, key := query.key, isIngress := query.isIngress }

/-- The verdict of a default action on internal traffic is opened where the
check of unknown addresses grants it. -/
def graced (env : LookupEnv) (map : UnknownIpMap) (ver : UInt16) (p : LookupPacket)
    (verdict : Verdict) : Verdict :=
  let peer := p.key.peer p.isIngress
  if verdict.id = 0 ∧ (verdict.action = .actionViolate ∨ verdict.action = .actionDeny) ∧
      env.ctx.isIp4Internal peer = true ∧ env.isPolicyAddr peer = false ∧
      opensUnknown map env.tick ver (p.key.sip, p.key.dip) (env.ctx.ip4Iptype peer) = true then
    { id := 0, action := .actionOpen }
  else verdict

theorem dpiPolicyLookup_verdict (env : LookupEnv) {p : LookupPacket} (hdl : PolicyHdl)
    (map : UnknownIpMap) (supported : p.supported = true) {desc : PolicyDesc}
    (found : dpiPolicyLookupByKey env.ctx (some hdl) (p.key.withApp app) p.isIngress emptyDesc =
      desc) :
    (dpiPolicyLookup env p (some hdl) app map).2.verdict =
        (if desc.flags &&& descInternal ≠ 0 ∧ policyImplicitDefault hdl desc = true ∧
            env.isPolicyAddr (p.key.peer p.isIngress) = false ∧
            opensUnknown map env.tick hdl.ver (p.key.sip, p.key.dip)
              (env.ctx.ip4Iptype (p.key.peer p.isIngress)) = true then
          { id := desc.id, action := .actionOpen }
        else desc.verdict) ∧
      ((dpiPolicyLookup env p (some hdl) app map).2.action = .actionCheckApp →
        (dpiPolicyLookup env p (some hdl) app map).1 = map) := by
  obtain ⟨sameId, answer⟩ := dpiPolicyChkUnknownIp_desc map env.tick hdl.ver
    (p.key.sip, p.key.dip) (env.ctx.ip4Iptype (p.key.peer p.isIngress)) desc
  unfold dpiPolicyLookup
  simp only [supported, found, Bool.not_true, Bool.false_eq_true, if_false, Option.any_some,
    Option.map_some, Option.getD_some, Bool.and_eq_true, decide_eq_true_eq, Bool.not_eq_true']
  by_cases checked : (desc.flags &&& descInternal ≠ 0 ∧ policyImplicitDefault hdl desc = true) ∧
      env.isPolicyAddr (p.key.peer p.isIngress) = false
  · obtain ⟨⟨internal, implicit⟩, unlisted⟩ := checked
    have default : desc.action = .actionViolate ∨ desc.action = .actionDeny := by
      simpa [policyImplicitDefault] using (Bool.and_eq_true_iff.mp implicit).2
    rw [if_pos ⟨⟨internal, implicit⟩, unlisted⟩, answer]
    simp only [PolicyDesc.verdict, sameId, answer, internal, implicit, unlisted, ne_eq,
      not_false_eq_true, true_and]
    constructor
    · split <;> rfl
    · intro asks
      split at asks
      · cases asks
      · rw [asks] at default
        simp at default
  · rw [if_neg checked, if_neg fun all => checked ⟨⟨all.1, all.2.1⟩, all.2.2.1⟩]
    exact ⟨rfl, fun _ => rfl⟩

/-- A numbered rule without domain name whose local address is exact. -/
structure WellFormed (rule : PolicyRule) : Prop where
  noFqdn : rule.fqdn = ""
  numbered : 0 < rule.id
  appsNumbered : ∀ appRule ∈ rule.appRules, 0 < appRule.ruleId
  ownExact : if rule.ingress then rule.dip = rule.dipR
    else rule.sip = rule.sipR

/-- No exact rule of the other direction has the key of the query. -/
def NotCrossed (rule : PolicyRule) : Prop :=
  rule.ingress ≠ query.isIngress → rule.isRange = false → rule.matchesProto query.key.proto = true →
    query.reached rule.contains = false

def SameAddresses (first second : PolicyRule) : Prop :=
  first.sip = second.sip ∧ first.sipR = second.sipR ∧
    first.dip = second.dip ∧ first.dipR = second.dipR ∧
    first.dport = second.dport ∧ first.dportR = second.dportR ∧
    first.ingress = second.ingress

/-- No rule of the list decides for the application of the query. -/
def Unsettled (rules : List PolicyRule) : Prop := firstDecision rules query query.key.app = none

/-- A plain rule the scan falls through to, for the application of the query,
stands at the very key of the query or repeats the addresses of an earlier
application rule. -/
def FallsThrough (before : List PolicyRule) (rule : PolicyRule) : Prop :=
  rule.action ≠ .actionCheckApp → rule.covers query = true → Unsettled query before →
    (∃ first, before.find? (fun rule => rule.covers query) = some first) →
    (rule.isRange = false ∧ rule.contains query.key = true) ∨
      ∃ earlier ∈ before, earlier.action = .actionCheckApp ∧ SameAddresses earlier rule ∧
        earlier.matchesProto query.key.proto = true

def Undecided (rules : List PolicyRule) : Prop :=
  ∀ first, rules.find? (fun rule => rule.covers query) = some first → first.action = .actionCheckApp

/-- An item for the unknown application only that matches the query. -/
def UnknownItem (item : RangeRuleItem) : Prop :=
  item.keyL.app = 0 ∧ item.keyH.app = 0 ∧ (ruleKeyInRange item (query.key.withApp 0) = true ∨
      (query.external = true ∧ ruleKeyInRange item (query.zeroPeer.withApp 0) = true))

/-- The main entry of an application rule has been stored. -/
structure StoredCheck (query : PolicyQuery) (hdl : PolicyHdl) (rule : PolicyRule) : Prop where
  range : rule.isRange = true → ∃ item ∈ query.items hdl,
    item.keyL = rule.keyL query.key.proto ∧ item.keyH = rule.keyR query.key.proto
  exact : rule.isRange = false → query.external = true → rule.contains query.zeroPeer = true →
    (query.zero hdl 0).isSome = true

def ruleOrder : UInt32 := UInt32.ofNat rules.length

/-- The tables represent the rule list for the query. -/
structure Represents (query : PolicyQuery) (rules : List PolicyRule) (hdl : PolicyHdl) : Prop where
  loading : query.Loading (fun _ => false) (ruleOrder rules) hdl
  unknown : (query.seen hdl 0).map PolicyDesc.verdict = firstDecision rules query 0
  known : Undecided query rules → query.key.app ≠ 0 →
    (query.seen hdl query.key.app).map PolicyDesc.verdict =
      firstDecision rules query query.key.app
  zeroCheck : Unsettled query rules → query.external = true →
    ∀ desc, query.zero hdl 0 = some desc → desc.action = .actionCheckApp
  itemCheck : Unsettled query rules → ∀ item ∈ query.items hdl,
    UnknownItem query item → item.desc.action = .actionCheckApp
  stored : ∀ rule ∈ rules, rule.action = .actionCheckApp →
    rule.covers query = true → StoredCheck query hdl rule

theorem firstDecision_append :
    firstDecision (rules ++ [rule]) query app =
      (firstDecision rules query app).or (rule.decidesAt query app) := by
  unfold firstDecision
  cases decision : rule.decidesAt query app <;> simp [decision]

variable {rules : List PolicyRule} {query : PolicyQuery}

theorem Undecided.of_append {rule : PolicyRule} (undecided : Undecided query (rules ++ [rule])) :
    Undecided query rules := by
  intro first found
  apply undecided
  rw [List.find?_append, found]
  rfl

theorem Unsettled.of_append {rule : PolicyRule} (unsettled : Unsettled query (rules ++ [rule])) :
    Unsettled query rules ∧
      (rule.covers query = true → rule.action = .actionCheckApp) := by
  unfold Unsettled at unsettled
  rw [firstDecision_append, Option.or_eq_none_iff] at unsettled
  refine ⟨unsettled.1, ?_⟩
  intro covers
  by_contra plain
  have decided := unsettled.2
  simp [PolicyRule.decidesAt, covers, plain] at decided

theorem Unsettled.undecided (unsettled : Unsettled query rules) : Undecided query rules := by
  intro first found
  by_contra plain
  have undecided := List.findSome?_eq_none_iff.mp unsettled first (List.mem_of_find?_eq_some found)
  have covers := List.find?_some found
  simp [PolicyRule.decidesAt, covers, plain] at undecided

theorem Undecided.earlier_of_plain {rule : PolicyRule}
    (undecided : Undecided query (rules ++ [rule])) (plain : rule.action ≠ .actionCheckApp)
    (covers : rule.covers query = true) :
    ∃ first, rules.find? (fun rule => rule.covers query) = some first := by
  cases found : rules.find? (fun rule => rule.covers query) with
  | some first => exact ⟨first, rfl⟩
  | none =>
    have isFirst : (rules ++ [rule]).find? (fun rule => rule.covers query) = some rule := by
      rw [List.find?_append, found]
      simp [covers]
    exact absurd (undecided rule isFirst) plain

theorem firstDecision_zero :
    firstDecision rules query 0 = (rules.find? fun rule => rule.covers query).map
        fun rule => { id := rule.id, action := rule.action } := by
  unfold firstDecision
  induction rules with
  | nil => rfl
  | cons rule rest induction =>
    cases covers : rule.covers query with
    | true => simp [PolicyRule.decidesAt, covers]
    | false => simpa [List.findSome?_cons, PolicyRule.decidesAt, covers] using induction

theorem toNat_ruleOrder (short : rules.length < 4294967296) :
    (ruleOrder rules).toNat = rules.length := by exact UInt32.toNat_ofNat_of_lt' short

theorem ruleOrder_lt_append (short : rules.length + 1 < 4294967295) :
    ruleOrder rules < ruleOrder (rules ++ [rule]) := by
  rw [UInt32.lt_iff_toNat_lt, toNat_ruleOrder (by omega), toNat_ruleOrder (by simp; omega)]
  simp

theorem ruleOrder_append : ruleOrder (rules ++ [rule]) = ruleOrder rules + 1 := by
  unfold ruleOrder
  simp [UInt32.ofNat_add]

theorem ruleOrder_lt_noOrder (short : rules.length < 4294967295) : ruleOrder rules < noOrder := by
  rw [UInt32.lt_iff_toNat_lt, toNat_ruleOrder (by omega)]
  have limit : noOrder.toNat = 4294967295 := by decide
  omega

namespace PolicyQuery.Loading

variable {query : PolicyQuery} {contains : RuleKey → Bool} {order : UInt32} {hdl : PolicyHdl}

theorem next (loading : query.Loading contains order hdl)
    (other : RuleKey → Bool) {later : UInt32} (less : order < later)
    (bound : later < noOrder) : query.Loading other later hdl where
  __ := loading
  orderBound := bound
  itemBound := fun item member =>
    ⟨(loading.itemBound item member).1,
      UInt32.le_of_lt (UInt32.lt_of_le_of_lt (loading.itemBound item member).2 less)⟩
  ownBound := fun app desc found =>
    ⟨(loading.ownBound app desc found).1,
      UInt32.le_of_lt (UInt32.lt_of_le_of_lt (loading.ownBound app desc found).2 less)⟩
  zeroBound := fun external app desc found =>
    ⟨(loading.zeroBound external app desc found).1,
      UInt32.le_of_lt (UInt32.lt_of_le_of_lt (loading.zeroBound external app desc found).2 less)⟩
  tie := by
    intro external _ app desc found same
    have bounded := (loading.zero_bound external found).2
    rw [same] at bounded
    exact absurd less (UInt32.not_lt.mpr bounded)

theorem forget (loading : query.Loading contains order hdl) :
    query.Loading (fun _ => false) order hdl where
  __ := loading
  tie := by
    intro _ impossible
    simp at impossible

end PolicyQuery.Loading

section MainEntry

variable {query : PolicyQuery} {rules : List PolicyRule} {rule : PolicyRule}
  {hdl : PolicyHdl} {order high : UInt32}

open PolicyQuery

theorem mainEntry_outcome_range (hashed : query.Hashed rule query.key.proto)
    (isRange : rule.isRange = true) :
    (mainEntry query.ctx hdl rule query.key.proto high order).2 =
      match findSameItem (query.items hdl) (rule.keyL query.key.proto)
          ((rule.keyR query.key.proto).withApp high) with
      | some same => (same.desc, 0)
      | none => (emptyDesc, 1) := by
  rw [mainEntry_range query.ctx isRange]
  have spec := dpiRangeRuleAdd_spec hdl (rule.desc order) emptyDesc (hashed.rangeKey 0 high)
  have outcome := spec.outcome
  change match findSameItem (query.items hdl) (rule.keyL query.key.proto)
      ((rule.keyR query.key.proto).withApp high) with
    | some same => _ = (same.desc, (0 : Int))
    | none => _ = (emptyDesc, (1 : Int)) at outcome
  split at outcome <;> simp_all

theorem mainEntry_outcome_exact (hashed : query.Hashed rule query.key.proto)
    (isRange : rule.isRange = false) :
    (mainEntry query.ctx hdl rule query.key.proto high order).2 =
      (query.existing hdl (rule.keyL query.key.proto) 0 emptyDesc,
        if (query.existing hdl (rule.keyL query.key.proto) 0 emptyDesc).id ≠ 0 then 0 else 1) := by
  have direction : rule.dir.isIngress = query.isIngress := rule.dir_isIngress.trans hashed.direction
  rw [mainEntry_exact query.ctx isRange]
  simp only [dpiRuleAddOne, direction]
  change (if (query.existing hdl (rule.keyL query.key.proto) 0
    emptyDesc).id ≠ 0 then _ else _ : PolicyHdl × PolicyDesc × Int).2 = _
  by_cases nonzero : (query.existing hdl (rule.keyL query.key.proto) 0 emptyDesc).id ≠ 0
  · rw [if_pos nonzero, if_pos nonzero]
    rfl
  · rw [if_neg nonzero, if_neg nonzero]
    rfl

theorem inRange_of_sameKeys {item : RangeRuleItem} {proto : UInt16}
    (low : item.keyL = rule.keyL proto) (high : item.keyH = rule.keyR proto) (key : RuleKey) :
    ruleKeyInRange item (key.withApp 0) = rule.contains key := by
  have same : ruleKeyInRange item (key.withApp 0) =
      ruleKeyInRange (rule.item proto 0 0 item.desc) (key.withApp 0) :=
    ruleKeyInRange_congr low high (key.withApp 0)
  have inside : isXInRange (0 : UInt32) 0 0 = true := by decide
  rw [same]
  change (rule.contains key && isXInRange 0 0 0) = rule.contains key
  rw [inside, Bool.and_true]

theorem seen_zero_check (represents : Represents query rules hdl)
    (undecided : Undecided query rules) {desc : PolicyDesc} (found : query.seen hdl 0 = some desc) :
    desc.action = .actionCheckApp := by
  have unknown := represents.unknown
  rw [found, firstDecision_zero] at unknown
  cases first : rules.find? (fun rule => rule.covers query) with
  | none => simp [first] at unknown
  | some earliest =>
    rw [first] at unknown
    have actions := congrArg Verdict.action (Option.some.inj unknown)
    exact actions.trans (undecided earliest first)

theorem existing_found {found : Option PolicyDesc} {desc : PolicyDesc}
    (same : desc.verdict = (found.getD (notFoundDesc hdl)).verdict) (nonzero : desc.id ≠ 0) :
    ∃ kept, found = some kept ∧ desc.action = kept.action := by
  have present := verdict_getD_id_ne_zero same nonzero
  obtain ⟨kept, isKept⟩ := Option.isSome_iff_exists.mp present
  rw [isKept] at same
  exact ⟨kept, isKept, congrArg Verdict.action same⟩

theorem mainEntry_found_check (represents : Represents query rules hdl)
    (unsettled : Unsettled query rules) (hashed : query.Hashed rule query.key.proto)
    (reached : query.reached rule.contains = true) (notLimit : rule.isRange = true → high = 0)
    (existed : (mainEntry query.ctx hdl rule query.key.proto high order).2.2 = 0)
    (positive : (mainEntry query.ctx hdl rule query.key.proto high order).2.1.id > 0) :
    (mainEntry query.ctx hdl rule query.key.proto high order).2.1.action = .actionCheckApp := by
  have reachedCases := reached
  unfold PolicyQuery.reached at reachedCases
  simp only [Bool.or_eq_true, Bool.and_eq_true] at reachedCases
  cases isRange : rule.isRange with
  | true =>
    have zeroHigh := notLimit isRange
    subst zeroHigh
    rw [mainEntry_outcome_range hashed isRange] at existed positive ⊢
    cases found : findSameItem (query.items hdl) (rule.keyL query.key.proto)
        ((rule.keyR query.key.proto).withApp 0) with
    | none => simp [found] at existed
    | some same =>
      obtain ⟨member, low, high⟩ := findSameItem_spec found
      apply represents.itemCheck unsettled same member
      refine ⟨by rw [low]; rfl, by rw [high]; rfl, ?_⟩
      rw [inRange_of_sameKeys low high, inRange_of_sameKeys low high]
      exact reachedCases
  | false =>
    rw [mainEntry_outcome_exact hashed isRange] at existed positive ⊢
    have nonzero : (query.existing hdl (rule.keyL query.key.proto) 0 emptyDesc).id ≠ 0 := by
      intro isZero
      simp [isZero] at existed
    have exactAt := hashed.exactAt isRange
    rcases reachedCases with containsOwn | ⟨external, containsZero⟩
    · obtain ⟨desc, found, action⟩ := existing_found
        (existing_own represents.loading exactAt containsOwn) nonzero
      exact action.trans (seen_zero_check represents unsettled.undecided found)
    · obtain ⟨desc, found, action⟩ := existing_found
        (existing_zero represents.loading exactAt external containsZero) nonzero
      exact action.trans (represents.zeroCheck unsettled external desc found)

theorem existing_id_pos {found : Option PolicyDesc} {desc : PolicyDesc}
    (same : desc.verdict = (found.getD (notFoundDesc hdl)).verdict) (present : found.isSome = true)
    (numbered : ∀ kept, found = some kept → 0 < kept.id) : desc.id > 0 := by
  obtain ⟨kept, equality⟩ := Option.isSome_iff_exists.mp present
  rw [equality] at same
  have ids : desc.id = kept.id := congrArg Verdict.id same
  rw [ids]
  exact numbered kept equality

theorem seen_isSome_of_prior (represents : Represents query rules hdl)
    (prior : ∃ first, rules.find? (fun rule => rule.covers query) =
      some first) : (query.seen hdl 0).isSome = true := by
  obtain ⟨first, found⟩ := prior
  have unknown := represents.unknown
  rw [firstDecision_zero, found] at unknown
  cases seen : query.seen hdl 0 with
  | some desc => rfl
  | none => simp [seen] at unknown

theorem mainEntry_existed (order : UInt32) (represents : Represents query rules hdl)
    (hashed : query.Hashed rule query.key.proto)
    (prior : ∃ first, rules.find? (fun rule => rule.covers query) = some first)
    (reached : query.reached rule.contains = true) (notLimit : rule.isRange = true → high = 0)
    (stored : (rule.isRange = false ∧ rule.contains query.key = true) ∨
      StoredCheck query hdl rule) :
    (mainEntry query.ctx hdl rule query.key.proto high order).2.2 = 0 ∧
      (mainEntry query.ctx hdl rule query.key.proto high order).2.1.id > 0 := by
  cases isRange : rule.isRange with
  | true =>
    have zeroHigh := notLimit isRange
    subst zeroHigh
    have check : StoredCheck query hdl rule := by
      rcases stored with ⟨exact, _⟩ | check
      · simp [isRange] at exact
      · exact check
    obtain ⟨item, member, low, high⟩ := check.range isRange
    have present : (findSameItem (query.items hdl) (rule.keyL query.key.proto)
        ((rule.keyR query.key.proto).withApp 0)).isSome = true :=
      findSameItem_isSome member low high
    obtain ⟨same, found⟩ := Option.isSome_iff_exists.mp present
    rw [mainEntry_outcome_range hashed isRange, found]
    exact ⟨rfl, (represents.loading.itemBound same (findSameItem_spec found).1).1⟩
  | false =>
    have exactAt := hashed.exactAt isRange
    have positive : (query.existing hdl (rule.keyL query.key.proto) 0 emptyDesc).id > 0 := by
      by_cases containsOwn : rule.contains query.key = true
      · exact existing_id_pos (existing_own represents.loading exactAt containsOwn)
          (seen_isSome_of_prior represents prior)
          (fun _ found => (represents.loading.seen_bound found).1)
      · unfold PolicyQuery.reached at reached
        simp only [containsOwn, Bool.false_or, Bool.and_eq_true] at reached
        obtain ⟨external, containsZero⟩ := reached
        have check : StoredCheck query hdl rule := by
          rcases stored with ⟨_, inside⟩ | check
          · exact absurd inside containsOwn
          · exact check
        exact existing_id_pos (existing_zero represents.loading exactAt external containsZero)
          (check.exact isRange external containsZero)
          (fun _ found => (represents.loading.zero_bound external found).1)
    have nonzero : (query.existing hdl (rule.keyL query.key.proto) 0 emptyDesc).id ≠ 0 := by
      intro isZero
      rw [isZero] at positive
      exact absurd positive (by decide)
    rw [mainEntry_outcome_exact hashed isRange]
    exact ⟨if_pos nonzero, positive⟩

end MainEntry

namespace SameAddresses

variable {first second : PolicyRule}

section

variable (same : SameAddresses first second)
include same

theorem isRange_eq : first.isRange = second.isRange := by
  obtain ⟨sip, sipR, dip, dipR, dport, dportR, _⟩ := same
  unfold PolicyRule.isRange
  rw [sip, sipR, dip, dipR, dport, dportR]

theorem keyL_eq (proto : UInt16) : first.keyL proto = second.keyL proto := by
  obtain ⟨sip, sipR, dip, dipR, dport, dportR, _⟩ := same
  unfold PolicyRule.keyL
  rw [sip, dip, dport]

theorem keyR_eq (proto : UInt16) : first.keyR proto = second.keyR proto := by
  obtain ⟨sip, sipR, dip, dipR, dport, dportR, _⟩ := same
  unfold PolicyRule.keyR
  rw [sipR, dipR, dportR]

theorem contains_eq : first.contains = second.contains := by
  obtain ⟨sip, sipR, dip, dipR, dport, dportR, _⟩ := same
  unfold PolicyRule.contains
  rw [sip, sipR, dip, dipR, dport, dportR]

theorem storedCheck {query : PolicyQuery} {hdl : PolicyHdl} (stored : StoredCheck query hdl first) :
    StoredCheck query hdl second where
  range := by
    intro isRange
    obtain ⟨item, member, low, high⟩ := stored.range (same.isRange_eq.trans isRange)
    exact ⟨item, member, low.trans (same.keyL_eq _), high.trans (same.keyR_eq _)⟩
  exact := by
    intro isRange external containsZero
    apply stored.exact (same.isRange_eq.trans isRange) external
    rw [same.contains_eq]
    exact containsZero

end

end SameAddresses

open PolicyQuery

/-- The tables after one more rule, for the protocol of the query. -/
def inserted (query : PolicyQuery) (rules : List PolicyRule)
    (rule : PolicyRule) (hdl : PolicyHdl) (high : UInt32) : PolicyHdl :=
  (dpiRuleAdd query.ctx hdl (rule.keyL query.key.proto)
    (rule.highKey query.key.proto high) rule.appRules rule.dir
    (rule.desc (ruleOrder (rules ++ [rule])))).hdl

structure HashedStep (query : PolicyQuery) (rules : List PolicyRule)
    (rule : PolicyRule) (hdl : PolicyHdl) (high : UInt32) : Prop where
  represents : Represents query rules hdl
  wellFormed : WellFormed rule
  hashed : query.Hashed rule query.key.proto
  matched : rule.matchesProto query.key.proto = true
  falls : FallsThrough query rules rule
  short : rules.length + 1 < 4294967295
  highApp : HighApp rule high

namespace HashedStep

variable {query : PolicyQuery} {rules : List PolicyRule} {rule : PolicyRule}
  {hdl : PolicyHdl} {high : UInt32}

section

variable (step : HashedStep query rules rule hdl high)
include step

theorem high_zero (check : rule.action = .actionCheckApp) : high = 0 := by
  rcases step.highApp with isZero | ⟨_, plain⟩
  · exact isZero
  · exact absurd check plain

theorem covers_eq : rule.covers query = query.reached rule.contains := by
  unfold PolicyRule.covers
  simp [step.hashed.direction, step.matched]

theorem loading : query.Loading rule.contains (ruleOrder (rules ++ [rule])) hdl := by
  apply step.represents.loading.next
  · exact ruleOrder_lt_append rule step.short
  · apply ruleOrder_lt_noOrder
    have short := step.short
    simp only [List.length_append, List.length_singleton]
    omega

end

def mainAdded (rules : List PolicyRule) (rule : PolicyRule) (high : UInt32)
    (app : UInt32) : Option PolicyDesc :=
  if mainMatches rule high app then some (rule.desc (ruleOrder (rules ++ [rule])))
  else none

theorem mainAdded_zero : mainAdded rules rule high 0 =
    some (rule.desc (ruleOrder (rules ++ [rule]))) := by
  have low : (0 : UInt32) ≤ high := UInt32.le_iff_toNat_le.mpr (by simp)
  cases isRange : rule.isRange <;>
    simp [mainAdded, mainMatches, isRange, isXInRange, low]

abbrev main (query : PolicyQuery) (rules : List PolicyRule)
    (rule : PolicyRule) (hdl : PolicyHdl) (high : UInt32) :
    PolicyHdl × PolicyDesc × Int :=
  mainEntry query.ctx hdl rule query.key.proto high (ruleOrder (rules ++ [rule]))

theorem mainGrown (step : HashedStep query rules rule hdl high) :
    query.Grown rule.contains (ruleOrder (rules ++ [rule]))
      (mainAdded rules rule high) hdl (main query rules rule hdl high).1 :=
  mainEntry_grown step.hashed step.loading high step.wellFormed.numbered

theorem restGrown (step : HashedStep query rules rule hdl high) :
    query.AppsAdded rule (ruleOrder (rules ++ [rule]))
      (restAdded rule (ruleOrder (rules ++ [rule])) (main query rules rule hdl high).2)
      (main query rules rule hdl high).1
      (inserted query rules rule hdl high) := by
  unfold inserted
  exact ruleAddRest_added step.hashed high step.mainGrown.loading
    (mainEntry_nonneg query.ctx high) step.wellFormed.numbered step.wellFormed.appsNumbered

def ruleAdded (query : PolicyQuery) (rules : List PolicyRule)
    (rule : PolicyRule) (hdl : PolicyHdl) (high : UInt32) (app : UInt32) :
    Option PolicyDesc :=
  (mainAdded rules rule high app).or
    (restAdded rule (ruleOrder (rules ++ [rule])) (main query rules rule hdl high).2 app)

theorem grown (step : HashedStep query rules rule hdl high) :
    query.Grown rule.contains (ruleOrder (rules ++ [rule]))
      (ruleAdded query rules rule hdl high) hdl
      (inserted query rules rule hdl high) :=
  step.mainGrown.trans step.restGrown.grown

theorem ruleAdded_zero : ruleAdded query rules rule hdl high 0 =
    some (rule.desc (ruleOrder (rules ++ [rule]))) := by
  unfold ruleAdded
  rw [mainAdded_zero]
  rfl

section

variable (step : HashedStep query rules rule hdl high)
include step

theorem counterpart (unsettled : Unsettled query rules)
    (prior : ∃ first, rules.find? (fun rule => rule.covers query) = some first)
    (plain : rule.action ≠ .actionCheckApp) (covers : rule.covers query = true) :
    (rule.isRange = false ∧ rule.contains query.key = true) ∨ StoredCheck query hdl rule := by
  rcases step.falls plain covers unsettled prior with exact | repeated
  · exact Or.inl exact
  · obtain ⟨earlier, member, check, same, proto⟩ := repeated
    apply Or.inr
    apply same.storedCheck
    apply step.represents.stored earlier member check
    rw [step.covers_eq] at covers
    unfold PolicyRule.covers
    rw [same.contains_eq, covers, proto, same.2.2.2.2.2.2, step.hashed.direction]
    simp

section

variable (unsettled : Unsettled query rules) (covers : rule.covers query = true)
include unsettled covers

theorem notBlocked (notLimit : rule.isRange = true → high = 0) :
    ¬ ((main query rules rule hdl high).2.2 = 0 ∧ (main query rules rule hdl high).2.1.id > 0 ∧
      (main query rules rule hdl high).2.1.action ≠ .actionCheckApp) := by
  rintro ⟨existed, positive, notCheck⟩
  rw [step.covers_eq] at covers
  exact notCheck (mainEntry_found_check step.represents unsettled step.hashed covers notLimit
    existed positive)

theorem ruleAdded_plain (plain : rule.action ≠ .actionCheckApp)
    (prior : ∃ first, rules.find? (fun rule => rule.covers query) = some first) (app : UInt32) :
    ruleAdded query rules rule hdl high app = some (rule.desc (ruleOrder (rules ++ [rule]))) := by
  unfold ruleAdded mainAdded
  by_cases limited : rule.isRange = true ∧ high = appLimit
  · simp [mainMatches, limited.1, limited.2, isXInRange_zero_appLimit]
  · have notLimit : rule.isRange = true → high = 0 := by
      intro isRange
      rcases step.highApp with isZero | ⟨isLimit, _⟩
      · exact isZero
      · exact absurd ⟨isRange, isLimit⟩ limited
    have reached := covers
    rw [step.covers_eq] at reached
    obtain ⟨existed, positive⟩ := mainEntry_existed (ruleOrder (rules ++ [rule])) step.represents
      step.hashed prior reached notLimit (step.counterpart unsettled prior plain covers)
    have any : (main query rules rule hdl high).2.2 = 0 ∧
        (main query rules rule hdl high).2.1.id > 0 ∧
        rule.action ≠ .actionCheckApp := ⟨existed, positive, plain⟩
    unfold restAdded
    rw [if_neg (step.notBlocked unsettled covers notLimit), if_pos any]
    cases mainMatches rule high app <;> simp

theorem ruleAdded_check (check : rule.action = .actionCheckApp) {app : UInt32} (known : app ≠ 0) :
    ruleAdded query rules rule hdl high app = firstAppDesc (rule.desc (ruleOrder (rules ++ [rule])))
        rule.appRules app := by
  have zeroHigh := step.high_zero check
  have unmatched : mainMatches rule high app = false := by
    rw [zeroHigh]
    cases isRange : rule.isRange <;>
      simp [mainMatches, isRange, known, isXInRange_uint32_self]
  have notAny : ¬ ((main query rules rule hdl high).2.2 = 0 ∧
      (main query rules rule hdl high).2.1.id > 0 ∧
      rule.action ≠ .actionCheckApp) := fun any => any.2.2 check
  unfold ruleAdded mainAdded restAdded
  rw [if_neg (step.notBlocked unsettled covers fun _ => zeroHigh), if_neg notAny]
  simp [unmatched]

end

theorem seen_map :
    (query.seen (inserted query rules rule hdl high) app).map PolicyDesc.verdict =
      ((query.seen hdl app).map PolicyDesc.verdict).or (if rule.covers query then
          (ruleAdded query rules rule hdl high app).map PolicyDesc.verdict
        else none) := by
  rw [step.grown.adds app, step.covers_eq]
  cases query.reached rule.contains <;>
    cases query.seen hdl app <;> simp

theorem unknown :
    (query.seen (inserted query rules rule hdl high) 0).map PolicyDesc.verdict =
      firstDecision (rules ++ [rule]) query 0 := by
  rw [step.seen_map, step.represents.unknown, firstDecision_append, ruleAdded_zero]
  cases covers : rule.covers query <;>
    simp [PolicyRule.decidesAt, covers, PolicyDesc.verdict, PolicyRule.desc]

theorem known (undecided : Undecided query (rules ++ [rule])) (nonzero : query.key.app ≠ 0) :
    (query.seen (inserted query rules rule hdl high) query.key.app).map PolicyDesc.verdict =
      firstDecision (rules ++ [rule]) query query.key.app := by
  rw [step.seen_map, step.represents.known undecided.of_append nonzero, firstDecision_append]
  cases settled : firstDecision rules query query.key.app with
  | some verdict => rfl
  | none =>
    unfold PolicyRule.decidesAt
    cases covers : rule.covers query with
    | false => rfl
    | true =>
      simp only [if_true]
      by_cases check : rule.action = .actionCheckApp
      · rw [step.ruleAdded_check settled covers check nonzero, if_pos ⟨check, nonzero⟩]
        unfold firstAppDesc
        rw [Option.map_map]
        rfl
      · rw [step.ruleAdded_plain settled covers check (undecided.earlier_of_plain check covers),
          if_neg (fun both => check both.1)]
        rfl

section

variable (unsettled : Unsettled query (rules ++ [rule]))
include unsettled

theorem zeroCheck (external : query.external = true) (desc : PolicyDesc)
    (found : query.zero (inserted query rules rule hdl high) 0 =
      some desc) : desc.action = .actionCheckApp := by
  obtain ⟨before, check⟩ := unsettled.of_append
  rw [step.grown.zeroAdds external, ruleAdded_zero] at found
  rcases Option.or_eq_some_iff.mp found with old | ⟨_, new⟩
  · exact step.represents.zeroCheck before external desc old
  · split at new
    next containsZero =>
      rw [← Option.some.inj new]
      apply check
      rw [step.covers_eq]
      simp [reached, external, containsZero]
    · simp at new

theorem itemCheck (item : RangeRuleItem)
    (member : item ∈ query.items (inserted query rules rule hdl high))
    (unknown : UnknownItem query item) :
    item.desc.action = .actionCheckApp := by
  obtain ⟨before, check⟩ := unsettled.of_append
  have inMain := step.restGrown.items item member unknown.1 unknown.2.1
  have old := step.represents.itemCheck before item
  cases isRange : rule.isRange with
  | false =>
    rw [mainEntry_items_exact isRange] at inMain
    exact old inMain unknown
  | true =>
    rw [mainEntry_items_range step.hashed isRange] at inMain
    rcases mem_appendItem inMain with inOld | same
    · exact old inOld unknown
    · obtain ⟨low, highZero, matched⟩ := unknown
      have highApp : high = 0 := by
        rw [same] at highZero
        exact highZero
      subst highApp
      rw [same]
      apply check
      have sameLow : item.keyL = rule.keyL query.key.proto := by
        rw [same]
        rfl
      have sameHigh : item.keyH = rule.keyR query.key.proto := by
        rw [same]
        rfl
      rw [inRange_of_sameKeys sameLow sameHigh, inRange_of_sameKeys sameLow sameHigh] at matched
      rw [step.covers_eq]
      unfold reached
      simpa using matched

end

theorem stored (other : PolicyRule) (member : other ∈ rules ++ [rule])
    (check : other.action = .actionCheckApp) (covers : other.covers query = true) :
    StoredCheck query (inserted query rules rule hdl high) other := by
  rcases List.mem_append.mp member with old | new
  · have before := step.represents.stored other old check covers
    refine ⟨?_, ?_⟩
    · intro isRange
      obtain ⟨item, itemMember, keys⟩ := before.range isRange
      exact ⟨item, step.grown.kept item itemMember, keys⟩
    · intro isRange external containsZero
      obtain ⟨desc, found⟩ :=
        Option.isSome_iff_exists.mp (before.exact isRange external containsZero)
      rw [step.grown.zeroAdds external, found]
      rfl
  · have same : other = rule := List.mem_singleton.mp new
    subst same
    refine ⟨?_, ?_⟩
    · intro isRange
      have zeroHigh := step.high_zero check
      subst zeroHigh
      obtain ⟨item, itemMember, low, high⟩ := mem_appendItem_self
        (query.items hdl) (other.item query.key.proto 0 0
          (other.desc (ruleOrder (rules ++ [other]))))
      rw [← mainEntry_items_range step.hashed isRange] at itemMember
      exact ⟨item, step.restGrown.grown.kept item itemMember, low, high⟩
    · intro isRange external containsZero
      rw [step.grown.zeroAdds external, ruleAdded_zero, if_pos containsZero]
      cases query.zero hdl 0 <;> rfl

theorem next : Represents query (rules ++ [rule]) (inserted query rules rule hdl high) where
  loading := step.grown.loading.forget
  unknown := step.unknown
  known := step.known
  zeroCheck := step.zeroCheck
  itemCheck := step.itemCheck
  stored := step.stored

end

end HashedStep

end NeuVector.DataPath
