import NeuVector.DataPath.PolicyFirstMatch

/-!
# The loaded tables refine first match

Running the insertion over a rule list keeps the representation invariant,
the default entry added at the end is seen only where no rule applies, and
the two lookups of a session then report the verdict of the scan.
-/

namespace NeuVector.DataPath

open Library List

open PolicyQuery

variable (app : UInt32)

namespace PolicyQuery.SameView

variable {query : PolicyQuery} {before after : PolicyHdl}

section

variable (view : query.SameView before after)
include view

theorem items_eq : query.items after = query.items before := by
  unfold items directedItems
  rw [view.range]

theorem own_eq : query.own after app = query.own before app := by
  rw [query.own_eq, query.own_eq, view.items_eq, view.own]

theorem zero_eq (external : query.external = true) (app : UInt32) :
    query.zero after app = query.zero before app := by
  rw [query.zero_eq, query.zero_eq, view.items_eq, view.zero external]

theorem seen_eq : query.seen after app = query.seen before app := by
  unfold seen
  split
  next external => rw [view.own_eq, view.zero_eq external]
  · exact view.own_eq app

theorem loading {contains : RuleKey → Bool} {order : UInt32}
    (loading : query.Loading contains order before) :
    query.Loading contains order after where
  orderBound := loading.orderBound
  fqdnFree := by
    rw [view.flag]
    exact loading.fqdnFree
  undirected := by
    have undirected := loading.undirected
    unfold NoUndirected at undirected ⊢
    rw [view.undirected]
    exact undirected
  ownNotImplicit := by
    rw [view.applyDir]
    exact loading.ownNotImplicit
  zeroNotImplicit := by
    rw [view.applyDir]
    exact loading.zeroNotImplicit
  itemBound := by
    rw [view.items_eq]
    exact loading.itemBound
  ownBound := by
    intro app desc found
    rw [view.own] at found
    exact loading.ownBound app desc found
  zeroBound := by
    intro external app desc found
    rw [view.zero external] at found
    exact loading.zeroBound external app desc found
  tie := by
    intro external inside app desc found same
    rw [view.zero_eq external] at found
    rw [view.own_eq]
    exact loading.tie external inside app desc found same

theorem represents {rules : List PolicyRule} (represents : Represents query rules before) :
    Represents query rules after where
  loading := view.loading represents.loading
  unknown := by
    rw [view.seen_eq]
    exact represents.unknown
  known := by
    intro undecided nonzero
    rw [view.seen_eq]
    exact represents.known undecided nonzero
  zeroCheck := by
    intro unsettled external desc found
    rw [view.zero_eq external] at found
    exact represents.zeroCheck unsettled external desc found
  itemCheck := by
    rw [view.items_eq]
    exact represents.itemCheck
  stored := by
    intro rule member check covers
    have stored := represents.stored rule member check covers
    refine ⟨?_, ?_⟩
    · rw [view.items_eq]
      exact stored.range
    · intro isRange external containsZero
      rw [view.zero_eq external]
      exact stored.exact isRange external containsZero

end

end PolicyQuery.SameView

theorem Represents.skip {query : PolicyQuery} {rules : List PolicyRule}
    {rule : PolicyRule} {hdl : PolicyHdl} (represents : Represents query rules hdl)
    (uncovered : rule.covers query = false) (short : rules.length + 1 < 4294967295) :
    Represents query (rules ++ [rule]) hdl where
  loading := by
    apply represents.loading.next
    · exact ruleOrder_lt_append rule short
    · apply ruleOrder_lt_noOrder
      simp only [length_append, length_singleton]
      omega
  unknown := by
    rw [represents.unknown, firstDecision_append]
    simp [PolicyRule.decidesAt, uncovered]
  known := by
    intro undecided nonzero
    rw [represents.known undecided.of_append nonzero, firstDecision_append]
    simp [PolicyRule.decidesAt, uncovered]
  zeroCheck := fun unsettled => represents.zeroCheck unsettled.of_append.1
  itemCheck := fun unsettled => represents.itemCheck unsettled.of_append.1
  stored := by
    intro other member check covers
    rcases mem_append.mp member with old | new
    · exact represents.stored other old check covers
    · rw [mem_singleton.mp new, uncovered] at covers
      simp at covers

section Classification

variable {query : PolicyQuery} {rule : PolicyRule} {proto : UInt16}

theorem directedRangeKey_inj {first second : RuleKey} {firstDir secondDir : Bool}
    (same : directedRangeKey first firstDir = directedRangeKey second secondDir) :
    firstDir = secondDir ∧ first.proto = second.proto ∧
      first.own firstDir = second.own firstDir := by
  have flags := congrArg RangeRuleKey.flag same
  have protos : first.proto = second.proto := congrArg RangeRuleKey.proto same
  have owns : first.own firstDir = second.own secondDir := congrArg RangeRuleKey.ip same
  have directions : firstDir = secondDir := by
    cases firstDir <;> cases secondDir <;>
      simp [directedRangeKey, rangeRuleIngress, rangeRuleEgress] at flags ⊢
  subst directions
  exact ⟨rfl, protos, owns⟩

theorem unseen_of_not_hashed (notCrossed : NotCrossed query rule)
    (matched : rule.matchesProto proto = true)
    (notHashed : ¬ query.Hashed rule proto) : query.Unseen rule proto := by
  have crossed : ∀ key, rule.isRange = false → key.proto = query.key.proto →
      key.own query.isIngress = query.key.own query.isIngress →
      query.reached rule.contains = true ∨ rule.contains key = false →
      (rule.keyL proto).withApp 0 ≠ key.withApp 0 := by
    intro key isRange sameProto sameOwn inside same
    have protos : proto = key.proto := congrArg RuleKey.proto same
    have owns := congrArg (fun key => RuleKey.own key query.isIngress) same
    have contains : rule.contains key = true := by
      rw [PolicyRule.contains_iff_of_exact isRange, ← protos]
      exact same
    by_cases direction : rule.ingress = query.isIngress
    · apply notHashed
      exact ⟨direction, sameProto.symm.trans protos.symm, owns.trans sameOwn⟩
    · rcases inside with reached | outside
      · have unreached := notCrossed direction isRange (by
          rw [← sameProto, ← protos]
          exact matched)
        rw [reached] at unreached
        simp at unreached
      · rw [contains] at outside
        simp at outside
  refine ⟨?_, ?_, ?_⟩
  · intro same
    obtain ⟨direction, protos, owns⟩ := directedRangeKey_inj same
    rw [direction] at owns
    exact notHashed ⟨direction, protos.symm, owns⟩
  · intro isRange
    apply crossed query.key isRange rfl rfl
    unfold reached
    cases rule.contains query.key <;> simp
  · intro isRange external
    apply crossed query.zeroPeer isRange
    · simp [zeroPeer]
    · simp [zeroPeer]
    · unfold reached
      rw [external]
      cases rule.contains query.zeroPeer <;> simp

theorem own_of_contains (wellFormed : WellFormed rule) {key : RuleKey}
    (contains : rule.contains key = true) :
    (rule.keyL proto).own rule.ingress = key.own rule.ingress := by
  have ownExact := wellFormed.ownExact
  unfold PolicyRule.contains at contains
  simp only [Bool.and_eq_true] at contains
  obtain ⟨⟨_, sipInside⟩, dipInside⟩ := contains
  cases direction : rule.ingress with
  | true =>
    rw [direction] at ownExact
    rw [← ownExact, isXInRange_uint32_self, decide_eq_true_eq] at dipInside
    exact dipInside.symm
  | false =>
    rw [direction] at ownExact
    rw [← ownExact, isXInRange_uint32_self, decide_eq_true_eq] at sipInside
    exact sipInside.symm

theorem hashed_of_covers (wellFormed : WellFormed rule) (covers : rule.covers query = true) :
    query.Hashed rule query.key.proto := by
  unfold PolicyRule.covers at covers
  simp only [Bool.and_eq_true, beq_iff_eq] at covers
  obtain ⟨⟨direction, _⟩, isReached⟩ := covers
  refine ⟨direction, rfl, ?_⟩
  unfold reached at isReached
  simp only [Bool.or_eq_true, Bool.and_eq_true] at isReached
  rw [← direction]
  rcases isReached with containsOwn | ⟨_, containsZero⟩
  · exact own_of_contains wellFormed containsOwn
  · rw [own_of_contains wellFormed containsZero, direction]
    simp [zeroPeer]

end Classification

/-- What the theorem asks of every rule in its place in the list. -/
structure RuleFits (query : PolicyQuery) (before : List PolicyRule) (rule : PolicyRule) : Prop where
  wellFormed : WellFormed rule
  notCrossed : NotCrossed query rule
  falls : FallsThrough query before rule

variable (ctx : IpContext)

section Loop

variable {query : PolicyQuery} {rules : List PolicyRule} {rule : PolicyRule} {hdl : PolicyHdl}

theorem dpiRuleAdd_hashed_represents (high : UInt32) {proto : UInt16}
    (represents : Represents query rules hdl) (fits : RuleFits query rules rule)
    (short : rules.length + 1 < 4294967295) (hashed : query.Hashed rule proto)
    (matched : rule.matchesProto proto = true) (highApp : HighApp rule high) :
    Represents query (rules ++ [rule])
      (dpiRuleAdd query.ctx hdl (rule.keyL proto) (rule.highKey proto high) rule.appRules rule.dir
        (rule.desc (ruleOrder (rules ++ [rule])))).hdl := by
  have sameProto := hashed.sameProto
  subst sameProto
  have step : HashedStep query rules rule hdl high :=
    { represents := represents
      wellFormed := fits.wellFormed
      hashed := hashed
      matched := matched
      falls := fits.falls
      short := short
      highApp := highApp }
  exact step.next

theorem dpiRuleAdd_unseen_represents (high order : UInt32) {proto : UInt16}
    {list : List PolicyRule} (represents : Represents query list hdl)
    (fits : RuleFits query rules rule) (matched : rule.matchesProto proto = true)
    (notHashed : ¬ query.Hashed rule proto) :
    Represents query list (dpiRuleAdd query.ctx hdl (rule.keyL proto) (rule.highKey proto high)
        rule.appRules rule.dir (rule.desc order)).hdl :=
  (dpiRuleAdd_sameView (unseen_of_not_hashed fits.notCrossed matched notHashed)
    query.ctx hdl order high).represents represents

theorem uncovered_of_not_hashed (wellFormed : WellFormed rule)
    (notHashed : ¬ query.Hashed rule query.key.proto) :
    rule.covers query = false := by
  by_contra covers
  exact notHashed (hashed_of_covers wellFormed (by simpa using covers))

theorem uncovered_of_proto (unmatched : rule.matchesProto query.key.proto = false) :
    rule.covers query = false := by simp [PolicyRule.covers, unmatched]

theorem highKey_udp (rule : PolicyRule) (high : UInt32) :
    (rule.highKey ipprotoTcp high).map (fun key => { key with proto := ipprotoUdp }) =
      rule.highKey ipprotoUdp high := by
  unfold PolicyRule.highKey
  cases rule.isRange <;> rfl

theorem addRule_any_eq (hdl : PolicyHdl) (rule : PolicyRule) (order : UInt32)
    (any : ¬ rule.proto > 0) :
    ∃ high, HighApp rule high ∧ addRule ctx hdl rule order = (dpiRuleAdd ctx
          (dpiRuleAdd ctx hdl (rule.keyL ipprotoTcp)
            (rule.highKey ipprotoTcp 0) rule.appRules rule.dir
            (rule.desc order)).hdl
          (rule.keyL ipprotoUdp) (rule.highKey ipprotoUdp high)
          rule.appRules rule.dir (rule.desc order)).hdl := by
  obtain ⟨lowKey, high, highApp, highKey⟩ :=
    dpiRuleAdd_keys ctx hdl rule ipprotoTcp order (Or.inl rfl)
  refine ⟨high, highApp, ?_⟩
  have start : rule.keyH ipprotoTcp = rule.highKey ipprotoTcp 0 := rfl
  unfold addRule
  simp only [if_neg any, start]
  rw [lowKey, highKey, highKey_udp]
  rfl

section

variable (represents : Represents query rules hdl) (fits : RuleFits query rules rule)
  (short : rules.length + 1 < 4294967295)
include represents fits short

theorem addRule_proto_represents (single : rule.proto > 0) :
    Represents query (rules ++ [rule])
      (addRule query.ctx hdl rule (ruleOrder (rules ++ [rule]))) := by
  have matched : rule.matchesProto rule.proto = true := by simp [PolicyRule.matchesProto, single]
  unfold addRule
  simp only [if_pos single]
  by_cases hashed : query.Hashed rule rule.proto
  · exact dpiRuleAdd_hashed_represents 0 represents fits short hashed matched (Or.inl rfl)
  · have uncovered : rule.covers query = false := by
      by_cases sameProto : query.key.proto = rule.proto
      · apply uncovered_of_not_hashed fits.wellFormed
        rw [sameProto]
        exact hashed
      · apply uncovered_of_proto
        simp only [PolicyRule.matchesProto, if_pos single, beq_eq_false_iff_ne]
        exact fun same => sameProto same.symm
    exact dpiRuleAdd_unseen_represents 0 _ (represents.skip uncovered short) fits matched hashed

theorem addRule_any_represents (any : ¬ rule.proto > 0) :
    Represents query (rules ++ [rule])
      (addRule query.ctx hdl rule (ruleOrder (rules ++ [rule]))) := by
  obtain ⟨high, highApp, equality⟩ := addRule_any_eq query.ctx hdl rule
    (ruleOrder (rules ++ [rule])) any
  have tcp : rule.matchesProto ipprotoTcp = true := by simp [PolicyRule.matchesProto, any]
  have udp : rule.matchesProto ipprotoUdp = true := by simp [PolicyRule.matchesProto, any]
  have different : ipprotoTcp ≠ ipprotoUdp := by decide
  rw [equality]
  by_cases hashedTcp : query.Hashed rule ipprotoTcp
  · have added := dpiRuleAdd_hashed_represents 0 represents fits short hashedTcp tcp (Or.inl rfl)
    have notUdp : ¬ query.Hashed rule ipprotoUdp := fun hashedUdp =>
      different (hashedTcp.sameProto.symm.trans hashedUdp.sameProto)
    exact dpiRuleAdd_unseen_represents high _ added fits udp notUdp
  · have first := dpiRuleAdd_unseen_represents 0
      (ruleOrder (rules ++ [rule])) represents fits tcp hashedTcp
    by_cases hashedUdp : query.Hashed rule ipprotoUdp
    · exact dpiRuleAdd_hashed_represents high first fits short hashedUdp udp highApp
    · have uncovered : rule.covers query = false := by
        by_cases isTcp : query.key.proto = ipprotoTcp
        · apply uncovered_of_not_hashed fits.wellFormed
          rw [isTcp]
          exact hashedTcp
        · by_cases isUdp : query.key.proto = ipprotoUdp
          · apply uncovered_of_not_hashed fits.wellFormed
            rw [isUdp]
            exact hashedUdp
          · apply uncovered_of_proto
            simp [PolicyRule.matchesProto, any, isTcp, isUdp]
      exact dpiRuleAdd_unseen_represents high _ (first.skip uncovered short) fits udp hashedUdp

theorem cfgRule_represents :
    (cfgRule query.ctx hdl (ruleOrder rules) rule).2 = ruleOrder (rules ++ [rule]) ∧
      Represents query (rules ++ [rule]) (cfgRule query.ctx hdl (ruleOrder rules) rule).1 := by
  have resolved : resolveFqdn query.ctx rule = some rule := by
    unfold resolveFqdn
    rw [if_pos fits.wellFormed.noFqdn]
  unfold cfgRule
  simp only [resolved, if_pos fits.wellFormed.noFqdn]
  rw [← ruleOrder_append]
  refine ⟨rfl, ?_⟩
  by_cases single : rule.proto > 0
  · exact addRule_proto_represents represents fits short single
  · exact addRule_any_represents represents fits short single

end

theorem cfgRules_represents {before : List PolicyRule} (represents : Represents query before hdl)
    (fits : ∀ front rule back, rules = front ++ rule :: back →
      RuleFits query (before ++ front) rule)
    (short : before.length + rules.length < 4294967295) :
    Represents query (before ++ rules) (cfgRules query.ctx rules (hdl, ruleOrder before)).1 := by
  induction rules generalizing before hdl with
  | nil => simpa [cfgRules] using represents
  | cons rule rest induction =>
    simp only [length_cons] at short
    have headFits : RuleFits query before rule := by simpa using fits [] rule rest rfl
    obtain ⟨order, head⟩ := cfgRule_represents represents headFits (by omega)
    have tail := induction head (by
        intro front other back equality
        have placed := fits (rule :: front) other back (by simp [equality])
        simpa using placed)
      (by simp only [length_append, length_singleton]; omega)
    unfold cfgRules
    rw [← order] at tail
    simpa using tail

end Loop

def icmpRangeKey : RangeRuleKey := { ip := 0, proto := ipprotoIcmp, flag := 0 }

def defaultItem : RangeRuleItem := { desc := defaultDesc, keyL := defaultKeyL, keyH := defaultKeyH }

structure DefaultAdded (before after : PolicyHdl) : Prop where
  policyMap : after.policyMap = before.policyMap
  flag : after.flag = before.flag
  header : after.header = before.header
  icmp : after.rangePolicyMap.lookup icmpRangeKey = some [defaultItem]
  other : ∀ rangeKey, rangeKey ≠ icmpRangeKey →
    after.rangePolicyMap.lookup rangeKey = before.rangePolicyMap.lookup rangeKey

theorem dpiAddDefaultPolicy_added {hdl : PolicyHdl} (directed : AllDirected hdl) :
    DefaultAdded hdl (dpiAddDefaultPolicy ctx hdl) := by
  have absent : hdl.rangePolicyMap.lookup icmpRangeKey = none := directed icmpRangeKey rfl
  have hashed : getRangeKey defaultKeyL defaultKeyH .none = some icmpRangeKey := rfl
  have spec := dpiRangeRuleAdd_spec hdl defaultDesc emptyDesc hashed
  have outcome : (dpiRangeRuleAdd hdl defaultKeyL defaultKeyH .none
      defaultDesc emptyDesc).2 = (emptyDesc, 1) := by
    have cases := spec.outcome
    rw [absent] at cases
    exact cases
  have same : dpiAddDefaultPolicy ctx hdl =
      (dpiRangeRuleAdd hdl defaultKeyL defaultKeyH .none defaultDesc emptyDesc).1 := by
    change (ruleAddRest ctx defaultKeyL (some defaultKeyH) [] .none
      defaultDesc (_, (dpiRangeRuleAdd hdl defaultKeyL defaultKeyH .none
        defaultDesc emptyDesc).2.1, (dpiRangeRuleAdd hdl defaultKeyL
        defaultKeyH .none defaultDesc emptyDesc).2.2)).hdl = _
    rw [outcome]
    rfl
  have header := dpiAddDefaultPolicy_header ctx hdl
  rw [same] at header ⊢
  refine ⟨spec.outside.policyMap, spec.outside.flag, header, ?_, spec.other⟩
  rw [spec.own, absent]
  rfl

def fallbackVerdict (defAction : PolicyAction) (key : RuleKey) : Verdict :=
  if key.proto = ipprotoIcmp ∧ key.dport = 0 ∧ key.app = 0 then { id := 0, action := .actionAllow }
  else { id := 0, action := defAction }

variable (key : RuleKey)

theorem defaultItem_matches :
    ruleKeyInRange defaultItem key = decide (key.dport = 0 ∧ key.app = 0) := by
  have ports : isXInRange key.dport 0 0 = decide (key.dport = 0) :=
    isXInRange_uint16_self key.dport 0
  have apps : isXInRange key.app 0 0 = decide (key.app = 0) := isXInRange_uint32_self key.app 0
  have sips : isXInRange key.sip 0 0xffffffff = true := isXInRange_zero_appLimit key.sip
  have dips : isXInRange key.dip 0 0xffffffff = true := isXInRange_zero_appLimit key.dip
  unfold ruleKeyInRange
  simp only [defaultItem, defaultKeyL, defaultKeyH, ports, apps, sips, dips]
  simp

section Default

variable {before after : PolicyHdl}

section

variable (added : DefaultAdded before after)
include added

theorem DefaultAdded.fallback (directed : AllDirected before) (key : RuleKey) :
    fallbackDesc after key =
      if key.proto = ipprotoIcmp ∧ key.dport = 0 ∧ key.app = 0 then defaultDesc
      else notFoundDesc before := by
  have action : after.defAction = before.defAction := congrArg HdlHeader.defAction added.header
  have notFound : notFoundDesc after = notFoundDesc before := by
    unfold notFoundDesc
    rw [action]
  unfold fallbackDesc rangeLookup
  rw [notFound]
  by_cases icmp : key.proto = ipprotoIcmp
  · have same : undirectedRangeKey key = icmpRangeKey := by
      unfold undirectedRangeKey icmpRangeKey
      rw [icmp]
    rw [same, added.icmp]
    simp only [Option.bind_some, dpiRangeRuleMatch]
    by_cases matched : key.dport = 0 ∧ key.app = 0
    · have inside : ruleKeyInRange defaultItem key = true := by
        rw [defaultItem_matches]
        exact decide_eq_true matched
      rw [if_pos ⟨icmp, matched⟩]
      simp only [inside, find?_cons, Option.map_some, Option.getD_some]
      rfl
    · have outside : ruleKeyInRange defaultItem key = false := by
        rw [defaultItem_matches]
        exact decide_eq_false matched
      rw [if_neg (fun all => matched all.2)]
      simp [outside]
  · have different : undirectedRangeKey key ≠ icmpRangeKey :=
      fun same => icmp (congrArg RangeRuleKey.proto same)
    rw [added.other _ different, directed _ rfl, if_neg (fun all => icmp all.1)]
    rfl

theorem DefaultAdded.probe_eq (isIngress : Bool) :
    probe after key isIngress = probe before key isIngress := by
  have different : directedRangeKey key isIngress ≠ icmpRangeKey := by
    intro same
    exact directedRangeKey_ne_undirected key defaultKeyL isIngress same
  unfold probe directedItems
  rw [added.policyMap, added.other _ different]

theorem DefaultAdded.lookup (directed : AllDirected before)
    {query : PolicyQuery} {contains : RuleKey → Bool} {order : UInt32}
    (loading : query.Loading contains order before) (app : UInt32) {env : LookupEnv}
    (same : env.ctx = query.ctx) (map : UnknownIpMap) :
    (dpiPolicyLookup env query.packet (some after) app map).2.verdict =
      graced env map after.ver query.packet (((query.seen before app).map PolicyDesc.verdict).getD
        (fallbackVerdict before.defAction (query.key.withApp app))) := by
  have applyDir : after.applyDir = before.applyDir := congrArg HdlHeader.applyDir added.header
  have action : after.defAction = before.defAction := congrArg HdlHeader.defAction added.header
  have sameFallback : fallbackDesc after (query.zeroPeer.withApp app) =
      fallbackDesc after (query.key.withApp app) := by
    have sameProto : (query.zeroPeer.withApp app).proto =
        (query.key.withApp app).proto := RuleKey.withPeer_proto ..
    have samePort : (query.zeroPeer.withApp app).dport =
        (query.key.withApp app).dport := RuleKey.withPeer_dport ..
    rw [added.fallback directed, added.fallback directed]
    exact if_congr (by rw [sameProto, samePort]; rfl) rfl rfl
  have last : (fallbackDesc after (query.key.withApp app)).id = 0 ∧
      (fallbackDesc after (query.key.withApp app)).order = noOrder := by
    rw [added.fallback directed]
    split <;> exact ⟨rfl, rfl⟩
  have lookup := loading.lookup_decided app added.flag applyDir
    (fun key => added.probe_eq key _) rfl sameFallback last.1 last.2 emptyDesc
  rw [← same] at lookup
  rw [(dpiPolicyLookup_verdict app env after map rfl lookup).1]
  cases found : query.seen before app with
  | some desc =>
    have numbered : desc.id ≠ 0 := by
      have positive := (loading.seen_bound found).1
      intro zero
      rw [zero] at positive
      exact absurd positive (by decide)
    simp [graced, PolicyDesc.marked, PolicyDesc.verdict, policyImplicitDefault, numbered]
  | none =>
    simp only [added.fallback directed, fallbackVerdict, Option.getD_none, Option.map_none]
    split
    · simp [graced, PolicyDesc.marked, PolicyDesc.verdict, policyImplicitDefault, defaultDesc]
    · have checked : (descCheckVer ||| descInternal) &&& descCheckVer ≠ 0 := by decide
      have marked : (descCheckVer ||| descInternal) &&& descInternal ≠ 0 := by decide
      have outside : (descCheckVer ||| descExternal) &&& descInternal = 0 := by decide
      cases internal : query.ctx.isIp4Internal (query.key.peer query.isIngress) <;>
        simp [graced, PolicyDesc.marked, PolicyDesc.verdict, policyImplicitDefault, notFoundDesc,
          packet, action, checked, marked, outside, internal, same]

end

end Default

/-- The handle the messages of a policy build, before any endpoint holds it. -/
def builtHdl (rules : List PolicyRule) (defAction : PolicyAction)
    (applyDir : UInt32) (ver : UInt16) : PolicyHdl :=
  dpiAddDefaultPolicy ctx (cfgRules ctx rules (dpiPolicyHdlInit defAction applyDir ver, 0)).1

theorem builtHdl_ver (rules : List PolicyRule) (defAction : PolicyAction) (applyDir : UInt32)
    (ver : UInt16) : (builtHdl ctx rules defAction applyDir ver).ver = ver :=
  congrArg HdlHeader.ver ((dpiAddDefaultPolicy_header ctx _).trans (cfgRules_header ctx rules _ _))

/-- First match, except that ICMP traffic to which no rule applies is allowed
while the application is unknown. -/
def designedVerdict (rules : List PolicyRule) (defAction : PolicyAction)
    (query : PolicyQuery) : Verdict :=
  if rules.any (fun rule => rule.covers query) then firstMatch rules defAction query
  else fallbackVerdict defAction (query.key.withApp 0)

/-- What the theorem asks of a rule list and a query. -/
structure PolicyFits (query : PolicyQuery) (rules : List PolicyRule)
    (applyDir : UInt32) : Prop where
  fits : ∀ front rule back, rules = front ++ rule :: back → RuleFits query front rule
  short : rules.length < 4294967295
  ownNotImplicit : query.NotImplicit applyDir query.key
  zeroNotImplicit : query.external = true → query.NotImplicit applyDir query.zeroPeer

section Session

variable {query : PolicyQuery} {rules : List PolicyRule}
  {defAction : PolicyAction} {applyDir : UInt32} {ver : UInt16}

theorem represents_init (policyFits : PolicyFits query rules applyDir) :
    Represents query [] (dpiPolicyHdlInit defAction applyDir ver) where
  loading :=
    { orderBound := by decide
      fqdnFree := by
        change (0 : UInt32) &&& policyHdlFlagFqdn = 0
        decide
      undirected := rfl
      ownNotImplicit := policyFits.ownNotImplicit
      zeroNotImplicit := policyFits.zeroNotImplicit
      itemBound := by
        intro item member
        simp [items, directedItems, dpiPolicyHdlInit] at member
      ownBound := by
        intro app desc found
        simp [dpiPolicyHdlInit] at found
      zeroBound := by
        intro _ app desc found
        simp [dpiPolicyHdlInit] at found
      tie := by
        intro _ impossible
        simp at impossible }
  unknown := by
    simp [seen, own, zero, probe, directedItems, dpiPolicyHdlInit,
      rangeProbe, dpiRangeRuleMatch, earlier, firstDecision]
  known := by
    intro _ _
    simp [seen, own, zero, probe, directedItems, dpiPolicyHdlInit,
      rangeProbe, dpiRangeRuleMatch, earlier, firstDecision]
  zeroCheck := by
    intro _ _ desc found
    simp [zero, probe, directedItems, dpiPolicyHdlInit, rangeProbe, dpiRangeRuleMatch] at found
  itemCheck := by
    intro _ item member
    simp [items, directedItems, dpiPolicyHdlInit] at member
  stored := by
    intro rule member
    simp at member

theorem builtHdl_lookup (defAction : PolicyAction) (ver : UInt16) {env : LookupEnv}
    (same : env.ctx = query.ctx) (policyFits : PolicyFits query rules applyDir)
    (map : UnknownIpMap) :
    (dpiPolicyLookup env query.packet
        (some (builtHdl query.ctx rules defAction applyDir ver)) 0 map).2.verdict =
      graced env map ver query.packet ((firstDecision rules query 0).getD
        (fallbackVerdict defAction (query.key.withApp 0))) ∧
    (Undecided query rules → query.key.app ≠ 0 →
      (dpiPolicyLookup env query.packet
          (some (builtHdl query.ctx rules defAction applyDir ver)) query.key.app map).2.verdict =
        graced env map ver query.packet ((firstDecision rules query query.key.app).getD
          (fallbackVerdict defAction query.key))) := by
  let start := dpiPolicyHdlInit defAction applyDir ver
  let loaded := (cfgRules query.ctx rules (start, ruleOrder [])).1
  have represents : Represents query rules loaded := by
    have init : Represents query [] start := represents_init policyFits
    simpa using cfgRules_represents init
      (by simpa using policyFits.fits) (by simpa using policyFits.short)
  have directed : AllDirected loaded := by
    apply cfgRules_allDirected
    intro rangeKey _
    rfl
  have action : loaded.defAction = defAction :=
    congrArg HdlHeader.defAction (cfgRules_header query.ctx rules start (ruleOrder []))
  have added := dpiAddDefaultPolicy_added query.ctx directed
  have version : (dpiAddDefaultPolicy query.ctx loaded).ver = ver := builtHdl_ver ..
  have built : builtHdl query.ctx rules defAction applyDir ver =
      dpiAddDefaultPolicy query.ctx loaded := rfl
  rw [built]
  constructor
  · rw [added.lookup directed represents.loading 0 same, version, action, represents.unknown]
  · intro undecided nonzero
    rw [added.lookup directed represents.loading _ same, version, action,
      represents.known undecided nonzero]
    rfl

theorem firstDecision_of_plain {first : PolicyRule}
    (found : rules.find? (fun rule => rule.covers query) = some first)
    (plain : first.action ≠ .actionCheckApp) (app : UInt32) :
    firstDecision rules query app = some { id := first.id, action := first.action } := by
  unfold firstDecision
  induction rules with
  | nil => simp at found
  | cons rule rest induction =>
    cases covers : rule.covers query with
    | true =>
      have same : rule = first := by simpa [covers] using found
      subst same
      simp [PolicyRule.decidesAt, covers, plain]
    | false =>
      have later : rest.find? (fun rule => rule.covers query) =
          some first := by simpa [covers] using found
      simpa [PolicyRule.decidesAt, covers] using induction later

theorem firstDecision_of_uncovered (absent : rules.find? (fun rule => rule.covers query) = none)
    (app : UInt32) : firstDecision rules query app = none := by
  unfold firstDecision
  rw [findSome?_eq_none_iff]
  intro rule member
  have uncovered := find?_eq_none.mp absent rule member
  simp [PolicyRule.decidesAt, uncovered]

theorem any_covers_eq :
    rules.any (fun rule => rule.covers query) =
      (rules.find? fun rule => rule.covers query).isSome := by
  rw [Bool.eq_iff_iff]
  simp [find?_isSome]

theorem graced_action_eq_check (env : LookupEnv) (map : UnknownIpMap) (ver : UInt16)
    (p : LookupPacket) (verdict : Verdict) :
    (graced env map ver p verdict).action = .actionCheckApp ↔
      verdict.action = .actionCheckApp := by
  unfold graced
  dsimp only
  split
  next opened =>
    constructor
    · nofun
    · intro asks
      have default := opened.2.1
      rw [asks] at default
      simp at default
  · rfl

/-- The verdict of the two scans, the second one being made only when the
first asks for it, is the designed one. -/
theorem designedVerdict_eq :
    (if ((firstDecision rules query 0).getD
          (fallbackVerdict defAction (query.key.withApp 0))).action = .actionCheckApp ∧
        query.key.app ≠ 0 then
      (firstDecision rules query query.key.app).getD (fallbackVerdict defAction query.key)
    else (firstDecision rules query 0).getD (fallbackVerdict defAction (query.key.withApp 0))) =
      designedVerdict rules defAction query := by
  unfold designedVerdict firstMatch
  rw [any_covers_eq]
  cases covering : rules.find? (fun rule => rule.covers query) with
  | none =>
    rw [firstDecision_of_uncovered covering, firstDecision_of_uncovered covering]
    split
    next asks =>
      have action := asks.1
      simp only [Option.getD_none, fallbackVerdict] at action ⊢
      split at action
      · simp at action
      next notIcmp => rw [if_neg (fun all => asks.2 all.2.2), if_neg notIcmp]; rfl
    · rfl
  | some rule =>
    rw [firstDecision_zero, covering]
    by_cases check : rule.action = .actionCheckApp
    · by_cases known : query.key.app = 0
      · rw [if_neg (fun both => both.2 known), known, firstDecision_zero, covering]
        rfl
      · rw [if_pos ⟨check, known⟩, fallbackVerdict, if_neg (fun all => known all.2.2)]
        rfl
    · rw [if_neg (fun both => check both.1), firstDecision_of_plain covering check]
      rfl

theorem sessionVerdict_eq {env : LookupEnv} (same : env.ctx = query.ctx)
    (policyFits : PolicyFits query rules applyDir) (map : UnknownIpMap) :
    sessionVerdict env map (builtHdl query.ctx rules defAction applyDir ver) query.packet =
      graced env map ver query.packet (designedVerdict rules defAction query) := by
  obtain ⟨first, second⟩ := builtHdl_lookup defAction ver same policyFits map
  have action := congrArg Verdict.action first
  have asks := graced_action_eq_check env map ver query.packet ((firstDecision rules query 0).getD
    (fallbackVerdict defAction (query.key.withApp 0)))
  rw [← action] at asks
  rw [← designedVerdict_eq]
  unfold sessionVerdict
  dsimp only
  split
  next asked =>
    have check := asks.mp asked.1
    have undecided : Undecided query rules := by
      intro rule covering
      rw [firstDecision_zero, covering] at check
      exact check
    have kept := (dpiPolicyLookup_verdict 0 env (builtHdl query.ctx rules defAction applyDir ver)
      map rfl rfl).2 asked.1
    rw [if_pos ⟨check, asked.2⟩, kept]
    exact second undecided asked.2
  next silent => rw [if_neg fun asked => silent ⟨asks.mpr asked.1, asked.2⟩, first]

end Session

end NeuVector.DataPath
