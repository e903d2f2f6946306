import NeuVector.DataPath.PolicyProbe

/-!
# Merging the two probes of a lookup

The result of a lookup is the earlier of its two matches.  While rules are
inserted in list order, an entry changes this result only when nothing was
found before, so that a table under construction can be described by what
each insertion adds for every application.
-/

namespace NeuVector.DataPath

open Library

/-- The earlier of two matches, the first one on equal orders. -/
def earlier : Option PolicyDesc → Option PolicyDesc → Option PolicyDesc
  | none, second => second
  | some first, none => some first
  | some first, some second =>
    if second.order < first.order then some second else some first

theorem policyDescMerge_getD {first second : Option PolicyDesc}
    {fallback : PolicyDesc} (unnumbered : fallback.id = 0) (last : fallback.order = noOrder)
    (numbered : ∀ desc, second = some desc → 0 < desc.id ∧ desc.order < noOrder) :
    policyDescMerge (first.getD fallback) (second.getD fallback) =
      (earlier first second).getD fallback := by
  cases second with
  | none => cases first <;> simp [policyDescMerge, earlier, unnumbered]
  | some desc =>
    obtain ⟨positive, bounded⟩ := numbered desc rfl
    cases first with
    | none => simp [policyDescMerge, earlier, last, bounded, positive]
    | some kept =>
      by_cases less : desc.order < kept.order <;>
        simp [policyDescMerge, earlier, less, positive]

variable {desc : PolicyDesc}

theorem earlier_isSome_right (first : Option PolicyDesc) :
    (earlier first (some desc)).isSome = true := by
  cases first with
  | none => rfl
  | some kept => by_cases less : desc.order < kept.order <;> simp [earlier, less]

theorem earlier_isSome_left (second : Option PolicyDesc) :
    (earlier (some desc) second).isSome = true := by
  cases second with
  | none => rfl
  | some other => by_cases less : other.order < desc.order <;> simp [earlier, less]

theorem earlier_or {first second : Option PolicyDesc} {atFirst atSecond : Bool}
    (firstBound : ∀ kept, first = some kept → kept.order ≤ desc.order)
    (tie : atFirst = true → first = none → ∀ kept, second = some kept → kept.order < desc.order) :
    earlier (first.or (if atFirst then some desc else none))
        (second.or (if atSecond then some desc else none)) =
      (earlier first second).or (if atFirst || atSecond then some desc else none) := by
  cases first with
  | some kept =>
    have notLess : ¬ desc.order < kept.order := UInt32.not_lt.mpr (firstBound kept rfl)
    cases second with
    | none => cases atFirst <;> cases atSecond <;> simp [earlier, notLess]
    | some other =>
      by_cases less : other.order < kept.order <;>
        simp [earlier, less]
  | none =>
    cases second with
    | none => cases atFirst <;> cases atSecond <;> simp [earlier]
    | some other =>
      cases atFirst with
      | false => simp [earlier]
      | true =>
        have less := tie rfl rfl other rfl
        simp [earlier, less]

structure Verdict where
  id : UInt32
  action : PolicyAction
  deriving DecidableEq

def PolicyDesc.verdict (desc : PolicyDesc) : Verdict := { id := desc.id, action := desc.action }

variable (hdl : PolicyHdl) (key : RuleKey)

/-- What a lookup reports when no directed rule matches. -/
def fallbackDesc : PolicyDesc :=
  (rangeLookup hdl (undirectedRangeKey key) key).getD (notFoundDesc hdl)

theorem innerPolicyLookupByKey_eq (isIngress : Bool) :
    innerPolicyLookupByKey hdl key isIngress =
      (probe hdl key isIngress).getD (fallbackDesc hdl key) := by
  unfold innerPolicyLookupByKey fallbackDesc
  rw [findRule_eq_probe_or]
  cases probe hdl key isIngress <;> rfl

theorem fallbackDesc_of_noUndirected {hdl : PolicyHdl} {key : RuleKey}
    (undirected : NoUndirected hdl key) :
    fallbackDesc hdl key = notFoundDesc hdl := by
  unfold NoUndirected at undirected
  simp [fallbackDesc, rangeLookup, undirected]

def mergedProbe (ctx : IpContext) (hdl : PolicyHdl) (key : RuleKey)
    (isIngress : Bool) : Option PolicyDesc :=
  if ctx.isIp4Internal (key.peer isIngress) then probe hdl key isIngress
  else earlier (probe hdl key isIngress) (probe hdl (key.withPeer isIngress 0) isIngress)

/-- The facts under which a lookup is decided by the two probes alone. -/
structure Decidedly (ctx : IpContext) (hdl : PolicyHdl) (key : RuleKey)
    (isIngress : Bool) : Prop where
  fqdnFree : hdl.flag &&& policyHdlFlagFqdn = 0
  notService : isServiceExtip ctx key isIngress = false
  notOpen : isOpenInternal ctx hdl.applyDir key isIngress = false
  sameFallback : fallbackDesc hdl (key.withPeer isIngress 0) = fallbackDesc hdl key
  fallbackId : (fallbackDesc hdl key).id = 0
  fallbackOrder : (fallbackDesc hdl key).order = noOrder
  numbered : ctx.isIp4Internal (key.peer isIngress) = false → ∀ desc,
    probe hdl (key.withPeer isIngress 0) isIngress = some desc → 0 < desc.id ∧ desc.order < noOrder

/-- What a lookup adds to the description that it has found. -/
def PolicyDesc.marked (desc : PolicyDesc) (isInternal : Bool) (ver : UInt16) : PolicyDesc :=
  { desc with
    flags := desc.flags ||| (if isInternal then descInternal else descExternal), hdlVer := ver }

theorem dpiPolicyLookupByKey_eq {ctx : IpContext} {hdl : PolicyHdl}
    {key : RuleKey} {isIngress : Bool} (initial : PolicyDesc)
    (facts : Decidedly ctx hdl key isIngress) :
    dpiPolicyLookupByKey ctx (some hdl) key isIngress initial =
      ((mergedProbe ctx hdl key isIngress).getD (fallbackDesc hdl key)).marked
        (ctx.isIp4Internal (key.peer isIngress)) hdl.ver := by
  unfold dpiPolicyLookupByKey
  simp only [facts.notService, facts.notOpen, Bool.false_eq_true, if_false]
  unfold lookupRules mergedProbe
  simp only [facts.fqdnFree, ne_eq, not_true_eq_false, if_false]
  cases internal : ctx.isIp4Internal (key.peer isIngress) with
  | true =>
    rw [innerPolicyLookupByKey_eq]
    rfl
  | false =>
    rw [innerPolicyLookupByKey_eq, innerPolicyLookupByKey_eq, facts.sameFallback,
      policyDescMerge_getD facts.fallbackId facts.fallbackOrder (facts.numbered internal)]
    rfl

/-- A lookup key together with its direction and the address tables. -/
structure PolicyQuery where
  ctx : IpContext
  key : RuleKey
  isIngress : Bool

namespace PolicyQuery

variable (query : PolicyQuery)

def external : Bool := !query.ctx.isIp4Internal (query.key.peer query.isIngress)

/-- The key with the address of the other side replaced by zero. -/
def zeroPeer : RuleKey := query.key.withPeer query.isIngress 0

variable (app : UInt32)

def own : Option PolicyDesc := probe hdl (query.key.withApp app) query.isIngress

def zero : Option PolicyDesc := probe hdl (query.zeroPeer.withApp app) query.isIngress

def seen : Option PolicyDesc :=
  if query.external then earlier (query.own hdl app) (query.zero hdl app)
  else query.own hdl app

def items : List RangeRuleItem := directedItems hdl query.key query.isIngress

theorem own_eq :
    query.own hdl app = (hdl.policyMap.lookup (query.key.withApp app)).or
        (rangeProbe (query.items hdl) (query.key.withApp app)) := by
  simp [own, probe, items, directedItems]

theorem zero_eq :
    query.zero hdl app = (hdl.policyMap.lookup (query.zeroPeer.withApp app)).or
        (rangeProbe (query.items hdl) (query.zeroPeer.withApp app)) := by
  simp [zero, probe, items, directedItems, zeroPeer]

theorem seen_isSome_of_own {hdl : PolicyHdl} {app : UInt32}
    (found : (query.own hdl app).isSome = true) :
    (query.seen hdl app).isSome = true := by
  obtain ⟨desc, equality⟩ := Option.isSome_iff_exists.mp found
  unfold seen
  split
  · rw [equality]
    exact earlier_isSome_left _
  · exact found

theorem seen_isSome_of_zero {hdl : PolicyHdl} {app : UInt32} (external : query.external = true)
    (found : (query.zero hdl app).isSome = true) :
    (query.seen hdl app).isSome = true := by
  obtain ⟨desc, equality⟩ := Option.isSome_iff_exists.mp found
  unfold seen
  rw [if_pos external, equality]
  exact earlier_isSome_right _

/-- The implicit verdicts do not apply to a key of this direction. -/
def NotImplicit (applyDir : UInt32) (key : RuleKey) : Prop :=
  isServiceExtip query.ctx key query.isIngress = false ∧
    isOpenInternal query.ctx applyDir key query.isIngress = false

/-- What holds of the tables while the rule of the given order, which matches
the addresses and ports of the keys selected by `contains`, is inserted. -/
structure Loading (contains : RuleKey → Bool) (order : UInt32) (hdl : PolicyHdl) : Prop where
  orderBound : order < noOrder
  fqdnFree : hdl.flag &&& policyHdlFlagFqdn = 0
  undirected : NoUndirected hdl query.key
  ownNotImplicit : query.NotImplicit hdl.applyDir query.key
  zeroNotImplicit : query.external = true → query.NotImplicit hdl.applyDir query.zeroPeer
  itemBound : ∀ item ∈ query.items hdl, 0 < item.desc.id ∧ item.desc.order ≤ order
  ownBound : ∀ app desc,
    hdl.policyMap.lookup (query.key.withApp app) = some desc → 0 < desc.id ∧ desc.order ≤ order
  zeroBound : query.external = true → ∀ app desc,
    hdl.policyMap.lookup (query.zeroPeer.withApp app) = some desc → 0 < desc.id ∧ desc.order ≤ order
  tie : query.external = true → contains query.key = true →
    ∀ app desc, query.zero hdl app = some desc → desc.order = order →
      (query.own hdl app).isSome = true

/-- The rule reaches the query directly or through the zero address. -/
def reached (contains : RuleKey → Bool) : Bool :=
  contains query.key || (query.external && contains query.zeroPeer)

/-- An insertion makes the lookup find `added` wherever it found nothing. -/
def Adds (contains : RuleKey → Bool) (added : UInt32 → Option PolicyDesc)
    (before after : PolicyHdl) : Prop :=
  ∀ app, query.seen after app =
    (query.seen before app).or (if query.reached contains then added app else none)

variable {query}

theorem Adds.trans {contains : RuleKey → Bool}
    {first second : UInt32 → Option PolicyDesc} {before middle after : PolicyHdl}
    (left : query.Adds contains first before middle)
    (right : query.Adds contains second middle after) :
    query.Adds contains (fun app => (first app).or (second app)) before after := by
  intro app
  rw [right app, left app]
  cases query.reached contains <;> simp [Option.or_assoc]

theorem Adds.refl_of_absent {contains : RuleKey → Bool}
    {added : UInt32 → Option PolicyDesc} {hdl : PolicyHdl}
    (present : query.reached contains = true → ∀ app,
      (added app).isSome = true → (query.seen hdl app).isSome = true) :
    query.Adds contains added hdl hdl := by
  intro app
  cases reached : query.reached contains with
  | false => simp
  | true =>
    cases value : added app with
    | none => simp
    | some desc =>
      have found := present reached app (by simp [value])
      obtain ⟨kept, equality⟩ := Option.isSome_iff_exists.mp found
      simp [equality]

theorem mergedProbe_own :
    mergedProbe query.ctx hdl (query.key.withApp app) query.isIngress = query.seen hdl app := by
  unfold mergedProbe seen PolicyQuery.external own zero
  rw [RuleKey.withPeer_withApp]
  cases internal : query.ctx.isIp4Internal (query.key.peer query.isIngress)
    <;> simp [internal, zeroPeer]

namespace Loading

variable {contains : RuleKey → Bool} {order : UInt32} {hdl : PolicyHdl}

section

variable (loading : query.Loading contains order hdl)
include loading

theorem rangeProbe_bound {key : RuleKey} (found : rangeProbe (query.items hdl) key = some desc) :
    0 < desc.id ∧ desc.order ≤ order := by
  obtain ⟨item, matched, equality⟩ := Option.map_eq_some_iff.mp found
  subst equality
  exact loading.itemBound item (List.mem_of_find?_eq_some matched)

theorem own_bound {app : UInt32} (found : query.own hdl app = some desc) :
    0 < desc.id ∧ desc.order ≤ order := by
  rw [query.own_eq, Option.or_eq_some_iff] at found
  rcases found with exact | ⟨_, ranged⟩
  · exact loading.ownBound app desc exact
  · exact loading.rangeProbe_bound ranged

theorem zero_bound (external : query.external = true) {app : UInt32}
    (found : query.zero hdl app = some desc) :
    0 < desc.id ∧ desc.order ≤ order := by
  rw [query.zero_eq, Option.or_eq_some_iff] at found
  rcases found with exact | ⟨_, ranged⟩
  · exact loading.zeroBound external app desc exact
  · exact loading.rangeProbe_bound ranged

theorem zero_numbered (external : query.external = true) {app : UInt32}
    (found : query.zero hdl app = some desc) :
    0 < desc.id ∧ desc.order < noOrder := by
  obtain ⟨positive, bounded⟩ := loading.zero_bound external found
  exact ⟨positive, UInt32.lt_of_le_of_lt bounded loading.orderBound⟩

theorem seen_bound {app : UInt32} (found : query.seen hdl app = some desc) :
    0 < desc.id ∧ desc.order ≤ order := by
  unfold seen at found
  split at found
  next external =>
    cases own : query.own hdl app with
    | none =>
      rw [own] at found
      exact loading.zero_bound external found
    | some first =>
      cases zero : query.zero hdl app with
      | none =>
        rw [own, zero] at found
        exact loading.own_bound (own.trans found)
      | some second =>
        rw [own, zero] at found
        simp only [earlier] at found
        split at found
        · exact loading.zero_bound external (zero.trans found)
        · exact loading.own_bound (own.trans found)
  · exact loading.own_bound found

theorem noUndirected_zeroPeer : NoUndirected hdl (query.zeroPeer.withApp app) := by
  have undirected := loading.undirected
  unfold NoUndirected at undirected ⊢
  simpa [zeroPeer] using undirected

theorem noUndirected_own : NoUndirected hdl (query.key.withApp app) := by
  have undirected := loading.undirected
  unfold NoUndirected at undirected ⊢
  simpa using undirected

theorem lookup_decided {after : PolicyHdl} {fallback : PolicyDesc} (flag : after.flag = hdl.flag)
    (applyDir : after.applyDir = hdl.applyDir)
    (probes : ∀ key, probe after key query.isIngress = probe hdl key query.isIngress)
    (ownFallback : fallbackDesc after (query.key.withApp app) = fallback)
    (zeroFallback : fallbackDesc after (query.zeroPeer.withApp app) = fallback)
    (unnumbered : fallback.id = 0) (last : fallback.order = noOrder) (initial : PolicyDesc) :
    dpiPolicyLookupByKey query.ctx (some after) (query.key.withApp app) query.isIngress initial =
      ((query.seen hdl app).getD fallback).marked
        (query.ctx.isIp4Internal (query.key.peer query.isIngress)) after.ver := by
  have zeroKey : (query.key.withApp app).withPeer query.isIngress 0 =
      query.zeroPeer.withApp app := RuleKey.withPeer_withApp ..
  have facts : Decidedly query.ctx after (query.key.withApp app)
      query.isIngress := {
    fqdnFree := by
      rw [flag]
      exact loading.fqdnFree
    notService := loading.ownNotImplicit.1
    notOpen := by
      rw [applyDir]
      simpa [isOpenInternal] using loading.ownNotImplicit.2
    sameFallback := by rw [zeroKey, ownFallback, zeroFallback]
    fallbackId := by rw [ownFallback, unnumbered]
    fallbackOrder := by rw [ownFallback, last]
    numbered := by
      intro internal desc found
      have external : query.external = true := by simpa [external] using internal
      rw [zeroKey, probes] at found
      exact loading.zero_numbered external found }
  have sameSeen : query.seen after app = query.seen hdl app := by
    unfold seen own zero
    rw [probes, probes]
  rw [dpiPolicyLookupByKey_eq initial facts, ownFallback, mergedProbe_own, sameSeen]
  rfl

theorem lookup_own (initial : PolicyDesc) :
    (dpiPolicyLookupByKey query.ctx (some hdl) (query.key.withApp app)
        query.isIngress initial).verdict =
      ((query.seen hdl app).getD (notFoundDesc hdl)).verdict := by
  rw [loading.lookup_decided app rfl rfl (fun _ => rfl)
    (fallbackDesc_of_noUndirected (loading.noUndirected_own app))
    (fallbackDesc_of_noUndirected (loading.noUndirected_zeroPeer app)) rfl rfl initial]
  rfl

theorem lookup_zero (external : query.external = true) (app : UInt32) (initial : PolicyDesc) :
    (dpiPolicyLookupByKey query.ctx (some hdl) (query.zeroPeer.withApp app)
        query.isIngress initial).verdict =
      ((query.zero hdl app).getD (notFoundDesc hdl)).verdict := by
  have zeroFallback : fallbackDesc hdl (query.zeroPeer.withApp app) = notFoundDesc hdl :=
    fallbackDesc_of_noUndirected (loading.noUndirected_zeroPeer app)
  have zeroKey : (query.zeroPeer.withApp app).withPeer query.isIngress 0 =
      query.zeroPeer.withApp app := by
    rw [RuleKey.withPeer_withApp]
    simp [zeroPeer]
  obtain ⟨notService, notOpen⟩ := loading.zeroNotImplicit external
  have facts : Decidedly query.ctx hdl (query.zeroPeer.withApp app)
      query.isIngress := {
    fqdnFree := loading.fqdnFree
    notService := notService
    notOpen := by simpa [isOpenInternal] using notOpen
    sameFallback := by rw [zeroKey]
    fallbackId := by rw [zeroFallback]; rfl
    fallbackOrder := by rw [zeroFallback]; rfl
    numbered := by
      intro _ desc found
      rw [zeroKey] at found
      exact loading.zero_numbered external found }
  rw [dpiPolicyLookupByKey_eq initial facts, zeroFallback]
  have merged : mergedProbe query.ctx hdl (query.zeroPeer.withApp app)
      query.isIngress = query.zero hdl app := by
    unfold mergedProbe zero
    rw [zeroKey]
    split
    · rfl
    · cases probe hdl (query.zeroPeer.withApp app) query.isIngress with
      | none => rfl
      | some desc => simp [earlier]
  rw [merged]
  rfl

end

end Loading

end PolicyQuery

end NeuVector.DataPath
