import NeuVector.DataPath.PolicyQuery

/-!
# Insertion of a rule as a query sees it

Each function of the insertion path is described by one relation: what it
adds for every application, to the lookup and to the probe of the zero
address, wherever nothing was found before.  Entries are combined by
transitivity into the effect of a complete rule.
-/

namespace NeuVector.DataPath

open Library

namespace PolicyQuery

structure Grown (query : PolicyQuery) (contains : RuleKey → Bool)
    (order : UInt32) (added : UInt32 → Option PolicyDesc)
    (before after : PolicyHdl) : Prop where
  loading : query.Loading contains order after
  adds : query.Adds contains added before after
  zeroAdds : query.external = true → ∀ app, query.zero after app =
      (query.zero before app).or (if contains query.zeroPeer then added app else none)
  kept : ∀ item ∈ query.items before, item ∈ query.items after

/-- No range item that starts and ends at the unknown application is new. -/
def NoPlainItems (query : PolicyQuery) (before after : PolicyHdl) : Prop :=
  ∀ item ∈ query.items after, item.keyL.app = 0 → item.keyH.app = 0 → item ∈ query.items before

variable {query : PolicyQuery} {contains : RuleKey → Bool} {order : UInt32}
variable {hdl before after : PolicyHdl}

theorem Grown.trans {first second : UInt32 → Option PolicyDesc}
    {middle : PolicyHdl} (left : query.Grown contains order first before middle)
    (right : query.Grown contains order second middle after) :
    query.Grown contains order (fun app => (first app).or (second app)) before after where
  loading := right.loading
  adds := left.adds.trans right.adds
  zeroAdds := by
    intro external app
    rw [right.zeroAdds external, left.zeroAdds external]
    cases contains query.zeroPeer <;> simp [Option.or_assoc]
  kept := fun item member => right.kept item (left.kept item member)

theorem Grown.congr {first second : UInt32 → Option PolicyDesc}
    (grown : query.Grown contains order first before after) (same : ∀ app, first app = second app) :
    query.Grown contains order second before after := by
  have equality : first = second := funext same
  rwa [equality] at grown

theorem Grown.refl (loading : query.Loading contains order hdl) :
    query.Grown contains order (fun _ => none) hdl hdl where
  loading := loading
  adds := by
    intro app
    simp
  zeroAdds := by
    intro _ app
    simp
  kept := fun _ member => member

theorem NoPlainItems.trans {middle : PolicyHdl} (left : query.NoPlainItems before middle)
    (right : query.NoPlainItems middle after) :
    query.NoPlainItems before after := by
  intro item member low high
  exact left item (right item member low high) low high

/-- One entry is found where nothing was. -/
structure EntryAdded (query : PolicyQuery) (contains : RuleKey → Bool)
    (appMatch : UInt32 → Bool) (desc : PolicyDesc) (before after : PolicyHdl) : Prop where
  own : ∀ app, query.own after app = (query.own before app).or
    (if contains query.key && appMatch app then some desc else none)
  zero : query.external = true → ∀ app, query.zero after app = (query.zero before app).or
    (if contains query.zeroPeer && appMatch app then some desc else none)

section OneEntry

variable {appMatch : UInt32 → Bool} {desc : PolicyDesc}
  (added : query.EntryAdded contains appMatch desc before after)
  (loading : query.Loading contains order before)
include added loading

theorem EntryAdded.tie (external : query.external = true) (containsOwn : contains query.key = true)
    (app : UInt32) (found : PolicyDesc) (lookup : query.zero after app = some found)
    (sameOrder : found.order = order) : (query.own after app).isSome = true := by
  rw [added.zero external] at lookup
  rw [added.own]
  rcases Option.or_eq_some_iff.mp lookup with old | ⟨_, new⟩
  · have present := loading.tie external containsOwn app found old sameOrder
    obtain ⟨kept, equality⟩ := Option.isSome_iff_exists.mp present
    simp [equality]
  · have matched : appMatch app = true := by
      by_contra unmatched
      simp [unmatched] at new
    simp [containsOwn, matched]

theorem EntryAdded.adds (ordered : desc.order = order) :
    query.Adds contains (fun app => if appMatch app then some desc else none) before after := by
  intro app
  unfold seen reached
  rw [added.own]
  cases external : query.external with
  | false =>
    cases contains query.key <;> simp
  | true =>
    simp only [if_true, Bool.true_and]
    rw [added.zero external, earlier_or]
    · cases contains query.key <;> cases contains query.zeroPeer <;>
        cases appMatch app <;> simp
    · intro kept found
      rw [ordered]
      exact (loading.own_bound found).2
    · intro matched absent kept found
      have containsOwn : contains query.key = true := by
        simp only [Bool.and_eq_true] at matched
        exact matched.1
      have bounded := (loading.zero_bound external found).2
      rw [ordered]
      apply UInt32.lt_of_le_of_ne bounded
      intro same
      have present := loading.tie external containsOwn app kept found same
      simp [absent] at present

theorem EntryAdded.grown (ordered : desc.order = order)
    (later : query.Loading (fun _ => false) order after)
    (kept : ∀ item ∈ query.items before, item ∈ query.items after) :
    query.Grown contains order (fun app => if appMatch app then some desc else none)
      before after where
  loading := { later with tie := added.tie loading }
  adds := added.adds loading ordered
  zeroAdds := by
    intro external app
    rw [added.zero external]
    cases contains query.zeroPeer <;> simp
  kept := kept

end OneEntry

variable {item : RangeRuleItem}

theorem items_of_rangeAdded {existDesc : PolicyDesc} {result : PolicyHdl × PolicyDesc × Int}
    (spec : RangeAdded hdl (directedRangeKey query.key query.isIngress) item existDesc result) :
    query.items result.1 = appendItem (query.items hdl) item := by
  unfold items directedItems
  rw [spec.own]
  rfl

theorem mem_appendItem {items : List RangeRuleItem} {other : RangeRuleItem}
    (member : other ∈ appendItem items item) :
    other ∈ items ∨ other = item := by
  unfold appendItem at member
  split at member
  · exact Or.inl member
  · simpa using member

theorem mem_appendItem_of_mem {items : List RangeRuleItem}
    {other : RangeRuleItem} (member : other ∈ items) :
    other ∈ appendItem items item := by
  unfold appendItem
  split
  · exact member
  · exact List.mem_append_left _ member

theorem mem_appendItem_self (items : List RangeRuleItem) (item : RangeRuleItem) :
    ∃ same ∈ appendItem items item, same.keyL = item.keyL ∧ same.keyH = item.keyH := by
  unfold appendItem
  cases found : findSameItem items item.keyL item.keyH with
  | some same =>
    obtain ⟨member, low, high⟩ := findSameItem_spec found
    exact ⟨same, member, low, high⟩
  | none => exact ⟨item, by simp, rfl, rfl⟩

variable {key : RuleKey}

/-- A range entry matches the rule's keys for a set of applications. -/
def EntryMatches (contains : RuleKey → Bool) (appMatch : UInt32 → Bool)
    (item : RangeRuleItem) : Prop :=
  ∀ key app, ruleKeyInRange item (key.withApp app) = (contains key && appMatch app)

section RangeEntry

variable {appMatch : UInt32 → Bool} {hdl : PolicyHdl} {item : RangeRuleItem}
  {existDesc : PolicyDesc} {result : PolicyHdl × PolicyDesc × Int}

section

variable (loading : query.Loading contains order hdl)
  (spec : RangeAdded hdl (directedRangeKey query.key query.isIngress) item existDesc result)
  (ordered : item.desc.order = order) (positive : 0 < item.desc.id)
include loading spec ordered positive

theorem loading_of_rangeAdded : query.Loading (fun _ => false) order result.1 where
  orderBound := loading.orderBound
  fqdnFree := by
    rw [spec.outside.flag]
    exact loading.fqdnFree
  undirected := by
    rw [NoUndirected, spec.other _ (directedRangeKey_ne_undirected _ _ _).symm]
    exact loading.undirected
  ownNotImplicit := by
    rw [spec.outside.applyDir]
    exact loading.ownNotImplicit
  zeroNotImplicit := by
    rw [spec.outside.applyDir]
    exact loading.zeroNotImplicit
  itemBound := by
    intro other member
    rw [items_of_rangeAdded spec] at member
    rcases mem_appendItem member with old | new
    · exact loading.itemBound other old
    · subst new
      exact ⟨positive, UInt32.le_of_eq ordered⟩
  ownBound := by
    rw [spec.outside.policyMap]
    exact loading.ownBound
  zeroBound := by
    rw [spec.outside.policyMap]
    exact loading.zeroBound
  tie := nofun

theorem grown_of_rangeAdded (entry : EntryMatches contains appMatch item) :
    query.Grown contains order (fun app => if appMatch app then some item.desc else none)
      hdl result.1 := by
  have added : query.EntryAdded contains appMatch item.desc hdl result.1 := by
    constructor
    · intro app
      rw [query.own_eq, query.own_eq, items_of_rangeAdded spec,
        rangeProbe_appendItem, spec.outside.policyMap, entry, Option.or_assoc]
    · intro _ app
      rw [query.zero_eq, query.zero_eq, items_of_rangeAdded spec,
        rangeProbe_appendItem, spec.outside.policyMap, entry, Option.or_assoc]
  apply added.grown loading ordered (loading_of_rangeAdded loading spec ordered positive)
  intro other member
  rw [items_of_rangeAdded spec]
  exact mem_appendItem_of_mem member

end

theorem noPlainItems_of_rangeAdded
    (spec : RangeAdded hdl (directedRangeKey query.key query.isIngress) item existDesc result)
    (known : ¬ (item.keyL.app = 0 ∧ item.keyH.app = 0)) :
    query.NoPlainItems hdl result.1 := by
  intro other member low high
  rw [items_of_rangeAdded spec] at member
  rcases mem_appendItem member with old | new
  · exact old
  · subst new
    exact absurd ⟨low, high⟩ known

end RangeEntry

/-- The only address and port a rule matches are those of `base`. -/
structure ExactAt (query : PolicyQuery) (contains : RuleKey → Bool) (base : RuleKey) : Prop where
  own : contains query.key = true ↔ base.withApp 0 = query.key.withApp 0
  zero : contains query.zeroPeer = true ↔ base.withApp 0 = query.zeroPeer.withApp 0

theorem withApp_eq_of_base {base : RuleKey} (same : base.withApp 0 = key.withApp 0) (app : UInt32) :
    base.withApp app = key.withApp app := by
  have applied := congrArg (fun key => RuleKey.withApp key app) same
  simpa using applied

theorem base_of_withApp_eq {base : RuleKey} {first second : UInt32}
    (same : key.withApp first = base.withApp second) :
    base.withApp 0 = key.withApp 0 ∧ first = second := by
  have applied := congrArg (fun key => RuleKey.withApp key 0) same
  have apps := congrArg RuleKey.app same
  exact ⟨by simpa using applied.symm, apps⟩

theorem verdict_getD_id_ne_zero {found : Option PolicyDesc} {desc : PolicyDesc}
    (same : desc.verdict = (found.getD (notFoundDesc hdl)).verdict)
    (nonzero : desc.id ≠ 0) : found.isSome = true := by
  cases found with
  | some _ => rfl
  | none =>
    have ids := congrArg Verdict.id same
    exact absurd ids nonzero

theorem verdict_getD_id_eq_zero {found : Option PolicyDesc} {desc : PolicyDesc}
    (same : desc.verdict = (found.getD (notFoundDesc hdl)).verdict)
    (numbered : ∀ kept, found = some kept → 0 < kept.id) (isZero : desc.id = 0) :
    found = none := by
  cases found with
  | none => rfl
  | some kept =>
    have ids := congrArg Verdict.id same
    have positive := numbered kept rfl
    have zeroId : kept.id = 0 := ids.symm.trans isZero
    rw [zeroId] at positive
    exact absurd positive (by decide)

section ExactEntry

variable {hdl : PolicyHdl} {base : RuleKey} {app : UInt32} {desc existDesc : PolicyDesc}

/-- The lookup an exact insertion starts with. -/
def existing (query : PolicyQuery) (hdl : PolicyHdl) (base : RuleKey)
    (app : UInt32) (existDesc : PolicyDesc) : PolicyDesc :=
  dpiPolicyLookupByKey query.ctx (some hdl) (base.withApp app) query.isIngress existDesc

section

variable {held : RuleKey → Bool} (loading : query.Loading held order hdl)
include loading

theorem existing_own (exactAt : query.ExactAt contains base)
    (containsOwn : contains query.key = true) :
    (query.existing hdl base app existDesc).verdict =
      ((query.seen hdl app).getD (notFoundDesc hdl)).verdict := by
  unfold existing
  rw [withApp_eq_of_base (exactAt.own.mp containsOwn)]
  exact loading.lookup_own app existDesc

theorem existing_zero (exactAt : query.ExactAt contains base) (external : query.external = true)
    (containsZero : contains query.zeroPeer = true) :
    (query.existing hdl base app existDesc).verdict =
      ((query.zero hdl app).getD (notFoundDesc hdl)).verdict := by
  unfold existing
  rw [withApp_eq_of_base (exactAt.zero.mp containsZero)]
  exact loading.lookup_zero external app existDesc

end

def addExact (hdl : PolicyHdl) (base : RuleKey) (app : UInt32) (desc : PolicyDesc) : PolicyHdl :=
  { hdl with policyMap := hdl.policyMap.add (base.withApp app) desc }

theorem lookup_addExact_or {inside : Bool}
    (exactAt : inside = true ↔ base.withApp 0 = key.withApp 0) (ranged : UInt32 → Option PolicyDesc)
    (absent : inside = true → (hdl.policyMap.lookup (key.withApp app)).or (ranged app) = none)
    (other : UInt32) :
    ((addExact hdl base app desc).policyMap.lookup (key.withApp other)).or (ranged other) =
      ((hdl.policyMap.lookup (key.withApp other)).or (ranged other)).or
        (if inside && other == app then some desc else none) := by
  unfold addExact
  rw [RcuMap.lookup_add]
  by_cases same : key.withApp other = base.withApp app
  · obtain ⟨sameBase, sameApp⟩ := base_of_withApp_eq same
    have nothing := absent (exactAt.mpr sameBase)
    rw [Option.or_eq_none_iff] at nothing
    subst sameApp
    simp [same.symm, nothing.1, nothing.2, exactAt.mpr sameBase]
  · have different : (inside && other == app) = false := by
      by_contra matched
      simp only [Bool.not_eq_false, Bool.and_eq_true, beq_iff_eq] at matched
      apply same
      rw [matched.2]
      exact (withApp_eq_of_base (exactAt.mp matched.1) app).symm
    simp [same, different]

theorem entryAdded_addExact (exactAt : query.ExactAt contains base)
    (absentOwn : contains query.key = true → query.own hdl app = none)
    (absentZero : query.external = true → contains query.zeroPeer = true →
      query.zero hdl app = none) :
    query.EntryAdded contains (· == app) desc hdl (addExact hdl base app desc) := by
  constructor
  · intro other
    exact lookup_addExact_or exactAt.own
      (fun app => rangeProbe (query.items hdl) (query.key.withApp app)) absentOwn other
  · intro external other
    simp only [query.zero_eq] at absentZero ⊢
    exact lookup_addExact_or exactAt.zero
      (fun app => rangeProbe (query.items hdl) (query.zeroPeer.withApp app))
      (absentZero external) other

theorem lookup_addExact_bound {found : PolicyDesc} (positive : 0 < desc.id)
    (ordered : desc.order = order)
    (bound : ∀ kept, hdl.policyMap.lookup key = some kept → 0 < kept.id ∧ kept.order ≤ order)
    (lookup : (addExact hdl base app desc).policyMap.lookup key =
      some found) : 0 < found.id ∧ found.order ≤ order := by
  unfold addExact at lookup
  rw [RcuMap.lookup_add] at lookup
  rcases Option.or_eq_some_iff.mp lookup with old | ⟨_, new⟩
  · exact bound found old
  · split at new
    · have same : desc = found := Option.some.inj new
      subst same
      exact ⟨positive, UInt32.le_of_eq ordered⟩
    · exact absurd new (by simp)

theorem loading_addExact (loading : query.Loading contains order hdl)
    (positive : 0 < desc.id) (ordered : desc.order = order) :
    query.Loading (fun _ => false) order (addExact hdl base app desc) where
  __ := loading
  ownBound := fun other _ lookup =>
    lookup_addExact_bound positive ordered (loading.ownBound other) lookup
  zeroBound := fun external other _ lookup =>
    lookup_addExact_bound positive ordered (loading.zeroBound external other) lookup
  tie := nofun

theorem own_none_of_seen_none (absent : query.seen hdl app = none) : query.own hdl app = none := by
  cases found : query.own hdl app with
  | none => rfl
  | some kept =>
    have present := query.seen_isSome_of_own (Option.isSome_of_eq_some found)
    simp [absent] at present

theorem grown_of_exact {dir : RuleDir} (app : UInt32) (desc existDesc : PolicyDesc)
    (loading : query.Loading contains order hdl) (exactAt : query.ExactAt contains base)
    (direction : dir.isIngress = query.isIngress)
    (positive : 0 < desc.id) (ordered : desc.order = order) :
    query.Grown contains order (fun other => if other == app then some desc else none) hdl
      (dpiRuleAddOne query.ctx hdl (base.withApp app) none dir desc existDesc).1 := by
  have start : dpiPolicyLookupByKey query.ctx (some hdl) (base.withApp app)
      dir.isIngress existDesc = query.existing hdl base app existDesc := by
    rw [direction]
    rfl
  unfold dpiRuleAddOne
  simp only [start]
  by_cases nonzero : (query.existing hdl base app existDesc).id ≠ 0
  · rw [if_pos nonzero]
    have presentZero : query.external = true → contains query.zeroPeer = true →
        (query.zero hdl app).isSome = true := fun external containsZero =>
      verdict_getD_id_ne_zero (existing_zero loading exactAt external containsZero) nonzero
    refine ⟨loading, Adds.refl_of_absent ?_, ?_, fun _ member => member⟩
    · intro isReached other matched
      have sameApp : other = app := by
        by_contra different
        simp [different] at matched
      subst sameApp
      unfold reached at isReached
      simp only [Bool.or_eq_true, Bool.and_eq_true] at isReached
      rcases isReached with containsOwn | ⟨external, containsZero⟩
      · exact verdict_getD_id_ne_zero (existing_own loading exactAt containsOwn) nonzero
      · exact query.seen_isSome_of_zero external (presentZero external containsZero)
    · intro external other
      by_cases sameApp : other = app
      · subst sameApp
        cases containsZero : contains query.zeroPeer with
        | false => simp
        | true =>
          have present := presentZero external containsZero
          obtain ⟨kept, equality⟩ := Option.isSome_iff_exists.mp present
          simp [equality]
      · simp [sameApp]
  · rw [if_neg nonzero]
    have isZero := not_ne_iff.mp nonzero
    have absentSeen : contains query.key = true → query.seen hdl app = none := fun containsOwn =>
      verdict_getD_id_eq_zero (existing_own loading exactAt containsOwn)
        (fun _ found => (loading.seen_bound found).1) isZero
    have absentZero : query.external = true → contains query.zeroPeer = true →
        query.zero hdl app = none := fun external containsZero =>
      verdict_getD_id_eq_zero (existing_zero loading exactAt external containsZero)
        (fun _ found => (loading.zero_bound external found).1) isZero
    have absentOwn : contains query.key = true → query.own hdl app = none :=
      fun containsOwn => own_none_of_seen_none (absentSeen containsOwn)
    exact (entryAdded_addExact exactAt absentOwn absentZero).grown loading ordered
      (loading_addExact loading positive ordered) fun _ member => member

theorem items_of_exact {dir : RuleDir} (base : RuleKey) (app : UInt32) :
    query.items (dpiRuleAddOne query.ctx hdl (base.withApp app) none dir desc
      existDesc).1 = query.items hdl := by
  unfold dpiRuleAddOne
  simp only
  split <;> rfl

end ExactEntry

end PolicyQuery

end NeuVector.DataPath
