import NeuVector.Controller.LearnedConnections

/-!
# Learned rules cover the links

A round of processing settles the rule of every link, so that over every
orderly run what the links have is allowed after each round.  A connection
that comes back between the deletion of its node and the next round is added
to a rule that is about to go.
-/

namespace NeuVector.Controller

open Library

variable {fromNode toNode : String}

section Processing

variable {state : LearnState} {pair : GroupPair} {rule : LearnedPolicyRuleWrapper} {obj : RuleObj}

/-- A rule before its flags are carried out. -/
def recalculated (state : LearnState) (pair : GroupPair)
    (rule : LearnedPolicyRuleWrapper) : LearnedPolicyRuleWrapper :=
  if rule.action.recalc then recalcLearnedRule state pair rule else rule

def settleRule (state : LearnState) (pair : GroupPair)
    (rule : LearnedPolicyRuleWrapper) : Option LearnedPolicyRuleWrapper :=
  if (recalculated state pair rule).action.delete then none
  else some { recalculated state pair rule with action := .nothing }

theorem settleRule_congr {other : LearnState} (links : other.links = state.links)
    (directory : other.directory = state.directory) :
    settleRule other pair rule = settleRule state pair rule := by
  have linked : linkedObjs other pair = linkedObjs state pair := by
    simp only [linkedObjs, links, directory]
  simp only [settleRule, recalculated, recalcLearnedRule, linked]

theorem adjustRuleAction_cases (state : LearnState) (pair : GroupPair)
    (rule : LearnedPolicyRuleWrapper) :
    let adjusted := adjustRuleAction state pair rule
    (settleRule state pair rule = none ∧
        (adjusted.1 = dropRule state pair (recalculated state pair rule).id ∧
            adjusted.2.action = .nothing ∨
          adjusted.1 = state ∧ adjusted.2.action = .lprDelete)) ∨
      adjusted.1 = state ∧ adjusted.2.action ≠ .lprDelete ∧
        settleRule state pair rule = some { adjusted.2 with action := .nothing } := by
  unfold adjustRuleAction settleRule recalculated
  generalize (if rule.action.recalc then recalcLearnedRule state pair rule else rule) = fresh
  by_cases delete : fresh.action.delete = true
  · rw [if_pos delete, if_pos delete]
    refine .inl ⟨rfl, ?_⟩
    split
    · exact .inl ⟨rfl, rfl⟩
    · exact .inr ⟨rfl, rfl⟩
  · rw [if_neg delete]
    refine .inr ?_
    split
    · have different : LprAction.lprAdd ≠ .lprDelete := by decide
      exact ⟨rfl, different, rfl⟩
    · refine ⟨rfl, ?_, rfl⟩
      intro isDelete
      rw [isDelete] at delete
      exact delete rfl

structure RoundStep (pair : GroupPair) (before after : LearnState) : Prop where
  links : after.links = before.links
  directory : after.directory = before.directory
  own : after.lprWrapperMap.lookup pair =
    (before.lprWrapperMap.lookup pair).bind (settleRule before pair)
  others : ∀ other, other ≠ pair →
    after.lprWrapperMap.lookup other = before.lprWrapperMap.lookup other

theorem dropRule_step {id : Nat} (found : state.lprWrapperMap.lookup pair = some rule)
    (gone : settleRule state pair rule = none) :
    RoundStep pair state (dropRule state pair id) := by
  refine ⟨rfl, rfl, ?_, ?_⟩
  · rw [found, Option.bind_some, gone]
    exact AList.lookup_erase _ _
  · intro other different
    exact AList.lookup_erase_ne different

theorem finishRule_dropped (state : LearnState) (pair : GroupPair) (id : Nat)
    (rule : LearnedPolicyRuleWrapper) :
    finishRule (dropRule state pair id) pair rule = dropRule state pair id := by
  have absent : (dropRule state pair id).lprWrapperMap.lookup pair = none :=
    AList.lookup_erase pair _
  simp only [finishRule, Table.modify, absent]

theorem finishRule_step {settled : LearnedPolicyRuleWrapper}
    (found : state.lprWrapperMap.lookup pair = some rule)
    (stays : settleRule state pair rule = some { settled with action := .nothing }) :
    RoundStep pair state (finishRule state pair settled) := by
  refine ⟨rfl, rfl, ?_, ?_⟩
  · rw [finishRule, Table.lookup_modify_self, found, Option.bind_some, stays]
    rfl
  · intro other different
    rw [finishRule, Table.lookup_modify_ne _ different]

theorem procRule_step (updateCluster : Bool) (now : Nat)
    (progress : LearnState × LearnBatch) (pair : GroupPair) :
    RoundStep pair progress.1 (procRule updateCluster now progress pair).1 := by
  unfold procRule
  cases found : progress.1.lprWrapperMap.lookup pair with
  | none =>
    refine ⟨rfl, rfl, ?_, fun _ _ => rfl⟩
    rw [found]
    rfl
  | some rule =>
    simp only
    rcases adjustRuleAction_cases progress.1 pair rule with
      ⟨gone, ⟨dropped, action⟩ | ⟨same, action⟩⟩ | ⟨same, action, stays⟩
    · have different : LprAction.nothing ≠ .lprDelete := by decide
      rw [action, dropped, finishRule_dropped]
      exact dropRule_step found gone
    · rw [if_pos action, same]
      exact dropRule_step found gone
    · rw [if_neg action, same]
      exact finishRule_step found stays

theorem procRule_sweep (state : LearnState) (updateCluster : Bool) (now : Nat) :
    Table.Sweep (fun progress : LearnState × LearnBatch => fun pair =>
        progress.1.lprWrapperMap.lookup pair)
      (fun progress => progress.1.links = state.links ∧ progress.1.directory = state.directory)
      (procRule updateCluster now) (settleRule state) := by
  have step := procRule_step updateCluster now
  constructor
  · intro progress pair kept
    exact ⟨(step progress pair).links.trans kept.1, (step progress pair).directory.trans kept.2⟩
  · intro progress pair kept
    have same : settleRule progress.1 pair = settleRule state pair :=
      funext fun _ => settleRule_congr kept.1 kept.2
    exact (step progress pair).own.trans (congrArg _ same)
  · intro progress pair other kept different
    exact (step progress pair).others other different

theorem procLearnedPolicy_round (state : LearnState) (updateCluster : Bool)
    (mapOrder : MapOrder GroupPair) (fault : ClusterFault) (now : Nat) :
    let after := (procLearnedPolicy state updateCluster mapOrder fault now).1
    after.links = state.links ∧ after.directory = state.directory ∧
      ∀ pair, after.lprWrapperMap.lookup pair =
        (state.lprWrapperMap.lookup pair).bind (settleRule state pair) := by
  let keys := mapOrder.order state.lprWrapperMap.keys
  let done := keys.foldl (procRule updateCluster now) (state, .empty)
  have perm : keys.Perm state.lprWrapperMap.keys := mapOrder.order_perm state.lprWrapperMap.keys
  have nodup : keys.Nodup := perm.nodup_iff.mpr state.lprWrapperMap.keys_nodup
  have sweep := procRule_sweep state updateCluster now
  have start : (state, LearnBatch.empty).1.links = state.links ∧
      (state, LearnBatch.empty).1.directory = state.directory := ⟨rfl, rfl⟩
  have kept := sweep.keeps_all keys start
  have rules : ∀ pair, done.1.lprWrapperMap.lookup pair =
      (state.lprWrapperMap.lookup pair).bind (settleRule state pair) := by
    intro pair
    by_cases member : pair ∈ keys
    · exact sweep.visited nodup member start
    · have absent : state.lprWrapperMap.lookup pair = none := by
        apply AList.lookup_eq_none.mpr
        intro present
        exact member (perm.mem_iff.mpr (AList.mem_keys.mp present))
      rw [absent]
      exact (sweep.not_visited member start).trans absent
  dsimp only [procLearnedPolicy]
  split
  · exact ⟨kept.1, kept.2, rules⟩
  · exact ⟨kept.1, kept.2, rules⟩

theorem Allows.nonempty {objs : Finset RuleObj} (allows : Allows objs obj) : objs ≠ ∅ := by
  rcases allows with member | ⟨_, any⟩
  · exact Finset.ne_empty_of_mem member
  · exact Finset.ne_empty_of_mem any

/-- A recalculated rule allows what the links have, and is not deleted as long
as they have something. -/
theorem recalcLearnedRule_allows (unmarked : rule.action.delete = false)
    (isApp : pair.isApp = obj.isApp) (linked : obj ∈ linkedObjs state pair) :
    Allows (recalcLearnedRule state pair rule).objs obj ∧
      (recalcLearnedRule state pair rule).action.delete = false := by
  have allows : Allows (if pair.isApp then linkedObjs state pair
      else collapsePortAny (linkedObjs state pair)) obj := by
    split
    · exact .inl linked
    next kind =>
      apply Allows.collapse (.inl linked)
      rw [← isApp]
      exact Bool.eq_false_of_not_eq_true kind
  dsimp only [recalcLearnedRule]
  generalize (if pair.isApp then linkedObjs state pair
    else collapsePortAny (linkedObjs state pair)) = objs at allows ⊢
  generalize (if pair.isApp then rule.objs else collapsePortAny rule.objs) = old
  by_cases same : old = objs
  · rw [if_pos same, same]
    exact ⟨allows, unmarked⟩
  · rw [if_neg same, if_neg allows.nonempty]
    exact ⟨allows, unmarked⟩

/-- The links of a rule that is to be recalculated are among the links that
are looked at. -/
def RecalcComplete (state : LearnState) : Prop :=
  ∀ pair rule, state.lprWrapperMap.lookup pair = some rule → rule.action.recalc = true →
    ∀ link, state.links.lookup link ≠ none →
      getLearnedPolicyRuleKey state.directory link.1 link.2 pair.isApp = some pair →
      link ∈ nodePairs state.directory pair.fromGroup pair.toGroup

theorem settleRule_covers (complete : RecalcComplete state)
    (recorded : Recorded state fromNode toNode obj)
    (key : getLearnedPolicyRuleKey state.directory fromNode toNode obj.isApp = some pair)
    (found : state.lprWrapperMap.lookup pair = some rule)
    (unmarked : rule.action.delete = false) (allows : Allows rule.objs obj) :
    ∃ settled, settleRule state pair rule = some settled ∧
      settled.action = .nothing ∧ Allows settled.objs obj := by
  have isApp : pair.isApp = obj.isApp := (getLearnedPolicyRuleKey_eq key).2.2
  have settled : Allows (recalculated state pair rule).objs obj ∧
      (recalculated state pair rule).action.delete = false := by
    unfold recalculated
    split
    next recalc =>
      rw [← isApp] at key
      have listed := complete pair rule found recalc _ recorded.linked key
      obtain ⟨attr, linkFound, member⟩ := recorded
      rw [← isApp] at member
      apply recalcLearnedRule_allows unmarked isApp
      refine (Table.mem_foldl_union _ _).mpr (.inr ⟨_, listed, ?_⟩)
      rw [linkObjs, linkFound]
      exact member
    · exact ⟨allows, unmarked⟩
  refine ⟨{ recalculated state pair rule with action := .nothing }, ?_, rfl, settled.1⟩
  rw [settleRule, settled.2]
  rfl

theorem procLearnedPolicy_covers (updateCluster : Bool)
    (mapOrder : MapOrder GroupPair) (fault : ClusterFault) (now : Nat)
    (complete : RecalcComplete state) (covers : CoversLinks NotMarked state) :
    CoversLinks Settled (procLearnedPolicy state updateCluster mapOrder fault now).1 := by
  obtain ⟨links, directory, rules⟩ := procLearnedPolicy_round state updateCluster mapOrder fault now
  rintro fromNode toNode obj ⟨attr, linkFound, member⟩
  rw [links] at linkFound
  have recorded : Recorded state fromNode toNode obj := ⟨attr, linkFound, member⟩
  obtain ⟨pair, rule, key, found, unmarked, allows⟩ := covers fromNode toNode obj recorded
  obtain ⟨settled, result, action, settledAllows⟩ :=
    settleRule_covers complete recorded key found unmarked allows
  refine ⟨pair, settled, ?_, ?_, action, settledAllows⟩
  · rw [directory]
    exact key
  · rw [rules pair, found]
    exact result

end Processing

def Orderly (state : LearnState) : LearnEvent → Prop
  | .connect conn _ => conn.Learns → Learnable state conn.clientWL conn.serverWL
  | .unlearnAll groupName => GroupUnlinked state groupName
  | .deleteNode node => node ∈ state.nodes → unlearnsNode node = true →
      GroupUnlinked (withoutNode state node) node
  | .process _ _ _ _ => RecalcComplete state
  | .refresh directory => ∀ link isApp, state.links.lookup link ≠ none →
      getLearnedPolicyRuleKey directory link.1 link.2 isApp =
        getLearnedPolicyRuleKey state.directory link.1 link.2 isApp

def OrderlyRun : LearnState → List LearnEvent → Prop
  | _, [] => True
  | state, event :: rest => Orderly state event ∧ OrderlyRun (learnStep state event) rest

variable {state : LearnState}

theorem CoversLinks.weaken (covers : CoversLinks Settled state) : CoversLinks NotMarked state := by
  intro fromNode toNode obj recorded
  obtain ⟨pair, rule, key, found, settled, allows⟩ := covers fromNode toNode obj recorded
  refine ⟨pair, rule, key, found, ?_, allows⟩
  rw [settled]
  rfl

theorem learnStep_covers {event : LearnEvent} (orderly : Orderly state event)
    (covers : CoversLinks NotMarked state) :
    CoversLinks NotMarked (learnStep state event) := by
  cases event with
  | connect conn now => exact (addConnectToGraph_follows orderly).covers covers
  | unlearnAll groupName => exact unlearnAll_covers orderly covers
  | deleteNode node => exact deleteNode_covers orderly covers
  | process updateCluster mapOrder fault now =>
    exact (procLearnedPolicy_covers updateCluster mapOrder fault now orderly covers).weaken
  | refresh directory =>
    intro fromNode toNode obj recorded
    have earlier : Recorded state fromNode toNode obj := recorded
    obtain ⟨pair, rule, key, rest⟩ := covers fromNode toNode obj earlier
    have same := orderly (fromNode, toNode) obj.isApp earlier.linked
    exact ⟨pair, rule, same.trans key, rest⟩

variable {events : List LearnEvent} {updateCluster : Bool} {mapOrder : MapOrder GroupPair}
  {fault : ClusterFault} {now : Nat}

theorem learnRun_covers (covers : CoversLinks NotMarked state)
    (orderly : OrderlyRun state (events ++ [.process updateCluster mapOrder fault now])) :
    CoversLinks Settled (learnRun state
        (events ++ [.process updateCluster mapOrder fault now])) := by
  induction events generalizing state with
  | nil => exact procLearnedPolicy_covers updateCluster mapOrder fault now orderly.1 covers
  | cons event rest induction => exact induction (learnStep_covers orderly.1 covers) orderly.2

/-- After every round of an orderly run, the rule of the groups of two nodes
allows all that the policy link between the nodes has, and nothing is left to
be done with the rule. -/
theorem learned_rules_cover_links (start : LearnState)
    (unlinked : start.links = ∅) (events : List LearnEvent)
    (updateCluster : Bool) (mapOrder : MapOrder GroupPair) (fault : ClusterFault) (now : Nat)
    (orderly : OrderlyRun start (events ++ [.process updateCluster mapOrder fault now])) :
    CoversLinks Settled (learnRun start
        (events ++ [.process updateCluster mapOrder fault now])) := by
  have nothing : CoversLinks NotMarked start := by
    rintro fromNode toNode obj ⟨attr, found, _⟩
    rw [unlinked] at found
    cases found
  exact learnRun_covers nothing orderly

def insertionOrder : MapOrder GroupPair := { order := id, order_perm := fun _ => List.Perm.refl _ }

def shopDirectory : Directory :=
  { wlCacheMap := AList.singleton "shop-1" ⟨"nv.shop", []⟩
    ipHostMap := []
    hostCacheMap := []
    groupCacheMap := AList.singleton "nv.shop" ["shop-1"]
    parseIP := fun _ => false }

def shopStart : LearnState :=
  { directory := shopDirectory, nodes := ∅, links := ∅, lprWrapperMap := ∅
    maxLearnRuleID := policyLearnedIDBase, lprActiveRuleIDs := []
    cluster := { rules := ∅, heads := [] } }

def shopVisit : Connection :=
  { clientWL := "Workload:10.0.0.9", serverWL := "shop-1"
    proxyMesh := false, xff := false, ipProto := ipProtoTCP, wlPort := 80
    application := 1001, policyAction := .learn, policyId := 0 }

def shopRound : LearnEvent := .process false insertionOrder .none 0

theorem shopVisit_learnable (directory : state.directory = shopDirectory)
    (links : state.links = ∅) (rules : state.lprWrapperMap = ∅)
    (max : state.maxLearnRuleID = policyLearnedIDBase) :
    Learnable state shopVisit.clientWL shopVisit.serverWL := by
  constructor
  · rw [directory]
    decide
  · rw [directory]
    decide
  · rw [directory]
    decide
  · intro isApp rule found
    rw [rules] at found
    cases found
  · left
    rw [max]
    decide
  · intro link listed linked
    rw [links] at linked
    exact absurd rfl linked

theorem recalcComplete_of_added {rule : LearnedPolicyRuleWrapper}
    (rules : state.lprWrapperMap = AList.singleton pair rule)
    (kept : rule.action.recalc = false) : RecalcComplete state := by
  intro other found lookup recalc
  rw [rules] at lookup
  obtain ⟨rfl, rfl⟩ := Table.lookup_singleton lookup
  rw [kept] at recalc
  cases recalc

/-- The rounds before and after the deletion are done before the next visit. -/
theorem learned_rules_cover_links_visits :
    CoversLinks Settled (learnRun shopStart
        ([.connect shopVisit 0, shopRound, .deleteNode shopVisit.clientWL, shopRound,
          .connect shopVisit 0] ++ [shopRound])) := by
  apply learned_rules_cover_links
  · rfl
  · refine ⟨?_, ?_, ?_, ?_, ?_, ?_, trivial⟩
    · intro _
      exact shopVisit_learnable rfl rfl rfl rfl
    · apply recalcComplete_of_added
      · rfl
      · rfl
    · intro _ _ link linked
      exact absurd rfl linked
    · intro pair rule found recalc link linked
      exact absurd rfl linked
    · intro _
      exact shopVisit_learnable rfl rfl rfl rfl
    · apply recalcComplete_of_added
      · rfl
      · rfl

/-- The visit before the round is learned by a rule that the round deletes. -/
theorem relearned_rule_deleted :
    ¬CoversLinks Settled (learnRun shopStart
        [.connect shopVisit 0, shopRound, .deleteNode shopVisit.clientWL,
          .connect shopVisit 0, shopRound]) := by
  intro covers
  let final := learnRun shopStart [.connect shopVisit 0, shopRound, .deleteNode shopVisit.clientWL,
      .connect shopVisit 0, shopRound]
  have recorded : Recorded final shopVisit.clientWL shopVisit.serverWL (.app 1001) :=
    ⟨{ PolAttr.empty with apps := {1001}, portsSeen := {"tcp/80"} }, rfl,
      app_mem_objs.mpr (Finset.mem_singleton_self 1001)⟩
  obtain ⟨pair, rule, _, found, _⟩ := covers _ _ _ recorded
  have gone : final.lprWrapperMap = ∅ := rfl
  cases found

end NeuVector.Controller
