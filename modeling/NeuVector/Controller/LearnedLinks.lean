import NeuVector.Controller.Learning

/-!
# Learned rules of a link

What a policy link has, an application or a port, should be allowed by the
learned rule of the groups of its two nodes.  Between two rounds of processing
such a rule exists and is not marked for deletion.  Learning an application or
a port keeps this if the rule it adds to is not marked.
-/

namespace NeuVector.Controller

open Library

def Recorded (state : LearnState) (fromNode toNode : String) (obj : RuleObj) : Prop :=
  ∃ attr, state.links.lookup (fromNode, toNode) = some attr ∧ obj ∈ attr.objs obj.isApp

def Allows (objs : Finset RuleObj) (obj : RuleObj) : Prop :=
  obj ∈ objs ∨ obj.isApp = false ∧ portAny ∈ objs

/-- The learned rule of the groups of two nodes allows something. -/
def HasRule (ready : LprAction → Prop) (state : LearnState)
    (fromNode toNode : String) (obj : RuleObj) : Prop :=
  ∃ pair rw, getLearnedPolicyRuleKey state.directory fromNode toNode obj.isApp = some pair ∧
    state.lprWrapperMap.lookup pair = some rw ∧
    ready rw.action ∧ Allows rw.objs obj

def CoversLinks (ready : LprAction → Prop) (state : LearnState) : Prop :=
  ∀ fromNode toNode obj, Recorded state fromNode toNode obj →
    HasRule ready state fromNode toNode obj

def Settled (action : LprAction) : Prop := action = .nothing

def NotMarked (action : LprAction) : Prop := action.delete = false

variable {port : String}

section Objects

variable {attr : PolAttr} {objs : Finset RuleObj} {obj : RuleObj}

@[simp]
theorem app_mem_objs {application : Nat} :
    RuleObj.app application ∈ attr.objs true ↔ application ∈ attr.apps := by simp [PolAttr.objs]

@[simp]
theorem port_mem_objs : RuleObj.port port ∈ attr.objs false ↔ port ∈ attr.ports := by
  simp [PolAttr.objs]

theorem Allows.insert {added : RuleObj} (allows : Allows objs obj) :
    Allows (insert added objs) obj := by
  rcases allows with member | ⟨isPort, any⟩
  · exact .inl (Finset.mem_insert_of_mem member)
  · exact .inr ⟨isPort, Finset.mem_insert_of_mem any⟩

theorem allows_portAny (isPort : obj.isApp = false) : Allows {portAny} obj :=
  .inr ⟨isPort, Finset.mem_singleton_self portAny⟩

theorem Allows.collapse (allows : Allows objs obj)
    (isPort : obj.isApp = false) : Allows (collapsePortAny objs) obj := by
  unfold collapsePortAny
  split
  · exact allows_portAny isPort
  · exact allows

end Objects

section Keys

variable {directory : Directory} {fromNode toNode : String} {isApp : Bool} {pair : GroupPair}

theorem getLearnedPolicyRuleKey_eq
    (found : getLearnedPolicyRuleKey directory fromNode toNode isApp = some pair) :
    pair.fromGroup = (node2Group directory fromNode).1 ∧
      pair.toGroup = (node2Group directory toNode).1 ∧
      pair.isApp = isApp := by
  simp only [getLearnedPolicyRuleKey] at found
  split at found
  · cases found
  · split at found
    · cases found
    · cases found
      exact ⟨rfl, rfl, rfl⟩

theorem getLearnedPolicyRuleKey_found (fromGroup : (node2Group directory fromNode).1 ≠ "")
    (toGroup : (node2Group directory toNode).1 ≠ "")
    (container : (node2Group directory fromNode).2 = true ∨
      (node2Group directory toNode).2 = true) :
    getLearnedPolicyRuleKey directory fromNode toNode isApp =
      some ⟨(node2Group directory fromNode).1, (node2Group directory toNode).1, isApp⟩ := by
  have grouped : ¬((node2Group directory fromNode).1 = "" ∨
      (node2Group directory toNode).1 = "") := not_or.mpr ⟨fromGroup, toGroup⟩
  have contained : ¬((node2Group directory fromNode).2 = false ∧
      (node2Group directory toNode).2 = false) := by
    rintro ⟨first, second⟩
    simp [first, second] at container
  simp only [getLearnedPolicyRuleKey, if_neg grouped, if_neg contained]

end Keys

/-- Everything covered stays covered, and what the links have in addition is
covered too. -/
structure Follows (before after : LearnState) : Prop where
  carries : ∀ fromNode toNode obj,
    HasRule NotMarked before fromNode toNode obj → HasRule NotMarked after fromNode toNode obj
  links : ∀ fromNode toNode obj, Recorded after fromNode toNode obj →
    Recorded before fromNode toNode obj ∨ HasRule NotMarked after fromNode toNode obj

variable {fromNode toNode : String} {obj : RuleObj} {pair : GroupPair}

section Follows

variable {before middle after state : LearnState}

theorem Follows.refl (state : LearnState) : Follows state state :=
  ⟨fun _ _ _ covered => covered, fun _ _ _ recorded => .inl recorded⟩

theorem Follows.trans (first : Follows before middle)
    (second : Follows middle after) : Follows before after := by
  constructor
  · intro fromNode toNode obj covered
    exact second.carries _ _ _ (first.carries _ _ _ covered)
  · intro fromNode toNode obj recorded
    rcases second.links _ _ _ recorded with earlier | covered
    · rcases first.links _ _ _ earlier with earliest | covered
      · exact .inl earliest
      · exact .inr (second.carries _ _ _ covered)
    · exact .inr covered

theorem Follows.covers (follows : Follows before after) (covers : CoversLinks NotMarked before) :
    CoversLinks NotMarked after := by
  intro fromNode toNode obj recorded
  rcases follows.links _ _ _ recorded with earlier | covered
  · exact follows.carries _ _ _ (covers _ _ _ earlier)
  · exact covered

theorem HasRule.congr {ready : LprAction → Prop}
    (covered : HasRule ready before fromNode toNode obj)
    (directory : after.directory = before.directory)
    (rules : after.lprWrapperMap = before.lprWrapperMap) :
    HasRule ready after fromNode toNode obj := by
  obtain ⟨pair, rw, key, found, isReady, allows⟩ := covered
  exact ⟨pair, rw, by rw [directory, key], by rw [rules, found], isReady, allows⟩

theorem HasRule.setRule (covered : HasRule NotMarked before fromNode toNode obj)
    {rw : LearnedPolicyRuleWrapper} (directory : after.directory = before.directory)
    (rules : after.lprWrapperMap = before.lprWrapperMap.insert pair rw)
    (more : ∀ old, before.lprWrapperMap.lookup pair = some old →
      NotMarked old.action → NotMarked rw.action ∧
        ∀ obj : RuleObj, obj.isApp = pair.isApp → Allows old.objs obj → Allows rw.objs obj) :
    HasRule NotMarked after fromNode toNode obj := by
  obtain ⟨own, old, key, found, unmarked, allows⟩ := covered
  by_cases same : own = pair
  · subst same
    obtain ⟨marked, more⟩ := more old found unmarked
    have isApp := (getLearnedPolicyRuleKey_eq key).2.2
    exact ⟨own, rw, by rw [directory, key], by rw [rules, AList.lookup_insert], marked,
      more obj isApp.symm allows⟩
  · exact ⟨own, old, by rw [directory, key],
      by rw [rules, AList.lookup_insert_ne same, found], unmarked, allows⟩

end Follows

/-- What learning between two nodes needs: both nodes have a group and one of
them is a container, no rule between the groups is marked for deletion, a rule
can get an id, and the links between the nodes listed for the two groups are
links between the groups. -/
structure Learnable (state : LearnState) (fromNode toNode : String) : Prop where
  fromGroup : (node2Group state.directory fromNode).1 ≠ ""
  toGroup : (node2Group state.directory toNode).1 ≠ ""
  container : (node2Group state.directory fromNode).2 = true ∨
    (node2Group state.directory toNode).2 = true
  unmarked : ∀ isApp rw, state.lprWrapperMap.lookup ⟨(node2Group state.directory fromNode).1,
        (node2Group state.directory toNode).1, isApp⟩ = some rw →
      rw.action.delete = false
  numbered : state.maxLearnRuleID < policyFedRuleIDBase - 1 ∨
    freeIDs state.lprActiveRuleIDs .learned ≠ []
  listed : ∀ link ∈ nodePairs state.directory (node2Group state.directory fromNode).1
      (node2Group state.directory toNode).1,
    state.links.lookup link ≠ none → getLearnedPolicyRuleKey state.directory link.1 link.2 false =
        getLearnedPolicyRuleKey state.directory fromNode toNode false

variable {link : String × String} {clientNode serverNode : String}

section Learning

variable {state : LearnState} {fromNode toNode : String} {obj : RuleObj}

theorem allocLearnedRuleID_pos
    (numbered : state.maxLearnRuleID < policyFedRuleIDBase - 1 ∨
      freeIDs state.lprActiveRuleIDs .learned ≠ []) :
    0 < (allocLearnedRuleID state).1 := by
  simp only [allocLearnedRuleID]
  split
  · exact Nat.succ_pos _
  next full =>
    have free := getAvailablePolicyID_free (numbered.resolve_left full)
    have lower := (mem_freeIDs.mp free).1.1
    exact Nat.lt_of_lt_of_le (by decide) lower

def nodesPair (state : LearnState) (fromNode toNode : String) (isApp : Bool) : GroupPair :=
  ⟨(node2Group state.directory fromNode).1, (node2Group state.directory toNode).1, isApp⟩

inductive LearnCase (state : LearnState) (fromNode toNode : String)
    (obj : RuleObj) : LearnState → Prop
  | known {rw : LearnedPolicyRuleWrapper}
      (found : state.lprWrapperMap.lookup (nodesPair state fromNode toNode obj.isApp) = some rw)
      (member : obj ∈ rw.objs) :
      LearnCase state fromNode toNode obj state
  | anyPort {rw : LearnedPolicyRuleWrapper} {port : String}
      (found : state.lprWrapperMap.lookup (nodesPair state fromNode toNode obj.isApp) = some rw)
      (isPort : obj = .port port) (any : portAny ∈ rw.objs) :
      LearnCase state fromNode toNode obj
        { state with
          links := Table.modify (fromNode, toNode) (addSingleLinkPortAny port) state.links }
  | added {rw : LearnedPolicyRuleWrapper}
      (found : state.lprWrapperMap.lookup (nodesPair state fromNode toNode obj.isApp) = some rw) :
      LearnCase state fromNode toNode obj (state.setRule (nodesPair state fromNode toNode obj.isApp)
          { markModify rw with objs := insert obj rw.objs })
  | replaced {rw : LearnedPolicyRuleWrapper}
      (found : state.lprWrapperMap.lookup (nodesPair state fromNode toNode obj.isApp) = some rw)
      (isPort : obj.isApp = false) :
      LearnCase state fromNode toNode obj
        (replaceLearnedRulePortAny state (nodesPair state fromNode toNode obj.isApp)
          { markModify rw with objs := insert obj rw.objs })
  | created {id max : Nat} {active : List Nat}
      (absent : state.lprWrapperMap.lookup (nodesPair state fromNode toNode obj.isApp) = none) :
      LearnCase state fromNode toNode obj
        ({ state with
            maxLearnRuleID := max
            lprActiveRuleIDs := active }.setRule
          (nodesPair state fromNode toNode obj.isApp)
          { objs := {obj}, id := id, action := .lprAdd })

theorem Learnable.key (learnable : Learnable state fromNode toNode) (isApp : Bool) :
    getLearnedPolicyRuleKey state.directory fromNode toNode isApp =
      some (nodesPair state fromNode toNode isApp) :=
  getLearnedPolicyRuleKey_found learnable.fromGroup learnable.toGroup learnable.container

theorem learnAppPort_cases (learnable : Learnable state fromNode toNode) :
    LearnCase state fromNode toNode obj (learnAppPort state fromNode toNode obj).1 := by
  simp only [learnAppPort, learnable.key obj.isApp]
  cases found : state.lprWrapperMap.lookup (nodesPair state fromNode toNode obj.isApp) with
  | none =>
    have positive := allocLearnedRuleID_pos learnable.numbered
    simp only [if_pos positive]
    exact .created found
  | some rw =>
    simp only
    split
    next member => exact .known found member
    · split
      next any =>
        cases obj with
        | app application => cases any.1
        | port port => exact .anyPort found rfl any.2
      · simp only [learnIntoRule]
        split
        next many => exact .replaced found many.1
        · exact .added found

variable {after : LearnState} {attr : PolAttr}

theorem mem_objs_of {old : PolAttr} {added : RuleObj} (member : obj ∈ attr.objs obj.isApp)
    (apps : ∀ application ∈ attr.apps, application ∈ old.apps ∨ .app application = added)
    (ports : ∀ port ∈ attr.ports, port ∈ old.ports ∨ .port port = added) :
    obj ∈ old.objs obj.isApp ∨ obj = added := by
  cases obj with
  | app application => exact (apps _ (app_mem_objs.mp member)).imp_left app_mem_objs.mpr
  | port port => exact (ports _ (port_mem_objs.mp member)).imp_left port_mem_objs.mpr

theorem mem_objs_addLinkPortAny {objs : Finset RuleObj}
    (member : obj ∈ (addLinkPortAny objs attr).objs obj.isApp) :
    obj ∈ attr.objs obj.isApp ∨ obj = portAny := by
  refine mem_objs_of member (fun _ => .inl) ?_
  intro port inserted
  rcases Finset.mem_insert.mp inserted with any | kept
  · exact .inr (congrArg RuleObj.port any)
  · exact .inl (Finset.mem_filter.mp kept).1

theorem mem_objs_addSingleLinkPortAny
    (member : obj ∈ (addSingleLinkPortAny port attr).objs obj.isApp) :
    obj ∈ attr.objs obj.isApp ∨ obj = portAny := by
  refine mem_objs_of member (fun _ => .inl) ?_
  intro own inserted
  rcases Finset.mem_insert.mp inserted with any | kept
  · exact .inr (congrArg RuleObj.port any)
  · exact .inl (Finset.mem_erase.mp kept).2

/-- Links modified one after the other have what they had, and all ports where
they were modified. -/
theorem foldl_modify_links {modified : PolAttr → PolAttr}
    (adds : ∀ attr (obj : RuleObj), obj ∈ (modified attr).objs obj.isApp →
      obj ∈ attr.objs obj.isApp ∨ obj = portAny)
    (visited : List (String × String)) (links : GoMap (String × String) PolAttr)
    (found : (visited.foldl (fun links nodes =>
      Table.modify nodes modified links) links).lookup link = some attr)
    (member : obj ∈ attr.objs obj.isApp) :
    ∃ old, links.lookup link = some old ∧
      (obj ∈ old.objs obj.isApp ∨ obj = portAny ∧ link ∈ visited) := by
  induction visited generalizing links with
  | nil => exact ⟨attr, found, .inl member⟩
  | cons first rest induction =>
    obtain ⟨middle, middleFound, kept⟩ := induction (Table.modify first modified links) found
    by_cases same : link = first
    · subst same
      rw [Table.lookup_modify_self] at middleFound
      obtain ⟨old, oldFound, rfl⟩ := Option.map_eq_some_iff.mp middleFound
      refine ⟨old, oldFound, ?_⟩
      rcases kept with inMiddle | ⟨any, _⟩
      · rcases adds old obj inMiddle with inOld | any
        · exact .inl inOld
        · exact .inr ⟨any, List.mem_cons_self⟩
      · exact .inr ⟨any, List.mem_cons_self⟩
    · rw [Table.lookup_modify_ne modified same] at middleFound
      refine ⟨middle, middleFound, ?_⟩
      rcases kept with inMiddle | ⟨any, later⟩
      · exact .inl inMiddle
      · exact .inr ⟨any, List.mem_cons_of_mem _ later⟩

theorem replaceLearnedRulePortAny_links {rw : LearnedPolicyRuleWrapper}
    (isPort : pair.isApp = false) :
    (replaceLearnedRulePortAny state pair rw).links =
      (nodePairs state.directory pair.fromGroup pair.toGroup).foldl (fun links nodes =>
          Table.modify nodes (addLinkPortAny rw.objs) links)
        state.links := by
  simp only [replaceLearnedRulePortAny, replaceLinksPortAny,
    LearnState.setRule, isPort, Bool.false_eq_true, if_false]

section

variable (step : LearnCase state fromNode toNode obj after)
include step

theorem LearnCase.learned (learnable : Learnable state fromNode toNode) :
    HasRule NotMarked after fromNode toNode obj := by
  have key := learnable.key obj.isApp
  cases step with
  | known found member => exact ⟨_, _, key, found, learnable.unmarked _ _ found, .inl member⟩
  | anyPort found isPort any =>
    refine ⟨_, _, key, found, learnable.unmarked _ _ found, .inr ⟨?_, any⟩⟩
    rw [isPort]
    rfl
  | added found =>
    have unmarked := learnable.unmarked _ _ found
    exact ⟨_, _, key, AList.lookup_insert _, unmarked, .inl (Finset.mem_insert_self _ _)⟩
  | replaced found isPort =>
    have unmarked := learnable.unmarked _ _ found
    exact ⟨_, _, key, AList.lookup_insert _, unmarked, allows_portAny isPort⟩
  | created absent =>
    exact ⟨_, _, key, AList.lookup_insert _, rfl, .inl (Finset.mem_singleton_self obj)⟩

theorem LearnCase.carries {other : RuleObj}
    (covered : HasRule NotMarked state clientNode serverNode other) :
    HasRule NotMarked after clientNode serverNode other := by
  cases step with
  | known found member => exact covered
  | anyPort found isPort any => exact covered.congr rfl rfl
  | added found =>
    refine covered.setRule rfl rfl ?_
    intro old oldFound unmarked
    cases found.symm.trans oldFound
    exact ⟨unmarked, fun _ _ allows => allows.insert⟩
  | replaced found isPort =>
    refine covered.setRule rfl rfl ?_
    intro old oldFound unmarked
    cases found.symm.trans oldFound
    refine ⟨unmarked, fun another isApp _ => ?_⟩
    exact allows_portAny (isApp.trans isPort)
  | created absent =>
    refine covered.setRule rfl rfl ?_
    intro old oldFound
    cases absent.symm.trans oldFound

theorem LearnCase.links (learnable : Learnable state fromNode toNode)
    {other : RuleObj} (recorded : Recorded after clientNode serverNode other) :
    Recorded state clientNode serverNode other ∨
      HasRule NotMarked after clientNode serverNode other := by
  cases step with
  | known found member => exact .inl recorded
  | anyPort found isPort any =>
    obtain ⟨attr, attrFound, member⟩ := recorded
    by_cases same : (clientNode, serverNode) = (fromNode, toNode)
    · cases same
      rw [Table.lookup_modify_self] at attrFound
      obtain ⟨old, oldFound, rfl⟩ := Option.map_eq_some_iff.mp attrFound
      rcases mem_objs_addSingleLinkPortAny member with inOld | rfl
      · exact .inl ⟨old, oldFound, inOld⟩
      · subst isPort
        exact .inr ⟨_, _, learnable.key false, found, learnable.unmarked _ _ found, .inl any⟩
    · rw [Table.lookup_modify_ne _ same] at attrFound
      exact .inl ⟨attr, attrFound, member⟩
  | added found => exact .inl recorded
  | @replaced rule found isPort =>
    obtain ⟨attr, attrFound, member⟩ := recorded
    rw [replaceLearnedRulePortAny_links isPort] at attrFound
    obtain ⟨old, oldFound, kept⟩ := foldl_modify_links
      (fun _ _ => mem_objs_addLinkPortAny) _ _ attrFound member
    rcases kept with inOld | ⟨rfl, visited⟩
    · exact .inl ⟨old, oldFound, inOld⟩
    · have linked : state.links.lookup (clientNode, serverNode) ≠ none := by
        rw [oldFound]
        exact Option.some_ne_none old
      have key := learnable.listed _ visited linked
      have unmarked := learnable.unmarked _ _ found
      have ownKey : getLearnedPolicyRuleKey state.directory clientNode serverNode portAny.isApp =
          some (nodesPair state fromNode toNode obj.isApp) := by
        rw [isPort]
        exact key.trans (learnable.key false)
      exact .inr ⟨_, _, ownKey, AList.lookup_insert _, unmarked, allows_portAny rfl⟩
  | created absent => exact .inl recorded

end

theorem learnAppPort_follows (learnable : Learnable state fromNode toNode) :
    Follows state (learnAppPort state fromNode toNode obj).1 := by
  have step : LearnCase state fromNode toNode obj _ := learnAppPort_cases learnable
  constructor
  · intro clientNode serverNode other covered
    exact step.carries covered
  · intro clientNode serverNode other recorded
    exact step.links learnable recorded

theorem learnAppPort_learned (learnable : Learnable state fromNode toNode) :
    HasRule NotMarked (learnAppPort state fromNode toNode obj).1 fromNode toNode obj :=
  (learnAppPort_cases learnable).learned learnable

end Learning

end NeuVector.Controller
