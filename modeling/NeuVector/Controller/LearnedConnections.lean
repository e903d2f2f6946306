import NeuVector.Controller.LearnedLinks

/-!
# Connections and deletions

A connection records what it uses with its link and learns it, and the
deletion of a node or of a group without links takes rules away that no link
needs any more.
-/

namespace NeuVector.Controller

open Library

variable {port : String} {fromNode toNode : String} {obj : RuleObj} {pair : GroupPair}
  {link : String × String} {clientNode serverNode : String}

section Connections

variable {state : LearnState} {fromNode toNode : String} {obj : RuleObj} {attr : PolAttr}
variable {other : RuleObj}

theorem recorded_setLink
    (recorded : Recorded (state.setLink fromNode toNode attr) clientNode serverNode other) :
    Recorded state clientNode serverNode other ∨ (clientNode = fromNode ∧ serverNode = toNode) ∧
        other ∈ attr.objs other.isApp := by
  obtain ⟨found, lookup, member⟩ := recorded
  by_cases same : (clientNode, serverNode) = (fromNode, toNode)
  · cases same
    cases (AList.lookup_insert state.links).symm.trans lookup
    exact .inr ⟨⟨rfl, rfl⟩, member⟩
  · rw [LearnState.setLink, AList.lookup_insert_ne same] at lookup
    exact .inl ⟨found, lookup, member⟩

theorem Follows.setLink {before : LearnState} (follows : Follows before state)
    (covered : ∀ other : RuleObj, other ∈ attr.objs other.isApp →
      Recorded before fromNode toNode other ∨ HasRule NotMarked state fromNode toNode other) :
    Follows before (state.setLink fromNode toNode attr) := by
  constructor
  · intro clientNode serverNode other hasRule
    exact (follows.carries _ _ _ hasRule).congr rfl rfl
  · intro clientNode serverNode other recorded
    rcases recorded_setLink recorded with linked | ⟨⟨rfl, rfl⟩, member⟩
    · rcases follows.links _ _ _ linked with earlier | hasRule
      · exact .inl earlier
      · exact .inr (hasRule.congr rfl rfl)
    · rcases covered other member with earlier | hasRule
      · exact .inl earlier
      · exact .inr (hasRule.congr rfl rfl)

theorem Learnable.setLink (learnable : Learnable state fromNode toNode) (attr : PolAttr) :
    Learnable (state.setLink fromNode toNode attr) fromNode toNode := by
  refine ⟨learnable.fromGroup, learnable.toGroup, learnable.container,
    learnable.unmarked, learnable.numbered, ?_⟩
  intro link member linked
  by_cases same : link = (fromNode, toNode)
  · subst same
    rfl
  · rw [LearnState.setLink, AList.lookup_insert_ne same] at linked
    exact learnable.listed link member linked

theorem learnLink_follows (learnable : Learnable state fromNode toNode)
    (within : ∀ other : RuleObj, other ∈ attr.objs other.isApp →
      other = obj ∨ Recorded state fromNode toNode other) :
    Follows state (learnAppPort (state.setLink fromNode toNode attr) fromNode toNode obj).1 := by
  have follows : Follows (state.setLink fromNode toNode attr)
      (learnAppPort (state.setLink fromNode toNode attr) fromNode toNode
        obj).1 := learnAppPort_follows (learnable.setLink attr)
  have learned : HasRule NotMarked _ fromNode toNode obj :=
    learnAppPort_learned (learnable.setLink attr)
  constructor
  · intro clientNode serverNode other hasRule
    exact follows.carries _ _ _ (hasRule.congr rfl rfl)
  · intro clientNode serverNode other recorded
    rcases follows.links _ _ _ recorded with linked | hasRule
    · rcases recorded_setLink linked with earlier | ⟨⟨rfl, rfl⟩, member⟩
      · exact .inl earlier
      · rcases within other member with rfl | earlier
        · exact .inr learned
        · exact .inl earlier
    · exact .inr hasRule

theorem unlearnAppPort_follows (state : LearnState) (fromNode toNode : String) (isApp : Bool) :
    Follows state (unlearnAppPort state fromNode toNode isApp) := by
  unfold unlearnAppPort
  cases getLearnedPolicyRuleKey state.directory fromNode toNode isApp with
  | none => exact Follows.refl state
  | some marked =>
    constructor
    · rintro clientNode serverNode other ⟨pair, rule, key, found, unmarked, allows⟩
      by_cases same : pair = marked
      · subst same
        refine ⟨pair, markRecalc rule, key, ?_, unmarked, allows⟩
        rw [Table.lookup_modify_self, found]
        rfl
      · refine ⟨pair, rule, key, ?_, unmarked, allows⟩
        rw [Table.lookup_modify_ne _ same, found]
    · intro clientNode serverNode other recorded
      exact .inl recorded

variable {conn : Connection} {ipp : String} {now : Int}

theorem replacePortRule_follows (learnable : Learnable state conn.clientWL conn.serverWL)
    (within : ∀ other : RuleObj, other ∈ attr.objs other.isApp →
      other = .app conn.application ∨ Recorded state conn.clientWL conn.serverWL other) :
    Follows state (replacePortRule state conn ipp attr now).1 := by
  have follows := learnLink_follows learnable within
  have learned : HasRule NotMarked _ conn.clientWL conn.serverWL (.app conn.application) :=
    learnAppPort_learned (learnable.setLink attr)
  refine Follows.trans (follows.setLink ?_) (unlearnAppPort_follows _ _ _ _)
  intro other member
  have inAttr : other ∈ attr.objs other.isApp := by
    cases other with
    | app application => exact app_mem_objs.mpr (app_mem_objs.mp member)
    | port port => exact port_mem_objs.mpr (Finset.mem_erase.mp (port_mem_objs.mp member)).2
  rcases within other inAttr with rfl | earlier
  · exact .inr learned
  · exact .inl earlier

section

variable {old : PolAttr} (found : state.links.lookup (fromNode, toNode) = some old)
  (member : other ∈ attr.objs other.isApp)
include found member

theorem objs_insert_app {application : Nat} (apps : attr.apps = insert application old.apps)
    (ports : attr.ports = old.ports) :
    other = .app application ∨ Recorded state fromNode toNode other := by
  refine (mem_objs_of member ?_ fun _ known => .inl (ports ▸ known)).symm.imp_right fun kept =>
    ⟨old, found, kept⟩
  intro own inserted
  rw [apps] at inserted
  exact (Finset.mem_insert.mp inserted).symm.imp_right (congrArg RuleObj.app)

theorem objs_insert_port (apps : attr.apps = old.apps)
    (ports : attr.ports = insert port old.ports) :
    other = .port port ∨ Recorded state fromNode toNode other := by
  refine (mem_objs_of member (fun _ known => .inl (apps ▸ known)) ?_).symm.imp_right fun kept =>
    ⟨old, found, kept⟩
  intro own inserted
  rw [ports] at inserted
  exact (Finset.mem_insert.mp inserted).symm.imp_right (congrArg RuleObj.port)

end

section

variable (learnable : Learnable state conn.clientWL conn.serverWL)
include learnable

theorem learnKnownLink_follows (found : state.links.lookup conn.link = some attr) :
    Follows state (learnKnownLink state conn ipp attr now).1 := by
  unfold learnKnownLink
  split
  · split
    · exact replacePortRule_follows learnable fun _ member => objs_insert_app found member rfl rfl
    · split
      · exact Follows.refl state
      · exact Follows.refl state
  · split
    · exact learnLink_follows learnable fun _ member => objs_insert_port found member rfl rfl
    · split
      · exact Follows.refl state
      · exact Follows.refl state

theorem learnNewLink_follows : Follows state (learnNewLink state conn ipp).1 := by
  unfold learnNewLink
  split
  · have learned : HasRule NotMarked _ conn.clientWL conn.serverWL
        (.app conn.application) := learnAppPort_learned learnable
    refine (learnAppPort_follows learnable).setLink ?_
    intro other member
    cases other with
    | app application =>
      cases Finset.mem_singleton.mp (app_mem_objs.mp member)
      exact .inr learned
    | port port => exact absurd (port_mem_objs.mp member) (Finset.notMem_empty _)
  · split
    · refine learnLink_follows learnable ?_
      intro other member
      cases other with
      | app application => exact absurd (app_mem_objs.mp member) (Finset.notMem_empty _)
      | port port =>
        cases Finset.mem_singleton.mp (port_mem_objs.mp member)
        exact .inl rfl
    · exact Follows.refl state

theorem allowKnownLink_follows (found : state.links.lookup conn.link = some attr) :
    Follows state (allowKnownLink state conn ipp attr now).1 := by
  unfold allowKnownLink
  split
  · exact Follows.refl state
  · split
    · split
      · exact replacePortRule_follows learnable fun _ member => objs_insert_app found member rfl rfl
      · split
        · exact learnLink_follows learnable fun _ member => objs_insert_app found member rfl rfl
        · exact Follows.refl state
    · split
      · exact Follows.refl state
      · exact Follows.refl state

end

/-- Whether a connection is looked at for policy links. -/
def Connection.Learns (conn : Connection) : Prop :=
  conn.clientWL ≠ "" ∧ conn.serverWL ≠ "" ∧ ¬(conn.proxyMesh = true ∧ conn.xff = false) ∧
    (conn.policyAction = .learn ∨ conn.policyAction = .allow)

theorem learnConnection_follows
    (learnable : conn.policyAction = .learn ∨ conn.policyAction = .allow →
      Learnable state conn.clientWL conn.serverWL) :
    Follows state (learnConnection state conn now).1 := by
  unfold learnConnection
  split
  next action found => exact learnKnownLink_follows (learnable (.inl action)) found
  next action found => exact learnNewLink_follows (learnable (.inl action))
  next action found => exact allowKnownLink_follows (learnable (.inr action)) found
  · exact Follows.refl state

theorem Learnable.withNodes (learnable : Learnable state fromNode toNode) (nodes : Finset String) :
    Learnable { state with nodes := nodes } fromNode toNode :=
  ⟨learnable.fromGroup, learnable.toGroup, learnable.container,
    learnable.unmarked, learnable.numbered, learnable.listed⟩

theorem Follows.withNodes (state : LearnState) (nodes : Finset String) :
    Follows state { state with nodes := nodes } :=
  ⟨fun _ _ _ hasRule => hasRule.congr rfl rfl, fun _ _ _ recorded => .inl recorded⟩

theorem addConnectToGraph_follows
    (learnable : conn.Learns → Learnable state conn.clientWL conn.serverWL) :
    Follows state (addConnectToGraph state conn now).1 := by
  unfold addConnectToGraph
  split
  · exact Follows.refl state
  next named =>
    obtain ⟨client, server⟩ := not_or.mp named
    split
    · exact Follows.withNodes state _
    next noMesh =>
      refine (Follows.withNodes state _).trans (learnConnection_follows ?_)
      intro action
      exact (learnable ⟨client, server, noMesh, action⟩).withNodes _

end Connections

section Unlearning

variable {state : LearnState}

def GroupUnlinked (state : LearnState) (groupName : String) : Prop :=
  ∀ link, state.links.lookup link ≠ none → (node2Group state.directory link.1).1 ≠ groupName ∧
      (node2Group state.directory link.2).1 ≠ groupName

theorem Recorded.linked (recorded : Recorded state fromNode toNode obj) :
    state.links.lookup (fromNode, toNode) ≠ none := by
  obtain ⟨attr, found, _⟩ := recorded
  rw [found]
  exact Option.some_ne_none attr

theorem unlearnAll_covers {groupName : String} (unlinked : GroupUnlinked state groupName)
    (covers : CoversLinks NotMarked state) :
    CoversLinks NotMarked (unlearnAll state groupName) := by
  intro fromNode toNode obj recorded
  have linked : state.links.lookup (fromNode, toNode) ≠ none := Recorded.linked recorded
  obtain ⟨fromOther, toOther⟩ := unlinked _ linked
  obtain ⟨pair, rule, key, found, unmarked, allows⟩ := covers _ _ _ recorded
  obtain ⟨fromGroup, toGroup, _⟩ := getLearnedPolicyRuleKey_eq key
  have other : ¬(pair.fromGroup = groupName ∨ pair.toGroup = groupName) := by
    rw [fromGroup, toGroup]
    exact not_or.mpr ⟨fromOther, toOther⟩
  refine ⟨pair, rule, key, ?_, unmarked, allows⟩
  rw [unlearnAll, Table.lookup_mapValues, found, Option.map_some, if_neg other]

def withoutNode (state : LearnState) (node : String) : LearnState :=
  { state with
    nodes := state.nodes.erase node
    links := Table.filterKeys (fun link => link.1 ≠ node ∧ link.2 ≠ node) state.links }

theorem withoutNode_follows (state : LearnState) (node : String) :
    Follows state (withoutNode state node) := by
  constructor
  · intro fromNode toNode obj hasRule
    exact hasRule.congr rfl rfl
  · rintro fromNode toNode obj ⟨attr, found, member⟩
    rw [withoutNode, Table.lookup_filterKeys] at found
    split at found
    · exact .inl ⟨attr, found, member⟩
    · cases found

theorem deleteNode_covers {node : String}
    (unlinked : node ∈ state.nodes → unlearnsNode node = true →
      GroupUnlinked (withoutNode state node) node)
    (covers : CoversLinks NotMarked state) :
    CoversLinks NotMarked (deleteNode state node) := by
  have kept := (withoutNode_follows state node).covers covers
  unfold deleteNode
  split
  next present =>
    unfold cbDeleteNode
    split
    next unlearns => exact unlearnAll_covers (unlinked present unlearns) kept
    · exact kept
  · exact covers

end Unlearning

end NeuVector.Controller
