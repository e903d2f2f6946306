import NeuVector.Controller.Dispatcher

/-!
# What an event does to the tables of the dispatcher

The tables are looked at as sets: the nodes of a group, and the workloads of a
service group on a node.
-/

namespace NeuVector.Controller

open Library

def setOf (m : GoMap String (Finset String)) (key : String) : Finset String := (m.lookup key).getD ∅

section Sets

variable {m : GoMap String (Finset String)} {key other : String}

theorem setOf_of_lookup {set : Option (Finset String)} (found : m.lookup key = set) :
    setOf m key = set.getD ∅ := by rw [setOf, found]

theorem setOf_insert (set : Finset String) :
    setOf (m.insert key set) other = if other = key then set
      else setOf m other := by
  rw [setOf, Table.lookup_insert]
  split
  · rfl
  · rfl

theorem setOf_erase : setOf (m.erase key) other = if other = key then ∅ else setOf m other := by
  rw [setOf, Table.lookup_erase]
  split
  · rfl
  · rfl

theorem setOf_mapValues (rewrite : String → Finset String → Finset String)
    (empty : ∀ key, rewrite key ∅ = ∅) :
    setOf (Table.mapValues rewrite m) key = rewrite key (setOf m key) := by
  unfold setOf
  rw [Table.lookup_mapValues]
  cases m.lookup key with
  | none => exact (empty key).symm
  | some set => rfl

end Sets

def idsOf (dpt : KvDispatcher) (node group : String) : Finset String :=
  setOf ((dpt.node2groups.lookup node).getD ∅) group

/-- No service group of a node is without a workload. -/
def KvDispatcher.Tidy (dpt : KvDispatcher) : Prop :=
  ∀ node cache group ids, dpt.node2groups.lookup node = some cache →
    cache.lookup group = some ids → ids.Nonempty

variable {dpt : KvDispatcher} {node group id : String}

theorem idsOf_of_lookup {cache : Option (GoMap String (Finset String))}
    (isCache : dpt.node2groups.lookup node = cache) (g : String) :
    idsOf dpt node g = setOf (cache.getD ∅) g := by rw [idsOf, isCache]

theorem idsOf_insert (cache : GoMap String (Finset String))
    (n g : String) (group2nodes : GoMap String (Finset String)) (nodes customs : Finset String) :
    idsOf ⟨nodes, customs, dpt.node2groups.insert node cache, group2nodes⟩ n g =
      if n = node then setOf cache g else idsOf dpt n g := by
  rw [idsOf, Table.lookup_insert]
  split
  · rfl
  · rfl

variable (n : String) (state : KvDispatcher × Finset ProfileWrite)
  (custom : String) (bLeader : Bool) (g : String)

theorem addNode_ids : idsOf (addNode dpt node group) n g = idsOf dpt n g := by
  unfold addNode
  cases known : dpt.node2groups.lookup node with
  | some cache => rfl
  | none =>
    rw [idsOf_insert]
    split
    case isFalse => rfl
    case isTrue same =>
      subst same
      rw [idsOf_of_lookup known, setOf_insert]
      split
      · rfl
      · rfl

theorem addNode_known : ∃ cache, (addNode dpt node group).node2groups.lookup node = some cache := by
  unfold addNode
  cases known : dpt.node2groups.lookup node with
  | some cache => exact ⟨cache, known⟩
  | none => exact ⟨_, AList.lookup_insert _⟩

theorem addNode_insert (cache : GoMap String (Finset String)) :
    (addNode dpt node group).node2groups.insert node cache = dpt.node2groups.insert node cache := by
  unfold addNode
  cases dpt.node2groups.lookup node with
  | some before => rfl
  | none => exact AList.insert_insert _

theorem addNode_group2nodes : (addNode dpt node group).group2nodes = dpt.group2nodes := by
  unfold addNode
  cases dpt.node2groups.lookup node with
  | some cache | none => rfl

theorem addGroup_nodes : nodesOf (addGroup dpt group) g = nodesOf dpt g := by
  unfold addGroup
  cases known : dpt.group2nodes.lookup group with
  | some nodes => rfl
  | none =>
    have inserted : nodesOf { dpt with
        group2nodes := dpt.group2nodes.insert group ∅ } g =
          if g = group then ∅ else setOf dpt.group2nodes g :=
      setOf_insert ∅
    rw [inserted]
    split
    case isFalse => rfl
    case isTrue same =>
      subst same
      exact (setOf_of_lookup known).symm

theorem addGroup_known : ∃ nodes, (addGroup dpt group).group2nodes.lookup group = some nodes := by
  unfold addGroup
  cases known : dpt.group2nodes.lookup group with
  | some nodes => exact ⟨nodes, known⟩
  | none => exact ⟨∅, AList.lookup_insert _⟩

theorem addGroup_node2groups : (addGroup dpt group).node2groups = dpt.node2groups := by
  unfold addGroup
  cases dpt.group2nodes.lookup group with
  | some nodes | none => rfl

def joinedService (dpt : KvDispatcher) (node group id : String) : KvDispatcher :=
  (refreshServiceGroup2Nodes (addGroup (addNode dpt node group) group) group node id false).1

theorem joinedService_eq (dpt : KvDispatcher) (node group id : String) :
    ∃ cache nodes, (addGroup (addNode dpt node group) group).node2groups.lookup node = some cache ∧
      (addGroup (addNode dpt node group) group).group2nodes.lookup group = some nodes ∧
      joinedService dpt node group id =
        (addServiceWorkload (addGroup (addNode dpt node group) group)
          group node id cache nodes).1 := by
  obtain ⟨nodes, isNodes⟩ := @addGroup_known (addNode dpt node group) group
  obtain ⟨cache, isCache⟩ := @addNode_known dpt node group
  rw [← @addGroup_node2groups (addNode dpt node group) group] at isCache
  refine ⟨cache, nodes, isCache, isNodes, ?_⟩
  unfold joinedService refreshServiceGroup2Nodes
  simp only [isCache, isNodes, Bool.false_eq_true, if_false]

theorem joinedService_ids :
    idsOf (joinedService dpt node group id) n g =
      if n = node ∧ g = group then insert id (idsOf dpt n g)
      else idsOf dpt n g := by
  obtain ⟨cache, nodes, isCache, _, joined⟩ := joinedService_eq dpt node group id
  have own : ∀ g, setOf cache g = idsOf dpt node g := by
    intro g
    rw [addGroup_node2groups] at isCache
    rw [← @addNode_ids dpt node group node g, idsOf_of_lookup isCache]
    rfl
  rw [joined, addServiceWorkload, addGroup_node2groups, addNode_insert, idsOf_insert, setOf_insert,
    ite_and]
  split
  next sameNode =>
    rw [sameNode, ← own g]
    split
    next sameGroup =>
      rw [sameGroup]
      rfl
    · rfl
  · rfl

theorem joinedService_nodes :
    nodesOf (joinedService dpt node group id) g =
      if g = group then insert node (nodesOf dpt g) else nodesOf dpt g := by
  obtain ⟨cache, nodes, _, isNodes, joined⟩ := joinedService_eq dpt node group id
  have before : ∀ g, nodesOf (addGroup (addNode dpt node group) group) g = nodesOf dpt g := by
    intro g
    rw [addGroup_nodes]
    unfold nodesOf
    rw [addNode_group2nodes]
  have own : nodesOf dpt group = nodes := (before group).symm.trans (setOf_of_lookup isNodes)
  have inserted : nodesOf (joinedService dpt node group id) g =
      if g = group then insert node nodes
      else setOf (addGroup (addNode dpt node group) group).group2nodes g := by
    rw [joined]
    exact setOf_insert _
  rw [inserted]
  split
  case isTrue same => rw [same, own]
  case isFalse different => exact before g

theorem KvDispatcher.Tidy.insert_cache {cache : GoMap String (Finset String)} (tidy : dpt.Tidy)
    (own : ∀ g ids, cache.lookup g = some ids → ids.Nonempty)
    (group2nodes : GoMap String (Finset String)) (nodes customs : Finset String) :
    KvDispatcher.Tidy ⟨nodes, customs, dpt.node2groups.insert node cache, group2nodes⟩ := by
  intro n other g ids isOther isIds
  simp only [Table.lookup_insert] at isOther
  split at isOther
  · cases isOther
    exact own g ids isIds
  · exact tidy n other g ids isOther isIds

theorem joinedService_tidy (tidy : dpt.Tidy) : (joinedService dpt node group id).Tidy := by
  obtain ⟨cache, nodes, isCache, _, joined⟩ := joinedService_eq dpt node group id
  rw [addGroup_node2groups] at isCache
  rw [joined, addServiceWorkload, addGroup_node2groups, addNode_insert]
  apply tidy.insert_cache
  intro g ids isIds
  rw [Table.lookup_insert] at isIds
  split at isIds
  · cases isIds
    exact Finset.insert_nonempty _ _
  next different =>
    unfold addNode at isCache
    cases known : dpt.node2groups.lookup node with
    | some before =>
      simp only [known] at isCache
      obtain rfl := Option.some.inj isCache
      exact tidy node _ g ids known isIds
    | none =>
      simp only [known, AList.lookup_insert] at isCache
      cases isCache
      rw [AList.lookup_insert_ne different] at isIds
      cases isIds

theorem buildCustomGroup_nodes :
    nodesOf (buildCustomGroup node state custom).1 g =
      if g = custom then insert node (nodesOf state.1 g)
      else nodesOf state.1 g := by
  unfold buildCustomGroup
  simp only
  split
  case isTrue there =>
    split
    case isTrue same => rw [same, Finset.insert_eq_of_mem there]
    case isFalse => rfl
  case isFalse =>
    refine (setOf_insert _).trans ?_
    split
    case isTrue same => rw [same]
    case isFalse => rfl

theorem buildCustomGroup_node2groups :
    (buildCustomGroup node state custom).1.node2groups = state.1.node2groups := by
  unfold buildCustomGroup
  simp only
  split
  · rfl
  · rfl

variable (customGrps : List String) {cache : GoMap String (Finset String)}

theorem buildCustomGroups_nodes :
    nodesOf (customGrps.foldl (buildCustomGroup node) state).1 g =
      if g ∈ customGrps then insert node (nodesOf state.1 g)
      else nodesOf state.1 g := by
  induction customGrps generalizing state with
  | nil => simp
  | cons first rest induction =>
    rw [List.foldl_cons, induction, buildCustomGroup_nodes]
    by_cases same : g = first
    · subst same
      simp
    · simp [same]

theorem buildCustomGroups_node2groups :
    (customGrps.foldl (buildCustomGroup node) state).1.node2groups = state.1.node2groups := by
  induction customGrps generalizing state with
  | nil => rfl
  | cons first rest induction =>
    exact (induction _).trans (buildCustomGroup_node2groups state first)

theorem workloadJoin_eq :
    (workloadJoin dpt node group id customGrps bLeader).1 =
      if bLeader then (buildCustomGroups (joinedService dpt node group id) node customGrps).1
      else joinedService dpt node group id := by
  cases bLeader with
  | true | false => rfl

def LastOnNode (dpt : KvDispatcher) (node group id : String) : Prop := idsOf dpt node group = {id}

structure ServiceLeft (dpt : KvDispatcher) (node group id : String)
    (left : KvDispatcher × Bool) : Prop where
  last : left.2 = true ↔ LastOnNode dpt node group id
  ids : ∀ n g, idsOf left.1 n g =
    if n = node ∧ g = group then (idsOf dpt n g).erase id else idsOf dpt n g
  nodes : ∀ g, nodesOf left.1 g =
    if left.2 = true ∧ g = group then (nodesOf dpt g).erase node
    else nodesOf dpt g
  tidy : dpt.Tidy → left.1.Tidy

theorem ServiceLeft.nothing (empty : idsOf dpt node group = ∅) :
    ServiceLeft dpt node group id (dpt, false) where
  last := by
    unfold LastOnNode
    rw [empty]
    constructor
    · intro false
      cases false
    · intro single
      exact absurd single.symm (Finset.singleton_ne_empty id)
  ids := by
    intro n g
    split
    case isTrue both =>
      rw [both.1, both.2, empty]
      rfl
    case isFalse => rfl
  nodes := fun g => (if_neg fun both => nomatch both.1).symm
  tidy := fun tidy => tidy

theorem erase_eq_empty_iff {ids : Finset String} (nonempty : ids.Nonempty) :
    ids.erase id = ∅ ↔ ids = {id} := by
  rw [Finset.erase_eq_empty_iff, or_iff_right nonempty.ne_empty]

theorem idsOf_insert_group {rewritten : GoMap String (Finset String)}
    (isCache : dpt.node2groups.lookup node = some cache)
    (rewrite : Finset String → Finset String) (own : ∀ g, setOf rewritten g =
      if g = group then rewrite (setOf cache g) else setOf cache g)
    (n g : String) (group2nodes : GoMap String (Finset String)) (nodes customs : Finset String) :
    idsOf ⟨nodes, customs, dpt.node2groups.insert node rewritten, group2nodes⟩ n g =
      if n = node ∧ g = group then rewrite (idsOf dpt n g)
      else idsOf dpt n g := by
  rw [idsOf_insert, own, ite_and]
  split
  next sameNode => rw [sameNode, idsOf_of_lookup isCache, Option.getD_some]
  · rfl

theorem removeServiceWorkload_left {nodes : Finset String}
    (isCache : dpt.node2groups.lookup node = some cache)
    (isNodes : dpt.group2nodes.lookup group = some nodes) (tidy : dpt.Tidy) :
    ServiceLeft dpt node group id (removeServiceWorkload dpt group node id cache nodes) := by
  have own : idsOf dpt node group = setOf cache group := idsOf_of_lookup isCache group
  have ownNodes : nodesOf dpt group = nodes := setOf_of_lookup isNodes
  unfold removeServiceWorkload
  cases isIds : cache.lookup group with
  | none =>
    apply ServiceLeft.nothing
    exact own.trans (setOf_of_lookup isIds)
  | some ids =>
    have ownIds : setOf cache group = ids := setOf_of_lookup isIds
    have nonempty := tidy node cache group ids isCache isIds
    have others : ∀ g rest, cache.lookup g = some rest → rest.Nonempty :=
      fun g rest isRest => tidy node cache g rest isCache isRest
    simp only
    split
    case isTrue gone =>
      constructor
      · unfold LastOnNode
        rw [own, ownIds]
        exact ⟨fun _ => (erase_eq_empty_iff nonempty).mp gone, fun _ => rfl⟩
      · intro n g
        apply idsOf_insert_group isCache (Finset.erase · id)
        intro g
        rw [setOf_erase]
        split
        case isTrue same => rw [same, ownIds, gone]
        case isFalse => rfl
      · intro g
        have erased : setOf (if nodes.erase node = ∅ then dpt.group2nodes.erase group
            else dpt.group2nodes.insert group (nodes.erase node)) g =
            if g = group then nodes.erase node
            else setOf dpt.group2nodes g := by
          split
          case isTrue empty =>
            rw [empty]
            exact setOf_erase
          case isFalse => exact setOf_insert _
        refine erased.trans ?_
        by_cases same : g = group
        · rw [if_pos same, if_pos ⟨rfl, same⟩, same, ownNodes]
        · rw [if_neg same, if_neg fun both => same both.2]
          rfl
      · intro _
        apply tidy.insert_cache
        intro g rest isRest
        rw [Table.lookup_erase] at isRest
        split at isRest
        · cases isRest
        · exact others g rest isRest
    case isFalse stays =>
      constructor
      · unfold LastOnNode
        rw [own, ownIds]
        constructor
        · intro false
          cases false
        · intro single
          exact absurd ((erase_eq_empty_iff nonempty).mpr single) stays
      · intro n g
        apply idsOf_insert_group isCache (Finset.erase · id)
        intro g
        rw [setOf_insert]
        split
        case isTrue same => rw [same, ownIds]
        case isFalse => rfl
      · intro g
        exact (if_neg fun both => nomatch both.1).symm
      · intro _
        apply tidy.insert_cache
        intro g rest isRest
        rw [Table.lookup_insert] at isRest
        split at isRest
        · cases isRest
          exact Finset.nonempty_iff_ne_empty.mpr stays
        · exact others g rest isRest

/-- A workload leaves; if its group has workloads on the node then the node is
among those of the group. -/
theorem refreshServiceGroup2Nodes_left (tidy : dpt.Tidy)
    (known : (idsOf dpt node group).Nonempty → node ∈ nodesOf dpt group) :
    ServiceLeft dpt node group id (refreshServiceGroup2Nodes dpt group node id true) := by
  unfold refreshServiceGroup2Nodes
  cases isCache : dpt.node2groups.lookup node with
  | none =>
    apply ServiceLeft.nothing
    exact idsOf_of_lookup isCache group
  | some cache =>
    cases isNodes : dpt.group2nodes.lookup group with
    | none =>
      apply ServiceLeft.nothing
      apply Finset.not_nonempty_iff_eq_empty.mp
      intro nonempty
      have none : nodesOf dpt group = ∅ := setOf_of_lookup isNodes
      exact absurd (none ▸ known nonempty) (Finset.notMem_empty node)
    | some nodes => exact removeServiceWorkload_left isCache isNodes tidy

theorem purgeCustomGroups_nodes (probe : PurgeProbe) (g : String) :
    nodesOf (purgeCustomGroupsByNodeGroups dpt node customGrps probe).1 g =
      if g ∈ (purgeCustomGroupsByNodeGroups dpt node customGrps probe).2 then
        (nodesOf dpt g).erase node
      else nodesOf dpt g := by
  unfold purgeCustomGroupsByNodeGroups
  cases dpt.node2groups.lookup node with
  | none => simp
  | some cache =>
    apply setOf_mapValues
    intro key
    split
    · rfl
    · rfl

theorem purgeCustomGroups_node2groups (probe : PurgeProbe) :
    (purgeCustomGroupsByNodeGroups dpt node customGrps probe).1.node2groups = dpt.node2groups := by
  unfold purgeCustomGroupsByNodeGroups
  cases dpt.node2groups.lookup node with
  | none | some cache => rfl

theorem purgeCustomGroups_expired {customGrps : List String} {probe : PurgeProbe} {custom : String}
    (expired : custom ∈ (purgeCustomGroupsByNodeGroups dpt node customGrps probe).2) :
    custom ∈ customGrps ∧ ∀ g, (idsOf dpt node g).Nonempty →
      probe.matchedGrpFunc custom (probe.any custom g) = false := by
  unfold purgeCustomGroupsByNodeGroups at expired
  cases isCache : dpt.node2groups.lookup node with
  | none =>
    rw [isCache] at expired
    cases expired
  | some cache =>
    rw [isCache] at expired
    obtain ⟨passed, unmatched⟩ := List.mem_filter.mp expired
    refine ⟨passed, ?_⟩
    intro g nonempty
    have present : g ∈ cache.keys := by
      apply AList.lookup_isSome.mp
      unfold idsOf setOf at nonempty
      rw [isCache] at nonempty
      cases isIds : cache.lookup g with
      | none => simp [isIds] at nonempty
      | some ids => rfl
    rw [Bool.not_eq_true', List.any_eq_false] at unmatched
    exact Bool.eq_false_iff.mpr (unmatched g present)

theorem nodeLeave_ids (n g : String) :
    idsOf (nodeLeave dpt node bLeader).1 n g =
      if n = node then ∅ else idsOf dpt n g := by
  simp only [nodeLeave, idsOf, Table.lookup_erase]
  split
  · rfl
  · rfl

theorem nodeLeave_nodes :
    nodesOf (nodeLeave dpt node bLeader).1 g = (nodesOf dpt g).erase node := by
  apply setOf_mapValues
  intro key
  rfl

theorem nodeLeave_tidy (tidy : dpt.Tidy) : (nodeLeave dpt node bLeader).1.Tidy := by
  intro n cache g ids isCache isIds
  have erased : (dpt.node2groups.erase node).lookup n = some cache := isCache
  rw [Table.lookup_erase] at erased
  split at erased
  · cases erased
  · exact tidy n cache g ids erased isIds

theorem customGroupUpdate_nodes (serviceGrps : List String) (bLeader : Bool) (g : String) :
    node ∈ nodesOf (customGroupUpdate dpt custom serviceGrps bLeader).1 g ↔
      if g = custom then ∃ service ∈ serviceGrps, node ∈ nodesOf dpt service
      else node ∈ nodesOf dpt g := by
  have inserted : nodesOf (customGroupUpdate dpt custom serviceGrps
      bLeader).1 g = if g = custom then serviceGrps.foldl
        (fun targets serviceGroup => targets ∪ nodesOf dpt serviceGroup) ∅
      else setOf dpt.group2nodes g := setOf_insert _
  rw [inserted]
  split
  case isTrue =>
    rw [Table.mem_foldl_union]
    simp
  case isFalse => rfl

theorem customGroupDelete_nodes {custom g : String} (different : g ≠ custom) :
    nodesOf (customGroupDelete dpt custom bLeader).1 g = nodesOf dpt g := by
  unfold customGroupDelete
  split
  · exact setOf_erase.trans (if_neg different)
  · rfl

theorem customGroupDelete_node2groups :
    (customGroupDelete dpt custom bLeader).1.node2groups = dpt.node2groups := by
  unfold customGroupDelete
  split
  · rfl
  · rfl

end NeuVector.Controller
