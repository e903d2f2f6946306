import Mathlib.Data.Finset.Basic
import Mathlib.Data.Finset.Image
import NeuVector.Controller.PolicyStore
import NeuVector.Library.Table

/-!
# The profile dispatcher

The controller keeps, for each group with profiles, the nodes that have to get
them (`controller/kv/dispatcher.go`).  Every controller follows the events;
the leader also writes profiles to the nodes.  A set that is gone through is
the list of its elements in the order of the visit.  The content of profiles
is left out: a write names the node and the group whose keys are copied or
removed, and the writes of one event, which go to different keys, are a set.
-/

namespace NeuVector.Controller

open Library

/-- What the leader does to the keys of a node. -/
inductive ProfileWrite where
  | copyProfileKeys (node group : String)
  | removeProfileKeys (node group : String)
  | deleteTree (node : String)
  deriving DecidableEq

structure KvDispatcher where
  nodes : Finset String
  customs : Finset String
  /-- Workload ids by node and service group. -/
  node2groups : GoMap String (GoMap String (Finset String))
  group2nodes : GoMap String (Finset String)

def initDispatcher : KvDispatcher :=
  { nodes := ∅, customs := ∅, node2groups := ∅, group2nodes := ∅ }

/-- What the cache answers while custom groups are purged: the workload that
is looked at for a custom group in each service group of the node, and the
membership. -/
structure PurgeProbe where
  any : String → String → String
  matchedGrpFunc : String → String → Bool

/-- The custom groups that no probed workload of the node belongs to. -/
def expiredCustomGroups (nodeCache : GoMap String (Finset String))
    (customGrps : List String) (probe : PurgeProbe) : List String :=
  customGrps.filter fun custom =>
    !nodeCache.keys.any fun group => probe.matchedGrpFunc custom (probe.any custom group)

variable (dpt : KvDispatcher) (node group id : String) (customGrps : List String)

def purgeCustomGroupsByNodeGroups (probe : PurgeProbe) : KvDispatcher × List String :=
  match dpt.node2groups.lookup node with
  | none => (dpt, [])
  | some nodeCache =>
    let expired := expiredCustomGroups nodeCache customGrps probe
    let purge := fun group nodes =>
      if group ∈ expired then Finset.erase nodes node else nodes
    ({ dpt with group2nodes := Table.mapValues purge dpt.group2nodes }, expired)

def removeServiceWorkload (node id : String)
    (nodeCache : GoMap String (Finset String)) (nodes : Finset String) :
    KvDispatcher × Bool :=
  match nodeCache.lookup group with
  | none => (dpt, false)
  | some ids =>
    let rest := ids.erase id
    if rest = ∅ then
      let left := nodes.erase node
      ({ dpt with
          node2groups := dpt.node2groups.insert node (nodeCache.erase group)
          group2nodes :=
            if left = ∅ then dpt.group2nodes.erase group
            else dpt.group2nodes.insert group left },
        true)
    else
      ({ dpt with
          node2groups := dpt.node2groups.insert node (nodeCache.insert group rest) },
        false)

def addServiceWorkload (node id : String)
    (nodeCache : GoMap String (Finset String)) (nodes : Finset String) :
    KvDispatcher × Bool :=
  let ids := nodeCache.lookup group
  ({ dpt with
      node2groups := dpt.node2groups.insert node (nodeCache.insert group (insert id (ids.getD ∅)))
      group2nodes := dpt.group2nodes.insert group (insert node nodes) },
    ids.isNone)

def refreshServiceGroup2Nodes (node id : String) (bRemoved : Bool) : KvDispatcher × Bool :=
  match dpt.node2groups.lookup node, dpt.group2nodes.lookup group with
  | some nodeCache, some nodes =>
    if bRemoved then removeServiceWorkload dpt group node id nodeCache nodes
    else addServiceWorkload dpt group node id nodeCache nodes
  | _, _ => (dpt, false)

def nodesOf : Finset String := (dpt.group2nodes.lookup group).getD ∅

def refreshCustomGroups (name : String) (serviceGrps : List String)
    (bRemoved : Bool) : KvDispatcher :=
  if bRemoved then
    { dpt with group2nodes := dpt.group2nodes.erase name, customs := dpt.customs.erase name }
  else
    let targetNodes := serviceGrps.foldl
      (fun targets serviceGroup => targets ∪ nodesOf dpt serviceGroup) ∅
    { dpt with
      group2nodes := dpt.group2nodes.insert name targetNodes
      customs := insert name dpt.customs }

/-- One custom group of a workload that joins on a node. -/
def buildCustomGroup (state : KvDispatcher × Finset ProfileWrite)
    (custom : String) : KvDispatcher × Finset ProfileWrite :=
  let nodes := nodesOf state.1 custom
  if node ∈ nodes then state
  else
    ({ state.1 with
        group2nodes := state.1.group2nodes.insert custom (insert node nodes) },
      insert (.copyProfileKeys node custom) state.2)

def buildCustomGroups : KvDispatcher × Finset ProfileWrite :=
  customGrps.foldl (buildCustomGroup node) (dpt, ∅)

def addNode : KvDispatcher :=
  match dpt.node2groups.lookup node with
  | some _ => dpt
  | none =>
    { dpt with
      nodes := insert node dpt.nodes
      node2groups := dpt.node2groups.insert node
        ((∅ : GoMap String (Finset String)).insert group ∅) }

def addGroup : KvDispatcher :=
  match dpt.group2nodes.lookup group with
  | some _ => dpt
  | none => { dpt with group2nodes := dpt.group2nodes.insert group ∅ }

variable (bLeader : Bool)

def workloadJoin : KvDispatcher × Finset ProfileWrite :=
  let bNewNode := (dpt.node2groups.lookup node).isNone
  let bNewGroup := (dpt.group2nodes.lookup group).isNone
  let joined := refreshServiceGroup2Nodes
    (addGroup (addNode dpt node group) group) group node id false
  if bLeader then
    let built := buildCustomGroups joined.1 node customGrps
    (built.1,
      if joined.2 || bNewGroup || bNewNode then insert (.copyProfileKeys node group) built.2
      else built.2)
  else (joined.1, ∅)

def workloadLeave (probe : PurgeProbe) (bLeader : Bool) : KvDispatcher × Finset ProfileWrite :=
  let left := refreshServiceGroup2Nodes dpt group node id true
  if left.2 then
    let purged := purgeCustomGroupsByNodeGroups left.1 node customGrps probe
    (purged.1,
      if bLeader then ((group :: purged.2).map (.removeProfileKeys node ·)).toFinset
      else ∅)
  else (left.1, ∅)

def nodeLeave : KvDispatcher × Finset ProfileWrite :=
  ({ dpt with
      nodes := dpt.nodes.erase node
      node2groups := dpt.node2groups.erase node
      group2nodes := Table.mapValues (fun _ nodes => nodes.erase node) dpt.group2nodes },
    if bLeader then {.deleteTree node} else ∅)

def customGroupUpdate (serviceGrps : List String) (bLeader : Bool) :
    KvDispatcher × Finset ProfileWrite :=
  let olds := nodesOf dpt group
  let refreshed := refreshCustomGroups dpt group serviceGrps false
  let curs := nodesOf refreshed group
  (refreshed,
    if bLeader then
      (curs \ olds).image (.copyProfileKeys · group) ∪
        (olds \ curs).image (.removeProfileKeys · group)
    else ∅)

def customGroupDelete : KvDispatcher × Finset ProfileWrite :=
  let removes := nodesOf dpt group
  (if (dpt.group2nodes.lookup group).isSome then refreshCustomGroups dpt group [] true
    else dpt,
    if bLeader then removes.image (.removeProfileKeys · group) else ∅)

/-- The nodes that a profile of a group is put to; the profiles of nodes are
common to all. -/
def putProfile (isGroupNodes : Bool) (group : String) : Option (Finset String) :=
  if isGroupNodes then none else some (nodesOf dpt group)

inductive DispatchEvent where
  | workloadJoin (node group id : String) (customGrps : List String)
  | workloadLeave (node group id : String) (customGrps : List String) (probe : PurgeProbe)
  | nodeLeave (node : String)
  | customGroupUpdate (group : String) (serviceGrps : List String)
  | customGroupDelete (group : String)

def dispatch : DispatchEvent → KvDispatcher × Finset ProfileWrite
  | .workloadJoin node group id customGrps => workloadJoin dpt node group id customGrps bLeader
  | .workloadLeave node group id customGrps probe =>
    workloadLeave dpt node group id customGrps probe bLeader
  | .nodeLeave node => nodeLeave dpt node bLeader
  | .customGroupUpdate group serviceGrps => customGroupUpdate dpt group serviceGrps bLeader
  | .customGroupDelete group => customGroupDelete dpt group bLeader

/-- The tables after events that were handled as leader or not. -/
def dispatchAll (events : List (DispatchEvent × Bool)) : KvDispatcher :=
  events.foldl (fun dpt event => (dispatch dpt event.2 event.1).1) dpt

end NeuVector.Controller
