import Mathlib.Data.Finset.Sort
import Mathlib.Data.Finset.Union
import Mathlib.Data.String.Basic
import NeuVector.Library.Table
import NeuVector.Controller.PolicyStore

/-!
# Learned rules

While a group is being discovered its connections become rules.  This module
embeds the incremental learning of `controller/cache/learn.go`: a connection
is recorded in the policy link between its two nodes and in the learned rule
of the pair of their groups, where a flag tells what is to be done with the
rule; a node that goes away has the rules of its group marked for deletion;
and `procLearnedPolicy` carries out what is marked and writes it to the
cluster.  The graph has its set of nodes and its policy links here, the two
things learning reads.
-/

namespace NeuVector.Controller

open Library

def policyPortAny : String := "any"
def allHostGroup : String := "nodes"
def fedHostGroup : String := "fed.nodes"
def learnedExternal : String := "external"
def learnedGroupStart : String := "nv."
def learnedSvcGroupStart : String := "nv.ip."
def learnedHostStart : String := "Host:"
def learnedWorkloadStart : String := "Workload:"
def dummyEP : String := "Dummy"

def startsWith (start name : String) : Bool := start.toList.isPrefixOf name.toList

structure LearnedWorkload where
  learnedGroupName : String
  /-- The ports with a known application. -/
  apps : List String
  deriving DecidableEq

structure Directory where
  wlCacheMap : GoMap String LearnedWorkload
  ipHostMap : List String
  /-- The ids of hosts. -/
  hostCacheMap : List String
  groupCacheMap : GoMap String (List String)
  parseIP : String → Bool

variable (directory : Directory) (state : LearnState) (node : String)

def isNodeInHostGroup : Bool :=
  if startsWith learnedHostStart node then
    let name := String.ofList (node.toList.drop learnedHostStart.length)
    if directory.parseIP name then directory.ipHostMap.contains name
    else true
  else false

def isHostOrUnmanagedWorkload (name : String) : Bool :=
  startsWith learnedHostStart name || startsWith learnedWorkloadStart name

def isNonWorkloadLearnedEndpoint (name : String) : Bool :=
  isHostOrUnmanagedWorkload name || name == learnedExternal || startsWith learnedGroupStart name

/-- The group of a node, empty if there is none, and whether the node is a
container. -/
def node2Group : String × Bool :=
  match directory.wlCacheMap.lookup node with
  | some cache => (cache.learnedGroupName, true)
  | none =>
    if isNodeInHostGroup directory node then (allHostGroup, false)
    else if isNonWorkloadLearnedEndpoint node then (node, false)
    else ("", false)

/-- The members of a group as a reader of the group is told them.  The group
of the hosts has the ids of the hosts if it has no workload. -/
def groupMembers (groupName : String) (members : List String) : List String :=
  let workloads := members.filter fun member => (directory.wlCacheMap.lookup member).isSome
  if (groupName = allHostGroup ∨ groupName = fedHostGroup) ∧ workloads = []
  then directory.hostCacheMap
  else workloads

def getNodesFromGroup (groupName : String) : List String :=
  match directory.groupCacheMap.lookup groupName with
  | some members =>
    let nodes := groupMembers directory groupName members
    if nodes = [] then [groupName] else nodes
  | none => [groupName]

def nodePairs (fromGroup toGroup : String) : List (String × String) :=
  (getNodesFromGroup directory fromGroup).flatMap fun fromNode =>
    (getNodesFromGroup directory toGroup).map fun toNode => (fromNode, toNode)

structure GroupPair where
  fromGroup : String
  toGroup : String
  isApp : Bool
  deriving DecidableEq

inductive RuleObj where
  | app (application : Nat)
  | port (port : String)
  deriving DecidableEq

def RuleObj.isApp : RuleObj → Bool
  | .app _ => true
  | .port _ => false

def portAny : RuleObj := .port policyPortAny

/-- What is to be done with a rule; each field is a flag of the source. -/
structure LprAction where
  add : Bool
  modify : Bool
  delete : Bool
  recalc : Bool
  deriving DecidableEq

def LprAction.nothing : LprAction := ⟨false, false, false, false⟩
def LprAction.lprAdd : LprAction := ⟨true, false, false, false⟩
def LprAction.lprModify : LprAction := ⟨false, true, false, false⟩
def LprAction.lprDelete : LprAction := ⟨false, false, true, false⟩

structure LearnedPolicyRuleWrapper where
  objs : Finset RuleObj
  id : Nat
  action : LprAction
  deriving DecidableEq

structure PolAttr where
  ports : Finset String
  portsSeen : Finset String
  apps : Finset Nat
  lastRecalcAt : Int
  deriving DecidableEq

def PolAttr.empty : PolAttr := { ports := ∅, portsSeen := ∅, apps := ∅, lastRecalcAt := 0 }

variable (fromNode toNode : String) (conn : Connection) (ipp : String) (attr : PolAttr)

def PolAttr.objs : Bool → Finset RuleObj
  | true => attr.apps.image .app
  | false => attr.ports.image .port

structure PolicyCluster where
  rules : GoMap Nat PolicyRule
  heads : List RuleHead

structure LearnState where
  directory : Directory
  nodes : Finset String
  links : GoMap (String × String) PolAttr
  lprWrapperMap : GoMap GroupPair LearnedPolicyRuleWrapper
  maxLearnRuleID : Nat
  lprActiveRuleIDs : List Nat
  cluster : PolicyCluster

def LearnState.setLink : LearnState :=
  { state with links := state.links.insert (fromNode, toNode) attr }

variable (pair : GroupPair) (rw : LearnedPolicyRuleWrapper)

def LearnState.setRule : LearnState :=
  { state with lprWrapperMap := state.lprWrapperMap.insert pair rw }

variable (isApp : Bool)

def getLearnedPolicyRuleKey : Option GroupPair :=
  let fromGroup := node2Group directory fromNode
  let toGroup := node2Group directory toNode
  if fromGroup.1 = "" ∨ toGroup.1 = "" then none
  else if fromGroup.2 = false ∧ toGroup.2 = false then none
  else some { fromGroup := fromGroup.1, toGroup := toGroup.1, isApp := isApp }

/-- The id is zero if all ids are in use. -/
def allocLearnedRuleID : Nat × LearnState :=
  let next :=
    if state.maxLearnRuleID < policyFedRuleIDBase - 1 then
      (state.maxLearnRuleID + 1, state.maxLearnRuleID + 1)
    else (getAvailablePolicyID state.lprActiveRuleIDs .learned, state.maxLearnRuleID)
  (next.1,
    { state with
      maxLearnRuleID := next.2
      lprActiveRuleIDs :=
        if next.1 = 0 then state.lprActiveRuleIDs
        else state.lprActiveRuleIDs.insert next.1 })

/-- The largest id in use that is not above some id, or else the base.  The
base is above zero, so the search does not reach zero. -/
def lowerMaxLearnRuleID (lprActiveRuleIDs : List Nat) : Nat → Nat
  | 0 => policyLearnedIDBase
  | max + 1 =>
    if lprActiveRuleIDs = [] then policyLearnedIDBase
    else if lprActiveRuleIDs.contains (max + 1) then max + 1
    else if max ≤ policyLearnedIDBase then policyLearnedIDBase
    else lowerMaxLearnRuleID lprActiveRuleIDs max

def adjustMaxLearnRuleID (id : Nat) : LearnState :=
  let lprActiveRuleIDs := state.lprActiveRuleIDs.filter fun active => active ≠ id
  { state with
    lprActiveRuleIDs := lprActiveRuleIDs
    maxLearnRuleID :=
      if id = state.maxLearnRuleID then
        lowerMaxLearnRuleID lprActiveRuleIDs (state.maxLearnRuleID - 1)
      else state.maxLearnRuleID }

def addSingleLinkPortAny (port : String) (attr : PolAttr) : PolAttr :=
  { attr with
    ports := insert policyPortAny (attr.ports.erase port)
    portsSeen := insert policyPortAny (attr.portsSeen.erase port) }

variable (objs : Finset RuleObj)

def addLinkPortAny (attr : PolAttr) : PolAttr :=
  { attr with
    ports := insert policyPortAny (attr.ports.filter fun port => RuleObj.port port ∉ objs)
    portsSeen := insert policyPortAny (attr.portsSeen.filter fun port => RuleObj.port port ∉ objs) }

/-- The links of a pair of groups with their ports replaced by all ports; the
rule itself is replaced by the caller. -/
def replaceLinksPortAny : GoMap (String × String) PolAttr :=
  (nodePairs state.directory pair.fromGroup pair.toGroup).foldl (fun links nodes =>
      if pair.isApp then links
      else Table.modify nodes (addLinkPortAny objs) links)
    state.links

def replaceLearnedRulePortAny : LearnState :=
  { state with links := replaceLinksPortAny state pair rw.objs }.setRule pair
    { rw with objs := {portAny} }

def maxSvcPortNum : Nat := 20

def markModify : LearnedPolicyRuleWrapper := { rw with action := { rw.action with modify := true } }

/-- Something added to a rule.  A rule with too many ports becomes one for all
ports. -/
def learnIntoRule (obj : RuleObj) : LearnState :=
  let added := { markModify rw with objs := insert obj rw.objs }
  if obj.isApp = false ∧ maxSvcPortNum < added.objs.card then
    replaceLearnedRulePortAny state pair added
  else state.setRule pair added

/-- Something learned between two nodes, and the id of the rule with it. -/
def learnAppPort (obj : RuleObj) : LearnState × Nat :=
  match getLearnedPolicyRuleKey state.directory fromNode toNode obj.isApp with
  | none => (state, 0)
  | some pair =>
    match state.lprWrapperMap.lookup pair with
    | some rw =>
      if obj ∈ rw.objs then (state, rw.id)
      else if obj.isApp = false ∧ portAny ∈ rw.objs then
        match obj with
        | .port port =>
          ({ state with
              links := Table.modify (fromNode, toNode)
                (addSingleLinkPortAny port) state.links }, rw.id)
        | .app _ => (state, rw.id)
      else (learnIntoRule state pair rw obj, rw.id)
    | none =>
      let allocated := allocLearnedRuleID state
      if 0 < allocated.1 then
        (allocated.2.setRule pair { objs := {obj}, id := allocated.1, action := .lprAdd },
          allocated.1)
      else (allocated.2, 0)

def getLearnedPolicy : Nat :=
  match getLearnedPolicyRuleKey state.directory fromNode toNode isApp with
  | none => 0
  | some pair =>
    match state.lprWrapperMap.lookup pair with
    | some rw => rw.id
    | none => 0

def markRecalc : LearnedPolicyRuleWrapper := { rw with action := { rw.action with recalc := true } }

def unlearnAppPort : LearnState :=
  match getLearnedPolicyRuleKey state.directory fromNode toNode isApp with
  | none => state
  | some pair =>
    { state with lprWrapperMap := Table.modify pair markRecalc state.lprWrapperMap }

variable (now : Int)

def needPolicyIdRecalc : Bool := now - attr.lastRecalcAt < 30

inductive DpPolicyAction where
  | openAction
  | learn
  | allow
  | checkApp
  | violate
  | deny
  deriving DecidableEq

structure Connection where
  clientWL : String
  serverWL : String
  /-- Whether the name of the network says that it is a proxy mesh. -/
  proxyMesh : Bool
  xff : Bool
  ipProto : Nat
  /-- The port of the server behind address translation. -/
  wlPort : Nat
  application : Nat
  policyAction : DpPolicyAction
  policyId : Nat
  deriving DecidableEq

def ipProtoICMP : Nat := 1
def ipProtoTCP : Nat := 6
def ipProtoUDP : Nat := 17

def getPortLink (ipproto port : Nat) : String :=
  if ipproto = ipProtoTCP then "tcp/" ++ toString port
  else if ipproto = ipProtoUDP then "udp/" ++ toString port
  else if ipproto = ipProtoICMP then "icmp"
  else if ipproto ≠ 0 then "ip:" ++ toString ipproto
  else toString port

def Connection.portLink : String := getPortLink (conn.ipProto % 256) conn.wlPort

/-- Whether the port of a connection without application is learned. -/
def qualifyPortLink (port : String) (attr : PolAttr) : Bool :=
  if policyPortAny ∈ attr.ports then false
  else if port ∈ attr.ports then true
  else if conn.policyAction = .learn ∧ port ∈ attr.portsSeen then false
  else if conn.ipProto = ipProtoUDP then
    match directory.wlCacheMap.lookup conn.serverWL with
    | some cache => cache.apps.contains port
    | none => true
  else true

/-- An application learned for a link in the place of a port; the link has
the application already. -/
def replacePortRule : LearnState × Nat :=
  let learned := learnAppPort (state.setLink conn.clientWL conn.serverWL attr)
    conn.clientWL conn.serverWL (.app conn.application)
  let replaced := learned.1.setLink conn.clientWL conn.serverWL
    { attr with ports := attr.ports.erase ipp, lastRecalcAt := now }
  (unlearnAppPort replaced conn.clientWL conn.serverWL false, learned.2)

/-- A connection under learning whose nodes are linked already. -/
def learnKnownLink : LearnState × Nat :=
  if 0 < conn.application then
    if conn.application ∉ attr.apps then
      replacePortRule state conn ipp
        { attr with
          apps := insert conn.application attr.apps
          portsSeen := insert ipp attr.portsSeen } now
    else if conn.policyId = 0 ∨ needPolicyIdRecalc attr now then
      (state, getLearnedPolicy state conn.clientWL conn.serverWL true)
    else (state, conn.policyId)
  else if qualifyPortLink state.directory conn ipp attr then
    learnAppPort (state.setLink conn.clientWL conn.serverWL
        { attr with ports := insert ipp attr.ports, portsSeen := insert ipp attr.portsSeen })
      conn.clientWL conn.serverWL (.port ipp)
  else if conn.policyId = 0 then (state, getLearnedPolicy state conn.clientWL conn.serverWL false)
  else (state, conn.policyId)

/-- A connection under learning whose nodes are not linked yet. -/
def learnNewLink : LearnState × Nat :=
  if 0 < conn.application then
    let learned := learnAppPort state conn.clientWL conn.serverWL (.app conn.application)
    (learned.1.setLink conn.clientWL conn.serverWL
      { PolAttr.empty with apps := {conn.application}, portsSeen := {ipp} },
      learned.2)
  else if qualifyPortLink state.directory conn ipp .empty then
    learnAppPort (state.setLink conn.clientWL conn.serverWL
        { PolAttr.empty with ports := {ipp}, portsSeen := {ipp} })
      conn.clientWL conn.serverWL (.port ipp)
  else (state, conn.policyId)

/-- A connection that a rule allows.  If the rule is one for its port, or for
all ports, the application is learned. -/
def allowKnownLink : LearnState × Nat :=
  let known := { attr with apps := insert conn.application attr.apps }
  if conn.application = 0 then (state, conn.policyId)
  else if conn.application ∉ attr.apps then
    if ipp ∈ attr.ports then replacePortRule state conn ipp known now
    else if policyPortAny ∈ attr.ports then
      learnAppPort (state.setLink conn.clientWL conn.serverWL { known with lastRecalcAt := now })
        conn.clientWL conn.serverWL (.app conn.application)
    else (state, conn.policyId)
  else if needPolicyIdRecalc attr now then
    (state, getLearnedPolicy state conn.clientWL conn.serverWL true)
  else (state, conn.policyId)

def Connection.link : String × String := (conn.clientWL, conn.serverWL)

/-- The part of the function about policy links. -/
def learnConnection : LearnState × Nat :=
  match conn.policyAction, state.links.lookup conn.link with
  | .learn, some attr => learnKnownLink state conn conn.portLink attr now
  | .learn, none => learnNewLink state conn conn.portLink
  | .allow, some attr => allowKnownLink state conn conn.portLink attr now
  | _, _ => (state, conn.policyId)

def addConnectToGraph : LearnState × Nat :=
  if conn.clientWL = "" ∨ conn.serverWL = "" then (state, conn.policyId)
  else
    let state :=
      { state with
        nodes := insert conn.clientWL (insert conn.serverWL (insert dummyEP state.nodes)) }
    if conn.proxyMesh ∧ conn.xff = false then (state, conn.policyId)
    else learnConnection state conn now

def unlearnAll (groupName : String) : LearnState :=
  { state with
    lprWrapperMap := Table.mapValues
      (fun pair rw =>
        if pair.fromGroup = groupName ∨ pair.toGroup = groupName then
          { rw with action := { rw.action with delete := true } }
        else rw)
      state.lprWrapperMap }

def unlearnsNode : Bool := isHostOrUnmanagedWorkload node || startsWith learnedSvcGroupStart node

def cbDeleteNode : LearnState :=
  if unlearnsNode node then unlearnAll state node else state

def deleteNode : LearnState :=
  if node ∈ state.nodes then
    cbDeleteNode
      { state with
        nodes := state.nodes.erase node
        links := Table.filterKeys (fun link => link.1 ≠ node ∧ link.2 ≠ node) state.links }
      node
  else state

def collapsePortAny : Finset RuleObj :=
  if 1 < objs.card ∧ portAny ∈ objs then {portAny} else objs

def linkObjs (links : GoMap (String × String) PolAttr) (isApp : Bool)
    (nodes : String × String) : Finset RuleObj :=
  match links.lookup nodes with
  | some attr => attr.objs isApp
  | none => ∅

def linkedObjs : Finset RuleObj :=
  (nodePairs state.directory pair.fromGroup pair.toGroup).foldl
    (fun objs nodes => objs ∪ linkObjs state.links pair.isApp nodes) ∅

def recalcLearnedRule : LearnedPolicyRuleWrapper :=
  let linked := linkedObjs state pair
  let objs := if pair.isApp then linked else collapsePortAny linked
  let old := if pair.isApp then rw.objs else collapsePortAny rw.objs
  let action := { rw.action with recalc := false }
  if old = objs then { rw with objs := old, action := action }
  else if objs = ∅ then { rw with objs := objs, action := { action with delete := true } }
  else { rw with objs := objs, action := { action with modify := true } }

def dropRule (id : Nat) : LearnState :=
  adjustMaxLearnRuleID { state with lprWrapperMap := state.lprWrapperMap.erase pair } id

/-- What is left of the flags of a rule, and whether the rule is dropped here
since the cluster does not have it yet. -/
def adjustRuleAction : LearnState × LearnedPolicyRuleWrapper :=
  let rw := if rw.action.recalc then recalcLearnedRule state pair rw else rw
  if rw.action.delete then
    if rw.action.add then (dropRule state pair rw.id, { rw with action := .nothing })
    else (state, { rw with action := .lprDelete })
  else if rw.action.add then (state, { rw with action := .lprAdd })
  else (state, rw)

def apps2Slice : List Nat :=
  (objs.biUnion fun obj =>
    match obj with
    | .app application => {application}
    | .port _ => ∅).sort (· ≤ ·)

def ports2String : String :=
  ",".intercalate ((objs.biUnion fun obj =>
      match obj with
      | .app _ => ∅
      | .port port => {port}).sort (· ≤ ·))

def ruleApplications : List Nat :=
  if pair.isApp then apps2Slice objs else []

def rulePorts : String :=
  if pair.isApp then policyPortAny else ports2String objs

def learnedRule2ClusterRule (now : Nat) : PolicyRule :=
  { id := rw.id, comment := "", fromGroup := pair.fromGroup
    toGroup := pair.toGroup, ports := rulePorts pair rw.objs
    applications := ruleApplications pair rw.objs, action := "allow"
    disable := false, createdAt := now, lastModAt := now, cfgType := .learned
    priority := 0 }

structure RuleChange where
  id : Nat
  applications : List Nat
  ports : String

structure LearnBatch where
  modifyList : List RuleChange
  addList : List PolicyRule
  deleteMap : List Nat

def LearnBatch.empty : LearnBatch := { modifyList := [], addList := [], deleteMap := [] }

/-- A rule whose flags are done, stored unless it is gone. -/
def finishRule : LearnState :=
  { state with
    lprWrapperMap := Table.modify pair
      (fun _ => { rw with action := .nothing }) state.lprWrapperMap }

variable (batch : LearnBatch)

def LearnBatch.note (pair : GroupPair) (rw : LearnedPolicyRuleWrapper) (now : Nat) : LearnBatch :=
  if rw.action = .lprAdd then
    { batch with addList := batch.addList ++ [learnedRule2ClusterRule pair rw now] }
  else if rw.action = .lprModify then
    { batch with
      modifyList := batch.modifyList ++
        [{ id := rw.id, applications := ruleApplications pair rw.objs
           ports := rulePorts pair rw.objs }] }
  else if rw.action = .lprDelete then { batch with deleteMap := batch.deleteMap ++ [rw.id] }
  else batch

def procRule (updateCluster : Bool) (now : Nat)
    (progress : LearnState × LearnBatch) (pair : GroupPair) :
    LearnState × LearnBatch :=
  match progress.1.lprWrapperMap.lookup pair with
  | none => progress
  | some rw =>
    let adjusted := adjustRuleAction progress.1 pair rw
    (if adjusted.2.action = .lprDelete then dropRule adjusted.1 pair adjusted.2.id
      else finishRule adjusted.1 pair adjusted.2,
      if updateCluster then progress.2.note pair adjusted.2 now
      else progress.2)

inductive ClusterFault where
  | none
  | acquireLock
  | putRuleList
  | apply
  deriving DecidableEq

def modifyClusterRule (now : Nat) (rules : GoMap Nat PolicyRule)
    (change : RuleChange) : GoMap Nat PolicyRule :=
  Table.modify change.id (fun cr =>
      { cr with applications := change.applications, ports := change.ports, lastModAt := now })
    rules

/-- The rules of the cluster after the deletions and the additions. -/
def clusterRules (rules : GoMap Nat PolicyRule) : GoMap Nat PolicyRule :=
  batch.addList.foldl (fun rules rule => rules.insert rule.id rule)
    (batch.deleteMap.foldl (fun rules id => rules.erase id) rules)

/-- The rule list of the cluster after the deletions and the additions. -/
def clusterHeads (crhs : List RuleHead) : List RuleHead :=
  let kept := crhs.filter fun head => !batch.deleteMap.contains head.id
  let added := (batch.addList.insertionSort fun first second =>
    first.id ≤ second.id).filter fun rule => !(kept.map RuleHead.id).contains rule.id
  kept ++ added.map fun rule => { id := rule.id, priority := 0, cfgType := .learned }

/-- The batch written in one transaction, and the return value. -/
def writeBatch (cluster : PolicyCluster) (batch : LearnBatch)
    (fault : ClusterFault) (now : Nat) : PolicyCluster × Int :=
  let lenAdd := batch.addList.length
  let lenDel := batch.deleteMap.length
  let modified := batch.modifyList.foldl (modifyClusterRule now) cluster.rules
  if batch.modifyList = [] ∧ lenAdd = 0 ∧ lenDel = 0 then (cluster, 0)
  else if fault = .acquireLock then (cluster, -1)
  else if lenAdd = 0 ∧ lenDel = 0 then
    if fault = .apply then (cluster, -1)
    else ({ cluster with rules := modified }, 0)
  else if cluster.heads.length + lenAdd < lenDel then (cluster, -1)
  else if fault = .putRuleList ∨ fault = .apply then (cluster, -1)
  else
    ({ rules := clusterRules batch modified, heads := clusterHeads batch cluster.heads }, 0)

def procLearnedPolicy (updateCluster : Bool) (mapOrder : MapOrder GroupPair)
    (fault : ClusterFault) (now : Nat) : LearnState × Int :=
  let done := (mapOrder.order state.lprWrapperMap.keys).foldl
    (procRule updateCluster now) (state, .empty)
  if updateCluster then
    let written := writeBatch done.1.cluster done.2 fault now
    ({ done.1 with cluster := written.1 }, written.2)
  else (done.1, 0)

inductive LearnEvent where
  | connect (conn : Connection) (now : Int)
  | unlearnAll (groupName : String)
  | deleteNode (node : String)
  | process (updateCluster : Bool) (mapOrder : MapOrder GroupPair)
      (fault : ClusterFault) (now : Nat)
  /-- The workloads, hosts and groups become other ones. -/
  | refresh (directory : Directory)

def learnStep : LearnEvent → LearnState
  | .connect conn now => (addConnectToGraph state conn now).1
  | .unlearnAll groupName => Controller.unlearnAll state groupName
  | .deleteNode node => Controller.deleteNode state node
  | .process updateCluster mapOrder fault now =>
    (procLearnedPolicy state updateCluster mapOrder fault now).1
  | .refresh directory => { state with directory := directory }

def learnRun (events : List LearnEvent) : LearnState := events.foldl learnStep state

end NeuVector.Controller
