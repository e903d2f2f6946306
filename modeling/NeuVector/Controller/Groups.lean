import Mathlib.Data.Finset.Basic
import NeuVector.Library.Table
import NeuVector.Controller.PolicyStore
import NeuVector.Share.Criteria

/-!
# Groups and workloads

The controller keeps a cache of groups and one of workloads, and stores the
membership of a workload in a group in both.  This module embeds the handlers
of `controller/cache/group.go` and `controller/cache/object.go` that change
the membership: workloads that start, stop and are deleted, and groups that
are written and deleted.  A service group joins the groups of users whose
domain matches; this is kept with the rules that use the groups.
-/

namespace NeuVector.Controller

open Library Share

inductive GroupKind where
  | container
  | address
  | ipService
  | external
  | node
  | unknown
  deriving DecidableEq

structure Group where
  name : String
  criteria : List CriteriaEntry
  domain : String
  createrDomains : Option (List String)
  kind : GroupKind
  cfgType : CfgType
  deriving DecidableEq

structure ClusWorkload where
  id : String
  /-- What the criteria look at. -/
  attributes : Workload
  running : Bool
  /-- Zero if there is no time. -/
  createdAt : Nat
  shareNetNS : String

structure WorkloadCache where
  workload : ClusWorkload
  learnedGroupName : String
  groups : Finset String

structure GroupCache where
  group : Group
  members : Finset String
  svcAddrs : Finset String
  usedByPolicy : Finset Nat

structure GroupState where
  policyApplyIngress : Bool
  /-- The domain of the controller itself. -/
  ctrlerDomain : String
  wlCacheMap : GoMap String WorkloadCache
  groupCacheMap : GoMap String GroupCache
  grpSvcIpByDomainMap : GoMap String (Finset String)

/-- Whether a domain is one of those of the creators of a group; nil stands
for all domains. -/
def inCreaterDomains (createrDomains : Option (List String)) (domain : String) : Bool :=
  match createrDomains with
  | none => true
  | some domains => domains.contains domain

variable (env : RegexEnv) (state : GroupState) (group : Group)

def isGroupMember (workload : ClusWorkload) : Bool :=
  isWorkloadSelected env workload.attributes group.criteria &&
    inCreaterDomains group.createrDomains workload.attributes.domain

def isSvcIpGroupMember (usergroup svcipgroup : Group) : Bool :=
  isSvcIpGroupSelected env svcipgroup.domain usergroup.criteria &&
    inCreaterDomains usergroup.createrDomains svcipgroup.domain

def learnedNameStart : String := "nv."

def isPrintable (char : Char) : Bool := 0x20 ≤ char.toNat && char.toNat ≤ 0x7E

def isURLReserved (char : Char) : Bool := ['/', '?', '%', '&', ' '].contains char

variable (wlc : WorkloadCache) (name : String)

def normalizeForURL : String :=
  String.ofList ((name.toList.filter isPrintable).map fun char =>
    if isURLReserved char then ':' else char)

def makeLearnedGroupName : String := learnedNameStart ++ name

def neuvectorPods : List String :=
  ["nv.neuvector-manager-pod", "nv.neuvector-scanner-pod",
    "nv.neuvector-controller-pod", "nv.neuvector-enforcer-pod",
    "nv.neuvector-updater-pod"]

def splitAtLastDot (text : List Char) : Option (List Char × List Char) :=
  let reversed := text.reverse
  let after := reversed.takeWhile (· ≠ '.')
  if after.length = text.length then none
  else some ((reversed.drop (after.length + 1)).reverse, after.reverse)

def isNeuvectorContainerGroup (ctrlerDomain group : String) : Bool :=
  match splitAtLastDot group.toList with
  | none => false
  | some (name, domain) =>
    String.ofList domain == ctrlerDomain && neuvectorPods.contains (String.ofList name)

def initGroupCache (cfgType : CfgType) (name : String) : GroupCache :=
  { group :=
      { name := name, criteria := [], domain := "", createrDomains := none
        kind := .unknown, cfgType := cfgType }
    members := ∅, svcAddrs := ∅, usedByPolicy := ∅ }

def isDummyGroupCache (gc : GroupCache) : Bool := gc.group.criteria.length = 0

def emptyWorkload : ClusWorkload :=
  { id := ""
    attributes :=
      { image := "", hostName := "", name := "", service := "", domain := "", labels := ∅ }
    running := false, createdAt := 0, shareNetNS := "" }

def initWorkloadCache : WorkloadCache :=
  { workload := emptyWorkload, learnedGroupName := "", groups := ∅ }

def isDummyWorkloadCache : Bool := wlc.workload.createdAt = 0

def groupNames (wanted : GroupCache → Bool)
    (groupCacheMap : GoMap String GroupCache) : Finset String :=
  ((groupCacheMap.entries.filter fun entry => wanted entry.2).map
    fun entry => entry.2.group.name).toFinset

def selectedIDs (wlCacheMap : GoMap String WorkloadCache) : Finset String :=
  ((wlCacheMap.entries.filter fun entry =>
    entry.2.workload.running && isGroupMember env group entry.2.workload).map
    fun entry => entry.2.workload.id).toFinset

def isIPServiceGroup : Bool := group.kind = .ipService

/-- A learned service group joins the groups of users. -/
def svcipGroupJoin (svcipcache : GroupCache) : GroupState :=
  if state.policyApplyIngress ∨ svcipcache.group.cfgType ≠ .learned then state
  else
    let joined := fun cache : GroupCache =>
      cache.group.cfgType ≠ .learned && isSvcIpGroupMember env cache.group svcipcache.group
    let userGroups := state.groupCacheMap.entries.filter fun entry => joined entry.2
    { state with
      grpSvcIpByDomainMap := userGroups.foldl
        (fun byDomain entry =>
          byDomain.insert entry.2.group.name
            (insert svcipcache.group.name ((byDomain.lookup entry.2.group.name).getD ∅)))
        state.grpSvcIpByDomainMap
      groupCacheMap := Table.modify svcipcache.group.name
        (fun cache =>
          { cache with
            usedByPolicy := userGroups.foldl (fun rules entry => rules ∪ entry.2.usedByPolicy)
              cache.usedByPolicy })
        state.groupCacheMap }

variable (cache : GroupCache)

/-- The learned service groups join a group of a user. -/
def addSvcIpGroups : GroupState :=
  if state.policyApplyIngress ∨ cache.group.cfgType = .learned then state
  else
    let joins := fun svcipcache : GroupCache =>
      svcipcache.group.kind = .ipService && svcipcache.group.cfgType = .learned &&
        isSvcIpGroupMember env cache.group svcipcache.group
    let names := groupNames joins state.groupCacheMap
    { state with
      grpSvcIpByDomainMap :=
        if names = ∅ then state.grpSvcIpByDomainMap.erase cache.group.name
        else state.grpSvcIpByDomainMap.insert cache.group.name names
      groupCacheMap := Table.mapValues
        (fun _ svcipcache =>
          if joins svcipcache then
            { svcipcache with usedByPolicy := svcipcache.usedByPolicy ∪ cache.usedByPolicy }
          else svcipcache)
        state.groupCacheMap }

/-- The members of a group determined anew, from the workloads on. -/
def refreshGroupMember : GroupState × GroupCache :=
  let left :=
    { state with
      wlCacheMap := Table.mapValues
        (fun id wlc =>
          if id ∈ cache.members then { wlc with groups := wlc.groups.erase cache.group.name }
          else wlc)
        state.wlCacheMap }
  if cache.group.kind = .node then (left, { cache with members := {""} })
  else if cache.group.kind ≠ .container then (left, { cache with members := ∅ })
  else
    let joined := addSvcIpGroups env left cache
    ({ joined with
        wlCacheMap := Table.mapValues
          (fun _ wlc =>
            if wlc.workload.running ∧ isGroupMember env cache.group wlc.workload then
              { wlc with groups := insert cache.group.name wlc.groups }
            else wlc)
          joined.wlCacheMap },
      { cache with members := selectedIDs env cache.group joined.wlCacheMap })

/-- A group that is added or modified gets a new cache; the rules that use it
are handed over. -/
def groupCacheFor : GroupCache :=
  let cache := { initGroupCache group.cfgType group.name with group := group }
  match state.groupCacheMap.lookup group.name with
  | some exist => { cache with usedByPolicy := exist.usedByPolicy }
  | none => cache

def serviceAddresses : Finset String :=
  ((group.criteria.filter fun crt =>
    crt.key = criteriaKeyAddress ∧ crt.value ≠ "<nil>").map
    CriteriaEntry.value).toFinset

def GroupState.putGroup : GroupState :=
  { state with groupCacheMap := state.groupCacheMap.insert cache.group.name cache }

def groupConfigUpdate : GroupState :=
  if isNeuvectorContainerGroup state.ctrlerDomain group.name then state
  else
    let cache := groupCacheFor state group
    if isIPServiceGroup group then
      let cache := { cache with svcAddrs := serviceAddresses group }
      svcipGroupJoin env (state.putGroup cache) cache
    else
      let refreshed := refreshGroupMember env state cache
      refreshed.1.putGroup refreshed.2

def groupConfigDelete : GroupState := { state with groupCacheMap := state.groupCacheMap.erase name }

/-- A rule names a group that is not in the cache yet. -/
def referGroup (cfgType : CfgType) (name : String) : GroupState :=
  match state.groupCacheMap.lookup name with
  | some _ => state
  | none =>
    { state with groupCacheMap := state.groupCacheMap.insert name (initGroupCache cfgType name) }

def GroupState.putWorkload (id : String) (wlc : WorkloadCache) : GroupState :=
  { state with wlCacheMap := state.wlCacheMap.insert id wlc }

/-- A workload that leaves all groups it is a member of; its own cache may be
gone already. -/
def groupWorkloadLeave : GroupState × WorkloadCache :=
  let id := wlc.workload.id
  ({ state with
      groupCacheMap := Table.mapValues
        (fun _ cache => { cache with members := cache.members.erase id })
        state.groupCacheMap },
    { wlc with
      groups := wlc.groups \ groupNames (fun cache => id ∈ cache.members) state.groupCacheMap })

/-- The group a workload joins by its name, without a look at criteria. -/
def joinsLearnedGroup : Bool := name = wlc.learnedGroupName && !isDummyGroupCache cache

def joinsUserGroup : Bool :=
  cache.group.cfgType ≠ .learned && isGroupMember env cache.group wlc.workload

/-- A workload that joins groups.  A learned group that is missing is written
to the cluster by the leader and comes back as a group that is added. -/
def groupWorkloadJoin : GroupState × WorkloadCache :=
  let id := wlc.workload.id
  let learned := (state.groupCacheMap.lookup wlc.learnedGroupName).any
    fun cache => joinsLearnedGroup wlc wlc.learnedGroupName cache && !decide (id ∈ cache.members)
  let named := groupNames (fun cache => joinsUserGroup env wlc cache &&
    !decide (id ∈ cache.members)) state.groupCacheMap
  ({ state with
      groupCacheMap := Table.mapValues
        (fun name cache =>
          if joinsLearnedGroup wlc name cache || joinsUserGroup env wlc cache
          then { cache with members := insert id cache.members }
          else cache)
        state.groupCacheMap },
    { wlc with
      groups := (if learned then insert wlc.learnedGroupName wlc.groups
        else wlc.groups) ∪ named })

variable (wl : ClusWorkload)

def serviceGroupName : String := makeLearnedGroupName (normalizeForURL wl.attributes.service)

/-- A container of a pod makes an empty cache for its pod. -/
def addParent : GroupState :=
  if wl.shareNetNS = "" then state
  else
    match state.wlCacheMap.lookup wl.shareNetNS with
    | some _ => state
    | none => state.putWorkload wl.shareNetNS initWorkloadCache

def startWorkload : GroupState :=
  let joined := groupWorkloadJoin env state wlc
  joined.1.putWorkload wlc.workload.id joined.2

def stopWorkload : GroupState :=
  let left := groupWorkloadLeave state wlc
  left.1.putWorkload wlc.workload.id left.2

/-- A workload that is not in the cache, or only as the pod of another one. -/
def newWorkload (cached : WorkloadCache) (wl : ClusWorkload) : GroupState :=
  let wlc :=
    { cached with
      workload := wl
      learnedGroupName :=
        if wl.running then serviceGroupName wl else cached.learnedGroupName }
  let stored := addParent (state.putWorkload wl.id wlc) wl
  if wl.running then startWorkload env stored wlc else stored

def changeWorkload (cached : WorkloadCache) (wl : ClusWorkload) : GroupState :=
  let started := wl.running ∧ cached.workload.running = false
  let wlc :=
    { cached with
      workload := wl
      learnedGroupName :=
        if started then serviceGroupName wl else cached.learnedGroupName }
  let stored := state.putWorkload wl.id wlc
  if started then startWorkload env stored wlc
  else if wl.running = false ∧ cached.workload.running then stopWorkload stored wlc
  else stored

def workloadUpdate : GroupState :=
  match state.wlCacheMap.lookup wl.id with
  | none => newWorkload env state initWorkloadCache wl
  | some cached =>
    if isDummyWorkloadCache cached then newWorkload env state cached wl
    else changeWorkload env state cached wl

def workloadDelete (id : String) : GroupState :=
  match state.wlCacheMap.lookup id with
  | none => state
  | some wlc => (groupWorkloadLeave { state with wlCacheMap := state.wlCacheMap.erase id } wlc).1

inductive GroupEvent where
  | workload (wl : ClusWorkload)
  | workloadDelete (id : String)
  | group (group : Group)
  | groupDelete (name : String)
  | referGroup (cfgType : CfgType) (name : String)

def groupStep : GroupEvent → GroupState
  | .workload wl => workloadUpdate env state wl
  | .workloadDelete id => Controller.workloadDelete state id
  | .group group => groupConfigUpdate env state group
  | .groupDelete name => groupConfigDelete state name
  | .referGroup cfgType name => Controller.referGroup state cfgType name

def groupRun (events : List GroupEvent) : GroupState := events.foldl (groupStep env) state

def GroupState.start (policyApplyIngress : Bool) (ctrlerDomain : String) : GroupState :=
  { policyApplyIngress := policyApplyIngress, ctrlerDomain := ctrlerDomain
    wlCacheMap := ∅, groupCacheMap := ∅, grpSvcIpByDomainMap := ∅ }

end NeuVector.Controller
