import NeuVector.Controller.WorkloadMembership

/-!
# Membership in groups

Over every run of orderly updates of workloads and groups the two sides of
membership agree.  A group that is modified starts with an empty cache, so
that its name stays with the workloads it no longer selects, and a group that
is deleted leaves its name with its members.
-/

namespace NeuVector.Controller

open Library Share

variable {env : RegexEnv} {state : GroupState} {wlc : WorkloadCache}

section Groups

variable {before : GroupState} {group : Group} {cache : GroupCache}
variable (state : GroupState) {id : String}

theorem mem_selectedIDs {wlCacheMap : GoMap String WorkloadCache}
    (keyed : ∀ id wlc, wlCacheMap.lookup id = some wlc → OwnWorkload id wlc.workload) :
    id ∈ selectedIDs env group wlCacheMap ↔
      ∃ wlc, wlCacheMap.lookup id = some wlc ∧ wlc.workload.running = true ∧
        isGroupMember env group wlc.workload = true := by
  simp only [selectedIDs, List.mem_toFinset, List.mem_map, List.mem_filter]
  constructor
  · rintro ⟨⟨key, wlc⟩, ⟨entry, wanted⟩, rfl⟩
    have found : wlCacheMap.lookup key = some wlc := AList.mem_lookup_iff.mpr entry
    obtain ⟨running, selected⟩ := Bool.and_eq_true_iff.mp wanted
    have own := ((keyed key wlc found).running running).1
    rw [own]
    exact ⟨wlc, found, running, selected⟩
  · rintro ⟨wlc, found, running, selected⟩
    exact ⟨⟨id, wlc⟩, ⟨AList.mem_lookup_iff.mp found, Bool.and_eq_true_iff.mpr ⟨running, selected⟩⟩,
      ((keyed id wlc found).running running).1⟩

def Joins (env : RegexEnv) (group : Group) (wlc : WorkloadCache) : Prop :=
  group.kind = .container ∧ wlc.workload.running = true ∧
    isGroupMember env group wlc.workload = true

instance (group : Group) (wlc : WorkloadCache) : Decidable (Joins env group wlc) :=
  inferInstanceAs (Decidable (_ ∧ _ ∧ _))

def enlisted (env : RegexEnv) (group : Group) (wlc : WorkloadCache) : WorkloadCache :=
  if Joins env group wlc then { wlc with groups := insert group.name wlc.groups }
  else wlc

theorem enlisted_workload (wlc : WorkloadCache) :
    (enlisted env group wlc).workload = wlc.workload := by
  unfold enlisted
  split
  · rfl
  · rfl

variable {name : String}

theorem mem_enlisted_groups :
    name ∈ (enlisted env group wlc).groups ↔
      name ∈ wlc.groups ∨ name = group.name ∧ Joins env group wlc := by
  unfold enlisted
  split
  next joins =>
    simp only [Finset.mem_insert, joins, and_true]
    exact or_comm
  next joins => simp only [joins, and_false, or_false]

structure ConfigUpdated (env : RegexEnv) (group : Group) (before after : GroupState) : Prop where
  workloads : ∀ id, after.wlCacheMap.lookup id =
    (before.wlCacheMap.lookup id).map (enlisted env group)
  others : ∀ other, other ≠ group.name → (after.groupCacheMap.lookup other).map GroupCache.roster =
      (before.groupCacheMap.lookup other).map GroupCache.roster
  own : ∃ cache, after.groupCacheMap.lookup group.name = some cache ∧ cache.group = group ∧
    ∀ id, id ≠ "" → (id ∈ cache.members ↔
      ∃ wlc, before.wlCacheMap.lookup id = some wlc ∧ Joins env group wlc)

/-- What the write of a group needs: every running member is selected by the
new criteria, and a group of another kind than containers selects no running
workload. -/
structure OrderlyGroup (env : RegexEnv) (state : GroupState) (group : Group) : Prop where
  members : ∀ id wlc, state.wlCacheMap.lookup id = some wlc →
    wlc.workload.running = true → IsMember state group.name id →
    isGroupMember env group wlc.workload = true
  kinds : group.kind ≠ .container → ∀ id wlc,
    state.wlCacheMap.lookup id = some wlc → wlc.workload.running = true →
    isGroupMember env group wlc.workload = false

theorem OrderlyGroup.container (orderly : OrderlyGroup env before group)
    (found : before.wlCacheMap.lookup id = some wlc) (running : wlc.workload.running = true)
    (selected : isGroupMember env group wlc.workload = true) :
    Joins env group wlc := by
  refine ⟨?_, running, selected⟩
  by_contra other
  have refused := orderly.kinds other id wlc found running
  rw [selected] at refused
  cases refused

variable {after : GroupState}

theorem ConfigUpdated.step (updated : ConfigUpdated env group before after)
    (consistent : Consistent env before) (orderly : OrderlyGroup env before group) :
    GroupStep env group.name before after := by
  obtain ⟨cache, cached, rfl, members⟩ := updated.own
  have isMember : ∀ id, id ≠ "" →
      (IsMember after cache.group.name id ↔ ∃ wlc, before.wlCacheMap.lookup id = some wlc ∧
          Joins env cache.group wlc) := by
    intro id notEmpty
    rw [← members id notEmpty]
    simp only [IsMember, cached, Option.some.injEq, exists_eq_left']
  have isSelected : ∀ workload, IsSelected env after cache.group.name workload ↔
      isGroupMember env cache.group workload = true := by
    simp only [IsSelected, cached, Option.some.injEq, exists_eq_left', implies_true]
  constructor
  · intro id
    rw [updated.workloads id, Option.map_map]
    congr 1
    funext wlc
    exact enlisted_workload wlc
  · exact updated.others
  · intro id wlc old other found oldFound different
    rw [updated.workloads id, oldFound] at found
    cases found
    rw [mem_enlisted_groups]
    constructor
    · rintro (kept | ⟨same, _⟩)
      · exact kept
      · exact absurd same different
    · exact .inl
  · intro other otherCached
    cases cached.symm.trans otherCached
    rfl
  · intro id wlc found
    rw [updated.workloads id] at found
    obtain ⟨old, oldFound, rfl⟩ := Option.map_eq_some_iff.mp found
    have notEmpty := (consistent.keyed id old oldFound).1
    rw [mem_enlisted_groups, isMember id notEmpty]
    constructor
    · rintro (kept | ⟨_, joins⟩)
      · have wasMember := (consistent.groups id old _ oldFound).mp kept
        obtain ⟨running, _⟩ := (consistent.member_iff oldFound).mp wasMember
        have selected := orderly.members id old oldFound running wasMember
        exact ⟨old, oldFound, orderly.container oldFound running selected⟩
      · exact ⟨old, oldFound, joins⟩
    · rintro ⟨same, sameFound, joins⟩
      cases oldFound.symm.trans sameFound
      exact .inr ⟨rfl, joins⟩
  · intro id notEmpty
    simp only [isMember id notEmpty, updated.workloads id, Option.map_eq_some_iff,
      exists_exists_and_eq_and, enlisted_workload, isSelected]
    apply exists_congr
    intro old
    apply and_congr_right
    intro oldFound
    constructor
    · exact fun joins => joins.2
    · rintro ⟨running, selected⟩
      exact orderly.container oldFound running selected

theorem addSvcIpGroups_workloads (cache : GroupCache) :
    (addSvcIpGroups env state cache).wlCacheMap = state.wlCacheMap := by
  unfold addSvcIpGroups
  split
  · rfl
  · rfl

theorem addSvcIpGroups_roster (cache : GroupCache) (name : String) :
    ((addSvcIpGroups env state cache).groupCacheMap.lookup name).map GroupCache.roster =
      (state.groupCacheMap.lookup name).map GroupCache.roster := by
  unfold addSvcIpGroups
  split
  · rfl
  · rw [Table.lookup_mapValues, Option.map_map]
    congr 1
    funext svcipcache
    simp only [Function.comp_apply]
    split
    · rfl
    · rfl

theorem removed_fresh (fresh : cache.members = ∅)
    (wlCacheMap : GoMap String WorkloadCache) (id : String) :
    (Table.mapValues (fun id wlc =>
        if id ∈ cache.members then { wlc with groups := wlc.groups.erase cache.group.name }
        else wlc) wlCacheMap).lookup id = wlCacheMap.lookup id := by
  rw [Table.lookup_mapValues, fresh]
  simp only [Finset.notMem_empty, if_false, Option.map_id']

theorem putGroup_updated {state : GroupState} (isGroup : cache.group = group)
    (workloads : ∀ id, state.wlCacheMap.lookup id =
      (before.wlCacheMap.lookup id).map (enlisted env group))
    (groups : ∀ name, (state.groupCacheMap.lookup name).map GroupCache.roster =
        (before.groupCacheMap.lookup name).map GroupCache.roster)
    (members : ∀ id, id ≠ "" → (id ∈ cache.members ↔
      ∃ wlc, before.wlCacheMap.lookup id = some wlc ∧ Joins env group wlc)) :
    ConfigUpdated env group before (state.putGroup cache) := by
  subst isGroup
  constructor
  · exact workloads
  · intro other different
    rw [← groups other, GroupState.putGroup, AList.lookup_insert_ne different]
  · exact ⟨cache, AList.lookup_insert _, rfl, members⟩

theorem putGroup_other_kind {state : GroupState} (isGroup : cache.group = group)
    (other : group.kind ≠ .container) (empty : ∀ id, id ≠ "" → id ∉ cache.members)
    (workloads : ∀ id, state.wlCacheMap.lookup id = before.wlCacheMap.lookup id)
    (groups : state.groupCacheMap = before.groupCacheMap) :
    ConfigUpdated env group before (state.putGroup cache) := by
  have outside : ∀ wlc, ¬Joins env group wlc := fun _ joins => other joins.1
  refine putGroup_updated isGroup ?_ (fun name => by rw [groups]) ?_
  · intro id
    have same : enlisted env group = (fun wlc => wlc) := funext fun wlc => if_neg (outside wlc)
    rw [workloads id, same, Option.map_id']
  · intro id notEmpty
    refine iff_of_false (empty id notEmpty) ?_
    rintro ⟨wlc, _, joins⟩
    exact outside wlc joins

theorem refreshGroupMember_updated (consistent : Consistent env before)
    (fresh : cache.members = ∅) :
    ConfigUpdated env cache.group before ((refreshGroupMember env before cache).1.putGroup
        (refreshGroupMember env before cache).2) := by
  have removed := removed_fresh fresh before.wlCacheMap
  unfold refreshGroupMember
  by_cases node : cache.group.kind = .node
  · rw [if_pos node]
    refine putGroup_other_kind rfl ?_ ?_ removed rfl
    · simp [node]
    · intro id notEmpty
      rw [Finset.mem_singleton]
      exact notEmpty
  · rw [if_neg node]
    by_cases other : cache.group.kind ≠ .container
    · rw [if_pos other]
      exact putGroup_other_kind rfl other (fun id _ => Finset.notMem_empty id) removed rfl
    · rw [if_neg other]
      have container : cache.group.kind = .container := not_not.mp other
      refine putGroup_updated rfl ?_ ?_ ?_
      · intro id
        simp only
        rw [addSvcIpGroups_workloads, Table.lookup_mapValues, removed id]
        congr 1
        funext wlc
        simp only [enlisted, Joins, container, true_and]
      · intro name
        exact addSvcIpGroups_roster _ cache name
      · intro id _
        simp only
        rw [addSvcIpGroups_workloads, mem_selectedIDs, removed id]
        · simp only [Joins, container, true_and]
        · intro key wlc found
          rw [removed key] at found
          exact (consistent.keyed key wlc found).2

theorem svcipGroupJoin_workloads (cache : GroupCache) :
    (svcipGroupJoin env state cache).wlCacheMap = state.wlCacheMap := by
  unfold svcipGroupJoin
  split
  · rfl
  · rfl

theorem svcipGroupJoin_roster (cache : GroupCache) (name : String) :
    ((svcipGroupJoin env state cache).groupCacheMap.lookup name).map GroupCache.roster =
      (state.groupCacheMap.lookup name).map GroupCache.roster := by
  unfold svcipGroupJoin
  split
  · rfl
  · by_cases same : name = cache.group.name
    · subst same
      rw [Table.lookup_modify_self, Option.map_map]
      rfl
    · rw [Table.lookup_modify_ne _ same]

theorem ConfigUpdated.congr {other : GroupState} (updated : ConfigUpdated env group before after)
    (workloads : other.wlCacheMap = after.wlCacheMap)
    (groups : ∀ name, (other.groupCacheMap.lookup name).map GroupCache.roster =
        (after.groupCacheMap.lookup name).map GroupCache.roster) :
    ConfigUpdated env group before other := by
  constructor
  · intro id
    rw [workloads]
    exact updated.workloads id
  · intro name different
    rw [groups name]
    exact updated.others name different
  · obtain ⟨cache, cached, isGroup, members⟩ := updated.own
    obtain ⟨own, ownCached, roster⟩ := exists_of_map_eq (groups group.name).symm cached
    have sameGroup : own.group = cache.group := congrArg Prod.fst roster
    have sameMembers : own.members = cache.members := congrArg Prod.snd roster
    refine ⟨own, ownCached, sameGroup.trans isGroup, ?_⟩
    rw [sameMembers]
    exact members

theorem svcipGroupJoin_updated (isGroup : cache.group = group)
    (other : group.kind ≠ .container) (fresh : cache.members = ∅) :
    ConfigUpdated env group before (svcipGroupJoin env (before.putGroup cache) cache) := by
  have written : ConfigUpdated env group before (before.putGroup cache) :=
    putGroup_other_kind isGroup other (by simp [fresh]) (fun _ => rfl) rfl
  exact written.congr (svcipGroupJoin_workloads _ cache) (svcipGroupJoin_roster _ cache)

theorem groupCacheFor_fresh (group : Group) :
    (groupCacheFor state group).group = group ∧ (groupCacheFor state group).members = ∅ := by
  unfold groupCacheFor
  split
  · exact ⟨rfl, rfl⟩
  · exact ⟨rfl, rfl⟩

theorem groupConfigUpdate_consistent (consistent : Consistent env before)
    (orderly : isNeuvectorContainerGroup before.ctrlerDomain group.name =
      false → OrderlyGroup env before group) :
    Consistent env (groupConfigUpdate env before group) := by
  obtain ⟨isGroup, fresh⟩ := groupCacheFor_fresh before group
  unfold groupConfigUpdate
  split
  · exact consistent
  next notOwn =>
    have orderly := orderly (Bool.eq_false_of_not_eq_true notOwn)
    split
    next ipService =>
      have kind : group.kind = .ipService := of_decide_eq_true ipService
      have other : group.kind ≠ .container := by
        rw [kind]
        intro same
        cases same
      have updated : ConfigUpdated env group before (svcipGroupJoin env (before.putGroup
              { groupCacheFor before group with svcAddrs := serviceAddresses group })
            { groupCacheFor before group with svcAddrs := serviceAddresses group }) :=
        svcipGroupJoin_updated isGroup other fresh
      exact (updated.step consistent orderly).consistent consistent
    · have updated := refreshGroupMember_updated consistent fresh
      rw [isGroup] at updated
      exact (updated.step consistent orderly).consistent consistent

theorem GroupStep.of_memberless (workloads : after.wlCacheMap = before.wlCacheMap)
    (others : ∀ other, other ≠ name →
      after.groupCacheMap.lookup other = before.groupCacheMap.lookup other)
    (own : ∀ cache, after.groupCacheMap.lookup name = some cache →
      cache = initGroupCache cache.group.cfgType name)
    (absent : ∀ id wlc, before.wlCacheMap.lookup id = some wlc →
      name ∉ wlc.groups) : GroupStep env name before after := by
  have noMember : ∀ id, ¬IsMember after name id := by
    rintro id ⟨cache, cached, member⟩
    rw [own cache cached] at member
    exact absurd member (Finset.notMem_empty id)
  constructor
  · intro id
    rw [workloads]
  · intro other different
    rw [others other different]
  · intro id wlc old other found oldFound _
    rw [workloads, oldFound] at found
    cases found
    exact Iff.rfl
  · intro cache cached
    rw [own cache cached]
    rfl
  · intro id wlc found
    rw [workloads] at found
    exact iff_of_false (absent id wlc found) (noMember id)
  · intro id _
    refine iff_of_false (noMember id) ?_
    rintro ⟨wlc, _, _, cache, cached, selected⟩
    rw [own cache cached] at selected
    cases selected

theorem groupConfigDelete_consistent (consistent : Consistent env before)
    (empty : ∀ id wlc, before.wlCacheMap.lookup id = some wlc →
      wlc.workload.running = true → ¬IsMember before name id) :
    Consistent env (groupConfigDelete before name) := by
  have gone : (groupConfigDelete before name).groupCacheMap.lookup name =
      none := AList.lookup_erase name _
  have step : GroupStep env name before (groupConfigDelete before name) := by
    apply GroupStep.of_memberless
    · rfl
    · intro other different
      exact AList.lookup_erase_ne different
    · intro cache cached
      cases gone.symm.trans cached
    · intro id wlc found isGroup
      have wasMember := (consistent.groups id wlc name found).mp isGroup
      exact empty id wlc found ((consistent.member_iff found).mp wasMember).1 wasMember
  exact step.consistent consistent

theorem referGroup_consistent (consistent : Consistent env before)
    (cfgType : CfgType) (name : String) :
    Consistent env (referGroup before cfgType name) := by
  unfold referGroup
  cases absent : before.groupCacheMap.lookup name with
  | some cache => exact consistent
  | none =>
    let after :=
      { before with
        groupCacheMap := before.groupCacheMap.insert name (initGroupCache cfgType name) }
    have own : after.groupCacheMap.lookup name =
        some (initGroupCache cfgType name) := AList.lookup_insert _
    have step : GroupStep env name before after := by
      apply GroupStep.of_memberless
      · rfl
      · intro other different
        exact AList.lookup_insert_ne different
      · intro cache cached
        cases own.symm.trans cached
        rfl
      · intro id wlc found isGroup
        obtain ⟨cache, cached, _⟩ := (consistent.groups id wlc name found).mp isGroup
        cases absent.symm.trans cached
    exact step.consistent consistent

end Groups

def OrderlyEvent (env : RegexEnv) (state : GroupState) : GroupEvent → Prop
  | .workload wl => OrderlyWorkload env state wl
  | .workloadDelete _ => True
  | .group group =>
    isNeuvectorContainerGroup state.ctrlerDomain group.name = false → OrderlyGroup env state group
  | .groupDelete name => ∀ id wlc, state.wlCacheMap.lookup id = some wlc →
      wlc.workload.running = true → ¬IsMember state name id
  | .referGroup _ _ => True

def OrderlyEvents (env : RegexEnv) : GroupState → List GroupEvent → Prop
  | _, [] => True
  | state, event :: rest =>
    OrderlyEvent env state event ∧ OrderlyEvents env (groupStep env state event) rest

theorem groupStep_consistent {event : GroupEvent} (orderly : OrderlyEvent env state event)
    (consistent : Consistent env state) :
    Consistent env (groupStep env state event) := by
  cases event with
  | workload wl => exact workloadUpdate_consistent consistent orderly
  | workloadDelete id => exact workloadDelete_consistent consistent id
  | group group => exact groupConfigUpdate_consistent consistent orderly
  | groupDelete name => exact groupConfigDelete_consistent consistent orderly
  | referGroup cfgType name => exact referGroup_consistent consistent cfgType name

theorem groupRun_consistent {events : List GroupEvent} (orderly : OrderlyEvents env state events)
    (consistent : Consistent env state) :
    Consistent env (groupRun env state events) := by
  induction events generalizing state with
  | nil => exact consistent
  | cons event rest induction =>
    exact induction orderly.2 (groupStep_consistent orderly.1 consistent)

/-- After every orderly run, a running workload has a group in its list
exactly when the group has it as a member, and exactly when it satisfies the
criteria of the group. -/
theorem group_membership_mutual (env : RegexEnv) (policyApplyIngress : Bool)
    (ctrlerDomain : String) (events : List GroupEvent)
    (orderly : OrderlyEvents env (.start policyApplyIngress ctrlerDomain) events) :
    MutualMembership env (groupRun env (.start policyApplyIngress ctrlerDomain) events) :=
  (groupRun_consistent orderly (Consistent.start policyApplyIngress ctrlerDomain)).agrees

def serviceGroup (services : List String) : Group :=
  { name := "shops", criteria := services.map isService, domain := ""
    createrDomains := none, kind := .container, cfgType := .userCreated }

def webContainer : ClusWorkload :=
  { id := "web-1", attributes := webWorkload, running := true, createdAt := 1, shareNetNS := "" }

/-- The criteria of a group become wider while it has a member. -/
theorem group_membership_mutual_widened :
    MutualMembership noRegex (groupRun noRegex (.start false "")
        [.group (serviceGroup ["web"]), .workload webContainer,
          .group (serviceGroup ["web", "db"])]) := by
  apply group_membership_mutual
  refine ⟨?_, ?_, ?_, trivial⟩
  · intro _
    constructor
    · intro id wlc found
      cases found
    · intro other
      exact absurd rfl other
  · constructor
    · decide
    · decide
    · intro cached found
      cases found
    · intro _ _ name cache found
      obtain ⟨rfl, rfl⟩ := Table.lookup_singleton found
      constructor
      · intro named
        exact absurd named (by decide)
      · intro learned
        cases learned
  · intro _
    constructor
    · intro id wlc found _ _
      obtain ⟨rfl, rfl⟩ := Table.lookup_singleton found
      decide
    · intro other
      exact absurd rfl other

/-- The name of a group stays with a workload that the group no longer
selects. -/
theorem modified_group_keeps_name :
    ¬MutualMembership noRegex (groupRun noRegex (.start false "")
        [.group (serviceGroup ["web"]), .workload webContainer, .group (serviceGroup ["db"])]) := by
  intro agrees
  let final := groupRun noRegex (.start false "")
    [.group (serviceGroup ["web"]), .workload webContainer, .group (serviceGroup ["db"])]
  have stored : final.wlCacheMap.lookup "web-1" =
      some { workload := webContainer, learnedGroupName := "nv.web", groups := {"shops"} } := rfl
  have group : final.groupCacheMap.lookup "shops" =
      some { group := serviceGroup ["db"], members := ∅, svcAddrs := ∅, usedByPolicy := ∅ } := rfl
  have named := (agrees "web-1" _ stored rfl "shops").1
  obtain ⟨cache, found, member⟩ := named.mp (Finset.mem_singleton_self "shops")
  cases group.symm.trans found
  exact Finset.notMem_empty _ member

end NeuVector.Controller
