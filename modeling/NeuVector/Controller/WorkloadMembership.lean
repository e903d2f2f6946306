import NeuVector.Controller.GroupConsistency

/-!
# Workloads join and leave groups

A workload that starts running joins the groups that select it, and leaves
them when it stops or is deleted.  A change of a running workload is orderly
if its groups select it as before.
-/

namespace NeuVector.Controller

open Library Share

variable {env : RegexEnv} {cache : GroupCache}

section Workloads

variable {before stored : GroupState} {id : String} {wlc : WorkloadCache}
variable {wl : ClusWorkload} {name : String}

theorem mem_groupNames {wanted : GroupCache → Bool} {groupCacheMap : GoMap String GroupCache}
    (named : ∀ name cache, groupCacheMap.lookup name = some cache → cache.group.name = name) :
    name ∈ groupNames wanted groupCacheMap ↔ ∃ cache, groupCacheMap.lookup name = some cache ∧
        wanted cache = true := by
  simp only [groupNames, List.mem_toFinset, List.mem_map, List.mem_filter]
  constructor
  · rintro ⟨⟨key, cache⟩, ⟨entry, isWanted⟩, rfl⟩
    have found : groupCacheMap.lookup key = some cache := AList.mem_lookup_iff.mpr entry
    have own := named key cache found
    rw [own]
    exact ⟨cache, found, isWanted⟩
  · rintro ⟨cache, found, isWanted⟩
    exact ⟨⟨name, cache⟩, ⟨AList.mem_lookup_iff.mp found, isWanted⟩, named name cache found⟩

/-- The state in which a workload starts or stops: its cache is written, and
empty caches may have been added. -/
structure Stored (id : String) (wlc : WorkloadCache) (before stored : GroupState) : Prop where
  groups : stored.groupCacheMap = before.groupCacheMap
  own : stored.wlCacheMap.lookup id = some wlc
  others : ∀ other, other ≠ id → stored.wlCacheMap.lookup other = before.wlCacheMap.lookup other ∨
      other ≠ "" ∧ before.wlCacheMap.lookup other = none ∧
        stored.wlCacheMap.lookup other = some initWorkloadCache

theorem putWorkload_others {state : GroupState} {other : String} (different : other ≠ id) :
    (state.putWorkload id wlc).wlCacheMap.lookup other = state.wlCacheMap.lookup other :=
  AList.lookup_insert_ne different

theorem putWorkload_own (state : GroupState) (id : String) (wlc : WorkloadCache) :
    (state.putWorkload id wlc).wlCacheMap.lookup id = some wlc :=
  AList.lookup_insert _

theorem putWorkload_stored (before : GroupState) (id : String) (wlc : WorkloadCache) :
    Stored id wlc before (before.putWorkload id wlc) :=
  ⟨rfl, putWorkload_own before id wlc, fun _ different => .inl (putWorkload_others different)⟩

theorem addParent_stored (before : GroupState) (wlc : WorkloadCache) :
    Stored wl.id wlc before (addParent (before.putWorkload wl.id wlc) wl) := by
  unfold addParent
  split
  · exact putWorkload_stored before wl.id wlc
  next notEmpty =>
    cases parent : (before.putWorkload wl.id wlc).wlCacheMap.lookup wl.shareNetNS with
    | some cached => exact putWorkload_stored before wl.id wlc
    | none =>
      have different : wl.shareNetNS ≠ wl.id := by
        intro same
        rw [same, putWorkload_own] at parent
        cases parent
      have absent : before.wlCacheMap.lookup wl.shareNetNS = none := by
        rw [← parent]
        exact (putWorkload_others different).symm
      refine ⟨rfl, ?_, ?_⟩
      · rw [putWorkload_others different.symm, putWorkload_own]
      · intro other notOwn
        by_cases same : other = wl.shareNetNS
        · subst same
          exact .inr ⟨notEmpty, absent, putWorkload_own _ _ _⟩
        · left
          rw [putWorkload_others same, putWorkload_others notOwn]

theorem Consistent.not_member (consistent : Consistent env before) (notEmpty : id ≠ "")
    (notRunning : ∀ old, before.wlCacheMap.lookup id = some old →
      old.workload.running = false) (name : String) :
    ¬IsMember before name id := by
  intro member
  obtain ⟨old, found, running, _⟩ := (consistent.members name id notEmpty).mp member
  rw [notRunning old found] at running
  cases running

def joinsGroup (env : RegexEnv) (wlc : WorkloadCache) (name : String) (cache : GroupCache) : Bool :=
  joinsLearnedGroup wlc name cache || joinsUserGroup env wlc cache

def joinedCache (env : RegexEnv) (wlc : WorkloadCache) (name : String)
    (cache : GroupCache) : GroupCache :=
  if joinsGroup env wlc name cache then
    { cache with members := insert wlc.workload.id cache.members }
  else cache

theorem joinedCache_group (name : String) (cache : GroupCache) :
    (joinedCache env wlc name cache).group = cache.group := by
  unfold joinedCache
  split
  · rfl
  · rfl

theorem mem_joinedCache {other : String} :
    other ∈ (joinedCache env wlc name cache).members ↔ other ∈ cache.members ∨
        other = wlc.workload.id ∧ joinsGroup env wlc name cache = true := by
  unfold joinedCache
  split
  next joins =>
    simp only [Finset.mem_insert, joins, and_true]
    exact or_comm
  next joins => simp only [joins, Bool.false_eq_true, and_false, or_false]

theorem mem_joined_groups
    (named : ∀ name cache, stored.groupCacheMap.lookup name = some cache → cache.group.name = name)
    (absent : ∀ name, ¬IsMember stored name wlc.workload.id) (noGroups : wlc.groups = ∅) :
    name ∈ (groupWorkloadJoin env stored wlc).2.groups ↔
      ∃ cache, stored.groupCacheMap.lookup name = some cache ∧
        joinsGroup env wlc name cache = true := by
  have outside : ∀ (wanted : GroupCache → Bool) name cache,
      stored.groupCacheMap.lookup name = some cache →
      ((wanted cache && !decide (wlc.workload.id ∈ cache.members)) = true ↔
        wanted cache = true) := by
    intro wanted name cache found
    have notMember : wlc.workload.id ∉ cache.members :=
      fun member => absent name ⟨cache, found, member⟩
    simp [notMember]
  have user : ∀ name, name ∈ groupNames (fun cache =>
      joinsUserGroup env wlc cache &&
        !decide (wlc.workload.id ∈ cache.members)) stored.groupCacheMap ↔
      ∃ cache, stored.groupCacheMap.lookup name = some cache ∧
        joinsUserGroup env wlc cache = true := by
    intro name
    rw [mem_groupNames named]
    apply exists_congr
    intro cache
    exact and_congr_right (outside _ name cache)
  let joined := (stored.groupCacheMap.lookup wlc.learnedGroupName).any fun cache =>
    joinsLearnedGroup wlc wlc.learnedGroupName cache && !decide (wlc.workload.id ∈ cache.members)
  have learned : joined = true ↔
      ∃ cache, stored.groupCacheMap.lookup wlc.learnedGroupName = some cache ∧
        joinsLearnedGroup wlc wlc.learnedGroupName cache = true := by
    apply (Option.any_eq_true ..).trans
    apply exists_congr
    intro cache
    exact and_congr_right (outside _ _ cache)
  have first : name ∈ (if joined then insert wlc.learnedGroupName wlc.groups else wlc.groups) ↔
      ∃ cache, stored.groupCacheMap.lookup name = some cache ∧
        joinsLearnedGroup wlc name cache = true := by
    rw [noGroups]
    by_cases same : name = wlc.learnedGroupName
    · subst same
      rw [← learned]
      split
      next joins => simp [joins]
      next none => simp [none]
    · have other : ∀ cache, joinsLearnedGroup wlc name cache = false := by
        simp [joinsLearnedGroup, same]
      split
      · simp [same, other]
      · simp [other]
  simp only [groupWorkloadJoin, Finset.mem_union, joinsGroup, Bool.or_eq_true, and_or_left,
    exists_or]
  exact or_congr first (user name)

/-- What a start needs: the groups the workload joins are those whose criteria
it satisfies. -/
def JoinsBySelection (env : RegexEnv) (state : GroupState) (wlc : WorkloadCache) : Prop :=
  ∀ name cache, state.groupCacheMap.lookup name = some cache →
    joinsGroup env wlc name cache = isGroupMember env cache.group wlc.workload

theorem isMember_mapped {after : GroupState} {change : String → GroupCache → GroupCache}
    (lookup : ∀ name, after.groupCacheMap.lookup name =
      (before.groupCacheMap.lookup name).map (change name)) (name other : String) :
    IsMember after name other ↔
      ∃ cache, before.groupCacheMap.lookup name = some cache ∧
        other ∈ (change name cache).members := by
  rw [IsMember, lookup name]
  simp only [Option.map_eq_some_iff, exists_exists_and_eq_and]

theorem Stored.step {after : GroupState} {final : WorkloadCache}
    (isStored : Stored id wlc before stored) (notEmpty : id ≠ "") (groups : SameGroups before after)
    (others : ∀ other, other ≠ id →
      after.wlCacheMap.lookup other = stored.wlCacheMap.lookup other)
    (kept : ∀ name other, other ≠ id → (IsMember after name other ↔ IsMember before name other))
    (found : after.wlCacheMap.lookup id = some final) (own : OwnWorkload id final.workload)
    (mutual' : ∀ name, name ∈ final.groups ↔ IsMember after name id)
    (joined : ∀ name, IsMember after name id ↔
      final.workload.running = true ∧ IsSelected env before name final.workload) :
    WorkloadStep env id before after := by
  constructor
  · exact groups
  · intro other different
    rw [others other different]
    exact isStored.others other different
  · exact fun name other different _ => kept name other different
  · intro cached isFound
    cases found.symm.trans isFound
    exact ⟨notEmpty, own⟩
  · intro cached name isFound
    cases found.symm.trans isFound
    exact mutual' name
  · intro name _
    simp only [joined name, found, groups.isSelected, Option.some.injEq, exists_eq_left']

theorem startWorkload_step (consistent : Consistent env before)
    (isStored : Stored wlc.workload.id wlc before stored) (notEmpty : wlc.workload.id ≠ "")
    (created : wlc.workload.createdAt ≠ 0) (running : wlc.workload.running = true)
    (absent : ∀ name, ¬IsMember before name wlc.workload.id) (noGroups : wlc.groups = ∅)
    (joins : JoinsBySelection env before wlc) :
    WorkloadStep env wlc.workload.id before (startWorkload env stored wlc) := by
  have lookup : ∀ name, (startWorkload env stored wlc).groupCacheMap.lookup name =
        (before.groupCacheMap.lookup name).map (joinedCache env wlc name) := by
    intro name
    rw [← isStored.groups]
    exact Table.lookup_mapValues _
  have isMember := isMember_mapped lookup
  simp only [mem_joinedCache] at isMember
  have ownMember : ∀ name, IsMember (startWorkload env stored wlc) name wlc.workload.id ↔
        ∃ cache, before.groupCacheMap.lookup name = some cache ∧
          joinsGroup env wlc name cache = true := by
    intro name
    rw [isMember]
    constructor
    · rintro ⟨cache, found, member | ⟨_, joinsCache⟩⟩
      · exact absurd ⟨cache, found, member⟩ (absent name)
      · exact ⟨cache, found, joinsCache⟩
    · rintro ⟨cache, found, joinsCache⟩
      exact ⟨cache, found, .inr ⟨rfl, joinsCache⟩⟩
  refine isStored.step notEmpty ?_ (fun _ => putWorkload_others) ?_ (putWorkload_own _ _ _)
    (.inr ⟨rfl, created⟩) ?_ ?_
  · intro name
    rw [lookup name, Option.map_map]
    congr 1
    funext cache
    exact joinedCache_group name cache
  · intro name other different
    rw [isMember]
    simp [IsMember, different]
  · intro name
    have named : ∀ name cache, stored.groupCacheMap.lookup name = some cache →
        cache.group.name = name := by
      rw [isStored.groups]
      exact consistent.named
    have outside : ∀ name, ¬IsMember stored name wlc.workload.id := by
      intro name isMember
      rw [IsMember, isStored.groups] at isMember
      exact absent name isMember
    rw [mem_joined_groups named outside noGroups, isStored.groups, ownMember]
  · intro name
    rw [ownMember name]
    refine Iff.trans ?_ (and_iff_right running).symm
    apply exists_congr
    intro cache
    apply and_congr_right
    intro found
    rw [joins name cache found]
    exact Iff.rfl

theorem isMember_left {left : GroupState} {own : String}
    (lookup : ∀ name, left.groupCacheMap.lookup name =
      (before.groupCacheMap.lookup name).map fun cache =>
        { cache with members := cache.members.erase own })
    (name other : String) :
    IsMember left name other ↔ other ≠ own ∧ IsMember before name other := by
  rw [isMember_mapped lookup]
  simp only [Finset.mem_erase, IsMember, and_left_comm, exists_and_left]

theorem stopWorkload_step (consistent : Consistent env before)
    (isStored : Stored wlc.workload.id wlc before stored) (notEmpty : wlc.workload.id ≠ "")
    (created : wlc.workload.createdAt ≠ 0) (stopped : wlc.workload.running = false)
    (groups : ∀ name, name ∈ wlc.groups ↔ IsMember before name wlc.workload.id) :
    WorkloadStep env wlc.workload.id before (stopWorkload stored wlc) := by
  have lookup : ∀ name, (stopWorkload stored wlc).groupCacheMap.lookup name =
        (before.groupCacheMap.lookup name).map fun cache =>
          { cache with members := cache.members.erase wlc.workload.id } := by
    intro name
    rw [← isStored.groups]
    exact Table.lookup_mapValues _
  have gone : ∀ name, ¬IsMember (stopWorkload stored wlc) name wlc.workload.id := by
    intro name member
    exact ((isMember_left lookup name _).mp member).1 rfl
  refine isStored.step notEmpty ?_ (fun _ => putWorkload_others) ?_ (putWorkload_own _ _ _)
    (.inr ⟨rfl, created⟩) ?_ ?_
  · intro name
    rw [lookup name, Option.map_map]
    rfl
  · intro name other different
    rw [isMember_left lookup]
    exact and_iff_right different
  · intro name
    refine ⟨?_, fun isMember => absurd isMember (gone name)⟩
    intro isGroup
    obtain ⟨isOld, notLeft⟩ := Finset.mem_sdiff.mp isGroup
    obtain ⟨cache, cached, isMember⟩ := (groups name).mp isOld
    refine absurd ?_ notLeft
    rw [isStored.groups, mem_groupNames consistent.named]
    exact ⟨cache, cached, decide_eq_true isMember⟩
  · intro name
    refine iff_of_false (gone name) ?_
    rintro ⟨running, _⟩
    exact absurd (stopped.symm.trans running) (by decide)

theorem stored_step (isStored : Stored id wlc before stored)
    (notEmpty : id ≠ "") (own : OwnWorkload id wlc.workload)
    (groups : ∀ name, name ∈ wlc.groups ↔ IsMember before name id)
    (joined : ∀ name, IsMember before name id ↔
      wlc.workload.running = true ∧ IsSelected env before name wlc.workload) :
    WorkloadStep env id before stored := by
  have member : ∀ name other, IsMember stored name other ↔ IsMember before name other := by
    intro name other
    rw [IsMember, IsMember, isStored.groups]
  refine isStored.step notEmpty ?_ (fun _ _ => rfl) ?_ isStored.own own ?_ ?_
  · intro name
    rw [isStored.groups]
  · exact fun name other _ => member name other
  · intro name
    rw [groups name, member]
  · intro name
    rw [member, joined name]

theorem not_dummy_of_isGroupMember (selected : isGroupMember env cache.group wl = true) :
    isDummyGroupCache cache = false := by
  unfold isDummyGroupCache
  cases criteria : cache.group.criteria with
  | nil =>
    rw [isGroupMember, criteria] at selected
    cases selected
  | cons first rest => rfl

/-- What the notification of a workload needs: it has an id and a time of
creation; if the workload goes on running, the groups of the cache select it
as before; and if it starts, the group of its service selects it and no other
learned group does. -/
structure OrderlyWorkload (env : RegexEnv) (state : GroupState) (wl : ClusWorkload) : Prop where
  notEmpty : wl.id ≠ ""
  created : wl.createdAt ≠ 0
  steady : ∀ cached, state.wlCacheMap.lookup wl.id = some cached →
    cached.workload.running = true → wl.running = true →
    ∀ name, IsSelected env state name wl ↔ IsSelected env state name cached.workload
  joins : wl.running = true →
    (∀ cached, state.wlCacheMap.lookup wl.id = some cached → cached.workload.running = false) →
    ∀ name cache, state.groupCacheMap.lookup name = some cache →
      (name = serviceGroupName wl → isDummyGroupCache cache = false →
        isGroupMember env cache.group wl = true) ∧
      (cache.group.cfgType = .learned →
        isGroupMember env cache.group wl = true → name = serviceGroupName wl)

theorem OrderlyWorkload.joinsBySelection
    (orderly : OrderlyWorkload env before wl) (running : wl.running = true)
    (notRunning : ∀ cached, before.wlCacheMap.lookup wl.id = some cached →
      cached.workload.running = false) (workload : wlc.workload = wl)
    (learned : wlc.learnedGroupName = serviceGroupName wl) :
    JoinsBySelection env before wlc := by
  intro name cache found
  obtain ⟨byName, byType⟩ := orderly.joins running notRunning name cache found
  apply Bool.eq_iff_iff.mpr
  unfold joinsGroup joinsLearnedGroup joinsUserGroup
  rw [workload, learned]
  constructor
  · intro joins
    rcases Bool.or_eq_true_iff.mp joins with isLearned | isUser
    · obtain ⟨named, notDummy⟩ := Bool.and_eq_true_iff.mp isLearned
      exact byName (of_decide_eq_true named) ((Bool.not_eq_true' _).mp notDummy)
    · exact (Bool.and_eq_true_iff.mp isUser).2
  · intro selected
    apply Bool.or_eq_true_iff.mpr
    by_cases isLearned : cache.group.cfgType = .learned
    · left
      rw [not_dummy_of_isGroupMember selected, decide_eq_true (byType isLearned selected)]
      rfl
    · right
      rw [selected, decide_eq_true isLearned]
      rfl

section

variable (consistent : Consistent env before)
include consistent

theorem Consistent.no_groups (found : before.wlCacheMap.lookup id = some wlc)
    (notRunning : wlc.workload.running = false) : wlc.groups = ∅ := by
  apply Finset.eq_empty_of_forall_notMem
  intro name
  rw [consistent.groups id wlc name found, consistent.member_iff found]
  simp [notRunning]

variable {wl : ClusWorkload}

section

variable (orderly : OrderlyWorkload env before wl)
include orderly

theorem newWorkload_consistent {cached : WorkloadCache}
    (notRunning : ∀ old, before.wlCacheMap.lookup wl.id = some old →
      old.workload.running = false) (noGroups : cached.groups = ∅) :
    Consistent env (newWorkload env before cached wl) := by
  have absent := consistent.not_member orderly.notEmpty notRunning
  unfold newWorkload
  split
  next running =>
    refine WorkloadStep.consistent (startWorkload_step consistent
      (addParent_stored before _) orderly.notEmpty orderly.created running
      absent noGroups ?_) consistent
    exact orderly.joinsBySelection running notRunning rfl rfl
  next stopped =>
    refine WorkloadStep.consistent (stored_step (addParent_stored before _)
      orderly.notEmpty (.inr ⟨rfl, orderly.created⟩) ?_ ?_) consistent
    · intro name
      refine ⟨fun isGroup => ?_, fun member => absurd member (absent name)⟩
      rw [noGroups] at isGroup
      exact absurd isGroup (Finset.notMem_empty _)
    · intro name
      refine ⟨fun member => absurd member (absent name), ?_⟩
      rintro ⟨running, _⟩
      exact absurd running stopped

theorem changeWorkload_consistent {cached : WorkloadCache}
    (found : before.wlCacheMap.lookup wl.id = some cached) :
    Consistent env (changeWorkload env before cached wl) := by
  have groups := fun name => consistent.groups wl.id cached name found
  unfold changeWorkload
  by_cases started : wl.running = true ∧ cached.workload.running = false
  · rw [if_pos started, if_pos started]
    have notRunning : ∀ old, before.wlCacheMap.lookup wl.id = some old →
        old.workload.running = false := by
      intro old oldFound
      cases found.symm.trans oldFound
      exact started.2
    have noGroups : cached.groups = ∅ := consistent.no_groups found started.2
    refine WorkloadStep.consistent (startWorkload_step consistent
      (putWorkload_stored before wl.id _) orderly.notEmpty orderly.created
      started.1 (consistent.not_member orderly.notEmpty notRunning) noGroups ?_) consistent
    exact orderly.joinsBySelection started.1 notRunning rfl rfl
  · rw [if_neg started]
    split
    next stopped =>
      exact WorkloadStep.consistent (stopWorkload_step consistent
        (putWorkload_stored before wl.id _) orderly.notEmpty orderly.created
        stopped.1 groups) consistent
    next notStopped =>
      refine WorkloadStep.consistent (stored_step
        (putWorkload_stored before wl.id _) orderly.notEmpty
        (.inr ⟨rfl, orderly.created⟩) groups ?_) consistent
      intro name
      rw [consistent.member_iff found]
      cases wasRunning : cached.workload.running with
      | true =>
        have running : wl.running = true := by
          cases isRunning : wl.running with
          | true => rfl
          | false => exact absurd ⟨isRunning, wasRunning⟩ notStopped
        rw [and_iff_right rfl, and_iff_right running]
        exact (orderly.steady cached found wasRunning running name).symm
      | false =>
        have idle : ¬wl.running = true := fun running => started ⟨running, wasRunning⟩
        simp [idle]

theorem workloadUpdate_consistent : Consistent env (workloadUpdate env before wl) := by
  unfold workloadUpdate
  cases found : before.wlCacheMap.lookup wl.id with
  | none =>
    refine newWorkload_consistent consistent orderly ?_ rfl
    intro old oldFound
    cases found.symm.trans oldFound
  | some cached =>
    simp only
    split
    next dummy =>
      have notRunning : cached.workload.running = false := by
        rcases (consistent.keyed wl.id cached found).2 with
          empty | ⟨_, created⟩
        · rw [empty]
          rfl
        · exact absurd (of_decide_eq_true dummy) created
      refine newWorkload_consistent consistent orderly ?_ (consistent.no_groups found notRunning)
      intro old oldFound
      cases found.symm.trans oldFound
      exact notRunning
    · exact changeWorkload_consistent consistent orderly found

end

theorem workloadDelete_consistent (id : String) : Consistent env (workloadDelete before id) := by
  unfold workloadDelete
  cases found : before.wlCacheMap.lookup id with
  | none => exact consistent
  | some wlc =>
    let after := (groupWorkloadLeave { before with wlCacheMap := before.wlCacheMap.erase id } wlc).1
    obtain ⟨notEmpty, own⟩ := consistent.keyed id wlc found
    have lookup : ∀ name, after.groupCacheMap.lookup name =
        (before.groupCacheMap.lookup name).map fun cache =>
          { cache with members := cache.members.erase wlc.workload.id } :=
      fun _ => Table.lookup_mapValues _
    have ownLookup : after.wlCacheMap.lookup id = none := AList.lookup_erase id _
    have isMember := isMember_left lookup
    have gone : ∀ name, ¬IsMember after name id := by
      intro name member
      obtain ⟨different, isOld⟩ := (isMember name id).mp member
      rcases own with empty | ⟨same, _⟩
      · rw [consistent.member_iff found, empty] at isOld
        cases isOld.1
      · exact different same.symm
    have step : WorkloadStep env id before after := by
      constructor
      · intro name
        rw [lookup name, Option.map_map]
        rfl
      · intro other different
        exact .inl (AList.lookup_erase_ne different)
      · intro name other different otherNotEmpty
        rw [isMember]
        refine ⟨fun both => both.2, fun member => ⟨?_, member⟩⟩
        rcases own with empty | ⟨rfl, _⟩
        · rw [empty]
          exact otherNotEmpty
        · exact different
      · intro other otherFound
        cases ownLookup.symm.trans otherFound
      · intro other name otherFound
        cases ownLookup.symm.trans otherFound
      · intro name _
        refine ⟨fun member => absurd member (gone name), ?_⟩
        rintro ⟨other, otherFound, _⟩
        cases ownLookup.symm.trans otherFound
    exact step.consistent consistent

end

end Workloads

end NeuVector.Controller
