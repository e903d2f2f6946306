import NeuVector.Controller.Groups

/-!
# The two sides of membership

The membership of a workload in a group is stored with the workload and with
the group.  Both sides should be the same for every running workload, and be
what the criteria of the group say.  The invariant of the caches is kept by
every step that changes one workload, or one group, if the two sides of what
it changes agree.
-/

namespace NeuVector.Controller

open Library Share

variable {env : RegexEnv}

def IsMember (state : GroupState) (name id : String) : Prop :=
  ∃ cache, state.groupCacheMap.lookup name = some cache ∧ id ∈ cache.members

def IsSelected (env : RegexEnv) (state : GroupState) (name : String)
    (workload : ClusWorkload) : Prop :=
  ∃ cache, state.groupCacheMap.lookup name = some cache ∧
    isGroupMember env cache.group workload = true

/-- For every running workload both sides agree, with each other and with the
criteria. -/
def MutualMembership (env : RegexEnv) (state : GroupState) : Prop :=
  ∀ id wlc, state.wlCacheMap.lookup id = some wlc → wlc.workload.running = true → ∀ name,
      (name ∈ wlc.groups ↔ IsMember state name id) ∧
        (IsMember state name id ↔ IsSelected env state name wlc.workload)

/-- A cache has the workload with its id, or none yet. -/
def OwnWorkload (id : String) (workload : ClusWorkload) : Prop :=
  workload = emptyWorkload ∨ workload.id = id ∧ workload.createdAt ≠ 0

theorem OwnWorkload.running {id : String} {workload : ClusWorkload}
    (own : OwnWorkload id workload) (running : workload.running = true) :
    workload.id = id ∧ workload.createdAt ≠ 0 := by
  rcases own with rfl | known
  · cases running
  · exact known

/-- The member of a group with an empty id stands for all hosts. -/
structure Consistent (env : RegexEnv) (state : GroupState) : Prop where
  keyed : ∀ id wlc, state.wlCacheMap.lookup id = some wlc → id ≠ "" ∧ OwnWorkload id wlc.workload
  named : ∀ name cache, state.groupCacheMap.lookup name = some cache → cache.group.name = name
  members : ∀ name id, id ≠ "" → (IsMember state name id ↔
      ∃ wlc, state.wlCacheMap.lookup id = some wlc ∧ wlc.workload.running = true ∧
        IsSelected env state name wlc.workload)
  groups : ∀ id wlc name, state.wlCacheMap.lookup id = some wlc →
    (name ∈ wlc.groups ↔ IsMember state name id)

variable {state : GroupState}

theorem Consistent.member_iff (consistent : Consistent env state) {id name : String}
    {wlc : WorkloadCache} (found : state.wlCacheMap.lookup id = some wlc) :
    IsMember state name id ↔
      wlc.workload.running = true ∧ IsSelected env state name wlc.workload := by
  rw [consistent.members name id (consistent.keyed id wlc found).1]
  simp only [found, Option.some.injEq, exists_eq_left']

theorem Consistent.agrees (consistent : Consistent env state) : MutualMembership env state := by
  intro id wlc found running name
  refine ⟨consistent.groups id wlc name found, ?_⟩
  rw [consistent.member_iff found]
  exact and_iff_right running

theorem Consistent.start (policyApplyIngress : Bool) (ctrlerDomain : String) :
    Consistent env (.start policyApplyIngress ctrlerDomain) := by
  constructor
  · intro id wlc found
    cases found
  · intro name cache found
    cases found
  · intro name id _
    constructor
    · rintro ⟨cache, found, _⟩
      cases found
    · rintro ⟨wlc, found, _⟩
      cases found
  · intro id wlc name found
    cases found

variable {cache : GroupCache} {wlc : WorkloadCache}

section Steps

variable {before after : GroupState} {id name : String}

def SameGroups (before after : GroupState) : Prop :=
  ∀ name, (after.groupCacheMap.lookup name).map GroupCache.group =
    (before.groupCacheMap.lookup name).map GroupCache.group

theorem exists_of_map_eq {α β : Type} {view : α → β} {found other : Option α} {value : α}
    (same : found.map view = other.map view) (isFound : found = some value) :
    ∃ old, other = some old ∧ view old = view value := by
  rw [isFound] at same
  exact Option.map_eq_some_iff.mp same.symm

theorem cached_congr {β : Type} {view : GroupCache → β} {found other : Option GroupCache}
    (same : found.map view = other.map view) (holds : β → Prop) :
    (∃ cache, found = some cache ∧ holds (view cache)) ↔
      ∃ cache, other = some cache ∧ holds (view cache) := by
  have mapped : ∀ found : Option GroupCache, (∃ cache, found = some cache ∧ holds (view cache)) ↔
      ∃ value, found.map view = some value ∧ holds value := by
    simp [Option.map_eq_some_iff]
  rw [mapped, mapped, same]

theorem SameGroups.isSelected (same : SameGroups before after) (workload : ClusWorkload) :
    IsSelected env after name workload ↔ IsSelected env before name workload :=
  cached_congr (same name) fun group => isGroupMember env group workload = true

theorem SameGroups.named (same : SameGroups before after)
    (named : ∀ name cache, before.groupCacheMap.lookup name = some cache → cache.group.name = name)
    (found : after.groupCacheMap.lookup name = some cache) :
    cache.group.name = name := by
  obtain ⟨old, oldFound, group⟩ := exists_of_map_eq (same name) found
  rw [← group]
  exact named name old oldFound

/-- One workload changes, and empty caches may be added. -/
structure WorkloadStep (env : RegexEnv) (id : String) (before after : GroupState) : Prop where
  groups : SameGroups before after
  others : ∀ other, other ≠ id → after.wlCacheMap.lookup other = before.wlCacheMap.lookup other ∨
      other ≠ "" ∧ before.wlCacheMap.lookup other = none ∧
        after.wlCacheMap.lookup other = some initWorkloadCache
  kept : ∀ name other, other ≠ id → other ≠ "" →
    (IsMember after name other ↔ IsMember before name other)
  keyed : ∀ wlc, after.wlCacheMap.lookup id = some wlc → id ≠ "" ∧ OwnWorkload id wlc.workload
  own : ∀ wlc name, after.wlCacheMap.lookup id = some wlc →
    (name ∈ wlc.groups ↔ IsMember after name id)
  joined : ∀ name, id ≠ "" → (IsMember after name id ↔
      ∃ wlc, after.wlCacheMap.lookup id = some wlc ∧ wlc.workload.running = true ∧
        IsSelected env after name wlc.workload)

theorem WorkloadStep.consistent (step : WorkloadStep env id before after)
    (consistent : Consistent env before) : Consistent env after := by
  constructor
  · intro other wlc found
    by_cases same : other = id
    · subst same
      exact step.keyed wlc found
    · rcases step.others other same with kept | ⟨notEmpty, _, added⟩
      · exact consistent.keyed other wlc (kept.symm.trans found)
      · cases added.symm.trans found
        exact ⟨notEmpty, .inl rfl⟩
  · intro name cache found
    exact step.groups.named consistent.named found
  · intro name other notEmpty
    by_cases same : other = id
    · subst same
      exact step.joined name notEmpty
    · rw [step.kept name other same notEmpty, consistent.members name other notEmpty]
      rcases step.others other same with kept | ⟨_, absent, added⟩
      · simp only [kept, step.groups.isSelected]
      · rw [absent, added]
        constructor
        · rintro ⟨wlc, found, _⟩
          cases found
        · rintro ⟨wlc, found, running, _⟩
          cases found
          cases running
  · intro other wlc name found
    by_cases same : other = id
    · subst same
      exact step.own wlc name found
    · rcases step.others other same with kept | ⟨notEmpty, absent, added⟩
      · have oldFound := kept.symm.trans found
        rw [step.kept name other same (consistent.keyed other wlc oldFound).1]
        exact consistent.groups other wlc name oldFound
      · cases added.symm.trans found
        rw [step.kept name other same notEmpty]
        refine ⟨fun member => absurd member (Finset.notMem_empty _), ?_⟩
        intro member
        obtain ⟨old, oldFound, _⟩ := (consistent.members name other notEmpty).mp member
        cases absent.symm.trans oldFound

def GroupCache.roster (cache : GroupCache) : Group × Finset String := (cache.group, cache.members)

structure GroupStep (env : RegexEnv) (name : String) (before after : GroupState) : Prop where
  workloads : ∀ id, (after.wlCacheMap.lookup id).map WorkloadCache.workload =
      (before.wlCacheMap.lookup id).map WorkloadCache.workload
  others : ∀ other, other ≠ name → (after.groupCacheMap.lookup other).map GroupCache.roster =
      (before.groupCacheMap.lookup other).map GroupCache.roster
  kept : ∀ id wlc old other, after.wlCacheMap.lookup id = some wlc →
    before.wlCacheMap.lookup id = some old → other ≠ name →
    (other ∈ wlc.groups ↔ other ∈ old.groups)
  named : ∀ cache, after.groupCacheMap.lookup name = some cache → cache.group.name = name
  own : ∀ id wlc, after.wlCacheMap.lookup id = some wlc →
    (name ∈ wlc.groups ↔ IsMember after name id)
  joined : ∀ id, id ≠ "" → (IsMember after name id ↔
      ∃ wlc, after.wlCacheMap.lookup id = some wlc ∧ wlc.workload.running = true ∧
        IsSelected env after name wlc.workload)

section

variable (step : GroupStep env name before after)
include step

theorem GroupStep.old (found : after.wlCacheMap.lookup id = some wlc) :
    ∃ old, before.wlCacheMap.lookup id = some old ∧ old.workload = wlc.workload :=
  exists_of_map_eq (step.workloads id) found

theorem GroupStep.new {old : WorkloadCache} (found : before.wlCacheMap.lookup id = some old) :
    ∃ wlc, after.wlCacheMap.lookup id = some wlc ∧ wlc.workload = old.workload :=
  exists_of_map_eq (step.workloads id).symm found

theorem GroupStep.consistent (consistent : Consistent env before) : Consistent env after := by
  have member : ∀ other id, other ≠ name →
      (IsMember after other id ↔ IsMember before other id) :=
    fun other id different => cached_congr (step.others other different) fun roster => id ∈ roster.2
  have selected : ∀ other workload, other ≠ name →
      (IsSelected env after other workload ↔ IsSelected env before other workload) :=
    fun other workload different => cached_congr (step.others other different)
      fun roster => isGroupMember env roster.1 workload = true
  constructor
  · intro id wlc found
    obtain ⟨old, oldFound, workload⟩ := step.old found
    rw [← workload]
    exact consistent.keyed id old oldFound
  · intro other cache found
    by_cases same : other = name
    · subst same
      exact step.named cache found
    · obtain ⟨old, oldFound, roster⟩ := exists_of_map_eq (step.others other same) found
      have group : old.group = cache.group := congrArg Prod.fst roster
      rw [← group]
      exact consistent.named other old oldFound
  · intro other id notEmpty
    by_cases same : other = name
    · subst same
      exact step.joined id notEmpty
    · rw [member other id same, consistent.members other id notEmpty]
      constructor
      · rintro ⟨old, oldFound, running, isSelected⟩
        obtain ⟨wlc, found, workload⟩ := step.new oldFound
        rw [← workload] at running isSelected
        exact ⟨wlc, found, running, (selected other _ same).mpr isSelected⟩
      · rintro ⟨wlc, found, running, isSelected⟩
        obtain ⟨old, oldFound, workload⟩ := step.old found
        rw [← workload] at running isSelected
        exact ⟨old, oldFound, running, (selected other _ same).mp isSelected⟩
  · intro id wlc other found
    by_cases same : other = name
    · subst same
      exact step.own id wlc found
    · obtain ⟨old, oldFound, _⟩ := step.old found
      rw [member other id same, step.kept id wlc old other found oldFound same]
      exact consistent.groups id old other oldFound

end

end Steps

end NeuVector.Controller
