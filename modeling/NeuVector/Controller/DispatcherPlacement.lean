import NeuVector.Controller.DispatcherSteps

/-!
# Profiles reach the nodes that need them

The workloads that are present on the nodes and their membership in custom
groups, as they change with the events, against the tables of a dispatcher
that is leader throughout.
-/

namespace NeuVector.Controller

/-- What the cluster runs: workloads by node and service group, the members of
the custom groups, and the custom groups that exist. -/
structure Workloads where
  present : Finset (String × String × String)
  member : String → Finset String
  live : Finset String

def noWorkloads : Workloads := { present := ∅, member := fun _ => ∅, live := ∅ }

/-- A change of the cluster together with what the dispatcher is told. -/
inductive Happening where
  | join (node group id : String) (customGrps : List String)
  | leave (node group id : String) (customGrps : List String) (any : String → String → String)
  | nodeLeft (node : String)
  | customUpdated (custom : String) (members : Finset String) (serviceGrps : List String)
  | customDeleted (custom : String)

variable (world : Workloads)

def Workloads.Runs (id : String) : Prop := ∃ place ∈ world.present, place.2.2 = id

instance (world : Workloads) (id : String) : Decidable (world.Runs id) :=
  inferInstanceAs (Decidable (∃ place ∈ world.present, place.2.2 = id))

/-- A workload that is new has the custom groups that it is announced with. -/
def Workloads.step : Happening → Workloads
  | .join node group id customGrps =>
    { world with
      present := insert (node, group, id) world.present
      member := fun custom =>
        if world.Runs id then world.member custom
        else if custom ∈ customGrps then insert id (world.member custom)
        else (world.member custom).erase id }
  | .leave node group id _ _ => { world with present := world.present.erase (node, group, id) }
  | .nodeLeft node =>
    { world with present := world.present.filter fun place => place.1 ≠ node }
  | .customUpdated custom members _ =>
    { world with
      member := fun other =>
        if other = custom then members else world.member other
      live := insert custom world.live }
  | .customDeleted custom => { world with live := world.live.erase custom }

def Happening.event : Happening → DispatchEvent
  | .join node group id customGrps => .workloadJoin node group id customGrps
  | .leave node group id customGrps any =>
    .workloadLeave node group id customGrps
      { any := any, matchedGrpFunc := fun custom id => decide (id ∈ world.member custom) }
  | .nodeLeft node => .nodeLeave node
  | .customUpdated custom _ serviceGrps => .customGroupUpdate custom serviceGrps
  | .customDeleted custom => .customGroupDelete custom

/-- The dispatcher is told what happens: a workload comes with the custom
groups it is a member of, a custom group with the service groups of all its
workloads, and a probed workload is one of the group. -/
def Happening.Told (isService : String → Bool) (world : Workloads) : Happening → Prop
  | .join _ group id customGrps =>
    isService group = true ∧ (∀ custom ∈ customGrps, isService custom = false) ∧
      (world.Runs id → ∀ custom ∈ world.live, id ∈ world.member custom → custom ∈ customGrps)
  | .leave node group id customGrps any =>
    isService group = true ∧ (∀ custom ∈ customGrps, isService custom = false) ∧
      ∀ custom other rest, (node, other, rest) ∈ world.present.erase (node, group, id) →
        (node, other, any custom other) ∈ world.present.erase (node, group, id)
  | .nodeLeft _ => True
  | .customUpdated custom members serviceGrps =>
    isService custom = false ∧
      ∀ node group id, (node, group, id) ∈ world.present → id ∈ members → group ∈ serviceGrps
  | .customDeleted custom => isService custom = false

/-- When the last workload of a service group leaves a node, each of its
custom groups that has another workload on the node is found by a probe. -/
def Happening.ProbeFinds : Happening → Prop
  | .leave node group id customGrps any =>
    (∀ other, (node, group, other) ∈ world.present ↔ other = id) →
    ∀ custom ∈ customGrps, custom ∈ world.live →
    ∀ other rest, (node, other, rest) ∈ world.present.erase (node, group, id) →
      rest ∈ world.member custom →
      ∃ probed ∈ world.present.erase (node, group, id),
        probed.1 = node ∧ any custom probed.2.1 ∈ world.member custom
  | _ => True

/-- The tables of service groups are those of the workloads. -/
structure Placed (isService : String → Bool) (world : Workloads) (dpt : KvDispatcher) : Prop where
  ids : ∀ node group id, (node, group, id) ∈ world.present ↔ id ∈ idsOf dpt node group
  tidy : dpt.Tidy
  service : ∀ group node, isService group = true →
    (node ∈ nodesOf dpt group ↔ ∃ id, (node, group, id) ∈ world.present)
  kinds : ∀ node group id, (node, group, id) ∈ world.present → isService group = true
  live : ∀ custom ∈ world.live, isService custom = false

def CustomsCovered (dpt : KvDispatcher) : Prop :=
  ∀ custom ∈ world.live, ∀ node group id,
    (node, group, id) ∈ world.present → id ∈ world.member custom →
    node ∈ nodesOf dpt custom

variable {isService : String → Bool} {world : Workloads} {dpt : KvDispatcher}
  {node group id : String} {customGrps : List String}

theorem Placed.start (isService : String → Bool) : Placed isService noWorkloads initDispatcher where
  ids := by
    intro node group id
    exact iff_of_false (Finset.notMem_empty _) (Finset.notMem_empty _)
  tidy := by
    intro node cache group ids isCache
    cases isCache
  service := by
    intro group node _
    refine iff_of_false (Finset.notMem_empty _) ?_
    rintro ⟨id, member⟩
    exact absurd member (Finset.notMem_empty _)
  kinds := by
    intro node group id member
    exact absurd member (Finset.notMem_empty _)
  live := by
    intro custom member
    exact absurd member (Finset.notMem_empty _)

theorem join_ids (n g : String) :
    idsOf (workloadJoin dpt node group id customGrps true).1 n g =
      if n = node ∧ g = group then insert id (idsOf dpt n g)
      else idsOf dpt n g := by
  rw [workloadJoin_eq, if_pos rfl, ← joinedService_ids]
  unfold buildCustomGroups idsOf
  rw [buildCustomGroups_node2groups]

theorem join_nodes (n g : String) :
    n ∈ nodesOf (workloadJoin dpt node group id customGrps true).1 g ↔
      n ∈ nodesOf dpt g ∨ n = node ∧ (g = group ∨ g ∈ customGrps) := by
  rw [workloadJoin_eq, if_pos rfl]
  unfold buildCustomGroups
  rw [buildCustomGroups_nodes, joinedService_nodes]
  by_cases same : g = group
  · simp [same, or_comm]
  · by_cases passed : g ∈ customGrps
    · simp [passed, same, or_comm]
    · simp [passed, same]

theorem join_tidy (tidy : dpt.Tidy) : (workloadJoin dpt node group id customGrps true).1.Tidy := by
  rw [workloadJoin_eq, if_pos rfl]
  have joined : (joinedService dpt node group id).Tidy := joinedService_tidy tidy
  unfold KvDispatcher.Tidy buildCustomGroups
  rw [buildCustomGroups_node2groups]
  exact joined

theorem Placed.join (placed : Placed isService world dpt)
    (told : (Happening.join node group id customGrps).Told isService world) :
    Placed isService (world.step (.join node group id customGrps))
      (workloadJoin dpt node group id customGrps true).1 where
  ids := by
    intro n g other
    rw [join_ids]
    refine Finset.mem_insert.trans ?_
    by_cases here : n = node ∧ g = group
    · rw [if_pos here, Finset.mem_insert, ← placed.ids]
      simp [here.1, here.2]
    · rw [if_neg here, ← placed.ids]
      constructor
      · rintro (same | member)
        · exact absurd ⟨congrArg Prod.fst same, congrArg (fun place => place.2.1) same⟩ here
        · exact member
      · exact Or.inr
  tidy := join_tidy placed.tidy
  service := by
    intro g n isOne
    rw [join_nodes, placed.service g n isOne]
    constructor
    · rintro (⟨other, member⟩ | ⟨sameNode, sameGroup | passed⟩)
      · exact ⟨other, Finset.mem_insert_of_mem member⟩
      · subst sameNode sameGroup
        exact ⟨id, Finset.mem_insert_self _ _⟩
      · rw [told.2.1 g passed] at isOne
        cases isOne
    · rintro ⟨other, member⟩
      rcases Finset.mem_insert.mp member with same | before
      · exact Or.inr ⟨congrArg Prod.fst same, Or.inl (congrArg (fun place => place.2.1) same)⟩
      · exact Or.inl ⟨other, before⟩
  kinds := by
    intro n g other member
    rcases Finset.mem_insert.mp member with same | before
    · have isGroup : g = group := congrArg (fun place => place.2.1) same
      rw [isGroup]
      exact told.1
    · exact placed.kinds n g other before
  live := placed.live

theorem CustomsCovered.join (covered : CustomsCovered world dpt)
    (told : (Happening.join node group id customGrps).Told isService world) :
    CustomsCovered (world.step (.join node group id customGrps))
      (workloadJoin dpt node group id customGrps true).1 := by
  intro custom isLive n g other member isMember
  rw [join_nodes]
  have memberCases : other ∈ (if world.Runs id then world.member custom
      else if custom ∈ customGrps then insert id (world.member custom)
      else (world.member custom).erase id) := isMember
  rcases Finset.mem_insert.mp member with same | before
  · have isOther : other = id := congrArg (fun place => place.2.2) same
    have isNode : n = node := congrArg Prod.fst same
    subst isOther
    refine Or.inr ⟨isNode, Or.inr ?_⟩
    split at memberCases
    next runs => exact told.2.2 runs custom isLive memberCases
    · split at memberCases
      next passed => exact passed
      · exact absurd rfl (Finset.mem_erase.mp memberCases).1
  · left
    apply covered custom isLive n g other before
    split at memberCases
    · exact memberCases
    next new =>
      have different : other ≠ id := by
        rintro rfl
        exact new ⟨_, before, rfl⟩
      split at memberCases
      · exact Finset.mem_of_mem_insert_of_ne memberCases different
      · exact Finset.mem_of_mem_erase memberCases

theorem Placed.known (placed : Placed isService world dpt) (isOne : isService group = true)
    (nonempty : (idsOf dpt node group).Nonempty) :
    node ∈ nodesOf dpt group := by
  obtain ⟨id, member⟩ := nonempty
  exact (placed.service group node isOne).mpr ⟨id, (placed.ids node group id).mpr member⟩

theorem Placed.last_iff (placed : Placed isService world dpt) :
    LastOnNode dpt node group id ↔ ∀ other, (node, group, other) ∈ world.present ↔ other = id := by
  unfold LastOnNode
  rw [Finset.ext_iff]
  constructor
  · intro same other
    rw [placed.ids, same, Finset.mem_singleton]
  · intro same other
    rw [← placed.ids, same, Finset.mem_singleton]

variable {probe : PurgeProbe}

theorem workloadLeave_spec {left : KvDispatcher × Bool}
    (isLeft : left = refreshServiceGroup2Nodes dpt group node id true) (bLeader : Bool) :
    (workloadLeave dpt node group id customGrps probe bLeader).1 =
      if left.2 then (purgeCustomGroupsByNodeGroups left.1 node customGrps probe).1
      else left.1 := by
  subst isLeft
  unfold workloadLeave
  simp only
  split
  · rfl
  · rfl

theorem leave_node2groups (bLeader : Bool) :
    (workloadLeave dpt node group id customGrps probe bLeader).1.node2groups =
      (refreshServiceGroup2Nodes dpt group node id true).1.node2groups := by
  rw [workloadLeave_spec rfl]
  split
  · exact purgeCustomGroups_node2groups _ _
  · rfl

theorem leave_nodes (bLeader : Bool) (g : String) :
    let left := refreshServiceGroup2Nodes dpt group node id true
    let after := nodesOf (workloadLeave dpt node group id customGrps probe bLeader).1 g
    after = nodesOf left.1 g ∨ left.2 = true ∧
      g ∈ (purgeCustomGroupsByNodeGroups left.1 node customGrps probe).2 ∧
      after = (nodesOf left.1 g).erase node := by
  rw [workloadLeave_spec rfl]
  split
  case isTrue flagged =>
    rw [purgeCustomGroups_nodes]
    split
    case isTrue expired => exact Or.inr ⟨flagged, expired, rfl⟩
    case isFalse => exact Or.inl rfl
  case isFalse => exact Or.inl rfl

theorem erase_place {n g other : String} :
    (n, g, other) ∈ world.present.erase (node, group, id) ↔ (n, g, other) ∈ world.present ∧
        ¬ (n = node ∧ g = group ∧ other = id) := by
  rw [Finset.mem_erase, and_comm]
  simp only [ne_eq, Prod.mk.injEq]

variable {any : String → String → String}

def probeOf (world : Workloads) (any : String → String → String) : PurgeProbe :=
  { any := any, matchedGrpFunc := fun custom id => decide (id ∈ world.member custom) }

theorem Placed.leave (placed : Placed isService world dpt)
    (told : (Happening.leave node group id customGrps any).Told isService world) :
    Placed isService (world.step (.leave node group id customGrps any))
      (workloadLeave dpt node group id customGrps (probeOf world any) true).1 := by
  have left := @refreshServiceGroup2Nodes_left dpt node group id placed.tidy (placed.known told.1)
  have ids : ∀ n g, idsOf (workloadLeave dpt node group id customGrps
      (probeOf world any) true).1 n g =
        if n = node ∧ g = group then (idsOf dpt n g).erase id
        else idsOf dpt n g := by
    intro n g
    rw [← left.ids]
    unfold idsOf
    rw [leave_node2groups]
  have present : ∀ n g other, (n, g, other) ∈ world.present.erase (node, group, id) ↔
        other ∈ idsOf (workloadLeave dpt node group id customGrps
          (probeOf world any) true).1 n g := by
    intro n g other
    rw [ids, erase_place, placed.ids]
    by_cases here : n = node ∧ g = group
    · simp [here.1, here.2, and_comm]
    · rw [if_neg here]
      constructor
      · exact fun both => both.1
      · exact fun member => ⟨member, fun same => here ⟨same.1, same.2.1⟩⟩
  constructor
  · exact present
  · have tidy := left.tidy placed.tidy
    unfold KvDispatcher.Tidy
    rw [leave_node2groups]
    exact tidy
  · intro g n isOne
    have unpurged : nodesOf (workloadLeave dpt node group id customGrps
        (probeOf world any) true).1 g =
          nodesOf (refreshServiceGroup2Nodes dpt group node id true).1 g := by
      rcases leave_nodes true g with same | ⟨_, expired, _⟩
      · exact same
      · rw [told.2.1 g (purgeCustomGroups_expired expired).1] at isOne
        cases isOne
    have before : n ∈ nodesOf dpt g ↔ (idsOf dpt n g).Nonempty :=
      (placed.service g n isOne).trans (exists_congr fun other => placed.ids n g other)
    refine Iff.trans ?_ (exists_congr fun other => present n g other).symm
    change _ ↔ Finset.Nonempty _
    rw [unpurged, left.nodes, ids]
    by_cases here : n = node ∧ g = group
    · obtain ⟨rfl, rfl⟩ := here
      rw [if_pos (show n = n ∧ g = g from ⟨rfl, rfl⟩), Finset.nonempty_iff_ne_empty, ne_eq,
        Finset.erase_eq_empty_iff]
      by_cases last : LastOnNode dpt n g id
      · rw [if_pos ⟨left.last.mpr last, rfl⟩]
        simp [show idsOf dpt n g = {id} from last]
      · rw [if_neg fun gone => last (left.last.mp gone.1), before, Finset.nonempty_iff_ne_empty]
        simp [show ¬ idsOf dpt n g = {id} from last]
    · rw [if_neg here, ← before]
      split
      next gone =>
        rw [Finset.mem_erase]
        exact and_iff_right fun same => here ⟨same, gone.2⟩
      · exact Iff.rfl
  · intro n g other member
    exact placed.kinds n g other (erase_place.mp member).1
  · exact placed.live

theorem CustomsCovered.leave (covered : CustomsCovered world dpt)
    (placed : Placed isService world dpt)
    (told : (Happening.leave node group id customGrps any).Told isService world)
    (finds : (Happening.leave node group id customGrps any).ProbeFinds world) :
    CustomsCovered (world.step (.leave node group id customGrps any))
      (workloadLeave dpt node group id customGrps (probeOf world any) true).1 := by
  have left := @refreshServiceGroup2Nodes_left dpt node group id placed.tidy (placed.known told.1)
  intro custom isLive n g other member isMember
  obtain ⟨before, notSame⟩ := erase_place.mp member
  have there := covered custom isLive n g other before isMember
  have notService : custom ≠ group := by
    rintro rfl
    have isCustom := placed.live custom isLive
    rw [told.1] at isCustom
    cases isCustom
  have kept : n ∈ nodesOf (refreshServiceGroup2Nodes dpt group node id true).1 custom := by
    rw [left.nodes, if_neg fun both => notService both.2]
    exact there
  rcases leave_nodes true custom with same | ⟨flagged, expired, erased⟩
  · rw [same]
    exact kept
  · rw [erased]
    refine Finset.mem_erase.mpr ⟨?_, kept⟩
    rintro rfl
    obtain ⟨passed, unmatched⟩ := purgeCustomGroups_expired expired
    have last := placed.last_iff.mp (left.last.mp flagged)
    obtain ⟨⟨m, h, i⟩, probedIn, sameNode, matched⟩ :=
      finds last custom passed isLive g other member isMember
    have isNode : m = n := sameNode
    subst isNode
    have picked := told.2.2 custom h i probedIn
    have nonempty : (idsOf (refreshServiceGroup2Nodes dpt group m id true).1 m h).Nonempty := by
      obtain ⟨pickedIn, pickedOther⟩ := erase_place.mp picked
      have isIn := (placed.ids m h (any custom h)).mp pickedIn
      refine ⟨any custom h, ?_⟩
      rw [left.ids]
      split
      next here =>
        exact Finset.mem_erase.mpr ⟨fun sameId => pickedOther ⟨rfl, here.2, sameId⟩, isIn⟩
      · exact isIn
    have missed := unmatched h nonempty
    exact absurd (decide_eq_true matched) (Bool.eq_false_iff.mp missed)

theorem Placed.nodeLeft (placed : Placed isService world dpt) :
    Placed isService (world.step (.nodeLeft node)) (nodeLeave dpt node true).1 := by
  have present : ∀ n g other, (n, g, other) ∈ (world.step (.nodeLeft node)).present ↔
        (n, g, other) ∈ world.present ∧ n ≠ node := by
    intro n g other
    exact Finset.mem_filter
  constructor
  · intro n g other
    rw [present, nodeLeave_ids, placed.ids]
    by_cases same : n = node
    · simp [same]
    · simp [same]
  · exact nodeLeave_tidy true placed.tidy
  · intro g n isOne
    rw [nodeLeave_nodes, Finset.mem_erase, placed.service g n isOne]
    constructor
    · rintro ⟨different, other, member⟩
      exact ⟨other, (present n g other).mpr ⟨member, different⟩⟩
    · rintro ⟨other, member⟩
      obtain ⟨before, different⟩ := (present n g other).mp member
      exact ⟨different, other, before⟩
  · intro n g other member
    exact placed.kinds n g other ((present n g other).mp member).1
  · exact placed.live

theorem CustomsCovered.nodeLeft (covered : CustomsCovered world dpt) :
    CustomsCovered (world.step (.nodeLeft node)) (nodeLeave dpt node true).1 := by
  intro custom isLive n g other member isMember
  obtain ⟨before, different⟩ := Finset.mem_filter.mp member
  rw [nodeLeave_nodes]
  exact Finset.mem_erase.mpr ⟨different, covered custom isLive n g other before isMember⟩

section Customs

variable {custom : String} {members : Finset String} {serviceGrps : List String}

theorem Placed.customUpdated (placed : Placed isService world dpt)
    (told : (Happening.customUpdated custom members serviceGrps).Told isService world) :
    Placed isService (world.step (.customUpdated custom members serviceGrps))
      (customGroupUpdate dpt custom serviceGrps true).1 where
  __ := placed
  service := by
    intro g n isOne
    have different : g ≠ custom := by
      rintro rfl
      rw [told.1] at isOne
      cases isOne
    rw [customGroupUpdate_nodes, if_neg different]
    exact placed.service g n isOne
  live := by
    intro other member
    rcases Finset.mem_insert.mp member with rfl | before
    · exact told.1
    · exact placed.live other before

theorem CustomsCovered.customUpdated (covered : CustomsCovered world dpt)
    (placed : Placed isService world dpt)
    (told : (Happening.customUpdated custom members serviceGrps).Told isService world) :
    CustomsCovered (world.step (.customUpdated custom members serviceGrps))
      (customGroupUpdate dpt custom serviceGrps true).1 := by
  intro other isLive n g id member isMember
  have memberCases : id ∈ (if other = custom then members
      else world.member other) := isMember
  rw [customGroupUpdate_nodes]
  split
  case isTrue same =>
    rw [if_pos same] at memberCases
    refine ⟨g, told.2 n g id member memberCases, ?_⟩
    exact (placed.service g n (placed.kinds n g id member)).mpr ⟨id, member⟩
  case isFalse different =>
    rw [if_neg different] at memberCases
    rcases Finset.mem_insert.mp isLive with same | before
    · exact absurd same different
    · exact covered other before n g id member memberCases

theorem Placed.customDeleted (placed : Placed isService world dpt)
    (told : (Happening.customDeleted custom).Told isService world) :
    Placed isService (world.step (.customDeleted custom))
      (customGroupDelete dpt custom true).1 where
  ids := by
    intro n g other
    unfold idsOf
    rw [customGroupDelete_node2groups]
    exact placed.ids n g other
  tidy := by
    unfold KvDispatcher.Tidy
    rw [customGroupDelete_node2groups]
    exact placed.tidy
  service := by
    intro g n isOne
    have different : g ≠ custom := by
      rintro rfl
      rw [show isService g = false from told] at isOne
      cases isOne
    rw [customGroupDelete_nodes true different]
    exact placed.service g n isOne
  kinds := placed.kinds
  live := fun other member => placed.live other (Finset.mem_of_mem_erase member)

theorem CustomsCovered.customDeleted (covered : CustomsCovered world dpt) :
    CustomsCovered (world.step (.customDeleted custom)) (customGroupDelete dpt custom true).1 := by
  intro other isLive n g id member isMember
  obtain ⟨different, before⟩ := Finset.mem_erase.mp isLive
  rw [customGroupDelete_nodes true different]
  exact covered other before n g id member isMember

end Customs

/-- The states of a dispatcher that is leader throughout, after happenings
that are all as allowed. -/
inductive Reached (allowed : Workloads → Happening → Prop) : Workloads → KvDispatcher → Prop where
  | start : Reached allowed noWorkloads initDispatcher
  | step {world : Workloads} {dpt : KvDispatcher} {happening : Happening} :
      Reached allowed world dpt → allowed world happening →
      Reached allowed (world.step happening) (dispatch dpt true (happening.event world)).1

variable {allowed : Workloads → Happening → Prop}

theorem Reached.imp {other : Workloads → Happening → Prop} (reached : Reached allowed world dpt)
    (wider : ∀ world happening, allowed world happening →
      other world happening) : Reached other world dpt := by
  induction reached with
  | start => exact .start
  | step _ isAllowed induction => exact induction.step (wider _ _ isAllowed)

variable {happening : Happening}

theorem Placed.step (placed : Placed isService world dpt) (told : happening.Told isService world) :
    Placed isService (world.step happening) (dispatch dpt true (happening.event world)).1 := by
  cases happening with
  | join node group id customGrps => exact placed.join told
  | leave node group id customGrps any => exact placed.leave told
  | nodeLeft node => exact placed.nodeLeft
  | customUpdated custom members serviceGrps => exact placed.customUpdated told
  | customDeleted custom => exact placed.customDeleted told

theorem CustomsCovered.step (covered : CustomsCovered world dpt)
    (placed : Placed isService world dpt) (told : happening.Told isService world)
    (finds : happening.ProbeFinds world) :
    CustomsCovered (world.step happening) (dispatch dpt true (happening.event world)).1 := by
  cases happening with
  | join node group id customGrps => exact covered.join told
  | leave node group id customGrps any => exact covered.leave placed told finds
  | nodeLeft node => exact covered.nodeLeft
  | customUpdated custom members serviceGrps => exact covered.customUpdated placed told
  | customDeleted custom => exact covered.customDeleted

theorem Reached.placed
    (told : ∀ world happening, allowed world happening →
      happening.Told isService world) (reached : Reached allowed world dpt) :
    Placed isService world dpt := by
  induction reached with
  | start => exact Placed.start isService
  | step _ isAllowed induction => exact induction.step (told _ _ isAllowed)

theorem Reached.covered
    (reached : Reached (fun world happening =>
      happening.Told isService world ∧ happening.ProbeFinds world)
      world dpt) : CustomsCovered world dpt := by
  induction reached with
  | start =>
    intro custom isLive
    exact absurd isLive (Finset.notMem_empty custom)
  | step before isAllowed induction =>
    have placed := before.placed fun _ _ both => both.1
    exact induction.step placed isAllowed.1 isAllowed.2

/-- The nodes of a service group are always those of its workloads; those of a
custom group include the nodes of its workloads if every probe of a leave that
empties a service group finds the custom groups that stay. -/
theorem profiles_reach_workloads (isService : String → Bool) :
    (∀ world dpt, Reached (fun world happening => happening.Told isService world) world dpt →
      ∀ group node, isService group = true →
        (node ∈ nodesOf dpt group ↔ ∃ id, (node, group, id) ∈ world.present)) ∧
    ∀ world dpt, Reached (fun world happening => happening.Told isService world ∧
        happening.ProbeFinds world) world dpt →
      ∀ custom ∈ world.live, ∀ node group id,
        (node, group, id) ∈ world.present → id ∈ world.member custom →
        node ∈ nodesOf dpt custom := by
  constructor
  · intro world dpt reached group node isOne
    exact (reached.placed fun _ _ told => told).service group node isOne
  · intro world dpt reached
    exact reached.covered

def happen (happenings : List Happening) : Workloads × KvDispatcher :=
  happenings.foldl (fun state happening =>
    (state.1.step happening, (dispatch state.2 true (happening.event state.1)).1))
    (noWorkloads, initDispatcher)

theorem Reached.happen_snoc {happenings : List Happening}
    (reached : Reached allowed (happen happenings).1 (happen happenings).2)
    (happening : Happening) (isAllowed : allowed (happen happenings).1 happening) :
    Reached allowed (happen (happenings ++ [happening])).1
      (happen (happenings ++ [happening])).2 := by
  unfold happen
  rw [List.foldl_append]
  exact .step reached isAllowed

def isLearnedGroup (name : String) : Bool := "nv.".toList.isPrefixOf name.toList

theorem happen_start (allowed : Workloads → Happening → Prop) :
    Reached allowed (happen []).1 (happen []).2 :=
  .start

/-- Two workloads of different services, both in the custom group; then the
first one leaves. -/
def twoServices : List Happening :=
  [.customUpdated "tier" ∅ [], .join "n1" "nv.a" "a0" ["tier"], .join "n1" "nv.b" "b0" ["tier"],
    .leave "n1" "nv.a" "a0" ["tier"] fun _ _ => "b0"]

theorem twoServices_reached :
    Reached (fun world happening => happening.Told isLearnedGroup world ∧
      happening.ProbeFinds world) (happen twoServices).1
        (happen twoServices).2 := by
  have updated := (happen_start fun world happening => happening.Told isLearnedGroup world ∧
    happening.ProbeFinds world).happen_snoc (.customUpdated "tier" ∅ [])
      ⟨⟨by decide, fun _ _ _ _ none => absurd none (Finset.notMem_empty _)⟩, trivial⟩
  have first := updated.happen_snoc (.join "n1" "nv.a" "a0" ["tier"])
    ⟨⟨by decide, by decide, by decide⟩, trivial⟩
  have second := first.happen_snoc (.join "n1" "nv.b" "b0" ["tier"])
    ⟨⟨by decide, by decide, by decide⟩, trivial⟩
  apply second.happen_snoc
  have stays : (happen [.customUpdated "tier" ∅ [], .join "n1" "nv.a" "a0" ["tier"],
      .join "n1" "nv.b" "b0" ["tier"]]).1.present.erase ("n1", "nv.a", "a0") =
        {("n1", "nv.b", "b0")} := by decide
  refine ⟨⟨by decide, by decide, ?_⟩, ?_⟩
  · intro custom other rest member
    have only := Finset.mem_singleton.mp (stays ▸ member)
    cases only
    exact member
  · intro _ custom passed _ other rest _ _
    refine ⟨("n1", "nv.b", "b0"), by decide, rfl, ?_⟩
    rw [List.mem_singleton.mp passed]
    decide

theorem profiles_reach_workloads_two :
    ("n1" ∈ nodesOf (happen twoServices).2 "nv.b" ↔
        ∃ id, ("n1", "nv.b", id) ∈ (happen twoServices).1.present) ∧
      "n1" ∈ nodesOf (happen twoServices).2 "tier" := by
  constructor
  · apply (profiles_reach_workloads isLearnedGroup).1
    · exact twoServices_reached.imp fun _ _ both => both.1
    · decide
  · exact (profiles_reach_workloads isLearnedGroup).2 _ _ twoServices_reached
      "tier" (by decide) "n1" "nv.b" "b0" (by decide) (by decide)

/-- The second service has a workload outside of the custom group, which is
the one that is looked at. -/
def mixedService : List Happening :=
  [.customUpdated "tier" ∅ [], .join "n1" "nv.a" "a0" ["tier"],
    .join "n1" "nv.b" "b0" [], .join "n1" "nv.b" "b1" ["tier"],
    .leave "n1" "nv.a" "a0" ["tier"] fun _ _ => "b0"]

theorem probe_misses_member :
    Reached (fun world happening => happening.Told isLearnedGroup world)
        (happen mixedService).1 (happen mixedService).2 ∧
      "tier" ∈ (happen mixedService).1.live ∧
      ("n1", "nv.b", "b1") ∈ (happen mixedService).1.present ∧
      "b1" ∈ (happen mixedService).1.member "tier" ∧
      "n1" ∉ nodesOf (happen mixedService).2 "tier" := by
  refine ⟨?_, by decide, by decide, by decide, by decide⟩
  have updated := (happen_start fun world happening =>
    happening.Told isLearnedGroup world).happen_snoc (.customUpdated "tier" ∅ [])
      ⟨by decide, fun _ _ _ _ none => absurd none (Finset.notMem_empty _)⟩
  have first := updated.happen_snoc (.join "n1" "nv.a" "a0" ["tier"])
    ⟨by decide, by decide, by decide⟩
  have second := first.happen_snoc (.join "n1" "nv.b" "b0" []) ⟨by decide, by decide, by decide⟩
  have third := second.happen_snoc (.join "n1" "nv.b" "b1" ["tier"])
    ⟨by decide, by decide, by decide⟩
  apply third.happen_snoc
  have stays : (happen [.customUpdated "tier" ∅ [],
      .join "n1" "nv.a" "a0" ["tier"], .join "n1" "nv.b" "b0" [],
      .join "n1" "nv.b" "b1" ["tier"]]).1.present.erase ("n1", "nv.a", "a0") =
          {("n1", "nv.b", "b0"), ("n1", "nv.b", "b1")} := by decide
  refine ⟨by decide, by decide, ?_⟩
  intro custom other rest member
  rcases Finset.mem_insert.mp (stays ▸ member) with same | inRest
  · cases same
    exact member
  · cases Finset.mem_singleton.mp inRest
    change ("n1", "nv.b", "b0") ∈ _
    decide

end NeuVector.Controller
