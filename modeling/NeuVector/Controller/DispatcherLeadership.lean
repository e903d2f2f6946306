import NeuVector.Controller.DispatcherSteps

/-!
# Tables of leaders and followers

All controllers handle the same events; which of them a controller handles as
leader should not show in its tables.  It shows exactly where a workload joins
with a custom group that its node does not have yet.
-/

namespace NeuVector.Controller

structure SameTables (first second : KvDispatcher) : Prop where
  nodes : first.nodes = second.nodes
  customs : first.customs = second.customs
  known : ∀ node, (first.node2groups.lookup node).isSome = (second.node2groups.lookup node).isSome
  members : ∀ node group, (first.node2groups.lookup node).bind (·.lookup group) =
      (second.node2groups.lookup node).bind (·.lookup group)
  group2nodes : ∀ group, first.group2nodes.lookup group = second.group2nodes.lookup group

theorem SameTables.refl (dpt : KvDispatcher) : SameTables dpt dpt where
  nodes := rfl
  customs := rfl
  known := fun _ => rfl
  members := fun _ _ => rfl
  group2nodes := fun _ => rfl

/-- The tables of a controller that never leads. -/
def followed (events : List DispatchEvent) : KvDispatcher :=
  dispatchAll initDispatcher (events.map fun event => (event, false))

/-- The custom groups of a join are on its node already, or are its service
group. -/
def CustomsKnown (dpt : KvDispatcher) : DispatchEvent → Prop
  | .workloadJoin node group _ customGrps =>
    ∀ custom ∈ customGrps, custom = group ∨ node ∈ nodesOf dpt custom
  | _ => True

theorem buildCustomGroups_known (customGrps : List String) {node : String}
    (state : KvDispatcher × Finset ProfileWrite)
    (known : ∀ custom ∈ customGrps, node ∈ nodesOf state.1 custom) :
    customGrps.foldl (buildCustomGroup node) state = state := by
  induction customGrps with
  | nil => rfl
  | cons first rest induction =>
    have kept : buildCustomGroup node state first = state := if_pos (known first List.mem_cons_self)
    rw [List.foldl_cons, kept]
    apply induction
    intro custom member
    exact known custom (List.mem_cons_of_mem _ member)

theorem dispatch_known {dpt : KvDispatcher} {event : DispatchEvent}
    (known : CustomsKnown dpt event) (bLeader : Bool) :
    (dispatch dpt bLeader event).1 = (dispatch dpt false event).1 := by
  cases event with
  | workloadJoin node group id customGrps =>
    have built : (buildCustomGroups (joinedService dpt node group id) node
        customGrps).1 = joinedService dpt node group id := by
      unfold buildCustomGroups
      rw [buildCustomGroups_known]
      intro custom member
      rw [joinedService_nodes]
      rcases known custom member with same | there
      · rw [if_pos same]
        exact Finset.mem_insert_self _ _
      · split
        · exact Finset.mem_insert_of_mem there
        · exact there
    have joins : ∀ bLeader, (workloadJoin dpt node group id customGrps
        bLeader).1 = joinedService dpt node group id := by
      intro bLeader
      rw [workloadJoin_eq, built, ite_self]
    exact (joins bLeader).trans (joins false).symm
  | workloadLeave node group id customGrps probe =>
    unfold dispatch workloadLeave
    simp only
    split
    · rfl
    · rfl
  | nodeLeave node | customGroupUpdate group serviceGrps | customGroupDelete group => rfl

theorem join_shows_leader {dpt : KvDispatcher} {node group id custom : String}
    {customGrps : List String} (passed : custom ∈ customGrps)
    (different : custom ≠ group) (missing : node ∉ nodesOf dpt custom) :
    ¬ SameTables (workloadJoin dpt node group id customGrps true).1
      (workloadJoin dpt node group id customGrps false).1 := by
  intro same
  have leads : node ∈ nodesOf (workloadJoin dpt node group id customGrps true).1 custom := by
    rw [workloadJoin_eq, if_pos rfl]
    unfold buildCustomGroups
    rw [buildCustomGroups_nodes, if_pos passed]
    exact Finset.mem_insert_self _ _
  have nodes : nodesOf (workloadJoin dpt node group id customGrps
      true).1 custom = nodesOf (workloadJoin dpt node group id customGrps false).1 custom := by
    unfold nodesOf
    rw [same.group2nodes]
  rw [nodes, workloadJoin_eq, if_neg (by decide), joinedService_nodes, if_neg different] at leads
  exact missing leads

theorem dispatchAll_snoc (dpt : KvDispatcher)
    (events : List (DispatchEvent × Bool)) (event : DispatchEvent) (bLeader : Bool) :
    dispatchAll dpt (events ++ [(event, bLeader)]) =
      (dispatch (dispatchAll dpt events) bLeader event).1 := by
  unfold dispatchAll
  rw [List.foldl_append]
  rfl

theorem followed_snoc (events : List DispatchEvent) (event : DispatchEvent) :
    followed (events ++ [event]) = (dispatch (followed events) false event).1 := by
  unfold followed
  rw [List.map_append]
  exact dispatchAll_snoc _ _ _ _

/-- If every join has its custom groups known then all controllers have the
tables of a follower. -/
theorem dispatchAll_eq_followed (handled : List (DispatchEvent × Bool))
    (known : ∀ done event rest, handled.map Prod.fst = done ++ event :: rest →
      CustomsKnown (followed done) event) :
    dispatchAll initDispatcher handled = followed (handled.map Prod.fst) := by
  induction handled using List.reverseRecOn with
  | nil => rfl
  | append_singleton before last induction =>
    obtain ⟨event, bLeader⟩ := last
    have earlier := induction fun done other rest split => by
      apply known done other (rest ++ [event])
      rw [List.map_append, split]
      simp
    rw [dispatchAll_snoc, earlier, List.map_append]
    refine (dispatch_known ?_ bLeader).trans (followed_snoc _ _).symm
    apply known _ event []
    rw [List.map_append]
    rfl

/-- After every part of a sequence of events the tables do not depend on who
leads exactly if each workload joins with custom groups that its node has. -/
theorem tables_agree_iff (events : List DispatchEvent) :
    (∀ done rest, events = done ++ rest → ∀ first second : List (DispatchEvent × Bool),
        first.map Prod.fst = done → second.map Prod.fst = done →
        SameTables (dispatchAll initDispatcher first) (dispatchAll initDispatcher second)) ↔
      ∀ done event rest, events = done ++ event :: rest → CustomsKnown (followed done) event := by
  constructor
  · intro agree done event rest split
    cases event with
    | workloadJoin node group id customGrps =>
      intro custom passed
      by_contra unknown
      obtain ⟨different, missing⟩ := not_or.mp unknown
      have handled : ∀ bLeader, ((done.map fun event => (event, false)) ++
            [(DispatchEvent.workloadJoin node group id customGrps, bLeader)]).map Prod.fst =
            done ++ [.workloadJoin node group id customGrps] := by
        intro bLeader
        simp [List.map_map, Function.comp_def]
      have same := agree (done ++ [.workloadJoin node group id customGrps]) rest
        (by rw [split]; simp) _ _ (handled true) (handled false)
      rw [dispatchAll_snoc, dispatchAll_snoc] at same
      exact join_shows_leader passed different missing same
    | workloadLeave node group id customGrps probe => trivial
    | nodeLeave node | customGroupUpdate group serviceGrps | customGroupDelete group => trivial
  · intro known done rest split first second isFirst isSecond
    have followsDone : ∀ handled : List (DispatchEvent × Bool), handled.map Prod.fst = done →
        dispatchAll initDispatcher handled = followed done := by
      intro handled isDone
      rw [← isDone]
      apply dispatchAll_eq_followed
      intro before event after parts
      apply known before event (after ++ rest)
      rw [split, ← isDone, parts]
      simp
    rw [followsDone first isFirst, followsDone second isSecond]
    exact SameTables.refl _

def newCustom : List DispatchEvent :=
  [.customGroupUpdate "tier" [], .workloadJoin "n1" "nv.a" "a0" ["tier"]]

theorem follower_misses_custom :
    "n1" ∈ nodesOf (dispatchAll initDispatcher (newCustom.map fun event => (event, true))) "tier" ∧
      "n1" ∉ nodesOf (dispatchAll initDispatcher
        (newCustom.map fun event => (event, false))) "tier" ∧
      putProfile (dispatchAll initDispatcher
        (newCustom.map fun event => (event, false))) false "tier" = some ∅ := by decide

end NeuVector.Controller
