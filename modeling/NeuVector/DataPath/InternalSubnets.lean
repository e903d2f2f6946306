import Mathlib.Tactic.Cases
import NeuVector.Library.Heap

/-!
# Tables of subnets

The internal subnets and the policy addresses are sent in several messages
each.  `dp_ctrl_cfg_internal_net` gathers both in one static buffer, which it
keeps after it has made it a table.  Updates that come one after the other
leave the right tables.  Where they overlap, the first table that is installed
is freed by the next message of the other update.
-/

namespace NeuVector.DataPath

open Library

structure Subnet4 where
  ip : UInt32
  mask : UInt32
  deriving DecidableEq

/-- A message for the internal subnets, or else for the policy addresses, with
the two bits of its flag. -/
structure SubnetMsg where
  internal : Bool
  msgStart : Bool
  msgEnd : Bool
  subnets : List Subnet4
  deriving DecidableEq

/-- `t_internal_subnet4` and the two tables are pointers. -/
structure SubnetState where
  heap : Heap (List Subnet4)
  tInternalSubnet4 : Option Nat
  table : Bool → Option Nat

variable (state : SubnetState)

/-- The buffer with the subnets of a message; there is none if the start was
missed. -/
def gatherSubnets (msg : SubnetMsg) : Option SubnetState :=
  if msg.msgStart then
    some { state with
      heap := state.heap.alloc msg.subnets
      tInternalSubnet4 := some state.heap.next }
  else
    state.tInternalSubnet4.map fun buffer =>
      { state with
        heap := (state.heap.alloc ((state.heap.cells buffer).getD [] ++ msg.subnets)).free buffer
        tInternalSubnet4 := some state.heap.next }

/-- The buffer becomes a table, and the old table is freed. -/
def SubnetState.install (internal : Bool) : SubnetState :=
  { state with
    heap := (state.table internal).elim state.heap state.heap.free
    table := Function.update state.table internal state.tInternalSubnet4 }

def dpCtrlCfgInternalNet (msg : SubnetMsg) : SubnetState × Int :=
  match gatherSubnets state msg with
  | none => (state, -1)
  | some state => (if msg.msgEnd then state.install msg.internal else state, 0)

def subnetRun (arrivals : List SubnetMsg) : SubnetState :=
  arrivals.foldl (fun state msg => (dpCtrlCfgInternalNet state msg).1) state

/-- The subnets that a table has; there are none if it was freed. -/
def SubnetState.subnets (internal : Bool) : Option (List Subnet4) :=
  (state.table internal).bind state.heap.cells

/-- The messages of an update, or what is left of them. -/
def updateMessages (internal first : Bool) : List (List Subnet4) → List SubnetMsg
  | [] => []
  | slice :: rest =>
    { internal := internal, msgStart := first, msgEnd := rest.isEmpty
      subnets := slice } :: updateMessages internal false rest

section Steps

variable {state before : SubnetState} {msg : SubnetMsg} {side first : Bool}
  {gathered : List Subnet4} {slices : List (List Subnet4)}

theorem live_lt {heap : Heap (List Subnet4)} {address : Nat}
    (live : heap.cells address = some gathered) : address < heap.next := by
  by_contra above
  rw [heap.fresh address (Nat.le_of_not_lt above)] at live
  cases live

theorem install_cells {address : Nat} (kept : state.table side ≠ some address) :
    (state.install side).heap.cells address = state.heap.cells address := by
  unfold SubnetState.install
  cases was : state.table side with
  | none => rfl
  | some freed =>
    apply Heap.free_cells_of_ne
    intro same
    exact kept (by rw [was, same])

/-- An update that has started in a state: its buffer has what was gathered,
and nothing that was there has changed. -/
structure Gathering (before : SubnetState) (gathered : List Subnet4)
    (state : SubnetState) : Prop where
  buffer : ∃ address, state.tInternalSubnet4 = some address ∧
    before.heap.next ≤ address ∧ state.heap.cells address = some gathered
  next : before.heap.next ≤ state.heap.next
  table : state.table = before.table
  kept : ∀ address, address < before.heap.next →
    state.heap.cells address = before.heap.cells address

/-- What is known before a message of an update: the update starts with it,
or has started before. -/
def Expects (before : SubnetState) (first : Bool) (gathered : List Subnet4)
    (state : SubnetState) : Prop :=
  if first then state = before ∧ gathered = []
  else Gathering before gathered state

theorem Expects.gathers (expects : Expects before msg.msgStart gathered state) :
    ∃ next, gatherSubnets state msg = some next ∧
      Gathering before (gathered ++ msg.subnets) next := by
  unfold Expects at expects
  split at expects
  next starts =>
    obtain ⟨rfl, rfl⟩ := expects
    refine ⟨_, if_pos starts, ⟨_, rfl, Nat.le_refl _, ?_⟩, Nat.le_succ _, rfl, ?_⟩
    · exact Heap.alloc_cells_next _ _
    · intro address below
      exact Heap.alloc_cells_of_ne _ _ (Nat.ne_of_lt below)
  next goesOn =>
    obtain ⟨⟨buffer, held, above, content⟩, next, table, kept⟩ := expects
    have older : buffer < state.heap.next := live_lt content
    refine ⟨_, (if_neg goesOn).trans (congrArg (Option.map _) held),
      ⟨_, rfl, next, ?_⟩, Nat.le_succ_of_le next, table, ?_⟩
    · rw [Heap.free_cells_of_ne _ (Nat.ne_of_gt older), content]
      exact Heap.alloc_cells_next _ _
    · intro address below
      rw [Heap.free_cells_of_ne _ (by omega), Heap.alloc_cells_of_ne _ _ (by omega)]
      exact kept address below

/-- What an update leaves: its own table, and the other one. -/
structure Updated (before : SubnetState) (side : Bool)
    (subnets : List Subnet4) (after : SubnetState) : Prop where
  own : ∃ address, after.table side = some address ∧
    before.heap.next ≤ address ∧ after.heap.cells address = some subnets
  other : after.table (!side) = before.table (!side)
  kept : ∀ address, address < before.heap.next → before.table side ≠ some address →
    after.heap.cells address = before.heap.cells address

def Allocated (side : Bool) (state : SubnetState) : Prop :=
  ∀ address, state.table side = some address → address < state.heap.next

theorem Gathering.install (gathering : Gathering before gathered state)
    (old : Allocated side before) :
    Updated before side gathered (state.install side) := by
  obtain ⟨⟨buffer, held, above, content⟩, _, table, kept⟩ := gathering
  refine ⟨⟨buffer, ?_, above, ?_⟩, ?_, ?_⟩
  · exact (Function.update_self _ _ _).trans held
  · rw [install_cells, content]
    intro same
    rw [table] at same
    exact absurd (old buffer same) (Nat.not_lt.mpr above)
  · rw [← table]
    exact Function.update_of_ne (by cases side <;> decide) _ _
  · intro address below different
    rw [install_cells (by rw [table]; exact different), kept address below]

theorem updates (expects : Expects before first gathered state)
    (old : Allocated side before) (filled : slices ≠ []) :
    Updated before side (gathered ++ slices.flatten)
      (subnetRun state (updateMessages side first slices)) := by
  induction slices generalizing state gathered first with
  | nil => exact absurd rfl filled
  | cons slice more induction =>
    obtain ⟨next, result, gathering⟩ := @Expects.gathers state before
      ⟨side, first, more.isEmpty, slice⟩ gathered expects
    change Updated _ _ _ (subnetRun (dpCtrlCfgInternalNet state _).1 _)
    rw [dpCtrlCfgInternalNet, result, List.flatten_cons, ← List.append_assoc]
    cases more with
    | nil =>
      rw [List.flatten_nil, List.append_nil]
      exact gathering.install old
    | cons second rest => exact induction gathering (List.cons_ne_nil _ _)

end Steps

/-- The two updates come one after the other, in any order. -/
def OneAfterOther (slices : Bool → List (List Subnet4)) (arrivals : List SubnetMsg) : Prop :=
  ∃ side, arrivals = updateMessages side true (slices side) ++
    updateMessages (!side) true (slices (!side))

theorem separate_updates_exact {start : SubnetState} {slices : Bool → List (List Subnet4)}
    {arrivals : List SubnetMsg} (allocated : ∀ internal, Allocated internal start)
    (filled : ∀ internal, slices internal ≠ [])
    (separate : OneAfterOther slices arrivals) (internal : Bool) :
    (subnetRun start arrivals).subnets internal = some (slices internal).flatten := by
  obtain ⟨side, rfl⟩ := separate
  have first := @updates start start side true [] (slices side) ⟨rfl, rfl⟩
    (allocated side) (filled side)
  rw [subnetRun, List.foldl_append]
  change (subnetRun (subnetRun start _) _).subnets internal = _
  generalize subnetRun start (updateMessages side true (slices side)) = middle at first ⊢
  obtain ⟨⟨address, table, above, content⟩, other, _⟩ := first
  have below : address < middle.heap.next := live_lt content
  have old : Allocated (!side) middle := by
    intro freed found
    rw [other] at found
    have before := allocated (!side) freed found
    omega
  obtain ⟨⟨second, secondTable, _, secondContent⟩, kept, cells⟩ :=
    @updates middle middle (!side) true [] (slices (!side)) ⟨rfl, rfl⟩ old (filled (!side))
  by_cases same : internal = !side
  · rw [same, SubnetState.subnets, secondTable]
    exact secondContent
  · have own : internal = side := by cases internal <;> cases side <;> trivial
    rw [Bool.not_not] at kept
    rw [own, SubnetState.subnets, kept, table]
    refine (cells address below ?_).trans content
    intro found
    rw [other] at found
    have before := allocated (!side) address found
    omega

section Overlap

variable {state : SubnetState} {side internal first : Bool} {msg : SubnetMsg}
  {arrivals rest tail : List SubnetMsg} {left : Bool → List SubnetMsg}
  {slices : Bool → List (List Subnet4)} {ownSlices otherSlices : List (List Subnet4)}

/-- What is still to come for each of the tables. -/
def Remaining (left : Bool → List SubnetMsg) (arrivals : List SubnetMsg) : Prop :=
  ∀ internal, arrivals.filter (fun msg => msg.internal = internal) = left internal

theorem Remaining.own (remaining : Remaining left (msg :: rest)) :
    left msg.internal = msg :: rest.filter fun other => other.internal = msg.internal := by
  rw [← remaining msg.internal]
  exact List.filter_cons_of_pos (decide_eq_true rfl)

theorem Remaining.other (remaining : Remaining left (msg :: rest))
    (different : msg.internal ≠ internal) :
    rest.filter (fun other => other.internal = internal) = left internal := by
  rw [← remaining internal]
  exact (List.filter_cons_of_neg (by simpa using different)).symm

theorem updateMessages_cons (sent : updateMessages internal first ownSlices = msg :: tail) :
    ∃ slice more, ownSlices = slice :: more ∧ msg = ⟨internal, first, more.isEmpty, slice⟩ ∧
      updateMessages internal false more = tail := by
  cases ownSlices with
  | nil => cases sent
  | cons slice more =>
    obtain ⟨rfl, rfl⟩ := List.cons.inj sent
    exact ⟨slice, more, rfl, rfl, rfl⟩

/-- What is left after a message of an update. -/
theorem Remaining.next {starts : Bool → Bool} {more : List (List Subnet4)}
    (remaining : Remaining
      (fun internal => updateMessages internal (starts internal) (slices internal)) (msg :: rest))
    (later : updateMessages msg.internal false more =
      rest.filter fun other => other.internal = msg.internal) :
    Remaining (fun internal => updateMessages internal
      (Function.update starts msg.internal false internal)
      (Function.update slices msg.internal more internal)) rest := by
  intro internal
  by_cases same : internal = msg.internal
  · simp only [same, Function.update_self]
    exact later.symm
  · simp only [Function.update_of_ne same]
    exact remaining.other (Ne.symm same)

theorem only_other (none : rest.filter (fun msg => msg.internal = side) = []) :
    rest.filter (fun msg => msg.internal = !side) = rest := by
  apply List.filter_eq_self.mpr
  intro msg member
  have differs := List.filter_eq_nil_iff.mp none msg member
  exact decide_eq_true (Bool.eq_not_of_ne (by simpa using differs))

def Buffered (state : SubnetState) : Prop :=
  ∃ address, state.tInternalSubnet4 = some address ∧ address < state.heap.next

/-- The buffer is the table, and will be freed when it grows. -/
def Shared (side : Bool) (state : SubnetState) : Prop :=
  ∃ address, state.table side = some address ∧ state.tInternalSubnet4 = some address ∧
    address < state.heap.next

def Dangling (side : Bool) (state : SubnetState) : Prop :=
  ∃ address, state.table side = some address ∧ state.heap.cells address = none ∧
    address < state.heap.next

theorem gather_buffered (held : msg.msgStart = true ∨ Buffered state) :
    ∃ next, gatherSubnets state msg = some next ∧ Buffered next := by
  unfold gatherSubnets
  by_cases starts : msg.msgStart = true
  · rw [if_pos starts]
    exact ⟨_, rfl, _, rfl, Nat.lt_succ_self _⟩
  · obtain ⟨address, buffer, _⟩ := held.resolve_left starts
    rw [if_neg starts, buffer]
    exact ⟨_, rfl, _, rfl, Nat.lt_succ_self _⟩

theorem install_next (state : SubnetState) (side : Bool) :
    (state.install side).heap.next = state.heap.next := by
  unfold SubnetState.install
  cases state.table side with
  | none | some address => rfl

theorem step_buffered (held : msg.msgStart = true ∨ Buffered state) :
    Buffered (dpCtrlCfgInternalNet state msg).1 ∧
      (msg.msgEnd = true → Shared msg.internal (dpCtrlCfgInternalNet state msg).1) := by
  obtain ⟨next, gathers, address, buffer, below⟩ := gather_buffered held
  rw [dpCtrlCfgInternalNet, gathers]
  cases ends : msg.msgEnd with
  | false => exact ⟨⟨address, buffer, below⟩, nofun⟩
  | true =>
    have bound : address < (next.install msg.internal).heap.next := by
      rw [install_next]
      exact below
    refine ⟨⟨address, buffer, bound⟩, fun _ => ⟨address, ?_, buffer, bound⟩⟩
    exact (Function.update_self _ _ _).trans buffer

theorem free_dead {heap : Heap (List Subnet4)} {address : Nat} (freed : Nat)
    (dead : heap.cells address = none) : (heap.free freed).cells address = none := by
  by_cases same : address = freed
  · rw [same]
    exact Function.update_self _ _ _
  · rw [Heap.free_cells_of_ne _ same, dead]

theorem Dangling.install (dangling : Dangling side state) :
    Dangling side (state.install (!side)) := by
  obtain ⟨address, table, dead, below⟩ := dangling
  refine ⟨address, ?_, ?_, ?_⟩
  · exact (Function.update_of_ne (by cases side <;> decide) _ _).trans table
  · unfold SubnetState.install
    cases state.table (!side) with
    | none => exact dead
    | some freed => exact free_dead freed dead
  · rw [install_next]
    exact below

theorem Dangling.finish (dangling : Dangling side state) (other : msg.internal = !side) :
    Dangling side (if msg.msgEnd then state.install msg.internal else state) := by
  split
  · rw [other]
    exact dangling.install
  · exact dangling

theorem Dangling.step (dangling : Dangling side state) (other : msg.internal = !side) :
    Dangling side (dpCtrlCfgInternalNet state msg).1 := by
  have old := dangling
  obtain ⟨address, table, dead, below⟩ := dangling
  have allocates : ∀ subnets, (state.heap.alloc subnets).cells address = none := by
    intro subnets
    rw [Heap.alloc_cells_of_ne _ _ (Nat.ne_of_lt below), dead]
  unfold dpCtrlCfgInternalNet gatherSubnets
  by_cases starts : msg.msgStart = true
  · rw [if_pos starts]
    exact Dangling.finish ⟨address, table, allocates _, Nat.lt_succ_of_lt below⟩ other
  · rw [if_neg starts]
    cases state.tInternalSubnet4 with
    | none => exact old
    | some buffer =>
      exact Dangling.finish ⟨address, table, free_dead buffer (allocates _),
        Nat.lt_succ_of_lt below⟩ other

theorem Dangling.run (dangling : Dangling side state)
    (others : ∀ msg ∈ arrivals, msg.internal = !side) :
    Dangling side (subnetRun state arrivals) := by
  induction arrivals generalizing state with
  | nil => exact dangling
  | cons msg rest induction =>
    obtain ⟨first, later⟩ := List.forall_mem_cons.mp others
    exact induction (dangling.step first) later

/-- The other update goes on with the buffer that has become a table. -/
theorem Shared.run (shared : Shared side state) (filled : otherSlices ≠ []) :
    Dangling side (subnetRun state (updateMessages (!side) false otherSlices)) := by
  have others : ∀ msg ∈ updateMessages (!side) false otherSlices, msg.internal = !side := by
    generalize false = first
    clear filled
    induction otherSlices generalizing first with
    | nil => exact nofun
    | cons slice more induction => exact List.forall_mem_cons.mpr ⟨rfl, induction false⟩
  cases otherSlices with
  | nil => exact absurd rfl filled
  | cons slice more =>
    obtain ⟨first, later⟩ := List.forall_mem_cons.mp others
    obtain ⟨address, table, buffer, below⟩ := shared
    change Dangling side (subnetRun (dpCtrlCfgInternalNet state _).1 _)
    refine Dangling.run ?_ later
    unfold dpCtrlCfgInternalNet gatherSubnets
    rw [if_neg Bool.false_ne_true, buffer]
    refine Dangling.finish ⟨address, table, ?_, Nat.lt_succ_of_lt below⟩ first
    exact Function.update_self _ _ _

/-- Of two updates that are left, neither started or with a buffer in use, one
comes before the other starts, or a table is freed. -/
theorem overlap_dangles {starts : Bool → Bool} (filled : ∀ internal, slices internal ≠ [])
    (held : (∀ internal, starts internal = true) ∨ Buffered state)
    (remaining : Remaining
      (fun internal => updateMessages internal (starts internal) (slices internal)) arrivals) :
    (∃ side, starts (!side) = true ∧ arrivals = updateMessages side (starts side) (slices side) ++
        updateMessages (!side) true (slices (!side))) ∨
      ∃ side, Dangling side (subnetRun state arrivals) := by
  induction arrivals generalizing state slices starts with
  | nil =>
    have none := remaining true
    cases sent : slices true with
    | nil => exact absurd sent (filled true)
    | cons slice more =>
      simp only [sent] at none
      cases none
  | cons msg rest induction =>
    obtain ⟨slice, more, sent, message, later⟩ := updateMessages_cons remaining.own
    have others := @Remaining.other (!msg.internal) _ _ _ remaining (by simp)
    have begun : msg.msgStart = true ∨ Buffered state := by
      apply held.imp_left
      intro all
      rw [message]
      exact all _
    obtain ⟨buffered, shared⟩ := step_buffered begun
    have whole : ∀ after, rest = updateMessages msg.internal false more ++ after →
        msg :: rest = updateMessages msg.internal (starts msg.internal) (slices msg.internal) ++
          after := by
      intro after same
      rw [sent, same]
      exact congrArg (· :: _) message
    change _ ∨ ∃ side, Dangling side (subnetRun (dpCtrlCfgInternalNet state msg).1 rest)
    cases more with
    | nil =>
      have alone := only_other later.symm
      rw [others] at alone
      cases waits : starts (!msg.internal) with
      | true =>
        rw [waits] at alone
        exact Or.inl ⟨msg.internal, waits, whole _ alone.symm⟩
      | false =>
        have ends : msg.msgEnd = true := by
          rw [message]
          rfl
        rw [waits] at alone
        rw [← alone]
        exact Or.inr ⟨msg.internal, (shared ends).run (filled _)⟩
    | cons second more =>
      have moreFilled : ∀ internal,
          Function.update slices msg.internal (second :: more) internal ≠ [] :=
        (Function.forall_update_iff slices fun _ sent => sent ≠ []).mpr
          ⟨List.cons_ne_nil _ _, fun internal _ => filled internal⟩
      rcases induction moreFilled (Or.inr buffered) (remaining.next later) with
        ⟨side, waits, same⟩ | freed
      · have isOwn : side = msg.internal := by
          by_contra other
          rw [Bool.eq_not_of_ne other, Bool.not_not, Function.update_self] at waits
          cases waits
        have different : (!msg.internal) ≠ msg.internal := by simp
        rw [isOwn, Function.update_of_ne different] at waits
        rw [isOwn, Function.update_self, Function.update_self,
          Function.update_of_ne different] at same
        exact Or.inl ⟨msg.internal, waits, whole _ same⟩
      · exact Or.inr freed

end Overlap

/-- Each table has exactly the subnets that were sent for it if the updates
come one after the other, and only then. -/
theorem subnet_tables_exact_iff (start : SubnetState)
    (slices : Bool → List (List Subnet4)) (arrivals : List SubnetMsg)
    (allocated : ∀ internal, Allocated internal start) (filled : ∀ internal, slices internal ≠ [])
    (interleaved : Remaining (fun internal => updateMessages internal true (slices internal))
      arrivals) :
    (∀ internal, (subnetRun start arrivals).subnets internal =
        some (slices internal).flatten) ↔ OneAfterOther slices arrivals := by
  constructor
  · intro exact
    rcases @overlap_dangles start arrivals slices (fun _ => true) filled (Or.inl fun _ => rfl)
      interleaved with ⟨side, _, separate⟩ | ⟨side, address, table, dead, _⟩
    · exact ⟨side, separate⟩
    · have lost := exact side
      rw [SubnetState.subnets, table, Option.bind_some, dead] at lost
      cases lost
  · exact separate_updates_exact allocated filled

def blankSubnets : SubnetState :=
  { heap := .empty, tInternalSubnet4 := none, table := fun _ => none }

/-- One subnet in each message, with the address told. -/
def hostSlices (first second : UInt32) : List (List Subnet4) :=
  [[⟨first, 0xFFFFFFFF⟩], [⟨second, 0xFFFFFFFF⟩]]

theorem subnet_tables_exact_pair :
    let arrivals := updateMessages true true (hostSlices 1 2) ++
      updateMessages false true (hostSlices 3 4)
    (subnetRun blankSubnets arrivals).subnets true = some (hostSlices 1 2).flatten ∧
      (subnetRun blankSubnets arrivals).subnets false = some (hostSlices 3 4).flatten := by
  intro arrivals
  have exact := (subnet_tables_exact_iff blankSubnets
    (fun internal => if internal then hostSlices 1 2 else hostSlices 3 4) arrivals ?_ ?_ ?_).mpr
      ⟨true, rfl⟩
  · exact ⟨exact true, exact false⟩
  · intro internal address found
    cases found
  · intro internal
    cases internal <;> exact List.cons_ne_nil _ _
  · intro internal
    cases internal <;> rfl

/-- The policy addresses start while the internal subnets are sent: the
internal table gets the first policy address, and is freed when the policy
addresses end. -/
theorem overlapping_updates_mix_tables :
    ∃ arrivals after, (∀ internal, (arrivals ++ after).filter (fun msg => msg.internal = internal) =
        updateMessages internal true (if internal then hostSlices 1 2 else hostSlices 3 4)) ∧
      (subnetRun blankSubnets arrivals).subnets true = some [⟨3, 0xFFFFFFFF⟩, ⟨2, 0xFFFFFFFF⟩] ∧
      (subnetRun blankSubnets (arrivals ++ after)).subnets true = none ∧
      (subnetRun blankSubnets (arrivals ++ after)).subnets false =
        some [⟨3, 0xFFFFFFFF⟩, ⟨2, 0xFFFFFFFF⟩, ⟨4, 0xFFFFFFFF⟩] := by
  refine ⟨[⟨true, true, false, [⟨1, 0xFFFFFFFF⟩]⟩, ⟨false, true, false, [⟨3, 0xFFFFFFFF⟩]⟩,
    ⟨true, false, true, [⟨2, 0xFFFFFFFF⟩]⟩],
    [⟨false, false, true, [⟨4, 0xFFFFFFFF⟩]⟩], ?_, rfl, rfl, rfl⟩
  decide

end NeuVector.DataPath
