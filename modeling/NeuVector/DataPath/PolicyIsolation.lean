import NeuVector.DataPath.PolicyHandles

/-!
# Policies that later events leave alone

Every message builds, hands out and releases handles that endpoints share.
An endpoint that no event names keeps its handle through all of this, and
with it the tables that decide its sessions.
-/

namespace NeuVector.DataPath

open Library List

section Frames

variable {address : Nat}

/-- What an address holds it held before, up to the reference count. -/
def Fades (address : Nat) (before after : Heap PolicyHdl) : Prop :=
  ∀ hdl, after.cells address = some hdl →
    ∃ refCnt, before.cells address = some { hdl with refCnt := refCnt }

theorem Fades.of_eq {before after : Heap PolicyHdl}
    (same : after.cells address = before.cells address) : Fades address before after :=
  fun hdl stored => ⟨hdl.refCnt, same.symm.trans stored⟩

theorem Fades.trans {first second third : Heap PolicyHdl} (early : Fades address first second)
    (late : Fades address second third) : Fades address first third := by
  intro hdl stored
  obtain ⟨_, between⟩ := late hdl stored
  obtain ⟨count, found⟩ := early _ between
  exact ⟨count, found⟩

theorem recounted_fades (heap : Heap PolicyHdl) (other : Nat) (recount : UInt16 → UInt16) :
    Fades address heap
      (heap.modify other fun hdl => { hdl with refCnt := recount hdl.refCnt }) := by
  intro hdl stored
  rw [Heap.modify_cells] at stored
  obtain ⟨old, found, rfl⟩ := Option.map_eq_some_iff.mp stored
  refine ⟨old.refCnt, ?_⟩
  rw [found]
  split <;> rfl

theorem dpPolicyDestroy_fades (heap : Heap PolicyHdl) (old : Option Nat) :
    Fades address heap (dpPolicyDestroy heap old) := by
  cases old with
  | none => exact .of_eq rfl
  | some other =>
    change Fades address heap (dpiPolicyHdlDestroy heap other)
    unfold dpiPolicyHdlDestroy
    split
    · exact .of_eq rfl
    · split
      · exact recounted_fades heap other (· - 1)
      · intro hdl stored
        by_cases same : address = other
        · subst same
          rw [Heap.free_cells_self] at stored
          cases stored
        · exact Fades.of_eq (heap.free_cells_of_ne same) hdl stored

theorem updateMacs_fades (hdl : Option Nat) (macs : List EtherAddr) (state : PolicyState) :
    Fades address state.heap (updateMacs hdl macs state).heap := by
  induction macs generalizing state with
  | nil => exact .of_eq rfl
  | cons mac rest induction =>
    refine Fades.trans ?_ (induction _)
    cases found : state.epMap mac with
    | none =>
      unfold dpiPolicyUpdate
      rw [found]
      exact .of_eq rfl
    | some endpoint =>
      obtain ⟨ver, updated⟩ := dpiPolicyUpdate_eq hdl found
      have taken : Fades address state.heap (takeHdl state.heap hdl) := by
        cases hdl with
        | none => exact .of_eq rfl
        | some fresh => exact recounted_fades state.heap fresh (· + 1)
      rw [updated]
      exact taken.trans (dpPolicyDestroy_fades _ endpoint.policyHdl)

theorem finishHdl_fades (state : PolicyState) (policy : Policy) :
    Fades address state.heap (finishHdl state policy).heap := by
  apply (updateMacs_fades state.hdl policy.macList state).trans
  unfold finishHdl
  simp only
  split
  · exact .of_eq rfl
  next built _ =>
    split
    · exact .of_eq rfl
    · split
      · exact dpPolicyDestroy_fades _ (some built)
      · exact .of_eq rfl

end Frames

variable {mac : EtherAddr} {state : PolicyState} {hdl : PolicyHdl}

theorem updateMacs_unlisted (hdl : Option Nat) {macs : List EtherAddr} (unlisted : mac ∉ macs) :
    (updateMacs hdl macs state).epMap mac = state.epMap mac := by
  induction macs generalizing state with
  | nil => rfl
  | cons other rest induction =>
    obtain ⟨different, later⟩ := not_or.mp (mem_cons.not.mp unlisted)
    exact (induction later).trans (dpiPolicyUpdate_epMap_of_ne hdl different)

/-- A handle that an endpoint points to is allocated, and it is not the one
under construction. -/
theorem Counted.held {address : Nat} (counted : Counted state)
    (held : policyHdlOf state.epMap mac = some address) :
    address < state.heap.next ∧ state.hdl ≠ some address := by
  have := finite_etherAddr
  have positive : 0 < references state address := RefCount.holders_pos_iff.mpr ⟨mac, held⟩
  constructor
  · by_contra above
    have live := counted.counts.live address positive
    rw [state.heap.fresh address (Nat.le_of_not_lt above)] at live
    cases live
  · intro building
    exact Nat.ne_of_gt positive (counted.building address building).2

/-- The counts are exact, and an endpoint has the tables of a handle. -/
structure Served (mac : EtherAddr) (hdl : PolicyHdl) (state : PolicyState) : Prop where
  counted : Counted state
  installed : Installed state mac hdl

section Steps

variable (served : Served mac hdl state)
include served

/-- The handle of the endpoint is live in a counted state, so a step that only
lets it fade keeps its tables. -/
theorem Served.kept {after : PolicyState} (counted : Counted after)
    (pointer : policyHdlOf after.epMap mac = policyHdlOf state.epMap mac)
    (fades : ∀ address, policyHdlOf state.epMap mac = some address →
      Fades address state.heap after.heap) :
    Served mac hdl after := by
  have := finite_etherAddr
  obtain ⟨refCnt, found⟩ := served.installed
  obtain ⟨address, held, stored⟩ := Option.bind_eq_some_iff.mp found
  have points := pointer.trans held
  have live := counted.counts.live address (RefCount.holders_pos_iff.mpr ⟨mac, points⟩)
  obtain ⟨kept, there⟩ := Option.isSome_iff_exists.mp live
  obtain ⟨count, same⟩ := fades address held kept there
  have recounted : kept = { hdl with refCnt := kept.refCnt } :=
    congrArg (fun tables : PolicyHdl => { tables with refCnt := kept.refCnt })
      (Option.some.inj (same.symm.trans stored))
  refine ⟨counted, kept.refCnt, ?_⟩
  rw [← recounted]
  exact Option.bind_eq_some_iff.mpr ⟨address, points, there⟩

theorem dropHdl_served : Served mac hdl (dropHdl state) := by
  apply served.kept (dropHdl_counted served.counted) (by rw [dropHdl_epMap])
  intro address _
  unfold dropHdl
  split
  · exact .of_eq rfl
  next built _ => exact dpPolicyDestroy_fades _ (some built)

theorem startHdl_served (policy : Policy) : Served mac hdl (startHdl state policy) := by
  apply served.kept (startHdl_counted served.counted policy) rfl
  intro address held
  have older := Nat.ne_of_lt (served.counted.held held).1
  exact .of_eq (state.heap.alloc_cells_of_ne _ older)

theorem loadRules_served (ctx : IpContext) (policy : Policy) (flag : UInt32) :
    Served mac hdl (loadRules ctx state policy flag) := by
  apply served.kept (loadRules_counted served.counted ctx policy flag) (by rw [loadRules_epMap])
  intro address held
  unfold loadRules
  split
  · exact .of_eq rfl
  next building found =>
    have apart : address ≠ building := by
      intro same
      exact (served.counted.held held).2 (found.trans (congrArg some same.symm))
    split
    · exact .of_eq rfl
    · exact .of_eq (state.heap.modify_cells_of_ne _ apart)

/-- The event lists the endpoint in its message or deletes it. -/
def Names (mac : EtherAddr) : PolicyEvent → Prop
  | .config _ message => mac ∈ message.policy.macList
  | .addMac _ => False
  | .delMac other => other = mac

theorem policyStep_served {event : PolicyEvent} (few : FewMacs event)
    (unnamed : ¬ Names mac event) : Served mac hdl (policyStep state event) := by
  have counted := policyStep_counted served.counted few
  cases event with
  | config ctx message =>
    refine dpiPolicyCfg_keeps dropHdl_served
      (fun kept => ⟨⟨kept.counted.counts, kept.counted.building⟩, kept.installed⟩)
      (fun kept => startHdl_served kept _) (fun kept => loadRules_served kept ctx _ _) ?_ served
    intro state kept
    apply kept.kept (finishHdl_counted kept.counted _ few)
    · exact congrArg (Option.bind · Endpoint.policyHdl) (updateMacs_unlisted state.hdl unnamed)
    · intro address _
      exact finishHdl_fades state _
  | addMac other =>
    apply served.kept counted
    · change policyHdlOf (dpCtrlAddMac state other).epMap mac = _
      unfold dpCtrlAddMac
      cases found : state.epMap other with
      | some endpoint => rfl
      | none =>
        have missing : policyHdlOf state.epMap other = none := by
          rw [policyHdlOf, found]
          rfl
        rw [policyHdlOf_update]
        exact congrFun (Function.update_eq_self_iff.mpr missing.symm) mac
    · intro address _
      change Fades address state.heap (dpCtrlAddMac state other).heap
      unfold dpCtrlAddMac
      split <;> exact .of_eq rfl
  | delMac other =>
    have different : mac ≠ other := fun same => unnamed same.symm
    change Served mac hdl (dpCtrlDelMac state other)
    change Counted (dpCtrlDelMac state other) at counted
    unfold dpCtrlDelMac at counted ⊢
    split at counted
    · exact served
    next endpoint _ =>
      apply served.kept counted
      · rw [policyHdlOf_update, Function.update_of_ne different]
      · intro address _
        exact dpPolicyDestroy_fades _ endpoint.policyHdl

theorem policyRun_served {events : List PolicyEvent} (few : ∀ event ∈ events, FewMacs event)
    (unnamed : ∀ event ∈ events, ¬ Names mac event) : Served mac hdl (policyRun state events) := by
  apply foldlRecOn events policyStep served
  intro state served event member
  exact policyStep_served served (few event member) (unnamed event member)

end Steps

theorem policyRun_append (first second : List PolicyEvent) :
    policyRun state (first ++ second) = policyRun (policyRun state first) second := foldl_append

theorem Counted.valid (counted : Counted state) : ValidState state where
  endpoints := by
    intro mac endpoint address found held
    apply (@Counted.held mac state address counted _).1
    rw [policyHdlOf, found]
    exact held
  current := by
    intro address building
    by_contra above
    have live := (counted.building address building).1
    rw [state.heap.fresh address (Nat.le_of_not_lt above)] at live
    cases live

theorem sliceMessages_macs {cmd : CfgCmd} {policy : Policy} {first : Bool}
    {slices : List (List PolicyRule)} {message : PolicyMsg}
    (member : message ∈ sliceMessages cmd policy first slices) :
    message.policy.macList = policy.macList := by
  induction slices generalizing first with
  | nil => cases member
  | cons slice rest induction =>
    rcases mem_cons.mp member with rfl | later
    · rfl
    · exact induction later

/-- A policy delivered to an endpoint in any history, in any number of
messages, is the one built from its whole rule list, and it stays in force
until an event names the endpoint. -/
theorem delivered_policy_stays {earlier later : List PolicyEvent}
    (few : ∀ event ∈ earlier ++ later, FewMacs event) {cmd : CfgCmd} (keeps : cmd ≠ .delete)
    {policy : Policy} (small : policy.macList.length ≤ 65535) (listed : mac ∈ policy.macList)
    (present : ((policyRun .init earlier).epMap mac).isSome = true)
    {slices : List (List PolicyRule)} (nonempty : slices ≠ []) (ctx : IpContext)
    (unnamed : ∀ event ∈ later, ¬ Names mac event) :
    Installed (policyRun .init (earlier ++
        ((sliceMessages cmd policy true slices).map (.config ctx) ++ later))) mac
      (builtHdl ctx slices.flatten policy.defAction policy.applyDir
        (getNewPolicyVer (policyRun .init earlier).policyVer)) := by
  obtain ⟨fewEarlier, fewLater⟩ := forall_mem_append.mp few
  have counted := policyRun_counted counted_init fewEarlier
  have fewSent : ∀ event ∈ (sliceMessages cmd policy true slices).map (PolicyEvent.config ctx),
      FewMacs event := by
    intro event member
    obtain ⟨message, inside, rfl⟩ := mem_map.mp member
    change message.policy.macList.length ≤ 65535
    rw [sliceMessages_macs inside]
    exact small
  rw [policyRun_append, policyRun_append]
  refine (policyRun_served ⟨policyRun_counted counted fewSent, ?_⟩ fewLater unnamed).installed
  rw [policyRun, foldl_map]
  exact runMessages_installs keeps (Nat.lt_succ_of_le small) listed nonempty counted.valid present

/-- The rules come in two messages; then another endpoint comes and goes. -/
theorem delivered_policy_stays_cut :
    Installed (policyRun .init ([.addMac 1] ++
        ((sliceMessages .add samplePolicy true repeatedSlices).map (.config sampleContext) ++
          [.addMac 2, .config plainContext (emptyPolicyMsg [2]), .delMac 2]))) 1
      (builtHdl sampleContext repeatedSlices.flatten .actionDeny samplePolicy.applyDir
        (getNewPolicyVer (policyRun .init [.addMac 1]).policyVer)) :=
  delivered_policy_stays (by simp [FewMacs, emptyPolicyMsg]) (by simp) (by simp [samplePolicy])
    (by simp [samplePolicy]) rfl (by simp [repeatedSlices]) sampleContext
    (by simp [Names, emptyPolicyMsg])

end NeuVector.DataPath
