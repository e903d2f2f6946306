import NeuVector.Library.RefCount
import NeuVector.DataPath.PolicyMessages

/-!
# Reference counts of policy handles

A handle counts the endpoints that point to it.  The count is adjusted by
`dpi_policy_update`, by `dpi_policy_hdl_destroy` and by the deletion of an
endpoint.  It is exact in every run of configuration messages and endpoint
changes, as long as no message lists more MACs than sixteen bits can count.
-/

namespace NeuVector.DataPath

open Library List

/-- `dp_ctrl_add_mac` without an old MAC: a replaced endpoint hands its
policy to the new one. -/
def dpCtrlAddMac (state : PolicyState) (mac : EtherAddr) : PolicyState :=
  match state.epMap mac with
  | some _ => state
  | none =>
    { state with
      epMap := Function.update state.epMap mac (some { policyHdl := none, policyVer := 0 }) }

def dpPolicyDestroy (heap : Heap PolicyHdl) (hdl : Option Nat) : Heap PolicyHdl :=
  match hdl with
  | none => heap
  | some address => dpiPolicyHdlDestroy heap address

def dpCtrlDelMac (state : PolicyState) (mac : EtherAddr) : PolicyState :=
  match state.epMap mac with
  | none => state
  | some endpoint =>
    { state with
      heap := dpPolicyDestroy state.heap endpoint.policyHdl
      epMap := Function.update state.epMap mac none }

/-- A message is read with the domain names known when it comes. -/
inductive PolicyEvent where
  | config (ctx : IpContext) (message : PolicyMsg)
  | addMac (mac : EtherAddr)
  | delMac (mac : EtherAddr)

def policyStep (state : PolicyState) : PolicyEvent → PolicyState
  | .config ctx message => (dpiPolicyCfg ctx state message.cmd message.policy message.flag).1
  | .addMac mac => dpCtrlAddMac state mac
  | .delMac mac => dpCtrlDelMac state mac

def policyRun (state : PolicyState) (events : List PolicyEvent) : PolicyState :=
  events.foldl policyStep state

def PolicyState.init : PolicyState :=
  { hdl := none, order := 0, policyVer := 0, heap := Heap.empty, epMap := fun _ => none }

def policyHdlOf (epMap : EtherAddr → Option Endpoint) (mac : EtherAddr) : Option Nat :=
  (epMap mac).bind Endpoint.policyHdl

theorem policyHdlOf_update (epMap : EtherAddr → Option Endpoint)
    (mac : EtherAddr) (entry : Option Endpoint) :
    policyHdlOf (Function.update epMap mac entry) = Function.update (policyHdlOf epMap) mac
        (entry.bind Endpoint.policyHdl) := by
  funext other
  unfold policyHdlOf
  by_cases same : other = mac
  · subst same
    rw [Function.update_self, Function.update_self]
  · rw [Function.update_of_ne same, Function.update_of_ne same]

noncomputable def references (state : PolicyState) : Nat → Nat :=
  RefCount.holders (policyHdlOf state.epMap)

def PolicyHdl.count (hdl : PolicyHdl) : Nat := hdl.refCnt.toNat

abbrev CountsExactly (heap : Heap PolicyHdl) (number : Nat → Nat) : Prop :=
  RefCount.Exact PolicyHdl.count heap number

/-- The counts are exact, and nobody points to the handle that is still being
built. -/
structure Counted (state : PolicyState) : Prop where
  counts : CountsExactly state.heap (references state)
  building : ∀ address, state.hdl = some address →
    (state.heap.cells address).isSome ∧ references state address = 0

theorem finite_etherAddr : Finite EtherAddr :=
  Finite.of_injective BitVec.toFin fun _ _ => BitVec.toFin_inj.mp

theorem counted_init : Counted .init where
  counts :=
    { exact := fun address value found => by cases found
      live := fun address positive => by
        have := finite_etherAddr
        obtain ⟨mac, held⟩ := RefCount.holders_pos_iff.mp positive
        cases held }
  building := fun address building => by cases building

section Release

variable {heap : Heap PolicyHdl} {number : Nat → Nat} {address : Nat}

theorem toNat_pred {refCnt : UInt16} (positive : refCnt > 1) :
    (refCnt - 1).toNat = refCnt.toNat - 1 := by
  have one : (1 : UInt16).toNat = 1 := rfl
  rw [gt_iff_lt, UInt16.lt_iff_toNat_lt] at positive
  have bound := refCnt.toNat_lt
  rw [UInt16.toNat_sub]
  omega

theorem dpiPolicyHdlDestroy_counts (counts : CountsExactly heap number) :
    CountsExactly (dpiPolicyHdlDestroy heap address)
      (Function.update number address (number address - 1)) := by
  unfold dpiPolicyHdlDestroy
  cases stored : heap.cells address with
  | none =>
    have nobody : number address = 0 := by
      by_contra held
      have live := counts.live address (Nat.pos_of_ne_zero held)
      rw [stored] at live
      cases live
    have same : number address - 1 = number address := by omega
    rw [same, Function.update_eq_self]
    exact counts
  | some hdl =>
    have exact : hdl.refCnt.toNat = number address := counts.exact address hdl stored
    by_cases shared : hdl.refCnt > 1
    · simp only [if_pos shared]
      rw [← exact, ← toNat_pred shared]
      exact counts.modify stored fun hdl => { hdl with refCnt := hdl.refCnt - 1 }
    · simp only [if_neg shared]
      apply counts.free
      have one : (1 : UInt16).toNat = 1 := rfl
      rw [gt_iff_lt, UInt16.lt_iff_toNat_lt] at shared
      omega

theorem dpiPolicyHdlDestroy_unheld (counts : CountsExactly heap number)
    (unheld : number address = 0) :
    CountsExactly (dpiPolicyHdlDestroy heap address) number := by
  have destroyed : CountsExactly (dpiPolicyHdlDestroy heap address)
      (Function.update number address (number address - 1)) :=
    dpiPolicyHdlDestroy_counts counts
  have same : number address - 1 = number address := by omega
  rw [same, Function.update_eq_self] at destroyed
  exact destroyed

theorem update_eq_counted {number : Nat → Nat} {address value : Nat}
    (counted : Nat → Nat → Nat) (here : value = counted (number address) 1)
    (elsewhere : ∀ count, counted count 0 = count) :
    Function.update number address value = fun other =>
      counted (number other) (if some address = some other then 1 else 0) := by
  funext other
  by_cases same : other = address
  · subst same
    rw [Function.update_self, if_pos rfl, here]
  · have different : some address ≠ some other := fun equal => same (Option.some.inj equal).symm
    rw [Function.update_of_ne same, if_neg different, elsewhere]

theorem dpPolicyDestroy_counts (counts : CountsExactly heap number) (old : Option Nat) :
    CountsExactly (dpPolicyDestroy heap old) fun address =>
      number address - if old = some address then 1 else 0 := by
  cases old with
  | none => exact counts
  | some address =>
    have destroyed : CountsExactly (dpiPolicyHdlDestroy heap address)
        (Function.update number address (number address - 1)) :=
      dpiPolicyHdlDestroy_counts counts
    rw [update_eq_counted (· - ·) rfl Nat.sub_zero] at destroyed
    exact destroyed

end Release

variable (macs : List EtherAddr)

section Update

variable {state : PolicyState} {mac : EtherAddr}

def takeHdl (heap : Heap PolicyHdl) : Option Nat → Heap PolicyHdl
  | none => heap
  | some address => heap.modify address fun hdl => { hdl with refCnt := hdl.refCnt + 1 }

/-- The update of an endpoint in its three steps: take the new handle, point
to it, and release the old one. -/
theorem dpiPolicyUpdate_eq {endpoint : Endpoint} (hdl : Option Nat)
    (found : state.epMap mac = some endpoint) :
    ∃ ver, dpiPolicyUpdate state mac hdl =
      { state with
        heap := dpPolicyDestroy (takeHdl state.heap hdl) endpoint.policyHdl
        epMap := Function.update state.epMap mac
          (some { policyHdl := hdl, policyVer := ver }) } := by
  unfold dpiPolicyUpdate
  rw [found]
  cases hdl <;> exact ⟨_, rfl⟩

/-- A handle that is live can be taken as long as its count does not wrap. -/
def Takeable (state : PolicyState) (hdl : Option Nat) (room : Nat) : Prop :=
  ∀ address, hdl = some address →
    (state.heap.cells address).isSome ∧ references state address + room < 65536

section

variable {hdl : Option Nat} {room : Nat} (counts : CountsExactly state.heap (references state))
  (takeable : Takeable state hdl (room + 1))
include counts takeable

theorem takeHdl_counts :
    CountsExactly (takeHdl state.heap hdl) fun address =>
      references state address + if hdl = some address then 1 else 0 := by
  cases hdl with
  | none => exact counts
  | some address =>
    obtain ⟨live, small⟩ := takeable address rfl
    obtain ⟨value, stored⟩ := Option.isSome_iff_exists.mp live
    have exact : value.refCnt.toNat = references state address := counts.exact address value stored
    have grows : (value.refCnt + 1).toNat = value.refCnt.toNat + 1 :=
      toNat_succ (Nat.le_of_eq exact) (by omega)
    have raised : CountsExactly (takeHdl state.heap (some address))
        (Function.update (references state) address (value.refCnt + 1).toNat) :=
      counts.modify stored fun hdl => { hdl with refCnt := hdl.refCnt + 1 }
    rw [update_eq_counted (· + ·) (by rw [grows, exact]) Nat.add_zero] at raised
    exact raised

theorem dpiPolicyUpdate_counts (mac : EtherAddr) :
    CountsExactly (dpiPolicyUpdate state mac hdl).heap
        (references (dpiPolicyUpdate state mac hdl)) ∧
      Takeable (dpiPolicyUpdate state mac hdl) hdl room := by
  have := finite_etherAddr
  cases found : state.epMap mac with
  | none =>
    have unchanged : dpiPolicyUpdate state mac hdl = state := by
      unfold dpiPolicyUpdate
      rw [found]
    rw [unchanged]
    refine ⟨counts, fun address same => ?_⟩
    obtain ⟨live, small⟩ := takeable address same
    exact ⟨live, by omega⟩
  | some endpoint =>
    have pointed : policyHdlOf state.epMap mac = endpoint.policyHdl := by
      unfold policyHdlOf
      rw [found]
      rfl
    obtain ⟨ver, updated⟩ := dpiPolicyUpdate_eq hdl found
    have moved : ∀ address, references (dpiPolicyUpdate state mac hdl) address +
            (if endpoint.policyHdl = some address then 1 else 0) =
          references state address + (if hdl = some address then 1 else 0) := by
      intro address
      have change := RefCount.holders_update (policyHdlOf state.epMap) mac hdl address
      rw [pointed] at change
      unfold references
      rw [updated, policyHdlOf_update]
      exact change
    have released := dpPolicyDestroy_counts (takeHdl_counts counts takeable) endpoint.policyHdl
    have counted : CountsExactly (dpiPolicyUpdate state mac hdl).heap
        (references (dpiPolicyUpdate state mac hdl)) := by
      have same : references (dpiPolicyUpdate state mac hdl) =
          fun address => references state address + (if hdl = some address then 1 else 0) -
            (if endpoint.policyHdl = some address then 1 else 0) := by
        funext address
        have change := moved address
        omega
      rw [same, updated]
      exact released
    refine ⟨counted, fun address same => ?_⟩
    obtain ⟨_, small⟩ := takeable address same
    have change := moved address
    rw [if_pos same] at change
    constructor
    · apply counted.live
      apply RefCount.holders_pos_iff.mpr
      refine ⟨mac, ?_⟩
      rw [updated, policyHdlOf_update, Function.update_self]
      exact same
    · omega

end

theorem updateMacs_counts {hdl : Option Nat} {state : PolicyState}
    (counts : CountsExactly state.heap (references state))
    (takeable : Takeable state hdl macs.length) :
    CountsExactly (updateMacs hdl macs state).heap (references (updateMacs hdl macs state)) ∧
    Takeable (updateMacs hdl macs state) hdl 0 := by
  induction macs generalizing state with
  | nil => exact ⟨counts, takeable⟩
  | cons mac rest induction =>
    obtain ⟨next, room⟩ := dpiPolicyUpdate_counts counts takeable mac
    exact induction next room

end Update

section Steps

variable {state : PolicyState}

section

variable (counted : Counted state)
include counted

theorem dropHdl_counted : Counted (dropHdl state) := by
  unfold dropHdl
  cases building : state.hdl with
  | none => exact counted
  | some address =>
    obtain ⟨_, unheld⟩ := counted.building address building
    constructor
    · exact dpiPolicyHdlDestroy_unheld counted.counts unheld
    · intro other same
      cases same

theorem startHdl_counted (policy : Policy) : Counted (startHdl state policy) where
  counts := counted.counts.alloc rfl
  building := by
    intro address same
    cases same
    have started := state.heap.alloc_cells_next
      (dpiPolicyHdlInit policy.defAction policy.applyDir (getNewPolicyVer state.policyVer))
    refine ⟨Option.isSome_of_eq_some started, ?_⟩
    by_contra held
    have live := counted.counts.live state.heap.next (Nat.pos_of_ne_zero held)
    rw [state.heap.fresh state.heap.next (Nat.le_refl _)] at live
    cases live

theorem loadRules_counted (ctx : IpContext) (policy : Policy) (flag : UInt32) :
    Counted (loadRules ctx state policy flag) := by
  unfold loadRules
  cases building : state.hdl with
  | none => exact counted
  | some address =>
    cases stored : state.heap.cells address with
    | none =>
      simp only [stored]
      exact counted
    | some hdl =>
      simp only [stored]
      obtain ⟨_, unheld⟩ := counted.building address building
      have loaded := cfgRules_header ctx policy.ruleList hdl state.order
      have finished := dpiAddDefaultPolicy_header ctx
        (cfgRules ctx policy.ruleList (hdl, state.order)).1
      have kept : ∀ built : PolicyHdl, built.header = hdl.header →
          CountsExactly (state.heap.modify address fun _ => built) (references state) := by
        intro built same
        have count : built.count = references state address := by
          rw [← counted.counts.exact address hdl stored]
          exact congrArg (fun header => header.refCnt.toNat) same
        have changed := counted.counts.modify stored fun _ => built
        rw [count, Function.update_eq_self] at changed
        exact changed
      constructor
      · apply kept
        split
        · exact finished.trans loaded
        · exact loaded
      · intro other same
        have here : address = other := Option.some.inj same
        subst here
        refine ⟨?_, unheld⟩
        rw [Heap.modify_cells_self, stored]
        rfl

theorem finishHdl_counted (policy : Policy) (few : policy.macList.length ≤ 65535) :
    Counted (finishHdl state policy) := by
  have takeable : Takeable state state.hdl policy.macList.length := by
    intro address building
    obtain ⟨live, unheld⟩ := counted.building address building
    exact ⟨live, by omega⟩
  obtain ⟨counts, live⟩ := updateMacs_counts policy.macList counted.counts takeable
  have sameHdl := updateMacs_hdl state.hdl policy.macList state
  refine ⟨?_, fun address same => by cases same⟩
  unfold finishHdl
  simp only [sameHdl]
  cases building : state.hdl with
  | none =>
    rw [building] at counts
    exact counts
  | some address =>
    rw [building] at counts live
    obtain ⟨present, _⟩ := live address rfl
    obtain ⟨hdl, stored⟩ := Option.isSome_iff_exists.mp present
    simp only [stored]
    split
    next unused =>
      apply dpiPolicyHdlDestroy_unheld counts
      rw [← counts.exact address hdl stored]
      exact congrArg UInt16.toNat unused
    · exact counts

theorem dpiPolicyCfg_counted (ctx : IpContext) (cmd : CfgCmd) (policy : Policy)
    (flag : UInt32) (few : policy.macList.length ≤ 65535) :
    Counted (dpiPolicyCfg ctx state cmd policy flag).1 :=
  dpiPolicyCfg_keeps dropHdl_counted (fun counted => ⟨counted.counts, counted.building⟩)
    (fun counted => startHdl_counted counted policy)
    (fun counted => loadRules_counted counted ctx policy flag)
    (fun counted => finishHdl_counted counted policy few) counted

theorem dpCtrlAddMac_counted (mac : EtherAddr) : Counted (dpCtrlAddMac state mac) := by
  unfold dpCtrlAddMac
  cases found : state.epMap mac with
  | some endpoint => exact counted
  | none =>
    have pointed : policyHdlOf state.epMap mac = none := by
      unfold policyHdlOf
      rw [found]
      rfl
    have updated : policyHdlOf (Function.update state.epMap mac
        (some { policyHdl := none, policyVer := 0 })) = policyHdlOf state.epMap := by
      rw [policyHdlOf_update]
      exact Function.update_eq_self_iff.mpr pointed.symm
    constructor
    · simpa only [references, updated] using counted.counts
    · simpa only [references, updated] using counted.building

theorem dpCtrlDelMac_counted (mac : EtherAddr) : Counted (dpCtrlDelMac state mac) := by
  have := finite_etherAddr
  unfold dpCtrlDelMac
  cases found : state.epMap mac with
  | none => exact counted
  | some endpoint =>
    have pointed : policyHdlOf state.epMap mac = endpoint.policyHdl := by
      unfold policyHdlOf
      rw [found]
      rfl
    have after : RefCount.holders (policyHdlOf (Function.update state.epMap mac none)) =
        fun address => references state address -
          if endpoint.policyHdl = some address then 1 else 0 := by
      funext address
      have change := RefCount.holders_update (policyHdlOf state.epMap) mac none address
      rw [pointed, if_neg (show none ≠ some address by simp)] at change
      have updated : policyHdlOf (Function.update state.epMap mac none) =
          Function.update (policyHdlOf state.epMap) mac none :=
        policyHdlOf_update state.epMap mac none
      rw [updated]
      unfold references
      omega
    have released := dpPolicyDestroy_counts counted.counts endpoint.policyHdl
    rw [← after] at released
    refine ⟨released, ?_⟩
    intro address building
    obtain ⟨live, unheld⟩ := counted.building address building
    have lower : RefCount.holders (policyHdlOf (Function.update state.epMap mac none)) address =
        0 := by
      rw [after]
      change references state address - _ = 0
      omega
    refine ⟨?_, lower⟩
    change ((dpPolicyDestroy state.heap endpoint.policyHdl).cells address).isSome = true
    have different : endpoint.policyHdl ≠ some address := by
      intro held
      have positive : 0 < references state address :=
        RefCount.holders_pos_iff.mpr ⟨mac, pointed.trans held⟩
      omega
    cases old : endpoint.policyHdl with
    | none => exact live
    | some other =>
      have apart : address ≠ other := by
        intro same
        exact different (old.trans (congrArg some same.symm))
      change ((dpiPolicyHdlDestroy state.heap other).cells address).isSome = true
      rw [dpiPolicyHdlDestroy_of_ne state.heap apart]
      exact live

end

end Steps

/-- The message of an event lists at most as many MACs as sixteen bits can
count. -/
def FewMacs : PolicyEvent → Prop
  | .config _ message => message.policy.macList.length ≤ 65535
  | _ => True

variable {state : PolicyState}

theorem policyStep_counted {event : PolicyEvent} (counted : Counted state)
    (few : FewMacs event) : Counted (policyStep state event) := by
  cases event with
  | config ctx message => exact dpiPolicyCfg_counted counted ctx _ _ _ few
  | addMac mac => exact dpCtrlAddMac_counted counted mac
  | delMac mac => exact dpCtrlDelMac_counted counted mac

theorem policyRun_counted {events : List PolicyEvent} (counted : Counted state)
    (few : ∀ event ∈ events, FewMacs event) :
    Counted (policyRun state events) := by
  apply foldlRecOn events policyStep counted
  intro state counted event member
  exact policyStep_counted counted (few event member)

/-- Every live handle counts the endpoints that point to it, and every handle
an endpoint points to is live. -/
theorem policy_handles_counted {events : List PolicyEvent} (few : ∀ event ∈ events, FewMacs event) :
    (∀ address hdl, (policyRun .init events).heap.cells address = some hdl →
      hdl.refCnt.toNat = {mac | policyHdlOf (policyRun .init events).epMap
        mac = some address}.ncard) ∧
    ∀ mac address, policyHdlOf (policyRun .init events).epMap mac = some address →
      ((policyRun .init events).heap.cells address).isSome := by
  have := finite_etherAddr
  have counted := policyRun_counted counted_init few
  constructor
  · intro address hdl stored
    exact counted.counts.exact address hdl stored
  · intro mac address held
    apply counted.counts.live
    exact RefCount.holders_pos_iff.mpr ⟨mac, held⟩

def plainContext : IpContext :=
  { isIp4Internal := fun _ => false
    ip4Iptype := fun _ => .none
    fqdnCodes := fun _ => []
    configFqdnIpv4Mapping := fun _ _ => none }

def emptyPolicyMsg : PolicyMsg :=
  { cmd := .add
    policy :=
      { macList := macs, defAction := .actionDeny, applyDir := 0, ruleList := [] }
    flag := sliceFlag true true }

theorem policy_handles_counted_repeated :
    ((policyRun .init [.addMac 1, .addMac 2, .config plainContext (emptyPolicyMsg [1, 2, 1]),
      .delMac 2]).heap.cells 0).isSome = true :=
  (@policy_handles_counted [.addMac 1, .addMac 2,
      .config plainContext (emptyPolicyMsg [1, 2, 1]), .delMac 2]
    (by simp [FewMacs, emptyPolicyMsg])).2 1 0 rfl

section Wrapping

def Bare (state : PolicyState) (mac : EtherAddr) : Prop :=
  state.epMap mac = some { policyHdl := none, policyVer := 0 }

theorem updateMacs_bare {address : Nat} {macs : List EtherAddr}
    {hdl : PolicyHdl} (distinct : macs.Nodup) (bare : ∀ mac ∈ macs, Bare state mac)
    (stored : state.heap.cells address = some hdl) :
    (updateMacs (some address) macs state).heap.cells address =
      some { hdl with refCnt := hdl.refCnt + UInt16.ofNat macs.length } := by
  induction macs generalizing state hdl with
  | nil =>
    change state.heap.cells address = _
    rw [stored]
    simp
  | cons mac rest induction =>
    obtain ⟨fresh, restDistinct⟩ := nodup_cons.mp distinct
    have here := bare mac mem_cons_self
    have taken : (dpiPolicyUpdate state mac (some address)).heap.cells
        address = some { hdl with refCnt := hdl.refCnt + 1 } := by
      obtain ⟨ver, updated⟩ := dpiPolicyUpdate_eq (some address) here
      rw [updated]
      change (state.heap.modify address _).cells address = _
      rw [Heap.modify_cells_self, stored]
      rfl
    have later : ∀ other ∈ rest, Bare (dpiPolicyUpdate state mac (some address)) other := by
      intro other member
      have different : other ≠ mac := fun same => fresh (same ▸ member)
      unfold Bare
      rw [dpiPolicyUpdate_epMap_of_ne (some address) different]
      exact bare other (mem_cons_of_mem _ member)
    have counted := induction restDistinct later taken
    have sum : hdl.refCnt + 1 + UInt16.ofNat rest.length =
        hdl.refCnt + UInt16.ofNat (mac :: rest).length := by
      rw [length_cons, UInt16.ofNat_add, UInt16.add_assoc, UInt16.add_comm 1]
      rfl
    rw [sum] at counted
    exact counted

theorem loadRules_hdl (ctx : IpContext) (state : PolicyState) (policy : Policy) (flag : UInt32) :
    (loadRules ctx state policy flag).hdl = state.hdl := by
  unfold loadRules
  split
  · rfl
  · split <;> rfl

theorem finishHdl_wraps {policy : Policy} {address : Nat} {hdl : PolicyHdl}
    (building : state.hdl = some address)
    (stored : state.heap.cells address = some hdl) (unused : hdl.refCnt = 0)
    (distinct : policy.macList.Nodup) (bare : ∀ mac ∈ policy.macList, Bare state mac)
    (many : policy.macList.length = 65536) :
    (finishHdl state policy).heap.cells address = none ∧ ∀ mac ∈ policy.macList,
        policyHdlOf (finishHdl state policy).epMap mac = some address := by
  have counted := updateMacs_bare distinct bare stored
  have wrapped : hdl.refCnt + UInt16.ofNat policy.macList.length = 0 := by
    rw [unused, many]
    rfl
  rw [wrapped] at counted
  have sameHdl := updateMacs_hdl state.hdl policy.macList state
  rw [building] at sameHdl
  constructor
  · unfold finishHdl
    simp only [building, sameHdl, counted, if_true]
    unfold dpiPolicyHdlDestroy
    rw [counted]
    simp only
    rw [if_neg (by decide), Heap.free_cells_self]
  · intro mac listed
    have present : (state.epMap mac).isSome = true := Option.isSome_of_eq_some (bare mac listed)
    have holds := updateMacs_listed address listed present
    obtain ⟨endpoint, found, held⟩ := Option.map_eq_some_iff.mp holds
    change policyHdlOf (updateMacs state.hdl policy.macList state).epMap mac = some address
    rw [building]
    unfold policyHdlOf
    rw [found]
    exact held

theorem policyRun_addMacs {state : PolicyState}
    (plain : ∀ mac, state.epMap mac = none ∨ Bare state mac) {mac : EtherAddr}
    (known : mac ∈ macs ∨ Bare state mac) :
    Bare (policyRun state (macs.map .addMac)) mac := by
  induction macs generalizing state with
  | nil =>
    rcases known with listed | bare
    · cases listed
    · exact bare
  | cons first rest induction =>
    have others : ∀ other, other ≠ first →
        (dpCtrlAddMac state first).epMap other = state.epMap other := by
      intro other different
      unfold dpCtrlAddMac
      split
      · rfl
      · exact Function.update_of_ne different ..
    have added : Bare (dpCtrlAddMac state first) first := by
      unfold dpCtrlAddMac Bare
      rcases plain first with missing | bare
      · rw [missing]
        exact Function.update_self ..
      · rw [bare]
        exact bare
    apply @induction (dpCtrlAddMac state first)
    · intro other
      by_cases same : other = first
      · exact Or.inr (same ▸ added)
      · rw [Bare, others other same]
        exact plain other
    · by_cases same : mac = first
      · exact Or.inr (same ▸ added)
      · rw [Bare, others mac same]
        exact known.imp_left fun listed => (mem_cons.mp listed).resolve_left same

theorem crowd_loses_handle {macs : List EtherAddr} (distinct : macs.Nodup)
    (many : macs.length = 65536) {mac : EtherAddr} (member : mac ∈ macs) :
    ∃ address, policyHdlOf (policyRun .init (macs.map .addMac ++
        [.config plainContext (emptyPolicyMsg macs)])).epMap mac = some address ∧
      (policyRun .init (macs.map .addMac ++
        [.config plainContext (emptyPolicyMsg macs)])).heap.cells address = none := by
  have few : ∀ event ∈ macs.map PolicyEvent.addMac, FewMacs event := by
    intro event listed
    obtain ⟨_, _, rfl⟩ := mem_map.mp listed
    trivial
  have bare : ∀ mac ∈ macs, Bare (policyRun .init (macs.map .addMac)) mac := fun _ listed =>
    policyRun_addMacs macs (fun _ => Or.inl rfl) (Or.inl listed)
  have counted := policyRun_counted counted_init few
  have last : policyRun .init (macs.map .addMac ++ [.config plainContext (emptyPolicyMsg macs)]) =
      policyStep (policyRun .init (macs.map .addMac))
        (.config plainContext (emptyPolicyMsg macs)) := by
    unfold policyRun
    rw [foldl_append]
    rfl
  rw [last]
  generalize policyRun .init (macs.map .addMac) = state at bare counted
  let policy := (emptyPolicyMsg macs).policy
  let loaded := loadRules plainContext (startHdl (dropHdl state) policy)
    policy (sliceFlag true true)
  have started := startHdl_counted (dropHdl_counted counted) policy
  have loadedCounted : Counted loaded := loadRules_counted started
    plainContext policy (sliceFlag true true)
  have building : loaded.hdl = some (dropHdl state).heap.next := loadRules_hdl ..
  obtain ⟨live, unheld⟩ := loadedCounted.building _ building
  obtain ⟨hdl, stored⟩ := Option.isSome_iff_exists.mp live
  have unused : hdl.refCnt = 0 := by
    apply UInt16.toNat_inj.mp
    exact (loadedCounted.counts.exact _ hdl stored).trans unheld
  have endpoints : loaded.epMap = state.epMap := (loadRules_epMap ..).trans (dropHdl_epMap state)
  have listed : ∀ other ∈ policy.macList, Bare loaded other := by
    intro other inside
    unfold Bare
    rw [endpoints]
    exact bare other inside
  obtain ⟨freed, pointing⟩ := finishHdl_wraps building stored unused distinct listed many
  have configured : policyStep state (.config plainContext (emptyPolicyMsg macs)) =
        finishHdl loaded policy :=
    @dpiPolicyCfg_slice state policy .add plainContext (by decide) true true (Or.inl rfl)
  rw [configured]
  exact ⟨_, pointing mac member, freed⟩

/-- As many endpoints as make the count of a handle wrap. -/
def crowd : List EtherAddr := (List.range 65536).map (BitVec.ofNat 48)

theorem crowd_nodup : crowd.Nodup := by
  apply List.Nodup.map_on
  · intro one oneMember other otherMember same
    have oneSmall := mem_range.mp oneMember
    have otherSmall := mem_range.mp otherMember
    have values := congrArg BitVec.toNat same
    rw [BitVec.toNat_ofNat, BitVec.toNat_ofNat] at values
    omega
  · exact nodup_range

/-- A handle given to 65536 endpoints is destroyed, although they all point
to it. -/
theorem policy_handle_destroyed_in_use :
    ∃ events mac address, policyHdlOf (policyRun .init events).epMap mac = some address ∧
        (policyRun .init events).heap.cells address = none := by
  have many : crowd.length = 65536 := by
    unfold crowd
    rw [length_map, length_range]
  have member : BitVec.ofNat 48 0 ∈ crowd := by
    exact mem_map_of_mem (mem_range.mpr (Nat.zero_lt_succ _))
  obtain ⟨address, pointing, freed⟩ := crowd_loses_handle crowd_nodup many member
  exact ⟨_, _, address, pointing, freed⟩

end Wrapping

end NeuVector.DataPath
