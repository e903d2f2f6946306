import NeuVector.DataPath.PolicyRefinement

/-!
# A policy delivered in several messages

The messages of one policy carry consecutive slices of its rule list, the
first one the start flag and the last one the end flag.  Whatever the cut,
every listed endpoint that exists receives a handle built from the complete
list, in a state reached by any earlier messages.
-/

namespace NeuVector.DataPath

open Library

structure PolicyMsg where
  cmd : CfgCmd
  policy : Policy
  flag : UInt32
  deriving DecidableEq

/-- The data path after a sequence of messages; the return code of a message
is not reported back. -/
def runMessages (ctx : IpContext) (messages : List PolicyMsg) (state : PolicyState) : PolicyState :=
  messages.foldl (fun state message =>
      (dpiPolicyCfg ctx state message.cmd message.policy message.flag).1)
    state

def installedHdl (state : PolicyState) (mac : EtherAddr) : Option PolicyHdl :=
  ((state.epMap mac).bind Endpoint.policyHdl).bind state.heap.cells

variable (first last : Bool)

def sliceFlag : UInt32 := (if first then msgStart else 0) ||| (if last then msgEnd else 0)

theorem hasStart_sliceFlag : hasStart (sliceFlag first last) = first := by
  cases first <;> cases last <;> decide

theorem hasEnd_sliceFlag : hasEnd (sliceFlag first last) = last := by
  cases first <;> cases last <;> decide

/-- The messages of consecutive slices of a rule list. -/
def sliceMessages (cmd : CfgCmd) (policy : Policy) (first : Bool) :
    List (List PolicyRule) → List PolicyMsg
  | [] => []
  | slice :: rest =>
    { cmd := cmd
      policy := { policy with ruleList := slice }
      flag := sliceFlag first rest.isEmpty } ::
    sliceMessages cmd policy false rest

variable {state : PolicyState} {mac : EtherAddr} {address : Nat}
  (ctx : IpContext) {policy : Policy} {cmd : CfgCmd}

/-- What every part of a message keeps is kept by the message. -/
theorem dpiPolicyCfg_keeps {ctx : IpContext} {flag : UInt32} {kept : PolicyState → Prop}
    (drop : ∀ {state}, kept state → kept (dropHdl state))
    (reorder : ∀ {state}, kept state → kept { state with order := 0 })
    (start : ∀ {state}, kept state → kept (startHdl state policy))
    (load : ∀ {state}, kept state → kept (loadRules ctx state policy flag))
    (finish : ∀ {state}, kept state → kept (finishHdl state policy)) (before : kept state) :
    kept (dpiPolicyCfg ctx state cmd policy flag).1 := by
  have applied : ∀ {state}, kept state → kept (applyCommand ctx state cmd policy flag) := by
    intro state before
    have started : kept (if hasStart flag then startHdl state policy else state) := by
      split
      · exact start before
      · exact before
    cases cmd with
    | add | modify => exact load started
    | delete =>
      unfold applyCommand
      simp only
      split
      · exact before
      · exact reorder (drop before)
  have dropped : kept (if hasStart flag then dropHdl state else state) := by
    split
    · exact drop before
    · exact before
  unfold dpiPolicyCfg
  split
  · exact before
  · simp only
    split
    · exact finish (applied dropped)
    · exact applied dropped

theorem cfgRules_append (first second : List PolicyRule) (start : PolicyHdl × UInt32) :
    cfgRules ctx (first ++ second) start = cfgRules ctx second (cfgRules ctx first start) := by
  induction first generalizing start with
  | nil => rfl
  | cons rule rest induction => exact induction _

/-- Every handle an endpoint or the configuration refers to was allocated. -/
structure ValidState (state : PolicyState) : Prop where
  endpoints : ∀ mac endpoint address, state.epMap mac = some endpoint →
    endpoint.policyHdl = some address → address < state.heap.next
  current : ∀ address, state.hdl = some address → address < state.heap.next

theorem dpiPolicyHdlDestroy_next (heap : Heap PolicyHdl) (address : Nat) :
    (dpiPolicyHdlDestroy heap address).next = heap.next := by
  unfold dpiPolicyHdlDestroy
  split
  · rfl
  · split <;> rfl

theorem dpiPolicyHdlDestroy_of_ne (heap : Heap PolicyHdl) {other : Nat}
    (different : other ≠ address) :
    (dpiPolicyHdlDestroy heap address).cells other = heap.cells other := by
  unfold dpiPolicyHdlDestroy
  split
  · rfl
  · split
    · exact heap.modify_cells_of_ne _ different
    · exact heap.free_cells_of_ne different

section Update

variable {state : PolicyState} {mac : EtherAddr}
variable (hdl : Option Nat)

theorem dpiPolicyUpdate_hdl : (dpiPolicyUpdate state mac hdl).hdl = state.hdl := by
  unfold dpiPolicyUpdate
  split <;> rfl

theorem dpiPolicyUpdate_epMap_of_ne {other : EtherAddr} (different : other ≠ mac) :
    (dpiPolicyUpdate state mac hdl).epMap other = state.epMap other := by
  unfold dpiPolicyUpdate
  split
  · rfl
  · exact Function.update_of_ne different ..

theorem dpiPolicyUpdate_endpoint (state : PolicyState) (mac : EtherAddr) (hdl : Option Nat) :
    ((dpiPolicyUpdate state mac hdl).epMap mac).map Endpoint.policyHdl =
      (state.epMap mac).map fun _ => hdl := by
  unfold dpiPolicyUpdate
  cases found : state.epMap mac with
  | none => simp [found]
  | some endpoint => simp

theorem dpiPolicyUpdate_points {endpoint : Endpoint}
    (found : (dpiPolicyUpdate state mac hdl).epMap mac = some endpoint) :
    endpoint.policyHdl = hdl := by
  have updated := dpiPolicyUpdate_endpoint state mac hdl
  rw [found] at updated
  obtain ⟨_, _, same⟩ := Option.map_eq_some_iff.mp updated.symm
  exact same.symm

end Update

variable (hdl : Option Nat)

theorem updateMacs_hdl (macs : List EtherAddr) (state : PolicyState) :
    (updateMacs hdl macs state).hdl = state.hdl := by
  induction macs generalizing state with
  | nil => rfl
  | cons mac rest induction => exact (induction _).trans (dpiPolicyUpdate_hdl hdl)

theorem dropHdl_valid (valid : ValidState state) : ValidState (dropHdl state) := by
  unfold dropHdl
  split
  · exact valid
  · refine ⟨?_, ?_⟩
    · intro mac endpoint address found held
      rw [dpiPolicyHdlDestroy_next]
      exact valid.endpoints mac endpoint address found held
    · intro address held
      simp at held

/-- The handle at an address, whatever its reference count, where the count
is positive as soon as an endpoint holds it. -/
structure Holding (built : PolicyHdl) (address count : Nat) (state : PolicyState) : Prop where
  cell : ∃ refCnt : UInt16,
    state.heap.cells address = some { built with refCnt := refCnt } ∧ refCnt.toNat ≤ count ∧
      ∀ mac endpoint, state.epMap mac = some endpoint →
        endpoint.policyHdl = some address → 0 < refCnt.toNat

variable {count : Nat}

theorem toNat_succ {refCnt : UInt16} (bound : refCnt.toNat ≤ count)
    (small : count + 1 < 65536) : (refCnt + 1).toNat = refCnt.toNat + 1 := by
  rw [UInt16.toNat_add]
  have one : (1 : UInt16).toNat = 1 := rfl
  exact Nat.mod_eq_of_lt (by omega)

theorem dpiPolicyHdlDestroy_shared {heap : Heap PolicyHdl} {hdl : PolicyHdl}
    {refCnt : UInt16} (stored : heap.cells address = some { hdl with refCnt := refCnt + 1 })
    (grows : (refCnt + 1).toNat = refCnt.toNat + 1) (positive : 0 < refCnt.toNat) :
    (dpiPolicyHdlDestroy heap address).cells address = some { hdl with refCnt := refCnt } := by
  unfold dpiPolicyHdlDestroy
  have shared : refCnt + 1 > 1 := by
    rw [gt_iff_lt, UInt16.lt_iff_toNat_lt]
    have one : (1 : UInt16).toNat = 1 := rfl
    omega
  simp only [if_pos shared, Heap.modify_cells_self, stored, Option.map_some]
  simp

theorem dpiPolicyUpdate_holding {built : PolicyHdl}
    (holding : Holding built address count state) (small : count + 1 < 65536) (mac : EtherAddr) :
    Holding built address (count + 1) (dpiPolicyUpdate state mac (some address)) := by
  obtain ⟨refCnt, stored, bound, positive⟩ := holding.cell
  have grows := toNat_succ bound small
  cases present : state.epMap mac with
  | none =>
    have unchanged : dpiPolicyUpdate state mac (some address) = state := by
      unfold dpiPolicyUpdate
      rw [present]
    rw [unchanged]
    exact ⟨refCnt, stored, by omega, positive⟩
  | some endpoint =>
    have raised : (state.heap.modify address fun hdl =>
        { hdl with refCnt := hdl.refCnt + 1 }).cells address =
        some { built with refCnt := refCnt + 1 } := by
      rw [Heap.modify_cells_self, stored]
      rfl
    by_cases again : endpoint.policyHdl = some address
    · have held := positive mac endpoint present again
      refine ⟨refCnt, ?_, by omega, fun _ _ _ _ => held⟩
      unfold dpiPolicyUpdate
      simp only [present, again]
      exact dpiPolicyHdlDestroy_shared raised grows held
    · refine ⟨refCnt + 1, ?_, by omega, fun _ _ _ _ => by omega⟩
      unfold dpiPolicyUpdate
      simp only [present]
      cases old : endpoint.policyHdl with
      | none => exact raised
      | some other =>
        have different : address ≠ other := by
          intro same
          rw [same] at again
          exact again old
        rw [dpiPolicyHdlDestroy_of_ne _ different]
        exact raised

def Holds (state : PolicyState) (mac : EtherAddr) (address : Nat) : Prop :=
  (state.epMap mac).map Endpoint.policyHdl = some (some address)

theorem dpiPolicyUpdate_present (other : EtherAddr) :
    ((dpiPolicyUpdate state other hdl).epMap mac).isSome = (state.epMap mac).isSome := by
  by_cases same : mac = other
  · subst same
    have updated := congrArg Option.isSome (dpiPolicyUpdate_endpoint state mac hdl)
    simpa using updated
  · rw [dpiPolicyUpdate_epMap_of_ne _ same]

theorem updateMacs_present (macs : List EtherAddr) :
    ((updateMacs hdl macs state).epMap mac).isSome = (state.epMap mac).isSome := by
  induction macs generalizing state with
  | nil => rfl
  | cons other rest induction => exact induction.trans (dpiPolicyUpdate_present hdl other)

theorem updateMacs_points {macs : List EtherAddr} {endpoint : Endpoint}
    (points : mac ∈ macs ∨ ∀ endpoint, state.epMap mac = some endpoint → endpoint.policyHdl = hdl)
    (found : (updateMacs hdl macs state).epMap mac = some endpoint) :
    endpoint.policyHdl = hdl := by
  induction macs generalizing state with
  | nil =>
    rcases points with listed | before
    · cases listed
    · exact before endpoint found
  | cons other rest induction =>
    apply induction _ found
    by_cases same : mac = other
    · subst same
      exact Or.inr fun endpoint stored => dpiPolicyUpdate_points hdl stored
    · rw [dpiPolicyUpdate_epMap_of_ne _ same]
      exact points.imp_left fun listed => (List.mem_cons.mp listed).resolve_left same

theorem updateMacs_holding {built : PolicyHdl}
    (holding : Holding built address count state) (macs : List EtherAddr)
    (small : count + macs.length < 65536) :
    Holding built address (count + macs.length) (updateMacs (some address) macs state) := by
  induction macs generalizing state count with
  | nil => exact holding
  | cons mac rest induction =>
    simp only [List.length_cons] at small ⊢
    have head := dpiPolicyUpdate_holding holding (by omega) mac
    have tail := induction head (by omega)
    have total : count + 1 + rest.length = count + (rest.length + 1) := by omega
    rw [total] at tail
    exact tail

theorem updateMacs_listed (address : Nat) {macs : List EtherAddr}
    (listed : mac ∈ macs) (present : (state.epMap mac).isSome = true) :
    Holds (updateMacs (some address) macs state) mac address := by
  have stays := (updateMacs_present (some address) macs).trans present
  obtain ⟨endpoint, found⟩ := Option.isSome_iff_exists.mp stays
  unfold Holds
  rw [found, Option.map_some, updateMacs_points (some address) (Or.inl listed) found]

/-- The static variables hold the handle built from the rules so far. -/
structure Building (ctx : IpContext) (start : PolicyHdl) (address : Nat)
    (rules : List PolicyRule) (state : PolicyState) : Prop where
  hdl : state.hdl = some address
  cell : state.heap.cells address = some (cfgRules ctx rules (start, 0)).1
  order : state.order = (cfgRules ctx rules (start, 0)).2
  unheld : ∀ mac endpoint, state.epMap mac = some endpoint → endpoint.policyHdl ≠ some address

section Construction

variable {ctx : IpContext} {start : PolicyHdl} {address : Nat}
  {rules : List PolicyRule} {state : PolicyState}

theorem startHdl_building (valid : ValidState state) (policy : Policy) :
    Building ctx
      (dpiPolicyHdlInit policy.defAction policy.applyDir (getNewPolicyVer state.policyVer))
      state.heap.next [] (startHdl state policy) where
  hdl := rfl
  cell := by
    unfold startHdl
    simp [cfgRules]
  order := rfl
  unheld := by
    intro mac endpoint found held
    have bound := valid.endpoints mac endpoint _ found held
    exact Nat.lt_irrefl _ bound

variable {flag : UInt32}

section

variable (building : Building ctx start address rules state)
include building

theorem Building.loadRules_eq (policy : Policy) (flag : UInt32) :
    let loaded := cfgRules ctx (rules ++ policy.ruleList) (start, 0)
    loadRules ctx state policy flag =
      { state with
        order := loaded.2
        heap := state.heap.modify address fun _ =>
          if hasEnd flag then dpiAddDefaultPolicy ctx loaded.1 else loaded.1 } := by
  unfold loadRules
  simp only [building.hdl, building.cell, building.order, cfgRules_append]

theorem Building.load (policy : Policy) (notLast : hasEnd flag = false) :
    Building ctx start address (rules ++ policy.ruleList) (loadRules ctx state policy flag) := by
  rw [building.loadRules_eq, notLast]
  refine ⟨building.hdl, ?_, rfl, building.unheld⟩
  simp [building.cell]

theorem Building.finish (unused : start.refCnt = 0) (policy : Policy)
    (last : hasEnd flag = true) (few : policy.macList.length < 65536)
    {mac : EtherAddr} (listed : mac ∈ policy.macList) (present : (state.epMap mac).isSome = true) :
    ∃ refCnt, installedHdl (finishHdl (loadRules ctx state policy flag) policy) mac =
        some { dpiAddDefaultPolicy ctx
          (cfgRules ctx (rules ++ policy.ruleList) (start, 0)).1 with
          refCnt := refCnt } := by
  let built := dpiAddDefaultPolicy ctx (cfgRules ctx (rules ++ policy.ruleList) (start, 0)).1
  have headers : built.header = start.header := (dpiAddDefaultPolicy_header ctx _).trans
      (cfgRules_header ctx (rules ++ policy.ruleList) start 0)
  have zeroCount : built.refCnt = 0 := (congrArg HdlHeader.refCnt headers).trans unused
  rw [building.loadRules_eq, last]
  let loaded : PolicyState :=
    { state with
      order := (cfgRules ctx (rules ++ policy.ruleList) (start, 0)).2
      heap := state.heap.modify address fun _ => built }
  have hdl : loaded.hdl = some address := building.hdl
  have holding : Holding built address 0 loaded := by
    refine ⟨built.refCnt, ?_, ?_, ?_⟩
    · change (state.heap.modify address fun _ => built).cells address = _
      simp [building.cell]
    · rw [zeroCount]
      exact Nat.le_refl 0
    · intro other endpoint found held
      exact absurd held (building.unheld other endpoint found)
  have shared := updateMacs_holding holding policy.macList (by omega)
  have holds := updateMacs_listed address listed
    (show (loaded.epMap mac).isSome = true from present)
  obtain ⟨refCnt, stored, _, positive⟩ := shared.cell
  have keeps : (updateMacs (some address) policy.macList loaded).hdl =
      some address := (updateMacs_hdl _ _ _).trans hdl
  obtain ⟨endpoint, found, held⟩ := Option.map_eq_some_iff.mp holds
  have used : 0 < refCnt.toNat := positive mac endpoint found held
  have nonzero : refCnt ≠ 0 := by
    intro isZero
    rw [isZero] at used
    exact Nat.lt_irrefl 0 used
  refine ⟨refCnt, ?_⟩
  change installedHdl (finishHdl loaded policy) mac = _
  unfold finishHdl installedHdl
  simp only [hdl, keeps, stored, if_neg nonzero, found, Option.bind_some, held]
  rfl

end

end Construction

/-- The state in which the rules of a message are loaded. -/
def openedHdl (state : PolicyState) (policy : Policy) (first : Bool) : PolicyState :=
  if first then startHdl (dropHdl state) policy else state

theorem dpiPolicyCfg_slice {ctx : IpContext} (keeps : cmd ≠ .delete) {first last : Bool}
    (building : first = true ∨ state.hdl.isSome = true) :
    let loaded := loadRules ctx (openedHdl state policy first) policy (sliceFlag first last)
    (dpiPolicyCfg ctx state cmd policy (sliceFlag first last)).1 =
      if last then finishHdl loaded policy else loaded := by
  have present : (!first && state.hdl.isNone) = false := by
    rcases building with rfl | some
    · rfl
    · rw [Option.isNone_eq_false_iff.mpr some, Bool.and_false]
  unfold dpiPolicyCfg openedHdl
  rw [hasStart_sliceFlag, present]
  cases cmd with
  | delete => exact absurd rfl keeps
  | add | modify => cases first <;> cases last <;> rfl

theorem dropHdl_epMap (state : PolicyState) : (dropHdl state).epMap = state.epMap := by
  unfold dropHdl
  split <;> rfl

theorem openedHdl_epMap (state : PolicyState) (policy : Policy) (first : Bool) :
    (openedHdl state policy first).epMap = state.epMap := by
  cases first with
  | false => rfl
  | true => exact dropHdl_epMap state

theorem dropHdl_policyVer (state : PolicyState) : (dropHdl state).policyVer = state.policyVer := by
  unfold dropHdl
  split <;> rfl

theorem loadRules_epMap (state : PolicyState) (policy : Policy) (flag : UInt32) :
    (loadRules ctx state policy flag).epMap = state.epMap := by
  unfold loadRules
  split
  · rfl
  · split <;> rfl

variable {slices : List (List PolicyRule)}

section Delivery

variable {ctx : IpContext} {cmd : CfgCmd} {policy : Policy} {mac : EtherAddr}

/-- The handle is installed with some reference count. -/
def Installed (state : PolicyState) (mac : EtherAddr) (hdl : PolicyHdl) : Prop :=
  ∃ refCnt, installedHdl state mac = some { hdl with refCnt := refCnt }

variable (keeps : cmd ≠ .delete) (few : policy.macList.length < 65536)
  (listed : mac ∈ policy.macList) (nonempty : slices ≠ [])
include keeps few listed nonempty

theorem runMessages_building {start : PolicyHdl} {address : Nat} (unused : start.refCnt = 0)
    {first : Bool} {rules : List PolicyRule} {state : PolicyState}
    (running : first = true ∨ state.hdl.isSome = true)
    (building : ∀ slice, Building ctx start address rules
      (openedHdl state { policy with ruleList := slice } first))
    (present : (state.epMap mac).isSome = true) :
    Installed (runMessages ctx (sliceMessages cmd policy first slices) state) mac
      (dpiAddDefaultPolicy ctx (cfgRules ctx (rules ++ slices.flatten) (start, 0)).1) := by
  induction slices generalizing first rules state with
  | nil => exact absurd rfl nonempty
  | cons slice rest induction =>
    have here := building slice
    have known : ((openedHdl state { policy with ruleList := slice } first).epMap mac).isSome =
        true := by
      rw [openedHdl_epMap]
      exact present
    change Installed (runMessages ctx _ (dpiPolicyCfg ctx state _ _ _).1) mac _
    rw [dpiPolicyCfg_slice keeps running]
    cases rest with
    | nil =>
      have finished := here.finish unused { policy with ruleList := slice }
        (hasEnd_sliceFlag first true) few listed known
      simpa [Installed, sliceMessages, runMessages] using finished
    | cons next more =>
      have loaded := here.load { policy with ruleList := slice } (hasEnd_sliceFlag first false)
      have later := @induction (by simp) false _ _ (Or.inr (Option.isSome_of_eq_some loaded.hdl))
        (fun _ => loaded) (by rw [loadRules_epMap]; exact known)
      simpa using later

/-- However a rule list is cut into messages, every listed endpoint that
exists gets the handle built from the whole list. -/
theorem runMessages_installs {state : PolicyState} (valid : ValidState state)
    (present : (state.epMap mac).isSome = true) :
    Installed (runMessages ctx (sliceMessages cmd policy true slices) state) mac
      (builtHdl ctx slices.flatten policy.defAction policy.applyDir
        (getNewPolicyVer state.policyVer)) := by
  have building : ∀ slice, Building ctx
      (dpiPolicyHdlInit policy.defAction policy.applyDir (getNewPolicyVer state.policyVer))
      (dropHdl state).heap.next [] (openedHdl state { policy with ruleList := slice } true) := by
    intro slice
    rw [← dropHdl_policyVer state]
    exact startHdl_building (dropHdl_valid valid) { policy with ruleList := slice }
  have installed := runMessages_building keeps few listed nonempty rfl (Or.inl rfl) building present
  simpa [builtHdl] using installed

end Delivery

/-- A handle-free endpoint, or none at all. -/
def Released (state : PolicyState) (mac : EtherAddr) : Prop :=
  (state.epMap mac).bind Endpoint.policyHdl = none

theorem updateMacs_releases (state : PolicyState) {macs : List EtherAddr}
    (listed : mac ∈ macs) : Released (updateMacs none macs state) mac := by
  unfold Released
  cases found : (updateMacs none macs state).epMap mac with
  | none => rfl
  | some endpoint => exact updateMacs_points none (Or.inl listed) found

theorem dropHdl_hdl (state : PolicyState) : (dropHdl state).hdl = none := by
  unfold dropHdl
  split
  · assumption
  · rfl

theorem dpiPolicyCfg_delete (state : PolicyState) (listed : mac ∈ policy.macList) :
    installedHdl (dpiPolicyCfg ctx state .delete policy (sliceFlag true true)).1 mac = none := by
  have dropped := dropHdl_hdl state
  have finished : (dpiPolicyCfg ctx state .delete policy
      (sliceFlag true true)).1 = finishHdl (dropHdl state) policy := by
    unfold dpiPolicyCfg
    rw [hasStart_sliceFlag, hasEnd_sliceFlag]
    simp [applyCommand, dropped]
  have released := updateMacs_releases (dropHdl state) listed
  rw [finished]
  unfold finishHdl installedHdl
  simp only [dropped]
  rw [released]
  rfl

theorem sliceMessages_length (cmd : CfgCmd) (policy : Policy) (first : Bool)
    (slices : List (List PolicyRule)) :
    (sliceMessages cmd policy first slices).length = slices.length := by
  induction slices generalizing first with
  | nil => rfl
  | cons slice rest induction => simp [sliceMessages, induction]

theorem sliceMessages_rules (cmd : CfgCmd) (policy : Policy) (first : Bool)
    (slices : List (List PolicyRule)) :
    (sliceMessages cmd policy first slices).map
      (fun message => message.policy.ruleList) = slices := by
  induction slices generalizing first with
  | nil => rfl
  | cons slice rest induction => simp [sliceMessages, induction]

theorem sliceMessages_flags {first : Bool} {index : Nat} {message : PolicyMsg}
    (found : (sliceMessages cmd policy first slices)[index]? = some message) :
    hasStart message.flag = (first && index == 0) ∧
      hasEnd message.flag = decide (index + 1 = slices.length) := by
  induction slices generalizing first index with
  | nil => simp [sliceMessages] at found
  | cons slice rest induction =>
    unfold sliceMessages at found
    cases index with
    | zero =>
      have same := Option.some.inj found
      rw [← same]
      refine ⟨?_, ?_⟩
      · rw [hasStart_sliceFlag]
        simp
      · rw [hasEnd_sliceFlag]
        cases rest <;> simp
    | succ index =>
      have later := induction (by simpa using found)
      simpa using later

def sampleState : PolicyState :=
  { hdl := none
    order := 0
    policyVer := 0
    heap := Heap.empty
    epMap := fun mac =>
      if mac = 1 then some { policyHdl := none, policyVer := 0 } else none }

def sampleContext : IpContext :=
  { isIp4Internal := fun _ => true
    ip4Iptype := fun _ => .none
    fqdnCodes := fun _ => []
    configFqdnIpv4Mapping := fun _ _ => none }

def samplePolicy : Policy :=
  { macList := [1]
    defAction := .actionDeny
    applyDir := policyApplyIngress ||| policyApplyEgress
    ruleList := [] }

def sampleRule (id : UInt32) (low high : UInt16) (action : PolicyAction)
    (appRules : List PolicyAppRule) : PolicyRule :=
  { id := id
    sip := 10
    sipR := 10
    dip := 20
    dipR := 20
    dport := low
    dportR := high
    proto := ipprotoTcp
    action := action
    ingress := true
    fqdn := ""
    appRules := appRules }

def sampleQuery (dport proto : UInt16) (app : UInt32) : PolicyQuery :=
  { ctx := sampleContext
    key := { sip := 10, dip := 20, dport := dport, proto := proto, app := app }
    isIngress := true }

/-- The addresses of policies are known to the data path or not. -/
def sampleEnv (listed : Bool) : LookupEnv :=
  { ctx := sampleContext, isPolicyAddr := fun _ => listed, tick := 0 }

def sampleVerdict (listed : Bool) (applyDir : UInt32) (rules : List PolicyRule)
    (query : PolicyQuery) : Option Verdict :=
  (installedHdl (runMessages sampleContext
    (sliceMessages .add { samplePolicy with applyDir := applyDir } true [rules]) sampleState) 1).map
    fun hdl => sessionVerdict (sampleEnv listed) (fun _ => none) hdl query.packet

theorem sampleState_valid : ValidState sampleState where
  endpoints := by
    intro mac endpoint address found held
    unfold sampleState at found
    simp only at found
    split at found
    · rw [← Option.some.inj found] at held
      simp at held
    · simp at found
  current := by
    intro address held
    simp [sampleState] at held

/-- An application rule and, for the same port, a plain rule after it. -/
def repeatedSlices : List (List PolicyRule) :=
  [[sampleRule 1 80 80 .actionCheckApp [{ ruleId := 1, app := 1001, action := .actionAllow }]],
    [sampleRule 2 80 80 .actionAllow []]]

theorem repeatedSlices_fit :
    PolicyFits (sampleQuery 80 ipprotoTcp 2000) repeatedSlices.flatten samplePolicy.applyDir where
  fits := by
    intro front rule back equality
    have each : ∀ listed ∈ repeatedSlices.flatten, WellFormed listed ∧ listed.isRange = false ∧
        listed.contains (sampleQuery 80 ipprotoTcp 2000).key = true ∧ listed.ingress = true := by
      intro listed member
      simp only [repeatedSlices, List.flatten_cons, List.flatten_nil,
        List.append_nil, List.mem_append, List.mem_singleton] at member
      rcases member with first | second
      · subst first
        exact ⟨⟨rfl, by decide, by decide, rfl⟩, by decide⟩
      · subst second
        exact ⟨⟨rfl, by decide, by decide, rfl⟩, by decide⟩
    have member : rule ∈ repeatedSlices.flatten := by
      rw [equality]
      simp
    obtain ⟨wellFormed, single, contained, ingress⟩ := each rule member
    refine ⟨wellFormed, ?_, ?_⟩
    · intro crossed
      exact absurd ingress crossed
    · intro _ _ _ _
      exact Or.inl ⟨single, contained⟩
  short := by decide
  ownNotImplicit := by constructor <;> decide
  zeroNotImplicit := by
    intro external
    exact absurd external (by decide)

def overlappingRules : List PolicyRule :=
  [sampleRule 1 80 90 .actionCheckApp [{ ruleId := 1, app := 1001, action := .actionAllow }],
    sampleRule 2 70 85 .actionAllow []]

end NeuVector.DataPath
