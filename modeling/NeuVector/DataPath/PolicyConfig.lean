import NeuVector.DataPath.PolicyTable
import NeuVector.Library.Heap

/-!
# Policy configuration messages

`dpi_policy_cfg` receives the rules of a workload in one or more messages.
It keeps the handle under construction and the running rule order in static
variables, and on the last message it hands the finished handle to every
listed endpoint.  Handles live on a heap and are reference counted.
-/

namespace NeuVector.DataPath

open Library

structure PolicyRule where
  id : UInt32
  sip : UInt32
  sipR : UInt32
  dip : UInt32
  dipR : UInt32
  dport : UInt16
  dportR : UInt16
  proto : UInt16
  action : PolicyAction
  ingress : Bool
  fqdn : String
  appRules : List PolicyAppRule
  deriving DecidableEq

abbrev EtherAddr := BitVec 48

structure Policy where
  macList : List EtherAddr
  defAction : PolicyAction
  applyDir : UInt32
  ruleList : List PolicyRule
  deriving DecidableEq

inductive CfgCmd where
  | add
  | modify
  | delete
  deriving DecidableEq

def msgStart : UInt32 := 1
def msgEnd : UInt32 := 2

variable (ctx : IpContext) (state : PolicyState) (policy : Policy) (flag : UInt32)

def hasStart : Bool := flag &&& msgStart != 0
def hasEnd : Bool := flag &&& msgEnd != 0

/-- The endpoint fields this component reads and writes. -/
structure Endpoint where
  policyHdl : Option Nat
  policyVer : UInt16
  deriving DecidableEq

/-- The static variables of `dpi_policy_cfg`, the version counter, the live
handles and the endpoint map. -/
structure PolicyState where
  hdl : Option Nat
  order : UInt32
  policyVer : UInt16
  heap : Heap PolicyHdl
  epMap : EtherAddr → Option Endpoint

variable (rule : PolicyRule)

/-- A rule with a domain name is rewritten to the code of the name, which
replaces the address of the other side.  Without a code it is skipped. -/
def resolveFqdn : Option PolicyRule :=
  if rule.fqdn = "" then some rule
  else if rule.ingress then
    (ctx.configFqdnIpv4Mapping rule.fqdn rule.sip).map fun code =>
      { rule with sip := code, sipR := code }
  else
    (ctx.configFqdnIpv4Mapping rule.fqdn rule.dip).map fun code =>
      { rule with dip := code, dipR := code }

variable (proto : UInt16)

def PolicyRule.keyL : RuleKey :=
  { sip := rule.sip, dip := rule.dip, dport := rule.dport, proto := proto, app := 0 }

def PolicyRule.keyR : RuleKey :=
  { sip := rule.sipR, dip := rule.dipR, dport := rule.dportR, proto := proto, app := 0 }

def PolicyRule.isRange : Bool :=
  rule.dport ≠ rule.dportR || rule.sip ≠ rule.sipR || rule.dip ≠ rule.dipR

def PolicyRule.keyH : Option RuleKey :=
  if rule.isRange then some (rule.keyR proto) else none

def PolicyRule.dir : RuleDir :=
  if rule.ingress then .ingress else .egress

def PolicyRule.desc (order : UInt32) : PolicyDesc :=
  { id := rule.id, action := rule.action, flags := descCheckVer, hdlVer := 0, order := order }

variable (hdl : PolicyHdl)

/-- Insert a rule for its protocol; the protocol `any` is inserted for TCP
and then, with the keys as TCP left them, for UDP. -/
def addRule (rule : PolicyRule) (order : UInt32) : PolicyHdl :=
  let desc := rule.desc order
  if rule.proto > 0 then
    (dpiRuleAdd ctx hdl (rule.keyL rule.proto) (rule.keyH rule.proto)
      rule.appRules rule.dir desc).hdl
  else
    let tcp := dpiRuleAdd ctx hdl (rule.keyL ipprotoTcp)
      (rule.keyH ipprotoTcp) rule.appRules rule.dir desc
    let keyL := { tcp.keyL with proto := ipprotoUdp }
    let keyH := tcp.keyH.map fun key => { key with proto := ipprotoUdp }
    (dpiRuleAdd ctx tcp.hdl keyL keyH rule.appRules rule.dir desc).hdl

def cfgRule (order : UInt32) (rule : PolicyRule) : PolicyHdl × UInt32 :=
  match resolveFqdn ctx rule with
  | none => (hdl, order)
  | some resolved =>
    let hdl :=
      if rule.fqdn = "" then hdl
      else { hdl with flag := hdl.flag ||| policyHdlFlagFqdn }
    (addRule ctx hdl resolved (order + 1), order + 1)

def cfgRules (ctx : IpContext) : List PolicyRule → PolicyHdl × UInt32 → PolicyHdl × UInt32
  | [], state => state
  | rule :: rules, (hdl, order) => cfgRules ctx rules (cfgRule ctx hdl order rule)

def defaultKeyL : RuleKey := { sip := 0, dip := 0, dport := 0, proto := ipprotoIcmp, app := 0 }

def defaultKeyH : RuleKey :=
  { sip := 0xffffffff, dip := 0xffffffff, dport := 0, proto := ipprotoIcmp, app := 0 }

def defaultDesc : PolicyDesc :=
  { id := 0, action := .actionAllow, flags := 0, hdlVer := 0, order := noOrder }

/-- All ICMP traffic is allowed by an undirected rule of the lowest order. -/
def dpiAddDefaultPolicy : PolicyHdl :=
  (dpiRuleAdd ctx hdl defaultKeyL (some defaultKeyH) [] .none defaultDesc).hdl

def dpiPolicyHdlInit (defAction : PolicyAction) (applyDir : UInt32) (ver : UInt16) : PolicyHdl :=
  { refCnt := 0
    ver := ver
    policyMap := RcuMap.empty
    rangePolicyMap := RcuMap.empty
    defAction := defAction
    applyDir := applyDir
    flag := 0 }

def dpiPolicyHdlDestroy (heap : Heap PolicyHdl) (address : Nat) : Heap PolicyHdl :=
  match heap.cells address with
  | none => heap
  | some hdl =>
    if hdl.refCnt > 1 then heap.modify address fun hdl => { hdl with refCnt := hdl.refCnt - 1 }
    else heap.free address

/-- `GET_NEW_POLICY_VER`: the next version, never zero. -/
def getNewPolicyVer (ver : UInt16) : UInt16 :=
  if ver + 1 ≠ 0 then ver + 1 else ver + 1 + 1

def dpiPolicyUpdate (mac : EtherAddr) (hdl : Option Nat) : PolicyState :=
  match state.epMap mac with
  | none => state
  | some endpoint =>
    let heap :=
      match hdl with
      | none => state.heap
      | some address =>
        state.heap.modify address fun hdl => { hdl with refCnt := hdl.refCnt + 1 }
    let ver :=
      match hdl.bind heap.cells with
      | none => 0
      | some hdl => hdl.ver
    let updated : Endpoint := { policyHdl := hdl, policyVer := ver }
    let heap :=
      match endpoint.policyHdl with
      | none => heap
      | some old => dpiPolicyHdlDestroy heap old
    { state with heap := heap, epMap := Function.update state.epMap mac (some updated) }

def updateMacs (hdl : Option Nat) : List EtherAddr → PolicyState → PolicyState
  | [], state => state
  | mac :: macs, state => updateMacs hdl macs (dpiPolicyUpdate state mac hdl)

def dropHdl : PolicyState :=
  match state.hdl with
  | none => state
  | some address =>
    { state with hdl := none, heap := dpiPolicyHdlDestroy state.heap address }

/-- A new, empty handle becomes the one under construction. -/
def startHdl : PolicyState :=
  let ver := getNewPolicyVer state.policyVer
  let hdl := dpiPolicyHdlInit policy.defAction policy.applyDir ver
  { state with
    hdl := some state.heap.next
    order := 0
    policyVer := ver
    heap := state.heap.alloc hdl }

def loadRules : PolicyState :=
  match state.hdl with
  | none => state
  | some address =>
    match state.heap.cells address with
    | none => state
    | some hdl =>
      let (hdl, order) := cfgRules ctx policy.ruleList (hdl, state.order)
      let hdl := if hasEnd flag then dpiAddDefaultPolicy ctx hdl else hdl
      { state with order := order, heap := state.heap.modify address fun _ => hdl }

/-- Give the finished handle to the listed endpoints and forget it; a handle
no endpoint took is released. -/
def finishHdl : PolicyState :=
  let state := updateMacs state.hdl policy.macList state
  let heap :=
    match state.hdl with
    | none => state.heap
    | some address =>
      match state.heap.cells address with
      | none => state.heap
      | some hdl =>
        if hdl.refCnt = 0 then dpiPolicyHdlDestroy state.heap address
        else state.heap
  { state with hdl := none, heap := heap }

/-- Load the rules of an addition or change; a deletion drops the handle. -/
def applyCommand (cmd : CfgCmd) (policy : Policy) (flag : UInt32) : PolicyState :=
  match cmd with
  | .delete =>
    match state.hdl with
    | none => state
    | some _ => { dropHdl state with order := 0 }
  | _ => loadRules ctx (if hasStart flag then startHdl state policy else state) policy flag

def dpiPolicyCfg (cmd : CfgCmd) (policy : Policy) (flag : UInt32) : PolicyState × Int :=
  if !hasStart flag && state.hdl.isNone then (state, -1)
  else
    let state := if hasStart flag then dropHdl state else state
    let state := applyCommand ctx state cmd policy flag
    if hasEnd flag then (finishHdl state policy, 0) else (state, 0)

end NeuVector.DataPath
