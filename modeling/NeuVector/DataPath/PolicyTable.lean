import NeuVector.Library.RcuMap

/-!
# Policy rule tables of the data path

This module embeds the rule tables of `dpi_policy.c`: the exact table hashed
by the complete rule key, the range table hashed by the local address, the
lookup that reads both, and the insertion of one rule with its application
list.  Addresses are kept in host byte order, the order in which the source
compares them.
-/

namespace NeuVector.DataPath

open Library

/-- `DP_POLICY_ACTION_*` in numeric order. -/
inductive PolicyAction where
  | actionOpen
  | actionLearn
  | actionAllow
  | actionCheckApp
  | actionViolate
  | actionDeny
  deriving DecidableEq

/-- `DP_IPTYPE_*`, the classes of the special subnet table. -/
inductive IpType where
  | none
  | tunnelIp
  | svcIp
  | hostIp
  | devIp
  | uwlIp
  | extIp
  deriving DecidableEq

/-- `POLICY_RULE_DIR_*`. -/
inductive RuleDir where
  | egress
  | ingress
  | none
  deriving DecidableEq

structure RuleKey where
  sip : UInt32
  dip : UInt32
  dport : UInt16
  proto : UInt16
  app : UInt32
  deriving DecidableEq

structure PolicyDesc where
  id : UInt32
  action : PolicyAction
  flags : UInt8
  hdlVer : UInt16
  order : UInt32
  deriving DecidableEq

structure RangeRuleKey where
  ip : UInt32
  proto : UInt16
  flag : UInt16
  deriving DecidableEq

structure RangeRuleItem where
  desc : PolicyDesc
  keyL : RuleKey
  keyH : RuleKey
  deriving DecidableEq

structure PolicyAppRule where
  ruleId : UInt32
  app : UInt32
  action : PolicyAction
  deriving DecidableEq

structure PolicyHdl where
  refCnt : UInt16
  ver : UInt16
  policyMap : RcuMap RuleKey PolicyDesc
  rangePolicyMap : RcuMap RangeRuleKey (List RangeRuleItem)
  defAction : PolicyAction
  applyDir : UInt32
  flag : UInt32
  deriving DecidableEq

/-- What a lookup reads from the other tables of the data path: the internal
subnets, the special subnets, the codes of the domain names that resolve to
an address, and the code given to a configured domain name. -/
structure IpContext where
  isIp4Internal : UInt32 → Bool
  ip4Iptype : UInt32 → IpType
  fqdnCodes : UInt32 → List UInt32
  configFqdnIpv4Mapping : String → UInt32 → Option UInt32

def ipprotoIcmp : UInt16 := 1
def ipprotoTcp : UInt16 := 6
def ipprotoUdp : UInt16 := 17

def policyApplyEgress : UInt32 := 1
def policyApplyIngress : UInt32 := 2

def descCheckVer : UInt8 := 0x01
def descInternal : UInt8 := 0x02
def descExternal : UInt8 := 0x04
def descTunnel : UInt8 := 0x08
def descSvcExtip : UInt8 := 0x20
def descHostip : UInt8 := 0x40

def policyHdlFlagFqdn : UInt32 := 1

def rangeRuleIngress : UInt16 := 1
def rangeRuleEgress : UInt16 := 2

def noOrder : UInt32 := 0xffffffff
def appLimit : UInt32 := 0xffffffff

def emptyDesc : PolicyDesc :=
  { id := 0, action := .actionOpen, flags := 0, hdlVer := 0, order := 0 }

namespace RuleKey

/-- The address of the workload the policy belongs to. -/
def own (key : RuleKey) (isIngress : Bool) : UInt32 :=
  if isIngress then key.dip else key.sip

/-- The address of the other side of the connection. -/
def peer (key : RuleKey) (isIngress : Bool) : UInt32 :=
  if isIngress then key.sip else key.dip

def withPeer (key : RuleKey) (isIngress : Bool) (ip : UInt32) : RuleKey :=
  if isIngress then { key with sip := ip } else { key with dip := ip }

def withApp (key : RuleKey) (app : UInt32) : RuleKey := { key with app := app }

end RuleKey

def isXInRange {α : Type} [LE α] [DecidableLE α] (x low high : α) : Bool :=
  decide (low ≤ x) && decide (x ≤ high)

def ruleKeyInRange (item : RangeRuleItem) (key : RuleKey) : Bool :=
  isXInRange key.dport item.keyL.dport item.keyH.dport &&
    isXInRange key.sip item.keyL.sip item.keyH.sip &&
    isXInRange key.dip item.keyL.dip item.keyH.dip &&
    isXInRange key.app item.keyL.app item.keyH.app

variable (ctx : IpContext) (hdl : PolicyHdl) (keyL : RuleKey)

def getRangeKey (keyH : RuleKey) (dir : RuleDir) : Option RangeRuleKey :=
  if keyL.proto ≠ keyH.proto then none
  else
    match dir with
    | .ingress => some { ip := keyL.dip, proto := keyL.proto, flag := rangeRuleIngress }
    | .egress => some { ip := keyL.sip, proto := keyL.proto, flag := rangeRuleEgress }
    | .none => some { ip := 0, proto := keyL.proto, flag := 0 }

def dpiRangeRuleMatch (items : List RangeRuleItem) (key : RuleKey) : Option RangeRuleItem :=
  items.find? fun item => ruleKeyInRange item key

/-- The range table entry a key of the given direction is hashed to. -/
def directedRangeKey (key : RuleKey) (isIngress : Bool) : RangeRuleKey :=
  { ip := key.own isIngress
    proto := key.proto
    flag := if isIngress then rangeRuleIngress else rangeRuleEgress }

def undirectedRangeKey (key : RuleKey) : RangeRuleKey := { ip := 0, proto := key.proto, flag := 0 }

def rangeLookup (rangeKey : RangeRuleKey) (key : RuleKey) : Option PolicyDesc :=
  (hdl.rangePolicyMap.lookup rangeKey).bind fun items =>
    (dpiRangeRuleMatch items key).map RangeRuleItem.desc

/-- The searching part of `_dpi_policy_lookup_by_key`: the exact table first,
then the range rules of the direction, then those without direction. -/
def findRule (key : RuleKey) (isIngress : Bool) : Option PolicyDesc :=
  match hdl.policyMap.lookup key with
  | some desc => some desc
  | none =>
    match rangeLookup hdl (directedRangeKey key isIngress) key with
    | some desc => some desc
    | none => rangeLookup hdl (undirectedRangeKey key) key

def notFoundDesc : PolicyDesc :=
  { id := 0, action := hdl.defAction, flags := descCheckVer, hdlVer := 0, order := noOrder }

/-- `_dpi_policy_lookup_by_key`. -/
def innerPolicyLookupByKey (key : RuleKey) (isIngress : Bool) : PolicyDesc :=
  (findRule hdl key isIngress).getD (notFoundDesc hdl)

def policyDescMerge (desc₁ desc₂ : PolicyDesc) : PolicyDesc :=
  if desc₂.id > 0 ∧ desc₂.order < desc₁.order then desc₂ else desc₁

/-- The best match over the codes of the domain names of an address. -/
def policyMatchIpv4FqdnCode (key : RuleKey) (isIngress : Bool) : Option PolicyDesc :=
  (ctx.fqdnCodes (key.peer isIngress)).foldl (fun best code =>
      if code = 0 then best
      else
        let desc := innerPolicyLookupByKey hdl (key.withPeer isIngress code) isIngress
        some (match best with
          | none => desc
          | some kept => policyDescMerge kept desc))
    none

/-- The part of `dpi_policy_lookup_by_key` shared by both directions once no
implicit verdict applies. -/
def lookupRules (key : RuleKey) (isIngress isInternal : Bool) : PolicyDesc :=
  let desc := innerPolicyLookupByKey hdl key isIngress
  let desc :=
    if hdl.flag &&& policyHdlFlagFqdn ≠ 0 then
      match policyMatchIpv4FqdnCode ctx hdl key isIngress with
      | none => desc
      | some desc₂ => policyDescMerge desc desc₂
    else desc
  if isInternal then { desc with flags := desc.flags ||| descInternal }
  else
    let desc₂ := innerPolicyLookupByKey hdl (key.withPeer isIngress 0) isIngress
    let desc := policyDescMerge desc desc₂
    { desc with flags := desc.flags ||| descExternal }

/-- East-west traffic that needs no rule in the applied direction. -/
def isOpenInternal (applyDir : UInt32) (key : RuleKey) (isIngress : Bool) : Bool :=
  let iptype := ctx.ip4Iptype (key.peer isIngress)
  ctx.isIp4Internal (key.peer isIngress) &&
    if isIngress then (applyDir &&& policyApplyIngress == 0) && (iptype != .uwlIp)
    else (applyDir &&& policyApplyEgress == 0) && (iptype != .hostIp) && (iptype != .uwlIp)

/-- Egress traffic to the external address of a service. -/
def isServiceExtip (key : RuleKey) (isIngress : Bool) : Bool :=
  !isIngress && !ctx.isIp4Internal key.dip && (ctx.ip4Iptype key.dip == .extIp)

def dpiPolicyLookupByKey (hdl : Option PolicyHdl) (key : RuleKey)
    (isIngress : Bool) (desc : PolicyDesc) : PolicyDesc :=
  let isInternal := ctx.isIp4Internal (key.peer isIngress)
  let iptype := ctx.ip4Iptype (key.peer isIngress)
  match hdl with
  | none =>
    { desc with
      id := 0
      action := .actionOpen
      flags := descCheckVer ||| (if isInternal then descInternal else descExternal)
      hdlVer := 0 }
  | some hdl =>
    let desc :=
      if isServiceExtip ctx key isIngress then
        { desc with
          id := 0
          action := if hdl.defAction = .actionDeny then .actionDeny
            else .actionViolate
          flags := desc.flags ||| descExternal ||| descSvcExtip
          order := noOrder }
      else if isOpenInternal ctx hdl.applyDir key isIngress then
        { desc with
          id := 0
          action := .actionOpen
          flags :=
            if isIngress ∧ iptype = .tunnelIp then descInternal ||| descTunnel
            else if isIngress ∧ iptype = .hostIp then descInternal ||| descHostip
            else descInternal }
      else lookupRules ctx hdl key isIngress isInternal
    { desc with hdlVer := hdl.ver }

def findSameItem (items : List RangeRuleItem) (keyL keyH : RuleKey) : Option RangeRuleItem :=
  items.find? fun item => decide (item.keyL = keyL ∧ item.keyH = keyH)

def dpiRangeRuleAdd (keyH : RuleKey) (dir : RuleDir)
    (desc existDesc : PolicyDesc) : PolicyHdl × PolicyDesc × Int :=
  match getRangeKey keyL keyH dir with
  | none => (hdl, existDesc, -1)
  | some key =>
    let map :=
      match hdl.rangePolicyMap.lookup key with
      | some _ => hdl.rangePolicyMap
      | none => hdl.rangePolicyMap.add key []
    let items := (map.lookup key).getD []
    match findSameItem items keyL keyH with
    | some item => ({ hdl with rangePolicyMap := map }, item.desc, 0)
    | none =>
      let added := map.modify key fun items =>
        items ++ [{ desc := desc, keyL := keyL, keyH := keyH }]
      ({ hdl with rangePolicyMap := added }, existDesc, 1)

def RuleDir.isIngress : RuleDir → Bool
  | .ingress => true
  | .egress => false
  | .none => false

variable (keyH : Option RuleKey)

def dpiRuleAddOne (dir : RuleDir) (desc existDesc : PolicyDesc) : PolicyHdl × PolicyDesc × Int :=
  match keyH with
  | none =>
    let existDesc := dpiPolicyLookupByKey ctx (some hdl) keyL dir.isIngress existDesc
    if existDesc.id ≠ 0 then (hdl, existDesc, 0)
    else ({ hdl with policyMap := hdl.policyMap.add keyL desc }, existDesc, 1)
  | some keyH => dpiRangeRuleAdd hdl keyL keyH dir desc existDesc

/-- The keys an application rule is stored under, and the caller's keys as
this function leaves them. -/
def appRuleKeys (app : UInt32) : RuleKey × Option RuleKey × Option RuleKey :=
  let keyL := keyL.withApp app
  if app ≠ 0 then
    let keyH := keyH.map fun key => key.withApp app
    (keyL, keyH, keyH)
  else
    match keyH with
    | some key => (keyL, some (key.withApp appLimit), some (key.withApp appLimit))
    | none => (keyL, none, some (keyL.withApp appLimit))

structure RuleAddState where
  hdl : PolicyHdl
  keyL : RuleKey
  keyH : Option RuleKey
  existDesc : PolicyDesc
  deriving DecidableEq

def dpiAddAppRule (state : RuleAddState) (appRule : PolicyAppRule)
    (dir : RuleDir) (desc : PolicyDesc) : RuleAddState × Int :=
  let (keyL, keyH, usedH) := appRuleKeys state.keyL state.keyH appRule.app
  let appDesc : PolicyDesc :=
    { id := appRule.ruleId
      action := appRule.action
      flags := desc.flags
      hdlVer := 0
      order := desc.order }
  let (hdl, existDesc, result) := dpiRuleAddOne ctx state.hdl keyL usedH dir appDesc state.existDesc
  ({ hdl := hdl, keyL := keyL, keyH := keyH, existDesc := existDesc }, result)

def addAppRules (ctx : IpContext) (dir : RuleDir) (desc : PolicyDesc) :
    List PolicyAppRule → RuleAddState → RuleAddState
  | [], state => state
  | appRule :: rest, state =>
    addAppRules ctx dir desc rest (dpiAddAppRule ctx state appRule dir desc).1

/-- What `dpi_rule_add` does after the main entry: nothing when a plain entry
stands in its place, and an entry for any application when a plain rule
follows an application rule with the same key. -/
def ruleAddRest (appRules : List PolicyAppRule) (dir : RuleDir)
    (desc : PolicyDesc) (main : PolicyHdl × PolicyDesc × Int) : RuleAddState :=
  let (hdl, existDesc, result) := main
  let state : RuleAddState := { hdl := hdl, keyL := keyL, keyH := keyH, existDesc := existDesc }
  if result < 0 then state
  else if result = 0 ∧ existDesc.id > 0 ∧ existDesc.action ≠ .actionCheckApp then state
  else
    let state :=
      if result = 0 ∧ existDesc.id > 0 ∧ desc.action ≠ .actionCheckApp then
        (dpiAddAppRule ctx state { ruleId := desc.id, app := 0, action := desc.action } dir desc).1
      else state
    if appRules = [] then state
    else
      let state := addAppRules ctx dir desc appRules state
      { state with keyL := state.keyL.withApp 0, keyH := state.keyH.map fun key => key.withApp 0 }

/-- `dpi_rule_add`; the keys are returned because the source changes their
application in place and the caller reuses them for the next protocol. -/
def dpiRuleAdd (appRules : List PolicyAppRule) (dir : RuleDir) (desc : PolicyDesc) : RuleAddState :=
  ruleAddRest ctx keyL keyH appRules dir desc (dpiRuleAddOne ctx hdl keyL keyH dir desc emptyDesc)

end NeuVector.DataPath
