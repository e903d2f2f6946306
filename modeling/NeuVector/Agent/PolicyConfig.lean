import NeuVector.Controller.PolicySlots

/-!
# Reading the policy of the cluster

When the version of the policy changes, the agent reads the slots of the new
version, puts their rules in order and joins the parts of the default rule
(`getPolicyConfig`, `mergeWlPolicyConfig` and `systemConfigPolicyVersion` of
`agent/system.go`).  A slot that cannot be read or decoded is passed over.
-/

namespace NeuVector.Agent

open Library Controller

variable {Addr Bytes : Type}

/-- The two directories of the cluster store that may have the slots. -/
inductive RuleDirectory where
  | recalculate
  | network
  deriving DecidableEq

structure StoreView (Bytes : Type) where
  directoryExists : RuleDirectory → Bool
  get : RuleDirectory → SlotKey → Option Bytes

variable (codec : SlotCodec Addr Bytes)

def decodeSlot (value : Option Bytes) : Option (List (GroupIPPolicy Addr)) :=
  match value with
  | none => none
  | some value =>
    match codec.gunzipBytes value with
    | none => none
    | some uzb => codec.unmarshal uzb

def getPolicyConfig (get : Nat → Option Bytes) (slots rulesLen : Nat) :
    Except SlotError (List (GroupIPPolicy Addr)) :=
  match RoundRobin.placeSlots slots (fun i => decodeSlot codec (get i)) 0
      slots (List.replicate rulesLen .zero) with
  | none => .error .indexOutOfRange
  | some pols => .ok pols

/-- The first rules joined to one. -/
def mergeWlPolicyConfig (rules : List (GroupIPPolicy Addr)) (wlSlots : Nat) :
    Except SlotError (List (GroupIPPolicy Addr)) :=
  if rules.length < wlSlots then .error .indexOutOfRange
  else
    .ok (workloadRule ((rules.take wlSlots).flatMap fun rule =>
      rule.fromAddr.filter Option.isSome) :: rules.drop wlSlots)

def ruleDirectory (view : StoreView Bytes) : Option RuleDirectory :=
  if view.directoryExists .recalculate then some .recalculate
  else if view.directoryExists .network then some .network
  else none

def systemConfigPolicyVersion (view : StoreView Bytes) (ver : PolicyVer) :
    Except SlotError (List (GroupIPPolicy Addr)) :=
  match ruleDirectory view with
  | none => .ok []
  | some directory =>
    match getPolicyConfig codec (fun i => view.get directory ⟨ver.policyIPRulesVersion, i⟩)
        ver.slotNo ver.rulesLen with
    | .error err => .error err
    | .ok groupIPPolicy =>
      if groupIPPolicy ≠ [] ∧ 0 < ver.workloadSlot ∧ 0 < ver.workloadLen then
        mergeWlPolicyConfig groupIPPolicy ver.workloadSlot
      else .ok groupIPPolicy

end NeuVector.Agent
