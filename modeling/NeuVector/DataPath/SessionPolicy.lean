import Mathlib.Logic.Function.Iterate
import NeuVector.DataPath.PolicyConfig

/-!
# Policy of existing sessions

A packet of a session has the policy evaluated again when the session's
verdict is of another version than the policy of the endpoint
(`dpi_policy_reeval`), and a lookup that ends at the default action is answered
with an open one for a while after a pair of addresses was first seen
(`_dpi_policy_chk_unknown_ip`).  The parts for forwarded addresses and the
threat of external service addresses are left out.  Ticks are seconds.
-/

namespace NeuVector.DataPath

open Library

def descUnknownIp : UInt8 := 0x10

def unknownIpCacheTimeout : Nat := 600
def policyDescVerChgMax : Nat := 60

structure UnknownIpCache where
  hdlVer : UInt16
  startHit : Nat
  lastHit : Nat
  deriving DecidableEq

/-- The cache entries by source and destination address. -/
abbrev UnknownIpMap := UInt32 × UInt32 → Option UnknownIpCache

variable (map : UnknownIpMap) (tick : Nat)

/-- Entries whose timer has run out are released; the wheel empties the slots
before the present one. -/
def rollUnknownIp : UnknownIpMap :=
  fun pair => (map pair).filter fun cache => tick ≤ cache.lastHit + unknownIpCacheTimeout

variable (pair : UInt32 × UInt32)

def addUnknownIpCache (hdlVer : UInt16) (tick : Nat) : UnknownIpMap :=
  Function.update map pair (some { hdlVer := hdlVer, startHit := tick, lastHit := tick })

def updateUnknownIpCache (cache : UnknownIpCache) (tick : Nat) : UnknownIpMap :=
  Function.update map pair (some { cache with lastHit := tick })

def PolicyDesc.openUnknown (desc : PolicyDesc) : PolicyDesc :=
  { desc with flags := (desc.flags &&& ~~~descCheckVer) ||| descUnknownIp, action := .actionOpen }

def IpType.isUnknownWl (iptype : IpType) : Bool :=
  iptype = .none || iptype = .hostIp || iptype = .tunnelIp

def dpiPolicyChkUnknownIp (hdlVer : UInt16) (pair : UInt32 × UInt32)
    (iptype : IpType) (desc : PolicyDesc) : UnknownIpMap × PolicyDesc :=
  if iptype.isUnknownWl then
    match map pair with
    | some cache =>
      if hdlVer = cache.hdlVer ∧ tick - cache.startHit < policyDescVerChgMax then
        (updateUnknownIpCache map pair cache tick, desc.openUnknown)
      else (map, desc)
    | none => (addUnknownIpCache map pair hdlVer tick, desc.openUnknown)
  else if iptype = .devIp then
    (map, { desc with
      flags := desc.flags &&& ~~~descCheckVer, action := .actionOpen })
  else (map, desc)

/-- The check answers with the open action. -/
def opensUnknown (hdlVer : UInt16) (pair : UInt32 × UInt32) (iptype : IpType) : Bool :=
  if iptype.isUnknownWl then
    (map pair).all fun cache =>
      hdlVer = cache.hdlVer && tick - cache.startHit < policyDescVerChgMax
  else iptype = .devIp

theorem dpiPolicyChkUnknownIp_desc (hdlVer : UInt16) (pair : UInt32 × UInt32)
    (iptype : IpType) (desc : PolicyDesc) :
    (dpiPolicyChkUnknownIp map tick hdlVer pair iptype desc).2.id = desc.id ∧
    (dpiPolicyChkUnknownIp map tick hdlVer pair iptype desc).2.action =
      if opensUnknown map tick hdlVer pair iptype then .actionOpen else desc.action := by
  unfold dpiPolicyChkUnknownIp opensUnknown
  by_cases unknown : iptype.isUnknownWl = true
  · rw [if_pos unknown, if_pos unknown]
    cases map pair with
    | none => exact ⟨rfl, rfl⟩
    | some cache =>
      by_cases granted : hdlVer = cache.hdlVer ∧ tick - cache.startHit < policyDescVerChgMax
      · simp [granted, PolicyDesc.openUnknown]
      · simp [granted]
  · rw [if_neg unknown, if_neg unknown]
    by_cases device : iptype = .devIp <;> simp [device]

structure LookupEnv where
  ctx : IpContext
  isPolicyAddr : UInt32 → Bool
  tick : Nat

/-- The fields of a packet that a lookup reads; the policy is for IPv4 and
for TCP, UDP and ICMP only. -/
structure LookupPacket where
  supported : Bool
  key : RuleKey
  isIngress : Bool

def policyImplicitDefault (hdl : PolicyHdl) (desc : PolicyDesc) : Bool :=
  desc.order = noOrder && desc.id = 0 && desc.flags &&& descCheckVer ≠ 0 &&
    desc.action = hdl.defAction &&
    (desc.action = .actionViolate || desc.action = .actionDeny)

variable (env : LookupEnv) (p : LookupPacket) (hdl : Option PolicyHdl)

def dpiPolicyLookup (app : UInt32) (map : UnknownIpMap) : UnknownIpMap × PolicyDesc :=
  if !p.supported then (map, emptyDesc)
  else
    let desc := dpiPolicyLookupByKey env.ctx hdl (p.key.withApp app) p.isIngress emptyDesc
    let peer := p.key.peer p.isIngress
    if desc.flags &&& descInternal ≠ 0 &&
        hdl.any (policyImplicitDefault · desc) && !env.isPolicyAddr peer then
      dpiPolicyChkUnknownIp map env.tick ((hdl.map PolicyHdl.ver).getD 0)
        (p.key.sip, p.key.dip) (env.ctx.ip4Iptype peer) desc
    else (map, desc)

structure PolicySession where
  desc : PolicyDesc
  app : UInt32
  baseApp : UInt32
  appReady : Bool
  midStream : Bool

def appUnknown : UInt32 := 0xffffffff

variable (s : PolicySession)

def PolicySession.policyApp : UInt32 :=
  if s.app ≠ 0 then s.app else if s.baseApp ≠ 0 then s.baseApp
  else appUnknown

structure Evaluated where
  map : UnknownIpMap
  desc : PolicyDesc
  eval : Bool

def lookupAgain (app : UInt32) (map : UnknownIpMap) : Evaluated :=
  let result := dpiPolicyLookup env p hdl app map
  { map := result.1, desc := result.2, eval := true }

variable (policyVer : UInt16) (state : Evaluated)

/-- A verdict on unknown addresses of another version; if they are still not
known the default action applies. -/
def reevalUnknown : Evaluated :=
  if state.desc.hdlVer ≠ policyVer ∧ state.desc.flags &&& descUnknownIp ≠ 0
  then
    let again := lookupAgain env p hdl 0 state.map
    if again.desc.flags &&& descUnknownIp ≠ 0 then
      { again with
        desc := { again.desc with
          action := (hdl.map PolicyHdl.defAction).getD .actionOpen } }
    else again
  else state

def reevalVersion : Evaluated :=
  if state.desc.hdlVer ≠ policyVer ∧ state.desc.flags &&& descCheckVer ≠ 0
  then lookupAgain env p hdl 0 state.map
  else state

/-- The lookup by application, once that is known. -/
def reevalApp : Evaluated :=
  if state.desc.action = .actionCheckApp ∧ s.appReady = true ∧
      (s.policyApp ≠ appUnknown ∨ s.midStream = false) then
    lookupAgain env p hdl s.policyApp state.map
  else state

def dpiPolicyReeval (s : PolicySession) (map : UnknownIpMap) : Evaluated :=
  reevalApp env p hdl s (reevalVersion env p hdl policyVer
      (reevalUnknown env p hdl policyVer { map := map, desc := s.desc, eval := false }))

def freshLookup (map : UnknownIpMap) : PolicyDesc :=
  (reevalApp env p hdl s (lookupAgain env p hdl 0 map)).desc

/-- The verdict is checked against the version of the policy; such a verdict
is not one of the grace for unknown addresses. -/
structure PolicyDesc.VersionChecked (desc : PolicyDesc) : Prop where
  checked : desc.flags &&& descCheckVer ≠ 0
  known : desc.flags &&& descUnknownIp = 0

/-- The version of the endpoint that a policy is installed for. -/
def policyVerOf : UInt16 := (hdl.map PolicyHdl.ver).getD 0

theorem dpiPolicyChkUnknownIp_hdlVer (hdlVer : UInt16) (pair : UInt32 × UInt32)
    (iptype : IpType) (desc : PolicyDesc) :
    (dpiPolicyChkUnknownIp map tick hdlVer pair iptype desc).2.hdlVer = desc.hdlVer := by
  unfold dpiPolicyChkUnknownIp
  split
  · split
    · split
      · rfl
      · rfl
    · rfl
  · split
    · rfl
    · rfl

theorem dpiPolicyLookup_hdlVer {app : UInt32} {map : UnknownIpMap}
    (versionChecked : (dpiPolicyLookup env p hdl app map).2.VersionChecked) :
    (dpiPolicyLookup env p hdl app map).2.hdlVer = policyVerOf hdl := by
  have byKey : ∀ key isIngress,
      (dpiPolicyLookupByKey env.ctx hdl key isIngress emptyDesc).hdlVer = policyVerOf hdl := by
    intro key isIngress
    cases hdl with
    | none => rfl
    | some hdl => rfl
  have checked := versionChecked.checked
  unfold dpiPolicyLookup at checked ⊢
  by_cases supported : p.supported = true
  · simp only [supported, Bool.not_true, Bool.false_eq_true, if_false]
    split
    · rw [dpiPolicyChkUnknownIp_hdlVer, byKey]
    · exact byKey _ _
  · simp [supported, emptyDesc] at checked

theorem PolicyDesc.openUnknown_not_checked (desc : PolicyDesc) :
    ¬desc.openUnknown.VersionChecked := by
  intro versionChecked
  apply versionChecked.checked
  change ((desc.flags &&& ~~~descCheckVer) ||| descUnknownIp) &&& descCheckVer = 0
  have apart : descCheckVer &&& descUnknownIp = 0 := by decide
  apply UInt8.toBitVec_inj.mp
  rw [UInt8.toBitVec_and, UInt8.toBitVec_or, BitVec.and_comm, BitVec.and_or_distrib_left,
    ← UInt8.toBitVec_and, ← UInt8.toBitVec_and, ← UInt8.toBitVec_or, apart, UInt8.or_zero,
    UInt8.and_comm desc.flags, ← UInt8.and_assoc, UInt8.and_not_self, UInt8.and_comm,
    UInt8.and_zero]

/-- Only an answer with the grace changes the cache. -/
theorem dpiPolicyChkUnknownIp_map {hdlVer : UInt16} {pair : UInt32 × UInt32}
    {iptype : IpType} {desc : PolicyDesc}
    (versionChecked : (dpiPolicyChkUnknownIp map tick hdlVer pair iptype desc).2.VersionChecked) :
    (dpiPolicyChkUnknownIp map tick hdlVer pair iptype desc).1 = map := by
  unfold dpiPolicyChkUnknownIp at versionChecked ⊢
  split at versionChecked
  next unknown =>
    rw [if_pos unknown]
    split at versionChecked
    next cache found =>
      split at versionChecked
      · exact absurd versionChecked desc.openUnknown_not_checked
      next refused => rw [if_neg refused]
    · exact absurd versionChecked desc.openUnknown_not_checked
  next known =>
    rw [if_neg known]
    split
    · rfl
    · rfl

theorem dpiPolicyLookup_map {app : UInt32} {map : UnknownIpMap}
    (versionChecked : (dpiPolicyLookup env p hdl app map).2.VersionChecked) :
    (dpiPolicyLookup env p hdl app map).1 = map := by
  unfold dpiPolicyLookup at versionChecked ⊢
  split at versionChecked
  next unsupported => rw [if_pos unsupported]
  next supported =>
    rw [if_neg supported]
    dsimp only at versionChecked ⊢
    split at versionChecked
    next unknown =>
      rw [if_pos unknown]
      exact dpiPolicyChkUnknownIp_map map env.tick versionChecked
    next known => rw [if_neg known]

theorem dpiPolicyLookup_none (app : UInt32) (map : UnknownIpMap) :
    (dpiPolicyLookup env p none app map).2.action = .actionOpen ∧
      (dpiPolicyLookup env p none app map).2.id = 0 := by
  by_cases supported : p.supported = true
  · simp [dpiPolicyLookup, dpiPolicyLookupByKey, supported]
  · simp [dpiPolicyLookup, supported, emptyDesc]

variable {env p hdl s} {map : UnknownIpMap}

theorem dpiPolicyReeval_changed (versionChecked : s.desc.VersionChecked)
    (changed : s.desc.hdlVer ≠ policyVerOf hdl) :
    (dpiPolicyReeval env p hdl (policyVerOf hdl) s map).desc = freshLookup env p hdl s map := by
  have kept : reevalUnknown env p hdl (policyVerOf hdl)
      { map := map, desc := s.desc, eval := false } =
        { map := map, desc := s.desc, eval := false } :=
    if_neg fun unknown => unknown.2 versionChecked.known
  have again : reevalVersion env p hdl (policyVerOf hdl)
      { map := map, desc := s.desc, eval := false } = lookupAgain env p hdl 0 map :=
    if_pos ⟨changed, versionChecked.checked⟩
  unfold dpiPolicyReeval freshLookup
  rw [kept, again]

theorem dpiPolicyReeval_same (same : s.desc.hdlVer = policyVerOf hdl)
    (settled : s.desc.action ≠ .actionCheckApp) :
    (dpiPolicyReeval env p hdl (policyVerOf hdl) s map).desc = s.desc := by
  simp [dpiPolicyReeval, reevalUnknown, reevalVersion, reevalApp, same, settled]

theorem dpiPolicyReeval_unchanged (versionChecked : s.desc.VersionChecked)
    (same : s.desc.hdlVer = policyVerOf hdl)
    (again : (dpiPolicyLookup env p hdl 0 map).2 = s.desc) :
    (dpiPolicyReeval env p hdl (policyVerOf hdl) s map).desc = freshLookup env p hdl s map := by
  have kept := dpiPolicyLookup_map env p hdl (again ▸ versionChecked)
  simp only [dpiPolicyReeval, reevalUnknown, reevalVersion, freshLookup, reevalApp, lookupAgain,
    same, again, kept, ne_eq, not_true_eq_false, false_and, if_false]
  split
  · rfl
  · rfl

theorem freshLookup_none :
    (freshLookup env p none s map).action = .actionOpen ∧
      (freshLookup env p none s map).id = 0 := by
  obtain ⟨opened, unnumbered⟩ := dpiPolicyLookup_none env p 0 map
  have notApp : ¬((lookupAgain env p none 0 map).desc.action = .actionCheckApp ∧
      s.appReady = true ∧ (s.policyApp ≠ appUnknown ∨ s.midStream = false)) := by
    intro app
    cases opened.symm.trans app.1
  unfold freshLookup reevalApp
  rw [if_neg notApp]
  exact ⟨opened, unnumbered⟩

/-- The version of the policy that is made as the given one, counted over all
endpoints. -/
def policyVersion (number : Nat) : UInt16 := getNewPolicyVer^[number] 0

/-- The policy, if there is one, is made as the given one. -/
def MadeAs (number : Nat) (hdl : Option PolicyHdl) : Prop :=
  ∀ h ∈ hdl, number ≠ 0 ∧ h.ver = policyVersion number

/-- Sessions that were evaluated under one policy have, after their next
packet, the verdict of a fresh lookup under the one installed now, which is
made so many versions later; either can be missing.  With none made since, the
policy is the same one and finds what it found. -/
def Reaches (made updates : Nat) : Prop :=
  ∀ (first env : LookupEnv) (opening p : LookupPacket) (before after : Option PolicyHdl)
    (app : UInt32) (s : PolicySession) (cached map : UnknownIpMap),
    MadeAs made before → MadeAs (made + updates) after →
    (updates = 0 → after = before ∧ (dpiPolicyLookup env p after 0 map).2 = s.desc) →
    s.desc = (dpiPolicyLookup first opening before app cached).2 → s.desc.VersionChecked →
    (dpiPolicyReeval env p after (policyVerOf after) s map).desc.action =
        (freshLookup env p after s map).action ∧
      (dpiPolicyReeval env p after (policyVerOf after) s map).desc.id =
        (freshLookup env p after s map).id

variable (ver : UInt16)

theorem getNewPolicyVer_toNat : (getNewPolicyVer ver).toNat = ver.toNat % 65535 + 1 := by
  have below := ver.toNat_lt
  have next : (ver + 1).toNat = (ver.toNat + 1) % 65536 := UInt16.toNat_add ..
  unfold getNewPolicyVer
  split
  next counted =>
    have positive : (ver + 1).toNat ≠ 0 := fun zero => counted (UInt16.toNat_inj.mp zero)
    omega
  next wrapped =>
    have zero : ver + 1 = 0 := not_not.mp wrapped
    rw [zero] at next ⊢
    change 0 = (ver.toNat + 1) % 65536 at next
    change 1 = ver.toNat % 65535 + 1
    omega

/-- The versions go round all numbers but zero. -/
theorem policyVersion_succ (number : Nat) :
    (policyVersion (number + 1)).toNat = number % 65535 + 1 := by
  induction number with
  | zero => rfl
  | succ number induction =>
    rw [policyVersion, Function.iterate_succ_apply', getNewPolicyVer_toNat,
      ← policyVersion, induction]
    omega

theorem policyVersion_ne_zero {number : Nat} (numbered : number ≠ 0) :
    policyVersion number ≠ 0 := by
  obtain ⟨number, rfl⟩ := Nat.exists_eq_succ_of_ne_zero numbered
  intro zero
  have wrapped := policyVersion_succ number
  rw [zero] at wrapped
  cases wrapped

theorem policyVersion_add_eq_iff {number : Nat} (numbered : number ≠ 0) (updates : Nat) :
    policyVersion number = policyVersion (number + updates) ↔ 65535 ∣ updates := by
  obtain ⟨number, rfl⟩ := Nat.exists_eq_succ_of_ne_zero numbered
  rw [← UInt16.toNat_inj, policyVersion_succ, Nat.succ_add, policyVersion_succ]
  omega

theorem reaches_of_not_round {made updates : Nat}
    (notRound : ¬(made ≠ 0 ∧ updates ≠ 0 ∧ 65535 ∣ updates)) : Reaches made updates := by
  intro first env opening p before after app s cached map old new unchanged evaluated
    versionChecked
  have version : s.desc.hdlVer = policyVerOf before := by
    rw [evaluated] at versionChecked ⊢
    exact dpiPolicyLookup_hdlVer first opening before versionChecked
  by_cases same : s.desc.hdlVer = policyVerOf after
  · by_cases pushed : updates = 0
    · rw [dpiPolicyReeval_unchanged versionChecked same (unchanged pushed).2]
      exact ⟨rfl, rfl⟩
    cases before with
    | some before =>
      obtain ⟨numbered, ver⟩ := old before rfl
      exfalso
      cases after with
      | some after =>
        apply notRound
        refine ⟨numbered, pushed, (policyVersion_add_eq_iff numbered updates).mp ?_⟩
        rw [← ver, ← (new after rfl).2]
        exact version.symm.trans same
      | none =>
        apply policyVersion_ne_zero numbered
        rw [← ver]
        exact version.symm.trans same
    | none =>
      cases after with
      | some after =>
        obtain ⟨numbered, ver⟩ := new after rfl
        exfalso
        apply policyVersion_ne_zero numbered
        rw [← ver]
        exact same.symm.trans version
      | none =>
        obtain ⟨opened, unnumbered⟩ := dpiPolicyLookup_none first opening app cached
        rw [← evaluated] at opened unnumbered
        have settled : s.desc.action ≠ .actionCheckApp := by
          rw [opened]
          decide
        rw [dpiPolicyReeval_same same settled, freshLookup_none.1, freshLookup_none.2]
        exact ⟨opened, unnumbered⟩
  · rw [dpiPolicyReeval_changed versionChecked same]
    exact ⟨rfl, rfl⟩

/-- A policy without rules. -/
def plainHdl (defAction : PolicyAction) : PolicyHdl :=
  dpiPolicyHdlInit defAction policyApplyIngress ver

def quietEnv : LookupEnv where
  ctx := ⟨fun _ => false, fun _ => .none, fun _ => [], fun _ _ => none⟩
  isPolicyAddr _ := false
  tick := tick

def webPacket : LookupPacket where
  supported := true
  key := { sip := 1, dip := 2, dport := 80, proto := ipprotoTcp, app := 0 }
  isIngress := true

def plainDesc (defAction : PolicyAction) : PolicyDesc :=
  { id := 0, action := defAction, flags := descCheckVer ||| descExternal
    hdlVer := ver, order := noOrder }

theorem plainHdl_lookup (defAction : PolicyAction) (map : UnknownIpMap) :
    (dpiPolicyLookup (quietEnv 0) webPacket (some (plainHdl ver defAction)) 0 map).2 =
      plainDesc ver defAction := by
  have noFqdn : ¬(plainHdl ver defAction).flag &&& policyHdlFlagFqdn ≠ 0 := by
    change ¬(0 : UInt32) &&& policyHdlFlagFqdn ≠ 0
    decide
  have byKey : dpiPolicyLookupByKey (quietEnv 0).ctx (some (plainHdl ver defAction))
      (webPacket.key.withApp 0) webPacket.isIngress emptyDesc = plainDesc ver defAction := by
    simp only [dpiPolicyLookupByKey, lookupRules, if_neg noFqdn]
    rfl
  have external : (plainDesc ver defAction).flags &&& descInternal = 0 := by
    change (descCheckVer ||| descExternal) &&& descInternal = 0
    decide
  have supported : webPacket.supported = true := rfl
  simp [dpiPolicyLookup, byKey, external, supported]

/-- A session that the default action allowed. -/
def allowedSession : PolicySession where
  desc := plainDesc ver .actionAllow
  app := 0
  baseApp := 0
  appReady := false
  midStream := false

theorem not_reaches_of_same {made updates : Nat} (numbered : made ≠ 0)
    (pushed : updates ≠ 0)
    (same : policyVersion made = policyVersion (made + updates)) : ¬Reaches made updates := by
  intro reaches
  have equal := (reaches (quietEnv 0) (quietEnv 0) webPacket webPacket
    (some (plainHdl (policyVersion made) .actionAllow))
    (some (plainHdl (policyVersion made) .actionDeny)) 0 (allowedSession (policyVersion made))
    (fun _ => none) (fun _ => none) (by simp [plainHdl, dpiPolicyHdlInit, MadeAs, numbered])
    (by simp [plainHdl, dpiPolicyHdlInit, MadeAs, numbered, same])
    (fun none => absurd none pushed) (plainHdl_lookup ..).symm
    ⟨(by decide : (descCheckVer ||| descExternal) &&& descCheckVer ≠ 0),
      (by decide : (descCheckVer ||| descExternal) &&& descUnknownIp = 0)⟩).1
  have allowed : (allowedSession (policyVersion made)).desc.action ≠ .actionCheckApp := by
    change PolicyAction.actionAllow ≠ .actionCheckApp
    decide
  have fresh : (freshLookup (quietEnv 0) webPacket
      (some (plainHdl (policyVersion made) .actionDeny)) (allowedSession (policyVersion made))
      fun _ => none).action = .actionDeny := by
    simp only [freshLookup, reevalApp, lookupAgain, plainHdl_lookup]
    rfl
  rw [dpiPolicyReeval_same rfl allowed, fresh] at equal
  cases equal

/-- A lookup of a pair of addresses that ends at the default action. -/
structure UnknownLookup where
  tick : Nat
  hdlVer : UInt16
  pair : UInt32 × UInt32
  iptype : IpType
  desc : PolicyDesc
  isDefault : desc.action ≠ .actionOpen

/-- The cache, the time, and the pairs that were answered with the default
action of a version because the grace was over. -/
structure Grace where
  map : UnknownIpMap
  now : Nat
  ended : List ((UInt32 × UInt32) × UInt16)

namespace Grace

def start : Grace := { map := fun _ => none, now := 0, ended := [] }

variable (g : Grace) (l : UnknownLookup)

def answer : UnknownIpMap × PolicyDesc :=
  dpiPolicyChkUnknownIp (rollUnknownIp g.map l.tick) l.tick l.hdlVer l.pair l.iptype l.desc

def isOpen : Bool := (g.answer l).2.action = .actionOpen

/-- The grace of the pair is over in this version. -/
def isOver : Bool :=
  l.iptype.isUnknownWl && (rollUnknownIp g.map l.tick l.pair).any fun cache =>
      cache.hdlVer = l.hdlVer && policyDescVerChgMax ≤ l.tick - cache.startHit

def step : Grace where
  map := (g.answer l).1
  now := l.tick
  ended := if g.isOver l then (l.pair, l.hdlVer) :: g.ended else g.ended

/-- Time goes on, and a pair whose grace is over is looked up before its entry
is released, and not as a pair of a device. -/
def InTime : Prop :=
  g.now ≤ l.tick ∧ ((l.pair, l.hdlVer) ∈ g.ended →
    l.iptype ≠ .devIp ∧ (rollUnknownIp g.map l.tick l.pair).isSome)

def InTimeRun (g : Grace) : List UnknownLookup → Prop
  | [] => True
  | l :: lookups => g.InTime l ∧ InTimeRun (g.step l) lookups

/-- The entries of pairs whose grace is over are old. -/
def Sound : Prop :=
  ∀ pair ver, (pair, ver) ∈ g.ended → ∀ cache, g.map pair = some cache →
    cache.hdlVer = ver → cache.startHit + policyDescVerChgMax ≤ g.now

variable {g : Grace} {l : UnknownLookup}

theorem Sound.not_open (sound : g.Sound) (inTime : g.InTime l)
    (ended : (l.pair, l.hdlVer) ∈ g.ended) : g.isOpen l = false := by
  obtain ⟨later, cached⟩ := inTime
  obtain ⟨notDevice, isCached⟩ := cached ended
  obtain ⟨cache, found⟩ := Option.isSome_iff_exists.mp isCached
  have kept : (g.answer l).2 = l.desc := by
    unfold answer dpiPolicyChkUnknownIp
    rw [found]
    split
    · apply congrArg Prod.snd (if_neg _)
      intro granted
      have kept := (Option.filter_eq_some_iff.mp found).1
      have old := sound _ _ ended cache kept granted.1.symm
      omega
    · rfl
  unfold isOpen
  rw [kept]
  exact decide_eq_false l.isDefault

/-- What the cache holds for a pair after a lookup: an entry that was there,
with the same start, or a new one of a pair that had none. -/
theorem step_entry {pair : UInt32 × UInt32} {after : UnknownIpCache}
    (found : (g.step l).map pair = some after) :
    (∃ cache, g.map pair = some cache ∧ after.hdlVer = cache.hdlVer ∧
      after.startHit = cache.startHit) ∨
    pair = l.pair ∧ after.hdlVer = l.hdlVer ∧ rollUnknownIp g.map l.tick l.pair = none := by
  have rolled : ∀ cache, rollUnknownIp g.map l.tick pair = some cache →
      ∃ cache', g.map pair = some cache' ∧ cache.hdlVer = cache'.hdlVer ∧
        cache.startHit = cache'.startHit :=
    fun cache held => ⟨cache, (Option.filter_eq_some_iff.mp held).1, rfl, rfl⟩
  change (g.answer l).1 pair = some after at found
  unfold answer dpiPolicyChkUnknownIp at found
  split at found
  · split at found
    next cache held =>
      split at found
      · simp only [updateUnknownIpCache, Function.update_apply] at found
        split at found
        next same =>
          cases found
          exact .inl (rolled cache (same ▸ held))
        · exact .inl (rolled after found)
      · exact .inl (rolled after found)
    next missing =>
      simp only [addUnknownIpCache, Function.update_apply] at found
      split at found
      next same =>
        cases found
        exact .inr ⟨same, rfl, missing⟩
      · exact .inl (rolled after found)
  · split at found
    · exact .inl (rolled after found)
    · exact .inl (rolled after found)

theorem Sound.step (sound : g.Sound) (inTime : g.InTime l) : (g.step l).Sound := by
  intro pair ver ended after found sameVer
  have past : (pair, ver) ∉ g.ended → pair = l.pair ∧ ver = l.hdlVer ∧
      ∃ cache, rollUnknownIp g.map l.tick l.pair = some cache ∧
        cache.startHit + policyDescVerChgMax ≤ l.tick := by
    intro before
    simp only [Grace.step] at ended
    split at ended
    next isOver =>
      rcases List.mem_cons.mp ended with same | old
      · cases same
        simp only [Grace.isOver, Bool.and_eq_true, Option.any_eq_true, decide_eq_true_eq] at isOver
        obtain ⟨_, cache, held, _, late⟩ := isOver
        refine ⟨rfl, rfl, cache, held, ?_⟩
        unfold policyDescVerChgMax at late ⊢
        omega
      · exact absurd old before
    · exact absurd ended before
  rcases step_entry found with ⟨cache, held, version, begun⟩ | ⟨samePair, version, missing⟩
  · rw [begun]
    by_cases before : (pair, ver) ∈ g.ended
    · exact Nat.le_trans (sound pair ver before cache held (version.symm.trans sameVer)) inTime.1
    · obtain ⟨samePair, _, other, rolled, past⟩ := past before
      have same := (samePair ▸ (Option.filter_eq_some_iff.mp rolled).1).symm.trans held
      cases same
      exact past
  · exfalso
    by_cases before : (pair, ver) ∈ g.ended
    · have cached := inTime.2 (by
        rw [← samePair, ← version, sameVer]
        exact before)
      rw [missing] at cached
      exact Bool.false_ne_true cached.2
    · obtain ⟨_, _, other, rolled, _⟩ := past before
      cases missing.symm.trans rolled

theorem run_sound {lookups : List UnknownLookup} (sound : g.Sound) (inTime : g.InTimeRun lookups) :
    (lookups.foldl step g).Sound := by
  induction lookups generalizing g with
  | nil => exact sound
  | cons l lookups induction => exact induction (sound.step inTime.1) inTime.2

/-- A pair that was answered with the default action because its grace was
over is not answered with the open one again, as long as its entry is in the
cache. -/
theorem grace_ends (lookups : List UnknownLookup) (l : UnknownLookup)
    (inTime : start.InTimeRun lookups) (last : (lookups.foldl step start).InTime l)
    (ended : (l.pair, l.hdlVer) ∈ (lookups.foldl step start).ended) :
    (lookups.foldl step start).isOpen l = false :=
  (run_sound (fun _ _ member => absurd member List.not_mem_nil) inTime).not_open last ended

/-- A lookup of two addresses of no known workload. -/
def denied : UnknownLookup where
  tick := tick
  hdlVer := 1
  pair := (1, 2)
  iptype := .none
  desc := notFoundDesc (plainHdl 1 .actionDeny)
  isDefault := by decide

theorem grace_ends_minutes :
    (([denied 0, denied 60].foldl step start).isOpen (denied 600)) = false :=
  grace_ends [denied 0, denied 60] (denied 600)
    ⟨⟨by decide, by decide⟩, ⟨by decide, by decide⟩, trivial⟩
    ⟨by decide, by decide⟩ (by decide)

/-- More than ten minutes after the last lookup that was answered with the open
action the grace starts again. -/
theorem grace_starts_again :
    ((1, 2), 1) ∈ ([denied 0, denied 60].foldl step start).ended ∧
      ([denied 0, denied 60].foldl step start).isOpen (denied 601) = true := by decide

end Grace

end NeuVector.DataPath
