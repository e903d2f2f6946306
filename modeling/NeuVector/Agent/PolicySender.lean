import NeuVector.DataPath.PolicyMessages

/-!
# Sending a policy to the data path

`DPCtrlConfigPolicy` of the agent cuts the rules of a workload into messages.
It starts with forty rules a message and, when a message is too large, comes
back to the same place with a smaller number estimated from its size.  The
size of a message and the outcome of each write are parameters.
-/

namespace NeuVector.Agent

open DataPath List

def maxMsgSize : Nat := 8120

/-- A positive number of rules; the source returns before it uses zero. -/
abbrev BatchSize := { rules : Nat // 0 < rules }

variable (num : Nat) (rulesPerMsg : BatchSize)

/-- The number of rules of the next message, `end - start` in the source. -/
def batchCount : Nat :=
  if num ≤ rulesPerMsg.val then num else rulesPerMsg.val

def policyMessage (cmd : CfgCmd) (policy : Policy) (start num : Nat)
    (rulesPerMsg : BatchSize) : PolicyMsg :=
  { cmd := cmd
    policy :=
      { policy with ruleList := (policy.ruleList.drop start).take (batchCount num rulesPerMsg) }
    flag := sliceFlag (start == 0) (num ≤ rulesPerMsg.val) }

/-- The new estimate after a message of `size` bytes with `count` rules. -/
def newRulesPerMsg (size count rulesPerMsg : Nat) : Nat :=
  let estimate := maxMsgSize / (size / count + 1)
  if estimate = rulesPerMsg then estimate - 1 else estimate

/-- The estimate is below the number of rules that did not fit, so the
correction for an unchanged estimate never acts. -/
theorem estimate_lt_count {size count : Nat} (large : maxMsgSize < size)
    (positive : 0 < count) : maxMsgSize / (size / count + 1) < count := by
  apply (Nat.div_lt_iff_lt_mul (Nat.succ_pos _)).mpr
  exact Nat.lt_trans large (Nat.lt_mul_div_succ size positive)

theorem batchCount_le : batchCount num rulesPerMsg ≤ rulesPerMsg.val := by
  unfold batchCount
  split
  · assumption
  · exact Nat.le_refl _

variable {rulesPerMsg : BatchSize} {policy : Policy} {cmd : CfgCmd} {num : Nat}

theorem batchCount_pos (nonempty : 0 < num) (rulesPerMsg : BatchSize) :
    0 < batchCount num rulesPerMsg := by
  unfold batchCount
  split
  · exact nonempty
  · exact rulesPerMsg.property

theorem newRulesPerMsg_lt {size : Nat} (large : maxMsgSize < size)
    (positive : 0 < batchCount num rulesPerMsg) :
    newRulesPerMsg size (batchCount num rulesPerMsg) rulesPerMsg.val < rulesPerMsg.val := by
  have below := Nat.lt_of_lt_of_le (estimate_lt_count large positive)
    (batchCount_le num rulesPerMsg)
  unfold newRulesPerMsg
  simp only
  split <;> omega

/-- What the retry loop comes to for one message: a number of rules that
fits, a single rule that does not, or a division by zero when an empty list
does not fit. -/
inductive Batch where
  | fits (rulesPerMsg : BatchSize)
  | tooLarge
  | divideByZero

def fitBatch (size : PolicyMsg → Nat) (cmd : CfgCmd) (policy : Policy)
    (start num : Nat) (rulesPerMsg : BatchSize) : Batch :=
  let sz := size (policyMessage cmd policy start num rulesPerMsg)
  if _large : maxMsgSize < sz then
    let count := batchCount num rulesPerMsg
    if _empty : count = 0 then .divideByZero
    else
      let new := newRulesPerMsg sz count rulesPerMsg.val
      if zero : new = 0 then .tooLarge
      else fitBatch size cmd policy start num ⟨new, Nat.pos_of_ne_zero zero⟩
  else .fits rulesPerMsg
termination_by rulesPerMsg.val
decreasing_by exact newRulesPerMsg_lt _large (Nat.pos_of_ne_zero _empty)

inductive SendResult where
  | returned (code : Int) (sent : List PolicyMsg)
  | panicked (sent : List PolicyMsg)

/-- The sending loop; `link` tells whether the next write succeeds. -/
def sendLoop (size : PolicyMsg → Nat) (link : Nat → Bool) (cmd : CfgCmd)
    (policy : Policy) (start num : Nat) (rulesPerMsg : BatchSize)
    (sent : List PolicyMsg) : SendResult :=
  match fitBatch size cmd policy start num rulesPerMsg with
  | .divideByZero => .panicked sent
  | .tooLarge => .returned (-1) sent
  | .fits rulesPerMsg =>
    let count := batchCount num rulesPerMsg
    let message := policyMessage cmd policy start num rulesPerMsg
    if link sent.length then
      if _more : 0 < num - count then
        sendLoop size link cmd policy (start + count) (num - count) rulesPerMsg (sent ++ [message])
      else .returned 0 (sent ++ [message])
    else .returned (-1) sent
termination_by num
decreasing_by
  have positive : 0 < batchCount num rulesPerMsg := batchCount_pos (by omega) rulesPerMsg
  omega

def dpCtrlConfigPolicy (size : PolicyMsg → Nat) (link : Nat → Bool)
    (policy : Policy) (cmd : CfgCmd) : SendResult :=
  sendLoop size link cmd policy 0 policy.ruleList.length ⟨40, by decide⟩ []

variable {size : PolicyMsg → Nat} {start : Nat}

theorem fitBatch_size {fitting : BatchSize}
    (fits : fitBatch size cmd policy start num rulesPerMsg = .fits fitting) :
    size (policyMessage cmd policy start num fitting) ≤ maxMsgSize := by
  fun_induction fitBatch size cmd policy start num rulesPerMsg with
  | case1 | case2 => simp at fits
  | case3 rulesPerMsg sz large count nonempty new positive induction => exact induction fits
  | case4 rulesPerMsg sz small =>
    have same : rulesPerMsg = fitting := by simpa using fits
    subst same
    exact Nat.le_of_not_lt small

/-- The messages of a successful run, as consecutive slices. -/
structure SentSlices (size : PolicyMsg → Nat) (cmd : CfgCmd)
    (policy : Policy) (start : Nat) (before after : List PolicyMsg)
    (slices : List (List PolicyRule)) : Prop where
  nonempty : slices ≠ []
  sent : after = before ++ sliceMessages cmd policy (start == 0) slices
  complete : slices.flatten = policy.ruleList.drop start
  filled : start < policy.ruleList.length → ∀ slice ∈ slices, slice ≠ []
  fitting : ∀ message ∈ sliceMessages cmd policy (start == 0) slices, size message ≤ maxMsgSize

theorem policyMessage_last (remaining : start + num = policy.ruleList.length)
    (done : ¬ 0 < num - batchCount num rulesPerMsg) :
    [policyMessage cmd policy start num rulesPerMsg] = sliceMessages cmd policy (start == 0)
        [policy.ruleList.drop start] := by
  have small : num ≤ rulesPerMsg.val := by
    unfold batchCount at done
    split at done <;> omega
  have all : batchCount num rulesPerMsg = num := by
    unfold batchCount
    rw [if_pos small]
  have length : (policy.ruleList.drop start).length = num := by
    rw [length_drop]
    omega
  unfold policyMessage
  rw [all, ← length, take_length]
  simp [sliceMessages, length, small]

theorem policyMessage_next {rest : List (List PolicyRule)}
    (more : 0 < num - batchCount num rulesPerMsg) (nonempty : rest ≠ []) :
    sliceMessages cmd policy (start == 0)
        ((policy.ruleList.drop start).take (batchCount num rulesPerMsg) :: rest) =
      policyMessage cmd policy start num rulesPerMsg :: sliceMessages cmd policy false rest := by
  have large : ¬ num ≤ rulesPerMsg.val := by
    intro small
    unfold batchCount at more
    rw [if_pos small] at more
    omega
  have later : rest.isEmpty = false := by simpa using nonempty
  simp [sliceMessages, policyMessage, large, later]

theorem sendLoop_slices {link : Nat → Bool} {before after : List PolicyMsg}
    (remaining : start + num = policy.ruleList.length)
    (success : sendLoop size link cmd policy start num rulesPerMsg before = .returned 0 after) :
    ∃ slices, SentSlices size cmd policy start before after slices := by
  fun_induction sendLoop size link cmd policy start num rulesPerMsg before with
  | case1 | case2 | case5 => simp at success
  | case3 start num rulesPerMsg before fitting fits count message up more
      induction =>
      have inside : batchCount num fitting ≤ num := by grind [batchCount]
      obtain ⟨rest, spec⟩ := induction (by omega) success
      have head : sliceMessages cmd policy (start == 0) _ = _ :=
        policyMessage_next more spec.nonempty
      have positive : 0 < count := batchCount_pos (by omega) fitting
      have later : (start + count == 0) = false := by
        rw [beq_eq_false_iff_ne]
        omega
      have messages : sliceMessages cmd policy (start == 0)
          ((policy.ruleList.drop start).take count :: rest) =
          message :: sliceMessages cmd policy (start + count == 0) rest := by
        rw [later]
        exact head
      refine ⟨(policy.ruleList.drop start).take count :: rest, by simp, ?_, ?_, ?_, ?_⟩
      · rw [messages, spec.sent]
        simp
      · rw [flatten_cons, spec.complete, ← drop_drop, take_append_drop]
      · intro _ slice member
        rcases mem_cons.mp member with rfl | there
        · intro empty
          have none := congrArg length empty
          rw [length_take, length_drop, length_nil] at none
          omega
        · exact spec.filled (by omega) slice there
      · rw [messages]
        intro other member
        rcases mem_cons.mp member with rfl | there
        · exact fitBatch_size fits
        · exact spec.fitting other there
  | case4 start num rulesPerMsg before fitting fits count message up done =>
    have same : before ++ [message] = after := by simpa using success
    have single : [message] = sliceMessages cmd policy (start == 0) _ :=
      policyMessage_last remaining done
    refine ⟨[policy.ruleList.drop start], by simp, ?_, by simp, ?_, ?_⟩
    · rw [← same, ← single]
    · intro inside slice member
      have whole : slice = policy.ruleList.drop start := by simpa using member
      rw [whole]
      intro empty
      have none := congrArg length empty
      simp at none
      omega
    · intro other member
      rw [← single] at member
      have only := mem_singleton.mp member
      rw [only]
      exact fitBatch_size fits

/-- The sent messages are the consecutive slices of the rule list with the
flags of the first and the last one, and each fits. -/
structure ExactMessages (size : PolicyMsg → Nat) (cmd : CfgCmd)
    (policy : Policy) (sent : List PolicyMsg) : Prop where
  rules : (sent.map fun message => message.policy.ruleList).flatten = policy.ruleList
  flags : ∀ index message, sent[index]? = some message →
    hasStart message.flag = (index == 0) ∧ hasEnd message.flag = decide (index + 1 = sent.length)
  fitting : ∀ message ∈ sent, size message ≤ maxMsgSize
  nonempty : sent ≠ []

def DeliveredTo (cmd : CfgCmd) (policy : Policy) (sent : List PolicyMsg)
    (ctx : IpContext) (state : PolicyState) (mac : EtherAddr) : Prop :=
  (cmd ≠ .delete → Installed (runMessages ctx sent state) mac
      (builtHdl ctx policy.ruleList policy.defAction policy.applyDir
        (getNewPolicyVer state.policyVer))) ∧
  (cmd = .delete → sent.length = 1 → installedHdl (runMessages ctx sent state) mac = none)

theorem SentSlices.exact {sent : List PolicyMsg}
    {slices : List (List PolicyRule)} (spec : SentSlices size cmd policy 0 [] sent slices) :
    ExactMessages size cmd policy sent := by
  have messages : sent = sliceMessages cmd policy true slices := by simpa using spec.sent
  have lengths : sent.length = slices.length := by rw [messages, sliceMessages_length]
  refine ⟨?_, ?_, ?_, ?_⟩
  · rw [messages, sliceMessages_rules, spec.complete]
    rfl
  · intro index message found
    rw [messages] at found
    have flags := sliceMessages_flags found
    rw [lengths]
    simpa using flags
  · rw [messages]
    exact spec.fitting
  · intro empty
    apply spec.nonempty
    rw [← length_eq_zero_iff, ← lengths, empty]
    rfl

theorem SentSlices.delivered {sent : List PolicyMsg} {slices : List (List PolicyRule)}
    (spec : SentSlices size cmd policy 0 [] sent slices) (ctx : IpContext)
    {state : PolicyState} (valid : ValidState state)
    (few : policy.macList.length < 65536) {mac : EtherAddr} (listed : mac ∈ policy.macList)
    (present : (state.epMap mac).isSome = true) :
    DeliveredTo cmd policy sent ctx state mac := by
  have messages : sent = sliceMessages cmd policy true slices := by simpa using spec.sent
  have complete : slices.flatten = policy.ruleList := by simpa using spec.complete
  refine ⟨?_, ?_⟩
  · intro keeps
    rw [messages, ← complete]
    exact runMessages_installs keeps few listed spec.nonempty valid present
  · intro isDelete single
    rw [messages, sliceMessages_length] at single
    obtain ⟨slice, rfl⟩ := length_eq_one_iff.mp single
    rw [messages, isDelete]
    exact dpiPolicyCfg_delete ctx state listed

/-- The retry loop always lowers its estimate, and a successful call has
delivered exactly the rule list. -/
theorem dpCtrlConfigPolicy_delivers_exactly (size : PolicyMsg → Nat)
    (link : Nat → Bool) (policy : Policy) (cmd : CfgCmd) :
    (∀ sz num rulesPerMsg, maxMsgSize < sz → 0 < batchCount num rulesPerMsg →
      newRulesPerMsg sz (batchCount num rulesPerMsg) rulesPerMsg.val < rulesPerMsg.val) ∧
    ∀ sent, dpCtrlConfigPolicy size link policy cmd = .returned 0 sent →
      ExactMessages size cmd policy sent ∧
      ∀ ctx state mac, ValidState state → policy.macList.length < 65536 → mac ∈ policy.macList →
        (state.epMap mac).isSome = true →
        DeliveredTo cmd policy sent ctx state mac := by
  refine ⟨fun _ _ _ large positive => newRulesPerMsg_lt large positive, ?_⟩
  intro sent success
  obtain ⟨slices, spec⟩ := sendLoop_slices (by simp) success
  refine ⟨spec.exact, ?_⟩
  intro ctx state mac valid few listed present
  exact spec.delivered ctx valid few listed present

def samplePair : Policy :=
  { samplePolicy with
    ruleList := [sampleRule 1 80 90 .actionAllow [], sampleRule 2 70 85 .actionDeny []] }

theorem samplePair_sent (cmd : CfgCmd) :
    dpCtrlConfigPolicy (fun _ => 100) (fun _ => true) samplePair cmd = .returned 0
        [{ cmd := cmd, policy := samplePair, flag := sliceFlag true true }] := by
  unfold dpCtrlConfigPolicy sendLoop fitBatch
  rfl

/-- The pair is installed at the endpoint of the sample state. -/
theorem dpCtrlConfigPolicy_delivers_exactly_pair :
    Installed (runMessages sampleContext
        [{ cmd := .modify, policy := samplePair, flag := sliceFlag true true }] sampleState) 1
      (builtHdl sampleContext samplePair.ruleList .actionDeny samplePair.applyDir 1) := by
  have delivered := (dpCtrlConfigPolicy_delivers_exactly (fun _ => 100)
    (fun _ => true) samplePair .modify).2 _ (samplePair_sent .modify)
  exact (delivered.2 sampleContext sampleState 1 sampleState_valid (by decide)
    (by decide) (by decide)).1 (by decide)

/-- A deletion reported as a success installs no handle at all. -/
theorem dpCtrlConfigPolicy_delete_installs_nothing :
    dpCtrlConfigPolicy (fun _ => 100) (fun _ => true) samplePair .delete = .returned 0
          [{ cmd := .delete, policy := samplePair, flag := sliceFlag true true }] ∧
      installedHdl (runMessages sampleContext
          [{ cmd := .delete
             policy := samplePair
             flag := sliceFlag true true }] sampleState) 1 = none :=
  ⟨samplePair_sent .delete, by decide⟩

end NeuVector.Agent
