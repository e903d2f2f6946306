import NeuVector.Agent.PolicyRoundTrip

/-!
# Policies that are published while writes fail

The controller writes the slots of a policy under a version of its own and
publishes the version when all of them are there.  Any write may fail, and
slots that are no longer needed may stay.  Whatever happens, the agents find
all slots of the version that is published.
-/

namespace NeuVector.Agent

open Library Controller

variable {Addr Bytes : Type}

section Writing

variable {outcome : PutOutcome} {kv : PolicyKV Bytes} {key : SlotKey}

theorem policyIPRulesCleanup_lookup {ruleKeys : List SlotKey} (kept : key ∉ ruleKeys) :
    (policyIPRulesCleanup outcome ruleKeys kv).slots.lookup key = kv.slots.lookup key := by
  refine List.foldlRecOn (motive := fun slots : GoMap SlotKey Bytes =>
    slots.lookup key = kv.slots.lookup key) _ _ rfl ?_
  intro slots same other member
  have different : key ≠ other := by
    rintro rfl
    exact kept (List.mem_filter.mp member).1
  rw [AList.lookup_erase_ne different]
  exact same

theorem putSlots_policyVer (i : Nat) (zbs : List Bytes) :
    (putSlots outcome i kv zbs).1.policyVer = kv.policyVer := by
  induction zbs generalizing i kv with
  | nil => rfl
  | cons zb rest induction =>
    unfold putSlots
    split
    · rfl
    · exact induction (i + 1)

theorem putSlots_other {i : Nat} {zbs : List Bytes}
    (other : key.version = outcome.verstr → key.slot < i) :
    (putSlots outcome i kv zbs).1.slots.lookup key = kv.slots.lookup key := by
  induction zbs generalizing i kv with
  | nil => rfl
  | cons zb rest induction =>
    unfold putSlots
    split
    · rfl
    · have different : key ≠ ⟨outcome.verstr, i⟩ := by
        rintro rfl
        exact Nat.lt_irrefl _ (other rfl)
      rw [induction fun same => Nat.lt_succ_of_lt (other same), AList.lookup_insert_ne different]

theorem putSlots_written {i j : Nat} {zbs : List Bytes}
    (all : (putSlots outcome i kv zbs).2 = true)
    (unused : kv.slots.lookup ⟨outcome.verstr, i + j⟩ = none) :
    (putSlots outcome i kv zbs).1.slots.lookup ⟨outcome.verstr, i + j⟩ = zbs[j]? := by
  induction zbs generalizing i j kv with
  | nil => exact unused
  | cons first rest induction =>
    unfold putSlots at all ⊢
    split at all
    · cases all
    next put =>
      rw [if_neg put]
      cases j with
      | zero =>
        rw [Nat.add_zero, putSlots_other fun _ => Nat.lt_succ_self i]
        exact AList.lookup_insert _
      | succ j =>
        rw [← Nat.succ_add_eq_add_succ] at unused ⊢
        apply induction all
        rw [AList.lookup_insert_ne (by simp; omega)]
        exact unused

end Writing

variable (codec : SlotCodec Addr Bytes)

/-- Nothing is stored or published under the version yet. -/
structure Unused (verstr : String) (kv : PolicyKV Bytes) : Prop where
  slots : ∀ key ∈ kv.slots.keys, key.version ≠ verstr
  published : ∀ ver, kv.policyVer = some ver → ver.policyIPRulesVersion ≠ verstr

/-- The store after writes with any outcome, the last one first.  A version is
made from the time, so that every write has its own. -/
inductive Writes : List (PutOutcome × List (GroupIPPolicy Addr)) → PolicyKV Bytes → Prop
  | start : Writes [] { slots := ∅, policyVer := none }
  | put {writes : List (PutOutcome × List (GroupIPPolicy Addr))} {outcome : PutOutcome}
      {rules : List (GroupIPPolicy Addr)} {kv after : PolicyKV Bytes} (before : Writes writes kv)
      (unused : Unused outcome.verstr kv)
      (done : putPolicyIPRulesToClusterScale codec outcome rules kv = .ok after) :
      Writes ((outcome, rules) :: writes) after

/-- The version is that of a write, all of whose slots are stored. -/
def Complete (writes : List (PutOutcome × List (GroupIPPolicy Addr))) (kv : PolicyKV Bytes)
    (ver : PolicyVer) : Prop :=
  ∃ write ∈ writes, ∃ prepared, preparePolicySlots codec write.2 = .ok prepared ∧
    ver = policyVerOf write.1.verstr write.2 prepared ∧
    ∀ i, kv.slots.lookup ⟨write.1.verstr, i⟩ = prepared.zbs[i]?

/-- Whatever fails in any number of writes, the version that is published has
exactly the slots of the write that published it. -/
theorem published_slots_complete {codec : SlotCodec Addr Bytes}
    {writes : List (PutOutcome × List (GroupIPPolicy Addr))} {kv : PolicyKV Bytes}
    {ver : PolicyVer} (written : Writes codec writes kv) (published : kv.policyVer = some ver) :
    Complete codec writes kv ver := by
  induction written with
  | start => cases published
  | @put writes outcome rules kv after before unused done induction =>
    unfold putPolicyIPRulesToClusterScale at done
    simp only at done
    split at done
    · cases done
      obtain ⟨write, member, parts⟩ := induction published
      exact ⟨write, List.mem_cons_of_mem _ member, parts⟩
    · cases done
    next prepared slots =>
      split at done
      · cases done
        change (putSlots outcome 0 kv prepared.zbs).1.policyVer = some ver at published
        rw [putSlots_policyVer] at published
        obtain ⟨write, member, old, isPrepared, rfl, held⟩ := induction published
        have other : write.1.verstr ≠ outcome.verstr := unused.published _ published
        refine ⟨write, List.mem_cons_of_mem _ member, old, isPrepared, rfl, fun i => ?_⟩
        rw [policyIPRulesCleanup_lookup, putSlots_other fun new => absurd new other]
        · exact held i
        · intro listed
          exact other (of_decide_eq_true (List.mem_filter.mp listed).2)
      next success =>
        cases done
        cases published
        refine ⟨(outcome, rules), List.mem_cons_self, prepared, slots, rfl, fun i => ?_⟩
        have all : (putSlots outcome 0 kv prepared.zbs).2 = true := by
          simpa using (not_or.mp success).1
        have free : kv.slots.lookup ⟨outcome.verstr, 0 + i⟩ = none :=
          AList.lookup_eq_none.mpr fun listed => unused.slots _ listed rfl
        have slot := putSlots_written all free
        rw [Nat.zero_add] at slot
        rw [policyIPRulesCleanup_lookup]
        · exact slot
        · exact fun listed => unused.slots _ listed rfl

def goodPut : PutOutcome :=
  { verstr := "ver.1", putFails := fun _ => false, verFails := false, deleted := fun _ => true }

def failedPut : PutOutcome := { goodPut with verstr := "ver.2", putFails := fun slot => slot == 1 }

/-- The second write fails at its second slot. -/
theorem published_slots_complete_failed :
    ∃ kv ver, Complete plainCodec
      [(failedPut, [defaultRule [1], sampleRule]), (goodPut, [defaultRule [1, 2], sampleRule])]
      kv ver := by
  have first := @Writes.put _ _ plainCodec [] goodPut [defaultRule [1, 2], sampleRule] _ _
    .start ⟨nofun, nofun⟩ rfl
  have second := @Writes.put _ _ _ _ failedPut [defaultRule [1], sampleRule] _ _
    first ⟨by decide, by decide⟩ rfl
  exact ⟨_, _, published_slots_complete second rfl⟩

end NeuVector.Agent
