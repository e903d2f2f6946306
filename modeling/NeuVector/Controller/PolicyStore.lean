import Mathlib.Data.List.AList
import Mathlib.Data.List.Range

/-!
# Stored policy rules

The policy of a cluster is stored as a list of rule heads, which gives the
order, and one entry for each rule.  This module has the types shared by the
functions that rewrite the list, and the choice of ids for new rules of
`controller/common/common.go`.  Ids are far below the range of their machine
type, so they are natural numbers.
-/

namespace NeuVector.Controller

open List

inductive CfgType where
  | learned
  | userCreated
  | ground
  | federal
  | systemDefined
  /-- The zero value, of a name that stands for no kind. -/
  | unset
  deriving DecidableEq

structure RuleHead where
  id : Nat
  priority : Nat
  cfgType : CfgType
  deriving DecidableEq

structure PolicyRule where
  id : Nat
  comment : String
  fromGroup : String
  toGroup : String
  ports : String
  applications : List Nat
  action : String
  disable : Bool
  createdAt : Nat
  lastModAt : Nat
  cfgType : CfgType
  priority : Nat
  deriving DecidableEq

/-- A map of the source; what enumerates it gets the entries in any order. -/
abbrev GoMap (κ ν : Type) := AList fun _ : κ => ν

/-- An order in which a map is enumerated. -/
structure MapOrder (κ : Type) where
  order : List κ → List κ
  order_perm : ∀ keys, (order keys).Perm keys

def policyLearnedIDBase : Nat := 10000
def policyFedRuleIDBase : Nat := 100000
def policyFedRuleIDMax : Nat := 110000
def policyGroundRuleIDBase : Nat := 110000
def policyGroundRuleIDMax : Nat := 120000

def policyIDMin : CfgType → Nat
  | .ground => policyGroundRuleIDBase + 1
  | .federal => policyFedRuleIDBase + 1
  | .learned => policyLearnedIDBase + 1
  | _ => 1

/-- The end of the ids of a kind of rule, exclusive. -/
def policyIDMax : CfgType → Nat
  | .ground => policyGroundRuleIDMax
  | .federal => policyFedRuleIDMax
  | .learned => policyFedRuleIDBase
  | _ => policyLearnedIDBase

def largestID (idMax start : Nat) (ids : List Nat) : Nat :=
  ids.foldl (fun max id => if id < idMax ∧ id > max then id else max) start

/-- The next largest id of a kind of rule, or else the smallest one that is
not used; zero if all ids are used. -/
def getAvailablePolicyID (ids : List Nat) (cfgType : CfgType) : Nat :=
  let idMin := policyIDMin cfgType
  let idMax := policyIDMax cfgType
  let max := largestID idMax (idMin - 1) ids
  if max < idMax - 1 then max + 1
  else
    ((List.range' idMin (idMax - idMin)).find? fun id => !ids.contains id).getD 0

def freeIDs (ids : List Nat) (cfgType : CfgType) : List Nat :=
  (List.range' (policyIDMin cfgType) (policyIDMax cfgType - policyIDMin cfgType)).filter fun id =>
      !ids.contains id

def availableIDs (cfgType : CfgType) : List Nat → Nat → List Nat
  | _, 0 => []
  | ids, count + 1 =>
    let id := getAvailablePolicyID ids cfgType
    id :: availableIDs cfgType (id :: ids) count

section IDs

variable {ids : List Nat} {cfgType : CfgType}

theorem mem_freeIDs {id : Nat} :
    id ∈ freeIDs ids cfgType ↔
      (policyIDMin cfgType ≤ id ∧ id < policyIDMax cfgType) ∧ id ∉ ids := by
  have range : policyIDMin cfgType ≤ policyIDMax cfgType := by cases cfgType <;> decide
  simp only [freeIDs, mem_filter, mem_range'_1,
    Bool.not_eq_true', contains_eq_mem, decide_eq_false_iff_not]
  rw [Nat.add_sub_cancel' range]

theorem largestID_spec (idMax start : Nat) (ids : List Nat) :
    start ≤ largestID idMax start ids ∧
      ∀ id ∈ ids, id < idMax → id ≤ largestID idMax start ids := by
  induction ids generalizing start with
  | nil => exact ⟨Nat.le_refl _, fun _ member => absurd member (by simp)⟩
  | cons first rest induction =>
    obtain ⟨above, all⟩ := induction (if first < idMax ∧ first > start then first else start)
    have step : start ≤ (if first < idMax ∧ first > start then first else start) ∧
        (first < idMax → first ≤ (if first < idMax ∧ first > start then first else start)) := by
      split
      · omega
      · omega
    refine ⟨Nat.le_trans step.1 above, ?_⟩
    intro id member below
    rcases mem_cons.mp member with rfl | later
    · exact Nat.le_trans (step.2 below) above
    · exact all id later below

theorem nextID_free
    (next : largestID (policyIDMax cfgType) (policyIDMin cfgType - 1) ids <
      policyIDMax cfgType - 1) :
    largestID (policyIDMax cfgType) (policyIDMin cfgType - 1) ids + 1 ∈ freeIDs ids cfgType := by
  obtain ⟨above, all⟩ := largestID_spec (policyIDMax cfgType) (policyIDMin cfgType - 1) ids
  apply mem_freeIDs.mpr
  refine ⟨⟨by omega, by omega⟩, ?_⟩
  intro used
  have bound := all _ used (by omega)
  omega

theorem getAvailablePolicyID_free (some : freeIDs ids cfgType ≠ []) :
    getAvailablePolicyID ids cfgType ∈ freeIDs ids cfgType := by
  unfold getAvailablePolicyID
  simp only
  split
  next next => exact nextID_free next
  · obtain ⟨id, member⟩ := exists_mem_of_ne_nil _ some
    have found := mem_filter.mp member
    cases result : (range' (policyIDMin cfgType)
        (policyIDMax cfgType - policyIDMin cfgType)).find? fun id =>
          !ids.contains id with
    | none =>
      have refused := find?_eq_none.mp result id found.1
      exact absurd found.2 refused
    | some first =>
      have passes : (!ids.contains first) = true := by simpa using find?_some result
      exact mem_filter.mpr ⟨mem_of_find?_eq_some result, passes⟩

end IDs

end NeuVector.Controller
