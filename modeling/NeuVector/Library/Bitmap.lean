import Mathlib.Data.List.Basic

/-!
# Bitmaps

A bitmap of a fixed number of positions, with a search for the next clear
position that starts anywhere and wraps around.
-/

namespace NeuVector.Library

structure Bitmap where
  bits : List Bool
  deriving DecidableEq

namespace Bitmap

def allocate (size : Nat) : Bitmap := ⟨List.replicate size false⟩

variable (map : Bitmap) (position : Nat)

def isSet : Bool := (map.bits[position]?).getD false

def set : Bitmap := ⟨map.bits.set position true⟩

def clear : Bitmap := ⟨map.bits.set position false⟩

/-- The first clear position from `low` on, of bits that begin at a
position. -/
def searchZero (low : Nat) : List Bool → Nat → Option Nat
  | [], _ => none
  | bit :: rest, position =>
    if low ≤ position ∧ bit = false then some position
    else searchZero low rest (position + 1)

/-- The next clear position from a hint on, which counts as zero outside the
range. -/
def nextZero (hint : Int) : Option Nat :=
  let low := if hint < 0 ∨ hint ≥ map.bits.length then 0 else hint.toNat
  (searchZero low map.bits 0).or (searchZero 0 map.bits 0)

theorem searchZero_spec {low position found : Nat} {bits : List Bool}
    (result : searchZero low bits position = some found) :
    position ≤ found ∧ bits[found - position]? = some false := by
  induction bits generalizing position with
  | nil => cases result
  | cons bit rest induction =>
    unfold searchZero at result
    split at result
    next here =>
      cases result
      refine ⟨Nat.le_refl _, ?_⟩
      rw [Nat.sub_self, List.getElem?_cons_zero, here.2]
    · obtain ⟨later, clear⟩ := induction result
      refine ⟨by omega, ?_⟩
      have split : found - position = found - (position + 1) + 1 := by omega
      rw [split]
      exact clear

theorem nextZero_spec {map : Bitmap} {hint : Int} {found : Nat}
    (result : map.nextZero hint = some found) :
    map.bits[found]? = some false := by
  rcases Option.or_eq_some_iff.mp result with first | ⟨_, second⟩
  · exact (searchZero_spec first).2
  · exact (searchZero_spec second).2

theorem isSet_allocate (size position : Nat) : (allocate size).isSet position = false := by
  unfold isSet allocate
  rw [List.getElem?_replicate]
  split <;> rfl

theorem isSet_set {map : Bitmap} {position : Nat}
    (inside : map.bits[position]? = some false) (other : Nat) :
    (map.set position).isSet other = true ↔ other = position ∨ map.isSet other = true := by
  have bound : position < map.bits.length := (List.getElem?_eq_some_iff.mp inside).1
  unfold isSet set
  by_cases same : position = other
  · subst same
    simp [bound]
  · have different : ¬ other = position := fun equal => same equal.symm
    simp [same, different]

theorem isSet_clear (other : Nat) :
    (map.clear position).isSet other = true ↔ other ≠ position ∧ map.isSet other = true := by
  unfold isSet clear
  by_cases same : position = other
  · subst same
    by_cases bound : position < map.bits.length
    · simp [bound]
    · simp [bound]
  · have different : other ≠ position := fun equal => same equal.symm
    simp [same, different]

end Bitmap

end NeuVector.Library
