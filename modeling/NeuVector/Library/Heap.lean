import Mathlib.Logic.Function.Basic

/-!
# Heaps with fresh allocation

Cells are addressed by natural numbers.  The allocation bound is part of the
structure, so a freshly allocated address never aliases a live one.
-/

namespace NeuVector.Library

structure Heap (α : Type) where
  cells : Nat → Option α
  next : Nat
  fresh : ∀ address, next ≤ address → cells address = none

namespace Heap

variable {α : Type}

def empty : Heap α :=
  { cells := fun _ => none, next := 0, fresh := fun _ _ => rfl }

variable (heap : Heap α)

def alloc (value : α) : Heap α :=
  { cells := Function.update heap.cells heap.next (some value)
    next := heap.next + 1
    fresh := by
      intro address above
      have different : address ≠ heap.next := Nat.ne_of_gt above
      rw [Function.update_of_ne different]
      exact heap.fresh address (Nat.le_of_succ_le above) }

variable (address : Nat)

/-- Change a live cell; a dead address stays dead. -/
def modify (change : α → α) : Heap α :=
  { cells := Function.update heap.cells address
      ((heap.cells address).map change)
    next := heap.next
    fresh := by
      intro other above
      by_cases same : other = address
      · subst same
        simp [heap.fresh other above]
      · rw [Function.update_of_ne same]
        exact heap.fresh other above }

def free : Heap α :=
  { cells := Function.update heap.cells address none
    next := heap.next
    fresh := by
      intro other above
      by_cases same : other = address
      · subst same
        simp
      · rw [Function.update_of_ne same]
        exact heap.fresh other above }

@[simp] theorem alloc_cells_next (value : α) : (heap.alloc value).cells heap.next = some value := by
  simp [alloc]

theorem alloc_cells_of_ne (value : α) {address : Nat} (different : address ≠ heap.next) :
    (heap.alloc value).cells address = heap.cells address := by simp [alloc, different]

theorem modify_cells (change : α → α) (other : Nat) :
    (heap.modify address change).cells other =
      (heap.cells other).map fun value => if other = address then change value else value := by
  by_cases same : other = address
  · simp [modify, same]
  · simp [modify, same]

@[simp] theorem modify_cells_self (change : α → α) : (heap.modify address change).cells address =
      (heap.cells address).map change := by simp [modify]

theorem modify_cells_of_ne {address other : Nat} (change : α → α) (different : other ≠ address) :
    (heap.modify address change).cells other = heap.cells other := by simp [modify, different]

@[simp] theorem free_cells_self : (heap.free address).cells address = none := by simp [free]

theorem free_cells_of_ne {address other : Nat} (different : other ≠ address) :
    (heap.free address).cells other = heap.cells other := by simp [free, different]

end Heap

end NeuVector.Library
