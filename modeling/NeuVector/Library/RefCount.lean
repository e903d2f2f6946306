import NeuVector.Library.Heap
import Mathlib.Data.Set.Card

/-!
# Reference counts

Owners hold pointers into a heap whose cells count their holders.  Taking a
reference raises the count of a cell; giving one up lowers it, or frees the
cell of a single holder.  Both keep the counts exact as long as the counts
follow the pointers.
-/

namespace NeuVector.Library

namespace RefCount

section Holders

variable {Owner Address : Type}

/-- The number of owners whose pointer is the address. -/
noncomputable def holders (pointer : Owner → Option Address) (address : Address) : Nat :=
  {owner | pointer owner = some address}.ncard

variable [Finite Owner] {pointer : Owner → Option Address}

theorem holders_pos_iff {address : Address} :
    0 < holders pointer address ↔ ∃ owner, pointer owner = some address :=
  Set.ncard_pos (Set.toFinite _)

variable [DecidableEq Address]

theorem holders_split (pointer : Owner → Option Address) (owner : Owner) (address : Address) :
    holders pointer address = {other | other ≠ owner ∧ pointer other = some address}.ncard +
      if pointer owner = some address then 1 else 0 := by
  unfold holders
  split
  next held =>
    have whole : {other | pointer other = some address} =
        insert owner {other | other ≠ owner ∧ pointer other = some address} := by
      ext other
      by_cases same : other = owner
      · simp [same, held]
      · simp [same]
    rw [whole]
    exact Set.ncard_insert_of_notMem (fun member => member.1 rfl) (Set.toFinite _)
  next lacks =>
    congr 1
    ext other
    by_cases same : other = owner
    · simp [same, lacks]
    · simp [same]

theorem holders_update [DecidableEq Owner] (pointer : Owner → Option Address) (owner : Owner)
    (next : Option Address) (address : Address) :
    holders (Function.update pointer owner next) address +
        (if pointer owner = some address then 1 else 0) =
      holders pointer address + (if next = some address then 1 else 0) := by
  have others : {other | other ≠ owner ∧ Function.update pointer owner next other = some address} =
      {other | other ≠ owner ∧ pointer other = some address} := by
    ext other
    exact and_congr_right fun different => by rw [Function.update_of_ne different]
  rw [holders_split pointer owner, holders_split _ owner, others, Function.update_self]
  exact Nat.add_right_comm _ _ _

end Holders

section Exact

variable {α : Type} (count : α → Nat)

/-- Every cell counts its holders, and every address with a holder is live. -/
structure Exact (heap : Heap α) (number : Nat → Nat) : Prop where
  exact : ∀ address value, heap.cells address = some value → count value = number address
  live : ∀ address, 0 < number address → (heap.cells address).isSome

variable {count} {heap : Heap α} {number : Nat → Nat} {address : Nat}

section

variable (counted : Exact count heap number)
include counted

theorem Exact.replaced {after : Heap α} {n : Nat}
    (others : ∀ other, other ≠ address → after.cells other = heap.cells other)
    (here : ∀ value, after.cells address = some value → count value = n)
    (live : 0 < n → (after.cells address).isSome) :
    Exact count after (Function.update number address n) := by
  constructor
  · intro other result found
    by_cases same : other = address
    · subst same
      rw [Function.update_self]
      exact here result found
    · rw [others other same] at found
      rw [Function.update_of_ne same]
      exact counted.exact other result found
  · intro other positive
    by_cases same : other = address
    · subst same
      rw [Function.update_self] at positive
      exact live positive
    · rw [Function.update_of_ne same] at positive
      rw [others other same]
      exact counted.live other positive

theorem Exact.modify {value : α} (stored : heap.cells address = some value) (change : α → α) :
    Exact count (heap.modify address change)
      (Function.update number address (count (change value))) := by
  apply counted.replaced
  · exact fun _ => heap.modify_cells_of_ne change
  · intro result found
    rw [heap.modify_cells_self, stored] at found
    cases found
    rfl
  · intro _
    rw [heap.modify_cells_self, stored]
    rfl

theorem Exact.free (single : number address ≤ 1) :
    Exact count (heap.free address) (Function.update number address (number address - 1)) := by
  apply counted.replaced
  · exact fun _ => heap.free_cells_of_ne
  · intro result found
    rw [heap.free_cells_self] at found
    cases found
  · omega

theorem Exact.alloc {value : α} (unheld : count value = 0) :
    Exact count (heap.alloc value) number := by
  have fresh := heap.fresh heap.next (Nat.le_refl _)
  have nobody : number heap.next = 0 := by
    by_contra held
    have live := counted.live heap.next (Nat.pos_of_ne_zero held)
    rw [fresh] at live
    cases live
  rw [← Function.update_eq_self heap.next number]
  apply counted.replaced
  · exact fun _ => heap.alloc_cells_of_ne value
  · intro result found
    rw [heap.alloc_cells_next] at found
    cases found
    rw [unheld, nobody]
  · omega

end

end Exact

end RefCount

end NeuVector.Library
