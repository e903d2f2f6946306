import Mathlib.Data.List.AList
import NeuVector.Library.Heap

/-!
# Merging through shared references

References are visited one after the other, each with a key.  The first one of
a key is kept as it is; the value of a later one is absorbed into the cell of
the first one.  So the merge writes into cells that it was only given to read,
and what it leaves in a cell depends on the visits that came after the first.
-/

namespace NeuVector.Library

open List

namespace SharedMerge

variable {α κ : Type} [DecidableEq κ]

/-- The cells, and the reference that was kept for each key. -/
structure Merging (α κ : Type) where
  heap : Heap α
  current : AList fun _ : κ => Nat

def visit (absorb : α → α → α) (state : Merging α κ) (next : κ × Nat) : Merging α κ :=
  match state.current.lookup next.1 with
  | none => { state with current := state.current.insert next.1 next.2 }
  | some first =>
    match state.heap.cells next.2 with
    | none => state
    | some added => { state with heap := state.heap.modify first (absorb · added) }

theorem visit_next (absorb : α → α → α) (state : Merging α κ)
    (next : κ × Nat) : (visit absorb state next).heap.next = state.heap.next := by
  unfold visit
  split
  · rfl
  · split
    · rfl
    · rfl

theorem visits_next (absorb : α → α → α) (visits : List (κ × Nat)) (state : Merging α κ) :
    (visits.foldl (visit absorb) state).heap.next = state.heap.next := by
  induction visits generalizing state with
  | nil => rfl
  | cons next rest induction => exact (induction _).trans (visit_next absorb state next)

/-- The references of a key, in the order of the visits. -/
def refs (key : κ) (visits : List (κ × Nat)) : List Nat :=
  (visits.filter fun next => next.1 = key).map fun next => next.2

/-- One reference belongs to one key. -/
def Apart (visits : List (κ × Nat)) : Prop :=
  ∀ one ∈ visits, ∀ two ∈ visits, one.2 = two.2 → one.1 = two.1

/-- What the visits have made of the cells as they were before. -/
structure Merged (absorb : α → α → α) (before : Nat → Option α)
    (visits : List (κ × Nat)) (state : Merging α κ) : Prop where
  current : ∀ key, state.current.lookup key = (refs key visits).head?
  first : ∀ key ref, (refs key visits).head? = some ref →
    state.heap.cells ref = (before ref).map fun rule =>
      ((refs key visits).tail.filterMap before).foldl absorb rule
  others : ∀ ref, (∀ key, (refs key visits).head? ≠ some ref) → state.heap.cells ref = before ref

theorem mem_refs {key : κ} {visits : List (κ × Nat)} {ref : Nat} :
    ref ∈ refs key visits ↔ (key, ref) ∈ visits := by
  constructor
  · intro member
    obtain ⟨next, filtered, rfl⟩ := mem_map.mp member
    obtain ⟨inVisits, same⟩ := mem_filter.mp filtered
    rw [← of_decide_eq_true same]
    exact inVisits
  · intro member
    apply mem_map.mpr
    exact ⟨(key, ref), mem_filter.mpr ⟨member, decide_eq_true rfl⟩, rfl⟩

theorem refs_append (key : κ) (one two : List (κ × Nat)) :
    refs key (one ++ two) = refs key one ++ refs key two := by
  unfold refs
  rw [filter_append, map_append]

theorem refs_snoc_self (next : κ × Nat) (visits : List (κ × Nat)) :
    refs next.1 (visits ++ [next]) = refs next.1 visits ++ [next.2] := by
  simp [refs]

theorem refs_snoc_ne {key : κ} {next : κ × Nat} (different : next.1 ≠ key)
    (visits : List (κ × Nat)) :
    refs key (visits ++ [next]) = refs key visits := by
  simp [refs, different]

theorem mem_of_head? {key : κ} {visits : List (κ × Nat)} {ref : Nat}
    (head : (refs key visits).head? = some ref) : (key, ref) ∈ visits :=
  mem_refs.mp (mem_of_mem_head? head)

theorem Merged.start (absorb : α → α → α) (heap : Heap α) :
    Merged absorb heap.cells [] (Merging.mk heap (∅ : AList fun _ : κ => Nat))
    where
  current := fun _ => rfl
  first := fun _ _ head => nomatch head
  others := fun _ _ => rfl

section Visits

variable {absorb : α → α → α} {before : Nat → Option α}
  {visits : List (κ × Nat)} {state : Merging α κ} {next : κ × Nat}

private theorem Merged.cells_later (merged : Merged absorb before visits state)
    (apart : Apart (visits ++ [next]))
    (other : (refs next.1 visits).head? ≠ some next.2) :
    state.heap.cells next.2 = before next.2 := by
  apply merged.others
  intro key head
  have member := mem_of_head? head
  have same : key = next.1 := apart (key, next.2) (mem_append_left _ member) next (by simp) rfl
  rw [same] at head
  exact other head

private theorem Merged.keep (merged : Merged absorb before visits state)
    (apart : Apart (visits ++ [next])) (new : refs next.1 visits = []) :
    Merged absorb before (visits ++ [next])
      { state with current := state.current.insert next.1 next.2 } := by
  have own : refs next.1 (visits ++ [next]) = [next.2] := by
    rw [refs_snoc_self, new]
    rfl
  constructor
  · intro key
    by_cases same : next.1 = key
    · subst same
      rw [own]
      exact AList.lookup_insert _
    · rw [refs_snoc_ne same]
      exact (AList.lookup_insert_ne (Ne.symm same)).trans (merged.current key)
  · intro key ref head
    by_cases same : next.1 = key
    · subst same
      rw [own] at head ⊢
      cases head
      have cells := merged.cells_later apart (by simp [new])
      refine cells.trans ?_
      simp
    · rw [refs_snoc_ne same] at head ⊢
      exact merged.first key ref head
  · intro ref free
    apply merged.others
    intro key head
    apply free key
    by_cases same : next.1 = key
    · subst same
      rw [new] at head
      cases head
    · rw [refs_snoc_ne same]
      exact head

/-- Absorbing a value into itself is absorbing the one it has grown from. -/
def Grows (absorb : α → α → α) : Prop :=
  ∀ (rule : α) (added : List α), absorb (added.foldl absorb rule) (added.foldl absorb rule) =
      absorb (added.foldl absorb rule) rule

section

variable (merged : Merged absorb before visits state)
include merged

private theorem Merged.absorbed (grows : Grows absorb)
    (apart : Apart (visits ++ [next])) {first : Nat} {rest : List Nat}
    (known : refs next.1 visits = first :: rest) {added : α}
    (live : before next.2 = some added) {found : α}
    (cell : state.heap.cells next.2 = some found) :
    Merged absorb before (visits ++ [next])
      { state with heap := state.heap.modify first (absorb · found) } := by
  have own : refs next.1 (visits ++ [next]) = first :: (rest ++ [next.2]) := by
    rw [refs_snoc_self, known]
    rfl
  have headOwn : (refs next.1 visits).head? = some first := by
    rw [known]
    rfl
  have heads : ∀ key, (refs key (visits ++ [next])).head? = (refs key visits).head? := by
    intro key
    by_cases same : next.1 = key
    · subst same
      rw [own, known]
      rfl
    · rw [refs_snoc_ne same]
  constructor
  · intro key
    rw [heads]
    exact merged.current key
  · intro key ref head
    rw [heads] at head
    by_cases same : next.1 = key
    · subst same
      have isFirst : first = ref := Option.some.inj (headOwn.symm.trans head)
      subst isFirst
      have grown := merged.first next.1 first head
      rw [known] at grown
      rw [own]
      simp only [Heap.modify_cells_self, tail_cons, filterMap_append, foldl_append]
      rw [grown, Option.map_map]
      apply Option.map_congr
      intro rule isRule
      simp only [Function.comp_apply, filterMap_cons, live,
        filterMap_nil, foldl_cons, foldl_nil]
      by_cases again : first = next.2
      · subst again
        rw [live] at isRule
        cases isRule
        rw [grown, live] at cell
        cases cell
        exact grows _ _
      · have later := merged.cells_later apart fun isHead =>
          again (Option.some.inj (headOwn.symm.trans isHead))
        rw [later, live] at cell
        cases cell
        rfl
    · rw [refs_snoc_ne same]
      have different : ref ≠ first := by
        rintro rfl
        have keys : key = next.1 := apart (key, ref)
          (mem_append_left _ (mem_of_head? head)) (next.1, ref)
          (mem_append_left _ (mem_of_head? headOwn)) rfl
        exact same keys.symm
      exact (Heap.modify_cells_of_ne _ _ different).trans (merged.first key ref head)
  · intro ref free
    have different : ref ≠ first := by
      rintro rfl
      exact free next.1 ((heads next.1).trans headOwn)
    refine (Heap.modify_cells_of_ne _ _ different).trans ?_
    apply merged.others
    intro key head
    exact free key ((heads key).trans head)

theorem Merged.visit (grows : Grows absorb) (apart : Apart (visits ++ [next]))
    {added : α} (live : before next.2 = some added) :
    Merged absorb before (visits ++ [next]) (visit absorb state next) := by
  have current := merged.current next.1
  unfold SharedMerge.visit
  cases known : refs next.1 visits with
  | nil =>
    rw [known] at current
    rw [current]
    exact merged.keep apart known
  | cons first rest =>
    rw [known] at current
    rw [current]
    have alive : ∃ found, state.heap.cells next.2 = some found := by
      by_cases isHead : (refs next.1 visits).head? = some next.2
      · rw [merged.first next.1 next.2 isHead, live]
        exact ⟨_, rfl⟩
      · exact ⟨added, (merged.cells_later apart isHead).trans live⟩
    obtain ⟨found, cell⟩ := alive
    simp only [head?_cons, cell]
    exact merged.absorbed grows apart known live cell

theorem Merged.run (grows : Grows absorb) (more : List (κ × Nat)) (apart : Apart (visits ++ more))
    (live : ∀ next ∈ more, ∃ added, before next.2 = some added) :
    Merged absorb before (visits ++ more) (more.foldl (SharedMerge.visit absorb) state) := by
  induction more generalizing visits state with
  | nil =>
    rw [append_nil]
    exact merged
  | cons next rest induction =>
    rw [append_cons] at apart ⊢
    obtain ⟨⟨added, isAdded⟩, later⟩ := forall_mem_cons.mp live
    apply induction
    · apply merged.visit grows ?_ isAdded
      intro one oneIn two twoIn
      exact apart one (mem_append_left _ oneIn) two (mem_append_left _ twoIn)
    · exact apart
    · exact later

theorem Merged.untouched {ref : Nat}
    (single : ∀ key, (refs key visits).head? = some ref →
      (refs key visits).tail = []) : state.heap.cells ref = before ref := by
  by_cases head : ∃ key, (refs key visits).head? = some ref
  · obtain ⟨key, isHead⟩ := head
    rw [merged.first key ref isHead, single key isHead]
    exact Option.map_id'
  · apply merged.others
    intro key isHead
    exact head ⟨key, isHead⟩

theorem Merged.transfer {heap : Heap α} {after : Nat → Option α}
    (visited : ∀ next ∈ visits, after next.2 = before next.2 ∧
      heap.cells next.2 = state.heap.cells next.2)
    (elsewhere : ∀ ref, (∀ key, (key, ref) ∉ visits) → heap.cells ref = after ref) :
    Merged absorb after visits { state with heap := heap } where
  current := merged.current
  first := by
    intro key ref head
    obtain ⟨same, cells⟩ := visited (key, ref) (mem_of_head? head)
    have tails : (refs key visits).tail.filterMap after =
        (refs key visits).tail.filterMap before := by
      apply filterMap_congr
      intro later member
      exact (visited (key, later) (mem_refs.mp (mem_of_mem_tail member))).1
    rw [tails, same]
    exact cells.trans (merged.first key ref head)
  others := by
    intro ref free
    by_cases seen : ∃ key, (key, ref) ∈ visits
    · obtain ⟨key, member⟩ := seen
      obtain ⟨same, cells⟩ := visited (key, ref) member
      exact (cells.trans (merged.others ref free)).trans same.symm
    · apply elsewhere
      intro key member
      exact seen ⟨key, member⟩

end

end Visits

end SharedMerge

end NeuVector.Library
