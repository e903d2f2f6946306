import Mathlib.Data.List.Pairwise
import Mathlib.Data.List.Perm.Basic

/-!
# Binary search trees without duplicates

An unbalanced search tree is compared through a three-way comparison.  The
comparison only has to agree with a rank on the elements actually stored, so
that comparisons which are not total orders, such as those of serial numbers,
can be used as long as the stored values stay in a safe range.
-/

namespace NeuVector.Library

open List

inductive SearchTree (α : Type) where
  | leaf
  | node (left : SearchTree α) (value : α) (right : SearchTree α)
  deriving DecidableEq

namespace SearchTree

variable {α : Type}

def toList : SearchTree α → List α
  | leaf => []
  | node left value right => left.toList ++ value :: right.toList

/-- Insert a value, or fail when an equal one is stored. -/
def insert (compare : α → α → Ordering) (value : α) : SearchTree α → Option (SearchTree α)
  | leaf => some (node leaf value leaf)
  | node left stored right =>
    match compare value stored with
    | .lt => (left.insert compare value).map fun left => node left stored right
    | .gt => (right.insert compare value).map fun right => node left stored right
    | .eq => none

/-- Follow a probe, which compares the sought value with a stored one. -/
def find (probe : α → Ordering) : SearchTree α → Option α
  | leaf => none
  | node left stored right =>
    match probe stored with
    | .lt => left.find probe
    | .gt => right.find probe
    | .eq => some stored

/-- The tree without its last value, and that value. -/
def removeLast : SearchTree α → Option (SearchTree α × α)
  | leaf => none
  | node left stored right =>
    match right.removeLast with
    | none => some (left, stored)
    | some (rest, last) => some (node left stored rest, last)

/-- What takes the place of a removed node: its only child, or its left child
with the last value of that as the new root. -/
def merge (left right : SearchTree α) : SearchTree α :=
  match right with
  | leaf => left
  | node _ _ _ =>
    match left.removeLast with
    | none => right
    | some (rest, last) => node rest last right

def removeFound (probe : α → Ordering) : SearchTree α → SearchTree α
  | leaf => leaf
  | node left stored right =>
    match probe stored with
    | .lt => node (left.removeFound probe) stored right
    | .gt => node left stored (right.removeFound probe)
    | .eq => merge left right

def removeFirst : SearchTree α → SearchTree α
  | leaf => leaf
  | node leaf _ right => right
  | node left stored right => node left.removeFirst stored right

def size : SearchTree α → Nat
  | leaf => 0
  | node left _ right => left.size + right.size + 1

theorem size_eq_length (tree : SearchTree α) : tree.size = tree.toList.length := by
  induction tree with
  | leaf => rfl
  | node left value right inductionLeft inductionRight =>
    simp only [size, toList, length_append, length_cons, inductionLeft, inductionRight]
    omega

section Removal

variable {probe : α → Ordering}
variable {tree : SearchTree α}

theorem removeLast_none (result : tree.removeLast = none) : tree = leaf := by
  cases tree with
  | leaf => rfl
  | node left stored right =>
    unfold removeLast at result
    cases inner : right.removeLast with
    | none =>
      rw [inner] at result
      cases result
    | some found =>
      rw [inner] at result
      cases result

theorem removeLast_toList {rest : SearchTree α} {last : α}
    (result : tree.removeLast = some (rest, last)) :
    tree.toList = rest.toList ++ [last] := by
  induction tree generalizing rest last with
  | leaf => cases result
  | node left stored right _ inductionRight =>
    unfold removeLast at result
    cases inner : right.removeLast with
    | none =>
      rw [inner] at result
      cases result
      rw [removeLast_none inner]
      rfl
    | some found =>
      obtain ⟨shorter, value⟩ := found
      rw [inner] at result
      cases result
      simp only [toList, inductionRight inner, append_assoc, cons_append]

theorem merge_toList (left right : SearchTree α) :
    (merge left right).toList = left.toList ++ right.toList := by
  cases right with
  | leaf => exact (append_nil _).symm
  | node below value above =>
    unfold merge
    cases result : left.removeLast with
    | none =>
      rw [removeLast_none result]
      rfl
    | some found =>
      obtain ⟨rest, last⟩ := found
      rw [removeLast_toList result]
      simp only [toList, append_assoc, singleton_append]

variable {value : α}

section

variable (found : tree.find probe = some value)
include found

theorem find_eq : probe value = .eq := by
  induction tree with
  | leaf => cases found
  | node left stored right inductionLeft inductionRight =>
    unfold find at found
    cases order : probe stored with
    | lt =>
      rw [order] at found
      exact inductionLeft found
    | gt =>
      rw [order] at found
      exact inductionRight found
    | eq =>
      rw [order] at found
      cases found
      exact order

theorem removeFound_toList :
    ∃ before after, tree.toList = before ++ value :: after ∧
      (tree.removeFound probe).toList = before ++ after := by
  induction tree with
  | leaf => cases found
  | node left stored right inductionLeft inductionRight =>
    unfold find at found
    unfold removeFound
    cases order : probe stored with
    | lt =>
      rw [order] at found
      obtain ⟨before, after, whole, removed⟩ := inductionLeft found
      refine ⟨before, after ++ stored :: right.toList, ?_, ?_⟩
      · simp only [toList, whole, append_assoc, cons_append]
      · simp only [toList, removed, append_assoc]
    | gt =>
      rw [order] at found
      obtain ⟨before, after, whole, removed⟩ := inductionRight found
      refine ⟨left.toList ++ stored :: before, after, ?_, ?_⟩
      · simp only [toList, whole, append_assoc, cons_append]
      · simp only [toList, removed, append_assoc, cons_append]
    | eq =>
      rw [order] at found
      cases found
      exact ⟨left.toList, right.toList, rfl, merge_toList left right⟩

theorem find_mem : value ∈ tree.toList := by
  obtain ⟨before, after, whole, _⟩ := removeFound_toList found
  rw [whole]
  exact mem_append_right _ mem_cons_self

end

theorem removeFirst_toList (tree : SearchTree α) : tree.removeFirst.toList = tree.toList.tail := by
  induction tree with
  | leaf => rfl
  | node left stored right inductionLeft _ =>
    cases left with
    | leaf => rfl
    | node below value above =>
      have nonempty : (node below value above).toList ≠ [] := by simp [toList]
      change (node below value above).removeFirst.toList ++ stored :: right.toList = _
      rw [inductionLeft]
      exact (tail_append_of_ne_nil nonempty).symm

end Removal

/-- The elements in order of strictly increasing rank. -/
def Ordered (rank : α → Nat) (values : List α) : Prop :=
  values.Pairwise fun first second => rank first < rank second

/-- The comparison of a value with every stored one is that of their ranks. -/
def Agrees (compare : α → α → Ordering) (rank : α → Nat) (value : α) (values : List α) : Prop :=
  ∀ stored ∈ values, compare value stored = Ord.compare (rank value) (rank stored)

section Insertion

variable {compare : α → α → Ordering} {rank : α → Nat} {value : α}

theorem Agrees.append {first second : List α}
    (agrees : Agrees compare rank value (first ++ second)) :
    Agrees compare rank value first ∧ Agrees compare rank value second :=
  forall_mem_append.mp agrees

variable {tree : SearchTree α}
variable {inserted : SearchTree α}

theorem insert_split (result : tree.insert compare value = some inserted) :
    ∃ before after, tree.toList = before ++ after ∧ inserted.toList = before ++ value :: after ∧
      (∀ last ∈ before.getLast?, compare value last = .gt) ∧
        ∀ next ∈ after.head?, compare value next = .lt := by
  induction tree generalizing inserted with
  | leaf =>
    cases Option.some.inj result
    exact ⟨[], [], rfl, rfl, by simp, by simp⟩
  | node left stored right inductionLeft inductionRight =>
    unfold insert at result
    split at result
    next less =>
      obtain ⟨next, found, rfl⟩ := Option.map_eq_some_iff.mp result
      obtain ⟨before, after, whole, placed, below, above⟩ := inductionLeft found
      refine ⟨before, after ++ stored :: right.toList, ?_, ?_, below, ?_⟩
      · simp [toList, whole]
      · simp [toList, placed]
      · cases after with
        | nil => simpa using less
        | cons first rest => simpa using above
    next greater =>
      obtain ⟨next, found, rfl⟩ := Option.map_eq_some_iff.mp result
      obtain ⟨before, after, whole, placed, below, above⟩ := inductionRight found
      refine ⟨left.toList ++ stored :: before, after, ?_, ?_, ?_, above⟩
      · simp [toList, whole]
      · simp [toList, placed]
      · cases before with
        | nil => simpa using greater
        | cons first rest => simpa [getLast?_append, getLast?_cons_cons] using below
    · simp at result

theorem insert_perm (result : tree.insert compare value = some inserted) :
    inserted.toList.Perm (value :: tree.toList) := by
  obtain ⟨before, after, whole, placed, _⟩ := insert_split result
  rw [whole, placed]
  exact perm_middle

theorem mem_toList_of_insert (result : tree.insert compare value = some inserted) (other : α) :
    other ∈ inserted.toList ↔ other = value ∨ other ∈ tree.toList := by
  rw [(insert_perm result).mem_iff, mem_cons]

theorem insert_ordered (ordered : Ordered rank tree.toList)
    (agrees : Agrees compare rank value tree.toList)
    (result : tree.insert compare value = some inserted) :
    Ordered rank inserted.toList := by
  obtain ⟨before, after, whole, placed, below, above⟩ := insert_split result
  rw [whole] at ordered agrees
  obtain ⟨beforeAgrees, afterAgrees⟩ := agrees.append
  obtain ⟨beforeOrdered, afterOrdered, across⟩ := pairwise_append.mp ordered
  have less : ∀ other ∈ before, rank other < rank value := by
    intro other member
    rcases eq_nil_or_concat' before with rfl | ⟨rest, last, rfl⟩
    · cases member
    · have here := below last (by simp)
      rw [beforeAgrees last (by simp)] at here
      have lower := Nat.compare_eq_gt.mp here
      have sorted := (pairwise_append.mp beforeOrdered).2.2 other
      grind
  have greater : ∀ other ∈ after, rank value < rank other := by
    intro other member
    cases after with
    | nil => cases member
    | cons next rest =>
      have here := above next rfl
      rw [afterAgrees next mem_cons_self] at here
      have upper := Nat.compare_eq_lt.mp here
      have sorted := (pairwise_cons.mp afterOrdered).1 other
      grind
  rw [placed]
  refine pairwise_append.mpr ⟨beforeOrdered, pairwise_cons.mpr ⟨greater, afterOrdered⟩, ?_⟩
  intro first inBefore second member
  rcases mem_cons.mp member with rfl | inAfter
  · exact less first inBefore
  · exact across first inBefore second inAfter

theorem insert_toList {before after : List α} (whole : tree.toList = before ++ after)
    (sorted : Ordered rank (before ++ value :: after))
    (agrees : Agrees compare rank value tree.toList)
    (result : tree.insert compare value = some inserted) :
    inserted.toList = before ++ value :: after := by
  have ordered : Ordered rank tree.toList := by
    rw [whole]
    apply List.Pairwise.sublist _ sorted
    exact (sublist_cons_self value after).append_left before
  have perm : inserted.toList.Perm (before ++ value :: after) := by
    have added := insert_perm result
    rw [whole] at added
    exact added.trans perm_middle.symm
  apply perm.eq_of_pairwise _ (insert_ordered ordered agrees result) sorted
  intro first second _ _ less greater
  omega

theorem find_of_mem {probe : α → Ordering} {key : Nat}
    (ordered : Ordered rank tree.toList) (follows : ∀ stored ∈ tree.toList,
      probe stored = Ord.compare key (rank stored))
    (member : value ∈ tree.toList) (same : rank value = key) :
    tree.find probe = some value := by
  induction tree with
  | leaf => exact absurd member not_mem_nil
  | node left stored right inductionLeft inductionRight =>
    obtain ⟨leftOrdered, tailOrdered, across⟩ := pairwise_append.mp ordered
    obtain ⟨storedBelow, rightOrdered⟩ := pairwise_cons.mp tailOrdered
    have here := follows stored (mem_append_right _ mem_cons_self)
    unfold find
    rcases mem_append.mp member with inLeft | inTail
    · have below := across value inLeft stored mem_cons_self
      have less : probe stored = .lt := by
        rw [here]
        apply Nat.compare_eq_lt.mpr
        omega
      rw [less]
      exact inductionLeft leftOrdered (fun other inside =>
        follows other (mem_append_left _ inside)) inLeft
    · rcases mem_cons.mp inTail with isStored | inRight
      · have equal : probe stored = .eq := by
          rw [here]
          apply Nat.compare_eq_eq.mpr
          rw [← same, isStored]
        rw [equal, isStored]
      · have above := storedBelow value inRight
        have greater : probe stored = .gt := by
          rw [here]
          apply Nat.compare_eq_gt.mpr
          omega
        rw [greater]
        exact inductionRight rightOrdered (fun other inside =>
          follows other (mem_append_right _ (mem_cons_of_mem _ inside))) inRight

theorem insert_isSome (agrees : Agrees compare rank value tree.toList)
    (fresh : ∀ stored ∈ tree.toList, rank stored ≠ rank value) :
    (tree.insert compare value).isSome = true := by
  induction tree with
  | leaf => rfl
  | node left stored right inductionLeft inductionRight =>
    obtain ⟨leftAgrees, tailAgrees⟩ := agrees.append
    obtain ⟨here, later⟩ := forall_mem_cons.mp tailAgrees
    have different := fresh stored (mem_append_right _ mem_cons_self)
    unfold insert
    split
    · rw [Option.isSome_map]
      exact inductionLeft leftAgrees (forall_mem_append.mp fresh).1
    · rw [Option.isSome_map]
      refine inductionRight ?_ ?_
      · exact later
      · exact fun other member => fresh other
          (mem_append_right _ (mem_cons_of_mem _ member))
    next equal =>
      rw [here] at equal
      exact absurd (Nat.compare_eq_eq.mp equal).symm different

end Insertion

end SearchTree

end NeuVector.Library
