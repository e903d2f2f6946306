import Mathlib.Data.List.Basic

/-!
# Operators on listed items

A condition lists items and asks how they relate to the elements of an object:
all, some or none of the items are matched by an element, or some element is
matched by no item.
-/

namespace NeuVector.Library

inductive SetOp where
  | containsAll
  | containsAny
  | notContainsAny
  | containsOtherThan
  deriving DecidableEq

namespace SetOp

variable {ι ε : Type*}

def Present (matched : ι → ε → Bool) (elements : List ε) (item : ι) : Prop :=
  ∃ element ∈ elements, matched item element = true

/-- What an operator says of the items and the elements. -/
def Means (matched : ι → ε → Bool) (items : List ι) (elements : List ε) : SetOp → Prop
  | .containsAll => ∀ item ∈ items, Present matched elements item
  | .containsAny => ∃ item ∈ items, Present matched elements item
  | .notContainsAny => ∀ item ∈ items, ¬ Present matched elements item
  | .containsOtherThan => ∃ element ∈ elements, ∀ item ∈ items, matched item element = false

variable {matched : ι → ε → Bool} {items kept : List ι} {elements : List ε}

theorem not_containsAny :
    Means matched items elements .notContainsAny ↔ ¬ Means matched items elements .containsAny := by
  constructor
  · rintro none ⟨item, member, present⟩
    exact none item member present
  · intro none item member present
    exact none ⟨item, member, present⟩

theorem means_elements {others : List ε}
    (same : ∀ element, element ∈ elements ↔ element ∈ others) {op : SetOp} :
    Means matched items elements op ↔ Means matched items others op := by
  have present : ∀ item, Present matched elements item ↔ Present matched others item := by
    intro item
    simp only [Present, same]
  cases op <;> simp only [Means, present, same]

/-- Some of the items do for all of them if each item has one of them that is
matched by the same elements and more. -/
theorem means_of_wider (subset : kept ⊆ items)
    (wider : ∀ item ∈ items, ∃ other ∈ kept, ∀ element,
      matched item element = true → matched other element = true)
    {op : SetOp} (notAll : op ≠ .containsAll) :
    Means matched kept elements op ↔ Means matched items elements op := by
  have any : Means matched kept elements .containsAny ↔
      Means matched items elements .containsAny := by
    constructor
    · rintro ⟨item, member, present⟩
      exact ⟨item, subset member, present⟩
    · rintro ⟨item, member, element, known, isMatched⟩
      obtain ⟨other, isKept, covers⟩ := wider item member
      exact ⟨other, isKept, element, known, covers element isMatched⟩
  cases op with
  | containsAll => exact absurd rfl notAll
  | containsAny => exact any
  | notContainsAny => exact not_containsAny.trans ((not_congr any).trans not_containsAny.symm)
  | containsOtherThan =>
    constructor
    · rintro ⟨element, known, unmatched⟩
      refine ⟨element, known, ?_⟩
      intro item member
      obtain ⟨other, isKept, covers⟩ := wider item member
      cases isMatched : matched item element with
      | false => rfl
      | true =>
        have otherMatched := covers element isMatched
        rw [unmatched other isKept] at otherMatched
        cases otherMatched
    · rintro ⟨element, known, unmatched⟩
      exact ⟨element, known, fun item isKept => unmatched item (subset isKept)⟩

/-- Some of the items do for all of them if each item has one of them that is
matched by fewer elements. -/
theorem containsAll_of_narrower (subset : kept ⊆ items)
    (narrower : ∀ item ∈ items, ∃ other ∈ kept, ∀ element,
      matched other element = true → matched item element = true) :
    Means matched kept elements .containsAll ↔ Means matched items elements .containsAll := by
  constructor
  · intro all item member
    obtain ⟨other, isKept, covers⟩ := narrower item member
    obtain ⟨element, known, isMatched⟩ := all other isKept
    exact ⟨element, known, covers element isMatched⟩
  · intro all item isKept
    exact all item (subset isKept)

theorem matched_alike {element : ε} (only : ∀ other, other ∈ elements ↔
      other = element) {op : SetOp} (notAll : op ≠ .containsAll)
    (same : Means matched kept elements op ↔ Means matched items elements op) :
    (∃ item ∈ kept, matched item element = true) ↔ ∃ item ∈ items, matched item element = true := by
  have present : ∀ item, Present matched elements item ↔ matched item element = true := by
    intro item
    constructor
    · rintro ⟨other, member, isMatched⟩
      rw [(only other).mp member] at isMatched
      exact isMatched
    · intro isMatched
      exact ⟨element, (only element).mpr rfl, isMatched⟩
  have any : ∀ items : List ι, Means matched items elements .containsAny ↔
      ∃ item ∈ items, matched item element = true := by
    intro items
    simp only [Means, present]
  have other : ∀ items : List ι, Means matched items elements .containsOtherThan ↔
      ¬ ∃ item ∈ items, matched item element = true := by
    intro items
    simp [Means, only]
  cases op with
  | containsAll => exact absurd rfl notAll
  | containsAny => rw [← any, ← any, same]
  | notContainsAny =>
    rw [not_containsAny, not_containsAny] at same
    rw [← any, ← any]
    exact not_iff_not.mp same
  | containsOtherThan =>
    rw [other, other] at same
    exact not_iff_not.mp same

end SetOp

end NeuVector.Library
