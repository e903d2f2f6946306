import Mathlib.Data.List.Perm.Basic
import Mathlib.Data.List.Nodup
import NeuVector.DataPath.HttpFraming

/-!
# Header order and framing

The framing machine is run over the effects of a header block in every order.
Two lengths that differ cancel each other and a third one is taken again, a
length undoes a chunked encoding, and a request to close undoes a zero length,
so the result depends on the order in general.  This module determines exactly
the blocks for which it does not.
-/

namespace NeuVector.DataPath

open Library BodyMode List

abbrev lengthOf (n : Nat) : LineEffect := .length (.value n)
abbrev emptyLength : LineEffect := .length .empty

variable (mode : BodyMode) (effects : List LineEffect)

namespace BodyMode

def next : LineEffect → BodyMode
  | .length field => mode.withLength field
  | .chunked => .chunked
  | .close => mode.withClose
  | .neutral => mode

def run : BodyMode := effects.foldl next mode

def active : BodyMode → Bool
  | .length _ => true
  | _ => false

def resting : Prop := mode = .unset ∨ mode = .close

variable (mode : BodyMode)

theorem run_append (first second : List LineEffect) :
    mode.run (first ++ second) = (mode.run first).run second :=
  foldl_append

theorem withLength_value {mode : BodyMode} (inactive : mode.active = false)
    (n : Nat) : mode.withLength (.value n) = .length (UInt32.ofNat n) := by
  cases mode with
  | length m => exact absurd inactive (by simp [active])
  | unset | chunked | close => rfl

theorem withLength_empty {mode : BodyMode} (inactive : mode.active = false) :
    mode.withLength .empty = .length 0 := by
  cases mode with
  | length m => exact absurd inactive (by simp [active])
  | unset | chunked | close => rfl

variable (n : Nat)

theorem close_withLength_value : close.withLength (.value n) = .length (UInt32.ofNat n) := rfl

theorem length_withLength_value {m : UInt32} {n : Nat} (different : m ≠ UInt32.ofNat n) :
    (length m).withLength (.value n) = .close :=
  if_neg different

theorem length_withLength_same :
    (length (UInt32.ofNat n)).withLength (.value n) = .length (UInt32.ofNat n) := if_pos rfl

theorem withLength_value_cases :
    mode.withLength (.value n) = .length (UInt32.ofNat n) ∨
      mode.withLength (.value n) = .close := by
  cases active : mode.active with
  | false => exact Or.inl (withLength_value active n)
  | true =>
    cases mode with
    | length m =>
      by_cases same : m = UInt32.ofNat n
      · exact Or.inl (if_pos same)
      · exact Or.inr (if_neg same)
    | unset | chunked | close => exact absurd active (by decide)

theorem withLength_empty_active : ∃ n, mode.withLength .empty = .length n := by
  cases mode with
  | length m => exact ⟨m, rfl⟩
  | unset | chunked | close => exact ⟨0, rfl⟩

theorem resting.inactive {mode : BodyMode} (rests : mode.resting) : mode.active = false := by
  rcases rests with rfl | rfl
  · rfl
  · rfl

theorem withLength_same {mode : BodyMode} {n : Nat} {machine : UInt32}
    (same : UInt32.ofNat n = machine) (start : mode.resting ∨ mode = .length machine) :
    mode.withLength (.value n) = .length machine := by
  subst same
  rcases start with rests | rfl
  · exact withLength_value rests.inactive n
  · exact length_withLength_same n

theorem withLength_empty_zero {mode : BodyMode} (start : mode.resting ∨ mode = .length 0) :
    mode.withLength .empty = .length 0 := by
  rcases start with rests | rfl
  · exact withLength_empty rests.inactive
  · rfl

theorem resting.withClose {mode : BodyMode} (rests : mode.resting) : mode.withClose = .close := by
  rcases rests with rfl | rfl
  · rfl
  · rfl

end BodyMode

section Endings

variable {x y a b : Nat}
variable (mode : BodyMode)

theorem run_pair_other (same : UInt32.ofNat x = UInt32.ofNat y)
    (other : UInt32.ofNat b ≠ UInt32.ofNat x) :
    mode.run [lengthOf x, lengthOf y, lengthOf b] = .close := by
  have last : (length (UInt32.ofNat y)).withLength (.value b) = .close :=
    length_withLength_value fun equal => other (equal.symm.trans same.symm)
  change ((mode.withLength (.value x)).withLength (.value y)).withLength (.value b) = .close
  rcases mode.withLength_value_cases x with first | first
  · rw [first, same, length_withLength_same, last]
  · rw [first, close_withLength_value, last]

theorem run_other_pair (same : UInt32.ofNat x = UInt32.ofNat y)
    (other : UInt32.ofNat b ≠ UInt32.ofNat x) :
    mode.run [lengthOf b, lengthOf x, lengthOf y] = .length (UInt32.ofNat y) := by
  change ((mode.withLength (.value b)).withLength (.value x)).withLength (.value y) = _
  rcases mode.withLength_value_cases b with first | first
  · rw [first, length_withLength_value other]
    exact close_withLength_value y
  · rw [first, close_withLength_value, same, length_withLength_same]

theorem run_value_empty_value (different : UInt32.ofNat b ≠ UInt32.ofNat a)
    (positive : UInt32.ofNat a ≠ 0) :
    mode.run [lengthOf b, emptyLength, lengthOf a] = .close := by
  change ((mode.withLength (.value b)).withLength .empty).withLength (.value a) = .close
  rcases mode.withLength_value_cases b with first | first
  · rw [first]
    exact length_withLength_value different
  · rw [first]
    exact length_withLength_value positive.symm

end Endings

def LineEffect.value? : LineEffect → Option Nat
  | .length (.value n) => some n
  | _ => none

def LineEffect.isLength : LineEffect → Bool
  | .length _ => true
  | _ => false

def values : List Nat := effects.filterMap LineEffect.value?

def empties : Nat := effects.count emptyLength

def others : List LineEffect := effects.filter fun effect => !effect.isLength

/-- Lengths in a given order, the empty ones first. -/
def fields (count : Nat) (numbers : List Nat) : List LineEffect :=
  List.replicate count emptyLength ++ numbers.map lengthOf

variable {effects rest : List LineEffect} {mode : BodyMode}

theorem mem_values {n : Nat} : n ∈ values effects ↔ lengthOf n ∈ effects := by
  unfold values
  rw [mem_filterMap]
  constructor
  · rintro ⟨effect, member, value⟩
    cases effect with
    | length field =>
      cases field with
      | value m =>
        cases value
        exact member
      | empty | negative => cases value
    | chunked | close | neutral => cases value
  · intro member
    exact ⟨lengthOf n, member, rfl⟩

theorem perm_parts (positive : .length .negative ∉ effects) :
    (others effects ++ fields (empties effects) (values effects)).Perm effects := by
  induction effects with
  | nil => exact List.Perm.refl _
  | cons effect rest induction =>
    have later := induction fun member => positive (mem_cons_of_mem _ member)
    have moved := List.Perm.cons effect later
    cases effect with
    | length field =>
      cases field with
      | negative => exact absurd mem_cons_self positive
      | empty =>
        have count : empties (emptyLength :: rest) = empties rest + 1 := count_cons_self
        have same : others (emptyLength :: rest) = others rest := rfl
        have kept : values (emptyLength :: rest) = values rest := rfl
        rw [count, fields, replicate_succ]
        exact perm_middle.trans moved
      | value n =>
        have count : empties (lengthOf n :: rest) = empties rest := count_cons_of_ne (by simp)
        have same : others (lengthOf n :: rest) = others rest := rfl
        have more : values (lengthOf n :: rest) = n :: values rest := rfl
        rw [more, fields]
        rw [← append_assoc]
        refine perm_middle.trans ?_
        rw [append_assoc]
        exact moved
    | chunked | close | neutral =>
      exact moved

/-- Lines that leave a resting mode resting. -/
def Passive (effects : List LineEffect) : Prop :=
  ∀ effect ∈ effects, effect = .close ∨ effect = .neutral

theorem others_passive (whole : .chunked ∉ effects) : Passive (others effects) := by
  intro effect member
  obtain ⟨inside, noLength⟩ := mem_filter.mp member
  cases effect with
  | length field => cases noLength
  | chunked => exact absurd inside whole
  | close => exact Or.inl rfl
  | neutral => exact Or.inr rfl

theorem Passive.run_resting (passive : Passive effects) (rests : mode.resting) :
    (mode.run effects).resting := by
  apply foldlRecOn effects next rests
  intro mode rests effect member
  rcases passive effect member with rfl | rfl
  · exact Or.inr rests.withClose
  · exact rests

/-- A block of lengths that are all different, without a line that closes a
zero length. -/
structure DistinctLengths (effects : List LineEffect) : Prop where
  noEmpty : emptyLength ∉ effects
  positive : LineEffect.length .negative ∉ effects
  whole : LineEffect.chunked ∉ effects
  distinct : ((values effects).map UInt32.ofNat).Nodup
  noZero : LineEffect.close ∈ effects → 0 ∉ (values effects).map UInt32.ofNat

/-- A length in force differs from all the lengths to come. -/
def Fresh (mode : BodyMode) (effects : List LineEffect) : Prop :=
  ∀ n, mode = .length n →
    n ∉ (values effects).map UInt32.ofNat ∧ (LineEffect.close ∈ effects → n ≠ 0)

theorem values_cons_subset (effect : LineEffect) (rest : List LineEffect) :
    (values rest).Sublist (values (effect :: rest)) := by
  exact (sublist_cons_self effect rest).filterMap _

theorem DistinctLengths.tail {effect : LineEffect}
    (lengths : DistinctLengths (effect :: rest)) : DistinctLengths rest where
  noEmpty member := lengths.noEmpty (mem_cons_of_mem _ member)
  positive member := lengths.positive (mem_cons_of_mem _ member)
  whole member := lengths.whole (mem_cons_of_mem _ member)
  distinct := lengths.distinct.sublist ((values_cons_subset effect rest).map _)
  noZero member zero := lengths.noZero (mem_cons_of_mem _ member)
    (((values_cons_subset effect rest).map _).subset zero)

theorem Fresh.of_inactive (inactive : mode.active = false)
    (effects : List LineEffect) : Fresh mode effects := by
  intro n same
  rw [same] at inactive
  cases inactive

theorem Fresh.tail {effect : LineEffect} (fresh : Fresh mode (effect :: rest)) :
    Fresh mode rest := by
  intro n same
  obtain ⟨absent, nonzero⟩ := fresh n same
  exact ⟨fun member => absent (((values_cons_subset effect rest).map _).subset member),
    fun member => nonzero (mem_cons_of_mem _ member)⟩

theorem Fresh.withClose (fresh : Fresh mode (.close :: rest)) :
    mode.withClose.active = mode.active ∧ Fresh mode.withClose rest := by
  cases mode with
  | length m =>
    have nonzero := (fresh m rfl).2 mem_cons_self
    have kept : (length m).withClose = .length m := if_pos (UInt32.pos_iff_ne_zero.mpr nonzero)
    rw [kept]
    exact ⟨rfl, fresh.tail⟩
  | unset | close | chunked => exact ⟨rfl, .of_inactive rfl rest⟩

theorem Fresh.withValue {n : Nat} (fresh : Fresh mode (lengthOf n :: rest))
    (lengths : DistinctLengths (lengthOf n :: rest)) :
    (mode.withLength (.value n)).active = !mode.active ∧
      Fresh (mode.withLength (.value n)) rest := by
  cases active : mode.active with
  | true =>
    cases mode with
    | length m =>
      have different : m ≠ UInt32.ofNat n := fun same => (fresh m rfl).1 (same ▸ mem_cons_self)
      rw [length_withLength_value different]
      exact ⟨rfl, .of_inactive rfl rest⟩
    | unset | chunked | close => cases active
  | false =>
    rw [withLength_value active]
    refine ⟨rfl, ?_⟩
    intro m same
    cases same
    have distinct : ((n :: values rest).map UInt32.ofNat).Nodup := lengths.distinct
    refine ⟨(nodup_cons.mp distinct).1, ?_⟩
    intro member zero
    exact lengths.noZero (mem_cons_of_mem _ member) (zero ▸ mem_cons_self)

theorem run_distinct (mode : BodyMode) (lengths : DistinctLengths effects)
    (fresh : Fresh mode effects) :
    (mode.run effects).active = (mode.active ^^ (values effects).length % 2 == 1) := by
  induction effects generalizing mode with
  | nil => simp [run, values]
  | cons effect rest induction =>
    cases effect with
    | chunked => exact absurd mem_cons_self lengths.whole
    | neutral => exact induction mode lengths.tail fresh.tail
    | close =>
      obtain ⟨same, later⟩ := fresh.withClose
      rw [← same]
      exact induction mode.withClose lengths.tail later
    | length field =>
      cases field with
      | empty => exact absurd mem_cons_self lengths.noEmpty
      | negative => exact absurd mem_cons_self lengths.positive
      | value n =>
        obtain ⟨switched, later⟩ := fresh.withValue lengths
        have inner := induction _ lengths.tail later
        have count : (values (lengthOf n :: rest)).length = (values rest).length + 1 := rfl
        change ((mode.withLength (.value n)).run rest).active = _
        rw [inner, switched, count]
        rcases Nat.mod_two_eq_zero_or_one (values rest).length with
          even | odd
        · have next : ((values rest).length + 1) % 2 = 1 := by omega
          rw [even, next]
          cases mode.active <;> rfl
        · have next : ((values rest).length + 1) % 2 = 0 := by omega
          rw [odd, next]
          cases mode.active <;> rfl

end NeuVector.DataPath
