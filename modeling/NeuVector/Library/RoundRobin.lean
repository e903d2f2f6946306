import Mathlib.Data.List.Induction
import Mathlib.Data.List.Perm.Basic

/-!
# Dealing values into slots

Values are dealt into a number of slots in turn.  Reading the slots back and
putting the values of each slot in their places gives the values in their
order.  A slot that cannot be read leaves its places as they were.
-/

namespace NeuVector.Library

open List

namespace RoundRobin

variable {α β : Type}

/-- The value at index `idx` goes to the end of slot `idx % count`. -/
def deal (count : Nat) (values : List α) : List (List α) :=
  values.zipIdx.foldl (fun slots entry => slots.modify (entry.2 % count) (· ++ [entry.1]))
    (List.replicate count [])

/-- The values of one slot go to every place of the slot; nothing results if
there is no such place. -/
def placeSlot (count i : Nat) : Nat → List α → List α → Option (List α)
  | _, [], places => some places
  | idx, value :: slot, places =>
    if count * idx + i < places.length then
      placeSlot count i (idx + 1) slot (places.set (count * idx + i) value)
    else none

/-- The slots from `i` on, `left` of them. -/
def placeSlots (count : Nat) (read : Nat → Option (List α)) : Nat → Nat → List α → Option (List α)
  | _, 0, places => some places
  | i, left + 1, places =>
    match read i with
    | none => placeSlots count read (i + 1) left places
    | some slot =>
      match placeSlot count i 0 slot places with
      | none => none
      | some placed => placeSlots count read (i + 1) left placed

variable {values : List α}

section Deal

variable {count : Nat}

theorem deal_append_singleton (count : Nat) (values : List α) (value : α) :
    deal count (values ++ [value]) = (deal count values).modify (values.length % count)
        (· ++ [value]) := by
  unfold deal
  rw [zipIdx_append, foldl_append, Nat.zero_add]
  rfl

theorem deal_map (f : α → β) (count : Nat) (values : List α) :
    deal count (values.map f) = (deal count values).map (map f) := by
  induction values using reverseRecOn with
  | nil => simp [deal]
  | append_singleton values value induction =>
    rw [map_append, map_singleton, deal_append_singleton,
      deal_append_singleton, induction]
    apply ext_getElem?
    intro position
    by_cases here : values.length % count = position
    · simp [here, Function.comp_def]
    · simp [here]

@[simp]
theorem length_deal (count : Nat) (values : List α) : (deal count values).length = count := by
  induction values using reverseRecOn with
  | nil => simp [deal]
  | append_singleton values value induction => rw [deal_append_singleton, length_modify, induction]

theorem place_lt_iff (positive : 0 < count) (length j : Nat) :
    count * j + length % count < length ↔ j < length / count := by
  have division := Nat.div_add_mod length count
  constructor
  · intro below
    have less : count * j < count * (length / count) := by omega
    exact Nat.lt_of_mul_lt_mul_left less
  · intro below
    have less : count * j < count * (length / count) := Nat.mul_lt_mul_of_pos_left below positive
    omega

variable {i : Nat}

theorem place_mod {j : Nat} (below : i < count) : (count * j + i) % count = i := by
  rw [Nat.mul_add_mod, Nat.mod_eq_of_lt below]

theorem length_of_places {slot : List α} (positive : 0 < count)
    (places : ∀ j, slot[j]? = values[count * j + values.length % count]?) :
    slot.length = values.length / count := by
  have same : ∀ j, slot.length ≤ j ↔ values.length / count ≤ j := by
    intro j
    rw [← getElem?_eq_none_iff, places, getElem?_eq_none_iff,
      ← Nat.not_lt, place_lt_iff positive, Nat.not_lt]
  have first := same slot.length
  have second := same (values.length / count)
  omega

theorem deal_slot {slot : List α} (found : (deal count values)[i]? = some slot)
    (j : Nat) : slot[j]? = values[count * j + i]? := by
  have below : i < count := by
    obtain ⟨bound, _⟩ := List.getElem?_eq_some_iff.mp found
    rwa [length_deal] at bound
  have positive : 0 < count := Nat.lt_of_le_of_lt (Nat.zero_le _) below
  induction values using reverseRecOn generalizing slot j with
  | nil =>
    have empty : slot = [] := by simpa [deal, below] using found.symm
    rw [empty, getElem?_nil, getElem?_nil]
  | append_singleton values value induction =>
    rw [deal_append_singleton, getElem?_modify] at found
    obtain ⟨before, isBefore, rfl⟩ := Option.map_eq_some_iff.mp found
    have earlier := induction isBefore
    by_cases here : values.length % count = i
    · subst here
      have length := length_of_places positive earlier
      have place := place_lt_iff positive values.length j
      have division := Nat.div_add_mod values.length count
      rw [if_pos rfl]
      rcases Nat.lt_trichotomy j before.length with less | rfl | more
      · rw [getElem?_append_left less, earlier,
          getElem?_append_left (place.mpr (length ▸ less))]
      · rw [length, division, ← length, getElem?_concat_length, getElem?_concat_length]
      · have beyond : values.length < count * j + values.length % count := by
          have step : count * (values.length / count) < count * j :=
            Nat.mul_lt_mul_of_pos_left (length ▸ more) positive
          omega
        rw [getElem?_eq_none (by simp; omega), getElem?_eq_none (by simp; omega)]
    · rw [if_neg here]
      refine (earlier j).trans ?_
      have other : count * j + i ≠ values.length := by
        intro same
        rw [← same, place_mod below] at here
        exact here rfl
      rcases Nat.lt_or_gt_of_ne other with less | more
      · rw [getElem?_append_left less]
      · rw [getElem?_eq_none (by omega), getElem?_eq_none (by simp; omega)]

theorem deal_next_empty (below : values.length < count) :
    (deal count values)[values.length]? = some [] := by
  obtain ⟨slot, found⟩ : ∃ slot, (deal count values)[values.length]? = some slot := by
    rw [← length_deal count values] at below
    exact ⟨_, List.getElem?_eq_getElem below⟩
  have first := deal_slot found 0
  rw [Nat.mul_zero, Nat.zero_add, getElem?_eq_none (Nat.le_refl _)] at first
  have empty := getElem?_eq_none_iff.mp first
  rw [found, eq_nil_of_length_eq_zero (Nat.le_zero.mp empty)]

theorem flatten_modify_perm {slots : List (List α)} (value : α) (below : i < slots.length) :
    (slots.modify i (· ++ [value])).flatten.Perm (value :: slots.flatten) := by
  induction slots generalizing i with
  | nil => cases below
  | cons slot slots induction =>
    cases i with
    | zero =>
      rw [modify_zero_cons, flatten_cons, append_assoc]
      exact perm_middle
    | succ i =>
      have later := induction (Nat.lt_of_succ_lt_succ below)
      exact (later.append_left slot).trans perm_middle

theorem flatten_deal_perm (positive : 0 < count) (values : List α) :
    (deal count values).flatten.Perm values := by
  induction values using reverseRecOn with
  | nil => simp [deal]
  | append_singleton values value induction =>
    have below : values.length % count < (deal count values).length := by
      rw [length_deal]
      exact Nat.mod_lt _ positive
    rw [deal_append_singleton]
    refine (flatten_modify_perm value below).trans ?_
    exact (induction.cons value).trans (perm_append_singleton value values).symm

end Deal

section Place

variable {count : Nat}
variable {places slot : List α} {i idx : Nat}

theorem length_placeSlot {placed : List α}
    (done : placeSlot count i idx slot places = some placed) :
    placed.length = places.length := by
  induction slot generalizing idx places with
  | nil =>
    cases done
    rfl
  | cons value slot induction =>
    rw [placeSlot] at done
    split at done
    · rw [induction done, length_set]
    · cases done

theorem getElem?_placeSlot {placed : List α} (below : i < count)
    (done : placeSlot count i idx slot places = some placed) :
    (∀ j, j < slot.length → placed[count * (idx + j) + i]? = slot[j]?) ∧
    (∀ place, place % count ≠ i → placed[place]? = places[place]?) ∧
    (∀ j, j < idx → placed[count * j + i]? = places[count * j + i]?) := by
  induction slot generalizing idx places with
  | nil =>
    cases done
    exact ⟨fun j less => absurd less (Nat.not_lt_zero j), fun _ _ => rfl, fun _ _ => rfl⟩
  | cons value slot induction =>
    rw [placeSlot] at done
    split at done
    next inside =>
      obtain ⟨own, other, before⟩ := induction done
      refine ⟨?_, ?_, ?_⟩
      · intro j less
        cases j with
        | zero =>
          rw [Nat.add_zero, before idx (Nat.lt_succ_self idx), getElem?_set_self inside]
          rfl
        | succ j =>
          have found := own j (Nat.lt_of_succ_lt_succ less)
          rw [Nat.add_right_comm] at found
          exact found
      · intro place outside
        rw [other place outside, getElem?_set_ne]
        intro same
        rw [← same, place_mod below] at outside
        exact outside rfl
      · intro j less
        rw [before j (Nat.lt_succ_of_lt less), getElem?_set_ne]
        intro same
        have positive : 0 < count := Nat.lt_of_le_of_lt (Nat.zero_le _) below
        have strict : count * j < count * idx := Nat.mul_lt_mul_of_pos_left less positive
        omega
    · cases done

theorem placeSlot_fits (fits : ∀ j, j < slot.length → count * (idx + j) + i < places.length) :
    ∃ placed, placeSlot count i idx slot places = some placed := by
  induction slot generalizing idx places with
  | nil => exact ⟨places, rfl⟩
  | cons value slot induction =>
    have inside := fits 0 (Nat.succ_pos _)
    rw [Nat.add_zero] at inside
    rw [placeSlot, if_pos inside]
    apply induction
    intro j less
    rw [length_set]
    have place := fits (j + 1) (Nat.succ_lt_succ less)
    rw [Nat.add_right_comm]
    exact place

/-- The slots that can be read are as they were dealt. -/
def Dealt (count : Nat) (values : List α) (read : Nat → Option (List α)) : Prop :=
  ∀ i slot, i < count → read i = some slot → (deal count values)[i]? = some slot

theorem placeSlot_dealt (below : i < count) (dealt : (deal count values)[i]? = some slot)
    (length : places.length = values.length) :
    ∃ placed, placeSlot count i 0 slot places = some placed ∧ placed.length = values.length ∧
      ∀ place, placed[place]? =
        if place % count = i then values[place]? else places[place]? := by
  have inside : ∀ j, j < slot.length → count * (0 + j) + i < places.length := by
    intro j less
    have found := deal_slot dealt j
    rw [List.getElem?_eq_getElem less] at found
    obtain ⟨bound, _⟩ := List.getElem?_eq_some_iff.mp found.symm
    rwa [Nat.zero_add, length]
  obtain ⟨placed, done⟩ := placeSlot_fits inside
  have same := length_placeSlot done
  obtain ⟨own, other, _⟩ := getElem?_placeSlot below done
  refine ⟨placed, done, same.trans length, ?_⟩
  intro place
  split
  next here =>
    subst here
    have division := Nat.div_add_mod place count
    have found := deal_slot dealt (place / count)
    rw [division] at found
    by_cases less : place / count < slot.length
    · have own := own (place / count) less
      rw [Nat.zero_add, division] at own
      exact own.trans found
    · rw [getElem?_eq_none (Nat.not_lt.mp less)] at found
      have beyond := getElem?_eq_none_iff.mp found.symm
      rw [getElem?_eq_none (by omega), getElem?_eq_none beyond]
  next there => exact other place there

theorem placeSlots_dealt {read : Nat → Option (List α)} (positive : 0 < count)
    (dealt : Dealt count values read) {left : Nat} (rest : i + left = count)
    (length : places.length = values.length) :
    ∃ placed, placeSlots count read i left places = some placed ∧ placed.length = values.length ∧
      ∀ place, placed[place]? =
        if i ≤ place % count ∧ (read (place % count)).isSome = true then values[place]?
        else places[place]? := by
  induction left generalizing i places with
  | zero =>
    refine ⟨places, rfl, length, ?_⟩
    intro place
    have below := Nat.mod_lt place positive
    rw [if_neg (by omega)]
  | succ left induction =>
    rw [placeSlots]
    cases isRead : read i with
    | none =>
      obtain ⟨placed, done, same, found⟩ := induction (by omega : i + 1 + left = count) length
      refine ⟨placed, done, same, ?_⟩
      intro place
      rw [found place]
      by_cases here : place % count = i
      · rw [if_neg (by omega), if_neg (by simp [here, isRead])]
      · have skip : i + 1 ≤ place % count ↔ i ≤ place % count := by omega
        simp only [skip]
    | some slot =>
      obtain ⟨middle, put, sameMiddle, inMiddle⟩ :=
        placeSlot_dealt (by omega : i < count) (dealt i slot (by omega) isRead) length
      obtain ⟨placed, done, same, found⟩ := induction (by omega : i + 1 + left = count) sameMiddle
      simp only [put]
      refine ⟨placed, done, same, ?_⟩
      intro place
      rw [found place, inMiddle place]
      by_cases here : place % count = i
      · rw [if_neg (by omega), if_pos here, if_pos (by simp [here, isRead])]
      · have skip : i + 1 ≤ place % count ↔ i ≤ place % count := by omega
        simp only [skip, if_neg here]

theorem placeSlots_complete {read : Nat → Option (List α)}
    (positive : 0 < count) (dealt : Dealt count values read)
    (all : ∀ i, i < count → (read i).isSome = true) (length : places.length = values.length) :
    placeSlots count read 0 count places = some values := by
  obtain ⟨placed, done, _, found⟩ := placeSlots_dealt positive dealt (Nat.zero_add count) length
  rw [done]
  congr 1
  apply ext_getElem?
  intro place
  rw [found place, if_pos ⟨Nat.zero_le _, all _ (Nat.mod_lt _ positive)⟩]

end Place

end RoundRobin

end NeuVector.Library
