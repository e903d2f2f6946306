import Mathlib.Data.List.Perm.Basic
import Mathlib.Data.List.AList

/-!
# The last item of a key

A table that is filled from a list, item after item, holds for each key the
last item that has it.  Where the list is put together from blocks in an order
that is not known, what the table holds is known as far as the blocks agree.
-/

namespace NeuVector.Library

open List

namespace LastWins

variable {α β γ κ : Type} [DecidableEq κ] {key : α → κ} {items : List α} {item : α} {wanted : κ}

def last (key : α → κ) (items : List α) (wanted : κ) : Option α :=
  items.reverse.find? fun item => key item = wanted

def fill (key : α → κ) (items : List α) : AList fun _ : κ => α :=
  items.foldl (fun table item => table.insert (key item) item) ∅

theorem last_append (first second : List α) :
    last key (first ++ second) wanted = (last key second wanted).or (last key first wanted) := by
  unfold last
  rw [reverse_append, find?_append]

theorem last_mem (found : last key items wanted = some item) :
    item ∈ items ∧ key item = wanted := by
  constructor
  · exact mem_reverse.mp (mem_of_find?_eq_some found)
  · exact of_decide_eq_true (find?_some (p := fun item => decide (key item = wanted)) found)

theorem last_isSome (key : α → κ) (member : item ∈ items) :
    ∃ found, last key items (key item) = some found := by
  apply Option.isSome_iff_exists.mp
  apply find?_isSome.mpr
  exact ⟨item, mem_reverse.mpr member, decide_eq_true rfl⟩

theorem last_eq_none_iff : last key items wanted = none ↔ ∀ item ∈ items, key item ≠ wanted := by
  unfold last
  rw [find?_eq_none]
  constructor
  · intro absent item member same
    exact absent item (mem_reverse.mpr member) (decide_eq_true same)
  · intro absent item member same
    exact absent item (mem_reverse.mp member) (of_decide_eq_true same)

theorem lookup_foldl_insert (value : α → γ) (start : AList fun _ : κ => γ) :
    (items.foldl (fun table item => table.insert (key item) (value item)) start).lookup wanted =
      ((last key items wanted).map value).or (start.lookup wanted) := by
  induction items generalizing start with
  | nil => rfl
  | cons first rest induction =>
    have split : last key (first :: rest) wanted =
        (last key rest wanted).or (last key [first] wanted) :=
      last_append [first] rest
    rw [foldl_cons, induction, split, Option.map_or]
    by_cases same : key first = wanted
    · subst same
      simp [last]
    · rw [AList.lookup_insert_ne (Ne.symm same)]
      simp [last, same]

theorem lookup_fill : (fill key items).lookup wanted = last key items wanted := by
  apply (lookup_foldl_insert id ∅).trans
  rw [Option.map_id_fun, id, AList.lookup_empty, Option.or_none]

section Blocks

variable {blocks : List β} {content : β → List α}

theorem last_flatMap_block (found : last key (blocks.flatMap content) wanted = some item) :
    ∃ block ∈ blocks, last key (content block) wanted = some item := by
  induction blocks with
  | nil => cases found
  | cons first rest induction =>
    rw [flatMap_cons, last_append] at found
    rcases Option.or_eq_some_iff.mp found with later | ⟨_, here⟩
    · obtain ⟨block, member, foundBlock⟩ := induction later
      exact ⟨block, mem_cons_of_mem _ member, foundBlock⟩
    · exact ⟨first, mem_cons_self, here⟩

/-- If the blocks agree on what is seen of their last items of a key, then so
do all orders of the blocks. -/
theorem last_flatMap_perm {others : List β} (seen : α → γ) (permutation : blocks.Perm others)
    (agree : ∀ first second, ∀ one two, last key (content first) wanted = some one →
      last key (content second) wanted = some two → seen one = seen two) :
    (last key (blocks.flatMap content) wanted).map seen =
      (last key (others.flatMap content) wanted).map seen := by
  have covered : ∀ {some₁ some₂ : List β}, some₁.Perm some₂ → ∀ one,
      last key (some₁.flatMap content) wanted = some one →
      ∃ two, last key (some₂.flatMap content) wanted = some two := by
    intro some₁ some₂ same one found
    obtain ⟨member, rfl⟩ := last_mem found
    have moved : one ∈ some₂.flatMap content := (same.flatMap_right content).mem_iff.mp member
    exact last_isSome key moved
  cases left : last key (blocks.flatMap content) wanted with
  | none =>
    cases right : last key (others.flatMap content) wanted with
    | none => rfl
    | some two =>
      obtain ⟨one, found⟩ := covered permutation.symm two right
      rw [left] at found
      cases found
  | some one =>
    obtain ⟨two, right⟩ := covered permutation one left
    obtain ⟨first, _, foundFirst⟩ := last_flatMap_block left
    obtain ⟨second, _, foundSecond⟩ := last_flatMap_block right
    rw [right]
    exact congrArg some (agree first second one two foundFirst foundSecond)

end Blocks

def held (table : AList fun _ : κ => α) : List α := table.entries.map fun entry => entry.2

theorem mem_held_fill : item ∈ held (fill key items) ↔ last key items (key item) = some item := by
  constructor
  · intro member
    obtain ⟨⟨own, value⟩, entry, rfl⟩ := mem_map.mp member
    have found : (fill key items).lookup own = some value := AList.mem_lookup_iff.mpr entry
    rw [lookup_fill] at found
    obtain ⟨_, rfl⟩ := last_mem found
    exact found
  · intro found
    have looked : item ∈ (fill key items).lookup (key item) := by
      rw [lookup_fill]
      exact found
    exact mem_map.mpr ⟨_, AList.mem_lookup_iff.mp looked, rfl⟩

theorem held_fill_pairwise : (held (fill key items)).Pairwise fun one two => key one ≠ key two := by
  have keyed : ∀ entry ∈ (fill key items).entries, key entry.2 = entry.1 := by
    intro entry member
    have found : (fill key items).lookup entry.1 = some entry.2 := AList.mem_lookup_iff.mpr member
    rw [lookup_fill] at found
    exact (last_mem found).2
  have apart := pairwise_map.mp (fill key items).nodupKeys
  apply pairwise_map.mpr
  refine List.Pairwise.imp_of_mem ?_ apart
  intro first second firstIn secondIn different same
  apply different
  rw [← keyed first firstIn, ← keyed second secondIn]
  exact same

end LastWins

end NeuVector.Library
