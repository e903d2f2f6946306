import Mathlib.Tactic.Abel

/-!
# Ledgers

A ledger is a list of entries that carry amounts.  Amounts are taken in a
commutative group, so that counters of a fixed width are covered.  Adding an
entry, or adding to the amount of one entry, adds to the total.
-/

namespace NeuVector.Library

namespace Ledger

def modifyFirst {α : Type} (pick : α → Bool) (change : α → α) : List α → List α
  | [] => []
  | entry :: rest =>
    if pick entry then change entry :: rest
    else entry :: modifyFirst pick change rest

theorem map_modifyFirst {α β : Type} {seen : α → β} {pick : β → Bool}
    {change : α → α} {seenChange : β → β} (entries : List α)
    (agree : ∀ entry, seen (change entry) = seenChange (seen entry)) :
    (modifyFirst (fun entry => pick (seen entry)) change entries).map seen =
      modifyFirst pick seenChange (entries.map seen) := by
  induction entries with
  | nil => rfl
  | cons first rest induction =>
    simp only [modifyFirst, List.map_cons]
    split
    · rw [List.map_cons, agree]
    · rw [List.map_cons, induction]

theorem modifyFirst_split {α : Type} {pick : α → Bool} (change : α → α)
    {entries : List α} (found : entries.any pick = true) :
    ∃ before entry after, entries = before ++ entry :: after ∧ pick entry = true ∧
      modifyFirst pick change entries = before ++ change entry :: after := by
  induction entries with
  | nil => cases found
  | cons first rest induction =>
    by_cases picked : pick first = true
    · exact ⟨[], first, rest, rfl, picked, if_pos picked⟩
    · rw [List.any_cons, Bool.or_eq_true] at found
      obtain ⟨before, entry, after, rfl, isPicked, modified⟩ :=
        induction (found.resolve_left picked)
      refine ⟨first :: before, entry, after, rfl, isPicked, ?_⟩
      rw [modifyFirst, if_neg picked, modified]
      rfl

section Totals

variable {α M : Type} [AddCommGroup M]

def total (amount : α → M) (entries : List α) : M :=
  entries.foldr (fun entry sum => amount entry + sum) 0

@[simp] theorem total_nil (amount : α → M) : total amount [] = 0 := rfl

@[simp] theorem total_cons (amount : α → M) (entry : α) (rest : List α) :
    total amount (entry :: rest) = amount entry + total amount rest := rfl

theorem total_append (amount : α → M) (first second : List α) :
    total amount (first ++ second) = total amount first + total amount second := by
  induction first with
  | nil => rw [List.nil_append, total_nil, zero_add]
  | cons entry rest induction => rw [List.cons_append, total_cons, total_cons, induction, add_assoc]

theorem total_modifyFirst {pick : α → Bool} {change : α → α} {gain : M} (amount : α → M)
    (gains : ∀ entry, amount (change entry) = amount entry + gain)
    {entries : List α} (found : entries.any pick = true) :
    total amount (modifyFirst pick change entries) = total amount entries + gain := by
  induction entries with
  | nil => cases found
  | cons entry rest induction =>
    unfold modifyFirst
    by_cases picked : pick entry = true
    · rw [if_pos picked, total_cons, total_cons, gains]
      abel
    · have later : rest.any pick = true := by
        rw [List.any_cons, Bool.or_eq_true] at found
        exact found.resolve_left picked
      rw [if_neg picked, total_cons, total_cons, induction later, add_assoc]

end Totals

end Ledger

end NeuVector.Library
