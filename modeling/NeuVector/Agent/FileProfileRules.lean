import NeuVector.Agent.FileProfile

/-!
# Merging rules on applications

What merging does to one rule, and when it does nothing: the rule is marked as
added by the customer, has its applications sorted and without repetition,
among them those of the other rule, and blocks if the other one does.
-/

namespace NeuVector.Agent

open Library

variable {rule later : FileAccessFilterRule}

theorem mem_mergeStringSlices {s1 s2 : List String} {app : String} :
    app ∈ mergeStringSlices s1 s2 ↔ app ∈ s1 ∨ app ∈ s2 := by
  unfold mergeStringSlices
  rw [(List.perm_insertionSort _ _).mem_iff, List.mem_dedup, List.mem_append]

theorem mergeStringSlices_sorted (s1 s2 : List String) :
    (mergeStringSlices s1 s2).Pairwise (· < ·) := by
  have nodup : (mergeStringSlices s1 s2).Nodup :=
    (List.perm_insertionSort _ _).nodup_iff.mpr (List.nodup_dedup _)
  have ordered : (mergeStringSlices s1 s2).Pairwise (· ≤ ·) := List.pairwise_insertionSort _ _
  refine (ordered.and nodup).imp ?_
  intro first second both
  exact lt_of_le_of_ne both.1 both.2

/-- Merging the later rule into the rule does nothing. -/
structure Settled (rule later : FileAccessFilterRule) : Prop where
  customerAdd : rule.customerAdd = true
  sorted : rule.apps.Pairwise (· < ·)
  apps : ∀ app ∈ later.apps, app ∈ rule.apps
  block : later.behavior = .block → rule.behavior = .block

theorem Settled.merge (settled : Settled rule later) : mergeAccessRule rule later = rule := by
  have apps : mergeStringSlices rule.apps later.apps = rule.apps := by
    apply List.Pairwise.eq_of_mem_iff (mergeStringSlices_sorted _ _) settled.sorted
    intro app
    rw [mem_mergeStringSlices]
    constructor
    · rintro (own | other)
      · exact own
      · exact settled.apps app other
    · exact Or.inl
  have behavior : (if later.behavior = .block then .block
      else rule.behavior) = rule.behavior := by
    split
    case isTrue blocks => exact (settled.block blocks).symm
    case isFalse => rfl
  unfold mergeAccessRule
  rw [apps, behavior, ← settled.customerAdd]

/-- What has been merged into a rule is never taken back. -/
structure Contains (grown rule : FileAccessFilterRule) : Prop where
  apps : ∀ app ∈ rule.apps, app ∈ grown.apps
  block : rule.behavior = .block → grown.behavior = .block

theorem Contains.refl (rule : FileAccessFilterRule) : Contains rule rule where
  apps := fun _ member => member
  block := fun blocks => blocks

theorem Contains.trans {first second third : FileAccessFilterRule}
    (one : Contains first second) (two : Contains second third) :
    Contains first third where
  apps := fun app member => one.apps app (two.apps app member)
  block := fun blocks => one.block (two.block blocks)

theorem mergeAccessRule_contains (rule later : FileAccessFilterRule) :
    Contains (mergeAccessRule rule later) rule where
  apps := fun _ member => mem_mergeStringSlices.mpr (Or.inl member)
  block := by
    intro blocks
    unfold mergeAccessRule
    split
    · rfl
    · exact blocks

theorem mergeAccessRule_contains_later (rule later : FileAccessFilterRule) :
    Contains (mergeAccessRule rule later) later where
  apps := fun _ member => mem_mergeStringSlices.mpr (Or.inr member)
  block := fun blocks => if_pos blocks

variable (added : List FileAccessFilterRule)

theorem foldl_contains (rule : FileAccessFilterRule) :
    Contains (added.foldl mergeAccessRule rule) rule := by
  induction added generalizing rule with
  | nil => exact Contains.refl rule
  | cons first rest induction => exact (induction _).trans (mergeAccessRule_contains rule first)

theorem mergeAccessRule_grows : SharedMerge.Grows mergeAccessRule := by
  intro rule added
  have contains := foldl_contains added rule
  generalize added.foldl mergeAccessRule rule = grown at contains ⊢
  have apps : mergeStringSlices grown.apps grown.apps = mergeStringSlices grown.apps rule.apps := by
    apply List.Pairwise.eq_of_mem_iff (mergeStringSlices_sorted _ _) (mergeStringSlices_sorted _ _)
    intro app
    rw [mem_mergeStringSlices, mem_mergeStringSlices]
    constructor
    · rintro (own | own)
      · exact Or.inl own
      · exact Or.inl own
    · rintro (own | before)
      · exact Or.inl own
      · exact Or.inl (contains.apps app before)
  have behavior : (if grown.behavior = .block then .block
      else grown.behavior) = if rule.behavior = .block then .block
        else grown.behavior := by
    split
    case isTrue blocks =>
      split
      · rfl
      · exact blocks.symm
    case isFalse open_ => rw [if_neg fun blocks => open_ (contains.block blocks)]
  unfold mergeAccessRule
  rw [apps, behavior]

theorem foldl_merged (marked : rule.customerAdd = true) (sorted : rule.apps.Pairwise (· < ·)) :
    (added.foldl mergeAccessRule rule).customerAdd = true ∧
      (added.foldl mergeAccessRule rule).apps.Pairwise (· < ·) := by
  induction added generalizing rule with
  | nil => exact ⟨marked, sorted⟩
  | cons first rest induction => exact induction rfl (mergeStringSlices_sorted _ _)

theorem foldl_eq_self_iff :
    added.foldl mergeAccessRule rule = rule ↔ ∀ later ∈ added, Settled rule later := by
  induction added with
  | nil =>
    constructor
    · intro _ later none
      cases none
    · exact fun _ => rfl
  | cons first rest induction =>
    rw [List.foldl_cons, List.forall_mem_cons]
    constructor
    · intro same
      have merged := foldl_merged rest
        (show (mergeAccessRule rule first).customerAdd = true from rfl)
        (mergeStringSlices_sorted rule.apps first.apps)
      have contains := (foldl_contains rest _).trans (mergeAccessRule_contains_later rule first)
      rw [same] at merged contains
      have settled : Settled rule first := ⟨merged.1, merged.2, contains.apps, contains.block⟩
      rw [settled.merge] at same
      exact ⟨settled, induction.mp same⟩
    · rintro ⟨settled, others⟩
      rw [settled.merge]
      exact induction.mpr others

end NeuVector.Agent
