import Mathlib.Data.List.TakeWhile
import NeuVector.Library.Segments

/-!
# Arrivals of the pieces of a stream

A stream is cut into pieces that follow one another.  The pieces arrive in any
order and are consumed from the front.  What can be read without a hole are
the pieces before the first one that has not been seen; a piece is kept from
its arrival until it is consumed to its end.
-/

namespace NeuVector.Library

namespace Arrivals

open Segments List

variable {α β : Type}

section Definitions

variable (start size : α → Nat)

/-- Pieces, none of them empty, that make up a stream of the length. -/
structure Cut (length : Nat) (pieces : List α) : Prop where
  chain : Chain start size 0 length pieces
  filled : ∀ piece ∈ pieces, 0 < size piece

/-- The offset before which every piece has been seen. -/
def reach (seen : α → Bool) (pieces : List α) : Nat := total size (pieces.takeWhile seen)

def unconsumed (position : Nat) (piece : α) : Bool := decide (position < start piece + size piece)

/-- The pieces that have been seen and are not consumed to their end. -/
def live (seen : α → Bool) (position : Nat) (pieces : List α) : List α :=
  pieces.filter fun piece => seen piece && unconsumed start size position piece

/-- The live pieces before the first one that has not been seen. -/
def run (seen : α → Bool) (position : Nat) (pieces : List α) : List α :=
  (pieces.takeWhile seen).filter (unconsumed start size position)

/-- The live pieces behind it. -/
def early (seen : α → Bool) (position : Nat) (pieces : List α) : List α :=
  live start size seen position (pieces.dropWhile seen)

def mark [DecidableEq α] (seen : α → Bool) (piece other : α) : Bool :=
  seen other || decide (other = piece)

end Definitions

variable {start size : α → Nat} {seen : α → Bool} {position length : Nat}
  {pieces : List α} {piece : α}

theorem Cut.seen_chain (cut : Cut start size length pieces) :
    Chain start size 0 (reach size seen pieces) (pieces.takeWhile seen) ∧
      Chain start size (reach size seen pieces) length (pieces.dropWhile seen) := by
  have whole := cut.chain
  rw [← takeWhile_append_dropWhile (p := seen) (l := pieces)] at whole
  obtain ⟨middle, front, back⟩ := whole.split
  have reached : reach size seen pieces = middle := by
    rw [← front.total_eq, Nat.zero_add]
    rfl
  rw [reached]
  exact ⟨front, back⟩

theorem Cut.reach_all (cut : Cut start size length pieces)
    (all : ∀ piece ∈ pieces, seen piece = true) :
    reach size seen pieces = length := by
  have whole : pieces.takeWhile seen = pieces := takeWhile_eq_self_iff.mpr all
  unfold reach
  rw [whole, ← cut.chain.total_eq, Nat.zero_add]

theorem mem_dropWhile_of_unseen (member : piece ∈ pieces)
    (unseen : seen piece = false) : piece ∈ pieces.dropWhile seen := by
  rw [← takeWhile_append_dropWhile (p := seen) (l := pieces)] at member
  rcases mem_append.mp member with front | back
  · have shown := mem_takeWhile_imp front
    rw [unseen] at shown
    cases shown
  · exact back

section

variable (cut : Cut start size length pieces)
include cut

theorem Cut.dropWhile_cases :
    pieces.dropWhile seen = [] ∨ ∃ head rest, pieces.dropWhile seen = head :: rest ∧
        seen head = false ∧ start head = reach size seen pieces ∧
        ∀ other ∈ rest, reach size seen pieces < start other := by
  cases dropped : pieces.dropWhile seen with
  | nil => exact Or.inl rfl
  | cons head rest =>
    right
    have chain := (@Cut.seen_chain α start size seen length pieces cut).2
    rw [dropped] at chain
    have inside : head ∈ pieces.dropWhile seen := by
      rw [dropped]
      exact mem_cons_self
    have positive := cut.filled head ((dropWhile_sublist seen).subset inside)
    refine ⟨head, rest, rfl, ?_, chain.1, ?_⟩
    · have first := head?_dropWhile_not seen pieces
      rw [dropped] at first
      exact first
    · intro other member
      have lower := chain.2.lower other member
      omega

theorem Cut.dropWhile_next (member : piece ∈ pieces) (unseen : seen piece = false)
    (next : start piece = reach size seen pieces) :
    ∃ rest, pieces.dropWhile seen = piece :: rest := by
  have inside := mem_dropWhile_of_unseen member unseen
  rcases cut.dropWhile_cases with none | ⟨head, rest, dropped, _, _, later⟩
  · rw [none] at inside
    exact absurd inside not_mem_nil
  · refine ⟨rest, ?_⟩
    rw [dropped] at inside
    rcases mem_cons.mp inside with rfl | behind
    · exact dropped
    · have beyond := later piece behind
      omega

end

theorem live_append (front back : List α) :
    live start size seen position (front ++ back) = live start size seen position front ++
        live start size seen position back :=
  filter_append front back

theorem live_eq : live start size seen position pieces = run start size seen position pieces ++
      early start size seen position pieces := by
  have front : live start size seen position (pieces.takeWhile seen) =
      run start size seen position pieces := by
    apply filter_congr
    intro piece member
    rw [mem_takeWhile_imp member, Bool.true_and]
  calc
    live start size seen position pieces = live start size seen position
          (pieces.takeWhile seen ++ pieces.dropWhile seen) := by
      rw [takeWhile_append_dropWhile]
    _ = _ := by
      rw [live_append, front]
      rfl

theorem Cut.early_start (cut : Cut start size length pieces) {other : α}
    (member : other ∈ early start size seen position pieces) :
    reach size seen pieces < start other := by
  obtain ⟨inside, kept⟩ := mem_filter.mp member
  rcases cut.dropWhile_cases with none | ⟨head, rest, dropped, unseen, _, later⟩
  · rw [none] at inside
    exact absurd inside not_mem_nil
  · rw [dropped] at inside
    rcases mem_cons.mp inside with rfl | behind
    · rw [unseen] at kept
      cases kept
    · exact later other behind

theorem dropWhile_consumed {values : List α} (apart : Apart start size values) (position : Nat) :
    values.dropWhile (fun piece => decide (start piece + size piece ≤ position)) =
      values.filter (unconsumed start size position) := by
  refine ((takeWhile_eq_filter_iff _ values).mpr (apart.imp ?_)).1.trans ?_
  · intro first later ends past
    rw [decide_eq_true_eq] at past ⊢
    omega
  · simp only [← decide_not, Nat.not_le]
    rfl

theorem unconsumed_chain {low high : Nat} {values : List α}
    (chain : Chain start size low high values) (below : low ≤ position) :
    ∃ consumed first, values = consumed ++ values.filter (unconsumed start size position) ∧
        Chain start size low first consumed ∧
        Chain start size first high (values.filter (unconsumed start size position)) ∧
        first ≤ position := by
  rw [← dropWhile_consumed chain.apart]
  have whole := takeWhile_append_dropWhile (l := values)
    (p := fun piece => decide (start piece + size piece ≤ position))
  rw [← whole] at chain
  obtain ⟨first, front, back⟩ := chain.split
  refine ⟨_, first, whole.symm, front, back, ?_⟩
  cases consumed : values.takeWhile fun piece => decide (start piece + size piece ≤ position) with
  | nil =>
    rw [consumed] at front
    exact Nat.le_trans (Nat.le_of_eq (Eq.symm front)) below
  | cons head rest =>
    obtain ⟨value, member, ends⟩ := front.ends (by simp [consumed])
    have past := mem_takeWhile_imp member
    rw [← ends]
    exact of_decide_eq_true past

theorem Cut.run_chain (cut : Cut start size length pieces) (seen : α → Bool) (position : Nat) :
    ∃ consumed first, pieces.takeWhile seen = consumed ++ run start size seen position pieces ∧
        Chain start size 0 first consumed ∧
        Chain start size first (reach size seen pieces) (run start size seen position pieces) ∧
        first ≤ position :=
  unconsumed_chain cut.seen_chain.1 (Nat.zero_le _)

theorem live_forward {later : Nat} (forward : position ≤ later)
    (apart : Apart start size (live start size seen position pieces)) :
    (live start size seen position pieces).dropWhile
        (fun piece => decide (start piece + size piece ≤ later)) =
      live start size seen later pieces := by
  rw [dropWhile_consumed apart]
  unfold live
  rw [filter_filter]
  apply filter_congr
  intro piece _
  unfold unconsumed
  cases seen piece with
  | false => rw [Bool.false_and, Bool.and_false, Bool.false_and]
  | true =>
    rw [Bool.true_and, Bool.true_and, ← Bool.decide_and, decide_eq_decide]
    omega

theorem Cut.live_apart (cut : Cut start size length pieces) :
    Apart start size (live start size seen position pieces) :=
  cut.chain.apart.filter _

theorem mem_live (member : piece ∈ pieces) (shown : seen piece = true)
    (kept : position < start piece + size piece) :
    piece ∈ live start size seen position pieces := by
  apply mem_filter.mpr
  refine ⟨member, ?_⟩
  rw [shown]
  exact decide_eq_true kept

theorem of_mem_live (member : piece ∈ live start size seen position pieces) :
    piece ∈ pieces ∧ seen piece = true ∧ position < start piece + size piece := by
  obtain ⟨inside, kept⟩ := mem_filter.mp member
  rw [Bool.and_eq_true] at kept
  exact ⟨inside, kept.1, of_decide_eq_true kept.2⟩

section Marking

variable [DecidableEq α]

theorem mark_self : mark seen piece piece = true := by
  unfold mark
  rw [decide_eq_true rfl, Bool.or_true]

theorem mark_other {other : α} (different : other ≠ piece) :
    mark seen piece other = seen other := by
  unfold mark
  rw [decide_eq_false different, Bool.or_false]

theorem takeWhile_mark (seen : α → Bool) (piece : α) (pieces : List α) :
    pieces.takeWhile (mark seen piece) = pieces.takeWhile seen ++
        (pieces.dropWhile seen).takeWhile (mark seen piece) := by
  have front : ∀ other ∈ pieces.takeWhile seen, mark seen piece other = true := by
    intro other member
    unfold mark
    rw [mem_takeWhile_imp member, Bool.true_or]
  calc
    pieces.takeWhile (mark seen piece) = (pieces.takeWhile seen ++ pieces.dropWhile seen).takeWhile
          (mark seen piece) := by rw [takeWhile_append_dropWhile]
    _ = _ := takeWhile_append_of_pos front

section

variable (cut : Cut start size length pieces)
include cut

theorem Cut.reach_mark_early (behind : reach size seen pieces < start piece) :
    pieces.takeWhile (mark seen piece) = pieces.takeWhile seen := by
  have none : (pieces.dropWhile seen).takeWhile (mark seen piece) = [] := by
    rcases @Cut.dropWhile_cases α start size seen length pieces cut with
      none | ⟨head, rest, dropped, unseen, starts, _⟩
    · rw [none]
      rfl
    · have different : head ≠ piece := by
        intro same
        rw [same] at starts
        omega
      rw [dropped, takeWhile_cons_of_neg]
      rw [mark_other different, unseen]
      exact Bool.false_ne_true
  rw [takeWhile_mark, none, append_nil]

theorem Cut.reach_mark_next (member : piece ∈ pieces) (unseen : seen piece = false)
    (next : start piece = reach size seen pieces) :
    reach size seen pieces + size piece ≤ reach size (mark seen piece) pieces := by
  obtain ⟨rest, dropped⟩ := cut.dropWhile_next member unseen next
  unfold reach
  rw [takeWhile_mark, dropped, takeWhile_cons_of_pos mark_self, total_append]
  simp only [total]
  omega

theorem Cut.live_mark (member : piece ∈ pieces) (unseen : seen piece = false)
    (kept : position < start piece + size piece) :
    ∃ before after, live start size seen position pieces = before ++ after ∧
        live start size (mark seen piece) position pieces = before ++ piece :: after := by
  obtain ⟨front, back, whole⟩ := append_of_mem member
  have distinct : pieces.Nodup := cut.chain.apart.nodup cut.filled
  rw [whole] at distinct
  have split := nodup_append.mp distinct
  have notFront : ∀ other ∈ front, other ≠ piece := by
    intro other inside
    exact split.2.2 other inside piece mem_cons_self
  have notBack : ∀ other ∈ back, other ≠ piece := by
    intro other inside same
    rw [same] at inside
    exact (nodup_cons.mp split.2.1).1 inside
  have same : ∀ values : List α, (∀ other ∈ values, other ≠ piece) →
      live start size (mark seen piece) position values = live start size seen position values := by
    intro values different
    apply filter_congr
    intro other inside
    rw [mark_other (different other inside)]
  refine ⟨live start size seen position front, live start size seen position back, ?_, ?_⟩
  · rw [whole, live_append]
    unfold live
    rw [filter_cons_of_neg]
    rw [unseen]
    exact Bool.false_ne_true
  · rw [whole, live_append, same front notFront]
    have here : live start size (mark seen piece) position (piece :: back) =
        piece :: live start size (mark seen piece) position back := by
      apply filter_cons_of_pos
      rw [mark_self]
      exact decide_eq_true kept
    rw [here, same back notBack]

end

end Marking

theorem run_contents {data : α → List β}
    {consumed : List α} {first : Nat} (sizes : ∀ piece, size piece = (data piece).length)
    (whole : pieces.takeWhile seen = consumed ++ run start size seen position pieces)
    (front : Chain start size 0 first consumed)
    (back : Chain start size first (reach size seen pieces) (run start size seen position pieces)) :
    (run start size seen position pieces).flatMap data = ((pieces.flatMap data).drop first).take
        (reach size seen pieces - first) := by
  have lengths (values : List α) : (values.flatMap data).length = total size values := by
    simp only [total_eq_sum, length_flatMap, ← sizes]
  have skipped : (consumed.flatMap data).length = first := by
    rw [lengths, ← front.total_eq, Nat.zero_add]
  have taken : ((run start size seen position pieces).flatMap data).length =
      reach size seen pieces - first := by
    rw [lengths, ← back.total_eq]
    omega
  have stream : pieces.flatMap data = consumed.flatMap data ++
      ((run start size seen position pieces).flatMap data ++
        (pieces.dropWhile seen).flatMap data) := by
    rw [← append_assoc, ← flatMap_append, ← whole,
      ← flatMap_append, takeWhile_append_dropWhile]
  rw [stream, drop_left' skipped, take_left' taken]

end Arrivals

end NeuVector.Library
