import Mathlib.Data.List.AList
import Mathlib.Data.List.Induction
import Mathlib.Data.List.Perm.Basic

/-!
# Combining signed criteria of several types

Each criterion has a type, an outcome and a sign.  One pass combines them:
while a type has had negative criteria only its outcomes are joined by "and",
from its first positive criterion on by "or"; the types are joined by "and".
The result depends on the criteria of each type only.  It is compared with
what is usually meant: "or" for a type that has a positive criterion at all,
and "and" for any other type.
-/

namespace NeuVector.Library

open List

namespace SignedCriteria

variable {κ : Type}

structure Outcome (κ : Type) where
  key : κ
  met : Bool
  positive : Bool
  deriving DecidableEq

/-- The combined outcome of each type, and whether it has had a positive
criterion. -/
structure Combined (κ : Type) where
  mets : AList fun _ : κ => Bool
  poss : AList fun _ : κ => Bool

/-- The combined outcome and sign of one type after a further criterion. -/
def joinOne (state : Option (Bool × Bool)) (outcome : Outcome κ) : Option (Bool × Bool) :=
  match state with
  | none => some (outcome.met, outcome.positive)
  | some (met, positive) =>
    some (if !outcome.positive && !positive then met && outcome.met
        else met || outcome.met,
      positive || outcome.positive)

variable (outcomes : List (Outcome κ))

def joinAll : Option (Bool × Bool) := outcomes.foldl joinOne none

/-- What is meant by the criteria of one type. -/
def meant : Bool :=
  if outcomes.any Outcome.positive then outcomes.any Outcome.met
  else outcomes.all Outcome.met

/-- There is a positive criterion, none that is met, and negative ones of both
outcomes. -/
def Mixed : Prop :=
  (∃ outcome ∈ outcomes, outcome.positive = true) ∧
  (∀ outcome ∈ outcomes, outcome.positive = true → outcome.met = false) ∧
  (∃ outcome ∈ outcomes, outcome.positive = false ∧ outcome.met = true) ∧
  (∃ outcome ∈ outcomes, outcome.positive = false ∧ outcome.met = false)

instance (outcomes : List (Outcome κ)) : Decidable (Mixed outcomes) :=
  inferInstanceAs (Decidable (_ ∧ _ ∧ _ ∧ _))

section OneType

variable {outcomes : List (Outcome κ)} {outcome : Outcome κ}

theorem joinAll_append_singleton (outcomes : List (Outcome κ)) (outcome : Outcome κ) :
    joinAll (outcomes ++ [outcome]) = joinOne (joinAll outcomes) outcome := by
  unfold joinAll
  rw [foldl_append]
  rfl

/-- What one pass knows of the criteria of one type. -/
structure Joined (outcomes : List (Outcome κ)) (met : Bool) : Prop where
  pass : joinAll outcomes = some (met, outcomes.any Outcome.positive)
  negative : outcomes.any Outcome.positive = false → met = outcomes.all Outcome.met
  sound : met = true → outcomes.any Outcome.met = true
  anyPositive : (∃ outcome ∈ outcomes, outcome.positive = true ∧ outcome.met = true) → met = true
  allNegative : (∀ outcome ∈ outcomes, outcome.positive = false → outcome.met = true) →
    (∃ outcome ∈ outcomes, outcome.positive = false) → met = true

theorem joined_singleton (outcome : Outcome κ) : Joined [outcome] outcome.met := by
  constructor
  · simp [joinAll, joinOne]
  · simp
  · simp
  · simp
  · simp

variable {met : Bool}

theorem Joined.append (joined : Joined outcomes met) (some : outcomes ≠ []) (outcome : Outcome κ) :
    Joined (outcomes ++ [outcome]) (if !outcome.positive && !outcomes.any Outcome.positive then
        met && outcome.met
      else met || outcome.met) := by
  constructor
  · rw [joinAll_append_singleton, joined.pass]
    simp [joinOne]
  · intro negative
    simp only [any_append, any_cons, any_nil, Bool.or_false,
      Bool.or_eq_false_iff] at negative
    simp [negative.1, negative.2, joined.negative negative.1]
  · intro isMet
    split at isMet
    · simp [(Bool.and_eq_true_iff.mp isMet).2]
    · rcases Bool.or_eq_true_iff.mp isMet with before | now
      · simp [joined.sound before]
      · simp [now]
  · rintro ⟨other, member, positive, isMet⟩
    rcases mem_append.mp member with before | here
    · have already : outcomes.any Outcome.positive = true :=
        any_eq_true.mpr ⟨other, before, positive⟩
      simp [already, joined.anyPositive ⟨other, before, positive, isMet⟩]
    · obtain rfl := mem_singleton.mp here
      simp [positive, isMet]
  · intro all one
    have allBefore : ∀ other ∈ outcomes,
        other.positive = false → other.met = true := fun other member =>
      all other (mem_append_left _ member)
    have here := all outcome (mem_append_right _ mem_cons_self)
    by_cases before : ∃ other ∈ outcomes, other.positive = false
    · have already := joined.allNegative allBefore before
      cases sign : outcome.positive with
      | true => simp [already]
      | false => simp [already, here sign]
    · have positive : outcomes.any Outcome.positive = true := by
        obtain ⟨first, member⟩ := exists_mem_of_ne_nil _ some
        refine any_eq_true.mpr ⟨first, member, ?_⟩
        by_contra negative
        exact before ⟨first, member, by simpa using negative⟩
      obtain ⟨other, member, negative⟩ := one
      rcases mem_append.mp member with earlier | now
      · exact absurd ⟨other, earlier, negative⟩ before
      · obtain rfl := mem_singleton.mp now
        simp [positive, here negative]

theorem joinAll_joined (some : outcomes ≠ []) : ∃ met, Joined outcomes met := by
  induction outcomes using reverseRecOn with
  | nil => exact absurd rfl some
  | append_singleton outcomes outcome induction =>
    by_cases first : outcomes = []
    · subst first
      exact ⟨_, joined_singleton outcome⟩
    · obtain ⟨met, joined⟩ := induction first
      exact ⟨_, joined.append first outcome⟩

theorem Joined.meant_of_met (joined : Joined outcomes met) (isMet : met = true) :
    meant outcomes = true := by
  unfold meant
  split
  · exact joined.sound isMet
  next negative =>
    rw [← joined.negative (by simpa using negative)]
    exact isMet

theorem Joined.met_eq_meant (joined : Joined outcomes met)
    (notMixed : ¬ Mixed outcomes) : met = meant outcomes := by
  cases isMet : met with
  | true => exact (joined.meant_of_met isMet).symm
  | false =>
    by_contra isMeant
    have isMeant : meant outcomes = true := by simpa using isMeant
    unfold meant at isMeant
    split at isMeant
    next positive =>
      apply notMixed
      have noPositive : ∀ outcome ∈ outcomes, outcome.positive = true → outcome.met = false := by
        intro outcome member positive
        by_contra one
        have found := joined.anyPositive ⟨outcome, member, positive, by simpa using one⟩
        rw [isMet] at found
        cases found
      obtain ⟨one, member, oneMet⟩ := any_eq_true.mp isMeant
      have oneNegative : one.positive = false := by
        by_contra positive
        have unmet := noPositive one member (by simpa using positive)
        rw [oneMet] at unmet
        cases unmet
      refine ⟨any_eq_true.mp positive, noPositive, ⟨one, member, oneNegative, oneMet⟩, ?_⟩
      by_contra none
      have found := joined.allNegative (by
        intro other inside negative
        by_contra unmet
        exact none ⟨other, inside, negative, by simpa using unmet⟩)
        ⟨one, member, oneNegative⟩
      rw [isMet] at found
      cases found
    next negative =>
      rw [← joined.negative (by simpa using negative), isMet] at isMeant
      cases isMeant

theorem joinAll_negatives_first {negatives positives : List (Outcome κ)}
    (negative : ∀ outcome ∈ negatives, outcome.positive = false)
    (unmet : ∃ outcome ∈ negatives, outcome.met = false)
    (none : ∀ outcome ∈ positives, outcome.met = false) :
    ∃ positive, joinAll (negatives ++ positives) = some (false, positive) := by
  induction positives using reverseRecOn with
  | nil =>
    obtain ⟨one, member, oneUnmet⟩ := unmet
    obtain ⟨met, joined⟩ := joinAll_joined (ne_nil_of_mem member)
    have noPositive : negatives.any Outcome.positive = false := by
      apply any_eq_false.mpr
      intro outcome inside
      simp [negative outcome inside]
    have isUnmet : met = false := by
      rw [joined.negative noPositive]
      apply all_eq_false.mpr
      exact ⟨one, member, by simp [oneUnmet]⟩
    rw [append_nil, joined.pass, isUnmet]
    exact ⟨_, rfl⟩
  | append_singleton positives outcome induction =>
    obtain ⟨positive, before⟩ := induction (forall_mem_append.mp none).1
    have here := none outcome (mem_append_right _ mem_cons_self)
    rw [← append_assoc, joinAll_append_singleton, before]
    simp [joinOne, here]

theorem meant_perm {other : List (Outcome κ)} (perm : outcomes.Perm other) :
    meant outcomes = meant other := by
  unfold meant
  rw [perm.any_eq, perm.any_eq, perm.all_eq]

theorem Mixed.perm {other : List (Outcome κ)} (perm : outcomes.Perm other)
    (mixed : Mixed outcomes) : Mixed other := by
  obtain ⟨⟨first, one⟩, second, ⟨third, three⟩, ⟨fourth, four⟩⟩ := mixed
  refine ⟨⟨first, perm.mem_iff.mp one.1, one.2⟩, ?_, ⟨third, perm.mem_iff.mp three.1, three.2⟩,
    ⟨fourth, perm.mem_iff.mp four.1, four.2⟩⟩
  intro outcome member
  exact second outcome (perm.mem_iff.mpr member)

end OneType

section SeveralTypes

variable {γ : Type}

def isPositive (judge : γ → Option (Outcome κ)) (entry : γ) : Bool :=
  (judge entry).any Outcome.positive

theorem filterMap_filter {judge : γ → Option (Outcome κ)}
    {ofEntry : γ → Bool} {ofOutcome : Outcome κ → Bool}
    (same : ∀ entry outcome, judge entry = some outcome →
      ofEntry entry = ofOutcome outcome) (entries : List γ) :
    (entries.filter ofEntry).filterMap judge = (entries.filterMap judge).filter ofOutcome := by
  induction entries with
  | nil => rfl
  | cons entry entries induction =>
    cases found : judge entry with
    | none =>
      cases test : ofEntry entry with
      | true | false => simp [test, found, induction]
    | some outcome =>
      have test := same entry outcome found
      cases kept : ofOutcome outcome with
      | true | false => simp [test, kept, found, induction]

theorem filterMap_negatives_first (judge : γ → Option (Outcome κ)) (entries : List γ) :
    (entries.filter (fun entry => !isPositive judge entry) ++
        entries.filter (isPositive judge)).filterMap judge =
      (entries.filterMap judge).filter (fun outcome => !outcome.positive) ++
        (entries.filterMap judge).filter Outcome.positive := by
  have sign : ∀ entry outcome, judge entry = some outcome →
      isPositive judge entry = outcome.positive := by
    intro entry outcome found
    rw [isPositive, found]
    rfl
  rw [filterMap_append, filterMap_filter sign]
  congr 1
  apply filterMap_filter
  intro entry outcome found
  rw [sign entry outcome found]

variable [DecidableEq κ]

def Combined.note (combined : Combined κ) (outcome : Outcome κ) : Combined κ :=
  match combined.mets.lookup outcome.key with
  | none =>
    { mets := combined.mets.insert outcome.key outcome.met
      poss := combined.poss.insert outcome.key outcome.positive }
  | some met =>
    let positive := (combined.poss.lookup outcome.key).getD false
    { mets := combined.mets.insert outcome.key
        (if !outcome.positive && !positive then met && outcome.met
        else met || outcome.met)
      poss := combined.poss.insert outcome.key (positive || outcome.positive) }

def combine : Combined κ := outcomes.foldl Combined.note { mets := ∅, poss := ∅ }

/-- Every type is met, and there is one. -/
def Combined.verdict (combined : Combined κ) : Bool :=
  !combined.mets.entries.isEmpty && combined.mets.entries.all (·.2)

def ofKey (key : κ) (outcomes : List (Outcome κ)) : List (Outcome κ) :=
  outcomes.filter fun outcome => outcome.key = key

/-- What is meant by all criteria together. -/
def meantVerdict : Bool :=
  !outcomes.isEmpty && outcomes.all fun outcome => meant (ofKey outcome.key outcomes)

theorem combine_lookup (key : κ) :
    (combine outcomes).mets.lookup key = (joinAll (ofKey key outcomes)).map Prod.fst ∧
      (combine outcomes).poss.lookup key = (joinAll (ofKey key outcomes)).map Prod.snd := by
  induction outcomes using reverseRecOn with
  | nil => exact ⟨rfl, rfl⟩
  | append_singleton outcomes outcome induction =>
    have step : combine (outcomes ++ [outcome]) = (combine outcomes).note outcome := by
      unfold combine
      rw [foldl_append]
      rfl
    by_cases here : outcome.key = key
    · subst here
      have filtered : ofKey outcome.key (outcomes ++ [outcome]) =
          ofKey outcome.key outcomes ++ [outcome] := by simp [ofKey]
      rw [step, filtered, joinAll_append_singleton]
      unfold Combined.note
      rw [induction.1]
      cases state : joinAll (ofKey outcome.key outcomes) with
      | none => simp [joinOne]
      | some pair =>
        rw [induction.2, state]
        simp [joinOne]
    · have filtered : ofKey key (outcomes ++ [outcome]) = ofKey key outcomes := by
        simp [ofKey, here]
      rw [step, filtered, ← induction.1, ← induction.2]
      have other : key ≠ outcome.key := fun same => here same.symm
      unfold Combined.note
      split
      · exact ⟨AList.lookup_insert_ne other, AList.lookup_insert_ne other⟩
      · exact ⟨AList.lookup_insert_ne other, AList.lookup_insert_ne other⟩

variable {outcomes first : List (Outcome κ)} {outcome : Outcome κ}

theorem mem_ofKey {key : κ} :
    outcome ∈ ofKey key outcomes ↔ outcome ∈ outcomes ∧ outcome.key = key := by
  unfold ofKey
  rw [mem_filter, decide_eq_true_iff]

theorem ofKey_ne_nil (member : outcome ∈ outcomes) : ofKey outcome.key outcomes ≠ [] :=
  ne_nil_of_mem (mem_ofKey.mpr ⟨member, rfl⟩)

theorem mem_of_lookup {key : κ} {met : Bool}
    (found : (combine outcomes).mets.lookup key = some met) :
    ∃ outcome ∈ outcomes, outcome.key = key := by
  rw [(combine_lookup outcomes key).1] at found
  have some : ofKey key outcomes ≠ [] := by
    intro none
    rw [none] at found
    cases found
  obtain ⟨outcome, member⟩ := exists_mem_of_ne_nil _ some
  exact ⟨outcome, mem_ofKey.mp member⟩

theorem verdict_iff (outcomes : List (Outcome κ)) :
    (combine outcomes).verdict = true ↔ outcomes ≠ [] ∧ ∀ outcome ∈ outcomes,
        (joinAll (ofKey outcome.key outcomes)).map Prod.fst = some true := by
  have lookup : ∀ key, (combine outcomes).mets.lookup key =
      (joinAll (ofKey key outcomes)).map Prod.fst := fun key =>
    (combine_lookup outcomes key).1
  unfold Combined.verdict
  rw [Bool.and_eq_true, Bool.not_eq_true', isEmpty_eq_false_iff, all_eq_true]
  constructor
  · rintro ⟨some, all⟩
    constructor
    · rintro rfl
      exact some rfl
    · intro outcome member
      obtain ⟨met, joined⟩ := joinAll_joined (ofKey_ne_nil member)
      have found := lookup outcome.key
      rw [joined.pass] at found ⊢
      have entry := AList.mem_lookup_iff.mp found
      have isMet : met = true := all _ entry
      rw [isMet]
      rfl
  · rintro ⟨some, all⟩
    constructor
    · obtain ⟨outcome, member⟩ := exists_mem_of_ne_nil _ some
      have found := (lookup outcome.key).trans (all outcome member)
      exact ne_nil_of_mem (AList.mem_lookup_iff.mp found)
    · intro entry member
      have found := AList.mem_lookup_iff.mpr member
      obtain ⟨outcome, inside, same⟩ := mem_of_lookup found
      rw [lookup, ← same, all outcome inside] at found
      exact (Option.some.inj found).symm

variable {second : List (Outcome κ)}

theorem verdict_congr (same : ∀ key, ofKey key first = ofKey key second) :
    (combine first).verdict = (combine second).verdict := by
  have members : ∀ outcome, outcome ∈ first ↔ outcome ∈ second := by
    intro outcome
    constructor
    · intro member
      have inside := mem_ofKey.mpr ⟨member, rfl⟩
      rw [same] at inside
      exact (mem_ofKey.mp inside).1
    · intro member
      have inside := mem_ofKey.mpr ⟨member, rfl⟩
      rw [← same] at inside
      exact (mem_ofKey.mp inside).1
  rw [Bool.eq_iff_iff, verdict_iff, verdict_iff]
  simp only [same, members, ne_eq, eq_nil_iff_forall_not_mem]

theorem verdict_swap (before after : List (Outcome κ))
    {first second : Outcome κ} (different : first.key ≠ second.key) :
    (combine (before ++ first :: second :: after)).verdict =
      (combine (before ++ second :: first :: after)).verdict := by
  apply verdict_congr
  intro key
  unfold ofKey
  rw [filter_append]
  by_cases here : first.key = key
  · have there : second.key ≠ key := fun same => different (here.trans same.symm)
    simp [here, there]
  · simp [filter_cons, here]

theorem meantVerdict_iff (outcomes : List (Outcome κ)) :
    meantVerdict outcomes = true ↔ outcomes ≠ [] ∧ ∀ outcome ∈ outcomes,
        meant (ofKey outcome.key outcomes) = true := by
  unfold meantVerdict
  rw [Bool.and_eq_true, Bool.not_eq_true', isEmpty_eq_false_iff, all_eq_true]

theorem meantVerdict_perm (perm : first.Perm second) :
    meantVerdict first = meantVerdict second := by
  have types : ∀ outcome : Outcome κ,
      meant (ofKey outcome.key first) = meant (ofKey outcome.key second) :=
    fun _ => meant_perm (perm.filter _)
  rw [Bool.eq_iff_iff, meantVerdict_iff, meantVerdict_iff]
  simp only [types, perm.mem_iff, ne_eq, eq_nil_iff_forall_not_mem]

theorem meantVerdict_of_verdict (verdict : (combine outcomes).verdict = true) :
    meantVerdict outcomes = true := by
  obtain ⟨some, all⟩ := (verdict_iff outcomes).mp verdict
  refine (meantVerdict_iff outcomes).mpr ⟨some, ?_⟩
  intro outcome member
  obtain ⟨met, joined⟩ := joinAll_joined (ofKey_ne_nil member)
  have isMet := all outcome member
  rw [joined.pass] at isMet
  exact joined.meant_of_met (Option.some.inj isMet)

theorem verdict_eq_meant (notMixed : ∀ outcome ∈ outcomes, ¬ Mixed (ofKey outcome.key outcomes)) :
    (combine outcomes).verdict = meantVerdict outcomes := by
  rw [Bool.eq_iff_iff, verdict_iff, meantVerdict_iff]
  refine and_congr_right fun _ => forall_congr' fun outcome => imp_congr_right fun member => ?_
  obtain ⟨met, joined⟩ := joinAll_joined (ofKey_ne_nil member)
  rw [joined.pass, joined.met_eq_meant (notMixed outcome member)]
  simp

theorem verdict_negatives_first (member : outcome ∈ outcomes)
    (mixed : Mixed (ofKey outcome.key outcomes)) :
    (combine (outcomes.filter (fun other => !other.positive) ++
      outcomes.filter Outcome.positive)).verdict = false := by
  obtain ⟨_, noPositive, _, unmet⟩ := mixed
  have arranged : ofKey outcome.key
      (outcomes.filter (fun other => !other.positive) ++ outcomes.filter Outcome.positive) =
      (ofKey outcome.key outcomes).filter (fun other => !other.positive) ++
        (ofKey outcome.key outcomes).filter Outcome.positive := by
    unfold ofKey
    rw [filter_append]
    congr 1
    · exact filter_comm _ _ _
    · exact filter_comm _ _ _
  have present : outcome ∈ outcomes.filter (fun other => !other.positive) ++
        outcomes.filter Outcome.positive := by
    cases sign : outcome.positive with
    | true | false => simp [member, sign]
  have negative : ∀ other ∈ (ofKey outcome.key outcomes).filter
      (fun other => !other.positive), other.positive = false := by
    intro other inside
    simpa using (mem_filter.mp inside).2
  have oneUnmet : ∃ other ∈ (ofKey outcome.key outcomes).filter
      (fun other => !other.positive), other.met = false := by
    obtain ⟨one, inside, isNegative, isUnmet⟩ := unmet
    exact ⟨one, mem_filter.mpr ⟨inside, by simp [isNegative]⟩, isUnmet⟩
  have none : ∀ other ∈ (ofKey outcome.key outcomes).filter
      Outcome.positive, other.met = false := by
    intro other inside
    obtain ⟨within, positive⟩ := mem_filter.mp inside
    exact noPositive other within positive
  obtain ⟨positive, result⟩ := joinAll_negatives_first negative oneUnmet none
  by_contra verdict
  have isTrue := (verdict_iff _).mp (by simpa using verdict)
  have here := isTrue.2 outcome present
  rw [arranged, result] at here
  cases here

/-- The verdict is what is meant, in any order of the entries, exactly if no
type is mixed or the criteria are not meant to be met anyway. -/
theorem verdict_any_order_iff (judge : γ → Option (Outcome κ)) (entries : List γ) :
    (∀ permuted, List.Perm permuted entries →
      (combine (permuted.filterMap judge)).verdict = meantVerdict (entries.filterMap judge)) ↔
    ((∃ outcome ∈ entries.filterMap judge, Mixed (ofKey outcome.key (entries.filterMap judge))) →
      meantVerdict (entries.filterMap judge) = false) := by
  constructor
  · rintro always ⟨outcome, member, mixed⟩
    have arranged : (entries.filter (fun entry => !isPositive judge entry) ++
        entries.filter (isPositive judge)).Perm entries :=
      perm_append_comm.trans (filter_append_perm _ entries)
    rw [← always _ arranged, filterMap_negatives_first]
    exact verdict_negatives_first member mixed
  · intro fits permuted perm
    have outcomes := perm.filterMap judge
    have same := meantVerdict_perm outcomes
    by_cases mixed : ∃ outcome ∈ entries.filterMap judge,
        Mixed (ofKey outcome.key (entries.filterMap judge))
    · rw [fits mixed]
      by_contra verdict
      have isMeant := meantVerdict_of_verdict (by simpa using verdict)
      rw [same, fits mixed] at isMeant
      cases isMeant
    · rw [← same]
      apply verdict_eq_meant
      intro outcome member isMixed
      exact mixed ⟨outcome, outcomes.mem_iff.mp member, isMixed.perm (outcomes.filter _)⟩

end SeveralTypes

end SignedCriteria

end NeuVector.Library
