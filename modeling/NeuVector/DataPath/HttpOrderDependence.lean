import Mathlib.Data.List.Duplicate
import NeuVector.DataPath.HttpHeaderOrder

/-!
# Blocks whose framing depends on the order

For every block outside the condition of the previous module two orders are
given that frame the body differently, or an order in which two different
lengths pass without a threat.  Together with the sufficient direction this
determines the header blocks whose framing cannot be confused.
-/

namespace NeuVector.DataPath

open Library BodyMode List

variable {bare : BodyFraming} {effects : List LineEffect}

theorem framing_injective {first second : BodyMode}
    (setFirst : first ≠ .unset) (setSecond : second ≠ .unset)
    (same : first.framing bare = second.framing bare) : first = second := by
  cases first with
  | unset => exact absurd rfl setFirst
  | chunked | close => cases second <;> simp_all [framing]
  | length n =>
    cases second with
    | length m =>
      simp only [framing, BodyFraming.length.injEq] at same
      rw [UInt32.toNat_inj.mp same]
    | unset => exact absurd rfl setSecond
    | chunked | close => cases same

theorem perm_last {α : Type} [DecidableEq α] {items : List α} {item : α} (member : item ∈ items) :
    (items.erase item ++ [item]).Perm items :=
  (perm_append_singleton item _).trans (perm_cons_erase member).symm

theorem BodyMode.run_last (mode : BodyMode) (effect : LineEffect) (prior : List LineEffect) :
    mode.run (prior ++ [effect]) = (mode.run prior).next effect := by
  rw [run_append]
  rfl

theorem noLength_of_chunked (free : EffectsOrderFree bare effects)
    (chunked : .chunked ∈ effects) : NoLength effects := by
  intro field member
  have last := free.framing _ (perm_last member)
  rw [free.chunked chunked] at last
  unfold blockFraming Frame.run at last
  rw [foldl_append] at last
  change ((Frame.init.run (effects.erase (.length field))).next
    (.length field)).mode.framing bare = .chunked at last
  generalize Frame.init.run (effects.erase (.length field)) = frame at last
  simp only [Frame.next] at last
  split at last
  · cases last
  · cases field with
    | negative => cases last
    | empty =>
      obtain ⟨n, length⟩ := frame.mode.withLength_empty_active
      rw [length] at last
      cases last
    | value n =>
      rcases frame.mode.withLength_value_cases n with length | close
      · rw [length] at last
        cases last
      · rw [close] at last
        cases last

theorem fields_behind {count more : Nat} {numbers rest : List Nat}
    {tail : List LineEffect} (perm : tail.Perm (fields more numbers)) :
    (fields count rest ++ tail).Perm (fields (more + count) (numbers ++ rest)) := by
  refine (perm.append_left _).trans ?_
  rw [perm_iff_count]
  intro effect
  simp only [fields, count_append, map_append, count_replicate]
  split <;> omega

theorem others_resting (whole : .chunked ∉ effects) : (unset.run (others effects)).resting :=
  (others_passive whole).run_resting (Or.inl rfl)

theorem perm_tail (positive : .length .negative ∉ effects)
    {tail : List LineEffect} (perm : tail.Perm (fields (empties effects) (values effects))) :
    (others effects ++ tail).Perm effects :=
  (perm.append_left (others effects)).trans (perm_parts positive)

theorem run_empty_last (mode : BodyMode) (prior : List LineEffect) :
    (mode.run (prior ++ [emptyLength])).active = true := by
  rw [run_last]
  obtain ⟨n, length⟩ := (mode.run prior).withLength_empty_active
  change ((mode.run prior).withLength .empty).active = true
  rw [length]
  rfl

theorem exists_pair {numbers : List Nat} (repeats : ¬ (numbers.map UInt32.ofNat).Nodup) :
    ∃ x y rest, UInt32.ofNat x = UInt32.ofNat y ∧ numbers.Perm (x :: y :: rest) := by
  obtain ⟨machine, twice⟩ := exists_duplicate_iff_not_nodup.mpr repeats
  obtain ⟨pair, inside, images⟩ := sublist_map_iff.mp (duplicate_iff_sublist.mp twice)
  obtain ⟨rest, perm⟩ := inside.exists_perm_append
  obtain ⟨x, y, rfl⟩ : ∃ x y, pair = [x, y] :=
    length_eq_two.mp (by simpa using (congrArg List.length images).symm)
  obtain ⟨first, second⟩ := cons.inj images
  exact ⟨x, y, rest, first.symm.trans (cons.inj second).1, perm⟩

theorem perm_two (memberA : a ∈ values effects) (memberB : b ∈ values effects) (different : a ≠ b) :
    ∃ rest, (values effects).Perm (b :: a :: rest) := by
  have later : a ∈ (values effects).erase b := (mem_erase_of_ne different).mpr memberA
  exact ⟨((values effects).erase b).erase a,
    (perm_cons_erase memberB).trans ((perm_cons_erase later).cons b)⟩

theorem run_values {mode : BodyMode} (inactive : mode.active = false)
    {numbers : List Nat} (nodup : (numbers.map UInt32.ofNat).Nodup) :
    (mode.run (numbers.map lengthOf)).active = (numbers.length % 2 == 1) := by
  have own : values (numbers.map lengthOf) = numbers := by
    unfold values
    rw [filterMap_map]
    exact filterMap_some
  have absent : ∀ effect, (∀ n, lengthOf n ≠ effect) → effect ∉ numbers.map lengthOf := by
    intro effect different member
    obtain ⟨n, _, same⟩ := mem_map.mp member
    exact different n same
  have lengths : DistinctLengths (numbers.map lengthOf) :=
    { noEmpty := absent _ nofun
      positive := absent _ nofun
      whole := absent _ nofun
      distinct := own.symm ▸ nodup
      noZero := fun member => absurd member (absent _ nofun) }
  have run := run_distinct mode lengths (.of_inactive inactive _)
  rw [inactive, own] at run
  rw [run, Bool.false_xor]

section Equal

variable {machine : UInt32} {mode : BodyMode} {numbers : List Nat} {frame : Frame}

theorem run_same (all : ∀ m ∈ numbers, UInt32.ofNat m = machine)
    (start : mode = .length machine ∨ (mode.resting ∧ numbers ≠ [])) :
    mode.run (numbers.map lengthOf) = .length machine := by
  induction numbers generalizing mode with
  | nil =>
    rcases start with length | ⟨_, some⟩
    · exact length
    · exact absurd rfl some
  | cons m numbers induction =>
    apply induction (List.forall_mem_cons.mp all).2
    left
    apply withLength_same (all m mem_cons_self)
    rcases start with length | ⟨rests, _⟩
    · exact Or.inr length
    · exact Or.inl rests

theorem run_empties (count : Nat) (start : mode = .length machine) :
    mode.run (replicate count emptyLength) = .length machine := by
  subst start
  induction count with
  | zero => rfl
  | succ count induction => exact induction

theorem alarms_append (frame : Frame) (first second : List LineEffect) :
    frame.alarms (first ++ second) = (frame.alarms first || (frame.run first).alarms second) := by
  induction first generalizing frame with
  | nil => rfl
  | cons effect rest induction =>
    simp only [cons_append, Frame.alarms, induction, Bool.or_assoc]
    rfl

theorem alarms_passive {passive : List LineEffect} (lines : Passive passive) :
    frame.alarms passive = false := by
  induction passive generalizing frame with
  | nil => rfl
  | cons effect rest induction =>
    have later : Passive rest := (List.forall_mem_cons.mp lines).2
    simp only [Frame.alarms, induction later, Bool.or_false]
    rcases lines effect mem_cons_self with rfl | rfl
    · rfl
    · rfl

theorem alarms_same (clear : frame.negative = false) (all : ∀ m ∈ numbers, UInt32.ofNat m = machine)
    (start : frame.mode.resting ∨ frame.mode = .length machine) :
    frame.alarms (numbers.map lengthOf) = false := by
  induction numbers generalizing frame with
  | nil => rfl
  | cons m numbers induction =>
    have length := withLength_same (all m mem_cons_self) start
    obtain ⟨mode, still⟩ := Frame.next_mode (lengthOf m) clear (by simp)
    have quiet : frame.alarm (lengthOf m) = false := by simp [Frame.alarm, clear, length]
    simp only [map_cons, Frame.alarms, quiet, Bool.false_or]
    apply induction still (List.forall_mem_cons.mp all).2
    right
    rw [mode]
    exact length

theorem alarms_empties (count : Nat) (clear : frame.negative = false) :
    frame.alarms (replicate count emptyLength) = false := by
  induction count generalizing frame with
  | zero => rfl
  | succ count induction =>
    obtain ⟨m, length⟩ := frame.mode.withLength_empty_active
    obtain ⟨_, still⟩ := Frame.next_mode emptyLength clear (by simp)
    have quiet : frame.alarm emptyLength = false := by simp [Frame.alarm, clear, length]
    simp only [replicate_succ, Frame.alarms, quiet, Bool.false_or]
    exact induction still

/-- The lengths of a block, the empty ones last. -/
def valuesFirst (effects : List LineEffect) : List LineEffect :=
  (values effects).map lengthOf ++ List.replicate (empties effects) emptyLength

theorem valuesFirst_perm (effects : List LineEffect) :
    (valuesFirst effects).Perm (fields (empties effects) (values effects)) :=
  perm_append_comm

theorem run_valuesFirst (whole : .chunked ∉ effects)
    (all : ∀ m ∈ values effects, UInt32.ofNat m = machine) (some : values effects ≠ []) :
    (unset.run (others effects)).run (valuesFirst effects) = .length machine := by
  unfold valuesFirst
  rw [run_append]
  exact run_empties _ (run_same all (Or.inr ⟨others_resting whole, some⟩))

def alternating : List Nat → List LineEffect
  | [] => []
  | n :: rest => emptyLength :: lengthOf n :: alternating rest

theorem alternating_perm (numbers : List Nat) :
    (alternating numbers).Perm (fields numbers.length numbers) := by
  induction numbers with
  | nil => exact List.Perm.refl _
  | cons n rest induction =>
    refine ((induction.cons (lengthOf n)).cons emptyLength).trans ?_
    rw [perm_iff_count]
    intro effect
    simp only [fields, count_append, map_cons, count_cons,
      length_cons, replicate_succ]
    omega

theorem run_alternating (nonzero : ∀ m ∈ numbers, UInt32.ofNat m ≠ 0)
    (start : mode = .close ∨ ((mode.resting ∨ mode = .length 0) ∧ numbers ≠ [])) :
    mode.run (alternating numbers) = .close := by
  induction numbers generalizing mode with
  | nil =>
    rcases start with close | ⟨_, some⟩
    · exact close
    · exact absurd rfl some
  | cons m numbers induction =>
    apply induction (List.forall_mem_cons.mp nonzero).2
    left
    have before : mode.resting ∨ mode = .length 0 := by
      rcases start with close | ⟨before, _⟩
      · exact Or.inl (Or.inr close)
      · exact before
    change (mode.withLength .empty).withLength (.value m) = .close
    rw [withLength_empty_zero before]
    exact length_withLength_value (nonzero m mem_cons_self).symm

end Equal

section Necessary

variable (free : EffectsOrderFree bare effects) (positive : LineEffect.length .negative ∉ effects)
include free positive

variable {first second : List LineEffect} {a b : Nat} {machine : UInt32}

theorem EffectsOrderFree.modes {modeFirst modeSecond : BodyMode}
    (permFirst : first.Perm effects) (permSecond : second.Perm effects)
    (runFirst : unset.run first = modeFirst)
    (runSecond : unset.run second = modeSecond)
    (setFirst : modeFirst ≠ .unset) (setSecond : modeSecond ≠ .unset) :
    modeFirst = modeSecond := by
  have same := (free.framing first permFirst).trans (free.framing second permSecond).symm
  rw [blockFraming_plain permFirst positive,
    blockFraming_plain permSecond positive, runFirst, runSecond] at same
  exact framing_injective setFirst setSecond same

/-- No order of an order free block closes while another one leaves a length
in force. -/
theorem EffectsOrderFree.noClash (permFirst : first.Perm effects) (permSecond : second.Perm effects)
    (closes : unset.run first = .close)
    (holds : (unset.run second).active = true) : False := by
  cases final : unset.run second with
  | length n =>
    have same := free.modes positive permFirst permSecond closes final (by simp) (by simp)
    cases same
  | unset | chunked | close =>
    rw [final] at holds
    cases holds

theorem EffectsOrderFree.noTailClash
    (permFirst : first.Perm (fields (empties effects) (values effects)))
    (permSecond : second.Perm (fields (empties effects) (values effects)))
    (closes : (unset.run (others effects)).run first = .close)
    (holds : ((unset.run (others effects)).run second).active = true) : False := by
  apply free.noClash positive (perm_tail positive permFirst) (perm_tail positive permSecond)
  · rw [run_append]
    exact closes
  · rw [run_append]
    exact holds

theorem empties_of_different (memberA : a ∈ values effects) (memberB : b ∈ values effects)
    (different : UInt32.ofNat b ≠ UInt32.ofNat a)
    (nonzero : UInt32.ofNat a ≠ 0) : empties effects = 0 := by
  cases count : empties effects with
  | zero => rfl
  | succ more =>
    obtain ⟨rest, split⟩ := perm_two memberA memberB fun same =>
      different (congrArg UInt32.ofNat same.symm)
    have base : (fields (1 + more) (b :: a :: rest)).Perm
        (fields (empties effects) (values effects)) := by
      rw [count, Nat.add_comm]
      exact (split.symm.map lengthOf).append_left _
    have first : [lengthOf b, emptyLength, lengthOf a].Perm
        (fields 1 [b, a]) := List.Perm.swap _ _ _
    have second : [lengthOf b, lengthOf a, emptyLength].Perm (fields 1 [b, a]) :=
      perm_append_singleton emptyLength [lengthOf b, lengthOf a]
    exfalso
    apply free.noTailClash positive ((fields_behind first).trans base)
      ((fields_behind second).trans base)
    · rw [run_append]
      exact run_value_empty_value _ different nonzero
    · rw [run_append]
      exact run_empty_last _ [lengthOf b, lengthOf a]

theorem nodup_of_different (memberA : a ∈ values effects) (memberB : b ∈ values effects)
    (different : UInt32.ofNat b ≠ UInt32.ofNat a) :
    ((values effects).map UInt32.ofNat).Nodup := by
  by_cases nodup : ((values effects).map UInt32.ofNat).Nodup
  · exact nodup
  · exfalso
    obtain ⟨x, y, rest, same, split⟩ := exists_pair nodup
    have another : ∃ c ∈ values effects, UInt32.ofNat c ≠ UInt32.ofNat x := by
      by_cases repeated : UInt32.ofNat a = UInt32.ofNat x
      · exact ⟨b, memberB, fun equal => different (equal.trans repeated.symm)⟩
      · exact ⟨a, memberA, repeated⟩
    obtain ⟨c, member, distinct⟩ := another
    have inRest : c ∈ rest := by
      rcases mem_cons.mp (split.mem_iff.mp member) with first | tail
      · exact absurd (congrArg UInt32.ofNat first) distinct
      · rcases mem_cons.mp tail with rfl | inside
        · exact absurd same.symm distinct
        · exact inside
    have base : (fields (0 + empties effects) (x :: y :: c :: rest.erase c)).Perm
        (fields (empties effects) (values effects)) := by
      rw [Nat.zero_add]
      have perm := split.trans (((perm_cons_erase inRest).cons y).cons x)
      exact (perm.symm.map lengthOf).append_left _
    have first : [lengthOf x, lengthOf y, lengthOf c].Perm (fields 0 [x, y, c]) := List.Perm.refl _
    have second : [lengthOf c, lengthOf x, lengthOf y].Perm (fields 0 [x, y, c]) :=
      (perm_append_singleton (lengthOf c) [lengthOf x, lengthOf y]).symm
    apply free.noTailClash positive ((fields_behind first).trans base)
      ((fields_behind second).trans base)
    · rw [run_append]
      exact run_pair_other _ same distinct
    · rw [run_append, run_other_pair _ same distinct]
      rfl

variable (whole : LineEffect.chunked ∉ effects)
include whole

theorem even_of_different (noEmpty : empties effects = 0)
    (memberA : a ∈ values effects) (memberB : b ∈ values effects)
    (different : UInt32.ofNat b ≠ UInt32.ofNat a)
    (nodup : ((values effects).map UInt32.ofNat).Nodup) :
    (values effects).length % 2 = 0 := by
  rcases Nat.mod_two_eq_zero_or_one (values effects).length with even | odd
  · exact even
  · exfalso
    have ends : ∀ n ∈ values effects,
        (unset.run (others effects ++ ((values effects).erase n ++ [n]).map lengthOf)) =
            .length (UInt32.ofNat n) := by
      intro n member
      have perm := perm_last member
      have active := run_values (others_resting whole).inactive
        ((perm.map UInt32.ofNat).nodup_iff.mpr nodup)
      rw [perm.length_eq, odd] at active
      rw [run_append]
      rw [map_append, map_singleton, run_last] at active ⊢
      rcases withLength_value_cases ((unset.run (others effects)).run
          (((values effects).erase n).map lengthOf)) n with length | close
      · exact length
      · change ((run _ _).withLength (.value n)).active = _ at active
        rw [close] at active
        cases active
    have perms : ∀ n ∈ values effects,
        (others effects ++ ((values effects).erase n ++ [n]).map lengthOf).Perm effects := by
      intro n member
      apply perm_tail positive
      rw [noEmpty]
      exact (perm_last member).map lengthOf
    have same := free.modes positive (perms a memberA) (perms b memberB)
      (ends a memberA) (ends b memberB) (by simp) (by simp)
    exact different (length.inj same).symm

theorem unclosed_of_different (noEmpty : empties effects = 0)
    (nodup : ((values effects).map UInt32.ofNat).Nodup) (even : (values effects).length % 2 = 0) :
    ¬ (.close ∈ effects ∧ 0 ∈ (values effects).map UInt32.ofNat) := by
  rintro ⟨close, zero⟩
  obtain ⟨z, member, machine⟩ := mem_map.mp zero
  have closeOther : .close ∈ others effects := mem_filter.mpr ⟨close, rfl⟩
  have split := perm_cons_erase member
  have passive : Passive ((others effects).erase .close) :=
    fun effect inside => others_passive whole effect (mem_of_mem_erase inside)
  have rests : (BodyMode.close.run ((others effects).erase .close)).resting :=
    passive.run_resting (Or.inr rfl)
  have parts : (others effects ++ (values effects).map lengthOf).Perm effects := by
    have perm := perm_parts positive
    rw [noEmpty] at perm
    exact perm
  have restNodup : (((values effects).erase z).map UInt32.ofNat).Nodup :=
    nodup.sublist ((erase_sublist).map _)
  have odd : ((values effects).erase z).length % 2 = 1 := by
    have count := split.length_eq
    rw [length_cons] at count
    omega
  have first := run_values (others_resting whole).inactive nodup
  rw [even, ← run_append] at first
  have closes : unset.run (others effects ++ (values effects).map lengthOf) = .close := by
    apply run_eq_close (fun inside => whole (parts.mem_iff.mp inside)) _ first
    intro none
    exact none (.value z) (mem_append_right _ (mem_map.mpr ⟨z, member, rfl⟩))
  have second : (lengthOf z :: .close ::
      ((others effects).erase .close ++ ((values effects).erase z).map lengthOf)).Perm effects := by
    have moved : (others effects ++ (values effects).map lengthOf).Perm
        ((.close :: (others effects).erase .close) ++
          (lengthOf z :: ((values effects).erase z).map lengthOf)) :=
      (perm_cons_erase closeOther).append (split.map lengthOf)
    refine List.Perm.trans ?_ (moved.symm.trans parts)
    refine (List.Perm.swap _ _ _).trans (List.Perm.cons _ ?_)
    exact perm_middle.symm
  have holds : (unset.run (lengthOf z :: .close :: ((others effects).erase .close ++
        ((values effects).erase z).map lengthOf))).active = true := by
    have start : (unset.withLength (.value z)).withClose = .close := by
      change (length (UInt32.ofNat z)).withClose = .close
      rw [machine]
      rfl
    change (((unset.withLength (.value z)).withClose).run
      ((others effects).erase .close ++ ((values effects).erase z).map lengthOf)).active = true
    rw [start, run_append, run_values rests.inactive restNodup, odd]
    rfl
  exact free.noClash positive parts second closes holds

section

variable (all : ∀ m ∈ values effects, UInt32.ofNat m = machine)
include all

theorem values_equal {a b : Nat} (memberA : a ∈ values effects)
    (memberB : b ∈ values effects) : a = b := by
  by_cases same : a = b
  · exact same
  · have perm := perm_tail positive (valuesFirst_perm effects)
    have some : values effects ≠ [] := ne_nil_of_mem memberA
    have plainOthers : .length .negative ∉ others effects :=
      fun member => positive (mem_filter.mp member).1
    obtain ⟨mode, clear⟩ : (Frame.init.run (others effects)).mode = unset.run (others effects) ∧
          (Frame.init.run (others effects)).negative = false :=
      Frame.run_mode rfl plainOthers
    have plainValues : .length .negative ∉ (values effects).map lengthOf := by
      intro member
      obtain ⟨_, _, impossible⟩ := mem_map.mp member
      cases impossible
    have still := (Frame.run_mode clear plainValues).2
    rcases free.conflict a memberA b memberB same _ perm with alarm | close
    · have rests := others_resting whole
      rw [← mode] at rests
      rw [alarms_append, alarms_passive (others_passive whole),
        valuesFirst, alarms_append,
        alarms_same clear all (Or.inl rests), alarms_empties _ still] at alarm
      cases alarm
    · rw [blockFraming_plain perm positive, run_append, run_valuesFirst whole all some] at close
      cases close

theorem fewer_empties (some : values effects ≠ []) (nonzero : machine ≠ 0) :
    empties effects < (values effects).length := by
  by_cases fewer : empties effects < (values effects).length
  · exact fewer
  · exfalso
    have enough : (values effects).length ≤ empties effects := Nat.le_of_not_lt fewer
    have perm : (replicate (empties effects - (values effects).length) emptyLength ++
          alternating (values effects)).Perm
        (fields (empties effects) (values effects)) := by
      refine ((alternating_perm (values effects)).append_left _).trans ?_
      unfold fields
      rw [← append_assoc, replicate_append_replicate, Nat.sub_add_cancel enough]
    apply free.noTailClash positive perm (valuesFirst_perm effects)
    · rw [run_append]
      apply run_alternating
      · intro m member
        rw [all m member]
        exact nonzero
      · refine Or.inr ⟨run_zero (by simp) (by simp) ?_ (Or.inl (others_resting whole)), some⟩
        intro n member
        simp [mem_values] at member
    · rw [run_valuesFirst whole all some]
      rfl

end

theorem unclosed_of_zero (zero : ZeroValues effects)
    (some : ¬ NoLength effects) : .close ∉ effects := by
  intro close
  have field : ∃ field, .length field ∈ effects :=
    Classical.byContradiction fun none => some fun field member => none ⟨field, member⟩
  obtain ⟨field, member⟩ := field
  have sub : ∀ effect : LineEffect, (unset.run (effects.erase effect)).resting ∨
        unset.run (effects.erase effect) = .length 0 := by
    intro effect
    apply run_zero
    · exact fun inside => positive (mem_of_mem_erase inside)
    · exact fun inside => whole (mem_of_mem_erase inside)
    · intro n inside
      exact zero n (mem_values.mpr (mem_of_mem_erase (mem_values.mp inside)))
    · exact Or.inl (Or.inl rfl)
  apply free.noClash positive (perm_last close) (perm_last member)
  · rw [run_last]
    rcases sub .close with rests | length
    · exact rests.withClose
    · rw [length]
      rfl
  · cases field with
    | negative => exact absurd member positive
    | empty => exact run_empty_last _ _
    | value n =>
      have length := withLength_same (zero n (mem_values.mpr member)) (sub (lengthOf n))
      rw [run_last]
      change ((unset.run (effects.erase (lengthOf n))).withLength (.value n)).active = true
      rw [length]
      rfl

theorem OrderFreeBlock.of_different {a b : Nat}
    (memberA : a ∈ values effects) (memberB : b ∈ values effects)
    (different : UInt32.ofNat b ≠ UInt32.ofNat a) :
    OrderFreeBlock effects := by
  have noEmpty : empties effects = 0 := by
    by_cases zero : UInt32.ofNat a = 0
    · apply empties_of_different free positive memberB memberA
      · exact different.symm
      · rw [zero] at different
        exact different
    · exact empties_of_different free positive memberA memberB different zero
  have nodup := nodup_of_different free positive memberA memberB different
  have even := even_of_different free positive whole noEmpty memberA memberB different nodup
  have unclosed := unclosed_of_different free positive whole noEmpty nodup even
  exact Or.inr ⟨whole, Or.inr (Or.inr (Or.inr ⟨noEmpty, nodup, even, unclosed⟩))⟩

theorem OrderFreeBlock.of_equal (some : ¬ NoLength effects) {n : Nat} (member : n ∈ values effects)
    (all : ∀ m ∈ values effects, UInt32.ofNat m = UInt32.ofNat n) :
    OrderFreeBlock effects := by
  have equal : ∀ m ∈ values effects, m = n := fun m inside =>
    values_equal free positive whole all inside member
  have filled : values effects ≠ [] := ne_nil_of_mem member
  rcases Nat.eq_zero_or_pos n with zero | above
  · subst zero
    have unclosed := unclosed_of_zero free positive whole (fun m inside => all m inside) some
    exact Or.inr ⟨whole, Or.inr (Or.inr (Or.inl ⟨equal, unclosed⟩))⟩
  · have perm := perm_tail positive (valuesFirst_perm effects)
    have framing := (free.framing _ perm).trans (free.length whole positive n member equal)
    rw [blockFraming_plain perm positive, run_append, run_valuesFirst whole all filled] at framing
    have value : (UInt32.ofNat n).toNat = n := BodyFraming.length.inj framing
    have small : n < 4294967296 := by
      rw [← value]
      exact (UInt32.ofNat n).toNat_lt
    have nonzero : UInt32.ofNat n ≠ 0 := by
      intro zero
      rw [zero] at value
      have none : (0 : UInt32).toNat = 0 := rfl
      omega
    have fewer := fewer_empties free positive whole all filled nonzero
    exact Or.inr ⟨whole, Or.inr (Or.inl ⟨n, above, small, equal, fewer⟩)⟩

end Necessary

theorem EffectsOrderFree.orderFreeBlock
    (free : EffectsOrderFree bare effects) : OrderFreeBlock effects := by
  by_cases none : NoLength effects
  · exact Or.inl none
  · have whole : .chunked ∉ effects := fun chunked => none (noLength_of_chunked free chunked)
    by_cases negative : .length .negative ∈ effects
    · exact Or.inr ⟨whole, Or.inl negative⟩
    · cases numbers : values effects with
      | nil =>
        have unclosed := unclosed_of_zero free negative whole (fun m member => by
            rw [numbers] at member
            cases member) none
        refine Or.inr ⟨whole, Or.inr (Or.inr (Or.inl ⟨?_, unclosed⟩))⟩
        intro m member
        rw [numbers] at member
        cases member
      | cons n rest =>
        have member : n ∈ values effects := by
          rw [numbers]
          exact mem_cons_self
        by_cases all : ∀ m ∈ values effects, UInt32.ofNat m = UInt32.ofNat n
        · exact .of_equal free negative whole none member all
        · obtain ⟨m, property⟩ := Classical.not_forall.mp all
          obtain ⟨inside, different⟩ := Classical.not_imp.mp property
          exact .of_different free negative whole member inside different

theorem forall_perm_map {α β : Type} {f : α → β} {items : List α} {holds : List β → Prop} :
    (∀ images : List β, images.Perm (items.map f) → holds images) ↔
      ∀ order : List α, order.Perm items → holds (order.map f) := by
  refine ⟨fun all order perm => all _ (perm.map f), ?_⟩
  intro all images perm
  have pairs : List.Forall₂ (fun image item => image = f item) (items.map f) items := by
    rw [forall₂_map_left_iff, forall₂_same]
    exact fun _ _ => rfl
  obtain ⟨order, paired, orderPerm⟩ := perm_comp_forall₂ perm pairs
  have same := forall₂_map_right_iff.mpr paired
  rw [forall₂_eq_eq_eq] at same
  rw [same]
  exact all order orderPerm

/-- The framing of a header block cannot be confused: every order of its lines
gives one framing, which is chunked if a line asks for it and otherwise the
content length, and two different content lengths raise a threat or close in
every order. -/
@[mk_iff]
structure OrderFree (shared : HttpShared) (w : HttpWing) (lines : List LineText) : Prop where
  framing : ∀ order, order.Perm lines → headerFraming shared w order = headerFraming shared w lines
  chunked : LineEffect.chunked ∈ lineEffects lines → headerFraming shared w lines = .chunked
  length : LineEffect.chunked ∉ lineEffects lines →
    LineEffect.length .negative ∉ lineEffects lines → ∀ n ∈ values (lineEffects lines),
        (∀ m ∈ values (lineEffects lines), m = n) → headerFraming shared w lines = .length n
  conflict : ∀ m ∈ values (lineEffects lines), ∀ n ∈ values (lineEffects lines), m ≠ n →
      ∀ order, order.Perm lines → headerThreats w order ≠ [] ∨ headerFraming shared w order = .close

theorem orderFree_iff_effects {w : HttpWing} (unframed : Unframed w)
    (shared : HttpShared) (lines : List LineText) :
    OrderFree shared w lines ↔
      EffectsOrderFree (bareFraming shared w.request) (lineEffects lines) := by
  have framing : ∀ order, headerFraming shared w order =
      blockFraming (bareFraming shared w.request) (lineEffects order) :=
    fun order => (headerFraming_eq unframed shared order).1
  have threats : ∀ order, headerThreats w order ≠ [] ↔
      Frame.init.alarms (lineEffects order) = true :=
    fun order => (headerFraming_eq unframed shared order).2
  rw [orderFree_iff, effectsOrderFree_iff]
  simp only [framing, threats, lineEffects, forall_perm_map]

/-- The header blocks whose framing cannot be confused by their order. -/
theorem header_order_free_iff (shared : HttpShared) (w : HttpWing) (lines : List LineText) :
    OrderFree shared (setBodyDone w) lines ↔ OrderFreeBlock (lineEffects lines) := by
  rw [orderFree_iff_effects (unframed_setBodyDone w)]
  exact ⟨EffectsOrderFree.orderFreeBlock, fun block => block.effectsOrderFree⟩

def chunkedLine : LineText :=
  .ofText (transferEncodingName ++ ascii [' ', 'c', 'h', 'u', 'n', 'k', 'e', 'd']) (by decide)

def lengthFiveLine : LineText := .ofText (contentLengthName ++ ascii [' ', '5']) (by decide)

def postShared : HttpShared := { status := 0, method := .post, proto := .http }

/-- A content length after a chunked encoding frames the body by the length,
the two lines the other way round frame it by chunks. -/
theorem header_order_confuses_framing :
    ∃ shared w lines, ¬ OrderFree shared (setBodyDone w) lines := by
  refine ⟨postShared, newWing 0, [lengthFiveLine, chunkedLine], ?_⟩
  intro free
  have same := free.framing [chunkedLine, lengthFiveLine] (List.Perm.swap _ _ _)
  have first : headerFraming postShared (setBodyDone (newWing 0))
      [chunkedLine, lengthFiveLine] = .length 5 := by decide
  have second : headerFraming postShared (setBodyDone (newWing 0))
      [lengthFiveLine, chunkedLine] = .chunked := by decide
  cases same

end NeuVector.DataPath
