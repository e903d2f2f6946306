import NeuVector.DataPath.HttpFrameOrder
import NeuVector.Library.Runs

/-!
# Blocks whose framing does not depend on the order

The condition under which every order of a header block gives one framing is
stated on the number and the values of its content lengths.  It is shown to be
sufficient by following each kind of block through the machine, and necessary
by giving two orders of any other block that end differently.
-/

namespace NeuVector.DataPath

open Library BodyMode List

theorem Frame.next_mode (effect : LineEffect) {frame : Frame} (clear : frame.negative = false)
    (positive : effect ≠ .length .negative) :
    (frame.next effect).mode = frame.mode.next effect ∧ (frame.next effect).negative = false := by
  cases effect with
  | chunked | close | neutral => exact ⟨rfl, clear⟩
  | length field =>
    have ordinary : ¬ (frame.negative = true ∨ field = .negative) := by
      rintro (set | negative)
      · rw [clear] at set
        cases set
      · exact positive (congrArg LineEffect.length negative)
    simp only [Frame.next, if_neg ordinary]
    exact ⟨rfl, clear⟩

variable {effects : List LineEffect}

theorem Frame.run_mode {frame : Frame} (clear : frame.negative = false)
    (positive : .length .negative ∉ effects) :
    (frame.run effects).mode = frame.mode.run effects ∧ (frame.run effects).negative = false := by
  apply @foldl_rel _ _ _ effects Frame.next BodyMode.next frame frame.mode
    (fun frame mode => frame.mode = mode ∧ frame.negative = false) ⟨rfl, clear⟩
  rintro effect member frame _ ⟨rfl, clear⟩
  exact Frame.next_mode effect clear fun equal => positive (equal ▸ member)

theorem Frame.run_negative (frame : Frame) (whole : .chunked ∉ effects)
    (negative : .length .negative ∈ effects) :
    (frame.run effects).negative = true ∧ (frame.run effects).mode = .close := by
  apply Runs.foldl_reaches (fun frame : Frame => frame.negative = true ∧ frame.mode = .close)
    (fun _ => True) (· = .length .negative)
  · rintro frame effect member ⟨set, closed⟩
    cases effect with
    | chunked => exact absurd member whole
    | neutral => exact ⟨set, closed⟩
    | close =>
      refine ⟨set, ?_⟩
      change frame.mode.withClose = .close
      rw [closed]
      rfl
    | length field => simp [Frame.next, set]
  · intro frame effect _ _
    by_cases brings : effect = .length .negative
    · left
      simp [Frame.next, brings]
    · exact Or.inr ⟨brings, trivial⟩
  · exact Or.inr ⟨trivial, _, negative, rfl⟩

section Runs

variable {effects : List LineEffect} {mode : BodyMode}

def NoLength (effects : List LineEffect) : Prop := ∀ field, LineEffect.length field ∉ effects

variable {effect : LineEffect} {rest : List LineEffect}

theorem exists_isLength (some : ¬ NoLength effects) :
    ∃ effect ∈ effects, effect.isLength = true := by
  obtain ⟨field, member⟩ := Classical.not_forall.mp some
  exact ⟨.length field, Classical.not_not.mp member, rfl⟩

theorem run_chunked (none : NoLength effects) (chunked : .chunked ∈ effects) :
    mode.run effects = .chunked := by
  apply Runs.foldl_reaches (· = BodyMode.chunked) (fun _ => True) (· = .chunked)
  · rintro mode effect member rfl
    cases effect with
    | length field => exact absurd member (none field)
    | chunked | close | neutral => rfl
  · intro mode effect _ _
    cases effect with
    | chunked => exact Or.inl rfl
    | length | close | neutral => simp
  · exact Or.inr ⟨trivial, _, chunked, rfl⟩

theorem run_passive (passive : Passive effects) (rests : mode.resting) :
    mode.run effects = if .close ∈ effects then .close else mode := by
  induction effects generalizing mode with
  | nil => rfl
  | cons effect rest induction =>
    have later : Passive rest := (List.forall_mem_cons.mp passive).2
    rcases passive effect mem_cons_self with close | neutral
    · subst close
      change mode.withClose.run rest = _
      rw [rests.withClose, induction later (Or.inr rfl)]
      split <;> rfl
    · subst neutral
      change mode.run rest = _
      rw [induction later rests]
      simp

def ZeroValues (effects : List LineEffect) : Prop := ∀ n ∈ values effects, UInt32.ofNat n = 0

section

variable (positive : .length .negative ∉ effects) (whole : .chunked ∉ effects)
  (zero : ZeroValues effects)
include positive zero

theorem withLength_zero {field : LengthField} (member : .length field ∈ effects)
    (start : mode.resting ∨ mode = .length 0) : mode.withLength field = .length 0 := by
  cases field with
  | negative => exact absurd member positive
  | empty => exact withLength_empty_zero start
  | value n => exact withLength_same (zero n (mem_values.mpr member)) start

include whole

theorem run_zero (start : mode.resting ∨ mode = .length 0) :
    (mode.run effects).resting ∨ mode.run effects = .length 0 := by
  refine foldlRecOn (motive := fun mode : BodyMode => mode.resting ∨ mode = .length 0)
    effects next start ?_
  intro mode start effect member
  cases effect with
  | chunked => exact absurd member whole
  | neutral => exact start
  | close =>
    left
    rcases start with rests | rfl
    · exact Or.inr rests.withClose
    · exact Or.inr rfl
  | length field => exact Or.inr (withLength_zero positive zero member start)

theorem run_zero_length (unclosed : .close ∉ effects) (some : ¬ NoLength effects) :
    unset.run effects = .length 0 := by
  apply Runs.foldl_reaches (· = BodyMode.length 0) (· = unset) (LineEffect.isLength · = true)
  · rintro mode effect member rfl
    cases effect with
    | chunked => exact absurd member whole
    | close => exact absurd member unclosed
    | neutral => rfl
    | length field => exact withLength_zero positive zero member (Or.inr rfl)
  · rintro mode effect member rfl
    cases effect with
    | chunked => exact absurd member whole
    | close => exact absurd member unclosed
    | neutral => exact Or.inr ⟨nofun, rfl⟩
    | length field => exact Or.inl (withLength_zero positive zero member (Or.inl (Or.inl rfl)))
  · exact Or.inr ⟨rfl, exists_isLength some⟩

end

/-- One positive length, repeated more often than lengths are left empty, ends
in force: every empty length can cancel at most one of the repetitions. -/
theorem run_oneLength (mode : BodyMode) {n : Nat} (nonzero : UInt32.ofNat n ≠ 0)
    (positive : .length .negative ∉ effects) (whole : .chunked ∉ effects)
    (all : ∀ m ∈ values effects, m = n)
    (start : mode = .length (UInt32.ofNat n) ∨
      (mode.resting ∧ empties effects < (values effects).length) ∨
      (mode = .length 0 ∧ empties effects + 1 < (values effects).length)) :
    mode.run effects = .length (UInt32.ofNat n) := by
  induction effects generalizing mode with
  | nil =>
    rcases start with length | ⟨_, impossible⟩ | ⟨_, impossible⟩
    · exact length
    · cases impossible
    · cases impossible
  | cons effect rest induction =>
    have positiveLater : .length .negative ∉ rest :=
      fun member => positive (mem_cons_of_mem _ member)
    have wholeLater : .chunked ∉ rest := fun member => whole (mem_cons_of_mem _ member)
    have allLater : ∀ m ∈ values rest, m = n := fun m member =>
      all m ((values_cons_subset effect rest).subset member)
    apply induction _ positiveLater wholeLater allLater
    cases effect with
    | chunked => exact absurd mem_cons_self whole
    | neutral =>
      exact start
    | close =>
      rcases start with rfl | ⟨rests, fewer⟩ | ⟨rfl, fewer⟩
      · left
        exact if_pos (UInt32.pos_iff_ne_zero.mpr nonzero)
      · right
        left
        exact ⟨Or.inr rests.withClose, fewer⟩
      · right
        left
        exact ⟨Or.inr rfl, Nat.lt_of_succ_lt fewer⟩
    | length field =>
      cases field with
      | negative => exact absurd mem_cons_self positive
      | empty =>
        rw [empties, count_cons_self] at start
        rcases start with rfl | ⟨rests, fewer⟩ | ⟨rfl, fewer⟩
        · left
          rfl
        · right
          right
          exact ⟨withLength_empty rests.inactive, fewer⟩
        · right
          right
          exact ⟨rfl, Nat.lt_of_succ_lt fewer⟩
      | value m =>
        have same : m = n := all m (mem_values.mpr mem_cons_self)
        subst same
        have count : (values (lengthOf m :: rest)).length = (values rest).length + 1 := rfl
        rcases start with rfl | ⟨rests, _⟩ | ⟨rfl, fewer⟩
        · left
          exact length_withLength_same m
        · left
          exact withLength_value rests.inactive m
        · right
          left
          refine ⟨Or.inr ?_, Nat.lt_of_succ_lt_succ fewer⟩
          exact length_withLength_value nonzero.symm

theorem next_length_ne (field : LengthField) :
    mode.next (.length field) ≠ .unset ∧ mode.next (.length field) ≠ .chunked := by
  cases field with
  | negative => simp [BodyMode.next, withLength]
  | empty =>
    obtain ⟨n, length⟩ := mode.withLength_empty_active
    simp [BodyMode.next, length]
  | value n =>
    rcases mode.withLength_value_cases n with length | close
    · simp [BodyMode.next, length]
    · simp [BodyMode.next, close]

theorem next_close_ne :
    mode.next .close ≠ .unset ∧ (mode ≠ .chunked → mode.next .close ≠ .chunked) := by
  cases mode with
  | length n =>
    simp only [BodyMode.next, withClose]
    split <;> simp
  | unset | chunked | close => simp [BodyMode.next, withClose]

theorem run_ne_unset (mode : BodyMode) (some : ¬ NoLength effects) :
    mode.run effects ≠ .unset := by
  apply Runs.foldl_reaches (· ≠ unset) (fun _ => True) (LineEffect.isLength · = true)
  · intro mode effect _ set
    cases effect with
    | chunked => simp [BodyMode.next]
    | neutral => exact set
    | close => exact next_close_ne.1
    | length field => exact (next_length_ne field).1
  · intro mode effect _ _
    cases effect with
    | length field => exact Or.inl (next_length_ne field).1
    | chunked | close | neutral => exact Or.inr ⟨nofun, trivial⟩
  · exact Or.inr ⟨trivial, exists_isLength some⟩

theorem run_ne_chunked (mode : BodyMode) (whole : .chunked ∉ effects) (start : mode ≠ .chunked) :
    mode.run effects ≠ .chunked := by
  refine foldlRecOn (motive := (· ≠ .chunked)) effects next start ?_
  intro mode start effect member
  cases effect with
  | chunked => exact absurd member whole
  | neutral => exact start
  | close => exact next_close_ne.2 start
  | length field => exact (next_length_ne field).2

theorem run_eq_close (whole : .chunked ∉ effects) (some : ¬ NoLength effects)
    (inactive : (unset.run effects).active = false) :
    unset.run effects = .close := by
  cases final : unset.run effects with
  | unset => exact absurd final (run_ne_unset .unset some)
  | chunked => exact absurd final (run_ne_chunked .unset whole (by simp))
  | close => rfl
  | length n =>
    rw [final] at inactive
    cases inactive

end Runs

def blockFraming (bare : BodyFraming) (effects : List LineEffect) : BodyFraming :=
  (Frame.init.run effects).mode.framing bare

/-- Every order of a block gives one framing: chunked if the block asks for
it, else its content length; and blocks with different content lengths raise
a threat or close. -/
@[mk_iff]
structure EffectsOrderFree (bare : BodyFraming) (effects : List LineEffect) : Prop where
  framing : ∀ order, order.Perm effects → blockFraming bare order = blockFraming bare effects
  chunked : LineEffect.chunked ∈ effects → blockFraming bare effects = .chunked
  length : LineEffect.chunked ∉ effects → LineEffect.length .negative ∉ effects →
      ∀ n ∈ values effects, (∀ m ∈ values effects, m = n) → blockFraming bare effects = .length n
  conflict : ∀ m ∈ values effects, ∀ n ∈ values effects, m ≠ n →
    ∀ order, order.Perm effects → Frame.init.alarms order = true ∨ blockFraming bare order = .close

/-- The blocks whose framing does not depend on the order: those without a
content length, and among those without chunks the ones with a negative
length, with one positive length given more often than empty ones, with no
positive length and no request to close, and with an even number of lengths
that are all different. -/
def OrderFreeBlock (effects : List LineEffect) : Prop :=
  NoLength effects ∨ (LineEffect.chunked ∉ effects ∧ (LineEffect.length .negative ∈ effects ∨
        (∃ n, 0 < n ∧ n < 4294967296 ∧ (∀ m ∈ values effects, m = n) ∧
          empties effects < (values effects).length) ∨
        ((∀ m ∈ values effects, m = 0) ∧ LineEffect.close ∉ effects) ∨
        (empties effects = 0 ∧ ((values effects).map UInt32.ofNat).Nodup ∧
          (values effects).length % 2 = 0 ∧
          ¬ (LineEffect.close ∈ effects ∧ 0 ∈ (values effects).map UInt32.ofNat))))

/-- One framing for all orders, and what it has to be. -/
structure SettlesOn (bare : BodyFraming) (effects : List LineEffect)
    (framing : BodyFraming) : Prop where
  all : ∀ order, order.Perm effects → blockFraming bare order = framing
  chunked : LineEffect.chunked ∈ effects → framing = .chunked
  length : LineEffect.chunked ∉ effects → LineEffect.length .negative ∉ effects →
      ∀ n ∈ values effects, (∀ m ∈ values effects, m = n) → framing = .length n
  conflict : ∀ m ∈ values effects, ∀ n ∈ values effects, m ≠ n → framing = .close

theorem SettlesOn.orderFree {bare framing : BodyFraming}
    (settles : SettlesOn bare effects framing) :
    EffectsOrderFree bare effects := by
  have own : blockFraming bare effects = framing := settles.all effects (List.Perm.refl _)
  constructor
  · intro order perm
    exact (settles.all order perm).trans own.symm
  · intro member
    exact own.trans (settles.chunked member)
  · intro whole positive n member all
    exact own.trans (settles.length whole positive n member all)
  · intro m memberM n memberN different order perm
    right
    exact (settles.all order perm).trans (settles.conflict m memberM n memberN different)

section Sufficient

variable {bare : BodyFraming} {effects : List LineEffect}

theorem values_perm {order : List LineEffect} (perm : order.Perm effects) :
    (values order).Perm (values effects) := perm.filterMap _

theorem blockFraming_plain {order : List LineEffect} (perm : order.Perm effects)
    (positive : .length .negative ∉ effects) :
    blockFraming bare order = (unset.run order).framing bare := by
  unfold blockFraming
  rw [(Frame.run_mode rfl fun member => positive (perm.mem_iff.mp member)).1]
  rfl

theorem NoLength.values_empty (none : NoLength effects) {n : Nat} :
    n ∉ values effects := fun member => none _ (mem_values.mp member)

theorem settles_noLength (none : NoLength effects) : ∃ framing, SettlesOn bare effects framing := by
  have plain : .length .negative ∉ effects := none .negative
  by_cases chunked : .chunked ∈ effects
  · refine ⟨.chunked, ?_, fun _ => rfl, fun whole => absurd chunked whole,
      fun m member => absurd member none.values_empty⟩
    intro order perm
    rw [blockFraming_plain perm plain, run_chunked
      (fun field member => none field (perm.mem_iff.mp member))
      (perm.mem_iff.mpr chunked)]
    rfl
  · refine ⟨(if LineEffect.close ∈ effects then close
        else unset).framing bare, ?_,
      fun member => absurd member chunked,
      fun _ _ n member => absurd member none.values_empty,
      fun m member => absurd member none.values_empty⟩
    intro order perm
    have passive : Passive order := by
      intro effect member
      have inside := perm.mem_iff.mp member
      cases effect with
      | length field => exact absurd inside (none field)
      | chunked => exact absurd inside chunked
      | close => exact Or.inl rfl
      | neutral => exact Or.inr rfl
    rw [blockFraming_plain perm plain, run_passive passive (Or.inl rfl)]
    simp only [perm.mem_iff]

section

variable (whole : LineEffect.chunked ∉ effects)
include whole

theorem settles_negative (negative : .length .negative ∈ effects) :
    SettlesOn bare effects .close where
  all order perm := by
    have close := Frame.run_negative .init (fun member => whole (perm.mem_iff.mp member))
      (perm.mem_iff.mpr negative)
    unfold blockFraming
    rw [close.2]
    rfl
  chunked member := absurd member whole
  length _ positive := absurd negative positive
  conflict _ _ _ _ _ := rfl

theorem settles_oneLength (positive : .length .negative ∉ effects)
    {n : Nat} (above : 0 < n) (small : n < 4294967296) (all : ∀ m ∈ values effects, m = n)
    (fewer : empties effects < (values effects).length) :
    SettlesOn bare effects (.length n) where
  all order perm := by
    have value : (UInt32.ofNat n).toNat = n := UInt32.toNat_ofNat_of_lt' small
    have nonzero : UInt32.ofNat n ≠ 0 := by
      intro zero
      rw [zero] at value
      have : (0 : UInt32).toNat = 0 := rfl
      omega
    have count : empties order < (values order).length := by
      rw [(values_perm perm).length_eq, empties, perm.count_eq]
      exact fewer
    have run := run_oneLength .unset nonzero (fun member => positive (perm.mem_iff.mp member))
      (fun member => whole (perm.mem_iff.mp member))
      (fun m member => all m ((values_perm perm).mem_iff.mp member))
      (Or.inr (Or.inl ⟨Or.inl rfl, count⟩))
    rw [blockFraming_plain perm positive, run]
    exact congrArg BodyFraming.length value
  chunked member := absurd member whole
  length _ _ m member _ := by rw [all m member]
  conflict m memberM k memberK different :=
    absurd ((all m memberM).trans (all k memberK).symm) different

theorem settles_zero (positive : .length .negative ∉ effects)
    (some : ¬ NoLength effects) (all : ∀ m ∈ values effects, m = 0)
    (unclosed : .close ∉ effects) :
    SettlesOn bare effects (.length 0) where
  all order perm := by
    have zero : ZeroValues order := by
      intro n member
      rw [all n ((values_perm perm).mem_iff.mp member)]
      rfl
    have run := run_zero_length (fun member => positive (perm.mem_iff.mp member))
      (fun member => whole (perm.mem_iff.mp member)) zero
      (fun member => unclosed (perm.mem_iff.mp member))
      (fun none => some fun field member => none field (perm.mem_iff.mpr member))
    rw [blockFraming_plain perm positive, run]
    rfl
  chunked member := absurd member whole
  length _ _ m member _ := by rw [all m member]
  conflict m memberM k memberK different :=
    absurd ((all m memberM).trans (all k memberK).symm) different

end

theorem settles_distinct (lengths : DistinctLengths effects)
    (some : ¬ NoLength effects) (even : (values effects).length % 2 = 0) :
    SettlesOn bare effects .close where
  all order perm := by
    have member : ∀ {effect : LineEffect}, effect ∈ order →
        effect ∈ effects := fun inside => perm.mem_iff.mp inside
    have valuesPerm := (values_perm perm).map UInt32.ofNat
    have own : DistinctLengths order :=
      { noEmpty := fun inside => lengths.noEmpty (member inside)
        positive := fun inside => lengths.positive (member inside)
        whole := fun inside => lengths.whole (member inside)
        distinct := valuesPerm.nodup_iff.mpr lengths.distinct
        noZero := fun inside zero => lengths.noZero (member inside) (valuesPerm.mem_iff.mp zero) }
    have inactive := run_distinct .unset own (Fresh.of_inactive rfl order)
    rw [(values_perm perm).length_eq, even] at inactive
    have lined : ¬ NoLength order := fun none => some fun field inside =>
      none field (perm.mem_iff.mpr inside)
    rw [blockFraming_plain perm lengths.positive, run_eq_close own.whole lined inactive]
    rfl
  chunked member := absurd member lengths.whole
  length _ _ n member all := by
    have distinct := lengths.distinct
    cases numbers : values effects with
    | nil =>
      rw [numbers] at member
      cases member
    | cons first rest =>
      cases rest with
      | nil =>
        rw [numbers] at even
        cases even
      | cons second rest =>
        rw [numbers] at all distinct
        have same : first = second := (all first (by simp)).trans (all second (by simp)).symm
        rw [same] at distinct
        simp at distinct
  conflict _ _ _ _ _ := rfl

theorem OrderFreeBlock.effectsOrderFree (block : OrderFreeBlock effects) :
    EffectsOrderFree bare effects := by
  by_cases none : NoLength effects
  · obtain ⟨_, settles⟩ := settles_noLength none
    exact settles.orderFree
  · rcases block with noLength | ⟨whole, kinds⟩
    · exact absurd noLength none
    · by_cases negative : .length .negative ∈ effects
      · exact (settles_negative whole negative).orderFree
      · rcases kinds with found | one | ⟨all, unclosed⟩ | ⟨noEmpty, distinct, even, noZero⟩
        · exact absurd found negative
        · obtain ⟨n, above, small, all, fewer⟩ := one
          exact (settles_oneLength whole negative above small all fewer).orderFree
        · exact (settles_zero whole negative none all unclosed).orderFree
        · have lengths : DistinctLengths effects :=
            { noEmpty := count_eq_zero.mp noEmpty
              positive := negative
              whole := whole
              distinct := distinct
              noZero := fun close zero => noZero ⟨close, zero⟩ }
          exact (settles_distinct lengths none even).orderFree

end Sufficient

end NeuVector.DataPath
