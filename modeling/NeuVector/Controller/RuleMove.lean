import NeuVector.Controller.PolicyStore

/-!
# Moving a rule

A rule is moved within the list of rule heads, which has the federal heads
first, then those of custom resources, then the others.  The place that is
asked for is clamped to the heads of the rule's own kind.
-/

namespace NeuVector.Controller

open List

/-- The id a position refers to, as the cast to the width of ids leaves it. -/
def positionID (after : Int) : Nat := after.natAbs % 4294967296

/-- The index for a head; there is no index to move from for new heads. -/
def locatePosition (crhs : List RuleHead) (after : Option Int) (moveIdx : Option Nat) :
    Option Nat :=
  match after with
  | none => if moveIdx.isNone then some crhs.length else some (crhs.length - 1)
  | some after =>
    if after = 0 then some 0
    else
      (crhs.findIdx? fun crh => crh.id = positionID after).map fun i =>
        if after < 0 then if moveIdx.any (· < i) then i - 1 else i
        else if moveIdx.any (· < i) then i else i + 1

/-- The last head with the id, unless one of a custom resource has it. -/
def findMove (crhs : List RuleHead) (id : Nat) : Except String Nat :=
  if crhs.any fun crh => crh.id = id ∧ crh.cfgType = .ground then .error "Can't move Base Rule"
  else
    match (crhs.zipIdx.filter fun crh => crh.1.id = id).getLast? with
    | none => .error "Rule to move doesn't exist"
    | some (_, i) => .ok i

/-- The top-most and the bottom-most index for a rule of a kind. -/
def moveBounds (crhs : List RuleHead) (ruleCfgType : CfgType) : Nat × Nat :=
  if ruleCfgType = .federal then
    let federal := crhs.countP fun crh => crh.cfgType = .federal
    (0, if federal = 0 then crhs.length - 1 else federal - 1)
  else
    (crhs.countP fun crh => crh.cfgType = .federal ∨ crh.cfgType = .ground, crhs.length - 1)

/-- The loops that copy each head from its neighbour, down or up the list. -/
def shiftHeads (neighbour : Nat → Nat) : Nat → Nat → List RuleHead → List RuleHead
  | 0, _, crhs => crhs
  | count + 1, i, crhs =>
    shiftHeads neighbour count (neighbour i)
      (crhs[neighbour i]?.elim crhs fun crh => crhs.set i crh)

def moveHead (crhs : List RuleHead) (moveIdx toIdx : Nat) : List RuleHead :=
  crhs[moveIdx]?.elim crhs fun mr =>
    if moveIdx = toIdx then crhs
    else if moveIdx < toIdx then
      (shiftHeads (· + 1) (toIdx - moveIdx) moveIdx crhs).set toIdx mr
    else (shiftHeads (· - 1) (moveIdx - toIdx) moveIdx crhs).set toIdx mr

def moveRuleID (crhs : List RuleHead) (id : Nat) (ruleCfgType : CfgType) (after : Option Int) :
    Except String (List RuleHead) :=
  match findMove crhs id with
  | .error text => .error text
  | .ok moveIdx =>
    match locatePosition crhs after (some moveIdx) with
    | none => .error "Move-to position cannot be found"
    | some toIdx =>
      let (topIdx, bottomIdx) := moveBounds crhs ruleCfgType
      .ok (moveHead crhs moveIdx
        (if toIdx < topIdx then topIdx else if toIdx > bottomIdx then bottomIdx else toIdx))

theorem shiftHeads_down (above middle rest : List RuleHead) (mr : RuleHead) :
    (shiftHeads (· + 1) middle.length above.length (above ++ mr :: (middle ++ rest))).set
        (above ++ middle).length mr = above ++ middle ++ mr :: rest := by
  suffices gap : ∀ crh, ∃ last, shiftHeads (· + 1) middle.length above.length
      (above ++ crh :: (middle ++ rest)) = above ++ middle ++ last :: rest by
    obtain ⟨last, shifted⟩ := gap mr
    simp [shifted]
  induction middle generalizing above with
  | nil => simp [shiftHeads]
  | cons next middle induction =>
    intro crh
    simpa [shiftHeads] using induction (above ++ [next]) next

theorem shiftHeads_up (above middle rest : List RuleHead) (mr : RuleHead) :
    (shiftHeads (· - 1) middle.length (above ++ middle).length
        (above ++ middle ++ mr :: rest)).set above.length mr = above ++ mr :: (middle ++ rest) := by
  suffices gap : ∀ crh, ∃ first, shiftHeads (· - 1) middle.length (above ++ middle).length
      (above ++ middle ++ crh :: rest) = above ++ first :: (middle ++ rest) by
    obtain ⟨first, shifted⟩ := gap mr
    rw [shifted]
    simp
  induction middle using reverseRecOn generalizing rest with
  | nil => simp [shiftHeads]
  | append_singleton middle next induction =>
    intro crh
    simpa [shiftHeads] using induction (next :: rest) next

theorem moveHead_eq (above below : List RuleHead) (mr : RuleHead) {toIdx : Nat}
    (inside : toIdx ≤ (above ++ below).length) :
    moveHead (above ++ mr :: below) above.length toIdx =
      (above ++ below).take toIdx ++ mr :: (above ++ below).drop toIdx := by
  have found : (above ++ mr :: below)[above.length]? = some mr := by simp
  rw [moveHead, found, Option.elim_some]
  rcases Nat.lt_trichotomy above.length toIdx with down | here | up
  · obtain ⟨count, rfl⟩ := Nat.exists_eq_add_of_le (Nat.le_of_lt down)
    have shifted := shiftHeads_down above (below.take count) (below.drop count) mr
    have enough : count ≤ below.length := by simpa using inside
    rw [if_neg (Nat.ne_of_lt down), if_pos down]
    simpa [enough, take_length_add_append] using shifted
  · simp [here]
  · have shifted := shiftHeads_up (above.take toIdx) (above.drop toIdx) below mr
    have enough : toIdx ≤ above.length := Nat.le_of_lt up
    rw [take_append_of_le_length enough, drop_append_of_le_length enough]
    simpa [enough, Nat.ne_of_gt up, Nat.not_lt.mpr enough] using shifted

def RuleHead.rank (crh : RuleHead) : Nat :=
  match crh.cfgType with
  | .federal => 0
  | .ground => 1
  | _ => 2

/-- The place among the other heads that a position stands for. -/
def AskedPlace (others : List RuleHead) (place : Nat) : Option Int → Prop
  | none => place = others.length
  | some after =>
    if after = 0 then place = 0
    else if after < 0 then ∃ crh, others[place]? = some crh ∧ crh.id = positionID after
    else 0 < place ∧ ∃ crh, others[place - 1]? = some crh ∧ crh.id = positionID after

section Move

variable {above below : List RuleHead} {rule : RuleHead} {after : Option Int}
  (target : ∀ position, after = some position → position ≠ 0 →
    ∃ crh ∈ above ++ below, crh.id = positionID position)
  (other : ∀ crh ∈ above ++ below, crh.id ≠ rule.id)

include target other in
theorem locatePosition_asked :
    ∃ asked, locatePosition (above ++ rule :: below) after (some above.length) = some asked ∧
      AskedPlace (above ++ below) asked after := by
  cases after with
  | none => simp [locatePosition, AskedPlace]
  | some after =>
    by_cases first : after = 0
    · simp [locatePosition, AskedPlace, first]
    · obtain ⟨crh, member, same⟩ := target after rfl first
      have differs : rule.id ≠ positionID after := by
        rw [← same]
        exact (other crh member).symm
      cases found : (above ++ rule :: below).findIdx? fun crh => crh.id = positionID after with
      | none => grind [findIdx?_eq_none_iff]
      | some i =>
        obtain ⟨inside, here, -⟩ := findIdx?_eq_some_iff_getElem.mp found
        have away : i ≠ above.length := by grind
        simp only [locatePosition, first, found, if_false, Option.map_some, Option.some.injEq,
          exists_eq_left', AskedPlace, Option.any_some, decide_eq_true_eq]
        split <;> split <;> grind

include other in
theorem findMove_eq (movable : rule.cfgType ≠ .ground) :
    findMove (above ++ rule :: below) rule.id = .ok above.length := by
  have absent : ∀ (list : List RuleHead) i, (∀ crh ∈ list, crh ∈ above ++ below) →
      ((list.zipIdx i).filter fun crh => crh.1.id = rule.id) = [] := by
    intro list i within
    apply filter_eq_nil_iff.mpr
    intro crh member
    simpa using other crh.1 (within _ (fst_mem_of_mem_zipIdx member))
  have first := absent above 0 (by grind)
  have second := absent below (above.length + 1) (by grind)
  have noGround : (above ++ rule :: below).any
      (fun crh => crh.id = rule.id ∧ crh.cfgType = .ground) = false := by
    grind
  rw [findMove, noGround]
  simp [zipIdx_append, zipIdx_cons, first, second]

end Move

/-- A movable rule among the heads of its kind, with those of the kinds before
and after, and a position given by another rule. -/
structure MoveInput where
  higher : List RuleHead
  above : List RuleHead
  rule : RuleHead
  below : List RuleHead
  lower : List RuleHead
  isHigher : ∀ crh ∈ higher, crh.rank < rule.rank
  isOwn : ∀ crh ∈ above ++ below, crh.rank = rule.rank
  isLower : ∀ crh ∈ lower, rule.rank < crh.rank
  movable : rule.cfgType ≠ .ground
  distinct : ∀ crh ∈ (higher ++ above) ++ (below ++ lower), crh.id ≠ rule.id
  after : Option Int
  target : ∀ position, after = some position → position ≠ 0 →
    ∃ crh ∈ (higher ++ above) ++ (below ++ lower), crh.id = positionID position

namespace MoveInput

variable (input : MoveInput)

def crhs : List RuleHead :=
  (input.higher ++ input.above) ++ input.rule :: (input.below ++ input.lower)

def own : List RuleHead := input.above ++ input.below

def others : List RuleHead := (input.higher ++ input.above) ++ (input.below ++ input.lower)

theorem others_eq : input.others = input.higher ++ (input.own ++ input.lower) := by
  simp [others, own]

theorem moveBounds_eq : moveBounds input.crhs input.rule.cfgType =
    (input.higher.length, input.higher.length + input.own.length) := by
  obtain ⟨higher, above, rule, below, lower, isHigher, isOwn, isLower, -, -, -, -⟩ := input
  simp only [crhs, own, moveBounds]
  by_cases federal : rule.cfgType = .federal
  · have noHigher : higher = [] :=
      eq_nil_iff_forall_not_mem.mpr (by grind [RuleHead.rank])
    have all : (above ++ below).countP (·.cfgType = .federal) = (above ++ below).length :=
      countP_eq_length.mpr (by grind [RuleHead.rank])
    have none : lower.countP (·.cfgType = .federal) = 0 :=
      countP_eq_zero.mpr (by grind [RuleHead.rank])
    grind
  · have noLower : lower = [] :=
      eq_nil_iff_forall_not_mem.mpr (by grind [RuleHead.rank])
    have all : higher.countP (fun crh => crh.cfgType = .federal ∨ crh.cfgType = .ground) =
        higher.length :=
      countP_eq_length.mpr (by grind [RuleHead.rank])
    have none : (above ++ rule :: below).countP
        (fun crh => crh.cfgType = .federal ∨ crh.cfgType = .ground) = 0 :=
      countP_eq_zero.mpr (by grind [RuleHead.rank])
    grind

end MoveInput

/-- A rule that is moved is put next to the target, or at the nearest end of
its kind, and nothing else changes. -/
theorem moveRuleID_moves_only_the_rule (input : MoveInput) :
    ∃ asked, AskedPlace input.others asked input.after ∧
      let place := min (asked - input.higher.length) input.own.length
      let moved := input.own.take place ++ input.rule :: input.own.drop place
      let result := input.higher ++ (moved ++ input.lower)
      moveRuleID input.crhs input.rule.id input.rule.cfgType input.after = .ok result ∧
        result.Perm input.crhs ∧ result.map RuleHead.rank = input.crhs.map RuleHead.rank := by
  obtain ⟨asked, located, isAsked⟩ := locatePosition_asked input.target input.distinct
  refine ⟨asked, isAsked, ?_⟩
  intro place moved result
  have inner : moved.Perm (input.above ++ input.rule :: input.below) := by
    refine perm_middle.trans ?_
    rw [take_append_drop]
    exact perm_middle.symm
  refine ⟨?_, ?_, ?_⟩
  · have found := findMove_eq input.distinct input.movable
    have bounds := input.moveBounds_eq
    have inside : place ≤ input.own.length := Nat.min_le_right _ _
    have clamped : (if asked < input.higher.length then input.higher.length
        else if asked > input.higher.length + input.own.length then
          input.higher.length + input.own.length else asked) =
        input.higher.length + place := by
      grind
    have room : input.higher.length + place ≤ input.others.length := by
      simp only [input.others_eq, length_append]
      omega
    have shifted : moveHead input.crhs (input.higher ++ input.above).length
        (input.higher.length + place) = result := by
      refine (moveHead_eq _ _ _ room).trans ?_
      change input.others.take _ ++ input.rule :: input.others.drop _ = _
      rw [input.others_eq, take_length_add_append, drop_length_add_append,
        take_append_of_le_length inside, drop_append_of_le_length inside]
      simp [result, moved]
    simp only [MoveInput.crhs] at bounds shifted ⊢
    simp only [moveRuleID, found, located, bounds, clamped, shifted]
  · simpa [result, MoveInput.crhs] using (inner.append_right input.lower).append_left input.higher
  · have isOwn := input.isOwn
    have sameRank : ∀ list : List RuleHead, list.Perm (input.above ++ input.rule :: input.below) →
        list.map RuleHead.rank = replicate list.length input.rule.rank := by
      grind [map_eq_replicate_iff]
    have equal : moved.map RuleHead.rank =
        (input.above ++ input.rule :: input.below).map RuleHead.rank := by
      rw [sameRank moved inner, sameRank _ (List.Perm.refl _), inner.length_eq]
    simp [result, MoveInput.crhs, equal]

/-- A rule behind a federal one and a learned one is moved before the learned
one. -/
def moveBeforeLearned : MoveInput where
  higher := [⟨100001, 0, .federal⟩]
  above := [⟨1, 0, .userCreated⟩, ⟨10001, 0, .learned⟩]
  rule := ⟨2, 0, .userCreated⟩
  below := []
  lower := []
  isHigher := by decide
  isOwn := by decide
  isLower := by decide
  movable := by decide
  distinct := by decide
  after := some (-10001)
  target := by
    intro position asked _
    cases asked
    exact ⟨⟨10001, 0, .learned⟩, by decide, by decide⟩

theorem moveRuleID_moves_before_learned :
    moveRuleID moveBeforeLearned.crhs 2 .userCreated (some (-10001)) =
      .ok [⟨100001, 0, .federal⟩, ⟨1, 0, .userCreated⟩, ⟨2, 0, .userCreated⟩,
        ⟨10001, 0, .learned⟩] := by
  obtain ⟨asked, ⟨crh, found, same⟩, moved, _⟩ := moveRuleID_moves_only_the_rule moveBeforeLearned
  have place : asked = 2 := by
    match asked with
    | 0 | 1 =>
      cases found
      exact absurd same (by decide)
    | 2 => rfl
    | _ + 3 => cases found
  rw [place] at moved
  exact moved

end NeuVector.Controller
