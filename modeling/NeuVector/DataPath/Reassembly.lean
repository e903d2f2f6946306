import NeuVector.Library.SearchTree
import NeuVector.Library.Segments

/-!
# Reassembly of clips

This module embeds `asm.c`: clips are kept in a search tree ordered by serial
number comparison, and `asm_construct` walks them in order, looks for a gap,
and copies the found run into a target buffer.  A pointer into the walk is
represented by the list of the clips from there on.
-/

namespace NeuVector.DataPath

open Library Segments List

def dpiMaxPktLen : Nat := 65536

section Model

variable (u1 u2 : UInt32)

def signedDistance : Int := (u1 - u2).toBitVec.toInt

def u32Lt : Bool := signedDistance u1 u2 < 0
def u32Lte : Bool := signedDistance u1 u2 ≤ 0
def u32Gt : Bool := signedDistance u1 u2 > 0

/-- The ranges from `u1` to `u2` and from `u3` to `u4` overlap. -/
def u32Overlap (u3 u4 : UInt32) : Bool := u1 < u4 && u2 > u3

def u32Max : UInt32 := if u1 > u2 then u1 else u2

/-- A stored piece; its length comes from a sixteen bit packet length. -/
structure Clip where
  seq : UInt32
  data : List UInt8
  short : data.length < 65536
  deriving DecidableEq

variable (asm : Asm) (clip : Clip)

def Clip.len : UInt32 := UInt32.ofNat clip.data.length

def asmCompare (node key : Clip) : Ordering :=
  if u32Gt node.seq key.seq then .gt
  else if u32Lt node.seq key.seq then .lt
  else .eq

structure Asm where
  tree : SearchTree Clip
  gross : UInt32
  deriving DecidableEq

def asmInit : Asm := { tree := .leaf, gross := 0 }

def asmCount : Nat := asm.tree.size

/-- Insert a clip; a clip with the same start is refused. -/
def asmInsert : Option Asm :=
  (asm.tree.insert asmCompare clip).map fun tree => { tree := tree, gross := asm.gross + clip.len }

/-- Compare a start with that of a stored clip. -/
def asmProbe (seq : UInt32) (stored : Clip) : Ordering :=
  if u32Gt seq stored.seq then .gt
  else if u32Lt seq stored.seq then .lt
  else .eq

def asmLookup (seq : UInt32) : Option Clip := asm.tree.find (asmProbe seq)

def asmRemove : Asm :=
  { tree := asm.tree.removeFound (asmProbe clip.seq), gross := asm.gross - clip.len }

/-- Remove the first clips as long as they end before the sequence number. -/
def asmFlush (seq : UInt32) : List Clip → Asm → Asm
  | [], asm => asm
  | clip :: rest, asm =>
    if u32Lte (clip.seq + clip.len) seq then
      asmFlush seq rest { tree := asm.tree.removeFirst, gross := asm.gross - clip.len }
    else asm

inductive AsmResult where
  | ok
  | nop
  | more
  deriving DecidableEq

/-- The target of an assembly: where it starts, how much it may hold or does
hold, and the bytes behind its pointer. -/
structure AsmTarget where
  seq : UInt32
  len : UInt32
  buffer : Nat → UInt8

def headSeq : List Clip → UInt32
  | [] => 0
  | clip :: _ => clip.seq

/-- The first loop of `asm_construct`, over the clips still ahead; no result
when a gap lies before the bytes that must be there. -/
def asmScan (targetSeq mustHave : UInt32) :
    List Clip → List Clip → List Clip → UInt32 → Option (List Clip × List Clip × UInt32)
  | [], first, last, total => some (first, last, total)
  | clip :: rest, first, _, total =>
    let stop := clip.seq + clip.len
    let total := u32Max total (stop - headSeq first)
    if u32Lte stop targetSeq then asmScan targetSeq mustHave rest rest rest total
    else if !rest.isEmpty && u32Lt stop (headSeq rest) then
      if u32Lt stop mustHave then none
      else some (first, clip :: rest, total)
    else asmScan targetSeq mustHave rest first (clip :: rest) total

/-- The second loop: the copied bytes and the length reached. -/
def asmCopy (start : UInt32) (clips : List Clip) (target : AsmTarget) : AsmTarget :=
  clips.foldl (fun target clip =>
      { target with
        buffer := overwrite target.buffer (clip.seq - start).toNat clip.data
        len := u32Max (clip.seq + clip.len - start) target.len })
    target

def asmConstruct (target : AsmTarget) (mustHave : UInt32) : AsmResult × AsmTarget :=
  if asmCount asm ≤ 1 then (.nop, target)
  else
    let clips := asm.tree.toList
    match asmScan target.seq mustHave clips clips clips 0 with
    | none => (.nop, target)
    | some (first, last, total) =>
      if first.length = last.length ∨ u32Lt target.seq (headSeq first) then (.nop, target)
      else if total > target.len then (.more, { target with seq := headSeq first, len := total })
      else
        let run := first.take (first.length - last.length + 1)
        let copied := asmCopy (headSeq first) run { target with len := 0 }
        (.ok, { copied with seq := headSeq first })

section

variable {u1 u2 : UInt32} (small1 : u1.toNat < 2147483648) (small2 : u2.toNat < 2147483648)
include small1 small2

theorem signedDistance_eq : signedDistance u1 u2 = (u1.toNat : Int) - u2.toNat := by
  unfold signedDistance
  rw [BitVec.toInt_eq_toNat_cond, UInt32.toNat_toBitVec, UInt32.toNat_sub]
  split <;> omega

theorem u32Lt_eq : u32Lt u1 u2 = decide (u1.toNat < u2.toNat) := by
  unfold u32Lt
  rw [signedDistance_eq small1 small2, decide_eq_decide]
  omega

theorem u32Gt_eq : u32Gt u1 u2 = decide (u2.toNat < u1.toNat) := by
  unfold u32Gt
  rw [signedDistance_eq small1 small2, decide_eq_decide]
  omega

end

theorem u32Overlap_eq_false {u1 u2 u3 u4 : UInt32} :
    u32Overlap u1 u2 u3 u4 = false ↔ u4.toNat ≤ u1.toNat ∨ u2.toNat ≤ u3.toNat := by
  unfold u32Overlap
  rw [Bool.and_eq_false_iff, decide_eq_false_iff_not,
    decide_eq_false_iff_not, UInt32.lt_iff_toNat_lt, gt_iff_lt, UInt32.lt_iff_toNat_lt]
  omega

variable {number : Nat}

theorem toNat_ofNat_small (small : number < 65536) : (UInt32.ofNat number).toNat = number :=
  UInt32.toNat_ofNat_of_lt' (Nat.lt_trans small (by decide))

namespace Clip

def start : Nat := clip.seq.toNat

def size : Nat := clip.data.length

theorem toNat_len : clip.len.toNat = clip.size := toNat_ofNat_small clip.short

theorem toNat_stop {clip : Clip} (small : clip.start < 65536) :
    (clip.seq + clip.len).toNat = clip.start + clip.size := by
  have short := clip.short
  rw [UInt32.toNat_add, clip.toNat_len]
  unfold start size at *
  omega

theorem asmCompare_eq {node key : Clip} (smallNode : node.start < 65536)
    (smallKey : key.start < 65536) :
    asmCompare node key = compare node.start key.start := by
  unfold start at *
  unfold asmCompare
  rw [u32Gt_eq (by omega) (by omega), u32Lt_eq (by omega) (by omega)]
  rcases Nat.lt_trichotomy node.seq.toNat key.seq.toNat with
    less | equal | greater
  · rw [if_neg (by simpa using Nat.le_of_lt less),
      if_pos (by simpa using less), Nat.compare_eq_lt.mpr less]
  · rw [if_neg (by simp [equal]), if_neg (by simp [equal]), Nat.compare_eq_eq.mpr equal]
  · rw [if_pos (by simpa using greater), Nat.compare_eq_gt.mpr greater]

end Clip

end Model

section Offsets

variable {base one other seq : UInt32}

def offset (base seq : UInt32) : Nat := (seq - base).toNat

def halfSpace : Nat := 2147483648

theorem offset_self (base : UInt32) : offset base base = 0 := by
  unfold offset
  rw [UInt32.sub_self]
  rfl

theorem signedDistance_offset (base one other : UInt32) :
    signedDistance (one - base) (other - base) = signedDistance one other := by
  have same : one - base - (other - base) = one - other := by
    apply UInt32.toBitVec_inj.mp
    simp only [UInt32.toBitVec_sub]
    grind
  unfold signedDistance
  rw [same]

section

variable (oneNear : offset base one < halfSpace) (otherNear : offset base other < halfSpace)
include oneNear otherNear

theorem signedDistance_near :
    signedDistance one other = (offset base one : Int) - offset base other := by
  rw [← signedDistance_offset base]
  exact signedDistance_eq oneNear otherNear

theorem u32Lt_offset : u32Lt one other = decide (offset base one < offset base other) := by
  unfold u32Lt
  rw [signedDistance_near oneNear otherNear, decide_eq_decide]
  omega

theorem u32Lte_offset : u32Lte one other = decide (offset base one ≤ offset base other) := by
  unfold u32Lte
  rw [signedDistance_near oneNear otherNear, decide_eq_decide]
  omega

theorem u32Gt_offset : u32Gt one other = decide (offset base other < offset base one) := by
  unfold u32Gt
  rw [signedDistance_near oneNear otherNear, decide_eq_decide]
  omega

end

theorem offset_add {length : Nat} (near : offset base seq + length < halfSpace) :
    offset base (seq + UInt32.ofNat length) = offset base seq + length := by
  unfold offset halfSpace at *
  have shifted : seq + UInt32.ofNat length - base = seq - base + UInt32.ofNat length := by
    apply UInt32.toBitVec_inj.mp
    simp only [UInt32.toBitVec_sub, UInt32.toBitVec_add]
    grind
  rw [shifted, UInt32.toNat_add, UInt32.toNat_ofNat_of_lt']
  · omega
  · rw [UInt32.size]
    omega

end Offsets

section Lengths

variable {low high number : Nat}

theorem toNat_ofNat_long (long : number < 131072) : (UInt32.ofNat number).toNat = number :=
  UInt32.toNat_ofNat_of_lt' (Nat.lt_trans long (by decide))

variable {value : UInt32}

theorem uint32_ofNat_eq (same : value.toNat = number) : value = UInt32.ofNat number := by
  rw [← same]
  exact (UInt32.ofNat_toNat).symm

theorem u32Max_eq_right (same : value.toNat = high) (range : low ≤ high) (long : high < 131072) :
    u32Max (UInt32.ofNat low) value = UInt32.ofNat high := by
  have notGreater : ¬ UInt32.ofNat low > value := by
    rw [gt_iff_lt, UInt32.lt_iff_toNat_lt, toNat_ofNat_long (Nat.lt_of_le_of_lt range long)]
    omega
  unfold u32Max
  rw [if_neg notGreater]
  exact uint32_ofNat_eq same

theorem u32Max_eq_left (same : value.toNat = high) (range : low ≤ high) (long : high < 131072) :
    u32Max value (UInt32.ofNat low) = UInt32.ofNat high := by
  have lowValue := toNat_ofNat_long (Nat.lt_of_le_of_lt range long)
  unfold u32Max
  split
  · exact uint32_ofNat_eq same
  next notGreater =>
    rw [gt_iff_lt, UInt32.lt_iff_toNat_lt] at notGreater
    have equal : low = high := by omega
    rw [equal]

end Lengths

/-- A part of a stream that fits into a packet. -/
structure Segment where
  start : Nat
  data : List UInt8
  short : data.length < 65536

instance : DecidableEq Segment := fun one other =>
  decidable_of_iff (one.start = other.start ∧ one.data = other.data)
    (by cases one; cases other; simp)

def Segment.size (segment : Segment) : Nat := segment.data.length

/-- The sequence number of an offset in a stream. -/
def place (initSeq : UInt32) (index : Nat) : UInt32 := initSeq + UInt32.ofNat index

def Segment.clip (initSeq : UInt32) (segment : Segment) : Clip :=
  { seq := place initSeq segment.start, data := segment.data, short := segment.short }

/-- The offset lies in the half of the sequence space around the position,
most of it ahead. -/
def Near (position index : Nat) : Prop :=
  position ≤ index + 536870912 ∧ index < position + 1610612736

section Places

variable {initSeq : UInt32} {position one other : Nat}

/-- The start of the space in which the offsets near a position are
compared. -/
def nearBase (initSeq : UInt32) (position : Nat) : UInt32 := place initSeq position - 536870912

theorem offset_place (near : Near position one) :
    offset (nearBase initSeq position) (place initSeq one) = one + 536870912 - position := by
  have same : place initSeq one - nearBase initSeq position =
      UInt32.ofNat one - UInt32.ofNat position + 536870912 := by
    unfold nearBase place
    apply UInt32.toBitVec_inj.mp
    simp only [UInt32.toBitVec_sub, UInt32.toBitVec_add]
    grind
  obtain ⟨below, above⟩ := near
  unfold offset
  rw [same, UInt32.toNat_add, UInt32.toNat_sub, UInt32.toNat_ofNat', UInt32.toNat_ofNat']
  have constant : (536870912 : UInt32).toNat = 536870912 := rfl
  omega

theorem offset_place_lt (near : Near position one) :
    offset (nearBase initSeq position) (place initSeq one) < halfSpace := by
  rw [offset_place near]
  obtain ⟨below, above⟩ := near
  unfold halfSpace
  omega

section

variable (oneNear : Near position one) (otherNear : Near position other)
include oneNear otherNear

theorem u32Lt_place : u32Lt (place initSeq one) (place initSeq other) = decide (one < other) := by
  rw [u32Lt_offset (offset_place_lt oneNear) (offset_place_lt otherNear),
    offset_place oneNear, offset_place otherNear, decide_eq_decide]
  have below := oneNear.1
  omega

theorem u32Lte_place : u32Lte (place initSeq one) (place initSeq other) = decide (one ≤ other) := by
  rw [u32Lte_offset (offset_place_lt oneNear) (offset_place_lt otherNear),
    offset_place oneNear, offset_place otherNear, decide_eq_decide]
  have otherBelow := otherNear.1
  omega

theorem u32Gt_place : u32Gt (place initSeq one) (place initSeq other) = decide (other < one) := by
  rw [u32Gt_offset (offset_place_lt oneNear) (offset_place_lt otherNear),
    offset_place oneNear, offset_place otherNear, decide_eq_decide]
  have otherBelow := otherNear.1
  omega

theorem place_inj (same : place initSeq one = place initSeq other) : one = other := by
  have offsets := @offset_place initSeq position one oneNear
  rw [same, offset_place otherNear] at offsets
  have below := oneNear.1
  have otherBelow := otherNear.1
  omega

end

theorem place_add (initSeq : UInt32) (index size : Nat) :
    place initSeq index + UInt32.ofNat size = place initSeq (index + size) := by
  unfold place
  rw [UInt32.ofNat_add, UInt32.add_assoc]

theorem toNat_place_sub {low high : Nat} (ordered : low ≤ high) (short : high - low < 4294967296) :
    (place initSeq high - place initSeq low).toNat = high - low := by
  have same : place initSeq high - place initSeq low = UInt32.ofNat high - UInt32.ofNat low := by
    unfold place
    apply UInt32.toBitVec_inj.mp
    grind
  rw [same, UInt32.toNat_sub, UInt32.toNat_ofNat', UInt32.toNat_ofNat']
  omega

theorem clip_stop (initSeq : UInt32) (segment : Segment) :
    (segment.clip initSeq).seq + (segment.clip initSeq).len =
      place initSeq (segment.start + segment.size) :=
  place_add initSeq segment.start segment.size

end Places

section Walk

variable {initSeq : UInt32} {position must low high origin : Nat} {run rest : List Segment}

/-- Segments without a gap between them, each reaching behind the position,
in front of segments behind a gap. -/
structure RunAhead (position low high : Nat) (run rest : List Segment) : Prop where
  chain : Segments.Chain Segment.start Segment.size low high run
  nonempty : run ≠ []
  ahead : ∀ segment ∈ run, position < segment.start + segment.size
  near : Near position high
  gap : ∀ next ∈ rest.head?, high < next.start ∧ Near position next.start

theorem RunAhead.tail {segment next : Segment} {more : List Segment}
    (whole : RunAhead position low high (segment :: next :: more) rest) :
    RunAhead position (low + segment.size) high (next :: more) rest :=
  ⟨whole.chain.2, cons_ne_nil next more,
    (List.forall_mem_cons.mp whole.ahead).2,
    whole.near, whole.gap⟩

theorem RunAhead.stop_near {segment : Segment}
    (whole : RunAhead position low high run rest) (member : segment ∈ run) :
    Near position (segment.start + segment.size) := by
  have ahead := whole.ahead segment member
  have upper := whole.chain.upper segment member
  have near := whole.near.2
  exact ⟨by omega, by omega⟩

theorem near_self (position : Nat) : Near position position := ⟨by omega, by omega⟩

/-- The walk stops at the gap, without a result when the segment that must be
there lies behind it. -/
theorem asmScan_segments {first : List Clip} (last : List Clip)
    (whole : RunAhead position low high run rest)
    (mustNear : rest ≠ [] → Near position must) (head : headSeq first = place initSeq origin)
    (behind : origin ≤ low) (short : high - origin < 131072) :
    asmScan (place initSeq position) (place initSeq must)
        ((run ++ rest).map (Segment.clip initSeq)) first last
        (UInt32.ofNat (low - origin)) =
      if !rest.isEmpty && decide (high < must) then none
      else some (first, (run.getLast?.toList ++ rest).map (Segment.clip initSeq),
        UInt32.ofNat (high - origin)) := by
  induction run generalizing low last with
  | nil => exact absurd rfl whole.nonempty
  | cons segment more induction =>
    have here : segment.start = low := whole.chain.1
    have upper := whole.chain.upper segment mem_cons_self
    have stopNear := whole.stop_near mem_cons_self
    have notEarly : u32Lte (place initSeq (segment.start + segment.size))
        (place initSeq position) = false := by
      rw [u32Lte_place stopNear (near_self position)]
      apply decide_eq_false
      have ahead := whole.ahead segment mem_cons_self
      omega
    have total : u32Max (UInt32.ofNat (low - origin))
        (place initSeq (segment.start + segment.size) - headSeq first) =
        UInt32.ofNat (segment.start + segment.size - origin) := by
      rw [head]
      apply u32Max_eq_right
      · exact toNat_place_sub (by omega) (by omega)
      · omega
      · omega
    cases more with
    | nil =>
      have ends : low + segment.size = high := whole.chain.2
      have stop : segment.start + segment.size = high := by omega
      rw [cons_append, nil_append, map_cons]
      unfold asmScan
      simp only [clip_stop, notEarly, total, Bool.false_eq_true, if_false, isEmpty_map]
      rw [stop]
      cases rest with
      | nil =>
        rfl
      | cons next later =>
        obtain ⟨beyond, nextNear⟩ := whole.gap next rfl
        have gap : u32Lt (place initSeq high) (place initSeq next.start) = true := by
          rw [u32Lt_place whole.near nextNear]
          exact decide_eq_true beyond
        have missing : u32Lt (place initSeq high) (place initSeq must) = decide (high < must) :=
          u32Lt_place whole.near (mustNear (cons_ne_nil next later))
        have nextSeq : headSeq ((next :: later).map (Segment.clip initSeq)) =
            place initSeq next.start := rfl
        simp only [nextSeq, gap, missing, isEmpty_cons, Bool.not_false, Bool.true_and, if_true]
        rfl
    | cons next later =>
      have nextStart : next.start = segment.start + segment.size := by
        have chain := whole.chain.2.1
        omega
      have noGap : u32Lt (place initSeq (segment.start + segment.size))
          (headSeq (((next :: later) ++ rest).map (Segment.clip initSeq))) = false := by
        have nextSeq : headSeq (((next :: later) ++ rest).map
            (Segment.clip initSeq)) = place initSeq next.start := rfl
        rw [nextSeq, nextStart, u32Lt_place stopNear stopNear]
        exact decide_eq_false (Nat.lt_irrefl _)
      rw [cons_append, map_cons]
      unfold asmScan
      simp only [clip_stop, notEarly, total, noGap, Bool.and_false, Bool.false_eq_true, if_false]
      rw [here]
      exact induction _ whole.tail (by omega)

theorem asmCopy_segments (chain : Segments.Chain Segment.start Segment.size low high run)
    (behind : origin ≤ low) (short : high - origin < 131072) (target : AsmTarget)
    (length : target.len = UInt32.ofNat (low - origin)) :
    asmCopy (place initSeq origin) (run.map (Segment.clip initSeq)) target =
      { target with
        len := UInt32.ofNat (high - origin)
        buffer := copyAll (fun segment => segment.start - origin)
          Segment.data target.buffer run } := by
  induction run generalizing low target with
  | nil =>
    have same : low = high := chain
    subst same
    rw [← length]
    rfl
  | cons segment more induction =>
    have here : segment.start = low := chain.1
    have upper := chain.upper segment mem_cons_self
    have starts : ((segment.clip initSeq).seq -
        place initSeq origin).toNat = segment.start - origin :=
      toNat_place_sub (by omega) (by omega)
    have longer : u32Max ((segment.clip initSeq).seq +
          (segment.clip initSeq).len - place initSeq origin) target.len =
        UInt32.ofNat (low + segment.size - origin) := by
      rw [clip_stop, length, here]
      apply u32Max_eq_left
      · exact toNat_place_sub (by omega) (by omega)
      · omega
      · omega
    have step : asmCopy (place initSeq origin)
        ((segment :: more).map (Segment.clip initSeq)) target =
        asmCopy (place initSeq origin) (more.map (Segment.clip initSeq))
          { target with
            buffer := overwrite target.buffer (segment.start - origin) segment.data
            len := UInt32.ofNat (low + segment.size - origin) } := by
      unfold asmCopy
      rw [map_cons, foldl_cons, starts, longer]
      rfl
    rw [step]
    exact induction chain.2 (by omega) _ rfl

/-- Several segments around the position are assembled up to the gap, when
the one that must be there is among them and the target has the room. -/
theorem asmConstruct_segments {asm : Asm} {target : AsmTarget}
    (clips : asm.tree.toList = (run ++ rest).map (Segment.clip initSeq))
    (whole : RunAhead position low high run rest)
    (mustNear : rest ≠ [] → Near position must) (below : low ≤ position)
    (lowNear : Near position low) (seq : target.seq = place initSeq position)
    (short : high - low < 131072) :
    asmConstruct asm target (place initSeq must) =
      if run.length = 1 ∨ rest ≠ [] ∧ high < must then (.nop, target)
      else if target.len.toNat < high - low then
        (.more, { target with seq := place initSeq low, len := UInt32.ofNat (high - low) })
      else (.ok,
        { seq := place initSeq low
          len := UInt32.ofNat (high - low)
          buffer := copyAll (fun segment => segment.start - low)
            Segment.data target.buffer run }) := by
  have counted : asmCount asm = run.length + rest.length := by
    unfold asmCount
    rw [SearchTree.size_eq_length, clips, length_map, length_append]
  have filled : 0 < run.length := length_pos_iff.mpr whole.nonempty
  have head : headSeq ((run ++ rest).map (Segment.clip initSeq)) = place initSeq low := by
    cases run with
    | nil => exact absurd rfl whole.nonempty
    | cons segment more =>
      have here : segment.start = low := whole.chain.1
      rw [← here]
      rfl
  have lastLength : (run.getLast?.toList ++ rest).length = rest.length + 1 := by
    rw [length_append, getLast?_eq_getLast_of_ne_nil whole.nonempty]
    simp only [Option.toList_some, length_singleton]
    omega
  have scanned := asmScan_segments ((run ++ rest).map (Segment.clip initSeq)) whole mustNear head
    (Nat.le_refl low) short
  rw [Nat.sub_self] at scanned
  have missing : (!rest.isEmpty && decide (high < must)) = true ↔ rest ≠ [] ∧ high < must := by
    simp
  have sole : (run ++ rest).length = rest.length + 1 ↔ run.length = 1 := by
    rw [length_append]
    omega
  unfold asmConstruct
  by_cases few : asmCount asm ≤ 1
  · rw [if_pos few, if_pos (Or.inl (by omega))]
  · rw [if_neg few]
    simp only [clips, seq]
    rw [show (0 : UInt32) = UInt32.ofNat 0 from rfl, scanned]
    by_cases early : rest ≠ [] ∧ high < must
    · rw [if_pos (missing.mpr early), if_pos (Or.inr early)]
    · have starts : u32Lt (place initSeq position) (place initSeq low) = false := by
        rw [u32Lt_place (near_self position) lowNear]
        exact decide_eq_false (Nat.not_lt.mpr below)
      have more : UInt32.ofNat (high - low) > target.len ↔ target.len.toNat < high - low := by
        rw [gt_iff_lt, UInt32.lt_iff_toNat_lt, toNat_ofNat_long short]
      have taken : ((run ++ rest).map (Segment.clip initSeq)).take
          ((run ++ rest).length - (rest.length + 1) + 1) = run.map (Segment.clip initSeq) := by
        rw [map_append]
        apply take_left'
        rw [length_map, length_append]
        omega
      rw [if_neg (missing.not.mpr early)]
      simp only [head, starts, length_map, lastLength, taken, sole,
        Bool.false_eq_true, or_false, more]
      by_cases single : run.length = 1
      · rw [if_pos single, if_pos (Or.inl single)]
      · rw [if_neg single, if_neg (not_or.mpr ⟨single, early⟩),
          asmCopy_segments whole.chain (Nat.le_refl low) short]
        rw [Nat.sub_self]


theorem asmScan_first {targetSeq mustHave total : UInt32} {clips first last : List Clip}
    {result : List Clip × List Clip × UInt32}
    (late : ∀ clip ∈ clips, u32Lte (clip.seq + clip.len) targetSeq = false)
    (found : asmScan targetSeq mustHave clips first last total = some result) :
    result.1 = first := by
  induction clips generalizing last total with
  | nil =>
    cases found
    rfl
  | cons clip rest induction =>
    unfold asmScan at found
    simp only [late clip mem_cons_self, Bool.false_eq_true, if_false] at found
    split at found
    · split at found
      · cases found
      · cases found
        rfl
    · exact induction (List.forall_mem_cons.mp late).2 found

theorem asmConstruct_hole {asm : Asm} {target : AsmTarget}
    {mustHave : UInt32} {segments : List Segment}
    (clips : asm.tree.toList = segments.map (Segment.clip initSeq))
    (hole : ∀ segment ∈ segments, position < segment.start)
    (near : ∀ segment ∈ segments, Near position segment.start ∧
      Near position (segment.start + segment.size))
    (seq : target.seq = place initSeq position) :
    asmConstruct asm target mustHave = (.nop, target) := by
  have unmoved : ∀ clip ∈ segments.map (Segment.clip initSeq),
      u32Lte (clip.seq + clip.len) (place initSeq position) = false := by
    intro clip member
    obtain ⟨segment, listed, rfl⟩ := mem_map.mp member
    rw [clip_stop, u32Lte_place (near segment listed).2 (near_self position)]
    apply decide_eq_false
    have beyond := hole segment listed
    omega
  unfold asmConstruct
  split
  · rfl
  next several =>
    simp only [clips, seq]
    split
    · rfl
    next first last total scanned =>
      have same : first = segments.map (Segment.clip initSeq) := asmScan_first unmoved scanned
      have late : u32Lt (place initSeq position) (headSeq first) = true := by
        cases segments with
        | nil =>
          have none : asmCount asm = 0 := by
            unfold asmCount
            rw [SearchTree.size_eq_length, clips]
            rfl
          omega
        | cons segment rest =>
          have head : headSeq first = place initSeq segment.start := by
            rw [same]
            rfl
          rw [head, u32Lt_place (near_self position) (near segment mem_cons_self).1]
          exact decide_eq_true (hole segment mem_cons_self)
      rw [if_pos (Or.inr late)]

end Walk

/-- Clips that follow one another, none of them empty. -/
structure Chained (low high : Nat) (clips : List Clip) : Prop where
  chain : Segments.Chain Clip.start Clip.size low high clips
  filled : ∀ clip ∈ clips, 0 < clip.size
  bounded : high < 131072

namespace Clip

/-- A clip as a segment of a stream that starts at zero. -/
def segment (clip : Clip) : Segment :=
  { start := clip.start, data := clip.data, short := clip.short }

theorem segment_clip (clip : Clip) : clip.segment.clip 0 = clip := by
  simp [segment, Segment.clip, place, start]

theorem segments_clips (clips : List Clip) :
    (clips.map segment).map (Segment.clip 0) = clips := by
  simp [Function.comp_def, segment_clip]

end Clip

theorem Chained.runAhead {high : Nat} {clips : List Clip} (run : Chained 0 high clips)
    (nonempty : clips ≠ []) : RunAhead 0 0 high (clips.map Clip.segment) [] where
  chain := chain_map.mpr run.chain
  nonempty := fun empty => nonempty (map_eq_nil_iff.mp empty)
  ahead := by
    intro segment member
    obtain ⟨clip, listed, rfl⟩ := mem_map.mp member
    exact Nat.add_pos_right _ (run.filled clip listed)
  near := by
    have limit := run.bounded
    exact ⟨by omega, by omega⟩
  gap := nofun

/-- Clips that follow one another and fit into a packet. -/
structure GaplessRun (low high : Nat) (clips : List Clip) : Prop where
  chain : Segments.Chain Clip.start Clip.size low high clips
  filled : ∀ clip ∈ clips, 0 < clip.size
  bounded : high < 65536

variable {low high : Nat} {clips : List Clip}

theorem GaplessRun.chained (run : GaplessRun low high clips) : Chained low high clips :=
  ⟨run.chain, run.filled, Nat.lt_trans run.bounded (by decide)⟩

variable {target : AsmTarget}

theorem asmConstruct_run {asm : Asm} (run : Chained 0 high asm.tree.toList)
    (several : 1 < asm.tree.toList.length) (atZero : target.seq = 0) (mustHave : UInt32) :
    asmConstruct asm target mustHave =
      if target.len.toNat < high then (.more, { target with seq := 0, len := UInt32.ofNat high })
      else (.ok,
        { seq := 0
          len := UInt32.ofNat high
          buffer := copyAll Clip.start Clip.data target.buffer
            asm.tree.toList }) := by
  have nonempty : asm.tree.toList ≠ [] := by
    intro empty
    simp [empty] at several
  have clips : asm.tree.toList = (asm.tree.toList.map Clip.segment ++ []).map (Segment.clip 0) := by
    rw [append_nil, Clip.segments_clips]
  have must : mustHave = place 0 mustHave.toNat := by simp [place]
  rw [must, asmConstruct_segments clips (run.runAhead nonempty) (fun none => absurd rfl none)
    (Nat.le_refl 0) (near_self 0) atZero run.bounded, if_neg (by simp; omega)]
  simp [copyAll, foldl_map, Clip.segment, place]

theorem asmConstruct_chained {asm : Asm} (run : Chained 0 high asm.tree.toList)
    (several : 1 < asm.tree.toList.length) (atZero : target.seq = 0)
    (fits : high ≤ target.len.toNat) (mustHave : UInt32) :
    asmConstruct asm target mustHave = (.ok,
        { seq := 0
          len := UInt32.ofNat high
          buffer := copyAll Clip.start Clip.data target.buffer
            asm.tree.toList }) := by
  rw [asmConstruct_run run several atZero, if_neg (Nat.not_lt.mpr fits)]

/-- Clips inside a length are assembled only without a gap, when everything
before the last byte must be there. -/
theorem asmConstruct_ok {asm : Asm} {cons : AsmTarget} {length : Nat} {mustHave : UInt32}
    (apart : Segments.Apart Clip.start Clip.size asm.tree.toList)
    (filled : ∀ clip ∈ asm.tree.toList, 0 < clip.size)
    (within : ∀ clip ∈ asm.tree.toList, clip.start + clip.size ≤ length)
    (bounded : length < 131072) (must : mustHave.toNat = length - 1) (atZero : target.seq = 0)
    (built : asmConstruct asm target mustHave = (.ok, cons)) :
    ∃ high, Chained 0 high asm.tree.toList ∧
      1 < asm.tree.toList.length ∧ high ≤ target.len.toNat := by
  have clips := (Clip.segments_clips asm.tree.toList).symm
  have order : Segments.Apart Segment.start Segment.size (asm.tree.toList.map Clip.segment) :=
    pairwise_map.mpr apart
  have inside : ∀ segment ∈ asm.tree.toList.map Clip.segment,
      0 < segment.size ∧ segment.start + segment.size ≤ length :=
    forall_mem_map.mpr fun clip member => ⟨filled clip member, within clip member⟩
  generalize same : asm.tree.toList.map Clip.segment = segments at clips order inside
  have near : ∀ segment ∈ segments, Near 0 segment.start ∧
      Near 0 (segment.start + segment.size) := by
    intro segment member
    have fits := (inside segment member).2
    unfold Near
    omega
  cases segments with
  | nil =>
    rw [asmConstruct_hole clips nofun near atZero] at built
    cases built
  | cons segment later =>
    by_cases hole : 0 < segment.start
    · have ahead : ∀ other ∈ segment :: later, 0 < other.start := by
        refine forall_mem_cons.mpr ⟨hole, fun other member => ?_⟩
        have before := (pairwise_cons.mp order).1 other member
        omega
      rw [asmConstruct_hole clips ahead near atZero] at built
      cases built
    · obtain ⟨high, run, rest, rfl, chain, gap⟩ := order.exists_run
      rw [Nat.eq_zero_of_not_pos hole] at chain
      obtain ⟨final, member, reaches⟩ := chain.ends (cons_ne_nil _ _)
      have limit := (inside final (mem_append_left rest member)).2
      have whole : RunAhead 0 0 high (segment :: run) rest := by
        refine ⟨chain, cons_ne_nil _ _, ?_, by unfold Near; omega, ?_⟩
        · intro other member
          have positive := (inside other (mem_append_left rest member)).1
          omega
        · intro next isNext
          have member := mem_append_right (segment :: run) (mem_of_mem_head? isNext)
          exact ⟨gap next isNext, (near next member).1⟩
      have place : mustHave = place 0 (length - 1) := by simp [place, ← must]
      rw [place, asmConstruct_segments clips whole (fun _ => by unfold Near; omega)
        (Nat.le_refl 0) (near_self 0) atZero (by omega)] at built
      split at built
      · cases built
      next complete =>
        split at built
        · cases built
        next fits =>
          obtain ⟨several, noGap⟩ := not_or.mp complete
          have none : rest = [] := by
            cases rest with
            | nil => rfl
            | cons next more =>
              have ends := inside next (mem_append_right (segment :: run) mem_cons_self)
              have behind := gap next rfl
              exact absurd ⟨cons_ne_nil _ _, by omega⟩ noGap
          subst none
          rw [append_nil] at same
          have count := congrArg List.length same
          rw [length_map, length_cons] at count
          rw [length_cons] at several
          rw [← same] at chain
          have back := chain_map.mp chain
          exact ⟨high, ⟨back, filled, by omega⟩, by omega, by omega⟩

section Flush

variable (base seq : UInt32) (asm : Asm)

/-- The clips that `asm_flush` hands to the remove function, in that order. -/
def asmFlushed (clips : List Clip) : List Clip :=
  clips.takeWhile fun clip => u32Lte (clip.seq + clip.len) seq

theorem asmFlush_toList : (asmFlush seq asm.tree.toList asm).tree.toList =
      asm.tree.toList.dropWhile fun clip => u32Lte (clip.seq + clip.len) seq := by
  generalize same : asm.tree.toList = clips
  induction clips generalizing asm with
  | nil => exact same
  | cons clip rest induction =>
    unfold asmFlush
    rw [dropWhile_cons]
    split
    · apply induction
      rw [SearchTree.removeFirst_toList, same]
      rfl
    · exact same

/-- The clips lie in order in a window of half the sequence space. -/
structure Windowed : Prop where
  ordered : SearchTree.Ordered (fun clip : Clip => offset base clip.seq) asm.tree.toList
  inside : ∀ clip ∈ asm.tree.toList, offset base clip.seq + clip.size < halfSpace

def Clip.endsBy (clip : Clip) : Bool := offset base clip.seq + clip.size ≤ offset base seq

/-- The flush keeps exactly the clips that end later and removes each other
one once. -/
def FlushExact : Prop :=
  (asmFlush seq asm.tree.toList asm).tree.toList =
      asm.tree.toList.filter (fun clip => !clip.endsBy base seq) ∧
    asmFlushed seq asm.tree.toList = asm.tree.toList.filter (Clip.endsBy base seq)

variable {base seq asm}

/-- The flush is exact if and only if no clip that ends in time starts behind
one that ends later. -/
theorem asmFlush_exact_iff (windowed : Windowed base asm) (window : offset base seq < halfSpace) :
    FlushExact base seq asm ↔ asm.tree.toList.Pairwise fun first later =>
      later.endsBy base seq = true → first.endsBy base seq = true := by
  have test : ∀ clip ∈ asm.tree.toList,
      u32Lte (clip.seq + clip.len) seq = clip.endsBy base seq := by
    intro clip member
    have stop : offset base (clip.seq + clip.len) = offset base clip.seq + clip.size :=
      offset_add (windowed.inside clip member)
    rw [u32Lte_offset (stop ▸ windowed.inside clip member) window, stop]
    rfl
  have kept := filter_congr fun clip member => congrArg not (test clip member)
  unfold FlushExact asmFlushed
  rw [asmFlush_toList, ← filter_congr test, ← kept, takeWhile_eq_filter_iff]
  apply Pairwise.iff_of_mem
  intro first later firstMember laterMember
  rw [test first firstMember, test later laterMember]

def nestedClips : Asm :=
  { tree := .node .leaf ⟨0, [0, 0, 0], by decide⟩ (.node .leaf ⟨1, [0], by decide⟩ .leaf)
    gross := 4 }

theorem nestedClips_windowed : Windowed 0 nestedClips := by
  constructor
  · unfold SearchTree.Ordered
    decide
  · decide

theorem asmFlush_exact_nested : FlushExact 0 3 nestedClips :=
  (asmFlush_exact_iff nestedClips_windowed (by decide)).mpr (by decide)

theorem asmFlush_keeps_finished_clip : ∃ base seq asm,
    Windowed base asm ∧ offset base seq < halfSpace ∧ ¬ FlushExact base seq asm := by
  refine ⟨0, 2, nestedClips, nestedClips_windowed, by decide, ?_⟩
  unfold FlushExact
  decide

end Flush

end NeuVector.DataPath
