import NeuVector.DataPath.TcpNumbers
import NeuVector.Library.Arrivals

/-!
# Assembling the segments of a stream

The segments of a TCP stream are cached as clips whose sequence numbers wrap.
Around the position of the parsers the serial comparisons are those of the
offsets in the stream, so that `asm_construct` can be described by the
segments: it yields the run from the position to the first gap.
-/

namespace NeuVector.DataPath

open Library List

section Cached

variable {initSeq : UInt32} {position : Nat} {segments : List Segment}
  {segment : Segment} {asm : Asm}

/-- The cache holds the clips of the segments in their order. -/
structure CacheOf (initSeq : UInt32) (segments : List Segment) (asm : Asm) : Prop where
  clips : asm.tree.toList = segments.map (Segment.clip initSeq)
  gross : asm.gross = UInt32.ofNat (Segments.total Segment.size segments)

theorem CacheOf.count (cache : CacheOf initSeq segments asm) : asmCount asm = segments.length := by
  unfold asmCount
  rw [SearchTree.size_eq_length, cache.clips, length_map]

/-- Segments in their order near a position. -/
structure Spread (position : Nat) (segments : List Segment) : Prop where
  apart : Segments.Apart Segment.start Segment.size segments
  filled : ∀ segment ∈ segments, 0 < segment.size
  near : ∀ segment ∈ segments, Near position segment.start ∧
    Near position (segment.start + segment.size)

/-- Where a clip lies among those near the position. -/
def clipRank (initSeq : UInt32) (position : Nat) (clip : Clip) : Nat :=
  offset (nearBase initSeq position) clip.seq

theorem clipRank_clip (near : Near position segment.start) :
    clipRank initSeq position (segment.clip initSeq) =
      segment.start + 536870912 - position := offset_place near

theorem asmProbe_rank {start : Nat} (near : Near position start)
    (stored : Near position segment.start) :
    asmProbe (place initSeq start) (segment.clip initSeq) = compare (start + 536870912 - position)
        (clipRank initSeq position (segment.clip initSeq)) := by
  have below := near.1
  have storedBelow := stored.1
  have seq : (segment.clip initSeq).seq = place initSeq segment.start := rfl
  unfold asmProbe
  rw [clipRank_clip stored, seq, u32Gt_place near stored, u32Lt_place near stored]
  rcases Nat.lt_trichotomy start segment.start with less | equal | greater
  · rw [if_neg (by rw [decide_eq_true_eq]; omega), if_pos (decide_eq_true less)]
    exact (Nat.compare_eq_lt.mpr (by omega)).symm
  · rw [if_neg (by rw [decide_eq_true_eq]; omega), if_neg (by rw [decide_eq_true_eq]; omega)]
    exact (Nat.compare_eq_eq.mpr (by omega)).symm
  · rw [if_pos (decide_eq_true greater)]
    exact (Nat.compare_eq_gt.mpr (by omega)).symm

theorem Spread.ordered (spread : Spread position segments) (initSeq : UInt32) :
    SearchTree.Ordered (clipRank initSeq position) (segments.map (Segment.clip initSeq)) := by
  apply List.Pairwise.map
  · intro first second ordered
    exact ordered
  · apply List.Pairwise.imp_of_mem _ spread.apart
    intro first second inFirst inSecond ends
    have near := (spread.near first inFirst).1
    have secondNear := (spread.near second inSecond).1
    have positive := spread.filled first inFirst
    rw [clipRank_clip near, clipRank_clip secondNear]
    have below := near.1
    omega

theorem CacheOf.insert {before after : List Segment} (cache : CacheOf initSeq (before ++ after) asm)
    (spread : Spread position (before ++ segment :: after)) :
    ∃ inserted, asmInsert asm (segment.clip initSeq) = some inserted ∧
      CacheOf initSeq (before ++ segment :: after) inserted := by
  have inside : segment ∈ before ++ segment :: after := mem_append_right _ mem_cons_self
  have subset : ∀ other ∈ before ++ after, other ∈ before ++ segment :: after := by
    intro other member
    rcases mem_append.mp member with first | second
    · exact mem_append_left _ first
    · exact mem_append_right _ (mem_cons_of_mem _ second)
  have near := (spread.near segment inside).1
  have agrees : SearchTree.Agrees asmCompare (clipRank initSeq position)
      (segment.clip initSeq) asm.tree.toList := by
    intro stored member
    rw [cache.clips] at member
    obtain ⟨other, present, rfl⟩ := mem_map.mp member
    rw [clipRank_clip near]
    exact asmProbe_rank near (spread.near other (subset other present)).1
  have sorted : SearchTree.Ordered (clipRank initSeq position) (before.map (Segment.clip initSeq) ++
        segment.clip initSeq :: after.map (Segment.clip initSeq)) := by
    have ordered := spread.ordered initSeq
    rw [map_append] at ordered
    exact ordered
  have whole : asm.tree.toList = before.map (Segment.clip initSeq) ++
      after.map (Segment.clip initSeq) := by rw [cache.clips, map_append]
  have fresh : ∀ stored ∈ asm.tree.toList, clipRank initSeq position stored ≠
        clipRank initSeq position (segment.clip initSeq) := by
    obtain ⟨_, tail, across⟩ := pairwise_append.mp sorted
    intro stored member
    rw [whole] at member
    rcases mem_append.mp member with first | second
    · exact Nat.ne_of_lt (across stored first _ mem_cons_self)
    · exact Nat.ne_of_gt ((pairwise_cons.mp tail).1 stored second)
  obtain ⟨tree, inserted⟩ := Option.isSome_iff_exists.mp (SearchTree.insert_isSome agrees fresh)
  refine ⟨{ tree := tree, gross := asm.gross + (segment.clip initSeq).len }, ?_, ?_, ?_⟩
  · unfold asmInsert
    rw [inserted]
    rfl
  · rw [SearchTree.insert_toList whole sorted agrees inserted, map_append, map_cons]
  · change asm.gross + (segment.clip initSeq).len = _
    have length : (segment.clip initSeq).len = UInt32.ofNat segment.size := rfl
    rw [cache.gross, length, ← UInt32.ofNat_add, Segments.total_append, Segments.total_append]
    congr 1
    simp only [Segments.total]
    omega

section

variable (cache : CacheOf initSeq segments asm)
include cache

theorem CacheOf.lookup (spread : Spread position segments) (member : segment ∈ segments) :
    asmLookup asm (place initSeq segment.start) = some (segment.clip initSeq) := by
  have near := (spread.near segment member).1
  have ordered := spread.ordered initSeq
  rw [← cache.clips] at ordered
  have follows : ∀ stored ∈ asm.tree.toList, asmProbe (place initSeq segment.start) stored =
        compare (segment.start + 536870912 - position) (clipRank initSeq position stored) := by
    intro stored inside
    rw [cache.clips] at inside
    obtain ⟨other, present, rfl⟩ := mem_map.mp inside
    exact asmProbe_rank near (spread.near other present).1
  refine SearchTree.find_of_mem ordered follows ?_ (clipRank_clip near)
  rw [cache.clips]
  exact mem_map_of_mem member

theorem CacheOf.lookup_none (spread : Spread position segments) {start : Nat}
    (near : Near position start) (absent : ∀ segment ∈ segments, segment.start ≠ start) :
    asmLookup asm (place initSeq start) = none := by
  cases found : asmLookup asm (place initSeq start) with
  | none => rfl
  | some clip =>
    have member := SearchTree.find_mem found
    rw [cache.clips] at member
    obtain ⟨segment, present, rfl⟩ := mem_map.mp member
    have seq : place initSeq segment.start = place initSeq start := by
      rw [← asmLookup_seq found]
      rfl
    exact absurd (place_inj (spread.near segment present).1 near seq) (absent segment present)

theorem CacheOf.flush
    (near : ∀ segment ∈ segments, Near position (segment.start + segment.size)) {later : Nat}
    (laterNear : Near position later) :
    CacheOf initSeq (segments.dropWhile fun segment =>
        decide (segment.start + segment.size ≤ later))
      (asmFlush (place initSeq later) asm.tree.toList asm) := by
  rw [cache.clips]
  induction segments generalizing asm with
  | nil => exact cache
  | cons segment rest induction =>
    have ends : u32Lte (place initSeq (segment.start + segment.size)) (place initSeq later) =
          decide (segment.start + segment.size ≤ later) :=
      u32Lte_place (near segment mem_cons_self) laterNear
    rw [map_cons]
    unfold asmFlush
    rw [clip_stop, ends, dropWhile_cons]
    split
    · apply induction
      · constructor
        · rw [SearchTree.removeFirst_toList, cache.clips]
          rfl
        · have length : (segment.clip initSeq).len = UInt32.ofNat segment.size := rfl
          rw [cache.gross, length]
          simp only [Segments.total]
          rw [UInt32.ofNat_add, UInt32.add_comm, UInt32.add_sub_cancel]
      · exact (List.forall_mem_cons.mp near).2
    · exact cache

end

end Cached

end NeuVector.DataPath
