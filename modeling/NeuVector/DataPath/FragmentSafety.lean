import Mathlib.Tactic.MkIffOfInductiveProp
import NeuVector.DataPath.Fragment

/-!
# Released datagrams

A tracker is sound when its clips lie apart and come from received fragments.
The fragment that makes both ends of a datagram known is the one that releases
it.  When at that moment the bytes held and the bytes brought add up to the
length of the datagram, the clips leave no gap and the assembled packet is
complete.
-/

namespace NeuVector.DataPath

open Library Segments List

variable (piece : Piece)

namespace Piece

def start : Nat := piece.clip.start

def size : Nat := piece.clip.size

def stop : Nat := piece.start + piece.size

end Piece

variable (received : List Piece)

/-- The payload reaches the end of a received last fragment, and each of its
bytes is that of a received fragment covering the offset. -/
def Complete (payload : List UInt8) : Prop :=
  (∃ piece ∈ received, piece.more = false ∧ piece.stop = payload.length) ∧
    ∀ index < payload.length, ∃ piece ∈ received,
      piece.start ≤ index ∧ piece.clip.data[index - piece.start]? = payload[index]?

instance (received : List Piece) (payload : List UInt8) : Decidable (Complete received payload) :=
  inferInstanceAs (Decidable (_ ∧ _))

def FragTrac.clips (trac : FragTrac) : List Clip := trac.frags.tree.toList

structure Held (received : List Piece) (asm : Asm) : Prop where
  ordered : SearchTree.Ordered Clip.start asm.tree.toList
  apart : Segments.Apart Clip.start Clip.size asm.tree.toList
  filled : ∀ clip ∈ asm.tree.toList, 0 < clip.size
  small : ∀ clip ∈ asm.tree.toList, clip.start < 65536
  known : ∀ clip ∈ asm.tree.toList, ∃ piece ∈ received, piece.clip = clip
  gross : asm.gross.toNat = total Clip.size asm.tree.toList

/-- A tracker whose datagram has not been released. -/
structure Sound (received : List Piece) (trac : FragTrac) : Prop where
  held : Held received trac.frags
  within : ∀ clip ∈ trac.clips, clip.start + clip.size ≤ trac.length
  bounded : trac.length < 131072
  begun : trac.first = true ∨ trac.last = true → trac.clips ≠ []
  final : trac.last = true → ∃ piece ∈ received, piece.more = false ∧ piece.stop = trac.length
  unsettled : ¬ (trac.first = true ∧ trac.last = true)

/-- A tracker that holds a whole datagram. -/
structure Ready (received : List Piece) (header : Nat) (trac : FragTrac) : Prop where
  held : Held received trac.frags
  run : GaplessRun 0 trac.length trac.clips
  several : 1 < trac.clips.length
  fits : header + trac.length < 65536
  final : ∃ piece ∈ received, piece.more = false ∧ piece.stop = trac.length

/-- After a fragment, a datagram with both ends is whole. -/
def Settled (header : Nat) (trac : FragTrac) : Prop :=
  (trac.first = true ∧ trac.last = true → Ready received header trac) ∧
    (¬ (trac.first = true ∧ trac.last = true) → Sound received trac)

theorem Held.mono {received more : List Piece} {asm : Asm}
    (held : Held received asm) (subset : received ⊆ more) : Held more asm :=
  { held with
    known := fun clip member => by
      obtain ⟨piece, inside, same⟩ := held.known clip member
      exact ⟨piece, subset inside, same⟩ }

theorem Sound.mono {received more : List Piece} {trac : FragTrac}
    (sound : Sound received trac) (subset : received ⊆ more) :
    Sound more trac :=
  { sound with
    held := sound.held.mono subset
    final := fun last => by
      obtain ⟨piece, inside, property⟩ := sound.final last
      exact ⟨piece, subset inside, property⟩ }

theorem Sound.settled {received : List Piece} {header : Nat}
    {trac : FragTrac} (sound : Sound received trac) :
    Settled received header trac :=
  ⟨fun both => absurd both sound.unsettled, fun _ => sound⟩

theorem held_new : Held received asmInit where
  ordered := List.Pairwise.nil
  apart := List.Pairwise.nil
  filled := fun _ member => absurd member (not_mem_nil)
  small := fun _ member => absurd member (not_mem_nil)
  known := fun _ member => absurd member (not_mem_nil)
  gross := rfl

theorem sound_new : Sound received .new where
  held := held_new received
  within := fun _ member => absurd member (not_mem_nil)
  bounded := by decide
  begun := fun flags => by simp [FragTrac.new] at flags
  final := fun last => by simp [FragTrac.new] at last
  unsettled := fun both => by simp [FragTrac.new] at both

theorem Held.gross_le {received : List Piece} {asm : Asm} {length : Nat} (held : Held received asm)
    (within : ∀ clip ∈ asm.tree.toList, clip.start + clip.size ≤ length) :
    asm.gross.toNat ≤ length := by
  have inside := total_le held.apart (Nat.zero_le length)
    (fun clip _ => Nat.zero_le clip.start) within
  rw [held.gross]
  omega

section Saving

variable {received : List Piece} {asm : Asm} {clip : Clip}

theorem asmInsert_held (held : Held received asm)
    (positive : 0 < clip.size) (small : clip.start < 65536)
    (origin : ∃ piece ∈ received, piece.clip = clip)
    (separate : ∀ other ∈ asm.tree.toList, Segments.Separate Clip.start Clip.size clip other)
    (room : asm.gross.toNat + clip.size < 4294967296) :
    ∃ inserted, asmInsert asm clip = some inserted ∧ Held received inserted ∧
      inserted.tree.toList.Perm (clip :: asm.tree.toList) ∧
      inserted.gross.toNat = asm.gross.toNat + clip.size := by
  have agrees : SearchTree.Agrees asmCompare Clip.start clip asm.tree.toList := fun other member =>
    Clip.asmCompare_eq small (held.small other member)
  have fresh : ∀ other ∈ asm.tree.toList, other.start ≠ clip.start := by
    intro other member same
    have filled := held.filled other member
    rcases separate other member with before | after <;> omega
  obtain ⟨tree, found⟩ := Option.isSome_iff_exists.mp (SearchTree.insert_isSome agrees fresh)
  have perm := SearchTree.insert_perm found
  have ordered := SearchTree.insert_ordered held.ordered agrees found
  have grown : (asm.gross + clip.len).toNat = asm.gross.toNat + clip.size := by
    rw [UInt32.toNat_add, clip.toNat_len]
    omega
  refine ⟨⟨tree, asm.gross + clip.len⟩, ?_, ?_, perm, grown⟩
  · unfold asmInsert
    rw [found]
    rfl
  · have cases : ∀ {property : Clip → Prop}, property clip →
        (∀ other ∈ asm.tree.toList, property other) →
        ∀ other ∈ tree.toList, property other := by
      intro property new old other member
      rcases (SearchTree.mem_toList_of_insert found other).mp member with
        same | before
      · rw [same]
        exact new
      · exact old other before
    exact
      { ordered := ordered
        apart := apart_of_perm held.apart separate perm ordered
        filled := cases positive held.filled
        small := cases small held.small
        known := cases origin held.known
        gross := by
          have sum : total Clip.size tree.toList = clip.size + total Clip.size asm.tree.toList :=
            total_perm perm
          rw [grown, held.gross, sum]
          omega }

end Saving

/-- A fragment that may be saved: it is not empty, no held clip overlaps it,
and it is not a whole datagram by itself. -/
@[mk_iff]
structure Acceptable (trac : FragTrac) (piece : Piece) : Prop where
  positive : 0 < piece.size
  separate : ∀ clip ∈ trac.clips, Segments.Separate Clip.start Clip.size piece.clip clip
  notWhole : piece.start = 0 → piece.more = true

instance (trac : FragTrac) (piece : Piece) : Decidable (Acceptable trac piece) :=
  decidable_of_iff' _ (acceptable_iff trac piece)

/-- If the fragment makes both ends known, the bytes held together with its
own amount to the length of the datagram, which fits behind the header. -/
def Settles (trac : FragTrac) (piece : Piece) (header : Nat) : Prop :=
  trac.first = true ∨ piece.start = 0 →
    trac.last = true ∨ (piece.more = false ∧ trac.length ≤ piece.stop) →
      trac.frags.gross.toNat + piece.size = (if trac.last then trac.length else piece.stop) ∧
        header + (if trac.last then trac.length else piece.stop) < 65536

instance (trac : FragTrac) (piece : Piece) (header : Nat) : Decidable (Settles trac piece header) :=
  inferInstanceAs (Decidable (_ → _ → _))

/-- The tracker once a fragment at offset zero has set its first flag. -/
structure Marked (trac marked : FragTrac) (piece : Piece) : Prop where
  length : marked.length = trac.length
  last : marked.last = trac.last
  frags : marked.frags = trac.frags
  first : marked.first = true ↔ trac.first = true ∨ piece.start = 0

section Accepting

variable {received : List Piece} {header : Nat}
variable {trac marked : FragTrac} {piece : Piece}

/-- The end of the fragment contradicts what is known of the datagram. -/
def Contradicts (trac : FragTrac) (piece : Piece) : Prop :=
  (piece.more = true → trac.last = true ∧ trac.length < piece.stop) ∧
    (piece.more = false → piece.stop < trac.length ∨ trac.last = true ∧ piece.stop ≠ trac.length)

theorem acceptPiece_cases (trac : FragTrac) (small : piece.start < 65536) :
    (acceptPiece trac piece = trac ∧ Contradicts trac piece) ∨
    (acceptPiece trac piece = saveClip trac piece.clip ∧
      piece.more = true ∧ piece.stop ≤ trac.length) ∨
    (acceptPiece trac piece = saveClip { trac with length := piece.stop } piece.clip ∧
      piece.more = true ∧ trac.last = false ∧ trac.length ≤ piece.stop) ∨
    (acceptPiece trac piece = saveClip { trac with last := true, length := piece.stop } piece.clip ∧
      piece.more = false ∧ trac.length ≤ piece.stop) := by
  have stop : (piece.clip.seq + piece.clip.len).toNat = piece.stop := Clip.toNat_stop small
  unfold acceptPiece updateLength
  rw [stop]
  cases more : piece.more with
  | true =>
    by_cases beyond : piece.stop > trac.length
    · rw [if_pos beyond]
      cases last : trac.last with
      | true =>
        have contradicts : Contradicts trac piece :=
          ⟨fun _ => ⟨last, beyond⟩, fun final => by simp [more] at final⟩
        exact Or.inl ⟨rfl, contradicts⟩
      | false => exact Or.inr (Or.inr (Or.inl ⟨rfl, rfl, rfl, Nat.le_of_lt beyond⟩))
    · rw [if_neg beyond]
      exact Or.inr (Or.inl ⟨rfl, rfl, Nat.le_of_not_lt beyond⟩)
  | false =>
    by_cases refused : piece.stop < trac.length ∨ (trac.last = true ∧ piece.stop ≠ trac.length)
    · rw [if_pos refused]
      have contradicts : Contradicts trac piece :=
        ⟨fun more' => by simp [more] at more', fun _ => refused⟩
      exact Or.inl ⟨rfl, contradicts⟩
    · rw [if_neg refused]
      exact Or.inr (Or.inr (Or.inr ⟨rfl, rfl, by omega⟩))

structure Added (trac result : FragTrac) (piece : Piece) : Prop where
  perm : result.clips.Perm (piece.clip :: trac.clips)
  last : result.last = true ↔ trac.last = true ∨ piece.more = false

/-- What becomes of a tracker that is offered a separate fragment: it takes
the fragment, or refuses it for its end. -/
structure Offered (received : List Piece) (trac result : FragTrac) (piece : Piece) : Prop where
  held : Held received result.frags
  within : ∀ clip ∈ result.clips, clip.start + clip.size ≤ result.length
  bounded : result.length < 131072
  first : result.first = true ↔ trac.first = true ∨ piece.start = 0
  length : result.length = trac.length ∨ result.length = piece.stop
  outcome :
    (result.clips = trac.clips ∧ result.last = trac.last ∧ result.length = trac.length ∧
      Contradicts trac piece) ∨
    (Added trac result piece ∧ trac.length ≤ result.length ∧
      result.frags.gross.toNat = trac.frags.gross.toNat + piece.size ∧
      (result.last = true → trac.last = true ∧ result.length = trac.length ∨
        piece.more = false ∧ piece.stop = result.length))

section

variable (before : Held received trac.frags)
  (fits : ∀ clip ∈ trac.clips, clip.start + clip.size ≤ trac.length)
  (total : trac.length < 131072) (positive : 0 < piece.size)
  (separate : ∀ clip ∈ trac.clips, Segments.Separate Clip.start Clip.size piece.clip clip)
  (small : piece.start < 65536) (member : piece ∈ received)
include before fits total positive separate small member

theorem saveClip_offered {kept : FragTrac} (frags : kept.frags = trac.frags)
    (first : kept.first = true ↔ trac.first = true ∨ piece.start = 0)
    (last : kept.last = true ↔ trac.last = true ∨ piece.more = false)
    (length : kept.length = trac.length ∧ piece.stop ≤ trac.length ∨
      kept.length = piece.stop ∧ trac.length ≤ piece.stop)
    (ends : kept.last = true → trac.last = true ∧ kept.length = trac.length ∨
      piece.more = false ∧ piece.stop = kept.length) :
    Offered received trac (saveClip kept piece.clip) piece := by
  have limit := before.gross_le fits
  have short : piece.clip.size < 65536 := piece.clip.short
  have range : trac.length ≤ kept.length ∧ piece.stop ≤ kept.length ∧ kept.length < 131072 := by
    have stop : piece.stop = piece.start + piece.clip.size := rfl
    omega
  obtain ⟨inserted, found, held, perm, gross⟩ := asmInsert_held before
    positive small ⟨piece, member, rfl⟩ separate (by omega)
  have saved : saveClip kept piece.clip = { kept with frags := inserted } := by
    unfold saveClip
    rw [frags, found]
  rw [saved]
  refine ⟨held, ?_, range.2.2, first, length.imp And.left And.left,
    Or.inr ⟨⟨perm, last⟩, range.1, gross, ends⟩⟩
  intro clip among
  rcases mem_cons.mp (perm.mem_iff.mp among) with rfl | old
  · exact range.2.1
  · exact Nat.le_trans (fits clip old) range.1

theorem acceptPiece_offered (marks : Marked trac marked piece) :
    Offered received trac (acceptPiece marked piece) piece := by
  obtain ⟨length, last, frags, first⟩ := marks
  rcases acceptPiece_cases marked small with
    ⟨same, contradicts⟩ | ⟨same, more, inside⟩ | ⟨same, more, notLast, longer⟩ |
      ⟨same, ends, longer⟩
  · have clips : marked.clips = trac.clips := congrArg (fun asm => asm.tree.toList) frags
    rw [same]
    refine ⟨frags ▸ before, ?_, length ▸ total, first, Or.inl length,
      Or.inl ⟨clips, last, length, ?_⟩⟩
    · rw [clips, length]
      exact fits
    · unfold Contradicts at contradicts ⊢
      rw [length, last] at contradicts
      exact contradicts
  · rw [same]
    refine saveClip_offered before fits total positive separate small member frags first ?_ ?_ ?_
    · simp [last, more]
    · exact Or.inl ⟨length, length ▸ inside⟩
    · exact fun set => Or.inl ⟨last ▸ set, length⟩
  · rw [same]
    refine saveClip_offered before fits total positive separate small member frags first ?_ ?_ ?_
    · simp [last, more]
    · exact Or.inr ⟨rfl, length ▸ longer⟩
    · simp [notLast]
  · rw [same]
    refine saveClip_offered before fits total positive separate small member frags first ?_ ?_ ?_
    · simp [ends]
    · exact Or.inr ⟨rfl, length ▸ longer⟩
    · exact fun _ => Or.inr ⟨ends, rfl⟩

end

/-- A fragment that settles the datagram leaves it whole, and any other one
leaves its tracker sound. -/
theorem acceptPiece_settled (sound : Sound received trac)
    (acceptable : Acceptable trac piece) (small : piece.start < 65536)
    (member : piece ∈ received) (marks : Marked trac marked piece)
    (settles : Settles trac piece header) :
    Settled received header (acceptPiece marked piece) := by
  have offered := acceptPiece_offered sound.held sound.within sound.bounded
    acceptable.positive acceptable.separate small member marks
  have unsettled := sound.unsettled
  have notWhole := acceptable.notWhole
  generalize acceptPiece marked piece = result at offered ⊢
  obtain ⟨held, within, bounded, first, _, refused | taken⟩ := offered
  · obtain ⟨clips, last, length, reason, _⟩ := refused
    apply Sound.settled
    refine ⟨held, within, bounded, ?_, ?_, ?_⟩
    · rw [clips, last]
      exact fun flags => sound.begun (by grind)
    · rw [last, length]
      exact sound.final
    · rintro ⟨isFirst, isLast⟩
      rw [last] at isLast
      have zero : piece.start = 0 := by grind
      obtain ⟨_, beyond⟩ := reason (notWhole zero)
      obtain ⟨sum, _⟩ := settles (Or.inr zero) (Or.inl isLast)
      rw [if_pos isLast] at sum
      unfold Piece.stop at beyond
      omega
  · obtain ⟨added, longer, gross, ends⟩ := taken
    have final : result.last = true →
        ∃ final ∈ received, final.more = false ∧ final.stop = result.length := by
      intro last
      rcases ends last with ⟨before, same⟩ | ⟨ends, stop⟩
      · rw [same]
        exact sound.final before
      · exact ⟨piece, member, ends, stop⟩
    constructor
    · intro both
      have settled : trac.clips ≠ [] ∧ trac.frags.gross.toNat + piece.size = result.length ∧
          header + result.length < 65536 := by
        rcases ends both.2 with ⟨isLast, same⟩ | ⟨isFinal, stop⟩
        · have sum := settles (first.mp both.1) (Or.inl isLast)
          rw [if_pos isLast, ← same] at sum
          exact ⟨sound.begun (Or.inr isLast), sum⟩
        · have isFirst : trac.first = true := by grind
          have notLast : ¬ trac.last = true := fun isLast => unsettled ⟨isFirst, isLast⟩
          have sum := settles (Or.inl isFirst) (Or.inr ⟨isFinal, stop ▸ longer⟩)
          rw [if_neg notLast, stop] at sum
          exact ⟨sound.begun (Or.inl isFirst), sum⟩
      obtain ⟨nonempty, sum, room⟩ := settled
      have filled : 0 + total Clip.size result.clips = result.length := by
        rw [FragTrac.clips, ← held.gross, gross, Nat.zero_add]
        exact sum
      have chain := chain_of_total held.apart (fun clip _ => Nat.zero_le clip.start) within filled
      have count : 1 < result.clips.length := by
        rw [added.perm.length_eq]
        exact Nat.succ_lt_succ (length_pos_iff.mpr nonempty)
      exact ⟨held, ⟨chain, held.filled, Nat.lt_of_le_of_lt (Nat.le_add_left _ _) room⟩,
        count, room, final both.2⟩
    · intro notBoth
      refine ⟨held, within, bounded, fun _ empty => ?_, final, notBoth⟩
      have perm := added.perm
      rw [empty] at perm
      exact not_perm_nil_cons _ _ perm

end Accepting

theorem ipPiece_start (p : Ip4Packet) :
    (ipPiece p).start = (p.fragOff &&& 0x1fff).toNat * 8 ∧ (p.fragOff &&& 0x1fff).toNat ≤ 8191 := by
  have bound : (p.fragOff &&& 0x1fff).toNat ≤ 8191 := by
    exact Nat.and_le_right
  refine ⟨?_, bound⟩
  change ((p.fragOff &&& 0x1fff).toUInt32 <<< 3).toNat = _
  change (p.fragOff &&& 0x1fff).toNat <<< 3 % 4294967296 = _
  omega

theorem ipPiece_small (p : Ip4Packet) : (ipPiece p).start < 65536 := by
  obtain ⟨start, bound⟩ := ipPiece_start p
  omega

theorem ipPiece_notWhole {p : Ip4Packet} (fragment : isFragment p = true)
    (zero : (ipPiece p).start = 0) : (ipPiece p).more = true := by
  have offset : p.fragOff &&& 0x1fff = 0 := by
    apply UInt16.toNat_inj.mp
    have value := (ipPiece_start p).1
    change _ = 0
    omega
  have set : p.fragOff &&& (0x1fff ||| 0x2000) ≠ 0 := of_decide_eq_true fragment
  apply decide_eq_true
  intro cleared
  apply set
  apply UInt16.toNat_inj.mp
  rw [UInt16.toNat_and, UInt16.toNat_or, Nat.and_or_distrib_left,
    ← UInt16.toNat_and, ← UInt16.toNat_and, offset, cleared]
  rfl

theorem ip6Piece_small (order : ByteOrder) (p : Ip6Packet) :
    (ip6Piece order p).start < 65536 := by
  change ((p.fragOff &&& ip6fOffMask order).toUInt32).toNat < 65536
  exact UInt16.toNat_lt _

section Holding

variable {received : List Piece} {trac : FragTrac}

theorem teardropCheck_eq_false {piece clip : Clip}
    (smallPiece : piece.start < 65536) (smallClip : clip.start < 65536) :
    teardropCheck piece clip = false ↔ Segments.Separate Clip.start Clip.size piece clip := by
  unfold teardropCheck
  rw [u32Overlap_eq_false, Clip.toNat_stop smallPiece, Clip.toNat_stop smallClip]
  exact Or.comm

theorem marked_of_zero {piece : Piece} {zeroed : FragTrac}
    (length : zeroed.length = trac.length) (last : zeroed.last = trac.last)
    (frags : zeroed.frags = trac.frags) (first : zeroed.first = true) :
    Marked trac (if piece.clip.seq = 0 then zeroed else trac) piece := by
  by_cases zero : piece.clip.seq = 0
  · have start : piece.start = 0 := congrArg UInt32.toNat zero
    rw [if_pos zero]
    exact ⟨length, last, frags, by simp [start, first]⟩
  · have start : piece.start ≠ 0 := fun same => zero (UInt32.toNat_inj.mp same)
    rw [if_neg zero]
    exact ⟨rfl, rfl, rfl, by simp [start]⟩

/-- An IPv4 fragment is dropped when it is empty or overlaps a held clip, and
accepted or refused by its end otherwise. -/
theorem ipfragHold_cases (p : Ip4Packet) (small : ∀ clip ∈ trac.clips, clip.start < 65536) :
    ((ipfragHold trac p).1 = trac ∧ ((ipPiece p).size = 0 ∨ ∃ clip ∈ trac.clips,
        ¬ Segments.Separate Clip.start Clip.size (ipPiece p).clip clip)) ∨
    (0 < (ipPiece p).size ∧
      (∀ clip ∈ trac.clips, Segments.Separate Clip.start Clip.size (ipPiece p).clip clip) ∧
      ∃ marked, Marked trac marked (ipPiece p) ∧
        (ipfragHold trac p).1 = acceptPiece marked (ipPiece p)) := by
  unfold ipfragHold
  by_cases empty : (ipPiece p).clip.len = 0
  · simp only [if_pos empty]
    refine Or.inl ⟨trivial, Or.inl ?_⟩
    have zero := (ipPiece p).clip.toNat_len
    rw [empty] at zero
    exact zero.symm
  · simp only [if_neg empty]
    have agrees := fun clip (among : clip ∈ trac.clips) =>
      teardropCheck_eq_false (ipPiece_small p) (small clip among)
    by_cases overlap : (trac.frags.tree.toList.any (teardropCheck (ipPiece p).clip)) = true
    · simp only [if_pos overlap]
      obtain ⟨clip, among, hit⟩ := any_eq_true.mp overlap
      refine Or.inl ⟨trivial, Or.inr ⟨clip, among, ?_⟩⟩
      intro separate
      rw [(agrees clip among).mpr separate] at hit
      cases hit
    · simp only [if_neg overlap]
      have positive : 0 < (ipPiece p).size := by
        apply Nat.pos_of_ne_zero
        intro zero
        apply empty
        apply UInt32.toNat_inj.mp
        rw [Clip.toNat_len]
        exact zero
      have marks := @marked_of_zero trac (ipPiece p) { trac with first := true } rfl rfl rfl rfl
      refine Or.inr ⟨positive, ?_, _, marks, rfl⟩
      intro clip among
      apply (agrees clip among).mp
      cases hit : teardropCheck (ipPiece p).clip clip with
      | false => rfl
      | true => exact absurd (any_eq_true.mpr ⟨clip, among, hit⟩) overlap

theorem ip6fragHold_eq (order : ByteOrder) (trac : FragTrac) (p : Ip6Packet) :
    ∃ marked, Marked trac marked (ip6Piece order p) ∧
      (ip6fragHold order trac p).1 = acceptPiece marked (ip6Piece order p) :=
  ⟨_, @marked_of_zero trac (ip6Piece order p)
    { trac with first := true, nextHeader := p.fragNxt } rfl rfl rfl rfl, rfl⟩

theorem ipfragHold_settled {p : Ip4Packet} (sound : Sound received trac)
    (fragment : isFragment p = true) (member : ipPiece p ∈ received)
    (settles : Acceptable trac (ipPiece p) → Settles trac (ipPiece p) p.l4) :
    Settled received p.l4 (ipfragHold trac p).1 := by
  rcases ipfragHold_cases p sound.held.small with
    ⟨same, _⟩ | ⟨positive, separate, marked, marks, same⟩
  · rw [same]
    exact sound.settled
  · have acceptable : Acceptable trac (ipPiece p) := ⟨positive, separate, ipPiece_notWhole fragment⟩
    rw [same]
    exact acceptPiece_settled sound acceptable (ipPiece_small p) member marks (settles acceptable)

theorem ip6fragHold_settled {order : ByteOrder} {p : Ip6Packet} {header : Nat}
    (sound : Sound received trac) (acceptable : Acceptable trac (ip6Piece order p))
    (member : ip6Piece order p ∈ received) (settles : Settles trac (ip6Piece order p) header) :
    Settled received header (ip6fragHold order trac p).1 := by
  obtain ⟨marked, marks, same⟩ := ip6fragHold_eq order trac p
  rw [same]
  exact acceptPiece_settled sound acceptable (ip6Piece_small order p) member marks settles

end Holding

section Assembling

variable {received : List Piece} {header : Nat} {trac : FragTrac}

def assembledTarget (trac : FragTrac) (header : Nat) (buffer : Nat → UInt8) : AsmTarget :=
  { seq := 0
    len := UInt32.ofNat trac.length
    buffer := Segments.copyAll Clip.start Clip.data
      (fun index => buffer (header + index)) trac.clips }

theorem room_eq (small : header ≤ 65536) :
    (UInt32.ofNat dpiMaxPktLen - UInt32.ofNat header).toNat = 65536 - header := by
  have low : (UInt32.ofNat header).toNat = header := toNat_ofNat_long (by omega)
  have high : (UInt32.ofNat dpiMaxPktLen).toNat = 65536 := rfl
  rw [UInt32.toNat_sub]
  omega

theorem fragAssemble_chained (run : Chained 0 trac.length trac.clips)
    (several : 1 < trac.clips.length) (fits : header + trac.length ≤ 65536) (buffer : Nat → UInt8) :
    fragAssemble trac header buffer = (.ok, assembledTarget trac header buffer) := by
  apply asmConstruct_chained run several rfl
  rw [room_eq (by omega)]
  omega

variable {Address Ident : Type}

theorem assembled_payload (bounded : trac.length < 131072)
    (p : Packet Address Ident) (buffer : Nat → UInt8) :
    (p.assembled header (assembledTarget trac header buffer)).payload =
      (range ((header + trac.length) % 65536 - header % 65536)).map
        (assembledTarget trac header buffer).buffer := by
  unfold Packet.assembled
  simp only
  rw [assembledTarget, toNat_ofNat_long bounded]

theorem assembled_length (bounded : trac.length < 131072)
    (p : Packet Address Ident) (buffer : Nat → UInt8) :
    (p.assembled header (assembledTarget trac header buffer)).payload.length =
      (header + trac.length) % 65536 - header % 65536 := by
  rw [assembled_payload bounded, length_map, length_range]

theorem assembled_flatMap (run : Chained 0 trac.length trac.clips)
    (fits : header + trac.length < 65536) (p : Packet Address Ident) (buffer : Nat → UInt8) :
    (p.assembled header (assembledTarget trac header buffer)).payload =
      trac.clips.flatMap Clip.data := by
  have count : (header + trac.length) % 65536 - header % 65536 = trac.length - 0 := by omega
  rw [assembled_payload run.bounded, count, range_eq_range']
  exact Segments.copyAll_flatMap run.chain _

theorem assembled_byte (run : Chained 0 trac.length trac.clips)
    (p : Packet Address Ident) (buffer : Nat → UInt8) {index : Nat}
    (below : index < (p.assembled header (assembledTarget trac header buffer)).payload.length) :
    ∃ clip ∈ trac.clips, (clip.start ≤ index ∧ index < clip.start + clip.size) ∧
      clip.data[index - clip.start]? =
        (p.assembled header (assembledTarget trac header buffer)).payload[index]?
        ∧
      ∀ other ∈ trac.clips, other.start ≤ index ∧ index < other.start + other.size →
          other = clip := by
  rw [assembled_length run.bounded] at below
  rw [assembled_payload run.bounded]
  obtain ⟨clip, among, covers, byte⟩ := Segments.copyAll_covered run.chain
    (fun index => buffer (header + index)) (Nat.zero_le index)
    (Nat.lt_of_lt_of_le below (by omega))
  refine ⟨clip, among, covers, ?_, ?_⟩
  · rw [getElem?_map, getElem?_range below]
    exact byte
  · intro other otherMember otherCovers
    exact run.chain.apart.unique otherMember among otherCovers covers

theorem assembled_complete (ready : Ready received header trac) (p : Packet Address Ident)
    (buffer : Nat → UInt8) :
    Complete received (p.assembled header (assembledTarget trac header buffer)).payload := by
  have fits := ready.fits
  have run := ready.run.chained
  have length : (p.assembled header (assembledTarget trac header buffer)).payload.length =
      trac.length := by
    rw [assembled_length run.bounded]
    omega
  constructor
  · rw [length]
    exact ready.final
  · intro index below
    obtain ⟨clip, among, covers, byte, _⟩ := assembled_byte run p buffer below
    obtain ⟨piece, inside, rfl⟩ := ready.held.known clip among
    exact ⟨piece, inside, covers.1, byte⟩

/-- What is assembled behind the header is reported and the tracker removed;
otherwise the tracker stays. -/
def Constructs (header : Nat)
    (construct : FragTrac → Packet Address Ident → Construction Address Ident)
    (p : Packet Address Ident) : Prop :=
  ∀ trac, match fragAssemble trac header p.defragData with
    | (.ok, target) => (construct trac p).ret = false ∧ (construct trac p).removed = true ∧
        (construct trac p).packet.payload = (p.assembled header target).payload
    | _ => (construct trac p).ret = true ∧ (construct trac p).removed = false

theorem Constructs.ready {p : Packet Address Ident}
    {construct : FragTrac → Packet Address Ident → Construction Address Ident}
    (constructs : Constructs header construct p) (ready : Ready received header trac) :
    (construct trac p).removed = true ∧ Complete received (construct trac p).packet.payload := by
  have built := constructs trac
  rw [fragAssemble_chained ready.run.chained ready.several (Nat.le_of_lt ready.fits)] at built
  obtain ⟨_, removed, payload⟩ := built
  rw [payload]
  exact ⟨removed, assembled_complete ready p _⟩

end Assembling

end NeuVector.DataPath
