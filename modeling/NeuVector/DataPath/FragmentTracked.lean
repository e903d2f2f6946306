import NeuVector.DataPath.FragmentRuns

/-!
# Trackers in every run

Whatever fragments arrive, the clips of a tracker lie inside its length, and
a tracker that has seen a last fragment holds a clip that ends there.  A
datagram assembled from clips that lie apart therefore has no gap: its bytes
are the contents of the clips in their order.
-/

namespace NeuVector.DataPath

open Library List

/-- What every tracker satisfies whose clips were separate when they came. -/
structure Tracked (received : List Piece) (trac : FragTrac) : Prop where
  held : Held received trac.frags
  within : ∀ clip ∈ trac.clips, clip.start + clip.size ≤ trac.length
  bounded : trac.length < 131072
  final : trac.last = true → ∃ piece ∈ received,
    piece.more = false ∧ piece.stop = trac.length ∧ piece.clip ∈ trac.clips

theorem tracked_new (received : List Piece) : Tracked received .new where
  held := held_new received
  within := fun _ member => absurd member (not_mem_nil)
  bounded := by decide
  final := fun last => by simp [FragTrac.new] at last

theorem Tracked.mono {received more : List Piece} {trac : FragTrac}
    (tracked : Tracked received trac) (subset : received ⊆ more) :
    Tracked more trac :=
  { tracked with
    held := tracked.held.mono subset
    final := fun last => by
      obtain ⟨piece, inside, property⟩ := tracked.final last
      exact ⟨piece, subset inside, property⟩ }

/-- What a fragment does to a tracker, whether it is added or refused. -/
structure Accepted (received : List Piece) (trac result : FragTrac) (piece : Piece) : Prop where
  tracked : Tracked received result
  first : result.first = true ↔ trac.first = true ∨ piece.start = 0
  length : result.length = trac.length ∨ result.length = piece.stop
  outcome : Added trac result piece ∨
    result.clips = trac.clips ∧ result.last = trac.last ∧ Contradicts trac piece

section Accepting

variable {received : List Piece} {trac marked : FragTrac} {piece : Piece}

section

variable (tracked : Tracked received trac)
include tracked

theorem acceptPiece_tracked (positive : 0 < piece.size)
    (separate : ∀ clip ∈ trac.clips, Segments.Separate Clip.start Clip.size piece.clip clip)
    (small : piece.start < 65536) (member : piece ∈ received) (marks : Marked trac marked piece) :
    Accepted received trac (acceptPiece marked piece) piece := by
  obtain ⟨held, within, bounded, first, length, outcome⟩ := acceptPiece_offered tracked.held
    tracked.within tracked.bounded positive separate small member marks
  generalize acceptPiece marked piece = result at *
  rcases outcome with ⟨clips, last, same, contradicts⟩ | ⟨added, _, _, ends⟩
  · refine ⟨⟨held, within, bounded, ?_⟩, first, length, Or.inr ⟨clips, last, contradicts⟩⟩
    rw [clips, last, same]
    exact tracked.final
  · refine ⟨⟨held, within, bounded, ?_⟩, first, length, Or.inl added⟩
    intro last
    rcases ends last with ⟨before, same⟩ | ⟨final, stop⟩
    · obtain ⟨earlier, known, ends, stop, among⟩ := tracked.final before
      exact ⟨earlier, known, ends, stop.trans same.symm,
        added.perm.mem_iff.mpr (mem_cons_of_mem _ among)⟩
    · exact ⟨piece, member, final, stop, added.perm.mem_iff.mpr mem_cons_self⟩

theorem ipfragHold_tracked {p : Ip4Packet} (member : ipPiece p ∈ received) :
    ((ipfragHold trac p).1 = trac ∧ ((ipPiece p).size = 0 ∨ ∃ clip ∈ trac.clips,
        ¬ Segments.Separate Clip.start Clip.size (ipPiece p).clip clip)) ∨
    Accepted received trac (ipfragHold trac p).1 (ipPiece p) := by
  rcases ipfragHold_cases p tracked.held.small with
    dropped | ⟨positive, separate, marked, marks, same⟩
  · exact Or.inl dropped
  · rw [same]
    exact Or.inr (acceptPiece_tracked tracked positive separate (ipPiece_small p) member marks)

theorem tracked_ipfragHold {p : Ip4Packet} (member : ipPiece p ∈ received) :
    Tracked received (ipfragHold trac p).1 := by
  rcases ipfragHold_tracked tracked member with ⟨same, _⟩ | accepted
  · rw [same]
    exact tracked
  · exact accepted.tracked

theorem tracked_ip6fragHold {order : ByteOrder} {p : Ip6Packet}
    (positive : 0 < (ip6Piece order p).size)
    (separate : ∀ clip ∈ trac.clips,
      Segments.Separate Clip.start Clip.size (ip6Piece order p).clip clip)
    (member : ip6Piece order p ∈ received) :
    Accepted received trac (ip6fragHold order trac p).1 (ip6Piece order p) := by
  obtain ⟨marked, marks, same⟩ := ip6fragHold_eq order trac p
  rw [same]
  exact acceptPiece_tracked tracked positive separate (ip6Piece_small order p) member marks

end

end Accepting

section Assembling

variable {received : List Piece} {header : Nat} {trac : FragTrac}

theorem Tracked.rebuilt (tracked : Tracked received trac)
    (last : trac.last = true) {buffer : Nat → UInt8} {cons : AsmTarget}
    (built : fragAssemble trac header buffer = (.ok, cons)) :
    Chained 0 trac.length trac.clips ∧ (header ≤ 65536 → header + trac.length ≤ 65536) ∧
      cons = assembledTarget trac header buffer := by
  obtain ⟨piece, _, _, stop, among⟩ := tracked.final last
  have positive := tracked.held.filled piece.clip among
  have bounded := tracked.bounded
  have ends : piece.clip.start + piece.clip.size = trac.length := stop
  have must : (UInt32.ofNat trac.length - 1).toNat = trac.length - 1 := by
    have one : (1 : UInt32).toNat = 1 := rfl
    rw [UInt32.toNat_sub, toNat_ofNat_long bounded]
    omega
  obtain ⟨high, run, several, fits⟩ := asmConstruct_ok tracked.held.apart
    tracked.held.filled tracked.within bounded must rfl built
  have nonempty : trac.clips ≠ [] := ne_nil_of_mem among
  have reaches := run.chain.upper piece.clip among
  obtain ⟨topmost, topmostMember, top⟩ := run.chain.ends nonempty
  have inside := tracked.within topmost topmostMember
  have same : high = trac.length := by omega
  subst same
  refine ⟨run, ?_, ?_⟩
  · intro small
    have room : trac.length ≤ (UInt32.ofNat dpiMaxPktLen - UInt32.ofNat header).toNat := fits
    rw [room_eq small] at room
    omega
  · have target := asmConstruct_chained run several rfl fits (UInt32.ofNat trac.length - 1)
    exact (Prod.mk.inj (built.symm.trans target)).2

end Assembling

section Maps

variable {Address Ident : Type} [DecidableEq Address]
variable {map : RcuMap (FragKey Address) FragTrac} {key : FragKey Address}
variable {before after : FragKey Address → List Piece}

def MapTracked (received : FragKey Address → List Piece)
    (map : RcuMap (FragKey Address) FragTrac) : Prop :=
  ∀ key trac, map.lookup key = some trac → Tracked (received key) trac

theorem MapTracked.mono (tracked : MapTracked before map)
    (subset : ∀ key, before key ⊆ after key) : MapTracked after map :=
  fun key trac found => (tracked key trac found).mono (subset key)

theorem MapTracked.del (tracked : MapTracked before map)
    (key : FragKey Address) : MapTracked before (map.del key) :=
  fun other trac found => tracked other trac (RcuMap.lookup_of_del found)

theorem MapTracked.tracFor (tracked : MapTracked before map)
    (key : FragKey Address) : Tracked (before key) (tracFor map key) :=
  tracFor_elim (tracked_new _) (tracked key)

variable {hold : FragTrac → Packet Address Ident → FragTrac × Bool}
variable {construct : FragTrac → Packet Address Ident →
  Construction Address Ident}
variable {p : Packet Address Ident}

theorem trackFragment_tracked (tracked : MapTracked before map)
    (held : Tracked (before key) (hold (tracFor map key) p).1) :
    MapTracked before (trackFragment hold construct map key p).map := by
  intro other trac found
  by_cases same : other = key
  · subst same
    rw [lookup_trackFragment_self] at found
    split at found
    · cases found
    · cases found
      exact held
  · rw [lookup_trackFragment_of_ne same] at found
    exact tracked other trac found

theorem trackFragment_rebuilt {header : Nat} {received : List Piece}
    (constructs : Constructs header construct p)
    (tracked : Tracked received (hold (tracFor map key) p).1)
    (rebuilt : (trackFragment hold construct map key p).ret = 0) :
    let trac := (hold (tracFor map key) p).1
    trac.last = true ∧ Chained 0 trac.length trac.clips ∧
      (header ≤ 65536 → header + trac.length ≤ 65536) ∧
      (trackFragment hold construct map key p).packet.payload =
        (p.assembled header (assembledTarget trac header p.defragData)).payload := by
  rcases @trackFragment_result _ _ _ map key hold construct p with
    ⟨_, last, ret, packet⟩ | ⟨_, ret⟩
  · have zero : intOfBool (construct (hold (tracFor map key) p).1 p).ret = 0 :=
      ret.symm.trans rebuilt
    have outcome := constructs (hold (tracFor map key) p).1
    split at outcome
    next target built =>
      obtain ⟨run, fits, rfl⟩ := tracked.rebuilt last built
      exact ⟨last, run, fits, (congrArg Packet.payload packet).trans outcome.2.2⟩
    · rw [outcome.1] at zero
      cases zero
  · have zero : (-1 : Int) = 0 := ret.symm.trans rebuilt
    cases zero

end Maps

end NeuVector.DataPath
