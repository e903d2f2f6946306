import NeuVector.DataPath.FragmentTracked

/-!
# Reassembly of IPv6 fragments

`ip6frag_hold` is a copy of `ipfrag_hold` without the checks for empty and for
overlapping fragments.  In runs without such fragments a rebuilt packet is the
concatenation of its fragments.  Otherwise the clip that is copied later wins.
-/

namespace NeuVector.DataPath

open Library

def heldBy6 (order : ByteOrder) (state : FragState) (p : Ip6Packet) : FragTrac :=
  (ip6fragHold order (tracFor state.ip6 (ip6Key p)) p).1

/-- An IPv6 fragment is not empty, overlaps no fragment that is held, and the
rebuilt packet cannot have a length of exactly 65536 bytes. -/
@[mk_iff]
structure Clean6 (order : ByteOrder) (trac : FragTrac) (p : Ip6Packet) : Prop where
  behind : p.l3 + 40 ≤ p.l4
  positive : 0 < (ip6Piece order p).size
  separate : ∀ clip ∈ trac.clips,
    Segments.Separate Clip.start Clip.size (ip6Piece order p).clip clip
  lengthFits : p.l3 + 40 + trac.length ≠ 65536
  stopFits : p.l3 + 40 + (ip6Piece order p).stop ≠ 65536

/-- The clips are among some fragments, and a last one of them ends where the
payload does. -/
def FromPieces (pieces : List Piece) (clips : List Clip) (payload : List UInt8) : Prop :=
  (∀ clip ∈ clips, ∃ piece ∈ pieces, piece.clip = clip) ∧
    ∃ piece ∈ pieces, piece.more = false ∧ piece.stop = payload.length

instance (pieces : List Piece) (clips : List Clip) (payload : List UInt8) :
    Decidable (FromPieces pieces clips payload) := inferInstanceAs (Decidable (_ ∧ _))

instance (order : ByteOrder) (trac : FragTrac) (p : Ip6Packet) : Decidable (Clean6 order trac p) :=
  decidable_of_iff' _ (clean6_iff order trac p)

def CleanStep (order : ByteOrder) (state : FragState) : FragEvent → Prop
  | .ip6 p => pseudoHeader order state.ip6 p = false → Clean6 order (tracFor state.ip6 (ip6Key p)) p
  | _ => True

instance (order : ByteOrder) (state : FragState) :
    (event : FragEvent) → Decidable (CleanStep order state event)
  | .ip4 _ => instDecidableTrue
  | .ip6 _ => instDecidableForall
  | .release4 _ => instDecidableTrue
  | .release6 _ => instDecidableTrue

def CleanRun (order : ByteOrder) (state : FragState) : List FragEvent → Prop
  | [] => True
  | event :: rest =>
    CleanStep order state event ∧ CleanRun order (fragStep order state event).1 rest

instance (order : ByteOrder) (state : FragState) (events : List FragEvent) :
    Decidable (CleanRun order state events) := by
  induction events generalizing state with
  | nil => exact instDecidableTrue
  | cons event rest induction =>
    have := induction (fragStep order state event).1
    exact instDecidableAnd

theorem CleanRun.split {order : ByteOrder} {state : FragState} {before after : List FragEvent}
    {event : FragEvent} (clean : CleanRun order state (before ++ event :: after)) :
    CleanRun order state before ∧ CleanStep order (fragRun order state before) event := by
  induction before generalizing state with
  | nil => exact ⟨trivial, clean.1⟩
  | cons head tail induction =>
    obtain ⟨cleanTail, cleanEvent⟩ := induction clean.2
    exact ⟨⟨clean.1, cleanTail⟩, cleanEvent⟩

section CleanRuns

variable {order : ByteOrder} {events : List FragEvent} {state : FragState} {p : Ip6Packet}

theorem heldBy6_accepted (tracked : MapTracked (received6 order events) state.ip6)
    (clean : Clean6 order (tracFor state.ip6 (ip6Key p)) p) :
    Accepted (received6 order (events ++ [.ip6 p]) (ip6Key p))
      (tracFor state.ip6 (ip6Key p)) (heldBy6 order state p) (ip6Piece order p) := by
  have later := tracked.mono (received6_subset events order [.ip6 p])
  exact tracked_ip6fragHold (later.tracFor (ip6Key p)) clean.positive
    clean.separate (mem_received6 events p)

theorem fragStep_clean {event : FragEvent} (tracked : MapTracked (received6 order events) state.ip6)
    (clean : CleanStep order state event) :
    MapTracked (received6 order (events ++ [event])) (fragStep order state event).1.ip6 := by
  have later := tracked.mono (received6_subset events order [event])
  cases event with
  | ip4 p =>
    cases fragment : isFragment p with
    | false =>
      rw [fragStep_ip4_whole fragment]
      exact later
    | true =>
      rw [fragStep_ip4 fragment]
      exact later
  | ip6 p =>
    change MapTracked _ (dpiIpv6Defrag order state.ip6 p).map
    cases pseudo : pseudoHeader order state.ip6 p with
    | true =>
      unfold dpiIpv6Defrag
      rw [pseudo]
      exact later
    | false =>
      rw [dpiIpv6Defrag_tracked pseudo]
      apply trackFragment_tracked later
      exact (heldBy6_accepted tracked (clean pseudo)).tracked
  | release4 key => exact later
  | release6 key => exact later.del key

theorem fragStep_rebuilt6 {received : List Piece} {outcome : FragOutcome}
    (notPseudo : pseudoHeader order state.ip6 p = false) (behind : p.l3 + 40 ≤ p.l4)
    (tracked : Tracked received (heldBy6 order state p))
    (result : (fragStep order state (.ip6 p)).2 = some outcome) (rebuilt : outcome.ret = 0) :
    (heldBy6 order state p).last = true ∧
      Chained 0 (heldBy6 order state p).length (heldBy6 order state p).clips ∧
      p.l3 + 40 + (heldBy6 order state p).length ≤ 65536 ∧
      outcome.payload = (p.assembled (p.l3 + 40) (assembledTarget
        (heldBy6 order state p) (p.l3 + 40) p.defragData)).payload := by
  have small := p.bounded
  cases result
  rw [dpiIpv6Defrag_tracked notPseudo] at rebuilt ⊢
  obtain ⟨last, run, fits, payload⟩ := trackFragment_rebuilt
    (ip6fragConstruct_constructs p) tracked rebuilt
  exact ⟨last, run, fits (by omega), payload⟩

end CleanRuns

/-- In a run of clean fragments, the fragments from which a packet is rebuilt
do not overlap, and the packet carries them one after the other up to the end
of a last fragment.  If the masks read the fragments of the datagram rightly,
they are those that were sent. -/
theorem ip6_reassembly_unambiguous {order : ByteOrder} {events before after : List FragEvent}
    {p : Ip6Packet} {outcome : FragOutcome} (clean : CleanRun order .empty events)
    (cut : events = before ++ .ip6 p :: after)
    (notPseudo : pseudoHeader order (fragRun order .empty before).ip6 p = false)
    (result : (fragStep order (fragRun order .empty before) (.ip6 p)).2 = some outcome)
    (rebuilt : outcome.ret = 0) :
    let clips := (heldBy6 order (fragRun order .empty before) p).clips
    clips.Pairwise (Segments.Separate Clip.start Clip.size) ∧
      clips.Pairwise (fun first second => first.start < second.start) ∧
      outcome.payload = clips.flatMap Clip.data ∧
      FromPieces (received6 order (before ++ [.ip6 p]) (ip6Key p)) clips outcome.payload ∧
      (FieldsRead order (before ++ [.ip6 p]) (.ip6 p) →
        FromPieces (sent6 (before ++ [.ip6 p]) (ip6Key p)) clips outcome.payload) := by
  subst cut
  obtain ⟨cleanBefore, cleanStep⟩ := clean.split
  have fragment := cleanStep notPseudo
  have tracked : MapTracked (received6 order before) (fragRun order .empty before).ip6 :=
    @fragRun_keeps order .empty (fun events state => MapTracked (received6 order events) state.ip6)
      (CleanRun order) (fun tracked clean => ⟨fragStep_clean tracked clean.1, clean.2⟩) [] before
      (fun _ _ found => by simp [FragState.empty] at found) cleanBefore
  have accepted := heldBy6_accepted tracked fragment
  obtain ⟨last, run, room, contents⟩ := fragStep_rebuilt6 notPseudo
    fragment.behind accepted.tracked result rebuilt
  have fits : p.l3 + 40 + (heldBy6 order (fragRun order .empty before) p).length < 65536 := by
    apply Nat.lt_of_le_of_ne room
    rcases accepted.length with same | same
    · rw [same]
      exact fragment.lengthFits
    · rw [same]
      exact fragment.stopFits
  have held := accepted.tracked.held
  have length : outcome.payload.length =
      (heldBy6 order (fragRun order .empty before) p).length := by
    rw [contents, assembled_length run.bounded]
    omega
  have pieces : FromPieces (received6 order (before ++ [.ip6 p]) (ip6Key p))
      (heldBy6 order (fragRun order .empty before) p).clips outcome.payload := by
    obtain ⟨piece, known, ends, stop, _⟩ := accepted.tracked.final last
    exact ⟨held.known, piece, known, ends, stop.trans length.symm⟩
  refine ⟨held.apart.imp fun ends => Or.inl ends, held.ordered, ?_, pieces, ?_⟩
  · rw [contents]
    exact assembled_flatMap run fits p p.defragData
  · intro read
    have same : received6 order _ _ = sent6 _ _ := receivedWith_eq_sent read
    rw [← same]
    exact pieces

/-- The field of a fragment at the start that is followed by others. -/
def startField : ByteOrder → UInt16
  | .big => 0x0001
  | .little => 0x0100

def pairStart (order : ByteOrder) : Ip6Packet :=
  sampleFragment6 (startField order) 5 8 (by decide)

def pairEnd : Ip6Packet := sampleFragment6 8 6 4 (by decide)

theorem ip6_reassembly_unambiguous_pair :
    CleanRun .little .empty [.ip6 (pairStart .little), .ip6 pairEnd] ∧
      (heldBy6 .little (fragRun .little .empty [.ip6 (pairStart .little)]) pairEnd).clips.Pairwise
        (Segments.Separate Clip.start Clip.size) ∧
      CleanRun .big .empty [.ip6 (pairStart .big), .ip6 pairEnd] ∧
      FromPieces (sent6 [.ip6 (pairStart .big), .ip6 pairEnd] (ip6Key pairEnd))
        (heldBy6 .big (fragRun .big .empty [.ip6 (pairStart .big)]) pairEnd).clips
        (List.replicate 8 5 ++ List.replicate 4 6) :=
  ⟨by decide, (@ip6_reassembly_unambiguous .little [.ip6 (pairStart .little), .ip6 pairEnd]
      [.ip6 (pairStart .little)] [] pairEnd
      { ret := 0, payload := List.replicate 8 5 ++ List.replicate 4 6 }
      (by decide) rfl (by decide) (by decide) rfl).1, by decide,
    (@ip6_reassembly_unambiguous .big [.ip6 (pairStart .big), .ip6 pairEnd]
      [.ip6 (pairStart .big)] [] pairEnd
      { ret := 0, payload := List.replicate 8 5 ++ List.replicate 4 6 }
      (by decide) rfl (by decide) (by decide) rfl).2.2.2.2 fun _ _ _ little => by cases little⟩

/-- The second of two fragments overlaps the first by eight bytes; the packet
is rebuilt all the same, and the bytes of the second replace those of the
first.  And the masks of a little endian host rebuild a packet from fragments
that were sent for other places. -/
theorem ip6_reassembly_takes_overlap :
    (∀ order, ∃ before p outcome, pseudoHeader order (fragRun order .empty before).ip6 p = false ∧
        (fragStep order (fragRun order .empty before) (.ip6 p)).2 = some outcome ∧
        outcome.ret = 0 ∧
        ¬ (heldBy6 order (fragRun order .empty before) p).clips.Pairwise
          (Segments.Separate Clip.start Clip.size) ∧
        outcome.payload = List.replicate 8 5 ++ List.replicate 16 6) ∧
    ∃ first second outcome, CleanRun .little .empty [.ip6 first, .ip6 second] ∧
      (fragStep .little (fragRun .little .empty [.ip6 first]) (.ip6 second)).2 = some outcome ∧
      outcome.ret = 0 ∧ ¬ FromPieces (sent6 [.ip6 first, .ip6 second] (ip6Key second))
        (heldBy6 .little (fragRun .little .empty [.ip6 first]) second).clips outcome.payload := by
  refine ⟨?_, sampleFragment6 0x0100 5 16 (by decide), sampleFragment6 0x0010 6 16 (by decide),
    { ret := 0, payload := List.replicate 16 5 ++ List.replicate 16 6 }, by decide⟩
  intro order
  refine ⟨[.ip6 (sampleFragment6 (startField order) 5 16 (by decide))],
    sampleFragment6 8 6 16 (by decide),
    { ret := 0, payload := List.replicate 8 5 ++ List.replicate 16 6 }, ?_⟩
  cases order <;> decide

end NeuVector.DataPath
