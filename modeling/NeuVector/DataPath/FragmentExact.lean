import NeuVector.DataPath.FragmentTracked

/-!
# Exact reassembly

A datagram cut into fragments is rebuilt from them in any order, duplicates
included, by the fragment that was missing last, and what is rebuilt is its
payload.  The clips of a tracker lie apart whatever arrives.
-/

namespace NeuVector.DataPath

open Library List

/-- The fragment carries a part of the payload and says whether it is the
last one. -/
structure Slice (payload : List UInt8) (piece : Piece) : Prop where
  positive : 0 < piece.size
  inside : piece.stop ≤ payload.length
  data : piece.clip.data = (payload.drop piece.start).take piece.size
  final : piece.more = false ↔ piece.stop = payload.length

/-- The payload is cut into the fragments, listed by their offsets. -/
structure Cut (payload : List UInt8) (pieces : List Piece) : Prop where
  slices : ∀ piece ∈ pieces, Slice payload piece
  chain : Segments.Chain Piece.start Piece.size 0 payload.length pieces
  several : 1 < pieces.length

variable {payload : List UInt8}

theorem Cut.overlapping_eq {pieces : List Piece} (cut : Cut payload pieces)
    {one other : Piece} (oneMember : one ∈ pieces) (otherMember : other ∈ pieces)
    (overlap : ¬ Segments.Separate Clip.start Clip.size one.clip other.clip) :
    one = other := by
  have apart := cut.chain.apart
  have onePositive := (cut.slices one oneMember).positive
  have otherPositive := (cut.slices other otherMember).positive
  have starts : one.start < other.start + other.size ∧ other.start < one.start + one.size := by
    constructor
    · exact Nat.lt_of_not_le fun ends => overlap (Or.inr ends)
    · exact Nat.lt_of_not_le fun ends => overlap (Or.inl ends)
  rcases Nat.le_total one.start other.start with before | after
  · exact apart.unique oneMember otherMember ⟨before, starts.2⟩ ⟨Nat.le_refl _, by omega⟩
  · exact apart.unique oneMember otherMember ⟨Nat.le_refl _, by omega⟩ ⟨after, starts.1⟩

theorem flatMap_slices {clips : List Clip} {low high : Nat}
    (chain : Segments.Chain Clip.start Clip.size low high clips)
    (slices : ∀ clip ∈ clips, clip.data = (payload.drop clip.start).take clip.size) :
    clips.flatMap Clip.data = (payload.drop low).take (high - low) := by
  induction clips generalizing low with
  | nil =>
    have same : low = high := chain
    subst same
    simp
  | cons clip rest induction =>
    have here : clip.start = low := chain.1
    have tail : low + clip.size ≤ high := chain.2.le
    have sizes : high - low = clip.size + (high - (low + clip.size)) := by omega
    obtain ⟨front, later⟩ := List.forall_mem_cons.mp slices
    have back := induction chain.2 later
    rw [flatMap_cons, back, front, here, sizes, take_add, drop_drop]

def heldBy (state : FragState) (p : Ip4Packet) : FragTrac :=
  (ipfragHold (tracFor state.ip4 (ipKey p)) p).1

variable {order : ByteOrder} {state : FragState}

theorem fragStep_tracked {events : List FragEvent} (event : FragEvent)
    (tracked : MapTracked (received4 events) state.ip4) :
    MapTracked (received4 (events ++ [event])) (fragStep order state event).1.ip4 := by
  have later := tracked.mono (received4_subset events [event])
  cases event with
  | ip4 p =>
    cases fragment : isFragment p with
    | false =>
      rw [fragStep_ip4_whole fragment]
      exact later
    | true =>
      rw [fragStep_ip4 fragment]
      apply trackFragment_tracked later
      exact tracked_ipfragHold (later.tracFor (ipKey p)) (mem_received4 events fragment)
  | ip6 p => exact later
  | release4 key => exact later.del key
  | release6 key => exact later

theorem mapTracked_run (order : ByteOrder) (events : List FragEvent) :
    MapTracked (received4 events) (fragRun order .empty events).ip4 :=
  @fragRun_keeps order .empty (fun events state => MapTracked (received4 events) state.ip4)
    (fun _ _ => True) (fun tracked _ => ⟨fragStep_tracked _ tracked, trivial⟩) [] events
    (fun _ _ found => by simp [FragState.empty] at found) trivial

variable {p : Ip4Packet}

theorem heldBy_tracked (order : ByteOrder) (before : List FragEvent)
    (fragment : isFragment p = true) :
    Tracked (received4 (before ++ [.ip4 p]) (ipKey p))
      (heldBy (fragRun order .empty before) p) := by
  have later := (mapTracked_run order before).mono (received4_subset before [.ip4 p])
  exact tracked_ipfragHold (later.tracFor (ipKey p)) (mem_received4 before fragment)

theorem fragStep_rebuilt {received : List Piece} {outcome : FragOutcome}
    (fragment : isFragment p = true) (tracked : Tracked received (heldBy state p))
    (result : (fragStep order state (.ip4 p)).2 = some outcome) (rebuilt : outcome.ret = 0) :
    (heldBy state p).last = true ∧ Chained 0 (heldBy state p).length (heldBy state p).clips ∧
      outcome.payload = (p.assembled p.l4
        (assembledTarget (heldBy state p) p.l4 p.defragData)).payload := by
  rw [fragStep_ip4 fragment] at result
  cases result
  obtain ⟨last, run, _, payload⟩ := trackFragment_rebuilt
    (ipfragConstruct_constructs p) tracked rebuilt
  exact ⟨last, run, payload⟩

/-- The tracker has kept all fragments of the datagram that arrived. -/
structure Collecting (payload : List UInt8) (received : List Piece) (trac : FragTrac) : Prop where
  tracked : Tracked received trac
  kept : ∀ piece ∈ received, piece.clip ∈ trac.clips
  first : ∀ piece ∈ received, piece.start = 0 → trac.first = true
  last : ∀ piece ∈ received, piece.more = false → trac.last = true
  short : trac.length ≤ payload.length

theorem collecting_new (payload : List UInt8) : Collecting payload [] .new where
  tracked := tracked_new []
  kept := fun _ member => absurd member not_mem_nil
  first := fun _ member => absurd member not_mem_nil
  last := fun _ member => absurd member not_mem_nil
  short := Nat.zero_le _

section Collecting

variable {payload : List UInt8} {pieces received : List Piece}
variable {trac : FragTrac} {p : Ip4Packet}

section

variable (collecting : Collecting payload received trac)
include collecting

section

variable (cut : Cut payload pieces)
include cut

section

variable (genuine : received ⊆ pieces)
include genuine

theorem Collecting.length_eq (last : trac.last = true) : trac.length = payload.length := by
  obtain ⟨final, known, ends, stop, _⟩ := collecting.tracked.final last
  rw [← stop]
  exact (cut.slices final (genuine known)).final.mp ends

theorem Collecting.consistent {piece : Piece} (belongs : piece ∈ pieces) :
    ¬ Contradicts trac piece := by
  rintro ⟨whenMore, whenFinal⟩
  have slice := cut.slices piece belongs
  have short := collecting.short
  have reached := collecting.length_eq cut genuine
  cases more : piece.more with
  | true =>
    obtain ⟨last, beyond⟩ := whenMore more
    have inside := slice.inside
    rw [reached last] at beyond
    omega
  | false =>
    have stop := slice.final.mp more
    rcases whenFinal more with less | ⟨last, differs⟩
    · omega
    · rw [reached last] at differs
      exact differs stop

theorem Collecting.hold (belongs : ipPiece p ∈ pieces) :
    Collecting payload (received ++ [ipPiece p]) (ipfragHold trac p).1 := by
  have slice := cut.slices _ belongs
  have mono : received ⊆ received ++ [ipPiece p] := subset_append_left _ _
  have member : ipPiece p ∈ received ++ [ipPiece p] := by simp
  have split : ∀ {property : Piece → Prop}, property (ipPiece p) →
      (∀ piece ∈ received, property piece) →
      ∀ piece ∈ received ++ [ipPiece p], property piece := by
    intro property new old piece among
    rcases mem_append.mp among with before | here
    · exact old piece before
    · rw [mem_singleton.mp here]
      exact new
  rcases ipfragHold_tracked (collecting.tracked.mono mono) member with
    ⟨same, empty | ⟨clip, among, overlap⟩⟩ | accepted
  · exact absurd empty (Nat.ne_of_gt slice.positive)
  · obtain ⟨piece, known, sameClip⟩ := collecting.tracked.held.known clip among
    subst sameClip
    have again : ipPiece p = piece := cut.overlapping_eq belongs (genuine known) overlap
    have known : ipPiece p ∈ received := again ▸ known
    rw [same]
    exact
      { tracked := collecting.tracked.mono mono
        kept := split (collecting.kept _ known) collecting.kept
        first := split (collecting.first _ known) collecting.first
        last := split (collecting.last _ known) collecting.last
        short := collecting.short }
  · rcases accepted.outcome with added | ⟨_, _, contradicts⟩
    · exact
        { tracked := accepted.tracked
          kept := split (added.perm.mem_iff.mpr mem_cons_self)
            fun piece known => added.perm.mem_iff.mpr
              (mem_cons_of_mem _ (collecting.kept piece known))
          first := split (fun zero => accepted.first.mpr (Or.inr zero))
            fun piece known zero => accepted.first.mpr (Or.inl (collecting.first piece known zero))
          last := split (fun ends => added.last.mpr (Or.inr ends))
            fun piece known ends => added.last.mpr (Or.inl (collecting.last piece known ends))
          short := by
            rcases accepted.length with same | stop
            · rw [same]
              exact collecting.short
            · rw [stop]
              exact slice.inside }
    · exact absurd contradicts (collecting.consistent cut genuine belongs)

theorem Collecting.not_built {missing : Piece} (belongs : missing ∈ pieces)
    (fresh : missing ∉ received) (last : trac.last = true) :
    (ipfragConstruct trac p).removed = false := by
  have outcome := ipfragConstruct_constructs p trac
  split at outcome
  next target built =>
    exfalso
    obtain ⟨run, _⟩ := collecting.tracked.rebuilt last built
    have slice := cut.slices missing belongs
    have positive := slice.positive
    have inside : missing.start + missing.size ≤ payload.length := slice.inside
    have below : missing.start < trac.length := by
      rw [collecting.length_eq cut genuine last]
      omega
    obtain ⟨clip, among, covers, _⟩ := Segments.copyAll_covered run.chain
      (fun _ => 0) (Nat.zero_le missing.start) below
    obtain ⟨piece, known, same⟩ := collecting.tracked.held.known clip among
    subst same
    have equal := cut.chain.apart.unique (genuine known) belongs
      covers ⟨Nat.le_refl _, by omega⟩
    exact fresh (equal ▸ known)
  · exact outcome.2

theorem Collecting.complete (all : pieces ⊆ received) :
    trac.first = true ∧ trac.last = true ∧ trac.length = payload.length ∧
      Chained 0 trac.length trac.clips ∧ 1 < trac.clips.length := by
  have nonempty : pieces ≠ [] := by
    intro empty
    have several := cut.several
    simp [empty] at several
  have last : trac.last = true := by
    obtain ⟨final, member, stop⟩ := cut.chain.ends nonempty
    exact collecting.last final (all member) ((cut.slices final member).final.mpr stop)
  have first : trac.first = true := by
    obtain ⟨head, rest, same⟩ := exists_cons_of_ne_nil nonempty
    have chain := cut.chain
    rw [same] at chain
    exact collecting.first head (all (same ▸ mem_cons_self)) chain.1
  have length := collecting.length_eq cut genuine last
  have perm : trac.clips.Perm (pieces.map Piece.clip) := by
    have cutNodup : (pieces.map Piece.clip).Nodup := by
      have filled : ∀ clip ∈ pieces.map Piece.clip, 0 < clip.size := by
        intro clip among
        obtain ⟨piece, member, rfl⟩ := mem_map.mp among
        exact (cut.slices piece member).positive
      have apart : Segments.Apart Clip.start Clip.size
          (pieces.map Piece.clip) := pairwise_map.mpr cut.chain.apart
      exact apart.nodup filled
    have heldNodup := collecting.tracked.held.apart.nodup collecting.tracked.held.filled
    apply (perm_ext_iff_of_nodup heldNodup cutNodup).mpr
    intro clip
    constructor
    · intro among
      obtain ⟨piece, known, same⟩ := collecting.tracked.held.known clip among
      exact mem_map.mpr ⟨piece, genuine known, same⟩
    · intro among
      obtain ⟨piece, member, rfl⟩ := mem_map.mp among
      exact collecting.kept piece (all member)
  have total : Segments.total Clip.size trac.clips = Segments.total Piece.size pieces := by
    rw [Segments.total_perm perm]
    exact Segments.total_map Piece.clip pieces
  have filled : 0 + Segments.total Clip.size trac.clips = trac.length := by
    rw [total, length]
    exact cut.chain.total_eq
  have chain := Segments.chain_of_total collecting.tracked.held.apart
    (fun clip _ => Nat.zero_le clip.start) collecting.tracked.within filled
  refine ⟨first, last, length, ?_, ?_⟩
  · exact ⟨chain, collecting.tracked.held.filled, collecting.tracked.bounded⟩
  · rw [perm.length_eq, length_map]
    exact cut.several

end

end

end

end Collecting

section CollectingRuns

variable {order : ByteOrder} {payload : List UInt8} {pieces : List Piece}
variable {key : FragKey UInt32}

theorem received4_append (events : List FragEvent) (event : FragEvent) :
    received4 (events ++ [event]) key = received4 events key ++ (event.piece4 key).toList := by
  unfold received4
  rw [filterMap_append]
  rfl

theorem fragStep_collecting {earlier : List FragEvent} {event : FragEvent}
    {missing : Piece} (cut : Cut payload pieces)
    (collecting : Collecting payload (received4 earlier key) (tracFor state.ip4 key))
    (genuine : received4 (earlier ++ [event]) key ⊆ pieces) (belongs : missing ∈ pieces)
    (fresh : missing ∉ received4 (earlier ++ [event]) key) (noTimeout : event ≠ .release4 key) :
    Collecting payload (received4 (earlier ++ [event]) key)
      (tracFor (fragStep order state event).1.ip4 key) := by
  have unchanged : event.piece4 key = none →
      (fragStep order state event).1.ip4.lookup key = state.ip4.lookup key →
      Collecting payload (received4 (earlier ++ [event]) key)
        (tracFor (fragStep order state event).1.ip4 key) := by
    intro nothing same
    rw [received4_append, nothing]
    unfold tracFor
    rw [same, Option.toList_none, append_nil]
    exact collecting
  cases event with
  | ip4 p =>
    cases fragment : isFragment p with
    | false =>
      apply unchanged
      · simp [FragEvent.piece4, fragment]
      · rw [fragStep_ip4_whole fragment]
    | true =>
      by_cases same : ipKey p = key
      · subst same
        have new : (FragEvent.ip4 p).piece4 (ipKey p) = some (ipPiece p) := by
          simp [FragEvent.piece4, fragment]
        rw [received4_append, new] at genuine fresh ⊢
        have early : received4 earlier (ipKey p) ⊆ pieces :=
          fun piece known => genuine (mem_append_left _ known)
        have belongsToo : ipPiece p ∈ pieces := genuine (by simp)
        have held := collecting.hold cut early belongsToo
        have stays : (fragStep order state (.ip4 p)).1.ip4.lookup (ipKey p) =
            some (heldBy state p) := by
          rw [fragStep_ip4 fragment]
          change (trackFragment ipfragHold ipfragConstruct state.ip4
            (ipKey p) p).map.lookup (ipKey p) = _
          rw [lookup_trackFragment_self]
          apply if_neg
          rintro ⟨_, last, removed⟩
          rw [held.not_built cut genuine belongs fresh last] at removed
          cases removed
        unfold tracFor
        rw [stays]
        exact held
      · apply unchanged
        · simp [FragEvent.piece4, same]
        · rw [fragStep_ip4 fragment]
          exact lookup_trackFragment_of_ne (Ne.symm same)
  | ip6 p => exact unchanged rfl rfl
  | release4 other =>
    apply unchanged rfl
    have different : key ≠ other := fun same => noTimeout (congrArg FragEvent.release4 same.symm)
    change (state.ip4.del other).lookup key = _
    rw [RcuMap.lookup_del, if_neg different]
  | release6 other => exact unchanged rfl rfl

theorem fragRun_collecting {earlier events : List FragEvent}
    {state : FragState} {missing : Piece} (cut : Cut payload pieces)
    (collecting : Collecting payload (received4 earlier key) (tracFor state.ip4 key))
    (genuine : received4 (earlier ++ events) key ⊆ pieces) (belongs : missing ∈ pieces)
    (fresh : missing ∉ received4 (earlier ++ events) key)
    (noTimeout : FragEvent.release4 key ∉ events) :
    Collecting payload (received4 (earlier ++ events) key)
      (tracFor (fragRun order state events).ip4 key) := by
  induction events generalizing earlier state with
  | nil =>
    rw [append_nil]
    exact collecting
  | cons event rest induction =>
    have split : earlier ++ event :: rest = earlier ++ [event] ++ rest := by simp
    rw [split] at genuine fresh ⊢
    have soFar := received4_subset (earlier ++ [event]) rest key
    apply induction _ genuine fresh (fun later => noTimeout (mem_cons_of_mem _ later))
    apply fragStep_collecting cut collecting (fun piece known => genuine (soFar known)) belongs
      (fun known => fresh (soFar known))
    intro same
    exact noTimeout (same ▸ mem_cons_self)

/-- The packet brings the fragment that is missing last. -/
structure LastMissing (pieces : List Piece) (before : List FragEvent) (p : Ip4Packet) : Prop where
  fragment : isFragment p = true
  belongs : ipPiece p ∈ pieces
  fresh : ipPiece p ∉ received4 before (ipKey p)
  genuine : received4 before (ipKey p) ⊆ pieces
  arrived : ∀ piece ∈ pieces, piece ≠ ipPiece p → piece ∈ received4 before (ipKey p)
  noTimeout : FragEvent.release4 (ipKey p) ∉ before

variable {before : List FragEvent}

section

variable (missing : LastMissing pieces before p)
include missing

theorem LastMissing.collected (cut : Cut payload pieces) :
    Collecting payload (received4 before (ipKey p) ++ [ipPiece p])
      (heldBy (fragRun order .empty before) p) := by
  have start : Collecting payload (received4 [] (ipKey p))
      (tracFor FragState.empty.ip4 (ipKey p)) := collecting_new payload
  have collecting := @fragRun_collecting order payload pieces (ipKey p) [] before
    .empty (ipPiece p) cut start missing.genuine missing.belongs
    missing.fresh missing.noTimeout
  exact collecting.hold cut missing.genuine missing.belongs

theorem LastMissing.allGenuine : received4 before (ipKey p) ++ [ipPiece p] ⊆ pieces := by
  intro piece known
  rcases mem_append.mp known with earlier | here
  · exact missing.genuine earlier
  · rw [mem_singleton.mp here]
    exact missing.belongs

theorem LastMissing.slices (cut : Cut payload pieces) :
    ∀ piece ∈ received4 (before ++ [.ip4 p]) (ipKey p), Slice payload piece := by
  intro piece known
  rw [received4_append, FragEvent.piece4, if_pos ⟨missing.fragment, rfl⟩] at known
  exact cut.slices piece (missing.allGenuine known)

theorem LastMissing.rebuilds (cut : Cut payload pieces) (fits : p.l4 + payload.length ≤ 65536) :
    Chained 0 (heldBy (fragRun order .empty before) p).length
        (heldBy (fragRun order .empty before) p).clips ∧
      (heldBy (fragRun order .empty before) p).length = payload.length ∧
      (fragStep order (fragRun order .empty before) (.ip4 p)).2 = some
        { ret := 0
          payload := (p.assembled p.l4 (assembledTarget
            (heldBy (fragRun order .empty before) p) p.l4 p.defragData)).payload } := by
  have all : pieces ⊆ received4 before (ipKey p) ++ [ipPiece p] := by
    intro piece member
    by_cases here : piece = ipPiece p
    · simp [here]
    · exact mem_append_left _ (missing.arrived piece member here)
  obtain ⟨first, last, length, run, several⟩ := (missing.collected cut).complete cut missing.allGenuine all
  have built := fragAssemble_chained run several (length ▸ fits) p.defragData
  refine ⟨run, length, ?_⟩
  rw [fragStep_ip4 missing.fragment]
  rcases @trackFragment_result _ _ _ (fragRun order .empty before).ip4 (ipKey p)
      ipfragHold ipfragConstruct p with ⟨_, _, ret, packet⟩ | ⟨notBoth, _⟩
  · have outcome := ipfragConstruct_constructs p (heldBy (fragRun order .empty before) p)
    rw [built] at outcome
    obtain ⟨reported, _, payload⟩ := outcome
    have sameRet : (dpiIpDefrag (fragRun order .empty before).ip4 p).ret = 0 :=
      ret.trans (congrArg intOfBool reported)
    have samePayload : (dpiIpDefrag (fragRun order .empty before).ip4 p).packet.payload =
          (p.assembled p.l4 (assembledTarget
            (heldBy (fragRun order .empty before) p) p.l4 p.defragData)).payload :=
      (congrArg Packet.payload packet).trans payload
    rw [sameRet, samePayload]
  · exact absurd ⟨first, last⟩ notBoth

/-- A payload that fills the buffer to its last byte is rebuilt empty, as the
length of the packet does not fit into sixteen bits. -/
theorem LastMissing.loses (cut : Cut payload pieces) (full : p.l4 + payload.length = 65536) :
    (fragStep order (fragRun order .empty before) (.ip4 p)).2 =
      some { ret := 0, payload := [] } := by
  obtain ⟨run, length, result⟩ := missing.rebuilds cut (Nat.le_of_eq full)
  have empty := @assembled_length p.l4 _ _ _ run.bounded p p.defragData
  rw [length, full, Nat.zero_sub] at empty
  rw [result, length_eq_zero_iff.mp empty]

end

end CollectingRuns

theorem cut_pair {first second : Piece} (atZero : first.start = 0)
    (more : first.more = true) (firstPositive : 0 < first.size)
    (follows : second.start = first.size) (ends : second.more = false)
    (secondPositive : 0 < second.size) :
    Cut (first.clip.data ++ second.clip.data) [first, second] := by
  have length : (first.clip.data ++ second.clip.data).length =
      first.size + second.size := length_append
  have firstStop : first.stop = first.size := by rw [Piece.stop, atZero, Nat.zero_add]
  have secondStop : second.stop = first.size + second.size := by rw [Piece.stop, follows]
  have firstSlice : Slice (first.clip.data ++ second.clip.data) first := by
    refine ⟨firstPositive, ?_, ?_, ?_⟩
    · rw [firstStop, length]
      exact Nat.le_add_right _ _
    · rw [atZero]
      exact (take_left' rfl).symm
    · rw [more]
      simp only [Bool.true_eq_false, false_iff]
      omega
  have secondSlice : Slice (first.clip.data ++ second.clip.data) second := by
    refine ⟨secondPositive, ?_, ?_, ?_⟩
    · exact Nat.le_of_eq (secondStop.trans length.symm)
    · have dropped : (first.clip.data ++ second.clip.data).drop first.size =
          second.clip.data := drop_left' rfl
      rw [follows, dropped]
      exact (take_of_length_le (Nat.le_refl _)).symm
    · rw [ends, secondStop, length]
      simp
  constructor
  · intro piece member
    rcases mem_cons.mp member with rfl | later
    · exact firstSlice
    · rw [mem_singleton.mp later]
      exact secondSlice
  · refine ⟨atZero, ?_, ?_⟩
    · rw [follows, Nat.zero_add]
    · change 0 + first.size + second.size = _
      rw [length, Nat.zero_add]
  · exact Nat.lt_succ_self 1

theorem lastMissing_pair {q : Ip4Packet} (fragment : isFragment p = true)
    (secondFragment : isFragment q = true) (sameKey : ipKey p = ipKey q)
    (differ : ipPiece q ≠ ipPiece p) :
    LastMissing [ipPiece p, ipPiece q] [.ip4 p] q := by
  have received : received4 [.ip4 p] (ipKey q) = [ipPiece p] := by
    simp [received4, FragEvent.piece4, fragment, sameKey]
  constructor
  · exact secondFragment
  · simp
  · rw [received]
    simpa using differ
  · rw [received]
    simp
  · rw [received]
    intro piece member other
    rcases mem_cons.mp member with same | later
    · simp [same]
    · exact absurd (mem_singleton.mp later) other
  · simp

/-- The bytes at an offset belong to a held clip, and to one only. -/
def FromOneClip (trac : FragTrac) (payload : List UInt8) (index : Nat) : Prop :=
  ∃ clip ∈ trac.clips, (clip.start ≤ index ∧ index < clip.start + clip.size) ∧
    clip.data[index - clip.start]? = payload[index]? ∧
    ∀ other ∈ trac.clips, other.start ≤ index ∧ index < other.start + other.size → other = clip

theorem rebuilt_payload_iff {order : ByteOrder} {payload : List UInt8} {before : List FragEvent}
    {p : Ip4Packet} {outcome : FragOutcome} (fragment : isFragment p = true)
    (slices : ∀ piece ∈ received4 (before ++ [.ip4 p]) (ipKey p), Slice payload piece)
    (result : (fragStep order (fragRun order .empty before) (.ip4 p)).2 = some outcome)
    (rebuilt : outcome.ret = 0) :
    outcome.payload = payload ↔ p.l4 + payload.length < 65536 := by
  have tracked := heldBy_tracked order before fragment
  obtain ⟨last, run, contents⟩ := fragStep_rebuilt fragment tracked result rebuilt
  obtain ⟨final, known, ends, stop, _⟩ := tracked.final last
  have finalSlice := slices final known
  have length : (heldBy (fragRun order .empty before) p).length = payload.length :=
    stop.symm.trans (finalSlice.final.mp ends)
  constructor
  · intro same
    have count := @assembled_length p.l4 _ _ _ run.bounded p p.defragData
    rw [← contents, same, length] at count
    have positive := finalSlice.positive
    have inside := finalSlice.inside
    unfold Piece.stop at inside
    have small := p.bounded
    omega
  · intro fits
    rw [contents, assembled_flatMap run (length ▸ fits)]
    rw [@flatMap_slices payload _ _ _ (length ▸ run.chain)]
    · simp
    · intro clip among
      obtain ⟨piece, member, rfl⟩ := tracked.held.known clip among
      exact (slices piece member).data

/-- Whatever parts of a payload have arrived in whatever order, a rebuilt packet
carries the payload exactly if headers and payload stay below the sixteen bits
of a packet length, and exactly then the fragment of a cut that was missing last
rebuilds it.  Besides, the clips of every tracker are separate in every run, and
each byte of a rebuilt packet comes from one of them. -/
theorem ip4_reassembly_exact {order : ByteOrder} {payload : List UInt8} {pieces : List Piece}
    (cut : Cut payload pieces) :
    (∀ before p outcome, isFragment p = true →
      (∀ piece ∈ received4 (before ++ [.ip4 p]) (ipKey p), Slice payload piece) →
      (fragStep order (fragRun order .empty before) (.ip4 p)).2 = some outcome →
      outcome.ret = 0 → (outcome.payload = payload ↔ p.l4 + payload.length < 65536)) ∧
    (∀ before p, LastMissing pieces before p →
      ((fragStep order (fragRun order .empty before) (.ip4 p)).2 =
        some { ret := 0, payload := payload } ↔ p.l4 + payload.length < 65536)) ∧
    (∀ events key trac, (fragRun order .empty events).ip4.lookup key = some trac →
      trac.clips.Pairwise (Segments.Separate Clip.start Clip.size)) ∧
    (∀ before p outcome, isFragment p = true →
      (fragStep order (fragRun order .empty before) (.ip4 p)).2 = some outcome →
      outcome.ret = 0 → ∀ index < outcome.payload.length,
        FromOneClip (heldBy (fragRun order .empty before) p) outcome.payload index) := by
  refine ⟨?_, ?_, ?_, ?_⟩
  · intro before p outcome fragment slices result rebuilt
    exact rebuilt_payload_iff fragment slices result rebuilt
  · intro before p missing
    have slices := missing.slices cut
    constructor
    · intro result
      exact (rebuilt_payload_iff missing.fragment slices result rfl).mp rfl
    · intro fits
      obtain ⟨_, _, result⟩ := missing.rebuilds cut (Nat.le_of_lt fits)
      have same := (rebuilt_payload_iff missing.fragment slices result rfl).mpr fits
      rw [result, ← same]
  · intro events key trac found
    have apart := (mapTracked_run order events key trac found).held.apart
    exact apart.imp fun ends => Or.inl ends
  · intro before p outcome fragment result rebuilt index below
    obtain ⟨_, run, contents⟩ := fragStep_rebuilt fragment
      (heldBy_tracked order before fragment) result rebuilt
    rw [contents] at below ⊢
    exact assembled_byte run p p.defragData below

theorem sample_cut :
    Cut (replicate 8 5 ++ replicate 8 6)
      [ipPiece (sampleFragment 0x2000 5), ipPiece (sampleFragment 1 6)] :=
  @cut_pair (ipPiece (sampleFragment 0x2000 5))
    (ipPiece (sampleFragment 1 6)) (by decide) (by decide) (by decide)
    (by decide) (by decide) (by decide)

theorem ip4_reassembly_exact_pair :
    Cut (List.replicate 8 5 ++ List.replicate 8 6)
        [ipPiece (sampleFragment 0x2000 5), ipPiece (sampleFragment 1 6)] ∧
      (fragStep .little (fragRun .little .empty [.ip4 (sampleFragment 0x2000 5)])
          (.ip4 (sampleFragment 1 6))).2 =
        some { ret := 0, payload := List.replicate 8 5 ++ List.replicate 8 6 } :=
  ⟨sample_cut, ((ip4_reassembly_exact sample_cut).2.1 _ _
      (lastMissing_pair (by decide) (by decide) (by decide) (by decide))).mpr
      (by decide)⟩

def longFragment (fragOff : UInt16) (byte : UInt8) (count : Nat)
    (short : count ≤ 65501) : Ip4Packet :=
  { src := 1, dst := 2, ident := 7, ingress := true, l3 := 14, l4 := 34
    fragOff := fragOff, nxt := 0, fragNxt := 0
    payload := List.replicate count byte, defragData := fun _ => 0
    bounded := by
      rw [List.length_replicate]
      omega }

def firstLong : Ip4Packet := longFragment 0x2000 5 32768 (by decide)
def lastLong : Ip4Packet := longFragment 4096 6 32734 (by decide)

/-- A payload that fills the buffer to its last byte is rebuilt with the
length zero: two fragments of 65502 bytes in all come out empty. -/
theorem ip4_reassembly_loses_payload :
    ∃ payload pieces before p outcome, Cut payload pieces ∧ LastMissing pieces before p ∧
      (fragStep .little (fragRun .little .empty before) (.ip4 p)).2 = some outcome ∧
      outcome.ret = 0 ∧ outcome.payload ≠ payload := by
  have firstSize : (ipPiece firstLong).size = 32768 := length_replicate
  have lastSize : (ipPiece lastLong).size = 32734 := length_replicate
  have follows : (ipPiece lastLong).start = 32768 := by decide
  have cut : Cut ((ipPiece firstLong).clip.data ++ (ipPiece lastLong).clip.data)
      [ipPiece firstLong, ipPiece lastLong] := by
    apply cut_pair
    · decide
    · decide
    · omega
    · omega
    · decide
    · omega
  have differ : ipPiece lastLong ≠ ipPiece firstLong := by
    intro same
    have starts : (ipPiece firstLong).start = 32768 := same ▸ follows
    exact absurd starts (by decide)
  have missing := @lastMissing_pair firstLong lastLong (by decide) (by decide) rfl differ
  have total : ((ipPiece firstLong).clip.data ++ (ipPiece lastLong).clip.data).length = 65502 := by
    have parts : ∀ one other : Piece, (one.clip.data ++ other.clip.data).length =
        one.size + other.size := fun _ _ => length_append
    rw [parts, firstSize, lastSize]
  have full : lastLong.l4 + ((ipPiece firstLong).clip.data ++ (ipPiece lastLong).clip.data).length =
      65536 := by
    rw [total]
    rfl
  refine ⟨_, _, _, _, _, cut, missing, missing.loses cut full, rfl, ?_⟩
  intro same
  rw [← same] at total
  cases total

end NeuVector.DataPath
