import NeuVector.DataPath.FragmentSafety

/-!
# Runs of defragmentation

The soundness of every tracker is carried through whole runs of fragments and
timeouts.  A run is safe when each fragment that makes both ends of a datagram
known also brings the last missing bytes; every datagram reported in such a
run is complete.  Without that condition an incomplete one is reported.
Fragments are meant as the code reads them; they are those that were sent if
the masks read the field of their header rightly.
-/

namespace NeuVector.DataPath

open Library List

section Tracking

variable {Address Ident : Type} [DecidableEq Address]
variable {map : RcuMap (FragKey Address) FragTrac} {key : FragKey Address}

def MapSound (received : FragKey Address → List Piece)
    (map : RcuMap (FragKey Address) FragTrac) : Prop :=
  ∀ key trac, map.lookup key = some trac → Sound (received key) trac

theorem MapSound.mono {before after : FragKey Address → List Piece} (sound : MapSound before map)
    (subset : ∀ key, before key ⊆ after key) : MapSound after map :=
  fun key trac found => (sound key trac found).mono (subset key)

theorem MapSound.del {received : FragKey Address → List Piece}
    (sound : MapSound received map) (key : FragKey Address) :
    MapSound received (map.del key) :=
  fun other trac found => sound other trac (RcuMap.lookup_of_del found)

theorem tracFor_elim {good : FragTrac → Prop} (new : good .new)
    (stored : ∀ trac, map.lookup key = some trac → good trac) : good (tracFor map key) := by
  unfold tracFor
  cases found : map.lookup key with
  | none => exact new
  | some trac => exact stored trac found

theorem MapSound.tracFor {received : FragKey Address → List Piece}
    (sound : MapSound received map) (key : FragKey Address) :
    Sound (received key) (tracFor map key) := tracFor_elim (sound_new _) (sound key)

theorem lookup_tracked (map : RcuMap (FragKey Address) FragTrac)
    (key other : FragKey Address) (trac held : FragTrac) :
    ((if (map.lookup key).isNone then map.add key trac else map).modify key
      fun _ => held).lookup other =
      if other = key then some held else map.lookup other := by
  rw [RcuMap.lookup_modify]
  by_cases same : other = key
  · subst same
    cases found : map.lookup other with
    | none => simp [RcuMap.lookup_add, found]
    | some stored => simp [found]
  · rw [if_neg same]
    split
    · exact RcuMap.lookup_add_of_ne _ _ same
    · rfl

variable {received : FragKey Address → List Piece} {header : Nat}
variable {hold : FragTrac → Packet Address Ident → FragTrac × Bool}
variable {construct : FragTrac → Packet Address Ident →
  Construction Address Ident}
variable {p : Packet Address Ident}

theorem lookup_trackFragment_of_ne {other : FragKey Address} (different : other ≠ key) :
    (trackFragment hold construct map key p).map.lookup other = map.lookup other := by
  have kept := lookup_tracked map key other (tracFor map key) (hold (tracFor map key) p).1
  rw [if_neg different] at kept
  unfold trackFragment
  simp only
  split
  · split
    · rw [RcuMap.lookup_del, if_neg different]
      exact kept
    · exact kept
  · exact kept

theorem lookup_trackFragment_self :
    (trackFragment hold construct map key p).map.lookup key =
      if (hold (tracFor map key) p).1.first ∧ (hold (tracFor map key) p).1.last ∧
          (construct (hold (tracFor map key) p).1 p).removed then none
      else some (hold (tracFor map key) p).1 := by
  have kept := lookup_tracked map key key (tracFor map key) (hold (tracFor map key) p).1
  rw [if_pos rfl] at kept
  unfold trackFragment
  simp only [Bool.and_eq_true]
  by_cases both : (hold (tracFor map key) p).1.first = true ∧
      (hold (tracFor map key) p).1.last = true
  · rw [if_pos both]
    simp only [both, true_and]
    split
    · rw [RcuMap.lookup_del, if_pos rfl]
    · exact kept
  · have notAll : ¬ ((hold (tracFor map key) p).1.first = true ∧
        (hold (tracFor map key) p).1.last = true ∧
        (construct (hold (tracFor map key) p).1 p).removed = true) :=
      fun all => both ⟨all.1, all.2.1⟩
    simp only [if_neg both, if_neg notAll]
    exact kept

theorem trackFragment_result :
    ((hold (tracFor map key) p).1.first = true ∧ (hold (tracFor map key) p).1.last = true ∧
      (trackFragment hold construct map key p).ret =
        intOfBool (construct (hold (tracFor map key) p).1 p).ret ∧
      (trackFragment hold construct map key p).packet =
        (construct (hold (tracFor map key) p).1 p).packet) ∨
    (¬ ((hold (tracFor map key) p).1.first = true ∧ (hold (tracFor map key) p).1.last = true) ∧
      (trackFragment hold construct map key p).ret = -1) := by
  by_cases both : (hold (tracFor map key) p).1.first = true ∧
      (hold (tracFor map key) p).1.last = true
  · refine Or.inl ⟨both.1, both.2, ?_, ?_⟩ <;>
      simp only [trackFragment, Bool.and_eq_true, if_pos both]
  · refine Or.inr ⟨both, ?_⟩
    simp only [trackFragment, Bool.and_eq_true, if_neg both]

/-- Tracking a fragment keeps the map sound and reports only complete
datagrams, provided the tracker is settled by the fragment. -/
theorem trackFragment_sound (sound : MapSound received map)
    (settled : Settled (received key) header (hold (tracFor map key) p).1)
    (constructs : Constructs header construct p) :
    MapSound received (trackFragment hold construct map key p).map ∧
      (0 ≤ (trackFragment hold construct map key p).ret → Complete (received key)
          (trackFragment hold construct map key p).packet.payload) := by
  constructor
  · intro other trac found
    by_cases same : other = key
    · subst same
      rw [lookup_trackFragment_self] at found
      by_cases both : (hold (tracFor map other) p).1.first = true ∧
          (hold (tracFor map other) p).1.last = true
      · obtain ⟨removed, _⟩ := constructs.ready (settled.1 both)
        rw [if_pos ⟨both.1, both.2, removed⟩] at found
        cases found
      · rw [if_neg (fun all => both ⟨all.1, all.2.1⟩)] at found
        cases found
        exact settled.2 both
    · rw [lookup_trackFragment_of_ne same] at found
      exact sound other trac found
  · intro reported
    rcases @trackFragment_result _ _ _ map key hold construct p with
      ⟨first, last, _, packet⟩ | ⟨_, refused⟩
    · rw [packet]
      exact (constructs.ready (settled.1 ⟨first, last⟩)).2
    · rw [refused] at reported
      exact absurd reported (by decide)

end Tracking

variable {order : ByteOrder} (events : List FragEvent) {state : FragState} {p : Ip4Packet}

theorem ipfragConstruct_constructs (p : Ip4Packet) : Constructs p.l4 ipfragConstruct p := by
  intro trac
  unfold ipfragConstruct
  rcases fragAssemble trac p.l4 p.defragData with ⟨result, target⟩
  cases result with
  | ok => exact ⟨rfl, rfl, rfl⟩
  | nop | more => exact ⟨rfl, rfl⟩

theorem ip6fragConstruct_constructs (p : Ip6Packet) :
    Constructs (p.l3 + 40) ip6fragConstruct p := by
  intro trac
  unfold ip6fragConstruct
  rcases fragAssemble trac (p.l3 + 40) p.defragData with ⟨result, target⟩
  cases result with
  | ok => exact ⟨rfl, rfl, rfl⟩
  | nop | more => exact ⟨rfl, rfl⟩

def FragEvent.piece4 (key : FragKey UInt32) : FragEvent → Option Piece
  | .ip4 p => if isFragment p ∧ ipKey p = key then some (ipPiece p) else none
  | _ => none

def FragEvent.piece6 (read : Ip6Packet → Piece) (key : FragKey (BitVec 128)) :
    FragEvent → Option Piece
  | .ip6 p => if ip6Key p = key then some (read p) else none
  | _ => none

def received4 (events : List FragEvent) (key : FragKey UInt32) : List Piece :=
  events.filterMap (FragEvent.piece4 key)

def received6 (order : ByteOrder) (events : List FragEvent) (key : FragKey (BitVec 128)) :
    List Piece := events.filterMap (FragEvent.piece6 (ip6Piece order) key)

def sent6 (events : List FragEvent) (key : FragKey (BitVec 128)) : List Piece :=
  events.filterMap (FragEvent.piece6 sentPiece key)

def receivedWith (order : ByteOrder) (events : List FragEvent) : FragEvent → List Piece
  | .ip4 p => received4 events (ipKey p)
  | .ip6 p => received6 order events (ip6Key p)
  | _ => []

def sentWith (events : List FragEvent) : FragEvent → List Piece
  | .ip4 p => received4 events (ipKey p)
  | .ip6 p => sent6 events (ip6Key p)
  | _ => []

/-- The masks of a little endian host read the field rightly if it has none of
the bits that they take or leave by mistake. -/
def ReadsField (order : ByteOrder) (p : Ip6Packet) : Prop :=
  order = .little → p.fragOff &&& 0x0707 = 0

/-- The masks read every fragment of the datagram of an event rightly. -/
def FieldsRead (order : ByteOrder) (events : List FragEvent) : FragEvent → Prop
  | .ip6 p => ∀ q, .ip6 q ∈ events → ip6Key q = ip6Key p → ReadsField order q
  | _ => True

theorem ip6Piece_eq_sent {p : Ip6Packet} (reads : ReadsField order p) :
    ip6Piece order p = sentPiece p := by
  cases order with
  | big => rfl
  | little =>
    have clear := reads rfl
    have none : ∀ mask : UInt16, 0x0707 &&& mask = mask → p.fragOff &&& mask = 0 := by
      intro mask within
      rw [← within, ← UInt16.and_assoc, clear, UInt16.zero_and]
    have offset : p.fragOff &&& 0xf8ff = p.fragOff &&& 0xfff8 := by
      have low := none 0x0007 (by decide)
      have high := none 0x0700 (by decide)
      have split : (0xf8ff : UInt16) = 0xf8f8 ||| 0x0007 ∧
          (0xfff8 : UInt16) = 0xf8f8 ||| 0x0700 := by decide
      apply UInt16.toNat_inj.mp
      rw [split.1, split.2, UInt16.toNat_and, UInt16.toNat_and, UInt16.toNat_or, UInt16.toNat_or,
        Nat.and_or_distrib_left, Nat.and_or_distrib_left, ← UInt16.toNat_and, ← UInt16.toNat_and,
        ← UInt16.toNat_and, low, high]
    have last : p.fragOff &&& 0x0100 = 0 ∧ p.fragOff &&& 0x0001 = 0 :=
      ⟨none _ (by decide), none _ (by decide)⟩
    simp only [ip6Piece, sentPiece, ip6fOffMask, ip6fMoreFrag, offset, last]

theorem receivedWith_eq_sent {events : List FragEvent} {event : FragEvent}
    (read : FieldsRead order events event) :
    receivedWith order events event = sentWith events event := by
  cases event with
  | ip6 p =>
    apply filterMap_congr
    intro event member
    cases event with
    | ip6 q =>
      by_cases same : ip6Key q = ip6Key p
      · simp only [FragEvent.piece6, same, if_true]
        rw [ip6Piece_eq_sent (read q member same)]
      · simp only [FragEvent.piece6, same, if_false]
    | ip4 q => rfl
    | release4 key => rfl
    | release6 key => rfl
  | ip4 p => rfl
  | release4 key => rfl
  | release6 key => rfl

theorem received4_subset (later : List FragEvent) (key : FragKey UInt32) :
    received4 events key ⊆ received4 (events ++ later) key :=
  (sublist_append_left events later).filterMap _ |>.subset

theorem received6_subset (order : ByteOrder) (later : List FragEvent) (key : FragKey (BitVec 128)) :
    received6 order events key ⊆ received6 order (events ++ later) key :=
  (sublist_append_left events later).filterMap _ |>.subset

theorem mem_received4 (fragment : isFragment p = true) :
    ipPiece p ∈ received4 (events ++ [.ip4 p]) (ipKey p) := by
  apply mem_filterMap.mpr
  exact ⟨.ip4 p, by simp, by simp [FragEvent.piece4, fragment]⟩

theorem mem_received6 (p : Ip6Packet) :
    ip6Piece order p ∈ received6 order (events ++ [.ip6 p]) (ip6Key p) := by
  apply mem_filterMap.mpr
  exact ⟨.ip6 p, by simp, by simp [FragEvent.piece6]⟩

/-- A step is safe when a fragment that makes both ends known settles its
datagram.  IPv6 fragments are not checked for overlaps by the code, so there
they have to be acceptable as well. -/
def SafeStep (order : ByteOrder) (state : FragState) : FragEvent → Prop
  | .ip4 p =>
    isFragment p = true → Acceptable (tracFor state.ip4 (ipKey p)) (ipPiece p) →
        Settles (tracFor state.ip4 (ipKey p)) (ipPiece p) p.l4
  | .ip6 p =>
    pseudoHeader order state.ip6 p = false →
      Acceptable (tracFor state.ip6 (ip6Key p)) (ip6Piece order p) ∧
        Settles (tracFor state.ip6 (ip6Key p)) (ip6Piece order p) (p.l3 + 40)
  | .release4 _ => True
  | .release6 _ => True

instance (order : ByteOrder) (state : FragState) (event : FragEvent) :
    Decidable (SafeStep order state event) := by
  cases event <;> unfold SafeStep <;> infer_instance

def SafeRun (order : ByteOrder) (state : FragState) : List FragEvent → Prop
  | [] => True
  | event :: rest => SafeStep order state event ∧ SafeRun order (fragStep order state event).1 rest

instance (order : ByteOrder) (state : FragState) (events : List FragEvent) :
    Decidable (SafeRun order state events) := by
  induction events generalizing state with
  | nil => exact instDecidableTrue
  | cons event rest induction =>
    have := induction (fragStep order state event).1
    exact instDecidableAnd

structure StateSound (order : ByteOrder) (events : List FragEvent) (state : FragState) : Prop where
  ip4 : MapSound (received4 events) state.ip4
  ip6 : MapSound (received6 order events) state.ip6

theorem dpiIpv6Defrag_tracked {map : RcuMap (FragKey (BitVec 128)) FragTrac}
    {p : Ip6Packet} (notPseudo : pseudoHeader order map p = false) :
    dpiIpv6Defrag order map p =
      trackFragment (ip6fragHold order) ip6fragConstruct map (ip6Key p) p := by
  unfold dpiIpv6Defrag
  rw [notPseudo, if_neg (by decide)]

theorem pseudoHeader_complete {p : Ip6Packet}
    {map : RcuMap (FragKey (BitVec 128)) FragTrac} (pseudo : pseudoHeader order map p = true) :
    Complete (received6 order (events ++ [.ip6 p]) (ip6Key p)) p.payload := by
  have member := @mem_received6 order events p
  simp only [pseudoHeader, Bool.and_eq_true, beq_iff_eq] at pseudo
  obtain ⟨⟨_, offset⟩, clear⟩ := pseudo
  have start : (ip6Piece order p).start = 0 := by
    change ((p.fragOff &&& ip6fOffMask order).toUInt32).toNat = 0
    rw [offset]
    rfl
  have final : (ip6Piece order p).more = false := by
    apply decide_eq_false
    exact fun set => set clear
  constructor
  · refine ⟨ip6Piece order p, member, final, ?_⟩
    unfold Piece.stop
    rw [start, Nat.zero_add]
    rfl
  · intro index below
    refine ⟨ip6Piece order p, member, ?_, ?_⟩
    · rw [start]
      exact Nat.zero_le index
    · rw [start]
      rfl

theorem fragStep_ip4 (fragment : isFragment p = true) :
    fragStep order state (.ip4 p) = ({ state with ip4 := (dpiIpDefrag state.ip4 p).map }, some
          { ret := (dpiIpDefrag state.ip4 p).ret
            payload := (dpiIpDefrag state.ip4 p).packet.payload }) := by
  simp only [fragStep, fragment, if_true]

theorem fragStep_ip4_whole (whole : isFragment p = false) :
    fragStep order state (.ip4 p) = (state, none) := by
  simp only [fragStep, whole, Bool.false_eq_true, if_false]

theorem fragStep_sound {events : List FragEvent} {event : FragEvent}
    (sound : StateSound order events state) (safe : SafeStep order state event) :
    StateSound order (events ++ [event]) (fragStep order state event).1 ∧
      ∀ outcome, (fragStep order state event).2 = some outcome → 0 ≤ outcome.ret →
          Complete (receivedWith order (events ++ [event]) event) outcome.payload := by
  have ip4 := sound.ip4.mono (received4_subset events [event])
  have ip6 := sound.ip6.mono (received6_subset events order [event])
  cases event with
  | ip4 p =>
    cases fragment : isFragment p with
    | false =>
      rw [fragStep_ip4_whole fragment]
      refine ⟨⟨ip4, ip6⟩, ?_⟩
      intro outcome same
      cases same
    | true =>
      have settled := ipfragHold_settled (ip4.tracFor (ipKey p)) fragment
        (mem_received4 events fragment) (safe fragment)
      obtain ⟨kept, complete⟩ := trackFragment_sound ip4 settled
        (ipfragConstruct_constructs p)
      rw [fragStep_ip4 fragment]
      refine ⟨⟨kept, ip6⟩, ?_⟩
      intro outcome same reported
      cases same
      exact complete reported
  | ip6 p =>
    cases pseudo : pseudoHeader order state.ip6 p with
    | true =>
      have result : dpiIpv6Defrag order state.ip6 p =
          { ret := 0, packet := p, teardrop := false
            map := state.ip6 } := by
        unfold dpiIpv6Defrag
        rw [pseudo, if_pos rfl]
      simp only [fragStep, result]
      refine ⟨⟨ip4, ip6⟩, ?_⟩
      intro outcome same reported
      cases same
      exact pseudoHeader_complete events pseudo
    | false =>
      obtain ⟨acceptable, settles⟩ := safe pseudo
      have settled := ip6fragHold_settled (ip6.tracFor (ip6Key p))
        acceptable (mem_received6 events p) settles
      obtain ⟨kept, complete⟩ := trackFragment_sound ip6 settled
        (ip6fragConstruct_constructs p)
      simp only [fragStep, dpiIpv6Defrag_tracked pseudo]
      refine ⟨⟨ip4, kept⟩, ?_⟩
      intro outcome same reported
      cases same
      exact complete reported
  | release4 key =>
    refine ⟨⟨ip4.del key, ip6⟩, ?_⟩
    intro outcome same
    cases same
  | release6 key =>
    refine ⟨⟨ip4, ip6.del key⟩, ?_⟩
    intro outcome same
    cases same

theorem fragRun_keeps {holds : List FragEvent → FragState → Prop}
    {allowed : FragState → List FragEvent → Prop}
    (step : ∀ {earlier state event rest}, holds earlier state → allowed state (event :: rest) →
      holds (earlier ++ [event]) (fragStep order state event).1 ∧
        allowed (fragStep order state event).1 rest)
    {earlier events : List FragEvent} (start : holds earlier state)
    (safe : allowed state events) : holds (earlier ++ events) (fragRun order state events) := by
  induction events generalizing earlier state with
  | nil =>
    rw [append_nil]
    exact start
  | cons event rest induction =>
    obtain ⟨kept, later⟩ := step start safe
    have next := induction kept later
    rw [append_assoc] at next
    exact next

theorem SafeRun.split {before after : List FragEvent} {event : FragEvent}
    (safe : SafeRun order state (before ++ event :: after)) :
    SafeRun order state before ∧ SafeStep order (fragRun order state before) event := by
  induction before generalizing state with
  | nil => exact ⟨trivial, safe.1⟩
  | cons head tail induction =>
    obtain ⟨safeTail, safeEvent⟩ := induction safe.2
    exact ⟨⟨safe.1, safeTail⟩, safeEvent⟩

def sampleFragment (fragOff : UInt16) (byte : UInt8) : Ip4Packet :=
  { src := 1, dst := 2, ident := 7, ingress := true, l3 := 14, l4 := 34
    fragOff := fragOff, nxt := 0, fragNxt := 0
    payload := List.replicate 8 byte, defragData := fun _ => 0
    bounded := by
      rw [List.length_replicate]
      decide }

def sampleFragment6 (fragOff : UInt16) (byte : UInt8) (count : Nat)
    (short : count ≤ 1400) : Ip6Packet :=
  { src := 1, dst := 2, ident := 7, ingress := true, l3 := 14, l4 := 62
    fragOff := fragOff, nxt := 44, fragNxt := 17
    payload := List.replicate count byte, defragData := fun _ => 0
    bounded := by
      rw [List.length_replicate]
      omega }

/-- In a safe run, a datagram is reported only once it is complete. -/
theorem fragRun_reports_complete {events before after : List FragEvent}
    {event : FragEvent} {outcome : FragOutcome}
    (safe : SafeRun order .empty events) (cut : events = before ++ event :: after)
    (result : (fragStep order (fragRun order .empty before) event).2 = some outcome)
    (reported : 0 ≤ outcome.ret) :
    Complete (receivedWith order (before ++ [event]) event) outcome.payload ∧
      (FieldsRead order (before ++ [event]) event →
        Complete (sentWith (before ++ [event]) event) outcome.payload) := by
  subst cut
  obtain ⟨safeBefore, safeEvent⟩ := safe.split
  have start : StateSound order [] .empty := by constructor <;> simp [MapSound, FragState.empty]
  have sound := @fragRun_keeps order .empty (StateSound order) (SafeRun order)
    (fun sound safe => ⟨(fragStep_sound sound safe.1).1, safe.2⟩) [] before start safeBefore
  have complete := (fragStep_sound sound safeEvent).2 outcome result reported
  refine ⟨complete, ?_⟩
  intro read
  rw [← receivedWith_eq_sent read]
  exact complete

theorem fragRun_reports_complete_pair :
    SafeRun .little .empty [.ip4 (sampleFragment 0x2000 5), .ip4 (sampleFragment 1 6)] ∧
      Complete [ipPiece (sampleFragment 0x2000 5), ipPiece (sampleFragment 1 6)]
        (List.replicate 8 5 ++ List.replicate 8 6) :=
  ⟨by decide, (@fragRun_reports_complete .little
      [.ip4 (sampleFragment 0x2000 5), .ip4 (sampleFragment 1 6)]
      [.ip4 (sampleFragment 0x2000 5)] [] (.ip4 (sampleFragment 1 6))
      { ret := 0, payload := replicate 8 5 ++ replicate 8 6 }
      (by decide) rfl (by decide) (by decide)).2 trivial⟩

/-- A missing middle fragment goes unnoticed: the last fragment is reported
as a whole datagram.  And the masks of a little endian host take fragments at
the offsets 256 and 16 for the two halves of a datagram. -/
theorem fragRun_reports_incomplete :
    (∃ before event outcome,
      (fragStep .little (fragRun .little .empty before) event).2 = some outcome ∧
        0 ≤ outcome.ret ∧ ¬ Complete (sentWith (before ++ [event]) event) outcome.payload) ∧
    ∃ first second outcome, SafeRun .little .empty [.ip6 first, .ip6 second] ∧
      (fragStep .little (fragRun .little .empty [.ip6 first]) (.ip6 second)).2 = some outcome ∧
        0 ≤ outcome.ret ∧
        ¬ Complete (sentWith [.ip6 first, .ip6 second] (.ip6 second)) outcome.payload :=
  ⟨⟨[.ip4 (sampleFragment 0x2000 5)], .ip4 (sampleFragment 2 6),
      { ret := 1, payload := replicate 8 6 }, by decide⟩,
    sampleFragment6 0x0100 5 16 (by decide), sampleFragment6 0x0010 6 16 (by decide),
    { ret := 0, payload := replicate 16 5 ++ replicate 16 6 }, by decide⟩

end NeuVector.DataPath
