import NeuVector.DataPath.TcpHandshake

/-!
# Delivery of TCP streams

The segments of the two streams of a session arrive in any order and are
repeated.  As long as the parsers are at work, the windows and the limits of
the cache are kept and nothing ends the inspection, what the parsers are given
is a gapless part of the stream that starts with the segment at their
position, and they are given it whenever the next sequence number moves, which
follows the segments seen without a hole.
-/

namespace NeuVector.DataPath

open Library Arrivals Segments List

variable {first : Nat} {consumed : List Segment} {after : TcpWing}

section Streams

variable {cuts : Bool → List Segment}
  {seen : Bool → Segment → Bool} {s : TcpSession}

/-- Both directions hold what has been seen of their streams. -/
structure SessionStreams (cuts : Bool → List Segment)
    (seen : Bool → Segment → Bool) (s : TcpSession) : Prop where
  parsing : s.skipParser = false
  inspecting : s.action = .none
  flows : ∀ side, ∃ position, Flow (cuts side) (seen side) position (s.wing side)

/-- A packet, what the outside decides about it, and the segment that it
carries. -/
structure Arrival where
  packet : TcpPacket
  env : TcpEnv
  segment : Option Segment

def observe (seen : Bool → Segment → Bool) (a : Arrival) : Bool → Segment → Bool :=
  match a.segment with
  | none => seen
  | some segment => fun side =>
    if side = a.packet.fromClient then mark (seen side) segment
    else seen side

/-- The payload is nothing or a segment of the stream, in the window of the
code and near to what has been seen, with room in the cache, and the parsers
leave their positions in what they are given. -/
def PayloadFits (cuts : Bool → List Segment) (seen : Bool → Segment → Bool)
    (s : TcpSession) (p : TcpPacket) (env : TcpEnv) :
    Option Segment → Prop
  | none => p.len = 0 ∧ p.fin = false
  | some segment =>
    Arrives (cuts p.fromClient) (seen p.fromClient) (s.this p) p env segment ∧
      tcpIsInWindow p s = true ∧
      ∀ seq, some seq ∈ env.positions → offset (s.this p).asmSeq seq ≤
          offset (s.this p).asmSeq (place (s.this p).initSeq
            (reached (mark (seen p.fromClient) segment) (cuts p.fromClient)))

/-- What an arrival must meet: no further `SYN`, nothing that ends the
inspection or the parsers, no acknowledgement of bytes that were not seen, and
a payload that fits. -/
structure Admissible (cuts : Bool → List Segment)
    (seen : Bool → Segment → Bool) (s : TcpSession) (a : Arrival) :
    Prop where
  noSyn : a.packet.syn = false
  verdict : dpiIsActionFinal a.packet a.env.verdict = false
  parsers : a.env.parsersGone = false
  acked : a.packet.hasAck = true → u32Gt a.packet.ack (s.that a.packet).nextSeq = false
  payload : PayloadFits cuts seen s a.packet a.env a.segment

structure Cuts (stream : List UInt8) (cut : List Segment) : Prop where
  whole : StreamCut stream.length cut
  contents : cut.flatMap Segment.data = stream

/-- What the parsers are given is the part of the stream from the segment at
their position up to the next sequence number. -/
def GivesPart (stream : List UInt8) (cut : List Segment)
    (before after : TcpWing) (given : Delivery) : Prop :=
  ∃ position first last, before.asmSeq = place before.initSeq position ∧
      (∃ segment ∈ cut, segment.start = first ∧ first ≤ position ∧
        position < first + segment.size) ∧
      position < last ∧ after.nextSeq = place before.initSeq last ∧
      given.seq = place before.initSeq first ∧
      given.bytes = (stream.drop first).take (last - first)

theorem givesPart_run {stream : List UInt8} {cut : List Segment}
    {known : Segment → Bool} {position later : Nat} {before : TcpWing}
    {given : Delivery} (cuts : Cuts stream cut)
    (asm : before.asmSeq = place before.initSeq position) (flow : Flow cut known later after)
    (start : after.initSeq = before.initSeq) (more : position < reached known cut)
    (run : NextRun cut known position first consumed)
    (bytes : given =
      { seq := place before.initSeq first
        bytes := (readable known position cut).flatMap Segment.data }) :
    GivesPart stream cut before after given := by
  refine ⟨position, first, reached known cut, asm, ?_, more, ?_, ?_, ?_⟩
  · cases head : readable known position cut with
    | nil =>
      have chain := run.chain
      rw [head] at chain
      have same : first = reached known cut := chain
      have below := run.below
      omega
    | cons segment rest =>
      have inside : segment ∈ readable known position cut := by
        rw [head]
        exact mem_cons_self
      have chain := run.chain
      rw [head] at chain
      have starts : segment.start = first := chain.1
      obtain ⟨member, unread⟩ := mem_filter.mp inside
      have ahead : position < segment.start + segment.size := of_decide_eq_true unread
      refine ⟨segment, ?_, starts, run.below, ?_⟩
      · exact (takeWhile_sublist known).subset member
      · rw [← starts]
        exact ahead
  · rw [← start]
    exact flow.nextSeq
  · rw [bytes]
  · have slice := @run_contents Segment UInt8 Segment.start
      Segment.size known position cut Segment.data consumed first
      (fun _ => rfl) run.whole run.front run.chain
    rw [cuts.contents] at slice
    rw [bytes]
    exact slice

variable {streams : Bool → List UInt8}

/-- What an arrival delivers is a part, and an arrival that moves the next
sequence number of its direction delivers. -/
def Delivers (streams : Bool → List UInt8) (cuts : Bool → List Segment)
    (s : TcpSession) (a : Arrival) (after : TcpSession) : Prop :=
  (∀ given, (dpiInspectTcp a.packet a.env s).delivered = some given →
      GivesPart (streams a.packet.fromClient) (cuts a.packet.fromClient) (s.this a.packet)
        (after.this a.packet) given) ∧
    ((after.this a.packet).nextSeq ≠ (s.this a.packet).nextSeq →
      (dpiInspectTcp a.packet a.env s).delivered ≠ none)

section Arrivals

variable {p : TcpPacket} {env : TcpEnv} {left : TcpSession} {known : Bool → Segment → Bool}
  {position later : Nat}

/-- The direction of the sender goes on, and the other one is as it was. -/
theorem SessionStreams.goOn (holds : SessionStreams cuts seen s) (goesOn : GoesOn s p left)
    (here : Flow (cuts p.fromClient) (known p.fromClient) later (left.this p))
    (same : known (!p.fromClient) = seen (!p.fromClient)) : SessionStreams cuts known left := by
  refine ⟨goesOn.parsing, goesOn.action, ?_⟩
  intro side
  by_cases sender : side = p.fromClient
  · rw [sender]
    exact ⟨later, here⟩
  · obtain ⟨otherPosition, otherFlow⟩ := holds.flows (!p.fromClient)
    have other : side = !p.fromClient := Bool.eq_not_of_ne sender
    rw [other, same]
    exact ⟨otherPosition, otherFlow.same goesOn.that⟩

theorem GoesOn.nextSeq_eq {cut : List Segment} {shown more : Segment → Bool}
    (goesOn : GoesOn s p left) (flow : Flow cut shown position (s.this p))
    (here : Flow cut more later (left.this p)) (same : reached more cut = reached shown cut) :
    (left.this p).nextSeq = (s.this p).nextSeq := by
  rw [here.nextSeq, same, goesOn.start]
  exact flow.nextSeq.symm

/-- An arrival without payload. -/
theorem inspect_empty_stream (whole : ∀ side, Cuts (streams side) (cuts side))
    (holds : SessionStreams cuts seen s) (admissible : Admissible cuts seen s ⟨p, env, none⟩) :
    ∃ left, (dpiInspectTcp p env s).session = some left ∧
      SessionStreams cuts seen left ∧ Delivers streams cuts s ⟨p, env, none⟩ left := by
  obtain ⟨position, flow⟩ := holds.flows p.fromClient
  obtain ⟨left, inspected, goesOn, here⟩ := inspect_empty (whole p.fromClient).whole flow
    admissible.noSyn admissible.payload.1 admissible.payload.2 holds.parsing holds.inspecting
    admissible.verdict admissible.acked
  refine ⟨left, ?_, holds.goOn goesOn here rfl, ?_, ?_⟩
  · rw [inspected]
  · intro given same
    rw [inspected] at same
    cases same
  · intro moves
    exact absurd (goesOn.nextSeq_eq flow here rfl) moves

/-- An arrival of a segment. -/
theorem inspect_segment_stream {segment : Segment}
    (whole : ∀ side, Cuts (streams side) (cuts side)) (holds : SessionStreams cuts seen s)
    (admissible : Admissible cuts seen s ⟨p, env, some segment⟩) :
    ∃ left, (dpiInspectTcp p env s).session = some left ∧
      SessionStreams cuts (observe seen ⟨p, env, some segment⟩) left ∧
      Delivers streams cuts s ⟨p, env, some segment⟩ left := by
  obtain ⟨position, flow⟩ := holds.flows p.fromClient
  obtain ⟨arrives, window, positions⟩ := admissible.payload
  have here : observe seen ⟨p, env, some segment⟩ p.fromClient =
      mark (seen p.fromClient) segment := if_pos rfl
  have there : observe seen ⟨p, env, some segment⟩ (!p.fromClient) = seen (!p.fromClient) :=
    if_neg (Bool.not_eq_self _).mp
  have cut := (whole p.fromClient).whole
  have tracked := trackSession_stream flow cut arrives window
    admissible.noSyn holds.parsing holds.inspecting admissible.acked
  rw [← dpiTcpTracker_noSyn admissible.noSyn] at tracked
  have inside : ∀ seq, some seq ∈ env.positions → offset (place (s.this p).initSeq position) seq ≤
        reached (mark (seen p.fromClient) segment) (cuts p.fromClient) - position := by
    obtain ⟨_, _, _, _, _, placed⟩ := tracked
    have limit := (placed.view cut).limit
    have asm : (s.this p).asmSeq = place (s.this p).initSeq position := flow.asmSeq
    have distance : offset (place (s.this p).initSeq position) (place (s.this p).initSeq
          (reached (mark (seen p.fromClient) segment) (cuts p.fromClient))) =
        reached (mark (seen p.fromClient) segment) (cuts p.fromClient) - position :=
      toNat_place_sub placed.below (by omega)
    intro seq member
    have bound := positions seq member
    rw [asm, distance] at bound
    exact bound
  obtain ⟨left, later, inspected, goesOn, after, gives, handed⟩ :=
    inspectTracked_stream tracked cut arrives flow holds.parsing
      holds.inspecting admissible.verdict admissible.parsers inside
  refine ⟨left, inspected, holds.goOn goesOn (here ▸ after) there, ?_, ?_⟩
  · intro given same
    obtain ⟨more, first, consumed, run, bytes⟩ := gives given same
    exact givesPart_run (whole p.fromClient) flow.asmSeq after goesOn.start more run bytes
  · intro moves
    apply handed
    intro same
    exact moves (goesOn.nextSeq_eq flow after same)

end Arrivals

/-- One arrival: the streams go on, and what is delivered is a part. -/
theorem dpiInspectTcp_stream (whole : ∀ side, Cuts (streams side) (cuts side))
    (holds : SessionStreams cuts seen s) {a : Arrival} (admissible : Admissible cuts seen s a) :
    ∃ left, (dpiInspectTcp a.packet a.env s).session = some left ∧
        SessionStreams cuts (observe seen a) left ∧ Delivers streams cuts s a left := by
  obtain ⟨p, env, carried⟩ := a
  cases carried with
  | none => exact inspect_empty_stream whole holds admissible
  | some segment => exact inspect_segment_stream whole holds admissible

def packets (arrivals : List Arrival) : List (TcpPacket × TcpEnv) :=
  arrivals.map fun a => (a.packet, a.env)

def AdmissibleRun (cuts : Bool → List Segment) :
    (Bool → Segment → Bool) → Option TcpSession → List Arrival → Prop
  | _, none, _ => True
  | _, some _, [] => True
  | seen, some s, a :: rest =>
    Admissible cuts seen s a ∧
      AdmissibleRun cuts (observe seen a) (dpiInspectTcp a.packet a.env s).session rest

theorem tcpRun_stream (whole : ∀ side, Cuts (streams side) (cuts side))
    {arrivals : List Arrival} (holds : SessionStreams cuts seen s)
    (admissible : AdmissibleRun cuts seen (some s) arrivals) :
    ∃ after, tcpRun (some s) (packets arrivals) = some after ∧
      SessionStreams cuts (arrivals.foldl observe seen) after := by
  induction arrivals generalizing seen s with
  | nil => exact ⟨s, rfl, holds⟩
  | cons a rest induction =>
    obtain ⟨step, later⟩ := admissible
    obtain ⟨after, inspected, goesOn, _⟩ := dpiInspectTcp_stream whole holds step
    rw [inspected] at later
    obtain ⟨final, ran, reaches⟩ := induction goesOn later
    refine ⟨final, ?_, reaches⟩
    change tcpRun (dpiInspectTcp a.packet a.env s).session (packets rest) = some final
    rw [inspected]
    exact ran

def Arrived (arrivals : List Arrival) (side : Bool) (segment : Segment) : Prop :=
  ∃ a ∈ arrivals, a.packet.fromClient = side ∧ a.segment = some segment

theorem observe_keeps {side : Bool} {segment : Segment} (a : Arrival)
    (shown : seen side segment = true) :
    observe seen a side segment = true := by
  unfold observe
  cases a.segment with
  | none => exact shown
  | some other =>
    simp only
    split
    · unfold mark
      rw [shown, Bool.true_or]
    · exact shown

theorem observed {arrivals : List Arrival} {side : Bool}
    {segment : Segment} (known : seen side segment = true ∨ Arrived arrivals side segment) :
    arrivals.foldl observe seen side segment = true := by
  induction arrivals generalizing seen with
  | nil =>
    rcases known with shown | ⟨a, member, _⟩
    · exact shown
    · exact absurd member not_mem_nil
  | cons a rest induction =>
    apply induction
    rcases known with shown | ⟨other, member, sender, carried⟩
    · exact Or.inl (observe_keeps a shown)
    · rcases mem_cons.mp member with rfl | later
      · left
        unfold observe
        rw [carried]
        simp only
        rw [if_pos sender.symm]
        exact mark_self
      · exact Or.inr ⟨other, later, sender, carried⟩

/-- In every state that a run of admissible arrivals reaches, a direction
whose segments have all arrived has its next sequence number at the end of the
stream, whatever a further arrival hands to the parsers is a part of the
stream without holes, and it hands over a part whenever it moves the next
sequence number. -/
theorem stream_delivered_in_order (streams : Bool → List UInt8) (cuts : Bool → List Segment)
    (whole : ∀ side, Cuts (streams side) (cuts side)) (s : TcpSession)
    (opened : Opened s) (arrivals : List Arrival)
    (admissible : AdmissibleRun cuts (fun _ _ => false) (some s) arrivals) :
    ∃ current, tcpRun (some s) (packets arrivals) = some current ∧
      (∀ side, (∀ segment ∈ cuts side, Arrived arrivals side segment) →
          (current.wing side).nextSeq = place (current.wing side).initSeq (streams side).length) ∧
      ∀ a, Admissible cuts (arrivals.foldl observe fun _ _ => false) current a → ∃ after,
          (dpiInspectTcp a.packet a.env current).session = some after ∧
            Delivers streams cuts current a after := by
  have begins : SessionStreams cuts (fun _ _ => false) s :=
    ⟨opened.parsing, opened.inspecting, fun side => ⟨0, flow_start
      (opened.start side).nextSeq (opened.start side).asmSeq
      (opened.start side).empty (cuts side)⟩⟩
  obtain ⟨current, ran, holds⟩ := tcpRun_stream whole begins admissible
  refine ⟨current, ran, ?_, ?_⟩
  · intro side all
    obtain ⟨position, flow⟩ := holds.flows side
    have ends : reached (arrivals.foldl observe (fun _ _ => false) side)
        (cuts side) = (streams side).length :=
      (whole side).whole.reach_all fun segment member => observed (Or.inr (all segment member))
    rw [flow.nextSeq, ends]
  · intro a fits
    obtain ⟨after, inspected, _, gives⟩ := dpiInspectTcp_stream whole holds fits
    exact ⟨after, inspected, gives⟩

end Streams

/-- A session after the handshake packets `SYN` and `SYN/ACK`. -/
def shakenSession : TcpSession :=
  (tcpRun (dpiInspectOpen { plainPacket true 999 0 with syn := true } calmEnv).session
    [({ plainPacket false 4999 1000 with syn := true, hasAck := true }, calmEnv)]).getD tcpOpenBySyn

theorem ten_short : (replicate 10 (0 : UInt8)).length < 65536 := by decide

def tenBytesAt (start : Nat) : Segment :=
  { start := start, data := List.replicate 10 0, short := ten_short }

def twoSegments (side : Bool) : List Segment :=
  if side then [tenBytesAt 0, tenBytesAt 10] else []

def arrivalAt (seq : UInt32) (segment : Segment) : Arrival :=
  { packet := tenBytes (plainPacket true seq 0), env := calmEnv, segment := some segment }

theorem twoSegments_cut (side : Bool) :
    Cuts (if side then replicate 20 0 else []) (twoSegments side) := by
  cases side with
  | true =>
    refine ⟨⟨⟨rfl, rfl, rfl⟩, ?_⟩, by decide⟩
    intro segment member
    rcases mem_cons.mp member with rfl | rest
    · decide
    · rw [mem_singleton.mp rest]
      decide
  | false => exact ⟨⟨rfl, nofun⟩, rfl⟩

theorem shakenSession_opened : Opened shakenSession := by
  refine ⟨?_, rfl, rfl⟩
  intro side
  cases side with
  | true | false => exact ⟨rfl, rfl, rfl⟩

theorem tail_admissible : Admissible twoSegments (fun _ _ => false) shakenSession
    (arrivalAt 1010 (tenBytesAt 10)) := by
  refine ⟨rfl, rfl, rfl, nofun, ⟨?_, rfl, ?_, ?_, ?_⟩, rfl, ?_⟩
  · exact mem_cons_of_mem _ mem_cons_self
  · decide
  · decide
  · exact fun _ => ⟨rfl, by decide⟩
  · intro seq member
    cases member with
    | tail _ rest => cases rest

theorem head_admissible {waiting : TcpSession} (ran : tcpRun (some shakenSession)
      (packets [arrivalAt 1010 (tenBytesAt 10)]) = some waiting) :
    Admissible twoSegments ([arrivalAt 1010 (tenBytesAt 10)].foldl observe fun _ _ => false)
      waiting (arrivalAt 1000 (tenBytesAt 0)) := by
  cases ran
  refine ⟨rfl, rfl, rfl, nofun, ⟨mem_cons_self, rfl, ?_, ?_, ?_⟩, rfl, ?_⟩
  · decide
  · decide
  · exact fun _ => ⟨rfl, by decide⟩
  · intro seq member
    cases member with
    | tail _ rest => cases rest

theorem head_handed {waiting : TcpSession} (ran : tcpRun (some shakenSession)
      (packets [arrivalAt 1010 (tenBytesAt 10)]) = some waiting) :
    ∃ current given, dpiInspectTcp (tenBytes (plainPacket true 1000 0)) calmEnv waiting =
        { session := some current, delivered := some given } ∧
      given.bytes = replicate 20 0 ∧ current.client.nextSeq = 1020 := by
  cases ran
  exact ⟨_, _, rfl, rfl, rfl⟩

/-- The second segment arrives first, and the parsers are given both when the
first one follows. -/
theorem stream_delivered_in_order_swapped :
    ∃ waiting current given,
      tcpRun (some shakenSession) (packets [arrivalAt 1010 (tenBytesAt 10)]) = some waiting ∧
        dpiInspectTcp (tenBytes (plainPacket true 1000 0)) calmEnv waiting =
          { session := some current, delivered := some given } ∧
        GivesPart (replicate 20 0) (twoSegments true) waiting.client current.client given ∧
        given.bytes = replicate 20 0 ∧ current.client.nextSeq = 1020 := by
  obtain ⟨waiting, ran, _, hands⟩ := stream_delivered_in_order
    (fun side => if side then replicate 20 0 else []) twoSegments
    twoSegments_cut shakenSession shakenSession_opened
    [arrivalAt 1010 (tenBytesAt 10)] ⟨tail_admissible, trivial⟩
  obtain ⟨current, given, handed, bytes, next⟩ := head_handed ran
  obtain ⟨after, inspected, gives, _⟩ := hands _ (head_admissible ran)
  have same : some current = some after := (congrArg Inspection.session handed).symm.trans inspected
  cases same
  exact ⟨waiting, current, given, ran, handed,
    gives given (congrArg Inspection.delivered handed), bytes, next⟩

/-- A parser that has consumed five bytes is given the whole first segment
again, and once no parser is left the number follows the last arrival. -/
theorem stream_not_from_asm_seq :
    (∃ s given, tcpRun (some shakenSession) [(tenBytes (plainPacket true 1000 0),
            { calmEnv with positions := [some 1005] })] = some s ∧
        (dpiInspectTcp (tenBytes (plainPacket true 1010 0)) calmEnv s).delivered = some given ∧
        s.client.asmSeq = 1005 ∧ given.seq = 1000) ∧
      ∃ s, tcpRun (some shakenSession) [(tenBytes (plainPacket true 1000 0),
              { calmEnv with positions := [], parsersGone := true }),
            (tenBytes (plainPacket true 1010 0), calmEnv),
            (tenBytes (plainPacket true 1000 0), calmEnv)] = some s ∧
          s.client.initSeq = 1000 ∧ s.client.nextSeq = 1010 := by
  constructor
  · exact ⟨_, _, rfl, rfl, rfl, rfl⟩
  · exact ⟨_, rfl, rfl, rfl⟩

end NeuVector.DataPath
