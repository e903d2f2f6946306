import NeuVector.DataPath.StreamSegment

/-!
# A segment of a stream is sequenced

The tracker moves the next sequence number to the end of what has been seen
without a hole.  The parsers are to be given what is readable exactly when the
number moves; an early segment and one that was seen before are kept from
them.
-/

namespace NeuVector.DataPath

open Library Arrivals Segments List

section Carrying

variable {pkt : PktState} {after : TcpWing} {s : TcpSession} {p : TcpPacket} {env : TcpEnv}
  {cut : List Segment} {seen : Segment → Bool} {position length : Nat}
  {segment : Segment} {w : TcpWing}

/-- The direction when the tracker is done with a segment, before the parsers
have seen it. -/
structure Sequenced (cut : List Segment) (seen : Segment → Bool)
    (position : Nat) (w : TcpWing) (p : TcpPacket) (env : TcpEnv)
    (segment : Segment) (after : TcpWing) (pkt : PktState) : Prop where
  initSeq : after.initSeq = w.initSeq
  asmSeq : after.asmSeq = place w.initSeq position
  nextSeq : after.nextSeq = place w.initSeq (reached (mark seen segment) cut)
  stored : Stored cut (mark seen segment) position w.initSeq env segment pkt after.asmCache
  below : position ≤ reached (mark seen segment) cut
  small : total Segment.size (kept (mark seen segment) position cut) < 65536
  window : ∀ other ∈ kept (mark seen segment) position cut,
    other.start + other.size ≤ reached (mark seen segment) cut + 1073741824
  action : pkt.action.aboveAllow = false
  offers : pkt.skipParser = false → position < reached (mark seen segment) cut ∧
      Offers cut (mark seen segment) position w.initSeq p pkt
  handed : reached (mark seen segment) cut ≠ reached seen cut → pkt.skipParser = false

theorem Sequenced.view (placed : Sequenced cut seen position w p env segment after pkt)
    (whole : StreamCut length cut) :
    View length cut (mark seen segment) position :=
  ⟨whole, placed.below, placed.small, placed.window⟩

theorem NewSegment.sequence (fresh : NewSegment length cut seen position (s.this p) p env segment)
    (parsing : s.skipParser = false) :
    ∃ after pkt, trackPayload p env s newPkt = (s.setThis p after, pkt) ∧
        trackFin p (s.setThis p after) pkt = s.setThis p after ∧
        Sequenced cut seen position (s.this p) p env segment after pkt := by
  obtain ⟨assembled, pkt, result, new⟩ := fresh.assemble
  have carries := fresh.arrives.carries
  have filled := fresh.filled
  have below := fresh.flow.below
  have starts := fresh.start_le
  have reachedNear := (fresh.flow.view fresh.whole).reached_near
  have laterNear := fresh.view.reached_near
  have payload : trackPayload p env s newPkt = updateNextSeq p (s.setThis p assembled) pkt := by
    unfold trackPayload
    rw [if_neg (carries.payload filled), if_neg (Bool.eq_false_iff.mp parsing), result]
  have action : pkt.action.aboveAllow = false := by
    rw [new.action]
    rfl
  have next := new.nextSeq
  rw [fresh.flow.nextSeq] at next
  rcases Nat.eq_or_lt_of_le starts with meets | early
  · obtain ⟨_, grows⟩ := fresh.meets meets.symm
    have offered := new.next meets.symm
    obtain ⟨first, consumed, run, range, _⟩ := new.next meets.symm
    have firstBelow := run.below
    have short := fresh.view.limit
    have sizes := run.chain.total_eq
    have small := fresh.small
    rw [kept_eq, total_append] at small
    have firstNear : Near position first := ⟨by omega, by omega⟩
    have notEarly : u32Lt assembled.nextSeq (pkt.range p).1 = false := by
      rw [next, range, u32Lt_place reachedNear firstNear]
      exact decide_eq_false (by omega)
    have grown : u32Lt assembled.nextSeq (pkt.range p).2 = true := by
      rw [next, range, u32Lt_place reachedNear laterNear]
      exact decide_eq_true (by omega)
    have spans : (pkt.range p).2 = (pkt.range p).1 + UInt32.ofNat
        (reached (mark seen segment) cut - first) := by
      have whole : first + (reached (mark seen segment) cut -
          first) = reached (mark seen segment) cut := by omega
      rw [range, place_add, whole]
    have finished := @trackFin_payload (s.setThis p assembled) p pkt _
      (by omega) (by unfold halfSpace; omega) spans
    rw [updateNextSeq_setThis, if_neg (Bool.eq_false_iff.mp notEarly),
      if_pos grown] at payload finished
    refine ⟨_, pkt, payload, finished, ?_⟩
    refine ⟨new.initSeq, new.asmSeq.trans fresh.flow.asmSeq, ?_, new.stored,
      by omega, fresh.small, fresh.window, action, fun _ => ⟨by omega, offered⟩,
      fun _ => new.parsing⟩
    rw [range]
  · have plain := new.early early
    have range : pkt.range p = (p.seq, p.stop) := by
      unfold PktState.range
      rw [plain]
    have same := (fresh.waits early).2
    have tooEarly : u32Lt assembled.nextSeq (pkt.range p).1 = true := by
      rw [next, range, carries.seq, u32Lt_place reachedNear fresh.near.1]
      exact decide_eq_true early
    have spans : (pkt.range p).2 = (pkt.range p).1 + UInt32.ofNat segment.size := by
      rw [range, ← carries.len]
      rfl
    have short : segment.size < 65536 := segment.short
    have finished := @trackFin_payload (s.setThis p assembled) p pkt _
      filled (by unfold halfSpace; omega) spans
    rw [updateNextSeq_setThis, if_pos tooEarly] at payload finished
    refine ⟨_, _, payload, finished, ?_⟩
    refine ⟨new.initSeq, new.asmSeq.trans fresh.flow.asmSeq, ?_, new.stored,
      by omega, fresh.small, fresh.window, action, nofun, fun grows => absurd same grows⟩
    rw [same]
    exact next

theorem mark_of_seen (shown : seen segment = true) : mark seen segment = seen := by
  funext other
  by_cases same : other = segment
  · rw [same, mark_self, shown]
  · exact mark_other same

theorem sequenced_seen (flow : Flow cut seen position w)
    (shown : seen segment = true) (skipped : pkt.skipParser = true)
    (action : pkt.action.aboveAllow = false)
    (handled : pkt.cached = true ∨ segment.start + segment.size ≤ position) :
    Sequenced cut seen position w p env segment w pkt := by
  have same := mark_of_seen shown
  constructor
  · rfl
  · exact flow.asmSeq
  · rw [same]
    exact flow.nextSeq
  · rw [same]
    exact Or.inl ⟨flow.cache, handled⟩
  · rw [same]
    exact flow.below
  · rw [same]
    exact flow.small
  · rw [same]
    exact flow.window
  · exact action
  · intro parses
    rw [skipped] at parses
    cases parses
  · intro grows
    rw [same] at grows
    exact absurd rfl grows

theorem sequence_old (flow : Flow cut seen position (s.this p)) (whole : StreamCut length cut)
    (arrives : Arrives cut seen (s.this p) p env segment)
    (parsing : s.skipParser = false) (shown : seen segment = true)
    (old : segment.start + segment.size ≤ position) :
    ∃ pkt, trackPayload p env s newPkt = (s, pkt) ∧ trackFin p s pkt = s ∧
        Sequenced cut seen position (s.this p) p env segment (s.this p) pkt := by
  have carries := arrives.carries
  have filled := whole.filled segment arrives.member
  have payload := carries.payload filled
  have below := flow.below
  have behind := arrives.behind
  have reachedNear := (flow.view whole).reached_near
  have startNear : Near position segment.start := ⟨by omega, by omega⟩
  have stopNear : Near position (segment.start + segment.size) := ⟨by omega, by omega⟩
  have past : (decide (p.len = 0) || u32Lte p.stop (s.this p).asmSeq) = true := by
    rw [carries.stop, flow.asmSeq, u32Lte_place stopNear (near_self position),
      decide_eq_true old, Bool.or_true]
  have notEarly : u32Lt (s.this p).nextSeq (newPkt.range p).1 = false := by
    change u32Lt _ p.seq = false
    rw [flow.nextSeq, carries.seq, u32Lt_place reachedNear startNear]
    exact decide_eq_false (by omega)
  have nothing : u32Lt (s.this p).nextSeq (newPkt.range p).2 = false := by
    change u32Lt _ p.stop = false
    rw [flow.nextSeq, carries.stop, u32Lt_place reachedNear stopNear]
    exact decide_eq_false (by omega)
  have updated : trackPayload p env s newPkt = updateNextSeq p (s.setThis p (s.this p)) newPkt := by
    unfold trackPayload
    rw [if_neg payload, if_neg (Bool.eq_false_iff.mp parsing), setThis_this]
    unfold tcpAssembly
    rw [if_pos past]
  have spans : (newPkt.range p).2 = (newPkt.range p).1 + UInt32.ofNat segment.size := by
    rw [← carries.len]
    rfl
  have finished := @trackFin_payload (s.setThis p (s.this p)) p newPkt _
    filled (by unfold halfSpace; omega) spans
  rw [updateNextSeq_setThis, if_neg (Bool.eq_false_iff.mp notEarly),
    if_neg (Bool.eq_false_iff.mp nothing), setThis_this] at updated finished
  exact ⟨_, updated, finished, sequenced_seen flow shown rfl rfl (Or.inr old)⟩

theorem Flow.absent (flow : Flow cut seen position w) (whole : StreamCut length cut)
    (near : Near position segment.start) (member : segment ∈ cut)
    (gone : ¬ (seen segment = true ∧ position < segment.start + segment.size)) :
    asmLookup w.asmCache (place w.initSeq segment.start) = none := by
  apply flow.cache.lookup_none (flow.view whole).spread near
  intro other inside same
  obtain ⟨otherMember, shown, ahead⟩ := of_mem_live inside
  have filled := whole.filled segment member
  have otherFilled := whole.filled other otherMember
  have otherCovers : other.start ≤ segment.start ∧
      segment.start < other.start + other.size := ⟨by omega, by omega⟩
  have covers : segment.start ≤ segment.start ∧
      segment.start < segment.start + segment.size := ⟨by omega, by omega⟩
  have equal : other = segment := whole.chain.apart.unique otherMember member otherCovers covers
  rw [equal] at shown ahead
  exact gone ⟨shown, ahead⟩

theorem Arrives.same (arrives : Arrives cut seen w p env segment)
    (same : SameFlow w after) : Arrives cut seen after p env segment := by
  refine ⟨arrives.member, ?_, arrives.behind, arrives.ahead, ?_⟩
  · rw [same.initSeq]
    exact arrives.carries
  · rw [same.asmCache]
    exact arrives.room

theorem Sequenced.same {before : TcpWing}
    (sequenced : Sequenced cut seen position w p env segment after pkt) (same : SameFlow before w) :
    Sequenced cut seen position before p env segment after pkt := by
  have start := same.initSeq
  constructor
  · exact sequenced.initSeq.trans start
  · rw [← start]
    exact sequenced.asmSeq
  · rw [← start]
    exact sequenced.nextSeq
  · rw [← start]
    exact sequenced.stored
  · exact sequenced.below
  · exact sequenced.small
  · exact sequenced.window
  · exact sequenced.action
  · rw [← start]
    exact sequenced.offers
  · exact sequenced.handed

/-- The session after the tracker: nothing but the direction of the packet has
changed. -/
def TrackedStream (cut : List Segment) (seen : Segment → Bool)
    (position : Nat) (s : TcpSession) (p : TcpPacket) (env : TcpEnv)
    (segment : Segment) (result : TrackResult) : Prop :=
  ∃ opened after pkt, SessionFlow s opened ∧ result = .attached (opened.setThis p after) pkt ∧
    Sequenced cut seen position (s.this p) p env segment after pkt

theorem trackSession_stream (flow : Flow cut seen position (s.this p))
    (whole : StreamCut length cut) (arrives : Arrives cut seen (s.this p) p env segment)
    (window : tcpIsInWindow p s = true) (noSyn : p.syn = false)
    (parsing : s.skipParser = false) (inspecting : s.action = .none)
    (acked : p.hasAck = true → u32Gt p.ack (s.that p).nextSeq = false) :
    TrackedStream cut seen position s p env segment (trackSession p env s) := by
  have carries := arrives.carries
  have filled := whole.filled segment arrives.member
  have payload := carries.payload filled
  obtain ⟨opened, frame, _, inWindow⟩ := @trackFresh_flow s p env noSyn inspecting
  have tracked := inWindow window
  have same : SameFlow (s.this p) (opened.this p) := frame.wings p.fromClient
  have openedAcked : ∀ after : TcpWing, p.hasAck = true →
      u32Gt p.ack ((opened.setThis p after).that p).nextSeq = false := by
    intro after hasAck
    have other : (opened.that p).nextSeq = (s.that p).nextSeq :=
      (frame.wings (!p.fromClient)).nextSeq
    rw [that_setThis, other]
    exact acked hasAck
  have openedFlow := flow.same same
  have openedArrives := arrives.same same
  have openedParsing := frame.parsing.trans parsing
  have fresh : asmLookup (s.this p).asmCache p.seq = none →
      trackSession p env s = trackFresh p env s := by
    intro absent
    unfold trackSession
    rw [if_neg payload, absent]
  have behind := arrives.behind
  have below := flow.below
  by_cases shown : seen segment = true
  · by_cases ahead : position < segment.start + segment.size
    · have inside : segment ∈ kept seen position cut := mem_live arrives.member shown ahead
      have found := flow.cache.lookup (flow.view whole).spread inside
      rw [← carries.seq] at found
      have sameLen : (segment.clip (s.this p).initSeq).len = p.len :=
        (congrArg Clip.len carries).symm
      have repeated : trackSession p env s = .attached (s.setThis p (s.this p))
          { action := .allow
            cached := true
            skipParser := true
            assembled := none } := by
        unfold trackSession
        rw [if_neg payload, found, setThis_this]
        simp only
        rw [if_pos sameLen]
      exact ⟨s, s.this p, _, SessionFlow.refl s, repeated,
        sequenced_seen flow shown rfl rfl (Or.inl rfl)⟩
    · have near : Near position segment.start := ⟨by omega, by omega⟩
      have absent := flow.absent whole near arrives.member fun both => ahead both.2
      rw [← carries.seq] at absent
      obtain ⟨pkt, sequenced, finished, old⟩ := sequence_old openedFlow
        whole openedArrives openedParsing shown (Nat.not_lt.mp ahead)
      have seenAck := openedAcked (opened.this p)
      rw [setThis_this] at seenAck
      refine ⟨opened, opened.this p, pkt, frame, ?_, old.same same⟩
      rw [fresh absent, tracked, sequenced, finished, trackAck_seen seenAck, setThis_this]
  · have unseen : seen segment = false := Bool.eq_false_iff.mpr shown
    have new : NewSegment length cut seen position (s.this p) p env
        segment := ⟨whole, flow, arrives, unseen⟩
    have openedNew : NewSegment length cut seen position (opened.this p) p
        env segment := ⟨whole, openedFlow, openedArrives, unseen⟩
    have absent := flow.absent whole new.near.1 arrives.member fun both => shown both.1
    rw [← carries.seq] at absent
    obtain ⟨after, pkt, sequenced, finished, placed⟩ := openedNew.sequence openedParsing
    refine ⟨opened, after, pkt, frame, ?_, placed.same same⟩
    rw [fresh absent, tracked, sequenced, finished, trackAck_seen (openedAcked after)]

end Carrying

end NeuVector.DataPath
