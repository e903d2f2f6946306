import NeuVector.DataPath.StreamAssembly

/-!
# The flow of a stream

Of the segments of a stream some have been seen, some of these without a hole,
and the parsers have consumed up to a position.  A wing holds the flow if its
numbers and its cache say just this.  The state machine, a `FIN` and an
acknowledgement of what was seen leave it alone.
-/

namespace NeuVector.DataPath

open Library Arrivals Segments List

def kept (seen : Segment → Bool) (position : Nat) (cut : List Segment) : List Segment :=
  live Segment.start Segment.size seen position cut

/-- How far the segments have been seen without a hole. -/
def reached (seen : Segment → Bool) (cut : List Segment) : Nat := reach Segment.size seen cut

/-- The kept segments without a hole. -/
def readable (seen : Segment → Bool) (position : Nat) (cut : List Segment) : List Segment :=
  run Segment.start Segment.size seen position cut

/-- The kept segments behind a hole. -/
def beyond (seen : Segment → Bool) (position : Nat) (cut : List Segment) : List Segment :=
  early Segment.start Segment.size seen position cut

def StreamCut (length : Nat) (cut : List Segment) : Prop :=
  Arrivals.Cut Segment.start Segment.size length cut

/-- The wing holds what has been seen of a stream and not been consumed. -/
structure Flow (cut : List Segment) (seen : Segment → Bool) (position : Nat)
    (w : TcpWing) : Prop where
  asmSeq : w.asmSeq = place w.initSeq position
  nextSeq : w.nextSeq = place w.initSeq (reached seen cut)
  below : position ≤ reached seen cut
  cache : CacheOf w.initSeq (kept seen position cut) w.asmCache
  small : total Segment.size (kept seen position cut) < 65536
  window : ∀ segment ∈ kept seen position cut,
    segment.start + segment.size ≤ reached seen cut + 1073741824

section Flows

variable {cut : List Segment} {seen : Segment → Bool} {position length : Nat}
  {w after : TcpWing} {segment : Segment}

theorem kept_eq (seen : Segment → Bool) (position : Nat) (cut : List Segment) :
    kept seen position cut = readable seen position cut ++ beyond seen position cut :=
  live_eq

theorem mem_kept : segment ∈ kept seen position cut ↔
    segment ∈ readable seen position cut ∨ segment ∈ beyond seen position cut := by
  rw [kept_eq, mem_append]

/-- What has been seen and not been consumed lies close to the position. -/
structure View (length : Nat) (cut : List Segment) (seen : Segment → Bool)
    (position : Nat) : Prop where
  whole : StreamCut length cut
  below : position ≤ reached seen cut
  small : total Segment.size (kept seen position cut) < 65536
  window : ∀ segment ∈ kept seen position cut,
    segment.start + segment.size ≤ reached seen cut + 1073741824

theorem CacheOf.within {initSeq : UInt32} {segments : List Segment} {asm : Asm}
    (cache : CacheOf initSeq segments asm) (small : total Segment.size segments < 65536) :
    ¬ UInt32.ofNat dpiMaxPktLen < asm.gross := by
  rw [cache.gross, UInt32.lt_iff_toNat_lt, toNat_ofNat_small small]
  exact Nat.not_lt.mpr (Nat.le_of_lt small)

theorem Flow.view (flow : Flow cut seen position w)
    (whole : StreamCut length cut) : View length cut seen position :=
  ⟨whole, flow.below, flow.small, flow.window⟩

section

variable (view : View length cut seen position)
include view

theorem View.limit : reached seen cut < position + 65536 := by
  obtain ⟨consumed, first, _, _, back, below⟩ := view.whole.run_chain seen position
  have sizes := back.total_eq
  have small := view.small
  rw [kept_eq, total_append] at small
  unfold reached readable at *
  omega

theorem View.near_of_ahead (window : segment.start + segment.size ≤ reached seen cut + 1073741824)
    (ahead : position < segment.start + segment.size) :
    Near position segment.start ∧ Near position (segment.start + segment.size) := by
  have limit := view.limit
  have short := segment.short
  unfold Near
  unfold Segment.size at *
  omega

theorem View.spread : Spread position (kept seen position cut) := by
  refine ⟨view.whole.live_apart, ?_, ?_⟩
  · intro segment member
    exact view.whole.filled segment (of_mem_live member).1
  · intro segment member
    exact view.near_of_ahead (view.window segment member) (of_mem_live member).2.2

theorem View.reached_near : Near position (reached seen cut) := by
  have limit := view.limit
  have below := view.below
  exact ⟨by omega, by omega⟩

end

theorem Flow.same (flow : Flow cut seen position w)
    (same : SameFlow w after) : Flow cut seen position after := by
  refine ⟨?_, ?_, flow.below, ?_, flow.small, flow.window⟩
  · rw [same.asmSeq, same.initSeq]
    exact flow.asmSeq
  · rw [same.nextSeq, same.initSeq]
    exact flow.nextSeq
  · rw [same.initSeq, same.asmCache]
    exact flow.cache

theorem flow_start (next : w.nextSeq = w.initSeq) (asm : w.asmSeq = w.initSeq)
    (empty : w.asmCache = asmInit) (cut : List Segment) :
    Flow cut (fun _ => false) 0 w := by
  have none : kept (fun _ => false) 0 cut = [] := by
    apply filter_eq_nil_iff.mpr
    intro segment _
    exact Bool.false_ne_true
  have zero : reached (fun _ => false) cut = 0 := by
    cases cut with
    | nil | cons segment rest => rfl
  have start : place w.initSeq 0 = w.initSeq := UInt32.add_zero w.initSeq
  refine ⟨?_, ?_, Nat.zero_le _, ?_, ?_, ?_⟩
  · rw [start]
    exact asm
  · rw [zero, start]
    exact next
  · rw [none, empty]
    exact ⟨rfl, rfl⟩
  · rw [none]
    decide
  · intro segment member
    rw [none] at member
    exact absurd member not_mem_nil

end Flows

variable {pkt : PktState}

section Frames

variable {s after : TcpSession} {p : TcpPacket} {env : TcpEnv}

theorem stateMachine_flow (noSyn : p.syn = false) :
    SessionFlow s (tcpUpdateWing p (tcpUpdateState p s).2 (tcpUpdateState p s).1) ∧
      (tcpUpdateState p s).1 ≠ .split := by
  obtain ⟨evt, client, server, result, reported⟩ := tcpUpdateState_cases p s
  rw [result]
  have syns : ¬ p.syn = true := Bool.eq_false_iff.mp noSyn
  refine ⟨(flow_toStates s client server).trans
    (tcpUpdateWing_flow p (s.toStates client server) ?_ ?_), ?_⟩
  · exact fun isSyn => syns (reported.syn isSyn).1
  · exact fun isSynack => syns (reported.synack isSynack).1
  · exact fun misuse => syns (reported.misuse misuse)

theorem splitThreat_other {evt : TcpEvt} (pkt : PktState)
    (other : evt ≠ .split) : splitThreat env evt pkt = pkt := by
  cases evt with
  | split => exact absurd rfl other
  | normal | syn | synack | twh | fin | rst => rfl

theorem tcpIsInWindow_noteWindow (p : TcpPacket) (s : TcpSession) :
    tcpIsInWindow p (noteWindow p s) = tcpIsInWindow p s := by
  unfold noteWindow tcpIsInWindow TcpSession.this TcpSession.that TcpSession.setThis
  cases p.fromClient with
  | true | false => rfl

theorem dpiIsActionFinal_none (p : TcpPacket) :
    dpiIsActionFinal p .none = false := Bool.and_false (!p.tap)

/-- The tracker without a `SYN` and a final action: nothing but the payload,
the `FIN` and the acknowledgement can change a direction. -/
theorem trackFresh_flow (noSyn : p.syn = false) (inspecting : s.action = .none) :
    ∃ opened, SessionFlow s opened ∧ (tcpIsInWindow p s = false →
        trackFresh p env s = .attached opened { newPkt with skipParser := true }) ∧
      (tcpIsInWindow p s = true →
        let sequenced := trackPayload p env opened newPkt
        let acked := trackAck p (trackFin p sequenced.1 sequenced.2) sequenced.2
        trackFresh p env s = .attached acked.1 acked.2) := by
  have moved : SessionFlow s (noteWindow p s) := flow_setWing ⟨rfl, rfl, rfl, rfl⟩
  have window := tcpIsInWindow_noteWindow p s
  unfold trackFresh
  simp only
  generalize noteWindow p s = opened at moved window ⊢
  rw [← window]
  obtain ⟨kept, notSplit⟩ := @stateMachine_flow opened p noSyn
  cases inside : tcpIsInWindow p opened with
  | false => exact ⟨opened, moved, fun _ => rfl, nofun⟩
  | true =>
    refine ⟨_, moved.trans kept, nofun, fun _ => ?_⟩
    rw [splitThreat_other newPkt notSplit, (kept.action.trans moved.action).trans inspecting]
    change (if !true then _ else if dpiIsActionFinal p .none ||
      dpiIsActionFinal p .none then _ else _) = _
    rw [dpiIsActionFinal_none]
    rfl

section

variable (s : TcpSession) (p : TcpPacket)

theorem this_setThis (w : TcpWing) : (s.setThis p w).this p = w := by
  unfold TcpSession.setThis TcpSession.this
  rw [wing_setWing, if_pos rfl]

theorem setThis_setThis (w w' : TcpWing) : (s.setThis p w).setThis p w' = s.setThis p w' := by
  unfold TcpSession.setThis
  cases p.fromClient with
  | true | false => rfl

theorem setThis_this : s.setThis p (s.this p) = s := by
  unfold TcpSession.setThis TcpSession.this
  cases p.fromClient with
  | true | false => rfl

theorem that_setThis (w : TcpWing) : (s.setThis p w).that p = s.that p := by
  unfold TcpSession.setThis TcpSession.that
  cases p.fromClient with
  | true | false => rfl

theorem setThis_skipParser (w : TcpWing) : (s.setThis p w).skipParser = s.skipParser :=
  setWing_skipParser s p.fromClient w

theorem setThis_action (w : TcpWing) : (s.setThis p w).action = s.action :=
  setWing_action s p.fromClient w

end

theorem updateNextSeq_setThis (p : TcpPacket) (s : TcpSession) (w : TcpWing) (pkt : PktState) :
    updateNextSeq p (s.setThis p w) pkt =
      if u32Lt w.nextSeq (pkt.range p).1 then (s.setThis p w, { pkt with skipParser := true })
      else if u32Lt w.nextSeq (pkt.range p).2 then
        (s.setThis p { w with nextSeq := (pkt.range p).2 }, pkt)
      else (s.setThis p w, { pkt with skipParser := true }) := by
  unfold updateNextSeq
  simp only [this_setThis, setThis_setThis]

theorem u32Lt_self (seq : UInt32) : u32Lt seq seq = false := by
  unfold u32Lt signedDistance
  rw [UInt32.sub_self]
  rfl

theorem u32Gt_self (seq : UInt32) : u32Gt seq seq = false := by
  unfold u32Gt signedDistance
  rw [UInt32.sub_self]
  rfl

theorem u32Lt_add {seq : UInt32} {size : Nat} (filled : 0 < size) (short : size < halfSpace) :
    u32Lt seq (seq + UInt32.ofNat size) = true := by
  have none : offset seq seq < halfSpace := by
    rw [offset_self]
    exact Nat.lt_of_le_of_lt (Nat.zero_le _) short
  have ends : offset seq (seq + UInt32.ofNat size) = size := by
    rw [offset_add (by rw [offset_self]; omega), offset_self, Nat.zero_add]
  rw [u32Lt_offset none (by rw [ends]; exact short), ends, offset_self]
  exact decide_eq_true filled

theorem trackFin_payload {pkt : PktState} {size : Nat} (filled : 0 < size)
    (short : size < halfSpace) (range : (pkt.range p).2 = (pkt.range p).1 + UInt32.ofNat size) :
    trackFin p (updateNextSeq p s pkt).1 (updateNextSeq p s pkt).2 = (updateNextSeq p s pkt).1 := by
  have grows := @u32Lt_add (pkt.range p).1 size filled short
  rw [← range] at grows
  have apart : (pkt.range p).2 ≠ (pkt.range p).1 := by
    intro same
    rw [same, u32Lt_self] at grows
    cases grows
  rw [← setThis_this s p, updateNextSeq_setThis]
  generalize s.this p = w
  have unmoved : ∀ pkt' : PktState, pkt'.assembled = pkt.assembled → w.nextSeq ≠ (pkt.range p).1 →
        trackFin p (s.setThis p w) pkt' = s.setThis p w := by
    intro pkt' same different
    have here : pkt'.range p = pkt.range p := by
      unfold PktState.range
      rw [same]
    unfold trackFin
    simp only [this_setThis, here]
    rw [if_neg]
    rw [Bool.and_eq_true, decide_eq_true_eq]
    exact fun both => different both.2
  split
  next early =>
    apply unmoved _ rfl
    intro same
    rw [same, u32Lt_self] at early
    cases early
  · split
    · unfold trackFin
      simp only [this_setThis]
      rw [if_neg]
      rw [Bool.and_eq_true, decide_eq_true_eq]
      exact fun both => apart both.2
    next old =>
      apply unmoved _ rfl
      intro same
      rw [same, grows] at old
      exact old rfl

theorem trackAck_seen (acked : p.hasAck = true → u32Gt p.ack (s.that p).nextSeq = false) :
    trackAck p s pkt = (s, pkt) := by
  unfold trackAck
  rw [if_neg]
  rw [Bool.and_eq_true]
  rintro ⟨hasAck, unseen⟩
  rw [acked hasAck] at unseen
  cases unseen

end Frames

end NeuVector.DataPath
