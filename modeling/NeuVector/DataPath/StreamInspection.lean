import NeuVector.DataPath.StreamSequence

/-!
# A packet of a stream is inspected

The parsers leave their position in what they are given, and the cache keeps
what lies behind it.  A packet without payload changes nothing in the flows of
the two directions.
-/

namespace NeuVector.DataPath

open Library Arrivals Segments List

section Carrying

variable {pkt : PktState} {after : TcpWing} {s : TcpSession} {p : TcpPacket} {env : TcpEnv}
  {cut : List Segment} {seen : Segment → Bool} {position length : Nat}
  {segment : Segment} {initSeq : UInt32} {w : TcpWing}

theorem place_offset (seq base : UInt32) (position : Nat) :
    seq = place base (position + offset (place base position) seq) := by
  unfold offset
  rw [← place_add, UInt32.ofNat_toNat, UInt32.add_comm, UInt32.sub_add_cancel]

theorem earliestPosition_place {limit : Nat} (asm : w.asmSeq = place initSeq position)
    (next : w.nextSeq = place initSeq limit) (below : position ≤ limit)
    (positions : List (Option UInt32))
    (inside : ∀ seq, some seq ∈ positions →
      offset (place initSeq position) seq ≤ limit - position) :
    ∃ later, position ≤ later ∧ later ≤ limit ∧
      earliestPosition w positions = place initSeq later := by
  apply foldlRecOn (motive := fun reached =>
    ∃ later, position ≤ later ∧ later ≤ limit ∧ reached = place initSeq later)
  · exact ⟨limit, below, Nat.le_refl _, next⟩
  · intro reached placed seq member
    simp only
    split
    · cases seq with
      | none => exact ⟨position, Nat.le_refl _, below, asm⟩
      | some seq =>
        have near := inside seq member
        exact ⟨position + offset (place initSeq position) seq,
          by omega, by omega, place_offset seq initSeq position⟩
    · exact placed

theorem kept_forward {later : Nat} (whole : StreamCut length cut) (forward : position ≤ later) :
    (kept seen position cut).dropWhile (fun segment =>
        decide (segment.start + segment.size ≤ later)) =
      kept seen later cut :=
  live_forward forward whole.live_apart

theorem View.forward {later : Nat} (view : View length cut seen position)
    (forward : position ≤ later) (below : later ≤ reached seen cut) :
    View length cut seen later := by
  refine ⟨view.whole, below, ?_, ?_⟩
  · have small := view.small
    rw [← takeWhile_append_dropWhile (p := fun segment : Segment =>
          decide (segment.start + segment.size ≤ later))
        (l := kept seen position cut),
      total_append, kept_forward view.whole forward] at small
    omega
  · intro other member
    obtain ⟨inside, shown, ahead⟩ := of_mem_live member
    exact view.window other (mem_live inside shown (Nat.lt_of_le_of_lt forward ahead))

theorem dpiPostCachePacket_stream {later : Nat} {pkt : PktState}
    (view : View length cut seen position) (parsing : s.skipParser = false)
    (start : w.initSeq = initSeq) (asm : w.asmSeq = place initSeq later)
    (next : w.nextSeq = place initSeq (reached seen cut))
    (forward : position ≤ later) (below : later ≤ reached seen cut) (filled : 0 < segment.size)
    (carries : Carries initSeq p segment) (stopNear : Near position (segment.start + segment.size))
    (stored : Stored cut seen position initSeq env segment pkt w.asmCache) :
    ∃ final, dpiPostCachePacket p env (s.setThis p w) pkt = (s.setThis p final, pkt) ∧
      Flow cut seen later final ∧ final.initSeq = initSeq := by
  subst start
  have limit := view.limit
  have laterNear : Near position later := ⟨by omega, by omega⟩
  have laterView := view.forward forward below
  have keeps : ∀ cache : Asm, CacheOf w.initSeq (kept seen later cut) cache →
      Flow cut seen later { w with asmCache := cache } :=
    fun _ holds => ⟨asm, next, below, holds, laterView.small, laterView.window⟩
  have beyond : u32Gt p.stop w.asmSeq = decide (later < segment.start + segment.size) := by
    rw [carries.stop, asm]
    exact u32Gt_place stopNear laterNear
  have payload := carries.payload filled
  have working := (setThis_skipParser s p w).trans parsing
  unfold dpiPostCachePacket
  simp only [this_setThis, setThis_setThis]
  rw [if_neg (Bool.eq_false_iff.mp working), beyond]
  rcases stored with ⟨cache, handled⟩ | ⟨uncached, memory, cache, single⟩
  · have flushed := cache.flush (fun other member => (view.spread.near other member).2) laterNear
    rw [kept_forward view.whole forward, ← asm] at flushed
    have nothing : (!pkt.cached && decide (p.len ≠ 0) &&
        decide (later < segment.start + segment.size)) = false := by
      rcases handled with cached | old
      · rw [cached]
        rfl
      · rw [decide_eq_false (by omega : ¬ later < segment.start + segment.size), Bool.and_false]
    rw [if_neg (Bool.eq_false_iff.mp nothing)]
    exact ⟨_, rfl, keeps _ flushed, rfl⟩
  · have empty : w.asmCache.tree.toList = [] := cache.clips
    have unflushed : asmFlush w.asmSeq w.asmCache.tree.toList w.asmCache = w.asmCache := by
      rw [empty]
      rfl
    have left := @kept_forward cut seen position length later view.whole forward
    rw [single] at left
    rw [unflushed, uncached, decide_eq_true payload]
    simp only [Bool.not_false, Bool.true_and, decide_eq_true_eq]
    by_cases consumed : later < segment.start + segment.size
    · rw [if_pos consumed]
      rw [dropWhile_cons_of_neg (by
        rw [decide_eq_true_eq]
        omega)] at left
      have spread := view.spread
      have small := view.small
      rw [single] at spread small
      obtain ⟨inserted, result, holds⟩ :=
        @CacheOf.insert w.initSeq position segment w.asmCache [] [] cache spread
      have absent : asmLookup w.asmCache p.seq = none := by
        rw [carries.seq]
        apply cache.lookup_none ⟨List.Pairwise.nil, nofun, nofun⟩
          (spread.near segment mem_cons_self).1
        exact nofun
      have cached : dpiCachePacket p env { w with asmCache := w.asmCache } true =
          some { w with asmCache := inserted } :=
        carries.cached memory (fun _ => absent) result
      rw [cached]
      simp only [Option.getD_some]
      rw [if_neg (holds.within small)]
      refine ⟨_, rfl, keeps _ ?_, rfl⟩
      rw [← left]
      exact holds
    · rw [if_neg consumed]
      rw [dropWhile_cons_of_pos (by
        rw [decide_eq_true_eq]
        omega)] at left
      refine ⟨_, rfl, keeps _ ?_, rfl⟩
      rw [← left]
      exact cache

theorem dpiSetAction_plain (act : DpiAction) (plain : pkt.action.aboveAllow = false) :
    dpiSetAction pkt act = { pkt with action := act } := by
  unfold dpiSetAction
  rw [plain]
  rfl

theorem sessionAction_plain (goesOn : dpiIsActionFinal p pkt.action = false) :
    sessionAction p s pkt = s := by
  unfold dpiIsActionFinal at goesOn
  rw [Bool.or_eq_false_iff, decide_eq_false_iff_not] at goesOn
  obtain ⟨notBypass, notBlocked⟩ := goesOn
  unfold sessionAction
  cases tap : p.tap with
  | true => exact if_neg notBypass
  | false =>
    rw [tap] at notBlocked
    cases act : pkt.action with
    | none | allow => rfl
    | drop | reset =>
      rw [act] at notBlocked
      cases notBlocked
    | bypass => exact absurd act notBypass
    | block =>
      rw [act] at notBlocked
      cases notBlocked

theorem inspectTracked_plain {parsed final : TcpSession} {delivered : Option Delivery}
    (plain : pkt.action.aboveAllow = false) (inspecting : s.action = .none)
    (verdict : dpiIsActionFinal p env.verdict = false)
    (parses : dpiPktProtoParser p env s { pkt with action := .none } = (parsed, delivered))
    (cached : dpiPostCachePacket p env parsed { pkt with action := env.verdict } =
      (final, { pkt with action := env.verdict })) :
    inspectTracked p env (.attached s pkt) = { session := some final, delivered := delivered } := by
  have judged : (if env.verdict = .none then ({ pkt with action := .none } : PktState)
      else dpiSetAction { pkt with action := .none } env.verdict) =
        { pkt with action := env.verdict } := by
    split
    next none => rw [none]
    · exact dpiSetAction_plain env.verdict rfl
  unfold inspectTracked
  simp only
  rw [inspecting, dpiSetAction_plain .none plain]
  have asks : (decide (DpiAction.none ≠ .bypass) &&
      (p.tap || !DpiAction.aboveAllow .none)) = true := by
    cases p.tap with
    | true | false => rfl
  simp only [asks, if_true, judged, verdict, Bool.false_eq_true, if_false, parses, cached]
  rw [sessionAction_plain verdict]

/-- The session goes on, and only the direction of the packet may differ. -/
structure GoesOn (s : TcpSession) (p : TcpPacket) (after : TcpSession) : Prop where
  parsing : after.skipParser = false
  action : after.action = .none
  that : SameFlow (s.that p) (after.that p)
  start : (after.this p).initSeq = (s.this p).initSeq

variable {opened : TcpSession}

theorem goesOn_setThis {final : TcpWing} (frame : SessionFlow s opened)
    (parsing : s.skipParser = false) (inspecting : s.action = .none)
    (start : final.initSeq = (s.this p).initSeq) :
    GoesOn s p (opened.setThis p final) := by
  constructor
  · exact (setThis_skipParser _ _ _).trans (frame.parsing.trans parsing)
  · exact (setThis_action _ _ _).trans (frame.action.trans inspecting)
  · rw [that_setThis]
    exact frame.wings (!p.fromClient)
  · rw [this_setThis]
    exact start

theorem dpiProtoParser_setThis (after : TcpWing) (parsers : env.parsersGone = false) :
    dpiProtoParser p env (opened.setThis p after) =
      opened.setThis p { after with
        asmSeq := earliestPosition after env.positions } := by
  unfold dpiProtoParser
  simp only [this_setThis, setThis_setThis, parsers, Bool.or_false]

theorem parse_stream (placed : Sequenced cut seen position w p env segment after pkt)
    (payload : p.len ≠ 0) (parsing : opened.skipParser = false) (parsers : env.parsersGone = false)
    (positions : ∀ seq, some seq ∈ env.positions →
      offset (place w.initSeq position) seq ≤ reached (mark seen segment) cut - position) :
    ∃ later delivered, position ≤ later ∧ later ≤ reached (mark seen segment) cut ∧
      dpiPktProtoParser p env (opened.setThis p after) { pkt with action := .none } =
        (opened.setThis p { after with asmSeq := place w.initSeq later }, delivered) ∧
      (pkt.skipParser = true ∧ delivered = none ∨
        pkt.skipParser = false ∧ delivered = some (delivery p pkt)) := by
  have working := (setThis_skipParser opened p after).trans parsing
  cases skip : pkt.skipParser with
  | true =>
    refine ⟨position, none, Nat.le_refl _, placed.below, ?_, Or.inl ⟨rfl, rfl⟩⟩
    have same : ({ after with asmSeq := place w.initSeq position } : TcpWing) = after := by
      rw [← placed.asmSeq]
    unfold dpiPktProtoParser
    simp only [Bool.not_true, Bool.and_false, Bool.false_and, Bool.false_eq_true, if_false, same]
  | false =>
    obtain ⟨later, above, below, parsed⟩ := earliestPosition_place
      placed.asmSeq placed.nextSeq placed.below env.positions positions
    refine ⟨later, some (delivery p pkt), above, below, ?_, Or.inr ⟨rfl, rfl⟩⟩
    unfold dpiPktProtoParser
    simp only [working, decide_eq_true payload, Bool.not_false, Bool.and_self, if_true]
    rw [dpiProtoParser_setThis after parsers, parsed]
    rfl

/-- A segment of the stream is inspected: what is delivered is readable, and
the direction holds what the parsers have left. -/
theorem inspectTracked_stream {result : TrackResult}
    (tracked : TrackedStream cut seen position s p env segment result)
    (whole : StreamCut length cut) (arrives : Arrives cut seen (s.this p) p env segment)
    (flow : Flow cut seen position (s.this p))
    (parsing : s.skipParser = false) (inspecting : s.action = .none)
    (verdict : dpiIsActionFinal p env.verdict = false) (parsers : env.parsersGone = false)
    (positions : ∀ seq, some seq ∈ env.positions → offset (place (s.this p).initSeq position) seq ≤
        reached (mark seen segment) cut - position) :
    ∃ after later, (inspectTracked p env result).session = some after ∧ GoesOn s p after ∧
        Flow cut (mark seen segment) later (after.this p) ∧
        (∀ delivered, (inspectTracked p env result).delivered = some delivered →
            position < reached (mark seen segment) cut ∧
              ∃ first consumed, NextRun cut (mark seen segment) position first consumed ∧
                delivered =
                  { seq := place (s.this p).initSeq first
                    bytes := (readable (mark seen segment) position
                      cut).flatMap Segment.data }) ∧
        (reached (mark seen segment) cut ≠ reached seen cut →
          (inspectTracked p env result).delivered ≠ none) := by
  obtain ⟨opened, after, pkt, frame, attached, placed⟩ := tracked
  have carries := arrives.carries
  have filled := whole.filled segment arrives.member
  have behind := arrives.behind
  have ahead := arrives.ahead
  have below := flow.below
  have limit := (flow.view whole).limit
  have stopNear : Near position (segment.start + segment.size) := ⟨by omega, by omega⟩
  obtain ⟨later, delivered, forward, within, parsed, handed⟩ := parse_stream
    placed (carries.payload filled) (frame.parsing.trans parsing) parsers positions
  obtain ⟨final, cached, left, start⟩ := @dpiPostCachePacket_stream opened p env cut
    (mark seen segment) position length segment (s.this p).initSeq
    { after with asmSeq := place (s.this p).initSeq later } later { pkt with action := env.verdict }
    (placed.view whole) (frame.parsing.trans parsing) placed.initSeq rfl placed.nextSeq forward
    within filled carries stopNear placed.stored
  have idle := (setThis_action opened p after).trans (frame.action.trans inspecting)
  have inspected : inspectTracked p env result =
      { session := some (opened.setThis p final)
        delivered := delivered } := by
    rw [attached, inspectTracked_plain placed.action idle verdict parsed cached]
  refine ⟨opened.setThis p final, later, ?_, ?_, ?_, ?_, ?_⟩
  · rw [inspected]
  · exact goesOn_setThis frame parsing inspecting start
  · rw [this_setThis]
    exact left
  · intro given same
    rw [inspected] at same
    have handedOver : delivered = some given := same
    rcases handed with ⟨_, rfl⟩ | ⟨shown, rfl⟩
    · cases handedOver
    · obtain ⟨more, first, consumed, run, _, bytes⟩ := placed.offers shown
      refine ⟨more, first, consumed, run, ?_⟩
      rw [← bytes]
      exact (Option.some.inj handedOver).symm
  · intro grows
    rw [inspected]
    rcases handed with ⟨skipped, _⟩ | ⟨_, rfl⟩
    · rw [placed.handed grows] at skipped
      cases skipped
    · exact Option.some_ne_none _

theorem dpiPktProtoParser_empty (empty : p.len = 0) (pkt : PktState) :
    dpiPktProtoParser p env s pkt = (s, none) := by
  unfold dpiPktProtoParser
  rw [decide_eq_false (fun filled => filled empty), Bool.and_false]
  rfl

theorem dpiPostCachePacket_empty (empty : p.len = 0)
    (parsing : s.skipParser = false) (pkt : PktState) :
    dpiPostCachePacket p env s pkt =
      (s.setThis p { s.this p with
        asmCache := asmFlush (s.this p).asmSeq
          (s.this p).asmCache.tree.toList (s.this p).asmCache }, pkt) := by
  unfold dpiPostCachePacket
  simp only
  rw [if_neg (Bool.eq_false_iff.mp parsing),
    decide_eq_false (fun filled => filled empty), Bool.and_false]
  rfl

theorem inspectTracked_empty (empty : p.len = 0) (parsing : s.skipParser = false)
    (plain : pkt.action.aboveAllow = false) (inspecting : s.action = .none)
    (verdict : dpiIsActionFinal p env.verdict = false) :
    inspectTracked p env (.attached s pkt) =
      { session := some (s.setThis p { s.this p with
          asmCache := asmFlush (s.this p).asmSeq
            (s.this p).asmCache.tree.toList (s.this p).asmCache })
        delivered := none } :=
  inspectTracked_plain plain inspecting verdict (dpiPktProtoParser_empty empty _)
    (dpiPostCachePacket_empty empty parsing _)

theorem dpiTcpTracker_noSyn (noSyn : p.syn = false) :
    dpiTcpTracker p env s = trackSession p env s := by
  unfold dpiTcpTracker
  rw [noSyn, Bool.and_false, Bool.and_false]
  rfl

theorem trackSession_empty (empty : p.len = 0) : trackSession p env s = trackFresh p env s := by
  unfold trackSession
  rw [if_pos empty]

theorem dpiTcpTracker_empty (noSyn : p.syn = false) (empty : p.len = 0)
    (noFin : p.fin = false) (inspecting : s.action = .none)
    (acked : p.hasAck = true → u32Gt p.ack (s.that p).nextSeq = false) :
    ∃ opened pkt, SessionFlow s opened ∧ dpiTcpTracker p env s = .attached opened pkt ∧
        pkt.action = .none := by
  obtain ⟨opened, frame, outside, inside⟩ := @trackFresh_flow s p env noSyn inspecting
  have fresh : dpiTcpTracker p env s = trackFresh p env s := by
    rw [dpiTcpTracker_noSyn noSyn, trackSession_empty empty]
  have nothing : trackPayload p env opened newPkt = (opened, newPkt) := by
    unfold trackPayload
    rw [if_pos empty]
  have unfinished : trackFin p opened newPkt = opened := by
    unfold trackFin
    simp only [noFin, Bool.false_and, Bool.false_eq_true, if_false]
  have seenAck : trackAck p opened newPkt = (opened, newPkt) := by
    apply trackAck_seen
    intro hasAck
    have other : (opened.that p).nextSeq = (s.that p).nextSeq :=
      (frame.wings (!p.fromClient)).nextSeq
    rw [other]
    exact acked hasAck
  cases window : tcpIsInWindow p s with
  | false => exact ⟨opened, _, frame, fresh.trans (outside window), rfl⟩
  | true =>
    refine ⟨opened, newPkt, frame, ?_, rfl⟩
    rw [fresh, inside window, nothing, unfinished, seenAck]

theorem inspect_empty (whole : StreamCut length cut) (flow : Flow cut seen position (s.this p))
    (noSyn : p.syn = false) (empty : p.len = 0) (noFin : p.fin = false)
    (parsing : s.skipParser = false) (inspecting : s.action = .none)
    (verdict : dpiIsActionFinal p env.verdict = false)
    (acked : p.hasAck = true → u32Gt p.ack (s.that p).nextSeq = false) :
    ∃ after, dpiInspectTcp p env s = { session := some after, delivered := none } ∧
        GoesOn s p after ∧ Flow cut seen position (after.this p) := by
  obtain ⟨opened, pkt, frame, tracked, action⟩ :=
    @dpiTcpTracker_empty s p env noSyn empty noFin inspecting acked
  have same : SameFlow (s.this p) (opened.this p) := frame.wings p.fromClient
  have openedFlow := flow.same same
  have flushed := openedFlow.cache.flush
    (fun other member => ((openedFlow.view whole).spread.near other member).2)
    (near_self position)
  rw [kept_forward whole (Nat.le_refl position), ← openedFlow.asmSeq] at flushed
  have plain : pkt.action.aboveAllow = false := by
    rw [action]
    rfl
  have inspected := inspectTracked_empty empty (frame.parsing.trans parsing) plain
    (frame.action.trans inspecting) verdict
  rw [← tracked] at inspected
  refine ⟨_, inspected, ?_, ?_⟩
  · exact goesOn_setThis frame parsing inspecting same.initSeq
  · rw [this_setThis]
    exact ⟨openedFlow.asmSeq, openedFlow.nextSeq, openedFlow.below, flushed,
      openedFlow.small, openedFlow.window⟩

end Carrying

end NeuVector.DataPath
