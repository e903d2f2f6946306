import NeuVector.DataPath.TcpMoves

/-!
# Sequence numbers of a TCP session

In a direction whose payload lies within half the sequence space of its start,
the three sequence numbers of the tracker stay in order over every run of a
session that a handshake packet has opened.  A session opened by a `SYN/ACK`
never sets `asm_seq` of the client.
-/

namespace NeuVector.DataPath

open Library List

section Tracker

variable {side : Bool} {s after : TcpSession} {p : TcpPacket} {env : TcpEnv} {pkt : PktState}
  {w : TcpWing}

/-- What a step must meet for the direction: its packets lie in the half
space behind its start, no payload is old once the parsers are skipped, no
parser goes back behind the start, and it has carried no payload when a
handshake sets its numbers. -/
structure Orderly (side : Bool) (s : TcpSession) (p : TcpPacket) (env : TcpEnv) : Prop where
  fits : p.fromClient = side → Fits (s.wing side) p
  forward : p.fromClient = side → Forward s.skipParser (s.wing side) p
  positions : p.fromClient = side → p.len ≠ 0 →
    ∀ position, some position ∈ env.positions → offset (s.wing side).initSeq position < halfSpace
  handshake : p.syn = true →
    (s.that p).tcpState = .listen ∨ (s.that p).tcpState = .synSent → Untouched (s.wing side)

theorem Orderly.keeps (orderly : Orderly side s p env)
    (keeps : SessionKeeps s after) (states : SameStates s after) :
    Orderly side after p env := by
  refine ⟨?_, ?_, ?_, ?_⟩
  · intro sender
    exact (orderly.fits sender).keeps (keeps.wings side)
  · intro sender
    rw [keeps.parsing]
    exact (orderly.forward sender).keeps (keeps.wings side)
  · intro sender payload position member
    rw [(keeps.wings side).initSeq]
    exact orderly.positions sender payload position member
  · intro syn waiting
    have same : (after.that p).tcpState = (s.that p).tcpState := states (!p.fromClient)
    rw [same] at waiting
    exact (orderly.handshake syn waiting).keeps (keeps.wings side)

/-- The client of a `SYN/ACK` has been acknowledged at its start. -/
def AcksStart (side : Bool) (s : TcpSession) (p : TcpPacket) : Prop :=
  side = true → p.fromClient = false → p.syn = true → p.hasAck = true → p.ack = s.client.initSeq

theorem AcksStart.keeps (acks : AcksStart side s p)
    (keeps : SessionKeeps s after) : AcksStart side after p := by
  intro isClient sender syn hasAck
  have same : after.client.initSeq = s.client.initSeq := (keeps.wings true).initSeq
  rw [same]
  exact acks isClient sender syn hasAck

theorem splitThreat_plain (env : TcpEnv) (evt : TcpEvt) (pkt : PktState)
    (plain : pkt.assembled = none) :
    (splitThreat env evt pkt).assembled = none := by
  unfold splitThreat
  split
  · unfold dpiSetAction
    split
    · exact plain
    · exact plain
  · exact plain

/-- The numbers of the direction are in order, and the server has not opened
the session. -/
structure NumbersHold (side : Bool) (s : TcpSession) : Prop where
  ordered : WingInOrder (s.wing side)
  server : s.server.tcpState ≠ .synSent

theorem NumbersHold.states (holds : NumbersHold side s)
    (ordered : WingInOrder (after.wing side)) (states : SameStates s after) :
    NumbersHold side after := by
  refine ⟨ordered, ?_⟩
  have same : after.server.tcpState = s.server.tcpState := states false
  rw [same]
  exact holds.server

/-- The numbers after the tracker.  With payload the start is the same. -/
structure TrackedInOrder (side : Bool) (s : TcpSession) (p : TcpPacket)
    (after : TcpSession) : Prop where
  holds : NumbersHold side after
  start : p.len ≠ 0 → (after.wing side).initSeq = (s.wing side).initSeq

theorem TrackedInOrder.moves (tracked : TrackedInOrder side s p after)
    (moves : Moves side after final) : TrackedInOrder side s p final :=
  ⟨tracked.holds.states moves.ordered moves.states,
    fun payload => moves.start.trans (tracked.start payload)⟩

theorem handshake_inOrder (holds : NumbersHold side s)
    (orderly : Orderly side s p env) (acks : AcksStart side s p)
    (synEmpty : p.syn = true → p.len = 0) :
    let after := tcpUpdateWing p (tcpUpdateState p s).2 (tcpUpdateState p s).1
    TrackedInOrder side s p after ∧ (p.fromClient = side → Fits (after.wing side) p) ∧
      (p.fromClient = side → Forward after.skipParser (after.wing side) p) := by
  obtain ⟨evt, client, server, result, reported⟩ := tcpUpdateState_cases p s
  obtain ⟨syn, synack, _, sent⟩ := reported
  rw [result]
  have moved := (flow_toStates s client server).keeps
  have notSent : (tcpUpdateWing p (s.toStates client server) evt).server.tcpState ≠ .synSent := by
    have same : (tcpUpdateWing p (s.toStates client server) evt).server.tcpState = server :=
      tcpUpdateWing_states p (s.toStates client server) evt false
    rw [same]
    exact fun equal => holds.server (sent equal)
  by_cases handshake : evt = .syn ∨ evt = .synack
  · have syns : p.syn = true ∧ ((s.that p).tcpState = .listen ∨
        (s.that p).tcpState = .synSent) := by
      rcases handshake with isSyn | isSynack
      · exact ⟨(syn isSyn).1, Or.inl (syn isSyn).2⟩
      · exact ⟨(synack isSynack).1, Or.inr (synack isSynack).2⟩
    have untouched := (orderly.handshake syns.1 syns.2).keeps (moved.wings side)
    have acknowledged : side = true → evt = .synack → p.hasAck = true →
        p.ack = (s.toStates client server).client.initSeq := by
      intro isClient isSynack hasAck
      have waiting := (synack isSynack).2
      cases sender : p.fromClient with
      | true =>
        unfold TcpSession.that at waiting
        rw [sender] at waiting
        exact absurd waiting holds.server
      | false => exact acks isClient sender syns.1 hasAck
    have fresh := tcpUpdateWing_untouched untouched handshake acknowledged
    have empty := synEmpty syns.1
    refine ⟨⟨⟨fresh.inOrder, notSent⟩, ?_⟩, ?_, ?_⟩
    · intro payload
      exact absurd empty payload
    · intro _
      exact Or.inl ⟨empty, Or.inr fresh.next⟩
    · intro _ _ payload
      exact absurd empty payload
  · have kept := moved.trans (tcpUpdateWing_flow p
      (s.toStates client server) (fun isSyn => handshake (Or.inl isSyn))
      (fun isSynack => handshake (Or.inr isSynack))).keeps
    have stays : Stays side s _ := kept.stays holds.ordered
    refine ⟨⟨⟨stays.ordered, notSent⟩, ?_⟩, ?_, ?_⟩
    · intro _
      exact stays.start
    · intro sender
      exact (orderly.fits sender).keeps (kept.wings side)
    · intro sender
      rw [kept.parsing]
      exact (orderly.forward sender).keeps (kept.wings side)

theorem trackData_inOrder {before : TcpSession} (tracked : TrackedInOrder side before p s)
    (fits : p.fromClient = side → Fits (s.wing side) p)
    (forward : p.fromClient = side → Forward s.skipParser (s.wing side) p)
    (plain : pkt.assembled = none) :
    TrackedInOrder side before p (trackAck p (trackFin p (trackPayload p env s pkt).1
        (trackPayload p env s pkt).2) (trackPayload p env s pkt).2).1 := by
  have ordered := tracked.holds.ordered
  obtain ⟨sequenced, bounded, nothing⟩ :=
    @trackPayload_moves side s p env pkt ordered fits forward plain
  have room : p.fromClient = side → p.fin = true →
      ((trackPayload p env s pkt).1.wing side).nextSeq = ((trackPayload p env s pkt).2.range p).1 →
      offset ((trackPayload p env s pkt).1.wing side).initSeq
        ((trackPayload p env s pkt).1.wing side).nextSeq + 1 < halfSpace := by
    intro sender ends meets
    by_cases payload : p.len = 0
    · rw [nothing payload] at meets ⊢
      rcases fits sender with ⟨_, noFin | start⟩ | inside
      · rw [noFin] at ends
        cases ends
      · rw [start, offset_self]
        decide
      · unfold PktState.range at meets
        rw [plain] at meets
        rw [meets]
        change offset (s.wing side).initSeq p.seq + 1 < _
        omega
    · rw [meets]
      exact (bounded payload sender payload).1
  have finished := trackFin_moves sequenced.ordered room
  exact tracked.moves ((sequenced.trans finished).trans (trackAck_moves finished.ordered))

def ResultInOrder (side : Bool) (s : TcpSession) (p : TcpPacket) : TrackResult → Prop
  | .detached after => NumbersHold side after
  | .released => True
  | .attached after _ => TrackedInOrder side s p after

theorem ResultInOrder.since {result : TrackResult} {other : TcpSession}
    (inOrder : ResultInOrder side s p result)
    (same : p.len ≠ 0 → (s.wing side).initSeq = (other.wing side).initSeq) :
    ResultInOrder side other p result := by
  cases result with
  | detached after => exact inOrder
  | released => trivial
  | attached after pkt =>
    have tracked : TrackedInOrder side s p after := inOrder
    exact ⟨tracked.holds, fun payload => (tracked.start payload).trans (same payload)⟩

section

variable (holds : NumbersHold side s) (orderly : Orderly side s p env)
  (acks : AcksStart side s p) (synEmpty : p.syn = true → p.len = 0)
include holds orderly acks synEmpty

theorem trackFresh_inOrder : ResultInOrder side s p (trackFresh p env s) := by
  unfold trackFresh
  simp only
  have keeps : SessionKeeps s (noteWindow p s) :=
    keeps_setWing ⟨rfl, rfl, rfl, fun _ member => member⟩
  have states : SameStates s (noteWindow p s) := sameStates_setWing rfl
  generalize noteWindow p s = opened at keeps states ⊢
  have stays := keeps.stays holds.ordered
  have still : TrackedInOrder side s p s := ⟨holds, fun _ => rfl⟩
  split
  · exact still.moves ⟨stays, states⟩
  · obtain ⟨tracked, fits, forward⟩ := handshake_inOrder
      (holds.states stays.ordered states) (orderly.keeps keeps states) (acks.keeps keeps) synEmpty
    have here : TrackedInOrder side s p (tcpUpdateWing p
        (tcpUpdateState p opened).2 (tcpUpdateState p opened).1) :=
      ⟨tracked.holds, fun payload => (tracked.start payload).trans stays.start⟩
    split
    · exact here
    · exact trackData_inOrder here fits forward (splitThreat_plain env _ newPkt rfl)

theorem trackSession_inOrder : ResultInOrder side s p (trackSession p env s) := by
  unfold trackSession
  simp only
  split
  · exact trackFresh_inOrder holds orderly acks synEmpty
  · split
    · exact trackFresh_inOrder holds orderly acks synEmpty
    next clip found =>
      split
      · exact ⟨holds, fun _ => rfl⟩
      · have keeps : SessionKeeps s (s.setThis p { s.this p with
            asmCache := asmRemove (s.this p).asmCache clip }) :=
          keeps_setWing ⟨rfl, rfl, rfl, asmRemove_clips found (asmLookup_seq found)⟩
        have states : SameStates s (s.setThis p { s.this p with
            asmCache := asmRemove (s.this p).asmCache clip }) :=
          sameStates_setWing rfl
        have stays := keeps.stays holds.ordered
        have replaced := trackFresh_inOrder
          (holds.states stays.ordered states) (orderly.keeps keeps states)
          (acks.keeps keeps) synEmpty
        exact replaced.since fun _ => stays.start

end

theorem untouched_open (side : Bool) (client server : TcpState) :
    Untouched ((newTcpSession client server).wing side) := by
  cases side with
  | true | false => exact ⟨rfl, rfl, rfl⟩

theorem orderly_open (empty : p.len = 0) (client server : TcpState) :
    Orderly side (newTcpSession client server) p env := by
  have untouched := untouched_open side client server
  refine ⟨?_, ?_, ?_, fun _ _ => untouched⟩
  · intro _
    exact Or.inl ⟨empty, Or.inr untouched.next⟩
  · intro _ _ payload
    exact absurd empty payload
  · intro _ payload
    exact absurd empty payload

theorem dpiTcpTracker_inOrder (holds : NumbersHold side s) (orderly : Orderly side s p env) :
    ResultInOrder side s p (dpiTcpTracker p env s) := by
  unfold dpiTcpTracker
  split
  · exact holds
  next noPayload =>
    have synEmpty : p.syn = true → p.len = 0 := by
      intro syn
      rw [syn, Bool.true_and, decide_eq_true_eq] at noPayload
      exact Decidable.not_not.mp noPayload
    split
    next opens =>
      rw [Bool.and_eq_true, Bool.and_eq_true] at opens
      obtain ⟨⟨sender, syn⟩, _⟩ := opens
      have acks : ∀ s, AcksStart side s p := by
        intro s _ other
        rw [sender] at other
        cases other
      have empty := synEmpty syn
      split
      · split
        · refine ResultInOrder.since (trackSession_inOrder ?_ (orderly_open empty _ _)
            (acks _) synEmpty) (fun payload => absurd empty payload)
          exact ⟨(untouched_open side _ _).inOrder, nofun⟩
        · trivial
      · split
        · exact holds
        · exact trackSession_inOrder holds orderly (acks s) synEmpty
    · split
      · split
        · exact holds
        next valid =>
          rw [Bool.or_eq_true, not_or, decide_eq_true_eq] at valid
          have acks : AcksStart side s p := fun _ _ _ _ => Decidable.not_not.mp valid.2
          exact trackSession_inOrder holds orderly acks synEmpty
      next noSynack =>
        have acks : AcksStart side s p := by
          intro _ sender syn hasAck
          rw [sender, syn, hasAck] at noSynack
          exact absurd rfl noSynack
        exact trackSession_inOrder holds orderly acks synEmpty

theorem numbersHold_setThis (holds : NumbersHold side s)
    (wing : p.fromClient = side → WingInOrder w) (state : w.tcpState = (s.this p).tcpState) :
    NumbersHold side (s.setThis p w) := by
  have states : SameStates s (s.setThis p w) := sameStates_setWing state
  apply holds.states _ states
  unfold TcpSession.setThis
  rw [wing_setWing]
  split
  next sender => exact wing sender.symm
  · exact holds.ordered

theorem earliestPosition_le (ordered : WingInOrder w) (positions : List (Option UInt32))
    (near : ∀ position, some position ∈ positions → offset w.initSeq position < halfSpace) :
    offset w.initSeq (earliestPosition w positions) ≤ offset w.initSeq w.nextSeq := by
  have asmNear := Nat.lt_of_le_of_lt ordered.order ordered.bound
  apply foldlRecOn (motive := fun seq => offset w.initSeq seq ≤ offset w.initSeq w.nextSeq)
  · exact Nat.le_refl _
  · intro reached below position member
    have positionNear : offset w.initSeq (position.getD w.asmSeq) < halfSpace := by
      cases position with
      | none => exact asmNear
      | some position => exact near position member
    simp only
    split
    next earlier =>
      rw [u32Lt_offset positionNear (Nat.lt_of_le_of_lt below ordered.bound),
        decide_eq_true_eq] at earlier
      exact Nat.le_trans (Nat.le_of_lt earlier) below
    · exact below

theorem dpiPktProtoParser_inOrder (holds : NumbersHold side s)
    (positions : p.fromClient = side → p.len ≠ 0 → ∀ position, some position ∈ env.positions →
        offset (s.wing side).initSeq position < halfSpace) :
    NumbersHold side (dpiPktProtoParser p env s pkt).1 ∧
      ((dpiPktProtoParser p env s pkt).1.wing side).initSeq = (s.wing side).initSeq := by
  unfold dpiPktProtoParser
  split
  next parsed =>
    rw [Bool.and_eq_true, decide_eq_true_eq] at parsed
    have moved : p.fromClient = side → WingInOrder
        { s.this p with
          asmSeq := earliestPosition (s.this p) env.positions } := by
      intro sender
      rw [this_eq sender]
      have ordered := holds.ordered
      exact ⟨earliestPosition_le ordered env.positions
        (positions sender parsed.2), ordered.bound, ordered.clips⟩
    have parser := numbersHold_setThis holds moved rfl
    have start := stays_setThis holds.ordered fun sender => ⟨moved sender, by rw [← sender]; rfl⟩
    constructor
    · exact ⟨parser.ordered, parser.server⟩
    · exact start.start
  · exact ⟨holds, rfl⟩

theorem NumbersHold.destroyCaches (holds : NumbersHold side s) : NumbersHold side s.destroyCaches :=
  holds.states (moves_destroyCaches holds.ordered).ordered (sameStates_destroyCaches s)

theorem dpiPostCachePacket_inOrder (holds : NumbersHold side s)
    (inside : p.fromClient = side → p.len ≠ 0 →
      offset (s.wing side).initSeq p.seq + p.data.length + 1 < halfSpace) :
    NumbersHold side (dpiPostCachePacket p env s pkt).1 := by
  unfold dpiPostCachePacket
  simp only
  generalize skips : (if s.skipParser then { s.this p with asmSeq := (s.this p).nextSeq }
    else s.this p) = w
  have skipped : p.fromClient = side → WingInOrder w := by
    intro sender
    rw [← skips, this_eq sender]
    have ordered := holds.ordered
    split
    · exact ⟨Nat.le_refl _, ordered.bound, ordered.clips⟩
    · exact ordered
  have same : w.tcpState = (s.this p).tcpState ∧ w.initSeq = (s.this p).initSeq := by
    rw [← skips]
    split
    · exact ⟨rfl, rfl⟩
    · exact ⟨rfl, rfl⟩
  have keeps : Keeps w { w with
      asmCache := asmFlush w.asmSeq w.asmCache.tree.toList w.asmCache } :=
    ⟨rfl, rfl, rfl, asmFlush_clips _ _⟩
  have flushed := fun sender => (skipped sender).keeps keeps
  have stored := numbersHold_setThis holds flushed same.1
  split
  next caches =>
    rw [Bool.and_eq_true, Bool.and_eq_true, decide_eq_true_eq] at caches
    have payload := caches.1.2
    generalize ({ w with
      asmCache := asmFlush w.asmSeq w.asmCache.tree.toList w.asmCache } :
        TcpWing) = cleaned at flushed stored keeps ⊢
    have final : NumbersHold side ((s.setThis p cleaned).setThis p
          ((dpiCachePacket p env cleaned true).getD cleaned)) := by
      have this : (s.setThis p cleaned).this p = cleaned := by
        unfold TcpSession.setThis TcpSession.this
        rw [wing_setWing, if_pos rfl]
      cases cached : dpiCachePacket p env cleaned true with
      | none => exact numbersHold_setThis stored flushed (by rw [this]; rfl)
      | some after =>
        apply numbersHold_setThis stored
        · intro sender
          have fits : Fits cleaned p := by
            refine Or.inr ?_
            rw [keeps.initSeq, same.2, this_eq sender]
            exact inside sender payload
          exact (dpiCachePacket_inOrder (flushed sender) fits payload cached).1
        · rw [this]
          exact dpiCachePacket_state cached
    split
    · exact final.destroyCaches
    · exact final
  · exact stored

theorem sessionAction_wings (p : TcpPacket) (s : TcpSession) (pkt : PktState) (side : Bool) :
    (sessionAction p s pkt).wing side = s.wing side := by
  unfold sessionAction
  split
  · split
    · rfl
    · rfl
  · split
    all_goals rfl

theorem numbersHold_sessionAction (holds : NumbersHold side s) :
    NumbersHold side (sessionAction p s pkt) := by
  apply holds.states
  · rw [sessionAction_wings]
    exact holds.ordered
  · intro other
    rw [sessionAction_wings]

theorem parse_inOrder {before : TcpSession} (tracked : TrackedInOrder side before p s)
    (orderly : Orderly side before p env) (asked : Bool) :
    NumbersHold side (if asked then dpiPktProtoParser p env s pkt else (s, none)).1 ∧ (p.len ≠ 0 →
        ((if asked then dpiPktProtoParser p env s pkt
          else (s, none)).1.wing side).initSeq = (before.wing side).initSeq) := by
  cases asked with
  | false => exact ⟨tracked.holds, tracked.start⟩
  | true =>
    have positions : p.fromClient = side → p.len ≠ 0 → ∀ position, some position ∈ env.positions →
          offset (s.wing side).initSeq position < halfSpace := by
      intro sender payload
      rw [tracked.start payload]
      exact orderly.positions sender payload
    obtain ⟨parsed, start⟩ := @dpiPktProtoParser_inOrder side s p env pkt tracked.holds positions
    exact ⟨parsed, fun payload => start.trans (tracked.start payload)⟩

theorem inspectTracked_inOrder {result : TrackResult} (tracked : ResultInOrder side s p result)
    (orderly : Orderly side s p env)
    (inspected : (inspectTracked p env result).session = some after) :
    NumbersHold side after := by
  cases result with
  | detached kept =>
    cases inspected
    exact tracked
  | released => cases inspected
  | attached kept pkt =>
    have step : TrackedInOrder side s p kept := tracked
    unfold inspectTracked at inspected
    simp only [Option.some.injEq] at inspected
    subst inspected
    generalize dpiSetAction pkt kept.action = judged
    obtain ⟨parsed, start⟩ := @parse_inOrder side kept p env judged s step orderly
      (judged.action ≠ .bypass && (p.tap || !judged.action.aboveAllow))
    generalize (if (judged.action ≠ .bypass && (p.tap || !judged.action.aboveAllow))
      then dpiPktProtoParser p env kept judged else (kept, none)) = outcome at parsed start ⊢
    have inside : p.fromClient = side → p.len ≠ 0 →
        offset (outcome.1.wing side).initSeq p.seq + p.data.length + 1 < halfSpace := by
      intro sender payload
      rw [start payload]
      exact (orderly.fits sender).inside payload
    apply numbersHold_sessionAction
    generalize (if env.verdict = .none then judged else dpiSetAction judged env.verdict) = final
    split
    · exact parsed
    · exact dpiPostCachePacket_inOrder parsed inside

theorem inspectOpen_inOrder {client server : TcpState}
    (inspected : (inspectTracked p env (trackSession p env
      (newTcpSession client server))).session = some s)
    (empty : p.len = 0) (synEmpty : p.syn = true → p.len = 0) (listens : server ≠ .synSent)
    (acks : AcksStart side (newTcpSession client server) p) :
    NumbersHold side s := by
  have orderly : Orderly side (newTcpSession client server) p env :=
    orderly_open empty client server
  refine inspectTracked_inOrder ?_ orderly inspected
  apply trackSession_inOrder _ orderly acks synEmpty
  exact ⟨(untouched_open side client server).inOrder, listens⟩

theorem dpiInspectOpen_inOrder (first : TcpPacket) (opened : first.hasAck = true → side = false)
    (inspected : (dpiInspectOpen first env).session = some s) :
    NumbersHold side s := by
  unfold dpiInspectOpen dpiTcpOpen at inspected
  split at inspected
  · cases inspected
  next noPayload =>
    have synEmpty : first.syn = true → first.len = 0 := by
      intro syn
      rw [syn, Bool.true_and, decide_eq_true_eq] at noPayload
      exact Decidable.not_not.mp noPayload
    split at inspected
    · cases inspected
    next admits =>
      rw [Bool.or_eq_true, not_or, Bool.not_eq_true', Bool.not_eq_false] at admits
      have empty := synEmpty admits.1
      split at inspected
      next hasAck =>
        have sender : (!first.hasAck) = false := by rw [hasAck]; rfl
        rw [sender] at inspected
        refine inspectOpen_inOrder inspected empty synEmpty nofun ?_
        intro isClient
        rw [opened hasAck] at isClient
        cases isClient
      next noAck =>
        have sender : (!first.hasAck) = true := by
          rw [Bool.eq_false_iff.mpr noAck]
          rfl
        rw [sender] at inspected
        refine inspectOpen_inOrder inspected empty synEmpty nofun ?_
        intro _ fromServer
        cases fromServer

def OrderlyRun (side : Bool) : Option TcpSession → List (TcpPacket × TcpEnv) → Prop
  | none, _ => True
  | some _, [] => True
  | some s, (p, env) :: rest =>
    Orderly side s p env ∧ OrderlyRun side (dpiInspectTcp p env s).session rest

theorem tcpRun_inOrder {session : Option TcpSession}
    {packets : List (TcpPacket × TcpEnv)} (holds : ∀ s, session = some s → NumbersHold side s)
    (orderly : OrderlyRun side session packets) (reached : tcpRun session packets = some after) :
    NumbersHold side after := by
  induction packets generalizing session with
  | nil =>
    cases session with
    | none => cases reached
    | some s => exact holds after reached
  | cons packet rest induction =>
    cases session with
    | none => cases reached
    | some s =>
      obtain ⟨step, later⟩ := orderly
      refine induction ?_ later reached
      intro next inspected
      exact inspectTracked_inOrder (dpiTcpTracker_inOrder (holds s rfl) step) step inspected

/-- In every state that a run reaches, the numbers of a direction are in
order: those of the server in any session, and those of the client if a `SYN`
opened it. -/
theorem tcp_numbers_in_order (side : Bool) (first : TcpPacket)
    (env : TcpEnv) (packets : List (TcpPacket × TcpEnv)) (s : TcpSession)
    (opened : first.hasAck = true → side = false)
    (orderly : OrderlyRun side (dpiInspectOpen first env).session packets)
    (reached : tcpRun (dpiInspectOpen first env).session packets = some s) :
    u32Lte (s.wing side).initSeq (s.wing side).asmSeq = true ∧
      u32Lte (s.wing side).asmSeq (s.wing side).nextSeq = true := by
  have holds := tcpRun_inOrder (fun s inspected => dpiInspectOpen_inOrder first opened inspected)
    orderly reached
  exact holds.ordered.serial

end Tracker

def plainPacket (fromClient : Bool) (seq ack : UInt32) : TcpPacket :=
  { fromClient := fromClient
    seq := seq
    ack := ack
    win := 65535
    syn := false
    hasAck := false
    fin := false
    rst := false
    data := []
    short := by decide
    tcpWscale := 0
    tcpMss := 1460
    sackOk := false
    tap := false }

/-- Everything is admitted, and the parsers consume nothing. -/
def calmEnv : TcpEnv :=
  { admitted := true
    splitAction := none
    memory := true
    scratch := fun _ => 0
    positions := [none]
    parsersGone := false
    verdict := .none }

def tenBytes (p : TcpPacket) : TcpPacket :=
  { p with data := List.replicate 10 0, short := by decide }

/-- The server answers, and the second ten bytes of the client arrive before
the first, which the parsers consume up to the fifth byte. -/
theorem tcp_numbers_in_order_syn :
    ∃ s, tcpRun (dpiInspectOpen { plainPacket true 999 0 with syn := true } calmEnv).session
        [({ plainPacket false 4999 1000 with syn := true, hasAck := true }, calmEnv),
          (tenBytes (plainPacket true 1010 0), calmEnv),
          (tenBytes (plainPacket true 1000 0), { calmEnv with positions := [some 1005] })] =
            some s ∧ s.client.asmSeq = 1005 ∧
      u32Lte s.client.initSeq s.client.asmSeq = true ∧
      u32Lte s.client.asmSeq s.client.nextSeq = true := by
  refine ⟨_, rfl, rfl, tcp_numbers_in_order true { plainPacket true 999 0 with syn := true } calmEnv
    [({ plainPacket false 4999 1000 with syn := true, hasAck := true }, calmEnv),
      (tenBytes (plainPacket true 1010 0), calmEnv),
      (tenBytes (plainPacket true 1000 0), { calmEnv with positions := [some 1005] })] _
    nofun ?_ rfl⟩
  refine ⟨⟨nofun, nofun, nofun, fun _ _ => ⟨rfl, rfl, rfl⟩⟩, ⟨?_, ?_, ?_, nofun⟩,
    ⟨?_, ?_, ?_, nofun⟩, trivial⟩
  · exact fun _ => Or.inr (by decide)
  · intro _ skipped
    cases skipped
  · intro _ _ position member
    cases member with
    | tail _ rest => cases rest
  · exact fun _ => Or.inr (by decide)
  · intro _ skipped
    cases skipped
  · intro _ _ position member
    cases member with
    | head => decide
    | tail _ rest => cases rest

/-- Five runs after which a client's numbers are out of order.  A `SYN/ACK`
opens the session and never sets `asm_seq`; a `SYN/ACK` moves `next_seq` of a
client that has sent ten bytes back to its start; and, each by its one packet
that is not `Orderly`, a parser goes back behind the start, an old segment
arrives without parsers and ends the inspection, and a segment arrives without
parsers half the space behind the start. -/
theorem client_numbers_out_of_order :
    (∃ s, tcpRun (dpiInspectOpen
          { plainPacket false 1000 500 with syn := true, hasAck := true } calmEnv).session
        [(tenBytes { plainPacket true 500 1001 with hasAck := true }, calmEnv)] = some s ∧
      s.client.initSeq = 500 ∧ u32Lte s.client.initSeq s.client.asmSeq = false) ∧
    ∀ (sent : TcpEnv) (p : TcpPacket) (env : TcpEnv), (sent, p, env) ∈
        [({ calmEnv with positions := [some 1010] },
            { plainPacket false 4999 1000 with syn := true, hasAck := true }, calmEnv),
          ({ calmEnv with positions := [some 1010] }, tenBytes (plainPacket true 1010 0),
            { calmEnv with positions := [some 990] }),
          ({ calmEnv with parsersGone := true },
            { plainPacket true 1000 0 with data := [0], short := by decide },
            { calmEnv with verdict := .bypass }),
          ({ calmEnv with parsersGone := true }, tenBytes (plainPacket true 2147484648 0),
            calmEnv)] →
      ∃ s, tcpRun (dpiInspectOpen { plainPacket true 999 0 with syn := true } calmEnv).session
          [(tenBytes (plainPacket true 1000 0), sent), (p, env)] = some s ∧
        (u32Lte s.client.initSeq s.client.asmSeq &&
          u32Lte s.client.asmSeq s.client.nextSeq) = false := by
  constructor
  · exact ⟨_, rfl, by decide, by decide⟩
  · simp only [mem_cons, Prod.mk.injEq, not_mem_nil, or_false]
    rintro sent p env (⟨rfl, rfl, rfl⟩ | ⟨rfl, rfl, rfl⟩ | ⟨rfl, rfl, rfl⟩ | ⟨rfl, rfl, rfl⟩)
    · exact ⟨_, rfl, by decide⟩
    · exact ⟨_, rfl, by decide⟩
    · exact ⟨_, rfl, by decide⟩
    · exact ⟨_, rfl, by decide⟩

end NeuVector.DataPath
