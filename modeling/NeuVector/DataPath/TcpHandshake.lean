import NeuVector.DataPath.StreamInspection

/-!
# Sessions that have been opened

A `SYN` and the `SYN/ACK` that answers it set the numbers of both directions
of a session and leave the caches empty.
-/

namespace NeuVector.DataPath

open Library List

variable {s : TcpSession}

/-- A direction whose numbers are set and that has carried no payload. -/
structure StreamStart (w : TcpWing) : Prop where
  nextSeq : w.nextSeq = w.initSeq
  asmSeq : w.asmSeq = w.initSeq
  empty : w.asmCache = asmInit

/-- A session whose directions have carried no payload, with parsers at work
and nothing decided. -/
structure Opened (s : TcpSession) : Prop where
  start : ∀ side, StreamStart (s.wing side)
  parsing : s.skipParser = false
  inspecting : s.action = .none

/-- A `SYN` without payload, `FIN` and `RST` that nothing stops. -/
structure PlainSyn (p : TcpPacket) (env : TcpEnv) : Prop where
  syn : p.syn = true
  empty : p.len = 0
  noFin : p.fin = false
  noRst : p.rst = false
  verdict : dpiIsActionFinal p env.verdict = false

variable {p : TcpPacket} {env : TcpEnv}

theorem inspectTracked_opened (plain : PlainSyn p env) (opened : Opened s) :
    inspectTracked p env (.attached s newPkt) = { session := some s, delivered := none } := by
  have unflushed : asmFlush (s.this p).asmSeq (s.this p).asmCache.tree.toList
      (s.this p).asmCache = (s.this p).asmCache := by
    have none : (s.this p).asmCache = asmInit := (opened.start p.fromClient).empty
    rw [none]
    rfl
  rw [inspectTracked_empty plain.empty opened.parsing rfl opened.inspecting plain.verdict,
    unflushed, setThis_this]

/-- The tracker with a packet that brings neither payload nor `FIN`. -/
theorem trackFresh_quiet (window : tcpIsInWindow p s = true)
    (plain : PlainSyn p env) {evt : TcpEvt} {moved : TcpSession}
    (reported : tcpUpdateState p (noteWindow p s) = (evt, moved)) (notSplit : evt ≠ .split)
    (idle : (tcpUpdateWing p moved evt).action = .none)
    (acked : p.hasAck = true → u32Gt p.ack ((tcpUpdateWing p moved evt).that p).nextSeq = false) :
    trackFresh p env s = .attached (tcpUpdateWing p moved evt) newPkt := by
  unfold trackFresh
  simp only
  rw [tcpIsInWindow_noteWindow, window, reported]
  rw [splitThreat_other newPkt notSplit, idle]
  unfold trackPayload
  rw [if_pos plain.empty]
  unfold trackFin
  simp only [plain.noFin, Bool.false_and, Bool.false_eq_true, if_false]
  rw [trackAck_seen acked]
  change (if !true then _ else if dpiIsActionFinal p .none ||
    dpiIsActionFinal p .none then _ else _) = _
  rw [dpiIsActionFinal_none]
  rfl

section

variable (plain : PlainSyn p env)
include plain

theorem tcpUpdateState_syn (listening : (s.that p).tcpState = .listen) :
    tcpUpdateState p s = (.syn, { s with server := s.server.toState .synRecv }) := by
  unfold tcpUpdateState
  rw [plain.noRst, listening, plain.syn]
  rfl

theorem tcpUpdateState_synack (hasAck : p.hasAck = true)
    (waiting : (s.that p).tcpState = .synSent) :
    tcpUpdateState p s = (.synack, { s with client := s.client.toState .established }) := by
  unfold tcpUpdateState
  rw [plain.noRst, waiting, plain.syn, hasAck]
  rfl

theorem PlainSyn.accepts : ¬ (p.syn && decide (p.len ≠ 0)) = true := by
  rw [decide_eq_false (fun filled => filled plain.empty), Bool.and_false]
  exact Bool.false_ne_true

theorem opened_by_syn (client : p.fromClient = true) (noAck : p.hasAck = false)
    (admitted : env.admitted = true) :
    ∃ s, (dpiInspectOpen p env).session = some s ∧ Opened s ∧
      s.client.initSeq = p.seq + 1 ∧ s.client.tcpState = .synSent ∧
      s.server.tcpState = .synRecv ∧ s.server.tcpAcked = 0 := by
  have sender : ({ p with fromClient := true } : TcpPacket) = p := by rw [← client]
  have noted : noteWindow p tcpOpenBySyn =
      { tcpOpenBySyn with
        client := { tcpOpenBySyn.client with
          tcpWin := p.win.toUInt32 <<< 0 } } := by
    unfold noteWindow TcpSession.setThis TcpSession.this
    rw [client]
    rfl
  have listening : ((noteWindow p tcpOpenBySyn).that p).tcpState = .listen := by
    rw [noted, TcpSession.that, client]
    rfl
  have window : tcpIsInWindow p tcpOpenBySyn = true := by
    unfold tcpIsInWindow TcpSession.this
    rw [client]
    rfl
  have tracked := trackFresh_quiet window plain (tcpUpdateState_syn plain listening) nofun
    (setWing_action tcpOpenBySyn _ _) (fun hasAck => by
      rw [noAck] at hasAck
      cases hasAck)
  rw [noted] at tracked
  have attached : dpiTcpOpen p env = trackFresh p env tcpOpenBySyn := by
    have creates : (!p.syn || !env.admitted) = false := by
      rw [plain.syn, admitted]
      rfl
    unfold dpiTcpOpen
    rw [if_neg plain.accepts, if_neg (Bool.eq_false_iff.mp creates),
      if_neg (Bool.eq_false_iff.mp noAck), sender, trackSession_empty plain.empty]
  have opened : Opened (tcpUpdateWing p
      { tcpOpenBySyn with
        client := { tcpOpenBySyn.client with
          tcpWin := p.win.toUInt32 <<< 0 }
        server := tcpOpenBySyn.server.toState .synRecv } .syn) := by
    refine ⟨?_, rfl, rfl⟩
    intro side
    cases side with
    | true | false => exact ⟨rfl, rfl, rfl⟩
  refine ⟨_, ?_, opened, rfl, rfl, rfl, rfl⟩
  have oriented : ({ p with fromClient := !p.hasAck } : TcpPacket) = p := by
    have flipped : (!p.hasAck) = true := by
      rw [noAck]
      rfl
    rw [flipped]
    exact sender
  unfold dpiInspectOpen
  rw [oriented, attached, tracked, inspectTracked_opened plain opened]

end

theorem opened_by_synack (opened : Opened s) (plain : PlainSyn p env)
    (server : p.fromClient = false) (hasAck : p.hasAck = true) (answers : p.ack = s.client.initSeq)
    (waiting : s.client.tcpState = .synSent) (received : s.server.tcpState = .synRecv)
    (unacked : s.server.tcpAcked = 0) :
    ∃ after, (dpiInspectTcp p env s).session = some after ∧ Opened after ∧
      after.client.initSeq = s.client.initSeq ∧
      after.server.initSeq = p.seq + 1 := by
  have noted : noteWindow p s =
      { s with server := { s.server with
        tcpWin := p.win.toUInt32 <<< s.server.tcpWscale.toUInt32 } } := by
    unfold noteWindow TcpSession.setThis TcpSession.this
    rw [server]
    rfl
  have sent : ((noteWindow p s).that p).tcpState = .synSent := by
    rw [noted, TcpSession.that, server]
    exact waiting
  have window : tcpIsInWindow p s = true := by
    unfold tcpIsInWindow TcpSession.this
    rw [server]
    change (decide (s.server.tcpAcked = 0) || _) = true
    rw [decide_eq_true unacked, Bool.true_or]
  have answered : Opened (tcpUpdateWing p
      { s with
        server := { s.server with
          tcpWin := p.win.toUInt32 <<< s.server.tcpWscale.toUInt32 }
        client := s.client.toState .established } .synack) := by
    refine ⟨?_, opened.parsing, opened.inspecting⟩
    intro side
    cases side with
    | true =>
      change StreamStart (if p.hasAck then
        (s.client.toState .established).acknowledgeStart p.ack
        else s.client.toState .established)
      rw [if_pos hasAck]
      exact ⟨rfl, (opened.start true).asmSeq.trans answers.symm, (opened.start true).empty⟩
    | false => exact ⟨rfl, rfl, (opened.start false).empty⟩
  have client : ∀ t, (tcpUpdateWing p t .synack).client = t.client.acknowledgeStart p.ack :=
    fun _ => if_pos hasAck
  have tracked := trackFresh_quiet window plain (tcpUpdateState_synack plain hasAck sent) nofun (by
      rw [noted]
      exact answered.inspecting) (fun _ => by
      rw [TcpSession.that, server]
      change u32Gt p.ack (tcpUpdateWing p _ .synack).client.nextSeq = false
      rw [client]
      exact u32Gt_self p.ack)
  rw [noted] at tracked
  have attached : dpiTcpTracker p env s = trackFresh p env s := by
    have fromServer : (p.fromClient && p.syn && !p.hasAck) = false := by
      rw [server]
      rfl
    have isAnswer : (!p.fromClient && p.syn && p.hasAck) = true := by
      rw [server, plain.syn, hasAck]
      rfl
    have valid : (decide (s.server.tcpState ≠ .synRecv) && decide (p.seq ≠ s.server.initSeq - 1) ||
        decide (p.ack ≠ s.client.initSeq)) = false := by
      rw [decide_eq_false fun other : s.server.tcpState ≠ .synRecv =>
          other received, decide_eq_false fun other : p.ack ≠ s.client.initSeq => other answers]
      rfl
    unfold dpiTcpTracker
    rw [if_neg plain.accepts, if_neg (Bool.eq_false_iff.mp fromServer), if_pos isAnswer,
      if_neg (Bool.eq_false_iff.mp valid), trackSession_empty plain.empty]
  refine ⟨_, ?_, answered, ?_, rfl⟩
  · unfold dpiInspectTcp
    rw [attached, tracked, inspectTracked_opened plain answered]
  · rw [client]
    exact answers

/-- A `SYN` and the `SYN/ACK` that answers it, neither with payload, leave a
session whose two directions begin behind the numbers of the packets. -/
theorem handshake_opens {syn synack : TcpPacket} {env later : TcpEnv} (first : PlainSyn syn env)
    (client : syn.fromClient = true) (noAck : syn.hasAck = false) (admitted : env.admitted = true)
    (second : PlainSyn synack later) (server : synack.fromClient = false)
    (hasAck : synack.hasAck = true) (answers : synack.ack = syn.seq + 1) :
    ∃ s, tcpRun (dpiInspectOpen syn env).session [(synack, later)] = some s ∧ Opened s ∧
      s.client.initSeq = syn.seq + 1 ∧ s.server.initSeq = synack.seq + 1 := by
  obtain ⟨fresh, created, opened, start, waiting, received, unacked⟩ :=
    opened_by_syn first client noAck admitted
  obtain ⟨s, inspected, shaken, kept, begins⟩ := opened_by_synack opened second server hasAck
    (answers.trans start.symm) waiting received unacked
  rw [created]
  exact ⟨s, by rw [tcpRun, inspected, tcpRun], shaken, kept.trans start, begins⟩

theorem handshake_opens_shaken :
    ∃ s, Opened s ∧ s.client.initSeq = 1000 ∧ s.server.initSeq = 5000 := by
  obtain ⟨s, _, opened, numbers⟩ := @handshake_opens
    { plainPacket true 999 0 with syn := true }
    { plainPacket false 4999 1000 with syn := true, hasAck := true } calmEnv calmEnv
    ⟨rfl, rfl, rfl, rfl, rfl⟩ rfl rfl rfl ⟨rfl, rfl, rfl, rfl, rfl⟩ rfl rfl rfl
  exact ⟨s, opened, numbers⟩

end NeuVector.DataPath
