import NeuVector.DataPath.TcpTracker

/-!
# The numbers of a wing

A wing is in order if its three sequence numbers are, counted from the start
of its direction.  The offset of a sequence number from there turns the serial
comparisons of the code into comparisons of numbers.  The state machine sets
the numbers at a handshake and keeps them otherwise.
-/

namespace NeuVector.DataPath

open Library List

section Wings

variable {w after : TcpWing} {p : TcpPacket}

structure WingInOrder (w : TcpWing) : Prop where
  order : offset w.initSeq w.asmSeq ≤ offset w.initSeq w.nextSeq
  bound : offset w.initSeq w.nextSeq < halfSpace
  clips : ∀ clip ∈ w.asmCache.tree.toList, offset w.initSeq clip.seq + clip.size + 1 < halfSpace

/-- The numbers are the same, and no clip is new. -/
structure Keeps (w after : TcpWing) : Prop where
  initSeq : after.initSeq = w.initSeq
  nextSeq : after.nextSeq = w.nextSeq
  asmSeq : after.asmSeq = w.asmSeq
  clips : ∀ clip ∈ after.asmCache.tree.toList, clip ∈ w.asmCache.tree.toList

theorem Keeps.refl (w : TcpWing) : Keeps w w := ⟨rfl, rfl, rfl, fun _ member => member⟩

theorem Keeps.trans {final : TcpWing} (first : Keeps w after)
    (second : Keeps after final) : Keeps w final :=
  ⟨second.initSeq.trans first.initSeq, second.nextSeq.trans first.nextSeq,
    second.asmSeq.trans first.asmSeq,
    fun clip member => first.clips clip (second.clips clip member)⟩

/-- What a direction is made of is the same. -/
structure SameFlow (w after : TcpWing) : Prop where
  initSeq : after.initSeq = w.initSeq
  nextSeq : after.nextSeq = w.nextSeq
  asmSeq : after.asmSeq = w.asmSeq
  asmCache : after.asmCache = w.asmCache

theorem SameFlow.refl (w : TcpWing) : SameFlow w w := ⟨rfl, rfl, rfl, rfl⟩

theorem SameFlow.trans {final : TcpWing} (first : SameFlow w after)
    (second : SameFlow after final) : SameFlow w final :=
  ⟨second.initSeq.trans first.initSeq, second.nextSeq.trans first.nextSeq,
    second.asmSeq.trans first.asmSeq, second.asmCache.trans first.asmCache⟩

theorem SameFlow.keeps (same : SameFlow w after) : Keeps w after := by
  refine ⟨same.initSeq, same.nextSeq, same.asmSeq, ?_⟩
  rw [same.asmCache]
  exact fun _ member => member

theorem WingInOrder.keeps (ordered : WingInOrder w)
    (keeps : Keeps w after) : WingInOrder after := by
  constructor
  · rw [keeps.initSeq, keeps.asmSeq, keeps.nextSeq]
    exact ordered.order
  · rw [keeps.initSeq, keeps.nextSeq]
    exact ordered.bound
  · intro clip member
    rw [keeps.initSeq]
    exact ordered.clips clip (keeps.clips clip member)

/-- The wing has carried no payload since its numbers were set. -/
structure Untouched (w : TcpWing) : Prop where
  next : w.nextSeq = w.initSeq
  asm : w.asmSeq = w.initSeq
  empty : w.asmCache.tree.toList = []

theorem Untouched.keeps (untouched : Untouched w) (keeps : Keeps w after) : Untouched after := by
  refine ⟨?_, ?_, ?_⟩
  · rw [keeps.nextSeq, keeps.initSeq]
    exact untouched.next
  · rw [keeps.asmSeq, keeps.initSeq]
    exact untouched.asm
  · apply eq_nil_iff_forall_not_mem.mpr
    intro clip member
    have old := keeps.clips clip member
    rw [untouched.empty] at old
    exact not_mem_nil old

theorem Untouched.inOrder (untouched : Untouched w) : WingInOrder w := by
  constructor
  · exact Nat.le_of_eq (by rw [untouched.next, untouched.asm])
  · rw [untouched.next, offset_self]
    decide
  · intro clip member
    rw [untouched.empty] at member
    exact absurd member not_mem_nil

theorem WingInOrder.serial (ordered : WingInOrder w) :
    u32Lte w.initSeq w.asmSeq = true ∧ u32Lte w.asmSeq w.nextSeq = true := by
  have asmNear := Nat.lt_of_le_of_lt ordered.order ordered.bound
  have start : offset w.initSeq w.initSeq < halfSpace := by
    rw [offset_self]
    decide
  constructor
  · rw [u32Lte_offset start asmNear, offset_self]
    exact decide_eq_true (Nat.zero_le _)
  · rw [u32Lte_offset asmNear ordered.bound]
    exact decide_eq_true ordered.order

end Wings

variable {middle final : TcpSession}

section Sessions

variable {w : TcpWing} {s after : TcpSession} {p : TcpPacket}

theorem wing_setWing (s : TcpSession) (side other : Bool) (w : TcpWing) :
    (s.setWing side w).wing other =
      if other = side then w else s.wing other := by
  cases side with
  | true | false =>
    cases other with
    | true | false => rfl

theorem setWing_skipParser (s : TcpSession) (side : Bool) (w : TcpWing) :
    (s.setWing side w).skipParser = s.skipParser := by
  cases side with
  | true | false => rfl

/-- Both wings keep their numbers, and the parsers go on as before. -/
structure SessionKeeps (s after : TcpSession) : Prop where
  wings : ∀ side, Keeps (s.wing side) (after.wing side)
  parsing : after.skipParser = s.skipParser

theorem SessionKeeps.refl (s : TcpSession) : SessionKeeps s s :=
  ⟨fun side => Keeps.refl (s.wing side), rfl⟩

theorem SessionKeeps.trans (first : SessionKeeps s middle)
    (second : SessionKeeps middle final) : SessionKeeps s final :=
  ⟨fun side => (first.wings side).trans (second.wings side), second.parsing.trans first.parsing⟩

variable {side : Bool}

theorem wings_setWing {rel : TcpWing → TcpWing → Prop} (refl : ∀ w, rel w w)
    (here : rel (s.wing side) w) (other : Bool) :
    rel (s.wing other) ((s.setWing side w).wing other) := by
  rw [wing_setWing]
  split
  next same =>
    rw [same]
    exact here
  · exact refl _

theorem keeps_setWing (keeps : Keeps (s.wing side) w) : SessionKeeps s (s.setWing side w) :=
  ⟨wings_setWing Keeps.refl keeps, setWing_skipParser s side w⟩

structure SessionFlow (s after : TcpSession) : Prop where
  wings : ∀ side, SameFlow (s.wing side) (after.wing side)
  parsing : after.skipParser = s.skipParser
  action : after.action = s.action

theorem SessionFlow.refl (s : TcpSession) : SessionFlow s s :=
  ⟨fun side => SameFlow.refl (s.wing side), rfl, rfl⟩

theorem SessionFlow.trans (first : SessionFlow s after)
    (second : SessionFlow after final) : SessionFlow s final :=
  ⟨fun side => (first.wings side).trans (second.wings side),
    second.parsing.trans first.parsing, second.action.trans first.action⟩

theorem setWing_action (s : TcpSession) (side : Bool) (w : TcpWing) :
    (s.setWing side w).action = s.action := by
  cases side with
  | true | false => rfl

theorem flow_setWing {w : TcpWing} (same : SameFlow (s.wing side) w) :
    SessionFlow s (s.setWing side w) :=
  ⟨wings_setWing SameFlow.refl same, setWing_skipParser s side w, setWing_action s side w⟩

theorem flow_toStates (s : TcpSession) (client server : TcpState) :
    SessionFlow s (s.toStates client server) := by
  refine ⟨?_, rfl, rfl⟩
  intro side
  cases side with
  | true | false => exact ⟨rfl, rfl, rfl, rfl⟩

theorem SessionFlow.keeps (flow : SessionFlow s after) : SessionKeeps s after :=
  ⟨fun side => (flow.wings side).keeps, flow.parsing⟩

theorem keeps_destroyCaches (s : TcpSession) : SessionKeeps s s.destroyCaches := by
  refine ⟨?_, rfl⟩
  intro side
  cases side with
  | true | false => exact ⟨rfl, rfl, rfl, fun _ member => absurd member not_mem_nil⟩

/-- A `SYN` for a receiver in the state. -/
def Handshaking (p : TcpPacket) (s : TcpSession) (state : TcpState) : Prop :=
  p.syn = true ∧ (s.that p).tcpState = state

/-- What the state machine may report: a handshake and its misuse only for a
`SYN`, and no server that sends the first `SYN`. -/
structure Reported (p : TcpPacket) (s : TcpSession) (evt : TcpEvt) (server : TcpState) : Prop where
  syn : evt = .syn → Handshaking p s .listen
  synack : evt = .synack → Handshaking p s .synSent
  misuse : evt = .split → p.syn = true
  server : server = .synSent → s.server.tcpState = .synSent

theorem tcpUpdateState_cases (p : TcpPacket) (s : TcpSession) :
    ∃ evt client server, tcpUpdateState p s = (evt, s.toStates client server) ∧
        Reported p s evt server := by
  have same : s = s.toStates s.client.tcpState s.server.tcpState := rfl
  have unchanged : ∃ evt client server, (TcpEvt.normal, s) = (evt, s.toStates client server) ∧
        Reported p s evt server :=
    ⟨.normal, s.client.tcpState, s.server.tcpState,
      congrArg (Prod.mk _) same, nofun, nofun, nofun, id⟩
  have passed : ∀ (evt : TcpEvt), evt = .fin ∨ evt = .normal →
      ∀ this that, this ≠ .synSent ∧ that ≠ .synSent → ∃ result client server,
          (evt, s.passStates p this that) = (result, s.toStates client server) ∧
            Reported p s result server := by
    intro evt plain this that ⟨thisOther, thatOther⟩
    have quiet : ∀ server, server ≠ .synSent → Reported p s evt server := by
      intro server other
      rcases plain with fin | normal
      · subst fin
        exact ⟨nofun, nofun, nofun, fun sent => absurd sent other⟩
      · subst normal
        exact ⟨nofun, nofun, nofun, fun sent => absurd sent other⟩
    unfold TcpSession.passStates
    split
    · exact ⟨evt, this, that, rfl, quiet that thatOther⟩
    · exact ⟨evt, that, this, rfl, quiet this thisOther⟩
  unfold tcpUpdateState
  split
  · exact ⟨_, _, _, rfl, nofun, nofun, nofun, nofun⟩
  · split
    next listening =>
      split
      next syn =>
        exact ⟨_, s.client.tcpState, _, rfl, fun _ => ⟨syn, listening⟩, nofun, nofun, nofun⟩
      · exact unchanged
    next waiting =>
      split
      next syn =>
        split
        · exact ⟨_, _, s.server.tcpState, rfl, nofun, fun _ => ⟨syn, waiting⟩, nofun, id⟩
        · exact ⟨_, _, s.server.tcpState, rfl, nofun, fun _ => ⟨syn, waiting⟩, nofun, id⟩
      · exact unchanged
    · split
      · exact ⟨_, _, _, rfl, nofun, nofun, nofun, nofun⟩
      · split
        next misuse =>
          rw [Bool.and_eq_true] at misuse
          exact ⟨_, _, _, rfl, nofun, nofun, fun _ => misuse.1, nofun⟩
        · exact unchanged
    · split
      · exact passed .fin (Or.inl rfl) _ _ (by decide)
      · split
        next misuse =>
          rw [Bool.and_eq_true, Bool.and_eq_true] at misuse
          exact ⟨_, s.client.tcpState, _, rfl, nofun, nofun, fun _ => misuse.1.1, nofun⟩
        · exact unchanged
    · split
      · exact passed .fin (Or.inl rfl) _ _ (by decide)
      · split
        · exact passed .normal (Or.inr rfl) _ _ (by decide)
        · exact unchanged
    · split
      · exact passed .fin (Or.inl rfl) _ _ (by decide)
      · exact unchanged
    · split
      · unfold TcpSession.setThat TcpSession.that
        cases p.fromClient with
        | true => exact ⟨_, s.client.tcpState, _, rfl, nofun, nofun, nofun, nofun⟩
        | false => exact ⟨_, _, s.server.tcpState, rfl, nofun, nofun, nofun, id⟩
      · exact unchanged
    · exact unchanged

theorem tcpUpdateWing_flow (p : TcpPacket) (s : TcpSession) {evt : TcpEvt}
    (notSyn : evt ≠ .syn) (notSynack : evt ≠ .synack) :
    SessionFlow s (tcpUpdateWing p s evt) := by
  have acked : SessionFlow s (if p.hasAck then s.setThat p { s.that p with tcpAcked := p.ack }
      else s) := by
    split
    · exact flow_setWing ⟨rfl, rfl, rfl, rfl⟩
    · exact SessionFlow.refl s
  cases evt with
  | syn => exact absurd rfl notSyn
  | synack => exact absurd rfl notSynack
  | twh =>
    refine ⟨?_, rfl, rfl⟩
    intro side
    cases side with
    | true => exact SameFlow.refl _
    | false => exact ⟨rfl, rfl, rfl, rfl⟩
  | fin => exact flow_setWing ⟨rfl, rfl, rfl, rfl⟩
  | rst => exact SessionFlow.refl s
  | split | normal => exact acked

/-- A handshake sets the numbers of a wing without payload.  The client's are
only set by an acknowledgement of its start. -/
theorem tcpUpdateWing_untouched {evt : TcpEvt} (untouched : Untouched (s.wing side))
    (handshake : evt = .syn ∨ evt = .synack)
    (acknowledged : side = true → evt = .synack → p.hasAck = true → p.ack = s.client.initSeq) :
    Untouched ((tcpUpdateWing p s evt).wing side) := by
  rcases handshake with syn | synack
  · subst syn
    cases side with
    | true => exact ⟨rfl, rfl, untouched.empty⟩
    | false => exact untouched
  · subst synack
    cases side with
    | true =>
      change Untouched (if p.hasAck then s.client.acknowledgeStart p.ack
        else s.client)
      split
      next hasAck =>
        have start := acknowledged rfl rfl hasAck
        exact ⟨rfl, untouched.asm.trans start.symm, untouched.empty⟩
      · exact untouched
    | false => exact ⟨rfl, rfl, untouched.empty⟩

end Sessions

end NeuVector.DataPath
