import NeuVector.DataPath.TcpWings

/-!
# What payload does to the numbers of a wing

The payload of a packet that lies within half the sequence space of the start
of its direction keeps the numbers of the wing in order while it is cached,
assembled and sequenced, and the clips in the cache stay within the same half.
-/

namespace NeuVector.DataPath

open Library List

variable {seq : UInt32} {middle : TcpSession}

variable {asm : Asm} {mustHave : UInt32}

section Cache

variable {w after : TcpWing} {p : TcpPacket} {env : TcpEnv}
variable {clip : Clip}

theorem asmInsert_clips {inserted : Asm}
    (result : asmInsert asm clip = some inserted) (other : Clip)
    (member : other ∈ inserted.tree.toList) :
    other = clip ∨ other ∈ asm.tree.toList := by
  obtain ⟨tree, found, same⟩ := Option.map_eq_some_iff.mp result
  subst same
  exact (SearchTree.mem_toList_of_insert found other).mp member

theorem asmLookup_seq (found : asmLookup asm seq = some clip) : clip.seq = seq := by
  have probed := SearchTree.find_eq found
  unfold asmProbe u32Gt u32Lt at probed
  split at probed
  · cases probed
  next notAbove =>
    split at probed
    · cases probed
    next notBelow =>
      rw [decide_eq_true_eq] at notAbove notBelow
      have none : (seq - clip.seq).toBitVec.toInt = 0 := by
        unfold signedDistance at notAbove notBelow
        omega
      have zero : seq - clip.seq = 0 := by
        apply UInt32.toBitVec_inj.mp
        exact BitVec.toInt_inj.mp none
      rw [← UInt32.sub_add_cancel seq clip.seq, zero, UInt32.zero_add]

theorem asmRemove_clips (found : asmLookup asm seq = some clip)
    (same : clip.seq = seq) (other : Clip) (member : other ∈ (asmRemove asm clip).tree.toList) :
    other ∈ asm.tree.toList := by
  rw [← same] at found
  obtain ⟨before, behind, whole, removed⟩ := SearchTree.removeFound_toList found
  have inside : other ∈ before ++ behind := by
    rw [← removed]
    exact member
  rw [whole]
  rcases mem_append.mp inside with first | second
  · exact mem_append_left _ first
  · exact mem_append_right _ (mem_cons_of_mem _ second)

theorem asmFlush_clips (seq : UInt32) (asm : Asm) (other : Clip)
    (member : other ∈ (asmFlush seq asm.tree.toList asm).tree.toList) :
    other ∈ asm.tree.toList := by
  rw [asmFlush_toList] at member
  exact (dropWhile_sublist _).subset member

/-- The packet brings no payload and no `FIN` to a wing with payload, or it
lies in the half space behind the start of the wing. -/
def Fits (w : TcpWing) (p : TcpPacket) : Prop :=
  p.len = 0 ∧ (p.fin = false ∨ w.nextSeq = w.initSeq) ∨
    offset w.initSeq p.seq + p.data.length + 1 < halfSpace

theorem Fits.keeps (fits : Fits w p) (keeps : Keeps w after) : Fits after p := by
  unfold Fits
  rw [keeps.initSeq, keeps.nextSeq]
  exact fits

theorem Fits.inside (fits : Fits w p) (payload : p.len ≠ 0) :
    offset w.initSeq p.seq + p.data.length + 1 < halfSpace := by
  rcases fits with ⟨empty, _⟩ | inside
  · exact absurd empty payload
  · exact inside

/-- Once the parsers are skipped, no payload ends before what they have
consumed. -/
def Forward (skipped : Bool) (w : TcpWing) (p : TcpPacket) : Prop :=
  skipped = true → p.len ≠ 0 → offset w.initSeq w.asmSeq ≤ offset w.initSeq p.stop

theorem Forward.keeps {skipped : Bool} (forward : Forward skipped w p)
    (keeps : Keeps w after) : Forward skipped after p := by
  unfold Forward
  rw [keeps.initSeq, keeps.asmSeq]
  exact forward

theorem dpiCachePacket_inOrder {lookup : Bool} (ordered : WingInOrder w)
    (fits : Fits w p) (payload : p.len ≠ 0) (cached : dpiCachePacket p env w lookup = some after) :
    WingInOrder after ∧ after.initSeq = w.initSeq ∧
      after.nextSeq = w.nextSeq ∧ after.asmSeq = w.asmSeq := by
  unfold dpiCachePacket at cached
  split at cached
  · cases cached
  · split at cached
    · cases cached
    · obtain ⟨asm, inserted, same⟩ := Option.map_eq_some_iff.mp cached
      subst same
      refine ⟨⟨ordered.order, ordered.bound, ?_⟩, rfl, rfl, rfl⟩
      intro clip member
      rcases asmInsert_clips inserted clip member with rfl | old
      · exact fits.inside payload
      · exact ordered.clips clip old

theorem asmScan_suffix {targetSeq : UInt32} {clips first last : List Clip}
    {total : UInt32} {result : List Clip × List Clip × UInt32}
    (ahead : clips <:+ first) (reached : last <:+ first)
    (found : asmScan targetSeq mustHave clips first last total =
      some result) : result.1 <:+ first ∧ result.2.1 <:+ result.1 := by
  induction clips generalizing first last total with
  | nil =>
    cases found
    exact ⟨suffix_rfl, reached⟩
  | cons head rest induction =>
    have behind : rest <:+ first := (suffix_cons head rest).trans ahead
    unfold asmScan at found
    simp only at found
    split at found
    · obtain ⟨inside, final⟩ := induction suffix_rfl suffix_rfl found
      exact ⟨inside.trans behind, final⟩
    · split at found
      · split at found
        · cases found
        · cases found
          exact ⟨suffix_rfl, ahead⟩
      · exact induction behind ahead found

theorem asmCopy_len (start : UInt32) (clips : List Clip) (target : AsmTarget) :
    (asmCopy start clips target).len = target.len ∨ ∃ clip ∈ clips,
        (asmCopy start clips target).len = clip.seq + clip.len - start := by
  induction clips generalizing target with
  | nil => exact Or.inl rfl
  | cons head rest induction =>
    rcases induction { target with
        buffer := Segments.overwrite target.buffer (head.seq - start).toNat head.data
        len := u32Max (head.seq + head.len - start) target.len } with
      reached | ⟨clip, member, reached⟩
    · have step : (asmCopy start (head :: rest) target).len =
          u32Max (head.seq + head.len - start) target.len := reached
      unfold u32Max at step
      split at step
      · exact Or.inr ⟨head, mem_cons_self, step⟩
      · exact Or.inl step
    · exact Or.inr ⟨clip, mem_cons_of_mem _ member, reached⟩

theorem asmConstruct_range {target cons : AsmTarget}
    (built : asmConstruct asm target mustHave = (.ok, cons)) :
    ∃ first ∈ asm.tree.toList, cons.seq = first.seq ∧
      (cons.seq + cons.len = first.seq ∨ ∃ last ∈ asm.tree.toList,
          cons.seq + cons.len = last.seq + last.len) := by
  unfold asmConstruct at built
  split at built
  · cases built
  · simp only at built
    split at built
    · cases built
    next first last total scanned =>
      split at built
      · cases built
      next several =>
        split at built
        · cases built
        · cases built
          obtain ⟨inside, final⟩ := asmScan_suffix suffix_rfl suffix_rfl scanned
          cases first with
          | nil =>
            have none : last = [] := suffix_nil.mp final
            exact absurd (Or.inl (by rw [none])) several
          | cons head more =>
            refine ⟨head, inside.subset mem_cons_self, rfl, ?_⟩
            rcases asmCopy_len head.seq
                ((head :: more).take ((head :: more).length - last.length + 1))
                { target with len := 0 } with
              reached | ⟨clip, member, reached⟩
            · left
              change head.seq + (asmCopy head.seq _ _).len = head.seq
              rw [reached]
              exact UInt32.add_zero head.seq
            · right
              refine ⟨clip, inside.subset (mem_of_mem_take member), ?_⟩
              change head.seq + (asmCopy head.seq _ _).len = _
              rw [reached, UInt32.add_comm, UInt32.sub_add_cancel]

end Cache

section Tracker

variable {side : Bool} {s after : TcpSession} {p : TcpPacket} {env : TcpEnv} {pkt : PktState}

variable {w : TcpWing}

def SameStates (s after : TcpSession) : Prop :=
  ∀ side, (after.wing side).tcpState = (s.wing side).tcpState

theorem SameStates.refl (s : TcpSession) : SameStates s s := fun _ => rfl

theorem SameStates.trans (first : SameStates s middle)
    (second : SameStates middle after) : SameStates s after :=
  fun side => (second side).trans (first side)

theorem sameStates_setWing (same : w.tcpState = (s.wing side).tcpState) :
    SameStates s (s.setWing side w) :=
  @wings_setWing w s side (fun w after => after.tcpState = w.tcpState) (fun _ => rfl) same

theorem sameStates_destroyCaches (s : TcpSession) : SameStates s s.destroyCaches := by
  intro side
  cases side with
  | true | false => rfl

theorem dpiCachePacket_state {cached : TcpWing} {lookup : Bool}
    (result : dpiCachePacket p env w lookup = some cached) :
    cached.tcpState = w.tcpState := by
  unfold dpiCachePacket at result
  split at result
  · cases result
  · split at result
    · cases result
    · obtain ⟨asm, _, same⟩ := Option.map_eq_some_iff.mp result
      subst same
      rfl

/-- The wing is in order with the same start. -/
structure Stays (side : Bool) (s after : TcpSession) : Prop where
  ordered : WingInOrder (after.wing side)
  start : (after.wing side).initSeq = (s.wing side).initSeq

theorem SessionKeeps.stays (keeps : SessionKeeps s after)
    (ordered : WingInOrder (s.wing side)) : Stays side s after :=
  ⟨ordered.keeps (keeps.wings side), (keeps.wings side).initSeq⟩

theorem this_eq (sender : p.fromClient = side) : s.this p = s.wing side := by
  rw [← sender]
  rfl

theorem stays_setThis (ordered : WingInOrder (s.wing side))
    (changed : p.fromClient = side → WingInOrder w ∧ w.initSeq = (s.wing side).initSeq) :
    Stays side s (s.setThis p w) := by
  have here : (s.setThis p w).wing side = if side = p.fromClient then w else s.wing side :=
    wing_setWing ..
  split at here
  next sender =>
    obtain ⟨wing, start⟩ := changed sender.symm
    rw [← here] at wing start
    exact ⟨wing, start⟩
  · rw [← here] at ordered
    exact ⟨ordered, congrArg TcpWing.initSeq here⟩

/-- It stays so, and no wing changes its state. -/
structure Moves (side : Bool) (s after : TcpSession) : Prop extends Stays side s after where
  states : SameStates s after

theorem Moves.refl (ordered : WingInOrder (s.wing side)) : Moves side s s :=
  ⟨(SessionKeeps.refl s).stays ordered, SameStates.refl s⟩

theorem Moves.trans (first : Moves side s middle)
    (second : Moves side middle after) : Moves side s after :=
  ⟨⟨second.ordered, second.start.trans first.start⟩, first.states.trans second.states⟩

theorem moves_destroyCaches (ordered : WingInOrder (s.wing side)) : Moves side s s.destroyCaches :=
  ⟨(keeps_destroyCaches s).stays ordered, sameStates_destroyCaches s⟩

theorem moves_setThis (ordered : WingInOrder (s.wing side))
    (state : w.tcpState = (s.this p).tcpState)
    (changed : p.fromClient = side → WingInOrder w ∧ w.initSeq = (s.wing side).initSeq) :
    Moves side s (s.setThis p w) :=
  ⟨stays_setThis ordered changed, sameStates_setWing state⟩

/-- A range of payload in the half space behind the start. -/
def RangeFits (base : UInt32) (range : UInt32 × UInt32) : Prop :=
  offset base range.1 + 1 < halfSpace ∧ offset base range.2 < halfSpace

theorem rangeFits_packet {base : UInt32}
    (inside : offset base p.seq + p.data.length + 1 < halfSpace) :
    RangeFits base (p.seq, p.stop) := by
  have near : offset base p.seq + p.data.length < halfSpace := by omega
  have stop : offset base p.stop = offset base p.seq + p.data.length := offset_add near
  constructor
  · change offset base p.seq + 1 < halfSpace
    omega
  · change offset base p.stop < halfSpace
    omega

theorem rangeFits_clips {base : UInt32}
    (clips : ∀ clip ∈ asm.tree.toList, offset base clip.seq + clip.size + 1 < halfSpace)
    {target cons : AsmTarget} (built : asmConstruct asm target mustHave = (.ok, cons)) :
    RangeFits base (cons.seq, cons.seq + cons.len) := by
  obtain ⟨first, member, start, stop⟩ := asmConstruct_range built
  have near := clips first member
  constructor
  · change offset base cons.seq + 1 < halfSpace
    rw [start]
    omega
  · change offset base (cons.seq + cons.len) < halfSpace
    rcases stop with same | ⟨last, inside, same⟩
    · rw [same]
      omega
    · have lastNear := clips last inside
      have reached : offset base (last.seq + last.len) = offset base last.seq + last.size :=
        offset_add (by unfold Clip.size at lastNear; omega)
      rw [same]
      omega

/-- The packet's own range, or what was assembled, lies in the half space. -/
def Bounded (side : Bool) (s : TcpSession) (p : TcpPacket) (pkt : PktState) : Prop :=
  p.fromClient = side → p.len ≠ 0 → RangeFits (s.wing side).initSeq (pkt.range p)

theorem bounded_plain (fits : p.fromClient = side → Fits (s.wing side) p)
    (plain : pkt.assembled = none) : Bounded side s p pkt := by
  intro sender payload
  unfold PktState.range
  rw [plain]
  exact rangeFits_packet ((fits sender).inside payload)

section

variable (ordered : WingInOrder (s.wing side))
include ordered

theorem tcpAssembly_moves (fits : p.fromClient = side → Fits (s.wing side) p)
    (plain : pkt.assembled = none) :
    Moves side s (tcpAssembly p env s pkt).1 ∧ Bounded side (tcpAssembly p env s pkt).1 p
        (tcpAssembly p env s pkt).2 := by
  have still := Moves.refl ordered
  have same := @bounded_plain side s p pkt fits plain
  unfold tcpAssembly
  simp only
  split
  · exact ⟨still, same⟩
  next payload =>
    rw [Bool.or_eq_true, not_or, decide_eq_true_eq] at payload
    split
    · exact ⟨still, same⟩
    · cases cached : dpiCachePacket p env (s.this p) false with
      | none => exact ⟨still, same⟩
      | some w =>
        have stored : Moves side s (s.setThis p w) := by
          apply moves_setThis ordered (dpiCachePacket_state cached)
          intro sender
          rw [this_eq sender] at cached
          obtain ⟨wing, start, _, _⟩ := dpiCachePacket_inOrder ordered
            (fits sender) payload.1 cached
          exact ⟨wing, start⟩
        have fitsStored : p.fromClient = side → Fits ((s.setThis p w).wing side) p := by
          intro sender
          refine Or.inr ?_
          rw [stored.start]
          exact (fits sender).inside payload.1
        simp only
        split
        next cons built =>
          refine ⟨stored, ?_⟩
          intro sender _
          have here : (s.setThis p w).wing side = w := by
            unfold TcpSession.setThis
            rw [wing_setWing, if_pos sender.symm]
          have wing := stored.ordered
          rw [here] at wing ⊢
          exact rangeFits_clips wing.clips built
        · split
          · refine ⟨stored.trans (moves_destroyCaches stored.ordered), ?_⟩
            apply bounded_plain
            · intro sender
              exact (fitsStored sender).keeps ((keeps_destroyCaches (s.setThis p w)).wings side)
            · unfold dpiSetAction
              split
              · exact plain
              · exact plain
          · exact ⟨stored, bounded_plain fitsStored plain⟩

theorem updateNextSeq_moves (payload : p.len ≠ 0) (bounded : Bounded side s p pkt) :
    Moves side s (updateNextSeq p s pkt).1 ∧ Bounded side (updateNextSeq p s pkt).1 p
        (updateNextSeq p s pkt).2 := by
  have still := Moves.refl ordered
  unfold updateNextSeq
  simp only
  split
  · exact ⟨still, bounded⟩
  · split
    next reaches =>
      have moved : Moves side s (s.setThis p { s.this p with nextSeq := (pkt.range p).2 }) := by
        refine moves_setThis ordered rfl ?_
        intro sender
        rw [this_eq sender] at reaches ⊢
        have near := (bounded sender payload).2
        rw [u32Lt_offset ordered.bound near, decide_eq_true_eq] at reaches
        refine ⟨⟨?_, near, ordered.clips⟩, rfl⟩
        exact Nat.le_of_lt (Nat.lt_of_le_of_lt ordered.order reaches)
      refine ⟨moved, ?_⟩
      intro sender _
      rw [moved.start]
      exact bounded sender payload
    · exact ⟨still, bounded⟩

theorem trackPayload_moves (fits : p.fromClient = side → Fits (s.wing side) p)
    (forward : p.fromClient = side →
      Forward s.skipParser (s.wing side) p) (plain : pkt.assembled = none) :
    Moves side s (trackPayload p env s pkt).1 ∧
      (p.len ≠ 0 → Bounded side (trackPayload p env s pkt).1 p (trackPayload p env s pkt).2) ∧
      (p.len = 0 → trackPayload p env s pkt = (s, pkt)) := by
  unfold trackPayload
  by_cases payload : p.len = 0
  · rw [if_pos payload]
    exact ⟨Moves.refl ordered, fun filled => absurd payload filled, fun _ => rfl⟩
  · rw [if_neg payload]
    split
    next skipped =>
      have moved : Moves side s (s.setThis p { s.this p with nextSeq := p.stop }) := by
        refine moves_setThis ordered rfl ?_
        intro sender
        rw [this_eq sender]
        have near := rangeFits_packet ((fits sender).inside payload)
        exact ⟨⟨forward sender skipped payload, near.2, ordered.clips⟩, rfl⟩
      refine ⟨moved, ?_, fun empty => absurd empty payload⟩
      intro _
      apply bounded_plain _ plain
      intro sender
      refine Or.inr ?_
      rw [moved.start]
      exact (fits sender).inside payload
    · obtain ⟨assembled, bounded⟩ := @tcpAssembly_moves side s p env pkt ordered fits plain
      obtain ⟨moved, later⟩ := updateNextSeq_moves assembled.ordered payload bounded
      exact ⟨assembled.trans moved, fun _ => later, fun empty => absurd empty payload⟩

theorem trackFin_moves
    (room : p.fromClient = side → p.fin = true → (s.wing side).nextSeq = (pkt.range p).1 →
        offset (s.wing side).initSeq (s.wing side).nextSeq + 1 <
          halfSpace) : Moves side s (trackFin p s pkt) := by
  unfold trackFin
  simp only
  split
  next ends =>
    rw [Bool.and_eq_true, decide_eq_true_eq] at ends
    refine moves_setThis ordered rfl ?_
    intro sender
    rw [this_eq sender] at ends ⊢
    have space := room sender ends.1 ends.2
    have next : offset (s.wing side).initSeq ((s.wing side).nextSeq + 1) =
        offset (s.wing side).initSeq (s.wing side).nextSeq + 1 :=
      offset_add space
    refine ⟨⟨?_, ?_, ordered.clips⟩, rfl⟩
    · rw [next]
      exact Nat.le_succ_of_le ordered.order
    · rw [next]
      exact space
  · exact Moves.refl ordered

theorem trackAck_moves : Moves side s (trackAck p s pkt).1 := by
  unfold trackAck
  split
  · exact moves_destroyCaches ordered
  · exact Moves.refl ordered

end

theorem tcpUpdateWing_states (p : TcpPacket) (s : TcpSession)
    (evt : TcpEvt) : SameStates s (tcpUpdateWing p s evt) := by
  have acked : SameStates s (if p.hasAck then s.setThat p { s.that p with tcpAcked := p.ack }
      else s) := by
    split
    · exact sameStates_setWing rfl
    · exact SameStates.refl s
  cases evt with
  | syn =>
    intro side
    cases side with
    | true | false => rfl
  | synack =>
    intro side
    cases side with
    | true =>
      change (if p.hasAck then s.client.acknowledgeStart p.ack
        else s.client).tcpState = _
      split
      · rfl
      · rfl
    | false => rfl
  | twh =>
    intro side
    cases side with
    | true | false => rfl
  | fin => exact sameStates_setWing rfl
  | rst => exact SameStates.refl s
  | split | normal => exact acked

end Tracker

end NeuVector.DataPath
