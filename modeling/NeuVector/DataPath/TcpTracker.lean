import NeuVector.DataPath.Reassembly

/-!
# Tracking TCP sessions

This module embeds the TCP tracker of `dpi_session.c` for sessions that were
opened by a handshake packet, together with the part of `dpi_inspect_ethernet`
that hands payload to the parsers and caches what they have not consumed.
What the parsers, the policy and the detection decide comes with each packet.
-/

namespace NeuVector.DataPath

open Library

inductive TcpState where
  | established
  | synSent
  | synRecv
  | finWait1
  | finWait2
  | timeWait
  | close
  | closeWait
  | lastAck
  | listen
  | closing
  deriving DecidableEq

/-- `DPI_ACTION_*` in numeric order. -/
inductive DpiAction where
  | none
  | allow
  | drop
  | reset
  | bypass
  | block
  deriving DecidableEq

def DpiAction.aboveAllow : DpiAction → Bool
  | .none => false
  | .allow => false
  | _ => true

structure TcpWing where
  nextSeq : UInt32
  initSeq : UInt32
  asmSeq : UInt32
  tcpAcked : UInt32
  tcpWin : UInt32
  tcpMss : UInt16
  tcpState : TcpState
  tcpWscale : UInt8
  sack : Bool
  fin : Bool
  asmCache : Asm
  deriving DecidableEq

structure TcpSession where
  client : TcpWing
  server : TcpWing
  established : Bool
  skipParser : Bool
  action : DpiAction
  deriving DecidableEq

structure TcpPacket where
  fromClient : Bool
  seq : UInt32
  ack : UInt32
  win : UInt16
  syn : Bool
  hasAck : Bool
  fin : Bool
  rst : Bool
  data : List UInt8
  short : data.length < 65536
  tcpWscale : UInt8
  tcpMss : UInt16
  sackOk : Bool
  tap : Bool

variable (p : TcpPacket)

def TcpPacket.clip : Clip := { seq := p.seq, data := p.data, short := p.short }

def TcpPacket.len : UInt32 := p.clip.len

def TcpPacket.stop : UInt32 := p.seq + p.len

/-- What is decided outside the tracker: whether the meters and the memory
let a session be created, the action of the split handshake threat, whether
there is memory for a clip, the old bytes of the assembly buffer, where the
parsers that stay have set their position (`none` if they have not), whether
no parser is left, and the action of the parsers, policy and detection. -/
structure TcpEnv where
  admitted : Bool
  splitAction : Option DpiAction
  memory : Bool
  scratch : Nat → UInt8
  positions : List (Option UInt32)
  parsersGone : Bool
  verdict : DpiAction

variable (env : TcpEnv) (s : TcpSession)

def TcpSession.wing (client : Bool) : TcpWing :=
  if client then s.client else s.server

def TcpSession.setWing (client : Bool) (w : TcpWing) : TcpSession :=
  if client then { s with client := w } else { s with server := w }

def TcpSession.this (p : TcpPacket) : TcpWing := s.wing p.fromClient

def TcpSession.that (p : TcpPacket) : TcpWing := s.wing (!p.fromClient)

def TcpSession.setThis (p : TcpPacket) (w : TcpWing) : TcpSession := s.setWing p.fromClient w

def TcpSession.setThat (p : TcpPacket) (w : TcpWing) : TcpSession := s.setWing (!p.fromClient) w

def newTcpWing (state : TcpState) : TcpWing :=
  { nextSeq := 0
    initSeq := 0
    asmSeq := 0
    tcpAcked := 0
    tcpWin := 0
    tcpMss := 0
    tcpState := state
    tcpWscale := 0
    sack := false
    fin := false
    asmCache := asmInit }

def newTcpSession (client server : TcpState) : TcpSession :=
  { client := newTcpWing client
    server := newTcpWing server
    established := false
    skipParser := false
    action := .none }

def tcpOpenBySyn : TcpSession := newTcpSession .synSent .listen

def tcpOpenBySynack : TcpSession := newTcpSession .synSent .synRecv

inductive TcpEvt where
  | normal
  | syn
  | synack
  | twh
  | split
  | fin
  | rst
  deriving DecidableEq

variable (w : TcpWing)

def TcpWing.toState (state : TcpState) : TcpWing := { w with tcpState := state }

def TcpSession.toStates (client server : TcpState) : TcpSession :=
  { s with client := s.client.toState client, server := s.server.toState server }

/-- Set the state of the sender and that of the receiver. -/
def TcpSession.passStates (p : TcpPacket) (this that : TcpState) : TcpSession :=
  if p.fromClient then s.toStates this that else s.toStates that this

def tcpUpdateState : TcpEvt × TcpSession :=
  if p.rst then (.rst, s.toStates .close .close)
  else
    match (s.that p).tcpState with
    | .listen =>
      if p.syn then (.syn, { s with server := s.server.toState .synRecv })
      else (.normal, s)
    | .synSent =>
      if p.syn then
        if p.hasAck then (.synack, { s with client := s.client.toState .established })
        else (.synack, { s with client := s.client.toState .synRecv })
      else (.normal, s)
    | .synRecv =>
      if !p.syn && p.hasAck && p.fromClient then (.twh, s.toStates .established .established)
      else if p.syn && p.hasAck then (.split, s.toStates .established .established)
      else (.normal, s)
    | .established =>
      if p.fin then (.fin, s.passStates p .finWait1 .closeWait)
      else if p.syn && !p.hasAck && s.server.tcpState = .synRecv then
        (.split, { s with server := s.server.toState .established })
      else (.normal, s)
    | .finWait1 =>
      if p.fin then (.fin, s.passStates p .lastAck .finWait2)
      else if !p.syn && p.hasAck then (.normal, s.passStates p .closeWait .finWait2)
      else (.normal, s)
    | .finWait2 =>
      if p.fin then (.fin, s.passStates p .lastAck .timeWait)
      else (.normal, s)
    | .lastAck =>
      if !p.syn && p.hasAck then (.normal, s.setThat p ((s.that p).toState .close))
      else (.normal, s)
    | _ => (.normal, s)

def tcpMaxWinshift : UInt8 := 14

def TcpWing.setOptions (p : TcpPacket) : TcpWing :=
  let wscale :=
    if tcpMaxWinshift < p.tcpWscale then tcpMaxWinshift else p.tcpWscale
  { w with
    tcpWscale := wscale
    tcpWin := w.tcpWin <<< wscale.toUInt32
    tcpMss := p.tcpMss
    sack := w.sack || p.sackOk }

def TcpWing.startAt (seq : UInt32) : TcpWing :=
  { w with initSeq := seq, nextSeq := seq, asmSeq := seq }

/-- A `SYN/ACK` sets three numbers of the client, but not its `asm_seq`. -/
def TcpWing.acknowledgeStart (ack : UInt32) : TcpWing :=
  { w with initSeq := ack, nextSeq := ack, tcpAcked := ack }

def tcpUpdateWing : TcpEvt → TcpSession
  | .syn => { s with client := (s.client.startAt (p.seq + 1)).setOptions p }
  | .synack =>
    { s with
      server := (s.server.startAt (p.seq + 1)).setOptions p
      client :=
        if p.hasAck then s.client.acknowledgeStart p.ack else s.client }
  | .twh =>
    { s with server := { s.server with tcpAcked := p.ack }, established := true }
  | .fin => s.setThis p { s.this p with fin := true }
  | .rst => s
  | .split | .normal =>
    if p.hasAck then s.setThat p { s.that p with tcpAcked := p.ack }
    else s

/-- The action and the flags of the packet, and what was assembled. -/
structure PktState where
  action : DpiAction
  cached : Bool
  skipParser : Bool
  assembled : Option AsmTarget

def newPkt : PktState :=
  { action := .none, cached := false, skipParser := false, assembled := none }

variable (pkt : PktState)

def dpiSetAction (act : DpiAction) : PktState :=
  if pkt.action.aboveAllow && !act.aboveAllow then pkt
  else { pkt with action := act }

def dpiIsActionFinal (act : DpiAction) : Bool := act = .bypass || !p.tap && act.aboveAllow

/-- The number lies between the other two in serial order. -/
def u32Between (u u1 u2 : UInt32) : Bool := u2 - u1 > u - u1

def tcpIsInWindow : Bool :=
  (s.this p).tcpAcked = 0 ||
    u32Between p.seq ((s.this p).tcpAcked - 65536) ((s.this p).tcpAcked + (s.that p).tcpWin + 1)

/-- Without a result the packet is not cached. -/
def dpiCachePacket (lookup : Bool) : Option TcpWing :=
  if lookup && (asmLookup w.asmCache p.seq).isSome then none
  else if !env.memory then none
  else (asmInsert w.asmCache p.clip).map fun asm => { w with asmCache := asm }

def TcpSession.destroyCaches : TcpSession :=
  { s with
    client := { s.client with asmCache := asmInit }
    server := { s.server with asmCache := asmInit } }

def tcpAssembly : TcpSession × PktState :=
  let w0 := s.this p
  if p.len = 0 || u32Lte p.stop w0.asmSeq then (s, pkt)
  else if asmCount w0.asmCache = 0 && !u32Lt w0.asmSeq p.seq then (s, pkt)
  else
    match dpiCachePacket p env w0 false with
    | none => (s, pkt)
    | some w0 =>
      let s := s.setThis p w0
      let pkt := { pkt with cached := true }
      let cons : AsmTarget :=
        { seq := w0.asmSeq, len := UInt32.ofNat dpiMaxPktLen - 1, buffer := env.scratch }
      match asmConstruct w0.asmCache cons p.seq with
      | (.ok, cons) => (s, { pkt with assembled := some cons })
      | (result, _) =>
        if result = .more || UInt32.ofNat dpiMaxPktLen < w0.asmCache.gross then
          (s.destroyCaches, dpiSetAction pkt .bypass)
        else (s, pkt)

/-- The range that the packet brings: what was assembled, or its own. -/
def PktState.range (p : TcpPacket) : UInt32 × UInt32 :=
  match pkt.assembled with
  | some cons => (cons.seq, cons.seq + cons.len)
  | none => (p.seq, p.stop)

/-- Early packets, and those that bring nothing new, are kept from the
parsers. -/
def updateNextSeq : TcpSession × PktState :=
  let w := s.this p
  let (seq, stop) := pkt.range p
  if u32Lt w.nextSeq seq then (s, { pkt with skipParser := true })
  else if u32Lt w.nextSeq stop then (s.setThis p { w with nextSeq := stop }, pkt)
  else (s, { pkt with skipParser := true })

/-- Sequence the payload; without parsers only the end is noted. -/
def trackPayload : TcpSession × PktState :=
  if p.len = 0 then (s, pkt)
  else if s.skipParser then (s.setThis p { s.this p with nextSeq := p.stop }, pkt)
  else
    let (s, pkt) := tcpAssembly p env s pkt
    updateNextSeq p s pkt

def trackFin : TcpSession :=
  let w := s.this p
  if p.fin && w.nextSeq = (pkt.range p).1 then s.setThis p { w with nextSeq := w.nextSeq + 1 }
  else s

/-- An acknowledgement of bytes that were not seen ends the inspection. -/
def trackAck : TcpSession × PktState :=
  if p.hasAck && u32Gt p.ack (s.that p).nextSeq then (s.destroyCaches, dpiSetAction pkt .bypass)
  else (s, pkt)

/-- The tracker leaves the packet without a session, ends the session, or
goes on with it. -/
inductive TrackResult where
  | detached (s : TcpSession)
  | released
  | attached (s : TcpSession) (pkt : PktState)

def splitThreat (evt : TcpEvt) (pkt : PktState) : PktState :=
  match evt, env.splitAction with
  | .split, some act => dpiSetAction pkt act
  | _, _ => pkt

def noteWindow : TcpSession :=
  let w := s.this p
  s.setThis p { w with tcpWin := p.win.toUInt32 <<< w.tcpWscale.toUInt32 }

/-- The tracker behind the check for retransmissions. -/
def trackFresh : TrackResult :=
  let s := noteWindow p s
  if !tcpIsInWindow p s then .attached s { newPkt with skipParser := true }
  else
    let (evt, s) := tcpUpdateState p s
    let s := tcpUpdateWing p s evt
    let pkt := splitThreat env evt newPkt
    if dpiIsActionFinal p pkt.action || dpiIsActionFinal p s.action then .attached s pkt
    else
      let (s, pkt) := trackPayload p env s pkt
      let s := trackFin p s pkt
      let (s, pkt) := trackAck p s pkt
      .attached s pkt

/-- A cached packet of the same length is a retransmission; one of another
length is replaced. -/
def trackSession : TrackResult :=
  let w := s.this p
  if p.len = 0 then trackFresh p env s
  else
    match asmLookup w.asmCache p.seq with
    | none => trackFresh p env s
    | some clip =>
      if clip.len = p.len then
        .attached s
          { action := .allow, cached := true, skipParser := true, assembled := none }
      else trackFresh p env (s.setThis p { w with asmCache := asmRemove w.asmCache clip })

/-- A packet of a session.  A client may open a closed session again. -/
def dpiTcpTracker : TrackResult :=
  if p.syn && p.len ≠ 0 then .detached s
  else if p.fromClient && p.syn && !p.hasAck then
    if s.client.tcpState = .close && s.server.tcpState = .close then
      if env.admitted then trackSession p env tcpOpenBySyn else .released
    else if p.seq ≠ s.client.initSeq - 1 then .detached s
    else trackSession p env s
  else if !p.fromClient && p.syn && p.hasAck then
    if s.server.tcpState ≠ .synRecv && p.seq ≠ s.server.initSeq - 1 ||
        p.ack ≠ s.client.initSeq then .detached s
    else trackSession p env s
  else trackSession p env s

/-- The packet that opens a session: a `SYN` is taken to come from the client,
a `SYN/ACK` from the server. -/
def dpiTcpOpen : TrackResult :=
  if p.syn && p.len ≠ 0 then .released
  else if !p.syn || !env.admitted then .released
  else if p.hasAck then trackSession { p with fromClient := false } env tcpOpenBySynack
  else trackSession { p with fromClient := true } env tcpOpenBySyn

/-- The bytes that the parsers are given, and where they start. -/
structure Delivery where
  seq : UInt32
  bytes : List UInt8
  deriving DecidableEq

def delivery : Delivery :=
  match pkt.assembled with
  | some cons =>
    { seq := cons.seq, bytes := (List.range cons.len.toNat).map cons.buffer }
  | none => { seq := p.seq, bytes := p.data }

/-- The earliest position of the parsers that stay. -/
def earliestPosition (positions : List (Option UInt32)) : UInt32 :=
  positions.foldl (fun asmSeq position =>
      let parserAsmSeq := position.getD w.asmSeq
      if u32Lt parserAsmSeq asmSeq then parserAsmSeq else asmSeq)
    w.nextSeq

def dpiProtoParser : TcpSession :=
  let w := s.this p
  let s := s.setThis p { w with asmSeq := earliestPosition w env.positions }
  { s with skipParser := s.skipParser || env.parsersGone }

/-- The parsers see payload that is not to be kept from them. -/
def dpiPktProtoParser : TcpSession × Option Delivery :=
  if !s.skipParser && !pkt.skipParser && p.len ≠ 0 then
    (dpiProtoParser p env s, some (delivery p pkt))
  else (s, none)

def dpiPostCachePacket : TcpSession × PktState :=
  let w := s.this p
  let w := if s.skipParser then { w with asmSeq := w.nextSeq } else w
  let w := { w with
    asmCache := asmFlush w.asmSeq w.asmCache.tree.toList w.asmCache }
  let s := s.setThis p w
  if !pkt.cached && p.len ≠ 0 && u32Gt p.stop w.asmSeq then
    let w := (dpiCachePacket p env w true).getD w
    let s := s.setThis p w
    if UInt32.ofNat dpiMaxPktLen < w.asmCache.gross then (s.destroyCaches, dpiSetAction pkt .bypass)
    else (s, pkt)
  else (s, pkt)

def sessionAction : TcpSession :=
  if p.tap then
    if pkt.action = .bypass then { s with action := .bypass } else s
  else
    match pkt.action with
    | .none => s
    | .allow => s
    | .drop => { s with action := .block }
    | .reset => { s with action := .block }
    | .bypass => { s with action := .bypass }
    | .block => { s with action := .block }

structure Inspection where
  session : Option TcpSession
  delivered : Option Delivery

def inspectTracked : TrackResult → Inspection
  | .detached s => { session := some s, delivered := none }
  | .released => { session := none, delivered := none }
  | .attached s pkt =>
    let pkt := dpiSetAction pkt s.action
    let (s, delivered) :=
      if pkt.action ≠ .bypass && (p.tap || !pkt.action.aboveAllow) then
        dpiPktProtoParser p env s pkt
      else (s, none)
    let pkt :=
      if env.verdict = .none then pkt else dpiSetAction pkt env.verdict
    let (s, pkt) :=
      if dpiIsActionFinal p pkt.action then (s, pkt)
      else dpiPostCachePacket p env s pkt
    { session := some (sessionAction p s pkt), delivered := delivered }

def dpiInspectOpen : Inspection :=
  inspectTracked { p with fromClient := !p.hasAck } env (dpiTcpOpen p env)

def dpiInspectTcp : Inspection := inspectTracked p env (dpiTcpTracker p env s)

def tcpRun : Option TcpSession → List (TcpPacket × TcpEnv) → Option TcpSession
  | none, _ => none
  | some s, [] => some s
  | some s, (p, env) :: rest => tcpRun (dpiInspectTcp p env s).session rest

end NeuVector.DataPath
