import Mathlib.Data.UInt
import NeuVector.Library.Ledger
import NeuVector.DataPath.PolicyConfig

/-!
# Connection reports

This module embeds the connection records of `ctrl.c` and the logs of a
session in `dpi_session.c`.  A session reports what it has carried since its
last report; the report is merged into a connection record, or makes a new one
if the rate limiter lets it.  The control thread collects the records from
time to time.
-/

namespace NeuVector.DataPath

open Library

inductive EtherType where
  | ip
  | ipv6
  deriving DecidableEq

structure DPMsgSession where
  epMac : EtherAddr
  etherType : EtherType
  clientIP : UInt32
  serverIP : UInt32
  clientPort : UInt16
  serverPort : UInt16
  ipProto : UInt8
  ingress : Bool
  external : Bool
  xff : Bool
  svcExtip : Bool
  clientPkts : UInt32
  serverPkts : UInt32
  clientBytes : UInt32
  serverBytes : UInt32
  idle : UInt16
  application : UInt16
  threatID : UInt32
  policyId : UInt32
  policyAction : PolicyAction
  severity : UInt8
  deriving DecidableEq

def sizeofDPMsgSession : Nat := 140

structure DPMsgConnect where
  epMac : EtherAddr
  ipProto : UInt8
  ingress : Bool
  external : Bool
  xff : Bool
  svcExtip : Bool
  serverPort : UInt16
  clientPort : UInt16
  clientIP : UInt32
  serverIP : UInt32
  etherType : EtherType
  bytes : UInt32
  sessions : UInt32
  firstSeenAt : UInt32
  lastSeenAt : UInt32
  application : UInt16
  policyAction : PolicyAction
  severity : UInt8
  policyId : UInt32
  violates : UInt32
  threatID : UInt32
  deriving DecidableEq

structure Conn4Key where
  polId : UInt32
  client : UInt32
  server : UInt32
  port : UInt16
  application : UInt16
  ipproto : UInt8
  ingress : Bool
  deriving DecidableEq

/-- What a report finds outside the tables: the clock, the two bytes of the
key on the stack that are compared but never set, and whether there is memory
for a record. -/
structure ReportEnv where
  now : UInt32
  application : UInt16
  memory : Bool
  deriving DecidableEq

def conn4Key (env : ReportEnv) (log : DPMsgSession) : Conn4Key :=
  { polId := log.policyId
    client := log.clientIP
    server := log.serverIP
    port := log.serverPort
    application := env.application
    ipproto := log.ipProto
    ingress := log.ingress }

def conn4Match (key : Conn4Key) (conn : DPMsgConnect) : Bool :=
  conn.policyId = key.polId && conn.clientIP = key.client &&
    conn.serverIP = key.server && conn.ingress = key.ingress &&
    conn.application = key.application && conn.serverPort = key.port &&
    conn.ipProto = key.ipproto

structure RateLimiter where
  dur : UInt16
  durCntLimit : UInt16
  start : UInt32
  cnt : UInt32
  totalDrop : UInt32
  totalPass : UInt32
  deriving DecidableEq

def connectRlDur : UInt16 := 2
def connectRlCnt : UInt16 := 400

def dpRateLimiterReset (cur : UInt32) (dur durCntLimit : UInt16) : RateLimiter :=
  { dur := dur, durCntLimit := durCntLimit, start := cur, cnt := 0, totalDrop := 0, totalPass := 0 }

def dpRateLimiterCheck (rl : RateLimiter) (cur : UInt32) : RateLimiter × Bool :=
  let rl :=
    if rl.dur.toUInt32 < cur - rl.start then { rl with start := cur, cnt := 0 }
    else rl
  let rl := { rl with cnt := rl.cnt + 1 }
  if rl.durCntLimit.toUInt32 < rl.cnt then ({ rl with totalDrop := rl.totalDrop + 1 }, false)
  else ({ rl with totalPass := rl.totalPass + 1 }, true)

/-- The two maps take turns.  `sent` has the records that were collected. -/
structure ThreadData where
  conn4Map : Fin 2 → List DPMsgConnect
  conn4MapCnt : Fin 2 → UInt32
  conn4MapCur : Fin 2
  conn4Rl : RateLimiter
  sent : List DPMsgConnect

def tunnelThreshold : UInt32 := 800
def dpiAppDns : UInt16 := 1004
def ipProtoUdp : UInt8 := 17
def ipProtoTcp : UInt8 := 6
def ipProtoIcmp : UInt8 := 1
def ipProtoIcmpv6 : UInt8 := 58

/-- A large DNS request leaves its port for the tunnel detection. -/
def tunnelSuspect (log : DPMsgSession) : Bool :=
  (log.serverPort = 53 || log.application = dpiAppDns) &&
    log.ipProto = ipProtoUdp && tunnelThreshold < log.clientBytes

def mergeConnect (env : ReportEnv) (log : DPMsgSession)
    (countSession countViolate : UInt32) (conn : DPMsgConnect) :
    DPMsgConnect :=
  let lastSeen := env.now - log.idle.toUInt32
  let conn := { conn with
    bytes := conn.bytes + (log.clientBytes + log.serverBytes)
    sessions := conn.sessions + countSession
    violates := conn.violates + countViolate }
  let conn :=
    if conn.lastSeenAt ≤ lastSeen then
      { conn with
        policyAction := log.policyAction
        policyId := log.policyId
        lastSeenAt := lastSeen }
    else conn
  let conn :=
    if conn.severity < log.severity then
      { conn with threatID := log.threatID, severity := log.severity }
    else conn
  if tunnelSuspect log && !log.ingress then { conn with clientPort := log.clientPort }
  else conn

def newConnect (env : ReportEnv) (log : DPMsgSession)
    (countSession countViolate : UInt32) : DPMsgConnect :=
  { epMac := log.epMac
    ipProto := log.ipProto
    ingress := log.ingress
    external := log.external
    xff := log.xff
    svcExtip := log.svcExtip
    serverPort := log.serverPort
    clientPort := if tunnelSuspect log then log.clientPort else 0
    clientIP := log.clientIP
    serverIP := log.serverIP
    etherType := log.etherType
    bytes := log.clientBytes + log.serverBytes
    sessions := countSession
    firstSeenAt := env.now - log.idle.toUInt32
    lastSeenAt := env.now - log.idle.toUInt32
    application := log.application
    policyAction := log.policyAction
    severity := log.severity
    policyId := log.policyId
    violates := countViolate
    threatID := log.threatID }

inductive ReportOutcome where
  | merged
  | added
  | refused
  | ignored
  deriving DecidableEq

/-- Only IPv4 sessions have records.  A report that neither finds a record nor
makes one is refused. -/
def recordConnect (env : ReportEnv) (th : ThreadData) (log : DPMsgSession)
    (countSession countViolate : UInt32) : ThreadData × ReportOutcome :=
  match log.etherType with
  | .ipv6 => (th, .ignored)
  | .ip =>
    let key := conn4Key env log
    let idx := th.conn4MapCur
    let conns := th.conn4Map idx
    if conns.any (conn4Match key) then
      ({ th with
          conn4Map := Function.update th.conn4Map idx
            (Ledger.modifyFirst (conn4Match key)
              (mergeConnect env log countSession countViolate) conns) },
        .merged)
    else
      let (rl, passed) := dpRateLimiterCheck th.conn4Rl env.now
      if passed && env.memory then
        ({ th with
            conn4Rl := rl
            conn4Map := Function.update th.conn4Map idx
              (newConnect env log countSession countViolate :: conns)
            conn4MapCnt := Function.update th.conn4MapCnt idx (th.conn4MapCnt idx + 1) },
          .added)
      else ({ th with conn4Rl := rl }, .refused)

/-- The value that the report returns: the size of the log, also for a report
that was refused. -/
def ReportOutcome.value : ReportOutcome → Nat
  | .ignored => 0
  | .merged => sizeofDPMsgSession
  | .added => sizeofDPMsgSession
  | .refused => sizeofDPMsgSession

def dpCtrlConnectReport (env : ReportEnv) (th : ThreadData)
    (log : DPMsgSession) (countSession countViolate : UInt32) :
    ThreadData × Nat :=
  let (th, outcome) := recordConnect env th log countSession countViolate
  (th, outcome.value)

variable (env : LogEnv) (th : ThreadData)

/-- The control thread switches the maps and collects the records. -/
def dpCtrlUpdateConnects : ThreadData :=
  let idx := th.conn4MapCur
  if th.conn4MapCnt idx = 0 then th
  else
    { th with
      conn4MapCur := 1 - idx
      conn4Map := Function.update th.conn4Map idx []
      conn4MapCnt := Function.update th.conn4MapCnt idx 0
      sent := th.sent ++ th.conn4Map idx }

/-- The total over both maps and the records that were collected. -/
def recordedIn (amount : DPMsgConnect → UInt32) (th : ThreadData) : UInt32 :=
  Ledger.total amount (th.conn4Map 0) +
    Ledger.total amount (th.conn4Map 1) + Ledger.total amount th.sent

/-- Empty maps, and a limiter that has let so many reports pass. -/
def threadAfter (passed : UInt32) : ThreadData :=
  { conn4Map := fun _ => []
    conn4MapCnt := fun _ => 0
    conn4MapCur := 0
    conn4Rl := { dpRateLimiterReset 0 connectRlDur connectRlCnt with cnt := passed }
    sent := [] }

inductive TermReason where
  | normal
  | volume
  | threat
  | policy
  | dlp
  deriving DecidableEq

/-- What a wing has carried, and what of it has been reported. -/
structure WingTraffic where
  pkts : UInt32
  bytes : UInt32
  reportedPkts : UInt32
  reportedBytes : UInt32
  deriving DecidableEq

/-- What the trackers, the parsers and the policy set while the session
lives. -/
structure SessionAttrs where
  clientIp : UInt32
  serverIp : UInt32
  clientPort : UInt16
  serverPort : UInt16
  midStream : Bool
  established : Bool
  sureParser : Bool
  dnsParser : Bool
  xff : Bool
  app : UInt16
  baseApp : UInt16
  severity : UInt8
  threatId : UInt32
  termReason : TermReason
  policyDesc : PolicyDesc
  xffDesc : PolicyDesc
  xffClientIp : UInt32
  xffApp : UInt16
  xffPort : UInt16
  deriving DecidableEq

structure DpiSession where
  clientMac : EtherAddr
  serverMac : EtherAddr
  ipv4 : Bool
  fakeEp : Bool
  ingress : Bool
  ipProto : UInt8
  client : WingTraffic
  server : WingTraffic
  lastReport : UInt32
  startLogged : Bool
  attrs : SessionAttrs
  deriving DecidableEq

def policyDescExternal : UInt8 := 0x04
def policyDescSvcExtip : UInt8 := 0x20

def PolicyDesc.test (desc : PolicyDesc) (flag : UInt8) : Bool := desc.flags &&& flag ≠ 0

/-- The action is above `DP_POLICY_ACTION_CHECK_APP`. -/
def PolicyDesc.violates (desc : PolicyDesc) : Bool :=
  match desc.action with
  | .actionViolate => true
  | .actionDeny => true
  | _ => false

variable (s : DpiSession)

def sessionApp : UInt16 :=
  if 0 < s.attrs.app then s.attrs.app else s.attrs.baseApp

structure LogEnv where
  tick : UInt32
  idle : UInt16
  report : ReportEnv
  deriving DecidableEq

def hasPorts (ipProto : UInt8) : Bool := ipProto = ipProtoTcp || ipProto = ipProtoUdp

def dpiSessionLog : DPMsgSession :=
  { epMac := if s.ingress then s.serverMac else s.clientMac
    etherType := if s.ipv4 then .ip else .ipv6
    clientIP := s.attrs.clientIp
    serverIP := s.attrs.serverIp
    clientPort := if hasPorts s.ipProto then s.attrs.clientPort else 0
    serverPort := if hasPorts s.ipProto then s.attrs.serverPort else 0
    ipProto := s.ipProto
    ingress := s.ingress
    external := s.ipv4 && s.attrs.policyDesc.test policyDescExternal
    xff := false
    svcExtip := s.ipv4 && s.attrs.policyDesc.test policyDescSvcExtip
    clientPkts := s.client.pkts
    serverPkts := s.server.pkts
    clientBytes := s.client.bytes
    serverBytes := s.server.bytes
    idle := env.idle
    application := sessionApp s
    threatID := s.attrs.threatId
    policyId := s.attrs.policyDesc.id
    policyAction := s.attrs.policyDesc.action
    severity := s.attrs.severity }

variable (dps : DPMsgSession)

/-- The log of the connection from the forwarded client. -/
def dpiSessionLogXff : Option DPMsgSession :=
  if s.ipv4 then
    some { dps with
      ingress := true
      epMac := s.serverMac
      clientIP := s.attrs.xffClientIp
      external := dps.external || s.attrs.xffDesc.test policyDescExternal
      xff := true
      application := s.attrs.xffApp
      serverPort := s.attrs.xffPort
      policyAction := s.attrs.xffDesc.action
      policyId := s.attrs.xffDesc.id }
  else none

/-- The log counts only what has not been reported. -/
def sinceReported : DPMsgSession :=
  { dps with
    clientPkts := dps.clientPkts - s.client.reportedPkts
    clientBytes := dps.clientBytes - s.client.reportedBytes
    serverPkts := dps.serverPkts - s.server.reportedPkts
    serverBytes := dps.serverBytes - s.server.reportedBytes }

def WingTraffic.setReported (w : WingTraffic) : WingTraffic :=
  { w with reportedBytes := w.bytes, reportedPkts := w.pkts }

def DpiSession.setReported : DpiSession :=
  { s with client := s.client.setReported, server := s.server.setReported }

/-- The tables and the session after a log. -/
structure Logged where
  th : ThreadData
  s : DpiSession

def Logged.silent : Logged := { th := th, s := s }

def Logged.report (countSession countViolate : UInt32) : Logged × Nat :=
  let (th, value) := dpCtrlConnectReport env.report th dps countSession countViolate
  ({ th := th, s := s }, value)

def violateCount (violates : Bool) : UInt32 := if violates then 1 else 0

variable (xff : Bool)

/-- The log to report, of the session or of the forwarded client. -/
def logOf : Option DPMsgSession :=
  if xff then dpiSessionLogXff s (dpiSessionLog env s)
  else some (dpiSessionLog env s)

/-- The start log failed a moment ago. -/
def startFailed : Bool := 0 < s.lastReport && env.tick - s.lastReport < 2

def dpiSessionStartLog : Logged × Bool :=
  if !xff && startFailed env s then (.silent th s, false)
  else
    match logOf env s xff with
    | none => (.silent th s, false)
    | some dps =>
      if s.fakeEp then (.silent th s, true)
      else
        let desc := if xff then s.attrs.xffDesc else s.attrs.policyDesc
        let (logged, value) := Logged.report env th { s with lastReport := env.tick } dps 1
          (violateCount desc.violates)
        if 0 < value then ({ logged with s := logged.s.setReported }, true)
        else (logged, false)

/-- No traffic log, only a report. -/
def dpiSessionMidLog (logViolate : Bool) (xff : Bool) : Logged :=
  match logOf env s xff with
  | none => .silent th s
  | some dps =>
    if s.fakeEp then .silent th { s with lastReport := env.tick }
    else
      let (logged, value) := Logged.report env th
        { s with lastReport := env.tick } (sinceReported s dps) 0
        (violateCount logViolate)
      if 0 < value then { logged with s := logged.s.setReported }
      else logged

/-- Whether the end of the session is reported, and whether the report counts
a violation when the start was not logged.  Sessions that were never
established are left out, unless they violate the policy, were terminated or
were found to be a threat. -/
def endReport : Option Bool :=
  if s.attrs.policyDesc.violates || s.attrs.termReason ≠ .normal then some true
  else if (if s.attrs.midStream then 1 else 0) < s.server.pkts then
    if s.ipProto ≠ ipProtoTcp || s.attrs.established || 0 < s.attrs.severity then some false
    else none
  else if 0 < s.attrs.severity then some false
  else none

def dpiSessionEndLog (logViolate : Bool) (xff : Bool) : Logged :=
  let dps := sinceReported s (dpiSessionLog env s)
  let count := if s.startLogged then 0 else 1
  if xff then
    match dpiSessionLogXff s dps with
    | none => .silent th s
    | some dps =>
      if !s.fakeEp && s.attrs.xffDesc.violates then
        (Logged.report env th s dps count (if s.startLogged then violateCount logViolate else 1)).1
      else .silent th s
  else if s.fakeEp then .silent th s
  else
    match endReport s with
    | none => .silent th s
    | some violation =>
      (Logged.report env th s dps count (if violation then
          if s.startLogged then violateCount logViolate else 1
        else 0)).1

/-- A packet of the session: the wing it travels on, its length, what its
processing has made of the session, and the flags of the packet. -/
structure SessionPacket where
  fromClient : Bool
  capLen : UInt16
  attrs : SessionAttrs
  hasSession : Bool
  proxymesh : Bool
  logMid : Bool
  logViolate : Bool
  logXff : Bool
  logXffVio : Bool
  env : LogEnv
  xffEnv : LogEnv
  deriving DecidableEq

def WingTraffic.count (w : WingTraffic) (capLen : UInt16) : WingTraffic :=
  { w with pkts := w.pkts + 1, bytes := w.bytes + capLen.toUInt32 }

variable (p : SessionPacket)

def countPacket : DpiSession :=
  if p.fromClient then { s with client := s.client.count p.capLen }
  else { s with server := s.server.count p.capLen }

def dpiConnectReportInterval : UInt32 := 60
def dpiConnectReportIntervalShort : UInt32 := 15

def Logged.andThen (first : Logged) (next : ThreadData → DpiSession → Logged) : Logged :=
  next first.th first.s

/-- Pings without an answer, and proxied sessions without one, are not logged
at their start. -/
def startHeld : Bool :=
  (s.ipProto = ipProtoIcmp || s.ipProto = ipProtoIcmpv6) && s.server.pkts = 0 ||
    p.proxymesh && !s.ingress && s.server.pkts = 0

def midDue : Bool :=
  p.logMid || p.logViolate || p.logXff || p.logXffVio ||
    dpiConnectReportInterval ≤ p.env.tick - s.lastReport ||
    s.ipProto = ipProtoUdp && s.attrs.dnsParser &&
      dpiConnectReportIntervalShort ≤ p.env.tick - s.lastReport

def dpiPktLog : Logged :=
  if !s.attrs.sureParser then .silent th s
  else if !s.startLogged then
    if startHeld s p then .silent th s
    else
      match dpiSessionStartLog p.env th s false with
      | (logged, false) => logged
      | (logged, true) =>
        let logged := { logged with
          s := { logged.s with startLogged := true } }
        if p.logXff then
          logged.andThen fun th s => (dpiSessionStartLog p.xffEnv th s true).1
        else logged
  else if midDue s p then
    if p.logXff then
      let first :=
        if p.logMid then dpiSessionMidLog p.env th s p.logViolate false
        else .silent th s
      first.andThen fun th s => dpiSessionMidLog p.xffEnv th s p.logXffVio true
    else dpiSessionMidLog p.env th s p.logViolate false
  else .silent th s

/-- The part of `dpi_inspect_ethernet` that counts and logs. -/
def dpiInspectSession : Logged :=
  let s := { countPacket s p with attrs := p.attrs }
  if p.hasSession then dpiPktLog th s p else .silent th s

def dpiSessionRelease (xffEnv : LogEnv) (th : ThreadData) (s : DpiSession) : Logged :=
  if s.attrs.termReason = .volume then .silent th s
  else
    let first := dpiSessionEndLog env th s false false
    if s.attrs.xff then first.andThen fun th s => dpiSessionEndLog xffEnv th s false true
    else first

end NeuVector.DataPath
