import NeuVector.DataPath.ConnectReport
import NeuVector.Library.Runs

/-!
# Traffic accounting

What a session has reported is what the connection records have got from it,
as long as each of its reports finds a record or may make one.  The end of the
session then brings the records up to the totals of the session.  A refused
report returns the same value as an accepted one, so that the session takes it
for recorded.
-/

namespace NeuVector.DataPath

open Library Runs

section Totals

variable {th : ThreadData} {env : ReportEnv} {log : DPMsgSession}
  {countSession countViolate : UInt32}

theorem fin_two (idx : Fin 2) : idx = 0 ∨ idx = 1 := by
  revert idx
  decide

theorem recordedIn_update {amount : DPMsgConnect → UInt32} {gain : UInt32}
    {conns : List DPMsgConnect} {idx : Fin 2}
    (grown : Ledger.total amount conns = Ledger.total amount (th.conn4Map idx) + gain) :
    recordedIn amount { th with conn4Map := Function.update th.conn4Map idx conns } =
      recordedIn amount th + gain := by
  unfold recordedIn
  rcases fin_two idx with same | same
  · subst same
    simp only [Function.update_self, Function.update_of_ne (show (1 : Fin 2) ≠ 0 by decide), grown]
    abel
  · subst same
    simp only [Function.update_self, Function.update_of_ne (show (0 : Fin 2) ≠ 1 by decide), grown]
    abel

/-- The report has become part of a record. -/
def ReportOutcome.recorded : ReportOutcome → Bool
  | .merged => true
  | .added => true
  | .refused => false
  | .ignored => false

theorem recordConnect_recordedIn {amount : DPMsgConnect → UInt32} {gain : UInt32}
    (merges : ∀ conn, amount (mergeConnect env log countSession
      countViolate conn) = amount conn + gain)
    (adds : amount (newConnect env log countSession countViolate) = gain) :
    recordedIn amount (recordConnect env th log countSession countViolate).1 =
      if (recordConnect env th log countSession countViolate).2.recorded
      then recordedIn amount th + gain else recordedIn amount th := by
  unfold recordConnect
  cases log.etherType with
  | ipv6 => rfl
  | ip =>
    simp only
    split
    next found => exact recordedIn_update (Ledger.total_modifyFirst amount merges found)
    · split
      · have grown : Ledger.total amount (newConnect env log countSession
            countViolate :: th.conn4Map th.conn4MapCur) =
            Ledger.total amount (th.conn4Map th.conn4MapCur) + gain := by
          rw [Ledger.total_cons, adds]
          exact add_comm _ _
        exact recordedIn_update grown
      · rfl

theorem mergeConnect_bytes (conn : DPMsgConnect) :
    (mergeConnect env log countSession countViolate conn).bytes =
      conn.bytes + (log.clientBytes + log.serverBytes) := by
  unfold mergeConnect
  simp only
  split <;> split <;> split <;> rfl

theorem mergeConnect_sessions (conn : DPMsgConnect) :
    (mergeConnect env log countSession countViolate conn).sessions =
      conn.sessions + countSession := by
  unfold mergeConnect
  simp only
  split <;> split <;> split <;> rfl

theorem recordedIn_updateConnects (amount : DPMsgConnect → UInt32) (th : ThreadData) :
    recordedIn amount (dpCtrlUpdateConnects th) = recordedIn amount th := by
  unfold dpCtrlUpdateConnects recordedIn
  simp only
  split
  · rfl
  · rcases fin_two th.conn4MapCur with same | same
    · rw [same]
      simp only [Function.update_self, Function.update_of_ne (show (1 : Fin 2) ≠ 0 by decide),
        Ledger.total_append, Ledger.total_nil]
      abel
    · rw [same]
      simp only [Function.update_self, Function.update_of_ne (show (0 : Fin 2) ≠ 1 by decide),
        Ledger.total_append, Ledger.total_nil]
      abel

theorem recordConnect_ip (ip : log.etherType = .ip) :
    (recordConnect env th log countSession countViolate).2 ≠ .ignored := by
  unfold recordConnect
  rw [ip]
  simp only
  split
  · exact fun same => by cases same
  · split
    · exact fun same => by cases same
    · exact fun same => by cases same

/-- The report finds a record, or may make one. -/
def reportAccepted (env : ReportEnv) (th : ThreadData) (log : DPMsgSession) : Bool :=
  (th.conn4Map th.conn4MapCur).any (conn4Match (conn4Key env log)) ||
    ((dpRateLimiterCheck th.conn4Rl env.now).2 && env.memory)

theorem recordConnect_recorded (ip : log.etherType = .ip) :
    (recordConnect env th log countSession countViolate).2.recorded =
      reportAccepted env th log := by
  unfold recordConnect reportAccepted
  rw [ip]
  simp only
  split
  next found =>
    rw [found, Bool.true_or]
    rfl
  next missing =>
    rw [Bool.eq_false_iff.mpr missing, Bool.false_or]
    split
    next passed =>
      rw [passed]
      rfl
    next stopped =>
      rw [Bool.eq_false_iff.mpr stopped]
      rfl

/-- The records have got the counts of the log and the session that it
counts. -/
structure Adds (before after : ThreadData) (log : DPMsgSession) (countSession : UInt32) :
    Prop where
  bytes : recordedIn DPMsgConnect.bytes after =
    recordedIn DPMsgConnect.bytes before + (log.clientBytes + log.serverBytes)
  sessions : recordedIn DPMsgConnect.sessions after =
    recordedIn DPMsgConnect.sessions before + countSession

theorem report_adds (ip : log.etherType = .ip) (accepted : reportAccepted env th log = true) :
    Adds th (dpCtrlConnectReport env th log countSession countViolate).1 log countSession := by
  have recorded := (@recordConnect_recorded th env log countSession countViolate ip).trans accepted
  exact ⟨(recordConnect_recordedIn mergeConnect_bytes rfl).trans (if_pos recorded),
    (recordConnect_recordedIn mergeConnect_sessions rfl).trans (if_pos recorded)⟩

theorem report_positive_iff :
    0 < (dpCtrlConnectReport env th log countSession countViolate).2 ↔ log.etherType = .ip := by
  change 0 < (recordConnect env th log countSession countViolate).2.value ↔ _
  cases ether : log.etherType with
  | ipv6 =>
    unfold recordConnect
    rw [ether]
    exact iff_of_false (Nat.lt_irrefl 0) nofun
  | ip =>
    have reported := @recordConnect_ip th env log countSession countViolate ether
    generalize (recordConnect env th log countSession countViolate).2 = outcome at reported ⊢
    cases outcome with
    | merged | added | refused => decide
    | ignored => exact absurd rfl reported

/-- A report that returns a positive value has been added exactly if it was
accepted, or if it had nothing to add. -/
theorem report_adds_iff :
    (0 < (dpCtrlConnectReport env th log countSession countViolate).2 →
        Adds th (dpCtrlConnectReport env th log countSession countViolate).1 log countSession) ↔
      (log.etherType = .ip → reportAccepted env th log = true ∨
        log.clientBytes + log.serverBytes = 0 ∧ countSession = 0) := by
  rw [report_positive_iff]
  refine forall_congr' fun ip => ?_
  cases accepted : reportAccepted env th log with
  | true => exact iff_of_true (report_adds ip accepted) (Or.inl rfl)
  | false =>
    have lost := (@recordConnect_recorded th env log countSession countViolate ip).trans accepted
    have bytes : recordedIn DPMsgConnect.bytes
        (dpCtrlConnectReport env th log countSession countViolate).1 =
          recordedIn DPMsgConnect.bytes th :=
      (recordConnect_recordedIn mergeConnect_bytes rfl).trans (if_neg (Bool.eq_false_iff.mp lost))
    have sessions : recordedIn DPMsgConnect.sessions
        (dpCtrlConnectReport env th log countSession countViolate).1 =
          recordedIn DPMsgConnect.sessions th :=
      (recordConnect_recordedIn mergeConnect_sessions rfl).trans
        (if_neg (Bool.eq_false_iff.mp lost))
    constructor
    · intro adds
      have noBytes := adds.bytes
      have noSession := adds.sessions
      rw [bytes] at noBytes
      rw [sessions] at noSession
      exact Or.inr ⟨left_eq_add.mp noBytes, left_eq_add.mp noSession⟩
    · rintro (impossible | ⟨noBytes, noSession⟩)
      · cases impossible
      · exact ⟨by rw [bytes, noBytes, add_zero], by rw [sessions, noSession, add_zero]⟩

end Totals

/-- The records have got what the session has reported.  Nothing has been
reported before the start of the session was logged. -/
structure Accounted (s : DpiSession) (bytes sessions : UInt32) : Prop where
  bytes : bytes = s.client.reportedBytes + s.server.reportedBytes
  sessions : sessions = if s.startLogged then 1 else 0
  unlogged : s.startLogged = false → s.client.reportedBytes = 0 ∧ s.server.reportedBytes = 0
  ipv4 : s.ipv4 = true
  realEp : s.fakeEp = false

def gained (amount : DPMsgConnect → UInt32) (before after : ThreadData) : UInt32 :=
  recordedIn amount after - recordedIn amount before

def AccountedAfter (th : ThreadData) (bytes sessions : UInt32) (logged : Logged) : Prop :=
  Accounted logged.s (bytes + gained DPMsgConnect.bytes th logged.th)
    (sessions + gained DPMsgConnect.sessions th logged.th)

/-- The packet makes the session report. -/
def reportDue (s : DpiSession) (p : SessionPacket) : Bool :=
  s.attrs.sureParser &&
    if s.startLogged then midDue s p else !startHeld s p && !startFailed p.env s

/-- The packet makes no report, or one that is accepted. -/
def PacketAccepted (th : ThreadData) (s : DpiSession) (p : SessionPacket) : Prop :=
  let counted := { countPacket s p with attrs := p.attrs }
  p.hasSession = true → reportDue counted p = true →
    reportAccepted p.env.report th (dpiSessionLog p.env counted) = true

variable {p : SessionPacket}

section Logs

variable {th : ThreadData} {s : DpiSession} {bytes sessions : UInt32}

theorem gained_self (amount : DPMsgConnect → UInt32) (th : ThreadData) :
    gained amount th th = 0 := sub_self _

theorem Accounted.silent {after : DpiSession} (accounted : Accounted after bytes sessions) :
    AccountedAfter th bytes sessions (.silent th after) := by
  unfold AccountedAfter
  rw [show (Logged.silent th after).th = th from rfl, gained_self, gained_self, add_zero, add_zero]
  exact accounted

variable {env : LogEnv}

theorem Logged.report_kept {dps : DPMsgSession}
    {countSession countViolate : UInt32} (ip : dps.etherType = .ip)
    (accepted : reportAccepted env.report th dps = true) :
    let reported := Logged.report env th s dps countSession countViolate
    gained DPMsgConnect.bytes th reported.1.th = dps.clientBytes + dps.serverBytes ∧
      gained DPMsgConnect.sessions th reported.1.th = countSession ∧ 0 < reported.2 := by
  have adds := @report_adds th env.report dps countSession countViolate ip accepted
  refine ⟨?_, ?_, report_positive_iff.mpr ip⟩
  · change recordedIn DPMsgConnect.bytes (dpCtrlConnectReport _ _ _ _ _).1 - _ = _
    rw [adds.bytes]
    exact add_sub_cancel_left _ _
  · change recordedIn DPMsgConnect.sessions (dpCtrlConnectReport _ _ _ _ _).1 - _ = _
    rw [adds.sessions]
    exact add_sub_cancel_left _ _

theorem dpiSessionLog_ip (accounted : Accounted s bytes sessions)
    (env : LogEnv) : (dpiSessionLog env s).etherType = .ip := by
  change (if s.ipv4 then EtherType.ip else .ipv6) = .ip
  rw [accounted.ipv4]
  rfl

theorem Accounted.notFake (accounted : Accounted s bytes sessions) : ¬ s.fakeEp = true :=
  Bool.eq_false_iff.mp accounted.realEp

theorem sinceReported_account (c r c' r' : UInt32) : r + r' + (c - r + (c' - r')) = c + c' := by
  abel

section

variable (accounted : Accounted s bytes sessions)
include accounted

theorem startLog_accounted (unlogged : s.startLogged = false) {env : LogEnv}
    (accepted : startFailed env s = false →
      reportAccepted env.report th (dpiSessionLog env s) = true) :
    let logged := dpiSessionStartLog env th s false
    AccountedAfter th bytes sessions (if logged.2 then
        { logged.1 with s := { logged.1.s with startLogged := true } } else logged.1) := by
  unfold dpiSessionStartLog
  cases failed : startFailed env s with
  | true => exact accounted.silent
  | false =>
    simp only [Bool.and_false, logOf, if_neg accounted.notFake, Bool.false_eq_true, if_false]
    have recorded := accepted failed
    generalize dps : dpiSessionLog env s = log at recorded ⊢
    have ip : log.etherType = .ip := dps ▸ dpiSessionLog_ip accounted env
    generalize violateCount s.attrs.policyDesc.violates = violations
    obtain ⟨bytesGain, sessionsGain, positive⟩ := @Logged.report_kept th
      { s with lastReport := env.tick } env log 1 violations ip recorded
    simp only [if_pos positive, if_true]
    obtain ⟨none, none'⟩ := accounted.unlogged unlogged
    have before := accounted.bytes
    have count := accounted.sessions
    rw [none, none'] at before
    rw [unlogged] at count
    unfold AccountedAfter
    simp only [bytesGain, sessionsGain]
    refine ⟨?_, ?_, ?_, accounted.ipv4, accounted.realEp⟩
    · rw [before, ← dps]
      abel
    · rw [count]
      rfl
    · intro logged
      cases logged

theorem midLog_accounted (logged : s.startLogged = true) {logViolate : Bool}
    (accepted : reportAccepted env.report th (dpiSessionLog env s) = true) :
    AccountedAfter th bytes sessions (dpiSessionMidLog env th s logViolate false) := by
  unfold dpiSessionMidLog
  simp only [logOf, if_neg accounted.notFake, Bool.false_eq_true, if_false]
  have recorded : reportAccepted env.report th (sinceReported s (dpiSessionLog env s)) = true :=
    accepted
  generalize dps : sinceReported s (dpiSessionLog env s) = log at recorded ⊢
  have ip : log.etherType = .ip := dps ▸ dpiSessionLog_ip accounted env
  obtain ⟨bytesGain, sessionsGain, positive⟩ := @Logged.report_kept th
    { s with lastReport := env.tick } env log 0 (violateCount logViolate) ip recorded
  simp only [if_pos positive]
  unfold AccountedAfter
  simp only [bytesGain, sessionsGain]
  refine ⟨?_, ?_, ?_, accounted.ipv4, accounted.realEp⟩
  · rw [accounted.bytes, ← dps]
    exact sinceReported_account s.client.bytes s.client.reportedBytes
      s.server.bytes s.server.reportedBytes
  · rw [add_zero]
    exact accounted.sessions
  · intro unlogged
    exact absurd (logged.symm.trans unlogged) (by decide)

theorem Accounted.counted (p : SessionPacket) :
    Accounted { countPacket s p with attrs := p.attrs } bytes sessions := by
  unfold countPacket
  split
  · exact ⟨accounted.bytes, accounted.sessions, accounted.unlogged,
      accounted.ipv4, accounted.realEp⟩
  · exact ⟨accounted.bytes, accounted.sessions, accounted.unlogged,
      accounted.ipv4, accounted.realEp⟩

theorem dpiPktLog_accounted (plain : p.logXff = false)
    (accepted : reportDue s p = true →
      reportAccepted p.env.report th (dpiSessionLog p.env s) = true) :
    AccountedAfter th bytes sessions (dpiPktLog th s p) := by
  unfold dpiPktLog
  unfold reportDue at accepted
  cases sure : s.attrs.sureParser with
  | false => exact accounted.silent
  | true =>
    cases logged : s.startLogged with
    | false =>
      simp only [sure, logged, plain, Bool.not_true, Bool.not_false, Bool.true_and,
        Bool.false_eq_true, if_false, if_true] at accepted ⊢
      cases held : startHeld s p with
      | true => exact accounted.silent
      | false =>
        simp only [held, Bool.not_false, Bool.true_and, Bool.not_eq_true'] at accepted
        have start := @startLog_accounted th s bytes sessions accounted logged p.env accepted
        generalize dpiSessionStartLog p.env th s false = result at start ⊢
        obtain ⟨result, ok⟩ := result
        cases ok with
        | false | true => exact start
    | true =>
      simp only [sure, logged, plain, Bool.not_true, Bool.true_and, Bool.false_eq_true, if_false,
        if_true] at accepted ⊢
      cases due : midDue s p with
      | true => exact midLog_accounted accounted logged (accepted due)
      | false => exact accounted.silent

theorem dpiInspectSession_accounted (plain : p.logXff = false)
    (accepted : PacketAccepted th s p) :
    AccountedAfter th bytes sessions (dpiInspectSession th s p) := by
  unfold dpiInspectSession
  cases present : p.hasSession with
  | true => exact dpiPktLog_accounted (accounted.counted p) plain (accepted present)
  | false => exact (accounted.counted p).silent

end

def endReported (s : DpiSession) : Bool := s.attrs.termReason ≠ .volume && (endReport s).isSome

/-- At the end the records have the totals of the session, unless its end is
not reported. -/
theorem release_accounted (accounted : Accounted s bytes sessions)
    (plain : s.attrs.xff = false) {xffEnv : LogEnv}
    (accepted : endReported s = true →
      reportAccepted env.report th (dpiSessionLog env s) = true) :
    bytes + gained DPMsgConnect.bytes th (dpiSessionRelease env xffEnv th s).th =
        (if endReported s then s.client.bytes + s.server.bytes
        else bytes) ∧
      sessions + gained DPMsgConnect.sessions th (dpiSessionRelease env xffEnv th s).th =
        (if endReported s then 1 else sessions) := by
  unfold dpiSessionRelease endReported at *
  by_cases volume : s.attrs.termReason = .volume
  · simp only [volume]
    change bytes + gained _ th th = bytes ∧ _ + gained _ th th = _
    rw [gained_self, gained_self, add_zero, add_zero]
    exact ⟨rfl, rfl⟩
  · simp only [if_neg volume, plain, Bool.false_eq_true, if_false,
      dpiSessionEndLog, if_neg accounted.notFake]
    cases ending : endReport s with
    | none =>
      change bytes + gained _ th th = _ ∧ _ + gained _ th th = _
      rw [gained_self, gained_self]
      simp
    | some violation =>
      have ip : (sinceReported s (dpiSessionLog env s)).etherType = .ip :=
        dpiSessionLog_ip accounted env
      have recorded : reportAccepted env.report th (sinceReported s (dpiSessionLog env s)) =
          true := by
        apply accepted
        rw [ending, decide_eq_true volume]
        rfl
      obtain ⟨bytesGain, sessionsGain, _⟩ := @Logged.report_kept th s env _
        (if s.startLogged then 0 else 1) (if violation then
          if s.startLogged then violateCount false else 1
        else 0) ip recorded
      simp only [bytesGain, sessionsGain, ne_eq, volume,
        not_false_eq_true, decide_true, Option.isSome_some, Bool.and_self, if_true]
      constructor
      · rw [accounted.bytes]
        exact sinceReported_account s.client.bytes s.client.reportedBytes
          s.server.bytes s.server.reportedBytes
      · rw [accounted.sessions]
        cases s.startLogged with
        | true | false => rfl

end Logs

/-- The tables, the session, and what the records have got from it. -/
structure Accounting where
  th : ThreadData
  s : DpiSession
  recordedBytes : UInt32
  recordedSessions : UInt32

variable (acc : Accounting)

def Accounting.log (logged : Logged) : Accounting :=
  { th := logged.th
    s := logged.s
    recordedBytes := acc.recordedBytes + gained DPMsgConnect.bytes acc.th logged.th
    recordedSessions := acc.recordedSessions + gained DPMsgConnect.sessions acc.th logged.th }

/-- Besides the packets of the session there are the reports of others and the
collection of the records. -/
inductive AccountEvent where
  | packet (p : SessionPacket)
  | otherReport (env : ReportEnv) (log : DPMsgSession) (countSession countViolate : UInt32)
  | updateConnects

def accountStep : AccountEvent → Accounting
  | .packet p => acc.log (dpiInspectSession acc.th acc.s p)
  | .otherReport env log countSession countViolate =>
    { acc with th := (dpCtrlConnectReport env acc.th log countSession countViolate).1 }
  | .updateConnects => { acc with th := dpCtrlUpdateConnects acc.th }

def accountRun (events : List AccountEvent) : Accounting := events.foldl accountStep acc

def accountRelease (env xffEnv : LogEnv) : Accounting :=
  acc.log (dpiSessionRelease env xffEnv acc.th acc.s)

def openAccount (th : ThreadData) (s : DpiSession) : Accounting :=
  { th := th, s := s, recordedBytes := 0, recordedSessions := 0 }

def noTraffic : WingTraffic := { pkts := 0, bytes := 0, reportedPkts := 0, reportedBytes := 0 }

/-- A new session of an IPv4 endpoint that does not forward for others. -/
structure PlainSession (s : DpiSession) : Prop where
  client : s.client = noTraffic
  server : s.server = noTraffic
  startLogged : s.startLogged = false
  ipv4 : s.ipv4 = true
  realEp : s.fakeEp = false
  plain : s.attrs.xff = false

/-- The packet does not make the session one that forwards for others, and
what it reports is accepted. -/
def ReportsAccepted (acc : Accounting) : AccountEvent → Prop
  | .packet p => p.logXff = false ∧ p.attrs.xff = false ∧ PacketAccepted acc.th acc.s p
  | .otherReport _ _ _ _ => True
  | .updateConnects => True

/-- The records have got the bytes of the session and have counted it once it
has been released. -/
def Conserved (env xffEnv : LogEnv) : Prop :=
  (accountRelease acc env xffEnv).recordedBytes = acc.s.client.bytes + acc.s.server.bytes ∧
    (accountRelease acc env xffEnv).recordedSessions = 1

instance (env xffEnv : LogEnv) : Decidable (Conserved acc env xffEnv) :=
  inferInstanceAs (Decidable (_ ∧ _))

structure Kept (acc : Accounting) : Prop where
  plain : acc.s.attrs.xff = false
  accounted : Accounted acc.s acc.recordedBytes acc.recordedSessions

theorem dpiPktLog_attrs (th : ThreadData) (s : DpiSession)
    (plain : p.logXff = false) : (dpiPktLog th s p).s.attrs = s.attrs := by
  unfold dpiPktLog
  split
  · rfl
  · split
    · split
      · rfl
      · have same : (dpiSessionStartLog p.env th s false).1.s.attrs = s.attrs := by
          unfold dpiSessionStartLog logOf
          simp only [Bool.false_eq_true, if_false]
          split
          · rfl
          · split
            · rfl
            · split
              · rfl
              · rfl
        generalize dpiSessionStartLog p.env th s false = result at same ⊢
        obtain ⟨logged, ok⟩ := result
        cases ok with
        | false => exact same
        | true =>
          simp only [plain, Bool.false_eq_true, if_false]
          exact same
    · split
      · simp only [plain, Bool.false_eq_true, if_false]
        unfold dpiSessionMidLog logOf
        simp only [Bool.false_eq_true, if_false]
        split
        · rfl
        · split
          · rfl
          · rfl
      · rfl

theorem accountStep_kept {acc : Accounting} {event : AccountEvent} (kept : Kept acc)
    (accepted : ReportsAccepted acc event) : Kept (accountStep acc event) := by
  cases event with
  | packet p =>
    obtain ⟨noXff, noFlag, recorded⟩ := accepted
    refine ⟨?_, dpiInspectSession_accounted kept.accounted noXff recorded⟩
    change (dpiInspectSession acc.th acc.s p).s.attrs.xff = false
    unfold dpiInspectSession
    split
    · rw [dpiPktLog_attrs _ _ noXff]
      exact noFlag
    · exact noFlag
  | otherReport env log countSession countViolate => exact ⟨kept.plain, kept.accounted⟩
  | updateConnects => exact ⟨kept.plain, kept.accounted⟩

theorem openAccount_kept {s : DpiSession} (new : PlainSession s)
    (th : ThreadData) : Kept (openAccount th s) where
  plain := new.plain
  accounted := by
    refine ⟨?_, ?_, ?_, new.ipv4, new.realEp⟩
    · change 0 = s.client.reportedBytes + s.server.reportedBytes
      rw [new.client, new.server]
      rfl
    · change 0 = if s.startLogged then 1 else 0
      rw [new.startLogged]
      rfl
    · intro _
      change s.client.reportedBytes = 0 ∧ s.server.reportedBytes = 0
      rw [new.client, new.server]
      exact ⟨rfl, rfl⟩

/-- A report that returns a positive value has added its counts to a record
exactly if it was accepted or had nothing to add, and the collection of the
records keeps their totals.  Once a session has been released whose reports
were all accepted, the records have got its totals, or what was reported
before an end that is not reported. -/
theorem traffic_accounted {th : ThreadData} {s : DpiSession}
    (new : PlainSession s) {events : List AccountEvent}
    (accepted : All accountStep ReportsAccepted (openAccount th s) events) (env xffEnv : LogEnv)
    (ends : endReported (accountRun (openAccount th s) events).s = true →
      reportAccepted env.report (accountRun (openAccount th s) events).th
        (dpiSessionLog env (accountRun (openAccount th s) events).s) = true) :
    (∀ report tables log countSession countViolate,
      (0 < (dpCtrlConnectReport report tables log countSession countViolate).2 →
          Adds tables (dpCtrlConnectReport report tables log countSession countViolate).1 log
            countSession) ↔
        (log.etherType = .ip → reportAccepted report tables log = true ∨
          log.clientBytes + log.serverBytes = 0 ∧ countSession = 0)) ∧
      (∀ amount tables, recordedIn amount (dpCtrlUpdateConnects tables) =
        recordedIn amount tables) ∧
      let acc := accountRun (openAccount th s) events
      (endReported acc.s = true → Conserved acc env xffEnv) ∧
        (endReported acc.s = false →
          (accountRelease acc env xffEnv).recordedBytes =
              acc.s.client.reportedBytes + acc.s.server.reportedBytes ∧
            (accountRelease acc env xffEnv).recordedSessions =
              if acc.s.startLogged then 1 else 0) := by
  refine ⟨fun _ _ _ _ _ => report_adds_iff, recordedIn_updateConnects, ?_⟩
  intro acc
  have kept : Kept acc := foldl_holds accountStep_kept (openAccount_kept new th) accepted
  obtain ⟨bytesEnd, sessionsEnd⟩ := release_accounted kept.accounted kept.plain ends
  constructor
  · intro reported
    rw [reported] at bytesEnd sessionsEnd
    exact ⟨bytesEnd, sessionsEnd⟩
  · intro unreported
    rw [unreported] at bytesEnd sessionsEnd
    exact ⟨bytesEnd.trans kept.accounted.bytes, sessionsEnd.trans kept.accounted.sessions⟩

def udpAttrs : SessionAttrs :=
  { clientIp := 1
    serverIp := 2
    clientPort := 40000
    serverPort := 7000
    midStream := false
    established := false
    sureParser := true
    dnsParser := false
    xff := false
    app := 0
    baseApp := 0
    severity := 0
    threatId := 0
    termReason := .normal
    policyDesc := { id := 5, action := .actionAllow, flags := 0, hdlVer := 0, order := 0 }
    xffDesc := { id := 0, action := .actionOpen, flags := 0, hdlVer := 0, order := 0 }
    xffClientIp := 0
    xffApp := 0
    xffPort := 0 }

def udpSession : DpiSession :=
  { clientMac := 0
    serverMac := 0
    ipv4 := true
    fakeEp := false
    ingress := false
    ipProto := ipProtoUdp
    client := noTraffic
    server := noTraffic
    lastReport := 0
    startLogged := false
    attrs := udpAttrs }

def envAt (tick : UInt32) : LogEnv :=
  { tick := tick, idle := 0, report := { now := tick, application := 0, memory := true } }

def udpPacket (fromClient : Bool) (capLen : UInt16) (attrs : SessionAttrs) : AccountEvent :=
  .packet
    { fromClient := fromClient
      capLen := capLen
      attrs := attrs
      hasSession := true
      proxymesh := false
      logMid := false
      logViolate := false
      logXff := false
      logXffVio := false
      env := envAt 1
      xffEnv := envAt 1 }

/-- The records are collected between the two packets of the session. -/
theorem traffic_accounted_pair :
    Conserved (accountRun (openAccount (threadAfter 0) udpSession)
      [udpPacket true 100 udpAttrs, .updateConnects, udpPacket false 50 udpAttrs])
      (envAt 9) (envAt 9) := by
  have result := @traffic_accounted (threadAfter 0) udpSession ⟨rfl, rfl, rfl, rfl, rfl, rfl⟩
    [udpPacket true 100 udpAttrs, .updateConnects, udpPacket false 50 udpAttrs]
    ⟨⟨rfl, rfl, fun _ _ => by decide +kernel⟩, trivial,
      ⟨rfl, rfl, fun _ due => absurd due (by decide +kernel)⟩, trivial⟩
    (envAt 9) (envAt 9) (fun _ => by decide +kernel)
  exact result.2.2.1 (by decide +kernel)

/-- The limiter refuses the first report of a session of 150 bytes.  The
report returns a positive value, the session takes it for recorded, and 100
bytes and the session itself never reach a record.  Nor do all bytes of an
IPv6 session, of one whose endpoint is not real, of one that is not answered
and of one that ends for its volume, whose end is not reported. -/
theorem traffic_lost_when_refused :
    (0 < (dpCtrlConnectReport (envAt 1).report (threadAfter 400)
        (dpiSessionLog (envAt 1) udpSession) 1 0).2 ∧
      recordedIn DPMsgConnect.sessions (dpCtrlConnectReport (envAt 1).report (threadAfter 400)
        (dpiSessionLog (envAt 1) udpSession) 1 0).1 = 0) ∧
    ¬ Conserved (accountRun (openAccount (threadAfter 400) udpSession)
      [udpPacket true 100 udpAttrs, udpPacket false 50 udpAttrs]) (envAt 9) (envAt 9) ∧
    ∀ s events, (s, events) ∈
        [({ udpSession with ipv4 := false },
            [udpPacket true 100 udpAttrs, udpPacket false 50 udpAttrs]),
          ({ udpSession with fakeEp := true },
            [udpPacket true 100 udpAttrs, udpPacket false 50 udpAttrs]),
          (udpSession, [udpPacket true 100 udpAttrs, udpPacket true 50 udpAttrs]),
          (udpSession, [udpPacket true 100 udpAttrs,
            udpPacket false 50 { udpAttrs with termReason := .volume }])] →
      ¬ Conserved (accountRun (openAccount (threadAfter 0) s) events) (envAt 9) (envAt 9) := by
  refine ⟨by decide +kernel, by decide +kernel, ?_⟩
  simp only [List.mem_cons, Prod.mk.injEq, List.not_mem_nil, or_false]
  rintro s events (⟨rfl, rfl⟩ | ⟨rfl, rfl⟩ | ⟨rfl, rfl⟩ | ⟨rfl, rfl⟩)
  · decide +kernel
  · decide +kernel
  · decide +kernel
  · decide +kernel

end NeuVector.DataPath
