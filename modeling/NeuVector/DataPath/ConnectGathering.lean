import NeuVector.DataPath.TrafficAccounting

/-!
# Which reports share a record

Between two collections the reports of connections are gathered in records.
Each record has the sums of the reports that were merged into it.  A report
looks for its record with a key whose application is never set, so that the
record it finds need not be the one of its application.
-/

namespace NeuVector.DataPath

open Library List

structure ConnReport where
  env : ReportEnv
  log : DPMsgSession
  countSession : UInt32
  countViolate : UInt32

variable (report : ConnReport)

def ConnReport.key : Conn4Key := conn4Key report.env report.log

/-- Everything that tells connections apart. -/
def ConnReport.fullKey : Conn4Key := { report.key with application := report.log.application }

def ConnReport.merge : DPMsgConnect → DPMsgConnect :=
  mergeConnect report.env report.log report.countSession report.countViolate

def ConnReport.new : DPMsgConnect :=
  newConnect report.env report.log report.countSession report.countViolate

def ConnReport.bytes : UInt32 := report.log.clientBytes + report.log.serverBytes

def DPMsgConnect.key (conn : DPMsgConnect) : Conn4Key :=
  { polId := conn.policyId
    client := conn.clientIP
    server := conn.serverIP
    port := conn.serverPort
    application := conn.application
    ipproto := conn.ipProto
    ingress := conn.ingress }

def reportStep (th : ThreadData) (report : ConnReport) : ThreadData × ReportOutcome :=
  recordConnect report.env th report.log report.countSession report.countViolate

def reportRun (th : ThreadData) : List ConnReport → ThreadData
  | [] => th
  | report :: rest => reportRun (reportStep th report).1 rest

/-- No report is rate limited, refused or ignored. -/
def AllRecorded (th : ThreadData) : List ConnReport → Prop
  | [] => True
  | report :: rest =>
    (reportStep th report).2.recorded = true ∧ AllRecorded (reportStep th report).1 rest

/-- A record together with the reports that were summed into it. -/
structure GatheredConnect where
  conn : DPMsgConnect
  reports : List ConnReport

def gather (gathered : List GatheredConnect) (report : ConnReport) : List GatheredConnect :=
  let matching := fun entry : GatheredConnect => conn4Match report.key entry.conn
  if gathered.any matching then
    Ledger.modifyFirst matching (fun entry =>
        { conn := report.merge entry.conn, reports := entry.reports ++ [report] }) gathered
  else { conn := report.new, reports := [report] } :: gathered

/-- Reports of one record have its key as their full key, and no two records
have the same key. -/
structure ByFullKey (gathered : List GatheredConnect) : Prop where
  together : ∀ entry ∈ gathered, ∀ report ∈ entry.reports, report.fullKey = entry.conn.key
  apart : (gathered.map fun entry => entry.conn.key).Nodup

theorem byFullKey_iff {gathered : List GatheredConnect} :
    ByFullKey gathered ↔
      (∀ entry ∈ gathered, ∀ report ∈ entry.reports, report.fullKey = entry.conn.key) ∧
      (gathered.map fun entry => entry.conn.key).Nodup :=
  ⟨fun byFullKey => ⟨byFullKey.together, byFullKey.apart⟩, fun both => ⟨both.1, both.2⟩⟩

structure GatheredConnect.Sums (entry : GatheredConnect) : Prop where
  bytes : entry.conn.bytes = Ledger.total ConnReport.bytes entry.reports
  sessions : entry.conn.sessions = Ledger.total ConnReport.countSession entry.reports
  violates : entry.conn.violates = Ledger.total ConnReport.countViolate entry.reports

/-- The application found on the stack is the one of the report, or neither
has a record with the other fields of the report. -/
def ApplicationFits (th : ThreadData) (report : ConnReport) : Prop :=
  report.env.application = report.log.application ∨
    ∀ conn ∈ th.conn4Map th.conn4MapCur, conn.key ≠ report.key ∧ conn.key ≠ report.fullKey

def ApplicationsFit (th : ThreadData) : List ConnReport → Prop
  | [] => True
  | report :: rest => ApplicationFits th report ∧ ApplicationsFit (reportStep th report).1 rest

section Keys

variable {conn : DPMsgConnect} {report : ConnReport}

theorem conn4Match_iff {key : Conn4Key} : conn4Match key conn = true ↔ conn.key = key := by
  cases key
  simp only [conn4Match, DPMsgConnect.key, Bool.and_eq_true, decide_eq_true_eq, Conn4Key.mk.injEq]
  tauto

theorem key_eq_fullKey : report.key = report.fullKey ↔
    report.env.application = report.log.application := by
  constructor
  · exact congrArg Conn4Key.application
  · intro same
    unfold ConnReport.fullKey
    rw [← same]
    rfl

theorem new_key : report.new.key = report.fullKey := rfl

theorem merge_key (found : conn.key = report.key) : (report.merge conn).key = conn.key := by
  have policy : report.log.policyId = conn.policyId := (congrArg Conn4Key.polId found).symm
  unfold ConnReport.merge mergeConnect DPMsgConnect.key
  simp only
  split <;> split <;> split <;> simp only [policy]

theorem merge_violates : (report.merge conn).violates = conn.violates + report.countViolate := by
  unfold ConnReport.merge mergeConnect
  simp only
  split <;> split <;> split <;> rfl

end Keys

section Step

variable {gathered before after : List GatheredConnect}
  {entry : GatheredConnect} {report : ConnReport} {th : ThreadData}

theorem Sums.new (report : ConnReport) :
    GatheredConnect.Sums { conn := report.new, reports := [report] } :=
  ⟨(add_zero _).symm, (add_zero _).symm, (add_zero _).symm⟩

theorem Sums.merge (sums : entry.Sums) (report : ConnReport) :
    GatheredConnect.Sums
      { conn := report.merge entry.conn
        reports := entry.reports ++ [report] } := by
  have total : ∀ amount : ConnReport → UInt32, Ledger.total amount (entry.reports ++ [report]) =
        Ledger.total amount entry.reports + amount report := by
    intro amount
    rw [Ledger.total_append, Ledger.total_cons, Ledger.total_nil, add_zero]
  constructor
  · rw [total, ← sums.bytes]
    exact mergeConnect_bytes entry.conn
  · rw [total, ← sums.sessions]
    exact mergeConnect_sessions entry.conn
  · rw [total, ← sums.violates]
    exact merge_violates

theorem gather_cases (gathered : List GatheredConnect) (report : ConnReport) :
    (∃ before entry after, gathered = before ++ entry :: after ∧ entry.conn.key = report.key ∧
      gather gathered report =
        before ++ { conn := report.merge entry.conn
                    reports := entry.reports ++ [report] } :: after) ∨
      (∀ entry ∈ gathered, entry.conn.key ≠ report.key) ∧ gather gathered report =
          { conn := report.new, reports := [report] } :: gathered := by
  unfold gather
  simp only
  split
  next found =>
    obtain ⟨before, entry, after, parts, picked, modified⟩ := Ledger.modifyFirst_split _ found
    exact .inl ⟨before, entry, after, parts, conn4Match_iff.mp picked, modified⟩
  next missing =>
    refine .inr ⟨?_, rfl⟩
    intro entry member same
    exact missing (any_eq_true.mpr ⟨entry, member, conn4Match_iff.mpr same⟩)

theorem gather_sums (sums : ∀ entry ∈ gathered, entry.Sums) :
    ∀ entry ∈ gather gathered report, entry.Sums := by
  rcases gather_cases gathered report with
    ⟨before, merged, after, rfl, _, result⟩ | ⟨_, result⟩
  · rw [forall_mem_append, forall_mem_cons] at sums
    rw [result, forall_mem_append, forall_mem_cons]
    exact ⟨sums.1, Sums.merge sums.2.1 report, sums.2.2⟩
  · rw [result, forall_mem_cons]
    exact ⟨Sums.new report, sums⟩

theorem gather_byFullKey_iff
    (conns : th.conn4Map th.conn4MapCur = gathered.map GatheredConnect.conn) :
    ByFullKey (gather gathered report) ↔ ByFullKey gathered ∧ ApplicationFits th report := by
  rw [byFullKey_iff, byFullKey_iff, ApplicationFits, conns, forall_mem_map, ← key_eq_fullKey]
  rcases gather_cases gathered report with
    ⟨before, merged, after, rfl, found, result⟩ | ⟨missing, result⟩
  · rw [result]
    simp only [forall_mem_append, forall_mem_cons, map_append,
      map_cons, merge_key found]
    have fits : report.fullKey = merged.conn.key ↔ report.key = report.fullKey := by
      rw [found]
      exact eq_comm
    tauto
  · rw [result]
    simp only [forall_mem_cons, map_cons, nodup_cons, new_key,
      mem_map, not_exists, not_and]
    have different : (∀ entry ∈ gathered, ¬entry.conn.key = report.fullKey) ↔
        (report.key = report.fullKey ∨ ∀ entry ∈ gathered,
          entry.conn.key ≠ report.key ∧ entry.conn.key ≠ report.fullKey) := by
      constructor
      · intro none
        exact .inr fun entry member => ⟨missing entry member, none entry member⟩
      · rintro (same | none) entry member
        · rw [← same]
          exact missing entry member
        · exact (none entry member).2
    tauto

theorem gather_perm :
    ((gather gathered report).flatMap GatheredConnect.reports).Perm
      (report :: gathered.flatMap GatheredConnect.reports) := by
  rcases gather_cases gathered report with
    ⟨before, merged, after, rfl, _, result⟩ | ⟨_, result⟩
  · rw [result]
    simp only [flatMap_append, flatMap_cons, append_assoc,
      cons_append, nil_append]
    rw [← append_assoc, ← append_assoc]
    exact perm_middle
  · rw [result]
    exact List.Perm.refl _

theorem gather_conns :
    (gather gathered report).map GatheredConnect.conn =
      if (gathered.map GatheredConnect.conn).any (conn4Match report.key)
      then Ledger.modifyFirst (conn4Match report.key) report.merge
        (gathered.map GatheredConnect.conn)
      else report.new :: gathered.map GatheredConnect.conn := by
  unfold gather
  simp only [any_map, Function.comp_def]
  split
  · exact Ledger.map_modifyFirst _ fun _ => rfl
  · rfl

theorem reportStep_gathers (recorded : (reportStep th report).2.recorded = true)
    (conns : th.conn4Map th.conn4MapCur = gathered.map GatheredConnect.conn) :
    (reportStep th report).1.conn4Map (reportStep th report).1.conn4MapCur =
        (gather gathered report).map GatheredConnect.conn ∧
      (reportStep th report).1.sent = th.sent := by
  rw [gather_conns, ← conns]
  unfold reportStep recordConnect at recorded ⊢
  cases kind : report.log.etherType with
  | ipv6 =>
    rw [kind] at recorded
    cases recorded
  | ip =>
    rw [kind] at recorded
    simp only at recorded ⊢
    split
    next found =>
      refine ⟨(Function.update_self _ _ _).trans ?_, rfl⟩
      exact (if_pos found).symm
    next missing =>
      rw [if_neg missing] at recorded
      split
      · refine ⟨(Function.update_self _ _ _).trans ?_, rfl⟩
        exact (if_neg missing).symm
      next stopped =>
        rw [if_neg stopped] at recorded
        cases recorded

end Step

theorem reportRun_gathers {th : ThreadData}
    {gathered : List GatheredConnect} {reports : List ConnReport}
    (sums : ∀ entry ∈ gathered, entry.Sums)
    (conns : th.conn4Map th.conn4MapCur = gathered.map GatheredConnect.conn)
    (recorded : AllRecorded th reports) :
    (reportRun th reports).conn4Map (reportRun th reports).conn4MapCur =
        (reports.foldl gather gathered).map GatheredConnect.conn ∧
      (reportRun th reports).sent = th.sent ∧
      (∀ entry ∈ reports.foldl gather gathered, entry.Sums) ∧
      (ByFullKey (reports.foldl gather gathered) ↔
        ByFullKey gathered ∧ ApplicationsFit th reports) := by
  induction reports generalizing th gathered with
  | nil => exact ⟨conns, rfl, sums, (and_iff_left trivial).symm⟩
  | cons report rest induction =>
    obtain ⟨stepConns, stepSent⟩ := reportStep_gathers recorded.1 conns
    obtain ⟨later, sent, laterSums, byFullKey⟩ := induction (gather_sums sums) stepConns recorded.2
    refine ⟨later, sent.trans stepSent, laterSums, byFullKey.trans ?_⟩
    rw [gather_byFullKey_iff conns, and_assoc]
    rfl

theorem gathered_perm (reports : List ConnReport) (gathered : List GatheredConnect) :
    ((reports.foldl gather gathered).flatMap GatheredConnect.reports).Perm
      (reports ++ gathered.flatMap GatheredConnect.reports) := by
  induction reports generalizing gathered with
  | nil => exact List.Perm.refl _
  | cons report rest induction =>
    apply (induction (gather gathered report)).trans
    exact (gather_perm.append_left rest).trans perm_middle

def webReport (stack : UInt16) : ConnReport :=
  { env := { now := 10, application := stack, memory := true }
    log := { epMac := 1, etherType := .ip, clientIP := 1, serverIP := 2
             clientPort := 40000, serverPort := 80, ipProto := ipProtoTcp
             ingress := true, external := false, xff := false
             svcExtip := false, clientPkts := 1, serverPkts := 1
             clientBytes := 100, serverBytes := 200, idle := 0
             application := 1001, threatID := 0, policyId := 0
             policyAction := .actionOpen, severity := 0 }
    countSession := 1
    countViolate := 0 }

def freshThread : ThreadData :=
  { threadAfter 0 with conn4Rl := dpRateLimiterReset 10 connectRlDur connectRlCnt }

end NeuVector.DataPath
