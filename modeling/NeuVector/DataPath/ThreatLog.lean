import Mathlib.Algebra.GroupWithZero.Nat
import NeuVector.DataPath.Fqdn

/-!
# Threat logs

The triggers of a threat at an endpoint are gathered in an entry of the log
cache.  What an entry has gathered is logged when the next log of the threat
is due, or when the entry is released.  Match and hash choose between two
shapes of the key by the identifier in network byte order, so that almost all
threats are looked up by the hash of the DLP name, which is zero for them.
The logs add up to the triggers as long as no trigger that is looked up by
name has the name, flags and endpoint of an entry of another identifier.
-/

namespace NeuVector.DataPath.Threat

open List

/-- The part of a log that the cache looks at, in host byte order. -/
structure ThreatLog where
  threatID : UInt32
  dlpNameHash : UInt32
  flags : UInt8
  epMac : List UInt8
  count : UInt32
  deriving DecidableEq

structure LogCache where
  /-- The hash under which the entry was added to the map. -/
  hash : UInt32
  log : ThreatLog
  count : UInt32
  lastLog : UInt32
  /-- The identifiers of all triggers the entry has taken. -/
  taken : List UInt32

structure LogState where
  caches : List LogCache
  emitted : List ThreatLog

def LogState.start : LogState := { caches := [], emitted := [] }

def htonl (host : UInt32) : UInt32 :=
  let mask : UInt32 := 0xff00
  (host <<< 24) ||| ((host &&& mask) <<< 8) ||| ((host >>> 8) &&& mask) ||| (host >>> 24)

def dpiSigMinUserSigID : UInt32 := 20000

/-- A trigger with the log it looks for and the frequency of its logs. -/
structure Trigger where
  key : ThreatLog
  freq : UInt32
  tick : UInt32

section Model

variable (k : ThreatLog) (c : LogCache) (trigger : Trigger)

def logDlpMatch : Bool :=
  c.log.dlpNameHash == k.dlpNameHash && c.log.flags == k.flags && c.log.epMac == k.epMac

def logMatch : Bool :=
  if htonl k.threatID > dpiSigMinUserSigID then logDlpMatch k c
  else c.log.threatID == k.threatID && c.log.flags == k.flags && c.log.epMac == k.epMac

def logHash : UInt32 :=
  if htonl k.threatID > dpiSigMinUserSigID then sdbmHash k.epMac + k.dlpNameHash
  else sdbmHash k.epMac + htonl k.threatID

/-- What a lookup in the map compares. -/
def isFound : Bool := c.hash == logHash k && logMatch k c

def addCache : LogCache :=
  { hash := logHash trigger.key, log := { trigger.key with count := 1 }
    count := 0, lastLog := trigger.tick, taken := [trigger.key.threatID] }

/-- The entry and the count to be logged. -/
def updateCache : LogCache × UInt32 :=
  if trigger.tick - c.lastLog < trigger.freq then ({ c with count := c.count + 1 }, 0)
  else ({ c with count := 0, lastLog := trigger.tick }, c.count + 1)

def takeTrigger : LogCache × List ThreatLog :=
  let (cache, count) := updateCache c trigger
  let cache := { cache with taken := trigger.key.threatID :: cache.taken }
  if count = 0 then (cache, [])
  else
    let log := { trigger.key with count := count }
    ({ cache with log := log }, [log])

/-- The part shared by the three functions that trigger a log.  The entry that
the lookup finds takes the trigger; without one an entry is added. -/
def triggerLog : List LogCache → List LogCache × List ThreatLog
  | [] => ([addCache trigger], [{ trigger.key with count := 1 }])
  | c :: rest =>
    if isFound trigger.key c then ((takeTrigger c trigger).1 :: rest, (takeTrigger c trigger).2)
    else (c :: (triggerLog rest).1, (triggerLog rest).2)

/-- The expiration of an entry, named by its place in the cache. -/
def logRelease : Nat → List LogCache → List LogCache × List ThreatLog
  | _, [] => ([], [])
  | 0, c :: rest => (rest, if c.count > 0 then [{ c.log with count := c.count }] else [])
  | place + 1, c :: rest => (c :: (logRelease place rest).1, (logRelease place rest).2)

end Model

structure ThreatProperty where
  id : UInt32
  freq : UInt32
  enable : Bool

/-- The tables `threat_property` and `threat_config`, by index. -/
def threatTable : List ThreatProperty :=
  [⟨0, 0, false⟩, ⟨1001, 10, false⟩, ⟨1002, 10, true⟩, ⟨1003, 10, false⟩,
    ⟨2001, 10, true⟩, ⟨2002, 10, true⟩, ⟨2003, 10, false⟩, ⟨2004, 10, true⟩,
    ⟨2005, 10, false⟩, ⟨2016, 10, false⟩, ⟨2025, 10, true⟩,
    ⟨2006, 0xffffffff, true⟩, ⟨2007, 10, true⟩, ⟨2008, 10, true⟩,
    ⟨2009, 10, true⟩, ⟨2010, 10, true⟩, ⟨2011, 10, true⟩, ⟨2012, 10, false⟩,
    ⟨2013, 10, true⟩, ⟨2014, 10, true⟩, ⟨2015, 10, false⟩, ⟨2017, 10, true⟩,
    ⟨2018, 10, true⟩, ⟨2019, 10, true⟩, ⟨2020, 0xffffffff, true⟩,
    ⟨2021, 10, false⟩, ⟨2022, 10, true⟩, ⟨2023, 10, true⟩, ⟨2026, 10, true⟩]

section Triggers

variable (idx : Nat) (epMac : List UInt8) (flags : UInt8) (tick : UInt32)

/-- A log by a session looks at neither status nor endpoint. -/
def dpiThreatLogBySession : Option Trigger := do
  let property ← threatTable[idx]?
  return {
    key := { threatID := property.id, dlpNameHash := 0, flags := flags, epMac := epMac, count := 0 }
    freq := property.freq, tick := tick }

def dpiThreatTriggerDir (epMac : Option (List UInt8)) : Option Trigger := do
  let property ← threatTable[idx]?
  guard property.enable
  dpiThreatLogBySession idx (← epMac) flags tick

def dpiDlpTriggerSigDir (sigID : UInt32) (name : List UInt8)
    (epMac : Option (List UInt8)) : Option Trigger := do
  return {
    key := { threatID := sigID, dlpNameHash := sdbmHash name, flags := flags
             epMac := ← epMac, count := 0 }
    freq := 10, tick := tick }

end Triggers

inductive LogEvent where
  | threat (idx : Nat) (flags : UInt8) (tick : UInt32) (epMac : Option (List UInt8))
  | session (idx : Nat) (epMac : List UInt8) (flags : UInt8) (tick : UInt32)
  | dlp (flags : UInt8) (tick sigID : UInt32) (name : List UInt8) (epMac : Option (List UInt8))
  | release (place : Nat)

def LogEvent.trigger : LogEvent → Option Trigger
  | .threat idx flags tick epMac => dpiThreatTriggerDir idx flags tick epMac
  | .session idx epMac flags tick => dpiThreatLogBySession idx epMac flags tick
  | .dlp flags tick sigID name epMac => dpiDlpTriggerSigDir flags tick sigID name epMac
  | .release _ => none

/-- The cache after an event, and the logs sent. -/
def cacheStep (caches : List LogCache) : LogEvent → List LogCache × List ThreatLog
  | .release place => logRelease place caches
  | event => event.trigger.elim (caches, []) (triggerLog · caches)

def logStep (state : LogState) (event : LogEvent) : LogState :=
  { caches := (cacheStep state.caches event).1
    emitted := state.emitted ++ (cacheStep state.caches event).2 }

def logRun (state : LogState) (events : List LogEvent) : LogState := events.foldl logStep state

/-- What logs are counted by: threat, flags and endpoint. -/
abbrev Subject := UInt32 × UInt8 × List UInt8

def ThreatLog.subject (log : ThreatLog) : Subject := (log.threatID, log.flags, log.epMac)

section Sums

variable (subject : Subject)

def amount (log : ThreatLog) (count : UInt32) : Nat :=
  if log.subject = subject then count.toNat else 0

def loggedFor (logs : List ThreatLog) : Nat :=
  (logs.map fun log => amount subject log log.count).sum

def heldFor (caches : List LogCache) : Nat := (caches.map fun c => amount subject c.log c.count).sum

def triggersFor (events : List LogEvent) : Nat :=
  (events.filterMap LogEvent.trigger).countP fun trigger => trigger.key.subject = subject

@[simp] theorem amount_counted (log : ThreatLog) (counted count : UInt32) :
    amount subject { log with count := counted } count = amount subject log count := rfl

@[simp] theorem amount_zero (log : ThreatLog) : amount subject log 0 = 0 := by simp [amount]

end Sums

/-- Every entry has taken triggers of one identifier only. -/
def Alone (caches : List LogCache) : Prop := ∀ c ∈ caches, ∀ id ∈ c.taken, id = c.log.threatID

/-- For a trigger that is looked up by name, the entries with its name, flags
and endpoint have its identifier; and the entries of its subject do not
overflow. -/
def Meets (caches : List LogCache) (trigger : Trigger) : Prop :=
  ∀ c ∈ caches,
    (htonl trigger.key.threatID > dpiSigMinUserSigID →
      c.log.dlpNameHash = trigger.key.dlpNameHash → c.log.flags = trigger.key.flags →
      c.log.epMac = trigger.key.epMac → c.log.threatID = trigger.key.threatID) ∧
    (c.log.subject = trigger.key.subject → c.count ≠ 0xffffffff)

def ProperRun (state : LogState) : List LogEvent → Prop
  | [] => True
  | event :: rest => (∀ trigger ∈ event.trigger, Meets state.caches trigger) ∧
    ProperRun (logStep state event) rest

variable {trigger : Trigger} {c : LogCache} {caches : List LogCache}

theorem subject_eq_of_isFound (met : Meets caches trigger) (member : c ∈ caches)
    (found : isFound trigger.key c = true) :
    c.log.subject = trigger.key.subject := by
  simp only [isFound, logMatch, logDlpMatch, Bool.and_eq_true] at found
  obtain ⟨_, matched⟩ := found
  split at matched
  next byName =>
    simp only [Bool.and_eq_true, beq_iff_eq] at matched
    obtain ⟨⟨name, flags⟩, endpoint⟩ := matched
    have same := (met c member).1 byName name flags endpoint
    simp [ThreatLog.subject, same, flags, endpoint]
  · simp only [Bool.and_eq_true, beq_iff_eq] at matched
    simp [ThreatLog.subject, matched]

theorem toNat_succ {count : UInt32} (room : count ≠ 0xffffffff) :
    (count + 1).toNat = count.toNat + 1 := by
  have bound : count.toNat ≠ 4294967295 := by
    intro full
    exact room (UInt32.toNat_inj.mp full)
  have small := count.toNat_lt
  rw [UInt32.toNat_add, UInt32.toNat_one]
  omega

theorem takeTrigger_sums (same : c.log.subject = trigger.key.subject)
    (room : c.count ≠ 0xffffffff) (subject : Subject) :
    loggedFor subject (takeTrigger c trigger).2 +
      amount subject (takeTrigger c trigger).1.log (takeTrigger c trigger).1.count =
      amount subject c.log c.count + amount subject trigger.key 1 := by
  have next := toNat_succ room
  have positive : c.count + 1 ≠ 0 := by
    intro zero
    rw [zero] at next
    cases next
  have step : amount subject trigger.key (c.count + 1) =
      amount subject c.log c.count + amount subject trigger.key 1 := by
    simp only [amount, same, next]
    split <;> rfl
  have same : amount subject c.log = amount subject trigger.key := by
    funext count
    simp only [amount, same]
  by_cases early : trigger.tick - c.lastLog < trigger.freq
  · simp [takeTrigger, updateCache, early, loggedFor, step, same]
  · simp [takeTrigger, updateCache, early, loggedFor, step, same, positive]

theorem takeTrigger_alone (same : c.log.threatID = trigger.key.threatID)
    (alone : ∀ id ∈ c.taken, id = c.log.threatID) :
    ∀ id ∈ (takeTrigger c trigger).1.taken, id = (takeTrigger c trigger).1.log.threatID := by
  simp only [takeTrigger, updateCache]
  split <;> split <;> simpa [same] using alone

/-- The entries stay alone, and what is held or logged grows by a gain. -/
structure Gains (gain : Subject → Nat) (before : List LogCache)
    (after : List LogCache × List ThreatLog) : Prop where
  alone : Alone before → Alone after.1
  sums : ∀ subject, loggedFor subject after.2 + heldFor subject after.1 =
    heldFor subject before + gain subject

theorem Gains.cons {gain : Subject → Nat}
    {after : List LogCache × List ThreatLog} (gains : Gains gain caches after) :
    Gains gain (c :: caches) (c :: after.1, after.2) := by
  constructor
  · intro alone
    obtain ⟨first, others⟩ := forall_mem_cons.mp alone
    exact forall_mem_cons.mpr ⟨first, gains.alone others⟩
  · intro subject
    have others := gains.sums subject
    simp only [heldFor, map_cons, sum_cons] at others ⊢
    omega

theorem triggerLog_gains (met : Meets caches trigger) :
    Gains (amount · trigger.key 1) caches (triggerLog trigger caches) := by
  induction caches with
  | nil =>
    constructor
    · simp [triggerLog, addCache, Alone]
    · simp [triggerLog, addCache, loggedFor, heldFor]
  | cons c rest induction =>
    obtain ⟨first, others⟩ := forall_mem_cons.mp met
    rw [triggerLog]
    split
    next found =>
      have same := subject_eq_of_isFound met mem_cons_self found
      constructor
      · intro alone
        obtain ⟨firstAlone, othersAlone⟩ := forall_mem_cons.mp alone
        have sameID : c.log.threatID = trigger.key.threatID := congrArg Prod.fst same
        exact forall_mem_cons.mpr ⟨takeTrigger_alone sameID firstAlone, othersAlone⟩
      · intro subject
        have taken := takeTrigger_sums same (first.2 same) subject
        simp only [heldFor, map_cons, sum_cons]
        omega
    · exact (induction others).cons

theorem logRelease_gains (place : Nat) (caches : List LogCache) :
    Gains (fun _ => 0) caches (logRelease place caches) := by
  induction caches generalizing place with
  | nil =>
    constructor
    · simp [logRelease]
    · simp [logRelease, loggedFor]
  | cons c rest induction =>
    cases place with
    | zero =>
      constructor
      · intro alone
        exact (forall_mem_cons.mp alone).2
      · intro subject
        rw [logRelease]
        split
        · simp [loggedFor, heldFor]
        next empty =>
          have zero : c.count = 0 := by simpa using empty
          simp [loggedFor, heldFor, zero]
    | succ place => exact (induction place).cons

theorem cacheStep_gains {event : LogEvent} (met : ∀ trigger ∈ event.trigger, Meets caches trigger) :
    Gains (triggersFor · [event]) caches (cacheStep caches event) := by
  have other : ∀ trigger, event.trigger = trigger → Gains (triggersFor · [event]) caches
        (trigger.elim (caches, []) (triggerLog · caches)) := by
    intro trigger triggered
    cases trigger with
    | none =>
      constructor
      · exact id
      · simp [loggedFor, triggersFor, triggered]
    | some trigger =>
      have counted : (triggersFor · [event]) = (amount · trigger.key 1) := by
        simp [triggersFor, triggered, countP_singleton, amount]
      rw [counted]
      exact triggerLog_gains (met trigger triggered)
  cases event with
  | release place => exact logRelease_gains place caches
  | threat idx flags tick epMac => exact other _ rfl
  | session idx epMac flags tick | dlp flags tick sigID name epMac => exact other _ rfl

structure Exact (events : List LogEvent) (state : LogState) : Prop where
  alone : Alone state.caches
  sums : ∀ subject,
    loggedFor subject state.emitted + heldFor subject state.caches = triggersFor subject events

theorem logRun_exact {state : LogState} {earlier : List LogEvent}
    (events : List LogEvent) (exact : Exact earlier state) (proper : ProperRun state events) :
    Exact (earlier ++ events) (logRun state events) := by
  induction events generalizing earlier state with
  | nil => simpa [logRun] using exact
  | cons event rest induction =>
    have gains := cacheStep_gains proper.1
    have next : Exact (earlier ++ [event]) (logStep state event) := by
      refine ⟨gains.alone exact.alone, fun subject => ?_⟩
      have before := exact.sums subject
      have gained := gains.sums subject
      simp [logStep, loggedFor, triggersFor] at before gained ⊢
      omega
    have reached := induction next proper.2
    rwa [append_assoc] at reached

theorem threat_logs_exact (events : List LogEvent) (proper : ProperRun .start events) :
    Alone (logRun .start events).caches ∧
      ∀ subject, (∀ c ∈ (logRun .start events).caches, c.log.subject ≠ subject) →
        loggedFor subject (logRun .start events).emitted = triggersFor subject events := by
  have start : Exact [] .start := ⟨by simp [Alone, LogState.start], by
    simp [loggedFor, heldFor, triggersFor, LogState.start]⟩
  have reached := logRun_exact events start proper
  refine ⟨reached.alone, fun subject released => ?_⟩
  have held : heldFor subject (logRun .start events).caches = 0 := by
    apply List.sum_eq_zero_iff_forall_eq_nat.mpr
    intro count member
    obtain ⟨c, isCache, rfl⟩ := List.mem_map.mp member
    exact if_neg (released c isCache)
  simpa [held] using reached.sums subject

/-- Two bad packets and a DLP match at one endpoint. -/
def mixedEvents : List LogEvent :=
  [.threat 4 0 1 (some [2]), .dlp 0 1 30001 [7] (some [2]), .threat 4 0 2 (some [2]),
    .release 1, .release 0]

theorem threat_logs_exact_mixed :
    loggedFor (2001, 0, [2]) (logRun .start mixedEvents).emitted = 2 ∧
      loggedFor (30001, 0, [2]) (logRun .start mixedEvents).emitted = 1 := by
  have proper : ProperRun .start mixedEvents := by
    refine ⟨?_, ?_, ?_, nofun, nofun, trivial⟩
    · simp [LogState.start, Meets]
    · unfold Meets
      decide
    · unfold Meets
      decide
  have exact := (threat_logs_exact mixedEvents proper).2
  exact ⟨exact _ (by decide), exact _ (by decide)⟩

/-- A bad packet and a teardrop at one endpoint share an entry, and both are
logged as bad packets. -/
theorem teardrop_logged_as_bad_packet :
    ∃ events, ¬Alone (logRun .start (events.take 2)).caches ∧ (logRun .start events).caches = [] ∧
      loggedFor (2001, 0, [2]) (logRun .start events).emitted = 2 ∧
      triggersFor (2001, 0, [2]) events = 1 ∧
      loggedFor (2002, 0, [2]) (logRun .start events).emitted = 0 ∧
      triggersFor (2002, 0, [2]) events = 1 := by
  refine ⟨[.threat 4 0 1 (some [2]), .threat 5 0 1 (some [2]),
    .release 0], ?_, by decide, by decide, by decide, by decide, by decide⟩
  intro alone
  have taken := alone _ mem_cons_self 2002 (by decide)
  exact absurd taken (by decide)

end NeuVector.DataPath.Threat
