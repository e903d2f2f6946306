import NeuVector.Library.Runs

/-!
# The threat log and its index

The controller keeps the last threats in a bounded log and finds them by id
through a map.  The map follows the log as long as no id is dropped that
occurs again in the log, and no synchronisation empties the log.
-/

namespace NeuVector.Controller

open NeuVector.Library.Runs

def logCacheSize : Nat := 4096

structure Threat where
  id : String
  level : String
  deriving DecidableEq

def logLevelUpgradeMap : List (String × String) :=
  [("EMERG", "Emergency"), ("ALERT", "Alert"), ("CRIT", "Critical"), ("ERR", "Error"),
    ("WARNING", "Warning"), ("NOTICE", "Notice"), ("INFO", "Info"), ("DEBUG", "Debug")]

def upgradeLogLevel (level : String) : String := (logLevelUpgradeMap.lookup level).getD level

abbrev ThreatMap := String → Option Threat

/-- The used part of the threat log, the index, and the number of the last
synchronisation. -/
structure ThreatCache where
  thrtCache : List Threat
  thrtMap : ThreatMap
  modifyIdx : Nat

def ThreatCache.init : ThreatCache := { thrtCache := [], thrtMap := fun _ => none, modifyIdx := 0 }

def indexThreat (thrtMap : ThreatMap) (thrt : Threat) : ThreatMap := fun id =>
  if id = thrt.id then some thrt else thrtMap id

def dropThreat (thrtMap : ThreatMap) (thrt : Threat) : ThreatMap := fun id =>
  if id = thrt.id then none else thrtMap id

def recordThreat (cache : ThreatCache) (rlog : Threat) : ThreatCache :=
  if cache.thrtCache.length = logCacheSize then
    match cache.thrtCache with
    | [] => cache
    | pop :: rest =>
      { cache with
        thrtCache := rest ++ [rlog]
        thrtMap := indexThreat (dropThreat cache.thrtMap pop) rlog }
  else
    { cache with thrtCache := cache.thrtCache ++ [rlog], thrtMap := indexThreat cache.thrtMap rlog }

/-- The data of a synchronisation; the log of the sender has the same bound. -/
inductive SyncData where
  | missing
  | garbled
  | threats (list : List Threat) (bounded : list.length ≤ logCacheSize)

structure SyncDataMsg where
  modifyIdx : Nat
  data : SyncData

inductive SyncRxError where
  | none
  | retry
  | failed
  deriving DecidableEq

def syncThreatRx (cache : ThreatCache) (msg : SyncDataMsg) : ThreatCache × SyncRxError :=
  if cache.modifyIdx > msg.modifyIdx then (cache, .retry)
  else
    match msg.data with
    | .garbled => (cache, .failed)
    | .missing => ({ cache with thrtCache := [], modifyIdx := msg.modifyIdx }, .none)
    | .threats list _ =>
      let threats := list.map fun thrt => { thrt with level := upgradeLogLevel thrt.level }
      ({ thrtCache := threats
         thrtMap := threats.foldl indexThreat fun _ => none
         modifyIdx := msg.modifyIdx }, .none)

inductive ThreatEvent where
  | record (rlog : Threat)
  | sync (msg : SyncDataMsg)

def threatStep (cache : ThreatCache) : ThreatEvent → ThreatCache
  | .record rlog => recordThreat cache rlog
  | .sync msg => (syncThreatRx cache msg).1

/-- The index has the ids of the log, each with a threat of the log. -/
structure Mirrors (cache : ThreatCache) : Prop where
  indexed : ∀ thrt ∈ cache.thrtCache, (cache.thrtMap thrt.id).isSome
  logged : ∀ id thrt, cache.thrtMap id = some thrt → thrt ∈ cache.thrtCache ∧ thrt.id = id

/-- The step drops no id that occurs again in the log, and does not empty a
log that has threats. -/
def KeepsIndex (cache : ThreatCache) : ThreatEvent → Prop
  | .record rlog => ∀ pop rest, cache.thrtCache = pop :: rest →
      cache.thrtCache.length = logCacheSize → (∃ thrt ∈ rest, thrt.id = pop.id) →
        pop.id = rlog.id
  | .sync msg => cache.modifyIdx ≤ msg.modifyIdx → msg.data = .missing → cache.thrtCache = []

section Step

variable {cache : ThreatCache} {log : List Threat} {thrtMap : ThreatMap} {idx : Nat}

theorem Mirrors.indexThreats (threats : List Threat) (mirrors : Mirrors ⟨log, thrtMap, idx⟩) :
    Mirrors ⟨log ++ threats, threats.foldl indexThreat thrtMap, idx⟩ := by
  induction threats generalizing log thrtMap with
  | nil => simpa using mirrors
  | cons thrt rest induction =>
    have added : Mirrors ⟨log ++ [thrt], indexThreat thrtMap thrt, idx⟩ := by
      obtain ⟨indexed, logged⟩ := mirrors
      constructor <;> grind [indexThreat]
    simpa using induction added

theorem Mirrors.pop_iff {pop : Threat} (mirrors : Mirrors ⟨pop :: log, thrtMap, idx⟩)
    (rlog : Threat) :
    Mirrors ⟨log ++ [rlog], indexThreat (dropThreat thrtMap pop) rlog, idx⟩ ↔
      ((∃ thrt ∈ log, thrt.id = pop.id) → pop.id = rlog.id) := by
  obtain ⟨indexed, logged⟩ := mirrors
  constructor
  · rintro ⟨indexedAfter, -⟩ ⟨thrt, member, same⟩
    have held := indexedAfter thrt (by simp [member])
    grind [indexThreat, dropThreat]
  · intro once
    constructor <;> grind [indexThreat, dropThreat]

theorem Mirrors.step_iff (mirrors : Mirrors cache) (event : ThreatEvent) :
    Mirrors (threatStep cache event) ↔ KeepsIndex cache event := by
  obtain ⟨log, thrtMap, idx⟩ := cache
  cases event with
  | record rlog =>
    by_cases full : log.length = logCacheSize
    · cases log with
      | nil => simp [logCacheSize] at full
      | cons pop rest =>
        simpa [threatStep, recordThreat, KeepsIndex, full] using mirrors.pop_iff rlog
    · simpa [threatStep, recordThreat, KeepsIndex, full] using mirrors.indexThreats [rlog]
  | sync msg =>
    obtain ⟨modifyIdx, data⟩ := msg
    by_cases late : idx > modifyIdx
    · have refused : ¬ idx ≤ modifyIdx := by omega
      simpa [threatStep, syncThreatRx, KeepsIndex, late, refused] using mirrors
    · have inTime : idx ≤ modifyIdx := by omega
      obtain ⟨indexed, logged⟩ := mirrors
      cases data with
      | garbled => simpa [threatStep, syncThreatRx, KeepsIndex, late] using ⟨indexed, logged⟩
      | threats list bounded =>
        have none : Mirrors ⟨[], fun _ => none, modifyIdx⟩ := by constructor <;> simp
        simpa [threatStep, syncThreatRx, KeepsIndex, late] using none.indexThreats _
      | missing =>
        simp only [threatStep, syncThreatRx, KeepsIndex, late, inTime, if_false, forall_const]
        constructor
        · rintro ⟨-, loggedAfter⟩
          apply List.eq_nil_iff_forall_not_mem.mpr
          intro thrt member
          obtain ⟨held, found⟩ := Option.isSome_iff_exists.mp (indexed thrt member)
          simpa using loggedAfter thrt.id held found
        · intro noThreats
          subst noThreats
          exact ⟨indexed, logged⟩

end Step

def threatRun (events : List ThreatEvent) : ThreatCache := events.foldl threatStep .init

/-- The index mirrors the log in every state of a run exactly if every step of
the run keeps the index. -/
theorem threat_index_mirrors_iff (events : List ThreatEvent) :
    (∀ passed, passed <+: events → Mirrors (threatRun passed)) ↔
      All threatStep KeepsIndex .init events := by
  have start : Mirrors .init := by constructor <;> simp [ThreatCache.init]
  exact holds_throughout_iff (fun mirrors => mirrors.step_iff _) start events

def oneThreat : Threat := { id := "1", level := "Critical" }

/-- A synchronisation without data leaves the id of a recorded threat. -/
theorem threat_index_keeps_old_id :
    let cache := threatRun [.record oneThreat, .sync { modifyIdx := 0, data := .missing }]
    cache.thrtCache = [] ∧ cache.thrtMap "1" = some oneThreat := by
  decide

end NeuVector.Controller
