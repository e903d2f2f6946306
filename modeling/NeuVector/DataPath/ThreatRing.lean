import Mathlib.Data.List.Induction

/-!
# The ring of threat logs

A thread of the data path puts its threat logs into a ring of `dp/ctrl.c` from
which the control thread takes them.  Neither thread waits for the other one,
so the steps of `dp_ctrl_threat_log` and of the loop that consumes the ring
come in any order.  The reader stands at the slot that was taken last, and the
writer, which starts one slot further, never catches up with it.  In every
order of the steps the ring does what a bounded queue without slots does.
-/

namespace NeuVector.DataPath

open List

def maxLogEntries : Nat := 128

/-- Where `dp_ctrl_threat_log` stands: before its test, before its copy or
before it sets the writer. -/
inductive LogProducer (Log : Type) where
  | idle
  | reserved (log : Log)
  | copied (log : Log)

/-- Where the loop over the ring stands: before its test, before it sets the
reader or before it hands the slot on. -/
inductive LogConsumer where
  | idle
  | claimed (next : Nat)
  | advanced
  deriving DecidableEq

/-- A ring with both threads, the logs accepted, how many of them were taken and
the contents of the slots handed on. -/
structure LogRing (Log : Type) where
  logRing : Nat → Option Log
  logReader : Nat
  logWriter : Nat
  producer : LogProducer Log
  consumer : LogConsumer
  accepted : List Log
  taken : Nat
  delivered : List (Option Log)

variable {Log : Type}

def dpCtrlInitThreadData : LogRing Log :=
  { logRing := fun _ => none, logReader := maxLogEntries - 1, logWriter := 0
    producer := .idle, consumer := .idle
    accepted := [], taken := 0, delivered := [] }

inductive RingStep (Log : Type) where
  | reserve (log : Log)
  | copy
  | publish
  | look
  | advance
  | notify

def nextEntry (entry : Nat) : Nat := (entry + 1) % maxLogEntries

variable (s : LogRing Log)

/-- One step of one thread; a thread that stands elsewhere does nothing. -/
def ringStep (step : RingStep Log) : LogRing Log :=
  match step, s.producer, s.consumer with
  | .reserve log, .idle, _ =>
    if s.logWriter = s.logReader then s else { s with producer := .reserved log }
  | .copy, .reserved log, _ =>
    { s with logRing := Function.update s.logRing s.logWriter (some log), producer := .copied log }
  | .publish, .copied log, _ =>
    { s with
      logWriter := nextEntry s.logWriter
      producer := .idle
      accepted := s.accepted ++ [log] }
  | .look, _, .idle =>
    if nextEntry s.logReader = s.logWriter then s
    else { s with consumer := .claimed (nextEntry s.logReader) }
  | .advance, _, .claimed next =>
    { s with logReader := next, consumer := .advanced, taken := s.taken + 1 }
  | .notify, _, .advanced =>
    { s with consumer := .idle, delivered := s.delivered ++ [s.logRing s.logReader] }
  | _, _, _ => s

def ringRun (steps : List (RingStep Log)) : LogRing Log := steps.foldl ringStep dpCtrlInitThreadData

inductive QueueConsumer where
  | idle
  | claimed
  | advanced

/-- A queue of at most 127 logs between the same two threads, without slots. -/
structure LogQueue (Log : Type) where
  producer : LogProducer Log
  consumer : QueueConsumer
  accepted : List Log
  taken : Nat
  delivered : List (Option Log)

/-- A log is turned away exactly at a full queue, every other one is accepted,
and a log that was accepted and not handed on yet is found and handed on next. -/
def queueStep (q : LogQueue Log) (step : RingStep Log) : LogQueue Log :=
  match step, q.producer, q.consumer with
  | .reserve log, .idle, _ =>
    if q.accepted.length = q.taken + (maxLogEntries - 1) then q
    else { q with producer := .reserved log }
  | .copy, .reserved log, _ => { q with producer := .copied log }
  | .publish, .copied log, _ => { q with producer := .idle, accepted := q.accepted ++ [log] }
  | .look, _, .idle =>
    if q.taken = q.accepted.length then q else { q with consumer := .claimed }
  | .advance, _, .claimed => { q with consumer := .advanced, taken := q.taken + 1 }
  | .notify, _, .advanced =>
    { q with
      consumer := .idle
      delivered := q.delivered ++ [q.accepted[q.delivered.length]?] }
  | _, _, _ => q

def queueRun (steps : List (RingStep Log)) : LogQueue Log :=
  steps.foldl queueStep
    { producer := .idle, consumer := .idle, accepted := [], taken := 0, delivered := [] }

def LogConsumer.queue : LogConsumer → QueueConsumer
  | .idle => .idle
  | .claimed _ => .claimed
  | .advanced => .advanced

/-- What the ring is as a queue. -/
def LogRing.queue : LogQueue Log where
  producer := s.producer
  consumer := s.consumer.queue
  accepted := s.accepted
  taken := s.taken
  delivered := s.delivered

/-- What is handed on are the accepted logs in their order, all of them once
the loop finds nothing more; a log stays in its slot until it is handed on; and
a log is refused only when all other slots hold logs that were not taken. -/
structure IsQueue : Prop where
  order : s.delivered = (s.accepted.take s.delivered.length).map some
  drained : s.consumer = .idle → nextEntry s.logReader = s.logWriter →
    s.delivered = s.accepted.map some
  unread : ∀ i, s.delivered.length ≤ i → i < s.accepted.length →
    s.logRing (i % maxLogEntries) = s.accepted[i]?
  refused : s.producer = .idle → s.logWriter = s.logReader →
    s.accepted.length = s.taken + (maxLogEntries - 1)

structure RingHolds : Prop where
  writer : s.logWriter = s.accepted.length % 128
  reader : s.logReader = (s.taken + 127) % 128
  behind : s.taken ≤ s.accepted.length
  room : s.accepted.length < s.taken + 128
  reserved : s.producer ≠ .idle → s.accepted.length + 1 < s.taken + 128
  claimed : ∀ next, s.consumer = .claimed next → next = s.taken % 128 ∧ s.taken < s.accepted.length
  lag : s.taken = s.delivered.length + if s.consumer = .advanced then 1 else 0
  order : s.delivered = (s.accepted.take s.delivered.length).map some
  unread : ∀ i, s.delivered.length ≤ i → i < s.accepted.length →
    s.logRing (i % maxLogEntries) = s.accepted[i]?
  copied : ∀ log, s.producer = .copied log → s.logRing s.logWriter = some log

theorem ringHolds_start : RingHolds (dpCtrlInitThreadData : LogRing Log) where
  writer := rfl
  reader := rfl
  behind := Nat.le_refl _
  room := by simp [dpCtrlInitThreadData]
  reserved := fun busy => absurd rfl busy
  claimed := nofun
  lag := rfl
  order := rfl
  unread := nofun
  copied := nofun

variable {s}

namespace RingHolds

section

variable (holds : RingHolds s)
include holds

theorem nextEntry_reader : nextEntry s.logReader = s.taken % 128 := by
  rw [nextEntry, maxLogEntries, holds.reader]
  omega

theorem full_iff : s.logWriter = s.logReader ↔
    s.accepted.length = s.taken + (maxLogEntries - 1) := by
  have behind := holds.behind
  have room := holds.room
  rw [holds.writer, holds.reader, maxLogEntries]
  omega

theorem empty_iff : nextEntry s.logReader = s.logWriter ↔ s.taken = s.accepted.length := by
  have behind := holds.behind
  have room := holds.room
  rw [holds.nextEntry_reader, holds.writer]
  omega

theorem slot (advanced : s.consumer = .advanced) :
    s.logRing s.logReader = s.accepted[s.delivered.length]? := by
  have behind := holds.behind
  have reader := holds.reader
  have lag := holds.lag
  rw [if_pos advanced] at lag
  have place : s.logReader = s.delivered.length % maxLogEntries := by
    unfold maxLogEntries
    omega
  rw [place]
  exact holds.unread _ (Nat.le_refl _) (by omega)

theorem isQueue : IsQueue s where
  order := holds.order
  drained := by
    intro idle same
    have lag := holds.lag
    have all : s.delivered.length = s.accepted.length := by
      simp only [idle, reduceCtorEq, if_false] at lag
      rw [← holds.empty_iff.mp same, lag, Nat.add_zero]
    have order := holds.order
    rw [all, take_length] at order
    exact order
  unread := holds.unread
  refused := fun _ same => holds.full_iff.mp same

theorem copy {log : Log} (busy : s.producer = .reserved log) :
    RingHolds { s with
      logRing := Function.update s.logRing s.logWriter (some log)
      producer := .copied log } := by
  have free := holds.reserved (by simp [busy])
  refine { holds with reserved := fun _ => free, unread := ?_, copied := ?_ }
  · intro i low high
    have lag := holds.lag
    have apart : i % maxLogEntries ≠ s.logWriter := by
      rw [holds.writer, maxLogEntries]
      split at lag <;> simp only at low high <;> omega
    exact (Function.update_of_ne apart _ _).trans (holds.unread i low high)
  · intro other same
    cases same
    exact Function.update_self _ _ _

theorem publish {log : Log} (copied : s.producer = .copied log) :
    RingHolds { s with
      logWriter := nextEntry s.logWriter
      producer := .idle
      accepted := s.accepted ++ [log] } := by
  have free := holds.reserved (by simp [copied])
  have behind := holds.behind
  have lag := holds.lag
  constructor <;> simp only [length_append, length_singleton]
  · simp [nextEntry, maxLogEntries, holds.writer]
  · exact holds.reader
  · omega
  · omega
  · exact fun busy => absurd rfl busy
  · intro next waiting
    obtain ⟨entry, more⟩ := holds.claimed next waiting
    exact ⟨entry, by omega⟩
  · exact lag
  · rw [take_append_of_le_length (by omega)]
    exact holds.order
  · intro i low high
    rcases Nat.lt_or_ge i s.accepted.length with old | new
    · rw [getElem?_append_left old]
      exact holds.unread i low old
    · have last : i = s.accepted.length := by omega
      have slot := holds.writer
      rw [last, maxLogEntries, ← slot, holds.copied log copied, getElem?_concat_length]
  · nofun

theorem advance {next : Nat} (claimed : s.consumer = .claimed next) :
    RingHolds { s with
      logReader := next
      consumer := .advanced
      taken := s.taken + 1 } := by
  obtain ⟨entry, more⟩ := holds.claimed next claimed
  have room := holds.room
  have lag := holds.lag
  simp only [claimed, reduceCtorEq, if_false] at lag
  refine { holds with
    reader := ?_, behind := more, room := ?_, reserved := ?_, claimed := nofun, lag := ?_ }
  · simp only
    omega
  · simp only
    omega
  · intro busy
    simp only
    omega
  · simp [lag]

theorem notify (advanced : s.consumer = .advanced) :
    RingHolds { s with
      consumer := .idle
      delivered := s.delivered ++ [s.logRing s.logReader] } := by
  have behind := holds.behind
  have lag := holds.lag
  rw [if_pos advanced] at lag
  refine { holds with claimed := nofun, lag := ?_, order := ?_, unread := ?_ }
  · simp [lag]
  · simp only [length_append, length_singleton]
    rw [holds.slot advanced, take_add_one, map_append, ← holds.order,
      getElem?_eq_getElem (by omega)]
    rfl
  · intro i low high
    simp only [length_append, length_singleton] at low
    exact holds.unread i (by omega) high

end

end RingHolds

theorem ringStep_holds (holds : RingHolds s) (step : RingStep Log) :
    RingHolds (ringStep s step) := by
  have writer := holds.writer
  have reader := holds.reader
  have behind := holds.behind
  have room := holds.room
  unfold ringStep
  split
  · split
    · exact holds
    · refine { holds with reserved := fun _ => ?_, copied := nofun }
      simp only
      omega
  next busy => exact holds.copy busy
  next copied => exact holds.publish copied
  next idle =>
    split
    · exact holds
    next apart =>
      have lag := holds.lag
      rw [holds.nextEntry_reader] at apart ⊢
      refine { holds with claimed := ?_, lag := ?_ }
      · intro next same
        cases same
        exact ⟨rfl, by simp only; omega⟩
      · simpa [idle] using lag
  next claimed => exact holds.advance claimed
  next advanced => exact holds.notify advanced
  · exact holds

/-- A step of the ring is one of the queue. -/
theorem ringStep_queue (holds : RingHolds s) (step : RingStep Log) :
    (ringStep s step).queue = queueStep s.queue step := by
  have full := holds.full_iff
  have empty := holds.empty_iff
  have slot := holds.slot
  obtain ⟨ring, reader, writer, producer, consumer, accepted, taken, delivered⟩ := s
  cases step with
  | reserve log =>
    cases producer with
    | idle =>
      simp only [ringStep, queueStep, LogRing.queue, ← full]
      split <;> rfl
    | _ => rfl
  | copy => cases producer <;> rfl
  | publish => cases producer <;> rfl
  | look =>
    cases consumer with
    | idle =>
      simp only [ringStep, queueStep, LogRing.queue, LogConsumer.queue, ← empty]
      split <;> rfl
    | _ => rfl
  | advance => cases consumer <;> rfl
  | notify =>
    cases consumer with
    | advanced =>
      have held : ring reader = accepted[delivered.length]? := slot rfl
      simp only [ringStep, queueStep, LogRing.queue, LogConsumer.queue, held]
    | _ => rfl

theorem ringRun_holds (steps : List (RingStep Log)) :
    RingHolds (ringRun steps) ∧ (ringRun steps).queue = queueRun steps := by
  unfold ringRun queueRun
  induction steps using reverseRecOn with
  | nil => exact ⟨ringHolds_start, rfl⟩
  | append_singleton steps step induction =>
    obtain ⟨holds, same⟩ := induction
    rw [foldl_append, foldl_append, foldl_cons, foldl_cons, foldl_nil, foldl_nil, ← same]
    exact ⟨ringStep_holds holds step, ringStep_queue holds step⟩

/-- In every interleaving of the two threads the ring does step by step what
the queue does, and no log is lost, doubled or overwritten before it is read. -/
theorem threat_ring_is_queue (steps : List (RingStep Log)) :
    (ringRun steps).queue = queueRun steps ∧ IsQueue (ringRun steps) :=
  ⟨(ringRun_holds steps).2, (ringRun_holds steps).1.isQueue⟩

end NeuVector.DataPath
