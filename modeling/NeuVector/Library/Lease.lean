import NeuVector.Library.Heap

/-!
# Keys held by sessions with a time to live

A store of keys, each held by at most one session.  A session ends when its
time to live has elapsed, and the keys it holds are gone from then on.  A key
is acquired by a live session unless another live session holds it.
-/

namespace NeuVector.Library

structure Leases (κ : Type) where
  /-- When each session ends. -/
  sessions : Heap Nat
  holder : κ → Option Nat

namespace Leases

variable {κ : Type}

def empty : Leases κ := { sessions := .empty, holder := fun _ => none }

variable (leases : Leases κ)

def alive (id now : Nat) : Bool := (leases.sessions.cells id).any fun ends => now < ends

def held (key : κ) (now : Nat) : Bool := (leases.holder key).any fun id => leases.alive id now

/-- Start a session; its number is the next unused one. -/
def newSession (now ttl : Nat) : Leases κ :=
  { leases with sessions := leases.sessions.alloc (now + ttl) }

def acquire [DecidableEq κ] (id : Nat) (key : κ) (now : Nat) : Leases κ :=
  if !leases.alive id now then leases
  else if leases.held key now && leases.holder key ≠ some id then leases
  else { leases with holder := Function.update leases.holder key (some id) }

/-- The key is held by a session that does not end before a given time. -/
def SecuredUntil (key : κ) (time : Nat) : Prop :=
  ∃ id ends, leases.holder key = some id ∧ leases.sessions.cells id = some ends ∧ time ≤ ends

section Rules

variable {leases : Leases κ} {key other : κ} {id now time ends : Nat}

theorem alive_of_ends (session : leases.sessions.cells id = some ends)
    (before : now < ends) : leases.alive id now = true := by simp [alive, session, before]

theorem SecuredUntil.held (secured : leases.SecuredUntil key time)
    (before : now < time) : leases.held key now = true := by
  obtain ⟨id, ends, holder, session, late⟩ := secured
  have living := alive_of_ends session (Nat.lt_of_lt_of_le before late)
  simp [Leases.held, holder, living]

theorem SecuredUntil.newSession (secured : leases.SecuredUntil key time)
    (ttl : Nat) : (leases.newSession now ttl).SecuredUntil key time := by
  obtain ⟨id, ends, holder, session, late⟩ := secured
  refine ⟨id, ends, holder, ?_, late⟩
  have used : id ≠ leases.sessions.next := by
    intro same
    have unused := leases.sessions.fresh id (Nat.le_of_eq same.symm)
    rw [session] at unused
    cases unused
  exact (Heap.alloc_cells_of_ne _ _ used).trans session

theorem newSession_ends (leases : Leases κ) (now ttl : Nat) :
    (leases.newSession now ttl).sessions.cells leases.sessions.next = some (now + ttl) :=
  Heap.alloc_cells_next _ _

variable [DecidableEq κ]

theorem acquire_sessions : (leases.acquire id key now).sessions = leases.sessions := by
  unfold acquire
  split
  · rfl
  · split
    · rfl
    · rfl

theorem holder_acquire_of_ne (different : other ≠ key) :
    (leases.acquire id key now).holder other = leases.holder other := by
  unfold acquire
  split
  · rfl
  · split
    · rfl
    · exact Function.update_of_ne different _ _

/-- A key that has no end before a time still has none after another session
tried to take it. -/
theorem SecuredUntil.acquire (secured : leases.SecuredUntil key time) (before : now < time) :
    (leases.acquire id other now).SecuredUntil key time := by
  by_cases same : key = other
  · subst same
    have taken := secured.held before
    obtain ⟨owner, ends, holder, session, late⟩ := secured
    refine ⟨owner, ends, ?_, ?_, late⟩
    · unfold Leases.acquire
      split
      · exact holder
      · split
        · exact holder
        next own =>
          rw [taken, Bool.true_and, decide_eq_true_eq, Classical.not_not] at own
          rw [← holder, own]
          exact Function.update_self _ _ _
    · rw [acquire_sessions]
      exact session
  · obtain ⟨owner, ends, holder, session, late⟩ := secured
    refine ⟨owner, ends, ?_, ?_, late⟩
    · rw [holder_acquire_of_ne same]
      exact holder
    · rw [acquire_sessions]
      exact session

theorem acquire_secures (free : leases.holder key = none)
    (session : leases.sessions.cells id = some ends) (before : now < ends) (late : time ≤ ends) :
    (leases.acquire id key now).SecuredUntil key time := by
  have living := alive_of_ends session before
  have available : leases.held key now = false := by simp [Leases.held, free]
  refine ⟨id, ends, ?_, ?_, late⟩
  · unfold acquire
    rw [living, available]
    exact Function.update_self _ _ _
  · rw [acquire_sessions]
    exact session

end Rules

end Leases

end NeuVector.Library
