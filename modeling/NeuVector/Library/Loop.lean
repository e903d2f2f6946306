import Mathlib.Init

/-!
# Loops with a decreasing measure

A `while` loop is given by its body, which either asks for another round or
leaves the loop.  The loop is run with as many rounds as a measure of its first
state allows, so it can be evaluated.  When every round lowers the measure,
the rounds never run out and the loop satisfies its own unfolding equations.
-/

namespace NeuVector.Library

/-- What the body of a loop decides. -/
inductive Step (σ : Type) where
  | next (state : σ)
  | stop (state : σ)
  deriving DecidableEq

/-- What holds when the loop goes on, and what holds when it is left. -/
def Step.Meets {σ : Type} (Invariant Result : σ → Prop) : Step σ → Prop
  | .next state => Invariant state
  | .stop state => Result state

namespace Loop

variable {σ : Type}

def iterate (step : σ → Step σ) : Nat → σ → σ
  | 0, state => state
  | rounds + 1, state =>
    match step state with
    | .next state => iterate step rounds state
    | .stop state => state

def run (step : σ → Step σ) (measure : σ → Nat) (state : σ) : σ :=
  iterate step (measure state + 1) state

def Decreasing (step : σ → Step σ) (measure : σ → Nat) : Prop :=
  ∀ state next, step state = .next next → measure next < measure state

section Unfolding

variable {step : σ → Step σ} {measure : σ → Nat} {state next final : σ}

theorem iterate_enough (decreasing : Decreasing step measure)
    {first second : Nat} (enoughFirst : measure state < first)
    (enoughSecond : measure state < second) :
    iterate step first state = iterate step second state := by
  induction first generalizing state second with
  | zero => exact absurd enoughFirst (Nat.not_lt_zero _)
  | succ first induction =>
    cases second with
    | zero => exact absurd enoughSecond (Nat.not_lt_zero _)
    | succ second =>
      simp only [iterate]
      cases body : step state with
      | stop final => rfl
      | next next =>
        have lower := decreasing state next body
        exact induction (Nat.lt_of_lt_of_le lower (Nat.le_of_lt_succ enoughFirst))
          (Nat.lt_of_lt_of_le lower (Nat.le_of_lt_succ enoughSecond))

theorem run_stop (body : step state = .stop final) : run step measure state = final := by
  simp only [run, iterate, body]

theorem run_next (decreasing : Decreasing step measure) (body : step state = .next next) :
    run step measure state = run step measure next := by
  have lower := decreasing state next body
  have unfolded : run step measure state = iterate step (measure state) next := by
    simp only [run, iterate, body]
  rw [unfolded]
  exact iterate_enough decreasing lower (Nat.lt_succ_self _)

/-- What every round keeps, or turns into the result when it leaves the loop,
makes the result hold at the end. -/
theorem run_meets (Invariant Result : σ → Prop) (decreasing : Decreasing step measure)
    (round : ∀ before, Invariant before → (step before).Meets Invariant Result)
    (start : Invariant state) : Result (run step measure state) := by
  induction rounds : measure state using Nat.strongRecOn generalizing state with
  | ind count induction =>
    have here := round state start
    cases body : step state with
    | stop final =>
      rw [run_stop body]
      rw [body] at here
      exact here
    | next next =>
      rw [run_next decreasing body]
      rw [body] at here
      have lower := decreasing state next body
      rw [rounds] at lower
      exact induction (measure next) lower here rfl

/-- The loop is left in a state after finitely many rounds. -/
inductive Leaves (step : σ → Step σ) : σ → σ → Prop where
  | stop {state final : σ} (body : step state = .stop final) : Leaves step state final
  | next {state next final : σ} (body : step state = .next next)
      (later : Leaves step next final) : Leaves step state final

/-- A loop that lowers a measure in every further round is left. -/
theorem leaves_run (decreasing : Decreasing step measure) (state : σ) :
    Leaves step state (run step measure state) := by
  induction rounds : measure state using Nat.strongRecOn generalizing state with
  | ind count induction =>
    cases body : step state with
    | stop final =>
      rw [run_stop body]
      exact .stop body
    | next next =>
      have lower := decreasing state next body
      rw [rounds] at lower
      rw [run_next decreasing body]
      exact .next body (induction (measure next) lower next rfl)

end Unfolding

end Loop

end NeuVector.Library
