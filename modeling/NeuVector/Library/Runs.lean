import Mathlib.Init

/-!
# Runs of steps under a condition

A run takes one event after the other.  What a step keeps when the event meets
a condition in the state before it holds throughout every run whose events all
meet it.
-/

namespace NeuVector.Library.Runs

variable {σ ε : Type} {step : σ → ε → σ} {Holds : σ → Prop} {Meets : σ → ε → Prop} {state : σ}

/-- Every event of the run meets the condition in the state it finds. -/
def All (step : σ → ε → σ) (Meets : σ → ε → Prop) : σ → List ε → Prop
  | _, [] => True
  | state, event :: rest => Meets state event ∧ All step Meets (step state event) rest

theorem foldl_holds
    (keeps : ∀ {state event}, Holds state → Meets state event → Holds (step state event))
    (start : Holds state) {events : List ε} (all : All step Meets state events) :
    Holds (events.foldl step state) := by
  induction events generalizing state with
  | nil => exact start
  | cons event rest induction => exact induction (keeps start all.1) all.2

/-- A run that waits for an event and finds it has what the event brings, and
keeps it. -/
theorem foldl_reaches (Holds Waits : σ → Prop) (brings : ε → Prop) {events : List ε}
    (keeps : ∀ state event, event ∈ events → Holds state → Holds (step state event))
    (waits : ∀ state event, event ∈ events → Waits state →
      Holds (step state event) ∨ ¬brings event ∧ Waits (step state event))
    (start : Holds state ∨ Waits state ∧ ∃ event ∈ events, brings event) :
    Holds (events.foldl step state) := by
  induction events generalizing state with
  | nil =>
    rcases start with holds | ⟨_, _, member, _⟩
    · exact holds
    · cases member
  | cons event rest induction =>
    apply induction (fun state other member => keeps state other (.tail _ member))
      (fun state other member => waits state other (.tail _ member))
    rcases start with holds | ⟨waiting, target, member, found⟩
    · exact .inl (keeps state event (.head _) holds)
    · apply (waits state event (.head _) waiting).imp_right
      rintro ⟨other, still⟩
      rcases List.mem_cons.mp member with rfl | later
      · exact absurd found other
      · exact ⟨still, target, later, found⟩

theorem All.drop {passed events : List ε} (all : All step Meets state (passed ++ events)) :
    All step Meets (passed.foldl step state) events := by
  induction passed generalizing state with
  | nil => exact all
  | cons event rest induction => exact induction all.2

/-- With a condition that is exact for one step, it is exact for the run. -/
theorem holds_throughout_iff
    (exact : ∀ {state event}, Holds state → (Holds (step state event) ↔ Meets state event))
    (start : Holds state) (events : List ε) :
    (∀ passed, passed <+: events → Holds (passed.foldl step state)) ↔
      All step Meets state events := by
  induction events generalizing state with
  | nil => simpa [All] using start
  | cons event rest induction =>
    constructor
    · intro throughout
      have after : Holds (step state event) := throughout [event] (by simp)
      refine ⟨(exact start).mp after, (induction after).mp ?_⟩
      intro passed within
      exact throughout (event :: passed) (by simpa using within)
    · rintro ⟨meets, all⟩ passed within
      have after := (induction ((exact start).mpr meets)).mpr all
      rcases List.prefix_cons_iff.mp within with rfl | ⟨later, rfl, withinRest⟩
      · exact start
      · exact after later withinRest

end NeuVector.Library.Runs
