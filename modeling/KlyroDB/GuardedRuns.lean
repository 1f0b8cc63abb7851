import Mathlib.Data.List.Basic

/-!
# Runs whose steps meet a condition

An invariant that one guarded step keeps holds after every guarded run, and what
it implies of a single step holds of all of them.
-/

namespace GuardedRuns

variable {State Event : Type*} (step : State → Event → State)

def run (start : State) (events : List Event) : State :=
  events.foldl step start

/-- Every step of the run has the property, in the state it is taken from. -/
def Along (property : State → Event → Prop) : State → List Event → Prop
  | _, [] => True
  | state, event :: events => property state event ∧ Along property (step state event) events

section Rules

variable {step} {property guard : State → Event → Prop}
  {Invariant : State → Prop} {start : State} {events : List Event}

/-- What an invariant implies of a guarded step holds along guarded runs. -/
theorem Along.of_invariant (keeps : ∀ state event, Invariant state → guard state event →
      Invariant (step state event)) (implies : ∀ state event, Invariant state → guard state event →
      property state event) (holds : Invariant start) (guarded : Along step guard start events) :
    Along step property start events := by
  induction events generalizing start with
  | nil => trivial
  | cons event events ih =>
    obtain ⟨first, rest⟩ := guarded
    exact ⟨implies start event holds first, ih (keeps start event holds first) rest⟩

theorem run_append (first second : List Event) :
    run step start (first ++ second) = run step (run step start first) second :=
  List.foldl_append ..

/-- A property of all steps holds along both parts of a run. -/
theorem Along.append {first second : List Event}
    (along : Along step property start (first ++ second)) :
    Along step property start first ∧ Along step property (run step start first) second := by
  induction first generalizing start with
  | nil => exact ⟨trivial, along⟩
  | cons event first ih =>
    obtain ⟨rest, last⟩ := ih along.2
    exact ⟨⟨along.1, rest⟩, last⟩

/-- An invariant that guarded steps keep holds at the end of a run. -/
theorem Along.run_invariant (keeps : ∀ state event, Invariant state → guard state event →
      Invariant (step state event))
    (holds : Invariant start) (guarded : Along step guard start events) :
    Invariant (run step start events) := by
  induction events generalizing start with
  | nil => exact holds
  | cons event events ih => exact ih (keeps start event holds guarded.1) guarded.2

end Rules

end GuardedRuns
