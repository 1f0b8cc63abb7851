import Mathlib.Data.Nat.Basic

/-!
# Loops with a bound on their rounds

A loop is run for a number of rounds and has no result if they do not suffice.
A variant that each round decreases bounds the rounds.
-/

namespace BoundedLoop

inductive Round (State Result : Type*)
  | again (state : State)
  | done (result : Result)

variable {State Result : Type*} (round : State → Round State Result)

def run : Nat → State → Option Result
  | 0, _ => none
  | rounds + 1, state =>
      match round state with
      | .again next => run rounds next
      | .done result => some result

variable {round}

variable {rounds : Nat} {state : State}

theorem run_succ_of_again {next : State} (continues : round state = .again next) :
    run round (rounds + 1) state = run round rounds next := by rw [run, continues]

theorem run_succ_of_done {result : Result} (ends : round state = .done result) :
    run round (rounds + 1) state = some result := by rw [run, ends]

/-- More rounds do not change a result. -/
theorem run_of_le {few many : Nat} (le : few ≤ many) {result : Result}
    (ends : run round few state = some result) : run round many state = some result := by
  induction few generalizing many state with
  | zero => contradiction
  | succ few ih =>
    obtain ⟨more, rfl⟩ : ∃ more, many = more + 1 := ⟨many - 1, by omega⟩
    cases next : round state with
    | again later =>
      rw [run_succ_of_again next] at ends ⊢
      exact ih (by omega) ends
    | done last =>
      rw [run_succ_of_done next] at ends ⊢
      exact ends

end BoundedLoop
