import Mathlib.Data.List.Basic

/-!
# Replaying a prefix of a log

A record that has been processed stays settled, and a settled record changes
nothing.  Replaying a processed prefix is then the identity.
-/

namespace IdempotentReplay

variable {State Record : Type*}

/-- A processed record is settled, stays so under the steps of admissible
records, and has no effect any more. -/
structure Settles (step : State → Record → State) (admissible : Record → Prop)
    (settled : Record → State → Prop) : Prop where
  after_step : ∀ state record, admissible record → settled record (step state record)
  kept : ∀ state record other, admissible other → settled record state →
    settled record (step state other)
  no_effect : ∀ state record, settled record state → step state record = state

namespace Settles

variable {step : State → Record → State} {admissible : Record → Prop}
  {settled : Record → State → Prop}

variable {records : List Record}

section

variable (settles : Settles step admissible settled)

include settles

theorem kept_foldl {record : Record} (all : ∀ other ∈ records, admissible other) {state : State}
    (before : settled record state) : settled record (records.foldl step state) := by
  induction records generalizing state with
  | nil => exact before
  | cons other records ih =>
    have first := all other List.mem_cons_self
    exact ih (fun rest mem => all rest (List.mem_cons_of_mem _ mem))
      (settles.kept state record other first before)

theorem settled_foldl (all : ∀ other ∈ records, admissible other) (state : State) :
    ∀ record ∈ records, settled record (records.foldl step state) := by
  induction records generalizing state with
  | nil =>
    intro record mem
    cases mem
  | cons first records ih =>
    have rest : ∀ other ∈ records, admissible other :=
      fun other mem => all other (List.mem_cons_of_mem _ mem)
    intro record mem
    rcases List.mem_cons.mp mem with rfl | later
    · exact settles.kept_foldl rest
        (settles.after_step state record (all record List.mem_cons_self))
    · exact ih rest (step state first) record later

theorem foldl_of_settled {state : State} (all : ∀ record ∈ records, settled record state) :
    records.foldl step state = state := by
  induction records with
  | nil => rfl
  | cons first records ih =>
    rw [List.foldl_cons, settles.no_effect state first (all first List.mem_cons_self)]
    exact ih fun record mem =>
      all record (List.mem_cons_of_mem first mem)

theorem foldl_foldl (all : ∀ record ∈ records, admissible record) (state : State) :
    records.foldl step (records.foldl step state) = records.foldl step state :=
  settles.foldl_of_settled (settles.settled_foldl all state)

/-- Restarting a log after a prefix of it gives the uninterrupted result. -/
theorem foldl_append_restart {processed : List Record} (remaining : List Record)
    (all : ∀ record ∈ processed, admissible record) (state : State) :
    (processed ++ remaining).foldl step (processed.foldl step state) =
      (processed ++ remaining).foldl step state := by
  rw [List.foldl_append, settles.foldl_foldl all, ← List.foldl_append]

end

end Settles

end IdempotentReplay
