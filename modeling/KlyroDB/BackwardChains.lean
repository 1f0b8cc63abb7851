import Mathlib.Data.List.Induction

/-!
# Chains of backward links

Entries that carry a number and the number of the entry before them.
-/

namespace BackwardChain

variable {Entry : Type*} (number link : Entry → Nat)

/-- Each entry links to the one before it, the first one to `start`, and the
numbers increase. -/
def Chained : Nat → List Entry → Prop
  | _, [] => True
  | start, entry :: rest => link entry = start ∧ start < number entry ∧ Chained (number entry) rest

/-- The number that the next entry has to link to. -/
def tip (start : Nat) (entries : List Entry) : Nat :=
  (entries.getLast?.map number).getD start

@[simp]
theorem tip_concat (start : Nat) (entries : List Entry) (entry : Entry) :
    tip number start (entries ++ [entry]) = number entry := by simp [tip]

theorem tip_cons (start : Nat) (entry : Entry) (rest : List Entry) :
    tip number start (entry :: rest) = tip number (number entry) rest := by
  cases rest using List.reverseRecOn with
  | nil => rfl
  | append_singleton rest last => rw [← List.cons_append, tip_concat, tip_concat]

section Growth

variable {number link}

theorem Chained.concat {start : Nat} {entries : List Entry} {entry : Entry}
    (chained : Chained number link start entries) (linked : link entry = tip number start entries)
    (later : tip number start entries < number entry) :
    Chained number link start (entries ++ [entry]) := by
  induction entries generalizing start with
  | nil => exact ⟨linked, later, trivial⟩
  | cons first rest ih =>
    obtain ⟨linkedFirst, increases, chainedRest⟩ := chained
    rw [tip_cons] at linked later
    exact ⟨linkedFirst, increases, ih chainedRest linked later⟩

theorem tip_lt {start bound : Nat} {entries : List Entry} (startLt : start < bound)
    (below : ∀ entry ∈ entries, number entry < bound) : tip number start entries < bound := by
  cases entries using List.reverseRecOn with
  | nil => exact startLt
  | append_singleton entries last =>
    rw [tip_concat]
    exact below last (by simp)

end Growth

end BackwardChain
