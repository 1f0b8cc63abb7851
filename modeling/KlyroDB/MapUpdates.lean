import Mathlib.Data.List.AList
import Mathlib.Logic.Function.Basic

/-!
# Maps after an insertion
-/

namespace AList

variable {Key Value : Type*} [DecidableEq Key]

/-- What is found after an insertion is new, or was there under another key. -/
theorem lookup_insert_cases {map : AList fun _ : Key => Value} {key other : Key}
    {value found : Value} (there : (map.insert key value).lookup other = some found) :
    other = key ∧ found = value ∨ other ≠ key ∧ map.lookup other = some found := by
  by_cases same : other = key
  · subst same
    rw [AList.lookup_insert] at there
    exact Or.inl ⟨rfl, (Option.some.inj there).symm⟩
  · rw [AList.lookup_insert_ne same] at there
    exact Or.inr ⟨same, there⟩

theorem lookup_erase_cases {map : AList fun _ : Key => Value} {key other : Key} {found : Value}
    (there : (map.erase key).lookup other = some found) :
    other ≠ key ∧ map.lookup other = some found := by
  by_cases same : other = key
  · rw [same, AList.lookup_erase] at there
    cases there
  · rw [AList.lookup_erase_ne same] at there
    exact ⟨same, there⟩

end AList

namespace Function

theorem update_cases {Key Value : Type*} [DecidableEq Key] {map : Key → Option Value}
    {key other : Key} {value found : Value}
    (there : update map key (some value) other = some found) :
    other = key ∧ found = value ∨ other ≠ key ∧ map other = some found := by
  by_cases same : other = key
  · rw [same, update_self] at there
    exact Or.inl ⟨same, (Option.some.inj there).symm⟩
  · rw [update_of_ne same] at there
    exact Or.inr ⟨same, there⟩

end Function
