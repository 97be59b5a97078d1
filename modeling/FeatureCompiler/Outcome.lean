/-!
Computations that end in a value or in a fault, taken apart at their first step.
-/

namespace FeatureCompiler

/-- A sequence of two computations has a value only if the first one has. -/
theorem bind_eq_ok {ε α β : Type} {first : Except ε α} {next : α → Except ε β} {b : β}
    (h : (first >>= next) = .ok b) : ∃ a, first = .ok a ∧ next a = .ok b := by
  cases first with
  | error e => cases h
  | ok a => exact ⟨a, rfl, h⟩

end FeatureCompiler
