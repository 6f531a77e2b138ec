/-!
# Operations in a row

An operation that may fail is followed by another one only if it succeeds.
-/

set_option autoImplicit false

namespace Slidecast

/-- Two operations in a row succeed exactly if the first does, and the second on what it gives. -/
theorem bind_eq_ok {ε α β : Type} {first : Except ε α} {second : α → Except ε β} {b : β} :
    (first >>= second) = .ok b ↔ ∃ a, first = .ok a ∧ second a = .ok b := by
  cases first with
  | error e =>
      constructor
      · intro failed
        cases failed
      · rintro ⟨_, failed, _⟩
        cases failed
  | ok a =>
      constructor
      · intro succeeded
        exact ⟨a, rfl, succeeded⟩
      · rintro ⟨_, same, succeeded⟩
        cases same
        exact succeeded

theorem toOption_eq_some_iff {ε α : Type} {result : Except ε α} {a : α} :
    result.toOption = some a ↔ result = .ok a := by
  cases result with
  | error e =>
      constructor
      · intro absent
        cases absent
      · intro failed
        cases failed
  | ok b =>
      constructor
      · intro given
        cases given
        rfl
      · intro succeeded
        cases succeeded
        rfl

end Slidecast
