import Slidecast.Number.Bits

/-!
# Binary floating formats

A format is a precision in bits and the exponents of its finest and of its coarsest step.  A
nonnegative finite number of the format is a significand times a power of two, and every such
number has exactly one canonical pair: the significand has full precision, unless the number
is so small that the finest step is in force.

The two formats of the library are `Format.double`, in which times are kept, and
`Format.single`, in which volumes and progress are kept.
-/

set_option autoImplicit false

namespace Slidecast.Number

/-- A binary format: how many bits a significand has, and the exponents of the finest and of
the coarsest step between neighbours. -/
structure Format where
  precision : Nat
  finest : Int
  coarsest : Int
  precision_pos : 0 < precision := by decide
  finest_le_coarsest : finest ≤ coarsest := by decide
  deriving DecidableEq

namespace Format

/-- The format of 64 bits: 53 of them significant, steps from `2 ^ -1074` to `2 ^ 971`. -/
def double : Format where
  precision := 53
  finest := -1074
  coarsest := 971

/-- The format of 32 bits: 24 of them significant, steps from `2 ^ -149` to `2 ^ 104`. -/
def single : Format where
  precision := 24
  finest := -149
  coarsest := 104

/-- The pair of significand and exponent that stands for a number: full precision, or the
finest step. -/
def Canonical (f : Format) (significand : Nat) (exponent : Int) : Prop :=
  significand < twoTo f.precision ∧ f.finest ≤ exponent ∧ exponent ≤ f.coarsest ∧
    (twoTo (f.precision - 1) ≤ significand ∨ exponent = f.finest)

instance (f : Format) (m : Nat) (e : Int) : Decidable (f.Canonical m e) := by
  unfold Canonical
  infer_instance

/-- Zero is written with the finest step. -/
theorem canonical_zero (f : Format) : f.Canonical 0 f.finest :=
  ⟨Nat.two_pow_pos _, Int.le_refl _, f.finest_le_coarsest, Or.inr rfl⟩

end Format

end Slidecast.Number
