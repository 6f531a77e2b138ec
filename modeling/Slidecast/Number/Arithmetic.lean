import Slidecast.Number.Rounding

/-!
# Arithmetic of binary numbers

Each operation computes the exact result and rounds it once.  The rules for zeros, infinities
and "not a number" are those of binary arithmetic: a sum that vanishes is the positive zero
unless both terms are negative, a product or quotient has the sign of its two factors, and
`0 / 0`, `0 * ∞`, `∞ - ∞` and `∞ / ∞` are not numbers.
-/

set_option autoImplicit false

namespace Slidecast.Number.Binary

variable {f : Format}

/-- The rounded sum. -/
def add : Binary f → Binary f → Binary f
  | .nan, _ => .nan
  | _, .nan => .nan
  | .infinite a, .infinite b => if a = b then .infinite a else .nan
  | .infinite a, .finite _ _ _ _ => .infinite a
  | .finite _ _ _ _, .infinite b => .infinite b
  | x@(.finite a _ _ _), y@(.finite b _ _ _) => nearest (a && b) (x.toRat + y.toRat)

/-- The rounded difference. -/
def sub (x y : Binary f) : Binary f := add x (-y)

/-- The rounded product. -/
def mul : Binary f → Binary f → Binary f
  | .nan, _ => .nan
  | _, .nan => .nan
  | .infinite a, .infinite b => .infinite (a != b)
  | .infinite a, y@(.finite b _ _ _) => if y.isZero then .nan else .infinite (a != b)
  | x@(.finite a _ _ _), .infinite b => if x.isZero then .nan else .infinite (a != b)
  | x@(.finite a _ _ _), y@(.finite b _ _ _) => nearest (a != b) (x.toRat * y.toRat)

/-- The rounded quotient. -/
def div : Binary f → Binary f → Binary f
  | .nan, _ => .nan
  | _, .nan => .nan
  | .infinite _, .infinite _ => .nan
  | .infinite a, .finite b _ _ _ => .infinite (a != b)
  | .finite a _ _ _, .infinite b => zero (a != b)
  | x@(.finite a _ _ _), y@(.finite b _ _ _) =>
      if y.isZero then (if x.isZero then .nan else .infinite (a != b))
      else nearest (a != b) (x.toRat / y.toRat)

instance : Add (Binary f) := ⟨add⟩
instance : Sub (Binary f) := ⟨sub⟩
instance : Mul (Binary f) := ⟨mul⟩
instance : Div (Binary f) := ⟨div⟩

/-! ## Whole numbers -/

/-- The nearest whole number; a half goes away from zero, and the sign stays. -/
def round : Binary f → Binary f
  | x@(.finite negative _ _ _) => ofMagnitude negative (x.magnitude + 1 / 2).floor
  | x => x

/-- The whole part as a natural number of at most `limit`: negative numbers and "not a number"
give `0`, and what is too large gives `limit`. -/
def truncate (limit : Nat) : Binary f → Nat
  | .nan => 0
  | .infinite negative => if negative then 0 else limit
  | x@(.finite negative _ _ _) => if negative then 0 else min limit x.magnitude.floor.toNat

end Slidecast.Number.Binary
