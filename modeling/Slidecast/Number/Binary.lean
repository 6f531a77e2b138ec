import Slidecast.Number.Format

/-!
# Binary floating numbers

A number of a binary format is a finite number with a sign, an infinity with a sign, or
"not a number".  Zero has a sign too.  `Binary.toRat` is the exact value of a finite number, and
every comparison is decided on exact values: "not a number" compares with nothing, not even
with itself, and the two zeros are equal.

Equality `=` distinguishes the two zeros; `x.equals y` is equality of values.
-/

set_option autoImplicit false

namespace Slidecast.Number

/-- A number of the format `f`. -/
inductive Binary (f : Format) where
  | nan
  | infinite (negative : Bool)
  | finite (negative : Bool) (significand : Nat) (exponent : Int)
      (canonical : f.Canonical significand exponent)
  deriving DecidableEq

/-- Numbers of 64 bits. -/
abbrev Double : Type := Binary Format.double

/-- Numbers of 32 bits. -/
abbrev Single : Type := Binary Format.single

namespace Binary

variable {f : Format}

/-- Zero with a sign. -/
def zero (negative : Bool) : Binary f :=
  .finite negative 0 f.finest f.canonical_zero

instance : Inhabited (Binary f) := ⟨zero false⟩

/-- The distance of a finite number from zero; `0` for all others. -/
def magnitude : Binary f → Rat
  | .finite _ m e _ => m * (2 : Rat) ^ e
  | _ => 0

/-- The exact value of a finite number; `0` for all others. -/
def toRat : Binary f → Rat
  | .finite negative m e _ =>
      if negative then -(m * (2 : Rat) ^ e) else m * (2 : Rat) ^ e
  | _ => 0

/-- The sign that is written in front of a number. -/
def isNegative : Binary f → Bool
  | .nan => false
  | .infinite negative => negative
  | .finite negative _ _ _ => negative

/-- Neither an infinity nor "not a number". -/
def isFinite : Binary f → Bool
  | .finite _ _ _ _ => true
  | _ => false

def isNaN : Binary f → Bool
  | .nan => true
  | _ => false

/-- Either of the two zeros. -/
def isZero : Binary f → Bool
  | .finite _ m _ _ => m == 0
  | _ => false

/-- The same number with the other sign. -/
def negate : Binary f → Binary f
  | .nan => .nan
  | .infinite negative => .infinite !negative
  | .finite negative m e h => .finite (!negative) m e h

instance : Neg (Binary f) := ⟨negate⟩

/-! ## Comparison -/

/-- How two numbers compare by value, if they compare at all. -/
def compare? : Binary f → Binary f → Option Ordering
  | .nan, _ => none
  | _, .nan => none
  | .infinite a, .infinite b =>
      some (if a = b then .eq else if a then .lt else .gt)
  | .infinite a, .finite _ _ _ _ => some (if a then .lt else .gt)
  | .finite _ _ _ _, .infinite b => some (if b then .gt else .lt)
  | x@(.finite _ _ _ _), y@(.finite _ _ _ _) =>
      some (if x.toRat < y.toRat then .lt else if y.toRat < x.toRat then .gt else .eq)

/-- The value of `x` is below the value of `y`. -/
def below (x y : Binary f) : Bool := compare? x y == some .lt

/-- The values of `x` and `y` are equal. -/
def equals (x y : Binary f) : Bool := compare? x y == some .eq

/-- The value of `x` is at most the value of `y`. -/
def atMost (x y : Binary f) : Bool := x.below y || x.equals y

instance : LT (Binary f) := ⟨fun x y => x.below y = true⟩
instance : LE (Binary f) := ⟨fun x y => x.atMost y = true⟩

instance (x y : Binary f) : Decidable (x < y) := inferInstanceAs (Decidable (x.below y = true))
instance (x y : Binary f) : Decidable (x ≤ y) := inferInstanceAs (Decidable (x.atMost y = true))

/-- The order in which numbers are sorted: by value, and the negative zero before the other. -/
def sortsBefore (x y : Binary f) : Bool :=
  x.below y || (x.equals y && (x.isNegative || !y.isNegative))

/-- The larger of two numbers.  "Not a number" gives way, and of two zeros the positive one is
the larger. -/
def larger (x y : Binary f) : Binary f :=
  if x.isNaN then y
  else if y.isNaN then x
  else if x.sortsBefore y then y else x

/-- The smaller of two numbers.  "Not a number" gives way, and of two zeros the negative one is
the smaller. -/
def smaller (x y : Binary f) : Binary f :=
  if x.isNaN then y
  else if y.isNaN then x
  else if x.sortsBefore y then x else y

/-- Keeps a number between two bounds.  A number that equals a bound keeps its own sign. -/
def clamp (x low high : Binary f) : Binary f :=
  if x < low then low else if high < x then high else x

end Binary

end Slidecast.Number
