/-!
# Numbers of so many bits
-/

set_option autoImplicit false

namespace Slidecast.Number

/-- How many numbers there are of so many bits. -/
def twoTo (bits : Nat) : Nat := Nat.pow 2 bits

/-- How many numbers there are of so many decimal digits. -/
def tenTo (digits : Nat) : Nat := Nat.pow 10 digits

/-- The largest number of so many bits. -/
def largest (bits : Nat) : Nat := twoTo bits - 1

end Slidecast.Number
