import Slidecast.Files.Raster
import Slidecast.Text.HexDigit

/-!
# Colours in hexadecimal

A colour is written as three pairs of hexadecimal digits, in upper or lower case, behind any
number of hash signs.  In a pair, a plus sign may stand in place of the first digit; it counts as
a zero.
-/

set_option autoImplicit false

namespace Slidecast

open Files

/-- The value of a pair of digits. -/
def hexPair? (high low : Char) : Option Nat :=
  if high = '+' then Text.hexValue? low
  else do pure (16 * (← Text.hexValue? high) + (← Text.hexValue? low))

/-- The colour that a text describes. -/
def hexColour? (text : String) : Option Colour :=
  match text.toList.dropWhile (· = '#') with
  | [r, r', g, g', b, b'] => do pure ⟨← hexPair? r r', ← hexPair? g g', ← hexPair? b b'⟩
  | _ => none

end Slidecast
