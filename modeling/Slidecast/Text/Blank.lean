/-!
# Blank characters and trimming

Blank characters are the spaces, tabs, line ends and separators of all scripts.  Trimming takes
characters of a class from both ends of a text and leaves its inside alone.
-/

set_option autoImplicit false

namespace Slidecast.Text

/-- Spaces, tabs, line ends and separators. -/
def isBlank (c : Char) : Bool :=
  let n := c.toNat
  (0x09 ≤ n && n ≤ 0x0D) || n == 0x20 || n == 0x85 || n == 0xA0 || n == 0x1680 ||
    (0x2000 ≤ n && n ≤ 0x200A) || n == 0x2028 || n == 0x2029 || n == 0x202F ||
    n == 0x205F || n == 0x3000

/-- Every blank of the ASCII characters that the core library knows is a blank. -/
theorem isBlank_of_isWhitespace {c : Char} (h : c.isWhitespace = true) : isBlank c = true := by
  simp only [Char.isWhitespace, Bool.or_eq_true, decide_eq_true_eq] at h
  rcases h with ((rfl | rfl) | rfl) | rfl <;> rfl

/-- Takes the characters of a class from both ends. -/
def trimChars (drop : Char → Bool) (cs : List Char) : List Char :=
  ((cs.dropWhile drop).reverse.dropWhile drop).reverse

/-- Takes the characters of a class from both ends of a text. -/
def trimWhere (drop : Char → Bool) (text : String) : String :=
  String.ofList (trimChars drop text.toList)

/-- Takes the blanks from both ends of a text. -/
def trim (text : String) : String := trimWhere isBlank text

/-- Whether a text holds nothing but blanks; the empty text does. -/
def isBlankText (text : String) : Bool := text.toList.all isBlank

end Slidecast.Text
