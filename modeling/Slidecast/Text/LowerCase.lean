import Slidecast.Text.CaseTable
import Slidecast.Text.CaseContext

/-!
# Lower case

The lower case of a text is formed letter by letter, with two exceptions.  `İ` becomes `i` and a
combining dot.  `Σ` becomes the final form `ς` at the end of a word: a cased letter comes before
it and none comes after it, where marks inside the word are looked through on both sides.
-/

set_option autoImplicit false

namespace Slidecast.Text

/-- Whether the next character that is not looked through is cased. -/
def reachesCased (cs : List Char) : Bool :=
  match cs.dropWhile isLookedThrough with
  | c :: _ => isCased c
  | [] => false

/-- The lower case of one character, between the characters before it, nearest first, and the
characters after it. -/
def lowerAt (before : List Char) (c : Char) (after : List Char) : List Char :=
  if c = 'Σ' then
    [if reachesCased before && !reachesCased after then 'ς' else 'σ']
  else if c = 'İ' then ['i', '\u0307']
  else [lowerLetter c]

/-- The lower case of a row of characters that follows `before`, nearest first. -/
def lowerChars : List Char → List Char → List Char
  | _, [] => []
  | before, c :: after => lowerAt before c after ++ lowerChars (c :: before) after

/-- The lower case of a text. -/
def lower (text : String) : String := String.ofList (lowerChars [] text.toList)

end Slidecast.Text
