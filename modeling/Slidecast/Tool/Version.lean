import Slidecast.Text.DecimalDigit

/-!
# Versions of media tools

A tool says its version behind its name and the word `version`, possibly behind an `n`.  The
version is a row of decimal digits of any script, with at most two further rows behind dots.  The
first place of a text where a version is found counts.
-/

set_option autoImplicit false

namespace Slidecast

/-- The text behind a word, if the word stands in front. -/
def behindWord? (word cs : List Char) : Option (List Char) :=
  if word.isPrefixOf cs then some (cs.drop word.length) else none

/-- Whether a decimal digit stands in front. -/
def startsWithDecimal : List Char → Bool
  | c :: _ => Text.isDecimalDigit c
  | [] => false

/-- The rows of digits in front of a text, at most the given number of them behind dots. -/
def versionRows : Nat → List Char → List Char
  | 0, cs => cs.takeWhile Text.isDecimalDigit
  | more + 1, cs =>
      let digits := cs.takeWhile Text.isDecimalDigit
      match cs.dropWhile Text.isDecimalDigit with
      | '.' :: rest =>
          if startsWithDecimal rest then digits ++ '.' :: versionRows more rest else digits
      | _ => digits

/-- The version that a tool says at the front of a text. -/
def versionInFront? (cs : List Char) : Option (List Char) := do
  let rest ← behindWord? "ffmpeg version ".toList cs <|> behindWord? "ffprobe version ".toList cs
  let rest :=
    match rest with
    | 'n' :: rest => rest
    | rest => rest
  if startsWithDecimal rest then some (versionRows 2 rest) else none

/-- The first version in a row of characters. -/
def firstVersion? : List Char → Option (List Char)
  | [] => none
  | c :: cs =>
      match versionInFront? (c :: cs) with
      | some version => some version
      | none => firstVersion? cs

/-- The first version in a text. -/
def version? (text : String) : Option String := (firstVersion? text.toList).map String.ofList

end Slidecast
