import Slidecast.Machine.Bytes

/-!
# Escapes

Behind a backslash some characters stand for others: letters for control characters, digits for the
byte with that number in base eight.  In a template three digits are read; in an argument, a zero
may stand in front of them, and a `c` ends the text.  A backslash in front of anything else stands
for itself.
-/

set_option autoImplicit false

namespace Slidecast.Machine

/-- Where escapes stand. -/
inductive EscapePlace where
  | template
  | argument
  deriving DecidableEq

/-- The letters that stand for control characters, with the numbers of these. -/
def escapeLetters : List (Char × Nat) :=
  [ ('a', 7), ('b', 8), ('e', 27), ('f', 12), ('n', 10), ('r', 13), ('t', 9), ('v', 11),
    ('\\', 92) ]

/-- A digit of base eight. -/
def isOctal (c : Char) : Bool := '0' ≤ c && c ≤ '7'

/-- The byte with a number in base eight; higher numbers begin again at zero. -/
def octalByte (digits : Bytes) : Char :=
  Char.ofNat (digits.foldl (fun n c => 8 * n + (c.toNat - 48)) 0 % 256)

/-- What stands behind a backslash: the character that is meant, if there is one, and what
follows. -/
def escapeBehind (place : EscapePlace) (cs : Bytes) : Option Char × Bytes :=
  match cs with
  | [] => (none, [])
  | c :: rest =>
      match escapeLetters.lookup c with
      | some n => (some (Char.ofNat n), rest)
      | none =>
          if isOctal c then
            let cs := if place = .argument ∧ c = '0' then rest else cs
            let digits := (cs.take 3).takeWhile isOctal
            (some (octalByte digits), cs.drop digits.length)
          else (none, cs)

/-- The bytes of a text with escapes up to its end or to an escape that ends it, with the bytes
before it, last one first; and whether such an escape was met.  A number bounds the length. -/
def unescapeFrom : Nat → Bytes → Bytes → Bytes × Bool
  | 0, _, before => (before.reverse, false)
  | _, [], before => (before.reverse, false)
  | more + 1, '\\' :: 'c' :: rest, before => let _ := (more, rest); (before.reverse, true)
  | more + 1, '\\' :: rest, before =>
      match escapeBehind .argument rest with
      | (some c, rest) => unescapeFrom more rest (c :: before)
      | (none, rest) => unescapeFrom more rest ('\\' :: before)
  | more + 1, c :: rest, before => unescapeFrom more rest (c :: before)

/-- The bytes that an argument with escapes stands for, and whether an escape ends it. -/
def unescape (text : Bytes) : Bytes × Bool := unescapeFrom text.length text []

end Slidecast.Machine
