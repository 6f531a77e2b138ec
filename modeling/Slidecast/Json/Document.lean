import Slidecast.Json.Quoted
import Slidecast.Number.Notation

/-!
# JSON documents and how they are written

A document is written on one line, or with one element to a line and two spaces for each level.
Numbers have their shortest digits, of two equally near decimals the even one, and `.0` after a
whole number.  The point stands in its place as long as the first digit has an exponent from -5
to 15, for numbers of 32 bits from -6 to 12.  What is not a finite number is `null`.
-/

set_option autoImplicit false

namespace Slidecast.Json

open Slidecast.Number

/-- What a JSON text describes. -/
inductive Document where
  | null
  | boolean (value : Bool)
  | natural (n : Nat)
  | double (x : Double)
  | single (x : Single)
  | string (text : String)
  | list (elements : List Document)
  | object (members : List (String × Document))

/-- How numbers of 64 bits are written. -/
def doubleNotation : Notation where
  tie := .toEven
  positional e := -5 ≤ e && e ≤ 15
  wholeSuffix := ".0"

/-- How numbers of 32 bits are written. -/
def singleNotation : Notation where
  tie := .toEven
  positional e := -6 ≤ e && e ≤ 12
  wholeSuffix := ".0"

/-- The text of a number with an exponent that is negative or has a plus sign. -/
def numberText {f : Format} (style : Notation) (x : Binary f) : List Char :=
  if x.isFinite then (x.write style).toList else "null".toList

namespace Document

/-- Puts a separator between texts. -/
def separated (separator : List Char) : List (List Char) → List Char
  | [] => []
  | [text] => text
  | text :: texts => text ++ separator ++ separated separator texts

mutual
/-- A document on one line. -/
def compactChars : Document → List Char
  | .null => "null".toList
  | .boolean value => (if value then "true" else "false").toList
  | .natural n => (toString n).toList
  | .double x => numberText doubleNotation x
  | .single x => numberText singleNotation x
  | .string text => quote text
  | .list elements => '[' :: separated [','] (compactElements elements) ++ [']']
  | .object members => '{' :: separated [','] (compactMembers members) ++ ['}']

def compactElements : List Document → List (List Char)
  | [] => []
  | element :: elements => compactChars element :: compactElements elements

def compactMembers : List (String × Document) → List (List Char)
  | [] => []
  | (name, value) :: members => (quote name ++ ':' :: compactChars value) :: compactMembers members
end

/-- The beginning of a line at a level. -/
def indent (level : Nat) : List Char := '\n' :: List.replicate (2 * level) ' '

mutual
/-- A document with one element to a line, at a level. -/
def prettyChars (level : Nat) : Document → List Char
  | .null => "null".toList
  | .boolean value => (if value then "true" else "false").toList
  | .natural n => (toString n).toList
  | .double x => numberText doubleNotation x
  | .single x => numberText singleNotation x
  | .string text => quote text
  | .list [] => ['[', ']']
  | .list elements =>
      '[' :: indent (level + 1) ++
        separated (',' :: indent (level + 1)) (prettyElements (level + 1) elements) ++
        indent level ++ [']']
  | .object [] => ['{', '}']
  | .object members =>
      '{' :: indent (level + 1) ++
        separated (',' :: indent (level + 1)) (prettyMembers (level + 1) members) ++
        indent level ++ ['}']

def prettyElements (level : Nat) : List Document → List (List Char)
  | [] => []
  | element :: elements => prettyChars level element :: prettyElements level elements

def prettyMembers (level : Nat) : List (String × Document) → List (List Char)
  | [] => []
  | (name, value) :: members =>
      (quote name ++ ':' :: ' ' :: prettyChars level value) :: prettyMembers level members
end

/-- The text of a document on one line. -/
def compact (d : Document) : String := String.ofList d.compactChars

/-- The text of a document with one element to a line. -/
def pretty (d : Document) : String := String.ofList (d.prettyChars 0)

end Document

end Slidecast.Json
