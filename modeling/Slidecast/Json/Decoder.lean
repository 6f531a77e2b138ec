import Slidecast.Json.Numeral
import Slidecast.Json.Quoted

/-!
# Decoders

A decoder reads a value of a known shape from the front of a text and gives the value and the
rest.  It reads once from left to right, so the first problem decides the fault: a value of
another shape is read far enough to tell whether it is JSON at all.

Values that nobody asked for are passed over with a stack of open brackets, so they may be
nested to any depth.
-/

set_option autoImplicit false

namespace Slidecast.Json

open Slidecast.Number

/-- Reads a value from the front of a text. -/
abbrev Decoder (α : Type) : Type := List Char → Except Fault (α × List Char)

/-- The blanks between the parts of a text. -/
def isSpace (c : Char) : Bool := c = ' ' || c = '\n' || c = '\t' || c = '\r'

/-- The text behind the blanks in front of it. -/
def skipSpace (cs : List Char) : List Char := cs.dropWhile isSpace

/-- Passes over the given word. -/
def expectWord : List Char → List Char → Except Fault (List Char)
  | [], rest => .ok rest
  | _ :: _, [] => .error .endOfText
  | w :: word, c :: cs => if w = c then expectWord word cs else .error .malformed

/-- Passes over one sign, behind blanks. -/
def expectSign (sign : Char) (cs : List Char) : Except Fault (List Char) :=
  match skipSpace cs with
  | [] => .error .endOfText
  | c :: rest => if c = sign then .ok rest else .error .malformed

/-- The fault of a text in front of which stands a value of another shape. -/
def otherShape (cs : List Char) : Fault :=
  let faultOf {α : Type} : Except Fault α → Fault
    | .ok _ => .mismatch
    | .error fault => fault
  match cs with
  | [] => .endOfText
  | 'n' :: rest => faultOf (expectWord "ull".toList rest)
  | 't' :: rest => faultOf (expectWord "rue".toList rest)
  | 'f' :: rest => faultOf (expectWord "alse".toList rest)
  | '-' :: rest => faultOf (numeral true rest)
  | '"' :: rest => faultOf (unquote rest)
  | '[' :: _ | '{' :: _ => .mismatch
  | c :: _ => if c.isDigit then faultOf (numeral false cs) else .malformed

/-! ## Values that are passed over -/

/-- An open bracket. -/
inductive Bracket where
  | list
  | object
  deriving DecidableEq

/-- Passes over the name of a field and its colon. -/
def skipName (cs : List Char) : Except Fault (List Char) :=
  match skipSpace cs with
  | [] => .error .endOfText
  | '"' :: rest => do expectSign ':' (← skipQuoted rest)
  | _ => .error .malformed

/-- Passes over a value that opens no bracket. -/
def skipScalar (cs : List Char) : Except Fault (List Char) :=
  match cs with
  | [] => .error .endOfText
  | 'n' :: rest => expectWord "ull".toList rest
  | 't' :: rest => expectWord "rue".toList rest
  | 'f' :: rest => expectWord "alse".toList rest
  | '-' :: rest => skipNumeral rest
  | '"' :: rest => skipQuoted rest
  | c :: _ => if c.isDigit then skipNumeral cs else .error .malformed

/-- What is passed over next. -/
inductive Awaits where
  | value
  | separator

/-- Passes over what is left of a value inside open brackets, innermost first.  The number
bounds how many values and brackets are passed. -/
def skipWithin : Nat → Awaits → List Bracket → List Char → Except Fault (List Char)
  | 0, _, _, _ => .error .endOfText
  | fuel + 1, .value, open_, cs =>
      match skipSpace cs with
      | '[' :: rest =>
          match skipSpace rest with
          | ']' :: rest => skipWithin fuel .separator open_ rest
          | [] => .error .endOfText
          | rest => skipWithin fuel .value (.list :: open_) rest
      | '{' :: rest =>
          match skipSpace rest with
          | '}' :: rest => skipWithin fuel .separator open_ rest
          | rest => do skipWithin fuel .value (.object :: open_) (← skipName rest)
      | rest => do skipWithin fuel .separator open_ (← skipScalar rest)
  | _ + 1, .separator, [], cs => .ok cs
  | fuel + 1, .separator, bracket :: open_, cs =>
      match skipSpace cs, bracket with
      | [], _ => .error .endOfText
      | ',' :: rest, .list => skipWithin fuel .value (.list :: open_) rest
      | ',' :: rest, .object => do
          skipWithin fuel .value (.object :: open_) (← skipName rest)
      | ']' :: rest, .list => skipWithin fuel .separator open_ rest
      | '}' :: rest, .object => skipWithin fuel .separator open_ rest
      | _, _ => .error .malformed

/-- Passes over one value of any shape. -/
def skipValue (cs : List Char) : Except Fault (List Char) :=
  skipWithin (2 * cs.length + 2) .value [] cs

/-! ## Single values -/

/-- Gives the decoded value to a function that may refuse it. -/
def Decoder.refine {α β : Type} (d : Decoder α) (f : α → Except Fault β) : Decoder β :=
  fun cs => do
    let (a, rest) ← d cs
    .ok (← f a, rest)

/-- Changes the decoded value. -/
def Decoder.map {α β : Type} (d : Decoder α) (f : α → β) : Decoder β :=
  d.refine fun a => .ok (f a)

/-- A string. -/
def string : Decoder String := fun cs =>
  match skipSpace cs with
  | '"' :: rest => unquote rest
  | rest => .error (otherShape rest)

/-- A number as it is written. -/
def number : Decoder Numeral := fun cs =>
  match skipSpace cs with
  | '-' :: rest => numeral true rest
  | rest => if startsWithDigit rest then numeral false rest else .error (otherShape rest)

/-- A whole number from `0` to a limit. -/
def natural (limit : Nat) : Decoder Nat := number.refine fun
  | .natural n => if n ≤ limit then .ok n else .error .mismatch
  | _ => .error .mismatch

/-- A whole number of so many bits. -/
def word (bits : Nat) : Decoder Nat := natural (largest bits)

/-- A number of 64 bits. -/
def double : Decoder Double := number.map fun
  | .natural n => Binary.ofNat n
  | .negative n => -(Binary.ofNat n)
  | .real x => x

/-- A number of 32 bits. -/
def single : Decoder Single := number.map fun
  | .natural n => Binary.ofNat n
  | .negative n => -(Binary.ofNat n)
  | .real x => x.convert

/-- A truth value. -/
def boolean : Decoder Bool := fun cs =>
  match skipSpace cs with
  | 't' :: rest => do .ok (true, ← expectWord "rue".toList rest)
  | 'f' :: rest => do .ok (false, ← expectWord "alse".toList rest)
  | rest => .error (otherShape rest)

/-- A value that may be `null`. -/
def optional {α : Type} (d : Decoder α) : Decoder (Option α) := fun cs =>
  match skipSpace cs with
  | 'n' :: rest => do .ok (none, ← expectWord "ull".toList rest)
  | _ => d.map some cs

/-! ## Lists -/

/-- Looks for the next element of a list: the text in front of it, or nothing at the closing
bracket, which is not passed. -/
def nextElement (first : Bool) (cs : List Char) : Except Fault (Option (List Char)) :=
  match skipSpace cs with
  | [] => .error .endOfText
  | ']' :: _ => .ok none
  | c :: rest =>
      if first then .ok (some (c :: rest))
      else if c = ',' then
        match skipSpace rest with
        | [] => .error .endOfText
        | ']' :: _ => .error .malformed
        | rest => .ok (some rest)
      else .error .malformed

/-- Reads elements up to the closing bracket, at most as many as the number says. -/
def elements {α : Type} (d : Decoder α) : Nat → Bool → Decoder (List α)
  | 0, _, _ => .error .endOfText
  | fuel + 1, first, cs => do
      match ← nextElement first cs with
      | none => do .ok ([], ← expectSign ']' cs)
      | some cs =>
          let (a, rest) ← d cs
          let (as, rest) ← elements d fuel false rest
          .ok (a :: as, rest)

/-- A list. -/
def list {α : Type} (d : Decoder α) : Decoder (List α) := fun cs =>
  match skipSpace cs with
  | '[' :: rest => elements d (rest.length + 1) true rest
  | rest => .error (otherShape rest)

/-- Reads a fixed number of elements up to the closing bracket. -/
def exactly {α : Type} (d : Decoder α) : Nat → Bool → Decoder (List α)
  | 0, _, cs => do .ok ([], ← expectSign ']' cs)
  | count + 1, first, cs => do
      match ← nextElement first cs with
      | none => .error .mismatch
      | some cs =>
          let (a, rest) ← d cs
          let (as, rest) ← exactly d count false rest
          .ok (a :: as, rest)

/-- A list of a fixed length. -/
def listOf {α : Type} (count : Nat) (d : Decoder α) : Decoder (List α) := fun cs =>
  match skipSpace cs with
  | '[' :: rest => exactly d count true rest
  | rest => .error (otherShape rest)

/-! ## Whole texts -/

/-- Reads a text that holds one value and nothing else but blanks. -/
def decode {α : Type} (d : Decoder α) (text : String) : Except Fault α := do
  let (a, rest) ← d text.toList
  match skipSpace rest with
  | [] => .ok a
  | _ => .error .malformed

end Slidecast.Json
