import Slidecast.Machine.Bytes

/-!
# What scripts are made of

A script is a row of commands.  A simple command is a row of words with redirections; commands are
joined by signs and by words that the shell keeps for itself.  A word is kept as it is spelled,
since what it stands for is known only when it is used: it is a row of parts, each of them a
character or something that is replaced by a value.
-/

set_option autoImplicit false

namespace Slidecast.Machine.Shell

/-- What is done when a parameter has no value. -/
inductive Resort where
  /-- The word stands for it. -/
  | replace
  /-- The word is given to it. -/
  | assign
  /-- The word is the message of a failure. -/
  | fail
  /-- The word stands for a parameter that has a value. -/
  | invert
  deriving DecidableEq

/-- What a redirection does. -/
inductive Direction where
  | read
  | write
  /-- Writes over a file in any case. -/
  | overwrite
  | append
  | readWrite
  /-- Makes a stream the same as another one. -/
  | copy
  /-- The input is a text from the script. -/
  | document
  deriving DecidableEq

mutual
/-- A part of a word. -/
inductive Part where
  | char (c : Char) (quoted : Bool)
  /-- The beginning of a quoted text, which may be empty. -/
  | quote
  /-- The value of a parameter. -/
  | parameter (name : Bytes) (usage : Usage) (quoted : Bool)
  /-- What a script writes. -/
  | output (script : List Command) (quoted : Bool)
  /-- The value of an expression. -/
  | arithmetic (expression : List Part) (quoted : Bool)

/-- How the value of a parameter is used. -/
inductive Usage where
  | value
  | length
  | resort (resort : Resort) (evenIfEmpty : Bool) (word : List Part)
  | trim (atEnd : Bool) (longest : Bool) (pattern : List Part)
  /-- A spelling that has no meaning. -/
  | bad

/-- A command. -/
inductive Command where
  | simple (line : Nat) (words : List (List Part)) (redirections : List Redirection)
  | pipeline (commands : List Command)
  | negation (command : Command)
  | conjunction (first second : Command)
  | disjunction (first second : Command)
  | background (command : Command)
  | group (body : List Command)
  | subshell (body : List Command)
  | branch (test yes no : List Command)
  /-- Repeats the body as long as the test has the wanted outcome. -/
  | loop (wanted : Bool) (test body : List Command)
  | each (line : Nat) (name : Bytes) (words : List (List Part)) (body : List Command)
  | choice (line : Nat) (subject : List Part) (cases : List Case)
  | definition (name : Bytes) (body : Command)
  | redirected (line : Nat) (command : Command) (redirections : List Redirection)

/-- Where a stream of a command goes or comes from. -/
inductive Redirection where
  | to (stream : Nat) (direction : Direction) (target : List Part)

/-- Commands for a subject that fits a pattern. -/
inductive Case where
  | fits (patterns : List (List Part)) (body : List Command)
end

/-- A word as it is spelled. -/
abbrev Word : Type := List Part

instance : Inhabited Command := ⟨.group []⟩

/-- The character of a part that is not quoted. -/
def Part.plain? : Part → Option Char
  | .char c false => some c
  | _ => none

/-- The spelling of a word that is all plain characters. -/
def plainWord? (w : Word) : Option Bytes := w.mapM Part.plain?

/-- The characters of a word with their quotation taken away, as far as they are characters. -/
def spelledWord (w : Word) : Bytes :=
  w.filterMap fun
    | .char c _ => some c
    | _ => none

/-! ## Names -/

/-- A character with which a name may begin. -/
def isNameStart (c : Char) : Bool := c.isAlpha || c = '_'

/-- A character of a name. -/
def isNameChar (c : Char) : Bool := c.isAlphanum || c = '_'

/-- Whether a row of characters is a name. -/
def isName : Bytes → Bool
  | [] => false
  | c :: cs => isNameStart c && cs.all isNameChar

/-- A parameter that is named by a sign. -/
def isSpecial (c : Char) : Bool := "@*#?-$!0".toList.contains c

/-- The name and the value, if a word is an assignment. -/
def assignment? (w : Word) : Option (Bytes × Word) :=
  let front := (w.takeWhile fun part =>
    match part.plain? with
    | some c => isNameChar c
    | none => false)
  let name := spelledWord front
  match w.drop front.length with
  | .char '=' false :: value => if isName name then some (name, value) else none
  | _ => none

end Slidecast.Machine.Shell
