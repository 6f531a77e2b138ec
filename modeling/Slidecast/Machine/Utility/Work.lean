import Slidecast.Machine.Program

/-!
# The work of a utility

A utility takes options and other arguments, reads files or its input, writes, complains, and goes
on as far as it can.  `Work` is how far it has come; at the end it is summed up as the outcome of a
program.
-/

set_option autoImplicit false

namespace Slidecast.Machine

open Files

/-- How far a utility has come. -/
structure Work where
  name : Bytes
  disk : Disk
  input : Supply
  hasRead : Bool := false
  /-- What has been written, last piece first. -/
  written : List (Output × Bytes) := []
  cycle : Bytes := []
  endless : Bool := false
  status : Nat := 0
  elapsed : Nat := 0

namespace Work

/-- The work of a utility that has just been started. -/
def begin (start : Start) (disk : Disk) : Work :=
  { name := start.name, disk, input := start.input }

/-- What a utility has done in the end. -/
def finish (w : Work) : Outcome × Disk :=
  ({ written := w.written.reverse, cycle := w.cycle, left := if w.hasRead then some w.input else none,
     elapsed := w.elapsed, endless := w.endless, ending := .exited w.status }, w.disk)

/-- Writes to the output. -/
def out (w : Work) (bytes : Bytes) : Work := { w with written := (.out, bytes) :: w.written }

/-- Writes all of a supply to the output. -/
def outSupply (w : Work) (supply : Supply) : Work :=
  { w.out supply.bytes with cycle := supply.cycle, endless := w.endless || supply.isEndless }

/-- Writes a message behind the name of the utility. -/
def note (w : Work) (words : Bytes) : Work :=
  { w with written := (.err, w.name ++ ": ".toList ++ words ++ ['\n']) :: w.written }

/-- Complains, and goes on with a status. -/
def fail (w : Work) (words : Bytes) (status : Nat) : Work :=
  { w.note words with status }

/-- Complains about how the utility was called. -/
def misuse (w : Work) (words : Bytes) (status : Nat) : Work :=
  let hint := "Try '".toList ++ w.name ++ " --help' for more information.\n".toList
  let w := w.note words
  { w with written := (.err, hint) :: w.written, status }

/-- Reads all of the input. -/
def readInput (w : Work) : Supply × Work :=
  (w.input, { w with input := {}, hasRead := true })

/-- Whether an argument stands for the input. -/
def isInput (argument : Bytes) : Bool :=
  argument = ['-'] || argument = "/dev/stdin".toList || argument = "/dev/fd/0".toList

/-- Reads the file that an argument names. -/
def readFile (w : Work) (argument : Bytes) : Except Fault Supply × Work :=
  if isInput argument then
    let (supply, w) := w.readInput
    (.ok supply, w)
  else (fileSupply w.disk (pathOf argument), w)

/-- Reads files one after the other, or the input if there are none; each one that cannot be read
is complained about. -/
def readAll (w : Work) (files : List Bytes) (complaint : Bytes → Fault → Bytes) (status : Nat) :
    Supply × Work :=
  if files.isEmpty then w.readInput
  else
    files.foldl
      (fun (whole, w) file =>
        match w.readFile file with
        | (.ok supply, w) => (whole.append supply, w)
        | (.error fault, w) => (whole, w.fail (complaint file fault) status))
      (({} : Supply), w)

end Work

/-- A complaint that names a file and a fault. -/
def aboutFile (file : Bytes) (fault : Fault) : Bytes :=
  file ++ ": ".toList ++ (faultWords fault).toList

/-- A text between quotation marks. -/
def inMarks (text : Bytes) : Bytes := '\'' :: text ++ ['\'']

/-! ## Options -/

/-- Options with their values, and the other arguments. -/
structure Given where
  options : List (Char × Bytes) := []
  others : List Bytes := []

namespace Given

/-- Whether an option was given. -/
def has (g : Given) (letter : Char) : Bool := (g.options.lookup letter).isSome

/-- The value of the last option with a letter. -/
def value? (g : Given) (letter : Char) : Option Bytes := g.options.reverse.lookup letter

end Given

/-- Which letters are options, and whether they have values. -/
abbrev Letters : Type := List (Char × Bool)

/-- The letters of a text; a colon stands behind those with values. -/
def lettersOf (spelled : String) : Letters :=
  let rec go : List Char → Letters
    | [] => []
    | c :: ':' :: rest => (c, true) :: go rest
    | c :: rest => (c, false) :: go rest
  go spelled.toList

/-- What is wrong with an option. -/
inductive OptionFault where
  | unknown (letter : Char)
  | unknownWord (word : Bytes)
  | noValue (letter : Char)

/-- How a fault of an option is worded. -/
def OptionFault.words : OptionFault → Bytes
  | .unknown letter => "invalid option -- '".toList ++ [letter, '\'']
  | .unknownWord word => "unrecognized option '".toList ++ word ++ ['\'']
  | .noValue letter => "option requires an argument -- '".toList ++ [letter, '\'']

/-- The options in a row of letters, and whether the last one lacks its value. -/
def optionsIn (letters : Letters) : Bytes → Except OptionFault (List (Char × Bytes) × Option Char)
  | [] => .ok ([], none)
  | c :: cs =>
      match letters.lookup c with
      | none => .error (.unknown c)
      | some false => do
          let (others, open_) ← optionsIn letters cs
          .ok ((c, []) :: others, open_)
      | some true => if cs.isEmpty then .ok ([], some c) else .ok ([(c, cs)], none)

/-- Takes options from arguments, among which they may stand anywhere unless `front` is set. -/
def takeGiven (letters : Letters) (front : Bool) : List Bytes → Except OptionFault Given
  | [] => .ok {}
  | a :: rest =>
      match a with
      | ['-', '-'] => .ok { others := rest }
      | '-' :: '-' :: _ => .error (.unknownWord a)
      | '-' :: c :: cs => do
          let (found, open_) ← optionsIn letters (c :: cs)
          match open_, rest with
          | none, rest => do
              let g ← takeGiven letters front rest
              .ok { g with options := found ++ g.options }
          | some letter, value :: rest => do
              let g ← takeGiven letters front rest
              .ok { g with options := found ++ (letter, value) :: g.options }
          | some letter, [] => .error (.noValue letter)
      | a => do
          if front then .ok { others := a :: rest }
          else
            let g ← takeGiven letters front rest
            .ok { g with others := a :: g.others }

/-- A utility with options. -/
def utility (letters : String) (misused : Nat) (front : Bool) (work : Given → Work → Work) :
    Program := fun start disk =>
  let w := Work.begin start disk
  match takeGiven (lettersOf letters) front start.arguments with
  | .error fault => (w.misuse fault.words misused).finish
  | .ok given => (work given w).finish

end Slidecast.Machine
