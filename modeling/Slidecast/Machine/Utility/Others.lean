import Slidecast.Machine.Condition
import Slidecast.Machine.Utility.Work

/-!
# Other utilities

These utilities wait, ask questions, compute, or tell about the machine.
-/

set_option autoImplicit false

namespace Slidecast.Machine

open Files

/-- Ends with a status and does nothing else. -/
def ending (status : Nat) : Program := fun _ disk => ({ ending := .exited status }, disk)

/-! ## Waiting -/

/-- How many milliseconds a span of time has, unless it is endless. -/
inductive Span where
  | milliseconds (n : Nat)
  | forever

/-- The span of time that an argument spells: a number with a letter for its unit. -/
def spanOf? (text : Bytes) : Option Span :=
  match realInFront? text with
  | none => none
  | some (x, rest) =>
      let unit? : Option Nat :=
        [ ("", 1000), ("s", 1000), ("m", 60000), ("h", 3600000), ("d", 86400000) ].lookup
          (Bytes.name rest)
      match unit? with
      | none => none
      | some unit =>
          match x with
          | .nan => none
          | .infinite negative => if negative then none else some .forever
          | x =>
              if x.isNegative && !x.isZero then none
              else
                let n := (x.magnitude * (unit : Rat)).ceil.toNat
                some (if n < 4000000000000 then .milliseconds n else .forever)

/-- Waits for as long as all its arguments say together. -/
def sleep : Program := utility "" 1 false fun g w =>
  let bad := g.others.filter fun a => (spanOf? a).isNone
  if g.others.isEmpty then w.misuse "missing operand".toList 1
  else if bad.isEmpty then
    g.others.foldl
      (fun w a =>
        match spanOf? a with
        | some (.milliseconds n) => { w with elapsed := w.elapsed + n }
        | _ => { w with endless := true })
      w
  else
    let w := bad.dropLast.foldl
      (fun w a => w.note ("invalid time interval ".toList ++ inMarks a)) w
    w.misuse ("invalid time interval ".toList ++ inMarks (bad.getLast?.getD [])) 1

/-! ## Asking -/

/-- Asks whether a condition holds. -/
def testProgram (bracketed : Bool) : Program := fun start disk =>
  let arguments := start.arguments
  let closed := arguments.getLast? = some [']']
  if bracketed && !closed then
    (complain (start.name ++ ": missing ']'".toList) 2, disk)
  else
    match condition disk (if bracketed then arguments.dropLast else arguments) with
    | .ok held => ({ ending := .exited (if held then 0 else 1) }, disk)
    | .error words => (complain (start.name ++ ": ".toList ++ words) 2, disk)

/-! ## Computing -/

/-- Why an expression of `expr` has no value, and the status for it. -/
abbrev ExprFault : Type := Bytes × Nat

/-- The value of a part of an expression, and the arguments behind it. -/
abbrev ExprReading : Type := Except ExprFault (Bytes × List Bytes)

/-- The whole number that a value is. -/
def exprNumber? (value : Bytes) : Option Int :=
  match value with
  | '-' :: digits => (Bytes.nat? digits).map fun n => -(n : Int)
  | digits => (Bytes.nat? digits).map fun n => (n : Int)

/-- Whether a value counts as nothing. -/
def isNothing (value : Bytes) : Bool :=
  value.isEmpty || (exprNumber? value).any (· = 0)

/-- The signs between values, from the weakest to the strongest. -/
def exprLevels : List (List String) :=
  [["|"], ["&"], ["<", "<=", "=", "==", "!=", ">=", ">"], ["+", "-"], ["*", "/", "%"]]

/-- Joins two values by a sign. -/
def joinValues (sign : String) (a b : Bytes) : Except ExprFault Bytes :=
  let truth (held : Bool) : Except ExprFault Bytes := .ok (if held then ['1'] else ['0'])
  let compare (numbers : Int → Int → Bool) (texts : Ordering → Bool) : Except ExprFault Bytes :=
    match exprNumber? a, exprNumber? b with
    | some m, some n => truth (numbers m n)
    | _, _ =>
        truth (texts (if a = b then .eq else if bytesBelow a b then .lt else .gt))
  let compute (f : Int → Int → Int) : Except ExprFault Bytes :=
    match exprNumber? a, exprNumber? b with
    | some m, some n => .ok (.ofInt (f m n))
    | _, _ => .error ("non-integer argument".toList, 2)
  match sign with
  | "|" => .ok (if !isNothing a then a else if !isNothing b then b else ['0'])
  | "&" => .ok (if isNothing a || isNothing b then ['0'] else a)
  | "<" => compare (fun m n => m < n) (· = .lt)
  | "<=" => compare (fun m n => m ≤ n) (· ≠ .gt)
  | "=" | "==" => compare (fun m n => m = n) (· = .eq)
  | "!=" => compare (fun m n => m ≠ n) (· ≠ .eq)
  | ">=" => compare (fun m n => n ≤ m) (· ≠ .lt)
  | ">" => compare (fun m n => n < m) (· = .gt)
  | "+" => compute (· + ·)
  | "-" => compute (· - ·)
  | "*" => compute (· * ·)
  | "/" | "%" =>
      match exprNumber? b with
      | some 0 => .error ("division by zero".toList, 2)
      | _ => compute (if sign = "/" then Int.tdiv else Int.tmod)
  | _ => .ok b

mutual
/-- A value that is joined by signs of the given levels. -/
def exprLevel (fuel : Nat) (last : Bytes) (levels : List (List String)) (arguments : List Bytes) :
    ExprReading := do
  match fuel, levels with
  | 0, _ => .error ("syntax error".toList, 2)
  | fuel + 1, [] => exprPrimary fuel last arguments
  | fuel + 1, signs :: stronger => do
      let (a, rest) ← exprLevel fuel last stronger arguments
      exprJoined fuel signs stronger a rest

/-- A value to which others are joined. -/
def exprJoined (fuel : Nat) (signs : List String) (stronger : List (List String)) (a : Bytes)
    (arguments : List Bytes) : ExprReading := do
  match fuel, arguments with
  | 0, _ => .error ("syntax error".toList, 2)
  | _, [] => .ok (a, [])
  | fuel + 1, sign :: rest =>
      if signs.contains sign.name then do
        let (b, rest) ← exprLevel fuel sign stronger rest
        let value ← joinValues sign.name a b
        exprJoined fuel signs stronger value rest
      else .ok (a, sign :: rest)

/-- A text, a part in parentheses, or a word with what it asks for. -/
def exprPrimary (fuel : Nat) (last : Bytes) (arguments : List Bytes) : ExprReading := do
  match fuel, arguments with
  | 0, _ => .error ("syntax error".toList, 2)
  | _, [] => .error ("syntax error: missing argument after ".toList ++ inMarks last, 2)
  | fuel + 1, a :: rest =>
      let word := a.name
      if word = "(" then do
        let (value, rest) ← exprLevel fuel a exprLevels rest
        match rest with
        | [')'] :: rest => .ok (value, rest)
        | [] => .error ("syntax error: expecting ')' after ".toList ++ inMarks value, 2)
        | other :: _ =>
            .error ("syntax error: expecting ')' instead of ".toList ++ inMarks other, 2)
      else if word = "length" then do
        let (value, rest) ← exprPrimary fuel a rest
        .ok (.ofNat value.length, rest)
      else if word = "index" then do
        let (value, rest) ← exprPrimary fuel a rest
        let (set, rest) ← exprPrimary fuel value rest
        let place := (value.findIdx? fun c => set.contains c).map (· + 1)
        .ok (.ofNat (place.getD 0), rest)
      else if word = "substr" then do
        let (value, rest) ← exprPrimary fuel a rest
        let (front, rest) ← exprPrimary fuel value rest
        let (length, rest) ← exprPrimary fuel front rest
        match Bytes.nat? front, Bytes.nat? length with
        | some (m + 1), some n => .ok ((value.drop m).take n, rest)
        | _, _ => .ok ([], rest)
      else if word = "+" then
        match rest with
        | [] => .error ("syntax error: missing argument after ".toList ++ inMarks a, 2)
        | b :: rest => .ok (b, rest)
      else .ok (a, rest)
end

/-- Writes the value of an expression. -/
def expr : Program := fun start disk =>
  let w := Work.begin start disk
  let arguments := if start.arguments.head? = some ['-', '-'] then start.arguments.tail else start.arguments
  if arguments.isEmpty then (w.misuse "missing operand".toList 2).finish
  else
    match exprLevel (16 * arguments.length + 16) [] exprLevels arguments with
    | .error (words, status) => (w.fail words status).finish
    | .ok (_, extra :: _) =>
        (w.fail ("syntax error: unexpected argument ".toList ++ inMarks extra) 2).finish
    | .ok (value, []) =>
        ({ w.out (value ++ ['\n']) with status := if isNothing value then 1 else 0 }).finish

/-! ## Telling -/

/-- Writes a line that does not depend on anything. -/
def telling (line : String) : Program := fun _ disk => (say (line.toList ++ ['\n']), disk)

/-- Writes variables that programs are given. -/
def showEnvironment : Program := fun start disk =>
  if start.arguments.isEmpty then
    (say (start.environment.map fun (name, value) => name ++ '=' :: value ++ ['\n']).flatten, disk)
  else
    let values := start.arguments.filterMap fun name => start.environment.lookup name
    ({ say (values.map fun value => value ++ ['\n']).flatten with
       ending := .exited (if values.length = start.arguments.length then 0 else 1) }, disk)

/-- Writes who the user is. -/
def identity : Program := utility "ugGnr" 1 false fun g w =>
  let name := g.has 'n'
  w.out ((if g.has 'u' || g.has 'g' || g.has 'G' then (if name then "root" else "0")
    else "uid=0(root) gid=0(root) groups=0(root)").toList ++ ['\n'])

/-- Sends signals.  No process but the shells is known, so there is none to be ended. -/
def killProgram : Program := fun start disk =>
  let w := Work.begin start disk
  let targets := start.arguments.filter fun a => (Bytes.nat? a).isSome
  match targets with
  | [] => (w.misuse "not enough arguments".toList 1).finish
  | target :: _ => (w.fail ("sending signal to ".toList ++ target ++ " failed: No such process".toList) 1).finish

/-- The other utilities. -/
def otherUtilities : Shelf :=
  [ ("true", ending 0), ("false", ending 1), ("sync", ending 0), ("sleep", sleep),
    ("test", testProgram false), ("[", testProgram true), ("expr", expr),
    ("printenv", showEnvironment), ("whoami", telling "root"), ("arch", telling "x86_64"),
    ("uname", telling "Linux"), ("id", identity), ("kill", killProgram) ]

end Slidecast.Machine
