import Slidecast.Machine.Printf

/-!
# Conditions

A condition is a row of arguments: texts and numbers to be compared, files to be asked about, and
the signs that negate and join conditions.  A sign may also be meant as a text; what it is depends
on how many arguments there are and on what stands behind it.
-/

set_option autoImplicit false

namespace Slidecast.Machine

open Files

/-- What an argument of a condition may be. -/
inductive ConditionSign where
  | unary (name : String)
  | binary (name : String)
  | negation
  | conjunction
  | disjunction
  | opening
  | closing
  deriving DecidableEq

/-- Signs in front of one argument. -/
def unarySigns : List String :=
  [ "-r", "-w", "-x", "-e", "-f", "-d", "-c", "-b", "-p", "-u", "-g", "-k", "-s", "-t", "-z", "-n",
    "-h", "-L", "-O", "-G", "-S" ]

/-- Signs between two arguments. -/
def binarySigns : List String :=
  [ "=", "!=", "<", ">", "-eq", "-ne", "-gt", "-ge", "-lt", "-le", "-nt", "-ot", "-ef" ]

/-- The sign that an argument spells. -/
def conditionSign? (argument : Bytes) : Option ConditionSign :=
  let name := argument.name
  if unarySigns.contains name then some (.unary name)
  else if binarySigns.contains name then some (.binary name)
  else [ ("!", ConditionSign.negation), ("-a", .conjunction), ("-o", .disjunction),
    ("(", .opening), (")", .closing) ].lookup name

/-- Whether an argument spells a sign between two others. -/
def isBinarySign (argument : Bytes) : Bool :=
  match conditionSign? argument with
  | some (.binary _) => true
  | _ => false

/-- The sign in front of a row of arguments, unless it is meant as a text. -/
def signAhead? (arguments : List Bytes) : Option ConditionSign :=
  match arguments with
  | [] => none
  | a :: behind =>
      match conditionSign? a with
      | some (.unary name) =>
          match behind with
          | [] => none
          | [_] => some (.unary name)
          | b :: _ => if isBinarySign b then none else some (.unary name)
      | some .opening => if behind.isEmpty then none else some .opening
      | found => found

/-- The number that an argument of a condition stands for. -/
def conditionNumber (argument : Bytes) : Except Bytes Int :=
  let (negative, digits) := signInFront (argument.dropWhile isSpace)
  let digits := (digits.reverse.dropWhile isSpace).reverse
  match Bytes.nat? digits with
  | some n =>
      if n < 9223372036854775808 then .ok (if negative then -n else n)
      else .error ("Illegal number: ".toList ++ argument)
  | none => .error ("Illegal number: ".toList ++ argument)

/-- What a file is asked by a sign. -/
def asksFile (disk : Disk) (name : String) (argument : Bytes) : Bool :=
  let path := pathOf argument
  let isLink : Bool :=
    match (disk.newPlace path .isDirectory).toOption.bind disk.lookup with
    | some (.link _) => true
    | _ => false
  if name = "-h" ∨ name = "-L" then isLink
  else
  match disk.find path with
  | .error _ => false
  | .ok (_, node) =>
      match name, node with
      | "-e", _ | "-r", _ | "-w", _ | "-O", _ | "-G", _ => true
      | "-f", .file _ => true
      | "-d", .directory => true
      | "-c", .device _ => true
      | "-x", .directory | "-x", .file (.program _) => true
      | "-s", .directory => true
      | "-s", .file content => !(contentBytes content).isEmpty
      | _, _ => false

/-- The answer to a sign in front of an argument. -/
def answerUnary (disk : Disk) (name : String) (argument : Bytes) : Except Bytes Bool :=
  match name with
  | "-z" => .ok argument.isEmpty
  | "-n" => .ok (!argument.isEmpty)
  | "-t" => do
      let _ ← conditionNumber argument
      .ok false
  | _ => .ok (asksFile disk name argument)

/-- Whether two paths lead to the same place. -/
def isSamePlace (disk : Disk) (a b : Bytes) : Bool :=
  match disk.find (pathOf a), disk.find (pathOf b) with
  | .ok (p, _), .ok (q, _) => p = q
  | _, _ => false

/-- Whether one row of bytes stands in front of another one in a dictionary. -/
def bytesBelow : Bytes → Bytes → Bool
  | _, [] => false
  | [], _ :: _ => true
  | a :: as, b :: bs => a < b || (a = b && bytesBelow as bs)

/-- The answer to a sign between two arguments. -/
def answerBinary (disk : Disk) (name : String) (a b : Bytes) : Except Bytes Bool :=
  let compare (test : Int → Int → Bool) : Except Bytes Bool := do
    .ok (test (← conditionNumber a) (← conditionNumber b))
  match name with
  | "=" => .ok (a = b)
  | "!=" => .ok (a ≠ b)
  | "<" => .ok (bytesBelow a b)
  | ">" => .ok (bytesBelow b a)
  | "-eq" => compare fun m n => m = n
  | "-ne" => compare fun m n => m ≠ n
  | "-gt" => compare fun m n => n < m
  | "-ge" => compare fun m n => n ≤ m
  | "-lt" => compare fun m n => m < n
  | "-le" => compare fun m n => m ≤ n
  | "-nt" => .ok (disk.hasPath (pathOf a) && !disk.hasPath (pathOf b))
  | "-ot" => .ok (!disk.hasPath (pathOf a) && disk.hasPath (pathOf b))
  | _ => .ok (isSamePlace disk a b)

/-- An answer, and the arguments from the last one on that was used for it. -/
abbrev Answering : Type := Except Bytes (Bool × List Bytes)

mutual
/-- Conditions of which one has to hold.  The first argument is read as the given sign. -/
def anyOf (disk : Disk) (fuel : Nat) (sign : Option ConditionSign) (arguments : List Bytes) :
    Answering := do
  match fuel with
  | 0 => .ok (false, arguments)
  | fuel + 1 =>
      let (first, last) ← allOf disk fuel sign arguments
      if signAhead? last.tail = some .disjunction then
        let next := last.drop 2
        let (second, last) ← anyOf disk fuel (signAhead? next) next
        .ok (first || second, last)
      else .ok (first, last)

/-- Conditions that have to hold all. -/
def allOf (disk : Disk) (fuel : Nat) (sign : Option ConditionSign) (arguments : List Bytes) :
    Answering := do
  match fuel with
  | 0 => .ok (false, arguments)
  | fuel + 1 =>
      let (first, last) ← negatedOf disk fuel sign arguments
      if signAhead? last.tail = some .conjunction then
        let next := last.drop 2
        let (second, last) ← allOf disk fuel (signAhead? next) next
        .ok (first && second, last)
      else .ok (first, last)

/-- A condition that may be negated. -/
def negatedOf (disk : Disk) (fuel : Nat) (sign : Option ConditionSign) (arguments : List Bytes) :
    Answering := do
  match fuel with
  | 0 => .ok (false, arguments)
  | fuel + 1 =>
      if sign = some .negation then
        match arguments.tail with
        | [] => .ok (true, arguments)
        | next => do
            let (held, last) ← negatedOf disk fuel (signAhead? next) next
            .ok (!held, last)
      else simpleOf disk fuel sign arguments

/-- A condition in parentheses, a question or a text. -/
def simpleOf (disk : Disk) (fuel : Nat) (sign : Option ConditionSign) (arguments : List Bytes) :
    Answering := do
  match fuel, arguments with
  | 0, _ | _, [] => .ok (false, arguments)
  | fuel + 1, a :: behind =>
      match sign with
      | some .opening =>
          if signAhead? behind = some .closing then .ok (false, behind)
          else
            let (held, last) ← anyOf disk fuel (signAhead? behind) behind
            if signAhead? last.tail = some .closing then .ok (held, last.tail)
            else .error "closing paren expected".toList
      | some (.unary name) =>
          match behind with
          | [] => .error (name.toList ++ ": argument expected".toList)
          | b :: _ => do .ok (← answerUnary disk name b, behind)
      | _ =>
          match behind with
          | b :: rest =>
              match signAhead? behind with
              | some (.binary name) =>
                  match rest with
                  | [] => .error (b ++ ": argument expected".toList)
                  | c :: _ => do .ok (← answerBinary disk name a c, rest)
              | _ => .ok (!a.isEmpty, arguments)
          | [] => .ok (!a.isEmpty, arguments)
end

/-- Whether a condition holds, or what is wrong with it. -/
def condition (disk : Disk) (arguments : List Bytes) : Except Bytes Bool := do
  let fuel := 8 * arguments.length + 8
  let judged (sign : Option ConditionSign) (arguments : List Bytes) : Except Bytes Bool := do
    let (held, last) ← anyOf disk fuel sign arguments
    match last with
    | other :: _ :: _ => .error (other ++ ": unexpected operator".toList)
    | _ => .ok held
  match arguments with
  | [] => .ok false
  | [a, b, c] =>
      if isBinarySign b then judged none arguments
      else if a = ['('] ∧ c = [')'] then judged (signAhead? [b]) [b]
      else if a = ['!'] then judged (some .negation) arguments
      else judged (signAhead? arguments) arguments
  | [a, b, c, d] =>
      if a = ['('] ∧ d = [')'] then judged (signAhead? [b, c]) [b, c]
      else if a = ['!'] then judged (some .negation) arguments
      else judged (signAhead? arguments) arguments
  | arguments => judged (signAhead? arguments) arguments

end Slidecast.Machine
