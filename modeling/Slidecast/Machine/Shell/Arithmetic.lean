import Slidecast.Machine.Shell.Syntax

/-!
# Arithmetic

The expressions of the shell are whole numbers of 64 bits with a sign, names of variables, and the
signs that join them.  A logical sign leaves its second side aside when the first one decides.
-/

set_option autoImplicit false

namespace Slidecast.Machine.Shell

/-- The value of digits in a base, as far as it fits. -/
def saturated (base : Nat) (digits : List Nat) : Int64 :=
  let whole := digits.foldl (fun n d => base * n + d) 0
  if whole < 9223372036854775808 then Int64.ofNat whole else Int64.maxValue

/-- The digit that a character stands for, up to fifteen. -/
def digit? (c : Char) : Option Nat :=
  if c.isDigit then some (c.toNat - 48)
  else if 'a' ≤ c ∧ c ≤ 'f' then some (c.toNat - 87)
  else if 'A' ≤ c ∧ c ≤ 'F' then some (c.toNat - 55)
  else none

/-- The digits of a base in front of a row, and what follows them. -/
def digitsInFront (base : Nat) (cs : Bytes) : List Nat × Bytes :=
  let isDigit (c : Char) : Bool := (digit? c).any (· < base)
  ((cs.takeWhile isDigit).filterMap digit?, cs.dropWhile isDigit)

/-- The number in front of a row, if a digit stands there, and what follows it: of base sixteen
behind `0x`, of base eight behind `0`. -/
def numberInFront? (cs : Bytes) : Option (Int64 × Bytes) :=
  let read (base : Nat) (cs : Bytes) : Int64 × Bytes :=
    let (digits, rest) := digitsInFront base cs
    (saturated base digits, rest)
  match cs with
  | '0' :: x :: d :: rest =>
      if (x = 'x' ∨ x = 'X') ∧ (digit? d).isSome then some (read 16 (d :: rest))
      else some (read 8 cs)
  | '0' :: _ => some (read 8 cs)
  | c :: _ => if c.isDigit then some (read 10 cs) else none
  | [] => none

/-- Blanks between the signs of an expression. -/
def isBlank (c : Char) : Bool := c = ' ' || c = '\t' || c = '\n' || c = '\r'

/-- The number that the value of a variable stands for. -/
def valueNumber? (value : Bytes) : Option Int64 :=
  let cs := value.dropWhile isBlank
  let signed? (cs : Bytes) : Option Int64 :=
    match numberInFront? cs with
    | some (n, rest) => if rest.all isBlank then some n else none
    | none => none
  match cs with
  | [] => some 0
  | '-' :: cs => (signed? cs).map fun n => -n
  | '+' :: cs => signed? cs
  | cs => signed? cs

/-- An expression. -/
inductive Expression where
  | number (n : Int64)
  | variable (name : Bytes)
  | unary (sign : Char) (operand : Expression)
  | binary (sign : String) (left right : Expression)
  | conditional (test yes no : Expression)
  | assign (sign : String) (name : Bytes) (value : Expression)

/-- Why an expression has no value. -/
inductive ExpressionFault where
  /-- Something else was expected. -/
  | expecting (what : String)
  | divisionByZero
  /-- The value of a variable is no number. -/
  | illegalNumber (value : Bytes)
  deriving DecidableEq

/-- A piece of an expression. -/
inductive Lexeme where
  | number (n : Int64)
  | name (name : Bytes)
  | sign (spelling : String)
  | other
  deriving DecidableEq

/-- The signs of expressions, longer ones first. -/
def expressionSigns : List String :=
  [ "<<=", ">>=", "+=", "-=", "*=", "/=", "%=", "&=", "|=", "^=", "==", "!=", "<=", ">=", "<<", ">>",
    "&&", "||", "+", "-", "*", "/", "%", "<", ">", "&", "|", "^", "!", "~", "?", ":", "(", ")", "=" ]

/-- The pieces of an expression; a number bounds how many. -/
def lexemes : Nat → Bytes → List Lexeme
  | 0, _ => []
  | more + 1, cs =>
      match cs.dropWhile isBlank with
      | [] => []
      | c :: rest =>
          match numberInFront? (c :: rest) with
          | some (n, rest) => .number n :: lexemes more rest
          | none =>
              if isNameStart c then
                let name := (c :: rest).takeWhile isNameChar
                .name name :: lexemes more ((c :: rest).drop name.length)
              else
                match expressionSigns.find? fun sign => sign.toList.isPrefixOf (c :: rest) with
                | some sign => .sign sign :: lexemes more ((c :: rest).drop sign.length)
                | none => .other :: lexemes more rest

/-! ## Reading -/

/-- A step of reading: an expression and the pieces behind it. -/
abbrev ExpressionReading : Type := Except ExpressionFault (Expression × List Lexeme)

/-- The signs that join two sides, from the loosest to the closest. -/
def binaryLevels : List (List String) :=
  [ ["||"], ["&&"], ["|"], ["^"], ["&"], ["==", "!="], ["<", ">", "<=", ">="], ["<<", ">>"],
    ["+", "-"], ["*", "/", "%"] ]

/-- The signs that give a value to a variable. -/
def assignmentSigns : List String :=
  ["=", "+=", "-=", "*=", "/=", "%=", "<<=", ">>=", "&=", "|=", "^="]

mutual
/-- An assignment or a condition. -/
def readAssignment : Nat → List Lexeme → ExpressionReading
  | 0, _ => .error (.expecting "primary")
  | fuel + 1, .name name :: .sign sign :: rest =>
      if assignmentSigns.contains sign then do
        let (value, rest) ← readAssignment fuel rest
        .ok (.assign sign name value, rest)
      else readConditional fuel (.name name :: .sign sign :: rest)
  | fuel + 1, rest => readConditional fuel rest

/-- A condition with what it chooses between, or what is joined by signs. -/
def readConditional : Nat → List Lexeme → ExpressionReading
  | 0, _ => .error (.expecting "primary")
  | fuel + 1, rest => do
      let (test, rest) ← readLevel fuel binaryLevels rest
      match rest with
      | .sign "?" :: rest => do
          let (yes, rest) ← readAssignment fuel rest
          match rest with
          | .sign ":" :: rest => do
              let (no, rest) ← readConditional fuel rest
              .ok (.conditional test yes no, rest)
          | _ => .error (.expecting "':'")
      | rest => .ok (test, rest)

/-- What is joined by the signs of the given levels. -/
def readLevel : Nat → List (List String) → List Lexeme → ExpressionReading
  | 0, _, _ => .error (.expecting "primary")
  | fuel + 1, [], rest => readPrimary fuel rest
  | fuel + 1, signs :: closer, rest => do
      let (left, rest) ← readLevel fuel closer rest
      readJoined fuel signs closer left rest

/-- What is joined to a left side by signs of one level. -/
def readJoined : Nat → List String → List (List String) → Expression → List Lexeme →
    ExpressionReading
  | 0, _, _, _, _ => .error (.expecting "primary")
  | fuel + 1, signs, closer, left, rest =>
      match rest with
      | .sign sign :: behind =>
          if signs.contains sign then do
            let (right, rest) ← readLevel fuel closer behind
            readJoined fuel signs closer (.binary sign left right) rest
          else .ok (left, rest)
      | rest => .ok (left, rest)

/-- A number, a name, or an expression in parentheses, with signs in front. -/
def readPrimary : Nat → List Lexeme → ExpressionReading
  | 0, _ => .error (.expecting "primary")
  | fuel + 1, lexemes =>
      let signed (sign : Char) (rest : List Lexeme) : ExpressionReading := do
        let (operand, rest) ← readPrimary fuel rest
        .ok (.unary sign operand, rest)
      match lexemes with
      | .number n :: rest => .ok (.number n, rest)
      | .name name :: rest => .ok (.variable name, rest)
      | .sign "-" :: rest => signed '-' rest
      | .sign "+" :: rest => signed '+' rest
      | .sign "!" :: rest => signed '!' rest
      | .sign "~" :: rest => signed '~' rest
      | .sign "(" :: rest => do
          let (inner, rest) ← readAssignment fuel rest
          match rest with
          | .sign ")" :: rest => .ok (inner, rest)
          | _ => .error (.expecting "')'")
      | _ => .error (.expecting "primary")
end

/-- The expression that a text spells. -/
def expression (text : Bytes) : Except ExpressionFault Expression := do
  let (e, rest) ← readAssignment (20 * text.length + 20) (lexemes text.length text)
  if rest.isEmpty then .ok e else .error (.expecting "EOF")

/-! ## Values -/

/-- One or zero. -/
def truth (b : Bool) : Int64 := if b then 1 else 0

/-- The value of two numbers that are joined by a sign. -/
def joinNumbers (sign : String) (a b : Int64) : Except ExpressionFault Int64 :=
  match sign with
  | "+" => .ok (a + b)
  | "-" => .ok (a - b)
  | "*" => .ok (a * b)
  | "/" => if b = 0 then .error .divisionByZero else .ok (a / b)
  | "%" => if b = 0 then .error .divisionByZero else .ok (a % b)
  | "<<" => .ok (a <<< b)
  | ">>" => .ok (a >>> b)
  | "<" => .ok (truth (a < b))
  | ">" => .ok (truth (b < a))
  | "<=" => .ok (truth (a ≤ b))
  | ">=" => .ok (truth (b ≤ a))
  | "==" => .ok (truth (a = b))
  | "!=" => .ok (truth (a ≠ b))
  | "&" => .ok (a &&& b)
  | "^" => .ok (a ^^^ b)
  | "|" => .ok (a ||| b)
  | _ => .ok b

/-- Values of variables, later ones first. -/
abbrev Bindings : Type := List (Bytes × Bytes)

/-- The number that a variable stands for. -/
def numberOf (bindings : Bindings) (name : Bytes) : Except ExpressionFault Int64 :=
  let value := (bindings.lookup name).getD []
  match valueNumber? value with
  | some n => .ok n
  | none => .error (.illegalNumber value)

/-- The value of an expression, and the values of variables after it. -/
def Expression.evaluate (bindings : Bindings) :
    Expression → Except ExpressionFault (Int64 × Bindings)
  | .number n => .ok (n, bindings)
  | .variable name => do .ok (← numberOf bindings name, bindings)
  | .unary sign operand => do
      let (n, bindings) ← operand.evaluate bindings
      .ok
        (match sign with
          | '-' => -n
          | '!' => truth (n = 0)
          | '~' => ~~~n
          | _ => n, bindings)
  | .binary sign left right => do
      let (a, bindings) ← left.evaluate bindings
      if sign = "&&" ∧ a = 0 then .ok (0, bindings)
      else if sign = "||" ∧ a ≠ 0 then .ok (1, bindings)
      else do
        let (b, bindings) ← right.evaluate bindings
        if sign = "&&" ∨ sign = "||" then .ok (truth (b ≠ 0), bindings)
        else do .ok (← joinNumbers sign a b, bindings)
  | .conditional test yes no => do
      let (n, bindings) ← test.evaluate bindings
      if n ≠ 0 then yes.evaluate bindings else no.evaluate bindings
  | .assign sign name value => do
      let (n, bindings) ← value.evaluate bindings
      let n ←
        if sign = "=" then .ok n
        else do joinNumbers (sign.dropEnd 1).toString (← numberOf bindings name) n
      .ok (n, (name, Bytes.ofInt n.toInt) :: bindings)

end Slidecast.Machine.Shell
