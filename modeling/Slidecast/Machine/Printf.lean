import Slidecast.Machine.Escape
import Slidecast.Machine.Program
import Slidecast.Number.Reading

/-!
# Templates

A template is a text with directives, each of which is replaced by an argument.  A directive says
how the argument is written, how wide and how precisely.  A template is used again as long as
arguments are left; where they run out, empty texts and zeros stand for them.
-/

set_option autoImplicit false

namespace Slidecast.Machine

open Number

/-- How an argument is written. -/
structure Directive where
  flags : List Char := []
  width : Nat := 0
  precision : Option Nat := none

namespace Directive

/-- Whether a sign is among the flags. -/
def has (d : Directive) (flag : Char) : Bool := d.flags.contains flag

/-- A text as wide as the directive asks. -/
def padded (d : Directive) (text : Bytes) : Bytes :=
  let blanks := List.replicate (d.width - text.length) ' '
  if d.has '-' then text ++ blanks else blanks ++ text

/-- A number with what stands in front of it, as wide as the directive asks. -/
def paddedNumber (d : Directive) (zeros : Bool) (front digits : Bytes) : Bytes :=
  if zeros && d.has '0' && !d.has '-' then
    front ++ List.replicate (d.width - front.length - digits.length) '0' ++ digits
  else d.padded (front ++ digits)

/-- The sign in front of a number. -/
def sign (d : Directive) (negative : Bool) : Bytes :=
  if negative then ['-'] else if d.has '+' then ['+'] else if d.has ' ' then [' '] else []

/-- A text, as much of it as the directive asks for. -/
def text (d : Directive) (bytes : Bytes) : Bytes :=
  d.padded
    (match d.precision with
      | some n => bytes.take n
      | none => bytes)

/-- Digits, as many as the directive asks for. -/
def digits (d : Directive) (digits : Bytes) : Bytes :=
  match d.precision with
  | none => digits
  | some 0 => if digits = ['0'] then [] else digits
  | some n => List.replicate (n - digits.length) '0' ++ digits

/-- A whole number with its sign. -/
def whole (d : Directive) (n : Int) : Bytes :=
  d.paddedNumber d.precision.isNone (d.sign (n < 0)) (d.digits (.ofNat n.natAbs))

/-- A natural number in a base. -/
def natural (d : Directive) (conversion : Char) (n : Nat) : Bytes :=
  let base := if conversion = 'o' then 8 else if conversion = 'u' then 10 else 16
  let digits := d.digits (Nat.toDigits base n)
  let digits := if conversion = 'X' then digits.map Char.toUpper else digits
  let marked := d.has '#' && n ≠ 0
  let digits := if marked && conversion = 'o' && digits.head? ≠ some '0' then '0' :: digits else digits
  let front := if marked && (conversion = 'x' || conversion = 'X') then ['0', conversion] else []
  d.paddedNumber d.precision.isNone front digits

/-- The digits of a value with a number of places behind the point. -/
def placed (marked : Bool) (value : Rat) (places : Nat) : Bytes :=
  let scaled := (nearestEven (value * tenTo places)).toNat
  let whole := Bytes.ofNat (scaled / tenTo places)
  let fraction := Bytes.ofNat (scaled % tenTo places)
  if places = 0 then (if marked then whole ++ ['.'] else whole)
  else whole ++ '.' :: (List.replicate (places - fraction.length) '0' ++ fraction)

/-- The exponent of a value that is rounded to a number of places behind its first digit, and the
value without that power of ten. -/
def scaled (value : Rat) (places : Nat) : Int × Rat :=
  if value = 0 then (0, 0)
  else
    let e := decimalExponent value
    let mantissa := value / (10 : Rat) ^ e
    if 10 * tenTo places ≤ nearestEven (mantissa * tenTo places) then (e + 1, mantissa / 10)
    else (e, mantissa)

/-- A value with an exponent. -/
def scientific (marked : Bool) (value : Rat) (places : Nat) : Bytes :=
  let (e, mantissa) := scaled value places
  let exponent := Bytes.ofNat e.natAbs
  placed marked mantissa places ++ ['e', if e < 0 then '-' else '+'] ++
    (if exponent.length < 2 then '0' :: exponent else exponent)

/-- Digits without the zeros at the end that stand behind a point. -/
def withoutZeros (digits : Bytes) : Bytes :=
  if digits.contains '.' then
    let kept := digits.reverse.dropWhile (· = '0')
    (if kept.head? = some '.' then kept.tail else kept).reverse
  else digits

/-- A value with as many digits as asked for, with an exponent if it is large or small. -/
def general (marked : Bool) (value : Rat) (precision : Nat) : Bytes :=
  let precision := max precision 1
  let (e, _) := scaled value (precision - 1)
  let trim (digits : Bytes) : Bytes := if marked then digits else withoutZeros digits
  if e < -4 ∨ (precision : Int) ≤ e then
    let whole := scientific marked value (precision - 1)
    let mantissa := whole.takeWhile (· ≠ 'e')
    trim mantissa ++ whole.drop mantissa.length
  else trim (placed marked value ((precision : Int) - 1 - e).toNat)

/-- A number with a point. -/
def real (d : Directive) (conversion : Char) (x : Double) : Bytes :=
  let body : Bytes × Bool :=
    match x with
    | .nan => ("nan".toList, false)
    | .infinite _ => ("inf".toList, false)
    | x =>
        let places := d.precision.getD 6
        (match conversion.toLower with
          | 'f' => placed (d.has '#') x.magnitude places
          | 'e' => scientific (d.has '#') x.magnitude places
          | _ => general (d.has '#') x.magnitude places, true)
  let digits := if conversion.isUpper then body.1.map Char.toUpper else body.1
  d.paddedNumber body.2 (d.sign x.isNegative) digits

end Directive

/-! ## Numbers in arguments -/

/-- What was found in an argument in place of a number. -/
inductive NumberFault where
  | expected
  | unfinished
  | outOfRange

/-- The words for a fault of a number. -/
def NumberFault.words : NumberFault → String
  | .expected => "expected numeric value"
  | .unfinished => "not completely converted"
  | .outOfRange => "Numerical result out of range"

/-- White space in front of a number. -/
def isSpace (c : Char) : Bool := c = ' ' || ('\t' ≤ c && c ≤ '\r')

/-- The sign in front of a number, and what follows it. -/
def signInFront (cs : Bytes) : Bool × Bytes :=
  match cs with
  | '-' :: rest => (true, rest)
  | '+' :: rest => (false, rest)
  | rest => (false, rest)

/-- The value of a digit of a base up to sixteen. -/
def digitOf (c : Char) : Nat :=
  if c.isDigit then c.toNat - 48
  else if 'a' ≤ c ∧ c ≤ 'f' then c.toNat - 87
  else if 'A' ≤ c ∧ c ≤ 'F' then c.toNat - 55
  else 16

/-- The whole number in front of a text, and what follows it; without digits, nothing. -/
def wholeInFront? (text : Bytes) : Option (Int × Bytes) :=
  let (negative, cs) := signInFront (text.dropWhile isSpace)
  let (base, cs) : Nat × Bytes :=
    match cs with
    | '0' :: x :: d :: rest =>
        if (x = 'x' ∨ x = 'X') ∧ digitOf d < 16 then (16, d :: rest) else (8, cs)
    | '0' :: _ => (8, cs)
    | _ => (10, cs)
  let digits := cs.takeWhile fun c => digitOf c < base
  if digits.isEmpty then none
  else
    let n := digits.foldl (fun n c => base * n + digitOf c) 0
    some (if negative then -(n : Int) else n, cs.drop digits.length)

/-- The number of a character behind a quotation mark. -/
def quotedCharacter? (text : Bytes) : Option Nat :=
  match text with
  | '"' :: rest | '\'' :: rest => some ((rest.head?.map Char.toNat).getD 0)
  | _ => none

/-- The whole number that an argument stands for, and what is wrong with it. -/
def wholeOf (signed : Bool) (text : Bytes) : Int × Option NumberFault :=
  match quotedCharacter? text with
  | some n => (n, none)
  | none =>
      match wholeInFront? text with
      | none => (0, if text.isEmpty then none else some .expected)
      | some (n, rest) =>
          let (low, high) : Int × Int :=
            if signed then (-(twoTo 63 : Int), largest 63) else (-(largest 64 : Int), largest 64)
          let bounded := max low (min n high)
          let value :=
            if signed || 0 ≤ bounded then bounded
            else if bounded = n then bounded + twoTo 64 else largest 64
          let fault :=
            if !rest.isEmpty then some NumberFault.unfinished
            else if n = bounded then none else some .outOfRange
          (value, fault)

/-- The number with a point in front of a text, and what follows it; without one, nothing. -/
def realInFront? (text : Bytes) : Option (Double × Bytes) :=
  let (negative, cs) := signInFront (text.dropWhile isSpace)
  let signed (x : Double) : Double := if negative then -x else x
  let low := cs.map Char.toLower
  if "infinity".toList.isPrefixOf low then some (.infinite negative, cs.drop 8)
  else if "inf".toList.isPrefixOf low then some (.infinite negative, cs.drop 3)
  else if "nan".toList.isPrefixOf low then some (.nan, cs.drop 3)
  else
    match wholeInFront? cs, cs with
    | some (n, rest), '0' :: x :: _ =>
        if x = 'x' ∨ x = 'X' then some (signed (Binary.ofNat n.natAbs), rest)
        else decimalInFront? signed cs
    | _, _ => decimalInFront? signed cs
where
  decimalInFront? (signed : Double → Double) (cs : Bytes) : Option (Double × Bytes) :=
    let whole := cs.takeWhile Char.isDigit
    let behind := cs.drop whole.length
    let fraction :=
      match behind with
      | '.' :: rest => rest.takeWhile Char.isDigit
      | _ => []
    if whole.isEmpty && fraction.isEmpty then none
    else
      let behind := if behind.head? = some '.' then behind.drop (fraction.length + 1) else behind
      let (exponent, behind) : Int × Bytes :=
        match behind with
        | e :: rest =>
            if e = 'e' ∨ e = 'E' then
              let (negative, cs) := signInFront rest
              let digits := cs.takeWhile Char.isDigit
              if digits.isEmpty then (0, behind)
              else
                let n : Int := ofDigits digits
                (if negative then -n else n, cs.drop digits.length)
            else (0, behind)
        | [] => (0, [])
      let d : Decimal := ⟨ofDigits (whole ++ fraction), exponent - fraction.length⟩
      some (signed (Binary.ofDecimal false d), behind)

/-- The number with a point that an argument stands for, and what is wrong with it. -/
def realOf (text : Bytes) : Double × Option NumberFault :=
  match quotedCharacter? text with
  | some n => (Binary.ofNat n, none)
  | none =>
      match realInFront? text with
      | none => (Binary.zero false, if text.isEmpty then none else some .expected)
      | some (x, rest) => (x, if rest.isEmpty then none else some .unfinished)

/-! ## Using a template -/

/-- How far a template has been used. -/
structure Printing where
  arguments : List Bytes
  /-- What is written, last piece first. -/
  out : List Bytes := []
  /-- Complaints about arguments, last one first. -/
  warnings : List Bytes := []
  /-- Whether an argument ends it all. -/
  isOver : Bool := false
  /-- Why the template cannot be used any further. -/
  fault : Option Bytes := none

namespace Printing

/-- Takes the next argument. -/
def next (p : Printing) : Option Bytes × Printing :=
  match p.arguments with
  | [] => (none, p)
  | a :: rest => (some a, { p with arguments := rest })

/-- Writes a piece. -/
def put (p : Printing) (piece : Bytes) : Printing := { p with out := piece :: p.out }

/-- Notes what is wrong with an argument. -/
def note (p : Printing) (argument : Option Bytes) (fault : Option NumberFault) : Printing :=
  match fault with
  | none => p
  | some fault =>
      { p with warnings := (argument.getD [] ++ (": " ++ fault.words).toList) :: p.warnings }

/-- Takes a whole number. -/
def nextWhole (p : Printing) (signed : Bool) : Int × Printing :=
  let (a, p) := p.next
  let (n, fault) := wholeOf signed (a.getD [])
  (n, p.note a fault)

/-- Writes the next argument as a directive asks. -/
def convert (p : Printing) (d : Directive) (conversion : Char) : Option Printing :=
  if conversion = 's' then
    let (a, p) := p.next
    some (p.put (d.text (a.getD [])))
  else if conversion = 'b' then
    let (a, p) := p.next
    let (written, isCut) := unescape (a.getD [])
    some { p.put (d.text written) with isOver := isCut }
  else if conversion = 'c' then
    let (a, p) := p.next
    some (p.put (d.padded [(a.getD []).head?.getD (Char.ofNat 0)]))
  else if conversion = 'd' ∨ conversion = 'i' then
    let (n, p) := p.nextWhole true
    some (p.put (d.whole n))
  else if "ouxX".toList.contains conversion then
    let (n, p) := p.nextWhole false
    some (p.put (d.natural conversion n.toNat))
  else if "eEfFgG".toList.contains conversion then
    let (a, p) := p.next
    let (x, fault) := realOf (a.getD [])
    some ((p.note a fault).put (d.real conversion x))
  else none

/-- The number in front of a directive's rest: digits, or a star for the next argument. -/
def measure (p : Printing) (cs : Bytes) : Int × Bytes × Printing :=
  match cs with
  | '*' :: rest =>
      let (n, p) := p.nextWhole true
      (n, rest, p)
  | cs =>
      let digits := cs.takeWhile Char.isDigit
      (ofDigits digits, cs.drop digits.length, p)

/-- Uses a directive; gives what follows it in the template. -/
def direct (p : Printing) (cs : Bytes) : Bytes × Printing :=
  let flags := cs.takeWhile fun c => "#-+ 0".toList.contains c
  let (width, rest, p) := p.measure (cs.drop flags.length)
  let (precision, rest, p) : Option Int × Bytes × Printing :=
    match rest with
    | '.' :: rest =>
        let (n, rest, p) := p.measure rest
        (some n, rest, p)
    | rest => (none, rest, p)
  let flags := if width < 0 then '-' :: flags else flags
  let d : Directive :=
    { flags, width := width.natAbs,
      precision := precision.bind fun n => if n < 0 then none else some n.toNat }
  match rest with
  | [] => ([], { p with fault := some "missing format character".toList })
  | conversion :: rest =>
      match p.convert d conversion with
      | some p => (rest, p)
      | none =>
          let spelled := '%' :: cs.take (cs.length - rest.length)
          ([], { p with fault := some (spelled ++ ": invalid directive".toList) })

/-- Uses a template once; a number bounds its length. -/
def once : Nat → Bytes → Printing → Printing
  | 0, _, p | _, [], p => p
  | more + 1, '\\' :: rest, p =>
      match escapeBehind .template rest with
      | (some c, rest) => once more rest (p.put [c])
      | (none, rest) => once more rest (p.put ['\\'])
  | more + 1, '%' :: '%' :: rest, p => once more rest (p.put ['%'])
  | more + 1, '%' :: rest, p =>
      let (rest, p) := p.direct rest
      if p.isOver || p.fault.isSome then p else once more rest p
  | more + 1, c :: rest, p => once more rest (p.put [c])

/-- Uses a template as long as it takes arguments; a number bounds how often. -/
def repeated (template : Bytes) : Nat → Printing → Printing
  | 0, p => p
  | more + 1, p =>
      let after := once template.length template p
      if after.isOver || after.fault.isSome || after.arguments.isEmpty ||
          after.arguments.length = p.arguments.length then after
      else repeated template more after

end Printing

/-- What a template with arguments says. -/
def printed (template : Bytes) (arguments : List Bytes) : Printing :=
  Printing.repeated template (arguments.length + 1) { arguments }

end Slidecast.Machine
