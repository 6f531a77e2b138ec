import Slidecast.Machine.Bytes

/-!
# Patterns

A pattern is fitted by rows of bytes.  A star is fitted by any row, a question mark by any byte,
and brackets by the bytes that they list; a quoted character stands for itself.
-/

set_option autoImplicit false

namespace Slidecast.Machine.Shell

/-- A character of a pattern, and whether it is quoted. -/
abbrev Marked : Type := Char × Bool

/-- A piece of a pattern. -/
inductive Piece where
  | char (c : Char)
  | anyChar
  | anyRow
  /-- A byte inside or outside of ranges. -/
  | choice (negated : Bool) (ranges : List (Char × Char))
  deriving DecidableEq

/-- The classes of bytes with a name. -/
def classRanges : List (String × List (Char × Char)) :=
  [ ("alpha", [('a', 'z'), ('A', 'Z')]), ("digit", [('0', '9')]),
    ("alnum", [('a', 'z'), ('A', 'Z'), ('0', '9')]), ("upper", [('A', 'Z')]),
    ("lower", [('a', 'z')]), ("space", [(' ', ' '), ('\t', '\r')]), ("blank", [(' ', ' '), ('\t', '\t')]),
    ("punct", [('!', '/'), (':', '@'), ('[', '`'), ('\x7b', '~')]),
    ("xdigit", [('0', '9'), ('a', 'f'), ('A', 'F')]), ("print", [(' ', '~')]),
    ("graph", [('!', '~')]), ("cntrl", [('\x00', '\x1f'), ('\x7f', '\x7f')]) ]

/-- The ranges that brackets list up to the closing one, and what follows it. -/
def bracketRanges (first : Bool) : List Marked → Option (List (Char × Char) × List Marked)
  | [] => none
  | [(']', false)] => if first then none else some ([], [])
  | (']', false) :: m :: rest =>
      if first then
        (bracketRanges false (m :: rest)).map fun found => ((']', ']') :: found.1, found.2)
      else some ([], m :: rest)
  | (low, _) :: ('-', false) :: (high, quoted) :: rest =>
      if high = ']' ∧ ¬ quoted then
        (bracketRanges false ((high, quoted) :: rest)).map fun found =>
          ((low, low) :: ('-', '-') :: found.1, found.2)
      else (bracketRanges false rest).map fun found => ((low, high) :: found.1, found.2)
  | (c, _) :: rest => (bracketRanges false rest).map fun found => ((c, c) :: found.1, found.2)

/-- The class with a name in front of a pattern, and what follows it. -/
def classInFront? (marked : List Marked) : Option (List (Char × Char) × List Marked) :=
  let cs := marked.map Prod.fst
  classRanges.findSome? fun (name, ranges) =>
    let spelled := "[:".toList ++ name.toList ++ ":]".toList
    if spelled.isPrefixOf cs then some (ranges, marked.drop spelled.length) else none

/-- The ranges that brackets list, where a class has a name. -/
def listedRanges : Nat → Bool → List Marked → Option (List (Char × Char) × List Marked)
  | 0, first, marked => bracketRanges first marked
  | more + 1, first, marked =>
      match classInFront? marked with
      | some (ranges, rest) =>
          (listedRanges more false rest).map fun found => (ranges ++ found.1, found.2)
      | none => bracketRanges first marked

/-- The pieces of a pattern; a number bounds how many. -/
def piecesUpTo : Nat → List Marked → List Piece
  | 0, _ | _, [] => []
  | more + 1, (c, true) :: rest => .char c :: piecesUpTo more rest
  | more + 1, ('*', false) :: rest => .anyRow :: piecesUpTo more rest
  | more + 1, ('?', false) :: rest => .anyChar :: piecesUpTo more rest
  | more + 1, ('\\', false) :: (c, _) :: rest => .char c :: piecesUpTo more rest
  | more + 1, ('[', false) :: rest =>
      let (negated, inner) :=
        match rest with
        | ('!', false) :: inner => (true, inner)
        | inner => (false, inner)
      match listedRanges inner.length true inner with
      | some (ranges, rest) => .choice negated ranges :: piecesUpTo more rest
      | none => .char '[' :: piecesUpTo more rest
  | more + 1, (c, false) :: rest => .char c :: piecesUpTo more rest

/-- The pieces of a pattern. -/
def pieces (marked : List Marked) : List Piece := piecesUpTo marked.length marked

/-- Whether a piece is fitted by a single byte. -/
def Piece.fits (piece : Piece) (c : Char) : Bool :=
  match piece with
  | .char d => d = c
  | .anyChar | .anyRow => true
  | .choice negated ranges => (ranges.any fun (low, high) => low ≤ c && c ≤ high) != negated

/-! ## Fitting

A row of bytes is fitted to a pattern from its front.  In front of each piece, and behind the last
one, stands a flag that tells whether what has been read so far fits the pieces up to there. -/

/-- The flags after a star has let those in front of it pass; the first flag may be raised. -/
def closeFlags (raised : Bool) : List Piece → List Bool → List Bool
  | p :: ps, f :: fs =>
      let f := f || raised
      f :: closeFlags (p = .anyRow && f) ps fs
  | _, fs => fs.map (· || raised)

/-- The flags after a byte has been read; the first flag is given. -/
def stepFlags (c : Char) (raised : Bool) : List Piece → List Bool → List Bool
  | p :: ps, f :: fs =>
      (raised || (p = .anyRow && f)) :: stepFlags c (p ≠ .anyRow && f && p.fits c) ps fs
  | _, _ => [raised]

/-- The flags before anything has been read. -/
def firstFlags (ps : List Piece) : List Bool :=
  closeFlags true ps (List.replicate (ps.length + 1) false)

/-- The flags after one more byte. -/
def nextFlags (ps : List Piece) (flags : List Bool) (c : Char) : List Bool :=
  closeFlags false ps (stepFlags c false ps flags)

/-- Whether a row of bytes fits a row of pieces. -/
def fitsPieces (ps : List Piece) (text : Bytes) : Bool :=
  (text.foldl (nextFlags ps) (firstFlags ps)).getLastD false

/-- Whether a row of bytes fits a pattern. -/
def fitsPattern (pattern : List Marked) (text : Bytes) : Bool := fitsPieces (pieces pattern) text

/-- Whether a pattern is fitted by more than its spelling. -/
def isPattern (marked : List Marked) : Bool :=
  (pieces marked).any fun
    | .char _ => false
    | _ => true

/-- How long the beginnings of a text are that fit a row of pieces, the longest first. -/
def fittingLengths (ps : List Piece) (text : Bytes) : List Nat :=
  let note (flags : List Bool) (n : Nat) (found : List Nat) : List Nat :=
    if flags.getLastD false then n :: found else found
  let start := firstFlags ps
  (text.foldl
    (fun (state : List Bool × Nat × List Nat) c =>
      let (flags, n, found) := state
      if flags.any id then
        let flags := nextFlags ps flags c
        (flags, n + 1, note flags (n + 1) found)
      else state)
    (start, 0, note start 0 [])).2.2

/-- A text without a beginning that fits a row of pieces: the longest one, or the shortest. -/
def trimFront (ps : List Piece) (longest : Bool) (text : Bytes) : Bytes :=
  let lengths := fittingLengths ps text
  match if longest then lengths.head? else lengths.getLast? with
  | some n => text.drop n
  | none => text

/-- What is left of a row of bytes when a part that fits a pattern is taken away at one of its
ends: the shortest such part, or the longest. -/
def trimPattern (pattern : List Marked) (atEnd longest : Bool) (text : Bytes) : Bytes :=
  let ps := pieces pattern
  if atEnd then (trimFront ps.reverse longest text.reverse).reverse
  else trimFront ps longest text

end Slidecast.Machine.Shell
