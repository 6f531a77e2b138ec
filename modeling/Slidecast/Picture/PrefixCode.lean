import Slidecast.Number.Bits
import Slidecast.Picture.BitRow

/-!
# Prefix codes

A prefix code writes symbols as rows of bits, of which none begins with another.  In the codes of
packed pictures, rows of the same length are numbers that follow one another, and the longer rows
come after the shorter ones; so the count of rows of each length tells all of them.
-/

set_option autoImplicit false

namespace Slidecast.Picture

open Number

/-- A code whose rows are told by their lengths. -/
structure PrefixCode where
  /-- How many rows there are of one bit, of two bits and so on. -/
  counts : List Nat
  /-- The symbols in the order of their rows. -/
  symbols : Array Nat

namespace PrefixCode

/-- The longest row of a code that is told by the lengths of its rows. -/
def longest : Nat := 15

/-- The symbols from zero on whose rows have a length. -/
def symbolsOf (lengths : List Nat) (length : Nat) : List Nat :=
  (lengths.zipIdx.filter fun (l, _) => l = length).map Prod.snd

/-- The code in which the symbols from zero on have rows of the given lengths; a symbol with the
length zero has no row. -/
def ofLengths (lengths : List Nat) : PrefixCode :=
  let groups := (List.range' 1 longest).map (symbolsOf lengths)
  { counts := groups.map List.length, symbols := groups.flatten.toArray }

/-- The share of all rows of the longest length that begin with a row of the code. -/
def share (code : PrefixCode) : Nat :=
  (code.counts.zipIdx.map fun (count, n) => count * twoTo (longest - 1 - n)).foldl (· + ·) 0

/-- Whether every long enough row of bits begins with a row of the code, and no row does so with two
of them. -/
def isComplete (code : PrefixCode) : Bool := code.share = twoTo longest

/-- The symbol of the row that begins with some bits, and the bits after it, when the rows of
shorter lengths end before `first` and have been `passed`. -/
def search? (symbols : Array Nat) (row first passed : Nat) :
    List Nat → List Bool → Option (Nat × List Bool)
  | [], _ | _, [] => none
  | count :: counts, b :: bits =>
      let row := 2 * row + b.toNat
      if row < first + count then
        match symbols[passed + (row - first)]? with
        | some symbol => some (symbol, bits)
        | none => none
      else search? symbols row (2 * (first + count)) (passed + count) counts bits

/-- The symbol of the row with which the bits begin, and the bits after it. -/
def next? (code : PrefixCode) (bits : List Bool) : Option (Nat × List Bool) :=
  search? code.symbols 0 0 0 code.counts bits

theorem length_of_search? {symbols : Array Nat} {row first passed symbol : Nat}
    {counts : List Nat} {bits rest : List Bool}
    (h : search? symbols row first passed counts bits = some (symbol, rest)) :
    rest.length < bits.length := by
  induction counts generalizing row first passed bits with
  | nil => simp [search?] at h
  | cons count counts ih =>
      cases bits with
      | nil => simp [search?] at h
      | cons b bits =>
          simp only [search?] at h
          split at h
          · split at h
            · simp only [Option.some.injEq, Prod.mk.injEq] at h
              simp [h.2]
            · simp at h
          · have := ih h
            simp only [List.length_cons]
            omega

/-- A symbol takes at least one bit. -/
theorem length_of_next? {code : PrefixCode} {symbol : Nat} {bits rest : List Bool}
    (h : code.next? bits = some (symbol, rest)) : rest.length < bits.length :=
  length_of_search? h

end PrefixCode

end Slidecast.Picture
