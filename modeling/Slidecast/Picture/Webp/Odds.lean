import Slidecast.Picture.BitRow

/-!
# Bits with odds

A row of bits can be kept in less room if it is known for each bit how likely it is to be set.  The
row is then one long fraction, and every bit divides the span in which the fraction lies: the lower
part belongs to a bit that is not set, the upper part to one that is.  One byte of zeros may be read
behind the row.  The parts of a span make up the span, and neither of them is empty
(`lowerPart_pos`, `lowerPart_lt`).
-/

set_option autoImplicit false

namespace Slidecast.Picture.Webp

/-- A place in such a row. -/
structure OddsRow where
  /-- The span of the fraction, in units of the bits that are looked at. -/
  span : Nat
  /-- How far the fraction lies above the lower end of its span. -/
  above : Nat
  /-- The bits that have not been looked at. -/
  bits : List Bool
  /-- Whether more bits have been wanted than there are. -/
  isSpent : Bool

/-- Values that are read from such a row. -/
abbrev Drawn := StateT OddsRow Option

/-- The beginning of the row in some bytes. -/
def OddsRow.ofBytes (bytes : List UInt8) : OddsRow :=
  let bits := bitsDown bytes ++ List.replicate 8 false
  { span := 255
    above := (bits.take 8).foldl (fun n b => 2 * n + b.toNat) 0
    bits := bits.drop 8
    isSpent := false }

/-- The row with one more bit looked at. -/
def OddsRow.double (row : OddsRow) : OddsRow :=
  match row.bits with
  | b :: bits => { row with span := 2 * row.span, above := 2 * row.above + b.toNat, bits }
  | [] => { row with span := 2 * row.span, above := 2 * row.above, isSpent := true }

/-- The row with a span of eight bits, which takes so many more bits at most. -/
def OddsRow.widen : Nat → OddsRow → OddsRow
  | 0, row => row
  | count + 1, row => if 128 ≤ row.span then row else widen count row.double

/-- The part of a span that belongs to a bit that is not set, when so many of 256 are not. -/
def lowerPart (span odds : Nat) : Nat := 1 + (span - 1) * odds / 256

/-- The next bit, which is not set in so many cases of 256. -/
def bit (odds : Nat) : Drawn Bool := fun row =>
  if row.isSpent then none
  else
    let lower := lowerPart row.span odds
    if lower ≤ row.above then
      some (true, { row with span := row.span - lower, above := row.above - lower }.widen 7)
    else some (false, { row with span := lower }.widen 7)

/-- The next bit, if it is as likely to be set as not. -/
def evenBit : Drawn Bool := bit 128

/-- The number in so many bits, highest bit first, when a number has been read before them; the odds
of each bit are given. -/
def numberAfter (n : Nat) : List Nat → Drawn Nat
  | [] => pure n
  | odds :: rest => do
      let b ← bit odds
      numberAfter (2 * n + b.toNat) rest

/-- The number in so many even bits, highest bit first. -/
def number (count : Nat) : Drawn Nat := numberAfter 0 (List.replicate count 128)

/-- A number of so many bits, and its sign behind it. -/
def numberWithSign (count : Nat) : Drawn Int := do
  let n ← number count
  let isNegative ← evenBit
  return if isNegative then -(n : Int) else n

/-- A value that a bit tells to be there, or another one. -/
def ifTold {α : Type} (value : Drawn α) (other : α) : Drawn α := do
  if ← evenBit then value else return other

/-- So many values of a kind. -/
def several {α : Type} (value : Drawn α) : Nat → Drawn (List α)
  | 0 => pure []
  | count + 1 => do
      let first ← value
      let others ← several value count
      return first :: others

/-! ## Rows of neighbours -/

/-- A row of things of which each is read with what its neighbour on the left and the one above show
to it. -/
def rowOf {α β τ : Type} (read : α → τ → Drawn β) (right : β → α) :
    α → List τ → Drawn (List β)
  | _, [] => pure []
  | left, top :: tops => do
      let thing ← read left top
      let others ← rowOf read right (right thing) tops
      return thing :: others

/-- Rows of such things, from what stands to the left of each row and above the first one. -/
def rowsOf {α β τ : Type} (read : α → τ → Drawn β) (right : β → α) (below : β → τ) :
    List α → List τ → Drawn (List (List β))
  | [], _ => pure []
  | left :: lefts, tops => do
      let row ← rowOf read right left tops
      let others ← rowsOf read right below lefts (row.map below)
      return row :: others

/-! ## Laws -/

/-- The lower part of a span is never empty. -/
theorem lowerPart_pos (span odds : Nat) : 0 < lowerPart span odds := by
  unfold lowerPart
  omega

/-- The upper part of a span is never empty. -/
theorem lowerPart_lt {span odds : Nat} (wide : 2 ≤ span) (unsure : odds < 256) :
    lowerPart span odds < span := by
  have less : (span - 1) * odds / 256 < span - 1 := by
    refine (Nat.div_lt_iff_lt_mul (by decide : 0 < 256)).2 ?_
    exact Nat.mul_lt_mul_of_pos_left unsure (by omega)
  unfold lowerPart
  omega

end Slidecast.Picture.Webp
