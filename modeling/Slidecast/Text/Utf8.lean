/-!
# UTF-8 with errors

Bytes are read as UTF-8 one after the other, and what is not UTF-8 is replaced: a replacement
character stands for each longest row of bytes that begins a character and breaks off, and for each
byte that begins none.

Where bytes are kept in a text, each of them is the character with its number.  Whatever is put in
as UTF-8 is then read back (`ofUtf8`, `utf8Of`).
-/

set_option autoImplicit false

namespace Slidecast.Text

/-- A character that has been begun: the bits so far, and the ranges in which the bytes lie that are
missing. -/
structure Begun where
  bits : Nat
  range : Nat × Nat
  others : List (Nat × Nat)

/-- Any byte that continues a character. -/
def anyTail : Nat × Nat := (0x80, 0xBF)

/-- What stands for bytes that are no character. -/
def replacement : Char := '\uFFFD'

/-- What a byte is at the beginning of a character: a character by itself, the beginning of one, or
none. -/
def beginning (b : Nat) : List Char × Option Begun :=
  if b < 0x80 then ([Char.ofNat b], none)
  else if b < 0xC2 then ([replacement], none)
  else if b < 0xE0 then ([], some ⟨b - 0xC0, anyTail, []⟩)
  else if b = 0xE0 then ([], some ⟨0, (0xA0, 0xBF), [anyTail]⟩)
  else if b = 0xED then ([], some ⟨0xD, (0x80, 0x9F), [anyTail]⟩)
  else if b < 0xF0 then ([], some ⟨b - 0xE0, anyTail, [anyTail]⟩)
  else if b = 0xF0 then ([], some ⟨0, (0x90, 0xBF), [anyTail, anyTail]⟩)
  else if b < 0xF4 then ([], some ⟨b - 0xF0, anyTail, [anyTail, anyTail]⟩)
  else if b = 0xF4 then ([], some ⟨4, (0x80, 0x8F), [anyTail, anyTail]⟩)
  else ([replacement], none)

/-- The character that is complete with a byte, or the one that is still begun. -/
def Begun.continued (begun : Begun) (b : Nat) : List Char × Option Begun :=
  let bits := 64 * begun.bits + (b - 0x80)
  match begun.others with
  | [] => ([Char.ofNat bits], none)
  | range :: others => ([], some ⟨bits, range, others⟩)

/-- What a byte gives, and what is begun after it.  A byte that does not continue what has been begun
breaks it off. -/
def readByte (begun : Option Begun) (b : Nat) : List Char × Option Begun :=
  match begun with
  | none => beginning b
  | some begun =>
      if begun.range.1 ≤ b ∧ b ≤ begun.range.2 then begun.continued b
      else (replacement :: (beginning b).1, (beginning b).2)

/-- The characters of a row of bytes when something may have been begun. -/
def readFrom : Option Begun → List UInt8 → List Char
  | none, [] => []
  | some _, [] => [replacement]
  | begun, b :: bytes =>
      (readByte begun b.toNat).1 ++ readFrom (readByte begun b.toNat).2 bytes

/-- The characters of a row of bytes. -/
def readUtf8 (bytes : List UInt8) : List Char := readFrom none bytes

/-- The bytes of a row of characters. -/
def writeUtf8 (cs : List Char) : List UInt8 := cs.flatMap String.utf8EncodeChar

/-! ## Bytes that are kept as characters -/

/-- The byte that is kept as a character; what is no byte counts as one that no character has. -/
def byteOf (c : Char) : UInt8 := UInt8.ofNat (min c.toNat 0xFF)

/-- The characters that a row of bytes is read as, each byte being kept as the character with its
number. -/
def ofUtf8 (kept : List Char) : List Char := readUtf8 (kept.map byteOf)

/-- The bytes of a row of characters, each kept as the character with its number. -/
def utf8Of (cs : List Char) : List Char := (writeUtf8 cs).map fun b => Char.ofNat b.toNat

/-- The text that kept bytes are read as. -/
@[irreducible]
def shown (kept : String) : String := String.ofList (ofUtf8 kept.toList)

/-- The bytes of a text, as they are kept. -/
@[irreducible]
def kept (text : String) : String := String.ofList (utf8Of text.toList)

end Slidecast.Text
