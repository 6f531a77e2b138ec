import Slidecast.Text.Utf8

/-!
# Rows of bytes

The programs of a machine read and write bytes and know nothing of characters.  A row of bytes is
kept as a row of characters, each of which has the number of a byte.
-/

set_option autoImplicit false

namespace Slidecast.Machine

/-- A row of bytes; each byte is the character with its number. -/
abbrev Bytes : Type := List Char

namespace Bytes

/-- The row of the given bytes. -/
def ofOctets (octets : List UInt8) : Bytes := octets.map fun b => Char.ofNat b.toNat

/-- The bytes of a row. -/
def octets (bytes : Bytes) : List UInt8 := bytes.map fun c => UInt8.ofNat c.toNat

/-- The bytes of a text. -/
def ofText (text : String) : Bytes := ofOctets text.toUTF8.toList

/-- The text of a row; what is not UTF-8 is replaced. -/
def text (bytes : Bytes) : String := String.ofList (Text.readUtf8 bytes.octets)

/-- The characters of a row as they are kept. -/
def name (bytes : Bytes) : String := String.ofList bytes

/-- The rows between the occurrences of a byte. -/
def splitAt (separator : Char) (bytes : Bytes) : List Bytes :=
  let (rows, open_) := bytes.foldl
    (fun (rows, open_) c =>
      if c = separator then (open_.reverse :: rows, []) else (rows, c :: open_))
    (([], []) : List Bytes × Bytes)
  (open_.reverse :: rows).reverse

/-- The rows with another one between them. -/
def joined (separator : Bytes) (rows : List Bytes) : Bytes := (rows.intersperse separator).flatten

/-- A number in decimal digits. -/
def ofNat (n : Nat) : Bytes := (toString n).toList

/-- A whole number in decimal digits. -/
def ofInt (n : Int) : Bytes := (toString n).toList

/-- The number that a row of decimal digits stands for. -/
def nat? (bytes : Bytes) : Option Nat :=
  if bytes.isEmpty ∨ ¬ bytes.all Char.isDigit then none
  else some (bytes.foldl (fun n c => 10 * n + (c.toNat - 48)) 0)

end Bytes

end Slidecast.Machine
