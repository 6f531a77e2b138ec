/-!
# Checksums

A checksum tells whether bytes have been damaged: it is what is left of the polynomial whose
coefficients are their bits, after a division by a fixed polynomial.  Bytes can be added one row
after another (`absorbed_append`).
-/

set_option autoImplicit false

namespace Slidecast.Picture.Checksum

/-- The polynomial that divides, without its highest coefficient; the lowest bit comes first. -/
def divisor : UInt32 := 0xEDB88320

/-- The rest when so many more bits have been taken in. -/
def shifted : Nat → UInt32 → UInt32
  | 0, rest => rest
  | bits + 1, rest =>
      shifted bits (if rest &&& 1 = 1 then (rest >>> 1) ^^^ divisor else rest >>> 1)

/-- The rest when some bytes have been taken in. -/
def absorbed (rest : UInt32) (bytes : List UInt8) : UInt32 :=
  bytes.foldl (fun rest b => shifted 8 (rest ^^^ b.toUInt32)) rest

/-- The checksum of some bytes. -/
def checksum (bytes : List UInt8) : Nat := (absorbed 0xFFFFFFFF bytes ^^^ 0xFFFFFFFF).toNat

theorem absorbed_append (rest : UInt32) (bytes more : List UInt8) :
    absorbed rest (bytes ++ more) = absorbed (absorbed rest bytes) more := by
  simp [absorbed]

end Slidecast.Picture.Checksum
