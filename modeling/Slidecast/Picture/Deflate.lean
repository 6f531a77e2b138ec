import Slidecast.Number.Bits
import Slidecast.Picture.Octets
import Slidecast.Picture.PrefixCode

/-!
# Packed bytes

Packed bytes come in blocks.  A block holds bytes as they are, or symbols of a prefix code, which
stand for single bytes and for pieces of what has been unpacked already.  The codes are fixed ones
or stand in front of the symbols, packed with a code of their own.
-/

set_option autoImplicit false

namespace Slidecast.Picture.Deflate

open Number

/-- The lengths of pieces: where a symbol begins to count, and how many bits follow it. -/
def lengthSteps : Array (Nat × Nat) :=
  #[ (3, 0), (4, 0), (5, 0), (6, 0), (7, 0), (8, 0), (9, 0), (10, 0), (11, 1), (13, 1), (15, 1),
     (17, 1), (19, 2), (23, 2), (27, 2), (31, 2), (35, 3), (43, 3), (51, 3), (59, 3), (67, 4),
     (83, 4), (99, 4), (115, 4), (131, 5), (163, 5), (195, 5), (227, 5), (258, 0) ]

/-- The distances of pieces: where a symbol begins to count, and how many bits follow it. -/
def distanceSteps : Array (Nat × Nat) :=
  #[ (1, 0), (2, 0), (3, 0), (4, 0), (5, 1), (7, 1), (9, 2), (13, 2), (17, 3), (25, 3), (33, 4),
     (49, 4), (65, 5), (97, 5), (129, 6), (193, 6), (257, 7), (385, 7), (513, 8), (769, 8),
     (1025, 9), (1537, 9), (2049, 10), (3073, 10), (4097, 11), (6145, 11), (8193, 12), (12289, 12),
     (16385, 13), (24577, 13) ]

/-- The symbol that ends a block. -/
def blockEnd : Nat := 256

/-- A number that begins to count at a symbol and goes on with the bits after it. -/
def stepped? (steps : Array (Nat × Nat)) (symbol : Nat) (bits : List Bool) :
    Option (Nat × List Bool) :=
  match steps[symbol]? with
  | none => none
  | some (start, more) =>
      match lowFirst? more bits with
      | some (n, bits) => some (start + n, bits)
      | none => none

/-- The bytes with a piece added that begins so far before their end; the piece may reach into
itself. -/
def addPiece (distance : Nat) : Nat → Array UInt8 → Array UInt8
  | 0, out => out
  | length + 1, out => addPiece distance length (out.push ((out[out.size - distance]?).getD 0))

/-- A piece adds as many bytes as it is long. -/
theorem size_addPiece (distance length : Nat) (out : Array UInt8) :
    (addPiece distance length out).size = out.size + length := by
  induction length generalizing out with
  | zero => rfl
  | succ length ih =>
      rw [addPiece, ih, Array.size_push]
      omega

/-- The codes of a block: one for bytes and lengths, one for distances. -/
structure Codes where
  bytes : PrefixCode
  distances : PrefixCode

/-- What the symbols of a block add to some bytes, and the bits after the block. -/
def symbols? (codes : Codes) : Nat → Array UInt8 → List Bool → Option (Array UInt8 × List Bool)
  | 0, _, _ => none
  | fuel + 1, out, bits =>
      match codes.bytes.next? bits with
      | none => none
      | some (symbol, bits) =>
          if symbol < blockEnd then symbols? codes fuel (out.push (UInt8.ofNat symbol)) bits
          else if symbol = blockEnd then some (out, bits)
          else
            match stepped? lengthSteps (symbol - blockEnd - 1) bits with
            | none => none
            | some (length, bits) =>
                match codes.distances.next? bits with
                | none => none
                | some (symbol, bits) =>
                    match stepped? distanceSteps symbol bits with
                    | none => none
                    | some (distance, bits) =>
                        if distance ≤ out.size then
                          symbols? codes fuel (addPiece distance length out) bits
                        else none

/-! ## Codes -/

/-- The codes of blocks that do not tell their own. -/
def fixedCodes : Codes :=
  { bytes := .ofLengths (List.replicate 144 8 ++ List.replicate 112 9 ++ List.replicate 24 7 ++
      List.replicate 8 8)
    distances := .ofLengths (List.replicate 30 5) }

/-- In which order the lengths of the code for lengths are told. -/
def lengthOrder : List Nat :=
  [16, 17, 18, 0, 8, 7, 9, 6, 10, 5, 11, 4, 12, 3, 13, 2, 14, 1, 15]

/-- So many numbers of three bits. -/
def threes? : Nat → List Bool → Option (List Nat × List Bool)
  | 0, bits => some ([], bits)
  | count + 1, bits => do
      let (n, bits) ← lowFirst? 3 bits
      let (numbers, bits) ← threes? count bits
      some (n :: numbers, bits)

/-- So many lengths of rows, of which some are told already; the last one comes first. -/
def lengths? (code : PrefixCode) (count : Nat) :
    Nat → List Nat → List Bool → Option (List Nat × List Bool)
  | 0, _, _ => none
  | fuel + 1, told, bits =>
      if told.length = count then some (told, bits)
      else if count < told.length then none
      else do
        let (symbol, bits) ← code.next? bits
        if symbol < 16 then lengths? code count fuel (symbol :: told) bits
        else if symbol = 16 then
          let last ← told.head?
          let (n, bits) ← lowFirst? 2 bits
          lengths? code count fuel (List.replicate (3 + n) last ++ told) bits
        else if symbol = 17 then
          let (n, bits) ← lowFirst? 3 bits
          lengths? code count fuel (List.replicate (3 + n) 0 ++ told) bits
        else
          let (n, bits) ← lowFirst? 7 bits
          lengths? code count fuel (List.replicate (11 + n) 0 ++ told) bits

/-- Whether a code may serve for distances: it is complete, or it has at most one row, of one
bit. -/
def servesDistances (code : PrefixCode) : Bool :=
  code.isComplete || code.symbols.isEmpty || code.counts.head? = some 1 && code.symbols.size = 1

/-- The codes that a block tells, and the bits after them. -/
def toldCodes? (bits : List Bool) : Option (Codes × List Bool) := do
  let (byteCount, bits) ← lowFirst? 5 bits
  let (distanceCount, bits) ← lowFirst? 5 bits
  let (lengthCount, bits) ← lowFirst? 4 bits
  let byteCount := byteCount + 257
  let distanceCount := distanceCount + 1
  guard (byteCount ≤ 286)
  let (lengths, bits) ← threes? (lengthCount + 4) bits
  let lengthOf (symbol : Nat) : Nat := ((lengthOrder.zip lengths).lookup symbol).getD 0
  let lengthCode := PrefixCode.ofLengths ((List.range 19).map lengthOf)
  guard lengthCode.isComplete
  let count := byteCount + distanceCount
  let (told, bits) ← lengths? lengthCode count (count + 1) [] bits
  let told := told.reverse
  let codes : Codes :=
    { bytes := .ofLengths (told.take byteCount), distances := .ofLengths (told.drop byteCount) }
  guard (codes.bytes.isComplete && servesDistances codes.distances)
  guard (codes.bytes.symbols.contains blockEnd)
  some (codes, bits)

/-! ## Blocks -/

/-- So many bytes that are kept as they are, after some others. -/
def keptBytes? : Nat → Array UInt8 → List Bool → Option (Array UInt8 × List Bool)
  | 0, out, bits => some (out, bits)
  | count + 1, out, bits =>
      match lowFirst? 8 bits with
      | some (n, bits) => keptBytes? count (out.push (UInt8.ofNat n)) bits
      | none => none

/-- The bits from the next beginning of a byte on. -/
def fromByte (bits : List Bool) : List Bool := bits.drop (bits.length % 8)

/-- What a block of a kind adds to some bytes, and the bits after it. -/
def block? (kind : Nat) (out : Array UInt8) (bits : List Bool) :
    Option (Array UInt8 × List Bool) := do
  if kind = 0 then
    let (length, bits) ← lowFirst? 16 (fromByte bits)
    let (check, bits) ← lowFirst? 16 bits
    guard (length + check = largest 16)
    keptBytes? length out bits
  else if kind = 1 then symbols? fixedCodes (bits.length + 1) out bits
  else
    guard (kind = 2)
    let (codes, bits) ← toldCodes? bits
    symbols? codes (bits.length + 1) out bits

/-- What blocks add to some bytes, up to the last one, and the bits after it. -/
def blocks? : Nat → Array UInt8 → List Bool → Option (Array UInt8 × List Bool)
  | 0, _, _ => none
  | fuel + 1, out, bits => do
      let (isLast, bits) ← lowFirst? 1 bits
      let (kind, bits) ← lowFirst? 2 bits
      let (out, bits) ← block? kind out bits
      if isLast = 1 then some (out, bits) else blocks? fuel out bits

/-- The bytes that are packed in others, with two bytes in front of them that tell the way of
packing and four bytes behind them. -/
def unpacked? (bytes : List UInt8) : Option (Array UInt8) :=
  match bytes with
  | way :: more :: packed => do
      guard (way.toNat % 16 = 8 ∧ way.toNat / 16 ≤ 7)
      guard (more.toNat / 32 % 2 = 0 ∧ fromBig [way, more] % 31 = 0)
      let bits := bitsUp packed
      let (out, bits) ← blocks? (bits.length + 1) #[] bits
      guard (32 ≤ (fromByte bits).length)
      some out
  | _ => none

end Slidecast.Picture.Deflate
