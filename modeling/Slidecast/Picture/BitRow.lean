/-!
# Rows of bits

Packed files are read bit by bit.  The bits of a byte follow one another from the lowest one up or
from the highest one down, and a number of several bits is read with its lowest or its highest bit
first.  What is left is shorter by the bits that were read (`length_of_lowFirst?`), and the number
has no more bits than were read (`lowFirst?_lt`).
-/

set_option autoImplicit false

namespace Slidecast.Picture

/-- The bits of bytes, each byte from its lowest bit up. -/
def bitsUp (bytes : List UInt8) : List Bool :=
  bytes.flatMap fun b => (List.range 8).map b.toNat.testBit

/-- The bits of bytes, each byte from its highest bit down. -/
def bitsDown (bytes : List UInt8) : List Bool :=
  bytes.flatMap fun b => (List.range 8).reverse.map b.toNat.testBit

/-- The number in the first bits, lowest bit first, and the bits after it. -/
def lowFirst? : Nat → List Bool → Option (Nat × List Bool)
  | 0, bits => some (0, bits)
  | _ + 1, [] => none
  | count + 1, b :: bits =>
      match lowFirst? count bits with
      | some (n, rest) => some (b.toNat + 2 * n, rest)
      | none => none

/-- The number in the first bits, highest bit first, and the bits after it, when a number has been
read before them. -/
def highFirstAfter? (n : Nat) : Nat → List Bool → Option (Nat × List Bool)
  | 0, bits => some (n, bits)
  | _ + 1, [] => none
  | count + 1, b :: bits => highFirstAfter? (2 * n + b.toNat) count bits

/-- The number in the first bits, highest bit first, and the bits after it. -/
def highFirst? (count : Nat) (bits : List Bool) : Option (Nat × List Bool) :=
  highFirstAfter? 0 count bits

theorem length_of_lowFirst? {count n : Nat} {bits rest : List Bool}
    (h : lowFirst? count bits = some (n, rest)) : rest.length + count = bits.length := by
  induction count generalizing n bits rest with
  | zero =>
      simp only [lowFirst?, Option.some.injEq, Prod.mk.injEq] at h
      simp [h.2]
  | succ count ih =>
      cases bits with
      | nil => simp [lowFirst?] at h
      | cons b bits =>
          simp only [lowFirst?] at h
          split at h
          · next read =>
              simp only [Option.some.injEq, Prod.mk.injEq] at h
              have := ih read
              simp only [← h.2, List.length_cons]
              omega
          · simp at h

theorem lowFirst?_lt {count n : Nat} {bits rest : List Bool}
    (h : lowFirst? count bits = some (n, rest)) : n < Nat.pow 2 count := by
  induction count generalizing n bits rest with
  | zero =>
      simp only [lowFirst?, Option.some.injEq, Prod.mk.injEq] at h
      simp [← h.1]
  | succ count ih =>
      cases bits with
      | nil => simp [lowFirst?] at h
      | cons b bits =>
          simp only [lowFirst?] at h
          split at h
          · next read =>
              simp only [Option.some.injEq, Prod.mk.injEq] at h
              have less := ih read
              have bit : b.toNat ≤ 1 := by cases b <;> decide
              have double : Nat.pow 2 (count + 1) = Nat.pow 2 count * 2 := rfl
              rw [← h.1, double]
              omega
          · simp at h

end Slidecast.Picture
