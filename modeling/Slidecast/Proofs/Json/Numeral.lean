import Slidecast.Json.Decoder
import Slidecast.Proofs.Sequence
import Mathlib.Data.List.TakeWhile

/-!
# Where a number ends

A number is read up to the first character that cannot belong to it.  So what is read from a text
does not depend on what stands behind the text, if that begins neither with a digit nor with a point
or an exponent (`Stops`): a number that was read is read again, with the same rest and all that
follows (`numeral_append`).
-/

set_option autoImplicit false

namespace Slidecast.Json

open Slidecast.Number

/-- A text does not continue a number in front of it. -/
structure Stops (rest : List Char) : Prop where
  noDigit : startsWithDigit rest = false
  noPart : continues rest = false

theorem continues_cons (c : Char) (cs : List Char) :
    continues (c :: cs) = decide (c = '.' ∨ c = 'e' ∨ c = 'E') := by
  unfold continues
  split
  next same => cases same; rfl
  next same => cases same; rfl
  next same => cases same; rfl
  next noPoint noLower noUpper =>
    symm
    rw [decide_eq_false_iff_not]
    rintro (rfl | rfl | rfl)
    · exact noPoint cs rfl
    · exact noLower cs rfl
    · exact noUpper cs rfl

theorem stops_nil : Stops [] := ⟨rfl, rfl⟩

/-- Only the first character counts. -/
theorem Stops.cons {c : Char} {rest : List Char} (stops : Stops [c]) : Stops (c :: rest) :=
  ⟨stops.noDigit, (continues_cons c rest).trans ((continues_cons c []).symm.trans stops.noPart)⟩

section Append

variable {negative : Bool} {significand : Nat} {exponent : Int} {cs rest after : List Char}
  {x : Double}

/-! ## Digits in front -/

theorem takeWhile_of_stops (stops : Stops rest) : rest.takeWhile Char.isDigit = [] := by
  cases rest with
  | nil => rfl
  | cons c rest =>
      have noDigit : c.isDigit = false := stops.noDigit
      exact List.takeWhile_cons_of_neg (by simp [noDigit])

theorem dropWhile_of_stops (stops : Stops rest) : rest.dropWhile Char.isDigit = rest := by
  cases rest with
  | nil => rfl
  | cons c rest =>
      have noDigit : c.isDigit = false := stops.noDigit
      exact List.dropWhile_cons_of_neg (by simp [noDigit])

theorem takeWhile_append_of_stops (stops : Stops rest) :
    (cs ++ rest).takeWhile Char.isDigit = cs.takeWhile Char.isDigit := by
  rw [List.takeWhile_append, takeWhile_of_stops stops]
  split
  next all =>
    rw [List.append_nil]
    exact ((List.takeWhile_prefix _).eq_of_length all).symm
  next => rfl

theorem dropWhile_append_of_stops (stops : Stops rest) :
    (cs ++ rest).dropWhile Char.isDigit = cs.dropWhile Char.isDigit ++ rest := by
  rw [List.dropWhile_append]
  split
  next all => rw [dropWhile_of_stops stops, List.isEmpty_iff.1 all, List.nil_append]
  next => rfl

theorem startsWithDigit_append (stops : Stops rest) :
    startsWithDigit (cs ++ rest) = startsWithDigit cs := by
  cases cs with
  | nil => exact stops.noDigit
  | cons c cs => rfl

theorem continues_append (stops : Stops rest) : continues (cs ++ rest) = continues cs := by
  cases cs with
  | nil => exact stops.noPart
  | cons c cs => rw [List.cons_append, continues_cons, continues_cons]

/-! ## The parts of a number

The parts are read inside larger functions.  They have names of their own here, so that each is
shown to end where it ends. -/

/-- What is read of an exponent behind its sign. -/
def unsignedExponent (negative : Bool) (significand : Nat) (exponent : Int) (down : Bool)
    (cs : List Char) : Except Fault (Double × List Char) :=
  match cs with
  | [] => .error .endOfText
  | _ :: _ =>
      if (cs.takeWhile Char.isDigit).isEmpty then .error .malformed
      else if exponentLimit < ofDigits (cs.takeWhile Char.isDigit) then
        if significand ≠ 0 ∧ !down then .error .malformed
        else .ok (Binary.zero negative, cs.dropWhile Char.isDigit)
      else do
        let x ← scaled negative significand
          (if down then exponent - ofDigits (cs.takeWhile Char.isDigit)
            else exponent + ofDigits (cs.takeWhile Char.isDigit))
        .ok (x, cs.dropWhile Char.isDigit)

/-- What is read behind the digits of a fraction. -/
def exponentOrEnd (negative : Bool) (significand : Nat) (exponent : Int) (cs : List Char) :
    Except Fault (Double × List Char) :=
  match cs with
  | 'e' :: rest | 'E' :: rest => exponentPart negative significand exponent rest
  | rest => do .ok (← scaled negative significand exponent, rest)

theorem exponentPart_cons (c : Char) (cs : List Char) :
    exponentPart negative significand exponent (c :: cs) =
      if c = '+' then unsignedExponent negative significand exponent false cs
      else if c = '-' then unsignedExponent negative significand exponent true cs
      else unsignedExponent negative significand exponent false (c :: cs) := by
  split
  next plus => subst plus; rfl
  split
  next minus => subst minus; rfl
  next noPlus noMinus =>
    unfold exponentPart
    split
    next down signed same =>
      split at same
      next first => cases first; exact absurd rfl noPlus
      next first => cases first; exact absurd rfl noMinus
      next => cases same; rfl

theorem fractionPart_point (cs : List Char) :
    fractionPart negative significand exponent ('.' :: cs) =
      if (cs.takeWhile Char.isDigit).isEmpty then
        .error (if (cs.dropWhile Char.isDigit).isEmpty then .endOfText else .malformed)
      else
        exponentOrEnd negative (accumulate significand (cs.takeWhile Char.isDigit)).1
          (exponent - (((cs.takeWhile Char.isDigit).length : Int) -
            (accumulate significand (cs.takeWhile Char.isDigit)).2))
          (cs.dropWhile Char.isDigit) :=
  rfl

theorem fractionPart_of_ne_point (noPoint : ∀ tail, cs ≠ '.' :: tail) :
    fractionPart negative significand exponent cs =
      exponentOrEnd negative significand exponent cs := by
  unfold fractionPart exponentOrEnd
  split
  next => exact absurd rfl (noPoint _)
  next => rfl
  next => rfl
  next noLower noUpper =>
    split
    next => exact absurd rfl (noLower _)
    next => exact absurd rfl (noUpper _)
    next => rfl

theorem exponentOrEnd_of_stops (stops : Stops cs) :
    exponentOrEnd negative significand exponent cs =
      (scaled negative significand exponent >>= fun x => .ok (x, cs)) := by
  have noPart := stops.noPart
  unfold exponentOrEnd
  split
  next => cases noPart
  next => cases noPart
  next => rfl

theorem unsignedExponent_append {down : Bool} (stops : Stops rest)
    (read : unsignedExponent negative significand exponent down cs = .ok (x, after)) :
    unsignedExponent negative significand exponent down (cs ++ rest) = .ok (x, after ++ rest) := by
  cases cs with
  | nil => cases read
  | cons c cs =>
      rw [List.cons_append, unsignedExponent, ← List.cons_append, takeWhile_append_of_stops stops,
        dropWhile_append_of_stops stops]
      rw [unsignedExponent] at read
      split at read
      next => cases read
      next digits =>
        rw [if_neg digits]
        split at read
        next far =>
          rw [if_pos far]
          split at read
          next => cases read
          next zero => rw [if_neg zero]; cases read; rfl
        next near =>
          rw [if_neg near]
          obtain ⟨y, value, same⟩ := bind_eq_ok.1 read
          cases same
          rw [value]
          rfl

theorem exponentPart_append (stops : Stops rest)
    (read : exponentPart negative significand exponent cs = .ok (x, after)) :
    exponentPart negative significand exponent (cs ++ rest) = .ok (x, after ++ rest) := by
  cases cs with
  | nil => cases read
  | cons c cs =>
      rw [exponentPart_cons] at read
      rw [List.cons_append, exponentPart_cons]
      split at read
      next plus => rw [if_pos plus]; exact unsignedExponent_append stops read
      next noPlus =>
        rw [if_neg noPlus]
        split at read
        next minus => rw [if_pos minus]; exact unsignedExponent_append stops read
        next noMinus =>
          rw [if_neg noMinus, ← List.cons_append]
          exact unsignedExponent_append stops read

theorem exponentOrEnd_append (stops : Stops rest)
    (read : exponentOrEnd negative significand exponent cs = .ok (x, after)) :
    exponentOrEnd negative significand exponent (cs ++ rest) = .ok (x, after ++ rest) := by
  cases cs with
  | nil =>
      rw [exponentOrEnd_of_stops stops_nil] at read
      rw [List.nil_append, exponentOrEnd_of_stops stops]
      obtain ⟨y, value, same⟩ := bind_eq_ok.1 read
      cases same
      rw [value]
      rfl
  | cons c cs =>
      unfold exponentOrEnd at read ⊢
      split at read
      next lower => cases lower; exact exponentPart_append stops read
      next upper => cases upper; exact exponentPart_append stops read
      next noLower noUpper =>
        obtain ⟨y, value, same⟩ := bind_eq_ok.1 read
        cases same
        split
        next lower => cases lower; exact absurd rfl (noLower _)
        next upper => cases upper; exact absurd rfl (noUpper _)
        next => rw [value]; rfl

theorem fractionPart_append (stops : Stops rest)
    (read : fractionPart negative significand exponent cs = .ok (x, after)) :
    fractionPart negative significand exponent (cs ++ rest) = .ok (x, after ++ rest) := by
  by_cases point : ∃ tail, cs = '.' :: tail
  · obtain ⟨tail, rfl⟩ := point
    rw [fractionPart_point] at read
    rw [List.cons_append, fractionPart_point, takeWhile_append_of_stops stops,
      dropWhile_append_of_stops stops]
    split at read
    next => cases read
    next digits =>
      rw [if_neg digits]
      exact exponentOrEnd_append stops read
  · have noPoint : ∀ tail, cs ≠ '.' :: tail := fun tail same => point ⟨tail, same⟩
    -- If there is nothing in front, a point would have to come from the rest.
    have stillNoPoint : ∀ tail, cs ++ rest ≠ '.' :: tail := by
      intro tail same
      cases cs with
      | nil =>
          have noPart := stops.noPart
          rw [← List.nil_append rest, same] at noPart
          cases noPart
      | cons c cs =>
          cases same
          exact noPoint cs rfl
    rw [fractionPart_of_ne_point noPoint] at read
    rw [fractionPart_of_ne_point stillNoPoint]
    exact exponentOrEnd_append stops read

/-! ## Numbers -/

/-- **A number ends where it ends**: what stands behind it is left over, and nothing else changes. -/
theorem numeral_append {value : Numeral} (stops : Stops rest)
    (read : numeral negative cs = .ok (value, after)) :
    numeral negative (cs ++ rest) = .ok (value, after ++ rest) := by
  cases cs with
  | nil => cases read
  | cons c cs =>
      rw [numeral] at read
      rw [List.cons_append, numeral, startsWithDigit_append stops, ← List.cons_append,
        takeWhile_append_of_stops stops, dropWhile_append_of_stops stops]
      dsimp only at read ⊢
      rw [continues_append stops]
      split at read
      next => cases read
      next digit =>
        rw [if_neg digit]
        split at read
        next => cases read
        next noZero =>
          rw [if_neg noZero]
          split at read
          next whole => rw [if_pos whole]; cases read; rfl
          next part =>
            rw [if_neg part]
            obtain ⟨⟨y, left⟩, value, same⟩ := bind_eq_ok.1 read
            cases same
            rw [fractionPart_append stops value]
            rfl

end Append

end Slidecast.Json
