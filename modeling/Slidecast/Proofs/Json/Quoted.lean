import Slidecast.Json.Quoted
import Slidecast.Proofs.Text.HexDigit

/-!
# Strings are read back

What `quote` writes, `unquote` reads: each character stands inside the quotes as something that is
read as this character and nothing more (`unquoteWithin_quoteChar`), so a whole string is read up to
its closing quote, whatever comes behind it (`unquote_quoted`).
-/

set_option autoImplicit false

namespace Slidecast.Json

open Text

/-! ## One character -/

/-- The digits of a code unit below 256 are read. -/
theorem codeUnit_digits {a b : Nat} (high : a < 16) (low : b < 16) (rest : List Char) :
    codeUnit ('0' :: '0' :: hexDigit a :: hexDigit b :: rest) = .ok (a * 16 + b, rest) := by
  have wide : ¬ (('0' :: '0' :: hexDigit a :: hexDigit b :: rest).take 4).foldl
      (fun size c => size + c.utf8Size) 0 < 4 := by
    have zero : '0'.utf8Size = 1 := rfl
    have first := (hexDigit a).utf8Size_pos
    have second := (hexDigit b).utf8Size_pos
    simp only [List.take_succ_cons, List.take_zero, List.foldl_cons, List.foldl_nil]
    omega
  have zero : hexValue? '0' = some 0 := rfl
  unfold codeUnit
  rw [if_neg wide]
  simp only [zero, hexValue?_hexDigit high, hexValue?_hexDigit low]
  simp

/-- A control character is read from the digits of its code unit. -/
theorem named_control {c : Char} (control : c.toNat < 32) (rest : List Char) :
    named ('u' :: '0' :: '0' :: hexDigit (c.toNat / 16) :: hexDigit (c.toNat % 16) :: rest) =
      .ok (c, rest) := by
  have unit := codeUnit_digits (show c.toNat / 16 < 16 by omega)
    (show c.toNat % 16 < 16 by omega) rest
  rw [Nat.div_add_mod'] at unit
  have noLow : isLowSurrogate c.toNat = false := by
    simp only [isLowSurrogate, Bool.and_eq_false_iff, decide_eq_false_iff_not]
    omega
  have noHigh : isHighSurrogate c.toNat = false := by
    simp only [isHighSurrogate, Bool.and_eq_false_iff, decide_eq_false_iff_not]
    omega
  simp only [named, namedByUnit, unit]
  simp [noLow, noHigh, Except.bind, Bind.bind]

/-- **A character is read back** from what stands for it inside quotes. -/
theorem unquoteWithin_quoteChar (fuel : Nat) (c : Char) (rest : List Char) :
    unquoteWithin (fuel + 1) (quoteChar c ++ rest) =
      (unquoteWithin fuel rest >>= fun (text, rest) => .ok (c :: text, rest)) := by
  have escaped {sign : Char} (sign_named : namedBySign? sign = some c) (notUnit : sign ≠ 'u') :
      unquoteWithin (fuel + 1) ('\\' :: sign :: rest) =
        (unquoteWithin fuel rest >>= fun (text, rest) => .ok (c :: text, rest)) := by
    have read : named (sign :: rest) = .ok (c, rest) := by
      unfold named
      split
      next empty => cases empty
      next unit => cases unit; exact absurd rfl notUnit
      next same => cases same; rw [sign_named]
    rw [unquoteWithin, read]
    rfl
  unfold quoteChar
  split
  next quotes => subst quotes; exact escaped rfl (by decide)
  split
  next backslash => subst backslash; exact escaped rfl (by decide)
  split
  next isBackspace => subst isBackspace; exact escaped rfl (by decide)
  split
  next isFeed => subst isFeed; exact escaped rfl (by decide)
  split
  next isLine => subst isLine; exact escaped rfl (by decide)
  split
  next isReturn => subst isReturn; exact escaped rfl (by decide)
  split
  next isTab => subst isTab; exact escaped rfl (by decide)
  split
  next control =>
    simp only [List.cons_append, List.nil_append]
    rw [unquoteWithin, named_control control]
    rfl
  next quotes backslash _ _ _ _ _ visible =>
    simp only [List.cons_append, List.nil_append]
    rw [unquoteWithin, if_neg visible]
    · exact quotes
    · exact backslash

/-! ## Whole strings -/

theorem quoteChar_ne_nil (c : Char) : quoteChar c ≠ [] := by
  unfold quoteChar
  repeat' split
  all_goals exact List.cons_ne_nil _ _

/-- What stands for a text is at least as long as the text. -/
theorem length_le_quoted (text : List Char) : text.length ≤ (text.flatMap quoteChar).length := by
  induction text with
  | nil => exact Nat.le_refl 0
  | cons c text ih =>
      have := List.length_pos_of_ne_nil (quoteChar_ne_nil c)
      rw [List.flatMap_cons, List.length_append, List.length_cons]
      omega

theorem unquoteWithin_quoted (text rest : List Char) (fuel : Nat) :
    unquoteWithin (text.length + 1 + fuel) (text.flatMap quoteChar ++ '"' :: rest) =
      .ok (text, rest) := by
  induction text with
  | nil =>
      rw [show ([] : List Char).length + 1 + fuel = fuel + 1 by simp [Nat.add_comm]]
      rfl
  | cons c text ih =>
      rw [List.flatMap_cons, List.append_assoc, List.length_cons, Nat.add_right_comm,
        unquoteWithin_quoteChar, ih]
      rfl

/-- **A string is read back** up to its closing quote. -/
theorem unquote_quoted (text : String) (rest : List Char) :
    unquote (text.toList.flatMap quoteChar ++ '"' :: rest) = .ok (text, rest) := by
  have enough := length_le_quoted text.toList
  obtain ⟨fuel, steps⟩ : ∃ fuel,
      (text.toList.flatMap quoteChar ++ '"' :: rest).length + 1 =
        text.toList.length + 1 + fuel := by
    refine ⟨(text.toList.flatMap quoteChar).length - text.toList.length + rest.length + 1, ?_⟩
    rw [List.length_append, List.length_cons]
    omega
  unfold unquote
  rw [steps, unquoteWithin_quoted]
  exact congrArg (fun text => Except.ok (text, rest)) String.ofList_toList

end Slidecast.Json
