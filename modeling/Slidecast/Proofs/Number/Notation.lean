import Mathlib.Data.List.Basic
import Slidecast.Number.Notation

/-!
# Which characters numbers are written with

Natural numbers are written with digits.  A plain number and a number with a fixed number of places
have besides them at most a sign and a dot, or are one of three words (`mem_plain`, `mem_fixed`).
So what a number is followed by can be told from it by its first character.
-/

set_option autoImplicit false

namespace Slidecast.Number

theorem isDigit_of_mem_toString {c : Char} {n : Nat} (member : c ∈ (toString n).toList) :
    c.isDigit = true :=
  Nat.isDigit_of_mem_toDigits (b := 10) (n := n) (c := c) (by decide) (by decide)
    (by simpa using member)

/-- The characters of a number with a fixed number of places. -/
def IsOfFixed (c : Char) : Prop := c.isDigit = true ∨ c ∈ "-.NaNinf".toList

instance : DecidablePred IsOfFixed := fun _ => inferInstanceAs (Decidable (_ ∨ _))

theorem isOfFixed_of_all {text : String}
    (all : text.toList.all (fun c => decide (IsOfFixed c)) = true) {c : Char}
    (member : c ∈ text.toList) : IsOfFixed c :=
  of_decide_eq_true (List.all_eq_true.1 all c member)

/-- A sign may stand in front of a number. -/
theorem isOfFixed_signed {negative : Bool} {text : String}
    (all : ∀ c ∈ text.toList, IsOfFixed c) {c : Char}
    (member : c ∈ (if negative then "-" ++ text else text).toList) : IsOfFixed c := by
  split at member
  · rw [String.toList_append, List.mem_append] at member
    exact member.elim (isOfFixed_of_all (by decide)) (all c)
  · exact all c member

theorem isOfFixed_of_mem_toString {c : Char} {n : Nat} (member : c ∈ (toString n).toList) :
    IsOfFixed c :=
  .inl (isDigit_of_mem_toString member)

/-- The words for what is no finite number. -/
theorem isOfFixed_of_word {f : Format} {x : Binary f} (other : x.isFinite = false) {c : Char}
    (member : c ∈ x.plain.toList) : IsOfFixed c := by
  cases x with
  | nan =>
      change c ∈ "NaN".toList at member
      exact isOfFixed_of_all (by decide) member
  | infinite negative =>
      cases negative with
      | true =>
          change c ∈ "-inf".toList at member
          exact isOfFixed_of_all (by decide) member
      | false =>
          change c ∈ "inf".toList at member
          exact isOfFixed_of_all (by decide) member
  | finite negative significand exponent canonical => cases other

theorem mem_fixed {f : Format} {x : Binary f} {places : Nat} {c : Char}
    (member : c ∈ (x.fixed places).toList) : IsOfFixed c := by
  cases x with
  | nan => exact isOfFixed_of_word (x := (.nan : Binary f)) rfl member
  | infinite negative => exact isOfFixed_of_word (x := (.infinite negative : Binary f)) rfl member
  | finite negative significand exponent canonical =>
      refine isOfFixed_signed (fun c member => ?_) member
      split at member
      · exact isOfFixed_of_mem_toString member
      · simp only [String.toList_append, String.toList_ofList, List.mem_append] at member
        rcases member with (whole | dot) | padding | fraction
        · exact isOfFixed_of_mem_toString whole
        · exact isOfFixed_of_all (by decide) dot
        · rw [List.eq_of_mem_replicate padding]
          exact .inl rfl
        · exact isOfFixed_of_mem_toString fraction

theorem mem_positional {d : Decimal} {c : Char} (member : c ∈ (d.positional "").toList) :
    IsOfFixed c := by
  have zero : IsOfFixed '0' := .inl rfl
  have dot : IsOfFixed '.' := .inr (by decide)
  have digits : ∀ c ∈ d.text.toList, IsOfFixed c := fun c => isOfFixed_of_mem_toString
  unfold Decimal.positional at member
  dsimp only at member
  split at member
  · rw [String.append_empty, String.toList_ofList, List.mem_append] at member
    rcases member with digit | padding
    · exact digits c digit
    · rw [List.eq_of_mem_replicate padding]
      exact zero
  · split at member
    · rw [String.toList_ofList, List.mem_append, List.mem_cons] at member
      rcases member with front | rfl | back
      · exact digits c (List.mem_of_mem_take front)
      · exact dot
      · exact digits c (List.mem_of_mem_drop back)
    · rw [String.toList_append, List.mem_append] at member
      rcases member with front | member
      · exact isOfFixed_of_all (by decide) front
      · rw [String.toList_ofList, List.mem_append] at member
        rcases member with padding | digit
        · rw [List.eq_of_mem_replicate padding]
          exact zero
        · exact digits c digit

theorem mem_plain {f : Format} {x : Binary f} {c : Char} (member : c ∈ x.plain.toList) :
    IsOfFixed c := by
  cases x with
  | nan => exact isOfFixed_of_word (x := (.nan : Binary f)) rfl member
  | infinite negative => exact isOfFixed_of_word (x := (.infinite negative : Binary f)) rfl member
  | finite negative significand exponent canonical =>
      exact isOfFixed_signed (fun c => mem_positional) member

end Slidecast.Number
