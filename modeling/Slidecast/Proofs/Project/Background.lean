import Slidecast.Project.Basic
import Slidecast.Proofs.Text.HexDigit
import Mathlib.Data.List.TakeWhile

/-!
# The background of a project

A background is accepted if it is written as three pairs of hexadecimal digits behind any number of
hash signs, and gives the colour with the values of the pairs; every colour is read back from its
digits, in upper or lower case.  But a pair is read as a number, and a number may have a sign: a pair
of a plus sign and a digit is accepted too, and nothing else is (`background_read_iff`).
-/

set_option autoImplicit false

namespace Slidecast

open Files Text

/-! ## What a text spells -/

/-- Two digits and the value of the number they stand for. -/
def IsDigitPair (high low : Char) (n : Nat) : Prop :=
  ∃ a b, IsHexDigit high a ∧ IsHexDigit low b ∧ n = 16 * a + b

/-- A plus sign in front of a digit, and the value of the digit. -/
def IsSignedDigit (high low : Char) (n : Nat) : Prop := high = '+' ∧ IsHexDigit low n

/-- A text consists of hash signs and three pairs for the channels of a colour; `Pair` says which
pairs stand for which values. -/
def Spells (Pair : Char → Char → Nat → Prop) (text : String) (colour : Colour) : Prop :=
  ∃ hashes r r' g g' b b',
    text.toList = List.replicate hashes '#' ++ [r, r', g, g', b, b'] ∧
      Pair r r' colour.red ∧ Pair g g' colour.green ∧ Pair b b' colour.blue

/-- The channels of a colour take values of eight bits. -/
def InRange (colour : Colour) : Prop :=
  colour.red < 256 ∧ colour.green < 256 ∧ colour.blue < 256

instance (colour : Colour) : Decidable (InRange colour) := inferInstanceAs (Decidable (_ ∧ _))

/-- The two digits of a value of eight bits. -/
def pairOf (upper : Bool) (n : Nat) : List Char :=
  [(hexDigits upper).getD (n / 16) '0', (hexDigits upper).getD (n % 16) '0']

/-- A colour with six digits behind a hash sign. -/
def hexText (upper : Bool) (colour : Colour) : String :=
  String.ofList ('#' ::
    (pairOf upper colour.red ++ pairOf upper colour.green ++ pairOf upper colour.blue))

/-! ## What is read -/

theorem hexPair?_eq_some_iff {high low : Char} {n : Nat} :
    hexPair? high low = some n ↔ IsDigitPair high low n ∨ IsSignedDigit high low n := by
  unfold hexPair?
  split
  next sign =>
    subst sign
    have noDigit : ¬ IsDigitPair '+' low n := by
      rintro ⟨a, b, digit, _⟩
      exact not_isHexDigit rfl a digit
    rw [hexValue?_eq_some_iff, or_iff_right noDigit]
    exact (and_iff_right rfl).symm
  next digit =>
    have noSign : ¬ IsSignedDigit high low n := fun signed => digit signed.1
    rw [or_iff_left noSign]
    simp only [Option.bind_eq_bind, Option.bind_eq_some_iff, Option.pure_def, Option.some.injEq,
      hexValue?_eq_some_iff]
    constructor
    · rintro ⟨a, first, b, second, rfl⟩
      exact ⟨a, b, first, second, rfl⟩
    · rintro ⟨a, b, first, second, rfl⟩
      exact ⟨a, first, b, second, rfl⟩

/-- No pair begins with a hash sign. -/
theorem ne_hash_of_hexPair? {high low : Char} {n : Nat} (read : hexPair? high low = some n) :
    high ≠ '#' := by
  rintro rfl
  rcases hexPair?_eq_some_iff.1 read with ⟨a, b, digit, _⟩ | ⟨sign, _⟩
  · exact not_isHexDigit rfl a digit
  · exact absurd sign (by decide)

/-- The row in front of which hash signs are passed over. -/
theorem dropWhile_hash {hashes : Nat} {c : Char} {cs : List Char} (other : c ≠ '#') :
    (List.replicate hashes '#' ++ c :: cs).dropWhile (· = '#') = c :: cs := by
  induction hashes with
  | zero => simp [other]
  | succ hashes ih =>
      rw [List.replicate_succ, List.cons_append, List.dropWhile_cons_of_pos (by decide)]
      exact ih

theorem exists_replicate_hash (cs : List Char) :
    ∃ hashes, cs = List.replicate hashes '#' ++ cs.dropWhile (· = '#') := by
  have hash : ∀ c ∈ cs.takeWhile (· = '#'), c = '#' := fun c member =>
    of_decide_eq_true (List.mem_takeWhile_imp (p := (decide <| · = '#')) member)
  refine ⟨(cs.takeWhile (· = '#')).length, ?_⟩
  rw [← List.eq_replicate_of_mem hash, List.takeWhile_append_dropWhile]

theorem hexColour?_eq_some_iff {text : String} {colour : Colour} :
    hexColour? text = some colour ↔
      Spells (fun high low n => hexPair? high low = some n) text colour := by
  unfold hexColour?
  constructor
  · intro read
    split at read
    next r r' g g' b b' row =>
      simp only [Option.bind_eq_bind, Option.bind_eq_some_iff, Option.pure_def,
        Option.some.injEq] at read
      obtain ⟨red, first, green, second, blue, third, rfl⟩ := read
      obtain ⟨hashes, split⟩ := exists_replicate_hash text.toList
      exact ⟨hashes, r, r', g, g', b, b', row ▸ split, first, second, third⟩
    next => cases read
  · rintro ⟨hashes, r, r', g, g', b, b', row, first, second, third⟩
    rw [row, dropWhile_hash (ne_hash_of_hexPair? first)]
    simp [first, second, third]

theorem backgroundColour_eq_ok_iff {p : Project} {colour : Colour} :
    p.backgroundColour = .ok colour ↔ hexColour? p.background = some colour := by
  unfold Project.backgroundColour
  cases hexColour? p.background <;> simp

/-- A background that is not accepted is named in the refusal. -/
theorem backgroundColour_of_refused {p : Project}
    (refused : ∀ colour, p.backgroundColour ≠ .ok colour) :
    p.backgroundColour = .error (.invalidInput (.background p.background)) := by
  unfold Project.backgroundColour at refused ⊢
  cases read : hexColour? p.background with
  | none => rfl
  | some colour => exact absurd (by rw [read]) (refused colour)

/-! ## Pairs with and without a sign -/

theorem IsDigitPair.high_ne {high low : Char} {n : Nat} (pair : IsDigitPair high low n) :
    high ≠ '+' := by
  rintro rfl
  obtain ⟨a, b, digit, _⟩ := pair
  exact not_isHexDigit rfl a digit

theorem IsDigitPair.low_ne {high low : Char} {n : Nat} (pair : IsDigitPair high low n) :
    low ≠ '+' := by
  rintro rfl
  obtain ⟨a, b, -, digit, -⟩ := pair
  exact not_isHexDigit rfl b digit

theorem IsDigitPair.lt {high low : Char} {n : Nat} (pair : IsDigitPair high low n) : n < 256 := by
  obtain ⟨a, b, first, second, rfl⟩ := pair
  have := first.lt
  have := second.lt
  omega

theorem Spells.mono {Pair Pair' : Char → Char → Nat → Prop} {text : String} {colour : Colour}
    (weaker : ∀ high low n, Pair high low n → Pair' high low n) (spells : Spells Pair text colour) :
    Spells Pair' text colour := by
  obtain ⟨hashes, r, r', g, g', b, b', row, red, green, blue⟩ := spells
  exact ⟨hashes, r, r', g, g', b, b', row, weaker _ _ _ red, weaker _ _ _ green,
    weaker _ _ _ blue⟩

/-- Pairs of digits hold no plus sign. -/
theorem Spells.plus_notMem {text : String} {colour : Colour}
    (spells : Spells IsDigitPair text colour) : '+' ∉ text.toList := by
  obtain ⟨hashes, r, r', g, g', b, b', row, red, green, blue⟩ := spells
  have noHash : '+' ∉ List.replicate hashes '#' := fun member =>
    absurd (List.eq_of_mem_replicate member) (by decide)
  rw [row, List.mem_append, not_or]
  refine ⟨noHash, ?_⟩
  simp only [List.mem_cons, List.not_mem_nil, or_false, not_or]
  exact ⟨red.high_ne.symm, red.low_ne.symm, green.high_ne.symm, green.low_ne.symm,
    blue.high_ne.symm, blue.low_ne.symm⟩

/-- Without a plus sign in the text, no pair has a sign. -/
theorem Spells.unsigned {text : String} {colour : Colour} (plain : '+' ∉ text.toList)
    (spells : Spells (fun high low n => IsDigitPair high low n ∨ IsSignedDigit high low n) text
      colour) :
    Spells IsDigitPair text colour := by
  obtain ⟨hashes, r, r', g, g', b, b', row, red, green, blue⟩ := spells
  rw [row, List.mem_append, not_or] at plain
  simp only [List.mem_cons, List.not_mem_nil, or_false, not_or] at plain
  obtain ⟨-, noRed, -, noGreen, -, noBlue, -⟩ := plain
  have pair {high low : Char} {n : Nat} (noSign : ¬ '+' = high)
      (read : IsDigitPair high low n ∨ IsSignedDigit high low n) : IsDigitPair high low n :=
    read.resolve_right fun signed => noSign signed.1.symm
  exact ⟨hashes, r, r', g, g', b, b', row, pair noRed red, pair noGreen green, pair noBlue blue⟩

/-! ## The digits of a colour -/

theorem getElem?_hexDigits {upper : Bool} {n : Nat} (small : n < 16) :
    (hexDigits upper)[n]? = some ((hexDigits upper).getD n '0') := by
  have sixteen : (hexDigits upper).length = 16 := by cases upper <;> rfl
  rw [List.getD_eq_getElem?_getD, List.getElem?_eq_getElem (sixteen.symm ▸ small),
    Option.getD_some]

theorem isDigitPair_digits (upper : Bool) {n : Nat} (small : n < 256) :
    IsDigitPair ((hexDigits upper).getD (n / 16) '0') ((hexDigits upper).getD (n % 16) '0') n :=
  ⟨n / 16, n % 16, ⟨upper, getElem?_hexDigits (by omega)⟩,
    ⟨upper, getElem?_hexDigits (by omega)⟩, (Nat.div_add_mod n 16).symm⟩

/-- The six digits of a colour spell it. -/
theorem spells_hexText (upper : Bool) {colour : Colour} (range : InRange colour) :
    Spells IsDigitPair (hexText upper colour) colour := by
  obtain ⟨red, green, blue⟩ := range
  exact ⟨1, _, _, _, _, _, _, String.toList_ofList, isDigitPair_digits upper red,
    isDigitPair_digits upper green, isDigitPair_digits upper blue⟩

/-! ## The background -/

theorem background_ok_iff {p : Project} {colour : Colour} :
    p.backgroundColour = .ok colour ↔
      Spells (fun high low n => IsDigitPair high low n ∨ IsSignedDigit high low n) p.background
        colour := by
  rw [backgroundColour_eq_ok_iff, hexColour?_eq_some_iff]
  simp only [hexPair?_eq_some_iff]

theorem background_ok_of_digits {p : Project} {colour : Colour}
    (spells : Spells IsDigitPair p.background colour) : p.backgroundColour = .ok colour :=
  background_ok_iff.2 (spells.mono fun _ _ _ => .inl)

/-- Every colour that is read has channels of eight bits. -/
theorem inRange_of_background_ok {p : Project} {colour : Colour}
    (read : p.backgroundColour = .ok colour) : InRange colour := by
  obtain ⟨hashes, r, r', g, g', b, b', -, red, green, blue⟩ := background_ok_iff.1 read
  have small {high low : Char} {n : Nat}
      (pair : IsDigitPair high low n ∨ IsSignedDigit high low n) : n < 256 := by
    rcases pair with pair | signed
    · exact pair.lt
    · exact signed.2.lt.trans (by decide)
  exact ⟨small red, small green, small blue⟩

/-- **Which backgrounds are accepted.**  A background is accepted with a colour if and only if it
spells it, behind hash signs, by three pairs that are each two digits or a plus sign and a digit;
any other is refused by name.  So digits alone decide unless a text with a plus sign is accepted.
What is read is a colour, and every colour is read back from its digits. -/
theorem background_read_iff (p : Project) :
    (∀ colour, p.backgroundColour = .ok colour ↔
      Spells (fun high low n => IsDigitPair high low n ∨ IsSignedDigit high low n) p.background
        colour) ∧
    ((∀ colour, p.backgroundColour ≠ .ok colour) →
      p.backgroundColour = .error (.invalidInput (.background p.background))) ∧
    ((∀ colour, p.backgroundColour = .ok colour ↔ Spells IsDigitPair p.background colour) ↔
      ('+' ∈ p.background.toList → ∀ colour, p.backgroundColour ≠ .ok colour)) ∧
    (∀ colour, p.backgroundColour = .ok colour → InRange colour) ∧
    ∀ upper colour, InRange colour →
      { p with background := hexText upper colour }.backgroundColour = .ok colour := by
  refine ⟨fun colour => background_ok_iff, backgroundColour_of_refused, ⟨?_, ?_⟩,
    fun colour => inRange_of_background_ok, ?_⟩
  · intro byDigits plus colour read
    exact ((byDigits colour).1 read).plus_notMem plus
  · intro refused colour
    refine ⟨fun read => ?_, background_ok_of_digits⟩
    have plain : '+' ∉ p.background.toList := fun plus => refused plus colour read
    exact (background_ok_iff.1 read).unsigned plain
  · exact fun upper colour range => background_ok_of_digits (spells_hexText upper range)

/-- Orange is read back from its digits in upper case. -/
theorem background_orange :
    InRange ⟨255, 128, 0⟩ ∧ hexText true ⟨255, 128, 0⟩ = "#FF8000" ∧
      Project.backgroundColour { name := "demo", duration := 12.5, background := "#FF8000" } =
        .ok ⟨255, 128, 0⟩ :=
  have range : InRange ⟨255, 128, 0⟩ := by decide
  ⟨range, by decide,
    (background_read_iff { name := "demo", duration := 12.5 }).2.2.2.2 true ⟨255, 128, 0⟩ range⟩

/-- Three pairs of a plus sign and a digit are accepted, and they are not six digits. -/
theorem background_signed :
    Project.backgroundColour { name := "demo", duration := 12.5, background := "#+f+f+f" } =
        .ok ⟨15, 15, 15⟩ ∧
      ∀ colour, ¬ Spells IsDigitPair "#+f+f+f" colour :=
  ⟨by decide, fun _ spells => spells.plus_notMem (by decide)⟩

end Slidecast
