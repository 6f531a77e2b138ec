import Mathlib.Data.List.Basic
import Mathlib.Data.String.Basic
import Slidecast.Text.Utf8

/-!
# Reading UTF-8 back

What is written as UTF-8 is read back (`readUtf8_writeUtf8`), also where its bytes are kept as
characters (`ofUtf8_utf8Of`).  A byte below 128 is a character by itself, and it breaks off what has
been begun in front of it.  So bytes are read apart on both sides of it (`ofUtf8_append_cons`), and
such a character is not read where its byte does not stand (`mem_of_mem_ofUtf8`).
-/

set_option autoImplicit false

namespace Slidecast.Text

/-- A character that is a byte by itself. -/
def IsPlain (c : Char) : Prop := c.toNat < 0x80

instance : DecidablePred IsPlain := fun c => inferInstanceAs (Decidable (c.toNat < 0x80))

variable {c : Char} {cs : List Char} {begun : Begun} {b : Nat}

/-! ## Bytes that are kept -/

/-- A number that fits into a byte is the number of this byte. -/
theorem toNat_byte_ofNat {n : Nat} (small : n < 2 ^ 8) : (UInt8.ofNat n).toNat = n := by
  rw [UInt8.toNat_ofNat', Nat.mod_eq_of_lt small]

theorem toNat_byteOf (c : Char) : (byteOf c).toNat = min c.toNat 0xFF := by
  have small : min c.toNat 0xFF < 2 ^ 8 := by omega
  exact toNat_byte_ofNat small

theorem toNat_byteOf_of_isPlain (plain : IsPlain c) : (byteOf c).toNat = c.toNat := by
  have small : c.toNat < 0x80 := plain
  rw [toNat_byteOf]
  omega

theorem toNat_ofNat_of_isValidChar {n : Nat} (valid : n.isValidChar) :
    (Char.ofNat n).toNat = n := by
  rw [Char.ofNat, dif_pos valid]
  rfl

theorem toNat_ofNat_byte (b : UInt8) : (Char.ofNat b.toNat).toNat = b.toNat := by
  have small := b.toNat_lt
  exact toNat_ofNat_of_isValidChar (.inl (by omega))

theorem byteOf_ofNat (b : UInt8) : byteOf (Char.ofNat b.toNat) = b := by
  have small := b.toNat_lt
  refine UInt8.toNat_inj.1 ?_
  rw [toNat_byteOf, toNat_ofNat_byte]
  omega

theorem map_byteOf_utf8Of (cs : List Char) : (utf8Of cs).map byteOf = writeUtf8 cs := by
  simp [utf8Of, List.map_map, Function.comp_def, byteOf_ofNat]

/-! ## What is written is read back -/

/-- A byte is read, and what it leaves begun is read on. -/
theorem readFrom_cons (begun : Option Begun) (b : UInt8) (bytes : List UInt8) :
    readFrom begun (b :: bytes) =
      (readByte begun b.toNat).1 ++ readFrom (readByte begun b.toNat).2 bytes := by
  cases begun <;> rfl

theorem readByte_none (b : Nat) : readByte none b = beginning b := rfl

theorem readByte_some (within : begun.range.1 ≤ b ∧ b ≤ begun.range.2) :
    readByte (some begun) b = begun.continued b := if_pos within

theorem readByte_broken (outside : ¬ (begun.range.1 ≤ b ∧ b ≤ begun.range.2)) :
    readByte (some begun) b = (replacement :: (beginning b).1, (beginning b).2) := if_neg outside

theorem beginning_one (small : b < 0x80) : beginning b = ([Char.ofNat b], none) := if_pos small

theorem beginning_two (least : 0xC2 ≤ b) (most : b < 0xE0) :
    beginning b = ([], some ⟨b - 0xC0, anyTail, []⟩) := by
  rw [beginning, if_neg (by omega), if_neg (by omega), if_pos most]

/-- The beginning of a character of three bytes, for which the range of the second byte leaves out
what needs no three bytes and what is no character. -/
theorem beginning_three (b second : Nat) (least : 0xE0 ≤ b) (most : b < 0xF0)
    (tail : 0x80 ≤ second ∧ second ≤ 0xBF) (needed : b = 0xE0 → 0xA0 ≤ second)
    (usable : b = 0xED → second ≤ 0x9F) :
    ∃ range : Nat × Nat, beginning b = ([], some ⟨b - 0xE0, range, [anyTail]⟩) ∧
      range.1 ≤ second ∧ second ≤ range.2 := by
  rw [beginning, if_neg (by omega), if_neg (by omega), if_neg (by omega)]
  by_cases first : b = 0xE0
  · rw [if_pos first, first]
    exact ⟨(0xA0, 0xBF), rfl, needed first, tail.2⟩
  · rw [if_neg first]
    by_cases surrogate : b = 0xED
    · rw [if_pos surrogate, surrogate]
      exact ⟨(0x80, 0x9F), rfl, tail.1, usable surrogate⟩
    · rw [if_neg surrogate, if_pos most]
      exact ⟨anyTail, rfl, tail.1, tail.2⟩

/-- The beginning of a character of four bytes. -/
theorem beginning_four (b second : Nat) (least : 0xF0 ≤ b) (most : b ≤ 0xF4)
    (tail : 0x80 ≤ second ∧ second ≤ 0xBF) (needed : b = 0xF0 → 0x90 ≤ second)
    (usable : b = 0xF4 → second ≤ 0x8F) :
    ∃ range : Nat × Nat, beginning b = ([], some ⟨b - 0xF0, range, [anyTail, anyTail]⟩) ∧
      range.1 ≤ second ∧ second ≤ range.2 := by
  rw [beginning, if_neg (by omega), if_neg (by omega), if_neg (by omega), if_neg (by omega),
    if_neg (by omega), if_neg (by omega)]
  by_cases first : b = 0xF0
  · rw [if_pos first, first]
    exact ⟨(0x90, 0xBF), rfl, needed first, tail.2⟩
  · rw [if_neg first]
    by_cases last : b = 0xF4
    · rw [if_neg (by omega), if_pos last, last]
      exact ⟨(0x80, 0x8F), rfl, tail.1, usable last⟩
    · rw [if_pos (by omega)]
      exact ⟨anyTail, rfl, tail.1, tail.2⟩

/-- The last byte of a character completes it. -/
theorem readFrom_last {bits tail : Nat} (within : 0x80 ≤ tail ∧ tail ≤ 0xBF)
    (bytes : List UInt8) :
    readFrom (some ⟨bits, anyTail, []⟩) (UInt8.ofNat tail :: bytes) =
      Char.ofNat (64 * bits + (tail - 0x80)) :: readFrom none bytes := by
  rw [readFrom_cons, toNat_byte_ofNat (by omega), readByte_some within]
  rfl

/-- A byte in the middle of a character is added to it. -/
theorem readFrom_middle {bits tail : Nat} {range other : Nat × Nat} {others : List (Nat × Nat)}
    (within : range.1 ≤ tail ∧ tail ≤ range.2) (small : tail < 2 ^ 8) (bytes : List UInt8) :
    readFrom (some ⟨bits, range, other :: others⟩) (UInt8.ofNat tail :: bytes) =
      readFrom (some ⟨64 * bits + (tail - 0x80), other, others⟩) bytes := by
  rw [readFrom_cons, toNat_byte_ofNat small, readByte_some within]
  rfl

/-- The first byte of a longer character begins it. -/
theorem readFrom_first {b : Nat} {begun : Begun} (small : b < 2 ^ 8)
    (begins : beginning b = ([], some begun)) (bytes : List UInt8) :
    readFrom none (UInt8.ofNat b :: bytes) = readFrom (some begun) bytes := by
  rw [readFrom_cons, toNat_byte_ofNat small, readByte_none, begins]
  rfl

/-- **A character is read back**, whatever stands behind it. -/
theorem readFrom_utf8EncodeChar (c : Char) (bytes : List UInt8) :
    readFrom none (String.utf8EncodeChar c ++ bytes) = c :: readFrom none bytes := by
  have number : c.val.toNat = c.toNat := rfl
  have valid : c.toNat < 0xD800 ∨ 0xDFFF < c.toNat ∧ c.toNat < 0x110000 := c.valid
  have whole {n : Nat} (same : n = c.toNat) : Char.ofNat n = c := by rw [same, Char.ofNat_toNat]
  unfold String.utf8EncodeChar
  rw [number]
  dsimp only
  generalize c.toNat = v at valid whole
  split
  · rw [List.cons_append, List.nil_append, readFrom_cons, toNat_byte_ofNat (by omega),
      readByte_none, beginning_one (by omega), whole rfl]
    rfl
  · split
    · rw [List.cons_append, List.cons_append, List.nil_append,
        readFrom_first (by omega) (beginning_two (by omega) (by omega)),
        readFrom_last (by omega), whole (by omega)]
    · split
      · obtain ⟨range, begins, within⟩ := beginning_three (v / 4096 % 16 + 224)
          (v / 64 % 64 + 128) (by omega) (by omega) (by omega) (by omega) (by omega)
        rw [List.cons_append, List.cons_append, List.cons_append, List.nil_append,
          readFrom_first (by omega) begins, readFrom_middle within (by omega),
          readFrom_last (by omega), whole (by omega)]
      · obtain ⟨range, begins, within⟩ := beginning_four (v / 262144 % 8 + 240)
          (v / 4096 % 64 + 128) (by omega) (by omega) (by omega) (by omega) (by omega)
        have third : anyTail.1 ≤ v / 64 % 64 + 128 ∧ v / 64 % 64 + 128 ≤ anyTail.2 := by
          unfold anyTail
          omega
        rw [List.cons_append, List.cons_append, List.cons_append, List.cons_append,
          List.nil_append, readFrom_first (by omega) begins, readFrom_middle within (by omega),
          readFrom_middle third (by omega), readFrom_last (by omega), whole (by omega)]

theorem readUtf8_writeUtf8 (cs : List Char) : readUtf8 (writeUtf8 cs) = cs := by
  induction cs with
  | nil => rfl
  | cons c cs ih =>
      rw [writeUtf8, List.flatMap_cons, readUtf8, readFrom_utf8EncodeChar]
      exact congrArg (c :: ·) ih

/-- **What is kept as UTF-8 is read back.** -/
theorem ofUtf8_utf8Of (cs : List Char) : ofUtf8 (utf8Of cs) = cs := by
  rw [ofUtf8, map_byteOf_utf8Of, readUtf8_writeUtf8]

/-! ## Characters that are bytes by themselves -/

/-- What is missing of a character that has been begun: no byte that is a character by itself, and
no fewer bits than such a character has. -/
structure Begun.Opens (begun : Begun) : Prop where
  range : 0x80 ≤ begun.range.1
  others : ∀ range ∈ begun.others, 0x80 ≤ range.1
  more : 2 ≤ 64 * begun.bits + (begun.range.1 - 0x80)
  whole : begun.others = [] → 0x80 ≤ 64 * begun.bits + (begun.range.1 - 0x80)

theorem opens_mk {bits least most n : Nat} (range : 0x80 ≤ least)
    (more : 2 ≤ 64 * bits + (least - 0x80)) (whole : n = 0 → 0x80 ≤ 64 * bits + (least - 0x80)) :
    Begun.Opens ⟨bits, (least, most), List.replicate n anyTail⟩ where
  range := range
  others other member := by
    rw [List.eq_of_mem_replicate member]
    exact Nat.le_refl _
  more := more
  whole filled := whole (List.replicate_eq_nil_iff _ |>.1 filled)

/-- What a byte at the beginning of a character gives: a character by itself, an error, or nothing
yet, as it begins a character. -/
inductive Begins (b : Nat) : List Char × Option Begun → Prop where
  | whole (small : b < 0x80) : Begins b ([Char.ofNat b], none)
  | broken : Begins b ([replacement], none)
  | opened {begun : Begun} (opens : begun.Opens) : Begins b ([], some begun)

theorem begins_beginning (b : Nat) : Begins b (beginning b) := by
  unfold beginning
  split
  · exact .whole ‹_›
  split
  · exact .broken
  split
  · exact .opened (opens_mk (n := 0) (by decide) (by omega) (by omega))
  split
  · exact .opened (opens_mk (n := 1) (by decide) (by decide) nofun)
  split
  · exact .opened (opens_mk (n := 1) (by decide) (by decide) nofun)
  split
  · exact .opened (opens_mk (n := 1) (by decide) (by omega) nofun)
  split
  · exact .opened (opens_mk (n := 2) (by decide) (by decide) nofun)
  split
  · exact .opened (opens_mk (n := 2) (by decide) (by omega) nofun)
  split
  · exact .opened (opens_mk (n := 2) (by decide) (by decide) nofun)
  · exact .broken

theorem opens_of_beginning (begins : (beginning b).2 = some begun) : begun.Opens := by
  have all := begins_beginning b
  generalize beginning b = result at begins all
  cases all with
  | whole small => cases begins
  | broken => cases begins
  | opened opens =>
      cases begins
      exact opens

/-- What a byte continues is as open as before, and a character that it completes is no byte by
itself. -/
theorem Begun.Opens.continued (opens : begun.Opens) (least : begun.range.1 ≤ b) :
    (∀ c ∈ (begun.continued b).1, ∃ n, 0x80 ≤ n ∧ c = Char.ofNat n) ∧
      ∀ next, (begun.continued b).2 = some next → next.Opens := by
  obtain ⟨range, others, more, whole⟩ := opens
  unfold Begun.continued
  dsimp only
  split
  · next last =>
      have large := whole last
      refine ⟨fun c member => ⟨_, ?_, List.mem_singleton.1 member⟩, nofun⟩
      omega
  · next other rest missing =>
      rw [missing] at others
      refine ⟨nofun, fun next left => ?_⟩
      rw [← Option.some.inj left]
      refine ⟨others other List.mem_cons_self, fun range member =>
        others range (List.mem_cons_of_mem other member), ?_, fun _ => ?_⟩
      · show 2 ≤ 64 * (64 * begun.bits + (b - 0x80)) + (other.1 - 0x80)
        omega
      · show 0x80 ≤ 64 * (64 * begun.bits + (b - 0x80)) + (other.1 - 0x80)
        omega

/-- Whatever has been begun is open. -/
def IsOpen (begun : Option Begun) : Prop := ∀ b, begun = some b → b.Opens

theorem isOpen_none : IsOpen none := nofun

theorem isOpen_readByte {begun : Option Begun} (opened : IsOpen begun) (b : Nat) :
    IsOpen (readByte begun b).2 := by
  cases begun with
  | none => exact fun _ begins => opens_of_beginning begins
  | some begun =>
      intro next left
      by_cases within : begun.range.1 ≤ b ∧ b ≤ begun.range.2
      · rw [readByte_some within] at left
        exact ((opened begun rfl).continued within.1).2 next left
      · rw [readByte_broken within] at left
        exact opens_of_beginning left

/-- A byte that is a character by itself is read as this character, after what it breaks off. -/
theorem readByte_plain {begun : Option Begun} (opened : IsOpen begun) (plain : IsPlain c) :
    readByte begun c.toNat = (readFrom begun [] ++ [c], none) := by
  have small : c.toNat < 0x80 := plain
  have begins : beginning c.toNat = ([c], none) := by
    rw [beginning_one small, Char.ofNat_toNat]
  cases begun with
  | none => exact begins
  | some begun =>
      have least := (opened begun rfl).range
      rw [readByte_broken (by omega), begins]
      rfl

/-- Bytes are read apart on both sides of a byte that is a character by itself. -/
theorem readFrom_append_cons {begun : Option Begun} (opened : IsOpen begun) (plain : IsPlain c)
    (front back : List UInt8) :
    readFrom begun (front ++ byteOf c :: back) =
      readFrom begun front ++ c :: readFrom none back := by
  induction front generalizing begun with
  | nil =>
      rw [List.nil_append, readFrom_cons, toNat_byteOf_of_isPlain plain,
        readByte_plain opened plain, List.append_assoc, List.singleton_append]
  | cons b front ih =>
      rw [List.cons_append, readFrom_cons, readFrom_cons, ih (isOpen_readByte opened b.toNat),
        List.append_assoc]

theorem ofUtf8_append_cons (plain : IsPlain c) (front back : List Char) :
    ofUtf8 (front ++ c :: back) = ofUtf8 front ++ c :: ofUtf8 back := by
  rw [ofUtf8, List.map_append, List.map_cons]
  exact readFrom_append_cons isOpen_none plain _ _

/-- What breaks off is one error; bytes that begin nothing are one error each. -/
example : readUtf8 [0xE2, 0x82, 0x41, 0xC0, 0x80] = [replacement, 'A', replacement, replacement] :=
  rfl

/-- A character that is a byte by itself, other than NUL. -/
def IsPrinted (c : Char) : Prop := IsPlain c ∧ c.toNat ≠ 0

instance : DecidablePred IsPrinted := fun _ => inferInstanceAs (Decidable (_ ∧ _))

theorem ne_ofNat_of_isPrinted {n : Nat} (printed : IsPrinted c) (large : 0x80 ≤ n) :
    c ≠ Char.ofNat n := by
  obtain ⟨plain, nonzero⟩ := printed
  have small : c.toNat < 0x80 := plain
  rintro rfl
  by_cases valid : n.isValidChar
  · rw [toNat_ofNat_of_isValidChar valid] at small
    omega
  · rw [Char.ofNat, dif_neg valid] at nonzero
    exact nonzero rfl

theorem ne_replacement_of_isPlain (plain : IsPlain c) : c ≠ replacement := by
  rintro rfl
  exact absurd plain (by decide)

theorem eq_of_mem_beginning (plain : IsPlain c) (member : c ∈ (beginning b).1) : b = c.toNat := by
  have all := begins_beginning b
  generalize beginning b = result at member all
  cases all with
  | whole small =>
      rw [List.mem_singleton.1 member, toNat_ofNat_of_isValidChar (.inl (by omega))]
  | broken => exact absurd (List.mem_singleton.1 member) (ne_replacement_of_isPlain plain)
  | opened opens => cases member

theorem eq_of_mem_readByte {begun : Option Begun} (opened : IsOpen begun) (printed : IsPrinted c)
    (member : c ∈ (readByte begun b).1) : b = c.toNat := by
  cases begun with
  | none => exact eq_of_mem_beginning printed.1 member
  | some begun =>
      by_cases within : begun.range.1 ≤ b ∧ b ≤ begun.range.2
      · rw [readByte_some within] at member
        obtain ⟨n, large, same⟩ := ((opened begun rfl).continued within.1).1 c member
        exact absurd same (ne_ofNat_of_isPrinted printed large)
      · rw [readByte_broken within] at member
        rcases List.mem_cons.1 member with same | begins
        · exact absurd same (ne_replacement_of_isPlain printed.1)
        · exact eq_of_mem_beginning printed.1 begins

theorem mem_of_mem_readFrom {begun : Option Begun} {bytes : List UInt8} (opened : IsOpen begun)
    (printed : IsPrinted c) (member : c ∈ readFrom begun bytes) : byteOf c ∈ bytes := by
  induction bytes generalizing begun with
  | nil =>
      cases begun with
      | none => cases member
      | some begun =>
          exact absurd (List.mem_singleton.1 member) (ne_replacement_of_isPlain printed.1)
  | cons b bytes ih =>
      rw [readFrom_cons] at member
      rcases List.mem_append.1 member with first | later
      · have same := eq_of_mem_readByte opened printed first
        rw [← toNat_byteOf_of_isPlain printed.1] at same
        rw [UInt8.toNat_inj.1 same]
        exact List.mem_cons_self
      · exact List.mem_cons_of_mem b (ih (isOpen_readByte opened b.toNat) later)

/-- **A printed character is read only where its byte stands.** -/
theorem mem_of_mem_ofUtf8 (printed : IsPrinted c) (member : c ∈ ofUtf8 cs) : c ∈ cs := by
  obtain ⟨kept, inside, same⟩ := List.mem_map.1 (mem_of_mem_readFrom isOpen_none printed member)
  have small : c.toNat < 0x80 := printed.1
  have number := congrArg UInt8.toNat same
  rw [toNat_byteOf, toNat_byteOf_of_isPlain printed.1] at number
  have whole : kept = c := Char.toNat_inj.1 (by omega)
  rwa [← whole]

/-- Something that has been begun is read as something, and at least as an error. -/
theorem readFrom_some_ne_nil (begun : Begun) (bytes : List UInt8) :
    readFrom (some begun) bytes ≠ [] := by
  induction bytes generalizing begun with
  | nil => exact List.cons_ne_nil _ _
  | cons b bytes ih =>
      rw [readFrom_cons]
      by_cases within : begun.range.1 ≤ b.toNat ∧ b.toNat ≤ begun.range.2
      · rw [readByte_some within, Begun.continued]
        split
        · exact List.cons_ne_nil _ _
        · exact ih _
      · rw [readByte_broken within]
        exact List.cons_ne_nil _ _

/-- A byte that is read as nothing begins something. -/
theorem beginning_ne_none (nothing : (beginning b).1 = []) : (beginning b).2 ≠ none := by
  have all := begins_beginning b
  generalize beginning b = result at nothing all
  cases all with
  | whole small => cases nothing
  | broken => cases nothing
  | opened opens => exact Option.some_ne_none _

theorem ofUtf8_eq_nil_iff : ofUtf8 cs = [] ↔ cs = [] := by
  constructor
  · intro nothing
    cases cs with
    | nil => rfl
    | cons c cs =>
        rw [ofUtf8, List.map_cons, readUtf8, readFrom_cons, List.append_eq_nil_iff] at nothing
        obtain ⟨first, later⟩ := nothing
        cases left : (readByte none (byteOf c).toNat).2 with
        | some begun => exact absurd (left ▸ later) (readFrom_some_ne_nil begun _)
        | none => exact absurd left (beginning_ne_none first)
  · rintro rfl
    rfl

/-! ## Rows of printed characters -/

theorem utf8EncodeChar_of_isPlain (plain : IsPlain c) :
    String.utf8EncodeChar c = [UInt8.ofNat c.toNat] := by
  have small : c.val.toNat ≤ 0x7F := Nat.le_of_lt_succ plain
  rw [String.utf8EncodeChar, if_pos small]
  rfl

theorem utf8Of_append (front back : List Char) :
    utf8Of (front ++ back) = utf8Of front ++ utf8Of back := by
  simp [utf8Of, writeUtf8]

theorem utf8Of_cons (plain : IsPlain c) (cs : List Char) : utf8Of (c :: cs) = c :: utf8Of cs := by
  have small : c.toNat < 0x80 := plain
  rw [utf8Of, writeUtf8, List.flatMap_cons, utf8EncodeChar_of_isPlain plain, List.singleton_append,
    List.map_cons, toNat_byte_ofNat (by omega), Char.ofNat_toNat]
  rfl

theorem utf8Of_append_cons (plain : IsPlain c) (front back : List Char) :
    utf8Of (front ++ c :: back) = utf8Of front ++ c :: utf8Of back := by
  rw [utf8Of_append, utf8Of_cons plain]

/-- Plain characters are their own bytes. -/
theorem utf8Of_of_plain (plain : ∀ c ∈ cs, IsPlain c) : utf8Of cs = cs := by
  induction cs with
  | nil => rfl
  | cons c cs ih =>
      rw [utf8Of_cons (plain c List.mem_cons_self),
        ih fun other member => plain other (List.mem_cons_of_mem c member)]

theorem ofUtf8_of_plain (plain : ∀ c ∈ cs, IsPlain c) : ofUtf8 cs = cs := by
  conv_lhs => rw [← utf8Of_of_plain plain]
  exact ofUtf8_utf8Of cs

/-- A plain character stands in the bytes of a text only where it stands in the text. -/
theorem mem_of_mem_utf8Of (plain : IsPlain c) (member : c ∈ utf8Of cs) : c ∈ cs := by
  obtain ⟨front, back, split⟩ := List.append_of_mem member
  rw [← ofUtf8_utf8Of cs, split, ofUtf8_append_cons plain]
  exact List.mem_append_right _ List.mem_cons_self

end Slidecast.Text
