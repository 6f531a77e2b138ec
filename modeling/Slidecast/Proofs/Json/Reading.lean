import Slidecast.Json.Record
import Slidecast.Json.Document
import Slidecast.Proofs.Json.Numeral
import Slidecast.Proofs.Json.Quoted

/-!
# What decoders read

A decoder reads a text as a value if it gives this value for the text, whatever blanks stand in
front of it and whatever follows that does not continue a number (`Reads`).  Blanks behind the value
may be left over.

That a text is read is shown part by part, as texts are written: a string is read from its quotes,
a number from its digits, and a list from the texts of its elements (`reads_list`).  Where blanks
stand between the parts is told by a `Layout`, so what is shown holds for texts on one line as well
as for those with one part to a line.
-/

set_option autoImplicit false

namespace Slidecast.Json

open Slidecast.Number Document

/-! ## Blanks -/

/-- A text of blanks. -/
def IsBlank (gap : List Char) : Prop := ∀ c ∈ gap, isSpace c = true

theorem isBlank_nil : IsBlank [] := fun _ member => absurd member List.not_mem_nil

theorem isBlank_space : IsBlank [' '] := fun _ member => List.mem_singleton.1 member ▸ rfl

theorem isBlank_indent (level : Nat) : IsBlank (indent level) := by
  intro c member
  rcases List.mem_cons.1 member with rfl | member
  · rfl
  · rw [List.eq_of_mem_replicate member]
    rfl

theorem isBlank_iff {gap : List Char} : IsBlank gap ↔ skipSpace gap = [] := by
  rw [skipSpace, List.dropWhile_eq_nil_iff]
  exact Iff.rfl

section Blanks

variable {gap cs rest : List Char}

theorem skipSpace_append (blank : IsBlank gap) : skipSpace (gap ++ cs) = skipSpace cs :=
  List.dropWhile_append_of_pos blank

theorem skipSpace_append_of_eq_cons {c : Char} {tail : List Char}
    (first : skipSpace cs = c :: tail) : skipSpace (cs ++ rest) = c :: tail ++ rest := by
  unfold skipSpace at first ⊢
  rw [List.dropWhile_append, first]
  rfl

theorem skipSpace_cons {c : Char} (visible : isSpace c = false) :
    skipSpace (c :: cs) = c :: cs :=
  List.dropWhile_cons_of_neg (by simp [visible])

/-- No blank continues a number. -/
theorem Stops.append (stops : Stops rest) (blank : IsBlank gap) : Stops (gap ++ rest) := by
  cases gap with
  | nil => exact stops
  | cons c gap =>
      have space := blank c List.mem_cons_self
      have stop : Stops [c] := by
        simp only [isSpace, Bool.or_eq_true, decide_eq_true_eq] at space
        rcases space with ((rfl | rfl) | rfl) | rfl <;> exact ⟨rfl, rfl⟩
      exact stop.cons

theorem expectSign_append (sign : Char) (blank : IsBlank gap) :
    expectSign sign (gap ++ cs) = expectSign sign cs := by
  rw [expectSign, skipSpace_append blank, expectSign]

theorem expectSign_sign {sign : Char} (visible : isSpace sign = false) :
    expectSign sign (sign :: cs) = .ok cs := by
  simp only [expectSign, skipSpace_cons visible, if_true]

theorem nextElement_append (first : Bool) (blank : IsBlank gap) :
    nextElement first (gap ++ cs) = nextElement first cs := by
  rw [nextElement, skipSpace_append blank, nextElement]

theorem nextName_append (first : Bool) (blank : IsBlank gap) :
    nextName first (gap ++ cs) = nextName first cs := by
  rw [nextName, skipSpace_append blank, nextName]

end Blanks

/-! ## Reading a value -/

/-- A decoder reads a text as a value. -/
def Reads {α : Type} (d : Decoder α) (text : List Char) (a : α) : Prop :=
  ∀ before rest, IsBlank before → Stops rest →
    ∃ after, IsBlank after ∧ d (before ++ (text ++ rest)) = .ok (a, after ++ rest)

section Values

variable {α β : Type} {d : Decoder α} {a : α} {text : List Char}

theorem Reads.refine {f : α → Except Fault β} {b : β} (reads : Reads d text a)
    (accepted : f a = .ok b) : Reads (d.refine f) text b := by
  intro before rest blank stops
  obtain ⟨after, blankAfter, read⟩ := reads before rest blank stops
  refine ⟨after, blankAfter, ?_⟩
  rw [Decoder.refine, read]
  exact bind_eq_ok.2 ⟨(a, after ++ rest), rfl, bind_eq_ok.2 ⟨b, accepted, rfl⟩⟩

theorem Reads.map (f : α → β) (reads : Reads d text a) : Reads (d.map f) text (f a) :=
  reads.refine rfl

/-- A text that is read as a value is a text with this value. -/
theorem Reads.decode (reads : Reads d text a) : decode d (String.ofList text) = .ok a := by
  obtain ⟨after, blankAfter, read⟩ := reads [] [] isBlank_nil stops_nil
  rw [List.nil_append, List.append_nil, List.append_nil] at read
  rw [Json.decode, String.toList_ofList, read]
  simp only [Bind.bind, Except.bind, isBlank_iff.1 blankAfter]

theorem decode_eq_ok_iff {text : String} :
    decode d text = .ok a ↔ ∃ rest, IsBlank rest ∧ d text.toList = .ok (a, rest) := by
  rw [Json.decode, bind_eq_ok]
  constructor
  · rintro ⟨⟨b, rest⟩, read, ends⟩
    dsimp only at ends
    split at ends
    next skipped => cases ends; exact ⟨rest, isBlank_iff.2 skipped, read⟩
    next => cases ends
  · rintro ⟨rest, blank, read⟩
    refine ⟨(a, rest), read, ?_⟩
    dsimp only
    rw [isBlank_iff.1 blank]

/-- **A string** is read from its quotes. -/
theorem reads_string (s : String) : Reads string (quote s) s := by
  intro before rest blank stops
  refine ⟨[], isBlank_nil, ?_⟩
  rw [string, skipSpace_append blank, quote, List.append_assoc, List.cons_append,
    skipSpace_cons rfl]
  exact unquote_quoted s rest

theorem number_append {cs rest after : List Char} {value : Numeral} (stops : Stops rest)
    (read : number cs = .ok (value, after)) : number (cs ++ rest) = .ok (value, after ++ rest) := by
  unfold number at read ⊢
  cases first : skipSpace cs with
  | nil => rw [first] at read; cases read
  | cons c tail =>
      rw [skipSpace_append_of_eq_cons first]
      rw [first] at read
      split at read
      next minus =>
        cases minus
        exact numeral_append stops read
      next noMinus =>
        split
        next minus => cases minus; exact absurd rfl (noMinus _)
        next =>
          rw [startsWithDigit_append stops]
          split at read
          next digit =>
            rw [if_pos digit]
            exact numeral_append stops read
          next => cases read

/-- **A number** is read from its text, if it is read from this text alone. -/
theorem reads_number {value : Numeral} {after : List Char} (blank : IsBlank after)
    (read : number text = .ok (value, after)) : Reads number text value := by
  intro before rest blankBefore stops
  have same : number (before ++ (text ++ rest)) = number (text ++ rest) := by
    rw [number, skipSpace_append blankBefore, number]
  exact ⟨after, blank, same.trans (number_append stops read)⟩

/-- A number is read back from its own text. -/
def ReadsBack (x : Double) : Prop := Json.decode double (Document.double x).compact = .ok x

instance (x : Double) : Decidable (ReadsBack x) := inferInstanceAs (Decidable (_ = _))

/-- A number is read from its text as whatever this text is read as. -/
theorem reads_double_as {x y : Double}
    (back : Json.decode double (Document.double x).compact = .ok y) :
    Reads double (numberText doubleNotation x) y := by
  obtain ⟨rest, blank, read⟩ := decode_eq_ok_iff.1 back
  rw [compact, String.toList_ofList, compactChars] at read
  obtain ⟨⟨value, after⟩, number, same⟩ := bind_eq_ok.1 read
  obtain ⟨z, meaning, same⟩ := bind_eq_ok.1 same
  cases same
  unfold double Decoder.map
  exact Reads.refine (reads_number blank number) meaning

theorem reads_double {x : Double} (back : ReadsBack x) :
    Reads double (numberText doubleNotation x) x :=
  reads_double_as back

/-- A number whose digits are too many for a significand may be missed. -/
example : ReadsBack 1.1 ∧ ¬ ReadsBack 0.9385958677423489 := by decide +kernel

/-- What may be missing is read from `null` as missing. -/
theorem reads_null (d : Decoder α) : Reads (optional d) "null".toList none := by
  intro before rest blank stops
  refine ⟨[], isBlank_nil, ?_⟩
  rw [optional, skipSpace_append blank, List.nil_append]
  rfl

/-- What may be missing is read from any other text as it is read from it alone. -/
theorem reads_some {c : Char} {tail : List Char} (visible : isSpace c = false) (there : c ≠ 'n')
    (reads : Reads d (c :: tail) a) : Reads (optional d) (c :: tail) (some a) := by
  intro before rest blank stops
  obtain ⟨after, blankAfter, read⟩ := reads.map some before rest blank stops
  refine ⟨after, blankAfter, ?_⟩
  rw [optional, skipSpace_append blank, List.cons_append, skipSpace_cons visible]
  split
  next null =>
    cases null
    exact absurd rfl there
  next => exact read

end Values

/-! ## Parts in a row -/

/-- Where the blanks stand in the text of a list or an object: in front of each part, behind the
last one, and behind the colon of a name. -/
structure Layout where
  inner : List Char
  outer : List Char
  colon : List Char
  blankInner : IsBlank inner
  blankOuter : IsBlank outer
  blankColon : IsBlank colon

/-- Everything on one line, without blanks. -/
def Layout.line : Layout := ⟨[], [], [], isBlank_nil, isBlank_nil, isBlank_nil⟩

/-- One part to a line, inside brackets at a level. -/
def Layout.lines (level : Nat) : Layout :=
  ⟨indent (level + 1), indent level, [' '], isBlank_indent _, isBlank_indent _, isBlank_space⟩

namespace Layout

/-- Parts between brackets, behind the opening one. -/
def enclosed (layout : Layout) (closing : Char) (parts : List (List Char)) : List Char :=
  layout.inner ++ (separated (',' :: layout.inner) parts ++ (layout.outer ++ [closing]))

/-- What stands behind the first part. -/
def others (layout : Layout) (closing : Char) (parts : List (List Char)) (rest : List Char) :
    List Char :=
  parts.flatMap (',' :: layout.inner ++ ·) ++ (layout.outer ++ closing :: rest)

variable {layout : Layout} {closing : Char} {part : List Char} {parts : List (List Char)}
  {rest : List Char}

theorem enclosed_nil :
    layout.enclosed closing [] ++ rest = layout.inner ++ (layout.outer ++ closing :: rest) := by
  simp [enclosed, separated]

/-- Parts with separators between them are the first one, and the others with a separator in front
of each. -/
theorem enclosed_cons :
    layout.enclosed closing (part :: parts) ++ rest =
      layout.inner ++ (part ++ layout.others closing parts rest) := by
  have row : ∀ part, separated (',' :: layout.inner) (part :: parts) =
      part ++ parts.flatMap (',' :: layout.inner ++ ·) := by
    induction parts with
    | nil => exact fun part => (List.append_nil part).symm
    | cons next parts ih =>
        intro part
        rw [separated, ih, List.flatMap_cons, List.append_assoc, List.append_assoc]
        exact fun empty => nomatch empty
  simp [enclosed, others, row]

theorem others_cons :
    layout.others closing (part :: parts) rest =
      ',' :: (layout.inner ++ (part ++ layout.others closing parts rest)) := by
  simp [others]

/-- Neither a separator nor the end continues a number. -/
theorem stops_others (stops : Stops [closing]) : Stops (layout.others closing parts rest) := by
  cases parts with
  | nil => exact stops.cons.append layout.blankOuter
  | cons part parts =>
      have comma : Stops [','] := ⟨rfl, rfl⟩
      exact comma.cons

/-- There are enough steps for the parts of a text. -/
theorem length_lt_enclosed (layout : Layout) (closing : Char) (parts : List (List Char))
    (rest : List Char) :
    parts.length < (layout.enclosed closing parts ++ rest).length + 1 := by
  have commas (parts : List (List Char)) :
      parts.length < (layout.others closing parts rest).length := by
    induction parts with
    | nil =>
        simp only [others, List.flatMap_nil, List.nil_append, List.length_append, List.length_cons,
          List.length_nil]
        omega
    | cons part parts ih =>
        simp only [others_cons, List.length_append, List.length_cons]
        omega
  cases parts with
  | nil => exact Nat.succ_pos _
  | cons part parts =>
      have := commas parts
      rw [enclosed_cons]
      simp only [List.length_append, List.length_cons]
      omega

end Layout

/-! ## Lists -/

/-- A text begins neither with a blank nor with the end of a list. -/
def Opens (text : List Char) : Prop := ∃ c tail, text = c :: tail ∧ isSpace c = false ∧ c ≠ ']'

/-- The text of a list. -/
def listText (layout : Layout) (texts : List (List Char)) : List Char :=
  '[' :: layout.enclosed ']' texts

section Lists

variable {α : Type} {d : Decoder α} {layout : Layout} {gap rest text : List Char}
  {texts : List (List Char)} {as : List α}

theorem nextElement_first (blank : IsBlank gap) (opens : Opens text) :
    nextElement true (gap ++ (text ++ rest)) = .ok (some (text ++ rest)) := by
  obtain ⟨c, tail, rfl, visible, notEnd⟩ := opens
  rw [nextElement_append _ blank, List.cons_append, nextElement, skipSpace_cons visible]
  split
  next empty => cases empty
  next closed => cases closed; exact absurd rfl notEnd
  next same => cases same; rfl

theorem nextElement_comma (blank : IsBlank gap) (opens : Opens text) :
    nextElement false (',' :: (gap ++ (text ++ rest))) = .ok (some (text ++ rest)) := by
  obtain ⟨c, tail, rfl, visible, notEnd⟩ := opens
  have behind : skipSpace (gap ++ (c :: tail ++ rest)) = c :: tail ++ rest := by
    rw [skipSpace_append blank, List.cons_append, skipSpace_cons visible]
  rw [nextElement, skipSpace_cons rfl]
  split
  next empty => cases empty
  next closed => cases closed
  next same =>
    cases same
    rw [if_neg Bool.false_ne_true, if_pos rfl, behind]
    split
    next empty => cases empty
    next closed => cases closed; exact absurd rfl notEnd
    next => rfl

theorem elements_append (fuel : Nat) (first : Bool) {cs : List Char} (blank : IsBlank gap) :
    elements d fuel first (gap ++ cs) = elements d fuel first cs := by
  cases fuel with
  | zero => rfl
  | succ fuel => rw [elements, nextElement_append first blank, expectSign_append _ blank, elements]

/-- One element is read, and then the others. -/
theorem elements_step {fuel : Nat} {first : Bool} {cs left : List Char} {a : α}
    (next : nextElement first cs = .ok (some (text ++ rest))) (reads : Reads d text a)
    (stops : Stops rest) (readRest : elements d fuel false rest = .ok (as, left)) :
    elements d (fuel + 1) first cs = .ok (a :: as, left) := by
  obtain ⟨after, blankAfter, read⟩ := reads [] rest isBlank_nil stops
  rw [elements]
  refine bind_eq_ok.2 ⟨_, next, bind_eq_ok.2 ⟨_, read, bind_eq_ok.2 ⟨(as, left), ?_, rfl⟩⟩⟩
  exact (elements_append fuel false blankAfter).trans readRest

theorem stops_listEnd : Stops [']'] := ⟨rfl, rfl⟩

/-- The elements behind the first one are read. -/
theorem elements_others (layout : Layout) (rest : List Char) (opens : ∀ text ∈ texts, Opens text)
    (reads : List.Forall₂ (Reads d) texts as) {fuel : Nat} (enough : texts.length < fuel) :
    elements d fuel false (layout.others ']' texts rest) = .ok (as, rest) := by
  induction reads generalizing fuel with
  | nil =>
      obtain ⟨fuel, rfl⟩ := Nat.exists_eq_add_one_of_ne_zero (Nat.ne_of_gt enough)
      exact elements_append _ _ layout.blankOuter
  | @cons text a texts as readsFirst readsRest ih =>
      obtain ⟨fuel, rfl⟩ := Nat.exists_eq_add_one_of_ne_zero (Nat.ne_zero_of_lt enough)
      obtain ⟨opensFirst, opensRest⟩ := List.forall_mem_cons.1 opens
      rw [Layout.others_cons]
      exact elements_step (nextElement_comma layout.blankInner opensFirst) readsFirst
        (Layout.stops_others stops_listEnd) (ih opensRest (Nat.lt_of_succ_lt_succ enough))

/-- **A list** is read from the texts of its elements. -/
theorem reads_list (opens : ∀ text ∈ texts, Opens text)
    (reads : List.Forall₂ (Reads d) texts as) : Reads (list d) (listText layout texts) as := by
  intro before rest blankBefore stops
  refine ⟨[], isBlank_nil, ?_⟩
  rw [list, skipSpace_append blankBefore, listText, List.cons_append, skipSpace_cons rfl]
  have enough := layout.length_lt_enclosed ']' texts rest
  cases reads with
  | nil =>
      rw [Layout.enclosed_nil]
      exact (elements_append _ _ layout.blankInner).trans (elements_append _ _ layout.blankOuter)
  | @cons text a texts as readsFirst readsRest =>
      -- no comma stands in front of the first element, so it is read apart from the others
      obtain ⟨opensFirst, opensRest⟩ := List.forall_mem_cons.1 opens
      have readRest := elements_others layout rest opensRest readsRest
        (Nat.lt_of_succ_lt_succ enough)
      rw [Layout.enclosed_cons] at readRest ⊢
      exact elements_step (nextElement_first layout.blankInner opensFirst) readsFirst
        (Layout.stops_others stops_listEnd) readRest

end Lists

end Slidecast.Json
