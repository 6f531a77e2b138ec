import Mathlib.Data.List.Basic
import Slidecast.Proofs.Number.Notation
import Slidecast.Subtitle.Caption

/-!
# What shows of a caption

A block from an opening brace to the next closing brace says how a text is to be shown, and is not
shown itself (`visible`).  The marks of a caption are such blocks, but a brace in a word can open a
block as well, which then ends with the next mark at the latest and takes all with it that stands in
between.

So what shows of a caption is its words exactly if no word but the last has an opening brace, and the
last has none with a closing brace behind it (`visible_text_eq_iff`).
-/

set_option autoImplicit false

namespace Slidecast.Subtitle

open Number

/-! ## Scanning -/

/-- What a row of characters shows, and what is withheld behind an opening brace that has not been
closed; `withheld` is what is withheld before. -/
def scan : Option (List Char) → List Char → List Char × Option (List Char)
  | withheld, [] => ([], withheld)
  | none, c :: cs =>
      if c = '{' then scan (some ['{']) cs
      else
        let (shown, withheld) := scan none cs
        (c :: shown, withheld)
  | some withheld, c :: cs =>
      if c = '}' then scan none cs else scan (some (withheld ++ [c])) cs

/-- What shows in the end.  A brace that is not closed opens no block. -/
def visibleFrom (withheld : Option (List Char)) (cs : List Char) : List Char :=
  (scan withheld cs).1 ++ (scan withheld cs).2.getD []

/-- A row of characters without its blocks. -/
def visible (cs : List Char) : List Char := visibleFrom none cs

variable {cs : List Char} {withheld : Option (List Char)}

@[simp] theorem scan_nil : scan withheld [] = ([], withheld) := by
  cases withheld <;> rfl

theorem scan_open : scan none ('{' :: cs) = scan (some ['{']) cs := rfl

theorem scan_other {c : Char} (other : c ≠ '{') :
    scan none (c :: cs) = (c :: (scan none cs).1, (scan none cs).2) := by
  rw [scan, if_neg other]

theorem scan_close {block : List Char} : scan (some block) ('}' :: cs) = scan none cs := rfl

theorem scan_withhold {block : List Char} {c : Char} (other : c ≠ '}') :
    scan (some block) (c :: cs) = scan (some (block ++ [c])) cs := by
  rw [scan, if_neg other]

theorem scan_append (front back : List Char) :
    scan withheld (front ++ back) =
      ((scan withheld front).1 ++ (scan (scan withheld front).2 back).1,
        (scan (scan withheld front).2 back).2) := by
  induction front generalizing withheld with
  | nil => simp
  | cons c front ih =>
      rw [List.cons_append]
      cases withheld with
      | none =>
          by_cases opens : c = '{'
          · subst opens
            rw [scan_open, scan_open, ih]
          · rw [scan_other opens, scan_other opens, ih]
            rfl
      | some block =>
          by_cases closes : c = '}'
          · subst closes
            rw [scan_close, scan_close, ih]
          · rw [scan_withhold closes, scan_withhold closes, ih]

theorem scan_of_no_open (plain : '{' ∉ cs) : scan none cs = (cs, none) := by
  induction cs with
  | nil => rfl
  | cons c cs ih =>
      rw [List.mem_cons, not_or] at plain
      rw [scan_other (Ne.symm plain.1), ih plain.2]

theorem scan_of_no_close (block : List Char) (still : '}' ∉ cs) :
    scan (some block) cs = ([], some (block ++ cs)) := by
  induction cs generalizing block with
  | nil => simp
  | cons c cs ih =>
      rw [List.mem_cons, not_or] at still
      rw [scan_withhold (Ne.symm still.1), ih _ still.2, List.append_assoc, List.singleton_append]

/-- Whatever is withheld before, a whole block shows nothing and leaves nothing withheld. -/
theorem scan_block (inner : List Char) (still : '}' ∉ inner) (behind : List Char) :
    scan withheld ('{' :: inner ++ '}' :: behind) = scan none behind := by
  cases withheld with
  | none =>
      rw [List.cons_append, scan_open, scan_append, scan_of_no_close _ still, scan_close]
      rfl
  | some block =>
      have opens : '}' ∉ '{' :: inner := by
        rw [List.mem_cons, not_or]
        exact ⟨by decide, still⟩
      rw [scan_append, scan_of_no_close _ opens, scan_close]
      rfl

/-- Only what is there is shown. -/
theorem scan_sublist (withheld : Option (List Char)) (cs : List Char) :
    (scan withheld cs).1.Sublist cs := by
  induction cs generalizing withheld with
  | nil => simp
  | cons c cs ih =>
      cases withheld with
      | none =>
          by_cases opens : c = '{'
          · subst opens
            exact (ih _).cons _
          · rw [scan_other opens]
            exact (ih none).cons_cons c
      | some block =>
          by_cases closes : c = '}'
          · subst closes
            exact (ih none).cons _
          · rw [scan_withhold closes]
            exact (ih _).cons _

/-- **Text that is followed by a block shows as it is** exactly if there is no opening brace in it. -/
theorem scan_eq_self_iff : (scan none cs).1 = cs ↔ '{' ∉ cs := by
  constructor
  · intro same opens
    obtain ⟨front, back, rfl, plain⟩ := List.eq_append_cons_of_mem opens
    rw [scan_append, scan_of_no_open plain, scan_open] at same
    have shorter := (scan_sublist (some ['{']) back).length_le
    have length := congrArg List.length same
    simp only [List.length_append, List.length_cons] at length
    omega
  · intro plain
    rw [scan_of_no_open plain]

/-! ## Visible text -/

theorem visibleFrom_append (front back : List Char) :
    visibleFrom withheld (front ++ back) =
      (scan withheld front).1 ++ visibleFrom (scan withheld front).2 back := by
  rw [visibleFrom, scan_append, visibleFrom, List.append_assoc]

theorem visibleFrom_block (inner : List Char) (still : '}' ∉ inner) (behind : List Char) :
    visibleFrom withheld ('{' :: inner ++ '}' :: behind) = visible behind := by
  rw [visibleFrom, scan_block inner still, visible, visibleFrom]

theorem visibleFrom_sublist (withheld : Option (List Char)) (cs : List Char) :
    (visibleFrom withheld cs).Sublist (withheld.getD [] ++ cs) := by
  induction cs generalizing withheld with
  | nil => simp [visibleFrom]
  | cons c cs ih =>
      cases withheld with
      | none =>
          by_cases opens : c = '{'
          · subst opens
            exact ih (some ['{'])
          · rw [visibleFrom, scan_other opens]
            exact (ih none).cons_cons c
      | some block =>
          by_cases closes : c = '}'
          · subst closes
            exact ((ih none).cons '}').trans (List.sublist_append_right block _)
          · have later := ih (some (block ++ [c]))
            rw [Option.getD_some, List.append_assoc, List.singleton_append] at later
            rwa [visibleFrom, scan_withhold closes]

theorem visible_sublist (cs : List Char) : (visible cs).Sublist cs := visibleFrom_sublist none cs

theorem visible_of_no_open (plain : '{' ∉ cs) : visible cs = cs := by
  rw [visible, visibleFrom, scan_of_no_open plain]
  exact List.append_nil cs

/-- There is an opening brace with a closing brace behind it. -/
def HasBlock (cs : List Char) : Prop := ∃ front back, cs = front ++ '{' :: back ∧ '}' ∈ back

/-- What is withheld is lost when it is closed. -/
theorem length_visibleFrom_lt (block : List Char) (closes : '}' ∈ cs) :
    (visibleFrom (some block) cs).length < block.length + cs.length := by
  obtain ⟨front, back, rfl, still⟩ := List.eq_append_cons_of_mem closes
  rw [visibleFrom_append, scan_of_no_close block still]
  have rest := (visible_sublist back).length_le
  have same : visibleFrom (some (block ++ front)) ('}' :: back) = visible back := rfl
  rw [same]
  simp only [List.nil_append, List.length_append, List.length_cons]
  omega

/-- **A text shows as it is** exactly if there is no block in it. -/
theorem visible_eq_self_iff : visible cs = cs ↔ ¬ HasBlock cs := by
  constructor
  · rintro same ⟨front, back, rfl, closes⟩
    have length := congrArg List.length same
    rw [visible, visibleFrom_append] at length
    -- what is withheld behind the front is no longer than what the front does not show
    have whole := (visibleFrom_sublist none front).length_le
    rw [visibleFrom] at whole
    cases left : (scan none front).2 with
    | none =>
        rw [left] at length whole
        have lost := length_visibleFrom_lt ['{'] closes
        have same : visibleFrom none ('{' :: back) = visibleFrom (some ['{']) back := rfl
        rw [same] at length
        simp at length whole lost
        omega
    | some block =>
        rw [left] at length whole
        have lost := length_visibleFrom_lt (block ++ ['{']) closes
        have same : visibleFrom (some block) ('{' :: back) =
            visibleFrom (some (block ++ ['{'])) back := rfl
        rw [same] at length
        simp at length whole lost
        omega
  · intro clear
    by_cases opens : '{' ∈ cs
    · obtain ⟨front, back, rfl, plain⟩ := List.eq_append_cons_of_mem opens
      have still : '}' ∉ back := fun closes => clear ⟨front, back, rfl, closes⟩
      rw [visible, visibleFrom, scan_append, scan_of_no_open plain, scan_open,
        scan_of_no_close _ still]
      simp
    · exact visible_of_no_open opens

/-! ## Captions -/

/-- Words with single spaces between them. -/
def joined (words : List (List Char)) : List Char := [' '].intercalate words

/-- What shows of words that stand behind marks. -/
def shownOf : List (List Char) → List Char
  | [] => []
  | [word] => visible word
  | word :: other :: words => (scan none (word ++ [' '])).1 ++ shownOf (other :: words)

/-- No word but the last has an opening brace, and the last has no block. -/
def Legible : List (List Char) → Prop
  | [] => True
  | [word] => ¬ HasBlock word
  | word :: other :: words => '{' ∉ word ∧ Legible (other :: words)

theorem joined_cons_cons (word other : List Char) (words : List (List Char)) :
    joined (word :: other :: words) = word ++ [' '] ++ joined (other :: words) := by
  simp [joined, List.intercalate, List.intersperse]

theorem mem_joined {words : List (List Char)} {c : Char} (member : c ∈ joined words) :
    c = ' ' ∨ ∃ word ∈ words, c ∈ word := by
  induction words with
  | nil => simp [joined] at member
  | cons word words ih =>
      cases words with
      | nil => exact .inr ⟨word, List.mem_cons_self, by simpa [joined] using member⟩
      | cons other words =>
          rw [joined_cons_cons, List.mem_append, List.mem_append, List.mem_singleton] at member
          rcases member with (own | space) | later
          · exact .inr ⟨word, List.mem_cons_self, own⟩
          · exact .inl space
          · refine (ih later).imp_right ?_
            rintro ⟨word', among, inside⟩
            exact ⟨word', List.mem_cons_of_mem word among, inside⟩

theorem mem_joined_of_mem {words : List (List Char)} {word : List Char} {c : Char}
    (among : word ∈ words) (inside : c ∈ word) : c ∈ joined words := by
  induction words with
  | nil => simp at among
  | cons first words ih =>
      cases words with
      | nil =>
          obtain rfl := List.mem_singleton.1 among
          simpa [joined] using inside
      | cons other words =>
          rw [joined_cons_cons, List.mem_append, List.mem_append]
          rcases List.mem_cons.1 among with rfl | later
          · exact .inl (.inl inside)
          · exact .inr (ih later)

theorem shownOf_sublist (words : List (List Char)) : (shownOf words).Sublist (joined words) := by
  fun_induction shownOf words with
  | case1 => exact List.nil_sublist _
  | case2 word => simpa [joined] using visible_sublist word
  | case3 word other words ih =>
      rw [joined_cons_cons]
      exact (scan_sublist none _).append ih

/-- **Words show as they are** exactly if they are legible. -/
theorem shownOf_eq_iff (words : List (List Char)) : shownOf words = joined words ↔ Legible words := by
  fun_induction shownOf words with
  | case1 => simp [joined, Legible]
  | case2 word => simpa [joined, Legible] using visible_eq_self_iff
  | case3 word other words ih =>
      have spaced : '{' ∉ word ++ [' '] ↔ '{' ∉ word := by simp
      rw [joined_cons_cons, Legible, ← ih, ← spaced, ← scan_eq_self_iff]
      constructor
      · intro same
        -- both parts are sublists, so neither can be shorter
        have first := (scan_sublist none (word ++ [' '])).length_le
        have second := (shownOf_sublist (other :: words)).length_le
        have length := congrArg List.length same
        refine List.append_inj same ?_
        simp only [List.length_append] at first length ⊢
        omega
      · rintro ⟨first, second⟩
        rw [first, second]

theorem toList_mark (b : Beat) :
    b.mark.toList =
      '{' :: ('\\' :: 'k' :: (toString b.centiseconds).toList) ++ '}' :: b.text.toList := by
  simp [Beat.mark]

theorem no_close_in_mark (n : Nat) : '}' ∉ '\\' :: 'k' :: (toString n).toList := by
  intro member
  simp only [List.mem_cons, Char.reduceEq, false_or] at member
  exact absurd (isDigit_of_mem_toString member) (by decide)

/-- A mark shows nothing, whatever is withheld in front of it. -/
theorem visibleFrom_mark (withheld : Option (List Char)) (b : Beat) (behind : List Char) :
    visibleFrom withheld (b.mark.toList ++ behind) = visible (b.text.toList ++ behind) := by
  rw [toList_mark, List.append_assoc, List.cons_append]
  exact visibleFrom_block _ (no_close_in_mark _) _

/-- What shows of marked words, whatever is withheld in front of them. -/
theorem visibleFrom_text (withheld : Option (List Char)) (b : Beat) (beats : List Beat) :
    visibleFrom withheld (joined ((b :: beats).map fun b => b.mark.toList)) =
      shownOf ((b :: beats).map fun b => b.text.toList) := by
  induction beats generalizing withheld b with
  | nil =>
      have shown := visibleFrom_mark withheld b []
      rw [List.append_nil, List.append_nil] at shown
      simpa [joined, shownOf] using shown
  | cons other beats ih =>
      rw [List.map_cons, List.map_cons, joined_cons_cons, List.append_assoc, visibleFrom_mark,
        ← List.append_assoc, visible, visibleFrom_append]
      exact congrArg _ (ih _ other)

/-- The words of a caption, letter by letter. -/
def Caption.words (c : Caption) : List (List Char) := c.beats.map fun b => b.text.toList

theorem toList_text (c : Caption) : c.text.toList = joined (c.beats.map fun b => b.mark.toList) := by
  rw [Caption.text, String.toList_intercalate, joined, List.map_map]
  rfl

/-- Only words break the line of a caption. -/
theorem no_break_in_text {c : Caption} (whole : ∀ word ∈ c.words, '\n' ∉ word) :
    '\n' ∉ c.text.toList := by
  rw [toList_text]
  intro member
  rcases mem_joined member with space | ⟨marked, among, inside⟩
  · exact absurd space (by decide)
  · obtain ⟨b, beat, rfl⟩ := List.mem_map.1 among
    rw [toList_mark, List.mem_append, List.mem_cons, List.mem_cons, List.mem_cons,
      List.mem_cons] at inside
    rcases inside with (same | same | same | digit) | same | letter
    · exact absurd same (by decide)
    · exact absurd same (by decide)
    · exact absurd same (by decide)
    · exact absurd (isDigit_of_mem_toString digit) (by decide)
    · exact absurd same (by decide)
    · exact whole _ (List.mem_map.2 ⟨b, beat, rfl⟩) letter

/-- **What shows of a caption.** -/
theorem visible_text (c : Caption) :
    visible c.text.toList = shownOf c.words := by
  rw [toList_text, Caption.words]
  cases c.beats with
  | nil => rfl
  | cons b beats => exact visibleFrom_text none b beats

/-- **A caption shows its words** exactly if they are legible. -/
theorem visible_text_eq_iff (c : Caption) :
    visible c.text.toList = joined c.words ↔ Legible c.words := by
  rw [visible_text, shownOf_eq_iff]

end Slidecast.Subtitle
