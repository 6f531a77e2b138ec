import Slidecast.Proofs.Text.Pattern
import Slidecast.Proofs.Number.Places
import Slidecast.Tool.Version

/-!
# Versions in texts

The version that is found in a text is what the group of a pattern takes where the pattern is found
(`search?_versionPattern`): the name of a tool, the word `version`, possibly an `n`, and behind them
rows of digits.

Said without a search, it is the version behind the leftmost announcement that a digit follows, and
there is one exactly if there is such an announcement (`version_leftmost`).  A version is a whole row
of digits with at most two further whole rows behind dots, as many as there are.
-/

set_option autoImplicit false

namespace Slidecast

open Text

/-! ## What a version is -/

/-- A tool announces a version: its name, the word `version`, and possibly an `n` stand in front. -/
def Announces (cs behind : List Char) : Prop :=
  ∃ name ∈ ["ffmpeg", "ffprobe"], ∃ mark ∈ ["", "n"],
    cs = (name ++ " version " ++ mark).toList ++ behind

/-- A decimal digit follows the announcement of a version. -/
def AnnouncesDigit (cs : List Char) : Prop :=
  ∃ digit behind, Announces cs (digit :: behind) ∧ isDecimalDigit digit = true

/-- Rows of decimal digits with dots between them stand in front of a rest: at most so many of them,
each of them whole, and as many as there are. -/
structure Leads (most : Nat) (rows : List (List Char)) (rest : List Char) : Prop where
  nonempty : rows ≠ []
  few : rows.length ≤ most
  filled : ∀ row ∈ rows, row ≠ []
  digits : ∀ row ∈ rows, ∀ c ∈ row, isDecimalDigit c = true
  whole : ∀ c ∈ rest.head?, isDecimalDigit c = false
  all : rows.length < most → ∀ c behind, rest = '.' :: c :: behind → isDecimalDigit c = false

/-- A version stands in front of a row of characters. -/
def IsVersion (version cs : List Char) : Prop :=
  ∃ rows rest, Leads 3 rows rest ∧ version = ['.'].intercalate rows ∧ cs = version ++ rest

/-- A dot and a row of digits. -/
def dottedRow : Pattern := .both (.word ['.']) (.run isDecimalDigit)

/-- A row of digits, and at most so many dotted ones. -/
def rowsOfDigits (more : Nat) : Pattern := .both (.run isDecimalDigit) (.upTo more dottedRow)

/-- The name of a tool, and the word `version`. -/
def announcement : Pattern :=
  .both (.either (.word "ffmpeg".toList) (.word "ffprobe".toList)) (.word " version ".toList)

/-- The pattern of versions: `(?:ffmpeg|ffprobe) version n?(\d+(?:\.\d+){0,2})`. -/
def versionPattern : Pattern :=
  .both announcement (.both (.upTo 1 (.word ['n'])) (.group (rowsOfDigits 2)))

/-! ## Rows of digits -/

theorem isDecimalDigit_dot : isDecimalDigit '.' = false := by decide

theorem startsWithDecimal_iff {cs : List Char} :
    startsWithDecimal cs = true ↔ ∃ c rest, cs = c :: rest ∧ isDecimalDigit c = true := by
  cases cs with
  | nil => simp [startsWithDecimal]
  | cons c rest => simp [startsWithDecimal]

theorem startsWithDecimal_append {row : List Char} (filled : row ≠ [])
    (digits : ∀ c ∈ row, isDecimalDigit c = true) (rest : List Char) :
    startsWithDecimal (row ++ rest) = true := by
  obtain ⟨c, cs, rfl⟩ := List.exists_cons_of_ne_nil filled
  exact digits c List.mem_cons_self

theorem takeWhile_eq_nil_iff {cs : List Char} :
    cs.takeWhile isDecimalDigit = [] ↔ startsWithDecimal cs = false := by
  cases cs with
  | nil => simp [startsWithDecimal]
  | cons c cs => simp [startsWithDecimal, List.takeWhile_cons]

/-- A row of digits stands behind a dot. -/
def GoesOn (cs : List Char) : Prop := ∃ next, cs = '.' :: next ∧ startsWithDecimal next = true

theorem versionRows_of_goesOn {cs next : List Char} (more : Nat)
    (split : cs.dropWhile isDecimalDigit = '.' :: next) (digit : startsWithDecimal next = true) :
    versionRows (more + 1) cs = cs.takeWhile isDecimalDigit ++ '.' :: versionRows more next := by
  rw [versionRows, split]
  simp [digit]

theorem versionRows_of_not_goesOn {cs : List Char} (more : Nat)
    (ends : ¬ GoesOn (cs.dropWhile isDecimalDigit)) :
    versionRows more cs = cs.takeWhile isDecimalDigit := by
  cases more with
  | zero => rfl
  | succ more =>
      rw [versionRows]
      generalize cs.dropWhile isDecimalDigit = rest at ends
      split
      next next =>
        split
        next digit => exact absurd ⟨next, rfl, digit⟩ ends
        next => rfl
      next => rfl

/-! ## Versions are rows of digits -/

theorem intercalate_dot (row row' : List Char) (rows : List (List Char)) :
    ['.'].intercalate (row :: row' :: rows) = row ++ '.' :: ['.'].intercalate (row' :: rows) := by
  rw [List.intercalate_cons_cons, List.append_assoc]
  rfl

namespace Leads

variable {most more : Nat} {row row' rest : List Char} {rows : List (List Char)}

/-- The last row: either no more rows are allowed, or none is there. -/
theorem single (filled : row ≠ []) (digits : ∀ c ∈ row, isDecimalDigit c = true)
    (whole : ∀ c ∈ rest.head?, isDecimalDigit c = false) (ends : more = 0 ∨ ¬ GoesOn rest) :
    Leads (more + 1) [row] rest where
  nonempty := List.cons_ne_nil _ _
  few := by simp
  filled := by simpa using filled
  digits := by simpa using digits
  whole := whole
  all := by
    rintro fewer c behind rfl
    rcases ends with rfl | closed
    · simp at fewer
    · rw [← Bool.not_eq_true]
      exact fun digit => closed ⟨_, rfl, digit⟩

theorem cons (filled : row ≠ []) (digits : ∀ c ∈ row, isDecimalDigit c = true)
    (leads : Leads most rows rest) : Leads (most + 1) (row :: rows) rest where
  nonempty := List.cons_ne_nil _ _
  few := Nat.succ_le_succ leads.few
  filled := List.forall_mem_cons.2 ⟨filled, leads.filled⟩
  digits := List.forall_mem_cons.2 ⟨digits, leads.digits⟩
  whole := leads.whole
  all fewer := leads.all (Nat.lt_of_succ_lt_succ fewer)

theorem tail (leads : Leads (most + 1) (row :: row' :: rows) rest) :
    Leads most (row' :: rows) rest where
  nonempty := List.cons_ne_nil _ _
  few := Nat.le_of_succ_le_succ leads.few
  filled := (List.forall_mem_cons.1 leads.filled).2
  digits := (List.forall_mem_cons.1 leads.digits).2
  whole := leads.whole
  all fewer := leads.all (Nat.succ_lt_succ fewer)

theorem not_goesOn (leads : Leads most rows rest) (fewer : rows.length < most) :
    ¬ GoesOn rest := by
  rintro ⟨next, split, digit⟩
  obtain ⟨c, behind, rfl, isDigit⟩ := startsWithDecimal_iff.1 digit
  have other := leads.all fewer c behind split
  rw [isDigit] at other
  cases other

protected theorem startsWithDecimal (leads : Leads most rows rest) :
    startsWithDecimal (['.'].intercalate rows ++ rest) = true := by
  obtain ⟨row, rows, rfl⟩ := List.exists_cons_of_ne_nil leads.nonempty
  have starts := startsWithDecimal_append (leads.filled row List.mem_cons_self)
    (leads.digits row List.mem_cons_self)
  cases rows with
  | nil =>
      rw [List.intercalate_singleton]
      exact starts rest
  | cons row' rows =>
      rw [intercalate_dot, List.append_assoc]
      exact starts _

/-- Rows that lead are the rows that are taken. -/
theorem versionRows_eq (leads : Leads (more + 1) rows rest) :
    versionRows more (['.'].intercalate rows ++ rest) = ['.'].intercalate rows := by
  induction rows generalizing more with
  | nil => exact absurd rfl leads.nonempty
  | cons row rows ih =>
      have digits := leads.digits row List.mem_cons_self
      cases rows with
      | nil =>
          rw [List.intercalate_singleton]
          obtain ⟨taken, left⟩ := Number.span_append rest digits leads.whole
          cases more with
          | zero => exact taken
          | succ more =>
              have ends := leads.not_goesOn (by simp)
              rw [versionRows_of_not_goesOn _ (left.symm ▸ ends), taken]
      | cons row' rows =>
          cases more with
          | zero => exact absurd leads.few (by simp)
          | succ more =>
              have dot : ∀ c ∈ ('.' :: (['.'].intercalate (row' :: rows) ++ rest)).head?,
                  isDecimalDigit c = false := by
                rintro c ⟨rfl⟩
                exact isDecimalDigit_dot
              obtain ⟨taken, left⟩ := Number.span_append _ digits dot
              rw [intercalate_dot, List.append_assoc, List.cons_append,
                versionRows_of_goesOn more left leads.tail.startsWithDecimal, taken,
                ih leads.tail]

end Leads

section Taken

variable {cs : List Char}

theorem takeWhile_ne_nil (digit : startsWithDecimal cs = true) :
    cs.takeWhile isDecimalDigit ≠ [] := by
  rw [Ne, takeWhile_eq_nil_iff, digit]
  exact nofun

theorem isDecimalDigit_of_mem_takeWhile : ∀ c ∈ cs.takeWhile isDecimalDigit,
    isDecimalDigit c = true :=
  List.all_eq_true.1 List.all_takeWhile

/-- The digits in front are a whole row. -/
theorem leads_takeWhile {more : Nat} (digit : startsWithDecimal cs = true)
    (ends : more = 0 ∨ ¬ GoesOn (cs.dropWhile isDecimalDigit)) :
    Leads (more + 1) [cs.takeWhile isDecimalDigit] (cs.dropWhile isDecimalDigit) := by
  refine .single (takeWhile_ne_nil digit) isDecimalDigit_of_mem_takeWhile ?_ ends
  intro c first
  have other := List.head?_dropWhile_not isDecimalDigit cs
  rw [first] at other
  simpa using other

/-- The rows that are taken lead. -/
theorem exists_leads (more : Nat) (digit : startsWithDecimal cs = true) :
    ∃ rows rest, Leads (more + 1) rows rest ∧ versionRows more cs = ['.'].intercalate rows ∧
      cs = versionRows more cs ++ rest := by
  have split := List.takeWhile_append_dropWhile (p := isDecimalDigit) (l := cs)
  induction more generalizing cs with
  | zero =>
      exact ⟨[_], _, leads_takeWhile digit (.inl rfl), by simp [versionRows], split.symm⟩
  | succ more ih =>
      by_cases goesOn : GoesOn (cs.dropWhile isDecimalDigit)
      · obtain ⟨next, left, digit'⟩ := goesOn
        obtain ⟨rows, rest, leads, taken, whole⟩ := ih digit' List.takeWhile_append_dropWhile
        obtain ⟨row', rows, rfl⟩ := List.exists_cons_of_ne_nil leads.nonempty
        rw [versionRows_of_goesOn more left digit']
        refine ⟨cs.takeWhile isDecimalDigit :: row' :: rows, rest,
          leads.cons (takeWhile_ne_nil digit) isDecimalDigit_of_mem_takeWhile, ?_, ?_⟩
        · rw [intercalate_dot, taken]
        · rw [List.append_assoc, List.cons_append, ← whole, ← left, split]
      · rw [versionRows_of_not_goesOn _ goesOn]
        exact ⟨[_], _, leads_takeWhile digit (.inr goesOn), by simp, split.symm⟩

end Taken

/-- **A version stands in front** exactly if a digit does, and it is what is taken. -/
theorem isVersion_iff {version cs : List Char} :
    IsVersion version cs ↔ startsWithDecimal cs = true ∧ version = versionRows 2 cs := by
  constructor
  · rintro ⟨rows, rest, leads, rfl, rfl⟩
    exact ⟨leads.startsWithDecimal, leads.versionRows_eq.symm⟩
  · rintro ⟨digit, rfl⟩
    obtain ⟨rows, rest, leads, taken, whole⟩ := exists_leads 2 digit
    exact ⟨rows, rest, leads, taken, whole⟩

/-! ## Announcements -/

theorem behindWord?_eq_some_iff {word cs rest : List Char} :
    behindWord? word cs = some rest ↔ cs = word ++ rest := by
  unfold behindWord?
  constructor
  · intro found
    split at found
    next inFront =>
      obtain ⟨back, rfl⟩ := List.isPrefixOf_iff_prefix.1 inFront
      rw [← Option.some.inj found, List.drop_left]
    next => cases found
  · rintro rfl
    rw [if_pos (List.isPrefixOf_iff_prefix.2 (List.prefix_append word rest)), List.drop_left]

/-- Two words are one. -/
theorem behindWord?_append (word word' cs : List Char) :
    behindWord? (word ++ word') cs = (behindWord? word cs).bind (behindWord? word') := by
  refine Option.ext fun rest => ?_
  rw [behindWord?_eq_some_iff, Option.bind_eq_some_iff]
  simp only [behindWord?_eq_some_iff]
  constructor
  · rintro rfl
    exact ⟨word' ++ rest, List.append_assoc _ _ _, rfl⟩
  · rintro ⟨_, rfl, rfl⟩
    exact (List.append_assoc _ _ _).symm

/-- What is behind the name of a tool and the word `version`. -/
def behindName? (cs : List Char) : Option (List Char) :=
  (behindWord? "ffmpeg version ".toList cs).or (behindWord? "ffprobe version ".toList cs)

/-- The rows of digits in front, if there are any. -/
def rowsInFront? (cs : List Char) : Option (List Char) :=
  if startsWithDecimal cs then some (versionRows 2 cs) else none

/-- The rows of digits in front or behind an `n`. -/
def rowsBehindMark? (cs : List Char) : Option (List Char) :=
  ((behindWord? ['n'] cs).bind rowsInFront?).or (rowsInFront? cs)

theorem rowsInFront?_of_n (cs : List Char) : rowsInFront? ('n' :: cs) = none := rfl

theorem versionInFront?_eq (cs : List Char) :
    versionInFront? cs = (behindName? cs).bind rowsBehindMark? := by
  rw [versionInFront?, behindName?, Option.or_eq_orElse]
  refine congrArg (Option.bind _) (funext fun rest => ?_)
  rw [rowsBehindMark?]
  split
  next rest =>
    have mark : behindWord? ['n'] ('n' :: rest) = some rest := behindWord?_eq_some_iff.2 rfl
    rw [mark, Option.bind_some, rowsInFront?_of_n, Option.or_none]
    rfl
  next other =>
    have mark : behindWord? ['n'] rest = none :=
      Option.eq_none_iff_forall_ne_some.2 fun left found =>
        other left (behindWord?_eq_some_iff.1 found)
    rw [mark, Option.bind_none, Option.none_or]
    rfl

theorem rowsInFront?_eq_some_iff {version cs : List Char} :
    rowsInFront? cs = some version ↔ IsVersion version cs := by
  rw [isVersion_iff, rowsInFront?]
  split
  next digit => simp [digit, eq_comm]
  next letter => simp [letter]

theorem behindName?_eq_some_iff {cs rest : List Char} :
    behindName? cs = some rest ↔
      ∃ name ∈ ["ffmpeg", "ffprobe"], cs = (name ++ " version ").toList ++ rest := by
  rw [behindName?, Option.or_eq_some_iff, behindWord?_eq_some_iff, behindWord?_eq_some_iff]
  constructor
  · rintro (rfl | ⟨_, rfl⟩)
    · exact ⟨"ffmpeg", by simp, rfl⟩
    · exact ⟨"ffprobe", by simp, rfl⟩
  · rintro ⟨name, isName, rfl⟩
    rcases List.mem_pair.1 isName with rfl | rfl
    · exact .inl rfl
    · exact .inr ⟨rfl, rfl⟩

/-- A mark is not taken for a digit. -/
theorem rowsBehindMark?_eq_some_iff {version cs : List Char} :
    rowsBehindMark? cs = some version ↔
      ∃ mark ∈ ["", "n"], ∃ behind, cs = mark.toList ++ behind ∧ IsVersion version behind := by
  rw [rowsBehindMark?, Option.or_eq_some_iff, Option.bind_eq_some_iff]
  simp only [behindWord?_eq_some_iff, rowsInFront?_eq_some_iff]
  constructor
  · rintro (⟨behind, rfl, leads⟩ | ⟨_, leads⟩)
    · exact ⟨"n", by simp, behind, rfl, leads⟩
    · exact ⟨"", by simp, cs, rfl, leads⟩
  · rintro ⟨mark, isMark, behind, rfl, leads⟩
    rcases List.mem_pair.1 isMark with rfl | rfl
    · refine .inr ⟨Option.eq_none_iff_forall_ne_some.2 fun other found => ?_, leads⟩
      obtain ⟨rest, marked, _⟩ := Option.bind_eq_some_iff.1 found
      have same : behind = 'n' :: rest := behindWord?_eq_some_iff.1 marked
      rw [← rowsInFront?_eq_some_iff, same, rowsInFront?_of_n] at leads
      cases leads
    · exact .inl ⟨behind, rfl, leads⟩

/-- **The version in front** is the one that is announced there. -/
theorem versionInFront?_eq_some_iff {version cs : List Char} :
    versionInFront? cs = some version ↔
      ∃ behind, Announces cs behind ∧ IsVersion version behind := by
  rw [versionInFront?_eq, Option.bind_eq_some_iff]
  simp only [behindName?_eq_some_iff, rowsBehindMark?_eq_some_iff]
  constructor
  · rintro ⟨_, ⟨name, isName, rfl⟩, mark, isMark, behind, rfl, version⟩
    exact ⟨behind, ⟨name, isName, mark, isMark, by simp⟩, version⟩
  · rintro ⟨behind, ⟨name, isName, mark, isMark, rfl⟩, version⟩
    exact ⟨mark.toList ++ behind, ⟨name, isName, by simp⟩, mark, isMark, behind, rfl, version⟩

theorem isSome_versionInFront?_iff {cs : List Char} :
    (versionInFront? cs).isSome = true ↔ AnnouncesDigit cs := by
  rw [Option.isSome_iff_exists]
  simp only [versionInFront?_eq_some_iff, isVersion_iff, startsWithDecimal_iff]
  constructor
  · rintro ⟨_, _, announces, ⟨digit, behind, rfl, isDigit⟩, _⟩
    exact ⟨digit, behind, announces, isDigit⟩
  · rintro ⟨digit, behind, announces, isDigit⟩
    exact ⟨_, _, announces, ⟨digit, behind, rfl, isDigit⟩, rfl⟩

theorem versionInFront?_eq_none_iff {cs : List Char} :
    versionInFront? cs = none ↔ ¬ AnnouncesDigit cs := by
  rw [← isSome_versionInFront?_iff, Option.not_isSome_iff_eq_none]

/-! ## The first place -/

theorem firstVersion?_cons (c : Char) (cs : List Char) :
    firstVersion? (c :: cs) = (versionInFront? (c :: cs)).or (firstVersion? cs) := by
  rw [firstVersion?]
  split
  next found => rw [found]; rfl
  next missing => rw [missing]; rfl

/-- **The first version** is the one in front of the first place where there is one. -/
theorem firstVersion?_eq_some_iff {version cs : List Char} :
    firstVersion? cs = some version ↔
      ∃ before behind, cs = before ++ behind ∧ versionInFront? behind = some version ∧
        ∀ k < before.length, versionInFront? (cs.drop k) = none := by
  induction cs with
  | nil =>
      constructor
      · exact nofun
      · rintro ⟨before, behind, split, found, _⟩
        obtain ⟨rfl, rfl⟩ := List.append_eq_nil_iff.1 split.symm
        exact found
  | cons c cs ih =>
      rw [firstVersion?_cons, Option.or_eq_some_iff, ih]
      constructor
      · rintro (found | ⟨none, before, behind, rfl, found, earlier⟩)
        · exact ⟨[], c :: cs, rfl, found, nofun⟩
        · refine ⟨c :: before, behind, rfl, found, fun k within => ?_⟩
          cases k with
          | zero => exact none
          | succ k => exact earlier k (Nat.lt_of_succ_lt_succ within)
      · rintro ⟨before, behind, split, found, earlier⟩
        cases before with
        | nil => exact .inl (split ▸ found)
        | cons d before =>
            obtain ⟨rfl, rest⟩ := List.cons.inj split
            refine .inr ⟨earlier 0 (Nat.succ_pos _), before, behind, rest, found, ?_⟩
            exact fun k within => earlier (k + 1) (Nat.succ_lt_succ within)

/-- A place without a version hides none behind it. -/
theorem isSome_firstVersion?_iff {cs : List Char} :
    (firstVersion? cs).isSome = true ↔
      ∃ before behind, cs = before ++ behind ∧ (versionInFront? behind).isSome = true := by
  constructor
  · intro isSome
    obtain ⟨version, found⟩ := Option.isSome_iff_exists.1 isSome
    obtain ⟨before, behind, split, here, _⟩ := firstVersion?_eq_some_iff.1 found
    exact ⟨before, behind, split, Option.isSome_iff_exists.2 ⟨version, here⟩⟩
  · rintro ⟨before, behind, rfl, here⟩
    induction before with
    | nil =>
        cases behind with
        | nil => exact here
        | cons c cs =>
            rw [List.nil_append, firstVersion?_cons, Option.isSome_or, here, Bool.true_or]
    | cons c before ih =>
        rw [List.cons_append, firstVersion?_cons, Option.isSome_or, ih, Bool.or_true]

/-! ## The pattern -/

theorem ways_word (w cs : List Char) :
    (Pattern.word w).ways cs = ((behindWord? w cs).map fun rest => ⟨w, none, rest⟩).toList := by
  rw [Pattern.ways, behindWord?]
  split <;> rfl

theorem first?_dottedRow_of_goesOn {next : List Char} (digit : startsWithDecimal next = true) :
    dottedRow.first? ('.' :: next) =
      some ⟨'.' :: next.takeWhile isDecimalDigit, none, next.dropWhile isDecimalDigit⟩ := by
  have dot : behindWord? ['.'] ('.' :: next) = some next := behindWord?_eq_some_iff.2 rfl
  rw [dottedRow, Pattern.first?_both, ways_word, dot, Option.map_some, Option.toList_some,
    List.findSome?_singleton, Pattern.first?_run, if_neg (takeWhile_ne_nil digit)]
  rfl

theorem first?_dottedRow_of_not_goesOn {cs : List Char} (ends : ¬ GoesOn cs) :
    dottedRow.first? cs = none := by
  rw [dottedRow, Pattern.first?_both, ways_word]
  cases dot : behindWord? ['.'] cs with
  | none => rfl
  | some next =>
      have other : startsWithDecimal next = false := by
        rw [← Bool.not_eq_true]
        exact fun digit => ends ⟨next, behindWord?_eq_some_iff.1 dot, digit⟩
      rw [Option.map_some, Option.toList_some, List.findSome?_singleton, Pattern.first?_run,
        if_pos (takeWhile_eq_nil_iff.2 other)]
      rfl

/-- Dotted rows are taken as long as there are any. -/
theorem exists_first?_upTo_dottedRow (more : Nat) (cs : List Char) :
    ∃ next, (Pattern.upTo more dottedRow).first? (cs.dropWhile isDecimalDigit) = some next ∧
      cs.takeWhile isDecimalDigit ++ next.taken = versionRows more cs := by
  induction more generalizing cs with
  | zero => exact ⟨_, rfl, List.append_nil _⟩
  | succ more ih =>
      rw [Pattern.first?_upTo_succ,
        Pattern.first?_both_of_fits (Pattern.isSome_first?_upTo dottedRow more)]
      by_cases goesOn : GoesOn (cs.dropWhile isDecimalDigit)
      · obtain ⟨behind, left, digit⟩ := goesOn
        obtain ⟨next, found, taken⟩ := ih behind
        rw [left, first?_dottedRow_of_goesOn digit, Option.bind_some, found,
          versionRows_of_goesOn more left digit, ← taken]
        exact ⟨_, rfl, by simp [Way.andThen]⟩
      · rw [first?_dottedRow_of_not_goesOn goesOn, versionRows_of_not_goesOn _ goesOn]
        exact ⟨_, rfl, List.append_nil _⟩

theorem map_taken_first?_rowsOfDigits (cs : List Char) :
    ((rowsOfDigits 2).first? cs).map Way.taken = rowsInFront? cs := by
  rw [rowsOfDigits, Pattern.first?_both_of_fits (Pattern.isSome_first?_upTo dottedRow 2),
    Pattern.first?_run, rowsInFront?]
  by_cases digit : startsWithDecimal cs = true
  · obtain ⟨next, found, taken⟩ := exists_first?_upTo_dottedRow 2 cs
    rw [if_neg (takeWhile_ne_nil digit), if_pos digit, Option.bind_some, found, ← taken]
    rfl
  · have none := takeWhile_eq_nil_iff.2 (Bool.not_eq_true _ ▸ digit)
    rw [if_pos none, if_neg digit]
    rfl

/-- What the group takes, behind a mark or without one. -/
theorem map_group_first?_marked (outer : Option (List Char)) (cs : List Char) :
    ((Pattern.both (.upTo 1 (.word ['n'])) (.group (rowsOfDigits 2))).first? cs).map
        (fun way => way.group.or outer) = (rowsBehindMark? cs).map some := by
  have group (cs : List Char) (front : Way) :
      (((Pattern.group (rowsOfDigits 2)).first? cs).map front.andThen).map
          (fun way => way.group.or outer) = (rowsInFront? cs).map some := by
    rw [← map_taken_first?_rowsOfDigits, Pattern.first?, Pattern.ways, List.head?_map,
      Option.map_map, Option.map_map, Option.map_map]
    rfl
  have marks : (Pattern.upTo 1 (.word ['n'])).ways cs =
      ((behindWord? ['n'] cs).map fun rest => ⟨['n'], none, rest⟩).toList ++ [.nothing cs] := by
    rw [Pattern.ways, repeated, ways_word]
    cases behindWord? ['n'] cs <;> rfl
  rw [Pattern.first?_both, marks, List.map_findSome?, List.findSome?_append, rowsBehindMark?,
    Option.map_or]
  congr 1
  · cases behindWord? ['n'] cs with
    | none => rfl
    | some rest => exact List.findSome?_singleton.trans (group rest _)
  · exact List.findSome?_singleton.trans (group cs _)

theorem map_rest_ways_announcement (cs : List Char) :
    (announcement.ways cs).map Way.rest = (behindName? cs).toList := by
  have name (w : String) : ((Pattern.word w.toList).ways cs).flatMap (fun way =>
      ((Pattern.word " version ".toList).ways way.rest).map way.andThen) =
        ((behindWord? (w ++ " version ").toList cs).map fun rest =>
          ⟨w.toList ++ " version ".toList, none, rest⟩).toList := by
    rw [String.toList_append, behindWord?_append, ways_word]
    cases behindWord? w.toList cs with
    | none => rfl
    | some rest =>
        simp only [Option.map_some, Option.toList_some, List.flatMap_singleton, ways_word,
          Option.bind_some]
        cases behindWord? " version ".toList rest <;> rfl
  rw [announcement, Pattern.ways, Pattern.ways, List.flatMap_append, name, name, behindName?]
  show (((behindWord? "ffmpeg version ".toList cs).map _).toList ++
    ((behindWord? "ffprobe version ".toList cs).map _).toList).map Way.rest = _
  cases first : behindWord? "ffmpeg version ".toList cs with
  | none => cases behindWord? "ffprobe version ".toList cs <;> rfl
  | some rest =>
      have second : behindWord? "ffprobe version ".toList cs = none := by
        rw [behindWord?_eq_some_iff.1 first]
        rfl
      rw [second]
      rfl

theorem first?_versionPattern (cs : List Char) :
    (versionPattern.first? cs).map Way.group = (versionInFront? cs).map some := by
  have tail (way : Way) : (((Pattern.both (.upTo 1 (.word ['n']))
      (.group (rowsOfDigits 2))).first? way.rest).map way.andThen).map Way.group =
        (rowsBehindMark? way.rest).map some := by
    rw [← map_group_first?_marked way.group, Option.map_map]
    rfl
  rw [versionPattern, Pattern.first?_both, List.map_findSome?]
  calc
    _ = (announcement.ways cs).findSome?
          ((fun rest => (rowsBehindMark? rest).map some) ∘ Way.rest) :=
        congrArg (List.findSome? · _) (funext tail)
    _ = (behindName? cs).toList.findSome? fun rest => (rowsBehindMark? rest).map some := by
        rw [← List.findSome?_map, map_rest_ways_announcement]
    _ = (versionInFront? cs).map some := by
        rw [versionInFront?_eq]
        cases behindName? cs with
        | none => rfl
        | some rest => exact List.findSome?_singleton

/-- **What is found in a text** is what the group of the pattern takes. -/
theorem search?_versionPattern (cs : List Char) :
    (versionPattern.search? cs).map Way.group = (firstVersion? cs).map some := by
  induction cs with
  | nil => exact first?_versionPattern []
  | cons c cs ih =>
      rw [Pattern.search?, firstVersion?_cons, Option.map_or, Option.map_or, ih,
        first?_versionPattern]

/-! ## Texts -/

theorem version?_eq_some_iff {text version : String} :
    version? text = some version ↔ firstVersion? text.toList = some version.toList := by
  rw [version?, Option.map_eq_some_iff]
  constructor
  · rintro ⟨cs, found, rfl⟩
    rw [found, String.toList_ofList]
  · intro found
    exact ⟨version.toList, found, String.ofList_toList⟩

theorem map_toList_version? (text : String) :
    (version? text).map String.toList = (versionPattern.search? text.toList).bind Way.group := by
  have found := search?_versionPattern text.toList
  rw [version?, Option.map_map]
  cases first : firstVersion? text.toList with
  | none =>
      rw [first, Option.map_none, Option.map_eq_none_iff] at found
      rw [found]
      rfl
  | some version =>
      rw [first, Option.map_some, Option.map_eq_some_iff] at found
      obtain ⟨way, searched, group⟩ := found
      rw [searched, Option.bind_some, group, Option.map_some, Function.comp_apply,
        String.toList_ofList]

/-- **The version in a text.**  What is found is what the group of the pattern takes; it is the
version behind the leftmost announcement that a digit follows; and some version is found exactly if
there is such an announcement, whatever stands in front of it. -/
theorem version_leftmost (text : String) :
    (version? text).map String.toList = (versionPattern.search? text.toList).bind Way.group ∧
      (∀ version : String, version? text = some version ↔
        ∃ before cs behind, text.toList = before ++ cs ∧ Announces cs behind ∧
          IsVersion version.toList behind ∧
          ∀ k < before.length, ¬ AnnouncesDigit (text.toList.drop k)) ∧
      ((version? text).isSome = true ↔
        ∃ before cs, text.toList = before ++ cs ∧ AnnouncesDigit cs) := by
  refine ⟨map_toList_version? text, fun version => ?_, ?_⟩
  · rw [version?_eq_some_iff, firstVersion?_eq_some_iff]
    simp only [versionInFront?_eq_none_iff, versionInFront?_eq_some_iff]
    constructor
    · rintro ⟨before, cs, split, ⟨behind, announces, leads⟩, earlier⟩
      exact ⟨before, cs, behind, split, announces, leads, earlier⟩
    · rintro ⟨before, cs, behind, split, announces, leads, earlier⟩
      exact ⟨before, cs, split, ⟨behind, announces, leads⟩, earlier⟩
  · rw [version?, Option.isSome_map, isSome_firstVersion?_iff]
    simp only [isSome_versionInFront?_iff]

example : version? "ffmpeg version git-2024, ffprobe version n6.1.2.3" = some "6.1.2" := by
  decide +kernel

end Slidecast
