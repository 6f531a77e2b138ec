import Slidecast.Proofs.Number.Notation
import Slidecast.Slideshow.Slide

/-!
# Reading playlists

A playlist is read by one who knows nothing about the slides: quoted paths are taken from the
opening quote to the next quote that is not the first character of an escaped one, and durations
are taken up to the end of their line.  Whatever the paths are, they are read as they were shown
(`entries?_playlist`).
-/

set_option autoImplicit false

namespace Slidecast.Slideshow

open Number Files

/-- What a playlist says at one place: a path, and the text of a duration if there is one. -/
structure Entry where
  path : Path
  duration : Option String
  deriving DecidableEq

/-- The text in front of the quote that ends it, and what follows this quote. -/
def unquote? : List Char → Option (List Char × List Char)
  | [] => none
  | '\'' :: '\\' :: '\'' :: '\'' :: cs => (unquote? cs).map fun (text, rest) => ('\'' :: text, rest)
  | '\'' :: cs => some ([], cs)
  | c :: cs => (unquote? cs).map fun (text, rest) => (c :: text, rest)

/-- The first entry of a row of characters, and what follows it. -/
def firstEntry? (cs : List Char) : Option (Entry × List Char) := do
  let quoted ← cs.dropPrefix? "file '".toList
  let (path, behind) ← unquote? quoted
  let next ← behind.dropPrefix? ['\n']
  match next.dropPrefix? "duration ".toList with
  | none => some (⟨.ofText (String.ofList path), none⟩, next)
  | some line =>
      let duration := line.takeWhile (· ≠ '\n')
      let rest ← (line.dropWhile (· ≠ '\n')).dropPrefix? ['\n']
      some (⟨.ofText (String.ofList path), some (String.ofList duration)⟩, rest)

/-! ## Quoted texts -/

theorem length_of_unquote? {cs text rest : List Char} (read : unquote? cs = some (text, rest)) :
    rest.length < cs.length := by
  fun_induction unquote? cs generalizing text with
  | case1 => cases read
  | case2 cs ih =>
      obtain ⟨⟨text', rest'⟩, inner, same⟩ := Option.map_eq_some_iff.1 read
      cases same
      have shorter := ih inner
      simp only [List.length_cons]
      omega
  | case3 cs =>
      cases read
      simp
  | case4 c cs _ _ ih =>
      obtain ⟨⟨text', rest'⟩, inner, same⟩ := Option.map_eq_some_iff.1 read
      cases same
      have shorter := ih inner
      simp only [List.length_cons]
      omega

/-- **A text that is quoted is read as it was**, up to the quote that ends it. -/
theorem unquote?_quoted (text rest : List Char) :
    unquote? (text.flatMap quoteChar ++ '\'' :: '\n' :: rest) = some (text, '\n' :: rest) := by
  induction text with
  | nil => rfl
  | cons c text ih =>
      by_cases quote : c = '\''
      · subst quote
        simp [quoteChar, unquote?, ih]
      · simp [quoteChar, quote, unquote?, ih]

/-! ## Entries -/

theorem length_of_dropPrefix? {cs word rest : List Char}
    (read : cs.dropPrefix? word = some rest) : rest.length ≤ cs.length := by
  obtain ⟨front, rfl, _⟩ := List.dropPrefix?_eq_some_iff.1 read
  simp

theorem length_of_firstEntry? {cs rest : List Char} {entry : Entry}
    (read : firstEntry? cs = some (entry, rest)) : rest.length < cs.length := by
  obtain ⟨quoted, opened, read⟩ := Option.bind_eq_some_iff.1 read
  obtain ⟨⟨path, behind⟩, closed, read⟩ := Option.bind_eq_some_iff.1 read
  obtain ⟨next, ended, read⟩ := Option.bind_eq_some_iff.1 read
  have first := length_of_dropPrefix? opened
  have second := length_of_unquote? closed
  have third := length_of_dropPrefix? ended
  split at read
  · obtain ⟨_, rfl⟩ := Prod.mk.inj (Option.some.inj read)
    omega
  · next line last =>
      obtain ⟨_, finished, read⟩ := Option.bind_eq_some_iff.1 read
      obtain ⟨_, rfl⟩ := Prod.mk.inj (Option.some.inj read)
      have fourth := length_of_dropPrefix? last
      have fifth := length_of_dropPrefix? finished
      have shorter := (List.dropWhile_sublist (l := line) (· ≠ '\n')).length_le
      omega

/-- All entries of a row of characters. -/
def entries? (cs : List Char) : Option (List Entry) :=
  if cs = [] then some []
  else
    match _read : firstEntry? cs with
    | none => none
    | some (entry, rest) => (entries? rest).map (entry :: ·)
termination_by cs.length
decreasing_by exact length_of_firstEntry? _read

/-- The entry that a slide is. -/
def entryOf (slide : Slide) : Entry := ⟨slide.path.asShown, some (slide.duration.fixed 3)⟩

/-- A path in the last line stands by itself. -/
theorem firstEntry?_fileLine (path : Path) :
    firstEntry? (fileLine path) = some (⟨path.asShown, none⟩, []) := by
  unfold firstEntry? fileLine
  rw [List.append_assoc, List.dropPrefix?_append_of_beq _ (by simp)]
  have read := unquote?_quoted path.shown.toList []
  simp [read, List.dropPrefix?, Path.asShown]

/-- A duration ends where its line does. -/
theorem isOfLine_fixed {duration : Double} {c : Char} (member : c ∈ (duration.fixed 3).toList) :
    decide (c ≠ '\n') = true := by
  have other : ¬ IsOfFixed '\n' := by decide
  simp only [decide_eq_true_eq]
  rintro rfl
  exact other (mem_fixed member)

/-- A slide is read with the text of its duration. -/
theorem firstEntry?_slide (slide : Slide) (rest : List Char) :
    firstEntry? (fileLine slide.path ++ durationLine slide.duration ++ rest) =
      some (entryOf slide, rest) := by
  have quoted := unquote?_quoted slide.path.shown.toList (durationLine slide.duration ++ rest)
  have line : (durationLine slide.duration ++ rest).dropPrefix? "duration ".toList =
      some ((slide.duration.fixed 3).toList ++ '\n' :: rest) := by
    unfold durationLine
    rw [List.append_assoc, List.append_assoc, List.dropPrefix?_append_of_beq _ (by simp)]
    rfl
  have whole : ((slide.duration.fixed 3).toList ++ '\n' :: rest).takeWhile (· ≠ '\n') =
      (slide.duration.fixed 3).toList := by
    rw [List.takeWhile_append_of_pos fun c => isOfLine_fixed]
    simp
  have ended : ((slide.duration.fixed 3).toList ++ '\n' :: rest).dropWhile (· ≠ '\n') =
      '\n' :: rest := by
    rw [List.dropWhile_append_of_pos fun c => isOfLine_fixed]
    simp
  have opened : (fileLine slide.path ++ durationLine slide.duration ++ rest).dropPrefix?
      "file '".toList =
        some (slide.path.shown.toList.flatMap quoteChar ++
          '\'' :: '\n' :: (durationLine slide.duration ++ rest)) := by
    unfold fileLine
    rw [List.append_assoc, List.append_assoc, List.append_assoc,
      List.dropPrefix?_append_of_beq _ (by simp)]
    rfl
  have next : ('\n' :: (durationLine slide.duration ++ rest)).dropPrefix? ['\n'] =
      some (durationLine slide.duration ++ rest) := rfl
  have behind : ('\n' :: rest).dropPrefix? ['\n'] = some rest := by simp [List.dropPrefix?]
  unfold firstEntry?
  simp only [opened, quoted, next, line, whole, ended, behind, Option.bind_eq_bind,
    Option.bind_some, String.ofList_toList]
  rfl

theorem entries?_cons {cs rest : List Char} {entry : Entry}
    (read : firstEntry? cs = some (entry, rest)) :
    entries? cs = (entries? rest).map (entry :: ·) := by
  have filled : cs ≠ [] := by
    rintro rfl
    cases read
  rw [entries?, if_neg filled]
  split
  · next unread =>
      rw [read] at unread
      cases unread
  · next other rest' same =>
      rw [read] at same
      cases same
      rfl

/-- All lines of a row of slides are read before what follows them. -/
theorem entries?_slides (slides : List Slide) (rest : List Char) :
    entries? ((slides.flatMap fun slide => fileLine slide.path ++ durationLine slide.duration) ++
        rest) =
      (entries? rest).map (slides.map entryOf ++ ·) := by
  induction slides with
  | nil => simp
  | cons slide slides ih =>
      rw [List.flatMap_cons, List.append_assoc, entries?_cons (firstEntry?_slide slide _), ih,
        Option.map_map]
      rfl

/-- **What is read from a playlist.**  It is all slides in their order, with the texts of their
durations, and then the last path again. -/
theorem entries?_playlist (slides : List Slide) :
    entries? (playlist slides).toList =
      some (slides.map entryOf ++
        (slides.getLast?.map fun slide => ⟨slide.path.asShown, none⟩).toList) := by
  unfold playlist
  rw [String.toList_ofList, entries?_slides]
  cases slides.getLast? with
  | none =>
      rw [Option.map_none, Option.getD_none, entries?]
      rfl
  | some slide =>
      rw [Option.map_some, Option.getD_some, entries?_cons (firstEntry?_fileLine slide.path),
        entries?]
      rfl

/-! ## Paths -/

theorem map_path_slides (fallback : Double) (paths : List Path) (cuts : List Double) :
    (slides fallback paths cuts).map Slide.path = paths := by
  induction paths generalizing cuts with
  | nil => rfl
  | cons path paths ih =>
      rw [slides, List.map_cons, ih]

/-- **The paths of a playlist** are those of its pictures, as they are shown, and then the last one
again. -/
theorem paths_of_playlist (fallback : Double) (paths : List Path) (cuts : List Double) :
    (entries? (playlist (slides fallback paths cuts)).toList).map (·.map Entry.path) =
      some ((paths ++ paths.getLast?.toList).map Path.asShown) := by
  have all := map_path_slides fallback paths cuts
  have last : (slides fallback paths cuts).getLast?.map Slide.path = paths.getLast? := by
    rw [← List.getLast?_map, all]
  rw [entries?_playlist, Option.map_some, List.map_append, List.map_map, List.map_append]
  have same : Entry.path ∘ entryOf = Path.asShown ∘ Slide.path := rfl
  rw [same, ← List.map_map, all, ← last]
  cases (slides fallback paths cuts).getLast? with
  | none => rfl
  | some slide => rfl

end Slidecast.Slideshow
