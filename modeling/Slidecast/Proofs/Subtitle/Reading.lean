import Mathlib.Data.List.TakeWhile
import Slidecast.Proofs.Subtitle.Clock
import Slidecast.Proofs.Subtitle.Groups
import Slidecast.Proofs.Subtitle.Visible
import Slidecast.Speech.Utterance

/-!
# Reading subtitle scripts

A script is read by one who knows nothing about the captions: its lines of dialogue are those that
begin with that word, and the text of such a line is what stands behind its ninth comma.

The texts show the words of the transcript, line by line, exactly if nothing in the style breaks into
a line of dialogue, no word breaks its line, and the words of every line are legible
(`script_shows_iff`).
-/

set_option autoImplicit false

namespace Slidecast.Subtitle

open Number Speech

/-- What stands behind a number of commas. -/
def behindCommas : Nat → List Char → List Char
  | 0, cs => cs
  | n + 1, cs => behindCommas n ((cs.dropWhile (· ≠ ',')).drop 1)

/-- The text of a line of dialogue. -/
def cueText? (line : List Char) : Option (List Char) :=
  if "Dialogue:".toList.isPrefixOf line then some (behindCommas 9 line) else none

/-- The texts of all lines of dialogue. -/
def cueTexts (text : List Char) : List (List Char) := (text.splitOn '\n').filterMap cueText?

/-! ## Lines -/

section Lines

variable {line : List Char}

theorem cueTexts_of_single (single : '\n' ∉ line) : cueTexts line = (cueText? line).toList := by
  rw [cueTexts, List.splitOn_eq_singleton single, List.filterMap_cons]
  cases cueText? line <;> rfl

/-- A line that begins with another letter is no line of dialogue. -/
theorem cueTexts_of_other (single : '\n' ∉ line) (other : line.head? ≠ some 'D') :
    cueTexts line = [] := by
  have apart : ¬ "Dialogue:".toList.isPrefixOf line = true := by
    rw [List.isPrefixOf_iff_prefix]
    rintro ⟨rest, rfl⟩
    exact other rfl
  rw [cueTexts_of_single single, cueText?, if_neg apart]
  rfl

theorem cueTexts_append_cons (front back : List Char) :
    cueTexts (front ++ '\n' :: back) = cueTexts front ++ cueTexts back := by
  rw [cueTexts, List.splitOn_append_cons_self, List.filterMap_append]
  rfl

/-- Every line is read by itself. -/
theorem cueTexts_intercalate (lines : List (List Char)) :
    cueTexts (['\n'].intercalate lines) = lines.flatMap cueTexts := by
  induction lines with
  | nil => rfl
  | cons line lines ih =>
      cases lines with
      | nil => simp
      | cons other lines =>
          have split : ['\n'].intercalate (line :: other :: lines) =
              line ++ '\n' :: ['\n'].intercalate (other :: lines) := by
            simp [List.intercalate, List.intersperse]
          rw [split, cueTexts_append_cons, ih]
          rfl

theorem decide_ne_of_not_mem {c : Char} (missing : c ∉ line) :
    ∀ other ∈ line, decide (other ≠ c) = true := by
  intro other member
  rw [decide_eq_true_eq]
  rintro rfl
  exact missing member

theorem behindCommas_append (n : Nat) {field : List Char} (whole : ',' ∉ field)
    (rest : List Char) : behindCommas (n + 1) (field ++ ',' :: rest) = behindCommas n rest := by
  rw [behindCommas, List.dropWhile_append_of_pos (decide_ne_of_not_mem whole),
    List.dropWhile_cons_of_neg (by simp)]
  rfl

end Lines

/-! ## Lines of dialogue -/

/-- What stands in front of the text of a cue. -/
def lead (start stop : String) : List Char :=
  "Dialogue: 0".toList ++ ',' :: (start.toList ++ ',' :: (stop.toList ++
    ',' :: (styleName.toList ++ ',' :: ",0,0,0,,".toList)))

section Lead

variable {start stop : String}

theorem toList_cue (start stop text : String) :
    ("Dialogue: 0," ++ start ++ "," ++ stop ++ "," ++ styleName ++ ",,0,0,0,," ++ text).toList =
      lead start stop ++ text.toList := by
  have front : "Dialogue: 0,".toList = "Dialogue: 0".toList ++ [','] := rfl
  have comma : ",".toList = [','] := rfl
  have back : ",,0,0,0,,".toList = ',' :: ",0,0,0,,".toList := rfl
  unfold lead
  simp only [String.toList_append, front, comma, back, List.append_assoc, List.cons_append,
    List.nil_append]

/-- **The text of a line of dialogue** is read as it was. -/
theorem cueText?_lead (first : ',' ∉ start.toList) (second : ',' ∉ stop.toList)
    (text : List Char) : cueText? (lead start stop ++ text) = some text := by
  have dialogue : ∀ cs, "Dialogue:".toList.isPrefixOf ("Dialogue: 0".toList ++ cs) = true :=
    fun _ => rfl
  unfold lead
  simp only [List.append_assoc, List.cons_append]
  rw [cueText?, if_pos (dialogue _)]
  rw [behindCommas_append 8 (by decide), behindCommas_append 7 first, behindCommas_append 6 second,
    behindCommas_append 5 (by decide)]
  rfl

theorem no_break_in_lead (first : '\n' ∉ start.toList) (second : '\n' ∉ stop.toList) :
    '\n' ∉ lead start stop := by
  have front : '\n' ∉ "Dialogue: 0".toList := by decide
  have back : '\n' ∉ ',' :: (styleName.toList ++ ',' :: ",0,0,0,,".toList) := by decide
  have comma : '\n' ≠ ',' := by decide
  intro member
  unfold lead at member
  rw [List.mem_append, List.mem_cons, List.mem_append, List.mem_cons,
    List.mem_append] at member
  rcases member with dialogue | same | start | same | stop | behind
  · exact front dialogue
  · exact comma same
  · exact first start
  · exact comma same
  · exact second stop
  · exact back behind

end Lead

/-- A cue is one line of dialogue, and more if its text goes on in such lines. -/
theorem cueTexts_cue (start stop : Double) (text : String) :
    ∃ more, cueTexts (cueLine start stop text).toList = text.toList.takeWhile (· ≠ '\n') :: more ∧
      ('\n' ∉ text.toList → more = []) := by
  have read : ∀ cs, cueText? (lead (timeText start) (timeText stop) ++ cs) = some cs :=
    cueText?_lead (not_mem_timeText (.inl rfl)) (not_mem_timeText (.inl rfl))
  have unbroken : '\n' ∉ lead (timeText start) (timeText stop) :=
    no_break_in_lead (not_mem_timeText (.inr rfl)) (not_mem_timeText (.inr rfl))
  unfold cueLine
  rw [toList_cue]
  generalize lead (timeText start) (timeText stop) = front at read unbroken ⊢
  by_cases breaks : '\n' ∈ text.toList
  · obtain ⟨first, back, split, whole⟩ := List.eq_append_cons_of_mem breaks
    have single : '\n' ∉ front ++ first := by
      rw [List.mem_append, not_or]
      exact ⟨unbroken, whole⟩
    refine ⟨cueTexts back, ?_, fun none => absurd breaks none⟩
    rw [split, ← List.append_assoc, cueTexts_append_cons, cueTexts_of_single single, read,
      List.takeWhile_append_of_pos (decide_ne_of_not_mem whole),
      List.takeWhile_cons_of_neg (by simp), List.append_nil]
    rfl
  · have single : '\n' ∉ front ++ text.toList := by
      rw [List.mem_append, not_or]
      exact ⟨unbroken, breaks⟩
    refine ⟨[], ?_, fun _ => rfl⟩
    rw [cueTexts_of_single single, read,
      List.takeWhile_eq_self_iff.2 (decide_ne_of_not_mem breaks)]
    rfl

/-! ## Scripts -/

theorem no_break_append {front back : String} (first : '\n' ∉ front.toList)
    (second : '\n' ∉ back.toList) : '\n' ∉ (front ++ back).toList := by
  rw [String.toList_append, List.mem_append, not_or]
  exact ⟨first, second⟩

theorem head?_append {front back : String} {c : Char} (begins : front.toList.head? = some c) :
    (front ++ back).toList.head? = some c := by
  rw [String.toList_append, List.head?_append, begins]
  rfl

/-- In front of the captions, only the style can break into a line of dialogue. -/
theorem cueTexts_headerLines (s : Style) (width height : Nat) :
    ((headerLines s width height).map String.toList).flatMap cueTexts =
      cueTexts (styleLine s).toList := by
  have number : ∀ n : Nat, '\n' ∉ (toString n).toList := fun n member =>
    absurd (isDigit_of_mem_toString member) (by decide)
  have info : cueTexts "[Script Info]".toList = [] := cueTexts_of_other (by simp) (by simp)
  have version : cueTexts "ScriptType: v4.00+".toList = [] := cueTexts_of_other (by simp) (by simp)
  have across : cueTexts ("PlayResX: " ++ toString width).toList = [] :=
    cueTexts_of_other (no_break_append (by simp) (number width)) (by simp)
  have down : cueTexts ("PlayResY: " ++ toString height).toList = [] :=
    cueTexts_of_other (no_break_append (by simp) (number height)) (by simp)
  have blank : cueTexts "".toList = [] := cueTexts_of_other (by simp) (by simp)
  have styles : cueTexts "[V4+ Styles]".toList = [] := cueTexts_of_other (by simp) (by simp)
  have format : cueTexts
      ("Format: Name, Fontname, Fontsize, PrimaryColour, SecondaryColour, OutlineColour, " ++
        "BackColour, Bold, Italic, BorderStyle, Outline, Shadow, Alignment, MarginL, MarginR, " ++
        "MarginV, Encoding").toList = [] :=
    cueTexts_of_other (no_break_append (no_break_append (by simp) (by simp)) (by simp))
      ((head?_append (head?_append (by simp))).trans_ne (by decide : some 'F' ≠ some 'D'))
  have events : cueTexts "[Events]".toList = [] := cueTexts_of_other (by simp) (by simp)
  have layout : cueTexts
      "Format: Layer, Start, End, Style, Name, MarginL, MarginR, MarginV, Effect, Text".toList =
        [] := cueTexts_of_other (by simp) (by simp)
  unfold headerLines
  simp only [List.map_cons, List.map_nil, List.flatMap_cons, List.flatMap_nil, info, version, blank,
    styles, format, events, layout, across, down, List.nil_append, List.append_nil]

/-- The lines of dialogue of a script. -/
theorem cueTexts_script (captions : List Caption) (s : Style) (width height : Nat) :
    cueTexts (script captions s width height).toList =
      cueTexts (styleLine s).toList ++ captions.flatMap fun c => cueTexts c.line.toList := by
  have lines : (script captions s width height).toList = ['\n'].intercalate
      ((headerLines s width height ++ captions.map Caption.line).map String.toList) :=
    String.toList_intercalate
  rw [lines, cueTexts_intercalate, List.map_append, List.flatMap_append, cueTexts_headerLines,
    List.map_map, List.flatMap_map]
  rfl

/-! ## Captions of groups -/

/-- The words of a group, letter by letter. -/
def spelled (group : List Word) : List (List Char) := group.map fun w => w.text.toList

/-- The caption of a group has its words. -/
theorem words_of_caption? {group : List Word} {c : Caption} (made : caption? group = some c) :
    c.words = spelled group := by
  obtain ⟨_, _, _, _, rfl⟩ := caption?_eq_some_iff.1 made
  have texts := congrArg (List.map String.toList) (map_text_beats group)
  rwa [List.map_map, List.map_map] at texts

/-- **The captions have the words of the groups.** -/
theorem map_words_captions (t : Transcript) (n : Nat) :
    (captions t n).map Caption.words = (groups n t.words).map spelled := by
  have each : List.Forall₂ (· = ·) ((captions t n).map Caption.words)
      ((groups n t.words).map spelled) := by
    rw [List.forall₂_map_left_iff, List.forall₂_map_right_iff]
    exact (forall₂_captions t n).flip.imp fun c group => words_of_caption?
  rwa [List.forall₂_eq_eq_eq] at each

/-! ## What viewers read -/

/-- If rows are never empty, as many as there are of them have room for one element each, and for
nothing in front of them. -/
theorem append_flatMap_eq_map_iff {α β : Type} {rows : α → List β} (filled : ∀ a, rows a ≠ [])
    (expected : α → β) (extra : List β) (as : List α) :
    extra ++ as.flatMap rows = as.map expected ↔
      extra = [] ∧ ∀ a ∈ as, rows a = [expected a] := by
  have enough : ∀ as : List α, as.length ≤ (as.flatMap rows).length := by
    intro as
    induction as with
    | nil => exact Nat.zero_le _
    | cons a as ih =>
        have positive := List.length_pos_of_ne_nil (filled a)
        rw [List.flatMap_cons, List.length_append, List.length_cons]
        omega
  induction as generalizing extra with
  | nil => simp
  | cons a as ih =>
      obtain ⟨first, more, row⟩ := List.exists_cons_of_ne_nil (filled a)
      have behind := ih more
      rw [List.flatMap_cons, List.map_cons, List.forall_mem_cons, row]
      constructor
      · intro same
        have length := congrArg List.length same
        have rest := enough as
        simp only [List.length_append, List.length_cons, List.length_map] at length
        obtain rfl : extra = [] := List.eq_nil_of_length_eq_zero (by omega)
        obtain ⟨rfl, later⟩ := List.cons.inj same
        obtain ⟨rfl, others⟩ := behind.1 later
        exact ⟨rfl, rfl, others⟩
      · rintro ⟨rfl, own, others⟩
        obtain ⟨rfl, rfl⟩ := List.cons.inj own
        rw [List.nil_append, List.cons_append, behind.2 ⟨rfl, others⟩]

theorem cue_ne_nil (c : Caption) : (cueTexts c.line.toList).map visible ≠ [] := by
  obtain ⟨more, read, _⟩ := cueTexts_cue c.start c.stop c.text
  rw [Caption.line, read]
  exact List.cons_ne_nil _ _

/-- What a viewer reads of a caption whose words do not break its line. -/
theorem cue_shows {c : Caption} (whole : ∀ word ∈ c.words, '\n' ∉ word) :
    (cueTexts c.line.toList).map visible = [shownOf c.words] := by
  obtain ⟨more, read, single⟩ := cueTexts_cue c.start c.stop c.text
  have unbroken := no_break_in_text whole
  rw [Caption.line, read, single unbroken,
    List.takeWhile_eq_self_iff.2 (decide_ne_of_not_mem unbroken), List.map_singleton, visible_text]

/-- **A viewer reads the words of a caption** in one line exactly if they are legible and do not
break it. -/
theorem cue_shows_iff (c : Caption) :
    (cueTexts c.line.toList).map visible = [joined c.words] ↔
      Legible c.words ∧ ∀ word ∈ c.words, '\n' ∉ word := by
  constructor
  · intro same
    have whole : ∀ word ∈ c.words, '\n' ∉ word := by
      obtain ⟨more, read, _⟩ := cueTexts_cue c.start c.stop c.text
      rw [Caption.line, read] at same
      intro word among inside
      have there : '\n' ∈ joined c.words := mem_joined_of_mem among inside
      rw [← (List.cons.inj same).1] at there
      have before := (visible_sublist _).subset there
      exact absurd (List.mem_takeWhile_imp before) (by decide)
    rw [cue_shows whole, List.singleton_inj, shownOf_eq_iff] at same
    exact ⟨same, whole⟩
  · rintro ⟨legible, whole⟩
    rw [cue_shows whole, (shownOf_eq_iff _).2 legible]

/-- **What viewers read is the transcript**, one line for each group of words, exactly if the style
does not break into a line of dialogue, the words of every group are legible, and none of them breaks
its line. -/
theorem script_shows_iff (t : Transcript) (n : Nat) (s : Style) (width height : Nat) :
    (cueTexts (script (captions t n) s width height).toList).map visible =
        (groups n t.words).map (fun group => joined (spelled group)) ↔
      cueTexts (styleLine s).toList = [] ∧ ∀ group ∈ groups n t.words,
        Legible (spelled group) ∧ ∀ word ∈ spelled group, '\n' ∉ word := by
  have expected : (groups n t.words).map (fun group => joined (spelled group)) =
      (captions t n).map fun c => joined c.words := by
    have texts := congrArg (List.map joined) (map_words_captions t n)
    rw [List.map_map, List.map_map] at texts
    exact texts.symm
  have conditions : (∀ group ∈ groups n t.words,
      Legible (spelled group) ∧ ∀ word ∈ spelled group, '\n' ∉ word) ↔
      ∀ c ∈ captions t n, Legible c.words ∧ ∀ word ∈ c.words, '\n' ∉ word := by
    have words := map_words_captions t n
    rw [← List.forall_mem_map (P := fun ws => Legible ws ∧ ∀ word ∈ ws, '\n' ∉ word), ← words,
      List.forall_mem_map]
  rw [cueTexts_script, List.map_append, List.map_flatMap, expected, conditions,
    append_flatMap_eq_map_iff cue_ne_nil, List.map_eq_nil_iff]
  exact and_congr_right fun _ => forall₂_congr fun c _ => cue_shows_iff c

/-- What viewers read in any case, if no line is broken. -/
theorem script_shows {t : Transcript} (n : Nat) {s : Style} (width height : Nat)
    (style : cueTexts (styleLine s).toList = [])
    (whole : ∀ group ∈ groups n t.words, ∀ word ∈ spelled group, '\n' ∉ word) :
    (cueTexts (script (captions t n) s width height).toList).map visible =
      (groups n t.words).map fun group => shownOf (spelled group) := by
  have words := map_words_captions t n
  have shown : ∀ c ∈ captions t n, (cueTexts c.line.toList).map visible = [shownOf c.words] := by
    intro c member
    have among : c.words ∈ (groups n t.words).map spelled := words ▸ List.mem_map_of_mem member
    obtain ⟨group, dealt, same⟩ := List.mem_map.1 among
    exact cue_shows (same ▸ whole group dealt)
  have texts := congrArg (List.map shownOf) words
  rw [List.map_map, List.map_map] at texts
  rw [cueTexts_script, style, List.map_append, List.map_flatMap]
  exact ((append_flatMap_eq_map_iff cue_ne_nil _ _ _).2 ⟨rfl, shown⟩).trans texts

/-- A brace in a word opens a block that ends with the mark of the next word, and the space between
them is lost. -/
theorem brace_hides_space :
    ∃ t, (⟨["a\x7b", " ", "b"], [0, 1, 1], [1, 1, 2]⟩ : Utterance).transcript = .ok t ∧
      (groups 4 t.words).map (fun group => joined (spelled group)) = ["a\x7b b".toList] ∧
      (cueTexts (script (captions t 4) {} 1080 1920).toList).map visible = ["ab".toList] := by
  have spoken : (⟨["a\x7b", " ", "b"], [0, 1, 1], [1, 1, 2]⟩ : Utterance).transcript.toOption.map
      (fun t => (groups 4 t.words).map spelled) = some [["a\x7b".toList, "b".toList]] := by
    decide +kernel
  have style : cueTexts (styleLine {}).toList = [] :=
    cueTexts_of_other (by decide +kernel) (by decide +kernel)
  cases accepted : (⟨["a\x7b", " ", "b"], [0, 1, 1], [1, 1, 2]⟩ : Utterance).transcript with
  | error failure =>
      rw [accepted] at spoken
      cases spoken
  | ok t =>
      rw [accepted] at spoken
      have words : (groups 4 t.words).map spelled = [["a\x7b".toList, "b".toList]] :=
        Option.some.inj spoken
      have each : ∀ f : List (List Char) → List Char,
          (groups 4 t.words).map (fun group => f (spelled group)) =
            [f ["a\x7b".toList, "b".toList]] := by
        intro f
        have texts := congrArg (List.map f) words
        rwa [List.map_map] at texts
      refine ⟨t, rfl, (each joined).trans (by decide), ?_⟩
      rw [script_shows 4 1080 1920 style, each shownOf]
      · decide
      · intro group member
        have among : spelled group ∈ [["a\x7b".toList, "b".toList]] :=
          words ▸ List.mem_map_of_mem member
        rw [List.mem_singleton.1 among]
        decide

end Slidecast.Subtitle
