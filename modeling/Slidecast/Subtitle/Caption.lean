import Slidecast.Speech.Transcript

/-!
# Captions

A caption is a line of words that is shown while they are spoken, with one word after another
lit up.  The words of a transcript are dealt to captions in their order, the same number to each
but the last.  A word stays lit until the next one of its caption starts, the last one until it
stops, and every word at least for a hundredth of a second.
-/

set_option autoImplicit false

namespace Slidecast.Subtitle

open Number Speech

/-- A word of a caption and for how many seconds it is lit. -/
structure Beat where
  text : String
  highlight : Double
  deriving DecidableEq

/-- The time for which a word is lit at least. -/
def shortestHighlight : Double := 0.01

/-- The largest number of hundredths that can be written. -/
def longestHighlight : Nat := largest 32

namespace Beat

/-- For how many hundredths of a second the word is lit; never for none. -/
def centiseconds (b : Beat) : Nat :=
  max ((b.highlight * 100).round.truncate longestHighlight) 1

/-- The word with its mark. -/
def mark (b : Beat) : String := "\x7b\\k" ++ toString b.centiseconds ++ "\x7d" ++ b.text

end Beat

/-- A line of words with the time for which it is shown. -/
structure Caption where
  start : Double
  stop : Double
  beats : List Beat
  deriving DecidableEq

/-- The marked words, with spaces between them. -/
def Caption.text (c : Caption) : String := String.intercalate " " (c.beats.map Beat.mark)

/-- Deals elements to groups of the given size; a group has at least one. -/
def groups {α : Type} (size : Nat) : List α → List (List α)
  | [] => []
  | a :: as => (a :: as.take (size - 1)) :: groups size (as.drop (size - 1))
termination_by as => as.length
decreasing_by
  simp only [List.length_drop, List.length_cons]
  omega

/-- The words of one caption with the times for which they are lit. -/
def beats : List Word → List Beat
  | [] => []
  | [w] => [⟨w.text, (w.stop - w.start).larger shortestHighlight⟩]
  | v :: w :: words =>
      ⟨v.text, (w.start - v.start).larger shortestHighlight⟩ :: beats (w :: words)

/-- The caption of a group of words, unless there is none. -/
def caption? (words : List Word) : Option Caption :=
  match words.head?, words.getLast? with
  | some first, some last => some ⟨first.start, last.stop, beats words⟩
  | _, _ => none

/-- The captions of a transcript, with a number of words to each. -/
def captions (t : Transcript) (wordsPerLine : Nat) : List Caption :=
  (groups wordsPerLine t.words).filterMap caption?

end Slidecast.Subtitle
