import Slidecast.Speech.Transcript
import Slidecast.Text.Blank

/-!
# Utterances

A speech synthesiser reports what it said as three columns: the characters, and the times at
which each of them starts and stops.  The words of an utterance are the runs of characters
between blanks.  A word starts with its first character and stops with its last one.

Reported times are noisy, so words are mended as they are read: a word that starts before the
word in front of it starts with that word, and a word that stops before it starts has no length.
Times that do not compare are left alone, and the transcript refuses them.
-/

set_option autoImplicit false

namespace Slidecast.Speech

open Number

/-- The three columns of an utterance. -/
structure Utterance where
  characters : List String
  starts : List Double
  ends : List Double
  deriving DecidableEq

/-- A character with its times. -/
structure Sound where
  text : String
  start : Double
  stop : Double
  deriving DecidableEq

/-- A character that separates words. -/
def Sound.isPause (s : Sound) : Bool := Text.isBlankText s.text

/-- The word with the given times, mended against the start of the word in front of it. -/
def mend (previous : Option Double) (w : Word) : Word :=
  let start :=
    match previous with
    | some bound => if w.start < bound then bound else w.start
    | none => w.start
  { w with start := start, stop := if w.stop < start then start else w.stop }

/-- The word that is being spoken, after one more character. -/
def extend (current : Option Word) (s : Sound) : Word :=
  match current with
  | some w => { w with text := w.text ++ s.text, stop := s.stop }
  | none => ⟨s.text, s.start, s.stop⟩

/-- The words of a row of sounds that comes after a word with the start `previous`, while the
word `current` is being spoken. -/
def wordsFrom (previous : Option Double) (current : Option Word) : List Sound → List Word
  | [] =>
      match current with
      | some w => [mend previous w]
      | none => []
  | s :: sounds =>
      if s.isPause then
        match current with
        | some w =>
            let w := mend previous w
            w :: wordsFrom (some w.start) none sounds
        | none => wordsFrom previous none sounds
      else wordsFrom previous (some (extend current s)) sounds

namespace Utterance

/-- The characters with their times, in columns of the same length. -/
def sounds (u : Utterance) : List Sound :=
  List.zipWith (fun text times => ⟨text, times.1, times.2⟩) u.characters (u.starts.zip u.ends)

/-- The transcript of an utterance. -/
def transcript (u : Utterance) : Except Failure Transcript :=
  if u.characters.length = u.starts.length ∧ u.characters.length = u.ends.length then
    Transcript.ofWords (wordsFrom none none u.sounds)
  else
    .error (.invalidInput
      (.unevenColumns u.characters.length u.starts.length u.ends.length))

end Utterance

end Slidecast.Speech
