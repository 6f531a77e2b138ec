import Slidecast.Failure

/-!
# Transcripts

A transcript is a row of spoken words, each with the times in seconds at which it starts and
stops.  The times are finite, no word stops before it starts, and the starts never go back;
`Transcript.ofWords` is the only way to get one and reports the first offence.  An offence of a
single word is reported before any disorder between words.
-/

set_option autoImplicit false

namespace Slidecast.Speech

open Number

/-- A spoken word with its times in seconds. -/
structure Word where
  text : String
  start : Double
  stop : Double
  deriving DecidableEq

/-- How long the word lasts. -/
def Word.duration (w : Word) : Double := w.stop - w.start

/-- What is wrong with a word by itself. -/
def Word.offence (index : Nat) (w : Word) : Option Refusal :=
  if !w.start.isFinite || !w.stop.isFinite then some (.timeNotFinite index w.text)
  else if w.stop < w.start then some (.endsBeforeStart index w.text w.start w.stop)
  else none

/-- The first word that is wrong by itself, when the words are counted from `index`. -/
def firstOffence (index : Nat) : List Word → Option Refusal
  | [] => none
  | w :: ws =>
      match w.offence index with
      | some refusal => some refusal
      | none => firstOffence (index + 1) ws

/-- The index of the first word that starts before its predecessor, when the words are counted
from `index`. -/
def firstDisorder (index : Nat) : List Word → Option Nat
  | [] => none
  | [_] => none
  | v :: w :: ws =>
      if w.start < v.start then some (index + 1) else firstDisorder (index + 1) (w :: ws)

/-- What is wrong with a row of words. -/
def offenceOf (words : List Word) : Option Refusal :=
  match firstOffence 0 words with
  | some refusal => some refusal
  | none => (firstDisorder 0 words).map Refusal.notOrdered

/-- A row of words in the order of time. -/
structure Transcript where
  words : List Word
  sound : offenceOf words = none

namespace Transcript

/-- The transcript with the given words, if nothing is wrong with them. -/
def ofWords (words : List Word) : Except Failure Transcript :=
  match h : offenceOf words with
  | none => .ok ⟨words, h⟩
  | some refusal => .error (.invalidInput refusal)

/-- The transcript of silence. -/
def empty : Transcript := ⟨[], rfl⟩

instance : Inhabited Transcript := ⟨empty⟩

def size (t : Transcript) : Nat := t.words.length

def isEmpty (t : Transcript) : Bool := t.words.isEmpty

/-- The time at which the last word stops. -/
def stop? (t : Transcript) : Option Double := t.words.getLast?.map Word.stop

end Transcript

end Slidecast.Speech
