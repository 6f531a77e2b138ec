import Slidecast.Number.Notation

/-!
# Mixdowns

A mixdown describes how sound tracks are mixed into one: every track is delayed, given its
volume and a label, and all labels are fed into one mix in their order.  Inputs are numbered as
tracks are added.  The text of a mixdown is the filter description that the mixing tool reads.
-/

set_option autoImplicit false

namespace Slidecast.Audio

open Number

/-- One track of a mixdown: the number of its input, its delay in milliseconds on both channels,
and its volume. -/
structure Strand where
  input : Nat
  delay : Nat
  volume : Single
  deriving DecidableEq

/-- The longest delay in milliseconds. -/
def longestDelay : Nat := largest 64

namespace Strand

/-- The strand of a track that is heard after an offset in seconds.  Parts of a millisecond are
dropped, and a negative offset is none. -/
def ofOffset (input : Nat) (offset : Double) (volume : Single) : Strand where
  input := input
  delay := ((offset.larger 0) * 1000).truncate longestDelay
  volume := volume

/-- The label of the delayed track. -/
def label (s : Strand) : String := "a" ++ toString s.input

/-- The description of the strand. -/
def text (s : Strand) : String :=
  "[" ++ toString s.input ++ ":a]adelay=" ++ toString s.delay ++ "|" ++ toString s.delay ++
    ",volume=" ++ s.volume.plain ++ "[" ++ s.label ++ "]"

end Strand

/-- The tracks that are mixed, and for how many seconds the others are faded in when one of them
ends. -/
structure Mixdown where
  strands : List Strand
  dropout : Nat
  deriving DecidableEq

/-- The label of the mixed track. -/
def mixLabel : String := "out"

namespace Mixdown

/-- A mixdown of nothing. -/
def empty (dropout : Nat) : Mixdown := ⟨[], dropout⟩

def isEmpty (m : Mixdown) : Bool := m.strands.isEmpty

/-- The strand that the next track gets. -/
def nextStrand (m : Mixdown) (offset : Double) (volume : Single) : Strand :=
  Strand.ofOffset m.strands.length offset volume

/-- Adds a track as the next input. -/
def add (m : Mixdown) (offset : Double) (volume : Single) : Mixdown :=
  { m with strands := m.strands ++ [m.nextStrand offset volume] }

/-- The description of the mix: the labels it consumes, and the one it defines. -/
def mixText (m : Mixdown) : String :=
  String.join (m.strands.map fun s => "[" ++ s.label ++ "]") ++
    "amix=inputs=" ++ toString m.strands.length ++ ":duration=first:dropout_transition=" ++
    toString m.dropout ++ "[" ++ mixLabel ++ "]"

/-- The description of the mixdown. -/
def text (m : Mixdown) : String :=
  String.intercalate ";" (m.strands.map Strand.text ++ [m.mixText])

end Mixdown

end Slidecast.Audio
