import Slidecast.Speech.Transcript
import Slidecast.Text.Blank
import Slidecast.Text.LowerCase

/-!
# Cuts

The cuts of a slideshow are the times at which it changes from one picture to the next.  They
begin at zero, never go back, and end when the speech ends.

With marker words, a cut is made where the first word begins that sounds like the marker.
Without, the words are dealt out evenly to the pictures, and each picture but the last ends with
the last word of its share.  The ends of words may overlap, so such a cut is kept between the
cut before it and the end of the speech.
-/

set_option autoImplicit false

namespace Slidecast.Slideshow

open Number Speech

/-- How the cuts were found. -/
inductive CutRule where
  | markers
  | even
  deriving DecidableEq

/-! ## Cuts at marker words -/

/-- Punctuation that does not belong to the word beside it. -/
def isPunctuation (c : Char) : Bool :=
  c = '.' || c = ',' || c = '!' || c = '?' || c = ';' || c = ':' || c = '"' || c = '\''

/-- A word as it is compared with markers: in lower case, without punctuation at its ends. -/
def bareWord (text : String) : String := Text.trimWhere isPunctuation (Text.lower text)

/-- A marker as it is compared with words. -/
def bareMarker (text : String) : String := Text.lower (Text.trim text)

/-- The start of the first word that a marker means. -/
def startOf? (words : List Word) (marker : String) : Option Double :=
  (words.find? fun w => bareWord w.text = bareMarker marker).map Word.start

/-- Adds a point that is not yet among the points. -/
def addPoint (points : List Double) (point : Double) : List Double :=
  if points.any (·.equals point) then points else points ++ [point]

/-- Zero and the points that the markers mean, in order. -/
def markerPoints (t : Transcript) (markers : List String) : List Double :=
  let found := markers.filterMap (startOf? t.words)
  (found.foldl addPoint [0]).mergeSort Binary.sortsBefore

/-! ## Even cuts -/

/-- The number of the last word among the first `share * size` words, where there is one. -/
def lastOfShare (count size share : Nat) : Nat := max 1 (min (share * size) count) - 1

/-- The ends of the shares from `share` on, each between the point before it and the end of the
speech; `more` of them are wanted. -/
def sharePoints (words : List Word) (speechEnd : Double) (size : Nat) :
    Nat → Nat → Double → List Double
  | 0, _, _ => []
  | more + 1, share, previous =>
      let wordEnd := (words[lastOfShare words.length size share]?.map Word.stop).getD speechEnd
      let point := (wordEnd.smaller speechEnd).larger previous
      point :: sharePoints words speechEnd size more (share + 1) point

/-- Zero and the ends of the shares of all pictures but the last. -/
def evenPoints (t : Transcript) (pictures : Nat) : List Double :=
  match t.stop? with
  | none => [0]
  | some speechEnd =>
      0 :: sharePoints t.words speechEnd (t.size / pictures) (pictures - 1) 1 0

/-! ## All cuts -/

/-- Adds the end of the speech, if the points do not end with it. -/
def closeWith (stop : Option Double) (points : List Double) : List Double :=
  match stop with
  | none => points
  | some stop =>
      if points.getLast?.any (·.equals stop) then points else points ++ [stop]

/-- The cuts of a slideshow, and how they were found. -/
def cuts (t : Transcript) (pictures : Nat) (markers : List String) : CutRule × List Double :=
  if markers.isEmpty then (.even, closeWith t.stop? (evenPoints t pictures))
  else (.markers, closeWith t.stop? (markerPoints t markers))

end Slidecast.Slideshow
