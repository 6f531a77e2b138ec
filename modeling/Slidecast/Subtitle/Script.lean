import Slidecast.Subtitle.Style
import Slidecast.Subtitle.Caption

/-!
# Subtitle scripts

A subtitle script is a text with three sections: what the script is for, its style, and one line
for each caption.  Times are written in hours, minutes, seconds and hundredths, all taken from
one whole number of hundredths, so that nothing is lost where minutes begin.
-/

set_option autoImplicit false

namespace Slidecast.Subtitle

open Number

/-- The largest number of hundredths that a time can have. -/
def latestTime : Nat := largest 64

/-- The hundredths of a second that have passed; none before zero. -/
def centisecondsAt (seconds : Double) : Nat :=
  ((seconds.larger 0) * 100).round.truncate latestTime

/-- A number below a hundred with two digits. -/
def twoDigits (n : Nat) : String := if n < 10 then "0" ++ toString n else toString n

/-- A number of hundredths as `H:MM:SS.cc`. -/
def clockText (centiseconds : Nat) : String :=
  let seconds := centiseconds / 100
  let minutes := seconds / 60
  toString (minutes / 60) ++ ":" ++ twoDigits (minutes % 60) ++ ":" ++ twoDigits (seconds % 60) ++
    "." ++ twoDigits (centiseconds % 100)

/-- A time in seconds as `H:MM:SS.cc`. -/
def timeText (seconds : Double) : String := clockText (centisecondsAt seconds)

/-- The name of the only style of a script. -/
def styleName : String := "Default"

def flag (value : Bool) : String := if value then "1" else "0"

/-- The line that describes a style. -/
def styleLine (s : Style) : String :=
  "Style: " ++ String.intercalate ","
    [ styleName, s.fontName, toString s.fontSize, s.primaryColour, s.secondaryColour,
      s.outlineColour, s.backColour, flag s.bold, flag s.italic, toString s.borderStyle,
      toString s.outline, toString s.shadow, toString s.alignment, toString s.marginLeft,
      toString s.marginRight, toString s.marginVertical, toString s.encoding ]

/-- The lines in front of the captions, for frames of the given size. -/
def headerLines (s : Style) (width height : Nat) : List String :=
  [ "[Script Info]",
    "ScriptType: v4.00+",
    "PlayResX: " ++ toString width,
    "PlayResY: " ++ toString height,
    "",
    "[V4+ Styles]",
    "Format: Name, Fontname, Fontsize, PrimaryColour, SecondaryColour, OutlineColour, " ++
      "BackColour, Bold, Italic, BorderStyle, Outline, Shadow, Alignment, MarginL, MarginR, " ++
      "MarginV, Encoding",
    styleLine s,
    "",
    "[Events]",
    "Format: Layer, Start, End, Style, Name, MarginL, MarginR, MarginV, Effect, Text" ]

/-- The line that shows a text from one time to another. -/
def cueLine (start stop : Double) (text : String) : String :=
  "Dialogue: 0," ++ timeText start ++ "," ++ timeText stop ++ "," ++ styleName ++ ",,0,0,0,," ++
    text

/-- The line of a caption. -/
def Caption.line (c : Caption) : String := cueLine c.start c.stop c.text

/-- The text in front of the captions. -/
def header (s : Style) (width height : Nat) : String :=
  String.intercalate "\n" (headerLines s width height)

/-- The text of a script. -/
def script (captions : List Caption) (s : Style) (width height : Nat) : String :=
  String.intercalate "\n" (headerLines s width height ++ captions.map Caption.line)

/-- The name of the file in which a script is kept. -/
def scriptName : String := "subs.ass"

end Slidecast.Subtitle
