import Slidecast.Json.Record
import Slidecast.Json.Document

/-!
# The style of subtitles

One style applies to all subtitles: a font, four colours in the notation of the subtitle format,
the weight of lines and shadows, where the text stands, and how many words a line has.
-/

set_option autoImplicit false

namespace Slidecast.Subtitle

open Json

/-- The look of all subtitles. -/
structure Style where
  fontName : String := "Arial"
  fontSize : Nat := 125
  primaryColour : String := "&H00FFFFFF"
  secondaryColour : String := "&H00FF0000"
  outlineColour : String := "&H00000000"
  backColour : String := "&H00000000"
  bold : Bool := true
  italic : Bool := false
  borderStyle : Nat := 1
  outline : Nat := 3
  shadow : Nat := 0
  /-- Where the text stands, as on the keys of a number pad. -/
  alignment : Nat := 2
  marginLeft : Nat := 10
  marginRight : Nat := 10
  marginVertical : Nat := 850
  encoding : Nat := 1
  wordsPerLine : Nat := 4
  deriving DecidableEq, Inhabited

namespace Style

/-- The fields of a style; all of them may be missing. -/
def shape : Shape Style where
  blank := {}
  fields :=
    [ Field.of "font_name" string fun x s => { s with fontName := x },
      Field.of "font_size" (word 32) fun x s => { s with fontSize := x },
      Field.of "primary_colour" string fun x s => { s with primaryColour := x },
      Field.of "secondary_colour" string fun x s => { s with secondaryColour := x },
      Field.of "outline_colour" string fun x s => { s with outlineColour := x },
      Field.of "back_colour" string fun x s => { s with backColour := x },
      Field.of "bold" boolean fun x s => { s with bold := x },
      Field.of "italic" boolean fun x s => { s with italic := x },
      Field.of "border_style" (word 8) fun x s => { s with borderStyle := x },
      Field.of "outline" (word 32) fun x s => { s with outline := x },
      Field.of "shadow" (word 32) fun x s => { s with shadow := x },
      Field.of "alignment" (word 8) fun x s => { s with alignment := x },
      Field.of "margin_l" (word 32) fun x s => { s with marginLeft := x },
      Field.of "margin_r" (word 32) fun x s => { s with marginRight := x },
      Field.of "margin_v" (word 32) fun x s => { s with marginVertical := x },
      Field.of "encoding" (word 32) fun x s => { s with encoding := x },
      Field.of "words_per_line" (word 64) fun x s => { s with wordsPerLine := x } ]

/-- The style as a document. -/
def document (s : Style) : Document :=
  .object
    [ ("font_name", .string s.fontName),
      ("font_size", .natural s.fontSize),
      ("primary_colour", .string s.primaryColour),
      ("secondary_colour", .string s.secondaryColour),
      ("outline_colour", .string s.outlineColour),
      ("back_colour", .string s.backColour),
      ("bold", .boolean s.bold),
      ("italic", .boolean s.italic),
      ("border_style", .natural s.borderStyle),
      ("outline", .natural s.outline),
      ("shadow", .natural s.shadow),
      ("alignment", .natural s.alignment),
      ("margin_l", .natural s.marginLeft),
      ("margin_r", .natural s.marginRight),
      ("margin_v", .natural s.marginVertical),
      ("encoding", .natural s.encoding),
      ("words_per_line", .natural s.wordsPerLine) ]

end Style

end Slidecast.Subtitle
