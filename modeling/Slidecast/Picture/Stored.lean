import Slidecast.Files.Disk
import Slidecast.Picture.Bitmap.Basic
import Slidecast.Picture.Gif
import Slidecast.Picture.Jpeg.Reader
import Slidecast.Picture.Png
import Slidecast.Picture.Webp.Reader

/-!
# Stored pictures

Which way a picture is stored is told by the extension of its name alone.  A file that holds
something else, or a picture that is stored another way, is not a picture under that name.
-/

set_option autoImplicit false

namespace Slidecast.Picture

open Files

/-- The extensions of pictures, and how they are stored. -/
def encodings : List (String × Encoding) :=
  [ ("bmp", .bmp), ("png", .png), ("apng", .png), ("jpg", .jpeg), ("jpeg", .jpeg),
    ("jfif", .jpeg), ("gif", .gif), ("webp", .webp) ]

/-- How the picture at a path is stored, as its name tells; capital letters from `A` to `Z` count as
small ones. -/
def encodingOf? (p : Path) : Option Encoding :=
  p.extension?.bind fun extension => encodings.lookup (extension.map Char.toLower)

/-- The raster that a row of bytes stands for. -/
def decoded? (encoding : Encoding) (bytes : List UInt8) : Option Raster :=
  match encoding with
  | .bmp => Bitmap.read? bytes.toArray
  | .png => Png.read? bytes.toArray
  | .gif => Gif.read? bytes.toArray
  | .jpeg => Jpeg.read? bytes.toArray
  | .webp => Webp.read? bytes.toArray

/-- The raster that a file stands for. -/
def storedRaster? (encoding : Encoding) : Content → Option Raster
  | .picture other raster => if other = encoding then some raster else none
  | .bytes bytes => decoded? encoding bytes
  | .text text => decoded? encoding text.toUTF8.toList
  | .program _ => none

end Slidecast.Picture
