import Slidecast.Text.Utf8

/-!
# Paths

A path is a row of bytes in which `/` separates names.  Repeated separators count once, a single
dot stands for the directory itself and a double dot for the one above.  `Path.parts` is the view
through which paths are read: it drops what has no meaning, and keeps a dot only in front of a
relative path.

The bytes of a path need not be UTF-8.  They are kept as the characters with their numbers, so that
plain names are kept as they are.  A text is made a path by writing it as UTF-8 (`Path.ofText`), and
a path is shown as a text by reading it as UTF-8 (`Path.shown`), with replacement characters for
what is none.  So what a path is shown as may name another path (`Path.asShown`).

`Path.clean` removes dots by their spelling alone.  `Path.absoluteFrom` puts a relative path
under a directory and leaves double dots in place.
-/

set_option autoImplicit false

namespace Slidecast

/-- A path; each of its bytes is kept as the character with its number. -/
structure Path where
  text : String
  deriving DecidableEq, Inhabited

/-- What a path consists of. -/
inductive PathPart where
  | root
  | here
  | parent
  | name (text : String)
  deriving DecidableEq

/-- How a part is spelled; the root is what stands in front of the first separator. -/
def PathPart.spelling : PathPart → String
  | .root => ""
  | .here => "."
  | .parent => ".."
  | .name text => text

/-- Cuts a row of characters at every `/`. -/
def cutAtSlash : List Char → List (List Char)
  | [] => [[]]
  | c :: cs =>
      if c = '/' then [] :: cutAtSlash cs
      else
        match cutAtSlash cs with
        | [] => [[c]]
        | first :: rest => (c :: first) :: rest

/-- The characters after the last dot, if there is a dot behind the first character. -/
def afterLastDot (cs : List Char) : Option (List Char) :=
  let suffix := (cs.reverse.takeWhile (· ≠ '.')).reverse
  let stem := cs.length - suffix.length
  if 1 < stem then some suffix else none

namespace Path

/-- The path that a text names. -/
def ofText (text : String) : Path := ⟨Text.kept text⟩

/-- The text that a path is shown as. -/
def shown (p : Path) : String := Text.shown p.text

instance : ToString Path := ⟨shown⟩

/-- The path that the shown text of a path names. -/
def asShown (p : Path) : Path := ofText p.shown

/-- The bytes of a path are those of a text. -/
def IsText (p : Path) : Prop := p.asShown = p

instance : DecidablePred IsText := fun _ => inferInstanceAs (Decidable (_ = _))

/-- Starts at the root. -/
def isAbsolute (p : Path) : Bool := p.text.toList.head? == some '/'

/-- Ends with a separator. -/
def endsWithSlash (p : Path) : Bool := p.text.toList.getLast? == some '/'

/-- The pieces between the separators, without the empty ones. -/
def segments (p : Path) : List String :=
  ((cutAtSlash p.text.toList).filter (· ≠ [])).map String.ofList

/-- What a piece between separators means inside a path; a dot means nothing there. -/
def partOf? (segment : String) : Option PathPart :=
  if segment = "." then none
  else if segment = ".." then some .parent
  else some (.name segment)

/-- The parts of a path. -/
def parts (p : Path) : List PathPart :=
  let inner := p.segments.filterMap partOf?
  if p.isAbsolute then .root :: inner
  else if p.segments.head? = some "." then .here :: inner
  else inner

/-- The parts below the root, spelled with single separators. -/
def spell : List PathPart → String
  | .root :: rest => "/" ++ String.intercalate "/" (rest.map PathPart.spelling)
  | ps => String.intercalate "/" (ps.map PathPart.spelling)

/-- The path with the given parts. -/
def ofParts (ps : List PathPart) : Path := ⟨spell ps⟩

/-- The last name of a path, if a name stands last. -/
def fileName? (p : Path) : Option String :=
  match p.parts.getLast? with
  | some (.name text) => some text
  | _ => none

/-- What follows the last dot of the file name; a dot in front does not count. -/
def extension? (p : Path) : Option String :=
  p.fileName?.bind fun name => (afterLastDot name.toList).map String.ofList

/-- The path without its last part; the root and the empty path have none. -/
def parent? (p : Path) : Option Path :=
  match p.parts.getLast? with
  | none | some .root => none
  | some _ => some (ofParts p.parts.dropLast)

/-- The path `q` as seen from the directory `p`. -/
def join (p q : Path) : Path :=
  if q.isAbsolute then q
  else if p.text.isEmpty || p.endsWithSlash then ⟨p.text ++ q.text⟩
  else ⟨p.text ++ "/" ++ q.text⟩

instance : Div Path := ⟨join⟩

/-- One step of cleaning: the parts kept so far, last one first, meet the next part. -/
def cleanStep (kept : List PathPart) : PathPart → List PathPart
  | .here => kept
  | .parent =>
      match kept with
      | .root :: _ => kept
      | .name _ :: rest => rest
      | _ => .parent :: kept
  | part => part :: kept

/-- The path without dots, as far as its spelling tells. -/
def clean (p : Path) : Path :=
  match (p.parts.foldl cleanStep []).reverse with
  | [] => ⟨"."⟩
  | ps => ofParts ps

/-- The path as it is seen from the root, when relative paths start at `directory`.  Two
separators in front are kept, and so is one at the end. -/
def absoluteFrom (directory p : Path) : Path :=
  let inner := p.parts.filter (fun part => part != .root && part != .here)
  let doubled : Bool :=
    p.text.toList.take 2 == ['/', '/'] && p.text.toList.take 3 != ['/', '/', '/']
  let start :=
    if doubled then "//" else if p.isAbsolute then "/" else directory.text
  let whole := Path.join ⟨start⟩ (ofParts inner)
  if p.endsWithSlash && !whole.endsWithSlash then ⟨whole.text ++ "/"⟩ else whole

end Path

end Slidecast
