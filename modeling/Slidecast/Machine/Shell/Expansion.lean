import Slidecast.Machine.Program
import Slidecast.Machine.Shell.Pattern
import Slidecast.Machine.Shell.Syntax

/-!
# Expansion

When a word is used, its parts are replaced by values, and the whole becomes a row of bits: the
bytes, each with its origin, and marks where a quoted text begins and where a field ends.  A row of
bits is then cut into fields at the separators that come from values (`fields`), and a field that
is a pattern is replaced by the paths that fit it (`pathsFitting`).
-/

set_option autoImplicit false

namespace Slidecast.Machine.Shell

open Files

/-- Where a byte of a word comes from. -/
inductive Origin where
  /-- From the script. -/
  | spelled
  /-- From a value. -/
  | value
  /-- From between quotation marks. -/
  | quoted
  deriving DecidableEq

/-- What words are made of when they are used. -/
inductive Bit where
  | char (c : Char) (origin : Origin)
  /-- A quoted text begins, which may be empty. -/
  | quote
  /-- A field ends. -/
  | cut
  deriving DecidableEq

/-- The bits of a row of bytes. -/
def bitsOf (origin : Origin) (bytes : Bytes) : List Bit := bytes.map fun c => .char c origin

/-- The bits of a word that is not cut into fields, as bytes of a pattern. -/
def markedBytes (bits : List Bit) : List Marked :=
  bits.filterMap fun
    | .char c origin => some (c, origin = .quoted)
    | _ => none

/-- The bytes of a word that is not cut into fields. -/
def plainBytes (bits : List Bit) : Bytes :=
  bits.filterMap fun
    | .char c _ => some c
    | _ => none

/-! ## Fields -/

/-- How far a word has been cut into fields. -/
structure Cutting where
  /-- The fields that are complete, last one first. -/
  fields : List (List Marked) := []
  /-- The bytes of the open field, last one first. -/
  current : Option (List Marked) := none
  /-- Whether the last field was ended by a blank. -/
  isBehindBlank : Bool := false

namespace Cutting

/-- Adds a byte to the open field. -/
def put (k : Cutting) (c : Char) (quoted : Bool) : Cutting :=
  { k with current := some ((c, quoted) :: k.current.getD []), isBehindBlank := false }

/-- Ends the open field, if there is one. -/
def close (k : Cutting) : Cutting :=
  match k.current with
  | some bytes => { k with fields := bytes.reverse :: k.fields, current := none }
  | none => k

/-- Meets a separator. -/
def separate (k : Cutting) (c : Char) : Cutting :=
  if c = ' ' ∨ c = '\t' ∨ c = '\n' then
    match k.current with
    | some _ => { k.close with isBehindBlank := true }
    | none => k
  else
    match k.current with
    | some _ => k.close
    | none =>
        if k.isBehindBlank then { k with isBehindBlank := false }
        else { k with fields := [] :: k.fields }

/-- Meets a bit. -/
def step (separators : Bytes) (k : Cutting) : Bit → Cutting
  | .char c .value => if separators.contains c then k.separate c else k.put c false
  | .char c origin => k.put c (origin = .quoted)
  | .quote => { k with current := some (k.current.getD []), isBehindBlank := false }
  | .cut => { k.close with isBehindBlank := false }

end Cutting

/-- The fields of a row of bits. -/
def fields (separators : Bytes) (bits : List Bit) : List (List Marked) :=
  (bits.foldl (Cutting.step separators) {}).close.fields.reverse

/-! ## Paths that fit a pattern -/

/-- Whether one row of bytes stands before another one in a sorted list. -/
def bytesAtMost : Bytes → Bytes → Bool
  | [], _ => true
  | _ :: _, [] => false
  | a :: as, b :: bs => a < b || (a = b && bytesAtMost as bs)

/-- The pieces of a pattern between separators of paths. -/
def patternSegments (pattern : List Marked) : List (List Marked) :=
  let (rows, open_) := pattern.foldl
    (fun (rows, open_) m =>
      if m.1 = '/' then (open_.reverse :: rows, []) else (rows, m :: open_))
    (([], []) : List (List Marked) × List Marked)
  (open_.reverse :: rows).reverse

/-- The names in a directory that fit a pattern; a dot in front of a name has to be spelled. -/
def namesFitting (disk : Disk) (directory : Bytes) (pattern : List Marked) : List Bytes :=
  let path := if directory.isEmpty then ['.'] else directory
  let names := ".".toList :: "..".toList :: (disk.entries (pathOf path)).map String.toList
  let fitting := names.filter fun name =>
    fitsPattern pattern name &&
      (name.head? ≠ some '.' || pattern.head?.map Prod.fst = some '.')
  fitting.mergeSort bytesAtMost

/-- The paths that fit the segments of a pattern, behind the given beginnings of paths. -/
def pathsFrom (disk : Disk) : List (List Marked) → List Bytes → List Bytes
  | [], paths => paths
  | segment :: segments, paths =>
      let slash : Bytes := if segments.isEmpty then [] else ['/']
      let next :=
        if isPattern segment then
          paths.flatMap fun path =>
            (namesFitting disk path segment).filterMap fun name =>
              let found := path ++ name
              if segments.isEmpty || disk.hasDirectory (pathOf found) then some (found ++ slash)
              else none
        else
          let spelled := segment.map Prod.fst
          paths.map fun path => path ++ spelled ++ slash
      pathsFrom disk segments next

/-- The paths that fit a pattern. -/
def pathsFitting (disk : Disk) (pattern : List Marked) : List Bytes :=
  ((pathsFrom disk (patternSegments pattern) [[]]).filter fun path =>
    disk.hasPath (pathOf path)).mergeSort bytesAtMost

/-- What a field stands for: the paths that fit it if it is a pattern and there are any, and its
own bytes otherwise. -/
def fieldValues (disk : Disk) (withPaths : Bool) (field : List Marked) : List Bytes :=
  let own := field.map Prod.fst
  if withPaths && isPattern field then
    match pathsFitting disk field with
    | [] => [own]
    | paths => paths
  else [own]

/-! ## Home directories -/

/-- Where a home directory may be named: behind what stands in front of a word, or behind a colon
as well. -/
inductive HomePlace where
  | front
  | everywhere
  deriving DecidableEq

/-- The name of a user behind a tilde in front of a word, and what follows it. -/
def homeInFront? (place : HomePlace) (w : Word) : Option (Bytes × Word) :=
  match w with
  | .char '~' false :: rest =>
      let front := rest.takeWhile fun part =>
        match part.plain? with
        | some c => c ≠ '/' && (place = .front || c ≠ ':')
        | none => false
      let behind := rest.drop front.length
      match behind with
      | [] => some (spelledWord front, behind)
      | .char c false :: _ =>
          if c = '/' ∨ c = ':' then some (spelledWord front, behind) else none
      | _ => none
  | _ => none

end Slidecast.Machine.Shell
