import Slidecast.Files.Path
import Slidecast.Files.Fault
import Slidecast.Files.Raster
import Slidecast.Files.Trie

/-!
# The disk

A disk is a tree of places.  A place is the list of names that lead to it from the root, which are
rows of bytes like paths; it holds a file, a device or a link to another place, or it is a
directory.  `Disk.lookup` is the view of a
disk: every operation is described by what it does to it (`lookup_put`, `lookup_erase`,
`lookup_eraseTree`).

A path is walked from the root or from the working directory.  Every step has to start in a
directory, so a double dot behind a name that does not exist leads nowhere.  Names and paths may
not be too long.  What a path is found to lead to is what its place holds (`lookup_of_find`).
-/

set_option autoImplicit false

namespace Slidecast.Files

/-- How a picture is stored. -/
inductive Encoding where
  | bmp
  | png
  | jpeg
  | gif
  | webp
  deriving DecidableEq

/-- What a file holds. -/
inductive Content where
  | text (text : String)
  | bytes (bytes : List UInt8)
  | picture (encoding : Encoding) (raster : Raster)
  /-- A program of the machine. -/
  | program (name : String)

/-- The text of a file, if it is one. -/
def Content.text? : Content → Option String
  | .text written => some written
  | .bytes octets => String.fromUTF8? (ByteArray.mk octets.toArray)
  | .picture _ _ | .program _ => none

/-- A file that is not kept on the disk. -/
inductive Device where
  /-- Reads as empty, and takes all that is written. -/
  | null
  /-- Reads without end, and takes all that is written. -/
  | endless
  /-- Reads without end, and takes nothing. -/
  | full
  /-- Cannot be opened. -/
  | missing
  deriving DecidableEq

/-- Whether a device can be opened. -/
def Device.opens : Device → Except Fault Unit
  | .missing => .error .noDevice
  | .null | .endless | .full => .ok ()

/-- What a device reads as. -/
def Device.content : Device → Except Fault Content
  | .null => .ok (.text "")
  | .endless | .full => .error .noMemory
  | .missing => .error .noDevice

/-- Whether a device takes what is written. -/
def Device.accepts : Device → Except Fault Unit
  | .null | .endless => .ok ()
  | .full => .error .noSpace
  | .missing => .error .noDevice

/-- The names that lead from the root to a file or a directory. -/
abbrev Place := List String

/-- What a place holds. -/
inductive Node where
  | file (content : Content)
  | device (device : Device)
  /-- A link, kept with the place that it leads to in the end; nothing has to be there. -/
  | link (target : Place)
  | directory

/-- A tree of places, and the directory in which relative paths start. -/
structure Disk where
  tree : Trie Node
  working : Place

namespace Disk

/-- The disk on which only the root and the directories that lead to `working` exist. -/
def empty (working : Place) : Disk where
  tree := (List.range working.length).foldl
    (fun tree n => tree.insert (working.take (n + 1)) .directory) Trie.empty
  working := working

/-- What a place holds, if anything. -/
def lookup (d : Disk) (place : Place) : Option Node :=
  if place = [] then some .directory else d.tree.find? place

/-- The disk with the given node at a place. -/
def put (d : Disk) (place : Place) (node : Node) : Disk :=
  { d with tree := d.tree.insert place node }

/-- The disk without the place. -/
def erase (d : Disk) (place : Place) : Disk := { d with tree := d.tree.erase place }

/-- The disk without the place and all that lies below it. -/
def eraseTree (d : Disk) (place : Place) : Disk := { d with tree := d.tree.prune place }

/-! ## Walking a path -/

/-- How many bytes a name may have. -/
def longestName : Nat := 255

/-- How many bytes a path may have. -/
def longestPath : Nat := 4095

/-- Whether a name has too many bytes. -/
def isTooLong (name : String) : Bool := longestName < name.length

/-- A place that has been reached: the names that lead to it, last one first, and the part of the
tree behind it. -/
structure Spot where
  trail : List String
  part : Trie Node

/-- The spot of a place. -/
def spot (d : Disk) (place : Place) : Spot := ⟨place.reverse, d.tree.part place⟩

/-- The place of a spot. -/
def Spot.place (s : Spot) : Place := s.trail.reverse

/-- What a spot holds, if anything. -/
def Spot.node? (s : Spot) : Option Node :=
  if s.trail = [] then some .directory else s.part.value

/-- The spot that is reached when a link is followed. -/
def follow (d : Disk) (s : Spot) : Spot :=
  match s.node? with
  | some (.link target) => d.spot target
  | _ => s

/-- Fails unless a spot is a directory. -/
def Spot.enter (s : Spot) : Except Fault Unit :=
  match s.node? with
  | some .directory => .ok ()
  | some _ => .error .notDirectory
  | none => .error .noEntry

/-- The spot that is reached from a spot by one step, which has to start in a directory. -/
def step (d : Disk) (s : Spot) (segment : String) : Except Fault Spot := do
  s.enter
  if segment = "." then .ok s
  else if segment = ".." then .ok (d.spot s.trail.tail.reverse)
  else if isTooLong segment then .error .nameTooLong
  else .ok (d.follow ⟨segment :: s.trail, s.part.branch segment⟩)

/-- The spot that is reached by a row of steps. -/
def walk (d : Disk) (segments : List String) (start : Spot) : Except Fault Spot :=
  segments.foldlM d.step start

/-- The spot where the walk of a path starts.  The empty path leads nowhere, no path holds a NUL,
and a path may not be too long. -/
def start (d : Disk) (p : Path) : Except Fault Spot :=
  if p.text.toList.contains '\x00' then .error .nulInPath
  else if p.text.isEmpty then .error .noEntry
  else if longestPath < p.text.length then .error .nameTooLong
  else .ok (d.spot (if p.isAbsolute then [] else d.working))

/-- The segments of a path; a separator at the end asks for a directory. -/
def steps (p : Path) : List String :=
  if p.endsWithSlash then p.segments ++ ["."] else p.segments

/-- The place of a path and what it holds. -/
def find (d : Disk) (p : Path) : Except Fault (Place × Node) := do
  let s ← d.walk (steps p) (← d.start p)
  match s.node? with
  | none => .error .noEntry
  | some node => .ok (s.place, node)

/-! ## Questions -/

/-- The path as it is seen from the root. -/
def absolute (d : Disk) (p : Path) : Path :=
  Path.absoluteFrom ⟨"/" ++ String.intercalate "/" d.working⟩ p

/-- Whether a path leads to something. -/
def hasPath (d : Disk) (p : Path) : Bool := (d.find p).toOption.isSome

/-- Whether a path leads to a file. -/
def hasFile (d : Disk) (p : Path) : Bool :=
  match d.find p with
  | .ok (_, .file _) => true
  | _ => false

/-- Whether a path leads to a directory. -/
def hasDirectory (d : Disk) (p : Path) : Bool :=
  match d.find p with
  | .ok (_, .directory) => true
  | _ => false

/-- What the file at a path holds. -/
def read (d : Disk) (p : Path) : Except Fault Content := do
  match ← d.find p with
  | (_, .file content) => .ok content
  | (_, .device device) => device.content
  | (_, .link _) => .error .noEntry
  | (_, .directory) => .error .isDirectory

/-- The text of the file at a path. -/
def readText (d : Disk) (p : Path) : Except Fault String := do
  match (← d.read p).text? with
  | some text => .ok text
  | none => .error .notText

/-! ## Changes -/

/-- The place of a name that is to be created: its directory exists, and it is not spelled with
a dot. -/
def newPlace (d : Disk) (p : Path) (onDots : Fault) : Except Fault Place := do
  let start ← d.start p
  match p.segments.getLast? with
  | none => .error onDots
  | some last =>
      let directory ← d.walk p.segments.dropLast start
      directory.enter
      if last = "." ∨ last = ".." then .error onDots
      else if isTooLong last then .error .nameTooLong
      else .ok (directory.place ++ [last])

/-- The place that a place stands for: where a link leads, and any other place itself. -/
def resolve (d : Disk) (place : Place) : Place :=
  match d.lookup place with
  | some (.link target) => target
  | _ => place

/-- Fails unless a place is a directory. -/
def enterPlace (d : Disk) (place : Place) : Except Fault Unit :=
  match d.lookup place with
  | some .directory => .ok ()
  | some _ => .error .notDirectory
  | none => .error .noEntry

/-- Writes a file, new or in place of an old one.  A link is followed: the file is written where it
leads, and made there if nothing is there yet. -/
def write (d : Disk) (p : Path) (content : Content) : Except Fault Disk := do
  let own ← d.newPlace p .isDirectory
  if p.endsWithSlash then .error .isDirectory
  else
    let place := d.resolve own
    match d.lookup place with
    | some .directory => .error .isDirectory
    | some (.link _) => .error .noEntry
    | some (.device device) => do
        device.accepts
        .ok d
    | some (.file _) => .ok (d.put place (.file content))
    | none => do
        d.enterPlace place.dropLast
        .ok (d.put place (.file content))

/-- Makes one directory. -/
def makeDirectory (d : Disk) (p : Path) : Except Fault Disk := do
  let place ← d.newPlace p .exists
  match d.lookup place with
  | some _ => .error .exists
  | none => .ok (d.put place .directory)

/-- What is refused when a directory cannot be made: nothing, if there is one already. -/
def unlessDirectory (d : Disk) (p : Path) (fault : Fault) : Except Fault Unit :=
  if d.hasDirectory p then .ok () else .error fault

/-- Makes a directory and, before it, the directories above it that are missing.  The number
bounds how far above.  What has been made stays when the rest is refused. -/
def makeDirectories (d : Disk) (p : Path) : Nat → Except Fault Unit × Disk
  | 0 => (.error .noWholeTree, d)
  | above + 1 =>
      if p.text.isEmpty then (.ok (), d)
      else
        match d.makeDirectory p with
        | .ok d' => (.ok (), d')
        | .error .noEntry =>
            match p.parent? with
            | none => (.error .noWholeTree, d)
            | some parent =>
                match d.makeDirectories parent above with
                | (.error fault, d') => (.error fault, d')
                | (.ok (), d') =>
                    match d'.makeDirectory p with
                    | .ok d'' => (.ok (), d'')
                    | .error fault => (d'.unlessDirectory p fault, d')
        | .error fault => (d.unlessDirectory p fault, d)

/-- Makes a directory with all that leads to it, as far as that is possible. -/
def provideDirectory (d : Disk) (p : Path) : Except Fault Unit × Disk :=
  d.makeDirectories p (p.parts.length + 2)

/-- The disk on which a directory exists with all that leads to it. -/
def ensureDirectory (d : Disk) (p : Path) : Except Fault Disk :=
  match d.provideDirectory p with
  | (.ok (), d') => .ok d'
  | (.error fault, _) => .error fault

/-- Removes a file. -/
def removeFile (d : Disk) (p : Path) : Except Fault Disk := do
  let place ← d.newPlace p .isDirectory
  match d.lookup place with
  | none => .error .noEntry
  | some .directory => .error .isDirectory
  | some _ => if p.endsWithSlash then .error .notDirectory else .ok (d.erase place)

/-- Removes a directory with all that it holds. -/
def removeTree (d : Disk) (p : Path) : Except Fault Disk := do
  match ← d.find p with
  | (place, .directory) => .ok (d.eraseTree place)
  | _ => .error .notDirectory

/-! ## Listings -/

/-- All that lies below the directory at a path, by relative names in order, as they are shown;
directories end with a separator. -/
def list (d : Disk) (p : Path) : List String :=
  match d.find p with
  | .ok (place, .directory) =>
      let names := (d.tree.part place).toList.filterMap fun (below, node) =>
        let name := String.intercalate "/" below
        match below, node with
        | [], _ => none
        | _, .directory => some (name ++ "/")
        | _, _ => some name
      (names.mergeSort (fun a b => decide (a ≤ b))).map Text.shown
  | _ => []

/-- The names of the files and directories that the directory at a path holds itself. -/
def entries (d : Disk) (p : Path) : List String :=
  match d.find p with
  | .ok (place, .directory) =>
      (d.tree.part place).branches.filterMap fun entry =>
        if entry.2.value.isSome then some entry.1 else none
  | _ => []

/-- How many files and directories the directory at a path holds itself. -/
def countEntries (d : Disk) (p : Path) : Nat := (d.entries p).length

/-! ## The view of each change -/

theorem lookup_put (d : Disk) {place : Place} (h : place ≠ []) (node : Node) (other : Place) :
    (d.put place node).lookup other = if other = place then some node else d.lookup other := by
  by_cases root : other = []
  · subst root
    have apart : ¬ [] = place := fun e => h e.symm
    rw [if_neg apart]
    rfl
  · simp [lookup, put, root, Trie.find?_insert]

theorem lookup_erase (d : Disk) (place other : Place) :
    (d.erase place).lookup other =
      if other = place ∧ place ≠ [] then none else d.lookup other := by
  by_cases root : other = []
  · subst root
    have apart : ¬ ([] = place ∧ place ≠ []) := fun ⟨e, ne⟩ => ne e.symm
    rw [if_neg apart]
    rfl
  · by_cases same : other = place
    · subst same
      simp [lookup, erase, root, Trie.find?_erase]
    · simp [lookup, erase, root, same, Trie.find?_erase]

theorem lookup_eraseTree (d : Disk) (place other : Place) :
    (d.eraseTree place).lookup other =
      if other ≠ [] ∧ place.isPrefixOf other = true then none else d.lookup other := by
  by_cases root : other = []
  · simp [lookup, root]
  · simp [lookup, eraseTree, root, Trie.find?_prune]

/-! ## What a path leads to -/

/-- A spot that shows what its disk holds there. -/
def Spot.IsOn (s : Spot) (d : Disk) : Prop := s.part = d.tree.part s.place

theorem isOn_spot (d : Disk) (place : Place) : (d.spot place).IsOn d := by
  simp [Spot.IsOn, spot, Spot.place]

theorem isOn_follow {d : Disk} {s : Spot} (h : s.IsOn d) : (d.follow s).IsOn d := by
  unfold follow
  split
  · exact isOn_spot d _
  · exact h

theorem isOn_step {d : Disk} {s s' : Spot} {segment : String} (h : s.IsOn d)
    (stepped : d.step s segment = .ok s') : s'.IsOn d := by
  unfold step at stepped
  cases entered : s.enter with
  | error fault => simp [entered, bind, Except.bind] at stepped
  | ok =>
      simp only [entered, bind, Except.bind] at stepped
      split at stepped
      · cases stepped
        exact h
      · split at stepped
        · cases stepped
          exact isOn_spot d _
        · split at stepped
          · cases stepped
          · cases stepped
            refine isOn_follow ?_
            simp only [Spot.IsOn, Spot.place, List.reverse_cons, Trie.part_append]
            rw [h]
            rfl

theorem isOn_walk {d : Disk} {segments : List String} {s s' : Spot} (h : s.IsOn d)
    (walked : d.walk segments s = .ok s') : s'.IsOn d := by
  induction segments generalizing s with
  | nil =>
      cases walked
      exact h
  | cons segment segments ih =>
      simp only [walk, List.foldlM_cons] at walked
      cases stepped : d.step s segment with
      | error fault => simp [stepped, bind, Except.bind] at walked
      | ok next =>
          rw [stepped] at walked
          exact ih (isOn_step h stepped) walked

theorem lookup_place {d : Disk} {s : Spot} (h : s.IsOn d) : d.lookup s.place = s.node? := by
  unfold lookup Spot.node?
  rw [Trie.find?, ← h]
  simp [Spot.place]

theorem isOn_start {d : Disk} {p : Path} {s : Spot} (started : d.start p = .ok s) : s.IsOn d := by
  unfold start at started
  split at started
  · cases started
  · split at started
    · cases started
    · split at started
      · cases started
      · cases started
        exact isOn_spot d _

/-- What a path is found to lead to is what its place holds. -/
theorem lookup_of_find {d : Disk} {p : Path} {place : Place} {node : Node}
    (found : d.find p = .ok (place, node)) : d.lookup place = some node := by
  unfold find at found
  cases started : d.start p with
  | error fault => simp [started, bind, Except.bind] at found
  | ok s =>
      cases walked : d.walk (steps p) s with
      | error fault => simp [started, walked, bind, Except.bind] at found
      | ok s' =>
          simp only [started, walked, bind, Except.bind] at found
          cases held : s'.node? with
          | none => simp [held] at found
          | some other =>
              simp only [held, Except.ok.injEq, Prod.mk.injEq] at found
              obtain ⟨rfl, rfl⟩ := found
              rw [lookup_place (isOn_walk (isOn_start started) walked), held]

end Disk

end Slidecast.Files
