import Slidecast.Machine.Utility.Work

/-!
# Utilities for files

These utilities list, make, copy, move and remove files and directories.
-/

set_option autoImplicit false

namespace Slidecast.Machine

open Files

/-- The words for a fault, as bytes. -/
def faultBytes (fault : Fault) : Bytes := (faultWords fault).toList

/-- Complains that something could not be done to a file. -/
def cannot (verb : String) (file : Bytes) (fault : Fault) : Bytes :=
  ("cannot " ++ verb ++ " ").toList ++ inMarks file ++ ": ".toList ++ faultBytes fault

/-- Does something to each argument; without arguments the call is a mistake. -/
def toEach (g : Given) (w : Work) (missing : String) (step : Work → Bytes → Work) : Work :=
  if g.others.isEmpty then w.misuse missing.toList 1 else g.others.foldl step w

/-! ## Names -/

/-- A name without separators at its end. -/
def withoutSlashes (name : Bytes) : Bytes := (name.reverse.dropWhile (· = '/')).reverse

/-- The last name of a path. -/
def baseName (path : Bytes) : Bytes :=
  let trimmed := withoutSlashes path
  if trimmed.isEmpty then (if path.isEmpty then [] else ['/'])
  else (trimmed.reverse.takeWhile (· ≠ '/')).reverse

/-- A path without its last name. -/
def directoryName (path : Bytes) : Bytes :=
  let trimmed := withoutSlashes path
  if trimmed.isEmpty then (if path.isEmpty then ['.'] else ['/'])
  else
    let front := (trimmed.reverse.dropWhile (· ≠ '/')).reverse
    if front.isEmpty then ['.']
    else
      let directory := withoutSlashes front
      if directory.isEmpty then ['/'] else directory

/-- A name without an ending, unless the ending is all of it. -/
def withoutEnding (ending name : Bytes) : Bytes :=
  if ending.isSuffixOf name && ending ≠ name then name.take (name.length - ending.length)
  else name

/-- Writes the last names of paths. -/
def basename : Program := utility "as:z" 1 true fun g w =>
  let line (ending path : Bytes) : Bytes := withoutEnding ending (baseName path) ++ ['\n']
  if g.has 'a' || g.has 's' then
    toEach g w "missing operand" fun w path => w.out (line ((g.value? 's').getD []) path)
  else
    match g.others with
    | [] => w.misuse "missing operand".toList 1
    | [path] => w.out (line [] path)
    | [path, ending] => w.out (line ending path)
    | _ :: _ :: extra :: _ => w.misuse ("extra operand ".toList ++ inMarks extra) 1

/-- Writes paths without their last names. -/
def dirname : Program := utility "z" 1 true fun g w =>
  toEach g w "missing operand" fun w path => w.out (directoryName path ++ ['\n'])

/-- The path of a place. -/
def placePath (place : Place) : Bytes := ("/" ++ String.intercalate "/" place).toList

/-- Writes the working directory. -/
def pwdProgram : Program := fun start disk =>
  let named := (start.environment.lookup "PWD".toList).filter fun path =>
    match disk.find (pathOf path) with
    | .ok (place, _) => place = disk.working
    | .error _ => false
  (say (named.getD (placePath disk.working) ++ ['\n']), disk)

/-- Writes paths as they are seen from the root. -/
def realpath : Program := utility "emsq" 1 false fun g w =>
  toEach g w "missing operand" fun w path =>
    match w.disk.find (pathOf path), w.disk.newPlace (pathOf path) .isDirectory with
    | .ok (place, _), _ => w.out (placePath place ++ ['\n'])
    | .error _, .ok place => w.out (placePath place ++ ['\n'])
    | .error fault, .error _ => w.fail (aboutFile path fault) 1

/-! ## Making and removing -/

/-- Makes directories. -/
def mkdir : Program := utility "pvm:" 1 false fun g w =>
  toEach g w "missing operand" fun w path =>
    let refused (w : Work) (fault : Fault) : Work :=
      w.fail (cannot "create directory" path fault) 1
    if g.has 'p' then
      match w.disk.provideDirectory (pathOf path) with
      | (.ok (), disk) => { w with disk }
      | (.error fault, disk) => refused { w with disk } fault
    else
      match w.disk.makeDirectory (pathOf path) with
      | .ok disk =>
          let w := { w with disk }
          if g.has 'v' then
            w.out (w.name ++ ": created directory ".toList ++ inMarks path ++ ['\n'])
          else w
      | .error fault => refused w fault

/-- Removes empty directories. -/
def rmdir : Program := utility "pv" 1 false fun g w =>
  let failed (w : Work) (path : Bytes) (words : String) : Work :=
    w.fail ("failed to remove ".toList ++ inMarks path ++ (": " ++ words).toList) 1
  let remove (w : Work) (path : Bytes) : Work :=
    match w.disk.find (pathOf path) with
    | .ok (place, .directory) =>
        if (w.disk.entries (pathOf path)).isEmpty then { w with disk := w.disk.eraseTree place }
        else failed w path "Directory not empty"
    | .ok _ => failed w path "Not a directory"
    | .error fault => failed w path (faultWords fault)
  let rec upward (w : Work) (path : Bytes) : Nat → Work
    | 0 => w
    | more + 1 =>
        let w' := remove w path
        let above := directoryName path
        if w'.status ≠ w.status || above = ['.'] || above = ['/'] then w'
        else upward w' above more
  toEach g w "missing operand" fun w path =>
    if g.has 'p' then upward w path (path.length + 1) else remove w path

/-- Removes files, and directories with all that they hold. -/
def rm : Program := utility "rRfvdiI" 1 false fun g w =>
  let recursive := g.has 'r' || g.has 'R'
  let removed (w : Work) (path : Bytes) (disk : Disk) : Work :=
    let w := { w with disk }
    if g.has 'v' then w.out ("removed ".toList ++ inMarks path ++ ['\n']) else w
  let remove (w : Work) (path : Bytes) : Work :=
    match w.disk.find (pathOf path) with
    | .error fault =>
        if g.has 'f' && (fault = .noEntry || fault = .notDirectory) then w
        else w.fail (cannot "remove" path fault) 1
    | .ok (place, .directory) =>
        if !recursive then w.fail (cannot "remove" path .isDirectory) 1
        else if place.isEmpty then
          let w := w.fail ("it is dangerous to operate recursively on ".toList ++ inMarks path) 1
          w.note "use --no-preserve-root to override this failsafe".toList
        else if baseName path = ['.'] || baseName path = ['.', '.'] then
          w.fail ("refusing to remove '.' or '..' directory: skipping ".toList ++ inMarks path) 1
        else removed w path (w.disk.eraseTree place)
    | .ok (place, _) => removed w path (w.disk.erase place)
  if g.others.isEmpty then (if g.has 'f' then w else w.misuse "missing operand".toList 1)
  else g.others.foldl remove w

/-- Makes files that are missing. -/
def touch : Program := utility "cmad:t:r:" 1 false fun g w =>
  toEach g w "missing file operand" fun w path =>
    if w.disk.hasPath (pathOf path) || g.has 'c' then w
    else
      match w.disk.write (pathOf path) (.bytes []) with
      | .ok disk => { w with disk }
      | .error fault =>
          let fault := if path.isEmpty then Fault.noEntry else fault
          w.fail (cannot "touch" path fault) 1

/-- Checks that files are there, whose rights it would change. -/
def chmod : Program := utility "Rvf" 1 true fun g w =>
  match g.others with
  | [] => w.misuse "missing operand".toList 1
  | [mode] => w.misuse ("missing operand after ".toList ++ inMarks mode) 1
  | _ :: files => files.foldl
      (fun w file =>
        match w.disk.find (pathOf file) with
        | .ok _ => w
        | .error fault => w.fail (cannot "access" file fault) 1)
      w

/-! ## Copying and moving -/

/-- The disk with all that lies at and below one place put under another one. -/
def copiedTree (disk : Disk) (source target : Place) : Disk :=
  (disk.tree.part source).toList.foldl
    (fun disk (below, node) => disk.put (target ++ below) node) disk

/-- Where the last of several arguments wants files to go. -/
structure Goal where
  sources : List Bytes
  target : Bytes
  isDirectory : Bool

/-- The goal that arguments name, or the work after a complaint. -/
def goalOf (g : Given) (w : Work) : Except Work Goal :=
  match g.others.reverse with
  | [] => .error (w.misuse "missing file operand".toList 1)
  | [file] => .error (w.misuse ("missing destination file operand after ".toList ++ inMarks file) 1)
  | target :: sources =>
      let isDirectory := w.disk.hasDirectory (pathOf target)
      if 1 < sources.length ∧ ¬ isDirectory then
        let fault := match w.disk.find (pathOf target) with
          | .ok _ => Fault.notDirectory
          | .error fault => fault
        .error (w.fail ("target ".toList ++ inMarks target ++ ": ".toList ++ faultBytes fault) 1)
      else .ok ⟨sources.reverse, target, isDirectory⟩

/-- The path that a source gets under a goal. -/
def Goal.pathFor (goal : Goal) (source : Bytes) : Bytes :=
  if goal.isDirectory then
    (if goal.target.getLast? = some '/' then goal.target else goal.target ++ ['/']) ++
      baseName source
  else goal.target

/-- Copies files, and directories with all that they hold. -/
def cp : Program := utility "rRapfvd" 1 false fun g w =>
  match goalOf g w with
  | .error w => w
  | .ok goal => goal.sources.foldl
      (fun w source =>
        let path := goal.pathFor source
        match w.disk.find (pathOf source) with
        | .error fault => w.fail (cannot "stat" source fault) 1
        | .ok (place, .directory) =>
            if !(g.has 'r' || g.has 'R' || g.has 'a') then
              w.fail ("-r not specified; omitting directory ".toList ++ inMarks source) 1
            else
              match w.disk.newPlace (pathOf path) .exists with
              | .error fault => w.fail (cannot "create directory" path fault) 1
              | .ok target =>
                  if place.isPrefixOf target then
                    w.fail ("cannot copy a directory, ".toList ++ inMarks source ++
                      ", into itself, ".toList ++ inMarks path) 1
                  else { w with disk := copiedTree w.disk place target }
        | .ok (place, node) =>
            let same : Bool := match w.disk.find (pathOf path) with
              | .ok (other, _) => other = place
              | .error _ => false
            let content : Content :=
              match node with
              | .file content => content
              | _ => .bytes []
            if same then
              w.fail (inMarks source ++ " and ".toList ++ inMarks path ++
                " are the same file".toList) 1
            else
              match w.disk.write (pathOf path) content with
              | .ok disk => { w with disk }
              | .error fault =>
                  let w' := w.fail (cannot "create regular file" path fault) 1
                  if fault = .notDirectory then
                    w.fail ("failed to access ".toList ++ inMarks path ++ ": ".toList ++
                      faultBytes fault) 1
                  else w')
      w

/-- Gives other names to files and directories. -/
def mv : Program := utility "fvniT" 1 false fun g w =>
  match goalOf g w with
  | .error w => w
  | .ok goal => goal.sources.foldl
      (fun w source =>
        let path := goal.pathFor source
        match w.disk.find (pathOf source), w.disk.newPlace (pathOf path) .exists with
        | .error fault, _ => w.fail (cannot "stat" source fault) 1
        | .ok _, .error fault =>
            w.fail ("cannot move ".toList ++ inMarks source ++ " to ".toList ++ inMarks path ++
              ": ".toList ++ faultBytes fault) 1
        | .ok (place, _), .ok target =>
            if place = target then
              w.fail (inMarks source ++ " and ".toList ++ inMarks path ++
                " are the same file".toList) 1
            else if place.isPrefixOf target then
              w.fail ("cannot move ".toList ++ inMarks source ++ " to a subdirectory of itself, ".toList ++
                inMarks path) 1
            else
              let disk := (copiedTree (w.disk.eraseTree target) place target).eraseTree place
              { w with disk })
      w

/-! ## Listing -/

/-- Writes the names in directories. -/
def ls : Program := utility "aA1drRFpltSihsnCx" 2 false fun g w =>
  let arguments := if g.others.isEmpty then [['.']] else g.others
  let mark (path name : Bytes) : Bytes :=
    if (g.has 'F' || g.has 'p') && w.disk.hasDirectory (pathOf path) then name ++ ['/'] else name
  let sorted (names : List Bytes) : List Bytes :=
    let names := names.mergeSort fun a b => before a b
    if g.has 'r' then names.reverse else names
  let w := arguments.foldl
    (fun w a =>
      match w.disk.find (pathOf a) with
      | .ok _ => w
      | .error fault => w.fail (cannot "access" a fault) 2)
    w
  let isDirectory (a : Bytes) : Bool := w.disk.hasDirectory (pathOf a) && !g.has 'd'
  let files := sorted (arguments.filter fun a => w.disk.hasPath (pathOf a) && !isDirectory a)
  let directories := sorted (arguments.filter isDirectory)
  let namesIn (a : Bytes) : List Bytes :=
    let names := (w.disk.entries (pathOf a)).map String.toList
    let names := if g.has 'a' then ['.'] :: ['.', '.'] :: names else names
    let shown := names.filter fun name =>
      g.has 'a' || g.has 'A' || name.head? ≠ some '.'
    sorted shown
  let below (a name : Bytes) : Bytes := (withoutSlashes a) ++ '/' :: name
  let rec spread (more : Nat) (found : List Bytes) : List Bytes :=
    match more with
    | 0 => found
    | more + 1 =>
        found.flatMap fun a =>
          let inner := (namesIn a).filter fun name =>
            name ≠ ['.'] && name ≠ ['.', '.'] && w.disk.hasDirectory (pathOf (below a name))
          a :: spread more (inner.map (below a))
  let shownDirectories := if g.has 'R' then spread 40 directories else directories
  let titled := 1 < arguments.length || g.has 'R'
  let w := files.foldl (fun w file => w.out (mark file file ++ ['\n'])) w
  (shownDirectories.foldl
    (fun (state : Bool × Work) a =>
      let (isFirst, w) := state
      let title := if titled then a ++ ":\n".toList else []
      let gap : Bytes := if isFirst then [] else ['\n']
      let lines := (namesIn a).map fun name => mark (below a name) name ++ ['\n']
      (false, w.out (gap ++ title ++ lines.flatten)))
    (files.isEmpty, w)).2
where
  before : Bytes → Bytes → Bool
    | [], _ => true
    | _ :: _, [] => false
    | a :: as, b :: bs => a < b || (a = b && before as bs)

/-- The utilities for files. -/
def fileUtilities : Shelf :=
  [ ("basename", basename), ("dirname", dirname), ("pwd", pwdProgram), ("realpath", realpath),
    ("mkdir", mkdir), ("rmdir", rmdir), ("rm", rm), ("touch", touch), ("chmod", chmod),
    ("cp", cp), ("mv", mv), ("ls", ls) ]

end Slidecast.Machine
