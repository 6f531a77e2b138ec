import Slidecast.Machine.Condition
import Slidecast.Machine.Shell.Expansion
import Slidecast.Machine.Shell.Lookup

/-!
# Commands of the shell itself

A command of the shell takes a session with arguments to another session, or it is refused with a
message.  A shell does not survive the refusal of one of its special commands.
-/

set_option autoImplicit false

namespace Slidecast.Machine.Shell

open Files

/-- What a command of the shell does with its arguments. -/
abbrev Builtin : Type := Session → List Bytes → Except Bytes Session

/-- Refuses with a text and an argument. -/
def refuse {α : Type} (words : String) (argument : Bytes) : Except Bytes α :=
  .error (words.toList ++ argument)

/-- The natural number that an argument spells. -/
def argumentNumber (argument : Bytes) : Except Bytes Nat :=
  match Bytes.nat? argument with
  | some n => if n < 2147483648 then .ok n else refuse "Illegal number: " argument
  | none => refuse "Illegal number: " argument

/-- The options in front of arguments, each as a letter, and the other arguments. -/
def optionsInFront (known : String) : List Bytes → Except Bytes (List Char × List Bytes)
  | [] => .ok ([], [])
  | a :: rest =>
      match a with
      | ['-', '-'] => .ok ([], rest)
      | '-' :: c :: cs => do
          match (c :: cs).find? fun letter => !known.toList.contains letter with
          | some letter => refuse "Illegal option -" [letter]
          | none => do
              let (letters, others) ← optionsInFront known rest
              .ok (c :: cs ++ letters, others)
      | _ => .ok ([], a :: rest)

/-- A text between quotation marks, so that it can be read again: what is no mark stands between
single ones, and these stand between double ones.  A number bounds how many rows there are. -/
def quotedRows : Nat → Bytes → Bytes
  | 0, _ => []
  | more + 1, text =>
      let plain := text.takeWhile (· ≠ '\'')
      let rest := text.drop plain.length
      let marks := rest.takeWhile (· = '\'')
      let behind := rest.drop marks.length
      let front := '\'' :: plain ++ ['\'']
      if marks.isEmpty then front
      else
        let front := front ++ '"' :: marks ++ ['"']
        if behind.isEmpty then front else front ++ quotedRows more behind

/-- A text between quotation marks. -/
def quotedText (text : Bytes) : Bytes := quotedRows (text.length + 1) text

/-! ## Writing and asking -/

/-- Writes to the output, or says that this is not possible. -/
def Session.utter (s : Session) (bytes : Bytes) : Session :=
  let (s, written) := s.write 1 bytes
  if written then s else s.report (s.within ++ ": I/O error".toList) 1

/-- Writes its arguments. -/
def echo : Builtin := fun s arguments =>
  let (newline, arguments) : Bytes × List Bytes :=
    match arguments with
    | ['-', 'n'] :: rest => ([], rest)
    | other => (['\n'], other)
  let (written, isCut) := unescape (Bytes.joined [' '] arguments)
  .ok ((s.withStatus 0).utter (if isCut then written else written ++ newline))

/-- Writes its arguments as a template asks. -/
def printf : Builtin := fun s arguments => do
  let (_, arguments) ← optionsInFront "" arguments
  match arguments with
  | [] => .error "usage: printf format [arg ...]".toList
  | template :: arguments =>
      let p := printed template arguments
      let s := p.warnings.reverse.foldl
        (fun s words => s.complain words) s
      let status := if p.fault.isSome then 2 else if p.warnings.isEmpty then 0 else 1
      let s := match p.fault with
        | some words => s.complain words
        | none => s
      .ok ((s.withStatus status).utter p.out.reverse.flatten)

/-- Asks whether a condition holds. -/
def testCondition : Builtin := fun s arguments => do
  let held ← condition s.disk arguments
  .ok (s.withStatus (if held then 0 else 1))

/-- Asks whether the condition in front of a bracket holds. -/
def bracket : Builtin := fun s arguments =>
  if arguments.getLast? = some [']'] then testCondition s arguments.dropLast
  else .error "missing ]".toList

/-- Does nothing well. -/
def succeed : Builtin := fun s _ => .ok (s.withStatus 0)

/-- Does nothing badly. -/
def failQuietly : Builtin := fun s _ => .ok (s.withStatus 1)

/-! ## Directories -/

/-- The working directory as a shell calls it. -/
def Session.workingPath (s : Session) : Path :=
  match s.value? "PWD".toList with
  | some path => pathOf path
  | none => ⟨"/" ++ String.intercalate "/" s.disk.working⟩

/-- Goes to another directory. -/
def changeDirectory : Builtin := fun s arguments => do
  let (letters, arguments) ← optionsInFront "LP" arguments
  let home := (s.value? "HOME".toList).getD []
  let old := s.workingPath
  let (target, isTold) : Bytes × Bool :=
    match arguments with
    | [] => (home, false)
    | ['-'] :: _ => ((s.value? "OLDPWD".toList).getD [], true)
    | a :: _ => (a, false)
  if target.isEmpty then .ok (s.withStatus 0)
  else
    let joined := Path.join old (pathOf target)
    let wanted := if letters.getLast? = some 'P' then joined else joined.clean
    match s.disk.find wanted with
    | .ok (place, .directory) =>
        let doubled := target.take 2 = ['/', '/'] && target.take 3 ≠ ['/', '/', '/']
        let path : Path :=
          if letters.getLast? = some 'P' then ⟨"/" ++ String.intercalate "/" place⟩
          else if doubled then ⟨"/" ++ wanted.text⟩
          else wanted
        let s := { s with disk := { s.disk with working := place } }
        let s := s.bind "OLDPWD".toList (old.text.toList)
        let s := s.bind "PWD".toList (path.text.toList)
        .ok ((if isTold then s.print (path.text.toList ++ ['\n']) else s).withStatus 0)
    | _ => refuse "can't cd to " target

/-- Writes the working directory. -/
def printDirectory : Builtin := fun s arguments => do
  let (letters, _) ← optionsInFront "LP" arguments
  let path : Path :=
    if letters.getLast? = some 'P' then ⟨"/" ++ String.intercalate "/" s.disk.working⟩
    else s.workingPath
  .ok ((s.withStatus 0).utter (path.text.toList ++ ['\n']))

/-! ## Variables -/

/-- Which mark a command gives to variables. -/
inductive Marking where
  | exported
  | readOnly
  deriving DecidableEq

/-- Whether a variable has a mark. -/
def Marking.isOn (marking : Marking) (v : Variable) : Bool :=
  match marking with
  | .exported => v.isExported
  | .readOnly => v.isReadOnly

/-- The variable with a mark. -/
def Marking.put (marking : Marking) (v : Variable) : Variable :=
  match marking with
  | .exported => { v with isExported := true }
  | .readOnly => { v with isReadOnly := true }

/-- The name and the value in an argument. -/
def nameAndValue (argument : Bytes) : Bytes × Option Bytes :=
  let name := argument.takeWhile (· ≠ '=')
  (name, if name.length < argument.length then some (argument.drop (name.length + 1)) else none)

/-- Gives a value to a variable, or refuses. -/
def Session.give (s : Session) (name value : Bytes) : Except Bytes Session :=
  if (s.variableNamed? name).any Variable.isReadOnly then
    .error (name ++ ": is read only".toList)
  else .ok (s.bind name value)

/-- Refuses what is no name of a variable. -/
def checkName (name : Bytes) : Except Bytes Unit :=
  if isName name then .ok () else .error (name ++ ": bad variable name".toList)

/-- Marks variables and may give values to them. -/
def mark (marking : Marking) (s : Session) : List Bytes → Except Bytes Session
  | [] => .ok (s.withStatus 0)
  | a :: rest => do
      let (name, value) := nameAndValue a
      checkName name
      let s ←
        match value with
        | some value => s.give name value
        | none => .ok s
      let v := (s.variableNamed? name).getD { name, value := none }
      mark marking (s.putVariable (marking.put v)) rest

/-- Marks variables, or lists those that are marked. -/
def markOrList (command : String) (marking : Marking) : Builtin := fun s arguments => do
  let (letters, names) ← optionsInFront "p" arguments
  if letters.isEmpty && !names.isEmpty then mark marking s names
  else
    let marked := (s.memory.filter marking.isOn).mergeSort
      fun v w => bytesAtMost v.name w.name
    let lines := marked.map fun v =>
      (command ++ " ").toList ++ v.name ++
        (match v.value with
          | some value => '=' :: quotedText value
          | none => []) ++ ['\n']
    .ok ((s.withStatus 0).utter lines.flatten)

/-- Forgets variables. -/
def forgetVariables (s : Session) : List Bytes → Except Bytes Session
  | [] => .ok (s.withStatus 0)
  | name :: rest => do
      checkName name
      if (s.variableNamed? name).any Variable.isReadOnly then
        .error (name ++ ": is read only".toList)
      else forgetVariables (s.dropVariable name) rest

/-- Forgets variables or functions. -/
def forgetNames : Builtin := fun s arguments => do
  let (letters, names) ← optionsInFront "vf" arguments
  if letters.getLast? = some 'f' then
    let functions := s.functions.filter fun entry => !names.contains entry.1
    .ok ({ s with functions }.withStatus 0)
  else forgetVariables s names

/-- Keeps variables to be put back behind the function. -/
def makeLocal (s : Session) : List Bytes → Except Bytes Session
  | [] => .ok (s.withStatus 0)
  | a :: rest =>
      match s.saved with
      | [] => .error "not in a function".toList
      | kept :: outer => do
          let (name, value) := nameAndValue a
          if name = ['-'] then makeLocal s rest
          else
            checkName name
            let old := (s.variableNamed? name).getD { name, value := none }
            let kept := if kept.any fun v => v.name = name then kept else old :: kept
            let s := { s with saved := kept :: outer }
            let s ←
              match value with
              | some value => s.give name value
              | none => .ok s
            makeLocal s rest

/-! ## Arguments and options -/

/-- The options with the letters for them, in the order in which they are listed. -/
def optionLetters : List (Char × String) :=
  [ ('u', "nounset"), ('b', "notify"), ('a', "allexport"), ('C', "noclobber"), ('E', "emacs"),
    ('V', "vi"), ('v', "verbose"), ('x', "xtrace"), ('s', "stdin"), ('n', "noexec"),
    ('m', "monitor"), ('i', "interactive"), ('I', "ignoreeof"), ('f', "noglob"),
    ('e', "errexit") ]

/-- The lines that list all options. -/
def optionLines (s : Session) (asCommands : Bool) : Bytes :=
  let known := (optionLetters.reverse.map fun (letter, name) => (some letter, name)) ++
    [(none, "privileged"), (none, "nolog"), (none, "debug")]
  let lines := known.map fun (letter, name) =>
    let isOn := letter.any s.hasOption
    if asCommands then "set " ++ (if isOn then "-o " else "+o ") ++ name ++ "\n"
    else
      name ++ String.ofList (List.replicate (16 - name.length) ' ') ++
        (if isOn then "on\n" else "off\n")
  ((if asCommands then "" else "Current option settings\n") ++ String.join lines).toList

/-- Sets options, or takes them back. -/
def Session.setOptions (s : Session) (on : Bool) (letters : List Char) : Session :=
  let isSet (letter : Char) : Bool :=
    if letters.contains letter then on else s.options.contains letter
  { s with options := (optionLetters.map Prod.fst).filter isSet }

/-- Takes options from the front of arguments.  Gives the session, whether the arguments were
ended by a sign, and the other arguments. -/
def takeOptions (s : Session) : List Bytes → Except Bytes (Session × Bool × List Bytes)
  | [] => .ok (s, false, [])
  | [sign, 'o'] :: name :: rest =>
      if sign = '-' ∨ sign = '+' then
        match optionLetters.find? fun entry => entry.2 = name.name with
        | some entry => takeOptions (s.setOptions (sign = '-') [entry.1]) rest
        | none => refuse ("Illegal option " ++ String.singleton sign ++ "o ") name
      else .ok (s, false, [sign, 'o'] :: name :: rest)
  | a :: rest =>
      match a with
      | ['-', '-'] => .ok (s, true, rest)
      | ['-'] => .ok ((s.setOptions false ['x', 'v']), true, rest)
      | sign :: c :: cs =>
          if sign = '-' ∨ sign = '+' then
            let letters := (c :: cs).filter (· ≠ 'o')
            match letters.find? fun letter => (optionLetters.lookup letter).isNone with
            | some letter => refuse ("Illegal option " ++ String.singleton sign) [letter]
            | none => takeOptions (s.setOptions (sign = '-') letters) rest
          else .ok (s, false, a :: rest)
      | _ => .ok (s, false, a :: rest)

/-- Sets options and arguments, or lists the variables. -/
def setArguments : Builtin := fun s arguments => do
  if arguments = [['-', 'o']] || arguments = [['+', 'o']] then
    .ok ((s.withStatus 0).utter (optionLines s (arguments = [['+', 'o']])))
  else if arguments.isEmpty then
    let known := s.memory.filter fun v => v.value.isSome
    let sorted := known.mergeSort fun v w => bytesAtMost v.name w.name
    let lines := sorted.map fun v => v.name ++ '=' :: quotedText (v.value.getD []) ++ ['\n']
    .ok ((s.withStatus 0).utter lines.flatten)
  else
    let (s, ended, rest) ← takeOptions s arguments
    let s := if ended || !rest.isEmpty then { s with arguments := rest, optionLetter := 0 } else s
    .ok (s.withStatus 0)

/-- Drops arguments from the front. -/
def dropArguments : Builtin := fun s arguments => do
  let n ←
    match arguments with
    | [] => .ok 1
    | a :: _ => argumentNumber a
  if s.arguments.length < n then .error "can't shift that many".toList
  else .ok ({ s with arguments := s.arguments.drop n, optionLetter := 0 }.withStatus 0)

/-- Takes the next option from arguments, as an option with a text of known letters asks. -/
def takeOption : Builtin := fun s arguments => do
  match arguments with
  | known :: name :: others =>
      let given := if others.isEmpty then s.arguments else others
      let quiet := known.head? = some ':'
      let index := ((s.value? "OPTIND".toList).bind Bytes.nat?).getD 1
      let finish (s : Session) (index letter : Nat) (value : Bytes) (argument : Option Bytes)
          (status : Nat) : Except Bytes Session := do
        let s := s.bind "OPTIND".toList (.ofNat index)
        let s := { s with optionLetter := letter }
        let s := match argument with
          | some text => s.bind "OPTARG".toList text
          | none => s.dropVariable "OPTARG".toList
        .ok ((← s.give name value).withStatus status)
      let isInside := s.optionLetter ≠ 0
      let index := if isInside then index - 1 else index
      let current := (given[index - 1]?).getD []
      let letter := if isInside then s.optionLetter else 1
      if ¬ isInside ∧ current = ['-', '-'] then finish s (index + 1) 0 ['?'] none 1
      else if ¬ isInside ∧ (current.head? ≠ some '-' ∨ current.length < 2) then
        finish s index 0 ['?'] none 1
      else
        let c := (current[letter]?).getD '?'
        let (index', letter') : Nat × Nat :=
          (index + 1, if letter + 1 < current.length then letter + 1 else 0)
        let behind := (known.dropWhile fun k => k ≠ c || k = ':').tail
        if c = ':' ∨ !known.contains c then
          if quiet then finish s index' letter' ['?'] (some [c]) 0
          else
            let s := (s.write 2 ("Illegal option -".toList ++ [c, '\n'])).1
            finish s index' letter' ['?'] none 0
        else if behind.head? = some ':' then
          if letter + 1 < current.length then
            finish s (index + 1) 0 [c] (some (current.drop (letter + 1))) 0
          else
            match given[index]? with
            | some argument => finish s (index + 2) 0 [c] (some argument) 0
            | none =>
                if quiet then finish s (index + 1) 0 [':'] (some [c]) 0
                else
                  let words := "No arg for -".toList ++ c :: " option\n".toList
                  finish (s.write 2 words).1 (index + 1) 0 ['?'] none 0
        else finish s index' letter' [c] none 0
  | _ => .error "Usage: getopts optstring var [arg...]".toList

/-! ## Reading -/

/-- A line in front of a row of bytes: its bytes, each with whether it is quoted, whether the line
has an end, and what follows it. -/
def lineInFront (raw : Bool) (line : List (Char × Bool)) :
    Bytes → List (Char × Bool) × Bool × Bytes
  | [] => (line.reverse, false, [])
  | '\n' :: rest => (line.reverse, true, rest)
  | '\\' :: c :: rest =>
      if raw then lineInFront raw (('\\', false) :: line) (c :: rest)
      else if c = '\n' then lineInFront raw line rest
      else lineInFront raw ((c, true) :: line) rest
  | c :: rest =>
      if c = Char.ofNat 0 then lineInFront raw line rest
      else if c = '\\' ∧ ¬ raw then lineInFront raw line rest
      else lineInFront raw ((c, false) :: line) rest

/-- The parts of a line for a number of variables; the last one takes what is left. -/
def lineParts (separators : Bytes) : Nat → List (Char × Bool) → List Bytes
  | 0, _ => []
  | more + 1, line =>
      let isBlank (m : Char × Bool) : Bool :=
        !m.2 && separators.contains m.1 && (m.1 = ' ' || m.1 = '\t' || m.1 = '\n')
      let isSeparator (m : Char × Bool) : Bool := !m.2 && separators.contains m.1
      let line := line.dropWhile isBlank
      if more = 0 then
        let kept := (line.reverse.dropWhile isBlank).reverse
        let trimmed : List (Char × Bool) :=
          match kept.reverse with
          | m :: front =>
              if isSeparator m && !front.any isSeparator then
                (front.dropWhile isBlank).reverse
              else kept
          | [] => kept
        [trimmed.map Prod.fst]
      else
        let part := line.takeWhile fun m => !isSeparator m
        let rest := (line.drop part.length).dropWhile isBlank
        let rest := match rest with
          | m :: behind => if isSeparator m then behind else m :: behind
          | [] => []
        part.map Prod.fst :: lineParts separators more rest

/-- Gives the parts of a line to variables. -/
def giveAll (s : Session) : List Bytes → List Bytes → Except Bytes Session
  | [], _ => .ok s
  | name :: names, parts => do
      checkName name
      giveAll (← s.give name (parts.headD [])) names parts.tail

/-- Reads a line and gives its parts to variables. -/
def readLineInto : Builtin := fun s arguments => do
  let (raw, names) ← readOptions false arguments
  if names.isEmpty then .error "arg count".toList
  else
    let supply := s.supply 0
    let supply :=
      if supply.cycle.contains '\n' then supply.extended supply.cycle.length else supply
    if supply.isEndless && !supply.bytes.contains '\n' then .ok { s with flow := .endless }
    else
      let (line, ended, rest) := lineInFront raw [] supply.bytes
      let s := s.leave 0 { supply with bytes := rest }
      let s ← giveAll s names (lineParts s.separators names.length line)
      .ok (s.withStatus (if ended then 0 else 1))
where
  readOptions (raw : Bool) : List Bytes → Except Bytes (Bool × List Bytes)
    | [] => .ok (raw, [])
    | ['-', '-'] :: rest => .ok (raw, rest)
    | ['-', 'r'] :: rest => readOptions true rest
    | ['-', 'p'] :: _ :: rest => readOptions raw rest
    | ['-', 'r', 'p'] :: _ :: rest => readOptions true rest
    | ('-' :: c :: _) :: rest =>
        if c = 'p' then readOptions raw rest else refuse "Illegal option -" [c]
    | names => .ok (raw, names)

/-! ## Going on -/

/-- The status that a command ends with. -/
def wantedStatus (s : Session) (arguments : List Bytes) : Except Bytes Nat :=
  match arguments with
  | [] => .ok s.status
  | a :: _ => argumentNumber a

/-- Ends the script. -/
def endScript : Builtin := fun s arguments => do
  .ok { s with status := ← wantedStatus s arguments, flow := .exit }

/-- Ends a function or a script in a file. -/
def leaveFunction : Builtin := fun s arguments => do
  .ok { s with status := ← wantedStatus s arguments, flow := .return }

/-- Leaves loops or goes on with their next round. -/
def leaveLoops (goesOn : Bool) : Builtin := fun s arguments => do
  let n ←
    match arguments with
    | [] => .ok 1
    | a :: _ => do
        let n ← argumentNumber a
        if n = 0 then refuse "Illegal number: " a else .ok n
  let levels := min n s.loops
  let s := s.withStatus 0
  if levels = 0 then .ok s
  else .ok { s with flow := if goesOn then .continue levels else .break levels }

/-! ## Signals and jobs -/

/-- The session after the shell has been sent a signal. -/
def Session.receive (s : Session) (signal : Nat) : Session :=
  if forcedSignals.contains signal then
    { s with flow := if signal = 19 then .endless else .killed signal }
  else
    match s.traps.lookup signal with
    | some action => if action.isEmpty then s else { s with pending := s.pending ++ [signal] }
    | none =>
        if s.caught.contains signal then { s with pending := s.pending ++ [signal] }
        else if harmlessSignals.contains signal then s
        else if stoppingSignals.contains signal then { s with flow := .endless }
        else { s with flow := .killed signal }

/-- Sets what is done on signals. -/
def setTraps (s : Session) (action : Option Bytes) : List Bytes → Session
  | [] => s.withStatus 0
  | a :: rest =>
      match signal? a.name with
      | none => (s.write 2 ("trap: ".toList ++ a ++ ": bad trap\n".toList)).1.withStatus 1
      | some signal =>
          let others := s.traps.filter fun entry => entry.1 ≠ signal
          let own := action.toList.map fun action => (signal, action)
          setTraps { s with traps := own ++ others } action rest

/-- Sets what is done on signals, or lists it. -/
def trapSignals : Builtin := fun s arguments => do
  let (_, arguments) ← optionsInFront "" arguments
  match arguments with
  | [] =>
      let sorted := s.traps.mergeSort fun a b => a.1 ≤ b.1
      let lines := sorted.map fun (signal, action) =>
        "trap -- ".toList ++ quotedText action ++ ' ' :: (shellSignalName signal).toList ++ ['\n']
      .ok ((s.withStatus 0).utter lines.flatten)
  | [a] => .ok (setTraps s none [a])
  | action :: signals =>
      if action = ['-'] then .ok (setTraps s none signals)
      else if (Bytes.nat? action).isSome then .ok (setTraps s none (action :: signals))
      else .ok (setTraps s (some action) signals)

/-- The job that a number of a process or of a job stands for. -/
def Session.job? (s : Session) (process : Nat) : Option BackgroundJob :=
  s.jobs.find? fun job => ownNumber + job.number = process && !job.isGone

/-- Sends a signal to a job in the background: it ends now, and writes no more. -/
def Session.endJob (s : Session) (job : BackgroundJob) (signal : Nat) : Session :=
  let isOver := match job.endTime with
    | some time => time ≤ s.clock
    | none => false
  if isOver || harmlessSignals.contains signal then s
  else
    let ended : BackgroundJob :=
      { job with endTime := some s.clock, ending := .killed signal }
    let cut (stream : Stream) : Stream :=
      match stream with
      | .sink pieces cycle =>
          .sink (pieces.filter fun piece => piece.2.1 ≠ job.number || piece.1 ≤ s.clock) cycle
      | other => other
    { s with
      streams := s.streams.map cut
      jobs := s.jobs.map fun other => if other.number = job.number then ended else other }

/-- Sends a signal to processes. -/
def sendAll (s : Session) (signal : Nat) : List Bytes → Except Bytes Session
  | [] => .ok s
  | a :: rest => do
      let digits := if a.head? = some '-' then a.tail else a
      match a, Bytes.nat? digits with
      | '%' :: number, _ => do
          let known := s.jobs.any fun job => !job.isGone && Bytes.nat? number = some job.number
          if known then
            let s ← sendAll s signal rest
            .ok (s.report "No such process\n".toList 1)
          else refuse "No such job: " a
      | _, none => refuse "Illegal number: " a
      | _, some process =>
          if process = ownNumber then
            sendAll (s.receive signal) signal rest
          else
            match s.job? process with
            | some job => sendAll (s.endJob job signal) signal rest
            | none => do
                let s ← sendAll s signal rest
                .ok (s.report "No such process\n".toList 1)

/-- How to use the command that sends signals. -/
def killUsage : Bytes :=
  ("Usage: kill [-s sigspec | -signum | -sigspec] [pid | job]... or\n" ++
    "kill -l [exitstatus]").toList

/-- Names a signal, or lists the names of all. -/
def listSignals (s : Session) (arguments : List Bytes) : Except Bytes Session :=
  match arguments with
  | [] =>
      let names := (List.range (lastSignal + 1)).map fun n =>
        if n = 0 then "0" else shellSignalName n
      .ok ((s.withStatus 0).print (names.map fun name => name.toList ++ ['\n']).flatten)
  | a :: _ => do
      let n ← argumentNumber a
      let n := if 128 < n then n - 128 else n
      if n = 0 ∨ lastSignal < n then refuse "invalid signal number or exit status: " a
      else .ok ((s.withStatus 0).print ((shellSignalName n).toList ++ ['\n']))

/-- Sends signals. -/
def sendSignals : Builtin := fun s arguments =>
  let send (signal : Nat) (targets : List Bytes) : Except Bytes Session :=
    if targets.isEmpty then .error killUsage else sendAll (s.withStatus 0) signal targets
  let named (name : Bytes) (targets : List Bytes) : Except Bytes Session :=
    match signal? name.name with
    | some signal => send signal targets
    | none => refuse "invalid signal number or name: " name
  match arguments with
  | [] => .error killUsage
  | ['-', '-'] :: targets => send 15 targets
  | ('-' :: c :: cs) :: targets =>
      match signal? (String.ofList (c :: cs)) with
      | some signal => send signal targets
      | none =>
          if c = 'l' then listSignals s targets
          else if c = 's' then
            match cs, targets with
            | [], [] => .error "No arg for -s option".toList
            | [], name :: targets => named name targets
            | name, targets => named name targets
          else refuse "Illegal option -" [c]
  | targets => send 15 targets

/-- Waits for a job in the background. -/
def Session.waitFor (s : Session) (job : BackgroundJob) (isNamed : Bool) : Session :=
  match job.endTime with
  | none => { s with flow := .endless }
  | some time =>
      let s := { s with clock := max s.clock time }
      if isNamed then (s.reportEnding job.ending).withStatus job.ending.status
      else s.withStatus 0

/-- Waits for jobs in the background. -/
def waitForJobs : Builtin := fun s arguments =>
  match arguments with
  | [] =>
      let own := s.jobs.filter fun job => !job.isGone
      .ok (own.foldl (fun s job => s.waitFor job false) (s.withStatus 0))
  | targets => targets.foldlM
      (fun s a =>
        match a, Bytes.nat? a with
        | '%' :: _, _ => refuse "No such job: " a
        | _, none => refuse "Illegal number: " a
        | _, some process =>
            match s.job? process with
            | some job => .ok (s.waitFor job true)
            | none => .ok (s.withStatus 127))
      s

/-- How far a job has come. -/
def Session.jobState (s : Session) (job : BackgroundJob) : String :=
  if !(job.endTime.any fun time => time ≤ s.clock) then "Running"
  else
    match job.ending with
    | .exited 0 => "Done"
    | .exited status => "Done(" ++ toString status ++ ")"
    | .killed signal => (Ending.obituary? signal).getD "Terminated"

/-- Lists the jobs in the background, and forgets those that have ended. -/
def listJobs : Builtin := fun s _ =>
  let own := (s.jobs.filter fun job => !job.isGone).reverse
  let lines := own.zipIdx.map fun (job, n) =>
    let mark := if n = 0 then "+" else if n = 1 then "-" else " "
    let words := "[" ++ toString job.number ++ "] " ++ mark ++ " " ++ s.jobState job
    words.toList ++ List.replicate (33 - words.length) ' ' ++ ['\n']
  let known := s.jobs.map fun job =>
    if job.endTime.any fun time => time ≤ s.clock then { job with isGone := true } else job
  .ok (({ s with jobs := known }.withStatus 0).utter lines.flatten)

/-! ## Other commands -/

/-- The letters of the rights that a digit of a mask leaves. -/
def rightsLeft (digit : Nat) : String :=
  (if digit / 4 % 2 = 0 then "r" else "") ++ (if digit / 2 % 2 = 0 then "w" else "") ++
    (if digit % 2 = 0 then "x" else "")

/-- Shows or sets which rights new files do not have. -/
def maskRights : Builtin := fun s arguments => do
  let (letters, arguments) ← optionsInFront "S" arguments
  match arguments with
  | [] =>
      let words :=
        if letters.isEmpty then
          let digits := Nat.toDigits 8 s.mask
          String.ofList (List.replicate (4 - digits.length) '0' ++ digits)
        else
          "u=" ++ rightsLeft (s.mask / 64) ++ ",g=" ++ rightsLeft (s.mask / 8 % 8) ++ ",o=" ++
            rightsLeft (s.mask % 8)
      .ok ((s.withStatus 0).utter (words ++ "\n").toList)
  | a :: _ =>
      if a.all isOctal then
        .ok { s.withStatus 0 with mask := a.foldl (fun n c => 8 * n + (c.toNat - 48)) 0 % 512 }
      else refuse "Illegal mode: " a

/-- Remembers where programs are. -/
def rememberPrograms : Builtin := fun s names => do
  let (_, names) ← optionsInFront "r" names
  .ok (names.foldl
    (fun s name =>
      if (pathOfProgram? s name).isSome then s else s.report (name ++ ": not found".toList) 1)
    (s.withStatus 0))

/-- Shows limits; they cannot be changed. -/
def showLimits : Builtin := fun s arguments => do
  let (_, arguments) ← optionsInFront "HSatfdsmcnpvlwr" arguments
  .ok (if arguments.isEmpty then (s.withStatus 0).utter "unlimited\n".toList else s.withStatus 0)

/-- Other names for the beginnings of commands. -/
def nickname : Builtin := fun s arguments =>
  let line (entry : Bytes × Bytes) : Bytes :=
    entry.1 ++ '=' :: quotedText entry.2 ++ ['\n']
  let s := s.withStatus 0
  match arguments with
  | [] => .ok (s.print (s.aliases.map line).flatten)
  | arguments => .ok (arguments.foldl
      (fun s a =>
        match nameAndValue a with
        | (name, some value) =>
            let others := s.aliases.filter fun entry => entry.1 ≠ name
            { s with aliases := (name, value) :: others }
        | (name, none) =>
            match s.aliases.lookup name with
            | some value => s.print (line (name, value))
            | none => (s.write 2 ("alias: ".toList ++ name ++ " not found\n".toList)).1.withStatus 1)
      s)

/-- Forgets other names. -/
def forgetNickname : Builtin := fun s arguments =>
  let s := s.withStatus 0
  if arguments = ["-a".toList] then .ok { s with aliases := [] }
  else .ok (arguments.foldl
      (fun s name =>
        if (s.aliases.lookup name).isSome then
          { s with aliases := s.aliases.filter fun entry => entry.1 ≠ name }
        else (s.write 2 ("unalias: ".toList ++ name ++ " not found\n".toList)).1.withStatus 1)
      s)

/-- Writes how long the shell has been at work. -/
def showTimes : Builtin := fun s _ =>
  .ok ((s.withStatus 0).utter
    "0m0.000000s 0m0.000000s\n0m0.000000s 0m0.000000s\n".toList)

/-- The commands of the shell that can be refused without its end. -/
def plainBuiltins : List (String × Builtin) :=
  [ ("[", bracket), ("alias", nickname), ("bg", succeed), ("cd", changeDirectory),
    ("chdir", changeDirectory), ("echo", echo), ("false", failQuietly), ("fg", succeed),
    ("getopts", takeOption), ("hash", rememberPrograms), ("jobs", listJobs), ("kill", sendSignals),
    ("printf", printf), ("pwd", printDirectory), ("read", readLineInto), ("test", testCondition),
    ("true", succeed), ("ulimit", showLimits), ("umask", maskRights), ("unalias", forgetNickname),
    ("wait", waitForJobs) ]

/-- The commands of the shell whose refusal ends it. -/
def specialBuiltins : List (String × Builtin) :=
  [ (":", succeed), ("break", leaveLoops false), ("continue", leaveLoops true), ("exit", endScript),
    ("export", markOrList "export" .exported), ("local", makeLocal),
    ("readonly", markOrList "readonly" .readOnly), ("return", leaveFunction), ("set", setArguments),
    ("shift", dropArguments), ("times", showTimes), ("trap", trapSignals), ("unset", forgetNames) ]

/-- Commands of the shell that carry out other commands, each with whether it is special. -/
def carriers : List (String × Bool) :=
  [ (".", true), ("eval", true), ("exec", true), ("command", false), ("type", false) ]

/-- Whether a name is that of a command of the shell, and of a special one. -/
def builtinKind? (name : Bytes) : Option Bool :=
  let name := name.name
  if (specialBuiltins.lookup name).isSome then some true
  else if (plainBuiltins.lookup name).isSome then some false
  else carriers.lookup name

end Slidecast.Machine.Shell
