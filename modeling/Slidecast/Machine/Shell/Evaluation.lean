import Slidecast.Machine.Shell.Arithmetic
import Slidecast.Machine.Shell.Builtins
import Slidecast.Machine.Shell.Redirection
import Slidecast.Machine.Utility.Files
import Slidecast.Machine.Utility.Others
import Slidecast.Machine.Utility.Texts

/-!
# Carrying out scripts

A command takes a session to another one.  Words are expanded when they are used, and a word may
hold a script, so expansion and evaluation call one another.  A number bounds how many steps are
taken; a script for which it does not suffice is taken to have no end.

Shells that work side by side are carried out one after the other.  Each of them starts at the time
at which it was started, so what they write can be put into the order of time afterwards, and the
time that passes is that of the slowest.  A shell without an end is stopped when the one that reads
from it has ended, if it still has something to write.
-/

set_option autoImplicit false

namespace Slidecast.Machine.Shell

open Files

/-- The utilities of the machine. -/
def utilities : Shelf := textUtilities ++ fileUtilities ++ otherUtilities

/-- How deep functions may call one another. -/
def deepestCall : Nat := 1000

/-- How many steps are taken before a script is taken to have no end. -/
def longestRun : Nat := 150000

/-! ## Values in words -/

/-- What stands between the arguments when they are one text. -/
def argumentSeparator (s : Session) : Bytes :=
  match s.value? "IFS".toList with
  | none => [' ']
  | some separators => separators.take 1

/-- The bits for the values of a parameter. -/
def valueBits (s : Session) (splits quoted : Bool) (name : Bytes) (values : List Bytes) :
    List Bit :=
  let origin : Origin := if quoted then .quoted else .value
  let row (value : Bytes) : List Bit :=
    (if quoted then [.quote] else []) ++ bitsOf origin value
  let isAll := name = ['@'] || name = ['*']
  if !isAll then row (values.headD [])
  else if splits && (!quoted || name = ['@']) then
    ((values.map row).intersperse [.cut]).flatten
  else row (Bytes.joined (argumentSeparator s) values)

/-- Whether a part is quoted. -/
def Part.isQuoted : Part → Bool
  | .char _ quoted | .parameter _ _ quoted | .output _ quoted | .arithmetic _ quoted => quoted
  | .quote => false

/-- Whether the quoted text that begins here stands for all arguments, of which there are none. -/
def isVoid (s : Session) (behind : Word) : Bool :=
  match behind with
  | .parameter ['@'] .value true :: rest =>
      s.arguments.isEmpty && !(rest.head?.any Part.isQuoted)
  | _ => false

/-- The home directory of a user. -/
def homeOf? (s : Session) (user : Bytes) : Option Bytes :=
  if user.isEmpty then s.value? "HOME".toList
  else if user.name = "root" then some "/root".toList
  else none

/-- A word with home directories in the places of the tildes that stand for them; a number bounds
how many parts are looked at. -/
def withHomes (s : Session) (place : HomePlace) : Nat → Word → Word
  | 0, w => w
  | more + 1, w =>
      let found : Option (Word × Word) :=
        (homeInFront? place w).bind fun (user, behind) =>
          (homeOf? s user).map fun home => (home.map fun c => .char c true, behind)
      let (front, behind) := found.getD ([], w)
      match place with
      | .front => front ++ behind
      | .everywhere =>
          let isColon (part : Part) : Bool := part.plain? = some ':'
          let before := behind.takeWhile fun part => !isColon part
          match behind.drop before.length with
          | [] => front ++ before
          | colon :: rest => front ++ before ++ colon :: withHomes s place more rest

/-- The words for an expression without a value. -/
def expressionWords (text : Bytes) : ExpressionFault → Bytes
  | .expecting what =>
      ("arithmetic expression: expecting " ++ what ++ ": \"").toList ++ text ++ ['"']
  | .divisionByZero => "arithmetic expression: division by zero: \"".toList ++ text ++ ['"']
  | .illegalNumber value => "Illegal number: ".toList ++ value

/-- The session after an expression, and the digits of its value. -/
def computed (s : Session) (text : Bytes) : Session × Bytes :=
  let bindings : Bindings := s.memory.filterMap fun v => v.value.map fun value => (v.name, value)
  match expression text with
  | .error fault => (s.fail (expressionWords text fault) 2, [])
  | .ok e =>
      match e.evaluate bindings with
      | .error fault => (s.fail (expressionWords text fault) 2, [])
      | .ok (n, after) =>
          let new := (after.take (after.length - bindings.length)).reverse
          (new.foldl (fun s entry => s.assign entry.1 entry.2) s, .ofInt n.toInt)

/-- Bytes without the ends of lines at their end and without NUL. -/
def outputText (bytes : Bytes) : Bytes :=
  let kept := bytes.filter (· ≠ Char.ofNat 0)
  (kept.reverse.dropWhile (· = '\n')).reverse

/-- The values of a parameter with a part taken away at one end. -/
def trimmedValues (pattern : List Marked) (atEnd longest : Bool) (values : List Bytes) :
    List Bytes :=
  if atEnd then
    match values.reverse with
    | [] => []
    | last :: front => (trimPattern pattern true longest last :: front).reverse
  else
    match values with
    | [] => []
    | first :: rest => trimPattern pattern false longest first :: rest

/-! ## Answers about commands -/

/-- What a command is, as `type` says it; the status is that of success if it is anything. -/
def describedCommand (s : Session) (name : Bytes) : Bytes × Bool :=
  let is (words : String) : Bytes × Bool := (name ++ (" is " ++ words).toList, true)
  if keywords.contains name.name then is "a shell keyword"
  else
    match s.aliases.lookup name with
    | some value => (name ++ " is an alias for ".toList ++ value, true)
    | none =>
        if builtinKind? name = some true then is "a special shell builtin"
        else if (s.functions.lookup name).isSome then is "a shell function"
        else if (builtinKind? name).isSome then is "a shell builtin"
        else
          match pathOfProgram? s name with
          | some path => (name ++ " is ".toList ++ path, true)
          | none => (name ++ ": not found".toList, false)

/-- How a command can be called, if it can. -/
def spelledCommand? (s : Session) (name : Bytes) : Option Bytes :=
  match s.aliases.lookup name with
  | some value => some ("alias ".toList ++ name ++ '=' :: quotedText value)
  | none =>
      if keywords.contains name.name || (builtinKind? name).isSome ||
          (s.functions.lookup name).isSome then some name
      else pathOfProgram? s name

/-- Says what commands are. -/
def typeOf : Builtin := fun s names =>
  .ok (names.foldl
    (fun s name =>
      let (words, found) := describedCommand s name
      let s := s.print (words ++ ['\n'])
      if found then s else s.withStatus 127)
    (s.withStatus 0))

/-! ## How a shell is called -/

/-- What a shell is called to carry out. -/
inductive ShellTask where
  | text (script : Bytes)
  | file (path : Bytes)
  | input

/-- A call of a shell. -/
structure ShellCall where
  task : ShellTask
  name : Bytes
  arguments : List Bytes
  options : List Char

/-- The call of a shell that its arguments spell, or what is wrong with them. -/
def shellCall (s : Session) (name : Bytes) (arguments : List Bytes) : Except Bytes ShellCall := do
  let (letters, flags, rest) ← front [] arguments
  let (s, _, rest) ←
    match takeOptions { s with options := [] } (flags ++ "--".toList :: rest) with
    | .ok found => .ok found
    | .error words => .error words
  let build (task : ShellTask) (name : Bytes) (arguments : List Bytes) : ShellCall :=
    { task, name, arguments, options := s.options }
  if letters.contains 'c' then
    match rest with
    | [] => .error "-c requires an argument".toList
    | [script] => .ok (build (.text script) name [])
    | script :: name :: arguments => .ok (build (.text script) name arguments)
  else
    match rest with
    | [] => .ok (build .input name [])
    | file :: arguments =>
        if s.hasOption 's' then .ok (build .input name (file :: arguments))
        else .ok (build (.file file) file arguments)
where
  front (flags : List Bytes) : List Bytes → Except Bytes (List Char × List Bytes × List Bytes)
    | [] => .ok ([], flags.reverse, [])
    | ['-', '-'] :: rest => .ok ([], flags.reverse, rest)
    | ['-'] :: rest => .ok ([], flags.reverse, rest)
    | [sign, 'o'] :: value :: rest =>
        if sign = '-' ∨ sign = '+' then front (value :: [sign, 'o'] :: flags) rest
        else .ok ([], flags.reverse, [sign, 'o'] :: value :: rest)
    | a :: rest =>
        match a with
        | sign :: c :: cs =>
            if sign = '-' ∨ sign = '+' then do
              let letters := (c :: cs).filter fun letter => letter = 'c' || letter = 'l'
              let others := (c :: cs).filter fun letter => letter ≠ 'c' && letter ≠ 'l'
              let flags := if others.isEmpty then flags else (sign :: others) :: flags
              let (found, flags, rest) ← front flags rest
              .ok (letters ++ found, flags, rest)
            else .ok ([], flags.reverse, a :: rest)
        | _ => .ok ([], flags.reverse, a :: rest)

/-- The variables of a shell that is given an environment. -/
def variablesFrom (environment : List (Bytes × Bytes)) (working : Place) : List Variable :=
  let given : List Variable := environment.map fun (name, value) =>
    { name, value := some value, isExported := true }
  let own : List (String × String) :=
    [ ("IFS", " \t\n"), ("OPTIND", "1"), ("PATH", ""), ("PPID", "1"), ("PS1", "# "),
      ("PS2", "> "), ("PS4", "+ "), ("PWD", "/" ++ String.intercalate "/" working) ]
  let missing := own.filter fun entry =>
    entry.1 ≠ "PATH" && (entry.1 = "IFS" || !given.any fun v => v.name = entry.1.toList)
  let ours : List Variable := missing.map fun (name, value) =>
    { name := name.toList, value := some (.ofText value) }
  (given.filter fun v => v.name ≠ "IFS".toList).reverse ++ ours

/-- The session of a shell that is started from another one. -/
def startedFrom (s : Session) (call : ShellCall) : Session :=
  { name := call.name, arguments := call.arguments, options := call.options
    memory := variablesFrom s.environment s.disk.working
    descriptors := s.descriptors
    traps := s.traps.filter fun trap => trap.2.isEmpty
    mask := s.mask, streams := s.streams, disk := s.disk, clock := s.clock
    deadline := s.deadline, nextJob := s.nextJob, job := s.job }

/-- The session after a program has done its work in another one. -/
def afterProgram (s inside : Session) : Session :=
  let jobs := inside.jobs.map fun job => { job with isGone := true }
  { s with
    streams := inside.streams
    disk := { inside.disk with working := s.disk.working }
    clock := inside.clock
    jobs := s.jobs ++ jobs
    nextJob := inside.nextJob
    status := inside.status % 256
    flow :=
      match inside.flow with
      | .endless => .endless
      | .killed signal => .killed signal
      | _ => s.flow }

/-- What a program that was called and has ended leaves to the shell: a signal that ended it is
reported and is told by the status. -/
def settled (s : Session) : Session :=
  match s.flow with
  | .killed signal =>
      let s := if s.givesWay then s else s.reportEnding (.killed signal)
      { s.withStatus (128 + signal) with flow := .on, death := some signal }
  | _ => { s with death := none }

/-- The session after what was written behind a time has been taken away. -/
def stoppedAt (s : Session) (time : Nat) : Session :=
  let cut (stream : Stream) : Stream :=
    match stream with
    | .sink pieces _ => .sink (pieces.filter fun piece => piece.1 ≤ time) []
    | other => other
  { s with streams := s.streams.map cut, clock := time }

/-- Variables put back to what they were before. -/
def putBackVariables (before s : Session) (names : List Bytes) : Session :=
  names.foldl
    (fun s name =>
      match before.variableNamed? name with
      | some v => s.putVariable v
      | none => s.dropVariable name)
    s

/-- Variables put back behind a function. -/
def restored (s : Session) (saved : List Variable) : Session :=
  saved.foldl
    (fun s v =>
      if v.value.isNone && !v.isExported && !v.isReadOnly then s.dropVariable v.name
      else s.putVariable v)
    s

/-- The flow behind a round of a loop, and whether the loop goes on. -/
def roundEnd (s : Session) : Session × Bool :=
  match s.flow with
  | .on => (s, true)
  | .break levels => ({ s with flow := if levels ≤ 1 then .on else .break (levels - 1) }, false)
  | .continue levels =>
      if levels ≤ 1 then ({ s with flow := .on }, true)
      else ({ s with flow := .continue (levels - 1) }, false)
  | _ => (s, false)

/-- The words of an assignment in front of a command, and the other words. -/
def splitAssignments (words : List Word) : List (Bytes × Word) × List Word :=
  let front := words.takeWhile fun w => (assignment? w).isSome
  (front.filterMap assignment?, words.drop front.length)

/-- The commands whose arguments may be assignments. -/
def declarers : List String := ["export", "readonly", "local", "alias"]

/-- The arguments that `xargs` makes of a text. -/
def itemsOf : Bytes → List Bytes :=
  let rec go (cs : Bytes) (mark : Option Char) (open_ : Option Bytes) : List Bytes :=
    match cs, mark with
    | [], _ => open_.toList.map List.reverse
    | c :: cs, some m =>
        if c = m then go cs none open_ else go cs mark (some (c :: open_.getD []))
    | '\\' :: c :: cs, none => go cs none (some (c :: open_.getD []))
    | c :: cs, none =>
        if c = ' ' ∨ c = '\t' ∨ c = '\n' then open_.toList.map List.reverse ++ go cs none none
        else if c = '\'' ∨ c = '"' then go cs (some c) (some (open_.getD []))
        else go cs none (some (c :: open_.getD []))
  fun cs => go cs none none

/-- A text with every occurrence of another one replaced. -/
def replacedAll (old new text : Bytes) : Bytes :=
  let rec go (more : Nat) (cs : Bytes) : Bytes :=
    match more, cs with
    | 0, cs => cs
    | _, [] => []
    | more + 1, c :: rest =>
        if old.isPrefixOf (c :: rest) then new ++ go more ((c :: rest).drop old.length)
        else c :: go more rest
  if old.isEmpty then text else go text.length text

/-- Rows of at most the given length. -/
def rowsOf (n : Nat) (items : List Bytes) : List (List Bytes) :=
  let rec go (more : Nat) (items : List Bytes) : List (List Bytes) :=
    match more, items with
    | 0, _ | _, [] => []
    | more + 1, items => items.take n :: go more (items.drop n)
  if n = 0 then [items] else go items.length items

/-- Complains about how a program was called. -/
def misused (s : Session) (name words : Bytes) : Session :=
  let hint := "Try '".toList ++ name ++ " --help' for more information.\n".toList
  (s.write 2 (name ++ ": ".toList ++ words ++ '\n' :: hint)).1

mutual
/-- The bits of a word, with those of the parts before it, last ones first. -/
def expandParts (fuel : Nat) (splits : Bool) (w : Word) (before : List (List Bit)) (s : Session) :
    Session × List Bit :=
  match fuel with
  | 0 => ({ s with flow := .endless }, [])
  | fuel + 1 =>
      match w with
      | [] => (s, before.reverse.flatten)
      | .char c quoted :: rest =>
          let origin : Origin := if quoted then .quoted else .spelled
          expandParts fuel splits rest ([.char c origin] :: before) s
      | .quote :: rest =>
          expandParts fuel splits rest (if isVoid s rest then before else [.quote] :: before) s
      | .parameter name usage quoted :: rest =>
          let (s, bits) := expandParameter fuel splits name usage quoted s
          if s.isOn then expandParts fuel splits rest (bits :: before) s else (s, [])
      | .output script quoted :: rest =>
          let (s, bytes) := capture fuel script s
          let origin : Origin := if quoted then .quoted else .value
          if s.isOn then expandParts fuel splits rest (bitsOf origin bytes :: before) s
          else (s, [])
      | .arithmetic parts quoted :: rest =>
          let (s, bits) := expandParts fuel false parts [] s
          if !s.isOn then (s, [])
          else
            let (s, digits) := computed s (plainBytes bits)
            let origin : Origin := if quoted then .quoted else .value
            if s.isOn then expandParts fuel splits rest (bitsOf origin digits :: before) s
            else (s, [])

/-- The bits for a parameter. -/
def expandParameter (fuel : Nat) (splits : Bool) (name : Bytes) (usage : Usage) (quoted : Bool)
    (s : Session) : Session × List Bit :=
  match fuel with
  | 0 => ({ s with flow := .endless }, [])
  | fuel + 1 =>
      let values? := s.values? name
      let values := values?.getD []
      let isMissing := values?.isNone && s.hasOption 'u' && name ≠ ['!']
      let missing : Session × List Bit := (s.fail (name ++ ": parameter not set".toList) 2, [])
      match usage with
      | .bad => (s.fail "Bad substitution".toList 2, [])
      | .value => if isMissing then missing else (s, valueBits s splits quoted name values)
      | .length =>
          if isMissing then missing
          else
            let whole := Bytes.joined (argumentSeparator s) values
            let characters := whole.filter fun c => c.toNat < 128 || 192 ≤ c.toNat
            (s, valueBits s splits quoted [] [.ofNat characters.length])
      | .trim atEnd longest pattern =>
          if isMissing then missing
          else
            let (s, bits) := expandParts fuel false pattern [] s
            let left := trimmedValues (markedBytes bits) atEnd longest values
            (s, valueBits s splits quoted name left)
      | .resort resort evenIfEmpty word =>
          let isNull :=
            values?.isNone ||
              (evenIfEmpty && (Bytes.joined (argumentSeparator s) values).isEmpty)
          let alternative (s : Session) : Session × List Bit :=
            let (s, bits) := expandParts fuel splits (withHomes s .front 1 word) [] s
            let own (bit : Bit) : Bit :=
              match bit with
              | .char c .spelled => .char c (if quoted then .quoted else .value)
              | bit => bit
            (s, (if quoted then [.quote] else []) ++ bits.map own)
          let text (s : Session) : Session × Bytes :=
            let (s, bits) := expandParts fuel false (withHomes s .front 1 word) [] s
            (s, plainBytes bits)
          match resort with
          | .replace =>
              if isNull then alternative s else (s, valueBits s splits quoted name values)
          | .invert => if isNull then (s, []) else alternative s
          | .assign =>
              if !isNull then (s, valueBits s splits quoted name values)
              else
                let (s, value) := text s
                if !s.isOn then (s, [])
                else if !isName name then (s.fail (name ++ ": bad variable name".toList) 2, [])
                else
                  let s := s.assign name value
                  (s, valueBits s splits quoted name [value])
          | .fail =>
              if !isNull then (s, valueBits s splits quoted name values)
              else
                let (s, words) := text s
                let own := if evenIfEmpty then "parameter not set or null" else "parameter not set"
                let words := if word.isEmpty then own.toList else words
                if s.isOn then (s.fail (name ++ ": ".toList ++ words) 2, []) else (s, [])

/-- The bytes of a word that is not cut into fields. -/
def expandText (fuel : Nat) (homes : HomePlace) (w : Word) (s : Session) : Session × Bytes :=
  match fuel with
  | 0 => ({ s with flow := .endless }, [])
  | fuel + 1 =>
      let (s, bits) := expandParts fuel false (withHomes s homes (w.length + 1) w) [] s
      (s, plainBytes bits)

/-- The fields of words; those of the words before are given, last ones first. -/
def expandWords (fuel : Nat) (words : List Word) (before : List (List Bytes)) (s : Session) :
    Session × List Bytes :=
  match fuel with
  | 0 => ({ s with flow := .endless }, [])
  | fuel + 1 =>
      match words with
      | [] => (s, before.reverse.flatten)
      | w :: rest =>
          let (s, bits) := expandParts fuel true (withHomes s .front 1 w) [] s
          if !s.isOn then (s, [])
          else
            let values := (fields s.separators bits).flatMap
              (fieldValues s.disk (!s.hasOption 'f'))
            expandWords fuel rest (values :: before) s

/-- The arguments of a command: of one that takes assignments, these are not cut into fields. -/
def expandCommand (fuel : Nat) (words : List Word) (s : Session) : Session × List Bytes :=
  match fuel with
  | 0 => ({ s with flow := .endless }, [])
  | fuel + 1 =>
      match words with
      | first :: rest =>
          match plainWord? first with
          | some name =>
              if declarers.contains name.name then expandDeclarations fuel rest [name] s
              else expandWords fuel words [] s
          | none => expandWords fuel words [] s
      | [] => (s, [])

/-- The arguments of a command that takes assignments. -/
def expandDeclarations (fuel : Nat) (words : List Word) (before : List Bytes) (s : Session) :
    Session × List Bytes :=
  match fuel with
  | 0 => ({ s with flow := .endless }, [])
  | fuel + 1 =>
      match words with
      | [] => (s, before.reverse)
      | w :: rest =>
          match assignment? w with
          | some (name, value) =>
              let (s, value) := expandText fuel .everywhere value s
              if s.isOn then expandDeclarations fuel rest ((name ++ '=' :: value) :: before) s
              else (s, [])
          | none =>
              let (s, values) := expandWords fuel [w] [] s
              if s.isOn then expandDeclarations fuel rest (values.reverse ++ before) s
              else (s, [])

/-- What a script writes when it is carried out by an inner shell. -/
def capture (fuel : Nat) (script : List Command) (s : Session) : Session × Bytes :=
  match fuel with
  | 0 => ({ s with flow := .endless }, [])
  | fuel + 1 =>
      let (inside, sink) := s.inner.addStream (.sink [] [])
      let inside := runAll fuel false script (inside.setDescriptor 1 (some sink))
      let inside := endShell fuel inside
      let written := inside.writtenTo sink
      let after := s.afterInner inside
      let after := { after with status := s.status, outputStatus := some inside.status }
      (after, outputText written.bytes)

/-- Carries out redirections; gives whether all of them were possible. -/
def redirectAll (fuel : Nat) (redirections : List Redirection) (s : Session) : Session × Bool :=
  match fuel with
  | 0 => ({ s with flow := .endless }, false)
  | fuel + 1 =>
      match redirections with
      | [] => (s, true)
      | .to descriptor direction target :: rest =>
          let (s, text) :=
            match direction with
            | .document =>
                let number := (Bytes.nat? (spelledWord target)).getD 0
                let (s, bits) := expandParts fuel false ((s.documents[number]?).getD []) [] s
                (s, plainBytes bits)
            | _ => expandText fuel .front target s
          if !s.isOn then (s, false)
          else
            match redirect s descriptor direction text with
            | .ok s => redirectAll fuel rest s
            | .error refusal =>
                if refusal.isFatal then (s.fail refusal.words 2, false)
                else (s.report refusal.words 2, false)

/-- Carries out commands one after the other. -/
def runAll (fuel : Nat) (tested : Bool) (commands : List Command) (s : Session) : Session :=
  match fuel with
  | 0 => { s with flow := .endless }
  | fuel + 1 =>
      match commands with
      | [] => s
      | c :: rest =>
          let s := runTraps fuel (runCommand fuel tested c s)
          if s.isOn then runAll fuel tested rest s else s

/-- Carries out what is set for the signals that have come. -/
def runTraps (fuel : Nat) (s : Session) : Session :=
  match fuel with
  | 0 => { s with flow := .endless }
  | fuel + 1 =>
      if s.pending.isEmpty || !s.isOn then s
      else
        match s.pending.find? fun signal => (s.traps.lookup signal).any (!·.isEmpty) with
        | none => s
        | some signal =>
            let action := (s.traps.lookup signal).getD []
            let waiting := { s with pending := s.pending.erase signal }
            let after := runText fuel action waiting
            runTraps fuel (if after.isOn then after.withStatus s.status else after)

/-- Carries out a command.  A failure that nothing tests may end the script. -/
def runCommand (fuel : Nat) (tested : Bool) (command : Command) (s : Session) : Session :=
  match fuel with
  | 0 => { s with flow := .endless }
  | fuel + 1 =>
      let checked (s : Session) : Session :=
        if !tested && s.hasOption 'e' && s.status ≠ 0 && s.isOn then { s with flow := .exit }
        else s
      if s.hasOption 'n' then s
      else if s.deadline < s.clock then { s with flow := .endless }
      else
        match command with
        | .simple line words redirections =>
            checked (runSimple fuel tested words redirections { s with line })
        | .pipeline commands => checked (runPipeline fuel commands none s.clock false s)
        | .negation command =>
            let s := runCommand fuel true command s
            if s.isOn then s.withStatus (if s.status = 0 then 1 else 0) else s
        | .conjunction first second =>
            let s := runCommand fuel true first s
            if s.isOn && s.status = 0 then runCommand fuel tested second s else s
        | .disjunction first second =>
            let s := runCommand fuel true first s
            if s.isOn && s.status ≠ 0 then runCommand fuel tested second s else s
        | .background command => runBackground fuel command s
        | .group body => runAll fuel tested body s
        | .subshell body =>
            let inside := endShell fuel (runAll fuel tested body s.inner)
            checked (s.afterInner inside)
        | .branch test yes no =>
            let s := runAll fuel true test s
            if !s.isOn then s
            else if s.status = 0 then runAll fuel tested yes s
            else if no.isEmpty then s.withStatus 0
            else runAll fuel tested no s
        | .loop wanted test body =>
            let after := runLoop fuel tested wanted test body 0 { s with loops := s.loops + 1 }
            { after with loops := s.loops }
        | .each line name words body =>
            let (s, values) := expandWords fuel words [] { s with line }
            if !s.isOn then s
            else
              let after := runEach fuel tested name values body
                { s with loops := s.loops + 1, status := 0 }
              { after with loops := s.loops }
        | .choice line subject cases =>
            let (s, bits) :=
              expandParts fuel false (withHomes s .front 1 subject) [] { s with line }
            if s.isOn then runChoice fuel tested (plainBytes bits) cases s else s
        | .definition name body =>
            let others := s.functions.filter fun entry => entry.1 ≠ name
            { s with functions := (name, body) :: others, status := 0 }
        | .redirected line command redirections =>
            let (opened, possible) := redirectAll fuel redirections { s with line }
            let back (after : Session) : Session := { after with descriptors := s.descriptors }
            if possible then back (runCommand fuel tested command opened) else back opened

/-- Carries out the body of a loop as long as its test has the wanted outcome. -/
def runLoop (fuel : Nat) (tested wanted : Bool) (test body : List Command) (status : Nat)
    (s : Session) : Session :=
  match fuel with
  | 0 => { s with flow := .endless }
  | fuel + 1 =>
      let (s, more) := roundEnd (runAll fuel true test s)
      if !more then s
      else if (s.status = 0) ≠ wanted then s.withStatus status
      else
        let (s, more) := roundEnd (runAll fuel tested body s)
        if more then runLoop fuel tested wanted test body s.status s else s

/-- Carries out the body of a loop for each of some values. -/
def runEach (fuel : Nat) (tested : Bool) (name : Bytes) (values : List Bytes)
    (body : List Command) (s : Session) : Session :=
  match fuel with
  | 0 => { s with flow := .endless }
  | fuel + 1 =>
      match values with
      | [] => s
      | value :: rest =>
          let s := s.assign name value
          if !s.isOn then s
          else
            let (s, more) := roundEnd (runAll fuel tested body s)
            if more then runEach fuel tested name rest body s else s

/-- Carries out the commands of the first case that a subject fits. -/
def runChoice (fuel : Nat) (tested : Bool) (subject : Bytes) (cases : List Case) (s : Session) :
    Session :=
  match fuel with
  | 0 => { s with flow := .endless }
  | fuel + 1 =>
      match cases with
      | [] => s.withStatus 0
      | .fits patterns body :: rest =>
          let (s, fits) := fitsAny fuel subject patterns s
          if !s.isOn then s
          else if fits then runAll fuel tested body (s.withStatus 0)
          else runChoice fuel tested subject rest s

/-- Whether a subject fits one of some patterns. -/
def fitsAny (fuel : Nat) (subject : Bytes) (patterns : List Word) (s : Session) :
    Session × Bool :=
  match fuel with
  | 0 => ({ s with flow := .endless }, false)
  | fuel + 1 =>
      match patterns with
      | [] => (s, false)
      | w :: rest =>
          let (s, bits) := expandParts fuel false (withHomes s .front 1 w) [] s
          if !s.isOn then (s, false)
          else if fitsPattern (markedBytes bits) subject then (s, true)
          else fitsAny fuel subject rest s

/-- Carries out commands of which each one reads what the one before it writes.  All of them start
at the same time. -/
def runPipeline (fuel : Nat) (commands : List Command) (feed : Option Nat) (latest : Nat)
    (feedIsEndless : Bool) (s : Session) : Session :=
  match fuel with
  | 0 => { s with flow := .endless }
  | fuel + 1 =>
      match commands with
      | [] => s
      | c :: rest =>
          let (scene, sink) := s.addStream (.sink [] [])
          let inside := scene.inner
          let inside := if feed.isSome then inside.setDescriptor 0 feed else inside
          let inside := if rest.isEmpty then inside else inside.setDescriptor 1 (some sink)
          let inside := endShell fuel (runCommand fuel false c inside)
          let ended := inside.flow ≠ .endless
          let isStopped :=
            match feed.bind fun number => inside.streams[number]? with
            | some (.source left) => !left.isSpent
            | _ => false
          let latest := if ended then max latest inside.clock else latest
          let isWaiting := ended && feedIsEndless && !isStopped
          if rest.isEmpty then
            let after := s.afterInner inside
            let after := { after with clock := latest }
            if isWaiting then { after with flow := .endless } else after
          else
            let written := inside.writtenTo sink
            let kept := scene.afterInner inside
            let killed := match inside.flow with
              | .killed _ => true
              | _ => false
            if killed then { kept with clock := latest }
            else
              let (next, source) := kept.addStream (.source written)
              let next := { next with clock := s.clock, flow := s.flow, status := s.status }
              runPipeline fuel rest (some source) latest (!ended || isWaiting) next

/-- Starts a command in the background. -/
def runBackground (fuel : Nat) (command : Command) (s : Session) : Session :=
  match fuel with
  | 0 => { s with flow := .endless }
  | fuel + 1 =>
      let number := s.nextJob
      let (scene, empty) := { s with nextJob := number + 1 }.addStream (.source {})
      let inside := { scene.inner with job := number }.setDescriptor 0 (some empty)
      let (holdsOutput, givesWay) :=
        match command with
        | .simple _ _ redirections =>
            ((redirectAll fuel redirections inside).1.holdsOutput, true)
        | .redirected _ _ redirections =>
            ((redirectAll fuel redirections inside).1.holdsOutput, false)
        | _ => (inside.holdsOutput, false)
      let inside := { inside with givesWay, death := none }
      let inside := endShell fuel (runCommand fuel false command inside)
      let job : BackgroundJob :=
        { number, holdsOutput
          endTime := if inside.flow = .endless then none else some inside.clock
          ending :=
            match inside.death with
            | some signal => if givesWay then .killed signal else .exited (inside.status % 256)
            | none => .exited (inside.status % 256) }
      let kept := scene.afterInner inside
      let flow : Flow :=
        match inside.flow with
        | .killed signal => .killed signal
        | _ => s.flow
      { kept with
        clock := s.clock, flow, status := 0, lastJob := some number, jobs := kept.jobs ++ [job] }

/-- Carries out a simple command. -/
def runSimple (fuel : Nat) (tested : Bool) (words : List Word) (redirections : List Redirection)
    (s : Session) : Session :=
  match fuel with
  | 0 => { s with flow := .endless }
  | fuel + 1 =>
      let (assignments, words) := splitAssignments words
      let s := { s with outputStatus := none }
      let (s, arguments) := expandCommand fuel words s
      if !s.isOn then s
      else
        let name := arguments.headD []
        let isSpecial := !arguments.isEmpty && builtinKind? name = some true
        let (opened, possible) := redirectAll fuel redirections s
        let back (after : Session) : Session := { after with descriptors := s.descriptors }
        if !opened.isOn then back opened
        else if !possible then
          let after := back opened
          if isSpecial then { after with flow := .exit } else after
        else
          let keeps := arguments.isEmpty || isSpecial
          let (given, trace) := assignAll fuel (!keeps) assignments [] opened
          if !given.isOn then back given
          else
            let given :=
              if s.hasOption 'x' && !(trace.isEmpty && arguments.isEmpty) then
                let mark := (s.value? "PS4".toList).getD []
                let line := mark ++ Bytes.joined [' '] (trace ++ arguments) ++ ['\n']
                let written := ({ given with descriptors := s.descriptors }.write 2 line).1
                { written with descriptors := given.descriptors }
              else given
            match arguments with
            | [] => back (given.withStatus (given.outputStatus.getD 0))
            | name :: arguments =>
                if name.name = "exec" && arguments.isEmpty then given.withStatus 0
                else
                  let after := call fuel tested false name arguments given
                  back (if keeps then after
                    else putBackVariables opened after (assignments.map Prod.fst))

/-- Gives values to variables; gives also how this is traced. -/
def assignAll (fuel : Nat) (exports : Bool) (assignments : List (Bytes × Word))
    (trace : List Bytes) (s : Session) : Session × List Bytes :=
  match fuel with
  | 0 => ({ s with flow := .endless }, [])
  | fuel + 1 =>
      match assignments with
      | [] => (s, trace.reverse)
      | (name, w) :: rest =>
          let (s, value) := expandText fuel .everywhere w s
          if !s.isOn then (s, [])
          else
            let s := s.assign name value
            let s :=
              if exports then
                match s.variableNamed? name with
                | some v => s.putVariable { v with isExported := true }
                | none => s
              else s
            if s.isOn then assignAll fuel exports rest ((name ++ '=' :: value) :: trace) s
            else (s, [])

/-- Calls a command by its name.  A plain call passes over functions and is not ended by a
refusal. -/
def call (fuel : Nat) (tested plain : Bool) (name : Bytes) (arguments : List Bytes)
    (s : Session) : Session :=
  match fuel with
  | 0 => { s with flow := .endless }
  | fuel + 1 =>
      let outer := s.within
      let refused (s : Session) (words : Bytes) (isSpecial : Bool) : Session :=
        let s := { s with within := name }.report words 2
        { s with within := outer, flow := if isSpecial && !plain then .exit else s.flow }
      let builtin (b : Builtin) (isSpecial : Bool) : Session :=
        match b { s with within := name } arguments with
        | .ok s => { s with within := outer }
        | .error words => refused s words isSpecial
      let word := name.name
      match specialBuiltins.lookup word with
      | some b => builtin b true
      | none =>
          if word = "eval" then
            let text := Bytes.joined [' '] arguments
            let after := runText fuel text { s with within := name }
            let after := { after with within := outer }
            if plain && after.flow = .exit && after.status = 2 && s.isOn then
              { after with flow := .on }
            else after
          else if word = "." then runSource fuel plain arguments s
          else if word = "exec" then
            match arguments with
            | [] => s.withStatus 0
            | program :: arguments => replaceBy fuel program arguments s
          else
            match if plain then none else s.functions.lookup name with
            | some body => callFunction fuel tested body arguments s
            | none =>
                match plainBuiltins.lookup word with
                | some b => builtin b false
                | none =>
                    if word = "type" then builtin typeOf false
                    else if word = "command" then runPlainly fuel tested arguments s
                    else
                      match findProgram s name with
                      | .error fault =>
                          s.report (name ++ (": " ++ fault.words).toList) (fault.status name)
                      | .ok program => settled (launch fuel program name arguments s)

/-- Calls a command that is no function, or tells what a command is. -/
def runPlainly (fuel : Nat) (tested : Bool) (arguments : List Bytes) (s : Session) : Session :=
  match fuel with
  | 0 => { s with flow := .endless }
  | fuel + 1 =>
      match optionsInFront "pvV" arguments with
      | .error words => { s with within := "command".toList }.report words 2
      | .ok (letters, []) => let _ := letters; s.withStatus 0
      | .ok (letters, name :: arguments) =>
          if letters.contains 'v' then
            match spelledCommand? s name with
            | some words => (s.withStatus 0).print (words ++ ['\n'])
            | none => s.withStatus 127
          else if letters.contains 'V' then
            let (words, found) := describedCommand s name
            (s.withStatus (if found then 0 else 127)).print (words ++ ['\n'])
          else call fuel tested true name arguments s

/-- Carries out a function. -/
def callFunction (fuel : Nat) (tested : Bool) (body : Command) (arguments : List Bytes)
    (s : Session) : Session :=
  match fuel with
  | 0 => { s with flow := .endless }
  | fuel + 1 =>
      if deepestCall ≤ s.saved.length then
        s.fail ("Maximum function recursion depth (" ++ toString deepestCall ++
          ") reached").toList 2
      else
        let inside := { s with arguments, saved := [] :: s.saved, loops := 0 }
        let after := runCommand fuel tested body inside
        let after := restored after (after.saved.headD [])
        { after with
          arguments := s.arguments, saved := s.saved, loops := s.loops
          flow := if after.flow = .return then .on else after.flow }

/-- Carries out the script in a file. -/
def runSource (fuel : Nat) (plain : Bool) (arguments : List Bytes) (s : Session) : Session :=
  match fuel with
  | 0 => { s with flow := .endless }
  | fuel + 1 =>
      match arguments with
      | [] => s.withStatus 0
      | file :: _ =>
          let refused (words : Bytes) : Session :=
            let after := { s with within := ['.'] }.report words 2
            { after with within := s.within, flow := if plain then s.flow else .exit }
          let path? : Option Bytes :=
            if file.contains '/' then some file
            else (candidatePaths s file).find? fun path => s.disk.hasFile (pathOf path)
          match path? with
          | none => refused (file ++ ": not found".toList)
          | some path =>
              match fileSupply s.disk (pathOf path) with
              | .error fault =>
                  refused ("cannot open ".toList ++ file ++
                    (": " ++ openingWords true fault).toList)
              | .ok supply =>
                  let inside := { s with within := path, line := 1 }
                  let after := runText fuel supply.bytes inside
                  { after with
                    within := s.within, line := s.line
                    flow := if after.flow = .return then .on else after.flow }

/-- Ends the shell by putting a program in its place. -/
def replaceBy (fuel : Nat) (name : Bytes) (arguments : List Bytes) (s : Session) : Session :=
  match fuel with
  | 0 => { s with flow := .endless }
  | fuel + 1 =>
      match findProgram s name with
      | .error fault =>
          let s := { s with within := "exec".toList }
          s.fail (name ++ (": " ++ fault.words).toList) (fault.status name)
      | .ok program =>
          let after := launch fuel program name arguments s
          let after := { after with traps := [] }
          let after := if s.isInner then settled after else after
          if after.isOn then { after with flow := .exit } else after

/-- Carries out a text. -/
def runText (fuel : Nat) (text : Bytes) (s : Session) : Session :=
  match fuel with
  | 0 => { s with flow := .endless }
  | fuel + 1 =>
      let reader : Reader := { rest := text }
      let line := s.line
      let after := runLines fuel false reader s
      if after.isOn then { after with line } else after

/-- Carries out the lines of a script.  A script without commands does well. -/
def runLines (fuel : Nat) (begun : Bool) (r : Reader) (s : Session) : Session :=
  match fuel with
  | 0 => { s with flow := .endless }
  | fuel + 1 =>
      if !s.isOn then s
      else
        match readLine { r with documents := s.documents, aliases := s.aliases } with
        | .error complaint => { s with line := complaint.line }.fail complaint.words.toList 2
        | .ok none => if begun then s else s.withStatus 0
        | .ok (some (commands, r)) =>
            let s := runAll fuel false commands { s with documents := r.documents }
            runLines fuel (begun || !commands.isEmpty) r s

/-- Ends a shell: what is set for its end is carried out. -/
def endShell (fuel : Nat) (s : Session) : Session :=
  match fuel with
  | 0 => { s with flow := .endless }
  | fuel + 1 =>
      match s.flow with
      | .endless | .killed _ => s
      | _ =>
          let s := runTraps fuel s
          match s.traps.lookup 0 with
          | none => { s with flow := .on }
          | some action =>
              let others := s.traps.filter fun trap => trap.1 ≠ 0
              let after := runText fuel action
                { s with traps := others, flow := .on, within := [], loops := 0 }
              match after.flow with
              | .endless | .killed _ => after
              | .exit => { after with flow := .on }
              | _ => { after.withStatus s.status with flow := .on }

/-- Starts a shell. -/
def startShell (fuel : Nat) (name : Bytes) (arguments : List Bytes) (s : Session) : Session :=
  match fuel with
  | 0 => { s with flow := .endless }
  | fuel + 1 =>
      let refused (words : Bytes) (status : Nat) : Session :=
        ((s.write 2 (name ++ ": 0: ".toList ++ words ++ ['\n'])).1).withStatus status
      match shellCall s name arguments with
      | .error words => refused words 2
      | .ok call =>
          let begin (text : Bytes) (s : Session) : Session :=
            afterProgram s (endShell fuel (runText fuel text (startedFrom s call)))
          match call.task with
          | .text script => begin script s
          | .input =>
              let supply := s.supply 0
              begin supply.bytes (s.leave 0 {})
          | .file path =>
              match fileSupply s.disk (pathOf path) with
              | .ok supply => begin supply.bytes s
              | .error .isDirectory => s.withStatus 0
              | .error fault =>
                  refused ("cannot open ".toList ++ path ++
                    (": " ++ openingWords true fault).toList) 2

/-- Starts a program of the machine. -/
def launch (fuel : Nat) (program : String) (name : Bytes) (arguments : List Bytes) (s : Session) :
    Session :=
  match fuel with
  | 0 => { s with flow := .endless }
  | fuel + 1 =>
      let skipping (letters : String) : Session :=
        match takeGiven (lettersOf letters) true arguments with
        | .error fault => (misused s name fault.words).withStatus 125
        | .ok given => startOther fuel name given.others s
      match program with
      | "sh" => startShell fuel name arguments s
      | "env" => startWithVariables fuel name arguments s
      | "timeout" => startWithLimit fuel name arguments s
      | "xargs" => startForItems fuel name arguments s
      | "nohup" => skipping ""
      | "nice" => skipping "n:"
      | "setsid" => skipping "wcf"
      | "stdbuf" => skipping "i:o:e:"
      | program =>
          match utilities.lookup program with
          | none => s.withStatus 0
          | some utility =>
              let (outcome, disk) := utility
                { name, arguments, input := s.supply 0, environment := s.environment } s.disk
              { s with disk }.take name outcome

/-- Starts a program that another one was asked to start. -/
def startOther (fuel : Nat) (starter : Bytes) (words : List Bytes) (s : Session) : Session :=
  match fuel with
  | 0 => { s with flow := .endless }
  | fuel + 1 =>
      match words with
      | [] => (misused s starter "missing operand".toList).withStatus 125
      | name :: arguments =>
          match findProgram s name with
          | .ok program => launch fuel program name arguments s
          | .error fault =>
              let words := if fault = .notFound then "No such file or directory" else fault.words
              let message := starter ++ ": failed to run command ".toList ++ inMarks name ++
                (": " ++ words ++ "\n").toList
              let plain := starter ++ ": ".toList ++ inMarks name ++ (": " ++ words ++ "\n").toList
              let isShort := starter.name = "env" || starter.name = "nice"
              ((s.write 2 (if isShort then plain else message)).1).withStatus
                (if fault = .notFound then 127 else 126)

/-- Starts a program with other variables. -/
def startWithVariables (fuel : Nat) (name : Bytes) (arguments : List Bytes) (s : Session) :
    Session :=
  match fuel with
  | 0 => { s with flow := .endless }
  | fuel + 1 =>
      match takeGiven (lettersOf "iu:0v") true arguments with
      | .error fault => (misused s name fault.words).withStatus 125
      | .ok given =>
          let cleared := if given.has 'i' then { s with memory := [] } else s
          let cleared := given.options.foldl
            (fun s entry => if entry.1 = 'u' then s.dropVariable entry.2 else s) cleared
          let front := given.others.takeWhile fun word => word.contains '='
          let changed := front.foldl
            (fun s word =>
              let (key, value) := nameAndValue word
              s.putVariable { name := key, value, isExported := true })
            cleared
          let back (after : Session) : Session := { after with memory := s.memory }
          match given.others.drop front.length with
          | [] =>
              let lines := changed.environment.map fun (name, value) => name ++ '=' :: value ++ ['\n']
              back ((changed.withStatus 0).print lines.flatten)
          | words =>
              let searched :=
                if given.has 'i' then
                  changed.putVariable { name := "PATH".toList, value := s.value? "PATH".toList }
                else changed
              back (startOther fuel name words searched)

/-- Starts a program that is stopped after some time. -/
def startWithLimit (fuel : Nat) (name : Bytes) (arguments : List Bytes) (s : Session) : Session :=
  match fuel with
  | 0 => { s with flow := .endless }
  | fuel + 1 =>
      let long (a : Bytes) : Bool := a = "--preserve-status".toList || a = "--foreground".toList
      let keepsStatus := arguments.contains "--preserve-status".toList
      match takeGiven (lettersOf "s:k:v") true (arguments.filter fun a => !long a) with
      | .error fault => (misused s name fault.words).withStatus 125
      | .ok given =>
          let signal := ((given.value? 's').bind fun text => signal? text.name).getD 15
          match given.others with
          | [] | [_] =>
              let hint := "Try '".toList ++ name ++ " --help' for more information.\n".toList
              ((s.write 2 hint).1).withStatus 125
          | span :: words =>
              match spanOf? span with
              | none =>
                  (misused s name ("invalid time interval ".toList ++ inMarks span)).withStatus 125
              | some .forever => startOther fuel name words s
              | some (.milliseconds limit) =>
                  let after := startOther fuel name words s
                  let isLate :=
                    limit ≠ 0 && (after.flow = .endless || s.clock + limit < after.clock)
                  if !isLate then after
                  else
                    let after := stoppedAt { after with flow := .on } (s.clock + limit)
                    if signal = 9 then { after with flow := .killed 9 }
                    else if keepsStatus then after.withStatus (128 + signal)
                    else after.withStatus 124

/-- Starts a program with the items of its input as arguments. -/
def startForItems (fuel : Nat) (name : Bytes) (arguments : List Bytes) (s : Session) : Session :=
  match fuel with
  | 0 => { s with flow := .endless }
  | fuel + 1 =>
      match takeGiven (lettersOf "n:I:0rtL:d:P:") true arguments with
      | .error fault => (misused s name fault.words).withStatus 1
      | .ok given =>
          let supply := s.supply 0
          let s := s.leave 0 {}
          let command := if given.others.isEmpty then ["echo".toList] else given.others
          let lines := (supply.bytes.splitAt '\n').filter fun line => !line.all isSpace
          let items :=
            if given.has '0' then (supply.bytes.splitAt (Char.ofNat 0)).filter (!·.isEmpty)
            else if given.has 'I' then lines.map fun line => line.dropWhile isSpace
            else itemsOf supply.bytes
          let rows : List (List Bytes) :=
            match given.value? 'I', (given.value? 'n').bind Bytes.nat? with
            | some mark, _ => items.map fun item => command.map (replacedAll mark item)
            | none, some n => (rowsOf n items).map fun row => command ++ row
            | none, none =>
                if items.isEmpty && given.has 'r' then [] else [command ++ items]
          startRows fuel name rows 0 s

/-- Starts a program once for each row of words. -/
def startRows (fuel : Nat) (starter : Bytes) (rows : List (List Bytes)) (worst : Nat)
    (s : Session) : Session :=
  match fuel with
  | 0 => { s with flow := .endless }
  | fuel + 1 =>
      match rows with
      | [] => s.withStatus worst
      | row :: rest =>
          match findProgram s (row.headD []) with
          | .error fault =>
              let words := if fault = .notFound then "No such file or directory" else fault.words
              let message :=
                starter ++ ": ".toList ++ row.headD [] ++ (": " ++ words ++ "\n").toList
              ((s.write 2 message).1).withStatus (if fault = .notFound then 127 else 126)
          | .ok program =>
              let (scene, empty) := s.addStream (.source {})
              let inside := launch fuel program (row.headD []) row.tail
                (scene.setDescriptor 0 (some empty))
              let after := { inside with descriptors := s.descriptors }
              match after.flow with
              | .on =>
                  if after.status = 255 then
                    let message := starter ++ ": ".toList ++ row.headD [] ++
                      ": exited with status 255; aborting\n".toList
                    ((after.write 2 message).1).withStatus 124
                  else startRows fuel starter rest (if after.status = 0 then worst else 123) after
              | _ => after
end

/-! ## A program of its own -/

/-- What a program does that is started with an input that is empty. -/
structure Run where
  stdout : Bytes
  stderr : Bytes
  /-- After how many milliseconds nothing holds its outputs any more, if ever. -/
  elapsed : Option Nat
  ending : Ending

/-- The variables that a program is given. -/
def standardEnvironment : List (Bytes × Bytes) :=
  [ ("HOME".toList, "/root".toList),
    ("PATH".toList, "/usr/local/sbin:/usr/local/bin:/usr/sbin:/usr/bin:/sbin:/bin".toList) ]

/-- Starts a program with an input that is empty, and waits for its outputs to be closed, or until
the given time has passed. -/
def run (program : String) (name : Bytes) (arguments : List Bytes) (limit : Nat) (disk : Disk) :
    Run × Disk :=
  let s : Session :=
    { name, memory := variablesFrom standardEnvironment disk.working
      streams := #[.source {}, .sink [] [], .sink [] []], disk, deadline := limit }
  let after := launch longestRun program name arguments s
  let ends := (after.jobs.filter (·.holdsOutput)).map BackgroundJob.endTime
  let elapsed : Option Nat :=
    if after.flow = .endless then none
    else ends.foldl (fun latest time => do pure (max (← latest) (← time))) (some after.clock)
  let ending : Ending :=
    match after.flow with
    | .killed signal => .killed signal
    | _ => .exited (after.status % 256)
  ({ stdout := (after.writtenTo 1).bytes, stderr := (after.writtenTo 2).bytes, elapsed, ending },
    { after.disk with working := disk.working })

end Slidecast.Machine.Shell
