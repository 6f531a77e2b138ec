import Slidecast.Machine.Shell.Syntax

/-!
# Reading scripts

A script is read line by line, since a line may be carried out before the next one is read.  The
reader takes the characters in front, forms words and signs of them, and commands of these.  Words
may hold scripts, so words and commands are read by one another; a number bounds how deep and how
far.

Texts that a script holds for the input of its commands stand behind the line of the command.
They are kept in a table, and the redirection has their number.
-/

set_option autoImplicit false

namespace Slidecast.Machine.Shell

/-- Why a script cannot be read: what is wrong, and on which line. -/
structure Complaint where
  line : Nat
  words : String

/-- A word, a sign, or an arrow in front of the target of a redirection. -/
inductive Token where
  | word (w : Word)
  | sign (spelling : String)
  | arrow (stream : Nat) (direction : Direction) (untabbed : Bool)
  | stop

/-- A text that is expected behind the line. -/
structure Awaited where
  /-- The line behind which it ends. -/
  delimiter : Bytes
  /-- Whether it is taken as it is spelled. -/
  verbatim : Bool
  /-- Whether tabs in front of its lines are dropped. -/
  untabbed : Bool
  number : Nat

/-- What is still to be read, and what has been found on the way. -/
structure Reader where
  rest : Bytes
  line : Nat := 1
  ahead : Option Token := none
  awaited : List Awaited := []
  documents : Array Word := #[]
  /-- Other names for the beginnings of commands. -/
  aliases : List (Bytes × Bytes) := []
  /-- The other names that have been replaced in front of the present command. -/
  replaced : List Bytes := []

/-- A step of reading. -/
abbrev Reading (α : Type) : Type := StateT Reader (Except Complaint) α

/-- Words that the shell keeps for itself. -/
def keywords : List String :=
  [ "if", "then", "else", "elif", "fi", "do", "done", "case", "esac", "while", "until", "for",
    "\x7b", "\x7d", "!", "in" ]

namespace Token

/-- The word of the shell that a token is. -/
def keyword? : Token → Option String
  | .word w => (plainWord? w).bind fun name =>
      keywords.find? fun keyword => keyword.toList = name
  | _ => none

/-- Whether a token ends a row of commands. -/
def isEnd (t : Token) : Bool :=
  match t with
  | .stop | .sign ")" | .sign ";;" => true
  | t =>
      match t.keyword? with
      | some keyword =>
          ["then", "else", "elif", "fi", "do", "done", "esac", "\x7d"].contains keyword
      | none => false

/-- How a token is named in a complaint. -/
def describe (t : Token) : String :=
  match t.keyword?, t with
  | some keyword, _ => "\"" ++ keyword ++ "\""
  | none, .word _ => "word"
  | none, .sign "\n" => "newline"
  | none, .sign spelling => "\"" ++ spelling ++ "\""
  | none, .arrow _ _ _ => "redirection"
  | none, .stop => "end of file"

end Token

namespace Reading

variable {α : Type}

/-- Ends reading with a complaint. -/
def reject (words : String) : Reading α := do throw ⟨(← get).line, "Syntax error: " ++ words⟩

/-- Complains about a token, and says what was expected. -/
def unexpected (described : String) (expected : Option String) : Reading α :=
  reject (described ++ " unexpected" ++
    match expected with
    | some other => " (expecting " ++ other ++ ")"
    | none => "")

/-- Takes the next character. -/
def take? : Reading (Option Char) := do
  let r ← get
  match r.rest with
  | [] => pure none
  | c :: rest => do
      set { r with rest := rest, line := if c = '\n' then r.line + 1 else r.line }
      pure (some c)

/-- The next character. -/
def peek? : Reading (Option Char) := do pure (← get).rest.head?

/-- Passes over the next character. -/
def skip : Reading Unit := do
  let _ ← take?

/-- Passes over a line that is continued on the next one, as often as there is one. -/
def joinLines : Nat → Reading Unit
  | 0 => pure ()
  | more + 1 => do
      match (← get).rest with
      | '\\' :: '\n' :: _ => do
          skip
          skip
          joinLines more
      | _ => pure ()

/-- Takes characters as long as they pass a test. -/
def takeWhile (test : Char → Bool) : Reading Bytes := do
  let r ← get
  let taken := r.rest.takeWhile test
  set { r with rest := r.rest.drop taken.length }
  pure taken

/-- Puts a token in front of what is to be read. -/
def putBack (t : Token) : Reading Unit := modify fun r => { r with ahead := some t }

end Reading

open Reading

/-- What surrounds the parts of a word. -/
inductive Surrounding where
  | nothing
  | quotes
  | braces (quoted : Bool)
  | parentheses (depth : Nat)
  | document

/-- Whether characters are quoted by what surrounds them. -/
def Surrounding.isQuoted : Surrounding → Bool
  | .nothing => false
  | .quotes | .parentheses _ | .document => true
  | .braces quoted => quoted

/-- Characters that end a word. -/
def endsWord (c : Char) : Bool := " \t\n;&|<>()".toList.contains c

/-- Characters that lose their meaning behind a backslash between quotes. -/
def Surrounding.escapes : Surrounding → List Char
  | .nothing | .braces false => []
  | .quotes | .parentheses _ => ['$', '`', '"', '\\']
  | .braces true => ['$', '`', '"', '\\', '}']
  | .document => ['$', '`', '\\']

/-- Whether a backslash quotes any character. -/
def Surrounding.escapesAll : Surrounding → Bool
  | .nothing | .braces false => true
  | _ => false

/-- The lines of an awaited text, and what follows them. -/
def documentLines (a : Awaited) : Nat → Bytes → List Bytes × Bytes
  | 0, text => ([], text)
  | more + 1, text =>
      if text.isEmpty then ([], [])
      else
        let line := text.takeWhile (· ≠ '\n')
        let behind := text.drop line.length
        let line := if a.untabbed then line.dropWhile (· = '\t') else line
        if line = a.delimiter then ([], behind.drop 1)
        else
          let (lines, rest) := documentLines a more (behind.drop 1)
          ((if behind.isEmpty then line else line ++ ['\n']) :: lines, rest)

/-- The spelling of a script between backquotes, with the backslashes taken away that protect it. -/
def backquoted (quoted : Bool) : Bytes → Option (Bytes × Bytes)
  | [] => none
  | '`' :: rest => some ([], rest)
  | '\\' :: c :: rest =>
      let behind := backquoted quoted rest
      if c = '\\' ∨ c = '`' ∨ c = '$' ∨ (quoted ∧ c = '"') then
        behind.map fun found => (c :: found.1, found.2)
      else behind.map fun found => ('\\' :: c :: found.1, found.2)
  | c :: rest => (backquoted quoted rest).map fun found => (c :: found.1, found.2)

/-- The sign that begins with a character. -/
def signFrom (c : Char) : Reading (Option String) := do
  let doubled (single double : String) : Reading (Option String) := do
    joinLines 100
    if (← peek?) = some c then
      skip
      pure (some double)
    else pure (some single)
  if c = ';' then doubled ";" ";;"
  else if c = '&' then doubled "&" "&&"
  else if c = '|' then doubled "|" "||"
  else if c = '(' then pure (some "(")
  else if c = ')' then pure (some ")")
  else if c = '\n' then pure (some "\n")
  else pure none

/-- The arrow behind `<` or `>`. -/
def arrowFrom (stream? : Option Nat) (c : Char) : Reading Token := do
  joinLines 100
  let next ← peek?
  if c = '>' then
    let stream := stream?.getD 1
    if next = some '>' then
      skip
      pure (.arrow stream .append false)
    else if next = some '&' then
      skip
      pure (.arrow stream .copy false)
    else if next = some '|' then
      skip
      pure (.arrow stream .overwrite false)
    else pure (.arrow stream .write false)
  else
    let stream := stream?.getD 0
    if next = some '<' then
      skip
      let tabs := (← peek?) = some '-'
      if tabs then skip
      pure (.arrow stream .document tabs)
    else if next = some '&' then
      skip
      pure (.arrow stream .copy false)
    else if next = some '>' then
      skip
      pure (.arrow stream .readWrite false)
    else pure (.arrow stream .read false)

/-- Passes over blanks, continued lines and a comment. -/
def skipBlanks : Nat → Reading Unit
  | 0 => pure ()
  | more + 1 => do
      match (← get).rest with
      | ' ' :: _ | '\t' :: _ => do
          skip
          skipBlanks more
      | '\\' :: '\n' :: _ => do
          skip
          skip
          skipBlanks more
      | '#' :: _ => do
          let _ ← takeWhile (· ≠ '\n')
      | _ => pure ()

/-- The stream that stands in front of an arrow, if the word in front of it is one digit. -/
def streamOf? (w : Word) : Option Nat :=
  match w with
  | [.char c false] => if c.isDigit then some (c.toNat - 48) else none
  | _ => none

/-- The names of commands that belong to the shell and cannot be defined anew. -/
def specialNames : List String :=
  [ ".", ":", "break", "continue", "eval", "exec", "exit", "export", "readonly", "return", "set",
    "shift", "times", "trap", "unset" ]

mutual
/-- The parts of a word up to its end; those before are given, last one first. -/
def readParts (fuel : Nat) (around : Surrounding) (before : List Part) : Reading Word := do
  match fuel with
  | 0 => reject "word too long"
  | fuel + 1 =>
      let quoted := around.isQuoted
      let literal (c : Char) : Reading Word := do
        skip
        readParts fuel around (.char c quoted :: before)
      match ← peek?, around with
      | none, .nothing | none, .document => pure before.reverse
      | none, .quotes => reject "Unterminated quoted string"
      | none, .braces _ => reject "Missing '\x7d'"
      | none, .parentheses _ => reject "Missing '))'"
      | some c, around =>
          if c = '\\' then
            skip
            match ← peek? with
            | none => readParts fuel around (.char '\\' quoted :: before)
            | some '\n' => do
                skip
                readParts fuel around before
            | some d => do
                skip
                if around.escapesAll ∨ around.escapes.contains d then
                  readParts fuel around (.char d true :: before)
                else readParts fuel around (.char d quoted :: .char '\\' quoted :: before)
          else if c = '$' then
            skip
            let part ← readDollar fuel quoted
            readParts fuel around (part :: before)
          else if c = '`' then
            skip
            let part ← readBackquoted fuel quoted
            readParts fuel around (part :: before)
          else
            match around with
            | .nothing =>
                if endsWord c then pure before.reverse
                else if c = '\'' then
                  let text ← readVerbatim
                  readParts fuel around (text.reverse ++ .quote :: before)
                else if c = '"' then
                  skip
                  let inner ← readParts fuel .quotes []
                  readParts fuel around (inner.reverse ++ .quote :: before)
                else literal c
            | .quotes =>
                if c = '"' then
                  skip
                  pure before.reverse
                else literal c
            | .braces inQuotes =>
                if c = '}' then
                  skip
                  pure before.reverse
                else if c = '"' then
                  skip
                  let inner ← readParts fuel .quotes []
                  readParts fuel around (inner.reverse ++ .quote :: before)
                else if c = '\'' ∧ ¬ inQuotes then
                  let text ← readVerbatim
                  readParts fuel around (text.reverse ++ .quote :: before)
                else literal c
            | .parentheses depth =>
                if c = '(' then
                  skip
                  readParts fuel (.parentheses (depth + 1)) (.char c quoted :: before)
                else if c = ')' then
                  skip
                  match depth with
                  | depth + 1 =>
                      readParts fuel (.parentheses depth) (.char c quoted :: before)
                  | 0 => do
                      if (← peek?) = some ')' then
                        skip
                        pure before.reverse
                      else readParts fuel around (.char c quoted :: before)
                else literal c
            | .document => literal c

/-- The characters between single quotes. -/
def readVerbatim : Reading (List Part) := do
  skip
  let text ← takeWhile (· ≠ '\'')
  modify fun r => { r with line := r.line + text.count '\n' }
  match ← take? with
  | some _ => pure (text.map fun c => .char c true)
  | none => reject "Unterminated quoted string"

/-- What a dollar sign stands for with what is behind it. -/
def readDollar (fuel : Nat) (quoted : Bool) : Reading Part := do
  match fuel with
  | 0 => reject "word too long"
  | fuel + 1 =>
      joinLines 100
      match ← peek? with
      | some '(' => do
          skip
          joinLines 100
          if (← peek?) = some '(' then
            skip
            let expression ← readParts fuel (.parentheses 0) []
            pure (.arithmetic expression quoted)
          else
            let script ← readList fuel true []
            match ← readToken fuel with
            | .sign ")" => pure (.output script quoted)
            | t => unexpected t.describe (some "\")\"")
      | some '{' => do
          skip
          readBraces fuel quoted
      | some c =>
          if isNameStart c then do
            let name ← takeWhile isNameChar
            pure (.parameter name .value quoted)
          else if c.isDigit ∨ isSpecial c then do
            skip
            pure (.parameter [c] .value quoted)
          else pure (.char '$' quoted)
      | none => pure (.char '$' quoted)

/-- A parameter between braces. -/
def readBraces (fuel : Nat) (quoted : Bool) : Reading Part := do
  match fuel with
  | 0 => reject "word too long"
  | fuel + 1 =>
      let bad : Reading Part := do
        let _ ← readParts fuel (.braces quoted) []
        pure (.parameter [] .bad quoted)
      match (← get).rest with
      | '#' :: c :: d :: _ =>
          if isNameStart c ∨ c.isDigit ∨ (isSpecial c ∧ d = '}') then do
            skip
            let name ←
              if isNameStart c then takeWhile isNameChar
              else if c.isDigit then takeWhile Char.isDigit
              else do
                skip
                pure [c]
            if (← peek?) = some '}' then
              skip
              pure (.parameter name .length quoted)
            else bad
          else do
            skip
            readUsage fuel quoted ['#']
      | c :: _ =>
          if isNameStart c then do
            let name ← takeWhile isNameChar
            readUsage fuel quoted name
          else if c.isDigit then do
            let name ← takeWhile Char.isDigit
            readUsage fuel quoted name
          else if isSpecial c then do
            skip
            readUsage fuel quoted [c]
          else bad
      | [] => bad

/-- How a parameter between braces is used, and the end of the braces. -/
def readUsage (fuel : Nat) (quoted : Bool) (name : Bytes) : Reading Part := do
  match fuel with
  | 0 => reject "word too long"
  | fuel + 1 =>
      let resort? (c : Char) : Option Resort :=
        [('-', Resort.replace), ('=', .assign), ('?', .fail), ('+', .invert)].lookup c
      let bad : Reading Part := do
        let _ ← readParts fuel (.braces quoted) []
        pure (.parameter name .bad quoted)
      match (← get).rest with
      | '}' :: _ => do
          skip
          pure (.parameter name .value quoted)
      | ':' :: c :: _ =>
          match resort? c with
          | some resort => do
              skip
              skip
              let word ← readParts fuel (.braces quoted) []
              pure (.parameter name (.resort resort true word) quoted)
          | none => bad
      | c :: rest =>
          match resort? c with
          | some resort => do
              skip
              let word ← readParts fuel (.braces quoted) []
              pure (.parameter name (.resort resort false word) quoted)
          | none =>
              if c = '%' ∨ c = '#' then do
                let longest := rest.head? = some c
                skip
                if longest then skip
                let pattern ← readParts fuel (.braces false) []
                pure (.parameter name (.trim (c = '%') longest pattern) quoted)
              else bad
      | [] => bad

/-- The script between backquotes. -/
def readBackquoted (fuel : Nat) (quoted : Bool) : Reading Part := do
  match fuel with
  | 0 => reject "word too long"
  | fuel + 1 =>
      let r ← get
      match backquoted quoted r.rest with
      | none => reject "EOF in backquote substitution"
      | some (text, rest) => do
          set { r with rest := text, ahead := none, awaited := [] }
          let script ← readList fuel true []
          match ← readToken fuel with
          | .stop => do
              modify fun after => { after with rest := rest, awaited := r.awaited, ahead := none }
              pure (.output script quoted)
          | t => unexpected t.describe none

/-- The texts that are awaited behind the line. -/
def readDocuments (fuel : Nat) : Reading Unit := do
  match fuel with
  | 0 => reject "text too long"
  | fuel + 1 =>
      let r ← get
      match r.awaited with
      | [] => pure ()
      | a :: others => do
          let (lines, rest) := documentLines a (r.rest.length + 1) r.rest
          let text := lines.flatten
          let line := r.line + (r.rest.take (r.rest.length - rest.length)).count '\n'
          let word : Word ←
            if a.verbatim then pure (text.map fun c => .char c true)
            else do
              set { r with rest := text, ahead := none, awaited := [] }
              readParts fuel .document []
          modify fun after =>
            { after with
              rest := rest, line := line, awaited := others, ahead := r.ahead
              documents := after.documents.setIfInBounds a.number word }
          readDocuments fuel

/-- The next token. -/
def readToken (fuel : Nat) : Reading Token := do
  match fuel with
  | 0 => reject "script too long"
  | fuel + 1 =>
      let r ← get
      match r.ahead with
      | some t => do
          set { r with ahead := none }
          pure t
      | none => do
          skipBlanks (r.rest.length + 1)
          match ← peek? with
          | none => do
              readDocuments fuel
              pure .stop
          | some c => do
              if c = '<' ∨ c = '>' then
                skip
                arrowFrom none c
              else if endsWord c then
                skip
                let sign := (← signFrom c).getD ""
                if sign = "\n" then readDocuments fuel
                pure (.sign sign)
              else
                let w ← readParts fuel .nothing []
                match ← peek?, streamOf? w with
                | some '<', some stream => do
                    skip
                    arrowFrom (some stream) '<'
                | some '>', some stream => do
                    skip
                    arrowFrom (some stream) '>'
                | _, _ => pure (.word w)

/-- Passes over ends of lines and gives the next token. -/
def readPastLines (fuel : Nat) : Reading Token := do
  match fuel with
  | 0 => reject "script too long"
  | fuel + 1 =>
      match ← readToken fuel with
      | .sign "\n" => readPastLines fuel
      | t => pure t

/-- The target of a redirection. -/
def readTarget (fuel stream : Nat) (direction : Direction) (untabbed : Bool) :
    Reading Redirection := do
  match fuel with
  | 0 => reject "script too long"
  | fuel + 1 =>
      match ← readToken fuel with
      | .word w =>
          if direction = .document then do
            let r ← get
            let number := r.documents.size
            let awaited : Awaited :=
              { delimiter := spelledWord w, verbatim := (plainWord? w).isNone, untabbed, number }
            set { r with documents := r.documents.push [], awaited := r.awaited ++ [awaited] }
            pure (.to stream direction ((Bytes.ofNat number).map fun c => .char c true))
          else pure (.to stream direction w)
      | t => unexpected t.describe none

/-- A row of commands up to a token that ends it. -/
def readList (fuel : Nat) (mayBeEmpty : Bool) (before : List Command) :
    Reading (List Command) := do
  match fuel with
  | 0 => reject "script too long"
  | fuel + 1 =>
      let t ← readPastLines fuel
      putBack t
      let isStop := match t with
        | .stop => true
        | _ => false
      if t.isEnd && (mayBeEmpty || isStop || !before.isEmpty) then pure before.reverse
      else
        let command ← readAndOr fuel
        match ← readToken fuel with
        | .sign "&" => readList fuel mayBeEmpty (.background command :: before)
        | .sign ";" | .sign "\n" => readList fuel mayBeEmpty (command :: before)
        | t => do
            putBack t
            pure (command :: before).reverse

/-- Pipelines that are joined by conditions. -/
def readAndOr (fuel : Nat) : Reading Command := do
  match fuel with
  | 0 => reject "script too long"
  | fuel + 1 =>
      let first ← readPipeline fuel
      readAndOrFrom fuel first

/-- What is joined to a pipeline by conditions. -/
def readAndOrFrom (fuel : Nat) (first : Command) : Reading Command := do
  match fuel with
  | 0 => reject "script too long"
  | fuel + 1 =>
      match ← readToken fuel with
      | .sign "&&" => do
          putBack (← readPastLines fuel)
          let second ← readPipeline fuel
          readAndOrFrom fuel (.conjunction first second)
      | .sign "||" => do
          putBack (← readPastLines fuel)
          let second ← readPipeline fuel
          readAndOrFrom fuel (.disjunction first second)
      | t => do
          putBack t
          pure first

/-- Commands that feed one another. -/
def readPipeline (fuel : Nat) : Reading Command := do
  match fuel with
  | 0 => reject "script too long"
  | fuel + 1 =>
      let t ← readToken fuel
      let negated := t.keyword? = some "!"
      if !negated then putBack t
      let first ← readCommand fuel
      let others ← readPipelineFrom fuel []
      let whole := if others.isEmpty then first else .pipeline (first :: others)
      pure (if negated then .negation whole else whole)

/-- The commands that are fed by the first one. -/
def readPipelineFrom (fuel : Nat) (before : List Command) : Reading (List Command) := do
  match fuel with
  | 0 => reject "script too long"
  | fuel + 1 =>
      match ← readToken fuel with
      | .sign "|" => do
          putBack (← readPastLines fuel)
          let command ← readCommand fuel
          readPipelineFrom fuel (command :: before)
      | t => do
          putBack t
          pure before.reverse

/-- A word of the shell that has to stand next. -/
def readKeyword (fuel : Nat) (keyword : String) : Reading Unit := do
  match fuel with
  | 0 => reject "script too long"
  | fuel + 1 =>
      let t ← readToken fuel
      if t.keyword? = some keyword then pure ()
      else unexpected t.describe (some ("\"" ++ keyword ++ "\""))

/-- A command. -/
def readCommand (fuel : Nat) : Reading Command := do
  match fuel with
  | 0 => reject "script too long"
  | fuel + 1 =>
      let r ← get
      let t ← readToken fuel
      let line := (← get).line
      let nickname? : Option (Bytes × Bytes) :=
        match t with
        | .word w => do
            let name ← plainWord? w
            if r.replaced.contains name then none
            else (r.aliases.lookup name).map fun value => (name, value)
        | _ => none
      let compound (command : Command) : Reading Command := do
        let redirections ← readRedirections fuel []
        pure (if redirections.isEmpty then command else .redirected line command redirections)
      match nickname? with
      | some (name, value) => do
          modify fun r => { r with rest := value ++ r.rest, replaced := name :: r.replaced }
          readCommand fuel
      | none =>
      match t.keyword?, t with
      | some "if", _ => do
          let branch ← readBranch fuel
          compound branch
      | some "while", _ | some "until", _ => do
          let test ← readList fuel false []
          readKeyword fuel "do"
          let body ← readList fuel false []
          readKeyword fuel "done"
          compound (.loop (t.keyword? = some "while") test body)
      | some "for", _ => do
          let each ← readEach fuel line
          compound each
      | some "case", _ => do
          match ← readToken fuel with
          | .word subject => do
              let t ← readPastLines fuel
              if t.keyword? = some "in" then
                let cases ← readCases fuel []
                compound (.choice line subject cases)
              else unexpected t.describe (some "\"in\"")
          | t => unexpected t.describe (some "word")
      | some "\x7b", _ => do
          let body ← readList fuel false []
          readKeyword fuel "\x7d"
          compound (.group body)
      | some keyword, _ => unexpected ("\"" ++ keyword ++ "\"") none
      | none, .sign "(" => do
          let body ← readList fuel false []
          match ← readToken fuel with
          | .sign ")" => compound (.subshell body)
          | t => unexpected t.describe (some "\")\"")
      | none, .word _ | none, .arrow _ _ _ => do
          putBack t
          readSimple fuel line [] []
      | none, t => unexpected t.describe none

/-- What follows `if` or `elif`. -/
def readBranch (fuel : Nat) : Reading Command := do
  match fuel with
  | 0 => reject "script too long"
  | fuel + 1 =>
      let test ← readList fuel false []
      readKeyword fuel "then"
      let yes ← readList fuel false []
      let t ← readToken fuel
      match t.keyword? with
      | some "elif" => do
          let other ← readBranch fuel
          pure (.branch test yes [other])
      | some "else" => do
          let no ← readList fuel false []
          readKeyword fuel "fi"
          pure (.branch test yes no)
      | some "fi" => pure (.branch test yes [])
      | _ => unexpected t.describe (some "\"fi\"")

/-- What follows `for`. -/
def readEach (fuel line : Nat) : Reading Command := do
  match fuel with
  | 0 => reject "script too long"
  | fuel + 1 =>
      match ← readToken fuel with
      | .word w =>
          match plainWord? w with
          | none => reject "Bad for loop variable"
          | some name => do
              if !isName name then reject "Bad for loop variable"
              else
                let t ← readPastLines fuel
                let words ←
                  if t.keyword? = some "in" then readWords fuel []
                  else do
                    match t with
                    | .sign ";" => pure ()
                    | t => putBack t
                    pure [[Part.quote, .parameter ['@'] .value true]]
                let t ← readPastLines fuel
                if t.keyword? = some "do" then
                  let body ← readList fuel false []
                  readKeyword fuel "done"
                  pure (.each line name words body)
                else unexpected t.describe (some "\"do\"")
      | _ => reject "Bad for loop variable"

/-- Words up to the end of the line. -/
def readWords (fuel : Nat) (before : List Word) : Reading (List Word) := do
  match fuel with
  | 0 => reject "script too long"
  | fuel + 1 =>
      match ← readToken fuel with
      | .word w => readWords fuel (w :: before)
      | .sign ";" | .sign "\n" => pure before.reverse
      | t => unexpected t.describe none

/-- The cases of a choice, with its end. -/
def readCases (fuel : Nat) (before : List Case) : Reading (List Case) := do
  match fuel with
  | 0 => reject "script too long"
  | fuel + 1 =>
      let t ← readPastLines fuel
      if t.keyword? = some "esac" then pure before.reverse
      else
        match t with
        | .sign "(" => pure ()
        | t => putBack t
        let patterns ← readPatterns fuel []
        let body ← readList fuel true []
        let t ← readPastLines fuel
        if t.keyword? = some "esac" then pure (.fits patterns body :: before).reverse
        else
          match t with
          | .sign ";;" => readCases fuel (.fits patterns body :: before)
          | t => unexpected t.describe (some "\";;\"")

/-- Patterns up to a closing parenthesis. -/
def readPatterns (fuel : Nat) (before : List Word) : Reading (List Word) := do
  match fuel with
  | 0 => reject "script too long"
  | fuel + 1 =>
      match ← readToken fuel with
      | .word w => do
          match ← readToken fuel with
          | .sign "|" => readPatterns fuel (w :: before)
          | .sign ")" => pure (w :: before).reverse
          | t => unexpected t.describe (some "\")\"")
      | t => unexpected t.describe (some "\")\"")

/-- The redirections behind a command. -/
def readRedirections (fuel : Nat) (before : List Redirection) : Reading (List Redirection) := do
  match fuel with
  | 0 => reject "script too long"
  | fuel + 1 =>
      match ← readToken fuel with
      | .arrow stream direction untabbed => do
          let redirection ← readTarget fuel stream direction untabbed
          readRedirections fuel (redirection :: before)
      | t => do
          putBack t
          pure before.reverse

/-- The words and redirections of a simple command, or the definition of a command. -/
def readSimple (fuel line : Nat) (words : List Word) (redirections : List Redirection) :
    Reading Command := do
  match fuel with
  | 0 => reject "script too long"
  | fuel + 1 =>
      match ← readToken fuel with
      | .word w => readSimple fuel line (w :: words) redirections
      | .arrow stream direction untabbed => do
          let redirection ← readTarget fuel stream direction untabbed
          readSimple fuel line words (redirection :: redirections)
      | .sign "(" =>
          match words, redirections with
          | [w], [] =>
              if (assignment? w).isSome then unexpected "\"(\"" none
              else do
                match ← readToken fuel with
                | .sign ")" => do
                    let name := (plainWord? w).getD []
                    if !isName name || specialNames.contains name.name then
                      reject "Bad function name"
                    else
                      putBack (← readPastLines fuel)
                      let body ← readCommand fuel
                      pure (.definition name body)
                | .word _ => unexpected "word" (some "\")\"")
                | t => unexpected t.describe (some "\")\"")
          | _, _ => unexpected "\"(\"" none
      | t => do
          putBack t
          modify fun r => { r with replaced := [] }
          pure (.simple line words.reverse redirections.reverse)
end

/-- The commands of a line that begins with the given ones. -/
def readLineFrom (fuel : Nat) (before : List Command) : Reading (List Command) := do
  match fuel with
  | 0 => reject "script too long"
  | fuel + 1 =>
      match ← readToken fuel with
      | .sign "\n" => pure before.reverse
      | .stop => do
          putBack .stop
          pure before.reverse
      | t => do
          putBack t
          let command ← readAndOr fuel
          match ← readToken fuel with
          | .sign "&" => readLineFrom fuel (.background command :: before)
          | .sign ";" => readLineFrom fuel (command :: before)
          | .sign "\n" => pure (command :: before).reverse
          | .stop => do
              putBack .stop
              pure (command :: before).reverse
          | t => unexpected t.describe none

/-- How far and how deep a script of a length is read. -/
def readingFuel (length : Nat) : Nat := 16 * length + 1000

/-- The commands of the next line, unless the script has ended. -/
def readLine (r : Reader) : Except Complaint (Option (List Command × Reader)) := do
  let fuel := readingFuel r.rest.length
  let (t, r) ← (readToken fuel).run r
  match t with
  | .stop => .ok none
  | t => do
      let (commands, r) ← (readLineFrom fuel []).run { r with ahead := some t }
      .ok (some (commands, r))

end Slidecast.Machine.Shell
