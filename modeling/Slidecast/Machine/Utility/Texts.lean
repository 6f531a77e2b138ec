import Slidecast.Machine.Printf
import Slidecast.Machine.Utility.Work

/-!
# Utilities for texts

These utilities read texts from files or from their input and write what they make of them.
-/

set_option autoImplicit false

namespace Slidecast.Machine

open Files

/-- The lines of a text without their ends; an end behind the last line begins no other one. -/
def linesOf (text : Bytes) : List Bytes :=
  let rows := text.splitAt '\n'
  if rows.getLast? = some [] then rows.dropLast else rows

/-- Lines, each with its end. -/
def unlines (lines : List Bytes) : Bytes := (lines.map fun line => line ++ ['\n']).flatten

/-- The lines of a supply, for a utility that needs all of them. -/
def allLines (w : Work) (files : List Bytes) (complaint : Bytes → Fault → Bytes) (status : Nat) :
    List Bytes × Work :=
  let (supply, w) := w.readAll files complaint status
  (linesOf supply.bytes, if supply.isEndless then { w with endless := true } else w)

/-! ## Whole texts -/

/-- A byte as it is shown. -/
def shownByte (ends tabs controls : Bool) (c : Char) : Bytes :=
  if c = '\n' then (if ends then ['$', '\n'] else ['\n'])
  else if c = '\t' then (if tabs then ['^', 'I'] else ['\t'])
  else if !controls then [c]
  else
    let (front, n) : Bytes × Nat :=
      if 128 ≤ c.toNat then (['M', '-'], c.toNat - 128) else ([], c.toNat)
    front ++ (if n < 32 then ['^', Char.ofNat (n + 64)]
      else if n = 127 then ['^', '?'] else [Char.ofNat n])

/-- A number at the right of a field. -/
def rightAligned (width : Nat) (n : Nat) : Bytes :=
  let digits := Bytes.ofNat n
  List.replicate (width - digits.length) ' ' ++ digits

/-- Lines with numbers in front of them. -/
def numberedLines (skipsEmpty : Bool) (text : Bytes) : Bytes :=
  let complete := text.getLast? = some '\n'
  let step (state : Nat × List Bytes) (line : Bytes) : Nat × List Bytes :=
    let (n, done) := state
    if skipsEmpty && line.isEmpty then (n, line :: done)
    else (n + 1, (rightAligned 6 n ++ '\t' :: line) :: done)
  let (_, done) := (linesOf text).foldl step (1, [])
  let whole := unlines done.reverse
  if complete then whole else whole.dropLast

/-- Writes files one after the other. -/
def cat : Program := utility "nbEeTtAvsu" 1 false fun g w =>
  let (supply, w) := w.readAll g.others aboutFile 1
  let supply :=
    if g.has 'n' || g.has 'b' then { supply with bytes := numberedLines (g.has 'b') supply.bytes }
    else supply
  let ends := g.has 'E' || g.has 'e' || g.has 'A'
  let tabs := g.has 'T' || g.has 't' || g.has 'A'
  let controls := g.has 'v' || g.has 'e' || g.has 't' || g.has 'A'
  if ends || tabs || controls then
    let show_ (bytes : Bytes) : Bytes := bytes.flatMap (shownByte ends tabs controls)
    w.outSupply { bytes := show_ supply.bytes, cycle := show_ supply.cycle }
  else w.outSupply supply

/-- Writes its input to its output and to files. -/
def tee : Program := utility "ai" 1 false fun g w =>
  let (supply, w) := w.readInput
  let w := g.others.foldl
    (fun w file =>
      if file = "/dev/stderr".toList then { w with written := (.err, supply.bytes) :: w.written }
      else if file = "/dev/stdout".toList then w.out supply.bytes
      else
        let old : Bytes :=
          if g.has 'a' then ((fileSupply w.disk (pathOf file)).toOption.getD {}).bytes else []
        match w.disk.write (pathOf file) (.bytes (old ++ supply.bytes).octets) with
        | .ok disk => { w with disk }
        | .error fault => w.fail (aboutFile file fault) 1)
    w
  w.outSupply supply

/-- Writes the lines of files in the opposite order. -/
def tac : Program := utility "" 1 false fun g w =>
  let complaint (file : Bytes) (fault : Fault) : Bytes :=
    "failed to open ".toList ++ inMarks file ++ " for reading: ".toList ++
      (faultWords fault).toList
  let (lines, w) := allLines w g.others complaint 1
  w.out (unlines lines.reverse)

/-- Writes each line from its end. -/
def rev : Program := utility "" 1 false fun g w =>
  let complaint (file : Bytes) (fault : Fault) : Bytes :=
    "cannot open ".toList ++ file ++ ": ".toList ++ (faultWords fault).toList
  let (supply, w) := w.readAll g.others complaint 1
  let complete := supply.bytes.getLast? = some '\n'
  let whole := unlines ((linesOf supply.bytes).map List.reverse)
  w.outSupply { supply with bytes := if complete then whole else whole.dropLast }

/-! ## Parts of texts -/

/-- A number with a letter for a thousand or more behind it. -/
def countOf? (text : Bytes) : Option Nat :=
  let digits := text.takeWhile Char.isDigit
  let unit? : Option Nat :=
    [ ("", 1), ("b", 512), ("k", 1024), ("K", 1024), ("kB", 1000), ("M", 1048576),
      ("MB", 1000000), ("G", 1073741824) ].lookup (Bytes.name (text.drop digits.length))
  match Bytes.nat? digits, unit? with
  | some n, some unit => some (n * unit)
  | _, _ => none

/-- How much of a text is wanted. -/
structure Portion where
  count : Nat
  ofBytes : Bool
  /-- Counted from the other end. -/
  fromOther : Bool

/-- The first bytes or lines of a supply, and what is left of it. -/
def firstOf (p : Portion) (supply : Supply) : Bytes × Supply :=
  if p.fromOther then
    if p.ofBytes then (supply.bytes.take (supply.bytes.length - p.count), {})
    else
      let rows := linesOf supply.bytes
      ((supply.splitLines (rows.length - p.count)).1, {})
  else if p.ofBytes then supply.splitAt p.count
  else supply.splitLines p.count

/-- The last bytes or lines of a text. -/
def lastOf (p : Portion) (bytes : Bytes) : Bytes :=
  if p.fromOther then
    if p.ofBytes then bytes.drop (p.count - 1)
    else ((Supply.mk bytes []).splitLines (p.count - 1)).2.bytes
  else if p.ofBytes then bytes.drop (bytes.length - p.count)
  else ((Supply.mk bytes []).splitLines ((linesOf bytes).length - p.count)).2.bytes

/-- Old spellings of a number of lines. -/
def oldCount (signs : List Char) (arguments : List Bytes) : List Bytes :=
  match arguments with
  | (sign :: c :: cs) :: rest =>
      if signs.contains sign && (c :: cs).all Char.isDigit then
        "-n".toList :: (if sign = '+' then '+' :: c :: cs else c :: cs) :: rest
      else arguments
  | arguments => arguments

/-- The portion that options ask for, or what is wrong with them. -/
def portionOf (g : Given) (otherSign : Char) : Except Bytes Portion :=
  let (ofBytes, text) : Bool × Bytes :=
    match g.value? 'c', g.value? 'n' with
    | some text, _ => (true, text)
    | none, some text => (false, text)
    | none, none => (false, "10".toList)
  let fromOther := text.head? = some otherSign
  let digits := if fromOther || text.head? = some '+' || text.head? = some '-' then text.tail else text
  match countOf? digits with
  | some count => .ok { count, ofBytes, fromOther }
  | none =>
      .error (("invalid number of " ++ (if ofBytes then "bytes" else "lines") ++ ": ").toList ++
        inMarks text)

/-- Writes a part of each file, with the name of the file in front if there are several. -/
def parts (g : Given) (w : Work) (files : List Bytes) (part : Supply → Bytes × Supply) : Work :=
  let named := (1 < files.length && !g.has 'q') || g.has 'v'
  let (_, w) := files.foldl
    (fun (isFirst, w) file =>
      match w.readFile file with
      | (.error fault, w) =>
          let words :=
            if fault = .isDirectory then "error reading ".toList ++ inMarks file ++ ": ".toList
            else "cannot open ".toList ++ inMarks file ++ " for reading: ".toList
          (isFirst, w.fail (words ++ (faultWords fault).toList) 1)
      | (.ok supply, w) =>
          let title := if isInput file then "standard input".toList else file
          let header :=
            if named then
              (if isFirst then [] else ['\n']) ++ "==> ".toList ++ title ++ " <==\n".toList
            else []
          let (bytes, left) := part supply
          let w := if isInput file then { w with input := left } else w
          (false, w.out (header ++ bytes)))
    (true, w)
  w
where
  isInput (file : Bytes) : Bool := Work.isInput file

/-- Writes the beginnings of files. -/
def head : Program := fun start disk =>
  let start := { start with arguments := oldCount ['-'] start.arguments }
  utility "n:c:qvz" 1 false
    (fun g w =>
      match portionOf g '-' with
      | .error words => w.fail words 1
      | .ok p => parts g w (if g.others.isEmpty then [['-']] else g.others) (firstOf p))
    start disk

/-- Writes the ends of files. -/
def tail : Program := fun start disk =>
  let start := { start with arguments := oldCount ['-', '+'] start.arguments }
  utility "n:c:qvf" 1 false
    (fun g w =>
      match portionOf g '+' with
      | .error words => w.fail words 1
      | .ok p =>
          let endless := w.input.isEndless && g.others.isEmpty
          let w := parts g w (if g.others.isEmpty then [['-']] else g.others)
            fun supply => (lastOf p supply.bytes, {})
          if endless then { w with endless := true } else w)
    start disk

/-! ## Counting -/

/-- The words of a text. -/
def wordCount (text : Bytes) : Nat :=
  (text.foldl
    (fun (state : Nat × Bool) c =>
      if isSpace c then (state.1, false)
      else (if state.2 then state.1 else state.1 + 1, true))
    (0, false)).1

/-- What is counted in a text: lines, words, characters and bytes, and the longest line. -/
def countsOf (g : Given) (text : Bytes) : List Nat :=
  let all := !(g.has 'l' || g.has 'w' || g.has 'c' || g.has 'm' || g.has 'L')
  (if all || g.has 'l' then [text.count '\n'] else []) ++
    (if all || g.has 'w' then [wordCount text] else []) ++
    (if g.has 'm' then [(text.filter fun c => c.toNat < 128 || 192 ≤ c.toNat).length] else []) ++
    (if all || g.has 'c' then [text.length] else []) ++
    (if g.has 'L' then [((linesOf text).map List.length).foldl max 0] else [])

/-- Counts lines, words and bytes. -/
def wc : Program := utility "lwcmL" 1 false fun g w =>
  let files := if g.others.isEmpty then [['-']] else g.others
  let step (state : List (List Nat × Bytes) × List (Except Bytes (List Nat × Bytes)) × Work)
      (file : Bytes) : List (List Nat × Bytes) × List (Except Bytes (List Nat × Bytes)) × Work :=
    let (found, rows, w) := state
    match w.readFile file with
    | (.error fault, w) => (found, .error (aboutFile file fault) :: rows, w)
    | (.ok supply, w) =>
        let w := if supply.isEndless then { w with endless := true } else w
        let row := (countsOf g supply.bytes, if g.others.isEmpty then [] else file)
        (row :: found, .ok row :: rows, w)
  let (found, rows, w) := files.foldl step ([], [], w)
  let sums : List Nat :=
    found.foldl (fun sums row => if sums.isEmpty then row.1 else sums.zipWith (· + ·) row.1) []
  let rows := if 1 < files.length then .ok (sums, "total".toList) :: rows else rows
  let single := files.length ≤ 1 && sums.length ≤ 1
  let widest := ((sums.map fun n => (toString n).length).foldl max 1)
  let width := if single then 1 else if g.others.isEmpty then 7 else widest
  let line (row : List Nat × Bytes) : Bytes :=
    let numbers := Bytes.joined [' '] (row.1.map (rightAligned width))
    (if row.2.isEmpty then numbers else numbers ++ ' ' :: row.2) ++ ['\n']
  rows.reverse.foldl
    (fun w row =>
      match row with
      | .ok row => w.out (line row)
      | .error words => w.fail words 1)
    w

/-! ## Single bytes -/

/-- The bytes that a set of `tr` lists. -/
def listedBytes : Nat → Bytes → Bytes
  | 0, _ | _, [] => []
  | more + 1, '\\' :: rest =>
      match escapeBehind .template rest with
      | (some c, rest) => c :: listedBytes more rest
      | (none, c :: rest) => c :: listedBytes more rest
      | (none, []) => ['\\']
  | more + 1, '[' :: ':' :: rest =>
      let name := rest.takeWhile Char.isAlpha
      match classBytes.lookup (Bytes.name name), rest.drop name.length with
      | some bytes, ':' :: ']' :: rest => bytes ++ listedBytes more rest
      | _, _ => '[' :: listedBytes more (':' :: rest)
  | more + 1, low :: '-' :: high :: rest =>
      if high = '\\' then low :: listedBytes more ('-' :: high :: rest)
      else
        (List.range (high.toNat + 1 - low.toNat)).map (fun n => Char.ofNat (low.toNat + n)) ++
          listedBytes more rest
  | more + 1, c :: rest => c :: listedBytes more rest
where
  range (low high : Char) : Bytes :=
    (List.range (high.toNat + 1 - low.toNat)).map fun n => Char.ofNat (low.toNat + n)
  classBytes : List (String × Bytes) :=
    [ ("lower", range 'a' 'z'), ("upper", range 'A' 'Z'), ("digit", range '0' '9'),
      ("alpha", range 'A' 'Z' ++ range 'a' 'z'),
      ("alnum", range '0' '9' ++ range 'A' 'Z' ++ range 'a' 'z'),
      ("space", range '\t' '\r' ++ [' ']), ("blank", ['\t', ' ']),
      ("punct", range '!' '/' ++ range ':' '@' ++ range '[' '`' ++ range '\x7b' '~'),
      ("cntrl", range (Char.ofNat 0) (Char.ofNat 31) ++ [Char.ofNat 127]),
      ("print", range ' ' '~'), ("graph", range '!' '~'),
      ("xdigit", range '0' '9' ++ range 'A' 'F' ++ range 'a' 'f') ]

/-- Repeats of bytes from a set taken away. -/
def squeezed (set : Bytes) (text : Bytes) : Bytes :=
  (text.foldl
    (fun (done : Bytes) c =>
      if set.contains c && done.head? = some c then done else c :: done)
    []).reverse

/-- Replaces or removes bytes. -/
def tr : Program := utility "cCdst" 1 true fun g w =>
  let misused (words : String) (argument : Bytes) : Work :=
    w.misuse (words.toList ++ argument) 1
  let needed := if g.has 'd' && !g.has 's' then 1 else if g.has 's' then 1 else 2
  match g.others with
  | [] => misused "missing operand" []
  | first :: rest =>
      if g.others.length < needed then
        let w := w.note ("missing operand after ".toList ++ inMarks first)
        let line := "Two strings must be given when translating.\n".toList
        let w := { w with written := (.err, line) :: w.written }
        let hint := "Try '".toList ++ w.name ++ " --help' for more information.\n".toList
        { w with written := (.err, hint) :: w.written, status := 1 }
      else
        let set := listedBytes first.length first
        let set :=
          if g.has 'c' || g.has 'C' then
            ((List.range 256).map Char.ofNat).filter fun c => !set.contains c
          else set
        let second := (rest.head?.map fun text => listedBytes text.length text).getD []
        let (supply, w) := w.readInput
        let change (text : Bytes) : Bytes :=
          if g.has 'd' then
            let kept := text.filter fun c => !set.contains c
            if g.has 's' then squeezed second kept else kept
          else if second.isEmpty then (if g.has 's' then squeezed set text else text)
          else
            let last := second.getLast?.getD ' '
            let padded := second ++ List.replicate (set.length - second.length) last
            let table := (List.range 256).toArray.map fun n =>
              let c := Char.ofNat n
              ((set.zip padded).reverse.lookup c).getD c
            let changed := text.map fun c => (table[c.toNat]?).getD c
            if g.has 's' then squeezed second changed else changed
        w.outSupply { bytes := change supply.bytes, cycle := change supply.cycle }

/-! ## Lines -/

/-- Whether one row of bytes stands in front of another one, or at the same place. -/
def isSorted : Bytes → Bytes → Bool
  | [], _ => true
  | _ :: _, [] => false
  | a :: as, b :: bs => a < b || (a = b && isSorted as bs)

/-- The number in front of a line, in thousandths. -/
def leadingNumber (line : Bytes) : Int :=
  let (negative, cs) := signInFront (line.dropWhile fun c => c = ' ' || c = '\t')
  let whole := cs.takeWhile Char.isDigit
  let fraction :=
    match cs.drop whole.length with
    | '.' :: rest => (rest.takeWhile Char.isDigit).take 3
    | _ => []
  let digits := whole ++ fraction ++ List.replicate (3 - fraction.length) '0'
  let n : Int := (Bytes.nat? digits).getD 0
  if negative then -n else n

/-- Sorts lines. -/
def sort : Program := utility "nruk:t:fbsz" 2 false fun g w =>
  let complaint (file : Bytes) (fault : Fault) : Bytes :=
    if fault = .isDirectory then "read failed: ".toList ++ aboutFile file fault
    else "cannot read: ".toList ++ aboutFile file fault
  let (lines, w) := allLines w g.others complaint 2
  if w.status ≠ 0 then w
  else
    let fold (line : Bytes) : Bytes := if g.has 'f' then line.map Char.toUpper else line
    let before (a b : Bytes) : Bool :=
      let (a, b) := if g.has 'r' then (b, a) else (a, b)
      if g.has 'n' then
        let m := leadingNumber a
        let n := leadingNumber b
        m < n || (m = n && (g.has 'u' || isSorted a b))
      else isSorted (fold a) (fold b)
    let sorted := lines.mergeSort before
    let kept :=
      if g.has 'u' then
        (sorted.foldl
          (fun (done : List Bytes) line =>
            match done with
            | last :: _ =>
                if (if g.has 'n' then leadingNumber last = leadingNumber line
                  else fold last = fold line) then done
                else line :: done
            | [] => [line])
          []).reverse
      else sorted
    w.out (unlines kept)

/-- Rows of equal lines, each with how many there are. -/
def runsOf (same : Bytes → Bytes → Bool) (lines : List Bytes) : List (Nat × Bytes) :=
  (lines.foldl
    (fun (done : List (Nat × Bytes)) line =>
      match done with
      | (n, last) :: rest => if same last line then (n + 1, last) :: rest else (1, line) :: done
      | [] => [(1, line)])
    []).reverse

/-- Leaves out lines that repeat the one before. -/
def uniq : Program := utility "cdui" 1 false fun g w =>
  let (lines, w) := allLines w (g.others.take 1) aboutFile 1
  let fold (line : Bytes) : Bytes := if g.has 'i' then line.map Char.toUpper else line
  let runs := runsOf (fun a b => fold a = fold b) lines
  let kept := runs.filter fun run =>
    (!g.has 'd' || 1 < run.1) && (!g.has 'u' || run.1 = 1)
  w.out (unlines (kept.map fun run =>
    if g.has 'c' then rightAligned 7 run.1 ++ ' ' :: run.2 else run.2))

/-- The ranges of a list such as `1,3-5,7-`. -/
def rangesOf? (text : Bytes) : Option (List (Nat × Option Nat)) :=
  (text.splitAt ',').mapM fun piece =>
    match piece.splitAt '-' with
    | [n] => (Bytes.nat? n).bind fun n => if n = 0 then none else some (n, some n)
    | [low, []] => (Bytes.nat? low).map fun n => (n, none)
    | [[], high] => (Bytes.nat? high).map fun n => (1, some n)
    | [low, high] =>
        match Bytes.nat? low, Bytes.nat? high with
        | some m, some n => some (m, some n)
        | _, _ => none
    | _ => none

/-- The members of a list at wanted places. -/
def selected {α : Type} (ranges : List (Nat × Option Nat)) (row : List α) : List α :=
  (row.zipIdx.filter fun (_, n) =>
    ranges.any fun (low, high) => low ≤ n + 1 && (high.all fun h => n + 1 ≤ h)).map Prod.fst

/-- Writes selected parts of lines. -/
def cut : Program := utility "b:c:f:d:s" 1 false fun g w =>
  let (byFields, list) : Bool × Option Bytes :=
    match g.value? 'f' with
    | some list => (true, some list)
    | none => (false, (g.value? 'c').or (g.value? 'b'))
  match list with
  | none => w.misuse "you must specify a list of bytes, characters, or fields".toList 1
  | some list =>
      match rangesOf? list with
      | none => w.misuse (("invalid " ++ (if byFields then "field" else "byte or character") ++
          " value ").toList ++ inMarks list) 1
      | some ranges =>
          let separator := ((g.value? 'd').bind List.head?).getD '\t'
          let (lines, w) := allLines w g.others aboutFile 1
          w.out (unlines (lines.filterMap fun line =>
            if byFields then
              if line.contains separator then
                some (Bytes.joined [separator] (selected ranges (Bytes.splitAt separator line)))
              else if g.has 's' then none
              else some line
            else some (selected ranges line)))

/-! ## Texts from arguments -/

/-- Writes its arguments again and again. -/
def yes : Program := fun start disk =>
  let words := if start.arguments.isEmpty then [['y']] else start.arguments
  ({ cycle := Bytes.joined [' '] words ++ ['\n'], endless := true }, disk)

/-- Writes its arguments.  Options ask for escapes. -/
def echoProgram : Program := fun start disk =>
  let isOption (a : Bytes) : Bool :=
    match a with
    | '-' :: c :: cs => (c :: cs).all fun letter => "neE".toList.contains letter
    | _ => false
  let options := start.arguments.takeWhile isOption
  let rest := start.arguments.drop options.length
  let letters := options.flatMap List.tail
  let escapes := (letters.filter (· ≠ 'n')).getLast? = some 'e'
  let (written, isCut) :=
    if escapes then unescape (Bytes.joined [' '] rest) else (Bytes.joined [' '] rest, false)
  (say (if isCut || letters.contains 'n' then written else written ++ ['\n']), disk)

/-- Writes its arguments as a template asks. -/
def printfProgram : Program := fun start disk =>
  match start.arguments with
  | [] =>
      let w := (Work.begin start disk).misuse "missing operand".toList 1
      w.finish
  | template :: arguments =>
      let p := printed template arguments
      let complaints := (p.fault.toList ++ p.warnings).reverse.map fun words =>
        (Output.err, start.name ++ ": ".toList ++ words ++ ['\n'])
      ({ written := complaints ++ [(.out, p.out.reverse.flatten)]
         ending := .exited (if complaints.isEmpty then 0 else 1) }, disk)

/-- The numbers from one to another by a step. -/
def progression (first step last : Number.Double) (places : Nat) : List Bytes :=
  let a := first.toRat
  let d := step.toRat
  let z := last.toRat
  let count : Nat := if d = 0 then 0 else (((z - a) / d).floor + 1).toNat
  (List.range (min count 10000000)).map fun (n : Nat) =>
    let value := a + d * (n : Rat)
    let digits := Directive.placed false (if value < 0 then -value else value) places
    if value < 0 then '-' :: digits else digits

/-- How many places a number is written with behind its point. -/
def placesOf (text : Bytes) : Nat :=
  match (text.splitAt '.') with
  | [_, fraction] => (fraction.takeWhile Char.isDigit).length
  | _ => 0

/-- Writes the numbers of a progression. -/
def seq : Program := fun start disk =>
  let isNumber (a : Bytes) : Bool :=
    match realInFront? a with
    | some (_, rest) => rest.isEmpty
    | none => false
  let rec options : List Bytes → (List (Char × Bytes)) × List Bytes
    | ['-', 'w'] :: rest => let (o, r) := options rest; (('w', []) :: o, r)
    | ['-', 's'] :: value :: rest => let (o, r) := options rest; (('s', value) :: o, r)
    | ('-' :: 's' :: value) :: rest => let (o, r) := options rest; (('s', value) :: o, r)
    | rest => ([], rest)
  let (given, numbers) := options start.arguments
  let w := Work.begin start disk
  match numbers.find? fun a => !isNumber a with
  | some a => (w.misuse ("invalid floating point argument: ".toList ++ inMarks a) 1).finish
  | none =>
      let value (a : Bytes) : Number.Double := (realOf a).1
      let written (first step last : Bytes) : Work :=
        if (value step).isZero then
          w.misuse ("invalid Zero increment value: ".toList ++ inMarks step) 1
        else
          let places := max (placesOf first) (placesOf step)
          let rows := progression (value first) (value step) (value last) places
          let width := (rows.map List.length).foldl max 0
          let rows :=
            if (given.lookup 'w').isSome then
              rows.map fun row => List.replicate (width - row.length) '0' ++ row
            else rows
          let separator := (given.lookup 's').getD ['\n']
          if rows.isEmpty then w else w.out (Bytes.joined separator rows ++ ['\n'])
      match numbers with
      | [] => (w.misuse "missing operand".toList 1).finish
      | [last] => (written ['1'] ['1'] last).finish
      | [first, last] => (written first ['1'] last).finish
      | [first, step, last] => (written first step last).finish
      | _ :: _ :: _ :: extra :: _ =>
          (w.misuse ("extra operand ".toList ++ inMarks extra) 1).finish

/-- The utilities for texts. -/
def textUtilities : Shelf :=
  [ ("cat", cat), ("tee", tee), ("tac", tac), ("rev", rev), ("head", head), ("tail", tail),
    ("wc", wc), ("tr", tr), ("sort", sort), ("uniq", uniq), ("cut", cut), ("yes", yes),
    ("echo", echoProgram), ("printf", printfProgram), ("seq", seq) ]

end Slidecast.Machine
