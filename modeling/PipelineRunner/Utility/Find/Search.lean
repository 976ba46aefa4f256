import PipelineRunner.Utility.Batching
import PipelineRunner.Utility.Find.Expression

/-!
How `find` shows a file: by a format, or like a list of files does.
-/

namespace PipelineRunner.Utility.Find

open Host Text

/-- A file on the way of a search. -/
structure Visit where
  path : String
  /-- The argument at which the way began. -/
  start : String
  depth : Nat
  /-- The file itself, or what it leads to if links are followed. -/
  node : Nat
  /-- The directories above it on the way. -/
  above : List Nat := []
  deriving Repr

namespace Visit

def name (v : Visit) : String :=
  let bare := Path.dropSlashes v.path
  if bare.isEmpty then v.path else (Path.names bare).getLastD ""

/-- The path of the directory that the file is in. -/
def directory (v : Visit) : String :=
  match (Path.names (Path.dropSlashes v.path)).dropLast with
  | [] => "."
  | [""] => ""
  | names => Text.join "/" names

def own (v : Visit) (seen : Surroundings) : Nat :=
  (seen.files.find? seen.directory v.path false).getD v.node

/-- The node behind a link, if there is one. -/
def goal? (v : Visit) (seen : Surroundings) : Option Nat :=
  seen.files.find? seen.directory v.path true

end Visit

def letterOf (c : Content) : Char :=
  match c with
  | .directory .. => 'd'
  | .link _ => 'l'
  | .device _ => 'c'
  | .pipe => 'p'
  | .file _ | .program _ => 'f'

def fractionText (milliseconds : Int) : String :=
  "." ++ Text.padded 3 (Int.fmod milliseconds 1000).toNat ++ "0000000"

def timeText (modified : Int) (c : Char) : String :=
  let t := instantOf modified
  let fraction := fractionText modified
  match c with
  | '@' => toString t.seconds ++ fraction
  | '+' => Calendar.text t "%F+%T" ++ fraction
  | 'S' | 'T' => Calendar.text t ("%" ++ String.singleton c) ++ fraction
  | 'c' => Calendar.text t "%a %b %e %T" ++ fraction ++ Calendar.text t " %Y"
  | c => Calendar.text t ("%" ++ String.singleton c)

/-- What a letter of a format stands for; nothing, if it is unknown. -/
def fieldText (seen : Surroundings) (v : Visit) (c : Char) : Option String :=
  let t := seen.files
  let n := t.node v.node
  match c with
  | 'p' => some v.path
  | 'f' => some v.name
  | 'h' => some v.directory
  | 'H' => some v.start
  | 'P' =>
    some (String.ofList ((v.path.toList.drop v.start.length).dropWhile (· == '/')))
  | 's' => some (toString (sizeOf t v.node))
  | 'd' => some (toString v.depth)
  | 'y' => some (String.singleton (letterOf n.content))
  | 'Y' =>
    some (match v.goal? seen with
      | some i => String.singleton (letterOf (t.content i))
      | none => "N")
  | 'm' => some (String.ofList (Nat.toDigits 8 n.mode))
  | 'M' => some (modeLetters n)
  | 'l' =>
    some (match n.content with
      | .link target => target
      | _ => "")
  | 'i' => some (toString (v.node + 1000))
  | 'n' => some (toString (linkCount t v.node))
  | 'u' | 'g' => some "root"
  | 'U' | 'G' => some "0"
  | 'b' => some (toString (2 * roomOf t v.node))
  | 'k' => some (toString (roomOf t v.node))
  | 'D' => some "51"
  | 'F' => some "overlay"
  | 't' | 'c' | 'a' => some (timeText n.modified 'c')
  | '%' => some "%"
  | _ => none

/-- Fills a field up as the flags in front of it ask for. -/
def filled (flags : List Char) (width : Nat) (field : String) : String :=
  if flags.contains '-' then leftAligned width field
  else if flags.contains '0' then Bytes.fill '0' (width - field.length) ++ field
  else rightAligned width field

/-- What has been made of a format. -/
structure Shown where
  text : List String := []
  warnings : List String := []

namespace Shown

def add (s : Shown) (text : String) : Shown := { s with text := text :: s.text }

def warning (s : Shown) (text : String) : Shown := { s with warnings := text :: s.warnings }

end Shown

/-- What a format makes of a file. -/
def displayed (seen : Surroundings) (v : Visit) : Nat → Shown → List Char → Shown
  | 0, s, _ => s
  | _, s, [] => s
  | fuel + 1, s, '%' :: cs =>
    let flags := cs.takeWhile "-0+ #".toList.contains
    let digits := (cs.drop flags.length).takeWhile Char.isDigit
    let width := (Text.digits? digits).getD 0
    match cs.drop (flags.length + digits.length) with
    | [] => s
    | 'T' :: c :: rest | 'A' :: c :: rest | 'C' :: c :: rest =>
      let modified := (seen.files.node v.node).modified
      displayed seen v fuel (s.add (filled flags width (timeText modified c))) rest
    | c :: rest =>
      match fieldText seen v c with
      | some field => displayed seen v fuel (s.add (filled flags width field)) rest
      | none =>
        let directive := String.ofList ('%' :: (flags ++ digits ++ [c]))
        displayed seen v fuel ((s.add directive).warning
          ("warning: unrecognized format directive " ++ marked directive)) rest
  | fuel + 1, s, '\\' :: cs =>
    match cs with
    | [] => s.add "\\"
    | 'c' :: _ => s
    | c :: rest =>
      let octal := (cs.takeWhile fun c => '0' ≤ c && c ≤ '7').take 3
      if !octal.isEmpty then
        let n := octal.foldl (fun n c => n * 8 + (c.toNat - '0'.toNat)) 0
        let byte := String.singleton (Char.ofNat (n % 256))
        displayed seen v fuel (s.add byte) (cs.drop octal.length)
      else
        match Shell.Format.letter? c with
        | some b => displayed seen v fuel (s.add (String.singleton b)) rest
        | none =>
          let escape := String.ofList ['\\', c]
          displayed seen v fuel ((s.add escape).warning
            ("warning: unrecognized escape " ++ marked escape)) rest
  | fuel + 1, s, c :: cs => displayed seen v fuel (s.add (String.singleton c)) cs

def listLine (seen : Surroundings) (v : Visit) : String :=
  let t := seen.files
  let n := t.node v.node
  let goal := match n.content with
    | .link target => " -> " ++ target
    | _ => ""
  Text.join " " [rightAligned 9 (toString (v.node + 1000)),
    rightAligned 6 (toString (roomOf t v.node)), modeLetters n,
    rightAligned 3 (toString (linkCount t v.node)), leftAligned 8 "root",
    leftAligned 8 "root", rightAligned 8 (toString (sizeOf t v.node)),
    dateCell t.time n.modified false, v.path ++ goal]

end PipelineRunner.Utility.Find

/-! ### The search

The search for files: everything at some paths and below them is visited, and looked at with an
expression. -/

namespace PipelineRunner.Utility

open Host Text Job

namespace Find

/-- What a search keeps besides its way. -/
structure Progress where
  /-- What is below the file is not visited. -/
  prunes : Bool := false
  /-- The search is over. -/
  quits : Bool := false
  /-- The files that are kept for the commands of their numbers, backwards. -/
  gathered : List (Nat × String) := []

def Test.passes (s : Scope) (seen : Surroundings) (v : Visit) : Test → Bool
  | constant value => value
  | text label folded pattern =>
    let text? : Option String := match label with
      | .name => some v.name
      | .path => some v.path
      | .target =>
        match seen.files.content v.node with
        | .link target => some target
        | _ => none
    text?.any fun text =>
      Shell.Pattern.isMatch pattern (if folded then text.toLower else text).toList
  | regex r => r.takesAll (Characters.of s.charset v.path).chars
  | kind letters other =>
    let i := if !other then v.node
      else if s.followsAll then v.own seen
      else (v.goal? seen).getD v.node
    letters.contains (letterOf (seen.files.content i))
  | size m unit => m.fits ((sizeOf seen.files v.node + unit - 1) / unit)
  | empty =>
    match seen.files.content v.node with
    | .directory _ entries => entries.isEmpty
    | .file bytes => bytes.isEmpty
    | _ => false
  | age m unit =>
    m.fits ((seen.files.time - (seen.files.node v.node).modified).toNat / unit)
  | newer than => than < (seen.files.node v.node).modified
  | names m => m.fits (linkCount seen.files v.node)
  | number m => m.fits (v.node + 1000)
  | owner m => m.fits 0
  | rights rule bits =>
    let mode := (seen.files.node v.node).mode
    match rule with
    | .exactly => mode == bits
    | .all => mode &&& bits == bits
    | .any => bits == 0 || mode &&& bits != 0
  | same i => v.node == i
  | executable =>
    match seen.files.content v.node with
    | .directory .. => true
    | _ => (seen.files.node v.node).mode &&& 0o111 != 0

/-- Runs a command and waits for its end; it may be run in another directory. -/
def runCommand (argv : List String) (directory : Option String) : Job Bool := do
  flush
  let d ← get
  let name := argv.headD ""
  let child ← fork do
    let seen ← Act.look
    match directory.map (seen.files.findDirectory seen.directory) with
    | some (.ok i) => Act.ask (.enter i)
    | _ => pure ()
    let e ← become argv d.environment .notFound (programPaths d.environment name)
    Act.print 2 (d.title ++ ": " ++ quoted name ++ ": " ++ e.reason ++ "\n")
    Act.exit 1
  return (← waitEnd child).isSuccess

/-- A command for a file: its path stands wherever two braces are. -/
def commandFor (path : String) (argv : List String) : List String :=
  argv.map fun word =>
    String.ofList (replaceAll ['\x7b', '\x7d'] path.toList (word.length + 1) word.toList)

/-- Asks whether a command is to be run for a file. -/
def permits (argv : List String) (path : String) : Job Bool := do
  let name := argv.headD ""
  act (Act.print 2 s!"< {name} ... {path} > ? ")
  let answer : Except FileError String ← ask (.read 0 4096 (some '\n'))
  match answer with
  | .ok text => pure (text.startsWith "y" || text.startsWith "Y")
  | .error _ => pure false

/-- Removes a file, or complains that it stays. -/
def removeFile (v : Visit) : Job Bool := do
  if v.name = "." then pure true
  else
    let removed ← change fun seen =>
      if seen.files.isDirectory (v.own seen) then
        seen.files.removeDirectory seen.directory v.path
      else seen.files.unlink seen.directory v.path
    match removed with
    | .ok () => pure true
    | .error e =>
      fault 1 ("cannot delete " ++ quoted v.path ++ ": " ++ e.reason)
      pure false

def Deed.perform (v : Visit) (p : Progress) : Deed → Job (Bool × Progress)
  | print ending => do
    Job.print (v.path ++ ending)
    pure (true, p)
  | display format => do
    let shown := displayed (← look) v (format.length + 1) {} format.toList
    Job.print (String.join shown.text.reverse)
    each warn shown.warnings.reverse
    pure (true, p)
  | list => do
    printLine (listLine (← look) v)
    pure (true, p)
  | delete => do return (← removeFile v, p)
  | prune => pure (true, { p with prunes := true })
  | quit => pure (true, { p with quits := true })
  | run argv asks inside => do
    let path := if inside then "./" ++ v.name else v.path
    let agreed ← if asks then permits argv path else pure true
    if agreed then
      let done ← runCommand (commandFor path argv) (if inside then some v.directory else none)
      pure (done, p)
    else pure (false, p)
  | gather number _ => pure (true, { p with gathered := (number, v.path) :: p.gathered })

/-- Looks at a file with an expression. Behind the end of the search nothing is done any more. -/
def Expression.holds (s : Scope) (v : Visit) : Expression → Progress → Job (Bool × Progress)
  | test t, p => do return (t.passes s (← look) v, p)
  | deed d, p => if p.quits then pure (true, p) else d.perform v p
  | negation e, p => do
    let (value, p) ← e.holds s v p
    pure (!value, p)
  | both a b, p => do
    let (value, p) ← a.holds s v p
    if value && !p.quits then b.holds s v p else pure (value, p)
  | either a b, p => do
    let (value, p) ← a.holds s v p
    if value || p.quits then pure (value, p) else b.holds s v p
  | list a b, p => do
    let (_, p) ← a.holds s v p
    b.holds s v p

/-- The commands that are run for many files together. -/
def Expression.gathering : Expression → List (Nat × List String)
  | deed (.gather number argv) => [(number, argv)]
  | test _ | deed _ => []
  | negation e => e.gathering
  | both a b | either a b | list a b => a.gathering ++ b.gathering

/-- What lies ahead of a search. -/
inductive Ahead where
  /-- A path, with the argument at which the way began and the directories above. -/
  | visit (path start : String) (above : List Nat)
  /-- A directory that is looked at behind what is in it. -/
  | leave (v : Visit)

/-- Looks at a file, unless it is too high up. -/
def consider (s : Scope) (e : Expression) (v : Visit) (p : Progress) : Job Progress := do
  let p := { p with prunes := false }
  if v.depth < s.highest then pure p
  else return (← e.holds s v p).2

def inside (s : Scope) (seen : Surroundings) (v : Visit) : List Ahead :=
  if s.deepest.any (· ≤ v.depth) then []
  else
    (seen.files.entries v.node).map fun e =>
      .visit (Path.join v.path e.1) v.start (v.node :: v.above)

def advance (s : Scope) (e : Expression) : Ahead → List Ahead → Progress →
    Job (List Ahead × Progress)
  | .leave v, rest, p => do return (rest, ← consider s e v p)
  | .visit path start above, rest, p => do
    let seen ← look
    let follows := s.followsAll || (s.followsArguments && above.isEmpty)
    let found : Except FileError Nat :=
      match follows, seen.files.find seen.directory path true with
      | true, .ok i => .ok i
      | _, _ => seen.files.find seen.directory path false
    match found with
    | .error reason =>
      fault 1 (quoted path ++ ": " ++ reason.reason)
      pure (rest, p)
    | .ok node =>
      let v : Visit := ⟨path, start, above.length, node, above⟩
      if seen.files.isDirectory node && above.contains node then
        let first := (path.toList.take (path.length - v.name.length - 1))
        fault 1 ("File system loop detected; " ++ quoted path ++
          " is part of the same file system loop as " ++ quoted (String.ofList first) ++ ".")
        pure (rest, p)
      else if !seen.files.isDirectory node then return (rest, ← consider s e v p)
      else if s.insideFirst then pure (inside s seen v ++ .leave v :: rest, p)
      else
        let p ← consider s e v p
        if p.prunes || p.quits then pure (rest, p)
        else pure (inside s (← look) v ++ rest, p)

def runGathered (e : Expression) (p : Progress) : Job Unit :=
  each (fun (number, argv) => do
    let files := (p.gathered.filter fun f => f.1 == number).map (·.2)
    if !files.isEmpty then
      if !(← runCommand (argv ++ files.reverse) none) then atLeast 1) e.gathering

def search (s : Scope) (e : Expression) (paths : List String) : Job Unit := do
  let p : Progress ← iterate (fun ((ahead, p) : List Ahead × Progress) => do
    match ahead with
    | [] => pure (.done p)
    | next :: rest => do
      let (rest, p) ← advance s e next rest p
      pure (if p.quits then .done p else .again (rest, p)))
    (paths.map fun path => .visit path path [], {})
  runGathered e p

end Find

def find (args : List String) : Job Unit := do
  let isWay (arg : String) : Bool :=
    ["-H", "-L", "-P"].contains arg || arg.startsWith "-O"
  let (ways, args) := args.span isWay
  let way := (ways.filter fun w => !w.startsWith "-O").getLastD "-P"
  let scope : Find.Scope :=
    { followsAll := way == "-L", followsArguments := way == "-H", charset := ← charset }
  let (paths, expression) := args.span fun arg => !Find.beginsExpression arg
  match Find.parse (← look) scope expression with
  | .error complaints =>
    each warn complaints
    exit 1
  | .ok (scope, e) => Find.search scope e (if paths.isEmpty then ["."] else paths)

end PipelineRunner.Utility
