import PipelineRunner.Utility.Running
import PipelineRunner.Utility.StreamEditor.Script

/-!
Running a script of the stream editor over the lines of its inputs.
-/

namespace PipelineRunner.Utility

open Host Text Job

namespace StreamEditor

/-- The pattern space or the hold space. -/
structure Space where
  text : String := ""
  /-- Whether the line has had an end. -/
  isWhole : Bool := true

/-- What has to be printed at the end of a cycle. -/
inductive Queued where
  | text (text : String)
  | file (name : String)

/-- How far the lines of a range have come. -/
inductive RangeState where
  /-- Up to a line of this number. -/
  | upTo (line : Nat)
  /-- Up to a line that fits the address at its end. -/
  | going
  | over

/-- How the editor is to work. -/
structure Manner where
  script : Script
  isQuiet : Bool
  isSeparate : Bool
  /-- What is put behind the name of a file that is kept as it was; nothing, if the files are not
  changed in place. -/
  inPlace : Option String
  separator : Char
  width : Nat
  block : Nat
  charset : Charset
  /-- Where complaints about the whole script are placed. -/
  origin : Source
  /-- The descriptors of the files that are written. -/
  written : List (String × Nat)

/-- What the editor keeps. -/
structure Editor where
  manner : Manner
  pattern : Space := {}
  held : Space := {}
  line : Nat := 0
  hasReplaced : Bool := false
  /-- What is printed at the end of the cycle, the latest first. -/
  queue : List Queued := []
  /-- The ranges that have begun, by the numbers of their commands. -/
  ranges : List (Nat × RangeState) := []
  lastRegex : Option Regex := none
  /-- The inputs that have not been opened. -/
  ahead : List String
  /-- The input that is open. -/
  input : Option (String × Reader) := none
  /-- What has been written to a file that is changed in place, the latest first. -/
  result : List String := []
  /-- The outputs of which the last line has had no end; an empty name is the main one. -/
  unended : List String := []
  /-- The files that are read line by line. -/
  readers : List (String × Reader) := []

/-- What the editor does. -/
abbrev Edit (α : Type) : Type := StateT Editor Job α

namespace Edit

variable {α σ : Type}

/-- Does something that knows nothing of the editor. -/
def job (x : Job α) : Edit α := fun e => do return (← x, e)

def iterate (step : σ → Edit (Act.Step σ α)) (s : σ) : Edit α := fun e =>
  Job.iterate (fun ((s, e) : σ × Editor) => do
    match ← step s e with
    | (.again s, e) => pure (.again (s, e))
    | (.done a, e) => pure (.done (a, e))) (s, e)

def fail (code : Nat) (text : String) : Edit α := job (Job.fail code text)

def separator : Edit String := do return String.singleton (← get).manner.separator

def emit (text : String) : Edit Unit := do
  if (← get).manner.inPlace.isSome then modify fun e => { e with result := text :: e.result }
  else job (Job.print text)

def writeTo (name text : String) : Edit Unit := do
  match name with
  | "" => emit text
  | "/dev/stdout" => job (Job.print text)
  | name =>
    match List.lookup name (← get).manner.written with
    | none => pure ()
    | some d =>
      let result : Except FileError Unit ← job (Job.act (Act.write d text))
      match result with
      | .ok () => pure ()
      | .error e =>
        let reason := e.reason
        fail 4 s!"couldn't write {text.length} items to {name}: {reason}"

/-- The output that a name stands for: the main one may have two names. -/
def outputOf (name : String) : Edit String := do
  if name = "/dev/stdout" && (← get).manner.inPlace.isNone then pure "" else pure name

/-- Ends the last line of an output, if it has no end. -/
def endLine (output : String) : Edit Unit := do
  if (← get).unended.contains output then
    modify fun e => { e with unended := e.unended.filter (· != output) }
    writeTo output (← separator)

def writeLine (name text : String) (isWhole : Bool) : Edit Unit := do
  let output ← outputOf name
  endLine output
  if isWhole then writeTo output (text ++ (← separator))
  else
    writeTo output text
    modify fun e => { e with unended := output :: e.unended }

/-- Writes a text to the main output, on a line of its own. -/
def writeText (text : String) : Edit Unit := do
  endLine ""
  emit text

def printPattern : Edit Unit := do
  let e ← get
  writeLine "" e.pattern.text e.pattern.isWhole

/-- Prints what has been kept for the end of the cycle. -/
def printQueue : Edit Unit := do
  let items := (← get).queue.reverse
  modify fun e => { e with queue := [] }
  let rec go : List Queued → Edit Unit
    | [] => pure ()
    | item :: rest => do
      endLine ""
      match item with
      | .text text => emit text
      | .file name =>
        let opened ← job (openInput (if name = "/dev/stdin" then "-" else name))
        match opened with
        | .error _ => pure ()
        | .ok d =>
          let content : Except FileError String ← job (Job.act (Act.readAll d))
          job (closeInput d)
          match content with
          | .ok text => emit text
          | .error _ => pure ()
      go rest
  go items

/-- Puts what has been written in the place of a file. -/
def replaceFile (name : String) : Edit Unit := do
  let e ← get
  let bytes := String.join e.result.reverse
  set { e with result := [], unended := e.unended.filter (· != "") }
  let suffix := e.manner.inPlace.getD ""
  let kept? : Option String :=
    if suffix.isEmpty then none
    else
      let names := Path.names name
      let base := names.getLastD name
      let new := if suffix.toList.contains '*' then
          String.ofList (suffix.toList.flatMap fun c => if c = '*' then base.toList else [c])
        else base ++ suffix
      if new.toList.contains '/' then some new
      else some (Text.join "/" (names.dropLast ++ [new]))
  let result ← job (change fun seen => do
    let t := seen.files
    let node := t.node (← t.find seen.directory name false)
    let t ← match kept? with
      | some kept => t.rename seen.directory name kept
      | none => t.unlink seen.directory name
    pure (t.putFile seen.directory name bytes node.mode))
  match result with
  | .ok () => pure ()
  | .error e =>
    let reason := e.reason
    fail 4 s!"cannot rename {name}: {reason}"

def openNext : Edit Bool := do
  match (← get).ahead with
  | [] => pure false
  | name :: rest => do
    modify fun e => { e with ahead := rest }
    let e ← get
    let seen ← job look
    let isRegular := match seen.files.find? seen.directory name true with
      | some i =>
        match seen.files.content i with
        | .file _ | .program _ => true
        | _ => false
      | none => true
    let opened ← job (openInput name)
    match opened with
    | .error reason =>
      let reason := reason.reason
      job (fault 2 s!"can't read {name}: {reason}")
    | .ok d =>
      if e.manner.inPlace.isSome && !isRegular then
        fail 4 s!"couldn't edit {name}: not a regular file"
      let reader : Reader := ⟨d, e.manner.separator, e.manner.block, [], [], false⟩
      modify fun e =>
        { e with input := some (name, reader), line := if e.manner.isSeparate then 0 else e.line }
    pure true

def closeNow : Edit Unit := do
  match (← get).input with
  | none => pure ()
  | some (name, reader) => do
    job (closeInput reader.descriptor)
    modify fun e => { e with input := none }
    if (← get).manner.inPlace.isSome then replaceFile name

/-- The next line of the input that is open; if there is one it is left there. -/
def lookAhead : Edit (Option Line) := do
  match (← get).input with
  | none => pure none
  | some (name, reader) =>
    let (found, reader) ← job (nextLine reader)
    match found with
    | .error e =>
      let reason := e.reason
      fail 4 s!"read error on {name}: {reason}"
    | .ok none => do
      modify fun e => { e with input := some (name, reader) }
      pure none
    | .ok (some line) => do
      modify fun e => { e with input := some (name, { reader with lines := line :: reader.lines }) }
      pure (some line)

def take : Edit (Option Line) :=
  iterate (fun (_ : Unit) => do
    match (← get).input with
    | none => if ← openNext then pure (.again ()) else pure (.done none)
    | some (name, _) =>
      match ← lookAhead with
      | none => do
        closeNow
        pure (.again ())
      | some line => do
        modify fun e =>
          { e with
            input := e.input.map fun i => (name, { i.2 with lines := i.2.lines.drop 1 })
            line := e.line + 1 }
        pure (.done (some line))) ()

/-- Whether there is something to read in one of some files. -/
def hasData (seen : Surroundings) (names : List String) : Bool :=
  names.any fun name =>
    name == "-" || match seen.files.find? seen.directory name true with
      | some i =>
        match seen.files.content i with
        | .file bytes => !bytes.isEmpty
        | _ => true
      | none => false

/-- Whether the line is the last one: of its file, if files are looked at one by one. -/
def isLast : Edit Bool := do
  if (← lookAhead).isSome then pure false
  else
    let e ← get
    if e.manner.isSeparate then pure true
    else return !hasData (← job look) e.ahead

/-- Reads the next line into the pattern space, or joins it to what is there. -/
def readLine (joins : Bool) : Edit Bool := do
  match ← take with
  | none => pure false
  | some line => do
    let between ← separator
    modify fun e =>
      let text := if joins then e.pattern.text ++ between ++ line.text else line.text
      { e with pattern := ⟨text, line.isWhole⟩ }
    pure true

/-- The expression that is meant: without one, the last one that was looked for. -/
def regexOf (r : Option Regex) : Edit Regex := do
  let last := (← get).lastRegex
  match r.orElse fun _ => last with
  | some r =>
    modify fun e => { e with lastRegex := some r }
    pure r
  | none =>
    let m := (← get).manner
    let place := Reading.position { origin := m.origin, charset := m.charset, rest := [] }
    fail 1 (place ++ "no previous regular expression")

/-- Whether the line is one that an address names. -/
def fits (a : Address) : Edit Bool := do
  let e ← get
  match a with
  | .line n => pure (e.line == n)
  | .last => isLast
  | .step first step => pure (first ≤ e.line && (e.line - first) % step == 0)
  | .regex r => do
    let r ← regexOf r
    pure (r.isIn (Characters.of e.manner.charset e.pattern.text).chars)

/-- How far the range of a command has come. -/
def rangeState? (number : Nat) : Edit (Option RangeState) := do
  return List.lookup number (← get).ranges

def setRange (number : Nat) (s : RangeState) : Edit Unit := modify fun e =>
  { e with ranges := (number, s) :: e.ranges.filter (·.1 != number) }

/-- Begins a range at the line, unless it is over at once. -/
def beginRange (number : Nat) (finish : RangeEnd) : Edit Unit := do
  let line := (← get).line
  let upTo (n : Nat) : Edit Unit :=
    if n ≤ line then setRange number .over else setRange number (.upTo n)
  match finish with
  | .after count => upTo (line + count)
  | .multiple 0 => setRange number .over
  | .multiple factor => upTo ((line / factor + 1) * factor)
  | .address (.line n) => upTo n
  | .address _ => setRange number .going

/-- Whether a command is meant for the line, but for its negation. -/
def isMeant (number : Nat) (s : Selector) : Edit Bool := do
  match s.start, s.finish with
  | none, _ => pure true
  | some a, none => fits a
  | some a, some finish => do
    let state ← rangeState? number
    let isFromZero := match a with
      | .line 0 => true
      | _ => false
    match state, isFromZero with
    | some (.upTo n), _ => do
      let line := (← get).line
      if n ≤ line then setRange number .over
      pure (line ≤ n)
    | some .going, _ | none, true => do
      match finish with
      | .address b => do
        if ← fits b then setRange number .over else setRange number .going
      | _ => pure ()
      pure true
    | _, _ => do
      if ← fits a then
        beginRange number finish
        pure true
      else pure false

/-- Runs a command of the shell, and yields what it prints. -/
def outputOfCommand (command : String) : Edit String := do
  let e : Desk ← job get
  let (input, output) : Nat × Nat ← job (Job.ask .pipe)
  let child ← job (fork do
    let _ : Except FileError Unit ← Act.ask (.copy output 1)
    Act.close input
    Act.close output
    let _ ← become ["sh", "-c", command] e.environment .notFound ["/bin/sh"]
    Act.exit 127)
  job (closeInput output)
  let text : Except FileError String ← job (Job.act (Act.readAll input))
  job (closeInput input)
  let _ ← job (waitEnd child)
  pure (text.toOption.getD "")

def placesOf (s : Substitution) (found : List Regex.Found) : List Regex.Found :=
  let rest := found.drop (s.number - 1)
  if s.isGlobal then rest else rest.take 1

/-- The text with something else in some places, from a place on. -/
def replaced (k : Charset) (c : Characters) (s : Substitution) : Nat → List Regex.Found → String
  | i, [] => c.from_ i
  | i, f :: rest =>
    let taken (n : Nat) : String :=
      if n = 0 then c.slice f.start f.finish
      else match List.lookup n f.groups with
        | some (a, b) => c.slice a b
        | none => ""
    c.slice i f.start ++ expand k taken .asItIs s.pieces ++
      replaced k c s f.finish rest

def substitute (s : Substitution) : Edit Unit := do
  let r ← regexOf s.regex
  let e ← get
  let c := Characters.of e.manner.charset e.pattern.text
  let places : List Regex.Found :=
    if s.isGlobal || s.number != 1 then placesOf s (r.findAll c.chars)
    else (r.find? c.chars 0).toList
  if !places.isEmpty then
    let text := replaced e.manner.charset c s 0 places
    modify fun e => { e with pattern := { e.pattern with text }, hasReplaced := true }
    if s.evaluates then
      let output ← outputOfCommand text
      let between := e.manner.separator
      let bare := if output.toList.getLast? = some between then
          String.ofList output.toList.dropLast else output
      modify fun e => { e with pattern := { e.pattern with text := bare } }
    if s.prints then printPattern
    match s.file with
    | none => pure ()
    | some name => do
      let e ← get
      writeLine name e.pattern.text e.pattern.isWhole

/-- How a byte is shown so that nothing is left unclear. -/
def shownByte (c : Char) : String :=
  match c with
  | '\\' => "\\\\"
  | '\x07' => "\\a"
  | '\x08' => "\\b"
  | '\x0c' => "\\f"
  | '\n' => "\\n"
  | '\x0d' => "\\r"
  | '\t' => "\\t"
  | '\x0b' => "\\v"
  | c =>
    if 32 ≤ c.toNat && c.toNat < 127 then String.singleton c
    else String.ofList ('\\' :: threeOctal c.toNat)

/-- Breaks texts into lines of a width, of which all but the last end with a backslash. -/
def broken (width : Nat) (isBroken : Bool) : Nat → List String → List String
  | _, [] => []
  | used, s :: rest =>
    if isBroken && width < used + s.length then "\\\n" :: s :: broken width isBroken s.length rest
    else s :: broken width isBroken (used + s.length) rest

/-- Shows the pattern space so that nothing is left unclear. -/
def list (width : Nat) : Edit Unit := do
  let texts := (← get).pattern.text.toList.map shownByte
  writeText (String.join (broken (width - 1) (width != 0) 0 texts) ++ "$\n")

/-- The first line of the pattern space, and what is behind it. -/
def firstLine : Edit (String × Option String) := do
  let e ← get
  let cs := e.pattern.text.toList
  let first := cs.takeWhile (· != e.manner.separator)
  match cs.drop first.length with
  | [] => pure (e.pattern.text, none)
  | _ :: rest => pure (String.ofList first, some (String.ofList rest))

/-- How a cycle goes on behind a command. -/
inductive Onward where
  | command (number : Nat)
  /-- The end of the script. -/
  | finish
  /-- The end of the cycle; `again` if the next one takes no new line. -/
  | cut (again : Bool)
  | exit (code : Nat)

/-- Carries out a command that is meant for the line. -/
def perform (number : Nat) (c : Command) : Edit Onward := do
  let e ← get
  let m := e.manner
  let next : Onward := .command (number + 1)
  let jumpTo (label : String) : Onward :=
    if label.isEmpty then .finish else .command ((List.lookup label m.script.labels).getD 0)
  match c.verb with
  | .nothing | .block _ => pure next
  | .jump rule label =>
    match rule, e.hasReplaced with
    | .always, _ => pure (jumpTo label)
    | .afterReplacing, true | .withoutReplacing, true => do
      modify fun e => { e with hasReplaced := false }
      pure (if rule = .afterReplacing then jumpTo label else next)
    | .withoutReplacing, false => pure (jumpTo label)
    | .afterReplacing, false => pure next
  | .lineNumber => do
    writeText s!"{e.line}\n"
    pure next
  | .fileName => do
    writeText ((e.input.map (·.1)).getD "-" ++ "\n")
    pure next
  | .append text => do
    modify fun e => { e with queue := .text text :: e.queue }
    pure next
  | .insert text => do
    writeText text
    pure next
  | .change text => do
    let isWithin ← match c.selector.finish with
      | none => pure false
      | some _ => do
        match ← rangeState? number with
        | some (.upTo _) | some .going => pure (!c.selector.isNegated)
        | _ => pure false
    if !isWithin then writeText text
    pure (.cut false)
  | .delete => pure (.cut false)
  | .deleteFirst => do
    match ← firstLine with
    | (_, none) => pure (.cut false)
    | (_, some rest) => do
      modify fun e => { e with pattern := { e.pattern with text := rest } }
      pure (.cut true)
  | .execute command => do
    if command.isEmpty then
      let output ← outputOfCommand e.pattern.text
      modify fun e => { e with pattern := { e.pattern with text := output } }
    else
      job flush
      writeText (← outputOfCommand command)
    pure next
  | .takeHold joins => do
    let between ← separator
    modify fun e =>
      { e with
        pattern := if joins then { e.held with text := e.pattern.text ++ between ++ e.held.text }
          else e.held }
    pure next
  | .hold joins => do
    let between ← separator
    modify fun e =>
      { e with
        held := if joins then { e.pattern with text := e.held.text ++ between ++ e.pattern.text }
          else e.pattern }
    pure next
  | .exchange => do
    modify fun e => { e with pattern := e.held, held := e.pattern }
    pure next
  | .list width => do
    list (width.getD m.width)
    pure next
  | .next joins => do
    if ← isLast then pure .finish
    else
      if !joins && !m.isQuiet then printPattern
      printQueue
      if ← readLine joins then pure next else pure (.cut false)
  | .print firstOnly => do
    if firstOnly then
      let (first, _) ← firstLine
      writeLine "" first true
    else printPattern
    pure next
  | .quit code prints => do
    if prints then
      if !m.isQuiet then printPattern
      printQueue
    pure (.exit code)
  | .readFile name => do
    modify fun e => { e with queue := .file name :: e.queue }
    pure next
  | .readLine name => do
    let reader? : Option Reader ← match List.lookup name e.readers with
      | some r => pure (some r)
      | none => do
        let opened ← job (openInput (if name = "/dev/stdin" then "-" else name))
        match opened with
        | .ok d => pure (some (⟨d, m.separator, m.block, [], [], false⟩ : Reader))
        | .error _ => pure none
    match reader? with
    | none => pure next
    | some reader => do
      let (found, reader) ← job (nextLine reader)
      let readers := (name, reader) :: e.readers.filter (·.1 != name)
      let queue := match found with
        | .ok (some line) => .text (line.original m.separator) :: e.queue
        | _ => e.queue
      modify fun e => { e with readers, queue }
      pure next
  | .substitute s => do
    substitute s
    pure next
  | .translate pairs => do
    let t := Characters.of e.manner.charset e.pattern.text
    let text := t.encoded (t.chars.toList.map fun c => (List.lookup c pairs).getD c)
    modify fun e => { e with pattern := { e.pattern with text } }
    pure next
  | .write name firstOnly => do
    if firstOnly then
      let (first, _) ← firstLine
      writeLine name first true
    else writeLine name e.pattern.text e.pattern.isWhole
    pure next
  | .empty => do
    modify fun e => { e with pattern := { e.pattern with text := "" } }
    pure next

/-- Runs the script over the pattern space. -/
def cycle : Edit Onward :=
  iterate (fun (number : Nat) => do
    match (← get).manner.script.commands[number]? with
    | none => pure (.done .finish)
    | some c => do
      let meant ← isMeant number c.selector
      if meant != c.selector.isNegated then
        match ← perform number c with
        | .command n => pure (.again n)
        | o => pure (.done o)
      else
        match c.verb with
        | .block finish => pure (.again finish)
        | _ => pure (.again (number + 1))) 0

/-- Runs the script over all lines; yields the code that the editor exits with. -/
def all : Edit (Option Nat) :=
  iterate (fun (hasLine : Bool) => do
    let ready ← if hasLine then pure true else readLine false
    if !ready then pure (.done none)
    else
      if !hasLine then modify fun e => { e with hasReplaced := false }
      match ← cycle with
      | .exit code => pure (.done (some code))
      | .cut again => do
        printQueue
        pure (.again again)
      | _ => do
        if !(← get).manner.isQuiet then printPattern
        printQueue
        pure (.again false)) false

/-- Leaves what has not been used of the input to whoever reads on. -/
def leave : Edit Unit := do
  match (← get).input with
  | none => pure ()
  | some (_, reader) => do
    if reader.descriptor = 0 then job (giveBack reader)
    closeNow

end Edit

/-- How the editor is to be called. -/
def usage : List String :=
  ["Usage: sed [OPTION]... \x7bscript-only-if-no-other-script\x7d [input-file]...",
    "",
    "  -n, --quiet, --silent",
    "                 suppress automatic printing of pattern space",
    "      --debug",
    "                 annotate program execution",
    "  -e script, --expression=script",
    "                 add the script to the commands to be executed",
    "  -f script-file, --file=script-file",
    "                 add the contents of script-file to the commands to be executed",
    "  --follow-symlinks",
    "                 follow symlinks when processing in place",
    "  -i[SUFFIX], --in-place[=SUFFIX]",
    "                 edit files in place (makes backup if SUFFIX supplied)",
    "  -l N, --line-length=N",
    "                 specify the desired line-wrap length for the \x60l' command",
    "  --posix",
    "                 disable all GNU extensions.",
    "  -E, -r, --regexp-extended",
    "                 use extended regular expressions in the script",
    "                 (for portability use POSIX -E).",
    "  -s, --separate",
    "                 consider files as separate rather than as a single,",
    "                 continuous long stream.",
    "      --sandbox",
    "                 operate in sandbox mode (disable e/r/w commands).",
    "  -u, --unbuffered",
    "                 load minimal amounts of data from the input files and flush",
    "                 the output buffers more often",
    "  -z, --null-data",
    "                 separate lines by NUL characters",
    "      --help     display this help and exit",
    "      --version  output version information and exit",
    "",
    "If no -e, --expression, -f, or --file option is given, then the first",
    "non-option argument is taken as the sed script to interpret.  All",
    "remaining arguments are names of input files; if no input files are",
    "specified, then the standard input is read."]

/-- Shows how the editor is to be called, and exits. -/
def refuseUsage {α : Type} : Job α := do
  act (Act.print 2 (String.join (usage.map (· ++ "\n"))))
  exit 1

def options : List Known :=
  [.flag "n" "quiet", .flag "" "silent", .flag "" "debug", .value "e" "expression",
    .value "f" "file", .flag "" "follow-symlinks", .loose "i" "in-place",
    .value "l" "line-length", .flag "" "posix", .flag "Er" "regexp-extended",
    .flag "s" "separate", .flag "" "sandbox", .flag "u" "unbuffered", .flag "z" "null-data"]

/-- The parts of the script that options give; expressions are counted. -/
def partsOf : Nat → List (String × String) → Job (List (Source × String))
  | _, [] => pure []
  | n, ("expression", text) :: rest => do
    return (.expression n, text) :: (← partsOf (n + 1) rest)
  | n, ("file", name) :: rest => do
    match ← openInput name with
    | .error e =>
      let reason := e.reason
      fail 4 s!"couldn't open file {name}: {reason}"
    | .ok d =>
      let content : Except FileError String ← act (Act.readAll d)
      closeInput d
      match content with
      | .error e =>
        let reason := e.reason
        fail 4 s!"read error on {name}: {reason}"
      | .ok text => return (.file name, text) :: (← partsOf n rest)
  | n, _ :: rest => partsOf n rest

def openWritten : List String → Job (List (String × Nat))
  | [] => pure []
  | "/dev/stdout" :: rest => openWritten rest
  | "/dev/stderr" :: rest => do return ("/dev/stderr", 2) :: (← openWritten rest)
  | name :: rest => do
    let opened : Except FileError Nat ← act (Act.openFile name .write)
    match opened with
    | .ok d => return (name, d) :: (← openWritten rest)
    | .error e =>
      let reason := e.reason
      fail 4 s!"couldn't open file {name}: {reason}"

end StreamEditor

open StreamEditor in
/-- Edits lines as a script asks for. -/
def sed (args : List String) : Job Unit := do
  match Arguments.read options .anywhere args with
  | .error text => do
    warn text
    refuseUsage
  | .ok a =>
    let given ← partsOf 1 a.options
    let (parts, inputs) : List (Source × String) × List String ←
      if !given.isEmpty then pure (given, a.operands)
      else
        match a.operands with
        | script :: rest => pure ([(Source.expression 1, script)], rest)
        | [] => refuseUsage
    let k ← charset
    let dialect : Regex.Dialect :=
      { extended := a.has "regexp-extended", escapes := true, isStrict := true }
    match StreamEditor.Script.parse k dialect parts with
    | .error (code, text) => fail code text
    | .ok script =>
      let inPlace := a.last? "in-place"
      if inPlace.isSome && inputs.isEmpty then fail 4 "no input files"
      let count := (parts.filter fun p => match p.1 with
        | .expression _ => true
        | .file _ => false).length
      let manner : Manner :=
        { script
          isQuiet := a.has "quiet" || a.has "silent" || script.isQuiet
          isSeparate := a.has "separate" || inPlace.isSome
          inPlace
          separator := if a.has "null-data" then Char.ofNat 0 else '\n'
          width := ((a.last? "line-length").map fun n => (Text.digits? n.toList).getD 0).getD 70
          charset := k
          block := if a.has "unbuffered" then 1 else 4096
          origin := .expression count
          written := ← openWritten script.written }
      let editor : Editor := { manner, ahead := if inputs.isEmpty then ["-"] else inputs }
      let (code, e) ← Edit.all.run editor
      let _ ← Edit.leave.run e
      match code with
      | some code =>
        let own := (← get).code
        exit (if code = 0 then own else code)
      | none => pure ()

end PipelineRunner.Utility
