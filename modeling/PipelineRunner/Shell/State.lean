import PipelineRunner.Host.Machine
import PipelineRunner.OrderedMap
import PipelineRunner.Shell.Command
import PipelineRunner.Shell.Extended.Written
import PipelineRunner.Shell.Source
import PipelineRunner.Text.Bytes
import PipelineRunner.Text.CharClass

/-!
Variables of the shell. A variable of the extended language can be a list, whose elements stand at
numbers or at keys, and it may change what it is given.
-/

namespace PipelineRunner.Shell

/-- Where an element of a list stands. -/
inductive Place where
  | number (n : Nat)
  | key (text : String)
  deriving DecidableEq, Repr

def Place.text : Place → String
  | number n => toString n
  | key text => text

/-- The elements of a list. -/
inductive Elements where
  /-- At numbers, in their order. -/
  | numbered (items : List (Nat × String))
  /-- At keys, the latest first. -/
  | keyed (items : List (String × String))
  deriving DecidableEq, Repr

namespace Elements

/-- The group that a key belongs to; keys are listed group by group. -/
def group (key : String) : Nat :=
  let mixed := key.toList.foldl (fun (n : UInt32) c =>
    let byte := UInt32.ofNat c.toNat
    n * 16777619 ^^^ if 128 ≤ c.toNat then byte ||| 0xffffff00 else byte) 2166136261
  mixed.toNat % 1024

def all : Elements → List (Place × String)
  | numbered items => items.map fun (n, v) => (.number n, v)
  | keyed items =>
    (items.mergeSort fun a b => group a.1 ≤ group b.1).map fun (k, v) => (.key k, v)

def values (e : Elements) : List String := e.all.map (·.2)

def size : Elements → Nat
  | numbered items => items.length
  | keyed items => items.length

def next : Elements → Nat
  | numbered items => (items.getLast?.map fun i => i.1 + 1).getD 0
  | keyed _ => 0

def get? (e : Elements) (p : Place) : Option String :=
  match e, p with
  | numbered items, .number n => List.lookup n items
  | keyed items, .key k => List.lookup k items
  | keyed items, .number n => List.lookup (toString n) items
  | numbered _, .key _ => none

/-- Puts a numbered element into its order. -/
def insert (n : Nat) (v : String) : List (Nat × String) → List (Nat × String)
  | [] => [(n, v)]
  | (m, w) :: rest =>
    if n < m then (n, v) :: (m, w) :: rest
    else if n = m then (n, v) :: rest
    else (m, w) :: insert n v rest

def put (e : Elements) (p : Place) (v : String) : Elements :=
  match e, p with
  | numbered items, .number n => numbered (insert n v items)
  | numbered items, .key _ => numbered items
  | keyed items, p =>
    let k := p.text
    if items.any fun i => i.1 == k then keyed (items.map fun i => if i.1 == k then (k, v) else i)
    else keyed ((k, v) :: items)

def remove (e : Elements) (p : Place) : Elements :=
  match e with
  | numbered items => numbered (items.filter fun i => .number i.1 != p)
  | keyed items => keyed (items.filter fun i => i.1 != p.text)

def ofTexts (texts : List String) : Elements :=
  numbered ((List.range texts.length).zip texts)

/-- The place of the element that stands for the list as a whole. -/
def head : Place := .number 0

theorem get?_put_self_numbered (items : List (Nat × String)) (n : Nat) (v : String) :
    (put (numbered items) (.number n) v).get? (.number n) = some v := by
  show List.lookup n (insert n v items) = some v
  induction items with
  | nil => simp [insert]
  | cons i rest ih =>
    obtain ⟨m, w⟩ := i
    by_cases h : n < m
    · simp [insert, h]
    · by_cases e : n = m
      · simp [insert, e]
      · have : (n == m) = false := by simp [e]
        simp [insert, h, e, List.lookup_cons, this, ih]

end Elements

/-- A variable; it may have no value and be known all the same. -/
structure Variable where
  value : Option String := none
  /-- Whether programs see it. -/
  exported : Bool := false
  /-- Whether it keeps its value. -/
  constant : Bool := false
  /-- Its elements, if it is a list. -/
  elements : Option Elements := none
  /-- Whether there is a list only in so far as it has been announced. -/
  isBare : Bool := false
  /-- Whether its values are worked out as numbers. -/
  isNumber : Bool := false
  /-- What is done to the letters of its values. -/
  recasing : Option Recasing := none
  /-- Whether it stands for the variable that its value names. -/
  isReference : Bool := false
  deriving DecidableEq, Repr

namespace Variable

def text? (v : Variable) : Option String :=
  match v.elements with
  | none => v.value
  | some e => e.get? Elements.head

/-- The value at a place; one that is no list stands at the number zero. -/
def at? (v : Variable) (p : Place) : Option String :=
  match v.elements with
  | some e => e.get? p
  | none => if p = Elements.head then v.value else none

def all (v : Variable) : List (Place × String) :=
  match v.elements with
  | some e => e.all
  | none => (v.value.map fun t => (Elements.head, t)).toList

def put (v : Variable) (text : String) : Variable :=
  match v.elements with
  | none => { v with value := some text }
  | some e => { v with elements := some (e.put Elements.head text), isBare := false }

/-- Gives an element a value; a variable that is no list becomes one. -/
def putAt (v : Variable) (p : Place) (text : String) : Variable :=
  let e := v.elements.getD (.numbered ((v.value.map fun t => (0, t)).toList))
  { v with value := none, elements := some (e.put p text), isBare := false }

/-- Whether the variable has anything that can be used. -/
def isSet (v : Variable) : Bool := v.value.isSome || v.elements.any fun e => 0 < e.size

end Variable
/-! ### The state of a shell

What a shell knows while it runs a script: its variables, functions and options, what it does when
signals come, and what it has started in the background. -/

open Host Text

/-- What is left out of the commands that stand next. -/
inductive Skip where
  | nothing
  /-- All up to the end of so many loops. -/
  | leaveLoops (n : Nat)
  /-- All up to the next round of the last of so many loops. -/
  | repeatLoop (n : Nat)
  /-- All up to the end of the function. With a status of its own, it counts behind a signal too. -/
  | leaveFunction (isExplicit : Bool)
  deriving DecidableEq, Repr

/-- A function, with the name of the script that defines it. -/
structure Function where
  name : String
  body : Command
  script : String := ""
  /-- What is added to the lines of its commands. -/
  lineShift : Int := 0

/-- A call of a function or of a script that is a part of another one. -/
structure Frame where
  name : String
  /-- The name of the script that the commands come from. -/
  script : String
  /-- The line of the call. -/
  line : Nat
  /-- Whether it is one of a function. -/
  isFunction : Bool
  deriving DecidableEq, Repr

/-- Something that has been started. -/
structure Job where
  number : Nat
  /-- Its programs, and how they have ended. -/
  programs : List (Nat × Option ExitStatus)
  /-- What has been started, as it would be written: the text of each program. -/
  texts : List String := []
  /-- The directory that it has been started in. -/
  directory : Option String := none
  /-- Whether somebody has asked how it has ended. -/
  isWaited : Bool := false
  /-- Whether its state has not been shown yet. -/
  isNews : Bool := true
  deriving Repr

namespace Job

def isRunning (j : Job) : Bool := j.programs.any (·.2.isNone)

def status (j : Job) : ExitStatus := ((j.programs.getLast?).bind (·.2)).getD (.code 0)

def last (j : Job) : Nat := (j.programs.getLast?.map (·.1)).getD 0

def note (j : Job) (program : Nat) (status : ExitStatus) : Job :=
  { j with programs := j.programs.map fun p => if p.1 = program then (p.1, some status) else p }

end Job

/-- The options of the extended language by name, with their letters. -/
def extendedOptions : List (String × Option Char) :=
  [("allexport", some 'a'), ("braceexpand", some 'B'), ("emacs", none), ("errexit", some 'e'),
    ("errtrace", some 'E'), ("functrace", some 'T'), ("hashall", some 'h'),
    ("histexpand", some 'H'), ("history", none), ("ignoreeof", none),
    ("interactive-comments", none), ("keyword", some 'k'), ("monitor", some 'm'),
    ("noclobber", some 'C'), ("noexec", some 'n'), ("noglob", some 'f'), ("nolog", none),
    ("notify", some 'b'), ("nounset", some 'u'), ("onecmd", some 't'), ("physical", some 'P'),
    ("pipefail", none), ("posix", none), ("privileged", some 'p'), ("verbose", some 'v'),
    ("vi", none), ("xtrace", some 'x')]

/-- The letters of options in the order in which they are shown. -/
def letterOrder : List Char := "abefhikmnprtuvxBCEHPTcs".toList

def plainOptions : List (String × Option Char) :=
  [("errexit", some 'e'), ("noglob", some 'f'), ("ignoreeof", some 'I'),
    ("interactive", some 'i'), ("monitor", some 'm'), ("noexec", some 'n'), ("stdin", some 's'),
    ("xtrace", some 'x'), ("verbose", some 'v'), ("vi", some 'V'), ("emacs", some 'E'),
    ("noclobber", some 'C'), ("allexport", some 'a'), ("notify", some 'b'), ("nounset", some 'u'),
    ("privileged", some 'p'), ("nolog", none), ("debug", none)]

/-- What a function changes for as long as it runs. -/
structure Scope where
  /-- Whether it is one of a function, and not of a single command. -/
  isFunction : Bool := false
  /-- What the variables were that are its own, the latest first. -/
  bindings : List (String × Option Variable) := []
  /-- What the options were, if they are its own. -/
  options : Option (List String) := none

/-- Where the options in the arguments of a script are read. -/
structure OptionCursor where
  /-- The number of the next argument, counted from one. -/
  index : Nat := 1
  /-- How far an argument with several letters has been read. -/
  offset : Option Nat := none
  deriving DecidableEq, Repr

/-- How much there may be of something, and how much that can be raised to, in units of the shell;
nothing stands for any amount. -/
structure Limit where
  now : Option Nat
  most : Option Nat
  deriving DecidableEq, Repr

structure State where
  /-- The name by which the shell was called. -/
  name : String
  /-- The number of the shell. -/
  ownNumber : Nat
  parentNumber : Nat
  /-- The line of the command that is running. -/
  line : Nat := 0
  /-- What is added to the lines of commands: a text within a command counts its lines from the line
  of the command on. -/
  lineShift : Int := 0
  /-- The line up to which the script has been read. -/
  lineAhead : Nat := 0
  /-- The command of the shell that is running. -/
  running : Option String := none
  bindings : OrderedMap Variable := []
  /-- What functions and commands have changed for themselves; the innermost stands first. -/
  scopes : List Scope := []
  arguments : List String := []
  status : Nat := 0
  /-- How the last command within the words of this one has ended. -/
  innerStatus : Nat := 0
  functions : List Function := []
  aliases : List Alias := []
  /-- The limits that have been changed, the last first, by the letters of their options. -/
  limits : List (Char × Limit) := []
  documents : List (Nat × Word) := []
  /-- The number of the next document. -/
  fresh : Nat := 0
  skip : Skip := .nothing
  /-- The number of loops around the command. -/
  loops : Nat := 0
  /-- The names of the options that are set. -/
  options : List String := []
  /-- What is done when a signal comes; nothing, if the text is empty. -/
  traps : List (Nat × String) := []
  /-- The signals that have no effect since the start of the shell. -/
  deaf : List Nat := []
  jobs : List Job := []
  /-- The statuses of programs whose jobs have been forgotten. -/
  past : List (Nat × Nat) := []
  /-- The last program that was sent to the background. -/
  background : Option Nat := none
  cursor : OptionCursor := {}
  /-- The text of the directory, as the shell has come to it. -/
  directory : Option String := none
  /-- The programs that have been found: the places of their directories in the search path. -/
  found : List (String × Nat) := []
  /-- How often each of them has been run. -/
  uses : List (String × Nat) := []
  /-- While a signal is handled or the shell ends: the status that counts then. -/
  savedStatus : Option Nat := none
  /-- The signals that have come and that nothing has been done about yet. -/
  held : List Nat := []
  /-- What descriptors have led to in front of redirections: other descriptors, or nothing. -/
  redirected : List (List (Nat × Option Nat)) := []
  dialect : Dialect := .plain
  /-- The name of the script that the commands come from. -/
  script : String := ""
  /-- Whether the script is a file. -/
  isFile : Bool := false
  /-- What the text is called that is being read, if it is none of a file. -/
  reading : Option String := none
  /-- The status behind something that cannot be expanded. -/
  expansionStatus : Nat := 1
  /-- The calls that are being carried out, the innermost first. -/
  frames : List Frame := []
  /-- How the commands of the last pipeline have ended. -/
  pipeStatus : List Nat := []
  /-- The number of shells around this one that run the same script. -/
  depth : Nat := 0
  /-- The command that is running. -/
  command : Command := .nothing
  /-- The number of texts around this one that are run as a part of it. -/
  nesting : Nat := 0
  /-- The last word of the last command. -/
  lastWord : String := ""
  /-- The directories to go back to. -/
  directories : List String := []
  /-- The descriptors of pipes that commands write to or read from, as long as a command runs. -/
  channels : List Nat := []
  /-- The names of the features that are switched on. -/
  features : List String := []
  /-- Whether a trap is being carried out that errors do not set off again. -/
  isTrapping : Bool := false

/-- The blanks that separate fields unless something else is said. -/
def blanks : String := " \t\n"

/-- Where programs are looked for unless something else is said. -/
def usualPath : String := "/usr/local/sbin:/usr/local/bin:/usr/sbin:/usr/bin:/sbin:/bin"

namespace State

def has (s : State) (option : String) : Bool := s.options.contains option

def setOption (s : State) (option : String) (on : Bool) : State :=
  let others := s.options.filter (· != option)
  { s with options := if on then option :: others else others }

def title (s : State) : String :=
  match s.dialect with
  | .plain => join ": " ([s.name, toString s.line] ++ s.running.toList)
  | .extended =>
    let isInput := s.has "stdin" && s.script = s.name
    let line := if isInput then [] else ["line " ++ toString s.line]
    join ": " (s.script :: line ++ s.running.toList)

/-- The name of the script that functions come from that are made now. -/
def functionScript (s : State) : String :=
  if s.script != s.name || s.isFile then s.script
  else if s.has "stdin" then "main"
  else "environment"

def hasFeature (s : State) (name : String) : Bool := s.features.contains name

/-- Where a command of a function is, as variables tell it. -/
def frameBinding? (s : State) (name : String) : Option Variable :=
  let list (texts : List String) : Option Variable :=
    some { elements := some (.ofTexts texts) }
  let text (t : String) : Option Variable := some { value := some t }
  let functions := s.frames.filter (·.isFunction)
  match name with
  | "LINENO" => text (toString s.line)
  | "BASHPID" => text (toString s.ownNumber)
  | "BASH_SUBSHELL" => text (toString s.depth)
  | "SECONDS" => text "0"
  | "PIPESTATUS" => list (s.pipeStatus.map toString)
  | "DIRSTACK" => list (s.directory.toList ++ s.directories)
  | "GROUPS" => list ["0"]
  | "_" => text s.lastWord
  | "BASH_COMMAND" => text (Extended.Written.ofCommand s.command)
  | "FUNCNAME" =>
    if functions.isEmpty then none
    else list (s.frames.map (·.name) ++ if s.isFile then ["main"] else [])
  | "BASH_LINENO" =>
    list (s.frames.map (fun f => toString f.line) ++ if s.isFile then ["0"] else [])
  | "BASH_SOURCE" =>
    list (s.frames.map (·.script) ++ if s.isFile then [s.name] else [])
  | "SHELLOPTS" =>
    some { value := some (join ":" ((extendedOptions.map (·.1)).filter s.has)), constant := true }
  | "BASHOPTS" =>
    some { value := some (join ":" (s.features.mergeSort (· ≤ ·))), constant := true }
  | _ => none

/-- All variables, with those that tell of the shell itself. -/
def allBindings (s : State) : OrderedMap Variable :=
  let own := ["BASHOPTS", "BASH_LINENO", "BASH_SOURCE", "PIPESTATUS", "SHELLOPTS", "_"]
  s.bindings ++ own.filterMap fun n => (s.frameBinding? n).map fun v => (n, v)

/-- The name of the variable that a name stands for in the end. -/
def resolved (s : State) : Nat → String → String
  | 0, name => name
  | fuel + 1, name =>
    match OrderedMap.get? name s.bindings with
    | some v => if v.isReference && v.value.isSome then s.resolved fuel (v.value.getD "") else name
    | none => name

/-- The name of the variable that a name stands for. -/
def target (s : State) (name : String) : String :=
  match s.dialect with
  | .plain => name
  | .extended => s.resolved 8 name

def binding? (s : State) (name : String) : Option Variable :=
  match s.dialect with
  | .plain => OrderedMap.get? name s.bindings
  | .extended =>
    let name := s.target name
    (s.frameBinding? name).orElse fun _ => OrderedMap.get? name s.bindings

def value? (s : State) (name : String) : Option String :=
  (s.binding? name).bind Variable.text?

def charset (s : State) : Charset :=
  .ofEnvironment (["LC_ALL", "LC_CTYPE", "LANG"].filterMap fun n => (s.value? n).map (n, ·))

/-- Puts something in the place of a variable, or takes it away. -/
def putVariable (s : State) (name : String) (v : Option Variable) : State :=
  match v with
  | some v => { s with bindings := OrderedMap.insert name v s.bindings }
  | none => { s with bindings := s.bindings.filter fun e => e.1 != name }

/-- Changes a variable, whether it has been known or not. -/
def changeVariable (s : State) (name : String) (f : Variable → Variable) : State :=
  s.putVariable name (some (f ((OrderedMap.get? name s.bindings).getD {})))

def isConstant (s : State) (name : String) : Bool :=
  (OrderedMap.get? name s.bindings).any (·.constant)

/-- The complaint about a change of a variable that keeps its value. -/
def constantText (s : State) (name : String) : String :=
  match s.dialect with
  | .plain => s!"{name}: is read only"
  | .extended => s!"{name}: readonly variable"

def setValue (s : State) (name value : String) : State :=
  let exported := s.has "allexport"
  let s := s.changeVariable name fun v =>
    { v.put value with exported := v.exported || exported }
  if name = "OPTIND" then
    { s with cursor := ⟨((digits? value.toList).getD 1).max 1, none⟩ }
  else if name = "PATH" then { s with found := [] }
  else s

/-- The letters of a text as a variable keeps them. -/
def recased (k : Charset) (how : Option Recasing) (text : String) : String :=
  let change (f : Char → Char) : String :=
    let c := Characters.of k text
    c.encoded (c.chars.toList.map f)
  match how with
  | none | some .swapped => text
  | some .upper => change Letters.upper
  | some .lower => change Letters.lower

/-- Gives a variable, or an element of it, a value. -/
def store (s : State) (name : String) (place : Option Place) (value : String) : State :=
  let name := s.target name
  let value := recased s.charset ((s.binding? name).bind (·.recasing)) value
  match place with
  | none => s.setValue name value
  | some p =>
    let exported := s.has "allexport"
    s.changeVariable name fun v => { v.putAt p value with exported := v.exported || exported }

def separators (s : State) : List Char := ((s.value? "IFS").getD blanks).toList

def optionLetters (s : State) : String :=
  match s.dialect with
  | .plain => String.ofList (plainOptions.reverse.filterMap fun (name, letter) =>
    if s.has name then letter else none)
  | .extended => String.ofList (letterOrder.filter fun c =>
    (extendedOptions.any fun (name, letter) => letter == some c && s.has name) ||
      (c == 'c' && s.has "command") || (c == 's' && s.has "stdin"))

/-- The arguments with what stands between them where they are one text. -/
def joinedArguments (s : State) : String :=
  join (String.ofList (s.separators.take 1)) s.arguments

/-- The value of a parameter; that of all arguments is their text. -/
def parameter? (s : State) (name : String) : Option String :=
  match name with
  | "#" => some (toString s.arguments.length)
  | "?" => some (toString s.status)
  | "$" => some (toString s.ownNumber)
  | "!" => s.background.map toString
  | "-" => some s.optionLetters
  | "@" | "*" => if s.arguments.isEmpty then none else some s.joinedArguments
  | _ =>
    match digits? name.toList with
    | some n => if n = 0 then some s.name else s.arguments[n - 1]?
    | none => s.value? name

/-- A number by which names are put into order. -/
def rank (name : String) : Nat :=
  let codes := name.toList.map Char.toNat
  codes.headD 0 * 16 + codes.foldl (· + ·) 0

def environment (s : State) : List (String × String) :=
  let seen := s.bindings.filterMap fun (name, v) =>
    if v.exported then v.value.map (name, ·) else none
  match s.dialect with
  | .plain => seen.mergeSort fun a b => rank a.1 % 39 ≤ rank b.1 % 39
  | .extended => seen.reverse.mergeSort fun a b => Elements.group a.1 ≤ Elements.group b.1

def function? (s : State) (name : String) : Option Function :=
  s.functions.find? fun f => f.name == name

/-- The entries of a search path, each with a name appended. -/
def pathsIn (path name : String) : List String :=
  (splitAt ':' path.toList).map fun entry =>
    if entry.isEmpty then name else String.ofList entry ++ "/" ++ name

/-- The paths at which a program of a name is looked for. -/
def searchPaths (s : State) (name : String) : List String :=
  match s.value? "PATH" with
  | some path => pathsIn path name
  | none => []

def freeJob (s : State) : Nat → Nat → Nat
  | 0, n => n
  | fuel + 1, n => if s.jobs.any fun j => j.number == n then s.freeJob fuel (n + 1) else n

/-- Makes room for something that is started: the first job that has ended, and of which somebody
has asked how, is forgotten. -/
def makeRoom (s : State) : State :=
  let stale := s.jobs.find? fun j => !j.isRunning && j.isWaited
  { s with jobs := s.jobs.filter fun j => some j.number != stale.map Job.number }

def addJob (s : State) (programs : List Nat) : State × Nat :=
  let s := s.makeRoom
  let n := s.freeJob (s.jobs.length + 1) 1
  let job : Job := { number := n, programs := programs.map (·, none) }
  ({ s with jobs := s.jobs ++ [job] }, n)

def noteEnd (s : State) (program : Nat) (status : ExitStatus) : State :=
  { s with jobs := s.jobs.map fun j => j.note program status }

/-- What is trapped beside signals: each command, one that fails, and the return from a function. -/
def eachCommand : Nat := 65

def failing : Nat := 66

def returning : Nat := 67

/-- Whether the trap of a number counts for functions and for parts of the script that run by
themselves, too. -/
def isInherited (s : State) (n : Nat) : Bool :=
  (n = failing && s.has "errtrace") || ((n = eachCommand || n = returning) && s.has "functrace")

/-- The shell that runs a part of a script by itself. Only those signals are still caught that are
to have no effect. -/
def inner (s : State) : State :=
  { s with
    traps := s.traps.filter fun t => t.2.isEmpty || s.isInherited t.1
    jobs := [], skip := .nothing, loops := 0
    held := [], redirected := [], depth := s.depth + 1, expansionStatus := 1 }

/-- The signals whose traps have an action. -/
def trapped (s : State) : List Nat :=
  (s.traps.filter fun t => !t.2.isEmpty && t.1 < eachCommand).map (·.1)

def starting (name : String) (environment : List (String × String))
    (arguments options : List String) (own parent : Nat) : State :=
  let usual : List (String × String) :=
    [("IFS", blanks), ("OPTIND", "1"), ("PATH", usualPath), ("PS1", "# "), ("PS2", "> "),
      ("PS4", "+ ")]
  let given := (environment.filter fun e => isName e.1).filter fun e =>
    e.1 != "IFS" && e.1 != "OPTIND"
  let s : State := { name, arguments, options, ownNumber := own, parentNumber := parent }
  let s := (usual ++ [("PPID", toString parent)]).foldl (fun s (n, v) =>
    s.putVariable n (some { value := some v })) s
  given.foldl (fun s (n, v) => s.putVariable n (some { value := some v, exported := true })) s

def usualFeatures : List String :=
  ["checkwinsize", "cmdhist", "complete_fullquote", "extquote", "force_fignore",
    "globasciiranges", "globskipdots", "hostcomplete", "interactive_comments",
    "patsub_replacement", "progcomp", "promptvars", "sourcepath"]

def startingExtended (name : String) (environment : List (String × String)) (own parent : Nat) :
    State :=
  let usual : List (String × String) :=
    [("BASH", "/usr/bin/bash"), ("BASH_VERSION", "5.2.15(1)-release"),
      ("HOSTTYPE", "x86_64"), ("IFS", blanks),
      ("MACHTYPE", "x86_64-pc-linux-gnu"), ("OPTERR", "1"), ("OPTIND", "1"),
      ("OSTYPE", "linux-gnu"), ("PATH", usualPath), ("PS4", "+ "), ("SHELL", "/bin/bash"),
      ("TERM", "dumb")]
  let given := (environment.filter fun e => isName e.1).filter fun e =>
    !(["IFS", "OPTIND", "SHLVL", "_"].contains e.1)
  let level := ((List.lookup "SHLVL" environment).bind fun t => digits? t.toList).getD 0 + 1
  let numbers := [("EUID", "0"), ("PPID", toString parent), ("UID", "0")]
  let s : State :=
    { name, ownNumber := own, parentNumber := parent, dialect := .extended, script := name
      options := ["braceexpand", "hashall", "interactive-comments"], features := usualFeatures
      lastWord := (List.lookup "_" environment).getD name }
  let s := usual.foldl (fun s (n, v) => s.putVariable n (some { value := some v })) s
  let s := numbers.foldl (fun s (n, v) =>
    s.putVariable n (some { value := some v, constant := true, isNumber := true })) s
  let version := ["5", "2", "15", "1", "release", "x86_64-pc-linux-gnu"]
  let s := s.putVariable "BASH_VERSINFO"
    (some { elements := some (.ofTexts version), constant := true })
  let s := given.foldl (fun s (n, v) =>
    s.putVariable n (some { value := some v, exported := true })) s
  let s := if (OrderedMap.get? "OLDPWD" s.bindings).isSome then s
    else s.putVariable "OLDPWD" (some { exported := true })
  s.putVariable "SHLVL" (some { value := some (toString level), exported := true })

end State
end PipelineRunner.Shell
