import PipelineRunner.Shell.Extended.Builtin.Settings
import PipelineRunner.Shell.Extended.Interpreter
import PipelineRunner.Shell.Interpreter

/-!
A call of the shell of the extended language: its options, and the script that it runs. A script
that is its input is read line by line, so that its commands can read what stands behind them.
-/

namespace PipelineRunner.Shell.Extended

open Host Text Shell.Action

namespace Session

/-- How the shell is called. -/
structure Wishes where
  /-- Whether the script stands in the arguments. -/
  hasScript : Bool := false
  readsInput : Bool := false
  /-- The features that are switched on or off. -/
  features : List (String × Bool) := []
  deriving Repr

/-- Long options that change nothing, and whether a word belongs to them. -/
def idleOptions : List (String × Bool) :=
  [("debug", false), ("init-file", true), ("login", false), ("noediting", false),
    ("noprofile", false), ("norc", false), ("rcfile", true)]

def usage : String :=
  "Usage:\tbash [GNU long option] [option] ...\n" ++
    "\tbash [GNU long option] [option] script-file ...\nGNU long options:\n" ++
  String.join (["debug", "debugger", "dump-po-strings", "dump-strings", "help", "init-file",
    "login", "noediting", "noprofile", "norc", "posix", "pretty-print", "rcfile", "restricted",
    "verbose", "version"].map fun name => "\t--" ++ name ++ "\n") ++
  "Shell options:\n\t-ilrsD or -c command or -O shopt_option\t\t(invocation only)\n" ++
    "\t-abefhkmnptuvxBCEHPT or -o option\n"

/-- Complains, and ends the shell before it has begun. -/
def refuse {α : Type} (text : String) : Action α := do
  print 2 ((← get).name ++ ": " ++ text ++ "\n")
  setStatus 2
  throw .exit

/-- Refuses an option, and tells how the shell is used. -/
def refuseOption {α : Type} (option : String) : Action α := do
  print 2 ((← get).name ++ ": " ++ option ++ ": invalid option\n" ++ usage)
  setStatus 2
  throw .exit

/-- Takes the long options, which stand first; yields what is left. -/
def longOptions : Nat → List String → Action (List String)
  | _, [] => pure []
  | 0, rest => pure rest
  | fuel + 1, a :: rest => do
    let isLong := a.startsWith "--"
    let name := Bytes.drop (if isLong then 2 else 1) a
    if !a.startsWith "-" || name.isEmpty then pure (a :: rest)
    else
      match List.lookup name idleOptions, rest with
      | some true, [] => refuse (name ++ ": option requires an argument")
      | some true, _ :: rest => longOptions fuel rest
      | some false, rest => longOptions fuel rest
      | none, rest =>
        if name = "posix" || name = "verbose" then
          modify fun s => s.setOption name true
          longOptions fuel rest
        else if isLong then refuseOption a
        else pure (a :: rest)

/-- Takes the letters of an argument; yields what is left of the arguments. -/
def letters (on : Bool) (w : Wishes) : List Char → List String → Action (Wishes × List String)
  | [], rest => pure (w, rest)
  | c :: cs, rest => do
    match c, rest with
    | 'c', rest => letters on { w with hasScript := true } cs rest
    | 's', rest => letters on { w with readsInput := true } cs rest
    | 'i', rest | 'l', rest | 'r', rest | 'D', rest => letters on w cs rest
    | 'o', [] =>
      print 1 (Builtin.optionLines (← get) (if on then none else some "set"))
      letters on w cs []
    | 'o', name :: rest =>
      if extendedOptions.any fun o => o.1 == name then
        modify fun s => s.setOption name on
        letters on w cs rest
      else
        let shell := (← get).name
        refuse ("line 0: " ++ shell ++ ": " ++ name ++ ": invalid option name")
    | 'O', [] =>
      let s ← get
      let command := if on then none else some "shopt"
      print 1 (String.join (Builtin.features.map fun f =>
        Builtin.settingLine command f (s.hasFeature f)))
      letters on w cs []
    | 'O', name :: rest => letters on { w with features := w.features ++ [(name, on)] } cs rest
    | c, rest =>
      match Builtin.optionOf? c with
      | some name =>
        modify fun s => s.setOption name on
        letters on w cs rest
      | none => refuseOption ((if on then "-" else "+") ++ String.singleton c)

/-- Takes the options in front of the other arguments; yields what is left. -/
def options (w : Wishes) : Nat → List String → Action (Wishes × List String)
  | 0, rest => pure (w, rest)
  | _, [] => pure (w, [])
  | fuel + 1, a :: rest => do
    if a = "-" || a = "--" then pure (w, rest)
    else if a.startsWith "-" || a.startsWith "+" then
      let (w, rest) ← letters (a.startsWith "-") w (a.toList.drop 1) rest
      options w fuel rest
    else pure (w, a :: rest)

def switch (name : String) (on : Bool) : Action Unit := do
  if !Builtin.features.contains name then
    refuse ("line 0: " ++ name ++ ": invalid shell option name")
  modify fun s =>
    let others := s.features.filter (· != name)
    { s with features := if on then name :: others else others }

/-- Whether a text breaks off within a line. -/
def isCut (text : String) : Bool :=
  text.endsWith "\n" && Source.joinsNext (text.toList.dropLast)

/-- A line of the input with its end, behind a part of it that has been read. -/
def nextLine : Nat → String → Action String
  | 0, text => pure text
  | fuel + 1, text => do
    match ← ask (.read 0 Act.blockSize (some '\n')) with
    | .error _ | .ok "" => pure text
    | .ok more =>
      if more.endsWith "\n" then pure (text ++ more) else nextLine fuel (text ++ more)

/-- Runs the script that is the input, from a line on; a part of its next command may have been
read, and so far it has had the given status. -/
def runInput (r : Runner) : Nat → Nat → Nat → String → Action Nat
  | 0, status, _, _ => pure status
  | fuel + 1, status, line, text => do
    let more ← nextLine Act.patience ""
    let text := text ++ more
    let s ← get
    let isLast := more.isEmpty
    if text.isEmpty then pure status
    else
      let source := Source.ofScript .extended text line
      match (prepared s source).nextCommand with
      | .error fault =>
        if !isLast && fault.error.isOpen then runInput r fuel status line text
        else
          refuseSource fault
          setStatus 2
          pure 2
      | .ok (_, read) =>
        if !isLast && (isCut text || !read.openDocuments.isEmpty) then
          runInput r fuel status line text
        else
          let status ← r.runSource {} Act.patience status source
          runInput r fuel status (line + text.toList.count '\n') ""

def runFile (r : Runner) (path : String) (arguments : List String) : Action Unit := do
  let s ← get
  let seen ← look
  let isThere (p : String) : Bool := (seen.files.find? seen.directory p true).isSome
  let isPath := path.toList.contains '/'
  let place := if isPath || isThere path then path
    else ((s.searchPaths path).find? isThere).getD path
  let end_ (status : Nat) : Action Unit := do
    setStatus status
    throw .exit
  match ← act (Act.openFile place .read) with
  | .error e =>
    print 2 (s.name ++ ": " ++ place ++ ": " ++ e.reason ++ "\n")
    end_ (if e = .notFound then 127 else 126)
  | .ok d =>
    modify fun s => { s with
      name := path, script := path, isFile := true, expansionStatus := 1, arguments }
    if seen.files.hasDirectory seen.directory place then
      print 2 (path ++ ": " ++ place ++ ": " ++ FileError.isDirectory.reason ++ "\n")
      end_ 126
    else
      let text := (← act (Act.readAll d)).toOption.getD ""
      act (Act.close d)
      if (text.toList.takeWhile (· != '\n')).contains (Char.ofNat 0) then
        print 2 (path ++ ": " ++ place ++ ": cannot execute binary file\n")
        end_ 126
      else
        let _ ← r.runText {} none 1 text

/-- Runs the file that the environment names, if there is one. -/
def runFirst (r : Runner) : Action Unit := do
  match ((← get).value? "BASH_ENV").bind (Source.document? .extended) with
  | none => pure ()
  | some word =>
    let path ← r.text {} word
    match ← act (Act.openFile path .read) with
    | .error _ => pure ()
    | .ok d =>
      let text := (← act (Act.readAll d)).toOption.getD ""
      act (Act.close d)
      let s ← get
      modify fun s => { s with script := path }
      let _ ← r.runText {} none 1 text
      modify fun t => { t with script := s.script }

/-- Runs the script that the arguments of the shell name. -/
def run (r : Runner) (arguments : List String) : Action Unit := do
  let rest ← longOptions (arguments.length + 1) arguments
  let (w, rest) ← options {} (rest.length + 1) rest
  if w.hasScript && rest.isEmpty then refuse "-c: option requires an argument"
  each (fun (name, on) => switch name on) w.features
  Shell.Session.enter
  runFirst r
  let fromInput (arguments : List String) : Action Unit := do
    modify fun s => { (s.setOption "stdin" true) with arguments }
    let _ ← runInput r Act.patience 0 1 ""
  match rest with
  | [] => fromInput []
  | first :: more =>
    if w.hasScript then
      modify fun s =>
        let name := more.headD s.name
        { (s.setOption "command" true) with
          name, script := name, arguments := more.drop 1, expansionStatus := 127 }
      let _ ← r.runText { exits := true } (some "-c") 1 first
    else if w.readsInput then fromInput rest
    else runFile r first more

end Session

/-- The shell of the extended language as a program. -/
def shell (c : Call) : Routine :=
  Act.ask .self fun ((own, parent) : Nat × Nat) =>
    let name := c.argv.headD "bash"
    let s := State.startingExtended name c.environment own parent
    let among (name : String) : List String :=
      ((List.lookup name c.environment).map fun t =>
        (splitAt ':' t.toList).map String.ofList).getD []
    let options := (among "SHELLOPTS").filter fun o => extendedOptions.any fun k => k.1 == o
    let features := (among "BASHOPTS").filter Builtin.features.contains
    let s := { s with
      options := s.options ++ options.filter fun o => !s.has o
      features := s.features ++ features.filter fun f => !s.hasFeature f }
    let r := runner Act.patience
    let main : Action Empty := do
      orElse (Session.run r (c.argv.drop 1)) fun _ => pure ()
      r.leave
    main.routine s

end PipelineRunner.Shell.Extended
