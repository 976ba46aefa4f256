import PipelineRunner.Utility.Input

/-!
Utilities that run other programs: in another environment, or for some time only.
-/

namespace PipelineRunner.Utility

open Host Text Job

/-- The paths at which a program of a name is looked for. -/
def programPaths (environment : List (String × String)) (name : String) : List String :=
  if name.isEmpty then []
  else if name.toList.contains '/' then [name]
  else
    let path := (List.lookup "PATH" environment).getD "/bin:/usr/bin"
    (Text.splitAt ':' path.toList).map fun d =>
      if d.isEmpty then name else String.ofList d ++ "/" ++ name

/-- Runs the first program at some paths instead of this one; yields why that cannot be done. A file
that the host cannot run by itself is a script. -/
def become (argv : List String) (environment : List (String × String)) (reason : FileError) :
    List String → Act FileError
  | [] => pure reason
  | path :: rest => do
    let e : FileError ← Act.ask (.exec path argv environment)
    match e with
    | .execFormat => Act.ask (.exec "/bin/sh" ("sh" :: path :: argv.drop 1) environment)
    | .notFound | .notDirectory => become argv environment reason rest
    | .permissionDenied => become argv environment .permissionDenied rest
    | e => pure e

/-- Runs a program instead of this one, as it is called; yields why that cannot be done. -/
def runInstead (argv : List String) : Job FileError := do
  flush
  let environment := (← get).environment
  act (become argv environment .notFound (programPaths environment (argv.headD "")))

/-- The code of a program that cannot run another one. -/
def refusalCode (e : FileError) : Nat := if e = .notFound then 127 else 126

/-- Starts a program that does something else, and yields its number. -/
def fork (child : Act Empty) : Job Nat := fun d next =>
  .fork (child fun e => nomatch e) fun n => next (n, d)

/-- The number of a signal, as its name or number states it. -/
def signalOf? (text : String) : Option Nat :=
  match Text.digits? text.toList with
  | some n => if n < Signal.count then some n else none
  | none =>
    Signal.ofName? (if text.toUpper.startsWith "SIG" then Bytes.drop 3 text else text)

def setVariable (name value : String) (environment : List (String × String)) :
    List (String × String) :=
  if environment.any fun v => v.1 == name then
    environment.map fun v => if v.1 = name then (name, value) else v
  else environment ++ [(name, value)]

def words (text : String) : List String :=
  ((Text.splitAt ' ' (text.toList.map fun c => if c == '\t' || c == '\n' then ' ' else c)).filter
    fun w => !w.isEmpty).map String.ofList

/-- Runs a program in another environment, or prints the environment. -/
def env (args : List String) : Job Unit := do
  let known : List Known :=
    [.flag "i" "ignore-environment", .flag "0" "null", .value "u" "unset", .value "C" "chdir",
      .value "S" "split-string", .flag "v" "debug"]
  let a ← readArguments 125 known .inFront args
  let operands := ((a.last? "split-string").map words).getD [] ++ a.operands
  let isEmpty := a.has "ignore-environment" || operands.head? = some "-"
  let operands := if operands.head? = some "-" then operands.drop 1 else operands
  let isDefinition (s : String) : Bool := s.toList.contains '='
  let definitions := operands.takeWhile isDefinition
  let command := operands.drop definitions.length
  let d ← get
  let old := if isEmpty then [] else d.environment
  let old := old.filter fun v => !(a.values "unset").contains v.1
  let environment := definitions.foldl (fun vs d =>
    let name := String.ofList (d.toList.takeWhile (· != '='))
    setVariable name (Bytes.drop (name.length + 1) d) vs) old
  if command.isEmpty then
    let ending := if a.has "null" then String.singleton (Char.ofNat 0) else "\n"
    each (fun (name, value) => print (name ++ "=" ++ value ++ ending)) environment
  else
    if a.has "null" then misuse 125 "cannot specify --null (-0) with command"
    match a.last? "chdir" with
    | none => pure ()
    | some path =>
      let seen ← look
      match seen.files.findDirectory seen.directory path with
      | .ok d => ask (.enter d)
      | .error e =>
        let reason := inShellQuotes path ++ ": " ++ e.reason
        fail 125 s!"cannot change directory to {reason}"
    modify fun d => { d with environment }
    let e ← runInstead command
    let name := command.headD ""
    warn (quoted name ++ ": " ++ e.reason)
    if e = .notFound && name.toList.contains ' ' then
      warn "use -[v]S to pass options in shebang lines"
    exit (refusalCode e)

/-- Runs a program that does not care for the end of the terminal. -/
def nohup (args : List String) : Job Unit := do
  let a ← readArguments 125 [] .inFront args
  needOperand 125 a
  ask (.handle 1 .ignored)
  let e ← runInstead a.operands
  fail (refusalCode e)
    ("failed to run command " ++ inShellQuotes (a.operands.headD "") ++ ": " ++ e.reason)

def nice (args : List String) : Job Unit := do
  let a ← readArguments 125 [.value "n" "adjustment"] .inFront args
  if a.operands.isEmpty then printLine "0"
  else
    let e ← runInstead a.operands
    fail (refusalCode e) (quoted (a.operands.headD "") ++ ": " ++ e.reason)

/-- Runs a program in a group of its own. -/
def setsid (args : List String) : Job Unit := do
  let a ← readArguments 1 [.flag "w" "wait", .flag "f" "fork", .flag "c" "ctty"] .inFront args
  if a.operands.isEmpty then
    let title := (← get).title
    let hint := s!"Try '{title} --help' for more information."
    act (Act.print 2 s!"{title}: no command specified\n{hint}\n")
    exit 1
  ask .separate
  let e ← runInstead a.operands
  fail (refusalCode e) ("failed to execute " ++ a.operands.headD "" ++ ": " ++ e.reason)

/-- Runs a program instead of the copy that this is, and complains in vain if that fails. -/
def runOrRefuse (environment : List (String × String)) (argv : List String)
    (complaint : FileError → String) : Act Empty := do
  let e ← become argv environment .notFound (programPaths environment (argv.headD ""))
  Act.print 2 (complaint e ++ "\n")
  Act.exit (refusalCode e)

/-- Waits until a program that has been started ends. -/
def waitEnd (child : Nat) : Job ExitStatus :=
  iterate (fun (_ : Unit) => do
    let w : Waited ← ask (.wait (some child) true)
    match w with
    | .ended _ status => pure (.done status)
    | .noChildren => pure (.done (.code 0))
    | _ => pure (.again ())) ()

/-- Waits for the end of a program for so many milliseconds at most. -/
def waitWithin (child milliseconds : Nat) : Job (Option ExitStatus) := do
  let now : Waited ← ask (.wait (some child) false)
  match now with
  | .ended _ status => pure (some status)
  | _ =>
    ask (.sleep milliseconds)
    let later : Waited ← ask (.wait (some child) false)
    match later with
    | .ended _ status => pure (some status)
    | _ => pure none

/-- Runs a program, and ends it after some time. -/
def timeout (args : List String) : Job Unit := do
  let known : List Known :=
    [.value "s" "signal", .value "k" "kill-after", .flag "" "foreground",
      .flag "" "preserve-status", .flag "v" "verbose"]
  let a ← readArguments 125 known .inFront args
  let time (text : String) : Job Nat :=
    match Quantity.time? text with
    | some n => pure n
    | none => misuse 125 ("invalid time interval " ++ quoted text)
  let signal ← match a.last? "signal" with
    | none => pure Signal.terminate
    | some text =>
      match signalOf? text with
      | some n => pure n
      | none => misuse 125 (quoted text ++ ": invalid signal")
  let grace ← match a.last? "kill-after" with
    | none => pure 0
    | some text => time text
  match a.operands with
  | text :: command@(name :: _) =>
    let milliseconds ← time text
    let d ← get
    if !a.has "foreground" then ask .separate
    ask (.handle Signal.childEnded .caught)
    let title := d.title
    let child ← fork (runOrRefuse d.environment command fun e =>
      title ++ ": failed to run command " ++ quoted name ++ ": " ++ e.reason)
    let send (signal : Nat) : Job Unit := do
      if a.has "verbose" then
        let what := Signal.name signal
        warn (s!"sending signal {what} to command " ++ quoted name)
      let _ : Except FileError Unit ← ask (.kill child signal)
      if !a.has "foreground" then
        ask (.handle signal .ignored)
        let _ : Except FileError Unit ← ask (.kill 0 signal)
    let first ← if milliseconds = 0 then some <$> waitEnd child else waitWithin child milliseconds
    match first with
    | some (.code n) => exit n
    | some (.signal n) => act (Act.stop (.signal n))
    | none =>
      send signal
      let second ← if grace = 0 then some <$> waitEnd child else waitWithin child grace
      let status ← match second with
        | some status => pure status
        | none => do
          send Signal.kill
          waitEnd child
      let isKept := a.has "preserve-status" || status = .signal Signal.kill
      exit (if isKept then status.number else 124)
  | _ =>
    pointToHelp 125

def which (args : List String) : Job Unit := do
  let a ← readArguments 2 [.flag "a" "all"] .inFront args
  if a.operands.isEmpty then exit 1
  let d ← get
  let seen ← look
  let isProgram (path : String) : Bool :=
    match seen.files.find seen.directory path true with
    | .ok i =>
      match seen.files.content i with
      | .program _ => true
      | .file _ => (seen.files.node i).mode &&& 0o111 != 0
      | _ => false
    | .error _ => false
  each (fun name => do
    let found := (programPaths d.environment name).filter isProgram
    if found.isEmpty then atLeast 1
    each printLine (if a.has "all" then found else found.take 1)) a.operands

end PipelineRunner.Utility
