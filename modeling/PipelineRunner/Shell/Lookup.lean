import PipelineRunner.Shell.Builtin.Basic

/-!
What the names of commands stand for: functions, commands that the shell carries out itself, and
programs, which are looked for in the directories of the search path.
-/

namespace PipelineRunner.Shell

open Host Text

/-- The commands of the shell that are not special. -/
def regularNames : List String :=
  ["[", "alias", "bg", "cd", "chdir", "command", "echo", "false", "fg", "getopts", "hash", "jobs",
    "kill", "printf", "pwd", "read", "test", "true", "type", "ulimit", "umask", "unalias", "wait"]

/-- What a name of a command stands for. -/
inductive Meaning where
  | function (f : Function)
  | builtin (isSpecial : Bool)
  /-- A program, with the place of its directory in the search path. -/
  | program (place : Nat)
  | path
  | unknown (reason : FileError)

/-- Whether a program may stand at a node. -/
def isProgramFile (t : FileTree) (i : Nat) : Bool :=
  match t.content i with
  | .file _ | .program _ => true
  | _ => false

/-- The place of the first of some paths that a program stands at; behind `n` of them, of which one
has been refused for the given reason. -/
def firstProgram (seen : Surroundings) (reason : FileError) : Nat → List String →
    Except FileError Nat
  | _, [] => .error reason
  | n, path :: rest =>
    match seen.files.find seen.directory path true with
    | .ok i =>
      if isProgramFile seen.files i then .ok n
      else firstProgram seen .permissionDenied (n + 1) rest
    | .error .notFound | .error .notDirectory => firstProgram seen reason (n + 1) rest
    | .error e => firstProgram seen e (n + 1) rest

/-- How messages word the reason why a file cannot be run, opened or made. -/
def reasonText (e : FileError) (ofMissing : String) : String :=
  if e = .notFound || e = .notDirectory then ofMissing else e.reason

def runReason (e : FileError) : String := reasonText e "not found"

namespace Action

/-- The place of a program in the search path. It is remembered, unless the path is another one. -/
def findProgram (paths : Option (List String)) (name : String) : Action (Except FileError Nat) := do
  let s ← get
  match if paths.isNone then List.lookup name s.found else none with
  | some place => pure (.ok place)
  | none =>
    let seen ← look
    match firstProgram seen .notFound 0 (paths.getD (s.searchPaths name)) with
    | .ok place =>
      if paths.isNone then modify fun s => { s with found := s.found ++ [(name, place)] }
      pure (.ok place)
    | .error e => pure (.error e)

/-- What a name stands for beside functions and programs. -/
def builtin? (name : String) : Option Meaning :=
  if specialNames.contains name then some (.builtin true)
  else if regularNames.contains name then some (.builtin false)
  else none

/-- What a name stands for. Other paths than usual may be searched for programs. -/
def meaning (paths : Option (List String)) (withFunctions : Bool) (name : String) :
    Action Meaning := do
  let s ← get
  if name.toList.contains '/' then pure .path
  else
    let f := if withFunctions then s.function? name else none
    match (f.map Meaning.function).orElse fun _ => builtin? name with
    | some m => pure m
    | none =>
      match ← findProgram paths name with
      | .ok place => pure (.program place)
      | .error e => pure (.unknown e)

end Action
end PipelineRunner.Shell

/-! ### Commands about names

The commands of the shell that tell what names stand for, and the one that gives them other names.
-/

namespace PipelineRunner.Shell.Builtin

open Host Text Shell.Action

/-- The text by which an alias can be made again. -/
def aliasText (a : Alias) : String := a.name ++ "=" ++ inQuotes a.text ++ "\n"

/-- Tells what a name stands for, in a sentence or as a command would be written. Other paths than
usual may be searched. -/
def explain (inSentence : Bool) (paths : Option (List String)) (name : String) :
    Action (String × Nat) := do
  let told (sentence short : String) : Action (String × Nat) :=
    pure (if inSentence then (name ++ sentence ++ "\n", 0) else (short ++ "\n", 0))
  let s ← get
  let unknown : Action (String × Nat) :=
    pure (if inSentence then name ++ ": not found\n" else "", 127)
  if keywords.contains name then told " is a shell keyword" name
  else
    match s.aliases.find? fun a => a.name == name with
    | some a =>
      if inSentence then told s!" is an alias for {a.text}" ""
      else pure ("alias " ++ aliasText a, 0)
    | none =>
      let isTracked := paths.isNone && s.found.any fun f => f.1 == name
      match ← meaning paths true name with
      | .function _ => told " is a shell function" name
      | .builtin true => told " is a special shell builtin" name
      | .builtin false => told " is a shell builtin" name
      | .program place =>
        let path := (paths.getD (s.searchPaths name)).getD place name
        told (if isTracked then s!" is a tracked alias for {path}" else s!" is {path}") path
      | .path =>
        let seen ← look
        if seen.files.contains seen.directory name then told s!" is {name}" name else unknown
      | .unknown _ => unknown

def type (args : List String) : Action Nat := do
  let rec go (text : String) (status : Nat) : List String → Action Nat
    | [] => say text status
    | name :: rest => do
      let (more, status') ← explain true none name
      go (text ++ more) (status ||| status') rest
  go "" 0 args

/-- Shows the programs that have been found, or looks for some. -/
def hash (args : List String) : Action Nat := do
  let (options, names) ← options "r" args
  let s ← get
  if !options.isEmpty then
    modify fun s => { s with found := [] }
    pure 0
  else if names.isEmpty then
    let sorted := s.found.mergeSort fun a b =>
      State.rank a.1 % 32768 % 31 ≤ State.rank b.1 % 32768 % 31
    let lines := sorted.map fun (name, place) => (s.searchPaths name).getD place name ++ "\n"
    say (String.join lines) 0
  else
    worst (fun name => do
      modify fun s => { s with found := s.found.filter fun f => f.1 != name }
      match ← meaning none true name with
      | .unknown e => do
        warn s!"{name}: {runReason e}"
        pure 1
      | _ => pure 0) 0 names

/-- Gives names to texts, or shows those that there are. -/
def alias_ (args : List String) : Action Nat := do
  let s ← get
  if args.isEmpty then
    let sorted := s.aliases.mergeSort fun a b =>
      State.rank a.name % 39 ≤ State.rank b.name % 39
    say (String.join (sorted.map aliasText)) 0
  else
    let rec go (text : String) (status : Nat) : List String → Action Nat
      | [] => say text status
      | a :: rest => do
        let (name, value) := splitDefinition a
        match if name.isEmpty then none else value with
        | some value => do
          modify fun s =>
            let isOld := s.aliases.any fun a => a.name == name
            let aliases := if isOld
              then s.aliases.map fun a => if a.name == name then ⟨name, value⟩ else a
              else s.aliases ++ [⟨name, value⟩]
            { s with aliases }
          go text status rest
        | none => do
          match (← get).aliases.find? fun b => b.name == a with
          | some b => go (text ++ aliasText b) status rest
          | none => do
            print 2 s!"alias: {a} not found\n"
            go text 1 rest
    go "" 0 args

/-- Takes names away that stand for texts. -/
def unalias (args : List String) : Action Nat := do
  let (options, names) ← options "a" args
  if !options.isEmpty then
    modify fun s => { s with aliases := [] }
    pure 0
  else
    worst (fun name => do
      if (← get).aliases.any fun a => a.name == name then
        modify fun s => { s with aliases := s.aliases.filter fun a => a.name != name }
        pure 0
      else
        print 2 s!"unalias: {name} not found\n"
        pure 1) 0 names

end PipelineRunner.Shell.Builtin
