import PipelineRunner.Shell.Condition
import PipelineRunner.Shell.Extended.Builtin.Basic
import PipelineRunner.Shell.Extended.Written
import PipelineRunner.Shell.Lookup

/-!
The commands of shells of the extended language that tell what names stand for, and what they stand
for: functions come first, then the commands that the shell carries out itself, then programs.
-/

namespace PipelineRunner.Shell.Extended

open Host Text Shell.Action

/-- The names of the commands that a shell of the extended language carries out itself. -/
def builtinNames : List String :=
  [".", ":", "[", "alias", "bg", "break", "builtin", "caller", "cd", "command", "continue",
    "declare", "dirs", "disown", "echo", "enable", "eval", "exec", "exit", "export", "false", "fg",
    "getopts", "hash", "jobs", "kill", "let", "local", "logout", "mapfile", "popd", "printf",
    "pushd", "pwd", "read", "readarray", "readonly", "return", "set", "shift", "shopt", "source",
    "suspend", "test", "times", "trap", "true", "type", "typeset", "ulimit", "umask", "unalias",
    "unset", "wait"]

/-- The names of the words that begin or end commands. -/
def reservedWords : List String :=
  ["!", "[[", "]]", "case", "coproc", "do", "done", "elif", "else", "esac", "fi", "for",
    "function", "if", "in", "select", "then", "time", "until", "while", "\x7b", "\x7d"]

/-- What a name stands for. -/
inductive Sense where
  | aliased (text : String)
  | reserved
  | function (f : Function)
  | builtin
  | program (path : String) (isKnown : Bool)

/-- The paths of the programs of a name, in the order of the search path. -/
def programsOf (paths : List String) : Action (List String) := do
  let seen ← look
  pure (paths.filter fun p =>
    match seen.files.find? seen.directory p true with
    | some i => isProgramFile seen.files i && Condition.isExecutable (seen.files.node i)
    | none => false)

/-- All that a name stands for, the first of which counts. -/
def sensesOf (paths : Option (List String)) (withFunctions : Bool) (name : String) :
    Action (List Sense) := do
  let s ← get
  let aliased := if !s.hasFeature "expand_aliases" then []
    else ((s.aliases.find? fun a => a.name == name).map fun a => Sense.aliased a.text).toList
  let reserved := if reservedWords.contains name then [Sense.reserved] else []
  let functions := if !withFunctions then [] else (s.function? name).toList.map Sense.function
  let builtins := if builtinNames.contains name then [Sense.builtin] else []
  let candidates := if name.toList.contains '/' then [name]
    else paths.getD (s.searchPaths name)
  let known := (List.lookup name s.found).bind fun n => (s.searchPaths name)[n]?
  let programs ← programsOf candidates
  let programs := programs.map fun p => Sense.program p (some p == known)
  pure (aliased ++ reserved ++ functions ++ builtins ++ programs)

namespace Sense

def sentence (name : String) : Sense → String
  | aliased text => name ++ " is aliased to \x60" ++ text ++ "'\n"
  | reserved => name ++ " is a shell keyword\n"
  | function f => name ++ " is a function\n" ++ Written.ofFunction f.name f.body
  | builtin => name ++ " is a shell builtin\n"
  | program path isKnown =>
    if isKnown then name ++ " is hashed (" ++ path ++ ")\n" else name ++ " is " ++ path ++ "\n"

/-- The word for what a name stands for. -/
def kind : Sense → String
  | aliased _ => "alias"
  | reserved => "keyword"
  | function _ => "function"
  | builtin => "builtin"
  | program .. => "file"

/-- What a name stands for as it would be written. -/
def short (name : String) : Sense → String
  | aliased text => "alias " ++ name ++ "=" ++ Quoting.inSingle text ++ "\n"
  | program path _ => path ++ "\n"
  | _ => name ++ "\n"

def path? : Sense → Option String
  | program path _ => some path
  | _ => none

end Sense

namespace Builtin

def type (args : List String) : Action Nat := do
  let (options, names) ← options "afptP" args
  let has := hasLetter options
  let rec go (status : Nat) : List String → Action Nat
    | [] => pure status
    | name :: rest => do
      let senses ← sensesOf none (!has 'f') name
      let senses := if has 'P' then senses.filter fun x => x.path?.isSome else senses
      let senses := if has 'a' then senses else senses.take 1
      if senses.isEmpty then
        if !(has 't' || has 'p' || has 'P') then warn (name ++ ": not found")
        go 1 rest
      else
        let lines := senses.map fun x =>
          if has 't' then x.kind ++ "\n"
          else if has 'p' || has 'P' then (x.path?.map (· ++ "\n")).getD ""
          else x.sentence name
        let status ← say (String.join lines) status
        go status rest
  go 0 names

/-- Tells what names stand for, in sentences or as they would be written. -/
def explain (inSentence isUsual : Bool) (names : List String) : Action Nat := do
  let rec go (status : Nat) : List String → Action Nat
    | [] => pure status
    | name :: rest => do
      let paths := if isUsual then some (State.pathsIn usualPath name) else none
      match ← sensesOf paths true name with
      | x :: _ =>
        let status ← say (if inSentence then x.sentence name else x.short name) status
        go status rest
      | [] =>
        if inSentence then warn (name ++ ": not found")
        go status rest
  let rec isAnyKnown : List String → Action Bool
    | [] => pure false
    | name :: rest => do
      let senses ← sensesOf none true name
      if senses.isEmpty then isAnyKnown rest else pure true
  go (if ← isAnyKnown names then 0 else 1) names

/-- Shows the programs that have been found, or looks for some. -/
def hash (args : List String) : Action Nat := do
  let (options, names) ← options "dlp:rt" args
  let has := hasLetter options
  if has 'r' then modify fun s => { s with found := [] }
  let s ← get
  let pathOf (name : String) : Option String :=
    (List.lookup name s.found).bind fun n => (s.searchPaths name)[n]?
  if names.isEmpty then
    if has 'r' then pure 0
    else if s.found.isEmpty then say "hash: hash table empty\n" 0
    else
      let lines := s.found.map fun (name, _) =>
        let uses := toString ((List.lookup name s.uses).getD 0)
        Bytes.fill ' ' (4 - uses.length) ++ uses ++ "\t" ++ (pathOf name).getD "" ++ "\n"
      say ("hits\tcommand\n" ++ String.join lines) 0
  else
    forEach (fun (name : String) => do
      let missing : Action Bool := do
        warn (name ++ ": not found")
        pure false
      if has 't' then
        match pathOf name with
        | some path => do
          let _ ← say (if names.length = 1 then path ++ "\n" else name ++ "\t" ++ path ++ "\n") 0
          pure true
        | none => missing
      else if has 'd' then
        match pathOf name with
        | some _ => do
          modify fun s => { s with found := s.found.filter fun f => f.1 != name }
          pure true
        | none => missing
      else if builtinNames.contains name || (s.function? name).isSome then pure true
      else
        modify fun s => { s with
          found := s.found.filter fun f => f.1 != name
          uses := s.uses.filter fun f => f.1 != name }
        match ← findProgram none name with
        | .ok _ => pure true
        | .error _ => missing) 0 names

/-- Gives names to texts, or shows those that there are. -/
def alias_ (args : List String) : Action Nat := do
  let (_, rest) ← options "p" args
  let s ← get
  let line (a : Alias) : String := "alias " ++ a.name ++ "=" ++ Quoting.inSingle a.text ++ "\n"
  if rest.isEmpty then
    let sorted := s.aliases.mergeSort fun a b => a.name ≤ b.name
    say (String.join (sorted.map line)) 0
  else
    forEach (fun (a : String) => do
      let (name, value) := splitDefinition a
      match if name.isEmpty then none else value with
      | some value =>
        if name.toList.any fun c => " \t\n/$\x60=\"'\\&|;()<>".toList.contains c then
          warn ("\x60" ++ name ++ "': invalid alias name")
          pure false
        else
          modify fun s =>
            { s with aliases := ⟨name, value⟩ :: s.aliases.filter fun b => b.name != name }
          pure true
      | none =>
        match s.aliases.find? fun b => b.name == a with
        | some b => do
          let _ ← say (line b) 0
          pure true
        | none => do
          warn (a ++ ": not found")
          pure false) 0 rest

/-- Takes names away that stand for texts. -/
def unalias (args : List String) : Action Nat := do
  let (options, names) ← options "a" args
  if hasLetter options 'a' then
    modify fun s => { s with aliases := [] }
    pure 0
  else if names.isEmpty then misuse
  else
    forEach (fun (name : String) => do
      if (← get).aliases.any fun a => a.name == name then
        modify fun s => { s with aliases := s.aliases.filter fun a => a.name != name }
        pure true
      else
        warn (name ++ ": not found")
        pure false) 0 names

def caller (args : List String) : Action Nat := do
  let (_, rest) ← options "" args
  let s ← get
  let sources := s.frames.map (·.script) ++ (if s.isFile then [s.name] else [])
  let names := s.frames.map (·.name) ++ (if s.isFile then ["main"] else [])
  let lines := s.frames.map fun f => toString f.line
  match rest with
  | [] =>
    match lines with
    | [] => pure 1
    | line :: _ => say (line ++ " " ++ sources.getD 1 "NULL" ++ "\n") 0
  | a :: _ =>
    match Numeral.int? a with
    | some (.ofNat n) =>
      match lines[n]?, names[n + 1]?, sources[n + 1]? with
      | some line, some name, some source => say (join " " [line, name, source] ++ "\n") 0
      | _, _, _ => pure 1
    | some _ => pure 1
    | none => do
      warn (a ++ ": invalid number")
      misuse

end Builtin
end PipelineRunner.Shell.Extended
