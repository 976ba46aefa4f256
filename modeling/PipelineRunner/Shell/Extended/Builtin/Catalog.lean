import PipelineRunner.Shell.Extended.Builtin.Basic
import PipelineRunner.Shell.Extended.Builtin.Jobs
import PipelineRunner.Shell.Extended.Builtin.Names
import PipelineRunner.Shell.Extended.Builtin.Places
import PipelineRunner.Shell.Extended.Builtin.Reading
import PipelineRunner.Shell.Extended.Builtin.Testing
import PipelineRunner.Shell.Extended.Escapes

/-!
The commands of shells of the extended language that print texts.
-/

namespace PipelineRunner.Shell.Extended.Builtin

open Host Text Shell.Action

/-- Whether an argument is made up of the letters of options. -/
def isEchoOption (a : String) : Bool :=
  a.startsWith "-" && a.length != 1 && (a.toList.drop 1).all ['n', 'e', 'E'].contains

/-- Prints its arguments, in which escapes may stand for bytes. -/
def echo (args : List String) : Action Nat := do
  let s ← get
  let letters := (args.takeWhile isEchoOption).flatMap fun a => a.toList.drop 1
  let words := args.dropWhile isEchoOption
  let hasEscapes := letters.foldl (fun now c => if c = 'e' then true else if c = 'E' then false
    else now) (s.hasFeature "xpg_echo")
  let ending := if letters.contains 'n' then "" else "\n"
  let text := join " " words
  if hasEscapes then
    let u := Unescaped.of .printed s.charset text
    say (if u.stops then u.text else u.text ++ ending) 0
  else say (text ++ ending) 0

def setting : Action Layouts.Setting := do
  let s ← get
  let seen ← look
  let zone : Zone := match s.value? "TZ" with
    | none | some "" => .common
    | some text => .ofText text
  pure { charset := s.charset, zone, now := .ofMilliseconds seen.files.now }

/-- Prints its arguments in a format, or gives the text to a variable. -/
def printf (args : List String) : Action Nat := do
  let (options, rest) ← options "v:" args
  match rest with
  | [] => misuse
  | format :: args =>
    let target := valueOf? options 'v'
    if let some name := target then
      if !isTarget name then failWith (invalidName name) 2
    let setting ← setting
    let p := Layouts.passes setting format (args.length + 1) { arguments := args }
    each warn p.complaints
    let text := String.join p.texts.reverse
    match target with
    | none => say text p.status
    | some name =>
      let text := String.ofList (text.toList.takeWhile (· != Char.ofNat 0))
      pure (if ← giveTo name text then p.status else 1)

/-! ### All commands

The commands of shells of the extended language by their names, as far as they do not run others.
Those that leave a loop, a function or the shell say so in the state or break off. -/

open Host Text Shell.Action

/-- The commands of the shell that do not run others, by their names. -/
def plain : List (String × (List String → Action Nat)) :=
  [(":", fun _ => pure 0), ("true", fun _ => pure 0), ("false", fun _ => pure 1),
    ("echo", echo), ("printf", printf), ("test", test "test"), ("[", test "["), ("cd", cd),
    ("pwd", pwd), ("pushd", pushd), ("popd", popd), ("dirs", dirs), ("umask", umask),
    ("type", Builtin.type), ("hash", Builtin.hash), ("alias", alias_), ("unalias", unalias), ("caller", caller),
    ("set", Builtin.set), ("shopt", shopt), ("shift", shift), ("getopts", getopts), ("let", let_),
    ("unset", unset), ("read", Builtin.read), ("mapfile", mapfile), ("readarray", mapfile),
    ("trap", trap), ("kill", kill), ("wait", wait), ("jobs", jobs), ("disown", disown),
    ("times", fun args => do
      let _ ← options "" args
      times),
    ("fg", fun _ => failWith "no job control" 1), ("bg", fun _ => failWith "no job control" 1),
    ("suspend", fun _ => failWith "cannot suspend: no job control" 1),
    ("logout", fun _ => failWith "not login shell: use \x60exit'" 1),
    ("enable", fun _ => pure 0), ("ulimit", Shell.Builtin.ulimit)]

/-- The commands of the shell that declare variables, by their names. -/
def declaring : List (String × (List Argument → Action Nat)) :=
  [("declare", declare "declare"), ("typeset", declare "typeset"), ("local", declare "local"),
    ("export", marking 'x'), ("readonly", marking 'r')]

/-- The number behind the name of a command that leaves something; if there are more words, nothing
goes on. -/
def leavingCount (args : List String) (otherwise : Nat) (wrong : Nat) : Action (Except Nat Int) := do
  match args.filter (· != "--") with
  | [] => pure (.ok otherwise)
  | [a] =>
    match Numeral.int? a with
    | some n => pure (.ok n)
    | none =>
      warn (a ++ ": numeric argument required")
      pure (.error wrong)
  | _ => do
    warn "too many arguments"
    setStatus 1
    throw (if (← get).isFile then .error else .exit)

/-- Leaves some loops, or repeats one, as far as there are any. -/
def skipLoops (args : List String) (skip : Nat → Skip) : Action Nat := do
  let s ← get
  if s.loops = 0 then
    complain "only meaningful in a \x60for', \x60while', or \x60until' loop" 0
  else
    match ← leavingCount args 1 128 with
    | .error status =>
      setStatus status
      throw .exit
    | .ok n =>
      if n ≤ 0 then
        warn (toString n ++ ": loop count out of range")
        modify fun s => { s with skip := .leaveLoops s.loops }
        pure 1
      else
        modify fun s => { s with skip := skip (Nat.min n.toNat s.loops) }
        pure 0

def leaveFunction (args : List String) : Action Nat := do
  let s ← get
  if s.frames.isEmpty then
    complain "can only \x60return' from a function or sourced script" 2
  else
    let n ← leavingCount args s.status 2
    modify fun s => { s with skip := .leaveFunction (!args.isEmpty) }
    pure (match n with
      | .ok n => (n % 256).toNat
      | .error status => status)

def exit (args : List String) : Action Nat := do
  let s ← get
  let n ← leavingCount args (s.savedStatus.getD s.status) 2
  setStatus (match n with
    | .ok n => (n % 256).toNat
    | .error status => status)
  throw .exit

end PipelineRunner.Shell.Extended.Builtin
