import PipelineRunner.Shell.Builtin.Basic
import PipelineRunner.Shell.Extended.Assigning

/-!
What the commands of shells of the extended language have in common: how they read their options
and numbers, and what they say if those are wrong.
-/

namespace PipelineRunner.Shell.Extended.Builtin

open Host Text Shell.Action

/-- How commands are used, behind their names. -/
def usages : List (String × String) :=
  [(".", "filename [arguments]"), ("alias", "[-p] [name[=value] ... ]"), ("bg", "[job_spec ...]"),
    ("break", "[n]"), ("builtin", "[shell-builtin [arg ...]]"), ("caller", "[expr]"),
    ("cd", "[-L|[-P [-e]] [-@]] [dir]"), ("command", "[-pVv] command [arg ...]"),
    ("continue", "[n]"),
    ("declare", "[-aAfFgiIlnrtux] [name[=value] ...] or declare -p [-aAfFilnrtux] [name ...]"),
    ("dirs", "[-clpv] [+N] [-N]"), ("disown", "[-h] [-ar] [jobspec ... | pid ...]"),
    ("enable", "[-a] [-dnps] [-f filename] [name ...]"), ("eval", "[arg ...]"),
    ("exec", "[-cl] [-a name] [command [argument ...]] [redirection ...]"), ("exit", "[n]"),
    ("export", "[-fn] [name[=value] ...] or export -p"), ("fg", "[job_spec]"),
    ("getopts", "optstring name [arg ...]"), ("hash", "[-lr] [-p pathname] [-dt] [name ...]"),
    ("jobs", "[-lnprs] [jobspec ...] or jobs -x command [args]"),
    ("kill", "[-s sigspec | -n signum | -sigspec] pid | jobspec ... or kill -l [sigspec]"),
    ("let", "arg [arg ...]"), ("local", "[option] name[=value] ..."),
    ("mapfile", "[-d delim] [-n count] [-O origin] [-s count] [-t] [-u fd] [-C callback] " ++
      "[-c quantum] [array]"),
    ("popd", "[-n] [+N | -N]"), ("printf", "[-v var] format [arguments]"),
    ("pushd", "[-n] [+N | -N | dir]"), ("pwd", "[-LP]"),
    ("read", "[-ers] [-a array] [-d delim] [-i text] [-n nchars] [-N nchars] [-p prompt] " ++
      "[-t timeout] [-u fd] [name ...]"),
    ("readarray", "[-d delim] [-n count] [-O origin] [-s count] [-t] [-u fd] [-C callback] " ++
      "[-c quantum] [array]"),
    ("readonly", "[-aAf] [name[=value] ...] or readonly -p"), ("return", "[n]"),
    ("set", "[-abefhkmnptuvxBCEHPT] [-o option-name] [--] [-] [arg ...]"), ("shift", "[n]"),
    ("shopt", "[-pqsu] [-o] [optname ...]"), ("source", "filename [arguments]"),
    ("suspend", "[-f]"), ("times", ""), ("trap", "[-lp] [[arg] signal_spec ...]"),
    ("type", "[-afptP] name [name ...]"),
    ("typeset", "[-aAfFgiIlnrtux] name[=value] ... or typeset -p [-aAfFilnrtux] [name ...]"),
    ("ulimit", "[-SHabcdefiklmnpqrstuvxPRT] [limit]"), ("umask", "[-p] [-S] [mode]"),
    ("unalias", "[-a] name [name ...]"), ("unset", "[-f] [-v] [-n] [name ...]"),
    ("wait", "[-fn] [-p var] [id ...]")]

def failWith {α : Type} (text : String) (status : Nat) : Action α := do
  warn text
  setStatus status
  throw .refusal

/-- Gives up, since the command is used in a wrong way. -/
def misuse {α : Type} : Action α := do
  let name := ((← get).running).getD ""
  let usage := (List.lookup name usages).getD ""
  print 2 s!"{name}: usage: {name} {usage}\n"
  setStatus 2
  throw .refusal

def refuseOption {α : Type} (option complaint : String) : Action α := do
  warn (option ++ ": " ++ complaint)
  misuse

/-- Reads the letters of one argument; the options so far stand backwards. -/
def optionLetters (known : List Char) (found : List (Char × String)) :
    List Char → List String → Action (List (Char × String) × List String)
  | [], rest => pure (found, rest)
  | c :: cs, rest =>
    match takesArgument? c known with
    | none => refuseOption ("-" ++ String.singleton c) "invalid option"
    | some false => optionLetters known ((c, "") :: found) cs rest
    | some true =>
      if !cs.isEmpty then pure ((c, String.ofList cs) :: found, rest)
      else
        match rest with
        | a :: rest => pure ((c, a) :: found, rest)
        | [] => refuseOption ("-" ++ String.singleton c) "option requires an argument"

/-- Reads the options in front of other arguments; those so far stand backwards. -/
def readOptions (known : List Char) :
    Nat → List (Char × String) → List String → Action (List (Char × String) × List String)
  | 0, found, rest => pure (found.reverse, rest)
  | _, found, [] => pure (found.reverse, [])
  | fuel + 1, found, a :: rest =>
    if a = "--" then pure (found.reverse, rest)
    else if a.startsWith "-" && a.length != 1 then do
      let (found, rest) ← optionLetters known found (a.toList.drop 1) rest
      readOptions known fuel found rest
    else pure (found.reverse, a :: rest)

/-- The options in front of the arguments, and what stands behind them. -/
def options (known : String) (args : List String) :
    Action (List (Char × String) × List String) :=
  readOptions known.toList (args.length + 1) [] args

def hasLetter (options : List (Char × String)) (c : Char) : Bool := options.any fun o => o.1 == c

/-- The argument of the last option with a letter. -/
def valueOf? (options : List (Char × String)) (c : Char) : Option String :=
  (options.reverse.find? fun o => o.1 == c).map (·.2)

def numberOf (text : String) : Action Int := do
  match Numeral.int? text with
  | some n => pure n
  | none => failWith (text ++ ": numeric argument required") 1

/-- How a text is called that should be a name. -/
def invalidName (text : String) : String := "\x60" ++ text ++ "': not a valid identifier"

/-- Whether a text is a name, or a name with a subscript. -/
def isTarget (text : String) : Bool :=
  isName text || ((splitReference text).2.any fun p => !p.isEmpty)

/-- Gives a variable a value, or an element of one, that is named by a text; tells whether that has
been possible. -/
def giveTo (target value : String) : Action Bool := do
  let (name, place) := splitReference target
  if !(← mayChange name) then pure false
  else Given.carryOut { name, subscript := place, value := .text value }

/-- Does something that may fail for each of some arguments; the status tells of the failures. -/
def forEach {α : Type} (f : α → Action Bool) (status : Nat) : List α → Action Nat
  | [] => pure status
  | a :: rest => do
    let went ← f a
    forEach f (if went then status else 1) rest

end PipelineRunner.Shell.Extended.Builtin
