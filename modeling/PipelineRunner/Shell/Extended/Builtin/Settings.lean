import PipelineRunner.Shell.Builtin.Variables
import PipelineRunner.Shell.Extended.Builtin.Declaring

/-!
The commands of shells of the extended language that change its options, its features and its
arguments.
-/

namespace PipelineRunner.Shell.Extended.Builtin

open Host Text Shell.Action

def features : List String :=
  ["autocd", "assoc_expand_once", "cdable_vars", "cdspell", "checkhash", "checkjobs",
    "checkwinsize", "cmdhist", "compat31", "compat32", "compat40", "compat41", "compat42",
    "compat43", "compat44", "complete_fullquote", "direxpand", "dirspell", "dotglob", "execfail",
    "expand_aliases", "extdebug", "extglob", "extquote", "failglob", "force_fignore",
    "globasciiranges", "globskipdots", "globstar", "gnu_errfmt", "histappend", "histreedit",
    "histverify", "hostcomplete", "huponexit", "inherit_errexit", "interactive_comments",
    "lastpipe", "lithist", "localvar_inherit", "localvar_unset", "login_shell", "mailwarn",
    "no_empty_cmd_completion", "nocaseglob", "nocasematch", "noexpand_translation", "nullglob",
    "patsub_replacement", "progcomp", "progcomp_alias", "promptvars", "restricted_shell",
    "shift_verbose", "sourcepath", "varredir_close", "xpg_echo"]

/-- A line about a setting, in a table or as a command that would make it. -/
def settingLine (command : Option String) (name : String) (isOn : Bool) : String :=
  match command with
  | none => name ++ Bytes.fill ' ' (15 - name.length) ++ "\t" ++ (if isOn then "on" else "off") ++ "\n"
  | some command =>
    let sign := if command = "set" then (if isOn then "-o" else "+o")
      else if isOn then "-s" else "-u"
    command ++ " " ++ sign ++ " " ++ name ++ "\n"

def optionLines (s : State) (command : Option String) : String :=
  String.join (extendedOptions.map fun o => settingLine command o.1 (s.has o.1))

def optionOf? (c : Char) : Option String :=
  (extendedOptions.find? fun o => o.2 == some c).map (·.1)

/-- Takes the letters of an argument that set options or take them back; yields what is left of the
arguments, and what is shown. -/
def setLetters (on : Bool) : List Char → List String → Action (List String × String)
  | [], rest => pure (rest, "")
  | 'o' :: cs, rest => do
    match rest with
    | [] => do
      let shown := optionLines (← get) (if on then none else some "set")
      let (rest, more) ← setLetters on cs []
      pure (rest, shown ++ more)
    | name :: rest =>
      if extendedOptions.any fun o => o.1 == name then
        modify fun s => s.setOption name on
        setLetters on cs rest
      else failWith (name ++ ": invalid option name") 2
  | c :: cs, rest => do
    match optionOf? c with
    | some name =>
      modify fun s => s.setOption name on
      setLetters on cs rest
    | none => refuseOption ((if on then "-" else "+") ++ String.singleton c) "invalid option"

/-- Carries out the options in front of arguments; yields what is shown. -/
def setOptions : Nat → String → List String → Action String
  | 0, shown, _ => pure shown
  | _, shown, [] => pure shown
  | fuel + 1, shown, a :: rest => do
    let setArguments (l : List String) : Action Unit :=
      modify fun s => { s with arguments := l }
    if a = "--" then
      setArguments rest
      pure shown
    else if a = "-" then
      modify fun s => (s.setOption "xtrace" false).setOption "verbose" false
      if !rest.isEmpty then setArguments rest
      pure shown
    else if (a.startsWith "-" || a.startsWith "+") && a.length != 1 then
      let (rest, more) ← setLetters (a.startsWith "-") (a.toList.drop 1) rest
      setOptions fuel (shown ++ more) rest
    else
      setArguments (a :: rest)
      pure shown

/-- Shows the variables, or sets options and arguments. -/
def set (args : List String) : Action Nat := do
  let s ← get
  if args.isEmpty then say (assignments s ++ functionTexts s (functionNames s)) 0
  else
    /- Nothing is set if there is a letter that means nothing. -/
    let letters := args.takeWhile fun a =>
      (a.startsWith "-" || a.startsWith "+") && a.length != 1 && a != "--"
    let wrong := letters.findSome? fun a =>
      ((a.toList.drop 1).find? fun c => c != 'o' && (optionOf? c).isNone).map fun c =>
        Bytes.take 1 a ++ String.singleton c
    if let some option := wrong then refuseOption option "invalid option"
    let shown ← setOptions (args.length + 1) "" args
    say shown 0

/-- Switches features on and off, or shows them. -/
def shopt (args : List String) : Action Nat := do
  let (options, names) ← options "psuoq" args
  let has := hasLetter options
  let areOptions := has 'o'
  let known := if areOptions then extendedOptions.map (·.1) else features
  let isOn (s : State) (name : String) : Bool :=
    if areOptions then s.has name else s.hasFeature name
  let change (on : Bool) (name : String) : Action Unit := modify fun s =>
    if areOptions then s.setOption name on
    else
      let others := s.features.filter (· != name)
      { s with features := if on then name :: others else others }
  if has 's' && has 'u' then
    failWith "cannot set and unset shell options simultaneously" 1
  let complaint := if areOptions then ": invalid option name"
    else ": invalid shell option name"
  let command := if areOptions then "set" else "shopt"
  let line (s : State) (name : String) : String :=
    settingLine (if has 'p' then some command else none) name (isOn s name)
  if names.isEmpty then
    let s ← get
    let shown := known.filter fun n =>
      if has 's' then isOn s n else if has 'u' then !isOn s n else true
    if has 'q' then pure 0 else say (String.join (shown.map (line s))) 0
  else
    let rec go (text : String) (status : Nat) : List String → Action Nat
      | [] => say text status
      | name :: rest => do
        if !known.contains name then
          warn (name ++ complaint)
          go text (if areOptions && (has 's' || has 'u') then status else 1) rest
        else if has 's' || has 'u' then
          change (has 's') name
          go text status rest
        else
          let s ← get
          let status := if isOn s name then status else 1
          go (if has 'q' then text else text ++ line s name) status rest
    go "" 0 names

/-- The number that may stand behind a command of control. -/
def countOf (args : List String) (otherwise : Int) : Action Int := do
  match args with
  | [] => pure otherwise
  | [a] => numberOf a
  | _ => fail "too many arguments"

def shift (args : List String) : Action Nat := do
  let n ← countOf args 1
  let s ← get
  if n < 0 then complain (toString n ++ ": shift count out of range") 1
  else if (s.arguments.length : Int) < n then
    if s.hasFeature "shift_verbose" then
      complain (toString n ++ ": shift count out of range") 1
    else pure 1
  else
    modify fun s => { s with arguments := s.arguments.drop n.toNat }
    pure 0

/-- What is said of an option of a script that is wrong. -/
def faultMessage (f : Shell.Builtin.OptionFault) (c : Char) : String :=
  match f with
  | .unknown => "illegal option -- " ++ String.singleton c
  | .bare => "option requires an argument -- " ++ String.singleton c

/-- Reads the options of a script one by one. -/
def getopts (args : List String) : Action Nat := do
  let (_, rest) ← options "" args
  match rest with
  | known :: name :: given =>
    let s ← get
    let words := if given.isEmpty then s.arguments else given
    let cursor := if words.length + 1 < s.cursor.index then {} else s.cursor
    let o := Shell.Builtin.nextOption known.toList words cursor
    if let some (fault, c) := o.fault then
      if s.value? "OPTERR" != some "0" then
        let name := s.name
        print 2 (name ++ ": " ++ faultMessage fault c ++ "\n")
    match if o.isOver then none else o.argument.filter fun a => a != "" || o.letter = '?' with
    | some a => modify fun s => s.setValue "OPTARG" a
    | none =>
      let takes := (takesArgument? o.letter (known.toList.dropWhile (· = ':'))).getD false
      modify fun s => s.putVariable "OPTARG"
        (if o.argument = some "" && takes && !o.isOver then some { value := some "" } else none)
    modify fun s => s.setValue "OPTIND" (toString o.cursor.index)
    modify fun s => { s with cursor := o.cursor }
    if !isName name then failWith (invalidName name) 1
    if !(← mayChange name) then pure 2
    else
      put name none false (String.singleton o.letter)
      pure (if o.isOver then 1 else 0)
  | _ => misuse

/-- Works out numbers, the last of which tells the status. -/
def let_ (args : List String) : Action Nat := do
  if args.isEmpty then failWith "expression expected" 1
  let rec go (last : Int) : List String → Action Nat
    | [] => pure (if last = 0 then 1 else 0)
    | a :: rest => do go (← Extended.numberOf "" a) rest
  orElse (go 0 args) fun b =>
    match b with
    | .exit => throw b
    | _ => pure 1

end PipelineRunner.Shell.Extended.Builtin
