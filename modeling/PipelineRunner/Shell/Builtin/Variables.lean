import PipelineRunner.Shell.Builtin.Basic
import PipelineRunner.Shell.Fields

/-!
The commands of the shell that change its variables, its arguments and its options.
-/

namespace PipelineRunner.Shell

open Host Text

/-- The options that are set, as a table or as commands that would set them. -/
def State.optionListing (s : State) (asTable : Bool) : String :=
  let line (name : String) : String :=
    let setting := if s.has name then "on" else "off"
    if asTable then name ++ Bytes.fill ' ' (16 - name.length) ++ setting
    else "set " ++ (if s.has name then "-o " else "+o ") ++ name
  (if asTable then "Current option settings\n" else "") ++
    String.join (plainOptions.map fun o => line o.1 ++ "\n")

/-- What the options in front of arguments switch. -/
structure Switches where
  state : State
  rest : List String
  /-- What is shown. -/
  text : String := ""
  /-- Whether the arguments are given, even if there are none. -/
  isExplicit : Bool := false
  /-- The letters that say where a script is. -/
  letters : List Char := []

namespace Switches

/-- What is wrong with an option that there is not. -/
def illegal (on : Bool) (option : String) : String :=
  "Illegal option " ++ (if on then "-" else "+") ++ option

/-- Takes the letters of one argument; those of the call of a shell have some more. -/
def takeLetters (ofShell on : Bool) (w : Switches) : List Char → Except String Switches
  | [] => .ok w
  | c :: cs =>
    let set (name : String) (w : Switches) : Switches :=
      { w with state := w.state.setOption name on }
    if ofShell && (c = 'c' || c = 'l') then
      takeLetters ofShell on { w with letters := c :: w.letters } cs
    else if c = 'o' then
      match w.rest with
      | [] => takeLetters ofShell on { w with text := w.text ++ w.state.optionListing on } cs
      | name :: rest =>
        if plainOptions.any fun o => o.1 == name then
          takeLetters ofShell on (set name { w with rest }) cs
        else .error (illegal on ("o " ++ name))
    else
      match plainOptions.find? fun o => o.2 == some c with
      | some (name, _) => takeLetters ofShell on (set name w) cs
      | none => .error (illegal on (String.singleton c))

/-- Takes the options in front of arguments. -/
def take (ofShell : Bool) : Nat → Switches → Except String Switches
  | 0, w => .ok w
  | fuel + 1, w =>
    match w.rest with
    | [] => .ok w
    | a :: rest =>
      let w' := { w with rest }
      if a = "-" then
        let state := if ofShell then w.state
          else (w.state.setOption "xtrace" false).setOption "verbose" false
        .ok { w' with state, isExplicit := !rest.isEmpty }
      else if a = "--" then .ok { w' with isExplicit := true }
      else if a.startsWith "-" || a.startsWith "+" then do
        take ofShell fuel (← w'.takeLetters ofShell (a.startsWith "-") (a.toList.drop 1))
      else .ok { w with isExplicit := true }

end Switches

namespace Builtin

open Shell.Action

/-- Variables by name, as commands that would define them. -/
def definitions (s : State) (command : String) (isMeant : Variable → Bool) : String :=
  let meant := (s.bindings.filter fun v => isMeant v.2).mergeSort fun a b => a.1 ≤ b.1
  let start := if command.isEmpty then "" else command ++ " "
  String.join (meant.map fun (name, v) =>
    start ++ name ++ ((v.value.map fun t => "=" ++ inQuotes t).getD "") ++ "\n")

/-- Changes a variable, and gives it a value if there is one. -/
def define (mark : Variable → Variable) (text : String) : Action Unit := do
  let (name, value) := splitDefinition text
  if !isName name then fail s!"{name}: bad variable name"
  match value with
  | some value =>
    assign name value
    modify fun s => s.changeVariable name mark
  | none => modify fun s => s.changeVariable name mark

def marking (name : String) (mark : Variable → Variable) (isMarked : Variable → Bool)
    (args : List String) : Action Nat := do
  let (options, names) ← options "p" args
  if !options.isEmpty || names.isEmpty then say (definitions (← get) name isMarked) 0
  else
    each (define mark) names
    pure 0

def localize (text : String) : Action Unit := do
  match (← get).scopes with
  | [] => fail "not in a function"
  | scope :: outer =>
    let (name, _) := splitDefinition text
    let old := OrderedMap.get? name (← get).bindings
    let scope := { scope with bindings := (name, old) :: scope.bindings }
    modify fun s => { s with scopes := scope :: outer }
    if old.isNone || (splitDefinition text).2.isSome then define id text

/-- Makes variables a function's own, or its options for a dash. -/
def makeLocal (args : List String) : Action Nat := do
  if (← get).scopes.isEmpty then fail "not in a function"
  each (fun a => do
    if a = "-" then
      modify fun s => { s with
        scopes := s.scopes.modifyHead fun c => { c with options := some s.options } }
    else localize a) args
  pure 0

def unset (args : List String) : Action Nat := do
  let (options, names) ← options "vf" args
  if (options.getLast?.map (·.1)) = some 'f' then
    modify fun s => { s with functions := s.functions.filter fun f => !names.contains f.name }
  else
    each (fun n => do
      if !isName n then fail s!"{n}: bad variable name"
      let s ← get
      if s.isConstant n then fail (s.constantText n)
      modify fun s => s.putVariable n none) names
  pure 0

/-- Shows the variables, or sets options and arguments. -/
def set (args : List String) : Action Nat := do
  let s ← get
  if args.isEmpty then say (definitions s "" fun v => v.value.isSome) 0
  else
    match Switches.take false (args.length + 1) { state := s, rest := args } with
    | .error text => fail text
    | .ok w =>
      MonadStateOf.set w.state
      if w.isExplicit then
        modify fun s => { s with arguments := w.rest, cursor := {} }
      say w.text 0

def shift (args : List String) : Action Nat := do
  let n ← match args with
    | [] => pure 1
    | a :: _ => number a
  if (← get).arguments.length < n then fail "can't shift that many"
  modify fun s => { s with arguments := s.arguments.drop n, cursor := {} }
  pure 0

/-- What is wrong with an option of a script. -/
inductive OptionFault where
  | unknown
  /-- It has no argument. -/
  | bare
  deriving DecidableEq, Repr

/-- A letter has been found among the options of a script, or nothing more. -/
structure Opted where
  letter : Char := '?'
  /-- The argument of the option, if there is one now. -/
  argument : Option String := none
  /-- What is wrong with an option, and its letter, if that is to be said. -/
  fault : Option (OptionFault × Char) := none
  cursor : OptionCursor
  isOver : Bool := false

/-- The next option of a script among some arguments. -/
def nextOption (known : List Char) (args : List String) (cursor : OptionCursor) : Opted :=
  let isQuiet := known.head? == some ':'
  let here := cursor.index
  let rest : List Char := match cursor.offset, args[here - 2]? with
    | some n, some word => if here ≤ 1 then [] else word.toList.drop n
    | _, _ => []
  let word := (args[here - 1]?.map String.toList).getD []
  let isNew := rest.isEmpty
  let letters := if isNew then word.drop 1 else rest
  let next := if isNew then here + 1 else here
  match letters with
  | [] => { cursor := ⟨here, none⟩, isOver := true }
  | c :: cs =>
    if isNew && word.head? != some '-' then { cursor := ⟨here, none⟩, isOver := true }
    else if isNew && letters = ['-'] then { cursor := ⟨next, none⟩, isOver := true }
    else
      let offset := (args[next - 2]?.map String.length).getD 0 - cs.length
      let wrong (answer : Char) (fault : OptionFault) : Opted :=
        { letter := if isQuiet then answer else '?'
          argument := if isQuiet then some (String.singleton c) else none
          fault := if isQuiet then none else some (fault, c)
          cursor := ⟨next, some offset⟩ }
      match takesArgument? c (if isQuiet then known.drop 1 else known) with
      | none => wrong '?' .unknown
      | some false => { letter := c, argument := some "", cursor := ⟨next, some offset⟩ }
      | some true =>
        if !cs.isEmpty then
          { letter := c, argument := some (String.ofList cs), cursor := ⟨next, none⟩ }
        else
          match args[next - 1]? with
          | some a => { letter := c, argument := some a, cursor := ⟨next + 1, none⟩ }
          | none => wrong ':' .bare

/-- What is said of an option that is wrong. -/
def OptionFault.message (f : OptionFault) (c : Char) : String :=
  match f with
  | unknown => "Illegal option -" ++ String.singleton c
  | bare => "No arg for -" ++ String.singleton c ++ " option"

/-- Reads the options of a script one by one. -/
def getopts (args : List String) : Action Nat := do
  match ← operands args with
  | known :: name :: given =>
    let s ← get
    let words := if given.isEmpty then s.arguments else given
    let cursor := if words.length + 1 < s.cursor.index then {} else s.cursor
    let o := nextOption known.toList words cursor
    if !o.isOver then
      match o.argument with
      | some a => assign "OPTARG" a
      | none => modify fun s => s.putVariable "OPTARG" none
      if let some (fault, c) := o.fault then print 2 (fault.message c ++ "\n")
    assign "OPTIND" (toString o.cursor.index)
    define id (name ++ "=" ++ String.singleton o.letter)
    modify fun s => { s with cursor := o.cursor }
    pure (if o.isOver then 1 else 0)
  | _ => fail "Usage: getopts optstring var [arg...]"

/-- A line while it is read. -/
structure LineReading where
  /-- What has been read, the last first. -/
  pieces : List Piece := []
  /-- The characters behind the last backslash, backwards. -/
  current : List Char := []
  /-- Whether a backslash stands in front of the next character. -/
  isQuoting : Bool := false
  isOver : Bool := false

def LineReading.take (raw : Bool) (l : LineReading) (c : Char) : LineReading :=
  if c = Char.ofNat 0 then l
  else if l.isQuoting then
    let pieces := if c = '\n' then l.pieces else .fixed [⟨c, true⟩] :: l.pieces
    { pieces }
  else if c = '\\' && !raw then
    { pieces := .value (String.ofList l.current.reverse) :: l.pieces, isQuoting := true }
  else if c = '\n' then { l with isOver := true }
  else { l with current := c :: l.current }

def LineReading.all (l : LineReading) : List Piece :=
  (.value (String.ofList l.current.reverse) :: l.pieces).reverse

/-- Reads a line of the input; the status says whether it has come to its end. -/
def readLine (raw : Bool) : Act (LineReading × Nat) :=
  Act.iterate (fun (l : LineReading) => do
    match ← Act.ask (.read 0 Act.blockSize (some '\n')) with
    | .error _ | .ok "" => pure (.done (l, 1))
    | .ok text =>
      let l := text.toList.foldl (LineReading.take raw) l
      pure (if l.isOver then .done (l, 0) else .again l)) {}

def read (args : List String) : Action Nat := do
  let (options, names) ← options "p:r" args
  if names.isEmpty then fail "arg count"
  let (l, status) ← act (readLine (options.any fun o => o.1 == 'r'))
  let values := readValues (← get).separators names.length l.all
  let padded := values ++ List.replicate (names.length - values.length) ""
  each (fun (name, value) => do
    if !isName name then fail s!"{name}: bad variable name"
    assign name value) (names.zip padded)
  pure status

end Builtin
end PipelineRunner.Shell
