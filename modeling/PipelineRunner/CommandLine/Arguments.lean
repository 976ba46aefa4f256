import PipelineRunner.CommandLine.Options
import PipelineRunner.Settings

/-!
Reading the arguments of the command line, word by word. They have two levels: the words up to the
command, and those after it. The value of an option is only looked at when the word after it makes
sense, so that of two faults the one that comes later may be the one that is told.
-/

namespace PipelineRunner.CommandLine

/-- What a word looks like. -/
inductive Word where
  /-- An option with its name and the value after an equals sign. -/
  | long (name : String) (attached : Option String)
  | letters (letters : List Char)
  /-- The words after it are no options. -/
  | separator
  | plain
  deriving DecidableEq, Repr

/-- A text up to the first equals sign, and what follows that. -/
def splitEquation : List Char → List Char × Option (List Char)
  | [] => ([], none)
  | c :: rest =>
    if c = '=' then ([], some rest)
    else
      let (before, after) := splitEquation rest
      (c :: before, after)

/-- The two sides of an equation. -/
def equation? (text : String) : Option (String × String) :=
  match splitEquation text.toList with
  | (key, some value) => some (String.ofList key, String.ofList value)
  | (_, none) => none

/-- What a word looks like. -/
def Word.ofText (text : String) : Word :=
  match text.toList with
  | ['-', '-'] => separator
  | '-' :: '-' :: rest =>
    let (name, value) := splitEquation rest
    long (String.ofList name) (value.map String.ofList)
  | '-' :: c :: rest => letters (c :: rest)
  | _ => plain

/-- What has been read on one level. -/
structure Given where
  /-- The options so far, each with its value, which is empty if it has none. -/
  flags : List (Flag × String) := []
  file : Option String := none
  /-- The option before this word, whose value is not looked at yet or still to come. -/
  pending : Option (Flag × Option String) := none
  deriving Repr

namespace Given

def has (g : Given) (flag : Flag) : Bool := g.flags.any fun f => f.1 == flag

def value? (g : Given) (flag : Flag) : Option String := List.lookup flag g.flags

def properties (g : Given) : List (String × String) :=
  g.flags.filterMap fun f => if f.1 = .param then equation? f.2 else none

def accept (g : Given) (flag : Flag) (value : String) : Except Stop Given :=
  if !flag.repeats && g.has flag then .error (.usage (.repeated flag))
  else if flag = .param && (equation? value).isNone then .error (.usage (.noEquation value))
  else .ok { g with flags := g.flags ++ [(flag, value)] }

/-- Looks at the value that is pending. -/
def settle (g : Given) : Except Stop Given :=
  match g.pending with
  | none => .ok g
  | some (flag, none) => .error (.usage (.noValue flag))
  | some (flag, some value) => { g with pending := none }.accept flag value

def takeFlag (level : Option Command) (g : Given) (flag : Flag) (attached : Option String) :
    Except Stop Given :=
  match flag.placeholder?, attached with
  | some _, some value => do (← g.settle).accept flag value
  | some _, none => do
    let g ← g.settle
    pure { g with pending := some (flag, none) }
  | none, some value => .error (.usage (.needlessValue flag value))
  | none, none => do
    let g ← g.settle
    if flag = .help then .error (.help (.ofLevel level)) else g.accept flag ""

/-- The value that is written right behind the letter of an option. -/
def attachedValue? : List Char → Option String
  | [] => none
  | '=' :: value => some (String.ofList value)
  | value => some (String.ofList value)

def takeLetters (level : Option Command) : List Char → Given → Except Stop Given
  | [], g => .ok g
  | c :: rest, g =>
    match (Flag.ofLevel level).find? fun flag => flag.letter? == some c with
    | none => .error (.usage (.unexpected (String.ofList ['-', c])))
    | some flag =>
      if flag.placeholder?.isSome then g.takeFlag level flag (attachedValue? rest)
      else do takeLetters level rest (← g.takeFlag level flag none)

def takeLong (level : Option Command) (name : String) (attached : Option String) (g : Given) :
    Except Stop Given :=
  match (Flag.ofLevel level).find? fun flag => flag.name == name with
  | some flag => g.takeFlag level flag attached
  | none => .error (.usage (.unexpected ("--" ++ name)))

def takeFile (c : Command) (g : Given) (text : String) : Except Stop Given :=
  if c.takesFile && g.file.isNone then do
    let g ← g.settle
    pure { g with file := some text }
  else .error (.usage (.unexpected text))

end Given

/-- What the word after the call for help asks for. -/
def helpTopic : List String → Stop
  | [] => .help .program
  | word :: rest =>
    match Command.ofName? word, rest with
    | some c, [] => .help (.command c)
    | some _, next :: _ => .usage (.unknownCommand next)
    | none, [] => if word = "help" then .help .help else .usage (.unknownCommand word)
    | none, next :: _ => .usage (.unknownCommand (if word = "help" then next else word))

/-- Why a word cannot stand in the place of the command, if it is none. -/
def notCommand (literal : Bool) (word : String) : UsageError :=
  if literal && (word = "help" || (Command.ofName? word).isSome) then .unexpected word
  else .unknownCommand word

/-- Reads the words of a level; before the command, up to it. After a separator words are taken
literally. -/
def readLevel (level : Option Command) :
    Bool → List String → Given → Except Stop (Given × Option (Command × List String))
  | _, [], g => .ok (g, none)
  | literal, text :: rest, g =>
    match literal, Word.ofText text with
    | false, .separator => readLevel level true rest g
    | false, .long name attached => do readLevel level false rest (← g.takeLong level name attached)
    | false, .letters cs => do readLevel level false rest (← g.takeLetters level cs)
    | _, _ =>
      match literal, g.pending with
      | false, some (flag, none) =>
        readLevel level false rest { g with pending := some (flag, some text) }
      | _, _ =>
        match level with
        | some c => do readLevel level literal rest (← g.takeFile c text)
        | none =>
          match literal, Command.ofName? text with
          | false, some c => .ok (g, some (c, rest))
          | _, _ =>
            if !literal && text = "help" then .error (helpTopic rest)
            else .error (.usage (notCommand literal text))

/-- A command with all that belongs to it. -/
inductive Action where
  | parse (file : String) (json : Bool)
  | validate (file : String)
  | run (file : String) (properties : List (String × String)) (json : Bool)
  | plugins
  deriving DecidableEq, Repr

/-- What is asked of the program. -/
structure Request where
  action : Action
  containerBinary : Option String := none
  workspace : Option String := none
  deriving DecidableEq, Repr

/-- The action that a command and its level make up. -/
def Given.action? (g : Given) (c : Command) : Option Action :=
  match c, g.file with
  | .plugins, _ => some .plugins
  | .parse, some file => some (.parse file (g.has .json))
  | .validate, some file => some (.validate file)
  | .run, some file => some (.run file g.properties (g.has .json))
  | _, none => none

/-- The options that stand for settings are given by the environment too. -/
def isGivenBy (env : Environment) : Bool :=
  (env.get? "LATHE_CONTAINER_BINARY").isSome || (env.get? "LATHE_WORKSPACE").isSome

/-- What the arguments ask for. An option after the command counts more than the same before it. -/
def Request.ofArguments (env : Environment) (arguments : List String) : Except Stop Request := do
  match ← readLevel none false arguments {} with
  | (above, none) =>
    let above ← above.settle
    if above.flags.isEmpty && !isGivenBy env then .error (.usage .nothingGiven)
    else .error (.usage .noCommand)
  | (above, some (c, words)) =>
    let (below, _) ← readLevel (some c) false words {}
    let below ← below.settle
    match below.action? c with
    | none => .error (.usage .noFile)
    | some action =>
      let above ← above.settle
      pure {
        action
        containerBinary := below.value? .containerBinary <|> above.value? .containerBinary
        workspace := below.value? .workspace <|> above.value? .workspace }

end PipelineRunner.CommandLine
