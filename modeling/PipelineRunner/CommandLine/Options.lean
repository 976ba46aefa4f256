import PipelineRunner.Text.Basic

/-!
The commands of the program and their options, and what may be wrong with arguments, in words that
a terminal may show in style.
-/

namespace PipelineRunner

/-! ### Styles

A styled text stands between the sequence that turns its style on and the one that turns all styles
off. -/

namespace Text

/-- A way in which text stands out. -/
inductive Style where
  | bold | dim | underlined | red | green | yellow | cyan
  deriving DecidableEq, Repr

namespace Style

def number : Style → Nat
  | bold => 1
  | dim => 2
  | underlined => 4
  | red => 31
  | green => 32
  | yellow => 33
  | cyan => 36

def on (s : Style) : String := "\x1b[" ++ toString s.number ++ "m"

def off : String := "\x1b[0m"

end Style

/-- A text in some styles, the first of them turned on first. -/
def styled (styles : List Style) (text : String) : String :=
  String.join (styles.map Style.on) ++ text ++ Style.off

/-- The characters of a text in which a style is turned on again wherever all are turned off. -/
def keepOn (s : Style) : List Char → List Char
  | [] => []
  | '\x1b' :: '[' :: '0' :: 'm' :: rest => (Style.off ++ s.on).toList ++ keepOn s rest
  | c :: rest => c :: keepOn s rest

/-- Whether texts are shown in styles or plainly. -/
inductive Paint where
  | plainly | inStyle
  deriving DecidableEq, Repr

/-- A text in a style, which lasts up to the end of the text. -/
def Paint.apply (p : Paint) (s : Style) (text : String) : String :=
  match p with
  | .plainly => text
  | .inStyle => styled [s] (String.ofList (keepOn s text.toList))

end Text

/-! ### Commands -/

namespace CommandLine

/-- What the program can be told to do. -/
inductive Command where
  | parse | validate | run | plugins
  deriving DecidableEq, Repr, Inhabited

namespace Command

def name : Command → String
  | parse => "parse"
  | validate => "validate"
  | run => "run"
  | plugins => "plugins"

def all : List Command := [parse, validate, run, plugins]

def ofName? (word : String) : Option Command := all.find? fun c => c.name == word

def takesFile (c : Command) : Bool := c != plugins

theorem ofName?_name (c : Command) : ofName? c.name = some c := by
  cases c <;> rfl

end Command

/-- The options. -/
inductive Flag where
  | containerBinary | workspace | param | json | help
  deriving DecidableEq, Repr, Inhabited

namespace Flag

def name : Flag → String
  | containerBinary => "container-binary"
  | workspace => "workspace"
  | param => "param"
  | json => "json"
  | help => "help"

/-- The one letter that an option can be written with. -/
def letter? : Flag → Option Char
  | param => some 'p'
  | help => some 'h'
  | _ => none

/-- What stands for the value of an option, if it has one. -/
def placeholder? : Flag → Option String
  | containerBinary => some "CONTAINER_BINARY"
  | workspace => some "WORKSPACE"
  | param => some "PARAM"
  | _ => none

def text (flag : Flag) : String :=
  match flag.placeholder? with
  | some placeholder => "--" ++ flag.name ++ " <" ++ placeholder ++ ">"
  | none => "--" ++ flag.name

/-- Whether an option may be given more than once. -/
def repeats (flag : Flag) : Bool := flag == param

/-- The options of a command; without one, those that may stand before it. The order is that of
the help. -/
def ofLevel : Option Command → List Flag
  | some .parse => [containerBinary, json, workspace, help]
  | some .run => [containerBinary, param, json, workspace, help]
  | _ => [containerBinary, workspace, help]

end Flag

/-- What one can read about. -/
inductive Topic where
  | program
  | command (c : Command)
  | help
  deriving DecidableEq, Repr

def Topic.ofLevel : Option Command → Topic
  | some c => command c
  | none => program

/-- What is wrong with arguments. -/
inductive UsageError where
  /-- There is nothing in them. -/
  | nothingGiven
  | noCommand
  | unknownCommand (word : String)
  | unexpected (argument : String)
  | noFile
  | noValue (flag : Flag)
  | needlessValue (flag : Flag) (value : String)
  | repeated (flag : Flag)
  /-- The value of a property is to follow an equals sign. -/
  | noEquation (value : String)
  deriving DecidableEq, Repr

/-- What is wrong, as a terminal shows it. -/
def faulty (text : String) : String := Text.styled [.yellow] text

/-- What is to be written as it stands, as a terminal shows it. -/
def literal (text : String) : String := Text.styled [.bold] text

/-- What is wrong with arguments, as a terminal shows it. -/
def UsageError.reason : UsageError → String
  | nothingGiven => "there are none"
  | noCommand => "'" ++ faulty "lathe" ++ "' requires a subcommand but one was not provided"
  | unknownCommand word => s!"unrecognized subcommand '{faulty word}'"
  | unexpected argument => s!"unexpected argument '{faulty argument}' found"
  | noFile => "the following required arguments were not provided:"
  | noValue flag => s!"a value is required for '{faulty flag.text}' but none was supplied"
  | needlessValue flag value =>
    s!"unexpected value '{faulty value}' for '{literal flag.text}' found; no more were expected"
  | repeated flag => s!"the argument '{faulty flag.text}' cannot be used multiple times"
  | noEquation value =>
    s!"invalid value '{faulty value}' for '{literal Flag.param.text}': " ++
      s!"invalid KEY=value: no \x60=\x60 found in \x60{value}\x60"

/-- The first line of what is said about a wrong use, as a terminal shows it. -/
def UsageError.message (e : UsageError) : String :=
  Text.styled [.bold, .red] "error:" ++ " " ++ e.reason

/-- Why arguments are no request. -/
inductive Stop where
  | usage (error : UsageError)
  | help (topic : Topic)
  deriving DecidableEq, Repr

end CommandLine
end PipelineRunner
