import PipelineRunner.CommandLine.Options
import PipelineRunner.Settings
import PipelineRunner.Text.Basic

/-!
The help on the program and on its commands, as the lines that a terminal shows.
-/

namespace PipelineRunner.CommandLine

def Command.about : Command → String
  | parse => "Parse a pipeline script and print its structure"
  | validate => "Check a pipeline script for syntax errors"
  | run => "Run a pipeline with the built-in plugins"
  | plugins => "List the commands provided by the built-in plugins"

namespace Flag

/-- The environment variable that may stand for an option. -/
def settingName? : Flag → Option String
  | containerBinary => some "LATHE_CONTAINER_BINARY"
  | workspace => some "LATHE_WORKSPACE"
  | _ => none

def about (level : Option Command) : Flag → String
  | containerBinary => "Docker-compatible CLI used for containerized stages"
  | workspace => "Host workspace for checkouts and host shell steps"
  | param => "Execution properties as key=value pairs"
  | json =>
    if level = some .run then "Print the execution report as JSON"
    else "Print the parsed pipeline as JSON"
  | help => "Print help"

/-- The value that an environment gives an option. Its lines are indented like the text on the
option. -/
def environmentText (env : Environment) (flag : Flag) : String :=
  match flag.settingName? with
  | some name =>
    let value := (env.get? name).getD ""
    let lines := (Text.splitAt '\n' value.toList).map String.ofList
    " [env: " ++ name ++ "=" ++ Text.join "\n          " lines ++ "]"
  | none => ""

def lines (env : Environment) (level : Option Command) (flag : Flag) : List String :=
  let letter := match flag.letter? with
    | some c => literal (String.ofList ['-', c]) ++ ","
    | none => "   "
  let placeholder := match flag.placeholder? with
    | some placeholder => " <" ++ placeholder ++ ">"
    | none => ""
  ["  " ++ letter ++ " " ++ literal ("--" ++ flag.name) ++ placeholder,
    "          " ++ flag.about level ++ flag.environmentText env]

end Flag

namespace Help

def aboutHelp : String := "Print this message or the help of the given subcommand(s)"

def aboutProgram : String := "Lathe pipeline compiler and runner"

def title (text : String) : String := Text.styled [.bold, .underlined] text

def usageLine (program arguments : String) : String :=
  title "Usage:" ++ " " ++ literal program ++ " " ++ arguments

/-- The line on a command. The names are filled up with blanks to a width. -/
def commandLine (name about : String) : String :=
  "  " ++ literal name ++ String.ofList (List.replicate (10 - name.length) ' ') ++ about

def optionLines (env : Environment) (level : Option Command) : List String :=
  ["", title "Options:"] ++ (Flag.ofLevel level).flatMap (Flag.lines env level)

def lines (env : Environment) : Topic → List String
  | .program =>
    [aboutProgram, "", usageLine "lathe" "[OPTIONS] <COMMAND>", "", title "Commands:"] ++
      Command.all.map (fun c => commandLine c.name c.about) ++ [commandLine "help" aboutHelp] ++
      optionLines env none
  | .command c =>
    let file := if c.takesFile then " <FILE>" else ""
    [c.about, "", usageLine ("lathe " ++ c.name) ("[OPTIONS]" ++ file)] ++
      (if c.takesFile then ["", title "Arguments:", "  <FILE>  Path to the pipeline script"]
        else []) ++
      optionLines env (some c)
  | .help =>
    [aboutHelp, "", usageLine "lathe help" "[COMMAND]...", "", title "Arguments:",
      "  [COMMAND]...  Print help for the subcommand(s)"]

end Help
end PipelineRunner.CommandLine
