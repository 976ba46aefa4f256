import PipelineRunner.Log.Buffer
import PipelineRunner.Pipeline.Basic
import PipelineRunner.Plugin.Registry
import PipelineRunner.Settings
import PipelineRunner.Text.Utf8
import PipelineRunner.CommandLine.Options
import PipelineRunner.Workflow.Report

/-!
Pipelines, commands, logs and reports as lines for people, in style or plainly. What belongs to a
stage stands below it and further to the right.
-/

namespace PipelineRunner.CommandLine

namespace Listing

open Text (Paint)

def indented (depth : Nat) (line : String) : String :=
  String.ofList (List.replicate (2 * depth) ' ') ++ line

/-- The line on top of what belongs to a name. -/
def heading (paint : Paint) (depth : Nat) (name : String) : String :=
  indented depth (paint.apply .cyan "▸" ++ " " ++ paint.apply .bold name)

def agentText (paint : Paint) : Agent → String
  | .none => "none"
  | .docker image => "docker " ++ paint.apply .cyan image

def stepText (paint : Paint) : Step → String
  | .single command value => paint.apply .cyan command ++ " '" ++ value ++ "'"
  | .multi command params =>
    paint.apply .cyan command ++ " " ++
      Text.join ", " (params.map fun p => p.key ++ ": '" ++ p.value ++ "'")

mutual

/-- The lines of a stage: its name, what it declares, its steps, and its branches. -/
def stageLines (paint : Paint) (depth : Nat) : Stage → List String
  | ⟨name, agent, steps, failFast, parallel⟩ =>
    [heading paint depth name] ++
      agent.toList.map (fun a => indented (depth + 1) ("Agent: " ++ agentText paint a)) ++
      (if failFast.getD false then [indented (depth + 1) (paint.apply .yellow "failFast")] else []) ++
      steps.map (fun step => indented (depth + 1) (stepText paint step)) ++
      stagesLines paint (depth + 1) parallel

def stagesLines (paint : Paint) (depth : Nat) : List Stage → List String
  | [] => []
  | stage :: rest => stageLines paint depth stage ++ stagesLines paint depth rest

end

def pipelineLines (paint : Paint) (file : String) (p : Pipeline) : List String :=
  [paint.apply .bold "Pipeline" ++ " " ++ paint.apply .dim file,
    "  Agent: " ++ agentText paint p.agent, ""] ++ stagesLines paint 1 p.stages

def approval (paint : Paint) (file : String) (p : Pipeline) : String :=
  paint.apply .green "✓" ++ s!" {file} ({p.stages.length} stage(s))"

def complaint (paint : Paint) (file : String) (e : Script.SyntaxError) : String :=
  let place := match e.position? with
    | some p => s!"{file}:{p.line}:{p.column}"
    | none => file
  paint.apply .red "✗" ++ " " ++ paint.apply .bold place ++ ": " ++ e.message

def commandLines (paint : Paint) (commands : List Binding) : List String :=
  [paint.apply .bold s!"Found {commands.length} command(s):", ""] ++
    commands.map fun b =>
      heading paint 1 b.command ++ " " ++ paint.apply .dim s!"→ {b.plugin}.{b.method}"

/-- The line that sets the log off from what stands around it. -/
def rule (paint : Paint) : String := paint.apply .dim (String.ofList (List.replicate 80 '─'))

def workflowLines (paint : Paint) (workflow : String) : List String :=
  [paint.apply .bold "Workflow" ++ " " ++ paint.apply .cyan workflow, rule paint]

/-- The style that the level of a log entry is shown in. -/
def levelStyle : LogLevel → Text.Style
  | .debug => .dim
  | .info => .cyan
  | .warning => .yellow
  | .error => .red

def logLine (paint : Paint) (timeText : Timestamp → String) (e : LogEntry) : String :=
  paint.apply .dim (timeText e.time) ++ " [" ++
    paint.apply (levelStyle e.level) e.level.display ++ "] " ++ e.message

def outputLines (paint : Paint) (depth : Nat) (outputs : List String) : List String :=
  (outputs.flatMap Text.lines).map fun line => indented (depth + 2) (paint.apply .dim line)

mutual

/-- The lines of what a stage has yielded: those of its branches, then those of its steps. -/
def resultLines (paint : Paint) (depth : Nat) : StageOutput → List String
  | .steps outputs => outputLines paint depth outputs
  | .branches results => resultsLines paint (depth + 1) results
  | .combined results outputs =>
    resultsLines paint (depth + 1) results ++ outputLines paint depth outputs

def resultsLines (paint : Paint) (depth : Nat) : List (String × StageOutput) → List String
  | [] => []
  | (name, output) :: rest =>
    heading paint depth name :: resultLines paint depth output ++ resultsLines paint depth rest

end

def verdictLines (paint : Paint) : Option StageFailure → List String
  | some failure =>
    ["  " ++ paint.apply .red "✗" ++ " Stage " ++ paint.apply .bold failure.stage ++ " failed",
      "  " ++ paint.apply .red failure.error]
  | none => ["  " ++ paint.apply .green "✓" ++ " All stages succeeded"]

def reportLines (paint : Paint) (r : Report) : List String :=
  [paint.apply .bold "Results:"] ++ resultsLines paint 1 r.stages ++ [""] ++
    verdictLines paint r.failure

def text (lines : List String) : String := String.join (lines.map fun line => line ++ "\n")

end Listing

/-! ### Style

When the program shows its texts in style. Its outputs are not taken for terminals, so the
environment has to insist on it. -/

def insistsOnStyle (env : Environment) : Bool :=
  match env.get? "CLICOLOR_FORCE" with
  | some wish => wish != "0"
  | none => false

/-- How the lines on pipelines and runs are shown. -/
def paintOf (env : Environment) : Text.Paint :=
  if insistsOnStyle env then .inStyle else .plainly

/-- How lines that stand for a terminal are written, such as those of the help: they keep their
style only where the environment does not forbid it. -/
def shown (env : Environment) (text : String) : String :=
  let isForbidden := (env.get? "NO_COLOR").getD "" != ""
  if insistsOnStyle env && !isForbidden then text else Text.plain text

end PipelineRunner.CommandLine
