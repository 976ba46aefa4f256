import PipelineRunner.CommandLine.Arguments
import PipelineRunner.CommandLine.Help
import PipelineRunner.CommandLine.Listing
import PipelineRunner.Container.Client
import PipelineRunner.Launcher.Service
import PipelineRunner.Pipeline.Json
import PipelineRunner.Plugin.Builtin

/-!
The program as a function of its arguments, its environment and the world it finds: what it leaves
behind is the world as it is then, an exit code, and what it has written to its two outputs.
-/

namespace PipelineRunner.CommandLine

/-- A call of the program. -/
structure Invocation where
  arguments : List String
  environment : Environment
  site : Host.Site
  /-- The identifier of the workflow that is run. -/
  workflowId : String
  /-- How the time of a log entry is shown. -/
  timeText : Timestamp → String

/-- What the program leaves behind. -/
structure Outcome where
  code : Nat := 0
  stdout : String := ""
  stderr : String := ""
  deriving DecidableEq, Repr

namespace Outcome

def printed (lines : List String) : Outcome := { stdout := Listing.text lines }

/-- The program fails, with a message and perhaps a reason. -/
def failed (message : String) (reason : Option String := none) : Outcome :=
  let because := match reason with
    | some text => ["", "Caused by:", "    " ++ text]
    | none => []
  { code := 1, stderr := Listing.text (("Error: " ++ message) :: because) }

/-- The program has written some lines before something else came about. -/
def after (lines : List String) (o : Outcome) : Outcome :=
  { o with stdout := Listing.text lines ++ o.stdout }

/-- The program has complained before something else came about. -/
def afterComplaint (line : String) (o : Outcome) : Outcome :=
  { o with stderr := Listing.text [line] ++ o.stderr }

/-- What comes of arguments that are no request. -/
def stopped (env : Environment) : Stop → Outcome
  | .help topic => { stdout := shown env (Listing.text (Help.lines env topic)) }
  | .usage .nothingGiven =>
    { code := 2, stderr := shown env (Listing.text (Help.lines env .program)) }
  | .usage error =>
    let lines := [error.message, "", "For more information, try '" ++ literal "--help" ++ "'."]
    { code := 2, stderr := shown env (Listing.text lines) }

/-- The end of a run that has yielded a report. -/
def ofReport (r : Report) : Outcome :=
  match r.failure with
  | some failure => failed s!"stage '{failure.stage}' failed"
  | none => {}

end Outcome

namespace Invocation

/-- How the lines on pipelines and runs are shown. -/
def paint (i : Invocation) : Text.Paint := paintOf i.environment

def readText (i : Invocation) (w : World) (file : String) : Except Outcome String :=
  let unread (reason : String) := Outcome.failed ("Failed to read " ++ file) (some reason)
  match w.files.bytesAt (i.site.node w.files) (Text.Bytes.ofText file) with
  | .error e => .error (unread e.message)
  | .ok bytes =>
    match Text.Utf8.decode (Text.Bytes.toBytes bytes) with
    | .ok cs => .ok (String.ofList cs)
    | .error _ => .error (unread "stream did not contain valid UTF-8")

/-- The script in a file, with the pipeline that it describes. -/
def load (i : Invocation) (w : World) (file : String) : Except Outcome (String × Pipeline) := do
  let source ← i.readText w file
  match Script.parse source with
  | .ok pipeline => pure (source, pipeline)
  | .error e =>
    let invalid := Outcome.failed (file ++ " is not a valid pipeline")
    .error (invalid.afterComplaint (Listing.complaint i.paint file e))

def settings (i : Invocation) (request : Request) : Settings :=
  let s := Settings.ofEnvironment i.environment
  { s with
    containerBinary := request.containerBinary.getD s.containerBinary
    workspace := request.workspace.getD s.workspace }

def client (i : Invocation) (s : Settings) : ContainerClient := ⟨i.site, s.containerBinary⟩

/-- The world with the plugins of the runner, or why there is none. -/
def equip (i : Invocation) (s : Settings) (w : World) : World × Except Outcome Unit :=
  let services := i.site.services (i.client s).runtime s.workspace
  match w.changeRegistry fun r => r.registerBuiltins services with
  | (w, .ok ()) => (w, .ok ())
  | (w, .error e) => (w, .error (.failed e.message))

/-- Finds out whether the client is there, if that will matter. Nothing depends on the answer. -/
def probe (i : Invocation) (s : Settings) (p : Pipeline) (w : World) : World :=
  if p.usesContainers then (World.complete {} (i.client s).check w).1 else w

/-- What is written about a workflow that has been run. -/
def workflowOutcome (i : Invocation) (json : Bool) (entries : List LogEntry)
    (result : Option (Except LaunchError Report)) : Outcome :=
  let log := if json then [] else
    Listing.workflowLines i.paint i.workflowId ++
      entries.map (Listing.logLine i.paint i.timeText)
  match result with
  | some (.ok r) =>
    let report :=
      if json then [r.toJson.pretty]
      else Listing.rule i.paint :: Listing.reportLines i.paint r
    (Outcome.ofReport r).after (log ++ report)
  | some (.error e) => (Outcome.failed e.message).after log
  | none => { stdout := Listing.text log }

/-- Runs a script to its end in a world that has plugins. -/
def runScript (i : Invocation) (s : Settings) (source : String)
    (properties : List (String × String)) (json : Bool) (w : World) : World × Outcome :=
  let l := Launcher.new ⟨s.retryPolicy, (i.client s).runtime⟩ w s.maxParallelWorkflows
  let properties := OrderedMap.ofEntries (properties.map fun (k, v) => (k, Json.string v))
  match l.submit i.workflowId source properties with
  | (l, .error e) => (l.world, .failed e.message)
  | (l, .ok ()) =>
    let (l, result) := l.wait i.workflowId Clockwork.patience
    let (l, entries) := l.takeLogs i.workflowId
    ((l.world.changeRegistry Registry.unregisterAll).1, i.workflowOutcome json entries result)

def perform (i : Invocation) (s : Settings) (w : World) : Action → World × Outcome
  | .parse file json =>
    match i.load w file with
    | .error o => (w, o)
    | .ok (_, p) =>
      (w, .printed (if json then [p.toJson.pretty] else Listing.pipelineLines i.paint file p))
  | .validate file =>
    match i.load w file with
    | .error o => (w, o)
    | .ok (_, p) => (w, .printed [Listing.approval i.paint file p])
  | .run file properties json =>
    match i.load w file with
    | .error o => (w, o)
    | .ok (source, p) =>
      match i.equip s (i.probe s p w) with
      | (w, .error o) => (w, o)
      | (w, .ok ()) => i.runScript s source properties json w
  | .plugins =>
    match i.equip s w with
    | (w, .error o) => (w, o)
    | (w, .ok ()) =>
      let commands := w.registry.sortedCommands
      ((w.changeRegistry Registry.unregisterAll).1, .printed (Listing.commandLines i.paint commands))

def execute (i : Invocation) (w : World) : World × Outcome :=
  match Request.ofArguments i.environment i.arguments with
  | .error stop => (w, .stopped i.environment stop)
  | .ok request =>
    let s := i.settings request
    match s.error? with
    | some e => (w, .failed e.message)
    | none => i.perform s w request.action

end Invocation
end PipelineRunner.CommandLine
