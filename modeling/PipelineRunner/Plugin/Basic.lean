import PipelineRunner.Container.Runtime
import PipelineRunner.Failure
import PipelineRunner.Pipeline.Basic
import PipelineRunner.Work

/-!
Plugins carry out the commands of steps. A plugin is started before its first call and stopped
after its last one; each of its commands is bound to one of its methods. A plugin of the runner is
given services when it is started.
-/

namespace PipelineRunner

/-- The parameter that names the workflow a step belongs to. -/
def workflowKey : String := "workflowExecutionId"

/-- The parameter that names the container a step runs in. -/
def containerKey : String := "containerId"

/-- A provider of commands. -/
structure Plugin where
  /-- Whether it belongs to the runner itself. -/
  builtin : Bool := false
  /-- Why it does not start, if it does not. -/
  startFailure : Option Cause := none
  /-- Why it does not stop well, if it does not. -/
  stopFailure : Option Cause := none
  /-- The commands and the methods that they are bound to. -/
  methods : List (String × String)
  /-- A call of a method; it may be without output. -/
  invoke : String → StepParams → Work (Except Cause (Option String))

/-- The value of a parameter that a method cannot do without. -/
def requiredParam (params : StepParams) (key : String) : Except Cause String :=
  match params.get? key with
  | some value => .ok value
  | none => .error (.because s!"missing required parameter '{key}'")

/-- What a plugin is given when it is started. -/
structure Services where
  containers : ContainerRuntime
  /-- The directory that steps on the host run in. -/
  workspace : String
  /-- The directory that paths are relative to. -/
  directory : String
  /-- Starts a program in a directory; the label names it in error messages. -/
  spawn : String → List String → String → Work (Except Cause Output)

namespace Services

/-- The node of the directory that paths are relative to. -/
def node (s : Services) (files : Host.FileTree) : Nat :=
  (files.findDirectory Host.FileTree.root s.directory).toOption.getD Host.FileTree.root

/-- Makes sure that the workspace is there. -/
def prepareWorkspace (s : Services) : Work (Except Cause Unit) := do
  let workspace := Text.Bytes.ofText s.workspace
  match ← Work.onFiles fun files => files.makeDirectories (s.node files) workspace with
  | .ok () => pure (.ok ())
  | .error e =>
    let cause := Cause.because e.message
    pure (.error (cause.within "Failed to create workspace directory"))

/-- Runs a program in a directory and copies its output into the log of a workflow. -/
def run (s : Services) (directory : String) (argv : List String) (label : String)
    (workflow : Option String) : Work (Except Cause String) := do
  match ← s.spawn directory argv label with
  | .ok output => output.forward workflow
  | .error cause => pure (.error cause)

end Services
end PipelineRunner
