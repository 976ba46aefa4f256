import PipelineRunner.Failure
import PipelineRunner.Work

/-!
Container runtimes, and the output of the commands that run in containers or on the host. Output
comes line by line while a command runs; a failure is an item among the lines.
-/

namespace PipelineRunner

/-- The output of a command as it comes up, together with what the command does meanwhile. What
follows is only worked out when somebody asks for it. -/
inductive Output where
  | finished
  | line (text : String) (rest : Unit → Output)
  | failed (cause : Cause) (rest : Unit → Output)
  /-- The command takes its time. -/
  | sleep (milliseconds : Nat) (rest : Unit → Output)
  | readFiles (rest : Host.FileTree → Output)
  | writeFiles (files : Host.FileTree) (rest : Unit → Output)

/-- A line of output, or a failure. -/
abbrev OutputItem := Except Cause String

namespace Output

def ofItems : List OutputItem → Output
  | [] => finished
  | .ok text :: rest => line text fun _ => ofItems rest
  | .error cause :: rest => failed cause fun _ => ofItems rest

/-- Copies output into the log of a workflow, without control characters, and collects it. The
first failure ends it; `taken` are the lines so far, the latest first. -/
def forwardAfter (workflow : Option String) (taken : List String) :
    Output → Work (Except Cause String)
  | finished => .done (.ok (Text.join "\n" taken.reverse))
  | line text rest =>
    let plain := Text.stripControl text
    (Work.logInfo workflow plain).bind fun _ => (rest ()).forwardAfter workflow (plain :: taken)
  | failed cause _ => .done (.error cause)
  | sleep ms rest => .sleep ms fun u => (rest u).forwardAfter workflow taken
  | readFiles rest => .readFiles fun files => (rest files).forwardAfter workflow taken
  | writeFiles files rest => .writeFiles files ((rest ()).forwardAfter workflow taken)

/-- Copies output into the log of a workflow, if there is one, and joins its lines. -/
def forward (workflow : Option String) (output : Output) : Work (Except Cause String) :=
  output.forwardAfter workflow []

/-- The first items of the output, all of them without a limit. Whoever has read enough does not
wait for what the command does after that. -/
def items : Option Nat → Output → Work (List OutputItem)
  | some 0, _ => .done []
  | _, finished => .done []
  | limit, line text rest =>
    ((rest ()).items (limit.map (· - 1))).bind fun l => .done (.ok text :: l)
  | limit, failed cause rest =>
    ((rest ()).items (limit.map (· - 1))).bind fun l => .done (.error cause :: l)
  | limit, sleep ms rest => .sleep ms fun u => (rest u).items limit
  | limit, readFiles rest => .readFiles fun files => (rest files).items limit
  | limit, writeFiles files rest => .writeFiles files ((rest ()).items limit)

end Output

/-- What runs containers. -/
structure ContainerRuntime where
  /-- Fetches an image. -/
  pull : String → Work (Except Cause Unit)
  /-- Creates and starts a container from an image, and tells its identifier. -/
  start : String → Work (Except Cause String)
  /-- Runs a command in a container. -/
  exec : String → List String → Work (Except Cause Output)
  /-- Stops and removes a container. -/
  stop : String → Work (Except Cause Unit)

end PipelineRunner
