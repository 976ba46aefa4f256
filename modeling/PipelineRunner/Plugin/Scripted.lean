import PipelineRunner.Plugin.Basic

/-!
Plugins that follow a script, for rehearsing pipelines: each call of a method logs, waits and
answers as the script says.
-/

namespace PipelineRunner

/-- How a scripted call answers. -/
inductive Reply where
  /-- With its `text` parameter. -/
  | echo
  | silent
  | say (text : String)
  /-- With the number of the call. -/
  | count
  | fail (cause : Cause)
  | crash

/-- What a scripted call does. -/
structure Behavior where
  /-- What it writes to the log of the workflow. -/
  log : Option String := none
  /-- How long it takes, in milliseconds. -/
  time : Nat := 0
  reply : Reply := .echo

/-- A command of a scripted plugin: the method that it is bound to, and what the calls of the
method do one after the other; the last one stands for all further calls. -/
structure ScriptedCommand where
  command : String
  method : String
  behaviors : List Behavior

/-- A plugin that follows a script. -/
structure PluginScript where
  /-- Tells the counters of this plugin from those of others. -/
  key : String
  commands : List ScriptedCommand
  startFailure : Option Cause := none
  stopFailure : Option Cause := none

namespace PluginScript

/-- What the calls of a method do: the script of its first command in alphabetical order. -/
def behaviors (s : PluginScript) (method : String) : List Behavior :=
  let commands := s.commands.filter fun c => c.method == method
  match commands.mergeSort (fun a b => a.command ≤ b.command) with
  | [] => []
  | c :: _ => c.behaviors

def nth (behaviors : List Behavior) (n : Nat) : Behavior :=
  match behaviors[n - 1]? with
  | some b => b
  | none => behaviors.getLastD {}

def perform (b : Behavior) (n : Nat) (params : StepParams) :
    Work (Except Cause (Option String)) := do
  match b.log with
  | some message => Work.logInfo (params.get? workflowKey) message
  | none => pure ()
  Work.sleepFor b.time
  let text := (params.get? Step.textKey).getD ""
  match b.reply with
  | .echo => pure (.ok (some text))
  | .silent => pure (.ok none)
  | .say reply => pure (.ok (some reply))
  | .count => pure (.ok (some (toString n)))
  | .fail cause => pure (.error cause)
  | .crash => .crash s!"plugin crashed on '{text}'"

def plugin (s : PluginScript) : Plugin where
  startFailure := s.startFailure
  stopFailure := s.stopFailure
  methods := s.commands.map fun c => (c.command, c.method)
  invoke method params := do
    let n ← Work.countUp (s.key ++ " " ++ method)
    perform (nth (s.behaviors method) n) n params

end PluginScript
end PipelineRunner
