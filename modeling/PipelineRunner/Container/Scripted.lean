import PipelineRunner.Container.Runtime

/-!
A container runtime that follows a script: it takes the time it is told to take, fails where it is
told to fail, and numbers its containers.
-/

namespace PipelineRunner

/-- What goes wrong for whom; an entry for `*` is for everybody without one of his own. -/
abbrev Failures := List (String × Cause)

/-- The failure that is meant for a subject. -/
def Failures.for? (failures : Failures) (subject : String) : Option Cause :=
  (List.lookup subject failures).orElse fun _ => List.lookup "*" failures

/-- How a scripted runtime behaves. Failures go by the image, or by the container. -/
structure ContainerScript where
  pullFailures : Failures := []
  startFailures : Failures := []
  execFailures : Failures := []
  stopFailures : Failures := []
  pullTime : Nat := 0
  startTime : Nat := 0
  stopTime : Nat := 0
  /-- What every command prints; without it a command prints itself. -/
  output : Option (List OutputItem) := none

namespace ContainerScript

/-- The counter of the containers. -/
def counter : String := "containers"

/-- Takes some time and then fails, or goes on. -/
def attempt {α : Type} (time : Nat) (failure : Option Cause) (rest : Work (Except Cause α)) :
    Work (Except Cause α) :=
  .sleep time fun _ =>
    match failure with
    | some cause => .done (.error cause)
    | none => rest

def runtime (s : ContainerScript) : ContainerRuntime where
  pull image := attempt s.pullTime (s.pullFailures.for? image) (.done (.ok ()))
  start image := attempt s.startTime (s.startFailures.for? image) <|
    .count counter fun n => .done (.ok s!"ctr-{n}")
  exec container argv := attempt 0 (s.execFailures.for? container) <|
    .done <| .ok <| .ofItems <|
      s.output.getD [.ok ("[" ++ container ++ "] " ++ Text.join " " argv)]
  stop container := attempt s.stopTime (s.stopFailures.for? container) (.done (.ok ()))

end ContainerScript
end PipelineRunner
