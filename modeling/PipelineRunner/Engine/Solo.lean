import PipelineRunner.Cancellation
import PipelineRunner.Container.Lease
import PipelineRunner.Engine.Execution
import PipelineRunner.Schedule

/-!
A single execution, or a single step, that runs by itself in its own world.
-/

namespace PipelineRunner

/-- An execution that runs by itself. -/
structure SoloExecution where
  engine : Engine
  world : World
  execution : Execution
  cleanups : List Cleanup := []

namespace SoloExecution

def step (s : SoloExecution) : Option SoloExecution :=
  match s.execution.step s.engine s.world with
  | .moved w e => some { s with world := w, execution := e }
  | .crashed w reason held =>
    some { s with
      world := w
      execution := { s.execution with phase := .crashed reason }
      cleanups := s.cleanups ++ held.map fun id => { container := id } }
  | _ =>
    (Cleanup.stepFirst s.engine.runtime s.world s.cleanups).map fun (w, cleanups) =>
      { s with world := w, cleanups := cleanups }

def timers (s : SoloExecution) : List Timer :=
  s.execution.timers ++ s.cleanups.flatMap Cleanup.timers

def clockwork : Clockwork SoloExecution where
  step := step
  nextDue s := earliest? (s.timers.map (·.due))
  moveTo t s :=
    let w := { s.world with clock := t }
    { s with world := w, execution := s.execution.wake s.engine w }

/-- Whether the execution has come to an end of either kind. -/
def hasHalted (s : SoloExecution) : Bool :=
  match s.execution.phase with
  | .over _ => true
  | .crashed _ => true
  | _ => false

def unregister (name : String) (s : SoloExecution) : SoloExecution :=
  { s with world := (s.world.changeRegistry (·.unregister name)).1 }

/-- Lets the execution make the steps of one turn, at most so many. -/
def turnWithin : Nat → SoloExecution → SoloExecution
  | 0, s => s
  | fuel + 1, s =>
    match s.step with
    | some s => if s.hasHalted || !s.execution.rota.onTurn then s else turnWithin fuel s
    | none => s

/-- Lets the execution have one turn, if it wants one. -/
def turn (s : SoloExecution) : SoloExecution := turnWithin Clockwork.patience s

/-- Runs the execution to its end, beside actions from outside that may follow its first turn. -/
def run (s : SoloExecution) (beside : List (Nat × (SoloExecution → SoloExecution))) :
    SoloExecution :=
  let first := s.turn
  if first.hasHalted then first
  else clockwork.runBeside turn hasHalted s.world.clock beside first

def settleAll (s : SoloExecution) : SoloExecution :=
  clockwork.run (fun _ => false) none s

end SoloExecution

/-- How far a single step has come. -/
inductive SoloStatus where
  | trying (trial : Trial)
  | over (result : StepResult)
  | crashed (reason : String)

/-- A step that runs by itself under a token. -/
structure SoloStep where
  engine : Engine
  world : World
  tokens : CancelForest
  /-- The token that cancels the step. -/
  token : Nat
  interrupt : Bool
  status : SoloStatus

namespace SoloStep

/-- Finds out who provides a command. -/
def begin (w : World) (command : String) (params : StepParams) : SoloStatus :=
  match w.registry.resolve command with
  | none => .over (.error (.unresolved command))
  | some binding => .trying { command, params, binding }

def context (s : SoloStep) : Context :=
  ⟨s.engine, {}, s.tokens.isCancelled s.token, s.interrupt⟩

def step (s : SoloStep) : Option SoloStep :=
  match s.status with
  | .trying trial =>
    match trial.move s.context s.world with
    | .blocked => none
    | .moved w trial => some { s with world := w, status := .trying trial }
    | .ended w result => some { s with world := w, status := .over result }
    | .crashed w reason _ => some { s with world := w, status := .crashed reason }
  | _ => none

def timers (s : SoloStep) : List Timer :=
  match s.status with
  | .trying trial => trial.timers
  | _ => []

def clockwork : Clockwork SoloStep where
  step := step
  nextDue s := earliest? (s.timers.map (·.due))
  moveTo t s := { s with world := { s.world with clock := t } }

def hasHalted (s : SoloStep) : Bool :=
  match s.status with
  | .trying _ => false
  | _ => true

def cancel (token : Nat) (s : SoloStep) : SoloStep :=
  { s with tokens := s.tokens.cancel token }

def unregister (name : String) (s : SoloStep) : SoloStep :=
  { s with world := (s.world.changeRegistry (·.unregister name)).1 }

/-- Lets the step do what it can do now. -/
def turn (s : SoloStep) : SoloStep := clockwork.settle s

/-- Runs the step to its end, beside actions from outside that may follow its first turn. -/
def run (s : SoloStep) (beside : List (Nat × (SoloStep → SoloStep))) : SoloStep :=
  let first := s.turn
  if first.hasHalted then first
  else clockwork.runBeside turn hasHalted s.world.clock beside first

end SoloStep
end PipelineRunner
