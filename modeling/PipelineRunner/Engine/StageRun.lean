import PipelineRunner.Engine.OwnSteps
import PipelineRunner.Workflow.Report

/-!
A stage under way. Its branches run beside each other, and when the first of them fails the others
are cancelled; the stage's own steps follow when all branches have come through. A turn goes to one
place in the tree of branches, which a list of positions names.
-/

namespace PipelineRunner

/-- How far a stage has come. -/
inductive StageRun where
  | fresh (stage : Stage) (inherited : Agent)
  /-- The branches are under way; `failure` is that of the branch whose failure came in first. -/
  | joining (stage : Stage) (agent : Agent) (runs : List StageRun) (failure : Option StepError)
  /-- The stage's own steps are under way. -/
  | working (stage : Stage) (agent : Agent) (branches : Option StageResults) (own : OwnSteps)
  | settled (output : StageOutput) (failure : Option StepError)
  /-- The stage around has taken notice of the end. -/
  | received (output : StageOutput)

namespace StageRun

/-- Turns to the stage's own steps, if it has any. -/
def ownSteps (stage : Stage) (agent : Agent) (branches : Option StageResults) : StageRun :=
  if stage.steps.isEmpty then settled (.ofParts branches none) none
  else working stage agent branches .entering

def enter (stage : Stage) (inherited : Agent) : StageRun :=
  let agent := stage.effectiveAgent inherited
  if stage.parallel.isEmpty then ownSteps stage agent none
  else joining stage agent (stage.parallel.map fun branch => fresh branch agent) none

/-- The output that the stage around has taken notice of. -/
def output? : StageRun → Option StageOutput
  | received output => some output
  | _ => none

/-- The outputs of all branches, if all have come in. -/
def outputs? (runs : List StageRun) : Option (List StageOutput) := runs.mapM output?

/-- The results of branches, under their names. -/
def resultsOf (branches : List Stage) (outputs : List StageOutput) : StageResults :=
  .ofEntries ((branches.map (·.name)).zip outputs)

/-- Ends a join in which all branches have come in. -/
def leaveJoin (stage : Stage) (agent : Agent) (outputs : List StageOutput)
    (failure : Option StepError) : StageRun :=
  let results := resultsOf stage.parallel outputs
  match failure with
  | some e => settled (.ofParts (some results) none) (some e)
  | none => ownSteps stage agent (some results)

def followSteps (stage : Stage) (agent : Agent) (branches : Option StageResults) :
    Turn OwnSteps StepsResult → Turn StageRun Empty
  | .blocked => .blocked
  | .moved w own => .moved w (working stage agent branches own)
  | .ended w result => .moved w (settled (.ofParts branches (some result.outputs)) result.failure)
  | .crashed w reason held => .crashed w reason held

/-- A turn of the stage itself. -/
def moveHere (c : Context) (w : World) : StageRun → Turn StageRun Empty
  | fresh stage inherited => .moved w (enter stage inherited)
  | joining stage agent runs failure =>
    match outputs? runs with
    | some outputs => .moved w (leaveJoin stage agent outputs failure)
    | none => .blocked
  | working stage agent branches own =>
    followSteps stage agent branches (own.move c stage agent w)
  | settled .. => .blocked
  | received _ => .blocked

/-- What a branch finds around it: it is cancelled with the stage and by the first failure, and it
is interrupted if the stage fails fast. -/
def Context.inside (c : Context) (stage : Stage) (failure : Option StepError) (i : Nat) : Context :=
  { c with
    place := c.place.branch i
    cancelled := c.cancelled || failure.isSome
    interrupt := stage.isFailFast }

mutual

/-- The containers that are left to be stopped if everything is dropped now: the branch that is
declared last is dropped first. -/
def held : StageRun → List String
  | joining _ _ runs _ => heldByAll runs
  | working _ _ _ own => own.held
  | _ => []

def heldByAll : List StageRun → List String
  | [] => []
  | run :: rest => heldByAll rest ++ run.held

end

/-- Goes on with a branch. A breakdown of one branch drops the others. -/
def followBranch (stage : Stage) (agent : Agent) (runs : List StageRun)
    (failure : Option StepError) (i : Nat) : Turn StageRun Empty → Turn StageRun Empty
  | .moved w run => .moved w (joining stage agent (runs.set i run) failure)
  | .crashed w reason held => .crashed w reason (held ++ heldByAll (runs.eraseIdx i))
  | _ => .blocked

/-- A turn at a place in the stage. At a branch that has settled, the stage takes notice of it. -/
def move (c : Context) (w : World) : List Nat → StageRun → Turn StageRun Empty
  | [], run => run.moveHere c w
  | i :: path, joining stage agent runs failure =>
    match runs[i]? with
    | none => .blocked
    | some (settled output outcome) =>
      .moved (w.note c.place (.received i outcome.isSome))
        (joining stage agent (runs.set i (received output)) (failure.or outcome))
    | some run =>
      followBranch stage agent runs failure i (run.move (Context.inside c stage failure i) w path)
  | _ :: _, _ => .blocked

def at? : StageRun → List Nat → Option StageRun
  | run, [] => some run
  | joining _ _ runs _, i :: path =>
    match runs[i]? with
    | some run => run.at? path
    | none => none
  | _, _ :: _ => none

/-- How many branches the stage has taken no notice of, if branches are what it waits for. -/
def outstanding? : StageRun → Option Nat
  | joining _ _ runs _ => some (runs.filter fun run => run.output?.isNone).length
  | _ => none

/-- Whether the stage is through. -/
def isSettled : StageRun → Bool
  | settled .. => true
  | _ => false

mutual

/-- The places that have begun to wait and need not wait any longer. -/
def awake (c : Context) (w : World) : StageRun → List (List Nat)
  | joining stage _ runs failure => awakeAmong c w stage failure 0 runs
  | working _ _ _ own => if own.isAwake c w then [[]] else []
  | _ => []

def awakeAmong (c : Context) (w : World) (stage : Stage) (failure : Option StepError) (i : Nat) :
    List StageRun → List (List Nat)
  | [] => []
  | run :: rest =>
    (awake (Context.inside c stage failure i) w run).map (i :: ·) ++
      awakeAmong c w stage failure (i + 1) rest

end

mutual

def timers : StageRun → List Timer
  | joining _ _ runs _ => timersOfAll runs
  | working _ _ _ own => own.timers
  | _ => []

def timersOfAll : List StageRun → List Timer
  | [] => []
  | run :: rest => run.timers ++ timersOfAll rest

end

end StageRun
end PipelineRunner
