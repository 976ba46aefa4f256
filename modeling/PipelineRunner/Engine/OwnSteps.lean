import PipelineRunner.Engine.Trial
import PipelineRunner.Pipeline.Image

/-!
The steps of a stage, one after the other. If the stage has a container, it is started before the
first step and stopped after the last one, however the steps have ended.
-/

namespace PipelineRunner

/-- What the steps of a stage yield: their outputs, and why they have ended early if they have. -/
structure StepsResult where
  outputs : List String
  failure : Option StepError := none

/-- How far the steps of a stage have come. -/
inductive OwnSteps where
  | entering
  | pulling (image : String) (wait : Waiting (Except Cause Unit))
  | pulled (image : String)
  | starting (image : String) (wait : Waiting (Except Cause String))
  | between (container : Option String) (todo : List Step) (outputs : List String)
  | trying (container : Option String) (trial : Trial) (todo : List Step) (outputs : List String)
  | leaving (container : Option String) (result : StepsResult)
  | stopping (container : String) (wait : Waiting (Except Cause Unit)) (result : StepsResult)

/-- The parameters of a step with those that tell of its surroundings, which take the place of
parameters of the same name. -/
def Step.paramsWithin (step : Step) (workflow : String) (container : Option String) : StepParams :=
  let params := step.params.insert workflowKey workflow
  match container with
  | some id => params.insert containerKey id
  | none => params

namespace OwnSteps

abbrev Result := Turn OwnSteps StepsResult

/-- The result of steps that have no container to run in. -/
def withoutContainer (image : String) (cause : Cause) : StepsResult :=
  ⟨[], some (.container image cause.message)⟩

def followPull (c : Context) (image : String) :
    World × Progress (Except Cause Unit) → Result
  | (w, .finished (.ok ())) =>
    .moved (w.note c.place (.pulled (Image.normalize image))) (.pulled image)
  | (w, .finished (.error cause)) => .ended w (withoutContainer image cause)
  | (w, .waits wait) => .moved w (.pulling image wait)
  | (w, .crashed reason) => .crashed w reason []

def followStart (c : Context) (stage : Stage) (image : String) :
    World × Progress (Except Cause String) → Result
  | (w, .finished (.ok id)) =>
    let w := w.note c.place (.started (Image.normalize image) id)
    let w := w.log c.place c.place.workflow .info
      s!"Stage '{stage.name}' running in container {id} ({image})"
    .moved w (.between (some id) stage.steps [])
  | (w, .finished (.error cause)) => .ended w (withoutContainer image cause)
  | (w, .waits wait) => .moved w (.starting image wait)
  | (w, .crashed reason) => .crashed w reason []

/-- Goes on with the stop of a container; whether it fails does not matter. -/
def followStop (c : Context) (container : String) (result : StepsResult) :
    World × Progress (Except Cause Unit) → Result
  | (w, .finished _) => .ended (w.note c.place (.stopped container)) result
  | (w, .waits wait) => .moved w (.stopping container wait result)
  | (w, .crashed reason) => .crashed w reason []

def beginStep (c : Context) (container : Option String) (step : Step) (todo : List Step)
    (outputs : List String) (w : World) : Result :=
  if c.cancelled then .moved w (.leaving container ⟨outputs, some .cancelled⟩)
  else
    match w.registry.resolve step.command with
    | none =>
      let e := StepError.unresolved step.command
      .moved w (.leaving container ⟨outputs ++ [e.message], some e⟩)
    | some binding =>
      let params := step.paramsWithin c.place.workflow container
      .moved w (.trying container { command := step.command, params, binding } todo outputs)

/-- Goes on with a step. The text of its error counts as its output. -/
def followTrial (container : Option String) (todo : List Step) (outputs : List String) :
    Turn Trial StepResult → Result
  | .blocked => .blocked
  | .moved w trial => .moved w (.trying container trial todo outputs)
  | .ended w (.ok output) => .moved w (.between container todo (outputs ++ [output.getD ""]))
  | .ended w (.error e) => .moved w (.leaving container ⟨outputs ++ [e.message], some e⟩)
  | .crashed w reason held => .crashed w reason (held ++ container.toList)

/-- A turn of the steps of a stage. -/
def move (c : Context) (stage : Stage) (agent : Agent) (w : World) : OwnSteps → Result
  | entering =>
    match agent.image? with
    | none => .moved w (.between none stage.steps [])
    | some image =>
      if c.cancelled then .ended w ⟨[], some .cancelled⟩
      else
        let reference := Image.normalize image
        followPull c image <|
          World.perform c.place (c.engine.runtime.pull reference) (w.note c.place (.pull reference))
  | pulling image wait =>
    if w.isDue wait.timer then followPull c image (World.perform c.place wait.rest w) else .blocked
  | pulled image =>
    let reference := Image.normalize image
    followStart c stage image <|
      World.perform c.place (c.engine.runtime.start reference) (w.note c.place (.start reference))
  | starting image wait =>
    if w.isDue wait.timer then followStart c stage image (World.perform c.place wait.rest w)
    else .blocked
  | between container [] outputs => .moved w (.leaving container ⟨outputs, none⟩)
  | between container (step :: todo) outputs => beginStep c container step todo outputs w
  | trying container trial todo outputs => followTrial container todo outputs (trial.move c w)
  | leaving none result => .ended w result
  | leaving (some id) result =>
    followStop c id result <|
      World.perform c.place (c.engine.runtime.stop id) (w.note c.place (.stop id))
  | stopping id wait result =>
    if w.isDue wait.timer then followStop c id result (World.perform c.place wait.rest w)
    else .blocked

/-- Whether steps that wait need not wait any longer. -/
def isAwake (c : Context) (w : World) : OwnSteps → Bool
  | pulling _ wait => w.isDue wait.timer
  | starting _ wait => w.isDue wait.timer
  | trying _ trial _ _ => trial.isAwake c w
  | stopping _ wait _ => w.isDue wait.timer
  | _ => false

/-- The container that is left to be stopped if everything is dropped now. One that is being
stopped is not stopped a second time. -/
def held : OwnSteps → List String
  | between container _ _ => container.toList
  | trying container _ _ _ => container.toList
  | leaving container _ => container.toList
  | _ => []

def timers : OwnSteps → List Timer
  | pulling _ wait => [wait.timer]
  | starting _ wait => [wait.timer]
  | trying _ trial _ _ => trial.timers
  | stopping _ wait _ => [wait.timer]
  | _ => []

end OwnSteps
end PipelineRunner
