import PipelineRunner.Engine.Rota
import PipelineRunner.Engine.StageRun
import PipelineRunner.Json.Basic

/-!
The execution of a pipeline: its stages one after the other, up to the first that fails. The state
of the workflow is moved on as the execution begins, runs and ends.
-/

namespace PipelineRunner

/-- What is told to an execution from outside. -/
abbrev Properties := List (String × Json)

/-- The identifier of the workflow: a text with something in it, or a number. -/
def Properties.workflowId (properties : Properties) : Except ExecutionError String :=
  let missing := .error (.missingProperty workflowKey)
  match List.lookup workflowKey properties with
  | some (.string id) => if id = "" then missing else .ok id
  | some (.number n) =>
    match n.value? with
    | some value => .ok value.text
    | none => missing
  | _ => missing

namespace Execution

/-- How far an execution has come. -/
inductive Phase where
  | fresh
  /-- So many stages are through, and the next one may begin. -/
  | between (workflow : String) (index : Nat) (todo : List Stage) (results : StageResults)
  | inStage (workflow : String) (index : Nat) (stage : String) (run : StageRun) (todo : List Stage)
      (results : StageResults)
  | over (result : Except ExecutionError Report)
  | crashed (reason : String)

end Execution

/-- The execution of a pipeline. -/
structure Execution where
  pipeline : Pipeline
  properties : Properties
  state : StateCell := ⟨.pending, 0⟩
  phase : Execution.Phase := .fresh
  rota : Rota := {}

namespace Execution

def enter (e : Execution) (workflow : String) (state : WorkflowState) (w : World) :
    World × Execution :=
  let (cell, moved) := e.state.advance state
  (if moved then w.note ⟨workflow, []⟩ (.entered state) else w, { e with state := cell })

def finish (e : Execution) (report : Report) (w : World) : Turn Execution Empty :=
  let (w, e) := e.enter report.workflowId .done w
  .moved w { e with phase := .over (.ok report) }

/-- Begins the execution, if it is told which workflow it is. -/
def begin (e : Execution) (w : World) : Turn Execution Empty :=
  match e.properties.workflowId with
  | .error error => .moved w { e with phase := .over (.error error) }
  | .ok workflow =>
    let (w, e) := e.enter workflow .started w
    let (w, e) := e.enter workflow .running w
    .moved w { e with phase := .between workflow 0 e.pipeline.stages [] }

/-- Goes on behind a stage that is through. -/
def leaveStage (e : Execution) (workflow : String) (index : Nat) (stage : String)
    (output : StageOutput) (failure : Option StepError) (todo : List Stage)
    (results : StageResults) (w : World) : Turn Execution Empty :=
  let results := OrderedMap.insert stage output results
  match failure with
  | none => .moved w { e with phase := .between workflow (index + 1) todo results }
  | some error =>
    let w := w.log ⟨workflow, [index]⟩ workflow .error s!"Stage '{stage}' failed: {error.message}"
    e.finish ⟨workflow, results, some ⟨stage, error.message⟩⟩ w

def followStage (e : Execution) (workflow : String) (index : Nat) (stage : String)
    (todo : List Stage) (results : StageResults) : Turn StageRun Empty → Turn Execution Empty
  | .moved w run => .moved w { e with phase := .inStage workflow index stage run todo results }
  | .crashed w reason held => .crashed w reason held
  | _ => .blocked

/-- A turn at a place in the execution. -/
def move (engine : Engine) (e : Execution) (w : World) (path : List Nat) : Turn Execution Empty :=
  match e.phase with
  | .fresh => e.begin w
  | .between workflow _ [] results => e.finish ⟨workflow, results, none⟩ w
  | .between workflow index (stage :: todo) results =>
    let w := w.log ⟨workflow, [index]⟩ workflow .info s!"Stage '{stage.name}' started"
    let run := StageRun.fresh stage e.pipeline.agent
    .moved w { e with phase := .inStage workflow index stage.name run todo results }
  | .inStage workflow index stage (.settled output failure) todo results =>
    e.leaveStage workflow index stage output failure todo results w
  | .inStage workflow index stage run todo results =>
    e.followStage workflow index stage todo results
      (run.move ⟨engine, ⟨workflow, [index]⟩, false, false⟩ w path)
  | .over _ => .blocked
  | .crashed _ => .blocked

def at? (e : Execution) (place : List Nat) : Option StageRun :=
  match e.phase with
  | .inStage _ _ _ run _ _ => run.at? place
  | _ => none

/-- How many branches are outstanding at a place, if branches are what is waited for there. -/
def outstanding? (e : Execution) (place : List Nat) : Option Nat :=
  (e.at? place).bind StageRun.outstanding?

def wake (engine : Engine) (w : World) (e : Execution) : Execution :=
  match e.phase with
  | .inStage workflow index _ run _ _ =>
    let places := run.awake ⟨engine, ⟨workflow, [index]⟩, false, false⟩ w
    { e with rota := places.foldl Rota.call e.rota }
  | _ => e

/-- Whether a stage around waits for the news that the place is through. -/
def isNews (e : Execution) (place : List Nat) : Bool :=
  match place, e.at? place with
  | _ :: _, some run => run.isSettled
  | _, _ => false

/-- Keeps the rota up to date behind a turn at a place. -/
def follow (engine : Engine) (e : Execution) (place : List Nat) (w : World) (after : Execution) :
    Execution :=
  if e.isNews place then
    let after := after.wake engine w
    { after with rota := after.rota.renew ((after.outstanding? place.dropLast).getD 0) }
  else
    match e.outstanding? place, after.outstanding? place with
    | none, some branches => { after with rota := after.rota.gather place branches }
    | _, _ => after

/-- Gives way at a place at which nothing can be done. -/
def giveWay (e : Execution) (place : List Nat) : Execution :=
  match e.outstanding? place with
  | some branches => { e with rota := e.rota.openRound branches }
  | none => { e with rota := e.rota.yield }

/-- A turn at the place that has it, unless the whole execution waits. -/
def step (engine : Engine) (e : Execution) (w : World) : Turn Execution Empty :=
  if e.rota.onTurn then
    let place := e.rota.place
    match e.move engine w place with
    | .moved w after => .moved w (e.follow engine place w after)
    | .crashed w reason held => .crashed w reason held
    | _ => .moved w (e.giveWay place)
  else if e.rota.called then .moved w { e with rota := e.rota.begin }
  else .blocked

def timers (e : Execution) : List Timer :=
  match e.phase with
  | .inStage _ _ _ run _ _ => run.timers
  | _ => []

/-- What the execution has come to, if it has come to an end. -/
def result? (e : Execution) : Option (Except ExecutionError Report) :=
  match e.phase with
  | .over result => some result
  | _ => none

end Execution
end PipelineRunner
