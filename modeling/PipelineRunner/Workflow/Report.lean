import PipelineRunner.Json.Basic
import PipelineRunner.OrderedMap

/-!
What a run of a pipeline yields: for each stage that was started the outputs of its steps, the
results of its branches, or both, and the stage that ended the run if one failed.
-/

namespace PipelineRunner

/-- What a stage has yielded. -/
inductive StageOutput where
  | steps (outputs : List String)
  | branches (results : List (String × StageOutput))
  | combined (results : List (String × StageOutput)) (outputs : List String)
  deriving Repr, Inhabited

/-- The outputs of stages by name. -/
abbrev StageResults := OrderedMap StageOutput

namespace StageOutput

/-- The output of a stage from what it has produced; without anything it is an empty list. -/
def ofParts : Option StageResults → Option (List String) → StageOutput
  | some results, some outputs => combined results outputs
  | some results, none => branches results
  | none, outputs => steps (outputs.getD [])

def steps? : StageOutput → Option (List String)
  | steps outputs => some outputs
  | branches _ => none
  | combined _ outputs => some outputs

def branches? : StageOutput → Option StageResults
  | steps _ => none
  | branches results => some results
  | combined results _ => some results

mutual

/-- Outputs of steps are an array, results of branches an object. -/
def toJson : StageOutput → Json
  | steps outputs => .array (outputs.map .string)
  | branches results => .object (fieldsToJson results)
  | combined results outputs =>
    .object [("branches", .object (fieldsToJson results)), ("steps", .array (outputs.map .string))]

def fieldsToJson : List (String × StageOutput) → List (String × Json)
  | [] => []
  | (name, output) :: rest => (name, output.toJson) :: fieldsToJson rest

end
end StageOutput

def StageResults.toJson (results : StageResults) : Json :=
  .object (StageOutput.fieldsToJson results)

/-- The stage that ended a run, and why. -/
structure StageFailure where
  stage : String
  error : String
  deriving DecidableEq, Repr

/-- What a run has yielded. -/
structure Report where
  workflowId : String
  stages : StageResults
  failure : Option StageFailure := none
  deriving Repr

namespace Report

def succeeded (r : Report) : Bool := r.failure.isNone

def toJson (r : Report) : Json :=
  .object <|
    [("workflow_id", .string r.workflowId), ("stages", r.stages.toJson)] ++
    match r.failure with
    | some f => [("failure", .object [("stage", .string f.stage), ("error", .string f.error)])]
    | none => []

end Report
end PipelineRunner
