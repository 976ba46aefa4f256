import PipelineRunner.Json.Reader
import PipelineRunner.Json.Basic
import PipelineRunner.Pipeline.Basic

/-!
Pipelines as JSON. Fields are written in a fixed order and left out where nothing is declared; they
are read in any order. Nesting is limited as the document is read: a `room` counts the arrays and
objects that may still be opened.
-/

namespace PipelineRunner

/-- Arrays and objects may be nested this deep. -/
def Json.nestingLimit : Nat := 127

namespace Agent

def toJson : Agent → Json
  | none => .object [("type", .string "none")]
  | docker image => .object [("type", .string "docker"), ("image", .string image)]

/-- An agent is read as a whole first, so that fields it ignores must be well-formed too. -/
def ofJson? (room : Nat) (json : Json) : Option Agent :=
  if json.fits room then
    match json with
    | .object fields =>
      match (Json.required? "type" fields).bind Json.text? with
      | some "none" => some none
      | some "docker" => (Json.required? "image" fields).bind Json.text? |>.map docker
      | _ => Option.none
    | _ => Option.none
  else Option.none

end Agent

namespace Param

def toJson (p : Param) : Json :=
  .object [("key", .string p.key), ("value", .string p.value)]

def ofJson? : Json → Option Param
  | .object fields => do
    let key ← (Json.required? "key" fields).bind Json.text?
    let value ← (Json.required? "value" fields).bind Json.text?
    some ⟨key, value⟩
  | _ => none

end Param

namespace Step

def toJson : Step → Json
  | single command value =>
    .object [("kind", .string "SingleKV"), ("command", .string command), ("value", .string value)]
  | multi command params =>
    .object [("kind", .string "MultiKV"), ("command", .string command),
      ("params", .array (params.map Param.toJson))]

/-- A step is read as a whole first, so that fields it ignores must be well-formed too. -/
def ofJson? (room : Nat) (json : Json) : Option Step :=
  if json.fits room then
    match json with
    | .object fields => do
      let kind ← (Json.required? "kind" fields).bind Json.text?
      let command ← (Json.required? "command" fields).bind Json.text?
      if kind = "SingleKV" then
        let value ← (Json.required? "value" fields).bind Json.text?
        some (single command value)
      else if kind = "MultiKV" then
        let params ← (Json.required? "params" fields).bind Json.items?
        let params ← params.mapM Param.ofJson?
        some (multi command params)
      else none
    | _ => none
  else none

end Step

namespace Stage

mutual

def toJson : Stage → Json
  | ⟨name, agent, steps, failFast, parallel⟩ =>
    .object <|
      [("name", .string name)] ++
      (match agent with
        | some agent => [("agent", agent.toJson)]
        | none => []) ++
      (if steps.isEmpty then [] else [("steps", .array (steps.map Step.toJson))]) ++
      (match failFast with
        | some flag => [("fail_fast", .bool flag)]
        | none => []) ++
      (if parallel.isEmpty then [] else [("parallel", .array (listToJson parallel))])

def listToJson : List Stage → List Json
  | [] => []
  | stage :: rest => stage.toJson :: listToJson rest

end

/-- A field whose value may be left out or null. -/
def optional? {α : Type} (name : String) (fields : List (String × Json))
    (read : Json → Option α) : Option (Option α) :=
  match Json.field? name fields with
  | none => none
  | some none => some none
  | some (some .null) => some none
  | some (some json) => (read json).map some

/-- A field that holds a list and may be left out. -/
def listField? {α : Type} (name : String) (fields : List (String × Json)) (room : Nat)
    (read : List Json → Option (List α)) : Option (List α) :=
  match Json.field? name fields with
  | none => none
  | some none => some []
  | some (some (.array items)) => if 0 < room then read items else none
  | some (some _) => none

def flag? : Json → Option Bool
  | .bool b => some b
  | _ => none

/-- Reads a stage whose nesting is at most `room`; each level of branches takes two of it. -/
def ofJson? : Nat → Json → Option Stage
  | room + 1, .object fields => do
    let name ← (Json.required? "name" fields).bind Json.text?
    let agent ← optional? "agent" fields (Agent.ofJson? room)
    let steps ← listField? "steps" fields room fun items => items.mapM (Step.ofJson? (room - 1))
    let failFast ← optional? "fail_fast" fields flag?
    let parallel ← listField? "parallel" fields room fun items =>
      match room with
      | inner + 1 => items.mapM (ofJson? inner)
      | 0 => none
    some ⟨name, agent, steps, failFast, parallel⟩
  | _, _ => none

end Stage

namespace Pipeline

def toJson (p : Pipeline) : Json :=
  .object [("agent", p.agent.toJson), ("stages", .array (Stage.listToJson p.stages))]

def ofJson? : Json → Option Pipeline
  | .object fields => do
    let agent ← (Json.required? "agent" fields).bind (Agent.ofJson? (Json.nestingLimit - 1))
    let stages ← (Json.required? "stages" fields).bind Json.items?
    let stages ← stages.mapM (Stage.ofJson? (Json.nestingLimit - 2))
    some ⟨agent, stages⟩
  | _ => none

def ofJsonText? (text : String) : Option Pipeline :=
  (Json.parse? text).bind ofJson?

end Pipeline

/-- Parameters are written as an array of pairs, because their order matters. -/
def StepParams.toJson (params : StepParams) : Json :=
  .array (params.map fun (k, v) => .array [.string k, .string v])

end PipelineRunner
