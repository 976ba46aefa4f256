import PipelineRunner.Pipeline.Json
import PipelineRunner.Proofs.JsonTexts

/-! Pipelines are read back from their JSON texts. An object is a row of named parts of which some
are left out, and each part is found again under its name; an agent, a step and a stage are read
back wherever there is room for their nesting, and nowhere else. So a pipeline survives its text
exactly up to the limit on nesting. -/

namespace PipelineRunner

namespace Json

/-! ### Named parts -/

/-- The fields of an object, of which those without a value are left out. -/
def fieldsOf (parts : List (String × Option Json)) : List (String × Json) :=
  parts.filterMap fun part => part.2.map (part.1, ·)

/-- A list that is left out when nothing is in it. -/
def listPart (items : List Json) : Option Json :=
  if items.isEmpty then none else some (.array items)

/-- How deep a part is nested; one that is left out is not nested at all. -/
def partDepth (part : Option Json) : Nat :=
  part.elim 0 depth

theorem fieldsOf_cons (part : String × Option Json) (parts : List (String × Option Json)) :
    fieldsOf (part :: parts) = (part.2.map (part.1, ·)).toList ++ fieldsOf parts := by
  cases value : part.2 <;> simp [fieldsOf, value]

theorem filter_fieldsOf_absent {name : String} {parts : List (String × Option Json)}
    (absent : name ∉ parts.map Prod.fst) :
    (fieldsOf parts).filter (fun field => field.1 == name) = [] := by
  simp only [List.filter_eq_nil_iff, fieldsOf, List.mem_filterMap, Option.map_eq_some_iff,
    beq_iff_eq]
  rintro field ⟨part, listed, value, -, rfl⟩ rfl
  exact absent (List.mem_map_of_mem listed)

theorem filter_fieldsOf {name : String} {value : Option Json} :
    ∀ {parts : List (String × Option Json)}, (parts.map Prod.fst).Nodup → (name, value) ∈ parts →
    (fieldsOf parts).filter (fun field => field.1 == name) = (value.map (name, ·)).toList
  | part :: parts, distinct, listed => by
    obtain ⟨unlike, distinct⟩ := List.nodup_cons.mp distinct
    rcases List.mem_cons.mp listed with rfl | listed
    · have absent := filter_fieldsOf_absent unlike
      rw [fieldsOf_cons, List.filter_append, absent]
      cases value <;> simp
    · have found := filter_fieldsOf distinct listed
      have other : part.1 ≠ name := fun same =>
        unlike (same ▸ List.mem_map_of_mem (f := Prod.fst) listed)
      rw [fieldsOf_cons, List.filter_append, found]
      cases part.2 <;> simp [other]

theorem field?_fieldsOf {name : String} {value : Option Json}
    {parts : List (String × Option Json)} (distinct : (parts.map Prod.fst).Nodup)
    (listed : (name, value) ∈ parts) : field? name (fieldsOf parts) = some value := by
  rw [field?, filter_fieldsOf distinct listed]
  cases value <;> rfl

@[simp] theorem fieldsPlain_fieldsOf_nil : fieldsPlain (fieldsOf []) = true := rfl

@[simp] theorem fieldsPlain_fieldsOf_cons (name : String) (value : Option Json)
    (parts : List (String × Option Json)) :
    fieldsPlain (fieldsOf ((name, value) :: parts)) =
      (value.all isPlain && fieldsPlain (fieldsOf parts)) := by
  cases value <;> simp [fieldsOf, fieldsPlain]

@[simp] theorem fieldsDepth_fieldsOf_nil : fieldsDepth (fieldsOf []) = 0 := rfl

@[simp] theorem fieldsDepth_fieldsOf_cons (name : String) (value : Option Json)
    (parts : List (String × Option Json)) :
    fieldsDepth (fieldsOf ((name, value) :: parts)) =
      max (partDepth value) (fieldsDepth (fieldsOf parts)) := by
  cases value <;> simp [fieldsOf, fieldsDepth, partDepth]

theorem partDepth_listPart_le {items : List Json} {room : Nat} :
    partDepth (listPart items) ≤ room ↔ items = [] ∨ itemsDepth items + 1 ≤ room := by
  cases items <;> simp [listPart, partDepth, depth]

theorem listPart_plain {items : List Json} :
    (listPart items).all isPlain = itemsPlain items := by
  cases items <;> rfl

/-! ### Lists -/

variable {α : Type} {write : α → Json}

theorem itemsPlain_map (xs : List α) (plain : ∀ x ∈ xs, (write x).isPlain = true) :
    itemsPlain (xs.map write) = true := by
  induction xs with
  | nil => rfl
  | cons x xs ih =>
    rw [List.forall_mem_cons] at plain
    simp [itemsPlain, plain.1, ih plain.2]

/-- A list is read back if all its items are, and one that is not spoils it. -/
theorem mapM_write {read : Json → Option α} {room : Nat} {xs : List α}
    (reads : ∀ x ∈ xs, read (write x) = if (write x).depth ≤ room then some x else none) :
    (xs.map write).mapM read =
      if itemsDepth (xs.map write) ≤ room then some xs else none := by
  induction xs with
  | nil => simp [itemsDepth]
  | cons x xs ih =>
    rw [List.forall_mem_cons] at reads
    simp only [List.map_cons, List.mapM_cons, reads.1, ih reads.2, itemsDepth, Nat.max_le]
    by_cases shallow : (write x).depth ≤ room <;>
      by_cases rest_shallow : itemsDepth (xs.map write) ≤ room <;> simp [shallow, rest_shallow]

end Json

open Json

/-! ### Agents and steps -/

theorem Agent.toJson_plain (agent : Agent) : agent.toJson.isPlain = true := by
  cases agent <;> rfl

/-- An agent is read back where there is room for an object. -/
theorem Agent.ofJson?_toJson (room : Nat) (agent : Agent) :
    ofJson? room agent.toJson = if agent.toJson.depth ≤ room then some agent else Option.none := by
  have room_enough := fits_iff_depth room _ agent.toJson_plain
  unfold ofJson?
  by_cases shallow : agent.toJson.depth ≤ room
  · rw [if_pos shallow, if_pos (room_enough.mpr shallow)]
    cases agent <;> simp [toJson, required?, field?, text?]
  · rw [if_neg shallow, if_neg (mt room_enough.mp shallow)]

theorem Param.toJson_plain (param : Param) : param.toJson.isPlain = true := rfl

theorem Param.ofJson?_toJson (param : Param) : ofJson? param.toJson = some param := by
  simp [ofJson?, toJson, required?, field?, text?]

theorem Param.mapM_ofJson? (params : List Param) :
    (params.map toJson).mapM ofJson? = some params := by
  induction params with
  | nil => rfl
  | cons param params ih => simp [ofJson?_toJson, ih]

theorem Step.toJson_plain (step : Step) : step.toJson.isPlain = true := by
  cases step with
  | single command value => rfl
  | multi command params =>
    have params_plain := itemsPlain_map params fun param _ => param.toJson_plain
    simp [toJson, isPlain, fieldsPlain, params_plain]

/-- A step is read back where there is room for its nesting. -/
theorem Step.ofJson?_toJson (room : Nat) (step : Step) :
    ofJson? room step.toJson = if step.toJson.depth ≤ room then some step else none := by
  have room_enough := fits_iff_depth room _ step.toJson_plain
  unfold ofJson?
  by_cases shallow : step.toJson.depth ≤ room
  · rw [if_pos shallow, if_pos (room_enough.mpr shallow)]
    cases step with
    | single command value => simp [toJson, required?, field?, text?]
    | multi command params =>
      have read := Param.mapM_ofJson? params
      simp [toJson, required?, field?, text?, items?, -List.mapM_map, read]
  · rw [if_neg shallow, if_neg (mt room_enough.mp shallow)]

namespace Stage

/-! ### Stages -/

theorem listToJson_eq_map (stages : List Stage) : listToJson stages = stages.map toJson := by
  induction stages with
  | nil => rfl
  | cons stage stages ih => rw [listToJson, ih, List.map_cons]

/-- The parts of a stage, in the order in which they are written. -/
def parts (stage : Stage) : List (String × Option Json) :=
  [("name", some (.string stage.name)), ("agent", stage.agent.map Agent.toJson),
    ("steps", listPart (stage.steps.map Step.toJson)), ("fail_fast", stage.failFast.map .bool),
    ("parallel", listPart (stage.parallel.map toJson))]

theorem toJson_eq_parts (stage : Stage) : stage.toJson = .object (fieldsOf stage.parts) := by
  obtain ⟨name, agent, steps, failFast, parallel⟩ := stage
  rw [toJson.eq_def]
  simp only [parts, listToJson_eq_map]
  cases agent <;> cases steps <;> cases failFast <;> cases parallel <;> simp [fieldsOf, listPart]

/-- Each part of a stage is found under its name. -/
theorem field?_parts {stage : Stage} {name : String} {value : Option Json}
    (listed : (name, value) ∈ stage.parts) :
    field? name (fieldsOf stage.parts) = some value :=
  field?_fieldsOf (by simp [parts]) listed

theorem depth_toJson_le {stage : Stage} {room : Nat} :
    stage.toJson.depth ≤ room + 1 ↔
      partDepth (stage.agent.map Agent.toJson) ≤ room ∧
      partDepth (listPart (stage.steps.map Step.toJson)) ≤ room ∧
      partDepth (listPart (stage.parallel.map toJson)) ≤ room := by
  have flag_flat : partDepth (stage.failFast.map .bool) = 0 := by cases stage.failFast <;> rfl
  have name_flat : partDepth (some (.string stage.name)) = 0 := rfl
  rw [toJson_eq_parts, depth, parts]
  simp only [fieldsDepth_fieldsOf_cons, fieldsDepth_fieldsOf_nil, flag_flat, name_flat]
  omega

/-- A list is read back where there is room for its nesting, or when it is left out. -/
theorem listField?_listPart {α : Type} {write : α → Json} {name : String}
    {fields : List (String × Json)} {room : Nat} {read : List Json → Option (List α)}
    {xs : List α} (found : field? name fields = some (listPart (xs.map write)))
    (reads : ∀ inner, room = inner + 1 → read (xs.map write) =
      if itemsDepth (xs.map write) ≤ inner then some xs else none) :
    listField? name fields room read =
      if partDepth (listPart (xs.map write)) ≤ room then some xs else none := by
  cases xs with
  | nil => simp [listField?, found, listPart, partDepth]
  | cons x xs =>
    simp only [partDepth_listPart_le]
    cases room with
    | zero => simp [listField?, found, listPart]
    | succ inner => simp [listField?, found, listPart, -List.map_cons, reads inner rfl]

theorem optional?_map {α : Type} {write : α → Json} {name : String}
    {fields : List (String × Json)} {room : Nat} {read : Json → Option α} {x : Option α}
    (found : field? name fields = some (x.map write)) (visible : ∀ x, write x ≠ .null)
    (reads : ∀ x, read (write x) = if (write x).depth ≤ room then some x else none) :
    optional? name fields read = if partDepth (x.map write) ≤ room then some x else none := by
  cases x with
  | none => simp [optional?, found, partDepth]
  | some x =>
    have one : optional? name fields read = (read (write x)).map some := by
      simp only [optional?, found, Option.map_some]
      split <;> simp_all
    rw [one, reads x]
    by_cases shallow : (write x).depth ≤ room <;> simp [partDepth, shallow]

/-- Reads the branches of a stage, whose list has taken one of the room. -/
def branches? : Nat → List Json → Option (List Stage)
  | inner + 1, items => items.mapM (ofJson? inner)
  | 0, _ => none

theorem ofJson?_object (room : Nat) (fields : List (String × Json)) :
    ofJson? (room + 1) (.object fields) = (do
      let name ← (required? "name" fields).bind text?
      let agent ← optional? "agent" fields (Agent.ofJson? room)
      let steps ← listField? "steps" fields room fun items => items.mapM (Step.ofJson? (room - 1))
      let failFast ← optional? "fail_fast" fields flag?
      let parallel ← listField? "parallel" fields room (branches? room)
      some ⟨name, agent, steps, failFast, parallel⟩) := by
  rw [ofJson?]
  cases room <;> rfl

/-- A stage is read back where there is room for its nesting, and nowhere else. -/
theorem ofJson?_toJson : ∀ (room : Nat) (stage : Stage),
    ofJson? room stage.toJson = if stage.toJson.depth ≤ room then some stage else none
  | 0, stage => by
    rw [toJson_eq_parts]
    simp [ofJson?, depth]
  | room + 1, stage => by
    have name : required? "name" (fieldsOf stage.parts) = some (.string stage.name) := by
      have found : field? "name" (fieldsOf stage.parts) = some (some (.string stage.name)) :=
        field?_parts (by simp [parts])
      rw [required?, found]
      rfl
    have agent : optional? "agent" (fieldsOf stage.parts) (Agent.ofJson? room) =
        if partDepth (stage.agent.map Agent.toJson) ≤ room then some stage.agent else none :=
      optional?_map (field?_parts (by simp [parts]))
        (fun agent => by cases agent <;> simp [Agent.toJson]) (Agent.ofJson?_toJson room)
    have steps : (listField? "steps" (fieldsOf stage.parts) room fun items =>
        items.mapM (Step.ofJson? (room - 1))) =
        if partDepth (listPart (stage.steps.map Step.toJson)) ≤ room then some stage.steps
        else none := by
      refine listField?_listPart (field?_parts (by simp [parts])) ?_
      rintro inner rfl
      exact mapM_write fun step _ => Step.ofJson?_toJson inner step
    have flag : optional? "fail_fast" (fieldsOf stage.parts) flag? = some stage.failFast := by
      have flat : partDepth (stage.failFast.map .bool) ≤ room := by
        cases stage.failFast <;> exact Nat.zero_le room
      have read : optional? "fail_fast" (fieldsOf stage.parts) flag? =
          if partDepth (stage.failFast.map .bool) ≤ room then some stage.failFast else none :=
        optional?_map (field?_parts (by simp [parts])) (by simp) (by simp [flag?, depth])
      rw [read, if_pos flat]
    have branches : listField? "parallel" (fieldsOf stage.parts) room (branches? room) =
        if partDepth (listPart (stage.parallel.map toJson)) ≤ room then some stage.parallel
        else none := by
      refine listField?_listPart (field?_parts (by simp [parts])) ?_
      rintro inner rfl
      exact mapM_write fun branch _ => ofJson?_toJson inner branch
    have whole : (⟨stage.name, stage.agent, stage.steps, stage.failFast, stage.parallel⟩ : Stage) =
        stage := by cases stage; rfl
    simp only [depth_toJson_le]
    rw [toJson_eq_parts, ofJson?_object, name, agent, flag, steps, branches]
    by_cases agent_fits : partDepth (stage.agent.map Agent.toJson) ≤ room <;>
      by_cases steps_fit : partDepth (listPart (stage.steps.map Step.toJson)) ≤ room <;>
      by_cases branches_fit : partDepth (listPart (stage.parallel.map toJson)) ≤ room <;>
      simp [agent_fits, steps_fit, branches_fit, text?, whole]

theorem toJson_plain (stage : Stage) : stage.toJson.isPlain = true := by
  obtain ⟨name, agent, steps, failFast, parallel⟩ := stage
  have agent_plain : (agent.map Agent.toJson).all isPlain = true := by
    cases agent with
    | none => rfl
    | some agent => exact agent.toJson_plain
  have steps_plain := itemsPlain_map steps fun step _ => Step.toJson_plain step
  have branches_plain := itemsPlain_map parallel fun branch _ => toJson_plain branch
  have flag_plain : (failFast.map Json.bool).all isPlain = true := by cases failFast <;> rfl
  rw [toJson_eq_parts]
  simp [parts, isPlain, agent_plain, flag_plain, listPart_plain, steps_plain, branches_plain]

end Stage

namespace Pipeline

/-! ### Pipelines -/

theorem toJson_plain (p : Pipeline) : p.toJson.isPlain = true := by
  have stages_plain := itemsPlain_map p.stages fun stage _ => stage.toJson_plain
  simp [toJson, isPlain, fieldsPlain, p.agent.toJson_plain, Stage.listToJson_eq_map, stages_plain]

/-- A pipeline is read back from its text exactly up to the limit on nesting. -/
theorem ofJsonText?_compact (p : Pipeline) :
    ofJsonText? p.toJson.compact =
      if p.toJson.depth ≤ nestingLimit then some p else none := by
  have stages : (p.stages.map Stage.toJson).mapM (Stage.ofJson? (nestingLimit - 2)) =
      if itemsDepth (p.stages.map Stage.toJson) ≤ nestingLimit - 2 then some p.stages else none :=
    mapM_write fun stage _ => Stage.ofJson?_toJson (nestingLimit - 2) stage
  have nested : p.toJson.depth ≤ nestingLimit ↔
      p.agent.toJson.depth ≤ nestingLimit - 1 ∧
        itemsDepth (p.stages.map Stage.toJson) ≤ nestingLimit - 2 := by
    simp only [toJson, depth, fieldsDepth, Stage.listToJson_eq_map, nestingLimit]
    omega
  have read : ofJson? p.toJson = (do
      let agent ← Agent.ofJson? (nestingLimit - 1) p.agent.toJson
      let stages ← (p.stages.map Stage.toJson).mapM (Stage.ofJson? (nestingLimit - 2))
      some ⟨agent, stages⟩) := by
    simp [toJson, ofJson?, required?, field?, items?, Stage.listToJson_eq_map, -List.mapM_map]
  rw [ofJsonText?, parse?_compact p.toJson_plain, Option.bind_some, read, Agent.ofJson?_toJson,
    stages]
  simp only [nested]
  by_cases agent_fits : p.agent.toJson.depth ≤ nestingLimit - 1 <;>
    by_cases stages_fit : itemsDepth (p.stages.map Stage.toJson) ≤ nestingLimit - 2 <;>
    simp [agent_fits, stages_fit]

/-- What is written as text within the limit on nesting is read back as it was, so writing it again
gives the same text, and it has the same defect or none. -/
theorem json_round_trip (p : Pipeline) (shallow : p.toJson.depth ≤ nestingLimit) :
    ofJsonText? p.toJson.compact = some p ∧
      (ofJsonText? p.toJson.compact).map (fun q => q.toJson.compact) = some p.toJson.compact ∧
      (ofJsonText? p.toJson.compact).map defect? = some p.defect? := by
  have read : ofJsonText? p.toJson.compact = some p := by rw [ofJsonText?_compact, if_pos shallow]
  simp [read]

namespace Nested

/-- A stage with a branch that overrides its agent, and with a value that must be escaped. -/
def source : Pipeline :=
  ⟨.docker "alpine", [
    { name := "Bäume", failFast := some false, steps := [.single "shell" "echo \"\\\n\x07\""],
      parallel := [
        { name := "a", agent := some .none },
        { name := "", steps := [.multi "scm" [⟨"url", ""⟩, ⟨"url", "🌲"⟩]] }] },
    { name := "empty", failFast := some true }]⟩

theorem source_survives_its_text :
    source.toJson.depth ≤ nestingLimit ∧
      ofJsonText? source.toJson.compact = some source ∧
      (ofJsonText? source.toJson.compact).map (fun q => q.toJson.compact) =
        some source.toJson.compact ∧
      (ofJsonText? source.toJson.compact).map defect? = some (some .blankStageName) :=
  have shallow : source.toJson.depth ≤ nestingLimit := by decide
  have survives := json_round_trip source shallow
  ⟨shallow, survives.1, survives.2.1, survives.2.2.trans (by decide)⟩

end Nested

end Pipeline

end PipelineRunner
