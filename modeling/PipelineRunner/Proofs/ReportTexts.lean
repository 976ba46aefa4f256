import PipelineRunner.Proofs.JsonTexts
import PipelineRunner.Workflow.Report

/-! What the text of a report tells of the results in it. Nothing in it names the kind of an output,
and a stage with branches and steps of its own is written as a stage would be whose branches are
called `branches` and `steps`. So it is written like such a stage, and this is all that a text leaves
open: two results have the same text exactly if they are the same when every stage with branches and
steps of its own is taken for one with these two branches. -/

namespace PipelineRunner

namespace Json

theorem compact_injective {v v' : Json} (plain : v.isPlain = true) (plain' : v'.isPlain = true)
    (same : v.compact = v'.compact) : v = v' := by
  have read := parse?_compact plain
  rw [same, parse?_compact plain'] at read
  exact (Option.some.inj read).symm

end Json

namespace StageOutput

/-- The output of a stage with branches and steps of its own, taken for that of a stage with two
branches only. -/
def twoBranches (results : List (String × StageOutput)) (outputs : List String) : StageOutput :=
  branches [("branches", branches results), ("steps", steps outputs)]

mutual

/-- An output in which every stage with branches and steps of its own is taken for one with two
branches. -/
def flatten : StageOutput → StageOutput
  | steps outputs => steps outputs
  | branches results => branches (flattenAll results)
  | combined results outputs => twoBranches (flattenAll results) outputs

def flattenAll : List (String × StageOutput) → List (String × StageOutput)
  | [] => []
  | (name, output) :: rest => (name, output.flatten) :: flattenAll rest

end

mutual

/-- What a reader makes of a value: an array holds the outputs of steps, an object the results of
branches. -/
def ofJson : Json → StageOutput
  | .array items => steps (items.filterMap Json.text?)
  | .object fields => branches (ofFields fields)
  | _ => steps []

def ofFields : List (String × Json) → List (String × StageOutput)
  | [] => []
  | (name, value) :: rest => (name, ofJson value) :: ofFields rest

end

/-- Whether an output has branches and is none of a stage's own steps alone. -/
def isObject : StageOutput → Bool
  | steps _ => false
  | _ => true

/-- The branches of a stage are two that may be taken for the branches and the steps of a stage with
both. -/
def Ambiguous (results : List (String × StageOutput)) : Prop :=
  ∃ output outputs, output.isObject = true ∧
    results = [("branches", output), ("steps", steps outputs)]

mutual

/-- No stage in an output has only two branches that may be taken for its branches and its own
steps. -/
def Clear : StageOutput → Prop
  | steps _ => True
  | branches results => ¬Ambiguous results ∧ AllClear results
  | combined results _ => AllClear results

def AllClear : List (String × StageOutput) → Prop
  | [] => True
  | (_, output) :: rest => output.Clear ∧ AllClear rest

end

variable {output output' : StageOutput} {results results' : List (String × StageOutput)}

/-! ### Values -/

theorem itemsPlain_strings (texts : List String) :
    Json.itemsPlain (texts.map .string) = true := by
  induction texts with
  | nil => rfl
  | cons text rest ih => simpa [Json.itemsPlain, Json.isPlain] using ih

mutual

theorem toJson_plain : ∀ output : StageOutput, output.toJson.isPlain = true
  | steps outputs => itemsPlain_strings outputs
  | branches results => fieldsToJson_plain results
  | combined results outputs => by
    simp [toJson, Json.isPlain, Json.fieldsPlain, fieldsToJson_plain results,
      itemsPlain_strings outputs]

theorem fieldsToJson_plain : ∀ results : List (String × StageOutput),
    Json.fieldsPlain (fieldsToJson results) = true
  | [] => rfl
  | (_, output) :: rest => by
    simp [fieldsToJson, Json.fieldsPlain, toJson_plain output, fieldsToJson_plain rest]

end

mutual

/-- An output is written like the one that it may be taken for. -/
theorem toJson_flatten : ∀ output : StageOutput, output.flatten.toJson = output.toJson
  | steps _ => rfl
  | branches results => by
    rw [flatten, toJson, fieldsToJson_flattenAll results, toJson]
  | combined results outputs => by
    rw [flatten, twoBranches, toJson, fieldsToJson, fieldsToJson, fieldsToJson, toJson, toJson,
      fieldsToJson_flattenAll results, toJson]

theorem fieldsToJson_flattenAll : ∀ results : List (String × StageOutput),
    fieldsToJson (flattenAll results) = fieldsToJson results
  | [] => rfl
  | (name, output) :: rest => by
    rw [flattenAll, fieldsToJson, toJson_flatten output, fieldsToJson_flattenAll rest, fieldsToJson]

end

theorem filterMap_strings (texts : List String) :
    (texts.map Json.string).filterMap Json.text? = texts := by
  induction texts with
  | nil => rfl
  | cons text rest ih => simp only [List.map_cons, List.filterMap_cons, Json.text?, ih]

mutual

/-- A reader takes every output for the flattened one. -/
theorem ofJson_toJson : ∀ output : StageOutput, ofJson output.toJson = output.flatten
  | steps outputs => by
    rw [toJson, ofJson, filterMap_strings, flatten]
  | branches results => by
    rw [toJson, ofJson, ofFields_fieldsToJson results, flatten]
  | combined results outputs => by
    simp only [toJson, ofJson, ofFields, ofFields_fieldsToJson results, filterMap_strings, flatten,
      twoBranches]

theorem ofFields_fieldsToJson : ∀ results : List (String × StageOutput),
    ofFields (fieldsToJson results) = flattenAll results
  | [] => rfl
  | (name, output) :: rest => by
    rw [fieldsToJson, ofFields, ofJson_toJson output, ofFields_fieldsToJson rest, flattenAll]

end

/-- Outputs are written alike exactly if they are the same when they are flattened. -/
theorem toJson_eq_iff : output.toJson = output'.toJson ↔ output.flatten = output'.flatten := by
  constructor
  · intro same
    rw [← ofJson_toJson, same, ofJson_toJson]
  · intro same
    rw [← toJson_flatten output, same, toJson_flatten]

theorem fieldsToJson_eq_iff :
    fieldsToJson results = fieldsToJson results' ↔ flattenAll results = flattenAll results' := by
  constructor
  · intro same
    rw [← ofFields_fieldsToJson, same, ofFields_fieldsToJson]
  · intro same
    rw [← fieldsToJson_flattenAll results, same, fieldsToJson_flattenAll]

/-! ### Outputs that are told apart -/

theorem flatten_eq_steps {outputs : List String} (flat : output.flatten = steps outputs) :
    output = steps outputs := by
  cases output with
  | steps _ => exact flat
  | branches _ => cases flat
  | combined _ _ => cases flat

theorem isObject_flatten (output : StageOutput) : output.flatten.isObject = output.isObject := by
  cases output <;> rfl

/-- Branches that are flattened to the branches and the steps of a stage with both may be taken for
them. -/
theorem ambiguous_of_flattenAll {outputs : List String}
    (flat : flattenAll results = [("branches", branches results'), ("steps", steps outputs)]) :
    Ambiguous results := by
  obtain _ | ⟨⟨name, output⟩, _ | ⟨⟨name', output'⟩, rest⟩⟩ := results
  · simp [flattenAll] at flat
  · simp [flattenAll] at flat
  simp only [flattenAll, List.cons.injEq, Prod.mk.injEq] at flat
  obtain ⟨⟨rfl, object⟩, ⟨rfl, own⟩, nothing⟩ := flat
  have no_more : rest = [] := by
    cases rest with
    | nil => rfl
    | cons _ _ => cases nothing
  refine ⟨output, outputs, ?_, by rw [flatten_eq_steps own, no_more]⟩
  rw [← isObject_flatten, object]
  rfl

/-- And such branches are written like a stage with both. -/
theorem Ambiguous.exists_combined (ambiguous : Ambiguous results) :
    ∃ others outputs, (branches results).toJson = (combined others outputs).toJson := by
  obtain ⟨output, outputs, object, rfl⟩ := ambiguous
  cases output with
  | steps _ => cases object
  | branches inner => exact ⟨inner, outputs, rfl⟩
  | combined inner own =>
    exact ⟨[("branches", branches inner), ("steps", steps own)], outputs, rfl⟩

mutual

theorem flatten_injective : ∀ output output' : StageOutput, output.Clear → output'.Clear →
    output.flatten = output'.flatten → output = output'
  | steps _, _, _, _, same => (flatten_eq_steps same.symm).symm
  | branches _, steps _, _, _, same => by cases same
  | branches results, branches results', clear, clear', same => by
    rw [flattenAll_injective results results' clear.2 clear'.2 (branches.inj same)]
  | branches _, combined _ _, clear, _, same =>
    absurd (ambiguous_of_flattenAll (branches.inj same)) clear.1
  | combined _ _, steps _, _, _, same => by cases same
  | combined _ _, branches _, _, clear', same =>
    absurd (ambiguous_of_flattenAll (branches.inj same).symm) clear'.1
  | combined results outputs, combined results' outputs', clear, clear', same => by
    simp only [flatten, twoBranches, branches.injEq, List.cons.injEq, Prod.mk.injEq, true_and,
      and_true, steps.injEq] at same
    rw [flattenAll_injective results results' clear clear' same.1, same.2]

theorem flattenAll_injective : ∀ results results' : List (String × StageOutput),
    AllClear results → AllClear results' → flattenAll results = flattenAll results' →
    results = results'
  | [], [], _, _, _ => rfl
  | [], _ :: _, _, _, same => by cases same
  | _ :: _, [], _, _, same => by cases same
  | (name, output) :: rest, (name', output') :: rest', clear, clear', same => by
    simp only [flattenAll, List.cons.injEq, Prod.mk.injEq] at same
    rw [same.1.1, flatten_injective output output' clear.1 clear'.1 same.1.2,
      flattenAll_injective rest rest' clear.2 clear'.2 same.2]

end

/-! ### Texts -/

theorem compact_eq_iff :
    output.toJson.compact = output'.toJson.compact ↔ output.flatten = output'.flatten := by
  rw [← toJson_eq_iff]
  exact ⟨Json.compact_injective (toJson_plain _) (toJson_plain _), congrArg _⟩

end StageOutput

theorem StageResults.toJson_plain (results : StageResults) : results.toJson.isPlain = true :=
  StageOutput.fieldsToJson_plain results

theorem StageResults.toJson_eq_iff {results results' : StageResults} :
    results.toJson = results'.toJson ↔
      StageOutput.flattenAll results = StageOutput.flattenAll results' := by
  rw [StageResults.toJson, StageResults.toJson, Json.object.injEq, StageOutput.fieldsToJson_eq_iff]

namespace Report

theorem toJson_plain (report : Report) : report.toJson.isPlain = true := by
  rcases report with ⟨id, stages, _ | failure⟩ <;>
    simp [toJson, Json.isPlain, Json.fieldsPlain, StageResults.toJson_plain]

/-- Two reports are written alike exactly if they carry the same id and failure and results that
are written alike. -/
theorem toJson_eq_iff {report report' : Report} :
    report.toJson = report'.toJson ↔ report.workflowId = report'.workflowId ∧
      report.stages.toJson = report'.stages.toJson ∧ report.failure = report'.failure := by
  rcases report with ⟨id, stages, _ | ⟨stage, error⟩⟩ <;>
    rcases report' with ⟨id', stages', _ | ⟨stage', error'⟩⟩ <;> simp [toJson]

/-- What the text of a report tells. Two results are written alike exactly if they are the same once
every stage with branches and steps of its own is taken for a stage with two branches, `branches`
and `steps`. So results are told apart by their texts unless a stage in one of them has only these
two branches, the first with branches and the second with own steps alone; and such a stage can
indeed not be told from one with branches and own steps. A report tells as much of its stages, and
all of its id and its failure. -/
theorem texts_tell_results :
    (∀ results results' : StageResults, results.toJson.compact = results'.toJson.compact ↔
      StageOutput.flattenAll results = StageOutput.flattenAll results') ∧
    (∀ results results' : StageResults, StageOutput.AllClear results →
      StageOutput.AllClear results' → results.toJson.compact = results'.toJson.compact →
      results = results') ∧
    (∀ results : StageResults,
      (∃ others outputs, (StageOutput.branches results).toJson.compact =
        (StageOutput.combined others outputs).toJson.compact) ↔ StageOutput.Ambiguous results) ∧
    ∀ report report' : Report, report.toJson.compact = report'.toJson.compact ↔
      report.workflowId = report'.workflowId ∧
      StageOutput.flattenAll report.stages = StageOutput.flattenAll report'.stages ∧
      report.failure = report'.failure := by
  have results_texts : ∀ results results' : StageResults,
      results.toJson.compact = results'.toJson.compact ↔
        StageOutput.flattenAll results = StageOutput.flattenAll results' := fun results results' => by
    rw [← StageResults.toJson_eq_iff]
    exact ⟨Json.compact_injective results.toJson_plain results'.toJson_plain, congrArg _⟩
  refine ⟨results_texts, fun results results' clear clear' same => ?_, fun results => ?_,
    fun report report' => ?_⟩
  · exact StageOutput.flattenAll_injective results results' clear clear'
      ((results_texts results results').mp same)
  · constructor
    · rintro ⟨others, outputs, same⟩
      exact StageOutput.ambiguous_of_flattenAll
        (StageOutput.branches.inj (StageOutput.compact_eq_iff.mp same))
    · intro ambiguous
      obtain ⟨others, outputs, same⟩ := ambiguous.exists_combined
      exact ⟨others, outputs, congrArg _ same⟩
  · rw [← StageResults.toJson_eq_iff, ← toJson_eq_iff]
    exact ⟨Json.compact_injective report.toJson_plain report'.toJson_plain, congrArg _⟩

/-- A stage with the branches `branches` and `steps` is written like one with the first one's
branches and the second one's steps, whoever reads the report. -/
theorem two_branches_hide :
    let hello := StageOutput.steps ["hello"]
    let done := StageOutput.steps ["done"]
    let inner : StageResults := OrderedMap.insert "A" hello []
    let outer : StageResults :=
      OrderedMap.insert "steps" done (OrderedMap.insert "branches" (.branches inner) [])
    let plain : StageResults := OrderedMap.insert "S" (.branches outer) []
    let both : StageResults := OrderedMap.insert "S" (.combined inner ["done"]) []
    plain.toJson.compact = both.toJson.compact ∧
      (Report.mk "w" plain none).toJson.compact = (Report.mk "w" both none).toJson.compact ∧
      plain ≠ both := by
  refine ⟨rfl, rfl, ?_⟩
  simp [OrderedMap.insert]

end Report
end PipelineRunner
