import PipelineRunner.Plugin.Builtin
import PipelineRunner.Proofs.ContainerScope
import PipelineRunner.Proofs.OrderedEntries

/-! What a step is told of its surroundings. Each call carries the workflow it belongs to and, in a
container, the container of its stage; both take the place of what the step itself declares. On the
host nothing takes the place of a container that a step declares. -/

namespace PipelineRunner

/-- What a step declares, in its order and with all repetitions. -/
def Step.declared : Step → List (String × String)
  | single _ value => [(textKey, value)]
  | multi _ params => params.map fun p => (p.key, p.value)

/-- What a step is told of its surroundings. -/
def told (workflow : String) (container : Option String) : List (String × String) :=
  (workflowKey, workflow) :: container.toList.map fun id => (containerKey, id)

namespace Step

theorem params_eq (step : Step) : step.params = OrderedMap.ofEntries step.declared := by
  cases step <;> rfl

theorem containerKey_ne : containerKey ≠ workflowKey := by decide

variable (step : Step) (workflow : String) (container : Option String)

/-- A step passes on what it declares, and then what it is told. -/
theorem paramsWithin_eq : step.paramsWithin workflow container =
    OrderedMap.ofEntries (step.declared ++ told workflow container) := by
  have first : step.params.insert workflowKey workflow =
      OrderedMap.ofEntries (step.declared ++ [(workflowKey, workflow)]) := by
    rw [params_eq]
    exact (OrderedMap.ofEntries_concat _ (workflowKey, workflow)).symm
  cases container with
  | none => exact first
  | some id =>
    have both : step.declared ++ told workflow (some id) =
        step.declared ++ [(workflowKey, workflow)] ++ [(containerKey, id)] := by simp [told]
    rw [both, OrderedMap.ofEntries_concat, ← first]
    rfl

theorem get?_workflowKey :
    (step.paramsWithin workflow container).get? workflowKey = some workflow := by
  cases container with
  | none => exact OrderedMap.get?_insert_self _ _ _
  | some id =>
    simp only [paramsWithin]
    rw [OrderedMap.get?_insert_of_ne containerKey_ne.symm, OrderedMap.get?_insert_self]

theorem get?_containerKey : (step.paramsWithin workflow container).get? containerKey =
    container.or (step.declared.reverse.lookup containerKey) := by
  cases container with
  | none =>
    simp only [paramsWithin, Option.none_or]
    rw [OrderedMap.get?_insert_of_ne containerKey_ne, params_eq, OrderedMap.get?_ofEntries]
  | some id => exact OrderedMap.get?_insert_self _ _ _

theorem get?_other {name : String} (workflow_ne : name ≠ workflowKey)
    (container_ne : name ≠ containerKey) : (step.paramsWithin workflow container).get? name =
      step.declared.reverse.lookup name := by
  have first : (step.params.insert workflowKey workflow).get? name =
      step.declared.reverse.lookup name := by
    rw [OrderedMap.get?_insert_of_ne workflow_ne, params_eq, OrderedMap.get?_ofEntries]
  cases container with
  | none => exact first
  | some id => exact (OrderedMap.get?_insert_of_ne container_ne _ _).trans first

theorem names_paramsWithin : OrderedMap.names (step.paramsWithin workflow container) =
    (step.declared.map (·.1) ++ (told workflow container).map (·.1)).eraseDups := by
  rw [paramsWithin_eq, OrderedMap.names_ofEntries, List.map_append]

end Step

/-- What a call of a step of this stage carries, behind these events of the stage. -/
structure Identified (agent : Agent) (workflow : String) (here : List Event) (step : Step)
    (params : StepParams) : Prop where
  workflow : params.get? workflowKey = some workflow
  /-- In a container the call carries the one that has come up for the stage and is still up. -/
  docker : agent.image?.isSome = true → ∃ image id, .started image id ∈ here ∧ .stop id ∉ here ∧
    (∀ image' other, .started image' other ∈ here → other = id) ∧
    params.get? containerKey = some id
  /-- On the host it carries what the step declares as its container, if it does so. -/
  host : agent.image? = none → (∀ image id, .started image id ∉ here) ∧
    params.get? containerKey = step.declared.reverse.lookup containerKey
  /-- Any other parameter has the value that was declared last. -/
  others : ∀ name, name ≠ workflowKey → name ≠ containerKey →
    params.get? name = step.declared.reverse.lookup name
  /-- Each parameter stands where its name was declared first. -/
  order : OrderedMap.names params = (step.declared.map (·.1) ++
    if agent.image?.isSome then [workflowKey, containerKey] else [workflowKey]).eraseDups

variable {stage : Stage} {agent : Agent} {workflow : String} {container : Option String}
  {receipts opened calls events : List Event} {b : Bool} {plugin method : String}
  {params : StepParams} {builtin : Bool}

theorem Calls.step_of_call (called : Calls stage workflow container b calls)
    (mem : Event.called plugin method params builtin ∈ calls) :
    ∃ step ∈ stage.steps, params = step.paramsWithin workflow container := by
  induction called with
  | nothing => cases mem
  | @called calls called step declared plugin' method' builtin' ih =>
    rcases List.mem_append.mp mem with earlier | last
    · exact ih earlier
    · obtain ⟨-, -, rfl, -⟩ := Event.called.inj (List.mem_singleton.mp last)
      exact ⟨step, declared, rfl⟩
  | answered called answer ih => exact ih (by simpa using mem)
  | abandoned called ih => exact ih (by simpa using mem)

/-- A call has been made by a step of the stage, in the container that has come up for it. -/
def Attributed (stage : Stage) (agent : Agent) (workflow : String) (params : StepParams)
    (events : List Event) : Prop :=
  ∃ container, ∃ step ∈ stage.steps, params = step.paramsWithin workflow container ∧
    container.isSome = agent.image?.isSome ∧
    ∀ image id, Event.started image id ∈ events → container = some id

theorem Opened.docker (open_ : Opened agent container opened) :
    container.isSome = agent.image?.isSome := by
  cases open_ with
  | host bare => simp [bare]
  | container docker id => simp [docker]

theorem Opened.uncalled (open_ : Opened agent container opened) :
    Event.called plugin method params builtin ∉ opened := by
  cases open_ <;> simp [opening]

namespace StageRun

theorem Receipts.attributed (received : Receipts receipts) (open_ : Opened agent container opened)
    (called : Calls stage workflow container b calls) (closing : List Event)
    (closes : ∀ event ∈ closing, ∃ id, event = .stop id ∨ event = .stopped id)
    (mem : Event.called plugin method params builtin ∈ receipts ++ (opened ++ calls ++ closing)) :
    Attributed stage agent workflow params (receipts ++ (opened ++ calls ++ closing)) := by
  have uncalled : Event.called plugin method params builtin ∉ closing := by
    intro mem
    obtain ⟨id, h | h⟩ := closes _ mem <;> cases h
  have unstarted (image id : String) : Event.started image id ∉ closing := by
    intro mem
    obtain ⟨id, h | h⟩ := closes _ mem <;> cases h
  have never : Event.called plugin method params builtin ∉ receipts := received.absent (by simp)
  have made : Event.called plugin method params builtin ∈ calls := by
    simpa [uncalled, never, open_.uncalled] using mem
  obtain ⟨step, declared, hp⟩ := called.step_of_call made
  refine ⟨container, step, declared, hp, open_.docker, fun image id started => ?_⟩
  have inside : Event.started image id ∈ opened := by
    simpa [received.unstarted image id, called.unstarted image id, unstarted image id] using started
  exact open_.container_of_started inside

/-- Every call at a stage has been made by one of its steps. -/
theorem Traced.attributed {run : StageRun} (traced : run.Traced stage agent workflow events)
    (mem : Event.called plugin method params builtin ∈ events) :
    Attributed stage agent workflow params events := by
  have absent {receipts : List Event} (received : Receipts receipts) :
      Event.called plugin method params builtin ∉ receipts := received.absent (by simp)
  cases run with
  | fresh =>
    obtain rfl : events = [] := traced
    cases mem
  | joining => exact absurd mem (absent traced)
  | working s a branches own =>
    obtain ⟨receipts, noted, rfl, received, custody⟩ := traced
    cases custody with
    | entering | pulling | pulled | starting => simp [absent received] at mem
    | between open_ called | trying open_ called | leaving open_ called =>
      rw [← List.append_nil (_ ++ _)] at mem ⊢
      rw [List.append_assoc] at mem ⊢
      exact received.attributed open_ called [] (by simp) mem
    | stopping open_ called wait => exact received.attributed open_ called _ (by simp) mem
  | settled output failure =>
    obtain ⟨receipts, noted, rfl, received, closed⟩ := traced
    cases closed with
    | untouched | unpulled | unstarted => simp [absent received] at mem
    | host bare called =>
      rw [← List.append_nil (_ ++ _)] at mem ⊢
      rw [List.append_assoc] at mem ⊢
      exact received.attributed (.host bare) called [] (by simp) mem
    | stopped open_ called => exact received.attributed open_ called _ (by simp) mem
  | received => exact traced.elim

end StageRun

/-- What is attributed to a step and well scoped is identified. -/
theorem Attributed.identified {here : List Event}
    (attributed : Attributed stage agent workflow params events)
    (earlier : ∀ event ∈ here, event ∈ events)
    (inScope : Scoped agent here (.called plugin method params builtin)) :
    ∃ step ∈ stage.steps, Identified agent workflow here step params := by
  obtain ⟨container, step, declared, rfl, docker, same⟩ := attributed
  obtain ⟨up, unstopped, -⟩ := inScope
  refine ⟨step, declared, step.get?_workflowKey _ _, ?_, ?_, ?_, ?_⟩
  · intro hd
    obtain ⟨image, id, started⟩ := up hd
    obtain rfl := same image id (earlier _ started)
    refine ⟨image, id, started, unstopped id, ?_, ?_⟩
    · intro image' other again
      exact (Option.some.inj (same image' other (earlier _ again))).symm
    · simp [step.get?_containerKey]
  · intro bare
    obtain rfl : container = none := by simpa [bare] using docker
    refine ⟨fun image id started => ?_, by simp [step.get?_containerKey]⟩
    cases same image id (earlier _ started)
  · intro name workflow_ne container_ne
    exact step.get?_other _ _ workflow_ne container_ne
  · rw [step.names_paramsWithin, ← docker]
    cases container <;> simp [told]

/-- The containers that a shell step can be executed in. -/
def Reaches (agent : Agent) (here : List Event) (step : Step) (id : String) : Prop :=
  (∃ image, .started image id ∈ here) ∧ .stop id ∉ here ∨
    agent.image? = none ∧ (containerKey, id) ∈ step.declared

theorem Identified.reaches {here : List Event} {step : Step} {id : String}
    (identified : Identified agent workflow here step params)
    (carried : params.get? containerKey = some id) : Reaches agent here step id := by
  cases hi : agent.image? with
  | some image =>
    obtain ⟨image, own, started, unstopped, -, has⟩ := identified.docker (by simp [hi])
    obtain rfl := Option.some.inj (carried.symm.trans has)
    exact .inl ⟨⟨image, started⟩, unstopped⟩
  | none =>
    obtain ⟨-, declared⟩ := identified.host hi
    obtain ⟨later, earlier, split, -⟩ := List.lookup_eq_some_iff.mp (declared.symm.trans carried)
    refine .inr ⟨hi, List.mem_reverse.mp ?_⟩
    simp [split]

namespace ShellPlugin

/-- The shell has nothing executed but in the container that the parameters name. -/
theorem invoke_congr (services : Services) (runtime : ContainerRuntime)
    (same : ∀ id, params.get? containerKey = some id →
      runtime.exec id = services.containers.exec id) :
    (ShellPlugin.plugin (some { services with containers := runtime })).invoke "sh" params =
      (ShellPlugin.plugin (some services)).invoke "sh" params := by
  have run : runShell { services with containers := runtime } params =
      runShell services params := by
    unfold runShell
    cases hc : params.get? containerKey with
    | none => rfl
    | some id => simp only [same id hc]
  simpa [ShellPlugin.plugin] using run

end ShellPlugin

namespace Execution

variable {engine : Engine} {pipeline : Pipeline} {properties : Properties} {state : StateCell}
  {past : List Moment} {e : Execution} {before after : List Record} {r : Record}

/-- Steps see the identifiers of their own run: a call carries the workflow and the container that
has come up for its stage, and else what its step declares. On the host it names a container only
if the step declares one, and the shell can be executed in no other. -/
theorem steps_see_their_own_run (so : Run engine pipeline properties state past e)
    (split : records past = before ++ r :: after)
    (call : r.event = .called plugin method params builtin) :
    ∃ stage around, properties.workflowId = .ok r.place.workflow ∧
      pipeline.stageAt? r.place.path = some (stage, around) ∧
      ∃ step ∈ stage.steps,
        Identified (stage.effectiveAgent around) r.place.workflow (marksAt r.place before) step
          params ∧
        ∀ services runtime,
          (∀ id, Reaches (stage.effectiveAgent around) (marksAt r.place before) step id →
            runtime.exec id = services.containers.exec id) →
          (ShellPlugin.plugin (some { services with containers := runtime })).invoke "sh" params =
            (ShellPlugin.plugin (some services)).invoke "sh" params := by
  have notable : r.event.isAside = false := by simp [call, Event.isAside]
  have mem : r ∈ records past := by simp [split]
  rcases so.located mem notable with
    ⟨state, entered⟩ | ⟨workflow, i, way, stage, around, known, place, there⟩
  · cases call.symm.trans entered
  obtain ⟨c, run, -, traced⟩ := so.traced known there
  rw [← place, split, marksAt_split notable] at traced
  have inScope := traced.wellScoped _ _ _ rfl
  rw [call] at traced inScope
  have attributed := traced.attributed (List.mem_append_right _ List.mem_cons_self)
  obtain ⟨step, declared, identified⟩ :=
    attributed.identified (fun event mem => List.mem_append_left _ mem) inScope
  refine ⟨stage, around, by simpa [place] using known, by simpa [place] using there, step, declared,
    by simpa [place] using identified, ?_⟩
  intro services runtime same
  exact ShellPlugin.invoke_congr services runtime fun id carried =>
    same id (identified.reaches carried)

theorem Duo.right_in_its_container : ∃ before r after params,
    records Duo.played.1 = before ++ r :: after ∧
    r.event = .called "duo" "fail" params false ∧ params.get? workflowKey = some "duo" ∧
    ∃ image id, .started image id ∈ marksAt r.place before ∧ params.get? containerKey = some id := by
  have called : ∃ r params, (records Duo.played.1)[13]? = some r ∧ r.place = ⟨"duo", [0, 1]⟩ ∧
      r.event = .called "duo" "fail" params false := ⟨_, _, rfl, rfl, rfl⟩
  obtain ⟨r, params, at_, place, call⟩ := called
  obtain ⟨before, after, split⟩ := List.append_of_mem (List.mem_of_getElem? at_)
  obtain ⟨stage, around, -, there, step, -, identified, -⟩ :=
    steps_see_their_own_run Duo.run split call
  have docker : ((Duo.pipeline.stageAt? r.place.path).map fun found =>
      (found.1.effectiveAgent found.2).image?.isSome) = some true := by rw [place]; rfl
  rw [there] at docker
  obtain ⟨image, id, started, -, -, carried⟩ := identified.docker (Option.some.inj docker)
  exact ⟨before, r, after, params, split, call, by simpa [place] using identified.workflow, image,
    id, started, carried⟩

end Execution
end PipelineRunner
