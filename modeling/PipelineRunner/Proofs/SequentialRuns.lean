import PipelineRunner.Proofs.AttemptTimes
import PipelineRunner.Proofs.RegistryRuns
import PipelineRunner.Proofs.OrderedEntries

/-! The sequential reference: a pipeline whose stages, branches and steps run one after the other in
the order in which they are declared. Where calls can be relied on, what it yields is told by their
outputs alone. -/

namespace PipelineRunner

variable {α : Type}

/-! ### Work that can be relied on -/

namespace Work

/-- Whatever the work is told on its way, it comes to its end, and the milliseconds that it has
waited and the value that it yields are as they should. -/
def Ends : Work α → (Nat → α → Prop) → Prop
  | done a, good => good 0 a
  | sleep ms rest, good => (rest ()).Ends fun t a => good (min ms longestWait + t) a
  | log _ _ _ rest, good => rest.Ends good
  | remark _ rest, good => rest.Ends good
  | count _ rest, good => ∀ n, (rest n).Ends good
  | readFiles rest, good => ∀ files, (rest files).Ends good
  | writeFiles _ rest, good => rest.Ends good
  | crash _, _ => False

variable {work : Work α} {good good' : Nat → α → Prop}

theorem Ends.mono (ends : work.Ends good) (weaker : ∀ t a, good t a → good' t a) :
    work.Ends good' := by
  induction work generalizing good good' with
  | done a => exact weaker 0 a ends
  | sleep ms rest ih => exact ih () ends fun t a => weaker _ a
  | log workflow level message rest ih => exact ih ends weaker
  | remark what rest ih => exact ih ends weaker
  | count counter rest ih => exact fun n => ih n (ends n) weaker
  | readFiles rest ih => exact fun files => ih files (ends files) weaker
  | writeFiles files rest ih => exact ih ends weaker
  | crash reason => exact ends

/-- There is a way on which the work comes to its end. -/
theorem Ends.exists_good (ends : work.Ends good) : ∃ t a, good t a := by
  induction work generalizing good with
  | done a => exact ⟨0, a, ends⟩
  | sleep ms rest ih =>
    obtain ⟨t, a, fine⟩ := ih () ends
    exact ⟨_, a, fine⟩
  | log workflow level message rest ih => exact ih ends
  | remark what rest ih => exact ih ends
  | count counter rest ih => exact ih 0 (ends 0)
  | readFiles rest ih => exact ih (.bare []) (ends _)
  | writeFiles files rest ih => exact ih ends
  | crash reason => exact ends.elim

end Work

/-- `w'` comes from `w` without a change of the plugins, so many milliseconds later. -/
def World.Passes (w : World) (elapsed : Nat) (w' : World) : Prop :=
  w'.registry = w.registry ∧ w'.clock = w.clock + elapsed

namespace World

variable {w w' w'' : World} {work : Work α} {good : Nat → α → Prop} {t u : Nat}

theorem Passes.still (registry : w'.registry = w.registry) (clock : w'.clock = w.clock) :
    w.Passes 0 w' := ⟨registry, clock⟩

theorem Passes.trans (h : w.Passes t w') (h' : w'.Passes u w'') : w.Passes (t + u) w'' :=
  ⟨h'.1.trans h.1, by rw [h'.2, h.2, Nat.add_assoc]⟩

/-- How far work has come that can be relied on and has been performed since `now`. -/
def Reliable (now : Nat) (good : Nat → α → Prop) : Progress α → Prop
  | .finished a => good 0 a
  | .waits wait => ∃ t, wait.timer.due = now + t ∧ wait.rest.Ends fun u a => good (t + u) a
  | .crashed _ => False

theorem passes_perform (place : Place) (work : Work α) (w : World) :
    w.Passes 0 (perform place work w).1 := by
  induction work generalizing w with
  | done a => exact .still rfl rfl
  | sleep ms rest ih =>
    cases ms with
    | zero => exact ih () w
    | succ ms => exact .still rfl rfl
  | log workflow level message rest ih => exact ih (w.log place workflow level message)
  | remark what rest ih => exact ih (w.note place (.remarked what))
  | count counter rest ih => exact ih _ (w.countUp counter).1
  | readFiles rest ih => exact ih _ w
  | writeFiles files rest ih => exact ih { w with files }
  | crash reason => exact .still rfl rfl

theorem perform_reliable (place : Place) (ends : work.Ends good) (w : World) :
    Reliable w.clock good (perform place work w).2 := by
  induction work generalizing good w with
  | done a => exact ends
  | sleep ms rest ih =>
    cases ms with
    | zero =>
      have at_once : (rest ()).Ends fun t a => good (min 0 longestWait + t) a := ends
      exact ih () (at_once.mono fun t a h => by simpa using h) w
    | succ ms => exact ⟨min (ms + 1) longestWait, rfl, ends⟩
  | log workflow level message rest ih => exact ih ends (w.log place workflow level message)
  | remark what rest ih => exact ih ends (w.note place (.remarked what))
  | count counter rest ih => exact ih _ (ends _) (w.countUp counter).1
  | readFiles rest ih => exact ih _ (ends _) w
  | writeFiles files rest ih => exact ih ends { w with files }
  | crash reason => exact ends.elim

/-- Work that can be relied on is completed with a good value. -/
theorem complete_reliable (place : Place) (ends : work.Ends good) (w : World) :
    ∃ w' t a, complete place work w = (w', .ok a) ∧ w.Passes t w' ∧ good t a := by
  unfold complete
  induction work generalizing good w with
  | done a => exact ⟨w, 0, a, rfl, .still rfl rfl, ends⟩
  | sleep ms rest ih =>
    have slept : w.Passes (min ms longestWait) (alone.pass (min ms longestWait) w) := ⟨rfl, rfl⟩
    obtain ⟨w', t, a, completed, passes, fine⟩ := ih () ends _
    exact ⟨w', _, a, completed, slept.trans passes, fine⟩
  | log workflow level message rest ih => exact ih ends (w.log place workflow level message)
  | remark what rest ih => exact ih ends (w.note place (.remarked what))
  | count counter rest ih => exact ih _ (ends _) (w.countUp counter).1
  | readFiles rest ih => exact ih _ (ends _) w
  | writeFiles files rest ih => exact ih ends { w with files }
  | crash reason => exact ends.elim

end World

/-! ### The outputs of steps, and what they amount to -/

/-- What a call with some command and parameters yields. -/
abbrev Answers := String → StepParams → Option String

namespace Stage

/-- The outputs of some steps. -/
def texts (answers : Answers) (steps : List Step) : List String :=
  steps.map fun step => (answers step.command step.params).getD ""

mutual

/-- What a stage yields when its steps have these outputs. -/
def outputFrom (answers : Answers) : Stage → StageOutput
  | ⟨_, _, steps, _, parallel⟩ =>
    .ofParts (if parallel.isEmpty then none else some (.ofEntries (entriesFrom answers parallel)))
      (if steps.isEmpty then none else some (texts answers steps))

/-- What some stages yield, under their names. -/
def entriesFrom (answers : Answers) : List Stage → List (String × StageOutput)
  | [] => []
  | stage :: rest => (stage.name, stage.outputFrom answers) :: entriesFrom answers rest

end

theorem entriesFrom_eq (answers : Answers) (stages : List Stage) :
    entriesFrom answers stages =
      stages.map fun stage => (stage.name, stage.outputFrom answers) := by
  induction stages with
  | nil => rfl
  | cons stage rest ih => rw [entriesFrom, ih, List.map_cons]

/-- What the branches of a stage yield, if it has any. -/
def branchesFrom (answers : Answers) (stage : Stage) : Option StageResults :=
  if stage.parallel.isEmpty then none else some (.ofEntries (entriesFrom answers stage.parallel))

theorem outputFrom_eq (answers : Answers) (stage : Stage) :
    stage.outputFrom answers = .ofParts (stage.branchesFrom answers)
      (if stage.steps.isEmpty then none else some (texts answers stage.steps)) := by
  cases stage
  rfl

/-- The branches stand in the order of their declaration; of several with the same name the last
one counts, in the place of the first. -/
theorem branches_outputFrom (answers : Answers) {stage : Stage} (branches : stage.parallel ≠ []) :
    ∃ results, (stage.outputFrom answers).branches? = some results ∧
      OrderedMap.names results = (stage.parallel.map (·.name)).eraseDups ∧
      ∀ name, OrderedMap.get? name results =
        (stage.parallel.map fun b => (b.name, b.outputFrom answers)).reverse.lookup name := by
  refine ⟨.ofEntries (entriesFrom answers stage.parallel), ?_, ?_, fun name => ?_⟩
  · rw [outputFrom_eq, branchesFrom, if_neg (by simpa using branches)]
    split <;> rfl
  · rw [OrderedMap.names_ofEntries, entriesFrom_eq, List.map_map]
    rfl
  · rw [OrderedMap.get?_ofEntries, entriesFrom_eq]

end Stage

/-- The report on a pipeline whose steps have these outputs. -/
def Pipeline.reportFrom (answers : Answers) (workflow : String) (pipeline : Pipeline) : Report :=
  ⟨workflow, .ofEntries (Stage.entriesFrom answers pipeline.stages), none⟩

/-! ### The reference -/

namespace InOrder

/-- Completes a piece of work that has to have an answer. -/
def await (work : Work (Except Cause α)) (w : World) : Option (World × α) :=
  match World.complete {} work w with
  | (w, .ok (.ok a)) => some (w, a)
  | _ => none

/-- Starts the container of an agent, if it has one. -/
def acquire (runtime : ContainerRuntime) (agent : Agent) (w : World) :
    Option (World × Option String) :=
  match agent.image? with
  | none => some (w, none)
  | some image => do
    let (w, _) ← await (runtime.pull (Image.normalize image)) w
    let (w, id) ← await (runtime.start (Image.normalize image)) w
    some (w, some id)

/-- Stops a container; whether it fails does not matter. -/
def release (runtime : ContainerRuntime) (container : Option String) (w : World) : World :=
  match container with
  | none => w
  | some id => (World.complete {} (runtime.stop id) w).1

/-- Makes a step and tells its output. -/
def runStep (workflow : String) (container : Option String) (step : Step) (w : World) :
    Option (World × String) := do
  let binding ← w.registry.resolve step.command
  match w.invoke binding.plugin binding.method (step.paramsWithin workflow container) with
  | (w, .ok (.ok output)) => some (w, output.getD "")
  | _ => none

/-- Makes steps one after the other. -/
def runSteps (workflow : String) (container : Option String) :
    List Step → World → Option (World × List String)
  | [], w => some (w, [])
  | step :: rest, w => do
    let (w, text) ← runStep workflow container step w
    let (w, texts) ← runSteps workflow container rest w
    some (w, text :: texts)

/-- Makes the steps of a stage, in its container if it has one. -/
def runOwn (runtime : ContainerRuntime) (workflow : String) (agent : Agent) (steps : List Step)
    (w : World) : Option (World × List String) := do
  let (w, container) ← acquire runtime agent w
  let (w, texts) ← runSteps workflow container steps w
  some (release runtime container w, texts)

/-- Runs a part of a stage unless there is nothing to run. -/
def runUnless {β : Type} (empty : Bool) (run : World → Option (World × β)) (w : World) :
    Option (World × Option β) :=
  if empty then some (w, none) else (run w).map fun (w, b) => (w, some b)

mutual

/-- Runs a stage: its branches one after the other, and then its own steps. -/
def runStage (runtime : ContainerRuntime) (workflow : String) (inherited : Agent) :
    Stage → World → Option (World × StageOutput)
  | ⟨_, agent, steps, _, parallel⟩, w => do
    let around := agent.getD inherited
    let (w, branches) ← runUnless parallel.isEmpty (runStages runtime workflow around parallel []) w
    let (w, own) ← runUnless steps.isEmpty (runOwn runtime workflow around steps) w
    some (w, .ofParts branches own)

/-- Runs stages one after the other, and puts each output under the name of its stage. -/
def runStages (runtime : ContainerRuntime) (workflow : String) (inherited : Agent) :
    List Stage → StageResults → World → Option (World × StageResults)
  | [], results, w => some (w, results)
  | stage :: rest, results, w => do
    let (w, output) ← runStage runtime workflow inherited stage w
    runStages runtime workflow inherited rest (OrderedMap.insert stage.name output results) w

end

end InOrder

/-- Runs a whole pipeline in order. -/
def Pipeline.runInOrder (runtime : ContainerRuntime) (workflow : String) (pipeline : Pipeline)
    (w : World) : Option (World × Report) :=
  (InOrder.runStages runtime workflow pipeline.agent pipeline.stages [] w).map fun (w, results) =>
    (w, ⟨workflow, results, none⟩)

/-! ### Plugins and containers that can be relied on -/

/-- What a workflow is run with, and what its calls are to yield. -/
structure Setting where
  engine : Engine
  registry : Registry
  workflow : String
  answers : Answers

namespace Setting

/-- The command of a step is provided, and its calls yield what they should within the time of an
attempt, whatever else goes on and whichever container they are given. -/
def Provides (s : Setting) (step : Step) : Prop :=
  ∃ binding registration, s.registry.resolve step.command = some binding ∧
    s.registry.reach binding.plugin binding.method = .ok registration ∧
    ∀ container,
      (registration.plugin.invoke binding.method (step.paramsWithin s.workflow container)).Ends
        fun t answer => t ≤ s.engine.policy.attemptLimit ∧
          answer = .ok (s.answers step.command step.params)

/-- The container of an agent, if it has one, comes to be. -/
def Hosts (s : Setting) (agent : Agent) : Prop :=
  ∀ image, agent.image? = some image →
    (s.engine.runtime.pull (Image.normalize image)).Ends (fun _ answer => answer = .ok ()) ∧
    (s.engine.runtime.start (Image.normalize image)).Ends fun _ answer => ∃ id, answer = .ok id

/-- No stop of a container breaks down, though it may fail. -/
def Stops (s : Setting) : Prop := ∀ id, (s.engine.runtime.stop id).Ends fun _ _ => True

/-- A stage with all that is nested in it finds what it needs. -/
def Serves (s : Setting) (stage : Stage) (inherited : Agent) : Prop :=
  ∀ path deep around, stage.at? inherited path = some (deep, around) →
    (∀ step ∈ deep.steps, s.Provides step) ∧
      (deep.steps ≠ [] → s.Hosts (deep.effectiveAgent around))

variable {s : Setting} {stage : Stage} {inherited : Agent}

theorem Serves.provides (serves : s.Serves stage inherited) :
    ∀ step ∈ stage.steps, s.Provides step :=
  (serves [] stage inherited rfl).1

theorem Serves.hosts (serves : s.Serves stage inherited) (steps : stage.steps ≠ []) :
    s.Hosts (stage.effectiveAgent inherited) :=
  (serves [] stage inherited rfl).2 steps

theorem Serves.branch (serves : s.Serves stage inherited) {i : Nat} {branch : Stage}
    (there : stage.parallel[i]? = some branch) :
    s.Serves branch (stage.effectiveAgent inherited) := fun path deep around found =>
  serves (i :: path) deep around (by simpa [Stage.at?, there] using found)

/-- A stage finds what it needs if its own steps and its branches do. -/
theorem Serves.intro (provides : ∀ step ∈ stage.steps, s.Provides step)
    (hosts : stage.steps ≠ [] → s.Hosts (stage.effectiveAgent inherited))
    (branches : ∀ branch ∈ stage.parallel, s.Serves branch (stage.effectiveAgent inherited)) :
    s.Serves stage inherited
  | [], deep, around, found => by
    obtain ⟨rfl, rfl⟩ : stage = deep ∧ inherited = around := by simpa [Stage.at?] using found
    exact ⟨provides, hosts⟩
  | i :: path, deep, around, found => by
    cases there : stage.parallel[i]? with
    | none => simp [Stage.at?, there] at found
    | some branch =>
      exact branches branch (List.mem_of_getElem? there) path deep around
        (by simpa [Stage.at?, there] using found)

end Setting

/-! ### What the reference yields -/

namespace InOrder

variable {s : Setting} {w : World}

theorem await_reliable {work : Work (Except Cause α)}
    (ends : work.Ends fun _ answer => ∃ a, answer = .ok a) (w : World) :
    ∃ w' a, await work w = some (w', a) ∧ w'.registry = w.registry := by
  obtain ⟨w', t, -, completed, passes, a, rfl⟩ := World.complete_reliable {} ends w
  exact ⟨w', a, by simp [await, completed], passes.1⟩

theorem acquire_reliable {agent : Agent} (hosts : s.Hosts agent) (w : World) :
    ∃ w' container, acquire s.engine.runtime agent w = some (w', container) ∧
      w'.registry = w.registry := by
  unfold acquire
  cases docker : agent.image? with
  | none => exact ⟨w, none, rfl, rfl⟩
  | some image =>
    obtain ⟨pulls, starts⟩ := hosts image docker
    obtain ⟨w₁, a, pulled, same₁⟩ := await_reliable (pulls.mono fun _ _ h => ⟨(), h⟩) w
    obtain ⟨w₂, id, started, same₂⟩ := await_reliable starts w₁
    exact ⟨w₂, some id, by simp [pulled, started], same₂.trans same₁⟩

theorem registry_release (runtime : ContainerRuntime) (container : Option String) (w : World) :
    (release runtime container w).registry = w.registry := by
  cases container with
  | none => rfl
  | some id => exact World.registry_complete _ {} (runtime.stop id)

theorem runStep_reliable {step : Step} (provides : s.Provides step) (container : Option String)
    (same : w.registry = s.registry) :
    ∃ w', runStep s.workflow container step w =
        some (w', (s.answers step.command step.params).getD "") ∧ w'.registry = s.registry := by
  obtain ⟨binding, registration, resolved, reached, ends⟩ := provides
  obtain ⟨w', t, -, completed, passes, -, rfl⟩ :=
    World.complete_reliable {} (ends container) (w.note {}
      (.called binding.plugin binding.method (step.paramsWithin s.workflow container)
        registration.plugin.builtin))
  refine ⟨w', ?_, passes.1.trans same⟩
  simp [runStep, World.invoke, same, resolved, reached, completed]

theorem runSteps_reliable {steps : List Step} (provides : ∀ step ∈ steps, s.Provides step)
    (container : Option String) (same : w.registry = s.registry) :
    ∃ w', runSteps s.workflow container steps w = some (w', Stage.texts s.answers steps) ∧
      w'.registry = s.registry := by
  induction steps generalizing w with
  | nil => exact ⟨w, rfl, same⟩
  | cons step rest ih =>
    obtain ⟨first, others⟩ := List.forall_mem_cons.mp provides
    obtain ⟨w₁, ran, same₁⟩ := runStep_reliable first container same
    obtain ⟨w₂, rans, same₂⟩ := ih others same₁
    exact ⟨w₂, by simp [runSteps, ran, rans, Stage.texts], same₂⟩

theorem runOwn_reliable {agent : Agent} {steps : List Step} (hosts : s.Hosts agent)
    (provides : ∀ step ∈ steps, s.Provides step) (same : w.registry = s.registry) :
    ∃ w', runOwn s.engine.runtime s.workflow agent steps w =
        some (w', Stage.texts s.answers steps) ∧ w'.registry = s.registry := by
  obtain ⟨w₁, container, acquired, same₁⟩ := acquire_reliable hosts w
  obtain ⟨w₂, ran, same₂⟩ := runSteps_reliable provides container (same₁.trans same)
  exact ⟨release s.engine.runtime container w₂, by simp [runOwn, acquired, ran],
    by rw [registry_release, same₂]⟩

/-- Stages that find what they need are run one by one. -/
theorem runStages_reliable {inherited : Agent} {stages : List Stage}
    (each : ∀ stage ∈ stages, ∀ w : World, w.registry = s.registry →
      ∃ w', runStage s.engine.runtime s.workflow inherited stage w =
        some (w', stage.outputFrom s.answers) ∧ w'.registry = s.registry)
    (results : StageResults) (same : w.registry = s.registry) :
    ∃ w', runStages s.engine.runtime s.workflow inherited stages results w =
        some (w', (Stage.entriesFrom s.answers stages).foldl
          (fun results (name, output) => OrderedMap.insert name output results) results) ∧
      w'.registry = s.registry := by
  induction stages generalizing results w with
  | nil => exact ⟨w, by simp [runStages, Stage.entriesFrom], same⟩
  | cons stage rest ih =>
    obtain ⟨first, others⟩ := List.forall_mem_cons.mp each
    obtain ⟨w₁, ran, same₁⟩ := first w same
    obtain ⟨w₂, rans, same₂⟩ :=
      ih others (OrderedMap.insert stage.name (stage.outputFrom s.answers) results) same₁
    exact ⟨w₂, by simp [runStages, ran, rans, Stage.entriesFrom], same₂⟩

theorem runStage_eq (runtime : ContainerRuntime) (workflow : String) (inherited : Agent)
    (stage : Stage) (w : World) :
    runStage runtime workflow inherited stage w = (do
      let around := stage.effectiveAgent inherited
      let (w, branches) ←
        runUnless stage.parallel.isEmpty (runStages runtime workflow around stage.parallel []) w
      let (w, own) ← runUnless stage.steps.isEmpty (runOwn runtime workflow around stage.steps) w
      some (w, .ofParts branches own)) := by
  cases stage
  rfl

theorem runUnless_reliable {β : Type} (empty : Bool) {run : World → Option (World × β)} {b : β}
    (runs : empty = false → ∃ w', run w = some (w', b) ∧ w'.registry = s.registry)
    (same : w.registry = s.registry) :
    ∃ w', runUnless empty run w = some (w', if empty then none else some b) ∧
      w'.registry = s.registry := by
  cases empty with
  | true => exact ⟨w, rfl, same⟩
  | false =>
    obtain ⟨w', ran, same'⟩ := runs rfl
    exact ⟨w', by simp [runUnless, ran], same'⟩

/-- A stage that finds what it needs yields what its steps yield, branches first. -/
theorem runStage_reliable {stage : Stage} {inherited : Agent} (serves : s.Serves stage inherited)
    {w : World} (same : w.registry = s.registry) :
    ∃ w', runStage s.engine.runtime s.workflow inherited stage w =
        some (w', stage.outputFrom s.answers) ∧ w'.registry = s.registry := by
  have branches (branch : Stage) (mem : branch ∈ stage.parallel) (w : World)
      (same : w.registry = s.registry) :
      ∃ w', runStage s.engine.runtime s.workflow (stage.effectiveAgent inherited) branch w =
        some (w', branch.outputFrom s.answers) ∧ w'.registry = s.registry := by
    obtain ⟨i, there⟩ := List.getElem?_of_mem mem
    have smaller := Stage.sizeOf_branch_lt there
    exact runStage_reliable (serves.branch there) same
  obtain ⟨w₁, branched, same₁⟩ := runUnless_reliable stage.parallel.isEmpty
    (fun _ => runStages_reliable branches [] same) same
  obtain ⟨w₂, worked, same₂⟩ := runUnless_reliable stage.steps.isEmpty
    (fun some => runOwn_reliable (serves.hosts (by simpa using some)) serves.provides same₁) same₁
  refine ⟨w₂, ?_, same₂⟩
  rw [runStage_eq, Stage.outputFrom_eq]
  simp only [branched, worked, Option.bind_eq_bind, Option.bind_some]
  rfl
termination_by sizeOf stage

/-- A pipeline whose stages find what they need is run in order to its end. -/
theorem runInOrder_reliable {pipeline : Pipeline}
    (serves : ∀ stage ∈ pipeline.stages, s.Serves stage pipeline.agent)
    (same : w.registry = s.registry) :
    ∃ w', pipeline.runInOrder s.engine.runtime s.workflow w =
      some (w', pipeline.reportFrom s.answers s.workflow) := by
  obtain ⟨w', ran, -⟩ := runStages_reliable
    (fun stage mem w same => runStage_reliable (serves stage mem) same) [] same
  exact ⟨w', by rw [Pipeline.runInOrder, ran]; rfl⟩

end InOrder

end PipelineRunner
