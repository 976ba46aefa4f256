import PipelineRunner.Proofs.SequentialRuns

/-! Runs in which nothing fails. Where calls and containers can be relied on, every turn, wherever
and whenever it is had, leaves each stage on the way to the output that the reference gives to it:
no branch fails, so none is cancelled, and no call comes to the end of its time. -/

namespace PipelineRunner

variable {s : Setting} {c : Context} {w w₀ w' : World} {broken : Prop}

theorem World.passes_begun {α : Type} (event : Event) (work : Work α) :
    w.Passes 0 (World.perform c.place work (w.note c.place event)).1 :=
  World.passes_perform c.place work (w.note c.place event)

/-- Nothing around a stage keeps it from going on. -/
structure Context.Calm (s : Setting) (c : Context) : Prop where
  engine : c.engine = s.engine
  workflow : c.place.workflow = s.workflow
  free : c.cancelled = false

/-- A turn takes no time, leaves the plugins alone and goes as it should. -/
def Turn.Fine {σ α : Type} (w : World) (broken : Prop) (moves : σ → Prop) (ends : α → Prop) :
    Turn σ α → Prop
  | .blocked => True
  | .moved w' next => w.Passes 0 w' ∧ moves next
  | .ended w' a => w.Passes 0 w' ∧ ends a
  | .crashed .. => broken

theorem World.due_deadline (w : World) (policy : RetryPolicy) :
    (w.setTimer policy.attemptTimeout.millisecondsUp).2.due = w.clock + policy.attemptLimit := rfl

namespace Trial

/-- A step is on the way to its output; a call that waits is not overdue. -/
def OnTrack (s : Setting) (now : Nat) (step : Step) (t : Trial) : Prop :=
  match t.phase with
  | .ready _ => ∃ registration,
      s.registry.reach t.binding.plugin t.binding.method = .ok registration ∧
      (registration.plugin.invoke t.binding.method t.params).Ends fun elapsed answer =>
        elapsed ≤ s.engine.policy.attemptLimit ∧ answer = .ok (s.answers step.command step.params)
  | .calling _ deadline call => now ≤ call.timer.due ∧
      call.rest.Ends fun elapsed answer => call.timer.due + elapsed ≤ deadline.due ∧
        answer = .ok (s.answers step.command step.params)
  | .pausing .. => False

variable {t : Trial} {step : Step}

/-- The deadline of a call: one that waits for the first time gets it now. -/
def Till (s : Setting) (now : Nat) : Option Timer → Nat → Prop
  | some deadline, till => deadline.due = till
  | none, till => now + s.engine.policy.attemptLimit = till

/-- A call that is performed as far as it goes answers as it should, or waits in good time. -/
theorem follow_fine {progress : World × Progress (Except Cause (Option String))} {till : Nat}
    {deadline : Option Timer} (calm : c.Calm s) (attempt : Nat)
    (known : Till s w.clock deadline till) (passes : w.Passes 0 progress.1)
    (reliable : World.Reliable w.clock (fun elapsed answer => w.clock + elapsed ≤ till ∧
      answer = .ok (s.answers step.command step.params)) progress.2) :
    (t.follow c attempt deadline progress).Fine w broken (OnTrack s w.clock step)
      (· = .ok (s.answers step.command step.params)) := by
  obtain ⟨w₁, progress⟩ := progress
  cases progress with
  | crashed reason => exact reliable.elim
  | finished answer =>
    obtain ⟨-, rfl⟩ := reliable
    exact ⟨passes, rfl⟩
  | waits call =>
    obtain ⟨waited, due, ends⟩ := reliable
    have later : w.clock ≤ call.timer.due := by omega
    have onTime {timer : Timer} (same : timer.due = till) :
        OnTrack s w.clock step { t with phase := .calling attempt timer call } := by
      refine ⟨later, ends.mono fun elapsed answer good => ⟨?_, good.2⟩⟩
      have within : w.clock + (waited + elapsed) ≤ till := good.1
      omega
    cases deadline with
    | some timer => exact ⟨passes, onTime known⟩
    | none =>
      refine ⟨passes.trans (.still rfl rfl), onTime ?_⟩
      have clock : w₁.clock = w.clock := passes.2
      refine (World.due_deadline w₁ c.engine.policy).trans ?_
      rw [calm.engine, clock]
      exact known

theorem move_fine (onTrack : t.OnTrack s w.clock step) (calm : c.Calm s)
    (same : w.registry = s.registry) :
    (t.move c w).Fine w broken (OnTrack s w.clock step)
      (· = .ok (s.answers step.command step.params)) := by
  unfold OnTrack at onTrack
  unfold move
  cases phase : t.phase with
  | ready made =>
    simp only [phase] at onTrack
    obtain ⟨registration, reached, ends⟩ := onTrack
    simp only [calm.free, begin, same, reached, Bool.false_eq_true, if_false]
    have prompt : (registration.plugin.invoke t.binding.method t.params).Ends fun elapsed answer =>
        w.clock + elapsed ≤ w.clock + s.engine.policy.attemptLimit ∧
          answer = .ok (s.answers step.command step.params) :=
      ends.mono fun _ _ good => good.imp_left (Nat.add_le_add_left · _)
    exact follow_fine calm _ rfl (World.passes_begun _ _) (World.perform_reliable c.place prompt _)
  | calling attempt deadline call =>
    simp only [phase] at onTrack
    obtain ⟨later, ends⟩ := onTrack
    dsimp only
    split
    next due =>
      -- It is neither too early for the call nor too late.
      have now : call.timer.due = w.clock := by
        simp only [World.isDue, decide_eq_true_eq] at due
        omega
      rw [now] at ends
      exact follow_fine calm _ rfl (World.passes_perform _ _ _)
        (World.perform_reliable c.place ends w)
    next undue =>
      obtain ⟨elapsed, answer, good, -⟩ := ends.exists_good
      have early : w.isDue deadline = false := by
        simp only [World.isDue, decide_eq_true_eq, decide_eq_false_iff_not] at undue ⊢
        omega
      simp [calm.free, early, Turn.Fine]
  | pausing made timer =>
    simp only [phase] at onTrack

end Trial

namespace OwnSteps

/-- The steps of a stage are on the way to their outputs. -/
def OnTrack (s : Setting) (now : Nat) (stage : Stage) (agent : Agent) : OwnSteps → Prop
  | entering => True
  | pulling image wait => agent.image? = some image ∧
      wait.rest.Ends fun _ answer => answer = .ok ()
  | pulled image => agent.image? = some image
  | starting _ wait => wait.rest.Ends fun _ answer => ∃ id, answer = .ok id
  | between _ todo outputs => ∃ made, stage.steps = made ++ todo ∧
      outputs = Stage.texts s.answers made
  | trying _ trial todo outputs => ∃ made step, stage.steps = made ++ step :: todo ∧
      outputs = Stage.texts s.answers made ∧ trial.OnTrack s now step
  | leaving _ result => result = ⟨Stage.texts s.answers stage.steps, none⟩
  | stopping _ wait result => result = ⟨Stage.texts s.answers stage.steps, none⟩ ∧
      (s.Stops → wait.rest.Ends fun _ _ => True)

variable {stage : Stage} {agent : Agent} {image : String}

/-- What is fine about a turn of the steps of a stage. -/
abbrev FineTurn (s : Setting) (w : World) (stage : Stage) (agent : Agent) (turn : Result) : Prop :=
  turn.Fine w (¬s.Stops) (OnTrack s w.clock stage agent)
    (· = ⟨Stage.texts s.answers stage.steps, none⟩)

theorem followPull_fine {progress : World × Progress (Except Cause Unit)}
    (passes : w.Passes 0 progress.1) (docker : agent.image? = some image)
    (reliable : World.Reliable w.clock (fun _ answer => answer = .ok ()) progress.2) :
    FineTurn s w stage agent (followPull c image progress) := by
  obtain ⟨w₁, progress⟩ := progress
  cases progress with
  | crashed reason => exact reliable.elim
  | finished answer =>
    obtain rfl : answer = .ok () := reliable
    exact ⟨passes.trans (.still rfl rfl), docker⟩
  | waits wait =>
    obtain ⟨waited, -, ends⟩ := reliable
    exact ⟨passes, docker, ends⟩

theorem followStart_fine {progress : World × Progress (Except Cause String)}
    (passes : w.Passes 0 progress.1)
    (reliable : World.Reliable w.clock (fun _ answer => ∃ id, answer = .ok id) progress.2) :
    FineTurn s w stage agent (followStart c stage image progress) := by
  obtain ⟨w₁, progress⟩ := progress
  cases progress with
  | crashed reason => exact reliable.elim
  | finished answer =>
    obtain ⟨id, rfl⟩ := reliable
    exact ⟨passes.trans (.still rfl rfl), [], rfl, rfl⟩
  | waits wait =>
    obtain ⟨waited, -, ends⟩ := reliable
    exact ⟨passes, ends⟩

/-- A stop breaks down only where stops may; otherwise it does not matter what it comes to. -/
theorem followStop_fine {work : Work (Except Cause Unit)} {id : String} {w₁ : World}
    (passes : w.Passes 0 w₁) (ends : s.Stops → work.Ends fun _ _ => True) :
    FineTurn s w stage agent (followStop c id ⟨Stage.texts s.answers stage.steps, none⟩
      (World.perform c.place work w₁)) := by
  have passes := passes.trans (World.passes_perform c.place work w₁)
  have reliable (stops : s.Stops) := World.perform_reliable c.place (ends stops) w₁
  cases performed : World.perform c.place work w₁ with
  | mk w₂ progress =>
    rw [performed] at passes reliable
    cases progress with
    | crashed reason => exact reliable
    | finished answer => exact ⟨passes, rfl⟩
    | waits wait =>
      refine ⟨passes, rfl, fun stops => ?_⟩
      obtain ⟨waited, -, ends⟩ := reliable stops
      exact ends

theorem beginStep_fine {container : Option String} {step : Step} {todo made : List Step}
    (serves : ∀ step ∈ stage.steps, s.Provides step) (calm : c.Calm s)
    (same : w.registry = s.registry) (split : stage.steps = made ++ step :: todo) :
    FineTurn s w stage agent
      (beginStep c container step todo (Stage.texts s.answers made) w) := by
  obtain ⟨binding, registration, resolved, reached, ends⟩ := serves step (by simp [split])
  simp only [beginStep, calm.free, same, resolved, Bool.false_eq_true, if_false]
  refine ⟨.still rfl rfl, made, step, split, rfl, registration, reached, ?_⟩
  rw [calm.workflow]
  exact ends container

theorem followTrial_fine {container : Option String} {step : Step} {todo made : List Step}
    {turn : Turn Trial StepResult} (split : stage.steps = made ++ step :: todo)
    (fine : turn.Fine w (¬s.Stops) (Trial.OnTrack s w.clock step)
      (· = .ok (s.answers step.command step.params))) :
    FineTurn s w stage agent (followTrial container todo (Stage.texts s.answers made) turn) := by
  cases turn with
  | blocked => trivial
  | crashed w' reason held => exact fine
  | moved w' trial => exact ⟨fine.1, made, step, split, rfl, fine.2⟩
  | ended w' answer =>
    obtain ⟨passes, rfl⟩ := fine
    exact ⟨passes, made ++ [step], by simp [split], by simp [Stage.texts]⟩

/-- Every turn leaves the steps of a stage on their way, or ends them with all their outputs. -/
theorem move_fine {own : OwnSteps} (onTrack : own.OnTrack s w.clock stage agent)
    (provides : ∀ step ∈ stage.steps, s.Provides step) (hosts : s.Hosts agent) (calm : c.Calm s)
    (same : w.registry = s.registry) : FineTurn s w stage agent (own.move c stage agent w) := by
  have passes {α : Type} (work : Work α) := World.passes_perform c.place work w
  cases own with
  | entering =>
    simp only [move, calm.free, calm.engine]
    split
    next => exact ⟨.still rfl rfl, [], rfl, rfl⟩
    next image docker =>
      exact followPull_fine (World.passes_begun _ _) docker
        (World.perform_reliable c.place (hosts image docker).1 _)
  | pulling image wait =>
    simp only [move]
    split
    · exact followPull_fine (passes _) onTrack.1 (World.perform_reliable c.place onTrack.2 w)
    · trivial
  | pulled image =>
    simp only [move, calm.engine]
    exact followStart_fine (World.passes_begun _ _)
      (World.perform_reliable c.place (hosts image onTrack).2 _)
  | starting image wait =>
    simp only [move]
    split
    · exact followStart_fine (passes _) (World.perform_reliable c.place onTrack w)
    · trivial
  | between container todo outputs =>
    obtain ⟨made, split, rfl⟩ := onTrack
    cases todo with
    | nil =>
      obtain rfl : stage.steps = made := by simpa using split
      exact ⟨.still rfl rfl, rfl⟩
    | cons step todo => exact beginStep_fine provides calm same split
  | trying container trial todo outputs =>
    obtain ⟨made, step, split, rfl, onTrack⟩ := onTrack
    exact followTrial_fine split (trial.move_fine onTrack calm same)
  | leaving container result =>
    obtain rfl := onTrack
    cases container with
    | none => exact ⟨.still rfl rfl, rfl⟩
    | some id =>
      simp only [move, calm.engine]
      exact followStop_fine (.still rfl rfl) fun stops => stops id
  | stopping id wait result =>
    obtain ⟨rfl, ends⟩ := onTrack
    simp only [move]
    split
    · exact followStop_fine (.still rfl rfl) ends
    · trivial

end OwnSteps

namespace StageRun

mutual

/-- A stage is on the way to the output that the reference gives to it. -/
def OnTrack (s : Setting) (now : Nat) (stage : Stage) (inherited : Agent) : StageRun → Prop
  | fresh stage' inherited' => stage' = stage ∧ inherited' = inherited
  | joining stage' agent runs failure => stage' = stage ∧ agent = stage.effectiveAgent inherited ∧
      stage.parallel ≠ [] ∧ failure = none ∧ AllOnTrack s now agent stage.parallel runs
  | working stage' agent branches own => stage' = stage ∧ agent = stage.effectiveAgent inherited ∧
      stage.steps ≠ [] ∧ branches = stage.branchesFrom s.answers ∧ own.OnTrack s now stage agent
  | settled output failure => output = stage.outputFrom s.answers ∧ failure = none
  | received output => output = stage.outputFrom s.answers

/-- So are all of some branches. -/
def AllOnTrack (s : Setting) (now : Nat) (inherited : Agent) : List Stage → List StageRun → Prop
  | [], [] => True
  | stage :: stages, run :: runs =>
    run.OnTrack s now stage inherited ∧ AllOnTrack s now inherited stages runs
  | _, _ => False

end

variable {now : Nat} {stage : Stage} {stages : List Stage} {inherited agent : Agent} {i : Nat}
  {run : StageRun} {runs : List StageRun}

theorem AllOnTrack.get (all : AllOnTrack s now inherited stages runs)
    (there : runs[i]? = some run) :
    ∃ stage, stages[i]? = some stage ∧ run.OnTrack s now stage inherited := by
  induction runs generalizing stages i with
  | nil => cases there
  | cons first rest ih =>
    cases stages with
    | nil => exact all.elim
    | cons stage stages =>
      cases i with
      | zero =>
        obtain rfl : first = run := by simpa using there
        exact ⟨stage, rfl, all.1⟩
      | succ i => simpa using ih all.2 (by simpa using there)

theorem AllOnTrack.set (all : AllOnTrack s now inherited stages runs)
    (there : stages[i]? = some stage) (onTrack : run.OnTrack s now stage inherited) :
    AllOnTrack s now inherited stages (runs.set i run) := by
  induction runs generalizing stages i with
  | nil => exact all
  | cons first rest ih =>
    cases stages with
    | nil => exact all.elim
    | cons head stages =>
      cases i with
      | zero =>
        obtain rfl : head = stage := by simpa using there
        exact ⟨onTrack, all.2⟩
      | succ i => exact ⟨all.1, ih all.2 (by simpa using there)⟩

theorem allOnTrack_fresh (s : Setting) (now : Nat) (inherited : Agent) (stages : List Stage) :
    AllOnTrack s now inherited stages (stages.map fun stage => fresh stage inherited) := by
  induction stages with
  | nil => trivial
  | cons stage stages ih => exact ⟨⟨rfl, rfl⟩, ih⟩

/-- What has come in are the outputs of the branches. -/
theorem AllOnTrack.outputs_eq {outputs : List StageOutput}
    (all : AllOnTrack s now inherited stages runs) (settled : outputs? runs = some outputs) :
    outputs = stages.map (·.outputFrom s.answers) := by
  rw [outputs?_eq_some] at settled
  subst settled
  induction outputs generalizing stages with
  | nil =>
    cases stages with
    | nil => rfl
    | cons stage stages => exact all.elim
  | cons output outputs ih =>
    cases stages with
    | nil => exact all.elim
    | cons stage stages =>
      obtain ⟨rfl, all⟩ := all
      rw [ih all, List.map_cons]

theorem resultsOf_eq (answers : Answers) (stages : List Stage) :
    resultsOf stages (stages.map (·.outputFrom answers)) =
      .ofEntries (Stage.entriesFrom answers stages) := by
  rw [resultsOf, Stage.entriesFrom_eq, List.zip_map']

theorem ownSteps_onTrack (s : Setting) (now : Nat) (stage : Stage) (inherited : Agent) :
    (ownSteps stage (stage.effectiveAgent inherited) (stage.branchesFrom s.answers)).OnTrack s now
      stage inherited := by
  unfold ownSteps
  split
  next none_ => exact ⟨by rw [Stage.outputFrom_eq, if_pos none_], rfl⟩
  next some_ => exact ⟨rfl, rfl, by simpa using some_, rfl, trivial⟩

theorem enter_onTrack (s : Setting) (now : Nat) (stage : Stage) (inherited : Agent) :
    (enter stage inherited).OnTrack s now stage inherited := by
  unfold enter
  dsimp only
  split
  next none_ =>
    have alone : stage.branchesFrom s.answers = none := if_pos none_
    exact alone ▸ ownSteps_onTrack s now stage inherited
  next some_ => exact ⟨rfl, rfl, by simpa using some_, rfl, allOnTrack_fresh _ _ _ _⟩

theorem followSteps_fine {branches : Option StageResults} {turn : OwnSteps.Result}
    (some_ : stage.steps ≠ []) (known : branches = stage.branchesFrom s.answers)
    (fine : OwnSteps.FineTurn s w stage (stage.effectiveAgent inherited) turn) :
    (followSteps stage (stage.effectiveAgent inherited) branches turn).Fine w (¬s.Stops)
      (OnTrack s w.clock stage inherited) Empty.elim := by
  cases turn with
  | blocked => trivial
  | crashed w' reason held => exact fine
  | moved w' own => exact ⟨fine.1, rfl, rfl, some_, known, fine.2⟩
  | ended w' result =>
    obtain ⟨passes, rfl⟩ := fine
    refine ⟨passes, ?_, rfl⟩
    have own : ¬stage.steps.isEmpty = true := by simpa using some_
    rw [Stage.outputFrom_eq, known, if_neg own]

theorem moveHere_fine (onTrack : run.OnTrack s w.clock stage inherited)
    (serves : s.Serves stage inherited) (calm : c.Calm s) (same : w.registry = s.registry) :
    (run.moveHere c w).Fine w (¬s.Stops) (OnTrack s w.clock stage inherited) Empty.elim := by
  cases run with
  | fresh stage' inherited' =>
    obtain ⟨rfl, rfl⟩ := onTrack
    exact ⟨.still rfl rfl, enter_onTrack _ _ _ _⟩
  | joining stage' agent runs failure =>
    obtain ⟨rfl, rfl, some_, rfl, all⟩ := onTrack
    simp only [moveHere]
    split
    next outputs settled =>
      refine ⟨.still rfl rfl, ?_⟩
      have results : some (resultsOf stage'.parallel outputs) = stage'.branchesFrom s.answers := by
        rw [all.outputs_eq settled, resultsOf_eq, Stage.branchesFrom, if_neg (by simpa using some_)]
      simp only [leaveJoin, results]
      exact ownSteps_onTrack _ _ _ _
    next => trivial
  | working stage' agent branches own =>
    obtain ⟨rfl, rfl, some_, known, onTrack⟩ := onTrack
    exact followSteps_fine some_ known
      (own.move_fine onTrack serves.provides (serves.hosts some_) calm same)
  | settled output failure => trivial
  | received output => trivial

/-- Every turn leaves a stage, and all that is nested in it, on the way. -/
theorem move_fine (onTrack : run.OnTrack s w.clock stage inherited)
    (serves : s.Serves stage inherited) (calm : c.Calm s) (same : w.registry = s.registry)
    (path : List Nat) :
    (run.move c w path).Fine w (¬s.Stops) (OnTrack s w.clock stage inherited) Empty.elim := by
  induction path generalizing c run stage inherited with
  | nil => simpa [move] using moveHere_fine onTrack serves calm same
  | cons i path ih =>
    cases run with
    | joining stage' agent runs failure =>
      obtain ⟨rfl, rfl, some_, rfl, all⟩ := onTrack
      rw [move]
      split
      next => trivial
      next output outcome there =>
        obtain ⟨branch, declared, rfl, rfl⟩ := all.get there
        exact ⟨.still rfl rfl, rfl, rfl, some_, rfl, all.set declared rfl⟩
      next run _ there =>
        obtain ⟨branch, declared, onTrack⟩ := all.get there
        have inside : (Context.inside c stage' none i).Calm s :=
          ⟨calm.engine, calm.workflow, by simp [Context.inside, calm.free]⟩
        have fine := ih onTrack (serves.branch declared) inside
        cases turn : run.move (Context.inside c stage' none i) w path with
        | blocked => trivial
        | ended w' value => cases value
        | crashed w' reason held =>
          rw [turn] at fine
          exact fine
        | moved w' run' =>
          rw [turn] at fine
          exact ⟨fine.1, rfl, rfl, some_, rfl, all.set declared fine.2⟩
    | _ => trivial

end StageRun

theorem Trial.OnTrack.later {t : Trial} {step : Step} {now now' : Nat}
    (onTrack : t.OnTrack s now step) (undue : ∀ timer ∈ t.timers, now' ≤ timer.due) :
    t.OnTrack s now' step := by
  unfold Trial.OnTrack at onTrack ⊢
  unfold Trial.timers at undue
  cases phase : t.phase with
  | ready made =>
    rw [phase] at onTrack
    exact onTrack
  | calling attempt deadline call =>
    rw [phase] at onTrack undue
    exact ⟨undue _ List.mem_cons_self, onTrack.2⟩
  | pausing made timer =>
    rw [phase] at onTrack
    exact onTrack

theorem OwnSteps.OnTrack.later {own : OwnSteps} {stage : Stage} {agent : Agent} {now now' : Nat}
    (onTrack : own.OnTrack s now stage agent) (undue : ∀ timer ∈ own.timers, now' ≤ timer.due) :
    own.OnTrack s now' stage agent := by
  cases own with
  | trying container trial todo outputs =>
    obtain ⟨made, step, split, outputs, onTrack⟩ := onTrack
    exact ⟨made, step, split, outputs, onTrack.later undue⟩
  | _ => exact onTrack

namespace StageRun

variable {now : Nat}

mutual

/-- A stage stays on the way while time goes on, as long as nothing that it waits for is overdue. -/
theorem OnTrack.later {now' : Nat} : ∀ {run : StageRun} {stage : Stage} {inherited : Agent},
    run.OnTrack s now stage inherited → (∀ timer ∈ run.timers, now' ≤ timer.due) →
      run.OnTrack s now' stage inherited
  | joining _ _ _ _, _, _, ⟨same, agent, some_, calm, all⟩, undue =>
    ⟨same, agent, some_, calm, all.later undue⟩
  | working .., _, _, ⟨same, agent, some_, known, onTrack⟩, undue =>
    ⟨same, agent, some_, known, onTrack.later undue⟩
  | fresh .., _, _, onTrack, _ => onTrack
  | settled .., _, _, onTrack, _ => onTrack
  | received _, _, _, onTrack, _ => onTrack

theorem AllOnTrack.later {now' : Nat} : ∀ {runs : List StageRun} {stages : List Stage}
    {inherited : Agent}, AllOnTrack s now inherited stages runs →
      (∀ timer ∈ timersOfAll runs, now' ≤ timer.due) → AllOnTrack s now' inherited stages runs
  | [], [], _, all, _ => all
  | [], _ :: _, _, all, _ => all
  | _ :: _, [], _, all, _ => all
  | _ :: _, _ :: _, _, ⟨first, rest⟩, undue =>
    ⟨first.later fun timer mem => undue timer (List.mem_append_left _ mem),
      rest.later fun timer mem => undue timer (List.mem_append_right _ mem)⟩

end

end StageRun

namespace Execution

/-- An execution is on the way to the report of the reference. -/
def Phase.OnTrack (s : Setting) (pipeline : Pipeline) (now : Nat) : Phase → Prop
  | .fresh => True
  | .between workflow _ todo results => workflow = s.workflow ∧ ∃ made,
      pipeline.stages = made ++ todo ∧ results = .ofEntries (Stage.entriesFrom s.answers made)
  | .inStage workflow _ name run todo results => workflow = s.workflow ∧ ∃ made stage,
      pipeline.stages = made ++ stage :: todo ∧ name = stage.name ∧
      results = .ofEntries (Stage.entriesFrom s.answers made) ∧
      run.OnTrack s now stage pipeline.agent
  | .over result => result = .ok (pipeline.reportFrom s.answers s.workflow)
  | .crashed _ => False

/-- An execution of a pipeline is on the way. -/
structure OnTrack (s : Setting) (pipeline : Pipeline) (now : Nat) (e : Execution) : Prop where
  same : e.pipeline = pipeline
  known : e.properties.workflowId = .ok s.workflow
  phase : e.phase.OnTrack s pipeline now

variable {pipeline : Pipeline} {e : Execution}

theorem passes_enter (e : Execution) (workflow : String) (state : WorkflowState) (w : World) :
    w.Passes 0 (e.enter workflow state w).1 := by
  simp only [enter]
  split <;> exact .still rfl rfl

theorem entriesFrom_concat (answers : Answers) (stages : List Stage) (stage : Stage) :
    OrderedMap.ofEntries (Stage.entriesFrom answers (stages ++ [stage])) =
      OrderedMap.insert stage.name (stage.outputFrom answers)
        (.ofEntries (Stage.entriesFrom answers stages)) := by
  rw [Stage.entriesFrom_eq, List.map_append, Stage.entriesFrom_eq]
  exact OrderedMap.ofEntries_concat _ _

/-- Every turn leaves an execution on the way. -/
theorem move_fine (onTrack : e.OnTrack s pipeline w.clock)
    (serves : ∀ stage ∈ pipeline.stages, s.Serves stage pipeline.agent)
    (same : w.registry = s.registry) (path : List Nat) :
    (e.move s.engine w path).Fine w (¬s.Stops) (OnTrack s pipeline w.clock) Empty.elim := by
  obtain ⟨rfl, known, onTrack⟩ := onTrack
  unfold move
  split
  next fresh =>
    simp only [begin, known]
    exact ⟨(passes_enter _ _ _ _).trans (passes_enter _ _ _ _), rfl, known, rfl, [], rfl, rfl⟩
  next workflow index results phase =>
    rw [phase] at onTrack
    obtain ⟨rfl, made, split, rfl⟩ := onTrack
    obtain rfl : e.pipeline.stages = made := by simpa using split
    exact ⟨passes_enter _ _ _ _, rfl, known, rfl⟩
  next workflow index stage todo results phase =>
    rw [phase] at onTrack
    obtain ⟨rfl, made, split, rfl⟩ := onTrack
    exact ⟨.still rfl rfl, rfl, known, rfl, made, stage, split, rfl, rfl, rfl, rfl⟩
  next workflow index name output failure todo results phase =>
    rw [phase] at onTrack
    obtain ⟨rfl, made, stage, split, rfl, rfl, rfl, rfl⟩ := onTrack
    exact ⟨.still rfl rfl, rfl, known, rfl, made ++ [stage], by simp [split],
      (entriesFrom_concat _ _ _).symm⟩
  next workflow index name run todo results _ phase =>
    rw [phase] at onTrack
    obtain ⟨rfl, made, stage, split, rfl, rfl, onTrack⟩ := onTrack
    have fine := run.move_fine (c := ⟨s.engine, ⟨s.workflow, [index]⟩, false, false⟩) onTrack
      (serves stage (by simp [split])) ⟨rfl, rfl, rfl⟩ same path
    cases turn : run.move ⟨s.engine, ⟨s.workflow, [index]⟩, false, false⟩ w path with
    | blocked => trivial
    | ended w' value => cases value
    | crashed w' reason held =>
      rw [turn] at fine
      exact fine
    | moved w' run' =>
      rw [turn] at fine
      exact ⟨fine.1, rfl, known, rfl, made, stage, split, rfl, rfl, fine.2⟩
  next => trivial
  next => trivial

/-- The runs of an execution in which the plugins stay the same and whatever is due is done: its
turns come at any places and in any order, and time does not pass over a timer. -/
inductive Punctual (engine : Engine) (registry : Registry) (pipeline : Pipeline)
    (properties : Properties) (state : StateCell) : World → Execution → Prop where
  | begins (w : World) (plugins : w.registry = registry) :
      Punctual engine registry pipeline properties state w { pipeline, properties, state }
  | turn {w w' : World} {e e' : Execution} {path : List Nat}
      (so : Punctual engine registry pipeline properties state w e)
      (moved : e.move engine w path = .moved w' e') :
      Punctual engine registry pipeline properties state w' e'
  | called {w : World} {e : Execution}
      (so : Punctual engine registry pipeline properties state w e) (rota : Rota) :
      Punctual engine registry pipeline properties state w { e with rota }
  | beside {w w' : World} {e : Execution}
      (so : Punctual engine registry pipeline properties state w e)
      (plugins : w'.registry = w.registry) (clock : w'.clock = w.clock) :
      Punctual engine registry pipeline properties state w' e
  | later {w w' : World} {e : Execution}
      (so : Punctual engine registry pipeline properties state w e)
      (plugins : w'.registry = w.registry) (forward : w.clock ≤ w'.clock)
      (undue : ∀ timer ∈ e.timers, w'.clock ≤ timer.due) :
      Punctual engine registry pipeline properties state w' e

theorem OnTrack.later (onTrack : e.OnTrack s pipeline w.clock)
    (undue : ∀ timer ∈ e.timers, w'.clock ≤ timer.due) : e.OnTrack s pipeline w'.clock := by
  refine ⟨onTrack.same, onTrack.known, ?_⟩
  have inPhase := onTrack.phase
  unfold timers at undue
  cases phase : e.phase with
  | inStage workflow index name run todo results =>
    rw [phase] at inPhase undue
    obtain ⟨here, made, stage, split, named, known, onTrack⟩ := inPhase
    exact ⟨here, made, stage, split, named, known, onTrack.later undue⟩
  | _ =>
    rw [phase] at inPhase
    exact inPhase

theorem Punctual.onTrack {properties : Properties} {state : StateCell}
    (so : Punctual s.engine s.registry pipeline properties state w e)
    (known : properties.workflowId = .ok s.workflow)
    (serves : ∀ stage ∈ pipeline.stages, s.Serves stage pipeline.agent) :
    w.registry = s.registry ∧ e.OnTrack s pipeline w.clock := by
  induction so with
  | begins w plugins => exact ⟨plugins, rfl, known, trivial⟩
  | turn so moved ih =>
    obtain ⟨same, onTrack⟩ := ih
    have fine := move_fine onTrack serves same
    obtain ⟨passes, onTrack⟩ := moved ▸ fine _
    rw [passes.2, Nat.add_zero]
    exact ⟨passes.1.trans same, onTrack⟩
  | called so rota ih => exact ⟨ih.1, ih.2.same, ih.2.known, ih.2.phase⟩
  | beside so plugins clock ih => exact ⟨plugins.trans ih.1, clock ▸ ih.2⟩
  | later so plugins forward undue ih => exact ⟨plugins.trans ih.1, ih.2.later undue⟩

end Execution

end PipelineRunner
