import PipelineRunner.Proofs.ExecutionRuns

/-! Whether the stop of a container fails does not matter. A runtime whose stops do the same work
and answer otherwise has the same runs: they note the same events and come to the same end. -/

namespace PipelineRunner

variable {α β : Type}

/-- Work that yields something else. -/
def Work.map (f : α → β) (work : Work α) : Work β := work.bind fun a => .done (f a)

def Waiting.map (f : α → β) (wait : Waiting α) : Waiting β :=
  ⟨wait.timer, fun u => (wait.next u).map f⟩

def Progress.map (f : α → β) : Progress α → Progress β
  | finished a => finished (f a)
  | waits wait => waits (wait.map f)
  | crashed reason => crashed reason

theorem World.perform_map (f : α → β) (place : Place) (work : Work α) (w : World) :
    perform place (work.map f) w =
      ((perform place work w).1, (perform place work w).2.map f) := by
  unfold Work.map
  induction work generalizing w with
  | done a => rfl
  | sleep ms rest ih =>
    cases ms with
    | zero => exact ih () w
    | succ ms => rfl
  | log workflow level message rest ih => exact ih _
  | remark what rest ih => exact ih _
  | count counter rest ih => exact ih _ _
  | readFiles rest ih => exact ih _ w
  | writeFiles files rest ih => exact ih _
  | crash reason => rfl

variable {σ τ : Type}

/-- A turn of something that is looked at otherwise. -/
def Turn.map (g : σ → τ) : Turn σ α → Turn τ α
  | blocked => blocked
  | moved w s => moved w (g s)
  | ended w a => ended w a
  | crashed w reason held => crashed w reason held

/-- Other answers to the stops of containers. -/
abbrev StopAnswers := String → Except Cause Unit → Except Cause Unit

variable (f : StopAnswers)

/-- The same engine, with other answers to the stops. -/
def Engine.answering (engine : Engine) : Engine :=
  { engine with
    runtime := { engine.runtime with stop := fun id => (engine.runtime.stop id).map (f id) } }

def Context.answering (c : Context) : Context := { c with engine := c.engine.answering f }

namespace OwnSteps

def answering : OwnSteps → OwnSteps
  | stopping id wait result => stopping id (wait.map (f id)) result
  | own => own

variable {f} {c : Context} {stage : Stage} {agent : Agent} {w : World}

theorem followPull_answering (image : String) (p : World × Progress (Except Cause Unit)) :
    followPull (c.answering f) image p = (followPull c image p).map (answering f) := by
  obtain ⟨w, _ | _ | _⟩ := p
  case finished answer => cases answer <;> rfl
  all_goals rfl

theorem followStart_answering (image : String) (p : World × Progress (Except Cause String)) :
    followStart (c.answering f) stage image p =
      (followStart c stage image p).map (answering f) := by
  obtain ⟨w, _ | _ | _⟩ := p
  case finished answer => cases answer <;> rfl
  all_goals rfl

theorem followStop_answering (id : String) (result : StepsResult) (w : World)
    (p : Progress (Except Cause Unit)) :
    followStop (c.answering f) id result (w, p.map (f id)) =
      (followStop c id result (w, p)).map (answering f) := by
  cases p <;> rfl

theorem followTrial_answering (container : Option String) (todo : List Step)
    (outputs : List String) (turn : Turn Trial StepResult) :
    (followTrial container todo outputs turn).map (answering f) =
      followTrial container todo outputs turn := by
  cases turn with
  | ended w result => cases result <;> rfl
  | _ => rfl

theorem move_answering (own : OwnSteps) (w : World) :
    (own.answering f).move (c.answering f) stage agent w =
      (own.move c stage agent w).map (answering f) := by
  cases own with
  | entering =>
    cases agent with
    | none => rfl
    | docker image =>
      simp only [answering, move, Agent.image?]
      have same : (c.answering f).cancelled = c.cancelled := rfl
      rw [same]
      split
      · rfl
      · exact followPull_answering _ _
  | pulling image wait =>
    simp only [answering, move]
    split
    · exact followPull_answering image _
    · rfl
  | pulled image => exact followStart_answering image _
  | starting image wait =>
    simp only [answering, move]
    split
    · exact followStart_answering image _
    · rfl
  | between container todo outputs =>
    cases todo with
    | nil => rfl
    | cons step todo =>
      simp only [answering, move, beginStep]
      have same : (c.answering f).cancelled = c.cancelled := rfl
      rw [same]
      split
      · rfl
      · split <;> rfl
  | trying container trial todo outputs =>
    exact (followTrial_answering container todo outputs (trial.move c w)).symm
  | leaving container result =>
    cases container with
    | none => rfl
    | some id =>
      have stop : (c.answering f).engine.runtime.stop id =
        (c.engine.runtime.stop id).map (f id) := rfl
      simp only [answering, move, stop, World.perform_map]
      exact followStop_answering id result _ _
  | stopping id wait result =>
    have rest : (wait.map (f id)).rest = wait.rest.map (f id) := rfl
    have timer : (wait.map (f id)).timer = wait.timer := rfl
    simp only [answering, move, rest, timer, World.perform_map]
    split
    · exact followStop_answering id result _ _
    · rfl

end OwnSteps

namespace StageRun

mutual

def answering : StageRun → StageRun
  | joining stage agent runs failure => joining stage agent (answeringAll runs) failure
  | working stage agent branches own => working stage agent branches (own.answering f)
  | run => run

def answeringAll : List StageRun → List StageRun
  | [] => []
  | run :: rest => run.answering :: answeringAll rest

end

variable {f} {c : Context} {w : World}

theorem answeringAll_eq_map (runs : List StageRun) :
    answeringAll f runs = runs.map (answering f) := by
  induction runs with
  | nil => rfl
  | cons run rest ih => rw [answeringAll, ih, List.map_cons]

theorem answering_joining (stage : Stage) (agent : Agent) (runs : List StageRun)
    (failure : Option StepError) :
    (joining stage agent runs failure).answering f =
      joining stage agent (runs.map (answering f)) failure := by
  rw [answering, answeringAll_eq_map]

theorem answering_ownSteps (stage : Stage) (agent : Agent) (branches : Option StageResults) :
    (ownSteps stage agent branches).answering f = ownSteps stage agent branches := by
  unfold ownSteps
  split <;> rfl

theorem answering_enter (stage : Stage) (inherited : Agent) :
    (enter stage inherited).answering f = enter stage inherited := by
  unfold enter
  dsimp only
  split
  · exact answering_ownSteps _ _ _
  · rw [answering_joining, List.map_map]
    rfl

theorem answering_leaveJoin (stage : Stage) (agent : Agent) (outputs : List StageOutput)
    (failure : Option StepError) :
    (leaveJoin stage agent outputs failure).answering f =
      leaveJoin stage agent outputs failure := by
  unfold leaveJoin
  dsimp only
  split
  · rfl
  · exact answering_ownSteps _ _ _

theorem output?_answering (run : StageRun) : (run.answering f).output? = run.output? := by
  cases run <;> rfl

theorem outputs?_answering (runs : List StageRun) :
    outputs? (runs.map (answering f)) = outputs? runs := by
  simp only [outputs?, List.mapM_map, Function.comp_def, output?_answering]

theorem moveHere_answering (run : StageRun) :
    (run.answering f).moveHere (c.answering f) w = (run.moveHere c w).map (answering f) := by
  cases run with
  | fresh stage inherited => simp [answering, moveHere, Turn.map, answering_enter]
  | joining stage agent runs failure =>
    rw [answering_joining]
    simp only [moveHere, outputs?_answering]
    split
    · simp [Turn.map, answering_leaveJoin]
    · rfl
  | working stage agent branches own =>
    simp only [answering, moveHere, OwnSteps.move_answering]
    cases own.move c stage agent w <;> rfl
  | settled output failure => rfl
  | received output => rfl

mutual

theorem held_answering : ∀ run : StageRun, (run.answering f).held = run.held
  | joining _ _ runs _ => heldByAll_answering runs
  | working _ _ _ own => by cases own <;> rfl
  | fresh .. => rfl
  | settled .. => rfl
  | received _ => rfl

theorem heldByAll_answering :
    ∀ runs : List StageRun, heldByAll (answeringAll f runs) = heldByAll runs
  | [] => rfl
  | run :: rest => by
    rw [answeringAll, heldByAll, heldByAll, held_answering run, heldByAll_answering rest]

end

theorem followBranch_answering (stage : Stage) (agent : Agent) (runs : List StageRun)
    (failure : Option StepError) (i : Nat) (turn : Turn StageRun Empty) :
    followBranch stage agent (runs.map (answering f)) failure i (turn.map (answering f)) =
      (followBranch stage agent runs failure i turn).map (answering f) := by
  cases turn with
  | moved w run => simp [Turn.map, followBranch, answering_joining, List.map_set]
  | crashed w reason held =>
    have others : (runs.map (answering f)).eraseIdx i = answeringAll f (runs.eraseIdx i) := by
      rw [answeringAll_eq_map, List.eraseIdx_eq_take_drop_succ, List.eraseIdx_eq_take_drop_succ]
      simp
    simp only [Turn.map, followBranch, others, heldByAll_answering]
  | blocked => rfl
  | ended w value => rfl

theorem isSettled_answering (run : StageRun) : (run.answering f).isSettled = run.isSettled := by
  cases run <;> rfl

theorem move_unsettled {stage : Stage} {agent : Agent} {runs : List StageRun}
    {failure : Option StepError} {i : Nat} {run : StageRun} (there : runs[i]? = some run)
    (unsettled : run.isSettled = false) (path : List Nat) :
    (joining stage agent runs failure).move c w (i :: path) =
      followBranch stage agent runs failure i
        (run.move (Context.inside c stage failure i) w path) := by
  cases run with
  | settled => cases unsettled
  | _ => simp only [move, there]

/-- Both engines have the same turns. -/
theorem move_answering (run : StageRun) (path : List Nat) :
    (run.answering f).move (c.answering f) w path = (run.move c w path).map (answering f) := by
  induction path generalizing c run with
  | nil => simpa [move] using moveHere_answering run
  | cons i path ih =>
    cases run with
    | joining stage agent runs failure =>
      rw [answering_joining]
      cases there : runs[i]? with
      | none => simp [move, there, Turn.map]
      | some run =>
        have there' : (runs.map (answering f))[i]? = some (run.answering f) := by simp [there]
        cases hs : run.isSettled with
        | false =>
          rw [move_unsettled there hs, move_unsettled there' ((isSettled_answering run).trans hs)]
          rw [← followBranch_answering, ← ih]
          rfl
        | true =>
          cases run with
          | settled output outcome =>
            have there' : (runs.map (answering f))[i]? = some (settled output outcome) := there'
            simp only [move, there, there', Turn.map, answering_joining, List.map_set]
            rfl
          | _ => cases hs
    | _ => rfl

theorem at?_answering (run : StageRun) (path : List Nat) :
    (run.answering f).at? path = (run.at? path).map (answering f) := by
  induction path generalizing run with
  | nil => simp [at?]
  | cons i path ih =>
    cases run with
    | joining stage agent runs failure =>
      rw [answering_joining]
      simp only [at?, List.getElem?_map]
      cases runs[i]? with
      | none => rfl
      | some run => exact ih run
    | _ => rfl

theorem answering_eq_settled {run : StageRun} {output : StageOutput}
    {outcome : Option StepError} :
    run.answering f = settled output outcome ↔ run = settled output outcome := by
  cases run <;> simp [answering]

end StageRun

namespace Execution

def Phase.answering : Phase → Phase
  | inStage workflow index stage run todo results =>
    inStage workflow index stage (run.answering f) todo results
  | phase => phase

def answering (e : Execution) : Execution := { e with phase := e.phase.answering f }

variable {f} {engine : Engine} {pipeline : Pipeline} {properties : Properties}
  {state : StateCell} {past : List Moment} {e : Execution} {w : World} {path : List Nat}

theorem begin_answering : (e.answering f).begin w = (e.begin w).map (answering f) := by
  obtain ⟨pipeline, properties, state, phase, rota⟩ := e
  simp only [begin, answering]
  split <;> rfl

theorem followStage_answering (workflow : String) (index : Nat) (name : String)
    (todo : List Stage) (results : StageResults) (turn : Turn StageRun Empty) :
    (e.answering f).followStage workflow index name todo results
        (turn.map (StageRun.answering f)) =
      (e.followStage workflow index name todo results turn).map (answering f) := by
  cases turn <;> rfl

theorem move_unsettled {workflow name : String} {index : Nat} {run : StageRun}
    {todo : List Stage} {results : StageResults}
    (phase : e.phase = .inStage workflow index name run todo results)
    (unsettled : run.isSettled = false) :
    e.move engine w path = e.followStage workflow index name todo results
      (run.move (outermost engine workflow index) w path) := by
  unfold move
  rw [phase]
  cases run with
  | settled => cases unsettled
  | _ => rfl

/-- Both engines have the same turns. -/
theorem move_answering :
    (e.answering f).move (engine.answering f) w path =
      (e.move engine w path).map (answering f) := by
  obtain ⟨pipeline, properties, state, phase, rota⟩ := e
  cases phase with
  | fresh => exact begin_answering
  | between workflow index todo results => cases todo <;> rfl
  | inStage workflow index name run todo results =>
    cases hs : run.isSettled with
    | false =>
      refine (move_unsettled rfl ((StageRun.isSettled_answering run).trans hs)).trans ?_
      refine Eq.trans ?_ (congrArg (Turn.map (answering f)) (move_unsettled rfl hs)).symm
      rw [← followStage_answering, ← StageRun.move_answering]
      rfl
    | true =>
      cases run with
      | settled output failure => cases failure <;> rfl
      | _ => cases hs
  | _ => rfl

theorem result?_answering : (e.answering f).result? = e.result? := by
  obtain ⟨pipeline, properties, state, phase, rota⟩ := e
  cases phase <;> rfl

theorem stageAt?_answering :
    (e.answering f).stageAt? path = (e.stageAt? path).map (StageRun.answering f) := by
  obtain ⟨pipeline, properties, state, phase, rota⟩ := e
  cases path with
  | nil => rfl
  | cons i way =>
    cases phase with
    | inStage workflow index name run todo results =>
      simp only [stageAt?, answering, Phase.answering]
      split
      · exact StageRun.at?_answering run way
      · rfl
    | _ => rfl

variable (f)

def Moment.answering (m : Moment) : Moment :=
  ⟨m.path, m.before.answering f, m.after.answering f, m.news⟩

theorem records_answering (past : List Moment) :
    records (past.map (Moment.answering f)) = records past := by
  simp [records, List.flatMap_map, Moment.answering]

theorem Run.answering (so : Run engine pipeline properties state past e) :
    Run (engine.answering f) pipeline properties state (past.map (Moment.answering f))
      (e.answering f) := by
  induction so with
  | begins => exact .begins
  | called so rota ih => exact ih.called rota
  | turn so moved noted ih =>
    rw [List.map_append]
    refine ih.turn ?_ noted
    rw [move_answering, moved, Turn.map]

/-- Whatever stops answer, a run notes the same, its stages settle with the same outcome and it
comes to the same report. -/
theorem Run.stop_answers (so : Run engine pipeline properties state past e) :
    ∃ past' e', Run (engine.answering f) pipeline properties state past' e' ∧
      records past' = records past ∧ e'.result? = e.result? ∧
      ∀ path output outcome, e'.stageAt? path = some (.settled output outcome) ↔
        e.stageAt? path = some (.settled output outcome) := by
  refine ⟨_, _, so.answering f, records_answering f past, result?_answering, ?_⟩
  intro path output outcome
  rw [stageAt?_answering]
  simp [StageRun.answering_eq_settled]

end Execution
end PipelineRunner
