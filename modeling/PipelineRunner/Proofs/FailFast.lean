import PipelineRunner.Proofs.BranchCancellation
import PipelineRunner.Proofs.StopAnswers
import PipelineRunner.Proofs.TimingIndependence

/-! What the declarations of stages to fail fast do as long as nothing fails: nothing. A stage that
fails fast has its branches interrupted by the first failure among them, and nothing else reads the
declaration. As long as no join has received a failing branch, no branch is cancelled, and turns are
the same with and without it. A join receives a failing branch only if somewhere below it a step has
failed or a container has not come up. -/

namespace PipelineRunner

/-! ### Without the declarations -/

namespace Stage

mutual

/-- A stage in which, at every depth, nothing is said on failing fast. -/
def lax : Stage → Stage
  | ⟨name, agent, steps, _, parallel⟩ => ⟨name, agent, steps, none, laxAll parallel⟩

def laxAll : List Stage → List Stage
  | [] => []
  | stage :: rest => stage.lax :: laxAll rest

end

theorem laxAll_eq_map (stages : List Stage) : laxAll stages = stages.map lax := by
  induction stages with
  | nil => rfl
  | cons stage rest ih => rw [laxAll, ih, List.map_cons]

variable (stage : Stage)

@[simp] theorem lax_name : stage.lax.name = stage.name := by
  obtain ⟨⟩ := stage
  rfl

@[simp] theorem lax_agent : stage.lax.agent = stage.agent := by
  obtain ⟨⟩ := stage
  rfl

@[simp] theorem lax_steps : stage.lax.steps = stage.steps := by
  obtain ⟨⟩ := stage
  rfl

@[simp] theorem lax_parallel : stage.lax.parallel = stage.parallel.map lax := by
  obtain ⟨⟩ := stage
  exact laxAll_eq_map _

@[simp] theorem lax_isFailFast : stage.lax.isFailFast = false := by
  obtain ⟨⟩ := stage
  rfl

@[simp] theorem lax_effectiveAgent (inherited : Agent) :
    stage.lax.effectiveAgent inherited = stage.effectiveAgent inherited := by
  rw [effectiveAgent, lax_agent, effectiveAgent]

end Stage

/-- The same pipeline without a word on failing fast. -/
def Pipeline.lax (p : Pipeline) : Pipeline := { p with stages := p.stages.map Stage.lax }

/-- What something finds around it that is interrupted or not. -/
def Context.interrupting (c : Context) (interrupt : Bool) : Context := { c with interrupt }

theorem Trial.move_interrupting {c : Context} (free : c.cancelled = false) (t : Trial) (w : World)
    (interrupt : Bool) : t.move (c.interrupting interrupt) w = t.move c w := by
  have free' : (c.interrupting interrupt).cancelled = false := free
  unfold move
  cases t.phase with
  | calling attempt deadline call =>
    simp only [free, free', Bool.and_false]
    rfl
  | _ => rfl

theorem Trial.isAwake_interrupting {c : Context} (free : c.cancelled = false) (t : Trial)
    (w : World) (interrupt : Bool) : t.isAwake (c.interrupting interrupt) w = t.isAwake c w := by
  have free' : (c.interrupting interrupt).cancelled = false := free
  unfold isAwake
  cases t.phase with
  | calling attempt deadline call => simp only [free, free', Bool.and_false]
  | _ => rfl

namespace OwnSteps

variable {c : Context} {w : World}

theorem move_interrupting (free : c.cancelled = false) (stage : Stage) (agent : Agent)
    (own : OwnSteps) (interrupt : Bool) :
    own.move (c.interrupting interrupt) stage.lax agent w = own.move c stage agent w := by
  cases own with
  | trying container trial todo outputs =>
    exact congrArg (followTrial container todo outputs) (trial.move_interrupting free w interrupt)
  | entering =>
    unfold move
    rw [Stage.lax_steps]
    rfl
  | pulled image =>
    unfold move followStart
    rw [Stage.lax_steps, Stage.lax_name]
    rfl
  | starting image wait =>
    unfold move followStart
    rw [Stage.lax_steps, Stage.lax_name]
    rfl
  | between container todo outputs => cases todo <;> rfl
  | leaving container result => cases container <;> rfl
  | _ => rfl

theorem isAwake_interrupting (free : c.cancelled = false) (own : OwnSteps) (interrupt : Bool) :
    own.isAwake (c.interrupting interrupt) w = own.isAwake c w := by
  cases own with
  | trying container trial todo outputs => exact trial.isAwake_interrupting free w interrupt
  | _ => rfl

/-- None of the steps has failed. -/
def Calm : OwnSteps → Prop
  | leaving _ result => result.failure = none
  | stopping _ _ result => result.failure = none
  | _ => True

end OwnSteps

namespace StageRun

mutual

/-- A stage under way in which nothing is said on failing fast. -/
def lax : StageRun → StageRun
  | fresh stage inherited => fresh stage.lax inherited
  | joining stage agent runs failure => joining stage.lax agent (laxAll runs) failure
  | working stage agent branches own => working stage.lax agent branches own
  | settled output failure => settled output failure
  | received output => received output

def laxAll : List StageRun → List StageRun
  | [] => []
  | run :: rest => run.lax :: laxAll rest

end

mutual

/-- Nothing in a stage has failed. -/
def Calm : StageRun → Prop
  | joining _ _ runs failure => failure = none ∧ AllCalm runs
  | working _ _ _ own => own.Calm
  | settled _ failure => failure = none
  | _ => True

def AllCalm : List StageRun → Prop
  | [] => True
  | run :: rest => run.Calm ∧ AllCalm rest

end

mutual

/-- Somewhere in a stage a step has just failed, or steps have no container to run in. -/
def hasFailed : StageRun → Bool
  | joining _ _ runs _ => anyHasFailed runs
  | working _ _ _ (.leaving _ result) => result.failure.isSome
  | settled _ (some (.container ..)) => true
  | _ => false

def anyHasFailed : List StageRun → Bool
  | [] => false
  | run :: rest => run.hasFailed || anyHasFailed rest

end

variable {c : Context} {w w' : World} {run run' : StageRun} {runs : List StageRun}
  {stage : Stage} {agent : Agent} {failure : Option StepError} {path : List Nat}

theorem laxAll_eq_map (runs : List StageRun) : laxAll runs = runs.map lax := by
  induction runs with
  | nil => rfl
  | cons run rest ih => rw [laxAll, ih, List.map_cons]

theorem lax_joining : (joining stage agent runs failure).lax =
    joining stage.lax agent (runs.map lax) failure := by
  rw [lax, laxAll_eq_map]

theorem allCalm_iff : AllCalm runs ↔ ∀ run ∈ runs, run.Calm := by
  induction runs with
  | nil => simp [AllCalm]
  | cons run rest ih => simp [AllCalm, ih]

theorem calm_joining :
    (joining stage agent runs failure).Calm ↔ failure = none ∧ ∀ run ∈ runs, run.Calm := by
  rw [Calm, allCalm_iff]

theorem anyHasFailed_eq_false : anyHasFailed runs = false ↔ ∀ run ∈ runs, run.hasFailed = false := by
  induction runs with
  | nil => simp [anyHasFailed]
  | cons run rest ih => simp [anyHasFailed, ih]

mutual

theorem calm_lax : ∀ run : StageRun, run.lax.Calm ↔ run.Calm
  | joining _ _ runs _ => and_congr Iff.rfl (allCalm_laxAll runs)
  | fresh .. => Iff.rfl
  | working .. => Iff.rfl
  | settled .. => Iff.rfl
  | received _ => Iff.rfl

theorem allCalm_laxAll : ∀ runs : List StageRun, AllCalm (laxAll runs) ↔ AllCalm runs
  | [] => Iff.rfl
  | run :: rest => and_congr (calm_lax run) (allCalm_laxAll rest)

end

/-- Calm runs that differ in nothing but the declarations are calm together. -/
theorem Calm.of_lax (calm : run.Calm) (same : run.lax = run'.lax) : run'.Calm := by
  rw [← calm_lax, ← same, calm_lax]
  exact calm

/-! ### Turns -/

theorem lax_ownSteps (branches : Option StageResults) :
    (ownSteps stage agent branches).lax = ownSteps stage.lax agent branches := by
  unfold ownSteps
  rw [Stage.lax_steps]
  split <;> simp [lax]

theorem lax_enter (inherited : Agent) : (enter stage inherited).lax = enter stage.lax inherited := by
  unfold enter
  simp only [Stage.lax_parallel, Stage.lax_effectiveAgent, List.isEmpty_map]
  split
  · exact lax_ownSteps _
  · rw [lax_joining, List.map_map, List.map_map]
    congr 1

theorem lax_leaveJoin (outputs : List StageOutput) :
    (leaveJoin stage agent outputs failure).lax = leaveJoin stage.lax agent outputs failure := by
  have results : resultsOf stage.lax.parallel outputs = resultsOf stage.parallel outputs := by
    simp only [resultsOf, Stage.lax_parallel, List.map_map]
    congr 2
    exact List.map_congr_left fun branch _ => Stage.lax_name branch
  unfold leaveJoin
  rw [results]
  cases failure with
  | some e => simp [lax]
  | none => exact lax_ownSteps _

theorem output?_lax (run : StageRun) : run.lax.output? = run.output? := by
  cases run <;> simp [lax, output?]

theorem outputs?_lax (runs : List StageRun) : outputs? (runs.map lax) = outputs? runs := by
  simp only [outputs?, List.mapM_map, Function.comp_def, output?_lax]

theorem isSettled_lax (run : StageRun) : run.lax.isSettled = run.isSettled := by
  cases run <;> simp [lax, isSettled]

mutual

theorem held_lax : ∀ run : StageRun, run.lax.held = run.held
  | joining _ _ runs _ => heldByAll_laxAll runs
  | fresh .. => rfl
  | working .. => rfl
  | settled .. => rfl
  | received _ => rfl

theorem heldByAll_laxAll : ∀ runs : List StageRun, heldByAll (laxAll runs) = heldByAll runs
  | [] => rfl
  | run :: rest => by
    rw [laxAll, heldByAll, heldByAll, held_lax run, heldByAll_laxAll rest]

end

mutual

theorem timers_lax : ∀ run : StageRun, run.lax.timers = run.timers
  | joining _ _ runs _ => timersOfAll_laxAll runs
  | fresh .. => rfl
  | working .. => rfl
  | settled .. => rfl
  | received _ => rfl

theorem timersOfAll_laxAll : ∀ runs : List StageRun, timersOfAll (laxAll runs) = timersOfAll runs
  | [] => rfl
  | run :: rest => by
    rw [laxAll, timersOfAll, timersOfAll, timers_lax run, timersOfAll_laxAll rest]

end

theorem outstanding?_lax (run : StageRun) : run.lax.outstanding? = run.outstanding? := by
  cases run with
  | joining stage agent runs failure =>
    rw [lax_joining]
    simp [outstanding?, List.filter_map, Function.comp_def, output?_lax]
  | _ => simp [lax, outstanding?]

theorem at?_lax (run : StageRun) (path : List Nat) :
    run.lax.at? path = (run.at? path).map lax := by
  induction path generalizing run with
  | nil => simp [at?]
  | cons i path ih =>
    cases run with
    | joining stage agent runs failure =>
      rw [lax_joining]
      simp only [at?, List.getElem?_map]
      cases runs[i]? with
      | none => rfl
      | some run => exact ih run
    | _ => simp [lax, at?]

theorem moveHere_lax (free : c.cancelled = false) (run : StageRun) (interrupt : Bool) :
    run.lax.moveHere (c.interrupting interrupt) w = (run.moveHere c w).map lax := by
  cases run with
  | fresh stage inherited => simp [lax, moveHere, Turn.map, lax_enter]
  | joining stage agent runs failure =>
    rw [lax_joining]
    simp only [moveHere, outputs?_lax]
    cases outputs? runs with
    | some outputs => simp [Turn.map, lax_leaveJoin]
    | none => rfl
  | working stage agent branches own =>
    rw [lax, moveHere, moveHere, OwnSteps.move_interrupting free]
    cases own.move c stage agent w <;> simp [followSteps, Turn.map, lax]
  | settled output failure => rfl
  | received output => rfl

theorem followBranch_lax (i : Nat) (turn : Turn StageRun Empty) :
    followBranch stage.lax agent (runs.map lax) failure i (turn.map lax) =
      (followBranch stage agent runs failure i turn).map lax := by
  cases turn with
  | moved w run => simp [Turn.map, followBranch, lax_joining, List.map_set]
  | crashed w reason held =>
    have others : (runs.map lax).eraseIdx i = laxAll (runs.eraseIdx i) := by
      rw [laxAll_eq_map, List.eraseIdx_eq_take_drop_succ, List.eraseIdx_eq_take_drop_succ]
      simp
    simp only [Turn.map, followBranch, others, heldByAll_laxAll]
  | blocked => rfl
  | ended w value => cases value

/-- What is around a branch of a calm stage differs in whether it is interrupted only. -/
theorem inside_lax (i : Nat) (interrupt : Bool) :
    Context.inside (c.interrupting interrupt) stage.lax failure i =
      (Context.inside c stage failure i).interrupting false := by
  simp [Context.inside, Context.interrupting]

theorem inside_free (free : c.cancelled = false) (calm : failure = none) (i : Nat) :
    (Context.inside c stage failure i).cancelled = false := by
  simp [Context.inside, free, calm]

/-- A calm stage has the same turns without the declarations. -/
theorem move_lax (calm : run.Calm) (free : c.cancelled = false) (interrupt : Bool) :
    run.lax.move (c.interrupting interrupt) w path = (run.move c w path).map lax := by
  induction path generalizing c run interrupt with
  | nil => simpa [move] using moveHere_lax free run interrupt
  | cons i path ih =>
    cases run with
    | joining stage agent runs failure =>
      obtain ⟨none_yet, calm⟩ := calm_joining.mp calm
      rw [lax_joining]
      cases there : runs[i]? with
      | none => simp [move, there, Turn.map]
      | some run =>
        have there' : (runs.map lax)[i]? = some run.lax := by simp [there]
        cases hs : run.isSettled with
        | false =>
          rw [move_unsettled there hs, move_unsettled there' ((isSettled_lax run).trans hs),
            inside_lax, ih (calm run (List.mem_of_getElem? there)) (inside_free free none_yet i),
            followBranch_lax]
        | true =>
          cases run with
          | settled output outcome =>
            have there' : (runs.map lax)[i]? = some (settled output outcome) := by
              rw [there', lax]
            have received : (received output).lax = received output := by rw [lax]
            simp only [move, there, there', Turn.map, lax_joining, List.map_set, received]
            rfl
          | _ => cases hs
    | _ => simp [lax, move, Turn.map]

mutual

/-- In a calm stage the same places are awake without the declarations. -/
theorem awake_lax (c : Context) (free : c.cancelled = false) (interrupt : Bool) :
    ∀ run : StageRun, run.Calm →
      run.lax.awake (c.interrupting interrupt) w = run.awake c w
  | joining stage agent runs failure, calm =>
    awakeAmong_laxAll c free interrupt stage failure calm.1 0 runs calm.2
  | working stage agent branches own, _ => by
    rw [lax, awake, awake, OwnSteps.isAwake_interrupting free]
  | fresh .., _ => rfl
  | settled .., _ => rfl
  | received _, _ => rfl

theorem awakeAmong_laxAll (c : Context) (free : c.cancelled = false) (interrupt : Bool)
    (stage : Stage) (failure : Option StepError) (none_yet : failure = none) (i : Nat) :
    ∀ runs : List StageRun, AllCalm runs →
      awakeAmong (c.interrupting interrupt) w stage.lax failure i (laxAll runs) =
        awakeAmong c w stage failure i runs
  | [], _ => rfl
  | run :: rest, calm => by
    rw [laxAll, awakeAmong, awakeAmong, inside_lax,
      awake_lax _ (inside_free free none_yet i) false run calm.1,
      awakeAmong_laxAll c free interrupt stage failure none_yet (i + 1) rest calm.2]

end

/-! ### Calm is kept -/

theorem calm_ownSteps (branches : Option StageResults) : (ownSteps stage agent branches).Calm :=
  ownSteps_cases branches (fun _ => rfl) trivial

theorem calm_of_goes {own own' : OwnSteps} {events : List Event}
    (goes : own.Goes c stage agent events own') (calm : own.Calm) (branches : Option StageResults)
    (well : (working stage agent branches own').hasFailed = false) : own'.Calm := by
  cases goes with
  | cancelled | unresolved | fails => simp [hasFailed] at well
  | stopping stops wait => cases stops <;> exact calm
  | through => rfl
  | _ => trivial

theorem calm_of_ends {own : OwnSteps} {events : List Event} {result : StepsResult}
    (ends : own.Ends c agent events result) (calm : own.Calm) (free : c.cancelled = false)
    (output : StageOutput) (well : (settled output result.failure).hasFailed = false) :
    result.failure = none := by
  cases ends with
  | cancelled docker cancelled => simp [free] at cancelled
  | unpulled fetches cause => simp [OwnSteps.withoutContainer, hasFailed] at well
  | unstarted starts cause => simp [OwnSteps.withoutContainer, hasFailed] at well
  | host => exact calm
  | stopped stops => cases stops <;> exact calm

/-- A turn leaves a stage calm unless it lets a step fail, or its container. -/
theorem Calm.move (calm : run.Calm) (free : c.cancelled = false)
    (moved : run.move c w path = .moved w' run') (well : run'.hasFailed = false) : run'.Calm := by
  induction path generalizing c run run' with
  | nil =>
    cases turned_of_move moved with
    | enters =>
      refine enter_cases (fun _ => calm_ownSteps _) (calm_joining.mpr ⟨rfl, ?_⟩)
      simp [Calm]
    | leaves all =>
      refine leaveJoin_cases _ _ (fun output e failed => ?_) fun _ _ => calm_ownSteps _
      cases failed.symm.trans (calm_joining.mp calm).1
    | works noted goes => exact calm_of_goes goes calm _ well
    | settles noted ends => exact calm_of_ends ends calm free _ well
  | cons i path ih =>
    cases turned_of_move moved with
    | @receives stage agent runs failure _ _ output outcome there =>
      obtain ⟨none_yet, calm⟩ := calm_joining.mp calm
      have well : outcome = none := calm _ (List.mem_of_getElem? there)
      refine calm_joining.mpr ⟨by simp [none_yet, well], fun run mem => ?_⟩
      rcases List.mem_or_eq_of_mem_set mem with mem | rfl
      · exact calm run mem
      · trivial
    | @inside stage agent runs failure _ _ run run' _ there unsettled inner =>
      obtain ⟨none_yet, calm⟩ := calm_joining.mp calm
      have all_well := anyHasFailed_eq_false.mp well
      have bound : i < runs.length := (List.getElem?_eq_some_iff.mp there).1
      have calm' : run'.Calm :=
        ih (calm run (List.mem_of_getElem? there)) (inside_free free none_yet i) inner
          (all_well run' (List.mem_set bound run'))
      refine calm_joining.mpr ⟨none_yet, fun run mem => ?_⟩
      rcases List.mem_or_eq_of_mem_set mem with mem | rfl
      · exact calm run mem
      · exact calm'

end StageRun

namespace Execution

def Phase.lax : Phase → Phase
  | between workflow index todo results => between workflow index (todo.map Stage.lax) results
  | inStage workflow index stage run todo results =>
    inStage workflow index stage run.lax (todo.map Stage.lax) results
  | phase => phase

/-- An execution in which nothing is said on failing fast. -/
def lax (e : Execution) : Execution := { e with pipeline := e.pipeline.lax, phase := e.phase.lax }

/-- Nothing in the stage under way has failed. -/
def Calm (e : Execution) : Prop :=
  match e.phase with
  | .inStage _ _ _ run _ _ => run.Calm
  | _ => True

/-- Somewhere in the stage under way a step has just failed, or steps have no container to run
in. -/
def hasFailed (e : Execution) : Bool :=
  match e.phase with
  | .inStage _ _ _ run _ _ => run.hasFailed
  | _ => false

variable {engine : Engine} {e e' x y after : Execution} {w w' : World} {path : List Nat}

theorem calm_lax : e.lax.Calm ↔ e.Calm := by
  obtain ⟨pipeline, properties, state, phase, rota⟩ := e
  cases phase with
  | inStage workflow index name run todo results => exact StageRun.calm_lax run
  | _ => rfl

theorem Calm.of_lax (calm : x.Calm) (same : x.lax = y.lax) : y.Calm := by
  rw [← calm_lax, ← same, calm_lax]
  exact calm

theorem begin_lax : e.lax.begin w = (e.begin w).map lax := by
  obtain ⟨pipeline, properties, state, phase, rota⟩ := e
  simp only [begin, lax]
  split <;> rfl

theorem followStage_lax (workflow : String) (index : Nat) (name : String) (todo : List Stage)
    (results : StageResults) (turn : Turn StageRun Empty) :
    e.lax.followStage workflow index name (todo.map Stage.lax) results (turn.map StageRun.lax) =
      (e.followStage workflow index name todo results turn).map lax := by
  cases turn <;> rfl

/-- A calm execution has the same turns without the declarations. -/
theorem move_lax (calm : e.Calm) : e.lax.move engine w path = (e.move engine w path).map lax := by
  obtain ⟨pipeline, properties, state, phase, rota⟩ := e
  cases phase with
  | fresh => exact begin_lax
  | between workflow index todo results =>
    cases todo with
    | nil => rfl
    | cons stage todo =>
      simp only [move, lax, Phase.lax, List.map_cons, Stage.lax_name, Turn.map, StageRun.lax]
      rfl
  | inStage workflow index name run todo results =>
    cases hs : run.isSettled with
    | false =>
      refine (move_unsettled rfl ((StageRun.isSettled_lax run).trans hs)).trans ?_
      refine Eq.trans ?_ (congrArg (Turn.map lax) (move_unsettled rfl hs)).symm
      rw [← followStage_lax, ← StageRun.move_lax calm rfl false]
      rfl
    | true =>
      cases run with
      | settled output failure => cases failure <;> rfl
      | _ => cases hs
  | _ => rfl

/-- A turn leaves an execution calm unless it lets a step fail, or a container. -/
theorem Calm.move (calm : e.Calm) (moved : e.move engine w path = .moved w' e')
    (well : e'.hasFailed = false) : e'.Calm := by
  obtain ⟨pipeline, properties, state, phase, rota⟩ := e
  cases phase with
  | fresh =>
    simp only [Execution.move, begin] at moved
    split at moved <;> cases moved <;> trivial
  | between workflow index todo results => cases todo <;> cases moved <;> trivial
  | inStage workflow index name run todo results =>
    cases hs : run.isSettled with
    | false =>
      rw [move_unsettled rfl hs] at moved
      cases hr : run.move (outermost engine workflow index) w path with
      | moved w₁ run' =>
        rw [hr] at moved
        cases moved
        exact StageRun.Calm.move calm rfl hr well
      | _ => simp [hr, followStage] at moved
    | true =>
      cases run with
      | settled output failure => cases failure <;> cases moved <;> trivial
      | _ => cases hs
  | _ => cases moved

theorem Calm.step (calm : e.Calm) (stepped : e.step engine w = .moved w' e')
    (well : e'.hasFailed = false) : e'.Calm := by
  rcases step_moved stepped with ⟨after, rota, moved, rfl⟩ | ⟨-, rota, rfl⟩
  · have still : after.hasFailed = false := well
    exact (calm.move moved still : after.Calm)
  · exact calm

theorem calm_wake (calm : e.Calm) : (e.wake engine w).Calm := by
  obtain ⟨rota, woken⟩ := @wake_eq engine e w
  rw [woken]
  exact calm

theorem timers_lax : e.lax.timers = e.timers := by
  obtain ⟨pipeline, properties, state, phase, rota⟩ := e
  cases phase with
  | inStage workflow index name run todo results => exact StageRun.timers_lax run
  | _ => rfl

theorem result?_lax : e.lax.result? = e.result? := by
  obtain ⟨pipeline, properties, state, phase, rota⟩ := e
  cases phase <;> rfl

theorem at?_lax (place : List Nat) : e.lax.at? place = (e.at? place).map StageRun.lax := by
  obtain ⟨pipeline, properties, state, phase, rota⟩ := e
  cases phase with
  | inStage workflow index name run todo results => exact StageRun.at?_lax run place
  | _ => rfl

theorem outstanding?_lax (place : List Nat) : e.lax.outstanding? place = e.outstanding? place := by
  unfold outstanding?
  rw [at?_lax]
  cases e.at? place with
  | none => rfl
  | some run => exact StageRun.outstanding?_lax run

theorem isNews_lax (place : List Nat) : e.lax.isNews place = e.isNews place := by
  unfold isNews
  rw [at?_lax]
  cases place with
  | nil => rfl
  | cons =>
    cases e.at? _ with
    | none => rfl
    | some run => exact StageRun.isSettled_lax run

theorem wake_lax (calm : e.Calm) : (e.wake engine w).lax = e.lax.wake engine w := by
  obtain ⟨pipeline, properties, state, phase, rota⟩ := e
  cases phase with
  | inStage workflow index name run todo results =>
    have same : run.lax.awake (outermost engine workflow index) w =
        run.awake (outermost engine workflow index) w :=
      StageRun.awake_lax (outermost engine workflow index) rfl false run calm
    simp only [wake, lax, Phase.lax]
    rw [same]
  | _ => rfl

theorem giveWay_lax (place : List Nat) : (e.giveWay place).lax = e.lax.giveWay place := by
  unfold giveWay
  rw [outstanding?_lax]
  cases e.outstanding? place <;> rfl

theorem follow_lax (calm : after.Calm) (place : List Nat) :
    (e.follow engine place w after).lax = e.lax.follow engine place w after.lax := by
  unfold follow
  rw [isNews_lax]
  split
  · dsimp only
    rw [← wake_lax calm, outstanding?_lax]
    rfl
  · rw [outstanding?_lax, outstanding?_lax]
    split <;> rfl

/-- A calm execution makes the same step, if its turn leaves it calm. -/
theorem step_lax (calm : e.Calm) (kept : e.rota.onTurn = true →
      ∀ w' after, e.move engine w e.rota.place = .moved w' after → after.Calm) :
    e.lax.step engine w = (e.step engine w).map lax := by
  have turn : e.lax.move engine w e.rota.place = (e.move engine w e.rota.place).map lax :=
    move_lax calm
  have rota : e.lax.rota = e.rota := rfl
  unfold step
  rw [rota]
  split
  next on =>
    dsimp only
    rw [turn]
    cases moved : e.move engine w e.rota.place with
    | moved w' after => simp only [Turn.map, follow_lax (kept on _ _ moved)]
    | crashed w' reason held => rfl
    | blocked => simp only [Turn.map, giveWay_lax]
    | ended w' value => cases value
  next => split <;> rfl

/-- Executions that differ in nothing but the declarations make the same step as long as nothing
fails in one of them. -/
theorem step_of_lax (same : x.lax = y.lax) (calm : x.Calm)
    (well : ∀ w' x', x.step engine w = .moved w' x' → x'.hasFailed = false) :
    (x.step engine w).map lax = (y.step engine w).map lax := by
  have rota : x.rota = y.rota :=
    show x.lax.rota = y.lax.rota by rw [same]
  have turn : (x.move engine w x.rota.place).map lax = (y.move engine w y.rota.place).map lax := by
    rw [← move_lax calm, ← move_lax (calm.of_lax same), same, rota]
  have kept (on : x.rota.onTurn = true) (w' : World) (after : Execution)
      (moved : x.move engine w x.rota.place = .moved w' after) : after.Calm := by
    obtain ⟨rota', followed⟩ := @follow_eq engine x w' x.rota.place after
    exact calm.move moved (well w' { after with rota := rota' } (by simp [step, on, moved, followed]))
  rw [← step_lax calm kept, ← step_lax (calm.of_lax same), same]
  intro on w' after moved
  rw [moved] at turn
  cases hx : x.move engine w x.rota.place with
  | moved w₁ after₁ =>
    rw [hx] at turn
    simp only [Turn.map, Turn.moved.injEq] at turn
    exact (kept (rota ▸ on) _ _ hx).of_lax turn.2
  | _ => simp [hx, Turn.map] at turn

end Execution

/-! ### Runs -/

namespace Clockwork

variable {σ : Type} {m : Clockwork σ} {halted : σ → Bool} {s : σ}

/-- What is settled and has halted stays as it is. -/
theorem runWithin_of_halted (rests : m.step s = none) (ended : halted s = true)
    (limit : Option Nat) (fuel : Nat) : m.runWithin halted limit fuel s = s := by
  cases fuel with
  | zero => rfl
  | succ fuel => simp [runWithin, rests, ended]

/-- A run that has come to its end stays there. -/
theorem runWithin_eq_of_halted {limit : Option Nat} {fuel : Nat}
    (rests : m.step (m.runWithin halted limit fuel s) = none)
    (ended : halted (m.runWithin halted limit fuel s) = true) (more : Nat) :
    m.runWithin halted limit (fuel + more) s = m.runWithin halted limit fuel s := by
  induction fuel generalizing s with
  | zero =>
    rw [Nat.zero_add]
    exact runWithin_of_halted rests ended limit more
  | succ fuel ih =>
    rw [Nat.succ_add]
    unfold runWithin at rests ended ⊢
    split
    next s' stepped =>
      simp only [stepped] at rests ended
      exact ih rests ended
    next rested =>
      simp only [rested] at rests ended
      split
      · rfl
      next unended =>
        rw [if_neg unended] at rests ended
        split
        next t due =>
          simp only [due] at rests ended
          split
          next before =>
            rw [if_pos before] at rests ended
            exact ih rests ended
          next => rfl
        next => rfl

end Clockwork

namespace SoloExecution

variable {x x' y : SoloExecution}

/-- An execution by itself in which nothing is said on failing fast. -/
def lax (s : SoloExecution) : SoloExecution := { s with execution := s.execution.lax }

theorem timers_of_lax (same : x.lax = y.lax) : x.timers = y.timers := by
  have timers (s : SoloExecution) : s.lax.timers = s.timers := by
    simp only [SoloExecution.timers, lax, Execution.timers_lax]
  rw [← timers x, same, timers y]

theorem hasHalted_of_lax (same : x.lax = y.lax) : x.hasHalted = y.hasHalted := by
  have halted (s : SoloExecution) : s.lax.hasHalted = s.hasHalted := by
    obtain ⟨engine, world, ⟨pipeline, properties, state, phase, rota⟩, cleanups⟩ := s
    cases phase <;> rfl
  rw [← halted x, same, halted y]

/-- No step fails in a run to come, and no container either. -/
def Smooth (x : SoloExecution) : Prop :=
  ∀ fuel, (clockwork.runWithin hasHalted none fuel x).execution.hasFailed = false

theorem Smooth.here (smooth : x.Smooth) : x.execution.hasFailed = false := smooth 0

theorem Smooth.step (smooth : x.Smooth) (stepped : x.step = some x') : x'.Smooth := by
  intro fuel
  have later := smooth (fuel + 1)
  unfold Clockwork.runWithin at later
  rw [show clockwork.step x = some x' from stepped] at later
  exact later

theorem Smooth.moveTo {t : Nat} (smooth : x.Smooth) (rests : x.step = none)
    (unended : x.hasHalted = false) (due : clockwork.nextDue x = some t) :
    (clockwork.moveTo t x).Smooth := by
  intro fuel
  have later := smooth (fuel + 1)
  unfold Clockwork.runWithin at later
  rw [show clockwork.step x = none from rests] at later
  simpa [unended, due, Clockwork.isBefore] using later

/-- Two executions by themselves that differ in nothing but the declarations; nothing has failed in
them, and nothing will fail in the first one. -/
structure Alike (x y : SoloExecution) : Prop where
  same : x.lax = y.lax
  calm : x.execution.Calm
  smooth : x.Smooth

/-- Two executions by themselves have come to the same: the worlds, with the clocks, the logs and all
that has happened, the state of the workflow, the result if there is one, and what is still to be
stopped. -/
structure Agree (x y : SoloExecution) : Prop where
  world : x.world = y.world
  state : x.execution.state = y.execution.state
  halted : x.hasHalted = y.hasHalted
  result : x.execution.result? = y.execution.result?
  cleanups : x.cleanups = y.cleanups

theorem Alike.agree (alike : Alike x y) : Agree x y := by
  have execution : x.execution.lax = y.execution.lax :=
    show x.lax.execution = y.lax.execution by rw [alike.same]
  refine ⟨?_, ?_, hasHalted_of_lax alike.same, ?_, ?_⟩
  · exact show x.lax.world = y.lax.world by rw [alike.same]
  · exact show x.execution.lax.state = y.execution.lax.state by rw [execution]
  · rw [← Execution.result?_lax, execution, Execution.result?_lax]
  · exact show x.lax.cleanups = y.lax.cleanups by rw [alike.same]

theorem Alike.step_lax (alike : Alike x y) : x.step.map lax = y.step.map lax := by
  obtain ⟨engine, world, e, cleanups⟩ := x
  obtain ⟨engine', world', e', cleanups'⟩ := y
  obtain ⟨same, calm, smooth⟩ := alike
  simp only [lax, SoloExecution.mk.injEq] at same
  obtain ⟨rfl, rfl, same, rfl⟩ := same
  have well (w' : World) (after : Execution) (stepped : e.step engine world = .moved w' after) :
      after.hasFailed = false := by
    have step : SoloExecution.step ⟨engine, world, e, cleanups⟩ =
        some ⟨engine, w', after, cleanups⟩ := by
      simp [SoloExecution.step, stepped]
    exact (smooth.step step).here
  have turns := Execution.step_of_lax same calm well
  have crashed (reason : String) : ({ e with phase := .crashed reason } : Execution).lax =
      ({ e' with phase := .crashed reason } : Execution).lax := by
    simp only [Execution.lax, Execution.mk.injEq] at same
    simp [Execution.lax, same, Execution.Phase.lax]
  unfold SoloExecution.step
  dsimp only
  cases hx : e.step engine world <;> cases hy : e'.step engine world <;>
    simp only [hx, hy, Turn.map, Turn.moved.injEq, Turn.crashed.injEq, reduceCtorEq] at turns
  case blocked.blocked => simp [lax, same, Function.comp_def]
  case moved.moved => simp [lax, turns]
  case crashed.crashed => simp [lax, turns, crashed]
  case ended.ended value _ _ => cases value

theorem Alike.step (alike : Alike x y) (stepped : x.step = some x') :
    ∃ y', y.step = some y' ∧ Alike x' y' := by
  have both := alike.step_lax
  rw [stepped, Option.map_some] at both
  obtain ⟨y', stepped', same⟩ := Option.map_eq_some_iff.mp both.symm
  have smooth := alike.smooth.step stepped
  refine ⟨y', stepped', same.symm, ?_, smooth⟩
  unfold SoloExecution.step at stepped
  split at stepped
  next moved =>
    cases stepped
    exact alike.calm.step moved smooth.here
  next =>
    cases stepped
    trivial
  next =>
    obtain ⟨_, -, rfl⟩ := Option.map_eq_some_iff.mp stepped
    exact alike.calm

theorem Alike.rests (alike : Alike x y) (rests : x.step = none) : y.step = none := by
  have both := alike.step_lax
  rw [rests, Option.map_none] at both
  exact Option.map_eq_none_iff.mp both.symm

theorem Alike.nextDue (alike : Alike x y) : clockwork.nextDue x = clockwork.nextDue y := by
  simp only [clockwork, timers_of_lax alike.same]

/-- Both go on to the same instant. -/
theorem Alike.moveTo {t : Nat} (alike : Alike x y) (rests : x.step = none)
    (unended : x.hasHalted = false) (due : clockwork.nextDue x = some t) :
    Alike (clockwork.moveTo t x) (clockwork.moveTo t y) := by
  refine ⟨?_, Execution.calm_wake alike.calm, alike.smooth.moveTo rests unended due⟩
  obtain ⟨engine, world, e, cleanups⟩ := x
  obtain ⟨engine', world', e', cleanups'⟩ := y
  obtain ⟨same, calm, -⟩ := alike
  simp only [lax, SoloExecution.mk.injEq] at same
  obtain ⟨rfl, rfl, same, rfl⟩ := same
  simp only [clockwork, lax, Execution.wake_lax calm, Execution.wake_lax (calm.of_lax same), same]

/-- After any number of steps and instants both have come equally far. -/
theorem Alike.runWithin (alike : Alike x y) (fuel : Nat) :
    Alike (clockwork.runWithin hasHalted none fuel x)
      (clockwork.runWithin hasHalted none fuel y) := by
  induction fuel generalizing x y with
  | zero => exact alike
  | succ fuel ih =>
    unfold Clockwork.runWithin
    cases stepped : x.step with
    | some x' =>
      obtain ⟨y', stepped', alike'⟩ := alike.step stepped
      rw [show clockwork.step x = some x' from stepped,
        show clockwork.step y = some y' from stepped']
      exact ih alike'
    | none =>
      rw [show clockwork.step x = none from stepped,
        show clockwork.step y = none from alike.rests stepped, ← hasHalted_of_lax alike.same,
        ← alike.nextDue]
      dsimp only
      cases halted : x.hasHalted with
      | true => exact alike
      | false =>
        cases due : clockwork.nextDue x with
        | none => exact alike
        | some t => exact ih (alike.moveTo stepped halted due)

theorem Alike.turnWithin (alike : Alike x y) (fuel : Nat) :
    Alike (turnWithin fuel x) (turnWithin fuel y) := by
  induction fuel generalizing x y with
  | zero => exact alike
  | succ fuel ih =>
    unfold SoloExecution.turnWithin
    cases stepped : x.step with
    | some x' =>
      obtain ⟨y', stepped', alike'⟩ := alike.step stepped
      have rota : x'.execution.rota = y'.execution.rota :=
        show x'.lax.execution.rota = y'.lax.execution.rota by rw [alike'.same]
      rw [stepped']
      dsimp only
      rw [← hasHalted_of_lax alike'.same, ← rota]
      split
      · exact alike'
      · exact ih alike'
    | none =>
      rw [alike.rests stepped]
      exact alike

theorem Alike.run (alike : Alike x y) : Alike (x.run []) (y.run []) := by
  have first : Alike x.turn y.turn := alike.turnWithin _
  unfold SoloExecution.run
  dsimp only
  rw [← hasHalted_of_lax first.same]
  split
  · exact first
  · exact first.runWithin _

/-- What fails fast does not show without a failure. Two pipelines may differ in what their stages,
at any depth, declare on failing fast. If, in a run of the first one, no step ever fails and every
container comes up, then the second one has come to the same after as many steps and instants, and
at its end: with the same calls at the same times and with the same parameters, the same log entries
and the same report. -/
theorem fail_fast_does_not_show {p q : Pipeline} (same : p.lax = q.lax) (engine : Engine)
    (world : World) (properties : Properties) (state : StateCell)
    (well : ∀ fuel, (clockwork.runWithin hasHalted none fuel
      (fresh engine world p properties state)).execution.hasFailed = false) :
    (∀ fuel, Agree
      (clockwork.runWithin hasHalted none fuel (fresh engine world p properties state))
      (clockwork.runWithin hasHalted none fuel (fresh engine world q properties state))) ∧
    Agree ((fresh engine world p properties state).run [])
      ((fresh engine world q properties state).run []) := by
  have begins : Alike (fresh engine world p properties state)
      (fresh engine world q properties state) :=
    ⟨by simp [fresh, lax, Execution.lax, same, Execution.Phase.lax], trivial, well⟩
  exact ⟨fun fuel => (begins.runWithin fuel).agree, begins.run.agree⟩

end SoloExecution

/-! ### Two runs without a failure -/

namespace Execution.Duo

/-- Some branches have containers, and some have branches of their own. -/
def calmPipeline (outer inner : Option Bool) : Pipeline where
  agent := .none
  stages := [
    { name := "build"
      failFast := outer
      parallel := [
        { name := "left", agent := some (.docker "box"), steps := [.single "pass" ""] },
        { name := "right"
          failFast := inner
          parallel := [{ name := "inner", steps := [.single "pass" ""] }]
          steps := [.single "pass" ""] }] }]

def calmRun (outer inner : Option Bool) (fuel : Nat) : SoloExecution :=
  SoloExecution.clockwork.runWithin SoloExecution.hasHalted none fuel
    (SoloExecution.fresh engine slowWorld (calmPipeline outer inner) properties ⟨.pending, 0⟩)

theorem calmRun_over (outer inner : Option Bool) {fuel : Nat}
    (rests : (SoloExecution.clockwork.step (calmRun outer inner fuel)).isNone = true)
    (ended : (calmRun outer inner fuel).hasHalted = true) (more : Nat) :
    calmRun outer inner (fuel + more) = calmRun outer inner fuel :=
  Clockwork.runWithin_eq_of_halted (Option.isNone_iff_eq_none.mp rests) ended more

/-- Whichever of the stages fails fast, the runs are the same up to their end. -/
theorem calm_runs_agree :
    SoloExecution.Agree (calmRun (some true) (some false) 60) (calmRun none (some true) 60) ∧
      (calmRun (some true) (some false) 60).hasHalted = true := by
  have ended : (calmRun (some true) (some false) 60).hasHalted = true := by decide +kernel
  have rests : (SoloExecution.clockwork.step (calmRun (some true) (some false) 60)).isNone = true := by
    decide +kernel
  have begun : ∀ fuel < 61, (calmRun (some true) (some false) fuel).execution.hasFailed = false := by
    decide +kernel
  have well (fuel : Nat) : (calmRun (some true) (some false) fuel).execution.hasFailed = false := by
    by_cases early : fuel < 61
    · exact begun fuel early
    · obtain ⟨more, rfl⟩ := Nat.exists_eq_add_of_le (show 60 ≤ fuel by omega)
      rw [calmRun_over _ _ rests ended]
      exact begun 60 (by omega)
  have same : (calmPipeline (some true) (some false)).lax = (calmPipeline none (some true)).lax := rfl
  exact ⟨(SoloExecution.fail_fast_does_not_show same engine slowWorld properties ⟨.pending, 0⟩
    well).1 60, ended⟩

end Execution.Duo
end PipelineRunner
