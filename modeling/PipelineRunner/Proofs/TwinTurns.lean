import PipelineRunner.Proofs.TurnsAtPlaces
import PipelineRunner.Proofs.TwinSteps

/-! Turns of the same execution in two runs. Whatever the worlds are otherwise, a turn at the same
place comes to the same; and since the rota only looks at what the execution is doing and at which
timers are due, the next turn is at the same place again. -/

namespace PipelineRunner

variable {κ : Type} {p : Twins κ} {c : Context} {place : Place} {w w' : World}

/-! ### Stages -/

namespace StageRun

mutual

/-- A stage that has come as far in the one run as in the other. -/
inductive Alike (p : Twins κ) : StageRun → StageRun → Prop where
  | fresh (stage : Stage) (inherited : Agent) :
    Alike p (.fresh stage inherited) (.fresh stage inherited)
  | joining (stage : Stage) (agent : Agent) (failure : Option StepError)
      {runs runs' : List StageRun} (branches : AllAlike p runs runs') :
    Alike p (.joining stage agent runs failure) (.joining stage agent runs' failure)
  | working (stage : Stage) (agent : Agent) (branches : Option StageResults) {own own' : OwnSteps}
      (steps : own.Alike p own') :
    Alike p (.working stage agent branches own) (.working stage agent branches own')
  | settled (output : StageOutput) (failure : Option StepError) :
    Alike p (.settled output failure) (.settled output failure)
  | received (output : StageOutput) : Alike p (.received output) (.received output)

inductive AllAlike (p : Twins κ) : List StageRun → List StageRun → Prop where
  | nil : AllAlike p [] []
  | cons {run run' : StageRun} {rest rest' : List StageRun} (first : Alike p run run')
      (others : AllAlike p rest rest') : AllAlike p (run :: rest) (run' :: rest')

end

variable {stage : Stage} {agent inherited : Agent} {failure : Option StepError}
  {run run' : StageRun} {runs runs' : List StageRun} {path : List Nat}

theorem AllAlike.there (alike : AllAlike p runs runs') (i : Nat) :
    runs[i]? = none ∧ runs'[i]? = none ∨
      ∃ run run', runs[i]? = some run ∧ runs'[i]? = some run' ∧ run.Alike p run' := by
  induction i generalizing runs runs' with
  | zero =>
    cases alike with
    | nil => exact .inl ⟨rfl, rfl⟩
    | cons first others => exact .inr ⟨_, _, rfl, rfl, first⟩
  | succ i ih =>
    cases alike with
    | nil => exact .inl ⟨rfl, rfl⟩
    | cons first others => exact ih others

theorem AllAlike.set (alike : AllAlike p runs runs') (i : Nat) (new : run.Alike p run') :
    AllAlike p (runs.set i run) (runs'.set i run') := by
  induction i generalizing runs runs' with
  | zero =>
    cases alike with
    | nil => exact .nil
    | cons first others => exact .cons new others
  | succ i ih =>
    cases alike with
    | nil => exact .nil
    | cons first others => exact .cons first (ih others)

theorem Alike.isSettled (alike : run.Alike p run') : run.isSettled = run'.isSettled := by
  cases alike <;> rfl

theorem Alike.output? (alike : run.Alike p run') : run.output? = run'.output? := by
  cases alike <;> rfl

theorem AllAlike.outputs? (alike : AllAlike p runs runs') : outputs? runs = outputs? runs' := by
  induction runs generalizing runs' with
  | nil =>
    cases alike
    rfl
  | cons run rest ih =>
    cases alike with
    | cons first others =>
      have later := ih others
      simp only [StageRun.outputs?] at later
      simp only [StageRun.outputs?, List.mapM_cons, first.output?, later]

theorem AllAlike.outstanding (alike : AllAlike p runs runs') :
    (runs.filter fun run => run.output?.isNone).length =
      (runs'.filter fun run => run.output?.isNone).length := by
  induction runs generalizing runs' with
  | nil =>
    cases alike
    rfl
  | cons run rest ih =>
    cases alike with
    | cons first others =>
      rw [List.filter_cons, List.filter_cons, first.output?]
      split
      · simpa using ih others
      · exact ih others

theorem Alike.outstanding? (alike : run.Alike p run') : run.outstanding? = run'.outstanding? := by
  cases alike with
  | joining stage agent failure branches => exact congrArg some branches.outstanding
  | _ => rfl

theorem alike_ownSteps (branches : Option StageResults) :
    (ownSteps stage agent branches).Alike p (ownSteps stage agent branches) :=
  ownSteps_cases branches (fun _ => .settled _ _) (.working _ _ _ .entering)

theorem alike_enter : (enter stage inherited).Alike p (enter stage inherited) := by
  refine enter_cases (fun _ => alike_ownSteps _) (.joining _ _ _ ?_)
  induction stage.parallel with
  | nil => exact .nil
  | cons branch rest ih => exact .cons (.fresh _ _) ih

theorem alike_leaveJoin (outputs : List StageOutput) :
    (leaveJoin stage agent outputs failure).Alike p (leaveJoin stage agent outputs failure) :=
  leaveJoin_cases outputs failure (fun _ _ _ => .settled _ _) fun _ _ => alike_ownSteps _

theorem followSteps_alike (branches : Option StageResults) {turn turn' : Turn OwnSteps StepsResult}
    (turns : turn.Alike p (OwnSteps.Alike p) turn') :
    (followSteps stage agent branches turn).Alike p (StageRun.Alike p)
      (followSteps stage agent branches turn') := by
  cases turns with
  | blocked => exact .blocked
  | moved abreast steps => exact .moved abreast (.working _ _ _ steps)
  | ended abreast result => exact .moved abreast (.settled _ _)
  | crashed abreast reason => exact .crashed abreast reason _ _

theorem Alike.moveHere (alike : run.Alike p run') (around : c.Twin p place)
    (abreast : w.Abreast p w') :
    (run.moveHere c w).Alike p (StageRun.Alike p) (run'.moveHere { c with place } w') := by
  cases alike with
  | fresh stage inherited => exact .moved abreast alike_enter
  | joining stage agent failure branches =>
    simp only [StageRun.moveHere, branches.outputs?]
    split
    · exact .moved abreast (alike_leaveJoin _)
    · exact .blocked
  | working stage agent branches steps =>
    exact followSteps_alike branches (steps.move around abreast)
  | settled | received => exact .blocked

theorem AllAlike.followBranch (alike : AllAlike p runs runs') (i : Nat)
    {turn turn' : Turn StageRun Empty} (turns : turn.Alike p (StageRun.Alike p) turn') :
    (StageRun.followBranch stage agent runs failure i turn).Alike p (StageRun.Alike p)
      (StageRun.followBranch stage agent runs' failure i turn') := by
  cases turns with
  | blocked => exact .blocked
  | moved abreast new => exact .moved abreast (.joining _ _ _ (alike.set i new))
  | ended abreast value => cases value
  | crashed abreast reason => exact .crashed abreast reason _ _

/-- Below a stage, too, the same is around the other run, but for the place. -/
theorem twin_inside (around : c.Twin p place) (stage : Stage) (failure : Option StepError)
    (i : Nat) : (Context.inside c stage failure i).Twin p (place.branch i) :=
  ⟨around.engine, around.workflow, around.workflow'⟩

/-- Turns at the same place of the same stage come to the same. -/
theorem Alike.move (alike : run.Alike p run') (around : c.Twin p place) (abreast : w.Abreast p w') :
    (run.move c w path).Alike p (StageRun.Alike p) (run'.move { c with place } w' path) := by
  induction path generalizing c place run run' with
  | nil => simpa [StageRun.move] using alike.moveHere around abreast
  | cons i path ih =>
    cases alike with
    | joining stage agent failure branches =>
      rcases branches.there i with ⟨there, there'⟩ | ⟨run, run', there, there', alike⟩
      · simp only [StageRun.move, there, there']
        exact .blocked
      cases hs : run.isSettled with
      | false =>
        rw [move_unsettled there hs, move_unsettled there' (alike.isSettled.symm.trans hs)]
        exact branches.followBranch i (ih alike (twin_inside around stage failure i))
      | true =>
        cases alike with
        | settled output outcome =>
          simp only [StageRun.move, there, there']
          exact .moved (abreast.note rfl rfl) (.joining _ _ _ (branches.set i (.received _)))
        | _ => cases hs
    | _ => exact .blocked

theorem Alike.at? (alike : run.Alike p run') (path : List Nat) :
    run.at? path = none ∧ run'.at? path = none ∨
      ∃ deep deep', run.at? path = some deep ∧ run'.at? path = some deep' ∧ deep.Alike p deep' := by
  induction path generalizing run run' with
  | nil => exact .inr ⟨run, run', at?_nil _, at?_nil _, alike⟩
  | cons i path ih =>
    cases alike with
    | joining stage agent failure branches =>
      rcases branches.there i with ⟨there, there'⟩ | ⟨run, run', there, there', alike⟩
      · simp [StageRun.at?, there, there']
      · rw [at?_joining there, at?_joining there']
        exact ih alike
    | _ => exact .inl ⟨rfl, rfl⟩

mutual

/-- The same places need not wait any longer. -/
theorem Alike.awake (clocks : p.Meet w.clock w'.clock) (c : Context) (place : Place) :
    ∀ {run run' : StageRun}, run.Alike p run' → run.awake c w = run'.awake { c with place } w'
  | _, _, .joining stage _ failure branches => branches.awake clocks c place stage failure 0
  | _, _, .working _ _ _ steps => by
    rw [StageRun.awake, StageRun.awake, steps.isAwake clocks]
  | _, _, .fresh .. | _, _, .settled .. | _, _, .received _ => rfl

theorem AllAlike.awake (clocks : p.Meet w.clock w'.clock) (c : Context) (place : Place)
    (stage : Stage) (failure : Option StepError) (i : Nat) :
    ∀ {runs runs' : List StageRun}, AllAlike p runs runs' →
      awakeAmong c w stage failure i runs = awakeAmong { c with place } w' stage failure i runs'
  | _, _, .nil => rfl
  | _, _, .cons first others => by
    rw [awakeAmong, awakeAmong, others.awake clocks c place stage failure (i + 1),
      first.awake clocks (Context.inside c stage failure i) (place.branch i)]
    rfl

end

mutual

/-- The timers that are waited for are due together. -/
theorem Alike.timers : ∀ {run run' : StageRun}, run.Alike p run' →
    List.Forall₂ (fun s s' => p.Meet s.due s'.due) run.timers run'.timers
  | _, _, .joining _ _ _ branches => branches.timers
  | _, _, .working _ _ _ steps => steps.timers
  | _, _, .fresh .. | _, _, .settled .. | _, _, .received _ => .nil

theorem AllAlike.timers : ∀ {runs runs' : List StageRun}, AllAlike p runs runs' →
    List.Forall₂ (fun s s' => p.Meet s.due s'.due) (timersOfAll runs) (timersOfAll runs')
  | _, _, .nil => .nil
  | _, _, .cons first others => List.rel_append first.timers others.timers

end

end StageRun

/-! ### Executions -/

namespace Execution

/-- Phases of an execution that has come as far in the one run as in the other. -/
inductive Phase.Alike (p : Twins κ) : Phase → Phase → Prop where
  | fresh : Alike p .fresh .fresh
  | between (index : Nat) (todo : List Stage) (results : StageResults) :
    Alike p (.between p.id index todo results) (.between p.id' index todo results)
  | inStage (index : Nat) (stage : String) {run run' : StageRun} (runs : run.Alike p run')
      (todo : List Stage) (results : StageResults) :
    Alike p (.inStage p.id index stage run todo results)
      (.inStage p.id' index stage run' todo results)
  | through (results : StageResults) (failure : Option StageFailure) :
    Alike p (.over (.ok ⟨p.id, results, failure⟩)) (.over (.ok ⟨p.id', results, failure⟩))
  | crashed (reason : String) : Alike p (.crashed reason) (.crashed reason)

/-- The execution of the same pipeline in both runs, having come as far. -/
structure Alike (p : Twins κ) (e e' : Execution) : Prop where
  pipeline : e.pipeline = e'.pipeline
  known : e.properties.workflowId = .ok p.id
  known' : e'.properties.workflowId = .ok p.id'
  state : e.state = e'.state
  rota : e.rota = e'.rota
  phase : e.phase.Alike p e'.phase

variable {e e' : Execution} {path : List Nat}

/-- Whoever has the turn next. -/
theorem Alike.called (alike : e.Alike p e') (rota : Rota) :
    Alike p { e with rota } { e' with rota } :=
  { alike with rota := rfl }

theorem Alike.enter (alike : e.Alike p e') (abreast : w.Abreast p w') (state : WorkflowState) :
    (e.enter p.id state w).1.Abreast p (e'.enter p.id' state w').1 ∧
      (e.enter p.id state w).2.Alike p (e'.enter p.id' state w').2 := by
  simp only [Execution.enter, alike.state]
  refine ⟨?_, { alike with state := rfl }⟩
  split
  · exact abreast.enter state
  · exact abreast

theorem Alike.finish (alike : e.Alike p e') (abreast : w.Abreast p w') (results : StageResults)
    (failure : Option StageFailure) :
    (e.finish ⟨p.id, results, failure⟩ w).Alike p (Execution.Alike p)
      (e'.finish ⟨p.id', results, failure⟩ w') := by
  obtain ⟨entered, alike⟩ := alike.enter abreast .done
  exact .moved entered { alike with phase := .through _ _ }

theorem Alike.begin (alike : e.Alike p e') (abreast : w.Abreast p w') :
    (e.begin w).Alike p (Execution.Alike p) (e'.begin w') := by
  obtain ⟨started, alike₁⟩ := alike.enter abreast .started
  obtain ⟨running, alike₂⟩ := alike₁.enter started .running
  simp only [Execution.begin, alike.known, alike.known']
  refine .moved running { alike₂ with phase := ?_ }
  rw [alike₂.pipeline]
  exact .between _ _ _

theorem Alike.leaveStage (alike : e.Alike p e') (abreast : w.Abreast p w') (index : Nat)
    (stage : String) (output : StageOutput) (failure : Option StepError) (todo : List Stage)
    (results : StageResults) :
    (e.leaveStage p.id index stage output failure todo results w).Alike p (Execution.Alike p)
      (e'.leaveStage p.id' index stage output failure todo results w') := by
  cases failure with
  | none => exact .moved abreast { alike with phase := .between _ _ _ }
  | some error => exact alike.finish (abreast.log (.line abreast.clocks _ _)) _ _

theorem Alike.followStage (alike : e.Alike p e') (index : Nat) (stage : String) (todo : List Stage)
    (results : StageResults) {turn turn' : Turn StageRun Empty}
    (turns : turn.Alike p (StageRun.Alike p) turn') :
    (e.followStage p.id index stage todo results turn).Alike p (Execution.Alike p)
      (e'.followStage p.id' index stage todo results turn') := by
  cases turns with
  | blocked => exact .blocked
  | moved abreast runs => exact .moved abreast { alike with phase := .inStage _ _ runs _ _ }
  | ended abreast value => cases value
  | crashed abreast reason => exact .crashed abreast reason _ _

/-- Turns at the same place of the same execution come to the same. -/
theorem Alike.move (alike : e.Alike p e') (abreast : w.Abreast p w') :
    (e.move p.engine w path).Alike p (Execution.Alike p) (e'.move p.engine w' path) := by
  obtain ⟨pipeline, properties, state, phase, rota⟩ := e
  obtain ⟨pipeline', properties', state', phase', rota'⟩ := e'
  cases alike.phase with
  | fresh => exact alike.begin abreast
  | between index todo results =>
    cases todo with
    | nil => exact alike.finish abreast _ _
    | cons stage todo =>
      obtain rfl : pipeline = pipeline' := alike.pipeline
      exact .moved (abreast.log (.line abreast.clocks _ _))
        { alike with phase := .inStage _ _ (.fresh _ _) _ _ }
  | @inStage index stage run run' runs todo results =>
    cases hs : run.isSettled with
    | true =>
      cases runs with
      | settled output failure => exact alike.leaveStage abreast _ _ _ _ _ _
      | _ => cases hs
    | false =>
      rw [move_unsettled rfl hs, move_unsettled rfl (runs.isSettled.symm.trans hs)]
      exact alike.followStage _ _ _ _ (runs.move ⟨rfl, rfl, rfl⟩ abreast)
  | through | crashed => exact .blocked

/-! ### Rotas -/

theorem Alike.at? (alike : e.Alike p e') (place : List Nat) :
    e.at? place = none ∧ e'.at? place = none ∨
      ∃ run run', e.at? place = some run ∧ e'.at? place = some run' ∧ run.Alike p run' := by
  obtain ⟨pipeline, properties, state, phase, rota⟩ := e
  obtain ⟨pipeline', properties', state', phase', rota'⟩ := e'
  cases alike.phase with
  | inStage index stage runs todo results => exact runs.at? place
  | _ => exact .inl ⟨rfl, rfl⟩

theorem Alike.outstanding? (alike : e.Alike p e') (place : List Nat) :
    e.outstanding? place = e'.outstanding? place := by
  unfold Execution.outstanding?
  rcases alike.at? place with ⟨nowhere, nowhere'⟩ | ⟨run, run', there, there', runs⟩
  · rw [nowhere, nowhere']
  · rw [there, there']
    exact runs.outstanding?

theorem Alike.isNews (alike : e.Alike p e') (place : List Nat) :
    e.isNews place = e'.isNews place := by
  cases place with
  | nil => rfl
  | cons i way =>
    unfold Execution.isNews
    rcases alike.at? (i :: way) with ⟨nowhere, nowhere'⟩ | ⟨run, run', there, there', runs⟩
    · rw [nowhere, nowhere']
    · rw [there, there']
      exact runs.isSettled

/-- The same places are called. -/
theorem Alike.wake (alike : e.Alike p e') (clocks : p.Meet w.clock w'.clock) :
    (e.wake p.engine w).Alike p (e'.wake p.engine w') := by
  obtain ⟨pipeline, properties, state, phase, rota⟩ := e
  obtain ⟨pipeline', properties', state', phase', rota'⟩ := e'
  obtain rfl : rota = rota' := alike.rota
  cases alike.phase with
  | inStage index stage runs todo results =>
    simp only [Execution.wake, runs.awake clocks (outermost p.engine p.id index) ⟨p.id', [index]⟩]
    exact alike.called _
  | _ => exact alike

theorem Alike.follow (alike : e.Alike p e') {after after' : Execution}
    (later : after.Alike p after') (clocks : p.Meet w.clock w'.clock) (place : List Nat) :
    (e.follow p.engine place w after).Alike p (e'.follow p.engine place w' after') := by
  unfold Execution.follow
  rw [alike.isNews, alike.outstanding?, later.outstanding?]
  split
  · have woken := later.wake clocks
    dsimp only
    rw [woken.rota, woken.outstanding?]
    exact woken.called _
  split
  · rw [later.rota]
    exact later.called _
  · exact later

theorem Alike.giveWay (alike : e.Alike p e') (place : List Nat) :
    (e.giveWay place).Alike p (e'.giveWay place) := by
  unfold Execution.giveWay
  rw [alike.outstanding?, alike.rota]
  split <;> exact alike.called _

/-- Steps come to the same, as long as it is as long since the one has begun as since the other. -/
theorem Alike.step (alike : e.Alike p e') (abreast : w.Abreast p w') :
    (e.step p.engine w).Alike p (Execution.Alike p) (e'.step p.engine w') := by
  have moves : (e.move p.engine w e.rota.place).Alike p (Execution.Alike p)
      (e'.move p.engine w' e'.rota.place) := alike.rota ▸ alike.move abreast
  unfold Execution.step
  rw [alike.rota] at moves ⊢
  split
  · dsimp only
    revert moves
    generalize e.move p.engine w e'.rota.place = turn
    generalize e'.move p.engine w' e'.rota.place = turn'
    intro moves
    cases moves with
    | blocked => exact .moved abreast (alike.giveWay _)
    | moved later after => exact .moved later (alike.follow after later.clocks _)
    | ended later value => cases value
    | crashed later reason => exact .crashed later reason _ _
  split
  · exact .moved abreast (alike.called _)
  · exact .blocked

theorem Alike.timers (alike : e.Alike p e') :
    List.Forall₂ (fun s s' => p.Meet s.due s'.due) e.timers e'.timers := by
  obtain ⟨pipeline, properties, state, phase, rota⟩ := e
  obtain ⟨pipeline', properties', state', phase', rota'⟩ := e'
  cases alike.phase with
  | inStage index stage runs todo results => exact runs.timers
  | _ => exact .nil

end Execution

end PipelineRunner
