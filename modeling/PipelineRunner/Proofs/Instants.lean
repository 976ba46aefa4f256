import PipelineRunner.Engine.Execution

/-! A turn takes no time: the clock stands still during a turn, and all that is noted bears the time
at which the turn was had. -/

namespace PipelineRunner

/-- `w'` comes from `w` without the clock moving, by records of the present time. -/
def World.AtOnce (w w' : World) : Prop :=
  w'.clock = w.clock ∧ ∃ news : List Record, w'.history = news.reverse ++ w.history ∧
    ∀ r ∈ news, r.time = w.clock

namespace World

variable {w w' w'' : World}

theorem AtOnce.still (clock : w'.clock = w.clock) (history : w'.history = w.history) :
    w.AtOnce w' :=
  ⟨clock, [], by simpa using history, by simp⟩

theorem AtOnce.trans (h : w.AtOnce w') (h' : w'.AtOnce w'') : w.AtOnce w'' := by
  obtain ⟨cx, xs, hx, tx⟩ := h
  obtain ⟨cy, ys, hy, ty⟩ := h'
  refine ⟨cy.trans cx, xs ++ ys, by simp [hy, hx], fun r mem => ?_⟩
  rcases List.mem_append.mp mem with mem | mem
  · exact tx r mem
  · exact (ty r mem).trans cx

theorem AtOnce.time_eq {news : List Record} (h : w.AtOnce w')
    (noted : w'.history = news.reverse ++ w.history) : ∀ r ∈ news, r.time = w.clock := by
  obtain ⟨-, xs, hx, times⟩ := h
  obtain rfl : xs = news := List.reverse_inj.mp (List.append_cancel_right (hx.symm.trans noted))
  exact times

theorem atOnce_note (place : Place) (event : Event) : w.AtOnce (w.note place event) :=
  ⟨rfl, [⟨w.clock, place, event⟩], rfl, by simp⟩

theorem AtOnce.note (h : w.AtOnce w') (place : Place) (event : Event) :
    w.AtOnce (w'.note place event) :=
  h.trans (atOnce_note _ _)

theorem AtOnce.log (h : w.AtOnce w') (place : Place) (workflow : String) (level : LogLevel)
    (message : String) : w.AtOnce (w'.log place workflow level message) :=
  h.trans ⟨rfl, [⟨w'.clock, place, .logged workflow level message⟩], rfl, by simp⟩

/-- Work is performed at once up to where it has to wait. -/
theorem atOnce_perform {α : Type} (place : Place) (work : Work α) (w : World) :
    w.AtOnce (perform place work w).1 := by
  induction work generalizing w with
  | done a => exact .still rfl rfl
  | sleep ms rest ih =>
    cases ms with
    | zero => exact ih () w
    | succ ms => exact .still rfl rfl
  | log workflow level message rest ih =>
    exact ((AtOnce.still rfl rfl).log place workflow level message).trans (ih _)
  | remark what rest ih => exact (atOnce_note place _).trans (ih _)
  | count counter rest ih =>
    have counted : w.AtOnce (w.countUp counter).1 := .still rfl rfl
    exact counted.trans (ih _ _)
  | readFiles rest ih => exact ih _ w
  | writeFiles files rest ih =>
    have written : w.AtOnce { w with files := files } := .still rfl rfl
    exact written.trans (ih _)
  | crash reason => exact .still rfl rfl

end World

/-- A turn that is had in a world leaves the clock where it is. -/
def Turn.AtOnce {σ α : Type} (w : World) : Turn σ α → Prop
  | .blocked => True
  | .moved w' _ => w.AtOnce w'
  | .ended w' _ => w.AtOnce w'
  | .crashed w' _ _ => w.AtOnce w'

variable {c : Context} {w w₀ w' : World}

namespace Trial

variable {t : Trial}

theorem retry_atOnce (h : w₀.AtOnce w) (attempt : Nat) (e : StepError) :
    (t.retry c attempt e w).AtOnce w₀ := by
  unfold retry
  split
  · exact h
  · exact h.trans (.still rfl rfl)

theorem follow_atOnce {progress : World × Progress (Except Cause (Option String))}
    (h : w₀.AtOnce progress.1) (attempt : Nat) (deadline : Option Timer) :
    (t.follow c attempt deadline progress).AtOnce w₀ := by
  obtain ⟨w, progress⟩ := progress
  cases progress with
  | crashed reason => exact h
  | waits call =>
    cases deadline with
    | some timer => exact h
    | none => exact h.trans (.still rfl rfl)
  | finished answer =>
    cases answer with
    | ok output => exact h.note _ _
    | error cause => exact retry_atOnce (h.note _ _) _ _

theorem begin_atOnce (attempt : Nat) : (t.begin c attempt w).AtOnce w := by
  unfold begin
  dsimp only
  split
  · exact retry_atOnce (.still rfl rfl) _ _
  · exact follow_atOnce ((World.atOnce_note _ _).trans (World.atOnce_perform _ _ _)) _ _

theorem move_atOnce (t : Trial) : (t.move c w).AtOnce w := by
  unfold move
  split
  · split
    · exact .still rfl rfl
    · exact begin_atOnce _
  · split
    · exact follow_atOnce (World.atOnce_perform _ _ _) _ _
    split
    · exact World.atOnce_note _ _
    split
    · exact retry_atOnce (World.atOnce_note _ _) _ _
    · trivial
  · split
    · exact .still rfl rfl
    split
    · exact .still rfl rfl
    · trivial

end Trial

namespace OwnSteps

variable {stage : Stage} {agent : Agent}

theorem followPull_atOnce {progress : World × Progress (Except Cause Unit)}
    (h : w₀.AtOnce progress.1) (image : String) : (followPull c image progress).AtOnce w₀ := by
  obtain ⟨w, progress⟩ := progress
  cases progress with
  | crashed reason => exact h
  | waits wait => exact h
  | finished answer =>
    cases answer with
    | ok done => exact h.note _ _
    | error cause => exact h

theorem followStart_atOnce {progress : World × Progress (Except Cause String)}
    (h : w₀.AtOnce progress.1) (image : String) :
    (followStart c stage image progress).AtOnce w₀ := by
  obtain ⟨w, progress⟩ := progress
  cases progress with
  | crashed reason => exact h
  | waits wait => exact h
  | finished answer =>
    cases answer with
    | ok id => exact (h.note _ _).log _ _ _ _
    | error cause => exact h

theorem followStop_atOnce {progress : World × Progress (Except Cause Unit)}
    (h : w₀.AtOnce progress.1) (id : String) (result : StepsResult) :
    (followStop c id result progress).AtOnce w₀ := by
  obtain ⟨w, progress⟩ := progress
  cases progress with
  | crashed reason => exact h
  | waits wait => exact h
  | finished answer => exact h.note _ _

theorem followTrial_atOnce {turn : Turn Trial StepResult} (h : turn.AtOnce w)
    (container : Option String) (todo : List Step) (outputs : List String) :
    (followTrial container todo outputs turn).AtOnce w := by
  cases turn with
  | blocked => trivial
  | moved w' trial => exact h
  | crashed w' reason held => exact h
  | ended w' result => cases result <;> exact h

theorem beginStep_atOnce (container : Option String) (step : Step) (todo : List Step)
    (outputs : List String) : (beginStep c container step todo outputs w).AtOnce w := by
  unfold beginStep
  split
  · exact .still rfl rfl
  split <;> exact .still rfl rfl

theorem move_atOnce (own : OwnSteps) : (own.move c stage agent w).AtOnce w := by
  have begun {α : Type} (event : Event) (work : Work α) :
      w.AtOnce (World.perform c.place work (w.note c.place event)).1 :=
    (World.atOnce_note _ _).trans (World.atOnce_perform _ _ _)
  cases own with
  | entering =>
    simp only [move]
    split
    · exact .still rfl rfl
    split
    · exact .still rfl rfl
    · exact followPull_atOnce (begun _ _) _
  | pulling image wait =>
    simp only [move]
    split
    · exact followPull_atOnce (World.atOnce_perform _ _ _) _
    · trivial
  | pulled image => exact followStart_atOnce (begun _ _) _
  | starting image wait =>
    simp only [move]
    split
    · exact followStart_atOnce (World.atOnce_perform _ _ _) _
    · trivial
  | between container todo outputs =>
    cases todo with
    | nil => exact .still rfl rfl
    | cons step todo => exact beginStep_atOnce _ _ _ _
  | trying container trial todo outputs => exact followTrial_atOnce trial.move_atOnce _ _ _
  | leaving container result =>
    cases container with
    | none => exact .still rfl rfl
    | some id => exact followStop_atOnce (begun _ _) _ _
  | stopping id wait result =>
    simp only [move]
    split
    · exact followStop_atOnce (World.atOnce_perform _ _ _) _ _
    · trivial

end OwnSteps

namespace StageRun

theorem moveHere_atOnce (run : StageRun) : (run.moveHere c w).AtOnce w := by
  cases run with
  | fresh stage inherited => exact .still rfl rfl
  | joining stage agent runs failure =>
    simp only [moveHere]
    split
    · exact .still rfl rfl
    · trivial
  | working stage agent branches own =>
    have h : (own.move c stage agent w).AtOnce w := own.move_atOnce
    simp only [moveHere]
    cases ho : own.move c stage agent w <;> simp only [ho] at h <;> exact h
  | settled output failure => trivial
  | received output => trivial

theorem followBranch_atOnce {turn : Turn StageRun Empty} (h : turn.AtOnce w) (stage : Stage)
    (agent : Agent) (runs : List StageRun) (failure : Option StepError) (i : Nat) :
    (followBranch stage agent runs failure i turn).AtOnce w := by
  cases turn with
  | blocked | ended => trivial
  | moved | crashed => exact h

theorem move_atOnce (run : StageRun) (path : List Nat) : (run.move c w path).AtOnce w := by
  induction path generalizing c run with
  | nil => simpa [move] using run.moveHere_atOnce
  | cons i path ih =>
    cases run with
    | joining stage agent runs failure =>
      rw [move]
      split
      next => trivial
      next => exact World.atOnce_note _ _
      next => exact followBranch_atOnce (ih _) _ _ _ _ _
    | _ => simp [move, Turn.AtOnce]

end StageRun

namespace Execution

theorem enter_atOnce (e : Execution) (workflow : String) (state : WorkflowState) :
    w.AtOnce (e.enter workflow state w).1 := by
  simp only [enter]
  split
  · exact World.atOnce_note _ _
  · exact .still rfl rfl

theorem begin_atOnce (e : Execution) : (e.begin w).AtOnce w := by
  unfold begin
  split
  · exact .still rfl rfl
  · exact (enter_atOnce _ _ _).trans (enter_atOnce _ _ _)

theorem followStage_atOnce {turn : Turn StageRun Empty} (h : turn.AtOnce w) (e : Execution)
    (workflow : String) (index : Nat) (stage : String) (todo : List Stage)
    (results : StageResults) : (e.followStage workflow index stage todo results turn).AtOnce w := by
  cases turn with
  | blocked | ended => trivial
  | moved | crashed => exact h

theorem move_atOnce (engine : Engine) (e : Execution) (path : List Nat) :
    (e.move engine w path).AtOnce w := by
  have logged (place : Place) (workflow : String) (level : LogLevel) (message : String) :
      w.AtOnce (w.log place workflow level message) :=
    (World.AtOnce.still rfl rfl).log place workflow level message
  unfold move
  split
  next => exact e.begin_atOnce
  next => exact enter_atOnce _ _ _
  next => exact logged _ _ _ _
  next output failure todo results _ =>
    cases failure with
    | none => exact .still rfl rfl
    | some error => exact (logged _ _ _ _).trans (enter_atOnce _ _ _)
  next run _ _ _ _ => exact followStage_atOnce (run.move_atOnce path) _ _ _ _ _ _
  next => trivial
  next => trivial

end Execution
end PipelineRunner
