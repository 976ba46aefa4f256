import PipelineRunner.Proofs.StageRuns

/-! What the steps of a stage are up to: the step under way is one of the stage, with parameters
that tell of its surroundings, and an error that ends the steps is accounted for, either by the
stage itself or by the token that the stage was given. -/

namespace PipelineRunner

/-- An error that the steps of a stage or its container have come to by themselves. -/
def StepError.ComesFrom (stage : Stage) (agent : Agent) : StepError → Prop
  | .unresolved command => ∃ step ∈ stage.steps, step.command = command
  | .timedOut command _ _ => ∃ step ∈ stage.steps, step.command = command
  | .failed command _ _ => ∃ step ∈ stage.steps, step.command = command
  | .rejected command _ => ∃ step ∈ stage.steps, step.command = command
  | .container image _ => agent.image? = some image
  | .cancelled => False

/-- A stage gives up because of its token only if that is cancelled. -/
def StepError.Accounted (c : Context) (stage : Stage) (agent : Agent) (e : StepError) : Prop :=
  e = .cancelled ∧ c.cancelled = true ∨ e.ComesFrom stage agent

/-- A step under way is this step of a stage in this container. -/
def Trial.Performs (c : Context) (container : Option String) (t : Trial) (step : Step) : Prop :=
  t.command = step.command ∧ t.params = step.paramsWithin c.place.workflow container

namespace OwnSteps

/-- What the steps of a stage may have come to. -/
def Sound (c : Context) (stage : Stage) (agent : Agent) : OwnSteps → Prop
  | entering => True
  | pulling image _ => agent.image? = some image
  | pulled image => agent.image? = some image
  | starting image _ => agent.image? = some image
  | between container todo _ => container.isSome = agent.image?.isSome ∧ todo ⊆ stage.steps
  | trying container trial todo _ =>
    container.isSome = agent.image?.isSome ∧
      (∃ step ∈ stage.steps, trial.Performs c container step) ∧
      todo ⊆ stage.steps
  | leaving _ result => ∀ e, result.failure = some e → e.Accounted c stage agent
  | stopping _ _ result => ∀ e, result.failure = some e → e.Accounted c stage agent

variable {c : Context} {stage : Stage} {agent : Agent} {own own' : OwnSteps} {image : String}
  {events : List Event} {result : StepsResult}

theorem Fetches.image_eq (h : Fetches c agent own image events) (sound : own.Sound c stage agent) :
    agent.image? = some image := by
  cases h with
  | now docker free => exact docker
  | before => exact sound

theorem Starts.image_eq (h : Starts own image events) (sound : own.Sound c stage agent) :
    agent.image? = some image := by
  cases h with
  | now => exact sound
  | before => exact sound

theorem Stops.accounted {id : String} {result : StepsResult} (h : Stops own id result events)
    (sound : own.Sound c stage agent) :
    ∀ e, result.failure = some e → e.Accounted c stage agent := by
  cases h with
  | now => exact sound
  | before => exact sound

end OwnSteps

namespace Trial

variable {c : Context} {stage : Stage} {agent : Agent} {t t' : Trial} {events : List Event}
  {container : Option String} {step : Step}

theorem Goes.performs (h : t.Goes c events t') (performs : t.Performs c container step) :
    t'.Performs c container step := by
  cases h <;> exact performs

/-- A step that fails has failed by itself, unless it is cancelled. -/
theorem Ends.accounted {e : StepError} (h : t.Ends c events (.error e)) (mem : step ∈ stage.steps)
    (performs : t.Performs c container step) : e.Accounted c stage agent := by
  cases h with
  | cancelled idle cancelled => exact .inl ⟨rfl, cancelled⟩
  | interrupted calling interrupt cancelled => exact .inl ⟨rfl, cancelled⟩
  | refused ready free message => exact .inr ⟨step, mem, performs.1.symm⟩
  | fails asks last cause => exact .inr ⟨step, mem, performs.1.symm⟩
  | timedOut calling last => exact .inr ⟨step, mem, performs.1.symm⟩

end Trial

namespace OwnSteps

variable {c : Context} {stage : Stage} {agent : Agent} {own own' : OwnSteps} {image : String}
  {events : List Event} {result : StepsResult}

theorem Goes.sound (h : own.Goes c stage agent events own') (sound : own.Sound c stage agent) :
    own'.Sound c stage agent := by
  cases h with
  | host bare => exact ⟨by simp [bare], List.Subset.refl _⟩
  | pulling fetches wait => exact fetches.image_eq sound
  | pulled fetches => exact fetches.image_eq sound
  | starting starts wait => exact starts.image_eq sound
  | started starts id => exact ⟨by simp [starts.image_eq sound], List.Subset.refl _⟩
  | through => simp [Sound]
  | cancelled cancelled =>
    rintro e ⟨⟩
    exact .inl ⟨rfl, cancelled⟩
  | @unresolved container step todo outputs free =>
    rintro e ⟨⟩
    exact .inr ⟨step, sound.2 List.mem_cons_self, rfl⟩
  | @resolved container step todo outputs free binding =>
    have mem := sound.2 List.mem_cons_self
    exact ⟨sound.1, ⟨step, mem, rfl, rfl⟩, fun _ h => sound.2 (List.mem_cons_of_mem _ h)⟩
  | tries goes =>
    obtain ⟨container, ⟨step, mem, performs⟩, todo⟩ := sound
    exact ⟨container, ⟨step, mem, goes.performs performs⟩, todo⟩
  | succeeds ends => exact ⟨sound.1, sound.2.2⟩
  | fails ends =>
    obtain ⟨-, ⟨step, mem, performs⟩, -⟩ := sound
    rintro e ⟨⟩
    exact ends.accounted mem performs
  | stopping stops wait => exact stops.accounted sound

theorem Ends.accounted (h : own.Ends c agent events result) (sound : own.Sound c stage agent) :
    ∀ e, result.failure = some e → e.Accounted c stage agent := by
  cases h with
  | cancelled docker cancelled =>
    rintro e ⟨⟩
    exact .inl ⟨rfl, cancelled⟩
  | unpulled fetches cause =>
    rintro e ⟨⟩
    exact .inr (fetches.image_eq sound)
  | unstarted starts cause =>
    rintro e ⟨⟩
    exact .inr (starts.image_eq sound)
  | host => exact sound
  | stopped stops => exact stops.accounted sound

/-- What was sound stays so when the token is cancelled. -/
theorem Sound.cancel (sound : own.Sound c stage agent) :
    own.Sound { c with cancelled := true } stage agent := by
  have accounted (e : StepError) (h : e.Accounted c stage agent) :
      e.Accounted { c with cancelled := true } stage agent := h.imp_left fun h => ⟨h.1, rfl⟩
  cases own with
  | leaving container result => exact fun e he => accounted e (sound e he)
  | stopping id wait result => exact fun e he => accounted e (sound e he)
  | _ => exact sound

end OwnSteps

namespace StageRun

variable {stage : Stage} {inherited : Agent} {c : Context} {past : List Moment} {run : StageRun}

/-- What the own steps of a stage may have come to, while they are under way. -/
def Sound (c : Context) : StageRun → Prop
  | working stage agent _ own => own.Sound c stage agent
  | _ => True

theorem ownSteps_sound (agent : Agent) (branches : Option StageResults) :
    (ownSteps stage agent branches).Sound c :=
  ownSteps_cases branches (fun _ => trivial) trivial

theorem Run.sound (so : Run stage inherited c past run) : run.Sound c := by
  induction so with
  | begins c => trivial
  | @cancelled c past run so ih =>
    cases run with
    | working stage agent branches own => exact OwnSteps.Sound.cancel ih
    | _ => trivial
  | turn so moved noted ih =>
    cases turned_of_move moved with
    | enters => exact enter_cases (fun _ => ownSteps_sound _ _) trivial
    | leaves all =>
      exact leaveJoin_cases _ _ (fun _ _ _ => trivial) fun _ _ => ownSteps_sound _ _
    | works notes goes => exact goes.sound ih
    | settles => trivial
    | receives there => trivial
    | inside there unsettled inner => trivial

end StageRun
end PipelineRunner
