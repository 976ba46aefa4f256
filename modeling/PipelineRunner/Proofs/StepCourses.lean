import PipelineRunner.Proofs.StageTraces

/-! How the own steps of a stage go: in the order of the document, each of them only after the one
before it has succeeded. What they leave in the report is what the history shows, the outputs that
their calls have delivered, and behind them the text of the error that a step has come back with. -/

namespace PipelineRunner

/-- The outputs that calls have delivered. -/
def delivered (events : List Event) : List (Option String) :=
  events.filterMap fun
    | .answered (.ok output) => some output
    | _ => none

@[simp] theorem delivered_append (events more : List Event) :
    delivered (events ++ more) = delivered events ++ delivered more := List.filterMap_append

/-- What a list of outputs shows of them; a step may be without output. -/
def texts (outputs : List (Option String)) : List String := outputs.map (·.getD "")

namespace Trial

variable {c : Context} {t t' : Trial} {events : List Event} {attempt : Nat}

theorem Asks.delivered_nil (h : t.Asks c attempt events) : delivered events = [] := by
  cases h <;> rfl

theorem Goes.delivered_nil (h : t.Goes c events t') : delivered events = [] := by
  cases h with
  | waits asks => exact asks.delivered_nil
  | pauses asks =>
    rw [delivered_append, asks.delivered_nil]
    rfl
  | expires | resumes => rfl

theorem Ends.delivered_ok {output : Option String} (h : t.Ends c events (.ok output)) :
    delivered events = [output] := by
  cases h with
  | succeeds asks =>
    rw [delivered_append, asks.delivered_nil]
    rfl

theorem Ends.delivered_error {e : StepError} (h : t.Ends c events (.error e)) :
    delivered events = [] := by
  cases h with
  | fails asks =>
    rw [delivered_append, asks.delivered_nil]
    rfl
  | cancelled | interrupted | refused | timedOut => rfl

end Trial

namespace OwnSteps

variable {c : Context} {stage : Stage} {agent : Agent} {own own' : OwnSteps} {w w' : World}
  {image id : String} {noted events : List Event} {result : StepsResult} {e : StepError}
  {erred erred' : StepError → Prop} {workflow : String}

theorem Fetches.delivered_nil (h : Fetches c agent own image events) :
    delivered events = [] := by
  cases h <;> rfl

theorem Starts.delivered_nil (h : Starts own image events) : delivered events = [] := by
  cases h <;> rfl

theorem Stops.delivered_nil (h : Stops own id result events) :
    delivered events = [] := by
  cases h <;> rfl

/-! ### Errors of steps -/

/-- The outputs so far, while steps are under way. -/
def outputs : OwnSteps → List String
  | between _ _ outputs => outputs
  | trying _ _ _ outputs => outputs
  | _ => []

/-- A step comes back with an error: nobody provides its command, or its attempts are at an end. -/
inductive Errs (c : Context) (w : World) : OwnSteps → StepError → Prop where
  | unresolved {container : Option String} {step : Step} {todo : List Step}
      {outputs : List String} (free : c.cancelled = false)
      (nobody : w.registry.resolve step.command = none) :
      Errs c w (between container (step :: todo) outputs) (.unresolved step.command)
  | tried {container : Option String} {trial : Trial} {todo : List Step} {outputs : List String}
      {e : StepError} {w' : World} (ended : trial.move c w = .ended w' (.error e)) :
      Errs c w (trying container trial todo outputs) e

/-- The steps are left because of the error of one of them, whose text comes behind the outputs. -/
def Breaks (own : OwnSteps) (e : StepError) (own' : OwnSteps) : Prop :=
  ∃ container, own' = leaving container ⟨own.outputs ++ [e.message], some e⟩

theorem Errs.breaks (h : own.Errs c w e) (stage : Stage) (agent : Agent) :
    ∃ w' own', own.move c stage agent w = .moved w' own' ∧ own.Breaks e own' := by
  cases h with
  | unresolved free nobody =>
    simp only [move, beginStep, free, nobody]
    exact ⟨_, _, rfl, _, rfl⟩
  | tried ended =>
    simp only [move, ended, followTrial]
    exact ⟨_, _, rfl, _, rfl⟩

/-- An error of a step, and nothing else, breaks the steps off. -/
theorem errs_iff (h : own.move c stage agent w = .moved w' own') :
    own.Errs c w e ↔ own.Breaks e own' := by
  constructor
  · intro errs
    obtain ⟨_, _, moved, breaks⟩ := errs.breaks stage agent
    cases h.symm.trans moved
    exact breaks
  · rintro ⟨container, rfl⟩
    obtain ⟨events, -, goes⟩ := move_moved h
    generalize ha : leaving container ⟨own.outputs ++ [e.message], some e⟩ = after at goes
    cases goes with
    | cancelled => simp [outputs] at ha
    | unresolved free =>
      obtain ⟨-, -, rfl⟩ : _ ∧ _ ∧ e = _ := by simpa [outputs] using ha
      simp only [move, beginStep, free] at h
      split at h
      next both => cases both
      split at h
      next nobody => exact .unresolved free nobody
      next => simp at h
    | @fails _ trial =>
      obtain ⟨-, -, rfl⟩ : _ ∧ _ ∧ e = _ := by simpa [outputs] using ha
      simp only [move] at h
      cases ht : trial.move c w with
      | ended w₁ answer =>
        cases answer with
        | ok output => simp [ht, followTrial] at h
        | error e' =>
          simp only [ht, followTrial, Turn.moved.injEq, leaving.injEq, StepsResult.mk.injEq,
            Option.some.injEq] at h
          obtain ⟨-, -, -, rfl⟩ := h
          exact .tried ht
      | _ => simp [ht, followTrial] at h
    | _ => simp at ha

end OwnSteps

/-! ### The course of the steps -/

/-- What the own steps of a stage leave in the report, as `noted` tells of them and `erred` of the
errors that steps have come back with. -/
structure Recorded (stage : Stage) (noted : List Event) (erred : StepError → Prop)
    (outputs : List String) (failure : Option StepError) : Prop where
  /-- Without an error of a step the list holds what has been delivered. -/
  plain : (∀ e, ¬ erred e) → outputs = texts (delivered noted)
  /-- The text of an error comes behind what has been delivered. -/
  erring : ∀ e, erred e → outputs = texts (delivered noted) ++ [e.message] ∧ failure = some e
  /-- Without a failure all steps have delivered. -/
  complete : failure = none → (delivered noted).length = stage.steps.length

theorem Recorded.of_delivered {stage : Stage} {noted events : List Event}
    {erred : StepError → Prop} {outputs : List String} {failure : Option StepError}
    (h : Recorded stage noted erred outputs failure)
    (same : delivered events = delivered noted) : Recorded stage events erred outputs failure :=
  ⟨same ▸ h.plain, same ▸ h.erring, same ▸ h.complete⟩

namespace OwnSteps

/-- So many steps as there are deliveries lie behind, and these are to come. -/
def Ahead (stage : Stage) (noted : List Event) (todo : List Step) : Prop :=
  ∃ done, stage.steps = done ++ todo ∧ done.length = (delivered noted).length

/-- How far the own steps of a stage have come, by what they have noted. -/
def Course (stage : Stage) (workflow : String) (noted : List Event) (erred : StepError → Prop) :
    OwnSteps → Prop
  | between _ todo outputs =>
    Ahead stage noted todo ∧ outputs = texts (delivered noted) ∧ ∀ e, ¬ erred e
  | trying container trial todo outputs =>
    (∃ step, trial.command = step.command ∧ trial.params = step.paramsWithin workflow container ∧
      Ahead stage noted (step :: todo)) ∧
      outputs = texts (delivered noted) ∧ ∀ e, ¬ erred e
  | leaving _ result => Recorded stage noted erred result.outputs result.failure
  | stopping _ _ result => Recorded stage noted erred result.outputs result.failure
  | _ => delivered noted = [] ∧ ∀ e, ¬ erred e

variable {c : Context} {stage : Stage} {agent : Agent} {own own' : OwnSteps}
  {image id : String} {noted events : List Event} {result : StepsResult} {todo : List Step}
  {erred erred' : StepError → Prop} {workflow : String}

theorem Ahead.of_delivered (h : Ahead stage noted todo)
    (same : delivered events = delivered noted) : Ahead stage events todo := by
  obtain ⟨done, split, size⟩ := h
  exact ⟨done, split, same ▸ size⟩

theorem Fetches.course (h : Fetches c agent own image events)
    (course : own.Course stage workflow noted erred) :
    delivered (noted ++ events) = [] ∧ ∀ e, ¬ erred e := by
  rw [delivered_append, h.delivered_nil, List.append_nil]
  cases h with
  | now | before => exact course

theorem Starts.course (h : Starts own image events)
    (course : own.Course stage workflow noted erred) :
    delivered (noted ++ events) = [] ∧ ∀ e, ¬ erred e := by
  rw [delivered_append, h.delivered_nil, List.append_nil]
  cases h with
  | now | before => exact course

theorem Stops.course (h : Stops own id result events)
    (course : own.Course stage workflow noted erred) :
    Recorded stage (noted ++ events) erred result.outputs result.failure := by
  have same : delivered (noted ++ events) = delivered noted := by simp [h.delivered_nil]
  cases h with
  | now | before => exact course.of_delivered same

/-- A turn of the steps goes on with their course; it tells of an error exactly if it breaks the
steps off. -/
theorem Goes.course (h : own.Goes c stage agent events own')
    (course : own.Course stage c.place.workflow noted erred)
    (errs : ∀ e, erred' e ↔ erred e ∨ own.Breaks e own') :
    own'.Course stage c.place.workflow (noted ++ events) erred' := by
  have calm (ongoing : ∀ e, ¬ own.Breaks e own') (before : ∀ e, ¬ erred e) : ∀ e, ¬ erred' e := by
    simpa [errs, ongoing] using before
  cases h with
  | host bare =>
    obtain ⟨none, before⟩ := course
    refine ⟨⟨[], rfl, ?_⟩, ?_, calm (by simp [Breaks]) before⟩ <;> simp [none, texts]
  | pulling fetches wait =>
    exact (fetches.course course).imp_right (calm (by simp [Breaks]))
  | pulled fetches =>
    refine ⟨?_, calm (by simp [Breaks]) (fetches.course course).2⟩
    rw [← List.append_assoc, delivered_append, (fetches.course course).1]
    rfl
  | starting starts wait =>
    exact (starts.course course).imp_right (calm (by simp [Breaks]))
  | @started _ image events starts id =>
    have none : delivered (noted ++ (events ++ [.started (Image.normalize image) id])) = [] := by
      rw [← List.append_assoc, delivered_append, (starts.course course).1]
      rfl
    refine ⟨⟨[], rfl, ?_⟩, ?_, calm (by simp [Breaks]) (starts.course course).2⟩ <;>
      simp [none, texts]
  | through =>
    obtain ⟨⟨done, split, size⟩, outputs, before⟩ := course
    rw [List.append_nil] at split ⊢
    have still := calm (by simp [Breaks]) before
    exact ⟨fun _ => outputs, fun e he => absurd he (still e), fun _ => by rw [split, size]⟩
  | cancelled cancelled =>
    obtain ⟨-, outputs, before⟩ := course
    rw [List.append_nil]
    have still := calm (by simp [Breaks, OwnSteps.outputs]) before
    exact ⟨fun _ => outputs, fun e he => absurd he (still e), by simp⟩
  | unresolved free =>
    obtain ⟨-, outputs, before⟩ := course
    rw [List.append_nil]
    refine ⟨fun none => absurd ((errs _).mpr (.inr ⟨_, rfl⟩)) (none _), fun e he => ?_, by simp⟩
    rcases (errs e).mp he with earlier | ⟨container, now⟩
    · exact absurd earlier (before e)
    · simp only [OwnSteps.outputs, leaving.injEq, StepsResult.mk.injEq] at now
      exact ⟨by rw [now.2.1, outputs], now.2.2⟩
  | resolved free binding =>
    obtain ⟨ahead, outputs, before⟩ := course
    rw [List.append_nil]
    exact ⟨⟨_, rfl, rfl, ahead⟩, outputs, calm (by simp [Breaks]) before⟩
  | tries goes =>
    obtain ⟨⟨step, command, params, ahead⟩, outputs, before⟩ := course
    have same : delivered (noted ++ events) = delivered noted := by simp [goes.delivered_nil]
    refine ⟨⟨step, ?_, ?_, ahead.of_delivered same⟩, same ▸ outputs,
      calm (by simp [Breaks]) before⟩
    · cases goes <;> exact command
    · cases goes <;> exact params
  | succeeds ends =>
    obtain ⟨⟨step, -, -, done, split, size⟩, outputs, before⟩ := course
    refine ⟨⟨done ++ [step], by simp [split], ?_⟩, ?_, calm (by simp [Breaks]) before⟩
    · simp [ends.delivered_ok, size]
    · simp [ends.delivered_ok, outputs, texts]
  | fails ends =>
    obtain ⟨-, outputs, before⟩ := course
    have same : delivered (noted ++ events) = delivered noted := by simp [ends.delivered_error]
    refine ⟨fun none => absurd ((errs _).mpr (.inr ⟨_, rfl⟩)) (none _), fun e he => ?_, by simp⟩
    rcases (errs e).mp he with earlier | ⟨container, now⟩
    · exact absurd earlier (before e)
    · simp only [OwnSteps.outputs, leaving.injEq, StepsResult.mk.injEq] at now
      exact ⟨by rw [now.2.1, outputs, same], now.2.2⟩
  | stopping stops wait =>
    have recorded := stops.course course
    have ongoing (e : StepError) : erred' e ↔ erred e := by simp [errs, Breaks]
    exact ⟨fun none => recorded.plain (by simpa [ongoing] using none),
      fun e he => recorded.erring e ((ongoing e).mp he), recorded.complete⟩

/-- What the steps of a stage yield is recorded as they have gone. -/
theorem Ends.course (h : own.Ends c agent events result)
    (course : own.Course stage workflow noted erred) :
    Recorded stage (noted ++ events) erred result.outputs result.failure := by
  have nothing (none : delivered (noted ++ events) = []) (before : ∀ e, ¬ erred e)
      (failure : StepError) : Recorded stage (noted ++ events) erred [] (some failure) :=
    ⟨fun _ => by simp [none, texts], fun e he => absurd he (before e), by simp⟩
  cases h with
  | cancelled docker cancelled =>
    rw [List.append_nil] at nothing ⊢
    exact nothing course.1 course.2 _
  | unpulled fetches cause => exact nothing (fetches.course course).1 (fetches.course course).2 _
  | unstarted starts cause => exact nothing (starts.course course).1 (starts.course course).2 _
  | host =>
    rw [List.append_nil]
    exact course
  | stopped stops =>
    rw [← List.append_assoc]
    exact (stops.course course).of_delivered (by simp [delivered])

end OwnSteps

/-! ### Calls -/

namespace Trial

variable {c : Context} {t t' : Trial} {events : List Event} {attempt : Nat} {result : StepResult}
  {plugin method : String} {params : StepParams} {builtin : Bool}

theorem Asks.params_eq (h : t.Asks c attempt events)
    (call : Event.called plugin method params builtin ∈ events) : params = t.params := by
  cases h with
  | now => exact (Event.called.inj (List.mem_singleton.mp call)).2.2.1
  | before => cases call

theorem Goes.params_eq (h : t.Goes c events t')
    (call : Event.called plugin method params builtin ∈ events) : params = t.params := by
  cases h with
  | waits asks => exact asks.params_eq call
  | pauses asks => exact asks.params_eq (by simpa using call)
  | expires | resumes => simp at call

theorem Ends.params_eq (h : t.Ends c events result)
    (call : Event.called plugin method params builtin ∈ events) : params = t.params := by
  cases h with
  | succeeds asks | fails asks => exact asks.params_eq (by simpa using call)
  | cancelled | interrupted | refused | timedOut => simp at call

end Trial

namespace OwnSteps

variable {c : Context} {stage : Stage} {agent : Agent} {own own' : OwnSteps} {image id : String}
  {events : List Event} {result : StepsResult} {plugin method : String} {params : StepParams}
  {builtin : Bool}

theorem Fetches.uncalled (h : Fetches c agent own image events) :
    Event.called plugin method params builtin ∉ events := by
  cases h <;> simp

theorem Starts.uncalled (h : Starts own image events) :
    Event.called plugin method params builtin ∉ events := by
  cases h <;> simp

theorem Stops.uncalled (h : Stops own id result events) :
    Event.called plugin method params builtin ∉ events := by
  cases h <;> simp

/-- A step is under way, with these parameters. -/
def Calling (own : OwnSteps) (params : StepParams) : Prop :=
  ∃ container trial todo outputs, own = trying container trial todo outputs ∧ params = trial.params

theorem Goes.calling (h : own.Goes c stage agent events own')
    (call : Event.called plugin method params builtin ∈ events) : own.Calling params := by
  cases h with
  | tries goes => exact ⟨_, _, _, _, rfl, goes.params_eq call⟩
  | succeeds ends | fails ends => exact ⟨_, _, _, _, rfl, ends.params_eq call⟩
  | pulling fetches | pulled fetches => simp [fetches.uncalled] at call
  | starting starts | started starts => simp [starts.uncalled] at call
  | stopping stops => exact absurd call stops.uncalled
  | _ => cases call

theorem Ends.uncalled (h : own.Ends c agent events result) :
    Event.called plugin method params builtin ∉ events := by
  cases h with
  | cancelled | host => simp
  | unpulled fetches => exact fetches.uncalled
  | unstarted starts => exact starts.uncalled
  | stopped stops => simp [stops.uncalled]

end OwnSteps
end PipelineRunner
