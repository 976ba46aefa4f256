import PipelineRunner.Proofs.RootCause

/-! Turns run out. Each turn brings a part of a run nearer to its end, whatever calls come to and
however often they are made: there is no end to the number of turns that one may take, but there is
one to the turns that it takes. -/

namespace PipelineRunner

variable {α β : Type} {c : Context} {w w' : World} {policy : RetryPolicy}

/-! ### Work -/

namespace Work

/-- What is left of a piece of work that has to wait when it is performed. -/
def Rest (rest work : Work α) : Prop :=
  ∃ place w w' wait, World.perform place work w = (w', .waits wait) ∧ wait.rest = rest

theorem acc_rest (work : Work α) : Acc Rest work := by
  induction work with
  | done a =>
    refine ⟨_, fun rest left => ?_⟩
    obtain ⟨place, w, w', wait, waits, -⟩ := left
    cases waits
  | sleep ms rest ih =>
    refine ⟨_, fun later left => ?_⟩
    obtain ⟨place, w, w', wait, waits, rfl⟩ := left
    cases ms with
    | zero => exact (ih ()).inv ⟨place, w, w', wait, waits, rfl⟩
    | succ ms =>
      cases waits
      exact ih ()
  | log workflow level message rest ih | remark what rest ih | writeFiles files rest ih =>
    refine ⟨_, fun later left => ih.inv ?_⟩
    obtain ⟨place, w, w', wait, waits, rfl⟩ := left
    exact ⟨place, _, w', wait, waits, rfl⟩
  | count counter rest ih | readFiles rest ih =>
    refine ⟨_, fun later left => ?_⟩
    obtain ⟨place, w, w', wait, waits, rfl⟩ := left
    exact (ih _).inv ⟨place, _, w', wait, waits, rfl⟩
  | crash reason =>
    refine ⟨_, fun rest left => ?_⟩
    obtain ⟨place, w, w', wait, waits, -⟩ := left
    cases waits

end Work

/-- A wait that comes behind another one. -/
def Waiting.After (later wait : Waiting α) : Prop := Work.Rest later.rest wait.rest

theorem Waiting.wf_after : WellFounded (@Waiting.After α) :=
  InvImage.wf Waiting.rest ⟨Work.acc_rest⟩

theorem Waiting.after_of_perform {wait later : Waiting α} {place : Place}
    (performed : World.perform place wait.rest w = (w', .waits later)) : later.After wait :=
  ⟨place, w, w', later, performed, rfl⟩

/-! ### Steps -/

namespace Trial

/-- A step is nearer to its end: its call has gone on, or one of its attempts is over. -/
inductive Phase.Nearer (policy : RetryPolicy) : Phase → Phase → Prop where
  | calls {made : Nat} {deadline : Timer} {call : Waiting (Except Cause (Option String))} :
      Nearer policy (.calling (made + 1) deadline call) (.ready made)
  | goesOn {attempt : Nat} {deadline : Timer} {call later : Waiting (Except Cause (Option String))}
      (after : later.After call) :
      Nearer policy (.calling attempt deadline later) (.calling attempt deadline call)
  | refused {made : Nat} {timer : Timer} (more : made + 1 < policy.maxAttempts) :
      Nearer policy (.pausing (made + 1) timer) (.ready made)
  | fails {attempt : Nat} {deadline timer : Timer} {call : Waiting (Except Cause (Option String))}
      (more : attempt < policy.maxAttempts) :
      Nearer policy (.pausing attempt timer) (.calling attempt deadline call)
  | resumes {made : Nat} {timer : Timer} : Nearer policy (.ready made) (.pausing made timer)

namespace Phase

theorem acc_pausing {made : Nat} (ready : Acc (Nearer policy) (.ready made)) (timer : Timer) :
    Acc (Nearer policy) (.pausing made timer) := by
  refine ⟨_, fun next nearer => ?_⟩
  cases nearer
  exact ready

/-- A call comes to its end if the pause behind it does. -/
theorem acc_calling {attempt : Nat}
    (pauses : ∀ timer, attempt < policy.maxAttempts → Acc (Nearer policy) (.pausing attempt timer))
    (deadline : Timer) (call : Waiting (Except Cause (Option String))) :
    Acc (Nearer policy) (.calling attempt deadline call) := by
  induction call using Waiting.wf_after.induction with
  | _ call ih =>
    refine ⟨_, fun next nearer => ?_⟩
    cases nearer with
    | goesOn after => exact ih _ after
    | fails more => exact pauses _ more

theorem acc_ready (made : Nat) : Acc (Nearer policy) (.ready made) := by
  have pauses (timer : Timer) (more : made + 1 < policy.maxAttempts) :
      Acc (Nearer policy) (.pausing (made + 1) timer) := acc_pausing (acc_ready (made + 1)) timer
  refine ⟨_, fun next nearer => ?_⟩
  cases nearer with
  | calls => exact acc_calling pauses _ _
  | refused more => exact pauses _ more
termination_by policy.maxAttempts - made

theorem wf_nearer : WellFounded (Nearer policy) := by
  have pausing (made : Nat) (timer : Timer) : Acc (Nearer policy) (.pausing made timer) :=
    acc_pausing (acc_ready made) timer
  refine ⟨fun phase => ?_⟩
  cases phase with
  | ready made => exact acc_ready made
  | calling attempt deadline call => exact acc_calling (fun timer _ => pausing attempt timer) _ _
  | pausing made timer => exact pausing made timer

end Phase

theorem wf_nearer : WellFounded fun later trial : Trial => later.phase.Nearer policy trial.phase :=
  InvImage.wf Trial.phase Phase.wf_nearer

variable {t t' : Trial} {attempt : Nat} {e : StepError}

/-- After a failure there is a pause, unless the step is over. -/
theorem phase_of_retry (h : t.retry c attempt e w = .moved w' t') :
    attempt < c.engine.policy.maxAttempts ∧ ∃ timer, t'.phase = .pausing attempt timer := by
  unfold retry at h
  split at h
  next => cases h
  next more =>
    cases h
    simp only [Bool.or_eq_true, decide_eq_true_eq, not_or] at more
    exact ⟨Nat.lt_of_not_le more.2, _, rfl⟩

theorem phase_of_follow {deadline : Option Timer}
    {progress : World × Progress (Except Cause (Option String))}
    (h : t.follow c attempt deadline progress = .moved w' t') :
    (∃ call till, progress.2 = .waits call ∧ t'.phase = .calling attempt till call ∧
        ∀ timer, deadline = some timer → till = timer) ∨
      attempt < c.engine.policy.maxAttempts ∧ ∃ timer, t'.phase = .pausing attempt timer := by
  obtain ⟨w₁, progress⟩ := progress
  cases progress with
  | crashed reason => cases h
  | finished answer =>
    cases answer with
    | ok output => cases h
    | error cause => exact .inr (phase_of_retry h)
  | waits call =>
    cases deadline with
    | none =>
      cases h
      exact .inl ⟨call, _, rfl, rfl, nofun⟩
    | some timer =>
      cases h
      exact .inl ⟨call, timer, rfl, rfl, fun _ same => Option.some.inj same⟩

theorem nearer_of_move (h : t.move c w = .moved w' t') :
    t'.phase.Nearer c.engine.policy t.phase := by
  unfold move at h
  cases phase : t.phase with
  | ready made =>
    simp only [phase] at h
    split at h
    · cases h
    unfold begin at h
    dsimp only at h
    split at h
    · obtain ⟨more, timer, now⟩ := phase_of_retry h
      exact now ▸ .refused more
    · rcases phase_of_follow h with ⟨call, till, -, now, -⟩ | ⟨more, timer, now⟩
      · exact now ▸ .calls
      · exact now ▸ .refused more
  | calling attempt deadline call =>
    simp only [phase] at h
    split at h
    · rcases phase_of_follow h with ⟨later, till, performed, now, same⟩ | ⟨more, timer, now⟩
      · obtain rfl := same deadline rfl
        exact now ▸ .goesOn (Waiting.after_of_perform (Prod.ext rfl performed))
      · exact now ▸ .fails more
    split at h
    · cases h
    split at h
    · obtain ⟨more, timer, now⟩ := phase_of_retry h
      exact now ▸ .fails more
    · cases h
  | pausing made timer =>
    simp only [phase] at h
    split at h
    · cases h
    split at h
    · cases h
      exact .resumes
    · cases h

end Trial

/-! ### The steps of a stage -/

namespace OwnSteps

/-- How much lies before the steps of a stage, of which there are `steps` in all. -/
def rank (steps : Nat) : OwnSteps → Nat
  | entering => 2 * steps + 7
  | pulling .. => 2 * steps + 6
  | pulled _ => 2 * steps + 5
  | starting .. => 2 * steps + 4
  | trying _ _ todo _ => 2 * todo.length + 4
  | between _ todo _ => 2 * todo.length + 3
  | leaving .. => 2
  | stopping .. => 1

/-- The steps of a stage are nearer to their end: they have passed on to something else, or what
they wait for has gone on. -/
inductive Nearer (policy : RetryPolicy) (steps : Nat) : OwnSteps → OwnSteps → Prop where
  | passes {own next : OwnSteps} (less : next.rank steps < own.rank steps) :
      Nearer policy steps next own
  | pulling {image : String} {wait later : Waiting (Except Cause Unit)} (after : later.After wait) :
      Nearer policy steps (pulling image later) (pulling image wait)
  | starting {image : String} {wait later : Waiting (Except Cause String)}
      (after : later.After wait) : Nearer policy steps (starting image later) (starting image wait)
  | tries {container : Option String} {trial later : Trial} {todo : List Step}
      {outputs : List String} (nearer : later.phase.Nearer policy trial.phase) :
      Nearer policy steps (trying container later todo outputs)
        (trying container trial todo outputs)
  | stopping {id : String} {wait later : Waiting (Except Cause Unit)} {result : StepsResult}
      (after : later.After wait) :
      Nearer policy steps (stopping id later result) (stopping id wait result)

variable {stage : Stage} {agent : Agent} {own own' : OwnSteps} {steps : Nat}

theorem wf_nearer : WellFounded (Nearer policy steps) := by
  refine ⟨fun own => ?_⟩
  induction ranked : own.rank steps using Nat.strongRecOn generalizing own with
  | ind n ih =>
    have passes (next : OwnSteps) (less : next.rank steps < n) : Acc (Nearer policy steps) next :=
      ih _ less next rfl
    -- What has the rank of `own` and waits has to be told apart by what it waits for.
    cases own with
    | pulling image wait =>
      induction wait using Waiting.wf_after.induction with
      | _ wait later =>
        refine ⟨_, fun next nearer => ?_⟩
        cases nearer with
        | passes less => exact passes _ (ranked ▸ less)
        | pulling after => exact later _ after ranked
    | starting image wait =>
      induction wait using Waiting.wf_after.induction with
      | _ wait later =>
        refine ⟨_, fun next nearer => ?_⟩
        cases nearer with
        | passes less => exact passes _ (ranked ▸ less)
        | starting after => exact later _ after ranked
    | stopping id wait result =>
      induction wait using Waiting.wf_after.induction with
      | _ wait later =>
        refine ⟨_, fun next nearer => ?_⟩
        cases nearer with
        | passes less => exact passes _ (ranked ▸ less)
        | stopping after => exact later _ after ranked
    | trying container trial todo outputs =>
      induction trial using (@Trial.wf_nearer policy).induction with
      | _ trial later =>
        refine ⟨_, fun next nearer => ?_⟩
        cases nearer with
        | passes less => exact passes _ (ranked ▸ less)
        | tries nearer => exact later _ nearer ranked
    | _ =>
      refine ⟨_, fun next nearer => ?_⟩
      cases nearer with
      | passes less => exact passes _ (ranked ▸ less)

theorem nearer_of_beginStep {container : Option String} {step : Step} {todo : List Step}
    {outputs : List String} (h : beginStep c container step todo outputs w = .moved w' own') :
    own'.rank steps < (between container (step :: todo) outputs).rank steps := by
  unfold beginStep at h
  split at h
  next =>
    cases h
    simp [rank]
  next =>
    split at h <;> cases h <;> simp [rank]
    omega

theorem nearer_of_followTrial {container : Option String} {trial : Trial} {todo : List Step}
    {outputs : List String}
    (h : followTrial container todo outputs (trial.move c w) = .moved w' own') :
    own'.Nearer c.engine.policy steps (trying container trial todo outputs) := by
  cases turn : trial.move c w with
  | blocked => simp [turn, followTrial] at h
  | crashed w₁ reason held => simp [turn, followTrial] at h
  | moved w₁ later =>
    simp only [turn, followTrial] at h
    cases h
    exact .tries (Trial.nearer_of_move turn)
  | ended w₁ answer =>
    cases answer <;> simp only [turn, followTrial] at h <;> cases h <;>
      exact .passes (by simp [rank])

theorem followPull_eq {image : String} {progress : World × Progress (Except Cause Unit)}
    (h : followPull c image progress = .moved w' own') :
    own' = pulled image ∨ ∃ wait, progress.2 = .waits wait ∧ own' = pulling image wait := by
  obtain ⟨w₁, progress⟩ := progress
  cases progress with
  | crashed reason => cases h
  | waits wait =>
    cases h
    exact .inr ⟨wait, rfl, rfl⟩
  | finished answer =>
    cases answer <;> cases h
    exact .inl rfl

theorem followStart_eq {image : String} {progress : World × Progress (Except Cause String)}
    (h : followStart c stage image progress = .moved w' own') :
    (∃ id, own' = between (some id) stage.steps []) ∨
      ∃ wait, progress.2 = .waits wait ∧ own' = starting image wait := by
  obtain ⟨w₁, progress⟩ := progress
  cases progress with
  | crashed reason => cases h
  | waits wait =>
    cases h
    exact .inr ⟨wait, rfl, rfl⟩
  | finished answer =>
    cases answer <;> cases h
    exact .inl ⟨_, rfl⟩

theorem followStop_eq {id : String} {result : StepsResult}
    {progress : World × Progress (Except Cause Unit)}
    (h : followStop c id result progress = .moved w' own') :
    ∃ wait, progress.2 = .waits wait ∧ own' = stopping id wait result := by
  obtain ⟨w₁, progress⟩ := progress
  cases progress <;> cases h
  exact ⟨_, rfl, rfl⟩

theorem nearer_of_move (h : own.move c stage agent w = .moved w' own') :
    own'.Nearer c.engine.policy stage.steps.length own := by
  cases own with
  | entering =>
    simp only [move] at h
    split at h
    · cases h
      exact .passes (by simp [rank])
    split at h
    · cases h
    rcases followPull_eq h with rfl | ⟨wait, -, rfl⟩ <;> exact .passes (by simp [rank])
  | pulling image wait =>
    simp only [move] at h
    split at h
    · rcases followPull_eq h with rfl | ⟨later, performed, rfl⟩
      · exact .passes (by simp [rank])
      · exact .pulling (Waiting.after_of_perform (Prod.ext rfl performed))
    · cases h
  | pulled image =>
    rcases followStart_eq h with ⟨id, rfl⟩ | ⟨wait, -, rfl⟩ <;> exact .passes (by simp [rank])
  | starting image wait =>
    simp only [move] at h
    split at h
    · rcases followStart_eq h with ⟨id, rfl⟩ | ⟨later, performed, rfl⟩
      · exact .passes (by simp [rank])
      · exact .starting (Waiting.after_of_perform (Prod.ext rfl performed))
    · cases h
  | between container todo outputs =>
    cases todo with
    | nil =>
      cases h
      exact .passes (by simp [rank])
    | cons step todo => exact .passes (nearer_of_beginStep h)
  | trying container trial todo outputs => exact nearer_of_followTrial h
  | leaving container result =>
    cases container with
    | none => cases h
    | some id =>
      obtain ⟨wait, -, rfl⟩ := followStop_eq h
      exact .passes (by simp [rank])
  | stopping id wait result =>
    simp only [move] at h
    split at h
    · obtain ⟨later, performed, rfl⟩ := followStop_eq h
      exact .stopping (Waiting.after_of_perform (Prod.ext rfl performed))
    · cases h

end OwnSteps

/-! ### Stages -/

/-- One element of a list at a time comes nearer to an end. -/
def OneNearer (nearer : α → α → Prop) (after before : List α) : Prop :=
  ∃ i a a', before[i]? = some a ∧ nearer a' a ∧ after = before.set i a'

theorem acc_oneNearer {nearer : α → α → Prop} {l : List α} (each : ∀ a ∈ l, Acc nearer a) :
    Acc (OneNearer nearer) l := by
  induction l with
  | nil =>
    refine ⟨_, fun after step => ?_⟩
    obtain ⟨i, a, a', there, -⟩ := step
    cases there
  | cons a rest ih =>
    obtain ⟨first, others⟩ := List.forall_mem_cons.mp each
    have accessible := ih others
    -- Both the first element and the others may come nearer; neither undoes what the other does.
    clear ih each others
    induction first generalizing rest with
    | intro a _ first =>
      induction accessible with
      | intro rest earlier others =>
        refine ⟨_, fun after step => ?_⟩
        obtain ⟨i, b, b', there, nearer, rfl⟩ := step
        cases i with
        | zero =>
          obtain rfl : a = b := by simpa using there
          exact first b' nearer _ ⟨_, earlier⟩
        | succ i => exact others _ ⟨i, b, b', by simpa using there, nearer, rfl⟩

namespace StageRun

/-- A stage is nearer to its end, or the stage around has taken notice of it. -/
inductive Nearer (policy : RetryPolicy) : StageRun → StageRun → Prop where
  | enters {stage : Stage} {inherited : Agent} :
      Nearer policy (enter stage inherited) (fresh stage inherited)
  | inside {stage : Stage} {agent : Agent} {runs : List StageRun}
      {failure failure' : Option StepError} {i : Nat} {run run' : StageRun}
      (there : runs[i]? = some run)
      (nearer : Nearer policy run' run) :
      Nearer policy (joining stage agent (runs.set i run') failure')
        (joining stage agent runs failure)
  | leaves {stage : Stage} {agent : Agent} {runs : List StageRun} {failure : Option StepError}
      {outputs : List StageOutput} :
      Nearer policy (leaveJoin stage agent outputs failure) (joining stage agent runs failure)
  | works {stage : Stage} {agent : Agent} {branches : Option StageResults} {own own' : OwnSteps}
      (nearer : own'.Nearer policy stage.steps.length own) :
      Nearer policy (working stage agent branches own') (working stage agent branches own)
  | settles {stage : Stage} {agent : Agent} {branches : Option StageResults} {own : OwnSteps}
      {output : StageOutput} {failure : Option StepError} :
      Nearer policy (settled output failure) (working stage agent branches own)
  | received {output : StageOutput} {failure : Option StepError} :
      Nearer policy (received output) (settled output failure)

variable {stage : Stage} {agent : Agent} {runs : List StageRun} {run run' : StageRun}

theorem acc_settled (output : StageOutput) (failure : Option StepError) :
    Acc (Nearer policy) (settled output failure) := by
  refine ⟨_, fun next nearer => ?_⟩
  cases nearer
  exact ⟨_, nofun⟩

theorem acc_working (branches : Option StageResults) (own : OwnSteps) :
    Acc (Nearer policy) (working stage agent branches own) := by
  induction own using (@OwnSteps.wf_nearer policy stage.steps.length).induction with
  | _ own ih =>
    refine ⟨_, fun next nearer => ?_⟩
    cases nearer with
    | works nearer => exact ih _ nearer
    | settles => exact acc_settled _ _

theorem acc_ownSteps (branches : Option StageResults) :
    Acc (Nearer policy) (ownSteps stage agent branches) :=
  ownSteps_cases branches (fun output => acc_settled output none) (acc_working branches .entering)

/-- A join comes to its end if its branches do. -/
theorem acc_joining (each : ∀ run ∈ runs, Acc (Nearer policy) run) (failure : Option StepError) :
    Acc (Nearer policy) (joining stage agent runs failure) := by
  have accessible := acc_oneNearer each
  clear each
  induction accessible generalizing failure with
  | intro runs _ ih =>
    refine ⟨_, fun next nearer => ?_⟩
    cases nearer with
    | inside there nearer => exact ih _ ⟨_, _, _, there, nearer, rfl⟩ _
    | leaves =>
      exact leaveJoin_cases _ _ (fun _ _ _ => acc_settled _ _) fun _ branches =>
        acc_ownSteps branches

theorem acc_fresh (stage : Stage) (inherited : Agent) :
    Acc (Nearer policy) (fresh stage inherited) := by
  have branches (branch : Stage) (mem : branch ∈ stage.parallel) (agent : Agent) :
      Acc (Nearer policy) (fresh branch agent) := by
    obtain ⟨i, there⟩ := List.getElem?_of_mem mem
    have smaller := Stage.sizeOf_branch_lt there
    exact acc_fresh branch agent
  refine ⟨_, fun next nearer => ?_⟩
  cases nearer
  refine enter_cases (fun _ => acc_ownSteps none) (acc_joining (fun run mem => ?_) none)
  obtain ⟨branch, declared, rfl⟩ := List.mem_map.mp mem
  exact branches branch declared _
termination_by sizeOf stage

mutual

theorem acc_nearer : ∀ run : StageRun, Acc (Nearer policy) run
  | fresh stage inherited => acc_fresh stage inherited
  | joining _ _ runs failure => acc_joining (allAcc_nearer runs) failure
  | working _ _ branches own => acc_working branches own
  | settled output failure => acc_settled output failure
  | received output => (acc_settled output none).inv .received

theorem allAcc_nearer : ∀ runs : List StageRun, ∀ run ∈ runs, Acc (Nearer policy) run
  | [] => nofun
  | run :: rest => List.forall_mem_cons.mpr ⟨acc_nearer run, allAcc_nearer rest⟩

end

theorem nearer_of_moveHere (h : run.moveHere c w = .moved w' run') :
    run'.Nearer c.engine.policy run := by
  cases run with
  | fresh stage inherited =>
    cases h
    exact .enters
  | joining stage agent runs failure =>
    simp only [moveHere] at h
    split at h <;> cases h
    exact .leaves
  | working stage agent branches own =>
    simp only [moveHere] at h
    cases turn : own.move c stage agent w with
    | blocked => simp [turn, followSteps] at h
    | crashed w₁ reason held => simp [turn, followSteps] at h
    | moved w₁ later =>
      simp only [turn, followSteps] at h
      cases h
      exact .works (OwnSteps.nearer_of_move turn)
    | ended w₁ result =>
      simp only [turn, followSteps] at h
      cases h
      exact .settles
  | settled output failure => cases h
  | received output => cases h

/-- Every turn brings a stage nearer to its end. -/
theorem nearer_of_move {path : List Nat} (h : run.move c w path = .moved w' run') :
    run'.Nearer c.engine.policy run := by
  induction path generalizing c run run' with
  | nil => exact nearer_of_moveHere (by simpa [move] using h)
  | cons i path ih =>
    cases turned_of_move h with
    | receives there => exact .inside there .received
    | inside there unsettled moved =>
      have nearer := ih moved
      exact .inside there nearer

end StageRun

/-! ### Executions -/

namespace Execution

/-- An execution is nearer to its end, or has broken down. -/
inductive Phase.Nearer (policy : RetryPolicy) : Phase → Phase → Prop where
  | refused {result : Except ExecutionError Report} : Nearer policy (.over result) .fresh
  | begins {workflow : String} {todo : List Stage} {results : StageResults} :
      Nearer policy (.between workflow 0 todo results) .fresh
  | finishes {workflow : String} {index : Nat} {todo : List Stage} {results : StageResults}
      {result : Except ExecutionError Report} :
      Nearer policy (.over result) (.between workflow index todo results)
  | starts {workflow name : String} {index : Nat} {stage : Stage} {todo : List Stage}
      {results : StageResults} {run : StageRun} :
      Nearer policy (.inStage workflow index name run todo results)
        (.between workflow index (stage :: todo) results)
  | inside {workflow name : String} {index : Nat} {todo : List Stage} {results : StageResults}
      {run run' : StageRun} (nearer : run'.Nearer policy run) :
      Nearer policy (.inStage workflow index name run' todo results)
        (.inStage workflow index name run todo results)
  | leaves {workflow name : String} {index next : Nat} {run : StageRun} {todo : List Stage}
      {results results' : StageResults} :
      Nearer policy (.between workflow next todo results')
        (.inStage workflow index name run todo results)
  | fails {workflow name : String} {index : Nat} {run : StageRun} {todo : List Stage}
      {results : StageResults} {result : Except ExecutionError Report} :
      Nearer policy (.over result) (.inStage workflow index name run todo results)
  | breaks {workflow name reason : String} {index : Nat} {run : StageRun} {todo : List Stage}
      {results : StageResults} :
      Nearer policy (.crashed reason) (.inStage workflow index name run todo results)

namespace Phase

theorem acc_over (result : Except ExecutionError Report) : Acc (Nearer policy) (.over result) :=
  ⟨_, nofun⟩

theorem acc_crashed (reason : String) : Acc (Nearer policy) (.crashed reason) :=
  ⟨_, nofun⟩

theorem acc_inStage {workflow name : String} {index : Nat} {todo : List Stage}
    {results : StageResults}
    (behind : ∀ next results, Acc (Nearer policy) (.between workflow next todo results))
    (run : StageRun) : Acc (Nearer policy) (.inStage workflow index name run todo results) := by
  induction StageRun.acc_nearer run with
  | intro run _ ih =>
    refine ⟨_, fun next nearer => ?_⟩
    cases nearer with
    | inside nearer => exact ih _ nearer
    | leaves => exact behind _ _
    | fails => exact acc_over _
    | breaks => exact acc_crashed _

theorem acc_between {workflow : String} {todo : List Stage} (index : Nat) (results : StageResults) :
    Acc (Nearer policy) (.between workflow index todo results) := by
  induction todo generalizing index results with
  | nil =>
    refine ⟨_, fun next nearer => ?_⟩
    cases nearer
    exact acc_over _
  | cons stage todo ih =>
    refine ⟨_, fun next nearer => ?_⟩
    cases nearer with
    | finishes => exact acc_over _
    | starts => exact acc_inStage ih _

theorem wf_nearer : WellFounded (Nearer policy) := by
  refine ⟨fun phase => ?_⟩
  cases phase with
  | fresh =>
    refine ⟨_, fun next nearer => ?_⟩
    cases nearer with
    | refused => exact acc_over _
    | begins => exact acc_between _ _
  | between workflow index todo results => exact acc_between _ _
  | inStage workflow index name run todo results => exact acc_inStage acc_between run
  | crashed reason => exact acc_crashed reason
  | _ => exact acc_over _

end Phase

variable {engine : Engine} {e e' : Execution} {path : List Nat}

/-- Every turn brings an execution nearer to its end. -/
theorem nearer_of_move (h : e.move engine w path = .moved w' e') :
    e'.phase.Nearer engine.policy e.phase := by
  cases turned_of_move h with
  | refused fresh missing => exact fresh ▸ .refused
  | begins fresh known noted => exact fresh ▸ .begins
  | finishes phase noted => exact phase ▸ .finishes
  | starts phase noted => exact phase ▸ .starts
  | succeeds phase => exact phase ▸ .leaves
  | fails phase noted => exact phase ▸ .fails
  | inside phase unsettled moved =>
    have nearer := StageRun.nearer_of_move moved
    exact phase ▸ .inside nearer

/-- Only what is in a stage breaks down. -/
theorem nearer_of_crash {reason : String} {held : List String}
    (h : e.move engine w path = .crashed w' reason held) :
    Phase.Nearer engine.policy (.crashed reason) e.phase := by
  unfold move at h
  split at h
  next =>
    unfold begin at h
    split at h <;> cases h
  next => cases h
  next => cases h
  next output failure todo results phase => cases failure <;> cases h
  next phase => exact phase ▸ .breaks
  next => cases h
  next => cases h

end Execution

end PipelineRunner
