import PipelineRunner.Proofs.LogRecords
import PipelineRunner.Proofs.StopAnswers

/-! Whose records are whose. Whatever a turn of an execution notes, even a turn in which it breaks
down, stands at a place of its own workflow, and the calls among it carry the identifier of this
workflow. So what happens in the name of a workflow can be told from the records, and happens only
in turns of its own execution. -/

namespace PipelineRunner

/-- A record stands at a place of this workflow, and carries its identifier if it is a call. -/
def Record.SignedBy (id : String) (r : Record) : Prop :=
  r.place.workflow = id ∧
    match r.event with
    | .called _ _ params _ => params.get? workflowKey = some id
    | _ => True

/-- `w'` comes from `w` by records of this workflow. -/
def World.Signs (id : String) (w w' : World) : Prop :=
  ∃ news : List Record, w'.history = news.reverse ++ w.history ∧ ∀ r ∈ news, r.SignedBy id

/-- Whether an event is a call of a plugin. -/
def Event.isCall : Event → Bool
  | .called .. => true
  | _ => false

namespace World

variable {id : String} {w w' w'' : World} {place : Place}

theorem Signs.still (h : w'.history = w.history) : w.Signs id w' := ⟨[], by simpa using h, by simp⟩

theorem Signs.trans (h : w.Signs id w') (h' : w'.Signs id w'') : w.Signs id w'' := by
  obtain ⟨xs, hx, sx⟩ := h
  obtain ⟨ys, hy, sy⟩ := h'
  refine ⟨xs ++ ys, by simp [hy, hx], fun r mem => ?_⟩
  exact (List.mem_append.mp mem).elim (sx r) (sy r)

theorem signs_note (own : place.workflow = id) {event : Event}
    (uncalled : event.isCall = false := by rfl) : w.Signs id (w.note place event) := by
  refine ⟨[⟨w.clock, place, event⟩], rfl, ?_⟩
  cases event with
  | called => cases uncalled
  | _ => simp [Record.SignedBy, own]

theorem signs_log (own : place.workflow = id) (workflow : String) (level : LogLevel)
    (message : String) : w.Signs id (w.log place workflow level message) :=
  (Signs.still rfl).trans (signs_note own)

theorem signs_call (own : place.workflow = id) {params : StepParams}
    (signed : params.get? workflowKey = some id) (plugin method : String) (builtin : Bool) :
    w.Signs id (w.note place (.called plugin method params builtin)) :=
  ⟨[⟨w.clock, place, _⟩], rfl, by simp [Record.SignedBy, own, signed]⟩

/-- Work is performed at one place, and makes no calls. -/
theorem signs_perform {α : Type} (own : place.workflow = id) (work : Work α) (w : World) :
    w.Signs id (perform place work w).1 := by
  induction work generalizing w with
  | done | crash => exact .still rfl
  | sleep ms rest ih =>
    cases ms with
    | zero => exact ih () w
    | succ ms => exact .still rfl
  | log workflow level message rest ih =>
    exact (signs_log own _ _ _).trans (ih (w.log place workflow level message))
  | remark what rest ih =>
    exact (signs_note own).trans (ih (w.note place (.remarked what)))
  | count counter rest ih => exact (Signs.still rfl).trans (ih _ (w.countUp counter).1)
  | readFiles rest ih => exact ih _ w
  | writeFiles files rest ih => exact (Signs.still rfl).trans (ih { w with files := files })

end World

/-- A turn notes what belongs to this workflow, and leaves what goes on as it should. -/
def Turn.Signs {σ α : Type} (id : String) (w : World) (Q : σ → Prop) : Turn σ α → Prop
  | .blocked => True
  | .moved w' s => w.Signs id w' ∧ Q s
  | .ended w' _ => w.Signs id w'
  | .crashed w' _ _ => w.Signs id w'

variable {id : String} {c : Context} {w w₀ w' : World}

namespace Trial

variable {t : Trial}

/-- The calls of a step carry the identifier of a workflow. -/
def Signed (id : String) (t : Trial) : Prop := t.params.get? workflowKey = some id

theorem retry_signs (signed : t.Signed id) (h : w₀.Signs id w) (attempt : Nat) (e : StepError) :
    (t.retry c attempt e w).Signs id w₀ (Signed id) := by
  unfold retry
  split
  · exact h
  · exact ⟨h.trans (.still rfl), signed⟩

theorem follow_signs (signed : t.Signed id) (here : c.place.workflow = id)
    {progress : World × Progress (Except Cause (Option String))} (h : w₀.Signs id progress.1)
    (attempt : Nat) (deadline : Option Timer) :
    (t.follow c attempt deadline progress).Signs id w₀ (Signed id) := by
  obtain ⟨w, progress⟩ := progress
  cases progress with
  | crashed reason => exact h
  | waits call =>
    cases deadline with
    | some timer => exact ⟨h, signed⟩
    | none => exact ⟨h.trans (.still rfl), signed⟩
  | finished answer =>
    have answered : w₀.Signs id (w.note c.place (.answered answer)) :=
      h.trans (World.signs_note here)
    cases answer with
    | ok output => exact answered
    | error cause => exact retry_signs signed answered _ _

theorem move_signs (signed : t.Signed id) (here : c.place.workflow = id) :
    (t.move c w).Signs id w (Signed id) := by
  have abandons : w.Signs id (w.note c.place .abandoned) := World.signs_note here
  unfold move
  split
  next =>
    split
    · exact .still rfl
    · unfold begin
      dsimp only
      split
      · exact retry_signs signed (.still rfl) _ _
      · exact follow_signs signed here
          ((World.signs_call here signed _ _ _).trans (World.signs_perform here _ _)) _ _
  next =>
    split
    · exact follow_signs signed here (World.signs_perform here _ _) _ _
    split
    · exact abandons
    split
    · exact retry_signs signed abandons _ _
    · trivial
  next =>
    split
    · exact .still rfl
    split
    · exact ⟨.still rfl, signed⟩
    · trivial

end Trial

namespace OwnSteps

variable {stage : Stage} {agent : Agent}

def Signed (id : String) : OwnSteps → Prop
  | trying _ trial _ _ => trial.Signed id
  | _ => True

theorem followPull_signs (here : c.place.workflow = id)
    {progress : World × Progress (Except Cause Unit)} (h : w₀.Signs id progress.1)
    (image : String) : (followPull c image progress).Signs id w₀ (Signed id) := by
  obtain ⟨w, progress⟩ := progress
  cases progress with
  | crashed reason => exact h
  | waits wait => exact ⟨h, trivial⟩
  | finished answer =>
    cases answer with
    | ok done => exact ⟨h.trans (World.signs_note here), trivial⟩
    | error cause => exact h

theorem followStart_signs (here : c.place.workflow = id)
    {progress : World × Progress (Except Cause String)} (h : w₀.Signs id progress.1)
    (image : String) : (followStart c stage image progress).Signs id w₀ (Signed id) := by
  obtain ⟨w, progress⟩ := progress
  cases progress with
  | crashed reason => exact h
  | waits wait => exact ⟨h, trivial⟩
  | finished answer =>
    cases answer with
    | ok container =>
      exact ⟨(h.trans (World.signs_note here)).trans (World.signs_log here _ _ _), trivial⟩
    | error cause => exact h

theorem followStop_signs (here : c.place.workflow = id)
    {progress : World × Progress (Except Cause Unit)} (h : w₀.Signs id progress.1)
    (container : String) (result : StepsResult) :
    (followStop c container result progress).Signs id w₀ (Signed id) := by
  obtain ⟨w, progress⟩ := progress
  cases progress with
  | crashed reason => exact h
  | waits wait => exact ⟨h, trivial⟩
  | finished answer => exact h.trans (World.signs_note here)

theorem followTrial_signs {turn : Turn Trial StepResult} (h : turn.Signs id w (Trial.Signed id))
    (container : Option String) (todo : List Step) (outputs : List String) :
    (followTrial container todo outputs turn).Signs id w (Signed id) := by
  cases turn with
  | blocked => trivial
  | moved w' trial => exact h
  | crashed w' reason held => exact h
  | ended w' result => cases result <;> exact ⟨h, trivial⟩

theorem beginStep_signs (here : c.place.workflow = id) (container : Option String) (step : Step)
    (todo : List Step) (outputs : List String) :
    (beginStep c container step todo outputs w).Signs id w (Signed id) := by
  subst here
  unfold beginStep
  split
  · exact ⟨.still rfl, trivial⟩
  split
  · exact ⟨.still rfl, trivial⟩
  · exact ⟨.still rfl, step.get?_workflowKey _ _⟩

theorem move_signs {own : OwnSteps} (signed : own.Signed id) (here : c.place.workflow = id) :
    (own.move c stage agent w).Signs id w (Signed id) := by
  have begun {α : Type} (event : Event) (uncalled : event.isCall = false) (work : Work α) :
      w.Signs id (World.perform c.place work (w.note c.place event)).1 :=
    (World.signs_note here uncalled).trans (World.signs_perform here _ _)
  cases own with
  | entering =>
    simp only [move]
    split
    · exact ⟨.still rfl, trivial⟩
    split
    · exact .still rfl
    · exact followPull_signs here (begun (.pull _) rfl _) _
  | pulling image wait =>
    simp only [move]
    split
    · exact followPull_signs here (World.signs_perform here _ _) _
    · trivial
  | pulled image => exact followStart_signs here (begun (.start _) rfl _) _
  | starting image wait =>
    simp only [move]
    split
    · exact followStart_signs here (World.signs_perform here _ _) _
    · trivial
  | between container todo outputs =>
    cases todo with
    | nil => exact ⟨.still rfl, trivial⟩
    | cons step todo => exact beginStep_signs here _ _ _ _
  | trying container trial todo outputs => exact followTrial_signs (trial.move_signs signed here) _ _ _
  | leaving container result =>
    cases container with
    | none => exact .still rfl
    | some container => exact followStop_signs here (begun (.stop container) rfl _) _ _
  | stopping container wait result =>
    simp only [move]
    split
    · exact followStop_signs here (World.signs_perform here _ _) _ _
    · trivial

end OwnSteps

namespace StageRun

variable {stage : Stage} {agent : Agent}

mutual

/-- The calls in a stage carry the identifier of a workflow. -/
def Signed (id : String) : StageRun → Prop
  | joining _ _ runs _ => AllSigned id runs
  | working _ _ _ own => own.Signed id
  | _ => True

def AllSigned (id : String) : List StageRun → Prop
  | [] => True
  | run :: rest => run.Signed id ∧ AllSigned id rest

end

variable {run : StageRun} {runs : List StageRun}

theorem allSigned_iff : AllSigned id runs ↔ ∀ run ∈ runs, run.Signed id := by
  induction runs with
  | nil => simp [AllSigned]
  | cons run rest ih => simp [AllSigned, ih]

theorem allSigned_set (signed : AllSigned id runs) (i : Nat) (new : run.Signed id) :
    AllSigned id (runs.set i run) := by
  rw [allSigned_iff] at signed ⊢
  intro other mem
  rcases List.mem_or_eq_of_mem_set mem with old | rfl
  · exact signed other old
  · exact new

theorem signed_ownSteps (branches : Option StageResults) :
    (ownSteps stage agent branches).Signed id :=
  ownSteps_cases branches (fun _ => trivial) trivial

theorem moveHere_signs (signed : run.Signed id) (here : c.place.workflow = id) :
    (run.moveHere c w).Signs id w (Signed id) := by
  cases run with
  | fresh stage inherited =>
    refine ⟨.still rfl, enter_cases (fun _ => signed_ownSteps _) (allSigned_iff.mpr ?_)⟩
    simp [Signed]
  | joining stage agent runs failure =>
    simp only [moveHere]
    split
    · exact ⟨.still rfl, leaveJoin_cases _ _ (fun _ _ _ => trivial) fun _ _ => signed_ownSteps _⟩
    · trivial
  | working stage agent branches own =>
    have h : (own.move c stage agent w).Signs id w (OwnSteps.Signed id) :=
      OwnSteps.move_signs signed here
    simp only [moveHere]
    cases ho : own.move c stage agent w <;> rw [ho] at h
    · trivial
    · exact h
    · exact ⟨h, trivial⟩
    · exact h
  | settled output failure => trivial
  | received output => trivial

theorem followBranch_signs {turn : Turn StageRun Empty} (h : turn.Signs id w (Signed id))
    (signed : AllSigned id runs) (failure : Option StepError) (i : Nat) :
    (followBranch stage agent runs failure i turn).Signs id w (Signed id) := by
  cases turn with
  | blocked | ended => trivial
  | moved w' run => exact ⟨h.1, allSigned_set signed i h.2⟩
  | crashed w' reason held => exact h

theorem move_signs (signed : run.Signed id) (here : c.place.workflow = id) (path : List Nat) :
    (run.move c w path).Signs id w (Signed id) := by
  induction path generalizing c run with
  | nil => simpa [move] using moveHere_signs signed here
  | cons i path ih =>
    cases run with
    | joining stage agent runs failure =>
      rw [move]
      split
      next => trivial
      next => exact ⟨World.signs_note here, allSigned_set signed i trivial⟩
      next run _ there =>
        have inside := allSigned_iff.mp signed run (List.mem_of_getElem? there)
        exact followBranch_signs (ih (c := Context.inside c stage failure i) inside here) signed _ _
    | _ => simp [move, Turn.Signs]

end StageRun

namespace Execution

variable {engine : Engine} {e e' : Execution} {path : List Nat}

/-- The execution is that of a workflow, whose identifier its calls carry. -/
def Signed (id : String) (e : Execution) : Prop :=
  e.properties.workflowId = .ok id ∧
    match e.phase with
    | .between workflow _ _ _ => workflow = id
    | .inStage workflow _ _ run _ _ => workflow = id ∧ run.Signed id
    | .over (.ok report) => report.workflowId = id
    | .over (.error _) => False
    | _ => True

theorem enter_signs (state : WorkflowState) : w.Signs id (e.enter id state w).1 := by
  simp only [enter]
  split
  · exact World.signs_note rfl
  · exact .still rfl

theorem begin_signs (known : e.properties.workflowId = .ok id) :
    (e.begin w).Signs id w (Signed id) := by
  unfold begin
  rw [known]
  exact ⟨(enter_signs .started).trans (enter_signs .running), known, rfl⟩

theorem finish_signs (known : e.properties.workflowId = .ok id) (results : StageResults)
    (failure : Option StageFailure) :
    (e.finish ⟨id, results, failure⟩ w).Signs id w (Signed id) :=
  ⟨enter_signs .done, known, rfl⟩

theorem move_signs (signed : e.Signed id) : (e.move engine w path).Signs id w (Signed id) := by
  obtain ⟨pipeline, properties, state, phase, rota⟩ := e
  obtain ⟨known, signed⟩ := signed
  cases phase with
  | fresh => exact begin_signs known
  | between workflow index todo results =>
    obtain rfl : workflow = id := signed
    cases todo with
    | nil => exact finish_signs known _ _
    | cons stage todo => exact ⟨World.signs_log rfl _ _ _, known, rfl, trivial⟩
  | inStage workflow index name run todo results =>
    obtain ⟨rfl, inside⟩ := signed
    cases hs : run.isSettled with
    | false =>
      rw [move_unsettled rfl hs]
      have turn := StageRun.move_signs (w := w) (c := outermost engine workflow index) inside rfl path
      cases hr : run.move (outermost engine workflow index) w path <;> rw [hr] at turn
      · trivial
      · exact ⟨turn.1, known, rfl, turn.2⟩
      · trivial
      · exact turn
    | true =>
      cases run with
      | settled output failure =>
        cases failure with
        | none => exact ⟨.still rfl, known, rfl⟩
        | some error =>
          let e : Execution := ⟨pipeline, properties, state, .inStage workflow index name
            (.settled output (some error)) todo results, rota⟩
          have finishes (w : World) : (e.finish ⟨workflow, OrderedMap.insert name output results,
              some ⟨name, error.message⟩⟩ w).Signs workflow w (Signed workflow) :=
            finish_signs known _ _
          obtain ⟨signs, signed⟩ := finishes (w.log ⟨workflow, [index]⟩ workflow .error
            s!"Stage '{name}' failed: {error.message}")
          exact ⟨(World.signs_log rfl _ _ _).trans signs, signed⟩
      | _ => cases hs
  | _ => trivial

/-- A step notes what belongs to the workflow of the execution, even if it breaks down. -/
theorem step_signs (signed : e.Signed id) : (e.step engine w).Signs id w (Signed id) := by
  cases stepped : e.step engine w with
  | blocked => trivial
  | ended _ value => cases value
  | moved w' e' =>
    rcases step_moved stepped with ⟨after, rota, moved, rfl⟩ | ⟨rfl, rota, rfl⟩
    · have turn : (e.move engine w e.rota.place).Signs id w (Signed id) := move_signs signed
      rw [moved] at turn
      exact ⟨turn.1, turn.2⟩
    · exact ⟨.still rfl, signed⟩
  | crashed w' reason held =>
    have turn : (e.move engine w e.rota.place).Signs id w (Signed id) := move_signs signed
    rw [step_crashed stepped] at turn
    exact turn

end Execution

end PipelineRunner
