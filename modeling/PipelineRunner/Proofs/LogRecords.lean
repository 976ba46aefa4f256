import PipelineRunner.Engine.Execution
import PipelineRunner.Proofs.RegistryRuns
import PipelineRunner.Proofs.Scheduling
import PipelineRunner.Proofs.StepIdentity

/-! What turns write into logs. The records of the world tell each entry and each move of a state in
their order, so that logs and states can be told from them. As long as plugins log for the workflow
that a call belongs to, a turn of an execution writes for its own workflow only, and not behind the
record that the workflow is done. -/

namespace PipelineRunner

/-- Whether an event is neither an entry of a log nor a move of a state. -/
def Event.isOutward : Event → Bool
  | .logged .. => false
  | .entered _ => false
  | _ => true

namespace Record

/-- A record is an entry in the log of a workflow. -/
def IsEntry (id : String) (r : Record) : Prop :=
  match r.event with
  | .logged workflow _ _ => workflow = id
  | _ => False

/-- The state of a workflow behind a record. -/
def stateAfter (id : String) (state : WorkflowState) (r : Record) : WorkflowState :=
  match r.event with
  | .entered next => if r.place = ⟨id, []⟩ then next else state
  | _ => state

/-- The logs behind a record. -/
def write (logs : LogBuffer) (r : Record) : LogBuffer :=
  match r.event with
  | .logged workflow level message => logs.add workflow ⟨.ofMilliseconds r.time, level, message⟩
  | _ => logs

/-- Neither an entry for another workflow nor a move of a state. -/
def IsPlain (id : String) (r : Record) : Prop :=
  match r.event with
  | .logged workflow _ _ => workflow = id
  | .entered _ => False
  | _ => True

/-- Neither an entry for another workflow nor a move of the state of another one. -/
def Concerns (id : String) (r : Record) : Prop :=
  match r.event with
  | .logged workflow _ _ => workflow = id
  | .entered _ => r.place = ⟨id, []⟩
  | _ => True

variable {id other : String} {r : Record}

theorem IsPlain.concerns (plain : r.IsPlain id) : r.Concerns id := by
  unfold IsPlain at plain
  unfold Concerns
  split at plain <;> simp_all

theorem IsPlain.stateAfter (plain : r.IsPlain id) (state : WorkflowState) :
    r.stateAfter id state = state := by
  unfold IsPlain at plain
  unfold Record.stateAfter
  split at plain <;> simp_all

theorem Concerns.not_entry (concerns : r.Concerns id) (different : other ≠ id) :
    ¬ r.IsEntry other := by
  unfold Concerns at concerns
  unfold IsEntry
  split at concerns <;> simp_all [Ne.symm]

theorem Concerns.stateAfter (concerns : r.Concerns id) (different : other ≠ id)
    (state : WorkflowState) : r.stateAfter other state = state := by
  unfold Concerns at concerns
  unfold Record.stateAfter
  split at concerns <;> simp_all [Ne.symm]

end Record

/-- The state of a workflow behind some records. -/
def statesAfter (id : String) (state : WorkflowState) (news : List Record) : WorkflowState :=
  news.foldl (Record.stateAfter id) state

/-- The logs behind some records. -/
def writeAll (logs : LogBuffer) (news : List Record) : LogBuffer := news.foldl Record.write logs

/-- A workflow that is done stays so, and nothing is logged for it any more. -/
def Timely (id : String) : WorkflowState → List Record → Prop
  | _, [] => True
  | state, r :: rest =>
    (state = .done → ¬ r.IsEntry id ∧ r.stateAfter id state = .done) ∧
      Timely id (r.stateAfter id state) rest

section Records

variable {id other : String} {state : WorkflowState} {xs ys : List Record}

theorem statesAfter_append :
    statesAfter id state (xs ++ ys) = statesAfter id (statesAfter id state xs) ys :=
  List.foldl_append

theorem writeAll_append (logs : LogBuffer) :
    writeAll logs (xs ++ ys) = writeAll (writeAll logs xs) ys :=
  List.foldl_append

theorem timely_append :
    Timely id state (xs ++ ys) ↔ Timely id state xs ∧ Timely id (statesAfter id state xs) ys := by
  induction xs generalizing state with
  | nil => simp [Timely, statesAfter]
  | cons r rest ih =>
    simp only [List.cons_append, Timely, ih, statesAfter, List.foldl_cons, and_assoc]

theorem Timely.done (timely : Timely id .done xs) :
    statesAfter id .done xs = .done ∧ ∀ r ∈ xs, ¬ r.IsEntry id := by
  induction xs with
  | nil => exact ⟨rfl, by simp⟩
  | cons r rest ih =>
    obtain ⟨here, later⟩ := timely
    obtain ⟨silent, still⟩ := here rfl
    rw [still] at later
    obtain ⟨done, silence⟩ := ih later
    simp only [statesAfter, List.foldl_cons, still, List.mem_cons, forall_eq_or_imp]
    exact ⟨done, silent, silence⟩

/-- Records of another workflow leave the state alone and are no entries. -/
theorem of_others (concern : ∀ r ∈ xs, r.Concerns other) (different : id ≠ other)
    (state : WorkflowState) : statesAfter id state xs = state ∧ Timely id state xs := by
  induction xs with
  | nil => exact ⟨rfl, trivial⟩
  | cons r rest ih =>
    have here := concern r List.mem_cons_self
    obtain ⟨same, timely⟩ := ih fun r hr => concern r (List.mem_cons_of_mem _ hr)
    simp only [statesAfter, List.foldl_cons, Timely, here.stateAfter different]
    exact ⟨same, fun done => ⟨here.not_entry different, done⟩, timely⟩

theorem of_plain (plain : ∀ r ∈ xs, r.IsPlain id) (state : WorkflowState) :
    statesAfter id state xs = state ∧ (state ≠ .done → Timely id state xs) := by
  induction xs with
  | nil => exact ⟨rfl, fun _ => trivial⟩
  | cons r rest ih =>
    have here := plain r List.mem_cons_self
    obtain ⟨same, timely⟩ := ih fun r hr => plain r (List.mem_cons_of_mem _ hr)
    simp only [statesAfter, List.foldl_cons, Timely, here.stateAfter]
    exact ⟨same, fun undone => ⟨fun done => absurd done undone, timely undone⟩⟩

end Records

section Discretion

/-- A piece of work that logs for this workflow only, or for none at all. -/
def Work.LogsFor (id : Option String) {α : Type} : Work α → Prop
  | .done _ => True
  | .sleep _ rest => (rest ()).LogsFor id
  | .log workflow _ _ rest => some workflow = id ∧ rest.LogsFor id
  | .remark _ rest => rest.LogsFor id
  | .count _ rest => ∀ n, (rest n).LogsFor id
  | .readFiles rest => ∀ files, (rest files).LogsFor id
  | .writeFiles _ rest => rest.LogsFor id
  | .crash _ => True

/-- The calls of a plugin log for the workflow that they belong to. -/
def Plugin.Discreet (plugin : Plugin) : Prop :=
  ∀ method params, (plugin.invoke method params).LogsFor (params.get? workflowKey)

def Registry.Discreet (r : Registry) : Prop := ∀ p ∈ r.plugins, p.plugin.Discreet

/-- Containers come and go without a log. -/
structure ContainerRuntime.Silent (runtime : ContainerRuntime) : Prop where
  pull : ∀ image, (runtime.pull image).LogsFor none
  start : ∀ image, (runtime.start image).LogsFor none
  stop : ∀ container, (runtime.stop container).LogsFor none

theorem Work.LogsFor.any {α : Type} {work : Work α} (silent : work.LogsFor none)
    (id : Option String) : work.LogsFor id := by
  induction work with
  | done | crash => trivial
  | sleep ms rest ih => exact ih () silent
  | log workflow level message rest ih => cases silent.1
  | remark what rest ih | writeFiles files rest ih => exact ih silent
  | count counter rest ih | readFiles rest ih => exact fun x => ih x (silent x)

end Discretion

namespace World

/-- `w'` comes from `w` by plain records, which tell the logs. -/
def Adds (id : String) (w w' : World) : Prop :=
  w'.registry = w.registry ∧ ∃ news : List Record, w'.history = news.reverse ++ w.history ∧
    w'.logs = writeAll w.logs news ∧ ∀ r ∈ news, r.IsPlain id

/-- `w'` comes from `w` by records that concern a workflow, tell its log and lead from one of its
states to another, with nothing logged behind the end. -/
def Writes (id : String) (state state' : WorkflowState) (w w' : World) : Prop :=
  w'.registry = w.registry ∧ ∃ news : List Record, w'.history = news.reverse ++ w.history ∧
    w'.logs = writeAll w.logs news ∧ (∀ r ∈ news, r.Concerns id) ∧
    statesAfter id state news = state' ∧ Timely id state news

variable {id : String} {state state' state'' : WorkflowState} {w w' w'' : World}

theorem Adds.still (registry : w'.registry = w.registry) (history : w'.history = w.history)
    (logs : w'.logs = w.logs) : Adds id w w' :=
  ⟨registry, [], history, logs, by simp⟩

theorem Adds.trans (h : Adds id w w') (h' : Adds id w' w'') : Adds id w w'' := by
  obtain ⟨rx, xs, hx, lx, px⟩ := h
  obtain ⟨ry, ys, hy, ly, py⟩ := h'
  refine ⟨ry.trans rx, xs ++ ys, by simp [hy, hx], by rw [writeAll_append, ly, lx], fun r mem => ?_⟩
  exact (List.mem_append.mp mem).elim (px r) (py r)

theorem Adds.writes (h : Adds id w w') (undone : state ≠ .done) : Writes id state state w w' := by
  obtain ⟨registry, news, history, logs, plain⟩ := h
  obtain ⟨same, timely⟩ := of_plain plain state
  exact ⟨registry, news, history, logs, fun r mem => (plain r mem).concerns, same, timely undone⟩

theorem Writes.still : Writes id state state w w :=
  ⟨rfl, [], rfl, rfl, by simp, rfl, trivial⟩

theorem Writes.trans (h : Writes id state state' w w') (h' : Writes id state' state'' w' w'') :
    Writes id state state'' w w'' := by
  obtain ⟨rx, xs, hx, lx, cx, sx, tx⟩ := h
  obtain ⟨ry, ys, hy, ly, cy, sy, ty⟩ := h'
  subst sx
  refine ⟨ry.trans rx, xs ++ ys, by simp [hy, hx], by rw [writeAll_append, ly, lx], fun r mem => ?_,
    by rw [statesAfter_append, sy], timely_append.mpr ⟨tx, ty⟩⟩
  exact (List.mem_append.mp mem).elim (cx r) (cy r)


theorem adds_note (place : Place) {event : Event} (outward : event.isOutward = true := by rfl) :
    Adds id w (w.note place event) := by
  refine ⟨rfl, [⟨w.clock, place, event⟩], rfl, ?_, ?_⟩
  · cases event with
    | logged | entered => cases outward
    | _ => rfl
  · cases event with
    | logged | entered => cases outward
    | _ => simp [Record.IsPlain]

theorem adds_log (place : Place) (level : LogLevel) (message : String) :
    Adds id w (w.log place id level message) :=
  ⟨rfl, [_], rfl, rfl, by simp [Record.IsPlain]⟩

theorem writes_enter (undone : state ≠ .done) (next : WorkflowState) :
    Writes id state next w (w.note ⟨id, []⟩ (.entered next)) :=
  ⟨rfl, [_], rfl, rfl, by simp [Record.Concerns], by simp [statesAfter, Record.stateAfter],
    fun done => absurd done undone, trivial⟩

/-- What is left of a piece of work that waits. -/
def Leaves {α : Type} (Q : Work α → Prop) : Progress α → Prop
  | .waits wait => Q wait.rest
  | _ => True

/-- Work that logs for one workflow adds to the log of this workflow. -/
theorem adds_perform {α : Type} (place : Place) {work : Work α} (discreet : work.LogsFor (some id))
    (w : World) :
    Adds id w (perform place work w).1 ∧ Leaves (·.LogsFor (some id)) (perform place work w).2 := by
  induction work generalizing w with
  | done | crash => exact ⟨.still rfl rfl rfl, trivial⟩
  | sleep ms rest ih =>
    cases ms with
    | zero => exact ih () discreet w
    | succ ms => exact ⟨.still rfl rfl rfl, discreet⟩
  | log workflow level message rest ih =>
    obtain ⟨owner, discreet⟩ := discreet
    obtain rfl := Option.some.inj owner
    obtain ⟨adds, leaves⟩ := ih discreet (w.log place workflow level message)
    exact ⟨(adds_log place level message).trans adds, leaves⟩
  | remark what rest ih =>
    obtain ⟨adds, leaves⟩ := ih discreet (w.note place (.remarked what))
    exact ⟨(adds_note place).trans adds, leaves⟩
  | count counter rest ih =>
    obtain ⟨adds, leaves⟩ := ih _ (discreet _) (w.countUp counter).1
    exact ⟨(Adds.still rfl rfl rfl).trans adds, leaves⟩
  | readFiles rest ih => exact ih _ (discreet _) w
  | writeFiles files rest ih =>
    obtain ⟨adds, leaves⟩ := ih discreet { w with files := files }
    exact ⟨(Adds.still rfl rfl rfl).trans adds, leaves⟩

end World

/-- What a turn adds to the log of a workflow, and how it leaves whatever goes on. -/
def Turn.Adds {σ α : Type} (id : String) (w : World) (Q : σ → Prop) : Turn σ α → Prop
  | .blocked => True
  | .moved w' s => World.Adds id w w' ∧ Q s
  | .ended w' _ => World.Adds id w w'
  | .crashed w' _ _ => World.Adds id w w'

variable {id : String} {c : Context} {w w₀ w' : World}

namespace Trial

variable {t : Trial}

/-- The step belongs to a workflow, and so does what its call in flight logs. -/
def Minds (id : String) (t : Trial) : Prop :=
  t.params.get? workflowKey = some id ∧
    match t.phase with
    | .calling _ _ call => call.rest.LogsFor (some id)
    | _ => True

theorem retry_adds (minds : t.Minds id) (h : World.Adds id w₀ w) (attempt : Nat) (e : StepError) :
    (t.retry c attempt e w).Adds id w₀ (Minds id) := by
  unfold retry
  split
  · exact h
  · exact ⟨h.trans (.still rfl rfl rfl), minds.1, trivial⟩

theorem follow_adds (minds : t.Minds id)
    {progress : World × Progress (Except Cause (Option String))}
    (h : World.Adds id w₀ progress.1) (leaves : World.Leaves (·.LogsFor (some id)) progress.2)
    (attempt : Nat) (deadline : Option Timer) :
    (t.follow c attempt deadline progress).Adds id w₀ (Minds id) := by
  obtain ⟨w, progress⟩ := progress
  cases progress with
  | crashed reason => exact h
  | waits call =>
    cases deadline with
    | some timer => exact ⟨h, minds.1, leaves⟩
    | none => exact ⟨h.trans (.still rfl rfl rfl), minds.1, leaves⟩
  | finished answer =>
    have answered : World.Adds id w₀ (w.note c.place (.answered answer)) :=
      h.trans (World.adds_note c.place)
    cases answer with
    | ok output => exact answered
    | error cause => exact retry_adds minds answered _ _

theorem begin_adds (minds : t.Minds id) (discreet : w.registry.Discreet) (attempt : Nat) :
    (t.begin c attempt w).Adds id w (Minds id) := by
  unfold begin
  dsimp only
  split
  next => exact retry_adds minds (.still rfl rfl rfl) _ _
  next registration reached =>
    have call := discreet _ (Registry.of_reach reached).1 t.binding.method t.params
    rw [minds.1] at call
    obtain ⟨adds, leaves⟩ := World.adds_perform c.place call
      (w.note c.place (.called t.binding.plugin t.binding.method t.params
        registration.plugin.builtin))
    exact follow_adds minds ((World.adds_note c.place).trans adds) leaves _ _

theorem move_adds (minds : t.Minds id) (discreet : w.registry.Discreet) :
    (t.move c w).Adds id w (Minds id) := by
  have abandons : World.Adds id w (w.note c.place .abandoned) := World.adds_note _
  unfold move
  split
  next =>
    split
    · exact .still rfl rfl rfl
    · exact begin_adds minds discreet _
  next attempt deadline call phase =>
    have rest : call.rest.LogsFor (some id) := by simpa [phase] using minds.2
    split
    · obtain ⟨adds, leaves⟩ := World.adds_perform c.place rest w
      exact follow_adds minds adds leaves _ _
    split
    · exact abandons
    split
    · exact retry_adds minds abandons _ _
    · trivial
  next =>
    split
    · exact .still rfl rfl rfl
    split
    · exact ⟨.still rfl rfl rfl, minds.1, trivial⟩
    · trivial

end Trial

namespace OwnSteps

variable {stage : Stage} {agent : Agent}

/-- Whatever is under way logs for a workflow only. -/
def Minds (id : String) : OwnSteps → Prop
  | pulling _ wait => wait.rest.LogsFor (some id)
  | starting _ wait => wait.rest.LogsFor (some id)
  | trying _ trial _ _ => trial.Minds id
  | stopping _ wait _ => wait.rest.LogsFor (some id)
  | _ => True

theorem followPull_adds {progress : World × Progress (Except Cause Unit)}
    (h : World.Adds id w₀ progress.1) (leaves : World.Leaves (·.LogsFor (some id)) progress.2)
    (image : String) : (followPull c image progress).Adds id w₀ (Minds id) := by
  obtain ⟨w, progress⟩ := progress
  cases progress with
  | crashed reason => exact h
  | waits wait => exact ⟨h, leaves⟩
  | finished answer =>
    cases answer with
    | ok done => exact ⟨h.trans (World.adds_note _), trivial⟩
    | error cause => exact h

theorem followStart_adds (own : c.place.workflow = id)
    {progress : World × Progress (Except Cause String)} (h : World.Adds id w₀ progress.1)
    (leaves : World.Leaves (·.LogsFor (some id)) progress.2) (image : String) :
    (followStart c stage image progress).Adds id w₀ (Minds id) := by
  subst own
  obtain ⟨w, progress⟩ := progress
  cases progress with
  | crashed reason => exact h
  | waits wait => exact ⟨h, leaves⟩
  | finished answer =>
    cases answer with
    | ok container =>
      exact ⟨(h.trans (World.adds_note _)).trans (World.adds_log _ _ _), trivial⟩
    | error cause => exact h

theorem followStop_adds {progress : World × Progress (Except Cause Unit)}
    (h : World.Adds id w₀ progress.1) (leaves : World.Leaves (·.LogsFor (some id)) progress.2)
    (container : String) (result : StepsResult) :
    (followStop c container result progress).Adds id w₀ (Minds id) := by
  obtain ⟨w, progress⟩ := progress
  cases progress with
  | crashed reason => exact h
  | waits wait => exact ⟨h, leaves⟩
  | finished answer => exact h.trans (World.adds_note _)

theorem followTrial_adds {turn : Turn Trial StepResult} (h : turn.Adds id w (Trial.Minds id))
    (container : Option String) (todo : List Step) (outputs : List String) :
    (followTrial container todo outputs turn).Adds id w (Minds id) := by
  cases turn with
  | blocked => trivial
  | moved w' trial => exact h
  | crashed w' reason held => exact h
  | ended w' result => cases result <;> exact ⟨h, trivial⟩

theorem beginStep_adds (own : c.place.workflow = id) (container : Option String) (step : Step)
    (todo : List Step) (outputs : List String) :
    (beginStep c container step todo outputs w).Adds id w (Minds id) := by
  subst own
  unfold beginStep
  split
  · exact ⟨.still rfl rfl rfl, trivial⟩
  split
  · exact ⟨.still rfl rfl rfl, trivial⟩
  · exact ⟨.still rfl rfl rfl, step.get?_workflowKey _ _, trivial⟩

theorem move_adds {own : OwnSteps} (minds : own.Minds id) (discreet : w.registry.Discreet)
    (silent : c.engine.runtime.Silent) (here : c.place.workflow = id) :
    (own.move c stage agent w).Adds id w (Minds id) := by
  have begun {α : Type} (event : Event) (outward : event.isOutward = true) {work : Work α}
      (quiet : work.LogsFor none) :
      World.Adds id w (World.perform c.place work (w.note c.place event)).1 ∧
        World.Leaves (·.LogsFor (some id))
          (World.perform c.place work (w.note c.place event)).2 := by
    obtain ⟨adds, leaves⟩ := World.adds_perform c.place (quiet.any (some id)) (w.note c.place event)
    exact ⟨(World.adds_note c.place outward).trans adds, leaves⟩
  have still : World.Adds id w w := .still rfl rfl rfl
  cases own with
  | entering =>
    simp only [move]
    split
    · exact ⟨still, trivial⟩
    split
    · exact still
    · obtain ⟨adds, leaves⟩ := begun (.pull _) rfl (silent.pull _)
      exact followPull_adds adds leaves _
  | pulling image wait =>
    simp only [move]
    split
    · obtain ⟨adds, leaves⟩ := World.adds_perform c.place minds w
      exact followPull_adds adds leaves _
    · trivial
  | pulled image =>
    obtain ⟨adds, leaves⟩ := begun (.start _) rfl (silent.start _)
    exact followStart_adds here adds leaves _
  | starting image wait =>
    simp only [move]
    split
    · obtain ⟨adds, leaves⟩ := World.adds_perform c.place minds w
      exact followStart_adds here adds leaves _
    · trivial
  | between container todo outputs =>
    cases todo with
    | nil => exact ⟨still, trivial⟩
    | cons step todo => exact beginStep_adds here _ _ _ _
  | trying container trial todo outputs =>
    exact followTrial_adds (Trial.move_adds minds discreet) _ _ _
  | leaving container result =>
    cases container with
    | none => exact still
    | some container =>
      obtain ⟨adds, leaves⟩ := begun (.stop container) rfl (silent.stop container)
      exact followStop_adds adds leaves _ _
  | stopping container wait result =>
    simp only [move]
    split
    · obtain ⟨adds, leaves⟩ := World.adds_perform c.place minds w
      exact followStop_adds adds leaves _ _
    · trivial

end OwnSteps

namespace StageRun

mutual

/-- Whatever is under way in a stage logs for a workflow only. -/
def Minds (id : String) : StageRun → Prop
  | joining _ _ runs _ => MindsAll id runs
  | working _ _ _ own => own.Minds id
  | _ => True

def MindsAll (id : String) : List StageRun → Prop
  | [] => True
  | run :: rest => run.Minds id ∧ MindsAll id rest

end

theorem mindsAll_iff {runs : List StageRun} : MindsAll id runs ↔ ∀ run ∈ runs, run.Minds id := by
  induction runs with
  | nil => simp [MindsAll]
  | cons run rest ih => simp [MindsAll, ih]

theorem mindsAll_set {runs : List StageRun} (minds : MindsAll id runs) (i : Nat) {run : StageRun}
    (new : run.Minds id) : MindsAll id (runs.set i run) := by
  rw [mindsAll_iff] at minds ⊢
  intro other mem
  rcases List.mem_or_eq_of_mem_set mem with old | rfl
  · exact minds other old
  · exact new

theorem minds_ownSteps (stage : Stage) (agent : Agent) (branches : Option StageResults) :
    (ownSteps stage agent branches).Minds id := by
  unfold ownSteps
  split <;> trivial

theorem minds_enter (stage : Stage) (inherited : Agent) : (enter stage inherited).Minds id := by
  unfold enter
  dsimp only
  split
  · exact minds_ownSteps _ _ _
  · refine mindsAll_iff.mpr fun run mem => ?_
    obtain ⟨branch, -, rfl⟩ := List.mem_map.mp mem
    trivial

theorem minds_leaveJoin (stage : Stage) (agent : Agent) (outputs : List StageOutput)
    (failure : Option StepError) : (leaveJoin stage agent outputs failure).Minds id := by
  unfold leaveJoin
  dsimp only
  split
  · trivial
  · exact minds_ownSteps _ _ _

theorem moveHere_adds {run : StageRun} (minds : run.Minds id) (discreet : w.registry.Discreet)
    (silent : c.engine.runtime.Silent) (here : c.place.workflow = id) :
    (run.moveHere c w).Adds id w (Minds id) := by
  have still : World.Adds id w w := .still rfl rfl rfl
  cases run with
  | fresh stage inherited => exact ⟨still, minds_enter _ _⟩
  | joining stage agent runs failure =>
    simp only [moveHere]
    split
    · exact ⟨still, minds_leaveJoin _ _ _ _⟩
    · trivial
  | working stage agent branches own =>
    have h : (own.move c stage agent w).Adds id w (OwnSteps.Minds id) :=
      OwnSteps.move_adds minds discreet silent here
    simp only [moveHere]
    cases ho : own.move c stage agent w <;> rw [ho] at h
    · trivial
    · exact h
    · exact ⟨h, trivial⟩
    · exact h
  | settled output failure => trivial
  | received output => trivial

theorem followBranch_adds {turn : Turn StageRun Empty} (h : turn.Adds id w (Minds id))
    {runs : List StageRun} (minds : MindsAll id runs) (stage : Stage) (agent : Agent)
    (failure : Option StepError) (i : Nat) :
    (followBranch stage agent runs failure i turn).Adds id w (Minds id) := by
  cases turn with
  | blocked | ended => trivial
  | moved w' run => exact ⟨h.1, mindsAll_set minds i h.2⟩
  | crashed w' reason held => exact h

theorem move_adds {run : StageRun} (minds : run.Minds id) (discreet : w.registry.Discreet)
    (silent : c.engine.runtime.Silent) (here : c.place.workflow = id) (path : List Nat) :
    (run.move c w path).Adds id w (Minds id) := by
  induction path generalizing c run with
  | nil => simpa [move] using moveHere_adds minds discreet silent here
  | cons i path ih =>
    cases run with
    | joining stage agent runs failure =>
      rw [move]
      split
      next => trivial
      next => exact ⟨World.adds_note _, mindsAll_set minds i trivial⟩
      next run _ there =>
        have inside := mindsAll_iff.mp minds run (List.mem_of_getElem? there)
        exact followBranch_adds (ih (c := Context.inside c stage failure i) inside silent here)
          minds _ _ _ _
    | _ => simp [move, Turn.Adds]

end StageRun

namespace Execution

variable {engine : Engine} {e e' : Execution} {path : List Nat}

/-- The execution is that of a workflow, whose state tells how far it is. -/
def Minds (id : String) (e : Execution) : Prop :=
  match e.phase with
  | .fresh => e.state.state = .pending ∧ ∀ other, e.properties.workflowId = .ok other → other = id
  | .between workflow _ _ _ => e.state.state = .running ∧ workflow = id
  | .inStage workflow _ _ run _ _ => e.state.state = .running ∧ workflow = id ∧ run.Minds id
  | .over (.ok _) => e.state.state = .done
  | .over (.error _) => e.state.state = .pending
  | .crashed _ => e.state.state = .running

/-- A turn writes into the log of its workflow, and moves its state, but nothing behind the end. -/
def WritesOn (id : String) (e : Execution) (w : World) : Turn Execution Empty → Prop
  | .moved w' e' => World.Writes id e.state.state e'.state.state w w' ∧ e'.Minds id
  | .crashed w' _ _ => World.Adds id w w' ∧ e.state.state = .running
  | _ => True

theorem enter_writes {next : WorkflowState} (later : e.state.state.before next = true) :
    World.Writes id e.state.state (e.enter id next w).2.state.state w (e.enter id next w).1 ∧
      (e.enter id next w).2.state.state = next ∧ (e.enter id next w).2.phase = e.phase := by
  simp only [enter, StateCell.advance, later, if_true]
  refine ⟨World.writes_enter (fun done => ?_) _, trivial, trivial⟩
  rw [done] at later
  cases next <;> cases later

theorem begin_writes (minds : e.Minds id) (fresh : e.phase = .fresh) :
    e.WritesOn id w (e.begin w) := by
  simp only [Minds, fresh] at minds
  obtain ⟨pending, known⟩ := minds
  unfold begin
  split
  next => exact ⟨.still, pending⟩
  next other found =>
    obtain rfl := known other found
    obtain ⟨started, state, -⟩ := @enter_writes other w e .started (by rw [pending]; rfl)
    generalize e.enter other .started w = entered at started state ⊢
    obtain ⟨w', e'⟩ := entered
    obtain ⟨runs, running, -⟩ := @enter_writes other w' e' .running (by rw [state]; rfl)
    exact ⟨started.trans runs, running, rfl⟩

theorem finish_writes (running : e.state.state = .running) (report : Report)
    (own : report.workflowId = id) : e.WritesOn id w (e.finish report w) := by
  subst own
  obtain ⟨done, state, -⟩ := @enter_writes report.workflowId w e .done (by rw [running]; rfl)
  exact ⟨done, state⟩

theorem leaveStage_writes (running : e.state.state = .running) (index : Nat) (stage : String)
    (output : StageOutput) (failure : Option StepError) (todo : List Stage)
    (results : StageResults) :
    e.WritesOn id w (e.leaveStage id index stage output failure todo results w) := by
  cases failure with
  | none => exact ⟨.still, running, rfl⟩
  | some error =>
    -- The entry on the failure comes before the end.
    have undone : e.state.state ≠ .done := by simp [running]
    have tells : World.Writes id e.state.state e.state.state w (w.log ⟨id, [index]⟩ id .error
        s!"Stage '{stage}' failed: {error.message}") := (World.adds_log _ _ _).writes undone
    have finishes (w : World) : e.WritesOn id w (e.finish ⟨id, OrderedMap.insert stage output results,
        some ⟨stage, error.message⟩⟩ w) := finish_writes running _ rfl
    obtain ⟨ends, minds⟩ :=
      finishes (w.log ⟨id, [index]⟩ id .error s!"Stage '{stage}' failed: {error.message}")
    exact ⟨tells.trans ends, minds⟩

theorem followStage_writes {turn : Turn StageRun Empty} (h : turn.Adds id w (StageRun.Minds id))
    (running : e.state.state = .running) (index : Nat) (stage : String) (todo : List Stage)
    (results : StageResults) :
    e.WritesOn id w (e.followStage id index stage todo results turn) := by
  cases turn with
  | blocked | ended => trivial
  | moved w' run => exact ⟨h.1.writes (by simp [running]), running, rfl, h.2⟩
  | crashed w' reason held => exact ⟨h, running⟩

theorem move_writes (minds : e.Minds id) (discreet : w.registry.Discreet)
    (silent : engine.runtime.Silent) : e.WritesOn id w (e.move engine w path) := by
  unfold move
  split
  next fresh => exact begin_writes minds fresh
  next workflow index results phase =>
    simp only [Minds, phase] at minds
    exact finish_writes minds.1 _ minds.2
  next workflow index stage todo results phase =>
    simp only [Minds, phase] at minds
    obtain ⟨running, rfl⟩ := minds
    exact ⟨(World.adds_log _ _ _).writes (by simp [running]), running, rfl, trivial⟩
  next workflow index stage output failure todo results phase =>
    simp only [Minds, phase] at minds
    obtain ⟨running, rfl, -⟩ := minds
    exact leaveStage_writes running _ _ _ _ _ _
  next workflow index stage run todo results _ phase =>
    simp only [Minds, phase] at minds
    obtain ⟨running, rfl, inside⟩ := minds
    exact followStage_writes (StageRun.move_adds inside discreet silent rfl path) running _ _ _ _
  next => trivial
  next => trivial

theorem Minds.called (minds : e.Minds id) (rota : Rota) : ({ e with rota } : Execution).Minds id :=
  minds

theorem step_writes (minds : e.Minds id) (discreet : w.registry.Discreet)
    (silent : engine.runtime.Silent) : e.WritesOn id w (e.step engine w) := by
  cases stepped : e.step engine w with
  | blocked => trivial
  | ended _ value => cases value
  | moved w' e' =>
    rcases step_moved stepped with ⟨after, rota, moved, rfl⟩ | ⟨rfl, rota, rfl⟩
    · have writes : e.WritesOn id w (e.move engine w e.rota.place) :=
        move_writes minds discreet silent
      rw [moved] at writes
      exact ⟨writes.1, writes.2.called rota⟩
    · exact ⟨.still, minds.called rota⟩
  | crashed w' reason held =>
    have writes : e.WritesOn id w (e.move engine w e.rota.place) :=
      move_writes minds discreet silent
    rw [step_crashed stepped] at writes
    exact writes

end Execution

end PipelineRunner
