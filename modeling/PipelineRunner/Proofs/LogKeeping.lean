import PipelineRunner.Proofs.EndedWorkflows
import PipelineRunner.Proofs.LogRecords

/-! The logs of a launcher. Each workflow has one task, and only this task writes into its log; so a
turn of any task adds to one log at most, and the records of the turn tell for every workflow what
has been added and which state it is in. -/

namespace PipelineRunner

/-- The entry of a log that a record is. -/
def Record.entry? (id : String) (r : Record) : Option LogEntry :=
  match r.event with
  | .logged workflow level message =>
    if workflow = id then some ⟨.ofMilliseconds r.time, level, message⟩ else none
  | _ => none

/-- The entries of a log among some records. -/
def entriesOf (id : String) (news : List Record) : List LogEntry := news.filterMap (Record.entry? id)

namespace LogBuffer

variable {id other : String} {b : LogBuffer} {news : List Record}

theorem entries_write (r : Record) :
    entries (r.write b) id = b.entries id ++ (r.entry? id).toList := by
  obtain ⟨time, place, event⟩ := r
  cases event with
  | logged workflow level message =>
    by_cases mine : workflow = id
    · subst mine
      simp [Record.write, Record.entry?]
    · simp [Record.write, Record.entry?, mine, entries_add_of_ne (Ne.symm mine)]
  | _ => simp [Record.write, Record.entry?]

/-- A log grows by its entries among the records. -/
theorem entries_writeAll :
    entries (writeAll b news) id = b.entries id ++ entriesOf id news := by
  induction news generalizing b with
  | nil => simp [writeAll, entriesOf]
  | cons r rest ih =>
    have later : entries (writeAll (r.write b) rest) id = _ := ih
    rw [show writeAll b (r :: rest) = writeAll (r.write b) rest from rfl, later, entries_write]
    cases h : r.entry? id <;> simp [entriesOf, h]

theorem entries_drain_self : entries (b.drain id).1 id = [] := by
  unfold drain
  split
  next => simp [entries]
  next missing => simp [entries, missing]

theorem entries_drain_of_ne (different : id ≠ other) :
    entries (b.drain other).1 id = b.entries id := by
  unfold drain
  split
  next => simp [entries, OrderedMap.get?_insert_of_ne different]
  next => rfl

/-- What is taken is what nobody has taken yet. -/
theorem drain_taken : (b.drain id).2 = b.entries id := by
  unfold drain
  split <;> next found => simp [entries, found]

theorem get?_remove_of_ne (different : id ≠ other) :
    OrderedMap.get? id (b.remove other) = OrderedMap.get? id b := by
  unfold remove
  induction b with
  | nil => rfl
  | cons e rest ih =>
    obtain ⟨name, value⟩ := e
    by_cases gone : name = other
    · simp [gone, OrderedMap.get?, Ne.symm different, ih]
    · simp [gone, OrderedMap.get?, ih]

theorem get?_remove_self : OrderedMap.get? id (b.remove id) = none := by
  unfold remove
  induction b with
  | nil => rfl
  | cons e rest ih =>
    obtain ⟨name, value⟩ := e
    by_cases gone : name = id
    · simp [gone, ih]
    · simp [gone, OrderedMap.get?, ih]

theorem entries_remove_self : entries (b.remove id) id = [] := by
  simp [entries, get?_remove_self]

theorem entries_remove_of_ne (different : id ≠ other) :
    entries (b.remove other) id = b.entries id := by
  simp [entries, get?_remove_of_ne different]

end LogBuffer

section Entries

variable {id : String} {news : List Record}

theorem entry?_eq_none {r : Record} : r.entry? id = none ↔ ¬ r.IsEntry id := by
  obtain ⟨time, place, event⟩ := r
  cases event <;> simp [Record.entry?, Record.IsEntry]

theorem entriesOf_eq_nil : entriesOf id news = [] ↔ ∀ r ∈ news, ¬ r.IsEntry id := by
  simp only [entriesOf, List.filterMap_eq_nil_iff, entry?_eq_none]

theorem entriesOf_append {more : List Record} :
    entriesOf id (news ++ more) = entriesOf id news ++ entriesOf id more := by
  simp [entriesOf]

end Entries

namespace World

variable {id : String} {state : WorkflowState} {w w' : World}

/-- `w'` comes from `w` by events that touch neither logs nor states. -/
def Outward (w w' : World) : Prop :=
  w'.registry = w.registry ∧ w'.logs = w.logs ∧ ∃ news : List Record,
    w'.history = news.reverse ++ w.history ∧ ∀ r ∈ news, r.event.isOutward = true

theorem outward_note (place : Place) {event : Event} (outward : event.isOutward = true := by rfl) :
    w.Outward (w.note place event) :=
  ⟨rfl, rfl, [⟨w.clock, place, event⟩], rfl, by simpa using outward⟩

theorem Outward.trans {w'' : World} (h : w.Outward w') (h' : w'.Outward w'') : w.Outward w'' := by
  obtain ⟨rx, lx, xs, hx, ox⟩ := h
  obtain ⟨ry, ly, ys, hy, oy⟩ := h'
  refine ⟨ry.trans rx, ly.trans lx, xs ++ ys, by simp [hy, hx], fun r mem => ?_⟩
  exact (List.mem_append.mp mem).elim (ox r) (oy r)

theorem Outward.still (registry : w'.registry = w.registry) (history : w'.history = w.history)
    (logs : w'.logs = w.logs) : w.Outward w' :=
  ⟨registry, logs, [], history, by simp⟩

theorem outward_perform {α : Type} (place : Place) {work : Work α} (silent : work.LogsFor none)
    (w : World) :
    w.Outward (perform place work w).1 ∧ Leaves (·.LogsFor none) (perform place work w).2 := by
  induction work generalizing w with
  | done | crash => exact ⟨.still rfl rfl rfl, trivial⟩
  | sleep ms rest ih =>
    cases ms with
    | zero => exact ih () silent w
    | succ ms => exact ⟨.still rfl rfl rfl, silent⟩
  | log workflow level message rest ih => cases silent.1
  | remark what rest ih =>
    obtain ⟨outward, leaves⟩ := ih silent (w.note place (.remarked what))
    exact ⟨(outward_note place).trans outward, leaves⟩
  | count counter rest ih =>
    obtain ⟨outward, leaves⟩ := ih _ (silent _) (w.countUp counter).1
    exact ⟨(Outward.still rfl rfl rfl).trans outward, leaves⟩
  | readFiles rest ih => exact ih _ (silent _) w
  | writeFiles files rest ih =>
    obtain ⟨outward, leaves⟩ := ih silent { w with files := files }
    exact ⟨(Outward.still rfl rfl rfl).trans outward, leaves⟩

theorem of_outward {news : List Record} (outward : ∀ r ∈ news, r.event.isOutward = true)
    (id : String) (state : WorkflowState) (logs : LogBuffer) :
    statesAfter id state news = state ∧ writeAll logs news = logs ∧ Timely id state news ∧
      ∀ r ∈ news, ¬ r.IsEntry id := by
  induction news with
  | nil => exact ⟨rfl, rfl, trivial, by simp⟩
  | cons r rest ih =>
    obtain ⟨same, kept, timely, silent⟩ := ih fun r hr => outward r (List.mem_cons_of_mem _ hr)
    have here : r.stateAfter id state = state ∧ r.write logs = logs ∧ ¬ r.IsEntry id := by
      have outward := outward r List.mem_cons_self
      obtain ⟨time, place, event⟩ := r
      cases event with
      | logged | entered => cases outward
      | _ => exact ⟨rfl, rfl, fun entry => entry⟩
    obtain ⟨state_eq, logs_eq, quiet⟩ := here
    simp only [statesAfter, writeAll, List.foldl_cons, Timely, state_eq, logs_eq]
    exact ⟨same, kept, ⟨fun done => ⟨quiet, done⟩, timely⟩,
      List.forall_mem_cons.mpr ⟨quiet, silent⟩⟩

end World

namespace Cleanup

variable {runtime : ContainerRuntime} {c c' : Cleanup} {w w' : World}

/-- What is under way logs nothing. -/
def Minds (c : Cleanup) : Prop :=
  match c.phase with
  | .stopping wait => wait.rest.LogsFor none
  | _ => True

theorem follow_outward {w₀ : World} {progress : World × Progress (Except Cause Unit)}
    (h : c.follow progress = (w', c')) (outward : w₀.Outward progress.1)
    (leaves : World.Leaves (·.LogsFor none) progress.2) : w₀.Outward w' ∧ c'.Minds := by
  obtain ⟨w, progress⟩ := progress
  cases progress with
  | finished answer =>
    cases h
    exact ⟨outward.trans (World.outward_note _), trivial⟩
  | waits wait =>
    cases h
    exact ⟨outward, leaves⟩
  | crashed reason =>
    cases h
    exact ⟨outward, trivial⟩

theorem step_outward (minds : c.Minds) (silent : runtime.Silent)
    (h : c.step runtime w = some (w', c')) : w.Outward w' ∧ c'.Minds := by
  unfold step at h
  split at h
  next =>
    obtain ⟨outward, leaves⟩ := World.outward_perform {} (silent.stop c.container)
      (w.note {} (.stop c.container))
    exact follow_outward (Option.some.inj h) ((World.outward_note {}).trans outward) leaves
  next wait phase =>
    simp only [Minds, phase] at minds
    split at h
    · obtain ⟨outward, leaves⟩ := World.outward_perform {} minds w
      exact follow_outward (Option.some.inj h) outward leaves
    · cases h
  next => cases h

end Cleanup

namespace Task

/-- Whatever a task has under way logs for its own workflow only. -/
def Minds : Task → Prop
  | workflow _ .over _ => True
  | workflow id _ e => e.Minds id
  | cleanup c => c.Minds

/-- What a turn of a task does to the world and to the task, and which tasks it leaves behind. -/
inductive Does (engine : Engine) (w : World) : Task → World → Task → List Task → Prop
  | waits (id : String) (e : Execution) :
    Does engine w (workflow id .arriving e) w (workflow id .waiting e) []
  | enters (id : String) (e : Execution) :
    Does engine w (workflow id .arriving e) w (workflow id .running e) []
  | succeeds (id : String) (e : Execution) (report : Report) (ended : e.phase = .over (.ok report)) :
    Does engine w (workflow id .running e) (e.enter id .done w).1
      (workflow id .over (e.enter id .done w).2) []
  | fails (id : String) (e : Execution) (error : ExecutionError)
      (ended : e.phase = .over (.error error)) :
    Does engine w (workflow id .running e)
      (e.enter id .done (w.log ⟨id, []⟩ id .error error.message)).1
      (workflow id .over (e.enter id .done (w.log ⟨id, []⟩ id .error error.message)).2) []
  | goes (id : String) (e : Execution) {w' : World} {e' : Execution}
      (moved : e.step engine w = .moved w' e') :
    Does engine w (workflow id .running e) w' (workflow id .running e') []
  | breaks (id : String) (e : Execution) {w' : World} {reason : String} {held : List String}
      (crashed : e.step engine w = .crashed w' reason held) :
    Does engine w (workflow id .running e) w'
      (workflow id .over { e with phase := .crashed reason })
      (held.map fun container => cleanup { container })
  | cleans (c : Cleanup) {w' : World} {c' : Cleanup}
      (stepped : c.step engine.runtime w = some (w', c')) :
    Does engine w (cleanup c) w' (cleanup c') []

/-- A task is as it was, or has been given a permit. -/
inductive Granted : Task → Task → Prop
  | same (task : Task) : Granted task task
  | granted (id : String) (e : Execution) :
    Granted (workflow id .waiting e) (workflow id .running e)

theorem Granted.minds {task task' : Task} (granted : Granted task task') (minds : task.Minds) :
    task'.Minds := by
  cases granted <;> exact minds

/-- The same tasks, some of which have been given permits. -/
def AllGranted (tasks tasks' : List Task) : Prop :=
  ∀ n : Nat, Option.Rel Granted tasks[n]? tasks'[n]?

theorem allGranted_refl (tasks : List Task) : AllGranted tasks tasks := by
  intro n
  cases tasks[n]? with
  | none => exact .none
  | some task => exact .some (.same task)

/-- A turn leaves whatever is under way as it was: each task logs for its own workflow. -/
theorem Does.minds {engine : Engine} {w w' : World} {task task' : Task} {more : List Task}
    (does : Does engine w task w' task' more) (minds : task.Minds)
    (discreet : w.registry.Discreet) (silent : engine.runtime.Silent) :
    task'.Minds ∧ ∀ t ∈ more, ∃ container, t = cleanup { container } := by
  cases does with
  | waits id e => exact ⟨minds, by simp⟩
  | enters id e => exact ⟨minds, by simp⟩
  | succeeds id e report ended => exact ⟨trivial, by simp⟩
  | fails id e error ended => exact ⟨trivial, by simp⟩
  | goes id e moved =>
    have writes := Execution.step_writes minds discreet silent
    rw [moved] at writes
    exact ⟨writes.2, by simp⟩
  | breaks id e crashed =>
    refine ⟨trivial, fun t mem => ?_⟩
    obtain ⟨container, -, rfl⟩ := List.mem_map.mp mem
    exact ⟨container, rfl⟩
  | cleans c stepped => exact ⟨(Cleanup.step_outward minds silent stepped).2, by simp⟩

/-- A turn writes for the workflow of its task, and for no workflow if it is a cleanup. -/
theorem Does.writes {engine : Engine} {w w' : World} {task task' : Task} {more : List Task}
    (does : Does engine w task w' task' more) (minds : task.Minds)
    (discreet : w.registry.Discreet) (silent : engine.runtime.Silent) :
    (∃ id admission e admission' e', task = workflow id admission e ∧
      task' = workflow id admission' e' ∧ World.Writes id e.state.state e'.state.state w w') ∨
    ∃ c c', task = cleanup c ∧ task' = cleanup c' ∧ w.Outward w' := by
  cases does with
  | waits id e => exact .inl ⟨id, _, e, _, e, rfl, rfl, .still⟩
  | enters id e => exact .inl ⟨id, _, e, _, e, rfl, rfl, .still⟩
  | succeeds id e report ended =>
    have done : e.state.state = .done := by simpa [Minds, Execution.Minds, ended] using minds
    have still : e.state.advance .done = (e.state, false) := by
      simp [StateCell.advance, done, WorkflowState.before]
    refine .inl ⟨id, _, e, _, _, rfl, rfl, ?_⟩
    simp only [Execution.enter, still]
    exact .still
  | fails id e error ended =>
    have pending : e.state.state = .pending := by
      simpa [Minds, Execution.Minds, ended] using minds
    have tells : World.Writes id e.state.state e.state.state w
        (w.log ⟨id, []⟩ id .error error.message) :=
      (World.adds_log _ _ _).writes (by simp [pending])
    obtain ⟨done, -, -⟩ := @Execution.enter_writes id (w.log ⟨id, []⟩ id .error error.message) e
      .done (by rw [pending]; rfl)
    exact .inl ⟨id, _, e, _, _, rfl, rfl, tells.trans done⟩
  | goes id e moved =>
    have writes := Execution.step_writes minds discreet silent
    rw [moved] at writes
    exact .inl ⟨id, _, e, _, _, rfl, rfl, writes.1⟩
  | breaks id e crashed =>
    have writes := Execution.step_writes minds discreet silent
    rw [crashed] at writes
    exact .inl ⟨id, _, e, _, { e with phase := .crashed _ }, rfl, rfl,
      writes.1.writes (by simp [writes.2])⟩
  | cleans c stepped =>
    exact .inr ⟨c, _, rfl, rfl, (Cleanup.step_outward minds silent stepped).1⟩

end Task

namespace Launcher

variable {l l' l'' : Launcher} {n : Nat} {id : String} {e : Execution} {task task' : Task}

theorem release_granted (waits : Waits l) : Task.AllGranted l.tasks l.release.tasks := by
  unfold release
  split
  next => exact Task.allGranted_refl _
  next n rest waiting =>
    obtain ⟨id, e, there⟩ := waits.idle n (by simp [waiting])
    intro m
    by_cases same : n = m
    · subst same
      have inside := (List.getElem?_eq_some_iff.mp there).1
      simp only [grant, there, setTask, List.getElem?_set_self inside]
      exact .some (.granted id e)
    · simpa [grant, there, setTask, same] using Task.allGranted_refl l.tasks m

theorem release_world : l.release.world = l.world := by
  unfold release
  split
  · rfl
  · unfold grant
    split <;> rfl

theorem setTask_granted :
    Task.AllGranted (l.tasks.set n task' ++ []) (l.setTask n task').tasks := by
  rw [List.append_nil]
  exact Task.allGranted_refl _

/-- A task that ends gives its permit back. -/
theorem over_granted (waits : Waits l) (there : l.tasks[n]? = some (.workflow id .running e))
    (w : World) (e' : Execution) :
    Task.AllGranted (l.tasks.set n (.workflow id .over e') ++ [])
      ({ l.setTask n (.workflow id .over e') with world := w }.release).tasks := by
  have waits : Waits { l.setTask n (.workflow id .over e') with world := w } :=
    (waits.setTask there (by simp)).of_tasks rfl rfl
  rw [List.append_nil]
  exact release_granted waits

theorem breakDown_granted (waits : Waits l)
    (there : l.tasks[n]? = some (.workflow id .running e)) (reason : String) (held : List String) :
    Task.AllGranted
      (l.tasks.set n (.workflow id .over { e with phase := .crashed reason }) ++
        held.map fun container => .cleanup { container })
      (l.breakDown n id e reason held).tasks := by
  obtain ⟨-, waiting, -, tasks⟩ := foldl_spawnCleanup
    (l := l.setTask n (.workflow id .over { e with phase := .crashed reason })) held
  have waits := (waits.setTask there (by simp)).append (held.map fun id => .cleanup { container := id })
    waiting tasks
  have granted := release_granted waits
  rw [tasks] at granted
  exact granted

theorem breakDown_world (reason : String) (held : List String) :
    (l.breakDown n id e reason held).world = l.world := by
  have kept : ∀ l : Launcher, (held.foldl spawnCleanup l).world = l.world := by
    induction held with
    | nil => exact fun l => rfl
    | cons container rest ih => exact fun l => ih (l.spawnCleanup container)
  exact release_world.trans (kept _)

theorem turn_cases (waits : Waits l) (had : l.turn n = some l') :
    ∃ task task' more, l.tasks[n]? = some task ∧
      Task.Does l.engine l.world task l'.world task' more ∧
      Task.AllGranted (l.tasks.set n task' ++ more) l'.tasks := by
  unfold turn at had
  split at had
  next id e there =>
    cases had
    unfold arrive
    split
    · exact ⟨_, _, [], there, .waits id e, setTask_granted⟩
    · exact ⟨_, _, [], there, .enters id e, setTask_granted⟩
  next id e there =>
    split at had
    next result ended =>
      cases had
      rw [Execution.result?_eq_some] at ended
      cases result with
      | ok report =>
        refine ⟨_, _, [], there, ?_, over_granted waits there _ _⟩
        exact (release_world (l := { l.setTask n _ with world := _ })).symm ▸
          .succeeds id e report ended
      | error error =>
        refine ⟨_, _, [], there, ?_, over_granted waits there _ _⟩
        exact (release_world (l := { l.setTask n _ with world := _ })).symm ▸
          .fails id e error ended
    next =>
      split at had
      next w' e' moved =>
        cases had
        exact ⟨_, _, [], there, .goes id e moved, setTask_granted⟩
      next w' reason held crashed =>
        cases had
        refine ⟨_, _, _, there, ?_,
          breakDown_granted (l := { l with world := w' }) (waits.of_tasks rfl rfl) there reason held⟩
        rw [breakDown_world]
        exact .breaks id e crashed
      next => cases had
  next c there =>
    obtain ⟨⟨w', c'⟩, stepped, rfl⟩ := Option.map_eq_some_iff.mp had
    exact ⟨_, _, [], there, .cleans c stepped, setTask_granted⟩
  next => cases had

section Keeping

/-- Each workflow has one task, whoever is known has one, and a workflow without a task has no
log. Whatever is under way logs for its own workflow. -/
structure Keeps (l : Launcher) : Prop where
  waits : Waits l
  discreet : l.world.registry.Discreet
  silent : l.engine.runtime.Silent
  minds : ∀ task ∈ l.tasks, task.Minds
  distinct : ∀ (m n : Nat) id a b e e', l.tasks[m]? = some (.workflow id a e) →
    l.tasks[n]? = some (.workflow id b e') → m = n
  known : ∀ w ∈ l.workflows, ∃ a e, l.tasks[w.task]? = some (.workflow w.id a e)
  blank : ∀ id, (∀ a e, Task.workflow id a e ∉ l.tasks) → l.world.logs.entries id = []

/-- What a turn writes: its records tell the logs, and how the state of each workflow moves. -/
structure Wrote (l l' : Launcher) (news : List Record) : Prop where
  history : l'.world.history = news.reverse ++ l.world.history
  logs : l'.world.logs = writeAll l.world.logs news
  tells : ∀ (m : Nat) id a e, l.tasks[m]? = some (.workflow id a e) →
    ∃ a' e', l'.tasks[m]? = some (.workflow id a' e') ∧
      e'.state.state = statesAfter id e.state.state news ∧ Timely id e.state.state news
  unknown : ∀ id, (∀ a e, Task.workflow id a e ∉ l.tasks) → ∀ r ∈ news, ¬ r.IsEntry id

variable {news : List Record}

/-- The tasks from before a turn are still there, but for the one that has had it. -/
theorem tasks_forward {tasks tasks' more : List Task}
    (granted : Task.AllGranted (tasks.set n task' ++ more) tasks') {m : Nat}
    (there : tasks[m]? = some task) :
    ∃ new, tasks'[m]? = some new ∧ Task.Granted (if n = m then task' else task) new := by
  have inside := (List.getElem?_eq_some_iff.mp there).1
  have here : (tasks.set n task' ++ more)[m]? = some (if n = m then task' else task) := by
    rw [List.getElem?_append_left (by simpa using inside), List.getElem?_set]
    split
    next same => rw [if_pos (same ▸ inside)]
    next => exact there
  have rel := granted m
  rw [here] at rel
  generalize tasks'[m]? = new at rel ⊢
  cases rel with
  | some granted => exact ⟨_, rfl, granted⟩

/-- The tasks behind a turn are those from before, and some cleanups. -/
theorem tasks_backward {tasks tasks' more : List Task}
    (granted : Task.AllGranted (tasks.set n task' ++ more) tasks')
    (cleanups : ∀ t ∈ more, ∃ container, t = .cleanup { container }) {m : Nat} {new : Task}
    (there : tasks'[m]? = some new) :
    (∃ task, tasks[m]? = some task ∧ Task.Granted (if n = m then task' else task) new) ∨
      ∃ container, new = .cleanup { container } := by
  cases old : tasks[m]? with
  | some task =>
    obtain ⟨new', there', granted⟩ := tasks_forward granted old
    obtain rfl := Option.some.inj (there.symm.trans there')
    exact .inl ⟨task, rfl, granted⟩
  | none =>
    have outside := List.getElem?_eq_none_iff.mp old
    have rel := granted m
    rw [List.getElem?_append_right (by simpa using outside), there] at rel
    generalize found : more[m - (tasks.set n task').length]? = added at rel
    cases rel with
    | some granted =>
      obtain ⟨container, rfl⟩ := cleanups _ (List.mem_of_getElem? found)
      cases granted
      exact .inr ⟨container, rfl⟩

theorem workflow_forward {tasks tasks' more : List Task}
    (granted : Task.AllGranted (tasks.set n task' ++ more) tasks') {m : Nat} {a : Admission}
    (there : tasks[m]? = some (.workflow id a e)) (other : n ≠ m) :
    ∃ a', tasks'[m]? = some (.workflow id a' e) := by
  obtain ⟨new, there', granted⟩ := tasks_forward granted there
  rw [if_neg other] at granted
  cases granted <;> exact ⟨_, there'⟩

/-- The records of a turn, case by case: its task is that of a workflow, or a cleanup. -/
theorem wrote_of_does {more : List Task} (distinct : ∀ (m n : Nat) id a b e e',
      l.tasks[m]? = some (.workflow id a e) → l.tasks[n]? = some (.workflow id b e') → m = n)
    (there : l.tasks[n]? = some task)
    (granted : Task.AllGranted (l.tasks.set n task' ++ more) l'.tasks)
    (writes : (∃ id admission e admission' e', task = .workflow id admission e ∧
        task' = .workflow id admission' e' ∧
        World.Writes id e.state.state e'.state.state l.world l'.world) ∨
      ∃ c c', task = .cleanup c ∧ task' = .cleanup c' ∧ l.world.Outward l'.world) :
    ∃ news, Wrote l l' news := by
  rcases writes with ⟨own, a₀, e₀, a₁, e₁, rfl, rfl, -, news, history, logs, concern, state, timely⟩ |
    ⟨c, c', rfl, rfl, -, logs, news, history, outward⟩
  · refine ⟨news, history, logs, fun m id a e here => ?_, fun id unknown r hr => ?_⟩
    · by_cases mine : n = m
      · subst mine
        obtain ⟨new, there', granted⟩ := tasks_forward granted there
        cases there.symm.trans here
        rw [if_pos rfl] at granted
        cases granted <;> exact ⟨_, _, there', state.symm, timely⟩
      · have different : id ≠ own := by
          rintro rfl
          exact mine (distinct n m id _ _ _ _ there here)
        obtain ⟨a', there'⟩ := workflow_forward granted here mine
        obtain ⟨same, timely⟩ := of_others concern different e.state.state
        exact ⟨a', e, there', same.symm, timely⟩
    · have different : id ≠ own := by
        rintro rfl
        exact unknown _ _ (List.mem_of_getElem? there)
      exact (concern r hr).not_entry different
  · have quiet := World.of_outward outward
    refine ⟨news, history, logs.trans (quiet "" .done _).2.1.symm, fun m id a e here => ?_,
      fun id unknown => (quiet id .done []).2.2.2⟩
    have mine : n ≠ m := by
      rintro rfl
      cases there.symm.trans here
    obtain ⟨a', there'⟩ := workflow_forward granted here mine
    obtain ⟨same, -, timely, -⟩ := quiet id e.state.state []
    exact ⟨a', e, there', same.symm, timely⟩

/-- A turn writes for one workflow at most, and what it leaves under way logs as it should. -/
theorem Keeps.turn (keeps : l.Keeps) (had : l.turn n = some l') :
    ∃ news, Wrote l l' news ∧ l'.Keeps := by
  obtain ⟨task, task', more, there, does, granted⟩ := turn_cases keeps.waits had
  have minds := keeps.minds task (List.mem_of_getElem? there)
  obtain ⟨minds', cleanups⟩ := does.minds minds keeps.discreet keeps.silent
  have writes := does.writes minds keeps.discreet keeps.silent
  obtain ⟨evolves, waits⟩ := evolves_turn keeps.waits had
  obtain ⟨news, wrote⟩ := wrote_of_does keeps.distinct there granted writes
  have registry : l'.world.registry = l.world.registry := by
    rcases writes with ⟨_, _, _, _, _, -, -, same, -⟩ | ⟨_, _, -, -, same, -⟩ <;> exact same
  -- Nobody but the launcher's owner brings in a workflow.
  have origin : ∀ (m : Nat) id a e, l'.tasks[m]? = some (.workflow id a e) →
      ∃ a' e', l.tasks[m]? = some (.workflow id a' e') := by
    intro m id a e new
    rcases tasks_backward granted cleanups new with ⟨old, here, granted⟩ | ⟨container, cleanup⟩
    · by_cases mine : n = m
      · subst mine
        rw [if_pos rfl] at granted
        rcases writes with ⟨_, a₀, e₀, a₁, e₁, rfl, rfl, -⟩ | ⟨_, _, -, rfl, -⟩
        · cases granted <;> exact ⟨_, _, there⟩
        · cases granted
      · rw [if_neg mine] at granted
        cases granted <;> exact ⟨_, _, here⟩
    · cases cleanup
  refine ⟨news, wrote, waits, registry ▸ keeps.discreet, evolves.engine ▸ keeps.silent, ?_, ?_, ?_,
    ?_⟩
  · intro new mem
    obtain ⟨m, here⟩ := List.mem_iff_getElem?.mp mem
    rcases tasks_backward granted cleanups here with ⟨old, before, granted⟩ | ⟨container, rfl⟩
    · refine granted.minds ?_
      split
      · exact minds'
      · exact keeps.minds old (List.mem_of_getElem? before)
    · trivial
  · intro m k id a b e e' hm hk
    obtain ⟨a', e₁, hm⟩ := origin m id a e hm
    obtain ⟨b', e₂, hk⟩ := origin k id b e' hk
    exact keeps.distinct m k id a' b' e₁ e₂ hm hk
  · intro w mem
    obtain ⟨a, e, here⟩ := keeps.known w (turn_workflows had ▸ mem)
    obtain ⟨a', e', there', -⟩ := wrote.tells _ _ _ _ here
    exact ⟨a', e', there'⟩
  · intro id missing
    have unknown : ∀ a e, Task.workflow id a e ∉ l.tasks := by
      intro a e mem
      obtain ⟨m, here⟩ := List.mem_iff_getElem?.mp mem
      obtain ⟨a', e', there', -⟩ := wrote.tells _ _ _ _ here
      exact missing a' e' (List.mem_of_getElem? there')
    rw [wrote.logs, LogBuffer.entries_writeAll, keeps.blank id unknown,
      entriesOf_eq_nil.mpr (wrote.unknown id unknown), List.append_nil]

end Keeping

section Around

/-- What goes on around the turns of tasks without touching the log of a workflow: time passes, the
world changes, and others ask for things. New workflows get new identifiers. -/
inductive Aside (id : String) (l : Launcher) : Launcher → Prop
  | queued (queue : List Nat) : Aside id l { l with queue }
  | time (t : Nat) : Aside id l (l.moveTo t)
  | outside (w : World) (outward : ({ l.world with registry := w.registry } : World).Outward w)
    (discreet : w.registry.Discreet) : Aside id l { l with world := w }
  | submit (other source : String) (properties : Properties)
    (fresh : ∀ a e, Task.workflow other a e ∉ l.tasks) :
    Aside id l (l.submit other source properties).1
  | claim (other : String) : Aside id l (l.claim other)
  | take (other : String) (different : other ≠ id) : Aside id l (l.takeLogs other).1
  | remove (other : String) (different : other ≠ id) : Aside id l (l.remove other).1

/-- What a launcher may come to. -/
inductive Reaches (l : Launcher) : Launcher → Prop
  | here : Reaches l l
  | turn {l' l'' : Launcher} {n : Nat} (so : Reaches l l') (had : l'.turn n = some l'') :
    Reaches l l''
  | aside {l' l'' : Launcher} (so : Reaches l l') (id : String) (aside : Aside id l' l'') :
    Reaches l l''

theorem Aside.goes (aside : Aside id l l') : Goes l l' := by
  cases aside with
  | queued queue => exact .queued queue
  | time t => exact .time t
  | outside w => exact .world w
  | submit other source properties => exact .submit other source properties
  | claim other => exact .claim other
  | take => exact .world _
  | remove other => exact .remove other

theorem wake_workflow (engine : Engine) (w : World) (id : String) (a : Admission) (e : Execution) :
    ∃ rota, wake engine w (.workflow id a e) = .workflow id a { e with rota } := by
  cases a with
  | running =>
    obtain ⟨rota, woken⟩ := @Execution.wake_eq engine e w
    exact ⟨rota, by rw [wake, woken]⟩
  | _ => exact ⟨e.rota, rfl⟩

/-- The tasks of workflows stay where they are, and so do their states. -/
theorem Aside.tasks (aside : Aside id l l') {m : Nat} {other : String} {a : Admission}
    (there : l.tasks[m]? = some (.workflow other a e)) :
    ∃ rota, l'.tasks[m]? = some (.workflow other a { e with rota }) := by
  cases aside with
  | queued | outside | claim | take => exact ⟨e.rota, there⟩
  | time t =>
    obtain ⟨rota, woken⟩ := wake_workflow l.engine { l.world with clock := t } other a e
    exact ⟨rota, by rw [show (l.moveTo t).tasks = l.tasks.map _ from rfl, List.getElem?_map, there,
      Option.map_some, woken]⟩
  | submit new source properties =>
    refine ⟨e.rota, ?_⟩
    have inside := (List.getElem?_eq_some_iff.mp there).1
    cases parsed : Script.parse source with
    | error error => rw [submit_error properties parsed, there]
    | ok pipeline => rw [submit_ok properties parsed, List.getElem?_append_left inside, there]
  | remove removed =>
    refine ⟨e.rota, ?_⟩
    unfold Launcher.remove
    split <;> exact there

theorem Aside.entries (aside : Aside id l l') :
    l'.world.logs.entries id = l.world.logs.entries id := by
  cases aside with
  | queued | time | claim => rfl
  | outside w outward => rw [outward.2.1]
  | submit other source properties =>
    cases parsed : Script.parse source with
    | error error => rw [submit_error properties parsed]
    | ok pipeline => rw [submit_ok properties parsed]
  | take other different => exact LogBuffer.entries_drain_of_ne (Ne.symm different)
  | remove other different =>
    unfold Launcher.remove
    split
    · exact LogBuffer.entries_remove_of_ne (Ne.symm different)
    · rfl

theorem minds_wake (engine : Engine) (w : World) {task : Task} (minds : task.Minds) :
    (wake engine w task).Minds := by
  cases task with
  | cleanup c => exact minds
  | workflow id a e =>
    obtain ⟨rota, woken⟩ := wake_workflow engine w id a e
    rw [woken]
    cases a <;> exact minds

theorem lookup_insert {β : Type} (name : String) (value : β) (m : OrderedMap β) :
    List.lookup name (OrderedMap.insert name value m) = some value := by
  induction m with
  | nil => simp [OrderedMap.insert]
  | cons e rest ih =>
    obtain ⟨n, v⟩ := e
    by_cases here : n = name
    · simp [OrderedMap.insert, here]
    · have other : (name == n) = false := by simpa using Ne.symm here
      simp [OrderedMap.insert, here, List.lookup_cons, other, ih]

/-- A task that is new belongs to the workflow that it is told of. -/
theorem minds_arriving (other : String) (pipeline : Pipeline) (properties : Properties) :
    (Task.workflow other .arriving
      { pipeline, properties := OrderedMap.insert workflowKey (.string other) properties }).Minds := by
  refine ⟨rfl, fun id told => ?_⟩
  simp only [Properties.workflowId, lookup_insert] at told
  split at told
  · cases told
  · exact (Except.ok.inj told).symm

/-- A task of a workflow is an old one, or the new one at the end. -/
theorem workflow_append {tasks : List Task} {other : String} {new : Execution} {a b : Admission}
    (here : (tasks ++ [.workflow other b new])[n]? = some (.workflow id a e)) :
    tasks[n]? = some (.workflow id a e) ∨ n = tasks.length ∧ id = other := by
  rcases Nat.lt_trichotomy n tasks.length with inside | rfl | outside
  · rw [List.getElem?_append_left inside] at here
    exact .inl here
  · rw [List.getElem?_concat_length] at here
    cases here
    exact .inr ⟨rfl, rfl⟩
  · rw [List.getElem?_eq_none (by simpa using Nat.succ_le_of_lt outside)] at here
    cases here

theorem Keeps.submit (keeps : l.Keeps) {other : String} (source : String)
    (properties : Properties) (fresh : ∀ a e, Task.workflow other a e ∉ l.tasks) :
    (l.submit other source properties).1.Keeps := by
  have waits := (evolves_submit keeps.waits other source properties).2
  have known := fun w (mem : w ∈ (l.submit other source properties).1.workflows) =>
    (Goes.submit other source properties).known mem
  have aside : Aside "" l (l.submit other source properties).1 :=
    .submit other source properties fresh
  have old := fun (m : Nat) id a e (there : l.tasks[m]? = some (.workflow id a e)) =>
    aside.tasks there
  cases parsed : Script.parse source with
  | error error => rw [submit_error properties parsed]; exact keeps
  | ok pipeline =>
    rw [submit_ok properties parsed] at waits known old ⊢
    refine ⟨waits, keeps.discreet, keeps.silent, fun task mem => ?_, ?_, fun w mem => ?_,
      fun id missing => keeps.blank id fun a e mem => missing a e (List.mem_append_left _ mem)⟩
    · rcases List.mem_append.mp mem with mem | mem
      · exact keeps.minds task mem
      · exact List.mem_singleton.mp mem ▸ minds_arriving other pipeline properties
    · intro m n id a b e e' hm hn
      rcases workflow_append hm with hm | ⟨rfl, rfl⟩ <;>
        rcases workflow_append hn with hn | ⟨rfl, hid⟩
      · exact keeps.distinct m n id a b e e' hm hn
      · exact absurd (List.mem_of_getElem? hm) (hid ▸ fresh a e)
      · exact absurd (List.mem_of_getElem? hn) (fresh b e')
      · rfl
    · rcases known w mem with ⟨w', before, sameId, sameTask⟩ | ⟨e, there⟩
      · obtain ⟨a, e, there⟩ := keeps.known w' before
        obtain ⟨rota, there⟩ := old _ _ _ _ there
        exact ⟨a, _, sameTask ▸ sameId ▸ there⟩
      · exact ⟨_, e, there⟩

theorem Keeps.aside (keeps : l.Keeps) (aside : Aside id l l') : l'.Keeps := by
  cases aside with
  | queued queue =>
    exact ⟨keeps.waits.of_tasks rfl rfl, keeps.discreet, keeps.silent, keeps.minds, keeps.distinct,
      keeps.known, keeps.blank⟩
  | time t =>
    have tasks : (l.moveTo t).tasks = l.tasks.map (wake l.engine { l.world with clock := t }) := rfl
    have aside : Aside "" l (l.moveTo t) := .time t
    have old : ∀ (m : Nat) id a e, (l.moveTo t).tasks[m]? = some (.workflow id a e) →
        ∃ e', l.tasks[m]? = some (.workflow id a e') := by
      intro m id a e here
      rw [tasks, List.getElem?_map, Option.map_eq_some_iff] at here
      obtain ⟨task, there, woken⟩ := here
      cases task with
      | cleanup c => cases woken
      | workflow id' a' e' =>
        obtain ⟨rota, same⟩ := wake_workflow l.engine { l.world with clock := t } id' a' e'
        cases same.symm.trans woken
        exact ⟨e', there⟩
    refine ⟨(evolves_moveTo keeps.waits t).2, keeps.discreet, keeps.silent, fun task mem => ?_,
      fun m n id a b e e' hm hn => ?_, fun w mem => ?_, fun id missing => ?_⟩
    · obtain ⟨task, before, rfl⟩ := List.mem_map.mp (tasks ▸ mem)
      exact minds_wake _ _ (keeps.minds task before)
    · obtain ⟨e₁, hm⟩ := old m id a e hm
      obtain ⟨e₂, hn⟩ := old n id b e' hn
      exact keeps.distinct m n id a b e₁ e₂ hm hn
    · obtain ⟨a, e, there⟩ := keeps.known w mem
      obtain ⟨rota, there⟩ := aside.tasks there
      exact ⟨a, _, there⟩
    · refine keeps.blank id fun a e mem => ?_
      obtain ⟨m, there⟩ := List.mem_iff_getElem?.mp mem
      obtain ⟨rota, there⟩ := aside.tasks there
      exact missing a _ (List.mem_of_getElem? there)
  | outside w outward discreet =>
    exact ⟨keeps.waits.of_tasks rfl rfl, discreet, keeps.silent, keeps.minds, keeps.distinct,
      keeps.known, fun id missing => outward.2.1 ▸ keeps.blank id missing⟩
  | submit other source properties fresh => exact keeps.submit source properties fresh
  | claim other =>
    refine ⟨keeps.waits.of_tasks rfl rfl, keeps.discreet, keeps.silent, keeps.minds,
      keeps.distinct, fun w mem => ?_, keeps.blank⟩
    obtain ⟨w', before, rfl⟩ := List.mem_map.mp mem
    obtain ⟨a, e, there⟩ := keeps.known w' before
    refine ⟨a, e, ?_⟩
    split <;> exact there
  | take other different =>
    refine ⟨keeps.waits.of_tasks rfl rfl, keeps.discreet, keeps.silent, keeps.minds,
      keeps.distinct, keeps.known, fun id missing => ?_⟩
    by_cases same : id = other
    · exact same ▸ LogBuffer.entries_drain_self
    · exact (LogBuffer.entries_drain_of_ne same).trans (keeps.blank id missing)
  | remove other different =>
    unfold Launcher.remove
    split
    · refine ⟨keeps.waits.of_tasks rfl rfl, keeps.discreet, keeps.silent, keeps.minds,
        keeps.distinct, fun w mem => keeps.known w (List.mem_filter.mp mem).1, fun id missing => ?_⟩
      by_cases same : id = other
      · exact same ▸ LogBuffer.entries_remove_self
      · exact (LogBuffer.entries_remove_of_ne same).trans (keeps.blank id missing)
    · exact keeps

theorem Keeps.reaches (keeps : l.Keeps) (reaches : Reaches l l') : l'.Keeps := by
  induction reaches with
  | here => exact keeps
  | turn so had ih => exact (ih.turn had).choose_spec.2
  | aside so id aside ih => exact ih.aside aside

theorem keeps_new {engine : Engine} {world : World} (maxParallel : Nat)
    (discreet : world.registry.Discreet) (silent : engine.runtime.Silent)
    (blank : world.logs = []) : (new engine world maxParallel).Keeps := by
  refine ⟨⟨by simp [new], .nil⟩, discreet, silent, by simp [new], by simp [new], by simp [new],
    fun id missing => ?_⟩
  rw [show (new engine world maxParallel).world.logs = [] from blank]
  rfl

end Around

end Launcher

end PipelineRunner
