import PipelineRunner.Launcher.Service
import PipelineRunner.Proofs.Scheduling

/-! Runs of a launcher. Tasks have their turns in any order, time passes, and whoever uses the
launcher asks for things in between. What may become of a task is said once; from this it follows
that the executions of a launcher are runs, and that a task which is over stays as it is. -/

namespace PipelineRunner

theorem Execution.result?_eq_some {e : Execution} {result : Except ExecutionError Report} :
    e.result? = some result ↔ e.phase = .over result := by
  unfold result?
  split
  next phase => simp [phase]
  next other =>
    constructor
    · intro h
      cases h
    · intro h
      exact absurd h (other result)

namespace Task

/-- What may become of a task. -/
inductive Next (engine : Engine) : Task → Task → Prop where
  | waits (id : String) (e : Execution) :
      Next engine (workflow id .arriving e) (workflow id .waiting e)
  | enters (id : String) (e : Execution) :
      Next engine (workflow id .arriving e) (workflow id .running e)
  | granted (id : String) (e : Execution) :
      Next engine (workflow id .waiting e) (workflow id .running e)
  | goes {e e' : Execution} {w w' : World} (id : String) (moved : e.step engine w = .moved w' e') :
      Next engine (workflow id .running e) (workflow id .running e')
  | wakes (id : String) (e : Execution) (w : World) :
      Next engine (workflow id .running e) (workflow id .running (e.wake engine w))
  | closes {e : Execution} {result : Except ExecutionError Report} (id : String)
      (ended : e.result? = some result) :
      Next engine (workflow id .running e)
        (workflow id .over { e with state := (e.state.advance .done).1 })
  | breaks {e : Execution} {w w' : World} {reason : String} {held : List String} (id : String)
      (crashed : e.step engine w = .crashed w' reason held) :
      Next engine (workflow id .running e) (workflow id .over { e with phase := .crashed reason })
  | cleans (c c' : Cleanup) : Next engine (cleanup c) (cleanup c')

/-- A task that is there has come to be what it is. -/
inductive Fits (engine : Engine) : Task → Prop where
  | arriving (id : String) (pipeline : Pipeline) (properties : Properties) :
      Fits engine (workflow id .arriving { pipeline, properties })
  | waiting (id : String) (pipeline : Pipeline) (properties : Properties) :
      Fits engine (workflow id .waiting { pipeline, properties })
  | running {pipeline : Pipeline} {properties : Properties} {past : List Execution.Moment}
      {e : Execution} (id : String)
      (so : Execution.Run engine pipeline properties ⟨.pending, 0⟩ past e) :
      Fits engine (workflow id .running e)
  | closed {pipeline : Pipeline} {properties : Properties} {past : List Execution.Moment}
      {e : Execution} {result : Except ExecutionError Report} (id : String)
      (so : Execution.Run engine pipeline properties ⟨.pending, 0⟩ past e)
      (ended : e.phase = .over result) :
      Fits engine (workflow id .over { e with state := (e.state.advance .done).1 })
  | broken {pipeline : Pipeline} {properties : Properties} {past : List Execution.Moment}
      {e : Execution} {w w' : World} {reason : String} {held : List String} (id : String)
      (so : Execution.Run engine pipeline properties ⟨.pending, 0⟩ past e)
      (crashed : e.step engine w = .crashed w' reason held) :
      Fits engine (workflow id .over { e with phase := .crashed reason })
  | cleanup (c : Cleanup) : Fits engine (cleanup c)

variable {engine : Engine} {task task' : Task}

theorem Fits.next (fits : task.Fits engine) (next : task.Next engine task') :
    task'.Fits engine := by
  cases next with
  | waits id e =>
    cases fits
    exact .waiting _ _ _
  | enters id e =>
    cases fits
    exact .running _ .begins
  | granted id e =>
    cases fits
    exact .running _ .begins
  | goes id moved =>
    cases fits with
    | running id so =>
      obtain ⟨more, so, -⟩ := so.step moved
      exact .running id so
  | wakes id e w =>
    cases fits with
    | running id so => exact .running id (so.wake w)
  | closes id ended =>
    cases fits with
    | running id so => exact .closed id so (Execution.result?_eq_some.mp ended)
  | breaks id crashed =>
    cases fits with
    | running id so => exact .broken id so crashed
  | cleans c c' => exact .cleanup c'

/-- What becomes of a task in the course of time. -/
inductive Becomes (engine : Engine) (task : Task) : Task → Prop where
  | stays : Becomes engine task task
  | next {task' task'' : Task} (becomes : Becomes engine task task')
      (next : Next engine task' task'') : Becomes engine task task''

theorem Next.becomes (next : Next engine task task') : Becomes engine task task' :=
  .next .stays next

theorem Becomes.trans {task'' : Task} (h : Becomes engine task task')
    (h' : Becomes engine task' task'') : Becomes engine task task'' := by
  induction h' with
  | stays => exact h
  | next becomes next ih => exact .next ih next

theorem Fits.becomes (fits : task.Fits engine) (h : Becomes engine task task') :
    task'.Fits engine := by
  induction h with
  | stays => exact fits
  | next becomes next ih => exact ih.next next

theorem Becomes.of_over {id : String} {e : Execution}
    (h : Becomes engine (workflow id .over e) task') : task' = workflow id .over e := by
  induction h with
  | stays => rfl
  | next becomes next ih =>
    subst ih
    cases next

theorem Becomes.workflow {id : String} {admission : Admission} {e : Execution}
    (h : Becomes engine (workflow id admission e) task') :
    ∃ admission' e', task' = .workflow id admission' e' := by
  induction h with
  | stays => exact ⟨_, _, rfl⟩
  | next becomes next ih =>
    obtain ⟨admission', e', rfl⟩ := ih
    cases next <;> exact ⟨_, _, rfl⟩

end Task

namespace Launcher

/-- What a launcher may do next, and what may be done with it. -/
inductive Goes (l : Launcher) : Launcher → Prop where
  | turn {n : Nat} {l' : Launcher} (had : l.turn n = some l') : Goes l l'
  /-- Whose turn it is next is left open. -/
  | queued (queue : List Nat) : Goes l { l with queue }
  | time (t : Nat) : Goes l (l.moveTo t)
  /-- Plugins, files and logs may change from outside. -/
  | world (w : World) : Goes l { l with world := w }
  | submit (id source : String) (properties : Properties) :
      Goes l (l.submit id source properties).1
  | claim (id : String) : Goes l (l.claim id)
  | remove (id : String) : Goes l (l.remove id).1

/-- What a launcher may come to. -/
inductive Leads (l : Launcher) : Launcher → Prop where
  | here : Leads l l
  | next {l' l'' : Launcher} (leads : Leads l l') (goes : Goes l' l'') : Leads l l''

/-- The tasks of `l'` have come from those of `l`; new ones stand behind them. -/
structure Evolves (l l' : Launcher) : Prop where
  engine : l'.engine = l.engine
  tasks : ∀ (n : Nat) (task : Task), l.tasks[n]? = some task →
    ∃ task', l'.tasks[n]? = some task' ∧ task.Becomes l.engine task'
  fresh : ∀ (n : Nat) (task : Task), l.tasks[n]? = none → l'.tasks[n]? = some task →
    task.Fits l.engine

/-- Whoever waits for a permit does nothing else, and waits for one permit only. -/
structure Waits (l : Launcher) : Prop where
  idle : ∀ n ∈ l.waiting, ∃ id e, l.tasks[n]? = some (.workflow id .waiting e)
  once : l.waiting.Nodup

/-- What holds of a launcher at any time. -/
structure Sound (l : Launcher) : Prop where
  fits : ∀ (n : Nat) (task : Task), l.tasks[n]? = some task → task.Fits l.engine
  waits : Waits l
  known : ∀ w ∈ l.workflows, ∃ admission e, l.tasks[w.task]? = some (.workflow w.id admission e)

variable {l l' l'' : Launcher} {n : Nat} {id : String} {e : Execution} {task task' : Task}

namespace Evolves

theorem of_tasks (engine : l'.engine = l.engine) (same : l'.tasks = l.tasks) : Evolves l l' where
  engine := engine
  tasks n task h := ⟨task, same ▸ h, .stays⟩
  fresh n task missing h := by
    rw [same, missing] at h
    cases h

theorem trans (h : Evolves l l') (h' : Evolves l' l'') : Evolves l l'' where
  engine := h'.engine.trans h.engine
  tasks n task there := by
    obtain ⟨task', there', becomes⟩ := h.tasks n task there
    obtain ⟨task'', there'', becomes'⟩ := h'.tasks n task' there'
    exact ⟨task'', there'', becomes.trans (h.engine ▸ becomes')⟩
  fresh n task missing there := by
    cases hn : l'.tasks[n]? with
    | none => exact h.engine ▸ h'.fresh n task hn there
    | some task' =>
      obtain ⟨task'', there'', becomes⟩ := h'.tasks n task' hn
      obtain rfl := Option.some.inj (there.symm.trans there'')
      exact (h.fresh n task' missing hn).becomes (h.engine ▸ becomes)

theorem setTask (there : l.tasks[n]? = some task) (next : task.Next l.engine task') :
    Evolves l (l.setTask n task') where
  engine := rfl
  tasks k old hk := by
    by_cases same : n = k
    · subst same
      obtain rfl := Option.some.inj (there.symm.trans hk)
      exact ⟨task', List.getElem?_set_self (List.getElem?_eq_some_iff.mp there).1, next.becomes⟩
    · exact ⟨old, by simpa [Launcher.setTask, same] using hk, .stays⟩
  fresh k new missing hk := by
    have outside := List.getElem?_eq_none_iff.mp missing
    have inside := (List.getElem?_eq_some_iff.mp hk).1
    simp only [Launcher.setTask, List.length_set] at inside
    omega

theorem append (more : List Task) (fit : ∀ task ∈ more, task.Fits l.engine)
    (engine : l'.engine = l.engine) (tasks : l'.tasks = l.tasks ++ more) : Evolves l l' where
  engine := engine
  tasks n task there := by
    have inside := (List.getElem?_eq_some_iff.mp there).1
    exact ⟨task, by rw [tasks, List.getElem?_append_left inside, there], .stays⟩
  fresh n task missing there := by
    rw [tasks, List.getElem?_append_right (List.getElem?_eq_none_iff.mp missing)] at there
    exact fit task (List.mem_of_getElem? there)

end Evolves

namespace Waits

theorem of_tasks (waits : Waits l) (waiting : l'.waiting = l.waiting) (same : l'.tasks = l.tasks) :
    Waits l' :=
  ⟨by rw [waiting, same]; exact waits.idle, by rw [waiting]; exact waits.once⟩

theorem setTask (waits : Waits l) (there : l.tasks[n]? = some task)
    (busy : ∀ id e, task ≠ .workflow id .waiting e) : Waits (l.setTask n task') where
  idle m mem := by
    obtain ⟨id, e, hm⟩ := waits.idle m mem
    have other : n ≠ m := by
      rintro rfl
      exact busy id e (Option.some.inj (there.symm.trans hm))
    exact ⟨id, e, by simpa [Launcher.setTask, other] using hm⟩
  once := waits.once

theorem append (waits : Waits l) (more : List Task) (waiting : l'.waiting = l.waiting)
    (tasks : l'.tasks = l.tasks ++ more) : Waits l' where
  idle m mem := by
    rw [waiting] at mem
    obtain ⟨id, e, hm⟩ := waits.idle m mem
    have inside := (List.getElem?_eq_some_iff.mp hm).1
    exact ⟨id, e, by rw [tasks, List.getElem?_append_left inside, hm]⟩
  once := by rw [waiting]; exact waits.once

end Waits

/-- A permit that is given back goes to the task that waits longest. -/
theorem evolves_release (waits : Waits l) : Evolves l l.release ∧ Waits l.release := by
  unfold release
  split
  next => exact ⟨.of_tasks rfl rfl, waits.of_tasks rfl rfl⟩
  next n rest waiting =>
    obtain ⟨first, once⟩ := List.nodup_cons.mp (waiting ▸ waits.once)
    obtain ⟨id, e, there⟩ := waits.idle n (by simp [waiting])
    have granted : l.grant n = l.setTask n (.workflow id .running e) := by
      simp [grant, there]
    rw [granted]
    have evolves : Evolves l (l.setTask n (.workflow id .running e)) :=
      .setTask there (.granted id e)
    refine ⟨evolves.trans (.of_tasks rfl rfl), ?_, once⟩
    intro m mem
    obtain ⟨id', e', hm⟩ := waits.idle m (by simp [waiting, mem])
    have other : n ≠ m := by
      rintro rfl
      exact first mem
    exact ⟨id', e', by simpa [setTask, other] using hm⟩

theorem release_workflows : l.release.workflows = l.workflows := by
  unfold release
  split
  · rfl
  · unfold grant
    split <;> rfl

theorem foldl_spawnCleanup (held : List String) :
    (held.foldl spawnCleanup l).engine = l.engine ∧
      (held.foldl spawnCleanup l).waiting = l.waiting ∧
      (held.foldl spawnCleanup l).workflows = l.workflows ∧
      (held.foldl spawnCleanup l).tasks =
        l.tasks ++ held.map fun id => .cleanup { container := id } := by
  induction held generalizing l with
  | nil => simp
  | cons id rest ih =>
    obtain ⟨engine, waiting, workflows, tasks⟩ := ih (l := l.spawnCleanup id)
    exact ⟨engine, waiting, workflows, by
      rw [List.foldl_cons, tasks]
      simp [spawnCleanup]⟩

theorem evolves_arrive (waits : Waits l)
    (there : l.tasks[n]? = some (.workflow id .arriving e)) :
    Evolves l (l.arrive n id e) ∧ Waits (l.arrive n id e) := by
  unfold arrive
  split
  · have evolves : Evolves l (l.setTask n (.workflow id .waiting e)) := .setTask there (.waits id e)
    have new : n ∉ l.waiting := by
      intro mem
      obtain ⟨id', e', hn⟩ := waits.idle n mem
      cases there.symm.trans hn
    refine ⟨evolves.trans (.of_tasks rfl rfl), ?_, ?_⟩
    · intro m mem
      rcases List.mem_append.mp mem with earlier | last
      · exact (waits.setTask there (by simp)).idle m earlier
      · obtain rfl := List.mem_singleton.mp last
        exact ⟨id, e, List.getElem?_set_self (List.getElem?_eq_some_iff.mp there).1⟩
    · rw [List.nodup_append]
      refine ⟨waits.once, by simp, ?_⟩
      rintro m mem k hk rfl
      obtain rfl := List.mem_singleton.mp hk
      exact new mem
  · have evolves : Evolves l (l.setTask n (.workflow id .running e)) :=
      .setTask there (.enters id e)
    have waits : Waits (l.setTask n (.workflow id .running e)) := waits.setTask there (by simp)
    exact ⟨evolves.trans (.of_tasks rfl rfl), waits.of_tasks rfl rfl⟩

theorem close_eq (result : Except ExecutionError Report) :
    ∃ world, l.close n id e result =
      (setTask { l with world } n
        (.workflow id .over { e with state := (e.state.advance .done).1 })).release :=
  ⟨_, rfl⟩

theorem close_workflows (result : Except ExecutionError Report) :
    (l.close n id e result).workflows = l.workflows := by
  obtain ⟨world, closed⟩ := @close_eq l n id e result
  rw [closed, release_workflows]
  rfl

theorem evolves_close {result : Except ExecutionError Report} (waits : Waits l)
    (there : l.tasks[n]? = some (.workflow id .running e)) (ended : e.result? = some result) :
    Evolves l (l.close n id e result) ∧ Waits (l.close n id e result) := by
  obtain ⟨world, closed⟩ := @close_eq l n id e result
  rw [closed]
  have outside : Evolves l { l with world } := .of_tasks rfl rfl
  have waits : Waits { l with world } := waits.of_tasks rfl rfl
  have set := Evolves.setTask (l := { l with world }) there (.closes id ended)
  obtain ⟨released, waits⟩ := evolves_release (waits.setTask there (by simp))
  exact ⟨(outside.trans set).trans released, waits⟩

theorem evolves_spawnCleanup (waits : Waits l) (held : List String) :
    Evolves l (held.foldl spawnCleanup l) ∧ Waits (held.foldl spawnCleanup l) := by
  obtain ⟨engine, waiting, -, tasks⟩ := foldl_spawnCleanup (l := l) held
  refine ⟨.append _ (fun task mem => ?_) engine tasks, waits.append _ waiting tasks⟩
  obtain ⟨id, -, rfl⟩ := List.mem_map.mp mem
  exact .cleanup _

theorem evolves_breakDown {w w' : World} {reason : String} {held : List String} (waits : Waits l)
    (there : l.tasks[n]? = some (.workflow id .running e))
    (crashed : e.step l.engine w = .crashed w' reason held) :
    Evolves l (l.breakDown n id e reason held) ∧ Waits (l.breakDown n id e reason held) := by
  have set := Evolves.setTask there (.breaks id crashed)
  obtain ⟨cleanups, waits⟩ := evolves_spawnCleanup (waits.setTask there (by simp)) held
  obtain ⟨released, waits⟩ := evolves_release waits
  exact ⟨(set.trans cleanups).trans released, waits⟩

theorem turn_workflows (h : l.turn n = some l') : l'.workflows = l.workflows := by
  unfold turn at h
  split at h
  next =>
    cases h
    unfold arrive
    split <;> rfl
  next =>
    split at h
    next => cases h; exact close_workflows _
    next =>
      split at h
      next => cases h; rfl
      next =>
        cases h
        unfold breakDown
        dsimp only
        rw [release_workflows, (foldl_spawnCleanup _).2.2.1]
        rfl
      next => cases h
  next =>
    obtain ⟨⟨w, c'⟩, -, rfl⟩ := Option.map_eq_some_iff.mp h
    rfl
  next => cases h

theorem evolves_turn (waits : Waits l) (h : l.turn n = some l') : Evolves l l' ∧ Waits l' := by
  unfold turn at h
  split at h
  next there =>
    cases h
    exact evolves_arrive waits there
  next id e there =>
    split at h
    next ended =>
      cases h
      exact evolves_close waits there ended
    next =>
      split at h
      next moved =>
        cases h
        have set := Evolves.setTask there (.goes id moved)
        exact ⟨set.trans (.of_tasks rfl rfl), (waits.setTask there (by simp)).of_tasks rfl rfl⟩
      next w reason held crashed =>
        cases h
        have outside : Evolves l { l with world := w } := .of_tasks rfl rfl
        obtain ⟨evolves, waits⟩ :=
          evolves_breakDown (l := { l with world := w }) (waits.of_tasks rfl rfl) there crashed
        exact ⟨outside.trans evolves, waits⟩
      next => cases h
  next c there =>
    obtain ⟨⟨w, c'⟩, -, rfl⟩ := Option.map_eq_some_iff.mp h
    have set := Evolves.setTask there (.cleans c c')
    exact ⟨set.trans (.of_tasks rfl rfl), (waits.setTask there (by simp)).of_tasks rfl rfl⟩
  next => cases h

theorem becomes_wake (task : Task) (w : World) : task.Becomes l.engine (wake l.engine w task) := by
  cases task with
  | workflow id admission e =>
    cases admission with
    | running => exact (Task.Next.wakes id e w).becomes
    | arriving => exact .stays
    | waiting => exact .stays
    | _ => exact .stays
  | cleanup c => exact .stays

theorem evolves_moveTo (waits : Waits l) (t : Nat) :
    Evolves l (l.moveTo t) ∧ Waits (l.moveTo t) := by
  have tasks (n : Nat) : (l.moveTo t).tasks[n]? =
      l.tasks[n]?.map (wake l.engine { l.world with clock := t }) := List.getElem?_map ..
  refine ⟨⟨rfl, fun n task there => ?_, fun n task missing there => ?_⟩, fun n mem => ?_,
    waits.once⟩
  · exact ⟨_, by rw [tasks, there, Option.map_some], becomes_wake task _⟩
  · rw [tasks, missing] at there
    cases there
  · obtain ⟨id, e, there⟩ := waits.idle n mem
    exact ⟨id, e, by rw [tasks, there]; rfl⟩

theorem submit_ok {source : String} {pipeline : Pipeline} (properties : Properties)
    (parsed : Script.parse source = .ok pipeline) :
    (l.submit id source properties).1 =
      { l with
        tasks := l.tasks ++ [.workflow id .arriving
          { pipeline, properties := OrderedMap.insert workflowKey (.string id) properties }]
        queue := l.queue ++ [l.tasks.length]
        workflows := l.workflows ++ [{ id, task := l.tasks.length }] } := by
  unfold submit
  rw [parsed]

theorem submit_error {source : String} {error : Script.SyntaxError} (properties : Properties)
    (parsed : Script.parse source = .error error) :
    (l.submit id source properties).1 = l := by
  unfold submit
  rw [parsed]

theorem evolves_submit (waits : Waits l) (id source : String) (properties : Properties) :
    Evolves l (l.submit id source properties).1 ∧ Waits (l.submit id source properties).1 := by
  cases parsed : Script.parse source with
  | error error =>
    rw [submit_error properties parsed]
    exact ⟨.of_tasks rfl rfl, waits⟩
  | ok pipeline =>
    rw [submit_ok properties parsed]
    refine ⟨.append _ ?_ rfl rfl, waits.append _ rfl rfl⟩
    intro task mem
    obtain rfl := List.mem_singleton.mp mem
    exact .arriving ..

theorem remove_eq (id : String) :
    (l.query id = .done ∧ (l.remove id).2 = true ∧
        (l.remove id).1.workflows = l.workflows.filter fun w => w.id != id) ∨
      l.query id ≠ .done ∧ l.remove id = (l, false) := by
  unfold remove
  split
  next done => exact .inl ⟨done, rfl, rfl⟩
  next undone => exact .inr ⟨undone, rfl⟩

theorem evolves_remove (waits : Waits l) (id : String) :
    Evolves l (l.remove id).1 ∧ Waits (l.remove id).1 := by
  unfold remove
  split
  · exact ⟨.of_tasks rfl rfl, waits.of_tasks rfl rfl⟩
  · exact ⟨.of_tasks rfl rfl, waits⟩

theorem Goes.evolves (goes : Goes l l') (waits : Waits l) : Evolves l l' ∧ Waits l' := by
  cases goes with
  | turn had => exact evolves_turn waits had
  | queued queue => exact ⟨.of_tasks rfl rfl, waits.of_tasks rfl rfl⟩
  | time t => exact evolves_moveTo waits t
  | world w => exact ⟨.of_tasks rfl rfl, waits.of_tasks rfl rfl⟩
  | submit id source properties => exact evolves_submit waits id source properties
  | claim id => exact ⟨.of_tasks rfl rfl, waits.of_tasks rfl rfl⟩
  | remove id => exact evolves_remove waits id

/-- A workflow that is known has been known before, or has just been submitted. -/
theorem Goes.known (goes : Goes l l') {w : Workflow} (known : w ∈ l'.workflows) :
    (∃ w' ∈ l.workflows, w'.id = w.id ∧ w'.task = w.task) ∨
      ∃ e, l'.tasks[w.task]? = some (.workflow w.id .arriving e) := by
  cases goes with
  | turn had => exact .inl ⟨w, turn_workflows had ▸ known, rfl, rfl⟩
  | queued queue => exact .inl ⟨w, known, rfl, rfl⟩
  | time t => exact .inl ⟨w, known, rfl, rfl⟩
  | world world => exact .inl ⟨w, known, rfl, rfl⟩
  | submit id source properties =>
    cases parsed : Script.parse source with
    | error error =>
      rw [submit_error properties parsed] at known
      exact .inl ⟨w, known, rfl, rfl⟩
    | ok pipeline =>
      rw [submit_ok properties parsed] at known ⊢
      rcases List.mem_append.mp known with before | new
      · exact .inl ⟨w, before, rfl, rfl⟩
      · obtain rfl := List.mem_singleton.mp new
        exact .inr ⟨_, List.getElem?_concat_length⟩
  | claim id =>
    obtain ⟨w', before, rfl⟩ := List.mem_map.mp known
    refine .inl ⟨w', before, ?_⟩
    split <;> exact ⟨rfl, rfl⟩
  | remove id =>
    rcases @remove_eq l id with ⟨-, -, rest⟩ | ⟨-, same⟩
    · rw [rest] at known
      exact .inl ⟨w, (List.mem_filter.mp known).1, rfl, rfl⟩
    · rw [same] at known
      exact .inl ⟨w, known, rfl, rfl⟩

theorem Sound.goes (sound : Sound l) (goes : Goes l l') : Sound l' := by
  obtain ⟨evolves, waits⟩ := goes.evolves sound.waits
  refine ⟨fun n task there => ?_, waits, fun w known => ?_⟩
  · rw [evolves.engine]
    cases before : l.tasks[n]? with
    | none => exact evolves.fresh n task before there
    | some task' =>
      obtain ⟨task'', there', becomes⟩ := evolves.tasks n task' before
      obtain rfl := Option.some.inj (there.symm.trans there')
      exact (sound.fits n task' before).becomes becomes
  · rcases goes.known known with ⟨w', before, hid, htask⟩ | ⟨e, there⟩
    · obtain ⟨admission, e, there⟩ := sound.known w' before
      rw [htask, hid] at there
      obtain ⟨task', there', becomes⟩ := evolves.tasks _ _ there
      obtain ⟨admission', e', rfl⟩ := becomes.workflow
      exact ⟨admission', e', there'⟩
    · exact ⟨_, e, there⟩

theorem sound_new (engine : Engine) (world : World) (maxParallel : Nat) :
    Sound (new engine world maxParallel) := by
  refine ⟨fun n task there => ?_, ⟨fun n mem => ?_, .nil⟩, fun w mem => ?_⟩
  · simp [new] at there
  · cases mem
  · cases mem

theorem Sound.leads (sound : Sound l) (leads : Leads l l') : Sound l' := by
  induction leads with
  | here => exact sound
  | next leads goes ih => exact ih.goes goes

theorem Leads.evolves (leads : Leads l l') (sound : Sound l) : Evolves l l' := by
  induction leads with
  | here => exact .of_tasks rfl rfl
  | next leads goes ih => exact ih.trans (goes.evolves (sound.leads leads).waits).1

theorem Leads.trans (h : Leads l l') (h' : Leads l' l'') : Leads l l'' := by
  induction h' with
  | here => exact h
  | next leads goes ih => exact .next ih goes

theorem find?_claim (id' : String) : (l.claim id').find? id =
    (l.find? id).map fun w => if w.id == id' then { w with awaited := true } else w := by
  have asked : (fun w : Workflow => w.id == id) ∘
      (fun w => if w.id == id' then { w with awaited := true } else w) = fun w => w.id == id := by
    funext w
    dsimp only [Function.comp]
    split <;> rfl
  simp only [find?, claim, List.find?_map, asked]

/-- A workflow that is known stays known until it is forgotten, and it must be done for that. -/
theorem Goes.find? (goes : Goes l l') {w : Workflow} (found : l.find? id = some w) :
    (∃ w', l'.find? id = some w' ∧ w'.task = w.task) ∨ l.query id = .done := by
  have same (h : l'.workflows = l.workflows) :
      (∃ w', l'.find? id = some w' ∧ w'.task = w.task) ∨ l.query id = .done :=
    .inl ⟨w, by rw [Launcher.find?, h]; exact found, rfl⟩
  cases goes with
  | turn had => exact same (turn_workflows had)
  | queued queue => exact same rfl
  | time t => exact same rfl
  | world w => exact same rfl
  | submit id' source properties =>
    cases parsed : Script.parse source with
    | error error => exact same (by rw [submit_error properties parsed])
    | ok pipeline =>
      rw [submit_ok properties parsed]
      refine .inl ⟨w, ?_, rfl⟩
      unfold Launcher.find? at found ⊢
      simp [List.find?_append, found]
  | claim id' =>
    refine .inl ⟨_, by rw [find?_claim, found]; rfl, ?_⟩
    dsimp only
    split <;> rfl
  | remove id' =>
    rcases @remove_eq l id' with ⟨done, -, rest⟩ | ⟨-, unchanged⟩
    · by_cases this : id' = id
      · exact .inr (this ▸ done)
      · refine .inl ⟨w, ?_, rfl⟩
        unfold Launcher.find? at found ⊢
        rw [rest, List.find?_filter, ← found]
        congr 1
        funext w
        by_cases asked : w.id = id
        · simp [asked, Ne.symm this]
        · simp [asked]
    · exact same (by rw [unchanged])

/-! ### What can be asked of a launcher -/

/-- Workflows come and go only when somebody asks for it. -/
theorem leads_step (h : l.step = some l') : Leads l l' ∧ l'.workflows = l.workflows := by
  unfold step at h
  split at h
  next => cases h
  next n rest queue =>
    split at h
    next =>
      cases h
      exact ⟨.next .here (.queued rest), rfl⟩
    next after had =>
      have turned : Leads l after := .next .here (.turn had)
      have same := turn_workflows had
      split at h <;> cases h
      · exact ⟨.next turned (.queued _), same⟩
      · exact ⟨turned, same⟩

theorem leads_run (reached : Launcher → Bool) (limit : Option Nat) :
    Leads l (clockwork.run reached limit l) ∧
      (clockwork.run reached limit l).workflows = l.workflows := by
  refine Clockwork.run_preserves (m := clockwork)
    (P := fun l' => Leads l l' ∧ l'.workflows = l.workflows) ?_ ?_ limit ⟨.here, rfl⟩
  · rintro l₁ l₂ stepped ⟨leads, same⟩
    obtain ⟨goes, still⟩ := leads_step stepped
    exact ⟨leads.trans goes, still.trans same⟩
  · rintro t l₁ - - - ⟨leads, same⟩
    exact ⟨.next leads (.time t), same⟩

theorem leads_settle : Leads l l.settle :=
  Clockwork.settleWithin_preserves (m := clockwork) (P := Leads l)
    (fun _ _ stepped leads => leads.trans (leads_step stepped).1) _ .here

theorem leads_sleep (milliseconds : Nat) : Leads l (l.sleep milliseconds) := by
  unfold sleep
  split
  · exact .here
  · exact .next (leads_run _ _).1 (.time _)

theorem leads_waitUntil (reached : Launcher → Bool) (limit : Nat) :
    Leads l (l.waitUntil reached limit).1 ∧
      (l.waitUntil reached limit).1.workflows = l.workflows := by
  unfold waitUntil
  dsimp only
  split
  · exact ⟨.here, rfl⟩
  · obtain ⟨leads, same⟩ := @leads_run l reached (some (l.world.clock + limit))
    split
    · exact ⟨leads, same⟩
    · exact ⟨.next leads (.time _), same⟩

theorem leads_wait (id : String) (limit : Nat) : Leads l (l.wait id limit).1 := by
  unfold wait
  split
  · exact .here
  · split
    · exact .here
    · have claimed : Leads l (l.claim id) := .next .here (.claim id)
      exact claimed.trans (leads_waitUntil _ limit).1

theorem leads_waitDone (id : String) (limit : Nat) : Leads l (l.waitDone id limit).1 := by
  unfold waitDone
  split
  · exact .here
  · exact (leads_waitUntil _ limit).1

/-- What one may ask of a launcher, apart from questions that change nothing. -/
inductive Request where
  | submit (id source : String) (properties : Properties)
  | logs (id : String)
  | remove (id : String)
  | wait (id : String) (limit : Nat)
  | waitDone (id : String) (limit : Nat)
  | sleep (milliseconds : Nat)
  | settle

/-- The launcher that has done what it is asked for. -/
def serve (l : Launcher) : Request → Launcher
  | .submit id source properties => (l.submit id source properties).1
  | .logs id => (l.takeLogs id).1
  | .remove id => (l.remove id).1
  | .wait id limit => (l.wait id limit).1
  | .waitDone id limit => (l.waitDone id limit).1
  | .sleep milliseconds => l.sleep milliseconds
  | .settle => l.settle

/-- Whatever a launcher is asked for, one thing after the other, it goes on as it may. -/
theorem leads_serve (requests : List Request) : Leads l (requests.foldl serve l) := by
  induction requests generalizing l with
  | nil => exact .here
  | cons request rest ih =>
    refine Leads.trans ?_ ih
    cases request with
    | submit id source properties => exact .next .here (.submit id source properties)
    | logs id => exact .next .here (.world _)
    | remove id => exact .next .here (.remove id)
    | wait id limit => exact leads_wait id limit
    | waitDone id limit => exact leads_waitDone id limit
    | sleep milliseconds => exact leads_sleep milliseconds
    | settle => exact leads_settle

end Launcher

end PipelineRunner
