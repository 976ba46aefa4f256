import PipelineRunner.Proofs.Launching
import PipelineRunner.Proofs.Lifetimes

/-! A launcher lets each workflow live its own life. As long as time only passes when nothing can be
done, and never past an instant at which something is due, whoever waits is called when the first of
its timers is due and not before, whoever is called stands in the queue, and nobody logs anything
for anybody else. -/

namespace PipelineRunner

variable {w w' : World}

/-! ### Who is called as time passes -/

theorem Trial.asleep_later {t : Trial} {c : Context} (asleep : t.isAwake c w = false)
    (undue : ∀ timer ∈ t.timers, w'.isDue timer = false) : t.isAwake c w' = false := by
  unfold isAwake at asleep ⊢
  unfold timers at undue
  cases phase : t.phase with
  | ready made => rfl
  | calling attempt deadline call =>
    simp only [phase, Bool.or_eq_false_iff] at asleep
    simp_all
  | pausing made timer =>
    simp only [phase, Bool.or_eq_false_iff] at asleep
    simp_all

theorem OwnSteps.asleep_later {own : OwnSteps} {c : Context} (asleep : own.isAwake c w = false)
    (undue : ∀ timer ∈ own.timers, w'.isDue timer = false) : own.isAwake c w' = false := by
  cases own with
  | trying container trial todo outputs => exact Trial.asleep_later asleep undue
  | pulling image wait | starting image wait | stopping id wait result =>
    exact undue wait.timer List.mem_cons_self
  | _ => rfl

namespace StageRun

mutual

/-- Where no turn has been wanted nobody is called before a timer is due. -/
theorem awake_of_quiet : ∀ {run : StageRun} {c : Context}, (∀ place, ¬run.Wants c w place) →
    (∀ timer ∈ run.timers, w'.isDue timer = false) → run.awake c w' = []
  | joining stage agent runs failure, c, quiet, undue =>
    awakeAmong_of_quiet 0 fun i run there =>
      ⟨fun place wants => quiet (i :: place)
          ((wants_cons i place).mpr ⟨run, there, Nat.zero_add i ▸ wants⟩),
        fun timer mem => undue timer (mem_timersOfAll.mpr ⟨run, List.mem_of_getElem? there, mem⟩)⟩
  | working stage agent branches own, c, quiet, undue => by
    have asleep : own.isAwake c w = false := by
      refine Bool.eq_false_iff.mpr fun awake => quiet [] ⟨_, at?_nil _, .inr ?_⟩
      simpa [isAwake] using awake
    rw [awake, own.asleep_later asleep undue, if_neg Bool.false_ne_true]
  | fresh .., _, _, _ | settled .., _, _, _ | received _, _, _, _ => rfl

theorem awakeAmong_of_quiet {c : Context} {stage : Stage} {failure : Option StepError} :
    ∀ {runs : List StageRun} (i : Nat), (∀ (j : Nat) (run : StageRun), runs[j]? = some run →
      (∀ place, ¬run.Wants (Context.inside c stage failure (i + j)) w place) ∧
        ∀ timer ∈ run.timers, w'.isDue timer = false) → awakeAmong c w' stage failure i runs = []
  | [], _, _ => rfl
  | run :: rest, i, each => by
    have first := each 0 run rfl
    have others : awakeAmong c w' stage failure (i + 1) rest = [] :=
      awakeAmong_of_quiet (i + 1) fun j run there => by
        have later := each (j + 1) run there
        rwa [Nat.add_assoc, Nat.add_comm 1 j]
    have here : run.awake (Context.inside c stage failure i) w' = [] :=
      awake_of_quiet first.1 first.2
    rw [awakeAmong, others, here]
    rfl

end

end StageRun

namespace Execution

variable {engine : Engine} {e : Execution}

/-- Nobody is called before a timer is due. -/
theorem wake_still (quiet : ∀ place, ¬e.phase.Wants engine w place)
    (undue : ∀ timer ∈ e.timers, w'.isDue timer = false) : e.wake engine w' = e := by
  unfold wake
  split
  next workflow index stage run todo results phase =>
    simp only [phase] at quiet
    simp only [timers, phase] at undue
    have still : run.awake (outermost engine workflow index) w' = [] :=
      StageRun.awake_of_quiet quiet undue
    rw [still]
    rfl
  next => rfl

end Execution

namespace Launcher

variable {l l' : Launcher} {k m n t : Nat} {id : String} {e e' : Execution} {task task' : Task}
  {timer : Timer}

/-- The first of some timers is due with or before each of them. -/
theorem exists_first {timers : List Timer} (mem : timer ∈ timers) :
    ∃ first, firstTimer? timers = some first ∧ first.due ≤ timer.due := by
  induction timers with
  | nil => cases mem
  | cons head rest ih =>
    unfold firstTimer?
    cases later : firstTimer? rest with
    | none =>
      rcases List.mem_cons.mp mem with rfl | mem
      · exact ⟨_, rfl, Nat.le_refl _⟩
      · obtain ⟨first, found, -⟩ := ih mem
        cases later.symm.trans found
    | some next =>
      have least : (if head.before next then head else next).due ≤ head.due ∧
          (if head.before next then head else next).due ≤ next.due := by
        split
        next before =>
          simp only [Timer.before, Bool.or_eq_true, decide_eq_true_eq, Bool.and_eq_true,
            beq_iff_eq] at before
          omega
        next behind =>
          simp only [Timer.before, Bool.or_eq_true, decide_eq_true_eq, Bool.and_eq_true,
            beq_iff_eq] at behind
          omega
      refine ⟨_, rfl, ?_⟩
      rcases List.mem_cons.mp mem with rfl | mem
      · exact least.1
      · obtain ⟨first, found, early⟩ := ih mem
        obtain rfl := Option.some.inj (later.symm.trans found)
        exact Nat.le_trans least.2 early

/-- Whoever waits for timers sleeps until the first of them. -/
theorem exists_sleeper {tasks : List Task} (there : tasks[n]? = some task)
    (mem : timer ∈ timersOf task) (from_ : Nat) :
    ∃ first, (first, from_ + n) ∈ sleepers from_ tasks ∧ first.due ≤ timer.due := by
  induction tasks generalizing n from_ with
  | nil => cases there
  | cons head rest ih =>
    cases n with
    | zero =>
      obtain rfl := Option.some.inj there
      obtain ⟨first, found, early⟩ := exists_first mem
      refine ⟨first, ?_, early⟩
      simp [sleepers, found]
    | succ n =>
      obtain ⟨first, sleeps, early⟩ := ih there (from_ + 1)
      refine ⟨first, ?_, early⟩
      rw [show from_ + (n + 1) = from_ + 1 + n by omega]
      unfold sleepers
      split
      · exact List.mem_cons_of_mem _ sleeps
      · exact sleeps

/-- Time may pass when nothing can be done now, up to the next instant at which something is due. -/
def punctually (l : Launcher) (t : Nat) : Prop :=
  l.step = none ∧ l.world.clock ≤ t ∧ ∀ due, clockwork.nextDue l = some due → t ≤ due

theorem le_due_of_punctual (punctual : punctually l t) (there : l.tasks[n]? = some task)
    (mem : timer ∈ timersOf task) : t ≤ timer.due := by
  obtain ⟨first, sleeps, early⟩ := exists_sleeper there mem 0
  have listed := List.mem_map_of_mem (f := fun s => s.1.due) sleeps
  obtain ⟨due, next⟩ : ∃ due, clockwork.nextDue l = some due := by
    refine Option.ne_none_iff_exists'.mp fun none_ => ?_
    rw [List.min?_eq_none_iff.mp none_] at listed
    cases listed
  exact (punctual.2.2 due next).trans
    (((List.min?_eq_some_iff.mp next).2 _ listed).trans early)

/-- Whoever waits for a timer that is due by then is called. -/
theorem mem_moveTo (there : l.tasks[n]? = some task) (mem : timer ∈ timersOf task)
    (due : timer.due ≤ t) : n ∈ (l.moveTo t).queue := by
  obtain ⟨first, sleeps, early⟩ := exists_sleeper there mem 0
  rw [Nat.zero_add] at sleeps
  refine List.mem_append_right _ (List.mem_map.mpr ⟨(first, n), ?_, rfl⟩)
  rw [List.mem_mergeSort, List.mem_filter]
  exact ⟨sleeps, by simpa using early.trans due⟩

end Launcher

/-! ### Lives in a launcher -/

namespace World

theorem Spares.trans {id : String} {w'' : World} (h : w.Spares id w') (h' : w'.Spares id w'') :
    w.Spares id w'' :=
  ⟨h'.registry.trans h.registry, h'.entries.trans h.entries⟩

theorem Spares.still (id : String) (registry : w'.registry = w.registry)
    (history : w'.history = w.history) : w.Spares id w' :=
  ⟨registry, entries_still history⟩

theorem spares_enter (place : Place) (id : String) (state : WorkflowState) :
    w.Spares id (w.note place (.entered state)) :=
  ⟨rfl, entries_enter state⟩

end World

namespace Task

open Execution (Driven Lives)

/-- The workflow of a task is still to begin, or lives its life, or has ended it. -/
def Attended (engine : Engine) (registry : Registry) (w : World) : Task → Prop
  | workflow id .running e => ∃ properties past start n,
    Driven engine e.pipeline properties ⟨.pending, 0⟩ past w e ∧
      Lives engine registry id e.pipeline start n w e
  | workflow id .over e => ∃ start n w₁ e₁ w₂,
    Lives engine registry id e.pipeline start n w₁ e₁ ∧ e₁.Ends engine w₁ w₂ e.phase ∧
      w₂.Spares id w
  | workflow id _ e => w.registry = registry ∧ w.entries id = [] ∧ ∃ properties,
    properties.workflowId = .ok id ∧
      e = { pipeline := e.pipeline, properties, state := ⟨.pending, 0⟩ }
  | cleanup _ => True

variable {engine : Engine} {registry : Registry} {task task' : Task} {more : List Task}
  {id : String} {a : Admission} {e : Execution}

theorem Attended.beside (attended : (workflow id a e).Attended engine registry w)
    (spares : w.Spares id w') (clock : w'.clock = w.clock) :
    (workflow id a e).Attended engine registry w' := by
  cases a with
  | running =>
    obtain ⟨properties, past, start, n, driven, lives⟩ := attended
    exact ⟨properties, past, start, n, driven.beside clock, lives.beside spares (.inl clock)⟩
  | arriving | waiting =>
    obtain ⟨plugins, unlogged, fresh⟩ := attended
    exact ⟨spares.registry.trans plugins, spares.entries.trans unlogged, fresh⟩
  | _ =>
    obtain ⟨start, n, w₁, e₁, w₂, lives, ends, later⟩ := attended
    exact ⟨start, n, w₁, e₁, w₂, lives, ends, later.trans spares⟩

theorem attended_running
    (attended : w.registry = registry ∧ w.entries id = [] ∧ ∃ properties,
      properties.workflowId = .ok id ∧
        e = { pipeline := e.pipeline, properties, state := ⟨.pending, 0⟩ }) :
    (workflow id .running e).Attended engine registry w := by
  obtain ⟨plugins, unlogged, properties, known, fresh⟩ := attended
  generalize e.pipeline = pipeline at fresh
  subst fresh
  exact ⟨properties, [], w.clock, 0, .begins w, .begins plugins rfl unlogged known⟩

theorem Attended.granted (attended : task.Attended engine registry w)
    (granted : Granted task task') : task'.Attended engine registry w := by
  cases granted with
  | same => exact attended
  | granted id e => exact attended_running attended

theorem Attended.does (attended : task.Attended engine registry w)
    (does : Does engine w task w' task' more) (signed : task.Signed)
    (live : ∀ id e e', task = workflow id .running e → task' = workflow id .running e' →
      e.result? = none) : task'.Attended engine registry w' := by
  cases does with
  | waits id e => exact attended
  | enters id e => exact attended_running attended
  | succeeds id e report ended =>
    obtain ⟨properties, past, start, n, driven, lives⟩ := attended
    refine ⟨start, n, w, e, w, lives, ?_, ?_⟩
    · rw [show (e.enter id .done w).2.phase = .over (.ok report) from ended]
      exact .reports ended
    · simp only [Execution.enter]
      split
      · exact World.spares_enter _ id .done
      · exact .still id rfl rfl
  | fails id e error ended =>
    have signed := signed.2
    rw [ended] at signed
    exact signed.elim
  | goes id e moved =>
    obtain ⟨properties, past, start, n, driven, lives⟩ := attended
    have later := driven.step moved
    have lives := lives.steps (live id e _ rfl rfl) moved
    have same := later.run.fits.1
    rw [← same] at later lives
    exact ⟨properties, _, start, _, later, lives⟩
  | breaks id e crashed =>
    obtain ⟨properties, past, start, n, driven, lives⟩ := attended
    obtain ⟨_, _, _, _, _, _, phase⟩ :=
      Execution.inStage_of_crashed (Execution.step_crashed crashed)
    have live : e.result? = none := by simp [Execution.result?, phase]
    exact ⟨start, n, w, e, w', lives, .breaks live crashed, .still id rfl rfl⟩
  | cleans c stepped => trivial

end Task

namespace Cleanup

variable {runtime : ContainerRuntime} {c : Cleanup}

/-- Whether a stop can go on is a matter of time alone. -/
theorem still_of_clock (clock : w'.clock = w.clock) (still : c.step runtime w = none) :
    c.step runtime w' = none := by
  unfold step at still ⊢
  split at still
  next => cases still
  next wait phase =>
    rw [show w'.isDue wait.timer = w.isDue wait.timer by simp [World.isDue, clock]]
    split at still
    next => cases still
    next undue => rw [if_neg undue]
  next => rfl

/-- A stop that can go on later has waited for a timer that is due by then. -/
theorem due_of_stirring (still : c.step runtime w = none) (stirs : c.step runtime w' ≠ none) :
    ∃ timer ∈ c.timers, timer.due ≤ w'.clock := by
  unfold step at still stirs
  split at still
  next => cases still
  next wait phase =>
    refine ⟨wait.timer, by simp [timers, phase], ?_⟩
    by_contra early
    simp [phase, World.isDue, early] at stirs
  next phase => simp [phase] at stirs

end Cleanup

namespace Launcher

open Execution (Lives)

variable {l l' : Launcher} {k m n t : Nat} {id : String} {a : Admission} {e e' : Execution}
  {registry : Registry}

/-- Each workflow lives its own life, and whoever can go on stands in the queue, be it a workflow or
the stop of a container. -/
structure Attends (registry : Registry) (l : Launcher) : Prop where
  plugins : l.world.registry = registry
  each : ∀ task ∈ l.tasks, task.Attended l.engine registry l.world
  called : ∀ {n id e}, l.tasks[n]? = some (.workflow id .running e) →
    e.IsCalled ∨ e.result? ≠ none → n ∈ l.queue
  stops : ∀ {n c}, l.tasks[n]? = some (.cleanup c) → c.step l.engine.runtime l.world ≠ none →
    n ∈ l.queue

/-- Nothing is logged for a workflow in a turn of another task. -/
theorem spares_of_turn (keeps : l.Keeps) (had : l.turn n = some l')
    (there : l.tasks[m]? = some (.workflow id a e)) (other : n ≠ m) :
    l.world.Spares id l'.world := by
  obtain ⟨task, task', more, here, does, granted⟩ := turn_cases keeps.waits had
  have minds := keeps.minds task (List.mem_of_getElem? here)
  have told {news : List Record} (history : l'.world.history = news.reverse ++ l.world.history)
      (others : ∀ r ∈ news, ¬r.IsEntry id) : l'.world.entries id = l.world.entries id := by
    rw [World.entries_of_news history, entriesOf_eq_nil.mpr others, List.append_nil]
  rcases does.writes minds keeps.discreet keeps.silent with
    ⟨own, _, _, _, _, rfl, -, registry, news, history, -, concern, -⟩ |
    ⟨c, c', rfl, -, registry, -, news, history, outward⟩
  · have different : id ≠ own := by
      rintro rfl
      exact other (keeps.distinct n m id _ _ _ _ here there)
    exact ⟨registry, told history fun r mem => (concern r mem).not_entry different⟩
  · exact ⟨registry, told history (World.of_outward outward id .done []).2.2.2⟩

/-- An execution that has a turn and goes on with its permit has not come to its end. -/
theorem live_of_turn (waits : Waits l) (there : l.tasks[n]? = some (.workflow id .running e))
    (had : l.turn n = some l') (now : l'.tasks[n]? = some (.workflow id .running e')) :
    e.result? = none := by
  cases ended : e.result? with
  | none => rfl
  | some result =>
    simp only [turn, there, ended] at had
    cases had
    obtain ⟨world, closed⟩ := @close_eq l n id e result
    rw [closed] at now
    obtain ⟨new, here, granted⟩ := tasks_forward (over_granted waits there world _) there
    rw [if_pos rfl] at granted
    cases granted
    cases here.symm.trans now

theorem spawned_mem (held : List String) (outside : l.tasks.length ≤ m)
    (inside : m < (held.foldl spawnCleanup l).tasks.length) :
    m ∈ (held.foldl spawnCleanup l).queue := by
  induction held generalizing l with
  | nil => exact absurd inside (Nat.not_lt.mpr outside)
  | cons container rest ih =>
    rcases Nat.lt_or_eq_of_le outside with further | rfl
    · refine ih (l := l.spawnCleanup container) ?_ inside
      simpa [spawnCleanup] using Nat.succ_le_of_lt further
    · obtain ⟨more, queue⟩ := InLine.foldl_spawnCleanup_queue (l := l.spawnCleanup container) rest
      rw [List.foldl_cons, queue]
      simp [spawnCleanup]

theorem release_tasks_length : l.release.tasks.length = l.tasks.length := by
  unfold release
  split
  · rfl
  · unfold grant
    split <;> simp [setTask]

theorem release_queue_sub (mem : m ∈ l.queue) : m ∈ l.release.queue := by
  unfold release
  split
  · exact mem
  · exact List.mem_append_left _ mem

/-- Whatever is left behind in a turn stands in the queue. -/
theorem mem_of_spawned (had : l.turn n = some l') (outside : l.tasks.length ≤ m)
    (there : l'.tasks[m]? = some task) : m ∈ l'.queue := by
  have inside := (List.getElem?_eq_some_iff.mp there).1
  have nothing (same : l'.tasks.length = l.tasks.length) : m ∈ l'.queue :=
    absurd (same ▸ inside) (Nat.not_lt.mpr outside)
  unfold turn at had
  split at had
  next id e _ =>
    cases had
    refine nothing ?_
    unfold arrive
    split <;> simp [setTask]
  next id e _ =>
    split at had
    next result ended =>
      cases had
      refine nothing ?_
      obtain ⟨world, closed⟩ := @close_eq l n id e result
      rw [closed, release_tasks_length]
      simp [setTask]
    next =>
      split at had
      next w e' moved =>
        cases had
        exact nothing (by simp [setTask])
      next w reason held crashed =>
        cases had
        refine release_queue_sub (spawned_mem held ?_ ?_)
        · simpa [setTask] using outside
        · rwa [breakDown, release_tasks_length] at inside
      next => cases had
  next c _ =>
    obtain ⟨⟨w, c'⟩, -, rfl⟩ := Option.map_eq_some_iff.mp had
    exact nothing (by simp [setTask])
  next => cases had

section Turn

variable {rest : List Nat}

/-- Each workflow lives on in a turn, its own or that of another one. -/
theorem Attends.each_of_turn (attends : l.Attends registry) (keeps : l.Keeps) (named : l.Named)
    (had : l.turn n = some l') (mem : task ∈ l'.tasks) :
    task.Attended l'.engine registry l'.world := by
  obtain ⟨own, own', more, there, does, granted⟩ := turn_cases keeps.waits had
  have listed := List.mem_of_getElem? there
  have live (id : String) (e e' : Execution) (before : own = .workflow id .running e)
      (behind : own' = .workflow id .running e') : e.result? = none := by
    subst before behind
    obtain ⟨new, now, granted⟩ := tasks_forward granted there
    rw [if_pos rfl] at granted
    cases granted
    exact live_of_turn keeps.waits there had now
  have turned := (attends.each own listed).does does (named.signed own listed) live
  obtain ⟨m, now⟩ := List.mem_iff_getElem?.mp mem
  rw [(evolves_turn keeps.waits had).1.engine]
  rcases tasks_backward granted does.cleanups now with ⟨old, before, granted⟩ | ⟨container, rfl⟩
  · refine Task.Attended.granted ?_ granted
    split
    next => exact turned
    next other =>
      have attended := attends.each old (List.mem_of_getElem? before)
      cases old with
      | cleanup c => trivial
      | workflow id a e =>
        exact attended.beside (spares_of_turn keeps had before other) (clock_of_turn keeps.waits had)
  · trivial

/-- Who is called in a turn, or gets its permit, stands in the queue behind it. -/
theorem Attends.called_of_turn (attends : l.Attends registry) (keeps : l.Keeps)
    (inLine : l.InLine k) (queue : l.queue = n :: rest) (had : l.turn n = some l')
    (now : l'.tasks[m]? = some (.workflow id .running e)) (called : e.IsCalled ∨ e.result? ≠ none) :
    m ∈ l'.queue := by
  obtain ⟨kept, _, grown⟩ := inLine.turn queue had
  obtain ⟨own, own', more, there, does, granted⟩ := turn_cases keeps.waits had
  have stays {m : Nat} (mem : m ∈ l.queue) : m ∈ l'.queue := grown ▸ List.mem_append_left _ mem
  rcases tasks_backward granted does.cleanups now with ⟨old, before, granted⟩ | ⟨container, cleanup⟩
  · split at granted
    next here => exact here ▸ stays (queue ▸ List.mem_cons_self)
    next =>
      have attended := attends.each old (List.mem_of_getElem? before)
      cases granted with
      | same => exact stays (attends.called before called)
      | granted id e =>
        obtain ⟨-, -, properties, -, fresh⟩ := attended
        exact (kept.queued.ready now (by simp) (by rw [fresh])).2 rfl
  · cases cleanup

/-- A stop that can go on behind a turn stands in the queue. -/
theorem Attends.stops_of_turn (attends : l.Attends registry) (keeps : l.Keeps)
    (inLine : l.InLine k) (queue : l.queue = n :: rest) (had : l.turn n = some l') {c : Cleanup}
    (now : l'.tasks[m]? = some (.cleanup c)) (stirs : c.step l'.engine.runtime l'.world ≠ none) :
    m ∈ l'.queue := by
  obtain ⟨-, _, grown⟩ := inLine.turn queue had
  obtain ⟨own, own', more, there, does, granted⟩ := turn_cases keeps.waits had
  have stays {m : Nat} (mem : m ∈ l.queue) : m ∈ l'.queue := grown ▸ List.mem_append_left _ mem
  cases before : l.tasks[m]? with
  | none => exact mem_of_spawned had (List.getElem?_eq_none_iff.mp before) now
  | some old =>
    obtain ⟨new, there', granted⟩ := tasks_forward granted before
    obtain rfl := Option.some.inj (now.symm.trans there')
    split at granted
    next here => exact here ▸ stays (queue ▸ List.mem_cons_self)
    next =>
      cases granted
      refine stays (attends.stops before fun still => stirs ?_)
      rw [(evolves_turn keeps.waits had).1.engine]
      exact Cleanup.still_of_clock (clock_of_turn keeps.waits had) still

theorem Attends.turn (attends : l.Attends registry) (keeps : l.Keeps) (named : l.Named)
    (inLine : l.InLine k) (queue : l.queue = n :: rest) (had : l.turn n = some l') :
    l'.Attends registry where
  plugins := by
    obtain ⟨own, own', more, there, does, -⟩ := turn_cases keeps.waits had
    rcases does.writes (keeps.minds own (List.mem_of_getElem? there)) keeps.discreet keeps.silent
      with ⟨_, _, _, _, _, -, -, same, -⟩ | ⟨_, _, -, -, same, -⟩ <;>
      exact same.trans attends.plugins
  each _ := attends.each_of_turn keeps named had
  called := attends.called_of_turn keeps inLine queue had
  stops := attends.stops_of_turn keeps inLine queue had

end Turn

/-- Whoever is called, or has come to its end, can have a turn. -/
theorem turn_of_called (there : l.tasks[n]? = some (.workflow id .running e))
    (called : e.IsCalled ∨ e.result? ≠ none) : l.turn n ≠ none := by
  intro stuck
  simp only [Launcher.turn, there] at stuck
  cases ended : e.result? with
  | some result => simp [ended] at stuck
  | none =>
    simp only [ended] at stuck
    cases stepped : e.step l.engine l.world with
    | blocked => exact step_ne_blocked (called.resolve_right (absurd ended)) stepped
    | moved | crashed => simp [stepped] at stuck
    | ended _ value => cases value

theorem Attends.step (attends : l.Attends registry) (keeps : l.Keeps) (named : l.Named)
    (inLine : l.InLine k) (stepped : l.step = some l') : l'.Attends registry := by
  cases step_cases keeps.waits stepped with
  | turns queue had => exact attends.turn keeps named inLine queue had
  | @passes n rest queue stuck =>
    have others {m : Nat} (mem : m ∈ l.queue) (awake : l.turn m ≠ none) : m ∈ rest := by
      rw [queue, List.mem_cons] at mem
      refine mem.resolve_left ?_
      rintro rfl
      exact awake stuck
    refine ⟨attends.plugins, attends.each, fun {m id e} there called => ?_,
      fun {m c} there stirs => ?_⟩
    · exact others (attends.called there called) (turn_of_called there called)
    · refine others (attends.stops there stirs) fun none_ => stirs ?_
      have there : l.tasks[m]? = some (.cleanup c) := there
      simpa [Launcher.turn, there] using none_
  | @yields n rest id e e' w' queue there moved off called had =>
    have turned := attends.turn keeps named inLine queue had
    have moved_on {m : Nat} (mem : m ∈ l.queue) : m ∈ rest ++ [n] := by
      rw [queue, List.mem_cons] at mem
      rw [List.mem_append, List.mem_singleton]
      exact mem.symm
    exact ⟨turned.plugins, turned.each, fun there called => moved_on (turned.called there called),
      fun there stirs => moved_on (turned.stops there stirs)⟩

/-- When nothing can be done whoever has a permit and has not come to its end waits, for timers that
are not due. -/
theorem Attends.idle (attends : l.Attends registry) (rest : l.step = none)
    (there : l.tasks[n]? = some (.workflow id .running e)) :
    e.IsIdle ∧ e.result? = none ∧ (∀ place, ¬e.phase.Wants l.engine l.world place) ∧
      e.timers ≠ [] ∧ ∀ timer ∈ e.timers, l.world.isDue timer = false := by
  have empty := queue_of_rest rest
  have uncalled : ¬(e.IsCalled ∨ e.result? ≠ none) := fun called => by
    have mem := attends.called there called
    rw [empty] at mem
    cases mem
  have idle : e.IsIdle := by
    simpa [Execution.IsCalled, Execution.IsIdle] using fun h => uncalled (.inl h)
  have live : e.result? = none := by
    by_contra ended
    exact uncalled (.inr ended)
  obtain ⟨properties, past, start, i, driven, lives⟩ := attends.each _ (List.mem_of_getElem? there)
  have quiet := driven.attentive.quiet (Execution.step_of_idle idle)
  exact ⟨idle, live, quiet, driven.run.timers_of_quiet quiet live⟩

/-- When nothing can be done no stop of a container can go on. -/
theorem Attends.still (attends : l.Attends registry) (rest : l.step = none) {c : Cleanup}
    (there : l.tasks[n]? = some (.cleanup c)) : c.step l.engine.runtime l.world = none := by
  by_contra stirs
  have mem := attends.stops there stirs
  rw [queue_of_rest rest] at mem
  cases mem

/-- Whoever waits is called when the first of its timers is due, and is left as it is until then. -/
theorem Attends.woken (attends : l.Attends registry) (punctual : punctually l t)
    (there : l.tasks[n]? = some (.workflow id .running e)) :
    (e.timers.map (·.due)).min? = some t ∧ n ∈ (l.moveTo t).queue ∨
      e.wake l.engine { l.world with clock := t } = e := by
  obtain ⟨-, -, quiet, -, -⟩ := attends.idle punctual.1 there
  by_cases due : ∃ timer ∈ e.timers, timer.due ≤ t
  · obtain ⟨timer, mem, due⟩ := due
    refine .inl ⟨List.min?_eq_some_iff.mpr ⟨?_, fun instant listed => ?_⟩, mem_moveTo there mem due⟩
    · rw [← Nat.le_antisymm due (le_due_of_punctual punctual there mem)]
      exact List.mem_map_of_mem mem
    · obtain ⟨other, mem, rfl⟩ := List.mem_map.mp listed
      exact le_due_of_punctual punctual there mem
  · refine .inr (Execution.wake_still quiet fun timer mem => ?_)
    simpa [World.isDue] using fun early => due ⟨timer, mem, early⟩

/-- Whoever has its permit lives on as time passes, called or not. -/
theorem Attends.attended_later (attends : l.Attends registry) (punctual : punctually l t)
    (there : l.tasks[n]? = some (.workflow id .running e)) :
    (Task.workflow id .running (e.wake l.engine { l.world with clock := t })).Attended l.engine
      registry { l.world with clock := t } := by
  have spares : l.world.Spares id { l.world with clock := t } := .still id rfl rfl
  obtain ⟨idle, -⟩ := attends.idle punctual.1 there
  obtain ⟨properties, past, start, i, driven, lives⟩ := attends.each _ (List.mem_of_getElem? there)
  have later := driven.later (Execution.step_of_idle idle) { l.world with clock := t }
  have same : (e.wake l.engine { l.world with clock := t }).pipeline = e.pipeline :=
    later.run.fits.1
  rcases attends.woken punctual there with ⟨due, -⟩ | still
  · have woken := lives.wakes idle due spares
    rw [← same] at later woken
    exact ⟨properties, past, start, _, later, woken⟩
  · rw [still] at later ⊢
    exact ⟨properties, past, start, i, later, lives.beside spares (.inr idle)⟩

theorem Attends.moveTo (attends : l.Attends registry) (punctual : punctually l t) :
    (l.moveTo t).Attends registry := by
  have spares (id : String) : l.world.Spares id { l.world with clock := t } := .still id rfl rfl
  refine ⟨attends.plugins, fun task mem => ?_, fun {n id e'} there called => ?_,
    fun {n c} there stirs => ?_⟩
  · obtain ⟨old, listed, rfl⟩ := List.mem_map.mp
      ((show (l.moveTo t).tasks = l.tasks.map _ from rfl) ▸ mem)
    have attended := attends.each old listed
    cases old with
    | cleanup c => trivial
    | workflow id a e =>
      cases a with
      | arriving | waiting => exact attended
      | running =>
        obtain ⟨n, there⟩ := List.mem_iff_getElem?.mp listed
        exact attends.attended_later punctual there
      | _ =>
        obtain ⟨start, i, w₁, e₁, w₂, lives, ends, later⟩ := attended
        exact ⟨start, i, w₁, e₁, w₂, lives, ends, later.trans (spares id)⟩
  · rw [InLine.getElem?_moveTo, Option.map_eq_some_iff] at there
    obtain ⟨old, there, woken⟩ := there
    cases old with
    | cleanup c => cases woken
    | workflow id' a e =>
      cases a with
      | running =>
        cases woken
        rcases attends.woken punctual there with ⟨-, mem⟩ | still
        · exact mem
        · rw [still] at called
          obtain ⟨idle, live, -⟩ := attends.idle punctual.1 there
          simp [Execution.IsCalled, idle.1, idle.2, live] at called
      | _ => cases woken
  · rw [InLine.getElem?_moveTo, Option.map_eq_some_iff] at there
    obtain ⟨old, there, woken⟩ := there
    cases old with
    | workflow id a e => cases a <;> cases woken
    | cleanup c =>
      cases woken
      obtain ⟨timer, mem, due⟩ := Cleanup.due_of_stirring (attends.still punctual.1 there) stirs
      exact mem_moveTo there mem due

theorem Attends.of_same (attends : l.Attends registry) (tasks : l'.tasks = l.tasks)
    (queue : l'.queue = l.queue) (engine : l'.engine = l.engine)
    (spares : ∀ id, l.world.Spares id l'.world) (clock : l'.world.clock = l.world.clock) :
    l'.Attends registry := by
  refine ⟨(spares "").registry.trans attends.plugins, fun task mem => ?_, fun there called => ?_,
    fun there stirs => ?_⟩
  · have attended := attends.each task (tasks ▸ mem)
    rw [engine]
    cases task with
    | cleanup c => trivial
    | workflow id a e => exact attended.beside (spares id) clock
  · exact queue ▸ attends.called (tasks ▸ there) called
  · refine queue ▸ attends.stops (tasks ▸ there) fun still => stirs ?_
    rw [engine]
    exact Cleanup.still_of_clock clock still

theorem Attends.submit (attends : l.Attends registry) (unlogged : l.Unlogged) (new : l.IsNew id)
    (source : String) (properties : Properties) :
    (l.submit id source properties).1.Attends registry := by
  cases parsed : Script.parse source with
  | error error =>
    rw [submit_error properties parsed]
    exact attends
  | ok pipeline =>
    rw [submit_ok properties parsed]
    refine ⟨attends.plugins, fun task mem => ?_, fun {n id' e} there called => ?_,
      fun {n c} there stirs => ?_⟩
    · rcases List.mem_append.mp mem with mem | mem
      · exact attends.each task mem
      · rw [List.mem_singleton.mp mem]
        have unbegun : l.Unbegun id := fun n a e there =>
          absurd (List.mem_of_getElem? there) (new.2 a e)
        refine ⟨attends.plugins, ?_, _, Properties.workflowId_insert new.1 properties, rfl⟩
        exact entriesOf_eq_nil.mpr fun r mem => (unlogged id unbegun).2 r (List.mem_reverse.mp mem)
    · rcases workflow_append there with there | ⟨rfl, -⟩
      · exact List.mem_append_left _ (attends.called there called)
      · cases List.getElem?_concat_length.symm.trans there
    · have there : (l.tasks ++ [_])[n]? = some (.cleanup c) := there
      rw [List.getElem?_append] at there
      split at there
      · exact List.mem_append_left _ (attends.stops there stirs)
      · cases List.mem_singleton.mp (List.mem_of_getElem? there)

theorem Attends.proceeds (attends : l.Attends registry) (kept : l.Kept k) (keeps : l.Keeps)
    (unlogged : l.Unlogged) (proceeds : Proceeds punctually l l') : l'.Attends registry := by
  cases proceeds with
  | step stepped => exact attends.step keeps kept.named kept.inLine stepped
  | time t punctual => exact attends.moveTo punctual
  | submit id source properties new => exact attends.submit unlogged new source properties
  | claim | take => exact attends.of_same rfl rfl rfl (fun id => .still id rfl rfl) rfl
  | remove id =>
    obtain ⟨workflows, logs, removed⟩ := @remove_still l id
    rw [removed]
    exact attends.of_same rfl rfl rfl (fun id => .still id rfl rfl) rfl

end Launcher

end PipelineRunner
