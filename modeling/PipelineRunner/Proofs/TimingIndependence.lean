import PipelineRunner.Proofs.Endings
import PipelineRunner.Proofs.LauncherRuns
import PipelineRunner.Proofs.OnTrack

/-! What a pipeline comes to does not tell how long its calls have taken. Where calls and containers
can be relied on, all runs come to the one report that the sequential reference yields, whichever
branch has been through first. -/

namespace PipelineRunner

section

variable {s : Setting} {w w' : World} {pipeline : Pipeline} {properties : Properties}
  {state : StateCell} {e e' : Execution}

/-! ### Runs in which whatever is due is done -/

namespace Execution.Punctual

variable {engine : Engine} {registry : Registry}

theorem run (so : Punctual engine registry pipeline properties state w e) :
    ∃ past, Run engine pipeline properties state past e := by
  induction so with
  | begins => exact ⟨[], .begins⟩
  | turn so moved ih =>
    obtain ⟨past, run⟩ := ih
    obtain ⟨news, noted⟩ := grows_of_move moved
    exact ⟨_, run.turn moved noted⟩
  | called so rota ih =>
    obtain ⟨past, run⟩ := ih
    exact ⟨past, run.called rota⟩
  | beside so plugins clock ih => exact ih
  | later so plugins forward undue ih => exact ih

theorem step (so : Punctual engine registry pipeline properties state w e)
    (stepped : e.step engine w = .moved w' e') :
    Punctual engine registry pipeline properties state w' e' := by
  rcases step_moved stepped with ⟨after, rota, moved, rfl⟩ | ⟨rfl, rota, rfl⟩
  · exact (so.turn moved).called rota
  · exact so.called rota

/-- Until the end, turns can be had or time has to go on. -/
theorem goes_on (so : Punctual engine registry pipeline properties state w e)
    (unended : e.result? = none) :
    (∃ path, e.move engine w path ≠ .blocked) ∨
      e.timers ≠ [] ∧ ∀ timer ∈ e.timers, w.clock < timer.due := by
  by_cases stuck : ∀ path, e.move engine w path = .blocked
  · obtain ⟨past, run⟩ := so.run
    obtain ⟨some_, undue⟩ :=
      run.timers_of_quiet (fun place => unwanted_of_blocked (stuck place)) unended
    exact .inr ⟨some_, fun timer mem => by simpa [World.isDue] using undue timer mem⟩
  · exact .inl (Classical.not_forall.mp stuck)

section

variable (so : Punctual s.engine s.registry pipeline properties state w e)
  (known : properties.workflowId = .ok s.workflow)
  (serves : ∀ stage ∈ pipeline.stages, s.Serves stage pipeline.agent)

include so known serves

theorem result_eq {result : Except ExecutionError Report} (ended : e.result? = some result) :
    result = .ok (pipeline.reportFrom s.answers s.workflow) := by
  have onTrack := (so.onTrack known serves).2.phase
  rw [result?_eq_some.mp ended] at onTrack
  exact onTrack

/-- No turn breaks down, wherever it is had, unless a stop does. -/
theorem unbroken (stops : s.Stops) {path : List Nat} {reason : String} {held : List String} :
    e.move s.engine w path ≠ .crashed w' reason held := by
  intro broken
  obtain ⟨same, onTrack⟩ := so.onTrack known serves
  have fine := move_fine onTrack serves same path
  rw [broken] at fine
  exact fine stops

end

end Execution.Punctual

/-! ### An execution by itself is punctual -/

namespace Cleanup

theorem registry_of_follow {c c' : Cleanup} {progress : World × Progress (Except Cause Unit)}
    (h : c.follow progress = (w', c')) : w'.registry = progress.1.registry := by
  obtain ⟨w, progress⟩ := progress
  cases progress <;> cases h <;> rfl

theorem registry_of_stepFirst {runtime : ContainerRuntime} {cleanups after : List Cleanup}
    (h : stepFirst runtime w cleanups = some (w', after)) : w'.registry = w.registry := by
  obtain ⟨i, c, c', there, stepped, -⟩ := step_of_stepFirst h
  rcases follow_of_step stepped with ⟨-, begun⟩ | ⟨wait, -, went_on⟩
  · exact (registry_of_follow begun).trans (World.passes_perform _ _ _).1
  · exact (registry_of_follow went_on).trans (World.passes_perform _ _ _).1

end Cleanup

namespace SoloExecution

variable {x x' : SoloExecution} {t : Nat}

/-- An execution by itself before its first turn. -/
def fresh (engine : Engine) (world : World) (pipeline : Pipeline) (properties : Properties)
    (state : StateCell) : SoloExecution :=
  ⟨engine, world, { pipeline, properties, state }, []⟩

/-- An execution by itself is in the midst of a run, and nothing has broken down. -/
structure Sound (s : Setting) (pipeline : Pipeline) (properties : Properties) (state : StateCell)
    (x : SoloExecution) : Prop where
  inTime : InTime s.engine pipeline properties state x
  punctual : Execution.Punctual s.engine s.registry pipeline properties state x.world x.execution

theorem sound_fresh (pipeline : Pipeline) (properties : Properties) (state : StateCell)
    (plugins : w.registry = s.registry) :
    Sound s pipeline properties state (fresh s.engine w pipeline properties state) :=
  ⟨⟨rfl, .inr ⟨[], .begins w⟩⟩, .begins w plugins⟩

section

variable (known : properties.workflowId = .ok s.workflow)
  (serves : ∀ stage ∈ pipeline.stages, s.Serves stage pipeline.agent) (stops : s.Stops)

include known serves stops in
theorem Sound.step (sound : Sound s pipeline properties state x) (h : x.step = some x') :
    Sound s pipeline properties state x' := by
  refine ⟨sound.inTime.step h, ?_⟩
  obtain ⟨⟨same, -⟩, so⟩ := sound
  rw [← same] at so
  unfold SoloExecution.step at h
  split at h
  next w e moved =>
    cases h
    exact same ▸ so.step moved
  next w reason held broken =>
    rw [same] at broken so
    exact absurd (Execution.step_crashed broken) (so.unbroken known serves stops)
  next =>
    obtain ⟨⟨w, cleanups⟩, stepped, he⟩ := Option.map_eq_some_iff.mp h
    cases he
    exact same ▸ so.beside (Cleanup.registry_of_stepFirst stepped)
      (Cleanup.clock_of_stepFirst stepped)

theorem Sound.moveTo (sound : Sound s pipeline properties state x) (rest : x.step = none)
    (unended : x.hasHalted = false) (next : clockwork.nextDue x = some t) :
    Sound s pipeline properties state (clockwork.moveTo t x) := by
  refine ⟨sound.inTime.moveTo rest t, ?_⟩
  obtain ⟨mem, least⟩ := List.min?_eq_some_iff.mp next
  obtain ⟨timer, awaited, rfl⟩ := List.mem_map.mp mem
  have ahead := (sound.inTime.timers_of_rest rest unended).2 timer awaited
  obtain ⟨rota, woken⟩ :=
    @Execution.wake_eq x.engine x.execution { x.world with clock := timer.due }
  have later : Execution.Punctual s.engine s.registry pipeline properties state
      { x.world with clock := timer.due } x.execution :=
    sound.punctual.later rfl (Nat.le_of_lt ahead) fun timer mem =>
      least _ (List.mem_map_of_mem (List.mem_append_left _ mem))
  simpa [clockwork, woken] using later.called rota

include known serves

theorem Sound.result_of_halted (sound : Sound s pipeline properties state x)
    (halted : x.hasHalted = true) :
    x.execution.result? = some (.ok (pipeline.reportFrom s.answers s.workflow)) := by
  have onTrack := (sound.punctual.onTrack known serves).2.phase
  unfold hasHalted at halted
  unfold Execution.result?
  split at halted
  next phase =>
    rw [phase] at onTrack ⊢
    exact congrArg some onTrack
  next phase =>
    rw [phase] at onTrack
    exact onTrack.elim
  next => cases halted

include stops

theorem Sound.runWithin (sound : Sound s pipeline properties state x) (fuel : Nat) :
    Sound s pipeline properties state (clockwork.runWithin hasHalted none fuel x) :=
  Clockwork.runWithin_preserves (m := clockwork)
    (fun _ _ stepped sound => Sound.step known serves stops sound stepped)
    (fun _ _ rest unended next sound => Sound.moveTo sound rest unended next) none fuel sound

theorem Sound.run (sound : Sound s pipeline properties state x) :
    Sound s pipeline properties state (run x []) := by
  have step (x x' : SoloExecution) (stepped : x.step = some x')
      (sound : Sound s pipeline properties state x) : Sound s pipeline properties state x' :=
    sound.step known serves stops stepped
  have first := turn_preserves step sound
  unfold SoloExecution.run
  dsimp only
  split
  · exact first
  · exact Clockwork.run_preserves (m := clockwork) step
      (fun _ _ rest unended next sound => sound.moveTo rest unended next) none first

end

end SoloExecution

/-! ### One report -/

namespace Execution

/-- All that an execution of a pipeline comes to is this report, however long its calls take and
whichever of its turns come first. -/
structure SettlesOn (s : Setting) (pipeline : Pipeline) (properties : Properties)
    (report : Report) : Prop where
  /-- Whatever the order in which turns are had, and whenever, there is no other result. -/
  unique : ∀ {state w e result}, Punctual s.engine s.registry pipeline properties state w e →
    e.result? = some result → result = .ok report
  /-- Until there is one, turns can be had somewhere or time has to go on. -/
  goesOn : ∀ {state w e}, Punctual s.engine s.registry pipeline properties state w e →
    e.result? = none → (∃ path, e.move s.engine w path ≠ .blocked) ∨
      e.timers ≠ [] ∧ ∀ timer ∈ e.timers, w.clock < timer.due
  /-- Nobody can have turns for ever. -/
  turnsRunOut : WellFounded fun e' e : Execution =>
    ∃ w w' path, e.move s.engine w path = .moved w' e'
  /-- No turn breaks down but where a stop of a container does. -/
  unbroken : s.Stops → ∀ {state w e},
    Punctual s.engine s.registry pipeline properties state w e →
      ∀ path w' reason held, e.move s.engine w path ≠ .crashed w' reason held
  /-- By itself an execution comes to the report, given the patience that this takes. -/
  byItself : s.Stops → ∀ world state, world.registry = s.registry →
    ∃ n, ∀ fuel, n ≤ fuel → (SoloExecution.clockwork.runWithin SoloExecution.hasHalted none fuel
      (SoloExecution.fresh s.engine world pipeline properties state)).execution.result? =
        some (.ok report)
  /-- So it does in a run with the usual patience if this is enough. -/
  asUsual : s.Stops → ∀ world state, world.registry = s.registry →
    let x := (SoloExecution.fresh s.engine world pipeline properties state).run []
    x.hasHalted = true → x.execution.result? = some (.ok report)
  /-- The reference, which runs branches one after the other, yields the report. -/
  inOrder : ∀ world, world.registry = s.registry →
    ∃ after, pipeline.runInOrder s.engine.runtime s.workflow world = some (after, report)

theorem wf_moved (engine : Engine) : WellFounded fun e' e : Execution =>
    ∃ w w' path, e.move engine w path = .moved w' e' := by
  refine Subrelation.wf (r := InvImage (Phase.Nearer engine.policy) Execution.phase) ?_
    (InvImage.wf _ Phase.wf_nearer)
  rintro e' e ⟨w, w', path, moved⟩
  exact nearer_of_move moved

/-- Where every call yields in time what its command and its declared parameters tell, and all
containers come up, a pipeline settles on the report that these answers alone tell: of how long
anything takes, of the world and of the containers there is nothing in it. The branches of a stage
stand in it in the order of their declaration; of several with the same name the last one counts, in
the place of the first. -/
theorem timing_does_not_show (s : Setting) {pipeline : Pipeline} {properties : Properties}
    (known : properties.workflowId = .ok s.workflow)
    (serves : ∀ stage ∈ pipeline.stages, s.Serves stage pipeline.agent) :
    SettlesOn s pipeline properties (pipeline.reportFrom s.answers s.workflow) ∧
      ∀ stage : Stage, stage.parallel ≠ [] →
        ∃ results, (stage.outputFrom s.answers).branches? = some results ∧
          OrderedMap.names results = (stage.parallel.map (·.name)).eraseDups ∧
          ∀ name, OrderedMap.get? name results =
            (stage.parallel.map fun b => (b.name, b.outputFrom s.answers)).reverse.lookup name := by
  refine ⟨⟨?unique, ?goesOn, ?turnsRunOut, ?unbroken, ?byItself, ?asUsual, ?inOrder⟩, ?order⟩
  case unique => exact fun so ended => so.result_eq known serves ended
  case goesOn => exact fun so unended => so.goes_on unended
  case turnsRunOut => exact wf_moved s.engine
  case unbroken => exact fun stops _ _ _ so _ _ _ _ => so.unbroken known serves stops
  case byItself =>
    intro stops world state plugins
    have sound := SoloExecution.sound_fresh pipeline properties state plugins
    obtain ⟨n, halts⟩ := sound.inTime.halts
    exact ⟨n, fun fuel enough => (sound.runWithin known serves stops fuel).result_of_halted
      known serves (halts fuel enough)⟩
  case asUsual =>
    intro stops world state plugins x halted
    have sound := SoloExecution.sound_fresh pipeline properties state plugins
    exact (sound.run known serves stops).result_of_halted known serves halted
  case inOrder => exact fun world same => InOrder.runInOrder_reliable serves same
  case order => exact fun stage branches => stage.branches_outputFrom s.answers branches

end Execution

end

/-! ### Two branches that overtake each other -/

namespace Execution.Relay

/-- The text that a call is given. -/
def textOf (params : StepParams) : String := (params.get? Step.textKey).getD ""

/-- Calls repeat what they are told, each after a while of its own. -/
def plugin (times : String → Nat) : Plugin where
  methods := [("echo", "echo")]
  invoke _ params := .sleep (times (textOf params)) fun _ => .done (.ok (some (textOf params)))

/-- Containers take as long as their images tell, and none can be stopped. -/
def engine (times : String → Nat) : Engine where
  policy := ⟨1, .ofSeconds 1, .ofSeconds 1, 1, .ofSeconds 1⟩
  runtime :=
    { pull := fun image => .sleep (times image) fun _ => .done (.ok ())
      start := fun image => .count "containers" fun n => .done (.ok s!"{image}-{n}")
      exec := fun _ _ => .done (.ok .finished)
      stop := fun _ => .done (.error (.because "gone")) }

def setting (times : String → Nat) : Setting where
  engine := engine times
  registry := (Registry.empty.register "relay" (plugin times)).1
  workflow := "relay"
  answers _ params := some (textOf params)

/-- Two of the branches have the same name. -/
def pipeline : Pipeline where
  agent := .none
  stages := [
    { name := "build"
      steps := [.single "echo" "done"]
      parallel := [
        { name := "left", agent := some (.docker "box"), steps := [.single "echo" "a"] },
        { name := "right", steps := [.single "echo" "b"] },
        { name := "left", steps := [.single "echo" "c"] }] }]

def properties : Properties := [(workflowKey, .string "relay")]

def report : Report :=
  ⟨"relay", [("build", .combined [("left", .steps ["c"]), ("right", .steps ["b"])] ["done"])], none⟩

variable {times : String → Nat}

theorem provides (brief : ∀ text, times text ≤ 1000) (text : String) :
    (setting times).Provides (.single "echo" text) := by
  have told (container : Option String) :
      textOf (Step.paramsWithin (.single "echo" text) "relay" container) = text := by
    cases container <;> rfl
  refine ⟨⟨"echo", "relay", "echo"⟩, ⟨"relay", 0, plugin times⟩, rfl, rfl, fun container => ?_⟩
  have limit : 1000 ≤ (engine times).policy.attemptLimit := by
    simp [engine, RetryPolicy.attemptLimit, Span.ofSeconds, Span.millisecondsUp, longestWait]
  simp only [setting, plugin, Work.Ends, told]
  refine ⟨?_, rfl⟩
  have := brief text
  omega

theorem hosts (agent : Agent) : (setting times).Hosts agent :=
  fun _ _ => ⟨rfl, fun _ => ⟨_, rfl⟩⟩

theorem serves (brief : ∀ text, times text ≤ 1000) :
    ∀ stage ∈ pipeline.stages, (setting times).Serves stage pipeline.agent := by
  have branch (name text : String) (agent : Option Agent) (inherited : Agent) :
      (setting times).Serves { name, agent, steps := [.single "echo" text] } inherited :=
    Setting.Serves.intro (by simp [provides brief]) (fun _ => hosts _) nofun
  simp only [pipeline, List.mem_singleton, forall_eq]
  exact Setting.Serves.intro (by simp [provides brief]) (fun _ => hosts _) (by simp [branch])

theorem stops : (setting times).Stops := fun _ => trivial

/-- With these times the right branch is through first. -/
def leftLast (text : String) : Nat := if text = "b" then 5 else 900

/-- With these times the left branches are. -/
def rightLast (text : String) : Nat := if text = "b" then 900 else 5

/-- Whichever branch is through first, the report is the same. -/
theorem either_way : (setting leftLast).Stops ∧ (setting rightLast).Stops ∧
    SettlesOn (setting leftLast) pipeline properties report ∧
      SettlesOn (setting rightLast) pipeline properties report := by
  have left (text : String) : leftLast text ≤ 1000 := by
    unfold leftLast
    split <;> omega
  have right (text : String) : rightLast text ≤ 1000 := by
    unfold rightLast
    split <;> omega
  exact ⟨stops, stops, (timing_does_not_show (setting leftLast) rfl (serves left)).1,
    (timing_does_not_show (setting rightLast) rfl (serves right)).1⟩

end Execution.Relay

end PipelineRunner
