import PipelineRunner.Container.Scripted
import PipelineRunner.Proofs.Attendance
import PipelineRunner.Proofs.SequentialRuns

/-! Workflows of a launcher do not interfere, if calls are steady. Whatever else is submitted, and
whatever becomes of the others, a workflow ends as it would end alone, and its log is the same but
for the clock and the names of containers. -/

namespace PipelineRunner

/-- What a workflow has come to, under another identifier. -/
def Execution.Phase.renamed (id : String) : Execution.Phase → Execution.Phase
  | .over (.ok report) => .over (.ok { report with workflowId := id })
  | phase => phase

namespace Launcher

variable {l l' : Launcher} {k n t : Nat} {registry : Registry} {engine : Engine} {world : World}
  {κ : Type} {d : Habits κ} {timer : Timer}

/-! ### Everything comes to an end -/

theorem mem_of_firstTimer? {timers : List Timer} (first : firstTimer? timers = some timer) :
    timer ∈ timers := by
  induction timers generalizing timer with
  | nil => cases first
  | cons head rest ih =>
    unfold firstTimer? at first
    split at first
    next next found =>
      obtain rfl := Option.some.inj first
      split
      · exact List.mem_cons_self
      · exact List.mem_cons_of_mem _ (ih found)
    next =>
      obtain rfl := Option.some.inj first
      exact List.mem_cons_self

theorem timer_of_sleeper {tasks : List Task} {from_ : Nat}
    (mem : (timer, n) ∈ sleepers from_ tasks) : ∃ task ∈ tasks, timer ∈ timersOf task := by
  induction tasks generalizing from_ with
  | nil => cases mem
  | cons task rest ih =>
    have later (mem : (timer, n) ∈ sleepers (from_ + 1) rest) :
        ∃ t ∈ task :: rest, timer ∈ timersOf t := by
      obtain ⟨t, listed, waits⟩ := ih mem
      exact ⟨t, List.mem_cons_of_mem _ listed, waits⟩
    unfold sleepers at mem
    split at mem
    next found =>
      rcases List.mem_cons.mp mem with same | mem
      · cases same
        exact ⟨task, List.mem_cons_self, mem_of_firstTimer? found⟩
      · exact later mem
    next => exact later mem

/-- When nothing can be done no timer is due. -/
theorem Attends.undue (attends : l.Attends registry) (rest : l.step = none) {task : Task}
    (mem : task ∈ l.tasks) : ∀ timer ∈ timersOf task, l.world.clock < timer.due := by
  obtain ⟨n, there⟩ := List.mem_iff_getElem?.mp mem
  intro timer waits
  have early : l.world.isDue timer = false := by
    cases task with
    | cleanup c => exact Cleanup.timers_of_blocked (attends.still rest there) timer waits
    | workflow id a e =>
      cases a with
      | running => exact (attends.idle rest there).2.2.2.2 timer waits
      | _ => cases waits
  simpa [World.isDue] using early

theorem core_wake (w : World) (task : Task) : (wake engine w task).core = task.core := by
  cases task with
  | cleanup c => rfl
  | workflow id a e =>
    cases a with
    | running =>
      obtain ⟨rota, woken⟩ := @Execution.wake_eq engine e w
      rw [wake, woken]
      rfl
    | _ => rfl

theorem ahead_cores (clock : Nat) (tasks : List Task) : ahead clock (Task.cores tasks) =
    (tasks.map fun task => (timersOf task).countP fun timer => clock < timer.due).sum := by
  simp [ahead, Task.cores, Function.comp_def, Task.timers_core]

/-- At the next instant fewer timers lie ahead. -/
theorem Attends.next (attends : l.Attends registry) (rest : l.step = none)
    (next : clockwork.nextDue l = some t) :
    punctually l t ∧ Less l.engine.policy (l.moveTo t).left l.left := by
  obtain ⟨⟨timer, n⟩, sleeps, rfl⟩ := List.mem_map.mp (List.min?_mem next)
  obtain ⟨task, mem, waits⟩ := timer_of_sleeper sleeps
  have early := attends.undue rest mem timer waits
  have same : Task.cores (l.moveTo timer.due).tasks = Task.cores l.tasks := by
    rw [show (l.moveTo timer.due).tasks = l.tasks.map _ from rfl, Task.cores, List.map_map]
    exact congrArg _ (List.map_congr_left fun task _ => core_wake _ task)
  have fewer : ahead timer.due (Task.cores l.tasks) < ahead l.world.clock (Task.cores l.tasks) := by
    rw [ahead_cores, ahead_cores]
    have all (other : Task) (listed : other ∈ l.tasks) :
        ((timersOf other).countP fun timer => l.world.clock < timer.due) =
          (timersOf other).length :=
      List.countP_eq_length.mpr fun timer waits => by
        simpa using attends.undue rest listed timer waits
    refine List.sum_lt_sum _ _ (fun other listed => ?_) ⟨task, mem, ?_⟩
    · rw [all other listed]
      exact List.countP_le_length
    · rw [all task mem]
      refine Nat.lt_of_le_of_ne List.countP_le_length fun none_due => ?_
      simpa using List.countP_eq_length.mp none_due timer waits
  refine ⟨⟨rest, Nat.le_of_lt early, fun due other => ?_⟩, ?_⟩
  · exact Nat.le_of_eq (Option.some.inj (next.symm.trans other))
  · unfold left
    rw [same]
    exact .right _ (.left _ _ fewer)

/-- What holds of a launcher on its way while calls are steady. -/
theorem Course.attends (steady : d.Describes engine.runtime registry) (blank : world.IsBlank)
    (plugins : world.registry = registry) (course : Course punctually (new engine world k) l) :
    l.Attends registry ∧ l.Kept k ∧ l.Keeps ∧ l.engine = engine := by
  have start := kept_new engine blank k
  have keeps : (new engine world k).Keeps :=
    keeps_new k (plugins ▸ steady.discreet) steady.silent blank.logs
  have unlogged : (new engine world k).Unlogged := unlogged_new blank k
  suffices l.Attends registry ∧ l.Keeps from
    ⟨this.1, course.kept start, this.2, (course.leads.evolves start.sound).engine⟩
  induction course with
  | refl =>
    refine ⟨⟨plugins, by simp [new], fun there => ?_, fun there => ?_⟩, keeps⟩ <;>
      simp [new] at there
  | tail course proceeds ih =>
    obtain ⟨attends, keeps'⟩ := ih
    have unlogged' := Course.unlogged course start keeps unlogged
    exact ⟨attends.proceeds (Course.kept course start) keeps' unlogged' proceeds,
      proceeds.keeps keeps'⟩

/-- When nothing can be done and nothing is waited for, all workflows have come to an end. -/
theorem Attends.all_over (attends : l.Attends registry) (kept : l.Kept k) (permits : 0 < k)
    (rest : l.step = none) (idle : clockwork.nextDue l = none) {id : String} {a : Admission}
    {e : Execution} (mem : Task.workflow id a e ∈ l.tasks) : a = .over := by
  have none_ : sleepers 0 l.tasks = [] := List.map_eq_nil_iff.mp (List.min?_eq_none_iff.mp idle)
  have nobody {n : Nat} {id : String} {e : Execution}
      (there : l.tasks[n]? = some (.workflow id .running e)) : False := by
    obtain ⟨timer, waits⟩ := List.exists_mem_of_ne_nil _ (attends.idle rest there).2.2.2.1
    obtain ⟨first, sleeps, -⟩ := exists_sleeper there waits 0
    rw [none_] at sleeps
    cases sleeps
  have running : l.running = 0 := by
    refine List.countP_eq_zero.mpr fun task mem running => ?_
    obtain ⟨n, there⟩ := List.mem_iff_getElem?.mp mem
    cases task with
    | cleanup c => cases running
    | workflow id a e =>
      cases a with
      | running => exact nobody there
      | _ => cases running
  obtain ⟨n, there⟩ := List.mem_iff_getElem?.mp mem
  cases a with
  | running => exact (nobody there).elim
  | arriving =>
    have queued := kept.inLine.queued.asks n (admission?_of_task there)
    rw [queue_of_rest rest] at queued
    cases queued
  | waiting =>
    have waits := (kept.inLine.line.waits n).mpr (admission?_of_task there)
    have busy := kept.inLine.line.busy (List.ne_nil_of_mem waits)
    have permits := kept.inLine.line.permits
    omega
  | _ => rfl

/-- A launcher that is left to itself for so many steps and instants. -/
def onward (fuel : Nat) (l : Launcher) : Launcher :=
  clockwork.runWithin (fun _ => false) none fuel l

/-- Left to itself a launcher comes to the end of all workflows. -/
theorem Course.ends (steady : d.Describes engine.runtime registry) (blank : world.IsBlank)
    (plugins : world.registry = registry) (permits : 0 < k)
    (course : Course punctually (new engine world k) l) :
    ∃ enough, ∀ fuel, enough ≤ fuel → Course punctually l (l.onward fuel) ∧
      ∀ id a e, Task.workflow id a e ∈ (l.onward fuel).tasks → a = .over := by
  have on_way {l' : Launcher} (further : Course punctually l l') :=
    Course.attends steady blank plugins (Relation.ReflTransGen.trans course further)
  obtain ⟨enough, rests⟩ := @Clockwork.runWithin_rests _ _ clockwork (Course punctually l) _ left
    (fun _ => false) (wf_less engine.policy)
    (fun l₁ l₂ further stepped => by
      obtain ⟨-, kept, -, same⟩ := on_way further
      exact ⟨further.tail (.step stepped), same ▸ less_of_step kept.sound.waits stepped⟩)
    (fun l₁ t further rest _ next => by
      obtain ⟨attends, -, -, same⟩ := on_way further
      obtain ⟨punctual, less⟩ := attends.next rest next
      exact ⟨further.tail (.time t punctual), same ▸ less⟩) l .refl
  refine ⟨enough, fun fuel enough => ?_⟩
  obtain ⟨l', ran, further, rest, idle⟩ := rests fuel enough
  obtain ⟨attends, kept, -⟩ := on_way further
  rw [onward, ran]
  exact ⟨further, fun id a e mem =>
    attends.all_over kept permits rest (idle.resolve_left Bool.false_ne_true) mem⟩

/-! ### Alone and among others -/

theorem becomes_pipeline {id : String} {a : Admission} {e : Execution} {task : Task}
    (fits : (Task.workflow id a e).Fits engine)
    (becomes : (Task.workflow id a e).Becomes engine task) :
    ∃ a' e', task = .workflow id a' e' ∧ e'.pipeline = e.pipeline := by
  induction becomes with
  | stays => exact ⟨a, e, rfl, rfl⟩
  | next becomes next ih =>
    obtain ⟨a', e', rfl, same⟩ := ih
    have fits' := fits.becomes becomes
    cases next with
    | waits | enters | granted | closes | breaks => exact ⟨_, _, rfl, same⟩
    | goes id moved =>
      cases fits' with
      | running id so =>
        obtain ⟨more, so', -⟩ := so.step moved
        exact ⟨_, _, rfl, (so'.fits.1.trans so.fits.1.symm).trans same⟩
    | wakes id e' w =>
      cases fits' with
      | running id so => exact ⟨_, _, rfl, ((so.wake w).fits.1.trans so.fits.1.symm).trans same⟩

/-- Whoever has been submitted is there, with the pipeline of its script. -/
theorem Course.of_submitted {passes : Launcher → Nat → Prop} {id source : String}
    {properties : Properties} {pipeline : Pipeline} (sound : l.Sound)
    (parsed : Script.parse source = .ok pipeline)
    (course : Course passes (l.submit id source properties).1 l') :
    ∃ a e, l'.tasks[l.tasks.length]? = some (.workflow id a e) ∧ e.pipeline = pipeline := by
  have sound' : (l.submit id source properties).1.Sound :=
    sound.goes (.submit id source properties)
  have there : (l.submit id source properties).1.tasks[l.tasks.length]? =
      some (.workflow id .arriving
        { pipeline, properties := OrderedMap.insert workflowKey (.string id) properties }) := by
    rw [submit_ok properties parsed, List.getElem?_concat_length]
  obtain ⟨task, there', becomes⟩ := ((Course.leads course).evolves sound').tasks _ _ there
  obtain ⟨a, e, rfl, same⟩ := becomes_pipeline (sound'.fits _ _ there) becomes
  exact ⟨a, e, there', same⟩

theorem parsed_of_submit {id source : String} {properties : Properties}
    (submitted : l.submit id source properties = (l', .ok ())) :
    ∃ pipeline, Script.parse source = .ok pipeline := by
  cases parsed : Script.parse source with
  | ok pipeline => exact ⟨pipeline, rfl⟩
  | error error => simp [submit, parsed] at submitted

/-- How the workflow of a task that is over has ended its life. -/
theorem Attends.ended (attends : l.Attends registry) {id : String} {e : Execution}
    (mem : Task.workflow id .over e ∈ l.tasks) : ∃ start n w₁ e₁ w₂,
      Execution.Lives l.engine registry id e.pipeline start n w₁ e₁ ∧
        e₁.Ends l.engine w₁ w₂ e.phase ∧ w₂.Spares id l.world :=
  attends.each _ mem

theorem renamed_of_alike {p : Twins κ} {phase phase' : Execution.Phase} {w w₁ : World}
    {e₁ : Execution} (ends : e₁.Ends p.engine w w₁ phase) (alike : phase.Alike p phase') :
    phase' = phase.renamed p.id' := by
  cases alike with
  | through | crashed => rfl
  | _ => cases ends

/-- Two workflows of the same pipeline that have come to their ends, with one launcher or with two:
they have come to the same, and the same has been logged for them. -/
theorem Course.agree (steady : d.Describes engine.runtime registry) {world' : World}
    (blank : world.IsBlank) (blank' : world'.IsBlank) (plugins : world.registry = registry)
    (plugins' : world'.registry = registry) {k' : Nat}
    (course : Course punctually (new engine world k) l)
    (course' : Course punctually (new engine world' k') l') {id id' : String} {e e' : Execution}
    (mem : Task.workflow id .over e ∈ l.tasks) (mem' : Task.workflow id' .over e' ∈ l'.tasks)
    (same : e.pipeline = e'.pipeline) :
    e'.phase = e.phase.renamed id' ∧ ∃ start start',
      List.Forall₂ (LogEntry.Alike d start start') (l.world.entries id) (l'.world.entries id') := by
  obtain ⟨attends, -, -, rfl⟩ := Course.attends steady blank plugins course
  obtain ⟨attends', -, -, engine'⟩ := Course.attends steady blank' plugins' course'
  obtain ⟨start, n, w₁, e₁, w₂, lives, ends, spares⟩ := attends.ended mem
  obtain ⟨start', n', w₁', e₁', w₂', lives', ends', spares'⟩ := attends'.ended mem'
  rw [engine', ← same] at lives'
  rw [engine'] at ends'
  let p : Twins κ := ⟨l.engine, registry, d, steady, id, id', start, start'⟩
  obtain ⟨worlds, phases⟩ := Execution.Lives.ends (p := p) lives lives' ends ends'
  refine ⟨renamed_of_alike (p := p) ends phases, start, start', ?_⟩
  rw [spares.entries, spares'.entries]
  exact worlds.entries

/-- Workflows do not interfere. Whatever has been submitted to a launcher before a workflow, and
whatever is submitted later, and whatever these workflows do, fail in or break down with: the
workflow comes to its end, if only time passes. By then it has come to the same, with the same
report or for the same reason, as it comes to if its script is the only one that is submitted, be it
at another time and under another identifier; and what has been logged for it is the same, but for a
shift of the clock and the names of containers of the same kind. Of what meets in one instant the
answer of a call counts before a cancellation and that before the end of its time, in either run. -/
theorem workflows_do_not_interfere (steady : d.Describes engine.runtime registry)
    (blank : world.IsBlank) (plugins : world.registry = registry) (permits : 0 < k)
    {l₀ l₁ : Launcher} {id source : String} {properties : Properties}
    (before : Course punctually (new engine world k) l₀) (fresh : l₀.IsNew id)
    (submitted : l₀.submit id source properties = (l₁, .ok ())) (later : Course punctually l₁ l) :
    (∃ enough, ∀ fuel, enough ≤ fuel →
      Course punctually l (l.onward fuel) ∧ ∃ e, Task.workflow id .over e ∈ (l.onward fuel).tasks) ∧
    ∀ e, Task.workflow id .over e ∈ l.tasks →
      ∀ world' k' id' properties', world'.IsBlank → world'.registry = registry → 0 < k' → id' ≠ "" →
      ∃ enough, ∀ fuel, enough ≤ fuel →
        let alone := ((new engine world' k').submit id' source properties').1.onward fuel
        ∃ e', Task.workflow id' .over e' ∈ alone.tasks ∧ e'.phase = e.phase.renamed id' ∧
          ∃ start start', List.Forall₂ (LogEntry.Alike d start start') (l.world.entries id)
            (alone.world.entries id') := by
  obtain ⟨pipeline, parsed⟩ := parsed_of_submit submitted
  obtain rfl : (l₀.submit id source properties).1 = l₁ := by rw [submitted]
  have course : Course punctually (new engine world k) l :=
    (before.tail (.submit id source properties fresh)).trans later
  have sound₀ : l₀.Sound := (sound_new engine world k).leads (Course.leads before)
  refine ⟨?_, fun e mem world' k' id' properties' blank' plugins' permits' named => ?_⟩
  · obtain ⟨enough, ends⟩ := Course.ends steady blank plugins permits course
    refine ⟨enough, fun fuel enough => ?_⟩
    obtain ⟨further, through⟩ := ends fuel enough
    obtain ⟨a, e, there, -⟩ := Course.of_submitted sound₀ parsed (later.trans further)
    have mem := List.mem_of_getElem? there
    obtain rfl := through id a e mem
    exact ⟨further, e, mem⟩
  · obtain ⟨-, -, keeps, -⟩ := Course.attends steady blank plugins course
    obtain ⟨a, e₁, there, same⟩ := Course.of_submitted sound₀ parsed later
    obtain ⟨n, here⟩ := List.mem_iff_getElem?.mp mem
    obtain rfl := keeps.distinct _ _ id a .over e₁ e there here
    obtain ⟨rfl, rfl⟩ : a = .over ∧ e₁ = e := by simpa using there.symm.trans here
    have begins : Course punctually (new engine world' k')
        ((new engine world' k').submit id' source properties').1 :=
      .single (.submit id' source properties' ⟨named, by simp [new]⟩)
    obtain ⟨enough, ends⟩ := Course.ends steady blank' plugins' permits' begins
    refine ⟨enough, fun fuel enough => ?_⟩
    obtain ⟨further, through⟩ := ends fuel enough
    obtain ⟨a', e', there', same'⟩ :=
      Course.of_submitted (sound_new engine world' k') parsed further
    have mem' := List.mem_of_getElem? there'
    obtain rfl := through id' a' e' mem'
    exact ⟨e', mem', Course.agree steady blank blank' plugins plugins' course (begins.trans further)
      mem mem' (same.trans same'.symm)⟩

end Launcher

/-! ### A neighbour that breaks down -/

namespace Launcher

namespace Neighbours

def plugin : Plugin where
  methods := [("greet", "greet"), ("crash", "crash")]
  invoke method _ := if method = "crash" then .crash "broken" else .done (.ok (some "hello"))

/-- Containers are numbered, whoever starts them. -/
def engine : Engine := ⟨.standard, ContainerScript.runtime {}⟩

def world : World := { registry := (Registry.empty.register "neighbours" plugin).1 }

def habits : Habits Unit where
  kind _ := ()
  pull _ := .done (.ok ())
  start _ := .done (.ok ())
  stop _ := .done ()
  call _ method _ _ := if method = "crash" then .crash "broken" else .done (.ok (some "hello"))

theorem steady : habits.Describes engine.runtime world.registry where
  pull _ := rfl
  start _ _ := rfl
  stop _ := rfl
  call p mem method params workflow _ := by
    obtain rfl := List.mem_singleton.mp mem
    show (plugin.invoke method params).Shows _ _ _
    unfold plugin habits
    dsimp only
    split <;> rfl
  discreet p mem method params := by
    obtain rfl := List.mem_singleton.mp mem
    show (plugin.invoke method params).LogsFor _
    unfold plugin
    dsimp only
    split <;> trivial

theorem blank : world.IsBlank := ⟨nofun, nofun, rfl⟩

/-- A script with one step, in a container. -/
def script (step : String) : String :=
  "pipeline \x7b agent \x7b docker 'alpine' \x7d stages \x7b stage('S') \x7b steps \x7b " ++
    step ++ " \x7d \x7d \x7d \x7d"

def first : Launcher := ((new engine world 2).submit "first" (script "crash 'x'") []).1

def second : Launcher := (first.submit "second" (script "greet 'x'") []).1

def both : Launcher := clockwork.settleWithin 60 second

/-- Whether a task is that of the second workflow, which has been greeted. -/
def isGreeted : Option Task → Bool
  | some (.workflow "second" .over e) =>
    match e.phase with
    | .over (.ok ⟨"second", [("S", .steps ["hello"])], none⟩) => true
    | _ => false
  | _ => false

theorem exists_of_isGreeted {task : Option Task} (greeted : isGreeted task = true) :
    ∃ e, task = some (.workflow "second" .over e) ∧
      e.phase = .over (.ok ⟨"second", [("S", .steps ["hello"])], none⟩) := by
  unfold isGreeted at greeted
  split at greeted
  · split at greeted
    · exact ⟨_, rfl, ‹_›⟩
    · cases greeted
  · cases greeted

theorem submit_second :
    first.submit "second" (script "greet 'x'") [] = (second, .ok ()) := by
  have taken : (first.submit "second" (script "greet 'x'") []).2.toBool = true := by
    decide +kernel
  unfold second
  generalize first.submit "second" (script "greet 'x'") [] = answer at taken ⊢
  match answer, taken with
  | (_, .ok ()), _ => rfl

end Neighbours

/-- The second workflow runs in another container than it would if the first were not there; it
comes to what it comes to alone. -/
theorem Neighbours.second_is_spared : ∃ enough, ∀ fuel, enough ≤ fuel →
    ∃ e, Task.workflow "alone" .over e ∈
        (((new engine world 1).submit "alone" (script "greet 'x'") []).1.onward fuel).tasks ∧
      e.phase = .over (.ok ⟨"alone", [("S", .steps ["hello"])], none⟩) := by
  have greeted : isGreeted both.tasks[1]? = true := by decide +kernel
  obtain ⟨e, there, phase⟩ := exists_of_isGreeted greeted
  have before : Course punctually (new engine world 2) first :=
    .single (.submit "first" _ [] (by decide +kernel))
  have later : Course punctually second both := course_settleWithin 60
  obtain ⟨-, alone⟩ := workflows_do_not_interfere steady blank rfl (by decide) before
    (by decide +kernel) submit_second later
  obtain ⟨enough, ends⟩ := alone e (List.mem_of_getElem? there) world 1 "alone" [] blank rfl
    (by decide) (by decide)
  refine ⟨enough, fun fuel enough => ?_⟩
  obtain ⟨e', mem, same, -⟩ := ends fuel enough
  exact ⟨e', mem, by rw [same, phase]; rfl⟩

/-! ### What steady calls are needed for -/

/-- How long the calls of plugins take and what they yield is told by the plugin, the method and the
declared parameters, and that of pulls and starts is told by the image, but for the name of the
container. Nothing is said of stops, or of what calls write to logs. -/
structure Regular (runtime : ContainerRuntime) (registry : Registry) : Prop where
  pull : ∀ image, ∃ time answer, (runtime.pull image).Ends fun t a => t = time ∧ a = answer
  start : ∀ image, ∃ time answer,
    (runtime.start image).Ends fun t a => t = time ∧ a.map (fun _ => ()) = answer
  call : ∃ plan : String → String → StepParams → Nat × Except Cause (Option String),
    ∀ p ∈ registry.plugins, ∀ method params, (p.plugin.invoke method params).Ends fun t a =>
      (t, a) = plan p.name method (declared params)

namespace Neighbours

/-- Greets, and tells something of the number of its greetings. -/
def greeter (tells : Nat → Option String) : Plugin where
  methods := [("greet", "greet")]
  invoke _ params := .count "greetings" fun n =>
    match params.get? workflowKey, tells n with
    | some id, some message => .log id .info message (.done (.ok (some "hello")))
    | _, _ => .done (.ok (some "hello"))

def greeters (tells : Nat → Option String) : World where
  registry := (Registry.empty.register "greeters" (greeter tells)).1

/-- Numbered containers that take so long to stop. -/
def stopping (time : String → Nat) : ContainerRuntime :=
  { ContainerScript.runtime {} with stop := fun id => .sleep (time id) fun _ => .done (.ok ()) }

theorem regular (time : String → Nat) (tells : Nat → Option String) :
    Regular (stopping time) (greeters tells).registry where
  pull _ := ⟨0, .ok (), rfl, rfl⟩
  start _ := ⟨0, .ok (), fun _ => ⟨rfl, rfl⟩⟩
  call := by
    refine ⟨fun _ _ _ => (0, .ok (some "hello")), fun p mem method params => ?_⟩
    obtain rfl := List.mem_singleton.mp mem
    intro n
    dsimp only
    split <;> rfl

/-- A script of two stages, the first of which has a container. -/
def stages : String :=
  "pipeline \x7b agent none stages \x7b stage('S1') \x7b agent \x7b docker 'alpine' \x7d " ++
    "steps \x7b greet 'x' \x7d \x7d stage('S2') \x7b steps \x7b greet 'x' \x7d \x7d \x7d \x7d"

/-- What has been logged for a workflow by its end that is submitted behind some others. -/
def loggedBehind (others : List String) (time : String → Nat) (tells : Nat → Option String) :
    Option (List LogEntry) :=
  let before := others.foldl (fun l id => (l.submit id stages []).1)
    (new ⟨.standard, stopping time⟩ (greeters tells) 2)
  let l := (before.submit "last" stages []).1.onward 200
  match l.tasks.getLast? with
  | some (.workflow "last" .over _) => some (l.world.entries "last")
  | _ => none

/-- The second container takes its time. -/
def secondLags (container : String) : Nat := if container = "ctr-2" then 5000 else 0

/-- Only the first greeting is told of. -/
def firstTold (n : Nat) : Option String := if n = 1 then some "hello for the first time" else none

/-- Behind another workflow, something else is logged for a workflow than if it is alone. -/
def Shows (time : String → Nat) (tells : Nat → Option String) : Prop :=
  ∃ alone beside, loggedBehind [] time tells = some alone ∧
    loggedBehind ["first"] time tells = some beside ∧
    ∀ start start', ¬List.Forall₂ (LogEntry.Alike habits start start') beside alone

theorem shift_of_alike {start start' t t' : Nat} {level level' : LogLevel}
    {message message' : String} (alike : LogEntry.Alike habits start start'
      ⟨.ofMilliseconds t, level, message⟩ ⟨.ofMilliseconds t', level', message'⟩) :
    t + start' = t' + start := by
  have inj {m n : Nat} (same : Timestamp.ofMilliseconds m = .ofMilliseconds n) : m = n := by
    simp only [Timestamp.ofMilliseconds, Timestamp.mk.injEq] at same
    omega
  generalize told : Timestamp.ofMilliseconds t = time at alike
  generalize told' : Timestamp.ofMilliseconds t' = time' at alike
  cases alike with
  | line shift | container shift =>
    rw [inj told, inj told']
    exact shift

/-- Entries that are logged at some times. -/
def logged (lines : List (Nat × String)) : List LogEntry :=
  lines.map fun line => ⟨.ofMilliseconds line.1, .info, line.2⟩

/-- The second stage begins when the container of the first one has stopped, and no shift of the
clock makes that up. -/
theorem lagging_shows : Shows secondLags fun _ => none := by
  refine ⟨logged [(0, "Stage 'S1' started"),
      (0, "Stage 'S1' running in container ctr-1 (alpine:latest)"), (0, "Stage 'S2' started")],
    logged [(0, "Stage 'S1' started"),
      (0, "Stage 'S1' running in container ctr-2 (alpine:latest)"), (5000, "Stage 'S2' started")],
    by decide +kernel, by decide +kernel, fun start start' alike => ?_⟩
  obtain ⟨first, later⟩ := List.forall₂_cons.mp alike
  obtain ⟨last, -⟩ := List.forall₂_cons.mp (List.forall₂_cons.mp later).2
  have begins := shift_of_alike first
  have lags := shift_of_alike last
  omega

/-- Whoever greets later is told less. -/
theorem telling_shows : Shows (fun _ => 0) firstTold := by
  refine ⟨logged [(0, "Stage 'S1' started"),
      (0, "Stage 'S1' running in container ctr-1 (alpine:latest)"),
      (0, "hello for the first time"), (0, "Stage 'S2' started")],
    logged [(0, "Stage 'S1' started"),
      (0, "Stage 'S1' running in container ctr-2 (alpine:latest)"), (0, "Stage 'S2' started")],
    by decide +kernel, by decide +kernel, fun start start' alike => ?_⟩
  exact absurd alike.length_eq (by decide)

end Neighbours

/-- The conditions on stops and on logs are needed. Where a container takes longer to stop than
another one of the same image, others show in how long a workflow takes; and where a plugin writes
to the log what it has counted, others show in that. -/
theorem Neighbours.others_show :
    (Regular (stopping secondLags) (greeters fun _ => none).registry ∧
      Shows secondLags fun _ => none) ∧
    Regular (stopping fun _ => 0) (greeters firstTold).registry ∧ Shows (fun _ => 0) firstTold :=
  ⟨⟨regular .., lagging_shows⟩, regular .., telling_shows⟩

end Launcher

end PipelineRunner
