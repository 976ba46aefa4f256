import PipelineRunner.Container.Lease
import PipelineRunner.Engine.Execution
import PipelineRunner.Schedule
import PipelineRunner.Script.Parser

/-!
The launcher takes in pipeline scripts and executes them, so many at once. Each script becomes a
task; tasks wait for a permit in the order in which they have come, and whoever is ready to go on
stands in a queue. A task at the head of the queue goes on until it has to wait.
-/

namespace PipelineRunner

/-- Where an execution stands with the launcher. -/
inductive Admission where
  | arriving
  /-- It waits for a permit. -/
  | waiting
  | running
  | over
  deriving DecidableEq, Repr

/-- What the launcher has going on. -/
inductive Task where
  | workflow (id : String) (admission : Admission) (execution : Execution)
  | cleanup (cleanup : Cleanup)

/-- A workflow that the launcher knows. -/
structure Workflow where
  id : String
  /-- The number of its task. -/
  task : Nat
  /-- Whether somebody has asked for its report. -/
  awaited : Bool := false
  deriving DecidableEq, Repr

structure Launcher where
  engine : Engine
  world : World
  /-- The permits that nobody has. -/
  free : Nat
  /-- The tasks that wait for a permit, the longest waiting first. -/
  waiting : List Nat := []
  tasks : List Task := []
  /-- The tasks that are ready to go on. -/
  queue : List Nat := []
  workflows : List Workflow := []

namespace Launcher

/-- A launcher that executes so many workflows at once. -/
def new (engine : Engine) (world : World) (maxParallel : Nat) : Launcher :=
  { engine, world, free := maxParallel }

def setTask (l : Launcher) (n : Nat) (task : Task) : Launcher :=
  { l with tasks := l.tasks.set n task }

/-- Gives a task a permit that has been taken for it. -/
def grant (l : Launcher) (n : Nat) : Launcher :=
  match l.tasks[n]? with
  | some (.workflow id _ e) => l.setTask n (.workflow id .running e)
  | _ => l

/-- Gives a permit back: the task that waits longest gets it. -/
def release (l : Launcher) : Launcher :=
  match l.waiting with
  | [] => { l with free := l.free + 1 }
  | n :: rest => { l.grant n with waiting := rest, queue := l.queue ++ [n] }

/-- A turn of a task that has just come: it takes a permit or begins to wait for one. -/
def arrive (l : Launcher) (n : Nat) (id : String) (e : Execution) : Launcher :=
  if l.free = 0 then
    { l.setTask n (.workflow id .waiting e) with waiting := l.waiting ++ [n] }
  else { l.setTask n (.workflow id .running e) with free := l.free - 1 }

/-- Ends a task whose execution has ended. Whatever it has come to, its state is done. -/
def close (l : Launcher) (n : Nat) (id : String) (e : Execution)
    (result : Except ExecutionError Report) : Launcher :=
  let w := match result with
    | .ok _ => l.world
    | .error error => l.world.log ⟨id, []⟩ id .error error.message
  let (w, e) := e.enter id .done w
  { l.setTask n (.workflow id .over e) with world := w }.release

def spawnCleanup (l : Launcher) (container : String) : Launcher :=
  { l with
    tasks := l.tasks ++ [.cleanup { container }]
    queue := l.queue ++ [l.tasks.length] }

/-- Ends a task that has broken down. -/
def breakDown (l : Launcher) (n : Nat) (id : String) (e : Execution) (reason : String)
    (held : List String) : Launcher :=
  let l := l.setTask n (.workflow id .over { e with phase := .crashed reason })
  (held.foldl spawnCleanup l).release

/-- A turn of a task, unless it has to wait. -/
def turn (l : Launcher) (n : Nat) : Option Launcher :=
  match l.tasks[n]? with
  | some (.workflow id .arriving e) => some (l.arrive n id e)
  | some (.workflow id .running e) =>
    match e.result? with
    | some result => some (l.close n id e result)
    | none =>
      match e.step l.engine l.world with
      | .moved w e => some { l.setTask n (.workflow id .running e) with world := w }
      | .crashed w reason held => some ({ l with world := w }.breakDown n id e reason held)
      | _ => none
  | some (.cleanup c) =>
    (c.step l.engine.runtime l.world).map fun (w, c) => { l.setTask n (.cleanup c) with world := w }
  | _ => none

/-- Whether a task is in the middle of a turn of its execution. -/
def isOnTurn (l : Launcher) (n : Nat) : Bool :=
  match l.tasks[n]? with
  | some (.workflow _ .running e) => e.rota.onTurn
  | _ => false

/-- Whether a task whose turn has ended wants another one. -/
def isRestless (l : Launcher) (n : Nat) : Bool :=
  match l.tasks[n]? with
  | some (.workflow _ .running e) => e.rota.called
  | _ => false

/-- A step of the task at the head of the queue. It leaves the queue if it has to wait, and goes to
the end of the queue if its turn is over and it wants another one. -/
def step (l : Launcher) : Option Launcher :=
  match l.queue with
  | [] => none
  | n :: rest =>
    match l.turn n with
    | none => some { l with queue := rest }
    | some after =>
      if l.isOnTurn n && !after.isOnTurn n && after.isRestless n then
        some { after with queue := after.queue.tail ++ [n] }
      else some after

def timersOf : Task → List Timer
  | .workflow _ .running e => e.timers
  | .workflow .. => []
  | .cleanup c => c.timers

def firstTimer? : List Timer → Option Timer
  | [] => none
  | t :: rest =>
    match firstTimer? rest with
    | some u => some (if t.before u then t else u)
    | none => some t

/-- The tasks that wait for timers, each with the first of them, numbered from `n` on. -/
def sleepers (n : Nat) : List Task → List (Timer × Nat)
  | [] => []
  | task :: rest =>
    match firstTimer? (timersOf task) with
    | some timer => (timer, n) :: sleepers (n + 1) rest
    | none => sleepers (n + 1) rest

/-- Calls what need not wait any longer in a task. -/
def wake (engine : Engine) (w : World) : Task → Task
  | .workflow id .running e => .workflow id .running (e.wake engine w)
  | task => task

/-- Moves the clock on. The tasks that are due are ready to go on, in the order of their timers. -/
def moveTo (t : Nat) (l : Launcher) : Launcher :=
  let due := (sleepers 0 l.tasks).filter fun s => s.1.due ≤ t
  let woken := (due.mergeSort fun a b => a.1.before b.1).map (·.2)
  let w := { l.world with clock := t }
  { l with world := w, tasks := l.tasks.map (wake l.engine w), queue := l.queue ++ woken }

def clockwork : Clockwork Launcher where
  step := step
  nextDue l := earliest? ((sleepers 0 l.tasks).map (·.1.due))
  moveTo := moveTo

/-! ### Requests

What one can ask of a launcher: to execute a script, how far a workflow has come, what it has
logged, and what it has yielded. -/

def find? (l : Launcher) (id : String) : Option Workflow :=
  l.workflows.find? fun w => w.id == id

/-- The execution that a task carries out. -/
def execution? (l : Launcher) (n : Nat) : Option Execution :=
  match l.tasks[n]? with
  | some (.workflow _ _ e) => some e
  | _ => none

def stateOf (l : Launcher) (w : Workflow) : WorkflowState :=
  match l.execution? w.task with
  | some e => e.state.state
  | none => .undefined

/-- Takes in a script under the given identifier. -/
def submit (l : Launcher) (id : String) (source : String) (properties : Properties) :
    Launcher × Except LaunchError Unit :=
  match Script.parse source with
  | .error error => (l, .error (.script error))
  | .ok pipeline =>
    let properties := OrderedMap.insert workflowKey (.string id) properties
    let n := l.tasks.length
    ({ l with
        tasks := l.tasks ++ [.workflow id .arriving { pipeline, properties }]
        queue := l.queue ++ [n]
        workflows := l.workflows ++ [{ id, task := n }] },
      .ok ())

/-- The state of a workflow, which is undefined for unknown ones. -/
def query (l : Launcher) (id : String) : WorkflowState :=
  ((l.find? id).map l.stateOf).getD .undefined

def state? (l : Launcher) (id : String) : Option WorkflowState :=
  (l.find? id).map l.stateOf

def list (l : Launcher) : List (String × WorkflowState) :=
  l.workflows.map fun w => (w.id, l.stateOf w)

/-- Takes what a workflow has logged since it was last asked. -/
def takeLogs (l : Launcher) (id : String) : Launcher × List LogEntry :=
  let (logs, entries) := l.world.logs.drain id
  ({ l with world := { l.world with logs := logs } }, entries)

/-- Forgets a workflow and its log, if it is done. -/
def remove (l : Launcher) (id : String) : Launcher × Bool :=
  if l.query id = .done then
    ({ l with
        workflows := l.workflows.filter fun w => w.id != id
        world := { l.world with logs := l.world.logs.remove id } },
      true)
  else (l, false)

/-- Lets everything run that can run now. -/
def settle (l : Launcher) : Launcher := clockwork.settle l

/-- Lets some time pass. What is due at its end is not done yet. -/
def sleep (l : Launcher) (milliseconds : Nat) : Launcher :=
  if milliseconds = 0 then l
  else
    let instant := l.world.clock + min milliseconds longestWait
    moveTo instant (clockwork.run (fun _ => false) (some instant) l)

/-- Lets time pass until something has come about, but no longer than so long. -/
def waitUntil (l : Launcher) (reached : Launcher → Bool) (limit : Nat) : Launcher × Bool :=
  if reached l then (l, true)
  else
    let instant := l.world.clock + limit
    let l := clockwork.run reached (some instant) l
    if reached l then (l, true) else (moveTo instant l, false)

/-- What the task of a workflow has come to, if it has come to an end. -/
def outcome? (l : Launcher) (w : Workflow) : Option (Except LaunchError Report) :=
  match l.tasks[w.task]? with
  | some (.workflow _ .over e) =>
    match e.phase with
    | .over (.ok report) => some (.ok report)
    | .over (.error error) => some (.error (.execution error))
    | .crashed reason => some (.error (.aborted w.id s!"task panicked with message \"{reason}\""))
    | _ => none
  | _ => none

/-- Notes that somebody has asked for the report of a workflow. -/
def claim (l : Launcher) (id : String) : Launcher :=
  { l with
    workflows := l.workflows.map fun w => if w.id == id then { w with awaited := true } else w }

/-- Waits for the end of a workflow and takes its report, unless that takes longer than so long. -/
def wait (l : Launcher) (id : String) (limit : Nat) :
    Launcher × Option (Except LaunchError Report) :=
  match l.find? id with
  | none => (l, some (.error (.unknownWorkflow id)))
  | some w =>
    if w.awaited then (l, some (.error (.alreadyAwaited id)))
    else
      let (l, _) := (l.claim id).waitUntil (fun l => (l.outcome? w).isSome) limit
      (l, l.outcome? w)

/-- Waits until the state of a workflow is done, but no longer than so long, and tells whether it
is; there is no answer for an unknown workflow. -/
def waitDone (l : Launcher) (id : String) (limit : Nat) : Launcher × Option Bool :=
  match l.find? id with
  | none => (l, none)
  | some w =>
    let (l, reached) := l.waitUntil (fun l => l.stateOf w == .done) limit
    (l, some reached)

end Launcher
end PipelineRunner
