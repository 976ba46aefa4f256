import PipelineRunner.Log.Buffer
import PipelineRunner.Plugin.Registry
import PipelineRunner.Workflow.State

/-!
The world that runs of pipelines share: the clock, the plugins, the files, the logs, and the
history of what has happened. A piece of work is performed up to the point where it has to wait.
-/

namespace PipelineRunner

/-- Where something happens: the workflow, and the way to a stage by the positions of the stages
that are passed from the pipeline down. -/
structure Place where
  workflow : String := ""
  path : List Nat := []
  deriving DecidableEq, Repr, Inhabited

def Place.branch (p : Place) (i : Nat) : Place := { p with path := p.path ++ [i] }

/-- What happens in the world. -/
inductive Event where
  /-- A workflow moves to a state. -/
  | entered (state : WorkflowState)
  | logged (workflow : String) (level : LogLevel) (message : String)
  /-- A method of a plugin is called. -/
  | called (plugin method : String) (params : StepParams) (builtin : Bool)
  /-- The call in flight at this place has answered. -/
  | answered (answer : Except Cause (Option String))
  /-- Nobody waits any more for the call in flight at this place. -/
  | abandoned
  /-- A plugin is stopped. -/
  | retired (plugin : String) (builtin : Bool)
  | pull (image : String)
  | pulled (image : String)
  | start (image : String)
  | started (image container : String)
  /-- A piece of work tells this of its doings. -/
  | remarked (what : Remark)
  | stop (container : String)
  /-- A stop has come to its end, well or not. -/
  | stopped (container : String)
  /-- A join has received one of its branches. -/
  | received (branch : Nat) (failed : Bool)

/-- A command is run in a container. -/
@[match_pattern]
abbrev Event.exec (container : String) (argv : List String) : Event :=
  .remarked (.exec container argv)

/-- An event with its time, in milliseconds, and its place. -/
structure Record where
  time : Nat
  place : Place
  event : Event

/-- When something that waits goes on. Of those that are due together, the one that was set first
comes first. -/
structure Timer where
  due : Nat
  ticket : Nat
  deriving DecidableEq, Repr, Inhabited

/-- The order in which timers fire. -/
def Timer.before (s t : Timer) : Bool :=
  s.due < t.due || (s.due == t.due && s.ticket ≤ t.ticket)

/-- What runs of pipelines share. -/
structure World where
  /-- Milliseconds since the beginning. -/
  clock : Nat := 0
  /-- The number of timers set so far. -/
  tickets : Nat := 0
  registry : Registry := {}
  counters : OrderedMap Nat := []
  files : Host.FileTree := .bare []
  logs : LogBuffer := []
  /-- What has happened; the latest stands first. -/
  history : List Record := []

/-- The milliseconds of thirty years. Nothing waits longer at one go. -/
def longestWait : Nat := 30 * 365 * 24 * 60 * 60 * 1000

/-- A piece of work that waits. -/
structure Waiting (α : Type) where
  timer : Timer
  next : Unit → Work α

/-- How far a piece of work has come. -/
inductive Progress (α : Type) where
  | finished (value : α)
  | waits (for? : Waiting α)
  | crashed (reason : String)

/-- What is left of a piece of work that has waited. -/
def Waiting.rest {α : Type} (wait : Waiting α) : Work α := wait.next ()

namespace World

def note (w : World) (place : Place) (event : Event) : World :=
  { w with history := ⟨w.clock, place, event⟩ :: w.history }

/-- Adds a line to the log of a workflow. -/
def log (w : World) (place : Place) (workflow : String) (level : LogLevel) (message : String) :
    World :=
  { w with logs := w.logs.add workflow ⟨.ofMilliseconds w.clock, level, message⟩ }.note place
    (.logged workflow level message)

/-- Sets a timer that is due so many milliseconds from now, but no later than `longestWait`. -/
def setTimer (w : World) (milliseconds : Nat) : World × Timer :=
  ({ w with tickets := w.tickets + 1 }, ⟨w.clock + min milliseconds longestWait, w.tickets⟩)

/-- Raises a counter, and tells its value. -/
def countUp (w : World) (counter : String) : World × Nat :=
  let n := (OrderedMap.get? counter w.counters).getD 0 + 1
  ({ w with counters := OrderedMap.insert counter n w.counters }, n)

/-- Performs a piece of work until it has to wait. -/
def perform {α : Type} (place : Place) : Work α → World → World × Progress α
  | .done a, w => (w, .finished a)
  | .sleep 0 rest, w => perform place (rest ()) w
  | .sleep (ms + 1) rest, w =>
    let (w, timer) := w.setTimer (ms + 1)
    (w, .waits ⟨timer, rest⟩)
  | .log workflow level message rest, w => perform place rest (w.log place workflow level message)
  | .remark what rest, w => perform place rest (w.note place (.remarked what))
  | .count counter rest, w =>
    let (w, n) := w.countUp counter
    perform place (rest n) w
  | .readFiles rest, w => perform place (rest { w.files with now := w.clock }) w
  | .writeFiles files rest, w => perform place rest { w with files := files }
  | .crash reason, w => (w, .crashed reason)

def isDue (w : World) (timer : Timer) : Bool := timer.due ≤ w.clock

/-- Something that holds a world, in which time can pass. -/
structure Holder (σ : Type) where
  world : σ → World
  setWorld : World → σ → σ
  /-- Lets so many milliseconds pass. -/
  pass : Nat → σ → σ

/-- Performs a piece of work to its end while its holder does nothing but wait for it. Without a
value it has crashed. -/
def completeWithin {σ α : Type} (h : Holder σ) (place : Place) : Work α → σ → σ × Except String α
  | .done a, s => (s, .ok a)
  | .sleep ms rest, s => completeWithin h place (rest ()) (h.pass (min ms longestWait) s)
  | .log workflow level message rest, s =>
    completeWithin h place rest (h.setWorld ((h.world s).log place workflow level message) s)
  | .remark what rest, s =>
    completeWithin h place rest (h.setWorld ((h.world s).note place (.remarked what)) s)
  | .count counter rest, s =>
    let (w, n) := (h.world s).countUp counter
    completeWithin h place (rest n) (h.setWorld w s)
  | .readFiles rest, s =>
    completeWithin h place (rest { (h.world s).files with now := (h.world s).clock }) s
  | .writeFiles files rest, s =>
    completeWithin h place rest (h.setWorld { h.world s with files := files } s)
  | .crash reason, s => (s, .error reason)

/-- A world by itself, in which time passes without anything else going on. -/
def alone : Holder World where
  world w := w
  setWorld w _ := w
  pass ms w := { w with clock := w.clock + ms }

/-- Performs a piece of work to its end while nothing else goes on: the clock runs through all its
waiting. -/
def complete {α : Type} (place : Place) (work : Work α) (w : World) : World × Except String α :=
  completeWithin alone place work w

/-- Notes the plugins that a change of the registry has stopped. -/
def noteRetired (w : World) : List PluginEvent → World
  | [] => w
  | .stopped _ name builtin :: rest => (w.noteRetired rest).note {} (.retired name builtin)
  | .started .. :: rest | .failed .. :: rest => w.noteRetired rest

def changeRegistry {β : Type} (w : World) (change : Registry → Registry × β) : World × β :=
  let (r, b) := change w.registry
  let news := r.diary.take (r.diary.length - w.registry.diary.length)
  ({ w with registry := r }.noteRetired news, b)

/-- Calls a method of a plugin by itself. Without an answer the call has crashed. -/
def invoke (w : World) (plugin method : String) (params : StepParams) :
    World × Except String (Except RegistryError (Option String)) :=
  match w.registry.reach plugin method with
  | .error e => (w, .ok (.error e))
  | .ok registration =>
    let w := w.note {} (.called plugin method params registration.plugin.builtin)
    match complete {} (registration.plugin.invoke method params) w with
    | (w, .ok (.ok output)) => (w, .ok (.ok output))
    | (w, .ok (.error cause)) => (w, .ok (.error (.invocation plugin method cause)))
    | (w, .error reason) => (w, .error reason)

end World
end PipelineRunner
