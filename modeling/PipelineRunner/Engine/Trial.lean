import PipelineRunner.Container.Runtime
import PipelineRunner.Retry
import PipelineRunner.World

/-!
Steps that are tried, turn by turn. The method of a step is called until a call succeeds, fails in a
way that no further call can mend, or has failed often enough; each call has a limit of time, and a
pause precedes each further call.
-/

namespace PipelineRunner

/-! ### Turns

Whatever takes part in a run moves in turns. A turn takes no time; what has to wait for a timer or
for somebody else gives its turn up. -/

/-- How steps are tried and containers are run. -/
structure Engine where
  policy : RetryPolicy
  runtime : ContainerRuntime

/-- What a part of a run finds around it. -/
structure Context where
  engine : Engine
  place : Place
  /-- Whether this branch is to begin nothing new. -/
  cancelled : Bool := false
  /-- Whether a cancelled branch does not even wait for the call in flight. -/
  interrupt : Bool := false

/-- What becomes of something whose turn it is. -/
inductive Turn (σ α : Type) where
  /-- It has to wait. -/
  | blocked
  | moved (w : World) (s : σ)
  | ended (w : World) (value : α)
  /-- It breaks down; the containers that it was responsible for are named. -/
  | crashed (w : World) (reason : String) (held : List String)

/-! ### Attempts -/

/-- What a step yields: it may be without output. -/
abbrev StepResult := Except StepError (Option String)

namespace Trial

/-- How far a step has come. -/
inductive Phase where
  /-- So many attempts have been made, and the next one may begin. -/
  | ready (made : Nat)
  | calling (attempt : Nat) (deadline : Timer) (call : Waiting (Except Cause (Option String)))
  | pausing (made : Nat) (timer : Timer)

end Trial

/-- A step under way. -/
structure Trial where
  command : String
  params : StepParams
  binding : Binding
  phase : Trial.Phase := .ready 0

namespace Trial

def retry (t : Trial) (c : Context) (attempt : Nat) (e : StepError) (w : World) :
    Turn Trial StepResult :=
  if !e.isRetryable || c.engine.policy.maxAttempts ≤ attempt then .ended w (.error e)
  else
    let (w, timer) := w.setTimer (c.engine.policy.backoff attempt).millisecondsUp
    .moved w { t with phase := .pausing attempt timer }

/-- Goes on with a call that has been performed as far as it goes. A call that waits for the first
time gets its deadline. -/
def follow (t : Trial) (c : Context) (attempt : Nat) (deadline : Option Timer) :
    World × Progress (Except Cause (Option String)) → Turn Trial StepResult
  | (w, .finished answer) =>
    let w := w.note c.place (.answered answer)
    match answer with
    | .ok output => .ended w (.ok output)
    | .error cause =>
      let e := RegistryError.invocation t.binding.plugin t.binding.method cause
      t.retry c attempt (.failed t.command attempt e.message) w
  | (w, .waits call) =>
    let (w, deadline) := match deadline with
      | some timer => (w, timer)
      | none => w.setTimer c.engine.policy.attemptTimeout.millisecondsUp
    .moved w { t with phase := .calling attempt deadline call }
  | (w, .crashed reason) => .crashed w reason []

def begin (t : Trial) (c : Context) (attempt : Nat) (w : World) : Turn Trial StepResult :=
  let b := t.binding
  match w.registry.reach b.plugin b.method with
  | .error e => t.retry c attempt (.rejected t.command e.message) w
  | .ok registration =>
    let plugin := registration.plugin
    let w := w.note c.place (.called b.plugin b.method t.params plugin.builtin)
    t.follow c attempt none (World.perform c.place (plugin.invoke b.method t.params) w)

/-- A turn of a step. A call that answers just when its time is up has answered. Where a
cancellation that interrupts the step comes in the same instant as the answer or as the end of the
time, the program leaves it open which of them wins; here the answer wins over the cancellation, and
the cancellation over the end of the time. -/
def move (t : Trial) (c : Context) (w : World) : Turn Trial StepResult :=
  match t.phase with
  | .ready made => if c.cancelled then .ended w (.error .cancelled) else t.begin c (made + 1) w
  | .calling attempt deadline call =>
    if w.isDue call.timer then
      t.follow c attempt (some deadline) (World.perform c.place call.rest w)
    else if c.interrupt && c.cancelled then
      .ended (w.note c.place .abandoned) (.error .cancelled)
    else if w.isDue deadline then
      t.retry c attempt (.timedOut t.command attempt c.engine.policy.attemptTimeout)
        (w.note c.place .abandoned)
    else .blocked
  | .pausing made timer =>
    if c.cancelled then .ended w (.error .cancelled)
    else if w.isDue timer then .moved w { t with phase := .ready made }
    else .blocked

/-- Whether a step that waits need not wait any longer. -/
def isAwake (t : Trial) (c : Context) (w : World) : Bool :=
  match t.phase with
  | .ready _ => false
  | .calling _ deadline call =>
    w.isDue call.timer || (c.interrupt && c.cancelled) || w.isDue deadline
  | .pausing _ timer => c.cancelled || w.isDue timer

def timers (t : Trial) : List Timer :=
  match t.phase with
  | .ready _ => []
  | .calling _ deadline call => [call.timer, deadline]
  | .pausing _ timer => [timer]

end Trial
end PipelineRunner
