import PipelineRunner.Script.Token
import PipelineRunner.Text.Basic
import PipelineRunner.Time.Basic

/-!
Why something went wrong in a run, as causes; each kind of cause has one wording.
-/

namespace PipelineRunner

/-- An error of a plugin or of the container runtime, with the circumstances it came up in: the
outermost stands first, the reason itself last. -/
structure Cause where
  chain : List String
  deriving DecidableEq, Repr, Inhabited

namespace Cause

/-- An error without further circumstances. -/
def because (reason : String) : Cause := ⟨[reason]⟩

/-- The error in one more circumstance. -/
def within (circumstance : String) (c : Cause) : Cause := ⟨circumstance :: c.chain⟩

def message (c : Cause) : String := Text.join ": " c.chain

end Cause

/-- Why the registry refuses or fails to do something. -/
inductive RegistryError where
  | alreadyRegistered (plugin : String)
  | startFailed (plugin : String) (cause : Cause)
  | commandConflict (command plugin existing : String)
  | unknownPlugin (plugin : String)
  | unknownMethod (plugin method : String)
  | invocation (plugin method : String) (cause : Cause)
  | stopFailed (plugin : String) (cause : Cause)
  deriving DecidableEq, Repr

namespace RegistryError

def message : RegistryError → String
  | alreadyRegistered plugin => s!"plugin '{plugin}' is already registered"
  | startFailed plugin cause => s!"plugin '{plugin}' failed to start: {cause.message}"
  | commandConflict command plugin existing =>
    s!"command '{command}' of plugin '{plugin}' is already provided by '{existing}'"
  | unknownPlugin plugin => s!"plugin '{plugin}' is not registered"
  | unknownMethod plugin method => s!"plugin '{plugin}' has no method '{method}'"
  | invocation _ _ cause => cause.message
  | stopFailed plugin cause => s!"plugin '{plugin}' failed to stop: {cause.message}"

/-- Whether the same call may succeed another time: only if the plugin itself has failed. -/
def isRetryable : RegistryError → Bool
  | invocation .. => true
  | _ => false

end RegistryError

/-- Why a step has no output. -/
inductive StepError where
  /-- No plugin provides the command. -/
  | unresolved (command : String)
  | timedOut (command : String) (attempts : Nat) (timeout : Span)
  | failed (command : String) (attempts : Nat) (message : String)
  /-- The registry refuses the call; it would do so again. -/
  | rejected (command message : String)
  /-- The container of the stage did not come up. -/
  | container (image message : String)
  /-- Another branch has failed before this one was through. -/
  | cancelled
  deriving DecidableEq, Repr

namespace StepError

def message : StepError → String
  | unresolved command => s!"no plugin registered for command '{command}'"
  | timedOut command attempts timeout =>
    s!"step '{command}' timed out after {attempts} attempt(s) of {timeout.text}"
  | failed _ _ message => message
  | rejected _ message => message
  | container image message => s!"failed to start container for image '{image}': {message}"
  | cancelled => "step cancelled"

/-- Whether another attempt is worth while. -/
def isRetryable : StepError → Bool
  | timedOut .. => true
  | failed .. => true
  | _ => false

/-- The number of attempts that an error tells of. -/
def attempts? : StepError → Option Nat
  | timedOut _ n _ => some n
  | failed _ n _ => some n
  | _ => none

end StepError

/-- Why a pipeline is not run at all. -/
inductive ExecutionError where
  | missingProperty (name : String)
  deriving DecidableEq, Repr

def ExecutionError.message : ExecutionError → String
  | missingProperty name => s!"missing required property '{name}'"

/-- What goes wrong between a launcher and the one who uses it. -/
inductive LaunchError where
  | script (error : Script.SyntaxError)
  | execution (error : ExecutionError)
  | unknownWorkflow (id : String)
  /-- Somebody has taken the report before. -/
  | alreadyAwaited (id : String)
  | aborted (id reason : String)
  deriving DecidableEq, Repr

def LaunchError.message : LaunchError → String
  | script error => error.message
  | execution error => error.message
  | unknownWorkflow id => s!"unknown workflow '{id}'"
  | alreadyAwaited id => s!"workflow '{id}' has already been awaited"
  | aborted id reason => s!"workflow '{id}' aborted: {reason}"

end PipelineRunner
