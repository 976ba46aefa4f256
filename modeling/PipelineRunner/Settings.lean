import PipelineRunner.Retry
import PipelineRunner.Text.Basic

/-!
Settings of the runner. Each may be given in an environment variable; one that is not given, or
whose value cannot be read, keeps its standard value.
-/

namespace PipelineRunner

/-- The settings of the runner. -/
structure Settings where
  stepTimeout : Span := .ofSeconds 300
  maxAttempts : Nat := 3
  retryInitialInterval : Span := .ofMilliseconds 1000
  retryBackoffCoefficient : Float := 2
  retryMaxInterval : Span := .ofSeconds 30
  containerBinary : String := "docker"
  workspace : String := "./workspace"
  maxParallelWorkflows : Nat := 2

/-- What settings may not be. -/
inductive SettingsError where
  | noStepTimeout
  | noAttempts
  | shrinkingBackoff
  | noContainerBinary
  | noParallelWorkflows
  deriving DecidableEq, Repr

def SettingsError.message : SettingsError → String
  | noStepTimeout => "step_timeout must be greater than 0"
  | noAttempts => "max_attempts must be greater than 0"
  | shrinkingBackoff => "retry_backoff_coefficient must be at least 1.0"
  | noContainerBinary => "container_binary cannot be empty"
  | noParallelWorkflows => "max_parallel_workflows must be greater than 0"

/-- Environment variables. -/
abbrev Environment := List (String × String)

/-- The value of a variable; of a repeated one the first counts. -/
def Environment.get? (env : Environment) (name : String) : Option String :=
  List.lookup name env

namespace Settings

/-- A whole number below a bound from a variable. -/
def readNat (env : Environment) (name : String) (bound : Nat) : Option Nat :=
  (env.get? name).bind (Text.natBelow? bound)

def ofEnvironment (env : Environment) : Settings :=
  let standard : Settings := {}
  { stepTimeout := ((readNat env "LATHE_STEP_TIMEOUT" (Nat.pow 2 64)).map Span.ofSeconds).getD
      standard.stepTimeout
    maxAttempts := (readNat env "LATHE_MAX_ATTEMPTS" (Nat.pow 2 32)).getD standard.maxAttempts
    retryInitialInterval := ((readNat env "LATHE_RETRY_INTERVAL_MS" (Nat.pow 2 64)).map
      Span.ofMilliseconds).getD standard.retryInitialInterval
    containerBinary := (env.get? "LATHE_CONTAINER_BINARY").getD standard.containerBinary
    workspace := (env.get? "LATHE_WORKSPACE").getD standard.workspace
    maxParallelWorkflows := (readNat env "LATHE_MAX_PARALLEL_WORKFLOWS" (Nat.pow 2 64)).getD
      standard.maxParallelWorkflows }

def retryPolicy (s : Settings) : RetryPolicy where
  maxAttempts := s.maxAttempts
  attemptTimeout := s.stepTimeout
  initialInterval := s.retryInitialInterval
  backoffCoefficient := s.retryBackoffCoefficient
  maxInterval := s.retryMaxInterval

/-- The first thing that is wrong with the settings. -/
def error? (s : Settings) : Option SettingsError :=
  if s.stepTimeout.nanoseconds = 0 then some .noStepTimeout
  else if s.maxAttempts = 0 then some .noAttempts
  else if s.retryBackoffCoefficient < 1 then some .shrinkingBackoff
  else if Text.isBlankText s.containerBinary then some .noContainerBinary
  else if s.maxParallelWorkflows = 0 then some .noParallelWorkflows
  else none

end Settings
end PipelineRunner
