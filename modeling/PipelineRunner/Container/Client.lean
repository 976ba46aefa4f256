import PipelineRunner.Host.Site

/-!
A container runtime that calls the client program of a container engine: each operation is one or
two calls of it.
-/

namespace PipelineRunner

open Host

/-- The client program of a container engine, and from where it is called. -/
structure ContainerClient where
  site : Site
  binary : String

namespace ContainerClient

/-- The text of some bytes, without blanks at its ends. -/
def trimmed (bytes : List UInt8) : String :=
  Text.trim (String.ofList (Text.Utf8.decodeLossy bytes))

/-- The number of an exit status in messages. -/
def statusText : ExitStatus → String
  | .code n => toString n
  | .signal _ => "-1"

/-- Calls the client and yields what it prints, without blanks at the ends. -/
def call (c : ContainerClient) (arguments : List String) : Work (Except Cause String) := do
  let line := c.binary ++ " " ++ Text.join " " arguments
  match ← c.site.run (c.binary :: arguments) with
  | .error e => pure (.error ((Cause.because e.message).within s!"Failed to execute {line}"))
  | .ok f =>
    if f.status.isSuccess then pure (.ok (trimmed f.stdout))
    else
      let status := statusText f.status
      let reason := s!"{line} failed: exit_code={status}, stderr='{trimmed f.stderr}'"
      pure (.error (.because reason))

/-- Finds out whether the client is there, and which one it is. -/
def check (c : ContainerClient) : Work (Except Cause String) := do
  match ← c.call ["--version"] with
  | .ok version => pure (.ok version)
  | .error cause =>
    pure (.error (cause.within s!"Failed to execute '{c.binary} --version'. Is it installed?"))

def pull (c : ContainerClient) (image : String) : Work (Except Cause Unit) := do
  pure ((← c.call ["pull", "--quiet", image]).map fun _ => ())

/-- Creates a container and starts it; one that does not start is removed again. -/
def start (c : ContainerClient) (image : String) : Work (Except Cause String) := do
  match ← c.call ["create", "-it", "--entrypoint", "sh", image] with
  | .error cause => pure (.error cause)
  | .ok id =>
    if id.isEmpty then pure (.error (.because s!"{c.binary} create returned no container id"))
    else
      match ← c.call ["start", id] with
      | .ok _ => pure (.ok id)
      | .error cause => do
        let _ ← c.call ["rm", "-f", id]
        pure (.error cause)

def exec (c : ContainerClient) (container : String) (argv : List String) :
    Work (Except Cause Output) :=
  c.site.spawn "." (c.binary :: "exec" :: container :: argv) s!"{c.binary} exec"

/-- Stops a container and removes it in any case. -/
def stop (c : ContainerClient) (container : String) : Work (Except Cause Unit) := do
  let stopped ← c.call ["stop", container]
  let removed ← c.call ["rm", "-f", container]
  match stopped with
  | .ok _ => pure (removed.map fun _ => ())
  | .error cause => pure (.error cause)

def runtime (c : ContainerClient) : ContainerRuntime where
  pull := c.pull
  start := c.start
  exec := c.exec
  stop := c.stop

end ContainerClient
end PipelineRunner
