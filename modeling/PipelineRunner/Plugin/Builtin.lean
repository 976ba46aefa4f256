import PipelineRunner.Plugin.Basic
import PipelineRunner.Plugin.Registry

/-!
The plugins that belong to the runner itself.
-/

namespace PipelineRunner

/-! ### Shell commands

A command runs in the container of its stage, or in the workspace on the host if the stage has
none. -/

namespace ShellPlugin

def runShell (s : Services) (params : StepParams) : Work (Except Cause (Option String)) := do
  match requiredParam params Step.textKey with
  | .error cause => pure (.error cause)
  | .ok text =>
    let argv := ["sh", "-c", text]
    let workflow := params.get? workflowKey
    let result ← match params.get? containerKey with
      | some container => do
        Work.noteExec container argv
        match ← s.containers.exec container argv with
        | .ok output => output.forward workflow
        | .error cause => pure (.error cause)
      | none => do
        match ← s.prepareWorkspace with
        | .ok () => s.run s.workspace argv "sh" workflow
        | .error cause => pure (.error cause)
    pure (result.map some)

/-- Logs a text and yields it, without its control characters. -/
def echo (params : StepParams) : Work (Except Cause (Option String)) := do
  match requiredParam params Step.textKey with
  | .error cause => pure (.error cause)
  | .ok text =>
    let plain := Text.stripControl text
    Work.logInfo (params.get? workflowKey) plain
    pure (.ok (some plain))

/-- The plugin; it can do nothing before it has been started and given its services. -/
def plugin (services : Option Services) : Plugin where
  builtin := true
  methods := [("echo", "echo"), ("sh", "sh")]
  invoke method params :=
    let started (body : Services → Work (Except Cause (Option String))) :=
      match services with
      | some s => body s
      | none => .done (.error (.because "shell plugin has not been started"))
    if method = "sh" then started fun s => runShell s params
    else if method = "echo" then started fun _ => echo params
    else .done (.error (.because s!"shell plugin has no method '{method}'"))

end ShellPlugin

/-! ### Checkouts

Each repository gets a directory of its own in the workspace; one that is there already is brought
up to date. -/

namespace Checkout

def dropTrailing (c : Char) (cs : List Char) : List Char :=
  (cs.reverse.dropWhile (· == c)).reverse

/-- The characters behind the last slash or colon. -/
def lastSegment (cs : List Char) : List Char :=
  (cs.reverse.takeWhile fun c => c != '/' && c != ':').reverse

/-- The ending of repository names that is not part of the directory's name. -/
def ending : List Char := ".git".toList

/-- The text without the ending, if it has it. -/
def dropEnding (cs : List Char) : List Char :=
  if ending.isSuffixOf cs then cs.take (cs.length - ending.length) else cs

/-- The directory that a repository is checked out into: the last segment of its address. -/
def directoryName? (url : String) : Option String :=
  let name := dropEnding (lastSegment (dropTrailing '/' url.toList))
  if name = [] || name = ['.'] || name = ['.', '.'] then none else some (String.ofList name)

/-- What is wrong with an address that yields no directory. -/
def noDirectory (url : String) : Cause :=
  .because s!"cannot derive a checkout directory from url '{url}'"

def git (s : Services) (directory : String) (command : String) (arguments : List String)
    (workflow : Option String) : Work (Except Cause String) :=
  s.run directory ("git" :: command :: arguments) s!"git {command}" workflow

/-- Brings a directory that is there up to date, or makes it. -/
def fetch (s : Services) (target : String) (url branch : String) (workflow : Option String) :
    Work (Except Cause String) :=
  .readFiles fun files =>
    if files.contains (s.node files) (Text.Bytes.ofText (Host.Path.join target ".git")) then do
      match ← git s target "checkout" [branch] workflow with
      | .ok _ => git s target "pull" ["origin", branch] workflow
      | .error cause => pure (.error cause)
    else git s s.workspace "clone" ["--branch", branch, url, target] workflow

def checkout (s : Services) (params : StepParams) : Work (Except Cause (Option String)) := do
  match requiredParam params "url", requiredParam params "branch" with
  | .error cause, _ => pure (.error cause)
  | .ok _, .error cause => pure (.error cause)
  | .ok url, .ok branch =>
    match directoryName? url with
    | none => pure (.error (noDirectory url))
    | some name =>
      match ← s.prepareWorkspace with
      | .error cause => pure (.error cause)
      | .ok () =>
        let workflow := params.get? workflowKey
        Work.logInfo workflow s!"Checking out {url} ({branch})"
        match ← fetch s (Host.Path.join s.workspace name) url branch workflow with
        | .error cause => pure (.error cause)
        | .ok _ => pure (.ok (some s!"Cloned repo {url} and branch {branch}"))

/-- The plugin; it can do nothing before it has been started and given its services. -/
def plugin (services : Option Services) : Plugin where
  builtin := true
  methods := [("git", "checkout")]
  invoke method params :=
    if method = "checkout" then
      match services with
      | some s => checkout s params
      | none => .done (.error (.because "scm plugin has not been started"))
    else .done (.error (.because s!"scm plugin has no method '{method}'"))

end Checkout

/-- Registers the plugins of the runner itself, up to the first that is refused. -/
def Registry.registerBuiltins (r : Registry) (services : Services) :
    Registry × Except RegistryError Unit :=
  match r.register "shell" (ShellPlugin.plugin (some services)) with
  | (r, .ok ()) => r.register "scm" (Checkout.plugin (some services))
  | (r, .error e) => (r, .error e)

end PipelineRunner
