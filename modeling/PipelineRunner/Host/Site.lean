import PipelineRunner.Host.Machine
import PipelineRunner.Host.Streaming
import PipelineRunner.Plugin.Basic

/-!
Starting programs on a host, either to read their output as it comes or to wait for their end.
-/

namespace PipelineRunner.Host

/-- From where programs are started. -/
structure Site where
  /-- What the programs do that the host brings with it. Nothing is assumed of it. -/
  load : String → Call → Routine
  environment : List (String × String)
  /-- The directory that relative paths start from. -/
  directory : String

/-- What somebody has seen of a program who waits for its end. -/
structure Collected where
  status : Option ExitStatus := none
  /-- The outputs that are still open. -/
  streams : List OutputStream := [.stdout, .stderr]
  /-- The pieces of the outputs, the last first. -/
  out : List (List UInt8) := []
  err : List (List UInt8) := []

namespace Collected

/-- What the program has left behind, if it has ended and closed its outputs. -/
def finished? (c : Collected) : Option Finished :=
  if c.streams.isEmpty then
    c.status.map fun status => ⟨status, c.out.reverse.flatten, c.err.reverse.flatten⟩
  else none

def add (c : Collected) (stream : OutputStream) (bytes : List UInt8) : Collected :=
  match stream with
  | .stdout => { c with out := bytes :: c.out }
  | .stderr => { c with err := bytes :: c.err }

end Collected

namespace Process

/-- Runs a program to its end, behind what has been seen of it. -/
def finishAfter : Process → Collected → Work Finished
  | .over, c => .done (c.finished?.getD ⟨.signal Signal.kill, [], []⟩)
  | exited status rest, c =>
    let c := { c with status := some status }
    match c.finished? with
    | some f => .done f
    | none => (rest ()).finishAfter c
  | closed stream rest, c =>
    let c := { c with streams := c.streams.filter (· != stream) }
    match c.finished? with
    | some f => .done f
    | none => (rest ()).finishAfter c
  | write stream bytes rest, c => (rest true).finishAfter (c.add stream bytes)
  | sleep ms rest, c => .sleep ms fun u => (rest u).finishAfter c
  | readFiles rest, c => .readFiles fun files => (rest files).finishAfter c
  | writeFiles files rest, c => .writeFiles files ((rest ()).finishAfter c)

def finish (p : Process) : Work Finished := p.finishAfter {}

end Process

namespace Site

/-- The node of the directory that relative paths start from. -/
def node (site : Site) (t : FileTree) : Nat :=
  (t.findDirectory FileTree.root site.directory).toOption.getD FileTree.root

/-- Where programs are looked for if nothing is said about it. -/
def usualPath : String := "/bin:/usr/bin"

/-- What is run for some arguments: the first of some paths at which there is a program. A path that
is refused only counts if there is nothing better. -/
def firstImage (site : Site) (t : FileTree) (directory : Nat) (call : Call)
    (reason : FileError) : List String → Except FileError Routine
  | [] => .error reason
  | path :: rest =>
    match Machine.image site.load t directory path call with
    | .ok routine => .ok routine
    | .error .permissionDenied => firstImage site t directory call .permissionDenied rest
    | .error .notFound | .error .notDirectory => firstImage site t directory call reason rest
    | .error e => .error e

/-- The paths at which a program of a name is looked for. -/
def paths (site : Site) (name : String) : List String :=
  if name.isEmpty then []
  else if name.toList.contains '/' then [name]
  else
    let path := (List.lookup "PATH" site.environment).getD usualPath
    (Text.splitAt ':' path.toList).map fun d =>
      if d.isEmpty then name else String.ofList d ++ "/" ++ name

def start (site : Site) (directory : String) (argv : List String) (t : FileTree) :
    Except StartError Process :=
  if (directory :: argv).any fun s => s.toList.contains (Char.ofNat 0) then .error .nulCharacter
  else
    let argv := argv.map Text.Bytes.ofText
    let name := argv.headD ""
    let started : Except FileError Process := do
      let d ← t.findDirectory (site.node t) (Text.Bytes.ofText directory)
      if FileTree.longestName < name.length && !name.toList.contains '/' then throw .nameTooLong
      let routine ← site.firstImage t d ⟨argv, site.environment⟩ .notFound (site.paths name)
      pure (Machine.start site.load t d routine).run
    started.mapError .file

def spawn (site : Site) (directory : String) (argv : List String) (label : String) :
    Work (Except Cause Output) :=
  .readFiles fun t =>
    match site.start directory argv t with
    | .ok p => .done (.ok (Streaming.output label p))
    | .error e => .done (.error ((Cause.because e.message).within s!"Failed to spawn {label}"))

def await (site : Site) (argv : List String) : Work (Except StartError Finished) :=
  .readFiles fun t =>
    match site.start "." argv t with
    | .ok p => p.finish.bind fun f => .done (.ok f)
    | .error e => .done (.error e)

/-- Runs a program to its end, and tells what has come of it. -/
def run (site : Site) (argv : List String) : Work (Except StartError Finished) :=
  (site.await argv).bind fun outcome => .remark (.ran argv outcome) (.done outcome)

/-- What plugins find on this host. -/
def services (site : Site) (containers : ContainerRuntime) (workspace : String) : Services where
  containers := containers
  workspace := workspace
  directory := site.directory
  spawn := site.spawn

end Site
end PipelineRunner.Host
