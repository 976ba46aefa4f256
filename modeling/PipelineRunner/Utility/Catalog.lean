import PipelineRunner.Shell.Extended.Session
import PipelineRunner.Shell.Interpreter
import PipelineRunner.Utility.Columns
import PipelineRunner.Utility.Copying
import PipelineRunner.Utility.Arranging
import PipelineRunner.Utility.Batching
import PipelineRunner.Utility.Blocks
import PipelineRunner.Utility.Dumping
import PipelineRunner.Utility.Encoding
import PipelineRunner.Utility.Evaluating
import PipelineRunner.Utility.Files
import PipelineRunner.Utility.Find.Search
import PipelineRunner.Utility.Identity
import PipelineRunner.Utility.Dating
import PipelineRunner.Utility.Pairing
import PipelineRunner.Utility.Printing
import PipelineRunner.Utility.Running
import PipelineRunner.Utility.Searching
import PipelineRunner.Utility.StreamEditor.Run
import PipelineRunner.Utility.Testing
import PipelineRunner.Utility.Viewing

/-!
The programs that a host brings with it, by their names: shells and the utilities that scripts call.
A site takes what its programs do as a parameter, `Host.Site.load`. These are one value of it, the
one that `main` gives; whatever is said of a site holds for any other.
-/

namespace PipelineRunner.Utility

open Host Text

/-- A program of a host. -/
structure Program where
  name : String
  run : Call → Routine

namespace Program

/-- Utilities that exit with a code if their output cannot be written. -/
def withFailure (code : Nat) (l : List (String × (List String → Job Unit))) : List Program :=
  l.map fun (name, x) => ⟨name, Job.routine code x⟩

/-- Utilities that print, or find out about the host. -/
def printing : List Program :=
  withFailure 1 [
    ("[", test), ("arch", arch), ("basename", basename), ("date", date), ("dirname", dirname),
    ("echo", echo), ("false", fun _ => Job.exit 1), ("find", find), ("groups", groups),
    ("hostname", hostname), ("id", identity), ("nproc", nproc), ("printenv", printenv),
    ("printf", printf), ("pwd", pwd), ("seq", seq), ("sleep", sleep),
    ("stat", stat), ("test", test), ("true", fun _ => Job.exit 0), ("uname", uname),
    ("which", which), ("whoami", whoami), ("yes", yes)]

def changing : List Program :=
  withFailure 1 [
    ("chmod", chmod), ("chown", chown), ("cp", cp), ("dd", dd),
    ("install", install), ("link", link), ("ln", ln), ("mkdir", mkdir),
    ("mkfifo", mkfifo), ("mktemp", mktemp), ("mv", mv), ("readlink", readlink),
    ("realpath", realpath), ("rm", rm), ("rmdir", rmdir), ("tee", tee),
    ("touch", touch), ("truncate", truncate), ("unlink", unlink)]

def reading : List Program :=
  withFailure 1 [
    ("base64", base64), ("cat", cat), ("cksum", cksum), ("comm", comm),
    ("cut", cut), ("expand", expand), ("fold", fold), ("head", portions false),
    ("join", join), ("md5sum", digests "MD5" Digest.md5), ("nl", nl), ("od", od),
    ("paste", paste), ("rev", rev), ("sha1sum", digests "SHA1" Digest.sha1),
    ("sha256sum", digests "SHA256" Digest.sha256), ("tac", tac), ("tail", portions true),
    ("tr", tr), ("uniq", uniq), ("wc", wc)]

/-- Utilities of which a failure has a higher code, because they answer with the lower one. -/
def answering : List Program :=
  withFailure 2 [
    ("cmp", cmp), ("egrep", egrep), ("expr", expr), ("fgrep", fgrep), ("grep", grep),
    ("ls", ls), ("sort", sort), ("tty", tty)] ++
  withFailure 4 [("sed", sed)]

def running : List Program :=
  withFailure 125 [
    ("env", env), ("nice", nice), ("nohup", nohup), ("setsid", setsid),
    ("timeout", timeout), ("xargs", xargs)]

def shells : List Program :=
  [⟨"bash", Shell.Extended.shell⟩, ⟨"dash", Shell.shell⟩, ⟨"sh", Shell.shell⟩]

def all : List Program := printing ++ changing ++ reading ++ answering ++ running ++ shells

def names : List String := all.map Program.name

def load (name : String) (c : Call) : Routine :=
  match all.find? fun p => p.name = name with
  | some p => p.run c
  | none => default

end Program
end PipelineRunner.Utility
