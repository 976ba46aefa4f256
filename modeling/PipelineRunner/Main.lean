import PipelineRunner.CommandLine.Program
import PipelineRunner.Utility.Catalog

/-!
The program on a console. The script and the settings come from the machine that it is called on;
the steps run on a host that exists as a value only and holds nothing but that script.
-/

namespace PipelineRunner.Console

open Host CommandLine

/-- Where the script stands on the host that steps run on. -/
def directory : String := "/work"

def settingNames : List String :=
  ["LATHE_STEP_TIMEOUT", "LATHE_MAX_ATTEMPTS", "LATHE_RETRY_INTERVAL_MS", "LATHE_CONTAINER_BINARY",
    "LATHE_WORKSPACE", "LATHE_MAX_PARALLEL_WORKFLOWS"]

def environment : IO Environment := do
  let values ← settingNames.mapM fun name => do return (name, ← IO.getEnv name)
  return values.filterMap fun v => v.2.map (v.1, ·)

/-- The file that an action is about. -/
def fileOf : Action → Option String
  | .parse file _ => some file
  | .validate file => some file
  | .run file _ _ => some file
  | .plugins => none

/-- A host with the usual programs and the directory of the script. -/
def emptyHost : FileTree :=
  let t := FileTree.bare Utility.Program.names
  (t.makeDirectories FileTree.root directory).toOption.getD t

/-- A host with a file, of which the name and the bytes are known. -/
def hostWith (name : String) (bytes : List UInt8) : FileTree :=
  let path := Path.join directory (Text.Bytes.ofText name)
  emptyHost.putFile FileTree.root path (Text.Bytes.ofBytes bytes) 0o644

/-- The bytes of a file, if it can be read. -/
def read? (name : String) : IO (Option (List UInt8)) :=
  try return some (← IO.FS.readBinFile name).toList catch _ => return none

def host (env : Environment) (arguments : List String) : IO FileTree := do
  match Request.ofArguments env arguments with
  | .error _ => return emptyHost
  | .ok request =>
    match fileOf request.action with
    | none => return emptyHost
    | some name =>
      match ← read? name with
      | none => return emptyHost
      | some bytes => return hostWith name bytes

/-- So many hexadecimal digits of a number, the lowest last. -/
def hexDigits : Nat → Nat → List Char
  | 0, _ => []
  | digits + 1, n => hexDigits digits (n / 16) ++ [Json.hexDigit (n % 16)]

/-- An identifier from five numbers, in the form of a random UUID. -/
def identifier (a b c d e : Nat) : String :=
  Text.join "-" <| [
    hexDigits 8 a, hexDigits 4 b, '4' :: hexDigits 3 c,
    Json.hexDigit (8 + d / 4096 % 4) :: hexDigits 3 d, hexDigits 12 e].map String.ofList

def newIdentifier : IO String := do
  let random (digits : Nat) : IO Nat := IO.rand 0 (Nat.pow 16 digits - 1)
  return identifier (← random 8) (← random 4) (← random 3) (← random 4) (← random 12)

end PipelineRunner.Console

open PipelineRunner in
/-- Carries out a call of the program. The times in the log count from its start. -/
def main (arguments : List String) : IO UInt32 := do
  let env ← Console.environment
  let call : CommandLine.Invocation := {
    arguments
    environment := env
    site := ⟨Utility.Program.load, env, Console.directory⟩
    workflowId := ← Console.newIdentifier
    timeText := Timestamp.clockText }
  let (_, outcome) := call.execute { files := ← Console.host env arguments }
  IO.print outcome.stdout
  IO.eprint outcome.stderr
  return UInt32.ofNat outcome.code
