import PipelineRunner.Shell.Builtin.Basic
import PipelineRunner.Shell.Condition
import PipelineRunner.Shell.Format

/-!
The commands of the shell that print texts, or tell by their status whether something holds.
-/

namespace PipelineRunner.Shell.Builtin

open Host Shell.Action

/-- Prints its arguments, in which escapes stand for bytes. -/
def echo (args : List String) : Action Nat :=
  let (args, ending) : List String × String := match args with
    | "-n" :: args => (args, "")
    | args => (args, "\n")
  let (text, stop) := Format.unescaped .shell (Text.join " " args)
  say (if stop then text else text ++ ending) 0

def printf (args : List String) : Action Nat := do
  match ← operands args with
  | [] => fail "usage: printf format [arg ...]"
  | format :: args =>
    let printed := Format.printf format args
    each warn printed.complaints
    say printed.text printed.status

/-- Tells by its status whether a condition holds. -/
def test (name : String) (args : List String) : Action Nat := do
  match Condition.holds name (← look) args with
  | .ok holds => pure (if holds then 0 else 1)
  | .error f => fail f.message

end PipelineRunner.Shell.Builtin
