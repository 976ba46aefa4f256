import PipelineRunner.Host.Outcome
import PipelineRunner.Log.Buffer

/-!
Work that plugins and container runtimes do for the engine. A piece of work is a tree: at each node
it does one thing to the world outside, and goes on as the answer bids. It may take time, and while
it sleeps other work goes on.
-/

namespace PipelineRunner

/-- What a piece of work tells of its doings besides its lines in the log. -/
inductive Remark where
  /-- A command is run in a container. -/
  | exec (container : String) (argv : List String)
  /-- A program has been run to its end, and this has come of it. -/
  | ran (argv : List String) (outcome : Except Host.StartError Host.Finished)

/-- A piece of work that yields a value. -/
inductive Work (α : Type) : Type where
  | done (value : α)
  /-- Waits for so many milliseconds. What follows is only worked out when it is due. -/
  | sleep (milliseconds : Nat) (rest : Unit → Work α)
  /-- Adds a line to the log of a workflow. -/
  | log (workflow : String) (level : LogLevel) (message : String) (rest : Work α)
  | remark (what : Remark) (rest : Work α)
  /-- Raises a counter by one and goes on with its value. -/
  | count (counter : String) (rest : Nat → Work α)
  /-- Looks at the files of the host. -/
  | readFiles (rest : Host.FileTree → Work α)
  /-- Replaces the files of the host. -/
  | writeFiles (files : Host.FileTree) (rest : Work α)
  /-- Breaks down: nothing is yielded, and whoever waits for it breaks down too. -/
  | crash (reason : String)

namespace Work

variable {α β : Type}

/-- Goes on with the value of a piece of work. -/
def bind : Work α → (α → Work β) → Work β
  | done a, f => f a
  | sleep ms rest, f => .sleep ms fun u => (rest u).bind f
  | log workflow level message rest, f => .log workflow level message (rest.bind f)
  | remark what rest, f => .remark what (rest.bind f)
  | count counter rest, f => .count counter fun n => (rest n).bind f
  | readFiles rest, f => .readFiles fun t => (rest t).bind f
  | writeFiles files rest, f => .writeFiles files (rest.bind f)
  | crash reason, _ => .crash reason

instance : Monad Work where
  pure := .done
  bind := .bind

/-- Does something for its effect alone. -/
def sleepFor (milliseconds : Nat) : Work Unit := .sleep milliseconds .done

def countUp (counter : String) : Work Nat := .count counter .done

def logInfo (workflow : Option String) (message : String) : Work Unit :=
  match workflow with
  | some id => .log id .info message (.done ())
  | none => .done ()

def noteExec (container : String) (argv : List String) : Work Unit :=
  .remark (.exec container argv) (.done ())

/-- Does something to the files that may fail. -/
def onFiles {ε : Type} (change : Host.FileTree → Except ε Host.FileTree) : Work (Except ε Unit) :=
  .readFiles fun t =>
    match change t with
    | .ok t' => .writeFiles t' (.done (.ok ()))
    | .error e => .done (.error e)

@[simp]
theorem bind_done (w : Work α) : w.bind .done = w := by
  induction w <;> simp_all [bind]

theorem bind_assoc {γ : Type} (w : Work α) (f : α → Work β) (g : β → Work γ) :
    (w.bind f).bind g = w.bind fun a => (f a).bind g := by
  induction w <;> simp_all [bind]

end Work
end PipelineRunner
