import PipelineRunner.Shell.State

/-!
What a shell does: a function of what it knows, which asks the host and goes on with what it knows
then. An action can break off; what is done in that case is a second way on.

How commands are run: what is cleaned up behind them, what is left out behind one that leaves a
loop, and what changes where a part of a script goes on by itself.
-/

namespace PipelineRunner.Shell

open Host

/-- Why an action breaks off. -/
inductive Break where
  /-- Something is wrong with a command, which has been said. -/
  | error
  /-- A command of the shell does not carry out what it is asked for, which has been said. -/
  | refusal
  /-- The shell is to end. -/
  | exit
  deriving DecidableEq, Repr

/-- Something that a shell does and that yields a value. -/
def Action (α : Type) : Type :=
  State → (Break → State → Routine) → (α → State → Routine) → Routine

namespace Action

variable {α β : Type}

instance : Monad Action where
  pure a := fun s _ next => next a s
  bind x f := fun s broken next => x s broken fun a s => f a s broken next

instance : MonadStateOf State Action where
  get := fun s _ next => next s s
  set s := fun _ _ next => next () s
  modifyGet f := fun s _ next => next (f s).1 (f s).2

/-- Does something that knows nothing of the shell. -/
def act (x : Act α) : Action α := fun s _ next => x fun a => next a s

def ask (r : Request) : Action r.Answer := act (Act.ask r)

def throw (b : Break) : Action α := fun s broken _ => broken b s

def orElse (x : Action α) (other : Break → Action α) : Action α := fun s broken next =>
  x s (fun b s => other b s broken next) next

/-- Starts a copy of this program that does something else, and yields its number. -/
def fork (child : Action Empty) : Action Nat := fun s _ next =>
  .fork (child s (fun _ s => .exit (.code s.status)) fun e _ => nomatch e) fun n => next n s

/-- What the shell does for its effect alone, as a routine. -/
def routine (x : Action Empty) (s : State) : Routine :=
  x s (fun _ s => .exit (.code s.status)) fun e _ => nomatch e

def stop (status : ExitStatus) : Action α := fun _ _ _ => .exit status

def look : Action Surroundings := ask .look

def setStatus (status : Nat) : Action Unit := modify fun s => { s with status }

def print (descriptor : Nat) (text : String) : Action Unit := act (Act.print descriptor text)

def warn (text : String) : Action Unit := do
  print 2 ((← get).title ++ ": " ++ text ++ "\n")

/-- The status behind something that breaks off. -/
def failure (d : Dialect) : Nat :=
  match d with
  | .plain => 2
  | .extended => 1

def fail (text : String) : Action α := do
  warn text
  setStatus (failure (← get).dialect)
  throw .error

/-- Writes what a command of the shell prints, and yields its status. -/
def say (text : String) (status : Nat) : Action Nat := do
  match ← act (Act.write 1 text) with
  | .ok () => pure status
  | .error e =>
    let s ← get
    let name := s.running.getD ""
    let reason := e.reason
    warn (match s.dialect with
      | .plain => s!"{name}: I/O error"
      | .extended => s!"write error: {reason}")
    pure (status ||| 1)

/-- Gives a variable a value, if it may have another one. -/
def assign (name value : String) : Action Unit := do
  let s ← get
  if s.isConstant name then fail (s.constantText name)
  modify fun s => s.setValue name value

/-- Signals that have come and that the shell is to do something about. -/
def pending : Action (List Nat) := ask (.caught false)

/-- Notes the end of something that the shell has started. Of an end by a signal something is said
if the shell waits for it; that it was interrupted, or that its output was not read, goes without
saying. -/
def noteEnd (expected : List Nat) (program : Nat) (status : ExitStatus) : Action Unit := do
  modify fun s => s.noteEnd program status
  match status with
  | .signal n =>
    if expected.contains program && n != Signal.interrupt && n != Signal.brokenPipe then
      print 2 (Signal.report n ++ "\n")
  | .code _ => pure ()

/-- Waits until all of some programs have ended; the endings so far come first. -/
def waitWithin (programs : List Nat) : Nat → List (Nat × ExitStatus) → Action ExitStatus
  | 0, _ => stop (.signal Signal.kill)
  | fuel + 1, ended => do
    if programs.all fun p => ended.any fun e => e.1 == p then
      pure ((List.lookup (programs.getLast?.getD 0) ended).getD (.code 0))
    else
      match ← ask (.wait none true) with
      | .ended program status =>
        noteEnd programs program status
        waitWithin programs fuel ((program, status) :: ended)
      | .noChildren => pure ((List.lookup (programs.getLast?.getD 0) ended).getD (.code 0))
      | _ => waitWithin programs fuel ended

/-- Waits until all of some programs have ended, and yields the ending of the last one. -/
def waitFor (programs : List Nat) : Action ExitStatus := waitWithin programs Act.patience []

def each (f : α → Action Unit) : List α → Action Unit
  | [] => pure ()
  | a :: rest => do
    f a
    each f rest

end Action

/-- How a command is run. -/
structure Mode where
  /-- Whether the shell ends with it. -/
  exits : Bool := false
  /-- Whether somebody looks at its status, so that the shell goes on if it fails. -/
  tested : Bool := false

namespace Action

/-- Does something, and cleans up behind it in any case. -/
def andFinally {α : Type} (x : Action α) (cleanup : Action Unit) : Action α := do
  let a ← orElse x fun b => do
    cleanup
    throw b
  cleanup
  pure a

/-- Puts the variables and options back that a command has changed for itself. -/
def closeScope : Action Unit := modify fun s =>
  match s.scopes with
  | [] => s
  | scope :: scopes =>
    let s := scope.bindings.foldl (fun s (name, v) => s.putVariable name v) s
    let found := if scope.bindings.any fun v => v.1 == "PATH" then [] else s.found
    { s with scopes, found, options := scope.options.getD s.options }

def closeScopes (depth : Nat) : Nat → Action Unit
  | 0 => pure ()
  | fuel + 1 => do
    if depth < (← get).scopes.length then
      closeScope
      closeScopes depth fuel

/-- Goes on as the shell that runs a part of a script by itself. -/
def becomeInner : Action Unit := do
  let signals := (← get).trapped
  each (fun n => if n = 0 then pure () else ask (.handle n .default)) signals
  modify State.inner

/-- Goes on without heed of interruptions, and perhaps without input. -/
def becomeBackground (withoutInput : Bool) : Action Unit := do
  each (fun n => ask (.handle n .ignored)) [Signal.interrupt, Signal.quit]
  modify fun s => { s with deaf := Signal.interrupt :: Signal.quit :: s.deaf }
  if withoutInput then
    act (Act.close 0)
    let _ ← act (Act.openFile "/dev/null" .read)

/-- Runs a program instead of the shell, at the first of some paths that it can be run at; a script
is run by a shell at a path. The environment may depend on where the program is. -/
def runAtFirst (shell : String) (argv : List String)
    (environment : String → List (String × String)) (reason : FileError) :
    List String → Action FileError
  | [] => pure reason
  | path :: rest => do
    let e : FileError ← ask (.exec path argv (environment path))
    let script := shell :: path :: argv.drop 1
    let e : FileError ← if e = .execFormat then ask (.exec shell script (environment path))
      else pure e
    let reason := if e = .notFound || e = .notDirectory then reason else e
    runAtFirst shell argv environment reason rest

def pathsFor (isUsual : Bool) (name : String) : Action (List String) := do
  let s ← get
  pure (if isUsual then State.pathsIn usualPath name else s.searchPaths name)

/-- What is still skipped behind a round of a loop, if anything. -/
def skipped : Action Skip := do
  let skip := (← get).skip
  match skip with
  | .leaveLoops n =>
    modify fun s => { s with skip := if n ≤ 1 then .nothing else .leaveLoops (n - 1) }
    pure skip
  | .repeatLoop n =>
    modify fun s => { s with skip := if n ≤ 1 then .nothing else .repeatLoop (n - 1) }
    pure (if n ≤ 1 then .repeatLoop 1 else .leaveLoops n)
  | skip => pure skip

def leaveLoop : Action Unit := modify fun s => { s with loops := s.loops - 1 }

/-- The text of a descriptor's output without the line ends behind it. -/
def withoutLineEnds (text : String) : String :=
  let cs := text.toList.filter (· != Char.ofNat 0)
  String.ofList (cs.reverse.dropWhile (· == '\n')).reverse

end Action
end PipelineRunner.Shell
