import PipelineRunner.Shell.Builtin.Basic

/-!
The limits that a shell keeps for what it uses. They can be lowered, and raised again up to a limit
of their own, which can only be lowered.
-/

namespace PipelineRunner.Shell
namespace Builtin

open Host Text Shell.Action

/-- A limit that a shell knows. -/
structure LimitKind where
  letter : Char
  title : String
  limit : Limit

namespace LimitKind

def all : List LimitKind :=
  let free : Limit := ⟨none, none⟩
  [⟨'t', "time(seconds)", free⟩, ⟨'f', "file(blocks)", free⟩, ⟨'d', "data(kbytes)", free⟩,
    ⟨'s', "stack(kbytes)", ⟨some 8192, none⟩⟩, ⟨'c', "coredump(blocks)", free⟩,
    ⟨'m', "memory(kbytes)", free⟩,
    ⟨'l', "locked memory(kbytes)", ⟨some 8192, some 8192⟩⟩, ⟨'p', "process", free⟩,
    ⟨'n', "nofiles", ⟨some 1048576, some 1048576⟩⟩, ⟨'v', "vmemory(kbytes)", free⟩,
    ⟨'w', "locks", free⟩, ⟨'r', "rtprio", ⟨some 0, some 0⟩⟩]

end LimitKind

/-- Whether an amount is at most a limit. -/
def isWithin : Option Nat → Option Nat → Bool
  | _, none => true
  | none, some _ => false
  | some n, some most => n ≤ most

/-- A limit after one of its amounts, or both, have been changed. -/
def Limit.change (l : Limit) (changesNow changesMost : Bool) (amount : Option Nat) :
    Except FileError Limit :=
  let changed : Limit :=
    { now := if changesNow then amount else l.now
      most := if changesMost then amount else l.most }
  if !isWithin changed.now changed.most then .error .invalidArgument
  else if !isWithin changed.most l.most then .error .notPermitted
  else .ok changed

def limitAmount? (text : String) : Option (Option Nat) :=
  if text = "unlimited" then some none
  else if text.toList.all Char.isDigit then
    some (some (text.toList.foldl (fun n c => n * 10 + (c.toNat - '0'.toNat)) 0))
  else none

def ulimit (args : List String) : Action Nat := do
  let (options, rest) ← options "HSatfdscmlpnvwr" args
  let has (letter : Char) : Bool := options.any fun o => o.1 == letter
  let letters := (options.map (·.1)).filter fun c => !(['H', 'S', 'a'].contains c)
  let letter := letters.getLast?.getD 'f'
  let s ← get
  let limitOf (k : LimitKind) : Limit := (List.lookup k.letter s.limits).getD k.limit
  let isNow := has 'S' || !has 'H'
  let amount (k : LimitKind) : String :=
    let l := limitOf k
    match if isNow then l.now else l.most with
    | some n => toString n
    | none => "unlimited"
  if has 'a' && !rest.isEmpty then fail "too many arguments"
  if has 'a' then
    say (String.join (LimitKind.all.map fun k =>
      k.title ++ Bytes.fill ' ' (20 - k.title.length) ++ " " ++ amount k ++ "\n")) 0
  else
    match LimitKind.all.find? (·.letter == letter), rest with
    | none, _ => pure 0
    | some k, [] => say (amount k ++ "\n") 0
    | some k, [text] =>
      match limitAmount? text with
      | none => fail "bad number"
      | some amount =>
        match Limit.change (limitOf k) isNow (has 'H' || !has 'S') amount with
        | .error e => fail s!"error setting limit ({e.reason})"
        | .ok l =>
          modify fun s => { s with limits := (letter, l) :: s.limits }
          pure 0
    | some _, _ => fail "too many arguments"

end Builtin
/-! ### Commands

The commands of the shell for what it has started beside it, and for signals. -/

open Host Text

namespace Job

def stateText (j : Job) : String :=
  if j.isRunning then "Running"
  else
    match j.status with
    | .code 0 => "Done"
    | .code n => s!"Done({n})"
    | .signal n => Signal.report n

/-- A text with blanks behind it up to a column, one at least. -/
def padded (column : Nat) (s : String) : String :=
  s ++ Bytes.fill ' ' (Nat.max 1 (column - s.length))

/-- The lines about a job; the sign tells the latest one and the one in front of it. The numbers of
its programs may be shown too. -/
def lines (j : Job) (sign : Char) (withNumbers : Bool) : String :=
  let head := s!"[{j.number}] " ++ String.singleton sign ++ " "
  let others := j.programs.drop 1
  if withNumbers then
    let number := ((j.programs.head?).map fun p => toString p.1 ++ " ").getD ""
    let more := others.map fun p =>
      " |\n" ++ padded 33 (Bytes.fill ' ' head.length ++ toString p.1 ++ " ")
    padded 33 (head ++ number ++ j.stateText) ++ String.join more ++ "\n"
  else padded 33 (head ++ j.stateText) ++ String.join (others.map fun _ => " | ") ++ "\n"

end Job

/-- The number of a signal or its name; `EXIT` only counts where signals are caught. -/
def signalOf? (withExit : Bool) (text : String) : Option Nat :=
  match digits? text.toList with
  | some n => if n < Signal.count then some n else none
  | none =>
    if withExit && text.toUpper = "EXIT" then some 0 else Signal.ofName? text

namespace Builtin

open Shell.Action

/-- The name of a signal, or of the end of the shell. -/
def trapName (n : Nat) : String := if n = 0 then "EXIT" else Signal.name n

def setTrap (signal : Nat) (action : Option String) : Action Unit := do
  let s ← get
  let isSet := s.traps.any fun t => t.1 == signal
  let isDeaf ← if signal = 0 || isSet then pure (s.deaf.contains signal)
    else do
      let disposition : Disposition ← ask (.disposition signal)
      pure (s.deaf.contains signal || disposition == .ignored)
  if isDeaf then modify fun s => { s with deaf := signal :: s.deaf }
  else if signal != 0 then
    let disposition : Disposition := match action with
      | none => .default
      | some "" => .ignored
      | some _ => .caught
    ask (.handle signal disposition)
  let others := s.traps.filter fun t => t.1 != signal
  modify fun s => { s with traps := others ++ (action.map (signal, ·)).toList }

def setTraps (action : Option String) : List String → Action Nat
  | [] => pure 0
  | text :: rest => do
    match signalOf? true text with
    | none =>
      print 2 s!"trap: {text}: bad trap\n"
      pure 1
    | some signal =>
      setTrap signal action
      setTraps action rest

/-- Sets what is done when signals come, or shows it. -/
def trap (args : List String) : Action Nat := do
  match ← operands args with
  | [] =>
    let traps := (← get).traps.mergeSort fun a b => a.1 ≤ b.1
    say (String.join (traps.map fun (n, action) =>
      "trap -- " ++ inQuotes action ++ " " ++ trapName n ++ "\n")) 0
  | [signal] => setTraps none [signal]
  | action :: signals =>
    let isSignal := (digits? action.toList).any (· < Signal.count)
    if isSignal then setTraps none (action :: signals)
    else setTraps (if action = "-" then none else some action) signals

/-- The job that a text with a percent sign means. -/
def jobOf (text : Option String) : Action Job := do
  let jobs := (← get).jobs.reverse
  let named := text.getD ""
  let body := Bytes.drop 1 named
  let or (job : Option Job) (complaint : String) : Action Job :=
    match job with
    | some j => pure j
    | none => fail complaint
  if text.isNone || ["%", "%%", "%+"].contains named then or jobs.head? "No current job"
  else if named = "%-" then or jobs[1]? "No previous job"
  else
    let number := if named.startsWith "%" then digits? body.toList else none
    or (jobs.find? fun j => some j.number == number) s!"No such job: {named}"

def sendTo (signal : Nat) (target : String) : Action Nat := do
  let number ←
    if target.startsWith "%" then
      let j ← jobOf (some target)
      pure (-(((j.programs.head?).map (·.1)).getD 0 : Int))
    else if target.startsWith "-" then do pure (-((← number (Bytes.drop 1 target) : Nat) : Int))
    else do pure ((← number target : Nat) : Int)
  match ← ask (.kill number signal) with
  | .ok () => pure 0
  | .error e =>
    let reason := e.reason
    warn s!"{reason}\n"
    pure 1

def killUsage : String :=
  "Usage: kill [-s sigspec | -signum | -sigspec] [pid | job]... or\nkill -l [exitstatus]"

/-- Shows the names of the signals, or the one that has led to a status. -/
def listSignals (args : List String) : Action Nat := do
  match args with
  | [] =>
    let names := (List.range (Signal.count - 1)).map fun n => Signal.name (n + 1)
    say (String.join (("0" :: names).map (· ++ "\n"))) 0
  | status :: _ =>
    let n ← number status
    let n := if 128 < n then n - 128 else n
    if 0 < n && n < Signal.count then say (Signal.name n ++ "\n") 0
    else fail s!"invalid signal number or exit status: {status}"

def kill (args : List String) : Action Nat := do
  let toAll (signal : Nat) (targets : List String) : Action Nat :=
    if targets.isEmpty then fail killUsage else worst (sendTo signal) 0 targets
  match args with
  | [] => fail killUsage
  | a :: rest =>
    if !a.startsWith "-" then toAll Signal.terminate args
    else
      match signalOf? false (Bytes.drop 1 a) with
      | some n => toAll n rest
      | none =>
        let (options, rest) ← options "ls:" args
        if options.any fun o => o.1 == 'l' then
          if options.any fun o => o.1 == 's' then fail killUsage else listSignals rest
        else
          match options.getLast? with
          | none => toAll Signal.terminate rest
          | some (_, name) =>
            match signalOf? false name with
            | some n => toAll n rest
            | none => fail s!"invalid signal number or name: {name}"

/-- Notes the ends of programs that have not been asked for yet. -/
def notice : Nat → Action Unit
  | 0 => pure ()
  | fuel + 1 => do
    match ← ask (.wait none false) with
    | .ended program status =>
      noteEnd [] program status
      notice fuel
    | _ => pure ()

/-- The status behind a wait that a signal has ended. -/
def interruption : Action Nat := do pure (128 + ((← pending).getLast?.getD 0))

def waitForAll : Nat → Action Nat
  | 0 => pure 0
  | fuel + 1 => do
    if (← get).jobs.any Job.isRunning then
      match ← ask (.wait none true) with
      | .ended program status =>
        noteEnd [] program status
        waitForAll fuel
      | .interrupted => interruption
      | _ => pure 0
    else
      modify fun s => { s with jobs := s.jobs.map fun j => { j with isWaited := true } }
      pure 0

/-- Waits for the end of one job; nothing is yielded if a signal has come before. -/
def waitForJob (number : Nat) : Nat → Action (Option Nat)
  | 0 => pure none
  | fuel + 1 => do
    match (← get).jobs.find? fun j => j.number == number with
    | none => pure (some 127)
    | some j =>
      if j.isRunning then
        match ← ask (.wait none true) with
        | .ended program status =>
          noteEnd (j.programs.map (·.1)) program status
          waitForJob number fuel
        | .interrupted => pure none
        | _ => pure (some 127)
      else
        modify fun s => { s with
          jobs := s.jobs.map fun j =>
            if j.number == number then { j with isWaited := true } else j }
        pure (some j.status.number)

def wait (args : List String) : Action Nat := do
  let rec go (status : Nat) : List String → Action Nat
    | [] => pure status
    | a :: rest => do
      let job ←
        if a.startsWith "%" then do pure (some (← jobOf (some a)))
        else
          let n ← number a
          pure ((← get).jobs.reverse.find? fun j => j.last == n)
      match job with
      | none => go status rest
      | some j =>
        match ← waitForJob j.number Act.patience with
        | some status => go status rest
        | none => interruption
  match ← operands args with
  | [] => waitForAll Act.patience
  | args => go 127 args

/-- Shows jobs. Those that have ended are forgotten then. -/
def jobs (args : List String) : Action Nat := do
  let (options, names) ← options "lp" args
  let withNumbers := options.any fun o => o.1 == 'l'
  let onlyNumbers := options.any fun o => o.1 == 'p'
  if names.isEmpty then notice Act.patience
  let all := (← get).jobs.reverse
  let numbers := all.map Job.number
  let shown (j : Job) : String :=
    let sign := if numbers.head? == some j.number then '+'
      else if numbers[1]? == some j.number then '-' else ' '
    if onlyNumbers then toString ((j.programs.head?.map (·.1)).getD 0) ++ "\n"
    else j.lines sign withNumbers
  let rec meant : List String → Action (List Job)
    | [] => pure []
    | name :: rest => do pure ((← jobOf (some name)) :: (← meant rest))
  let js ← if names.isEmpty then pure all else meant names
  let isKept (j : Job) : Bool := j.isRunning || !(js.map Job.number).contains j.number
  if !onlyNumbers then modify fun s => { s with jobs := s.jobs.filter isKept }
  say (String.join (js.map shown)) 0

/-- Goes on with a job, which is never under control here. -/
def resume (args : List String) : Action Nat := do
  let args ← operands args
  let _ ← jobOf args.head?
  let name := args.headD "(null)"
  fail s!"job {name} not created under job control"

/-- What the shell and its children have taken of time, as if it were nothing. -/
def times : Action Nat := say "0m0.000000s 0m0.000000s\n0m0.000000s 0m0.000000s\n" 0

end Builtin
end PipelineRunner.Shell
