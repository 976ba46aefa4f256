import PipelineRunner.Shell.Builtin.Signals
import PipelineRunner.Shell.Extended.Builtin.Basic
import PipelineRunner.Shell.Extended.Leading

/-!
The commands of shells of the extended language for what it has started beside it, and for signals.
-/

namespace PipelineRunner.Shell.Extended.Builtin

open Host Text Shell.Action

/-- The names of what can be trapped beside signals. -/
def eventNames : List (String × Nat) :=
  [("EXIT", 0), ("DEBUG", State.eachCommand), ("ERR", State.failing), ("RETURN", State.returning)]

/-- The signal of a number or of a name, which may have more in front. -/
def signalOf? (withEvents : Bool) (text : String) : Option Nat :=
  let upper := text.toUpper
  let short := if upper.startsWith "SIG" then Bytes.drop 3 upper else upper
  match if withEvents then List.lookup upper eventNames else none with
  | some n => some n
  | none =>
    match digits? text.toList with
    | some n => if n < Signal.count then some n else none
    | none => if short = "STKFLT" then some 16 else Signal.ofName? short

def signalName (n : Nat) : String :=
  match eventNames.find? fun e => e.2 == n with
  | some (name, _) => name
  | none => if n = 16 then "SIGSTKFLT" else "SIG" ++ Signal.name n

def signalTable : String :=
  let numbers := (List.range Signal.count).filter fun n => n != 0 && n != 32 && n != 33
  let cell (i n : Nat) : String :=
    let number := toString n
    Bytes.fill ' ' (2 - number.length) ++ number ++ ") " ++ signalName n ++
      (if i % 5 = 4 then "\n" else "\t")
  String.join (((List.range numbers.length).zip numbers).map fun (i, n) => cell i n) ++ "\n"

/-- The command that would set a trap again. -/
def trapLine (n : Nat) (action : String) : String :=
  "trap -- " ++ Quoting.inSingle action ++ " " ++ signalName n ++ "\n"

/-- Sets what is done when a signal comes, or when something else happens. -/
def setTrap (signal : Nat) (action : Option String) : Action Unit :=
  if signal < State.eachCommand then Shell.Builtin.setTrap signal action
  else modify fun s =>
    let others := s.traps.filter fun t => t.1 != signal
    { s with traps := others ++ (action.map (signal, ·)).toList }

/-- Sets what is done when signals come, or shows it. -/
def trap (args : List String) : Action Nat := do
  let (options, rest) ← options "lp" args
  let invalid (text : String) : Action Unit := warn (text ++ ": invalid signal specification")
  let setAll (action : Option String) (signals : List String) : Action Nat :=
    forEach (fun (text : String) => do
      match signalOf? true text with
      | some n =>
        setTrap n action
        pure true
      | none =>
        invalid text
        pure false) 0 signals
  let s ← get
  let traps := s.traps.mergeSort fun a b => a.1 ≤ b.1
  if hasLetter options 'l' then say signalTable 0
  else if hasLetter options 'p' && !rest.isEmpty then
    let meant := rest.filterMap fun t => signalOf? true t
    each invalid (rest.filter fun t => (signalOf? true t).isNone)
    let lines := meant.filterMap fun n => (List.lookup n traps).map (trapLine n)
    say (String.join lines) (if meant.length = rest.length then 0 else 1)
  else
    match rest with
    | [] => say (String.join (traps.map fun (n, action) => trapLine n action)) 0
    | [signal] =>
      if (signalOf? true signal).isSome then setAll none rest else misuse
    | action :: signals =>
      let isNumber := (digits? action.toList).any (· < Signal.count)
      if isNumber then setAll none (action :: signals)
      else setAll (if action = "-" then none else some action) signals

def jobOf? (s : State) (text : String) : Option Job :=
  let jobs := s.jobs.reverse
  if ["%", "%%", "%+"].contains text then jobs.head?
  else if text = "%-" then jobs[1]?
  else if text.startsWith "%" then
    (digits? (Bytes.drop 1 text).toList).bind fun n => jobs.find? fun j => j.number == n
  else (digits? text.toList).bind fun n =>
    jobs.find? fun j => j.programs.any fun p => p.1 == n

/-- Sends a program a signal; tells whether that has been possible. -/
def sendTo (signal : Nat) (target : String) : Action Bool := do
  let s ← get
  let number : Option Int ←
    if target.startsWith "%" then
      match jobOf? s target with
      | some j => pure (some (j.last : Int))
      | none =>
        warn (target ++ ": no such job")
        pure none
    else
      match Numeral.int? target with
      | some n => pure (some n)
      | none =>
        warn (target ++ ": arguments must be process or job IDs")
        pure none
  match number with
  | none => pure false
  | some n =>
    match ← ask (.kill n signal) with
    | .ok () => pure true
    | .error e =>
      let reason := e.reason
      warn s!"({n}) - {reason}"
      pure false

def listSignals (args : List String) : Action Nat :=
  if args.isEmpty then say signalTable 0
  else
    forEach (fun (text : String) => do
      match digits? text.toList, signalOf? false text with
      | some n, _ =>
        let n := if 128 < n then n - 128 else n
        if n < Signal.count then
          let _ ← say (if n = 0 then "EXIT\n" else Bytes.drop 3 (signalName n) ++ "\n") 0
          pure true
        else
          warn (text ++ ": invalid signal specification")
          pure false
      | none, some n =>
        let _ ← say (toString n ++ "\n") 0
        pure true
      | none, none =>
        warn (text ++ ": invalid signal specification")
        pure false) 0 args

def kill (args : List String) : Action Nat := do
  let toAll (signal : Nat) (targets : List String) : Action Nat :=
    if targets.isEmpty then misuse
    else do
      let rec go (went : Bool) : List String → Action Bool
        | [] => pure went
        | t :: rest => do
          let here ← sendTo signal t
          go (went || here) rest
      pure (if ← go false targets then 0 else 1)
  let named (name : String) (targets : List String) : Action Nat :=
    match signalOf? false name with
    | some n => toAll n (if targets.head? = some "--" then targets.drop 1 else targets)
    | none => failWith (name ++ ": invalid signal specification") 1
  match args with
  | [] => misuse
  | "-l" :: rest | "-L" :: rest => listSignals rest
  | ["-s"] | ["-n"] => failWith (args.headD "" ++ ": option requires an argument") 1
  | "-s" :: name :: rest | "-n" :: name :: rest => named name rest
  | "--" :: rest => toAll Signal.terminate rest
  | a :: rest =>
    if a.startsWith "-" && a.length != 1 then
      let text := Bytes.drop 1 a
      named (if (text.startsWith "s" || text.startsWith "n") && text.length != 1 &&
        (signalOf? false text).isNone then Bytes.drop 1 text else text) rest
    else toAll Signal.terminate args

/-- Waits until a job has ended that is meant, and yields one; a signal may come before. -/
def waitForAny (isMeant : Job → Bool) : Nat → Action (Except Nat (Option Job))
  | 0 => pure (.ok none)
  | fuel + 1 => do
    let s ← get
    let meant := s.jobs.filter isMeant
    match meant.find? fun j => !j.isRunning with
    | some j =>
      forgetEnded
      pure (.ok (some j))
    | none =>
      if meant.isEmpty then pure (.ok none)
      else
        let seen : Waited ← ask (.wait none true)
        match seen with
        | .ended program status =>
          modify fun s => s.noteEnd program status
          waitForAny isMeant fuel
        | .interrupted => do pure (.error (← Shell.Builtin.interruption))
        | _ => pure (.ok none)

def waitForEach : Nat → Action Nat
  | 0 => pure 0
  | fuel + 1 => do
    if (← get).jobs.any Job.isRunning then
      match ← waitForAny (·.isRunning) Act.patience with
      | .ok _ => waitForEach fuel
      | .error status => pure status
    else
      forgetEnded
      pure 0

def wait (args : List String) : Action Nat := do
  let (options, rest) ← options "fnp:" args
  let note (program : Nat) : Action Unit := do
    if let some name := valueOf? options 'p' then
      let _ ← giveTo name (toString program)
  let rec go (status : Nat) : List String → Action Nat
    | [] => pure status
    | a :: rest => do
      let s ← get
      let number := digits? a.toList
      match jobOf? s a, number.bind fun n => List.lookup n s.past with
      | some j, _ =>
        match ← waitForAny (fun k => k.number == j.number) Act.patience with
        | .ok k =>
          note j.last
          let past := (← get).past
          let own := number.bind fun n => List.lookup n past
          go (own.getD (((k.map Job.status).getD (.code 127)).number)) rest
        | .error status => pure status
      | none, some status =>
        note (number.getD 0)
        go status rest
      | none, none =>
        if a.startsWith "%" then
          warn (a ++ ": no such job")
          go 127 rest
        else if number.isSome then
          warn ("pid " ++ a ++ " is not a child of this shell")
          go 127 rest
        else
          warn ("\x60" ++ a ++ "': not a pid or valid job spec")
          go 1 rest
  if hasLetter options 'n' then
    let s ← get
    let numbers := rest.filterMap fun a => (jobOf? s a).map Job.number
    match ← waitForAny (fun j => rest.isEmpty || numbers.contains j.number) Act.patience with
    | .ok (some j) =>
      note j.last
      pure j.status.number
    | .ok none => pure 127
    | .error status => pure status
  else if rest.isEmpty then waitForEach Act.patience
  else go 127 rest

def jobLine (s : State) (withNumbers : Bool) (sign : String) (j : Job) : String :=
  let home := (s.value? "HOME").getD ""
  let directory := (j.directory.getD "")
  let place := if home != "" && (directory = home || directory.startsWith (home ++ "/")) then
      "~" ++ Bytes.drop home.utf8ByteSize directory
    else directory
  let ends := (if j.isRunning then " &" else "") ++
    (if j.directory = s.directory then "" else "  (wd: " ++ place ++ ")")
  let front := s!"[{j.number}]" ++ sign ++ " "
  if withNumbers then front ++ Job.lines j ends
  else
    let state := if j.isRunning then none else some j.status
    front ++ " " ++ besideTexts (stateWord state) ++ join " | " j.texts ++ ends ++ "\n"

/-- Shows jobs. Those that have ended are forgotten then. -/
def jobs (args : List String) : Action Nat := do
  let (options, names) ← options "lnprs" args
  noteEnds Act.patience
  let s ← get
  let all := s.jobs
  let numbers := all.reverse.map Job.number
  let shown (j : Job) : String :=
    let sign := if numbers.head? == some j.number then "+"
      else if numbers[1]? == some j.number then "-" else " "
    if hasLetter options 'p' then toString ((j.programs.head?.map (·.1)).getD 0) ++ "\n"
    else jobLine s (hasLetter options 'l') sign j
  let rec meant : List String → Action (List Job)
    | [] => pure []
    | name :: rest => do
      match jobOf? s name with
      | some j => do pure (j :: (← meant rest))
      | none =>
        warn (name ++ ": no such job")
        meant rest
  let js ← if names.isEmpty then pure all else meant names
  let js := js.filter fun j =>
    (!(hasLetter options 'r') || j.isRunning) && !(hasLetter options 's')
  let isKept (j : Job) : Bool := j.isRunning || !(js.map Job.number).contains j.number
  let forgotten := s.jobs.filter fun j => !isKept j
  let statuses := forgotten.flatMap fun j =>
    j.programs.filterMap fun (n, s) => s.map fun s => (n, s.number)
  modify fun s => { s with jobs := s.jobs.filter isKept, past := statuses ++ s.past }
  say (String.join (js.map shown)) (if js.length < names.length then 1 else 0)

def disown (args : List String) : Action Nat := do
  let (options, names) ← options "ahr" args
  let s ← get
  if hasLetter options 'a' || hasLetter options 'r' then
    modify fun s => { s with jobs := [] }
    pure 0
  else
    forEach (fun (name : String) => do
      match jobOf? s name with
      | some j =>
        modify fun s => { s with jobs := s.jobs.filter fun k => k.number != j.number }
        pure true
      | none =>
        warn ((if names.isEmpty then "current" else name) ++ ": no such job")
        pure false) 0 (if names.isEmpty then ["%"] else names)

/-- What the shell and its children have taken of time, as if it were nothing. -/
def times : Action Nat := say "0m0.000s 0m0.000s\n0m0.000s 0m0.000s\n" 0

end PipelineRunner.Shell.Extended.Builtin
