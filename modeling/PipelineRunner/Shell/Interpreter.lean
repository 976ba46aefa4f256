import PipelineRunner.Shell.Action
import PipelineRunner.Shell.Builtin.Directory
import PipelineRunner.Shell.Builtin.Signals
import PipelineRunner.Shell.Lookup
import PipelineRunner.Shell.Builtin.Printing
import PipelineRunner.Shell.Builtin.Variables
import PipelineRunner.Shell.Expansion
import PipelineRunner.Shell.Parser
import PipelineRunner.Shell.Redirection

/-!
Running commands. Words are expanded and commands are run together, since a word can hold commands;
the fuel of each step is more than any script takes.
-/

namespace PipelineRunner.Shell

open Host Text Shell.Action

/-- The name of a command and its words, as far as they have been expanded. -/
structure Target where
  words : List String
  /-- The words that have not been expanded. -/
  rest : List Word
  /-- The words in front that only tell how the command is found. -/
  before : List String := []
  /-- What has been said of special commands first: whether the command is one. -/
  isSpecial : Option Bool := none
  /-- Whether the usual directories are searched for programs. -/
  isUsual : Bool := false
  withFunctions : Bool := true

namespace Action

def shellPath : String := "/bin/sh"

/-- Runs a program instead of the shell; if that cannot be done, the shell ends. -/
def replace {α : Type} (argv : List String) (paths : List String) : Action α := do
  let name := argv.headD ""
  let paths := if name.toList.contains '/' then [name] else paths
  let s ← get
  let e ← runAtFirst shellPath argv (fun _ => s.environment) .notFound paths
  let isMissing := [FileError.notFound, .notDirectory, .tooManyLinks, .nameTooLong].contains e
  warn s!"{name}: {runReason e}"
  setStatus (if isMissing then 127 else 126)
  throw .exit

/-- Looks for a program in front of a pipeline, so that its place is known behind it as well. -/
def lookAhead (c : Command) : Action Unit := do
  match c with
  | .simple _ _ (w :: _) _ _ =>
    match Word.plain? w with
    | some name => if isName name then let _ ← meaning none true name
    | none => pure ()
  | _ => pure ()

/-- The number behind the name of a command that leaves something. -/
def count (args : List String) (otherwise : Nat) : Action Nat :=
  match args with
  | [] => pure otherwise
  | a :: _ => number a

/-- Leaves some loops, or repeats one, as far as there are any. -/
def skipLoops (args : List String) (skip : Nat → Skip) : Action Nat := do
  let n ← count args 1
  if n = 0 then fail (illegalNumber (args.headD ""))
  let n := Nat.min n (← get).loops
  if n != 0 then modify fun s => { s with skip := skip n }
  pure 0

/-- Tells what a name stands for, if that is asked for. -/
def commandItself (args : List String) : Action Nat := do
  let (options, names) ← options "pvV" args
  let has (c : Char) : Bool := options.any fun o => o.1 == c
  match names with
  | name :: _ =>
    if has 'v' || has 'V' then
      let paths := if has 'p' then some (State.pathsIn usualPath name) else none
      let (text, status) ← Builtin.explain (has 'V') paths name
      say text status
    else pure 0
  | [] => pure 0

/-- The commands of the shell that do not run others, by their names. -/
def plainBuiltins : List (String × (List String → Action Nat)) :=
  [(":", fun _ => pure 0), ("true", fun _ => pure 0), ("false", fun _ => pure 1),
    ("echo", Builtin.echo), ("printf", Builtin.printf), ("test", Builtin.test "test"),
    ("[", Builtin.test "["), ("cd", Builtin.cd), ("chdir", Builtin.cd), ("pwd", Builtin.pwd),
    ("umask", Builtin.umask), ("type", Builtin.type), ("hash", Builtin.hash),
    ("alias", Builtin.alias_), ("unalias", Builtin.unalias), ("set", Builtin.set),
    ("shift", Builtin.shift), ("local", Builtin.makeLocal), ("unset", Builtin.unset),
    ("getopts", Builtin.getopts), ("read", Builtin.read), ("trap", Builtin.trap),
    ("kill", Builtin.kill), ("wait", Builtin.wait), ("jobs", Builtin.jobs),
    ("fg", Builtin.resume), ("bg", Builtin.resume), ("times", fun _ => Builtin.times),
    ("ulimit", Builtin.ulimit), ("command", commandItself),
    ("export",
      Builtin.marking "export" (fun v => { v with exported := true }) fun v => v.exported),
    ("readonly",
      Builtin.marking "readonly" (fun v => { v with constant := true }) fun v => v.constant),
    ("break", fun args => skipLoops args .leaveLoops),
    ("continue", fun args => skipLoops args .repeatLoop),
    ("return", fun args => do
      let n ← count args (← get).status
      modify fun s => { s with skip := .leaveFunction (!args.isEmpty) }
      pure n),
    ("exit", fun args => do
      let s ← get
      setStatus (← count args (s.savedStatus.getD s.status))
      throw .exit)]

/-- The commands whose arguments can be assignments. -/
def assigning : List String := ["alias", "export", "local", "readonly"]

/-- Refuses a script where it has been read up to. -/
def refuseSource (e : SyntaxError) : Action α := do
  modify fun s => { s with line := s.lineAhead }
  fail ("Syntax error: " ++ e.message)

/-- The text between the value of an option and what it traces. -/
def traceText (sign : String) (given : List (String × String)) (words : List String) : String :=
  sign ++ join " " (given.map (fun (n, v) => n ++ "=" ++ v) ++ words) ++ "\n"

mutual

def expandParts (p : Purpose) : Nat → Bool → Word → Action (List Piece)
  | 0, _, _ => pure []
  | _, _, [] => pure []
  | fuel + 1, isFirst, part :: rest => do
    let here ← match part with
      | .text text true => pure (p.literal text true)
      | .text text false => do pure ((← get).literal p isFirst rest.isEmpty text)
      | .parameter name expansion quoted => expandParameter p fuel name quoted expansion
      | .output command quoted => do
        let text ← outputOf fuel command
        pure (({ text } : Found).pieces quoted)
      | .arithmetic expression quoted => do
        let text ← expandText {} fuel expression
        match (← get).arithmetic text with
        | .error complaint => fail complaint
        | .ok (n, assigned) =>
          each (fun ((name, n) : String × Int) => assign name (toString n)) assigned.reverse
          pure (({ text := toString n } : Found).pieces quoted)
      | _ => pure []
    pure (here ++ (← expandParts p fuel false rest))
termination_by structural fuel => fuel

def expandParameter (p : Purpose) : Nat → String → Bool → Expansion → Action (List Piece)
  | 0, _, _, _ => pure []
  | fuel + 1, name, quoted, expansion => do
    let found := (← get).found? p quoted name
    let isMissing (strict : Bool) : Bool := match found with
      | none => true
      | some f => strict && f.text.isEmpty && !f.isList
    let nothing : Action (List Piece) := pure (if quoted then [] else [.value ""])
    let value : Action (List Piece) := pure ((found.map (·.pieces quoted)).getD [])
    /- A value that has to be there if that is asked for. -/
    let needed (next : Found → Action (List Piece)) : Action (List Piece) := do
      match found with
      | some f => next f
      | none =>
        if (← get).has "nounset" then fail s!"{name}: parameter not set"
        pure []
    let tildes : Tildes := if p.tildes = .all then .all else .first
    let instead (word : Word) : Action (List Piece) :=
      expandParts { p with tildes, isValue := p.isValue || !quoted } fuel true word
    match expansion with
    | .value => needed fun _ => value
    | .length =>
      let s ← get
      if found.isNone && s.has "nounset" then fail s!"{name}: parameter not set"
      let text := if name = "@" || name = "*" then s.joinedArguments
        else (found.map (·.text)).getD ""
      pure (({ text := toString text.length } : Found).pieces quoted)
    | .default strict word => if isMissing strict then instead word else value
    | .alternative strict word => if isMissing strict then nothing else instead word
    | .assign strict word =>
      if isMissing strict then
        let text ← expandText { tildes := .first } fuel word
        if !isName name then fail s!"{name}: bad variable name"
        assign name text
        pure ((((← get).found? p quoted name).map (·.pieces quoted)).getD [])
      else value
    | .required strict word =>
      if isMissing strict then
        let text ← expandText { tildes := .first } fuel word
        let text := if !word.isEmpty then text
          else if strict then "parameter not set or null" else "parameter not set"
        fail s!"{name}: {text}"
      else value
    | .dropFront longest pattern => needed fun f => do
      let p ← expandPattern fuel pattern
      pure ({ f with text := p.dropFront longest f.text }.pieces quoted)
    | .dropBack longest pattern => needed fun f => do
      let p ← expandPattern fuel pattern
      pure ({ f with text := p.dropBack longest f.text }.pieces quoted)
    | _ => fail "Bad substitution"
termination_by structural fuel => fuel

def expandText (p : Purpose) : Nat → Word → Action String
  | 0, _ => pure ""
  | fuel + 1, w => do pure (Piece.text (← expandParts p fuel true w))
termination_by structural fuel => fuel

def expandPattern : Nat → Word → Action Pattern
  | 0, _ => pure []
  | fuel + 1, w => do
    let ps ← expandParts { tildes := .first } fuel true w
    pure (Pattern.of (ps.flatMap Piece.glyphs))
termination_by structural fuel => fuel

def expandWord : Nat → Word → Action (List String)
  | 0, _ => pure []
  | fuel + 1, w => do
    let ps ← expandParts { splits := true, tildes := .first } fuel true w
    let s ← get
    let fields := Fields.ofPieces s.separators ps
    let isPattern (gs : Glyphs) : Bool :=
      gs.any fun g => !g.quoted && ['*', '?', '['].contains g.char
    if !s.has "noglob" && fields.any isPattern then
      let seen ← look
      pure (fields.flatMap fun gs =>
        if isPattern gs then pathsOf seen.files seen.directory gs else [gs.text])
    else pure (fields.map Glyphs.text)
termination_by structural fuel => fuel

/-- Expands words; those that are assignments yield one text, if that is said of them. -/
def expandWords (assigns : Bool) : Nat → List Word → Action (List String)
  | 0, _ => pure []
  | _, [] => pure []
  | fuel + 1, w :: rest => do
    let here ← match if assigns then w.assignment? else none with
      | some (name, value) => do
        pure [name ++ "=" ++ (← expandText { tildes := .all } fuel value)]
      | none => expandWord fuel w
    pure (here ++ (← expandWords assigns fuel rest))
termination_by structural fuel => fuel

/-- Expands words until there is a text, and yields those that have not been expanded. -/
def expandSome : Nat → List Word → Action (List String × List Word)
  | 0, rest => pure ([], rest)
  | _, [] => pure ([], [])
  | fuel + 1, w :: rest => do
    let texts ← expandWord fuel w
    if texts.isEmpty then expandSome fuel rest else pure (texts, rest)
termination_by structural fuel => fuel

def expandLeads : Nat → List Redirect → Action (List Lead)
  | 0, _ => pure []
  | _, [] => pure []
  | fuel + 1, r :: rest => do
    let leads : List Lead ← match r with
      | .file descriptor use target _ => do
        pure [⟨descriptor, .file use (← expandText { tildes := .first } fuel target)⟩]
      | .copy descriptor source => do
        match (← expandText { tildes := .first } fuel source).toList with
        | ['-'] => pure [⟨descriptor, .copy none⟩]
        | [c] =>
          match digit? c with
          | some n => pure [⟨descriptor, .copy (some n)⟩]
          | none => refuseSource .descriptor
        | _ => refuseSource .descriptor
      | .document descriptor number => do
        let word := (List.lookup number (← get).documents).getD []
        pure [⟨descriptor, .document (← expandText {} fuel word)⟩]
      | _ => pure []
    pure (leads ++ (← expandLeads fuel rest))
termination_by structural fuel => fuel

def outputOf : Nat → Command → Action String
  | 0, _ => pure ""
  | _, .nothing => pure ""
  | fuel + 1, c => do
    let (reading, writing) : Nat × Nat ← ask .pipe
    modify State.makeRoom
    let child ← fork do
      becomeInner
      act (Act.close reading)
      if writing != 1 then
        let _ ← ask (.copy writing 1)
        act (Act.close writing)
      runInner fuel { exits := true } c
    act (Act.close writing)
    let text ← act (Act.readAll reading)
    act (Act.close reading)
    let status ← waitFor [child]
    modify fun s => { s with innerStatus := status.number }
    pure (withoutLineEnds (text.toOption.getD ""))
termination_by structural fuel => fuel

/-- Runs a command in a shell of its own, up to its end. -/
def runInner : Nat → Mode → Command → Action Empty
  | 0, _, _ => stop (.signal Signal.kill)
  | fuel + 1, mode, c => do
    orElse (eval fuel mode c) fun _ => pure ()
    leave fuel
termination_by structural fuel => fuel

/-- Ends a shell. What is to be done at its end is done first. -/
def leave : Nat → Action Empty
  | 0 => stop (.signal Signal.kill)
  | fuel + 1 => do
    leadBackTo 0 Act.patience
    let s ← get
    match (List.lookup 0 s.traps).filter fun action => !action.isEmpty with
    | none => stop (.code (s.status % 256))
    | some action =>
      let status := s.status
      set { s with
        traps := s.traps.filter fun t => t.1 != 0
        savedStatus := some status, skip := .nothing, running := none }
      orElse (do
        let _ ← runText fuel {} action
        setStatus status) fun _ => pure ()
      stop (.code ((← get).status % 256))
termination_by structural fuel => fuel

/-- Runs a text as a script, and yields its status. -/
def runText : Nat → Mode → String → Action Nat
  | 0, _, _ => pure 0
  | fuel + 1, mode, text => do
    let line := (← get).lineAhead
    let status ← runSource fuel mode 0 (Source.ofScript .plain text 1)
    modify fun s => { s with lineAhead := line }
    pure status
termination_by structural fuel => fuel

/-- Runs what is left of a script; so far it has had the given status. -/
def runSource : Nat → Mode → Nat → Source → Action Nat
  | 0, _, status, _ => pure status
  | fuel + 1, mode, status, source => do
    let s ← get
    let source := { source with aliases := s.aliases, documents := s.documents, fresh := s.fresh }
    match source.nextCommand with
    | .error fault =>
      modify fun s => { s with lineAhead := fault.line }
      refuseSource fault.error
    | .ok (none, _) => pure status
    | .ok (some c, source) =>
      modify fun s => { s with
        documents := source.documents, fresh := source.fresh, lineAhead := source.line }
      let isLast := match source.pushed with
        | some .ended => true
        | _ => false
      eval fuel { mode with exits := mode.exits && isLast } c
      let s ← get
      let status := match c with
        | .nothing => status
        | _ => s.status
      if s.skip = .nothing then runSource fuel mode status source else pure status
termination_by structural fuel => fuel

/-- Does what is to be done about the signals that have come. -/
def takeSignals : Nat → Action Unit
  | 0 => pure ()
  | fuel + 1 => do
    let s ← get
    if s.trapped.isEmpty then pure ()
    else
      let come : List Nat ← ask (.caught true)
      let all := (s.held ++ come.filter fun n => !s.held.contains n).mergeSort (· ≤ ·)
      if !all.isEmpty then
        let status := s.savedStatus.getD s.status
        modify fun s => { s with savedStatus := some status, held := [] }
        handleSignals fuel status all
        modify fun t => { t with savedStatus := s.savedStatus }
termination_by structural fuel => fuel

/-- Does what is to be done about some signals, one after the other. -/
def handleSignals : Nat → Nat → List Nat → Action Unit
  | 0, _, _ => pure ()
  | _, _, [] => pure ()
  | fuel + 1, status, n :: rest => do
    let s ← get
    if s.skip != .nothing then modify fun s => { s with held := n :: rest }
    else
      match (List.lookup n s.traps).filter fun action => !action.isEmpty with
      | none => pure ()
      | some action =>
        let _ ← runText fuel {} action
        if (← get).skip != .leaveFunction true then setStatus status
      handleSignals fuel status rest
termination_by structural fuel => fuel

/-- Goes on behind a command, unless the shell ends with it or because of it. -/
def settle (mode : Mode) (isChecked : Bool) : Nat → Nat → Action Unit
  | 0, _ => pure ()
  | fuel + 1, status => do
    takeSignals fuel
    if isChecked && !mode.tested && status != 0 && (← get).has "errexit" then throw .exit
    if mode.exits then throw .exit
termination_by structural fuel => fuel

def eval : Nat → Mode → Command → Action Unit
  | 0, _, _ => pure ()
  | fuel + 1, mode, c => do
    let within : Mode := { tested := mode.tested }
    let tested : Mode := { tested := true }
    let settled (isChecked : Bool) (x : Action Nat) : Action Unit := do
      let status ← x
      setStatus status
      settle mode isChecked fuel status
    let nothingMore : Action Unit := settle mode false fuel 0
    if (← get).has "noexec" then nothingMore
    else
      match c with
      | .nothing => nothingMore
      | c =>
        ask .tick
        takeSignals fuel
        match c with
        | .nothing => nothingMore
        | .group c => eval fuel mode c
        | .simple line assignments words redirects _ =>
          settled true (simple fuel mode line assignments words redirects)
        | .pipeline cs => settled true (pipeline fuel mode false cs)
        | .background (.pipeline cs) => settled true (pipeline fuel mode true cs)
        | .background (.redirected line c rs) =>
          settled true (subshell fuel mode (some line) true c rs)
        | .background c => settled true (subshell fuel mode none true c [])
        | .subshell line c rs => settled true (subshell fuel mode (some line) false c rs)
        | .negated c => settled false do
          eval fuel tested c
          pure (if (← get).status = 0 then 1 else 0)
        | .redirected line c rs => settled false do
          modify fun s => { s with line }
          let leads ← expandLeads fuel rs
          let status ←
            if ← leadSafely leads then do
              eval fuel within c
              pure (← get).status
            else pure 2
          leadBack false
          pure status
        | .sequence first second =>
          eval fuel within first
          if (← get).skip = .nothing then eval fuel mode second else nothingMore
        | .both left right =>
          eval fuel tested left
          let s ← get
          if s.status = 0 && s.skip = .nothing then eval fuel mode right else nothingMore
        | .either left right =>
          eval fuel tested left
          let s ← get
          if s.status != 0 && s.skip = .nothing then eval fuel mode right else nothingMore
        | .conditional condition yes no =>
          eval fuel tested condition
          let s ← get
          if s.skip != .nothing then nothingMore
          else if s.status = 0 then eval fuel mode yes
          else
            match no with
            | some no => eval fuel mode no
            | none => settled false (pure 0)
        | .loop negated condition body => settled false do
          modify fun s => { s with loops := s.loops + 1 }
          andFinally (rounds negated condition body within fuel 0) leaveLoop
        | .forEach line name words body => settled false do
          modify fun s => { s with line }
          let texts ← expandWords false fuel words
          modify fun s => { s with loops := s.loops + 1 }
          andFinally (passes name body within fuel 0 texts) leaveLoop
        | .choice line word arms => settled false do
          modify fun s => { s with line }
          let text ← expandText { tildes := .first } fuel word
          choose text mode fuel arms
        | .function line name body => settled false do
          modify fun s => { s with
            functions := { name, body } :: s.functions.filter fun f => f.name != name
            found := s.found.filter fun f => f.1 != name
            line }
          pure 0
        | _ => nothingMore
termination_by structural fuel => fuel

/-- Runs the rounds of a loop that has a condition; so far it has had the given status. -/
def rounds (negated : Bool) (condition body : Command) (mode : Mode) : Nat → Nat → Action Nat
  | 0, status => pure status
  | fuel + 1, status => do
    eval fuel { tested := true } condition
    let holds := ((← get).status = 0) != negated
    let conditionStatus := (← get).status
    match ← skipped with
    | .leaveFunction isExplicit => pure (if isExplicit then conditionStatus else status)
    | .leaveLoops _ => pure status
    | .repeatLoop _ => rounds negated condition body mode fuel status
    | .nothing =>
      if !holds then pure status
      else
        eval fuel mode body
        let status := (← get).status
        match ← skipped with
        | .nothing | .repeatLoop _ => rounds negated condition body mode fuel status
        | _ => pure status
termination_by structural fuel => fuel

/-- Runs the rounds of a loop over some texts; so far it has had the given status. -/
def passes (name : String) (body : Command) (mode : Mode) :
    Nat → Nat → List String → Action Nat
  | 0, status, _ => pure status
  | _, status, [] => pure status
  | fuel + 1, _, text :: rest => do
    assign name text
    eval fuel mode body
    let status := (← get).status
    match ← skipped with
    | .nothing | .repeatLoop _ => passes name body mode fuel status rest
    | _ => pure status
termination_by structural fuel => fuel

/-- Runs the first arm of which a pattern matches a text. -/
def choose (text : String) (mode : Mode) : Nat → List Arm → Action Nat
  | 0, _ => pure 0
  | _, [] => pure 0
  | fuel + 1, .mk patterns body _ :: rest => do
    if (← get).skip != .nothing then pure 0
    else if ← isMatched text fuel patterns then
      match body with
      | .nothing => pure 0
      | body =>
        if (← get).skip = .nothing then
          eval fuel mode body
          pure (← get).status
        else pure 0
    else choose text mode fuel rest
termination_by structural fuel => fuel

def isMatched (text : String) : Nat → List Word → Action Bool
  | 0, _ => pure false
  | _, [] => pure false
  | fuel + 1, w :: rest => do
    let p ← expandPattern fuel w
    if p.isMatch text.toList then pure true else isMatched text fuel rest
termination_by structural fuel => fuel

/-- Runs a command in a shell of its own, and perhaps in the background. -/
def subshell : Nat → Mode → Option Nat → Bool → Command → List Redirect → Action Nat
  | 0, _, _, _, _, _ => pure 0
  | fuel + 1, mode, line, isBackground, c, rs => do
    if let some line := line then modify fun s => { s with line }
    let leads ← expandLeads fuel rs
    let run : Action Empty := do
      orElse (do
        each (lead false) leads
        eval fuel { exits := true, tested := mode.tested && !isBackground } c) fun _ => pure ()
      leave fuel
    let s ← get
    if !isBackground && mode.exits && s.trapped.isEmpty then
      becomeInner
      let never ← run
      nomatch never
    else
      if !isBackground then modify State.makeRoom
      let child ← fork do
        becomeInner
        if isBackground then becomeBackground true
        run
      if isBackground then
        modify fun s => { (s.addJob [child]).1 with background := some child }
        pure 0
      else do pure (← waitFor [child]).number
termination_by structural fuel => fuel

/-- Runs commands beside each other, each of which reads what the one in front of it writes. -/
def pipeline : Nat → Mode → Bool → List Command → Action Nat
  | 0, _, _, _ => pure 0
  | fuel + 1, mode, isBackground, cs => do
    modify State.makeRoom
    let programs ← stages mode isBackground fuel none [] cs
    if isBackground then
      modify fun s => { (s.addJob programs).1 with background := programs.getLast? }
      pure 0
    else do pure (← waitFor programs).number
termination_by structural fuel => fuel

/-- Starts the commands of a pipeline. The first of them reads from a descriptor, if there is one;
the numbers of those that have been started stand backwards. -/
def stages (mode : Mode) (isBackground : Bool) :
    Nat → Option Nat → List Nat → List Command → Action (List Nat)
  | 0, _, started, _ => pure started.reverse
  | _, _, started, [] => pure started.reverse
  | fuel + 1, reading, started, c :: rest => do
    lookAhead c
    let next : Option (Nat × Nat) ← if rest.isEmpty then pure none else do
      pure (some (← ask .pipe))
    let child ← fork do
      becomeInner
      if isBackground then becomeBackground started.isEmpty
      if let some (d, _) := next then act (Act.close d)
      if let some d := reading then
        if d != 0 then
          let _ ← ask (.copy d 0)
          act (Act.close d)
      if let some (_, d) := next then
        if d != 1 then
          let _ ← ask (.copy d 1)
          act (Act.close d)
      runInner fuel { exits := true, tested := mode.tested } c
    if let some d := reading then act (Act.close d)
    if let some (_, d) := next then act (Act.close d)
    stages mode isBackground fuel (next.map (·.1)) (child :: started) rest
termination_by structural fuel => fuel

/-- Looks at the words behind "command": what is to be run, if it is not this command itself. The
words that have been looked at stand backwards. -/
def commandWords : Nat → List String → Bool → List String → List Word →
    Action (Option Target × List String × List Word)
  | 0, seen, _, args, rest => pure (none, seen.reverse ++ args, rest)
  | fuel + 1, seen, isUsual, args, rest => do
    let (args, rest) ← if args.isEmpty then expandSome fuel rest else pure (args, rest)
    match args with
    | [] => pure (none, seen.reverse, rest)
    | a :: more =>
      let target (words : List String) (rest : List Word) (before : List String) : Option Target :=
        some { words, rest, before, isUsual, withFunctions := false }
      if a = "--" then
        let (more, rest) ← if more.isEmpty then expandSome fuel rest else pure (more, rest)
        let before := (a :: seen).reverse
        pure (if more.isEmpty then none else target more rest before, before ++ more, rest)
      else if a.startsWith "-" && a != "-" then
        if (a.toList.drop 1).all (· == 'p') then commandWords fuel (a :: seen) true more rest
        else pure (none, seen.reverse ++ a :: more, rest)
      else pure (target args rest seen.reverse, seen.reverse ++ args, rest)
termination_by structural fuel => fuel

/-- Finds out what a command runs that begins with some words: functions and commands of the shell
are known at once. -/
def resolve : Nat → Target → Action (Target × Option Meaning)
  | 0, t => pure (t, none)
  | fuel + 1, t => do
    let name := t.words.headD ""
    let s ← get
    let f := if t.withFunctions && !name.toList.contains '/' then s.function? name else none
    match (f.map Meaning.function).orElse fun _ => builtin? name with
    | some (.builtin isSpecial) =>
      let t := { t with isSpecial := some (t.isSpecial.getD isSpecial) }
      if name = "command" then
        let (inner, words, rest) ← commandWords fuel [name] false (t.words.drop 1) t.rest
        match inner with
        | none => pure ({ t with words, rest }, some (.builtin isSpecial))
        | some inner =>
          resolve fuel { inner with isSpecial := t.isSpecial, before := t.before ++ inner.before }
      else pure (t, some (.builtin isSpecial))
    | m => pure (t, m)
termination_by structural fuel => fuel

/-- Runs a command that consists of words, with assignments and redirections. -/
def simple : Nat → Mode → Nat → List Assignment → List Word → List Redirect → Action Nat
  | 0, _, _, _, _, _ => pure 0
  | fuel + 1, mode, line, assignments, words, redirects => do
    modify fun s => { s with line, innerStatus := 0 }
    let depth := (← get).scopes.length
    let leadDepth := (← get).redirected.length
    let (first, rest) ← expandSome fuel words
    let (t, m) ← if first.isEmpty then pure ({ words := [], rest := [] }, none)
      else resolve fuel { words := first, rest }
    let name := t.words.headD ""
    let isBuiltin := match m with
      | some (.builtin _) => true
      | _ => false
    let more ← expandWords (isBuiltin && assigning.contains name) fuel t.rest
    let argv := t.words ++ more
    let isReplacing := isBuiltin && name = "exec"
    let isOwn := !argv.isEmpty && t.isSpecial != some true
    let isFatal := t.isSpecial == some true
    if isOwn then modify fun s => { s with scopes := {} :: s.scopes }
    let close : Action Unit := do
      leadBackTo leadDepth Act.patience
      closeScopes depth Act.patience
    let leads ← expandLeads fuel redirects
    if !(← leadSafely leads) then
      if isFatal then
        setStatus 2
        throw .error
      close
      pure 2
    else
      let given ← assignAll isOwn (isReplacing && 1 < argv.length) fuel assignments
      traceCommand fuel given (t.before ++ argv)
      let status ← runTarget fuel mode t m isFatal argv
      leadBack isReplacing
      close
      pure status
termination_by structural fuel => fuel

/-- Carries out assignments in front of a command, each of which is seen by those behind it. -/
def assignAll (isOwn exports : Bool) : Nat → List Assignment →
    Action (List (String × String))
  | 0, _ => pure []
  | _, [] => pure []
  | fuel + 1, .mk name _ _ w :: rest => do
    let value ← expandText { tildes := .all } fuel w
    let old := OrderedMap.get? name (← get).bindings
    if isOwn then
      modify fun s => { s with
        scopes := s.scopes.modifyHead fun c => { c with bindings := (name, old) :: c.bindings } }
    assign name value
    if isOwn || exports then
      modify fun s => s.changeVariable name fun v => { v with exported := true }
    pure ((name, value) :: (← assignAll isOwn exports fuel rest))
termination_by structural fuel => fuel

/-- Shows a command before it is run, if that is asked for. -/
def traceCommand : Nat → List (String × String) → List String → Action Unit
  | 0, _, _ => pure ()
  | fuel + 1, given, words => do
    let s ← get
    if s.has "xtrace" then
      let sign := (s.value? "PS4").getD ""
      let sign ← match Source.document? .plain sign with
        | some word => expandText {} fuel word
        | none => pure sign
      let descriptor := ((s.redirected.head?.bind (List.lookup 2 ·)).bind id).getD 2
      print descriptor (traceText sign given words)
termination_by structural fuel => fuel

/-- Runs what the words of a command stand for. -/
def runTarget : Nat → Mode → Target → Option Meaning → Bool → List String → Action Nat
  | 0, _, _, _, _, _ => pure 0
  | fuel + 1, mode, t, m, isFatal, argv => do
    match argv with
    | [] => pure (← get).innerStatus
    | name :: args =>
      match m with
      | some (.builtin _) =>
        orElse (runBuiltin fuel mode name args) fun b =>
          match b with
          | .error | .refusal => if isFatal then throw b else do pure (← get).status
          | .exit => throw b
      | some (.function f) => runFunction fuel mode f args
      | _ =>
        let paths ← pathsFor t.isUsual name
        match ← meaning (if t.isUsual then some paths else none) false name with
        | .unknown e =>
          warn s!"{name}: {runReason e}"
          pure 127
        | found =>
          let place := match found with
            | .program n => n
            | _ => 0
          if mode.exits && (← get).trapped.isEmpty then replace argv (paths.drop place)
          else
            modify State.makeRoom
            let child ← fork do
              orElse (replace argv (paths.drop place)) fun _ => do
                stop (.code (← get).status)
            pure (← waitFor [child]).number
termination_by structural fuel => fuel

/-- Carries out a command of the shell. -/
def runBuiltin : Nat → Mode → String → List String → Action Nat
  | 0, _, _, _ => pure 0
  | fuel + 1, mode, name, args => do
    let outer := (← get).running
    modify fun s => { s with running := some name }
    let run : Action Nat := match name with
      | "eval" =>
        if args.isEmpty then pure 0
        else runText fuel { tested := mode.tested } (join " " args)
      | "." => runFile fuel args
      | "exec" =>
        if args.isEmpty then pure 0
        else do replace args (← pathsFor false (args.headD ""))
      | name => ((List.lookup name plainBuiltins).map (· args)).getD (pure 0)
    let status ← andFinally run (modify fun s => { s with running := outer })
    setStatus status
    pure status
termination_by structural fuel => fuel

def runFile : Nat → List String → Action Nat
  | 0, _ => pure 0
  | fuel + 1, args => do
    match ← operands args with
    | [] => pure 0
    | name :: _ =>
      let s ← get
      let seen ← look
      let path ← if name.toList.contains '/' then pure name
        else
          match (s.searchPaths name).find? fun p =>
            (seen.files.find? seen.directory p true).any (isProgramFile seen.files) with
          | some path => pure path
          | none => fail s!"{name}: not found"
      match ← act (Act.openFile path .read) with
      | .error e =>
        let reason := reasonText e "No such file"
        fail s!"cannot open {path}: {reason}"
      | .ok d =>
        let text ← act (Act.readAll d)
        act (Act.close d)
        modify fun s => { s with running := some path }
        let status ← runText fuel {} (text.toOption.getD "")
        modify fun s => { s with skip := match s.skip with
          | .leaveFunction _ => .nothing
          | skip => skip }
        pure status
termination_by structural fuel => fuel

def runFunction : Nat → Mode → Function → List String → Action Nat
  | 0, _, _, _ => pure 0
  | fuel + 1, mode, f, args => do
    let s ← get
    set { s with arguments := args, cursor := {}, loops := 0 }
    andFinally (eval fuel { tested := mode.tested } f.body) (modify fun t => { t with
      arguments := s.arguments, cursor := s.cursor, loops := s.loops
      skip := match t.skip with
        | .leaveFunction _ => .nothing
        | skip => skip })
    pure (← get).status
termination_by structural fuel => fuel

end

end Action
/-! ### Calls of the shell

A call of the shell: which script it runs, with which arguments and options, and how it begins and
ends. -/

open Host Text Shell.Action

namespace Session

/-- The directory that the shell is in, as the environment tells it or as it is. -/
def startDirectory (seen : Surroundings) (told : Option String) : Option String :=
  match told.filter fun path =>
      path.startsWith "/" && seen.files.find? FileTree.root path true == some seen.directory with
  | some path => some path
  | none => seen.files.pathOf? seen.directory

/-- Finds its way around before anything is run. -/
def enter : Action Unit := do
  let seen ← look
  let path := startDirectory seen ((← get).value? "PWD")
  modify fun s =>
    let s := { s with directory := path }
    s.changeVariable "PWD" fun v => { v with value := path, exported := true }

def runFrom (descriptor : Nat) : Action Unit := do
  let text ← act (Act.readAll descriptor)
  if descriptor != 0 then act (Act.close descriptor)
  let _ ← runText Act.patience {} (text.toOption.getD "")

def runFile (path : String) (arguments : List String) : Action Unit := do
  match ← act (Act.openFile path .read) with
  | .error e =>
    let reason := reasonText e "No such file"
    fail s!"cannot open {path}: {reason}"
  | .ok d =>
    modify fun s => { s with name := path, arguments }
    runFrom d

/-- Runs the script that the arguments of the shell name. -/
def run (arguments : List String) : Action Unit := do
  let s ← get
  match Switches.take true (arguments.length + 1) { state := s, rest := arguments } with
  | .error text => fail text
  | .ok w =>
    let fromInput (arguments : List String) : Action Unit := do
      modify fun s => { (s.setOption "stdin" true) with arguments }
      runFrom 0
    set w.state
    enter
    if w.letters.contains 'c' then
      match w.rest with
      | [] => fail "-c requires an argument"
      | script :: rest =>
        modify fun s => { s with name := rest.headD s.name, arguments := rest.drop 1 }
        let exits := !(← get).has "stdin"
        let _ ← runText Act.patience { exits } script
    else if w.state.has "stdin" then fromInput w.rest
    else
      match w.rest with
      | [] => fromInput []
      | path :: rest => runFile path rest

end Session

def shell (c : Call) : Routine :=
  Act.ask .self fun ((own, parent) : Nat × Nat) =>
    let s := State.starting (c.argv.headD "sh") c.environment [] [] own parent
    let main : Action Empty := do
      orElse (Session.run (c.argv.drop 1)) fun _ => pure ()
      leave Act.patience
    main.routine s

end PipelineRunner.Shell
