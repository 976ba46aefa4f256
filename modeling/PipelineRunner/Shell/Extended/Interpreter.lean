import PipelineRunner.Shell.Extended.Builtin.Catalog
import PipelineRunner.Shell.Extended.Builtin.Reading
import PipelineRunner.Shell.Extended.Parts

/-!
Loops and choices of the extended language: their rounds, their menus, and the arms that are run.
-/

namespace PipelineRunner.Shell.Extended

open Host Text Shell.Action

namespace Runner

/-- Runs the rounds of a loop that has a condition; so far it has had the given status. -/
def rounds (r : Runner) (negated : Bool) (condition body : Command) (mode : Mode) :
    Nat → Nat → Action Nat
  | 0, status => pure status
  | fuel + 1, status => do
    r.eval { tested := true } condition
    let holds := ((← get).status = 0) != negated
    let conditionStatus := (← get).status
    match ← skipped with
    | .leaveFunction isExplicit => pure (if isExplicit then conditionStatus else status)
    | .leaveLoops _ => pure status
    | .repeatLoop _ => r.rounds negated condition body mode fuel status
    | .nothing =>
      if !holds then pure status
      else
        r.eval mode body
        let status := (← get).status
        match ← skipped with
        | .nothing | .repeatLoop _ => r.rounds negated condition body mode fuel status
        | _ => pure status

/-- Runs the rounds of a loop over some texts; so far it has had the given status. -/
def passes (r : Runner) (c : Command) (shown name : String) (body : Command) (mode : Mode)
    (line : Nat) : Nat → List String → Action Nat
  | status, [] => pure status
  | _, text :: rest => do
    atLine line c
    r.react State.eachCommand
    r.trace shown
    if !(← mayChange name) then pure 1
    else
      put name none false text
      r.eval mode body
      let status := (← get).status
      match ← skipped with
      | .nothing | .repeatLoop _ => r.passes c shown name body mode line status rest
      | _ => pure status

/-- The value of an expression of a loop that counts; an empty one holds. -/
def loopNumber (r : Runner) (w : Word) : Action Int := do
  let text ← r.text {} w
  let text := String.ofList ((text.toList.dropWhile Numeral.isBlank).reverse.dropWhile
    Numeral.isBlank).reverse
  if text.isEmpty then pure 1
  else
    r.trace ("((" ++ " " ++ text ++ " ))")
    numberOf "((: " text

/-- Runs the rounds of a loop that counts; so far it has had the given status. -/
def countRounds (r : Runner) (condition step : Word) (body : Command) (mode : Mode) :
    Nat → Nat → Action Nat
  | 0, status => pure status
  | fuel + 1, status => do
    if (← r.loopNumber condition) = 0 then pure status
    else
      r.eval mode body
      let status := (← get).status
      match ← skipped with
      | .nothing | .repeatLoop _ =>
        let _ ← r.loopNumber step
        r.countRounds condition step body mode fuel status
      | _ => pure status

/-- The choices of a menu, below each other and in columns if there are many. -/
def menu (k : Charset) (texts : List String) : String :=
  let count := texts.length
  let digits := (toString count).length
  let widest := (texts.map fun t => k.count t).foldl Nat.max 0 + digits + 4
  let columns := Nat.max 1 (80 / widest)
  let rows := (count + columns - 1) / columns
  let columns := if rows = 0 then 1 else (count + rows - 1) / rows
  let (rows, columns) := if rows ≤ 1 then (count, 1) else (rows, columns)
  let item (i : Nat) : String :=
    let number := toString (i + 1)
    Bytes.fill ' ' (digits - number.length) ++ number ++ ") " ++ texts.getD i ""
  let line (row : Nat) : String :=
    let cells := (List.range columns).filterMap fun c =>
      let i := c * rows + row
      if i < count then some i else none
    let rec go : List Nat → String
      | [] => ""
      | [i] => item i
      | i :: rest =>
        item i ++ Bytes.fill ' ' (widest - k.count (item i)) ++ go rest
    go cells ++ "\n"
  String.join ((List.range rows).map line)

/-- Runs the rounds of a loop in which somebody chooses; so far it has had the given status. -/
def choices (r : Runner) (c : Command) (shown name : String) (texts : List String) (body : Command)
    (mode : Mode) (line : Nat) : Nat → Bool → Nat → Action Nat
  | 0, _, status => pure status
  | fuel + 1, showsMenu, status => do
    atLine line c
    let s ← get
    if showsMenu then print 2 (menu s.charset texts)
    print 2 ((s.value? "PS3").getD "#? ")
    let rules : Builtin.ReadRules := {}
    let (t, readStatus) : Builtin.TextReading × Nat ← act (rules.readText s.charset)
    let reply := Piece.text t.line.all
    if readStatus != 0 && reply.isEmpty then
      print 2 "\n"
      pure 1
    else
      modify fun s => s.setValue "REPLY" reply
      let isBlank := reply.toList.all Numeral.isBlank
      if isBlank then r.choices c shown name texts body mode line fuel true status
      else
        let chosen := match Numeral.int? reply with
          | some (.ofNat (n + 1)) => texts.getD n ""
          | _ => ""
        if !(← mayChange name) then pure 1
        else
          put name none false chosen
          r.eval mode body
          let status := (← get).status
          match ← skipped with
          | .nothing | .repeatLoop _ =>
            r.choices c shown name texts body mode line fuel false status
          | _ => pure status

def isMatched (r : Runner) (text : String) : List Word → Action Bool
  | [] => pure false
  | w :: rest => do
    let g ← r.pattern w
    if g.isMatch (← get).charset text then pure true else r.isMatched text rest

/-- Runs the arms of which a pattern matches a text, one or more of them. -/
def choose (r : Runner) (text : String) (mode : Mode) : Bool → Nat → List Arm → Action Nat
  | _, status, [] => pure status
  | falls, status, .mk patterns body ending :: rest => do
    let isMeant ← if falls then pure true else r.isMatched text patterns
    if !isMeant then r.choose text mode false status rest
    else
      let status ← match body with
        | .nothing => pure 0
        | body => do
          r.eval mode body
          pure (← get).status
      if (← get).skip != .nothing then pure status
      else
        match ending with
        | .leaves => pure status
        | .fallsThrough => r.choose text mode true status rest
        | .looksOn => r.choose text mode false status rest

end Runner
/-! ### Commands

Programs that a shell runs, or that take its place.

Running the commands of the extended language. Its parts are told how the whole works, and the whole
is made of them; its fuel is more than any script takes. -/

open Host Text Shell.Action

/-- How a command is found. -/
structure Search where
  withFunctions : Bool := true
  withPrograms : Bool := true
  /-- Whether the usual directories are searched for programs. -/
  isUsual : Bool := false

def ownPath : String := "/bin/bash"

/-- Whether something that can be run is at a path. -/
def isRunnable (seen : Surroundings) (path : String) : Bool :=
  (seen.files.find? seen.directory path true).any fun i =>
    isProgramFile seen.files i && Condition.isExecutable (seen.files.node i)

/-- Counts that a program has been found which is remembered. -/
def noteUse (name : String) : Action Unit := modify fun s =>
  let n := (List.lookup name s.uses).getD 0
  { s with uses := (name, n + 1) :: s.uses.filter fun u => u.1 != name }

/-- The path of a program: one where it can be run, or else one where there is something else. What
has been found in the search path is remembered. -/
def programPath (isUsual : Bool) (name : String) : Action (Option String) := do
  let s ← get
  let all := if isUsual then State.pathsIn usualPath name else s.searchPaths name
  let known := if isUsual then none else (List.lookup name s.found).bind fun n => all[n]?
  if name.toList.contains '/' then pure (some name)
  else if name.isEmpty then pure none
  else if !isUsual && ((s.value? "PATH").getD "").isEmpty then pure (some name)
  else
    match known with
    | some path =>
      noteUse name
      pure (some path)
    | none =>
      let seen ← look
      let isThere (path : String) : Bool :=
        (seen.files.find? seen.directory path true).any (isProgramFile seen.files)
      match (all.findIdx? (isRunnable seen)).orElse fun _ => all.findIdx? isThere with
      | none => pure none
      | some n =>
        if !isUsual then
          modify fun s => { s with
            found := s.found ++ [(name, n)], uses := s.uses.filter fun u => u.1 != name }
          noteUse name
        pure all[n]?

/-- Runs what is at a path instead of the shell. If that cannot be done, that is said, and a status
and a reason are yielded. -/
def runAt (path : String) (argv : List String) (environment : List (String × String)) :
    Action (Nat × String) := do
  let e ← runAtFirst ownPath argv (fun p => environment ++ [("_", p)]) .notFound [path]
  let seen ← look
  let (status, reason) := if seen.files.hasDirectory seen.directory path then
      (126, FileError.isDirectory.reason)
    else if e = .notFound && isRunnable seen path then
      (127, "cannot execute: required file not found")
    else (if e = .notFound then 127 else 126, e.reason)
  warnBare (path ++ ": " ++ reason)
  pure (status, reason)

/-- The environment of a program that takes the place of the shell: there is one less around it. -/
def lowered (environment : List (String × String)) : List (String × String) :=
  environment.map fun (n, v) =>
    if n = "SHLVL" then (n, toString (((digits? v.toList).getD 1) - 1)) else (n, v)

def fullPath (s : State) (path : String) : String :=
  if path.startsWith "/" then path
  else
    let rest := if path.startsWith "./" then Bytes.drop 2 path else path
    (s.directory.getD "") ++ "/" ++ rest

/-- Runs another program instead of the shell, if one is named. -/
def exec (args : List String) : Action Nat := do
  let (given, rest) ← Builtin.options "cla:" args
  if rest.isEmpty then pure 0
  else
    let s ← get
    let name := rest.headD ""
    let called := (Builtin.valueOf? given 'a').getD name
    let called := if Builtin.hasLetter given 'l' then "-" ++ called else called
    let environment := if Builtin.hasLetter given 'c' then [] else lowered s.environment
    let status ← match ← programPath false name with
      | none => complain (name ++ ": not found") 127
      | some path =>
        let path := fullPath s path
        let (status, reason) ← runAt path (called :: rest.drop 1) environment
        if status != 127 then warn (path ++ ": cannot execute: " ++ reason)
        pure status
    setStatus status
    if s.hasFeature "execfail" then pure status else throw .exit

/-- Runs a program, or takes the place of the shell with it. -/
def program (mode : Mode) (search : Search) (argv : List String) : Action Nat := do
  let name := argv.headD ""
  match ← programPath search.isUsual name with
  | none => complain (name ++ ": command not found") 127
  | some path =>
    let s ← get
    if mode.exits && s.trapped.isEmpty then
      let (status, _) ← runAt path argv (lowered s.environment)
      setStatus status
      throw .exit
    else
      let child ← fork do
        let (status, _) ← runAt path argv s.environment
        stop (.code status)
      pure (lastStatus (← waitForAll [(child, s.command)]))


/-- How texts are read, as far as a shell has been told. -/
def prepared (s : State) (source : Source) : Source :=
  { source with
    aliases := if s.hasFeature "expand_aliases" then s.aliases else []
    documents := s.documents, fresh := s.fresh
    combines := s.hasFeature "extglob", charset := s.charset }

/-- Says what is wrong with a text. -/
def refuseSource (f : Fault) : Action Unit := do
  let s ← get
  let isInput := s.has "stdin" && s.script = s.name && s.reading.isNone
  each (fun ((line, text) : Nat × String) =>
    let place := if isInput then [] else ["line " ++ toString line]
    print 2 (join ": " (s.script :: s.reading.toList ++ place ++ [text]) ++ "\n")) f.report

/-- Says that the end of a text has ended a document. -/
def warnOpen (d : OpenDocument) : Action Unit := do
  modify fun s => { s with line := d.lastLine }
  warnBare ("warning: here-document at line " ++ toString d.line ++
    " delimited by end-of-file (wanted \x60" ++ d.mark ++ "')")

namespace Runner

/-- Does what is to be done about some signals, one after the other. -/
def handleSignals (r : Runner) (status : Nat) : List Nat → Action Unit
  | [] => pure ()
  | n :: rest => do
    let s ← get
    if s.skip != .nothing then modify fun s => { s with held := n :: rest }
    else
      match (List.lookup n s.traps).filter fun action => !action.isEmpty with
      | none => pure ()
      | some action =>
        let _ ← r.runText {} none s.line action
        if (← get).skip != .leaveFunction true then setStatus status
      r.handleSignals status rest

/-- Does what is to be done about the signals that have come. -/
def takeSignals (r : Runner) : Action Unit := do
  let s ← get
  if s.trapped.isEmpty then pure ()
  else
    let come : List Nat ← ask (.caught true)
    let all := (s.held ++ come.filter fun n => !s.held.contains n).mergeSort (· ≤ ·)
    if !all.isEmpty then
      let status := s.savedStatus.getD s.status
      modify fun s => { s with savedStatus := some status, held := [] }
      r.handleSignals status all
      modify fun t => { t with savedStatus := s.savedStatus }

/-- Goes on behind a command, unless the shell ends with it or because of it. -/
def settle (r : Runner) (mode : Mode) (isChecked : Bool) (status : Nat) : Action Unit := do
  r.takeSignals
  if isChecked && !mode.tested && status != 0 then
    r.react State.failing
    if (← get).has "errexit" then throw .exit
  if mode.exits then throw .exit

/-- Runs what is left of a script; so far it has had the given status. What cannot be expanded ends
the line only, unless the shell is one within another. -/
def runSource (r : Runner) (mode : Mode) : Nat → Nat → Source → Action Nat
  | 0, status, _ => pure status
  | fuel + 1, status, source => do
    let s ← get
    match (prepared s source).nextCommand with
    | .error fault =>
      refuseSource fault
      setStatus 2
      pure 2
    | .ok (none, _) => pure status
    | .ok (some c, source) =>
      each warnOpen source.openDocuments
      let source := { source with openDocuments := [] }
      modify fun s => { s with
        documents := source.documents, fresh := source.fresh, lineAhead := source.lastLine }
      let isLast := match source.pushed with
        | some .ended => true
        | _ => false
      let depth := s.scopes.length
      let went ← orElse (do
        r.eval { mode with exits := mode.exits && isLast } c
        pure true) fun b => do
          let t ← get
          if b = .exit || 0 < t.depth then throw b
          else
            closeScopes depth Act.patience
            modify fun t => { t with status := if t.status = 0 then 1 else t.status }
            pure false
      let t ← get
      let status := match c with
        | .nothing => status
        | _ => t.status
      if t.skip = .nothing || !went then r.runSource mode fuel status source else pure status

/-- Runs a text as a script that is called by a name, from a line on, and yields its status. -/
def text_ (r : Runner) (mode : Mode) (reading : Option String) (line : Nat) (text : String) :
    Action Nat := do
  let s ← get
  modify fun s => { s with reading, lineShift := 0 }
  let status ← andFinally (r.runSource mode Act.patience 0 (Source.ofScript .extended text line))
    (modify fun t => { t with
      reading := s.reading, lineAhead := s.lineAhead, lineShift := s.lineShift })
  pure status

def call (r : Runner) (mode : Mode) (f : Function) (args : List String) : Action Nat := do
  let s ← get
  let frame : Frame := { name := f.name, script := f.script, line := s.line, isFunction := true }
  let depth := s.scopes.length
  /- What is done at some events does not count within the function, unless it says so anew. -/
  let (kept, hidden) := s.traps.partition fun t => t.1 < State.eachCommand || s.isInherited t.1
  set { s with
    traps := kept, arguments := args, loops := 0, frames := frame :: s.frames, script := f.script
    lineShift := f.lineShift
    scopes := { isFunction := true } :: s.scopes, running := none }
  andFinally (do
    r.eval { tested := mode.tested } f.body
    modify fun t => { t with skip := match t.skip with
      | .leaveFunction _ => .nothing
      | skip => skip }
    r.react State.returning) (do
      closeScopes depth Act.patience
      modify fun t => { t with
        traps := t.traps ++ hidden.filter fun h => !t.traps.any fun u => u.1 == h.1
        arguments := s.arguments, loops := s.loops, frames := s.frames, script := s.script
        line := s.line, lineShift := s.lineShift
        skip := match t.skip with
          | .leaveFunction _ => .nothing
          | skip => skip })
  pure (← get).status

/-- Runs a file as a part of this script. -/
def source (r : Runner) (args : List String) : Action Nat := do
  let (_, rest) ← Builtin.options "" args
  match rest with
  | [] => do
    warn "filename argument required"
    Builtin.misuse
  | name :: more =>
    let s ← get
    let seen ← look
    let isFileAt (p : String) : Bool :=
      (seen.files.find? seen.directory p true).any (isProgramFile seen.files)
    let path := if name.toList.contains '/' then name
      else ((s.searchPaths name).find? isFileAt).getD name
    if seen.files.hasDirectory seen.directory path then Builtin.failWith (path ++ ": is a directory") 1
    match ← act (Act.openFile path .read) with
    | .error e => do
      let reason := e.reason
      warnBare (path ++ ": " ++ reason)
      pure 1
    | .ok d =>
      let text := (← act (Act.readAll d)).toOption.getD ""
      act (Act.close d)
      let frame : Frame :=
        { name := "source", script := path, line := s.line, isFunction := false }
      set { s with
        arguments := if more.isEmpty then s.arguments else more
        frames := frame :: s.frames, script := path, nesting := s.nesting + 1, running := none }
      andFinally (discard (r.runText {} none 1 text)) (do
        modify fun t => { t with
          arguments := if more.isEmpty then t.arguments else s.arguments
          frames := s.frames, script := s.script, nesting := s.nesting, line := s.line
          skip := match t.skip with
            | .leaveFunction _ => .nothing
            | skip => skip }
        r.react State.returning)
      pure (← get).status

/-- Runs a text as a part of this script. -/
def evaluate (r : Runner) (mode : Mode) (args : List String) : Action Nat := do
  let (_, rest) ← Builtin.options "" args
  if rest.isEmpty then pure 0
  else
    let s ← get
    modify fun s => { s with nesting := s.nesting + 1, running := none }
    andFinally (r.runText { tested := mode.tested } (some "eval") s.lineAhead (join " " rest))
      (modify fun t => { t with nesting := s.nesting })

/-- Carries out a command of the shell. -/
def builtin (r : Runner) (mode : Mode) (name : String) (args : List Builtin.Argument) : Action Nat := do
  let outer := (← get).running
  modify fun s => { s with running := some name }
  let texts := args.map Builtin.Argument.plain
  let run : Action Nat := match name with
    | "eval" => r.evaluate mode texts
    | "." | "source" => r.source texts
    | "exec" => exec texts
    | "exit" => Builtin.exit texts
    | "return" => Builtin.leaveFunction texts
    | "break" => Builtin.skipLoops texts .leaveLoops
    | "continue" => Builtin.skipLoops texts .repeatLoop
    | name =>
      match List.lookup name Builtin.declaring with
      | some f => f args
      | none => ((List.lookup name Builtin.plain).map (· texts)).getD (pure 0)
  andFinally (orElse run fun b =>
    match b with
    | .refusal => do pure (← get).status
    | b => throw b) (modify fun s => { s with running := outer })

/-- Runs what the words of a command stand for. -/
def target (r : Runner) (mode : Mode) : Nat → Search → List Builtin.Argument → Action Nat
  | 0, _, _ => pure 0
  | fuel + 1, search, argv => do
    let name := (argv.head?.map Builtin.Argument.plain).getD ""
    let args := argv.drop 1
    let s ← get
    match if search.withFunctions then s.function? name else none with
    | some f => r.call mode f (args.map Builtin.Argument.plain)
    | none =>
      if name = "builtin" then
        match args with
        | [] => pure 0
        | a :: _ =>
          if builtinNames.contains a.plain then
            r.target mode fuel { search with withFunctions := false, withPrograms := false } args
          else
            modify fun s => { s with running := some name }
            let status ← complain (a.plain ++ ": not a shell builtin") 1
            modify fun s => { s with running := none }
            pure status
      else if name = "command" then
        modify fun s => { s with running := some name }
        let read : Action (Option (List (Char × String) × List String)) :=
          orElse (do pure (some (← Builtin.options "pvV" (args.map Builtin.Argument.plain)))) fun b =>
            match b with
            | .refusal => pure none
            | b => throw b
        match ← read with
        | none =>
          modify fun s => { s with running := none }
          pure (← get).status
        | some (letters, rest) =>
          let isUsual := Builtin.hasLetter letters 'p'
          if Builtin.hasLetter letters 'v' || Builtin.hasLetter letters 'V' then
            let status ← Builtin.explain (Builtin.hasLetter letters 'V') isUsual rest
            modify fun s => { s with running := none }
            pure status
          else
            modify fun s => { s with running := none }
            if rest.isEmpty then pure 0
            else
              r.target mode fuel { search with withFunctions := false, isUsual }
                (args.drop (args.length - rest.length))
      else if builtinNames.contains name then r.builtin mode name args
      else program mode search (argv.map Builtin.Argument.plain)

def assignAll (r : Runner) : List Assignment → Action Unit
  | [] => pure ()
  | a :: rest => do
    let g ← r.given a
    if !(← mayChange g.name) then
      setStatus 1
      throw .error
    r.trace g.shown
    if !(← g.carryOut) then
      setStatus 1
      throw .error
    r.assignAll rest

/-- Carries out assignments for one command, each of which is seen by those behind it. -/
def lend (r : Runner) : List Assignment → Action Unit
  | [] => pure ()
  | a :: rest => do
    let g ← r.given a
    match g.subscript, g.value with
    | none, .text t =>
      if ← mayChange g.name then
        r.trace g.shown
        let s ← get
        let old := OrderedMap.get? g.name s.bindings
        let before := if g.appends then (old.bind (·.text?)).getD "" else ""
        modify fun s => { s with
          found := if g.name = "PATH" then [] else s.found
          scopes := s.scopes.modifyHead fun c =>
            { c with bindings := (g.name, old) :: c.bindings } }
        modify fun s => s.putVariable g.name (some { value := some (before ++ t), exported := true })
    | _, _ => warn (Builtin.invalidName g.target)
    r.lend rest

/-- Runs a command whose words have been expanded. -/
def expanded (r : Runner) (mode : Mode) (argv : List Builtin.Argument) (assignments : List Assignment)
    (redirects : List Redirect) : Action Nat := do
  let depth := (← get).scopes.length
  if !assignments.isEmpty then modify fun s => { s with scopes := {} :: s.scopes }
  andFinally (do
    r.lend assignments
    each (fun (a : Builtin.Argument) => match a with
      | .given g => match g.value with
        | .elements items => r.trace (g.target ++ g.sign ++ "(" ++
            join " " (items.map fun i => Quoting.always i.plain) ++ ")")
        | .text _ => pure ()
      | .text _ => pure ()) argv
    r.trace (join " " (argv.map fun a => Quoting.traced a.plain))
    let isExec := (argv.head?.map Builtin.Argument.plain) = some "exec"
    let went ← if redirects.isEmpty then pure true else r.redirects true redirects
    let lead (stays : Bool) : Action Unit :=
      if redirects.isEmpty then pure () else leadBack stays
    if !went then
      lead false
      pure 1
    else
      let last := (argv.getLast?.map Builtin.Argument.plain).getD ""
      let mode := { mode with exits := mode.exits && redirects.isEmpty }
      let status ← orElse (r.target mode 16 {} argv) fun b => do
        if !isExec then lead false
        throw b
      lead isExec
      modify fun s => { s with lastWord := last }
      pure status) (closeScopes depth Act.patience)

/-- Runs a command that consists of words, with assignments and redirections. -/
def simple (r : Runner) (mode : Mode) (c : Command) (line : Nat) (assignments : List Assignment)
    (words : List Word) (redirects : List Redirect) : Action Nat := do
  atLine line c
  modify fun s => { s with innerStatus := 0 }
  r.react State.eachCommand
  let channels := (← get).channels.length
  andFinally (do
    let argv ← r.arguments words
    if argv.isEmpty then
      r.assignAll assignments
      modify fun s => { s with lastWord := "" }
      let went ← if redirects.isEmpty then pure true else r.redirects true redirects
      if !redirects.isEmpty then leadBack false
      let s ← get
      pure (if went then s.innerStatus else 1)
    else r.expanded mode argv assignments redirects) (closeChannels channels)

/-- Runs a command in a shell of its own, and perhaps in the background; what is shown of it may be
more. -/
def subshell (r : Runner) (mode : Mode) (isBackground : Bool) (shown c : Command)
    (redirects : List Redirect) : Action Nat := do
  let run : Action Empty := do
    orElse (do
      let went ← if redirects.isEmpty then pure true else r.redirects false redirects
      if went then r.eval { exits := true, tested := mode.tested && !isBackground } c
      else setStatus 1) fun _ => pure ()
    r.leave
  let child ← fork do
    becomeInner
    if isBackground then becomeBackground true
    run
  if isBackground then
    startJob [child] [shown]
    pure 0
  else do pure (lastStatus (← waitForAll [(child, shown)]))

/-- Starts the commands of a pipeline. The first of them reads from a descriptor, if there is one;
the numbers of those that have been started stand backwards. What the last one writes can be left to
be read. -/
def stages (r : Runner) (mode : Mode) (isBackground isOpen : Bool) :
    Option Nat → List Nat → List Command → Action (List Nat × Option Nat)
  | reading, started, [] => pure (started.reverse, reading)
  | reading, started, c :: rest => do
    let next : Option (Nat × Nat) ← if rest.isEmpty && !isOpen then pure none else do
      pure (some (← ask .pipe))
    let child ← fork do
      becomeInner
      if isBackground then becomeBackground started.isEmpty
      if let some (d, _) := next then act (Act.close d)
      if let some d := reading then moveTo d 0
      if let some (_, d) := next then moveTo d 1
      r.runInner { exits := true, tested := mode.tested } c
    if let some d := reading then act (Act.close d)
    if let some (_, d) := next then act (Act.close d)
    r.stages mode isBackground isOpen (next.map (·.1)) (child :: started) rest

/-- Runs a command that reads from a descriptor, which is given up, in this shell. -/
def readingFrom (r : Runner) (mode : Mode) (descriptor : Nat) (c : Command) : Action Nat := do
  let kept : Except FileError Nat ← ask (.keep 0 leastNamed)
  moveTo descriptor 0
  andFinally (r.eval { tested := mode.tested } c) do
    match kept with
    | .ok n => moveTo n 0
    | .error _ => act (Act.close 0)
  pure (← get).status

/-- Runs commands beside each other, each of which reads what the one in front of it writes. The
last of them can be run in this shell. -/
def pipeline (r : Runner) (mode : Mode) (isBackground : Bool) (cs : List Command) :
    Action Nat := do
  let s ← get
  let isOwn := !isBackground && s.hasFeature "lastpipe" && !s.has "monitor"
  let beside := if isOwn then cs.dropLast else cs
  let (programs, reading) ← r.stages mode isBackground isOwn none [] beside
  if isBackground then
    startJob programs cs
    pure 0
  else
    let last : List Nat ← match reading, cs.getLast? with
      | some d, some c => do pure [← r.readingFrom mode d c]
      | _, _ => pure []
    let statuses := (← waitForAll (programs.zip beside)) ++ last
    modify fun s => { s with pipeStatus := statuses }
    let failed := statuses.reverse.find? fun n => n != 0
    pure (if (← get).has "pipefail" then failed.getD 0 else lastStatus statuses)

/-- The status of a condition or of an expression, which is wrong if nothing can be worked out. -/
def judged (x : Action Nat) : Action Nat :=
  orElse x fun b => do
    match b with
    | .exit => throw b
    | _ => pure (← get).status

def command (r : Runner) (mode : Mode) (c : Command) : Action Unit := do
  let within : Mode := { tested := mode.tested }
  let tested : Mode := { tested := true }
  let settled (isChecked : Bool) (x : Action Nat) : Action Unit := do
    let status ← x
    setStatus status
    r.settle mode isChecked status
  /- A command that counts as a pipeline of its own. -/
  let alone (x : Action Nat) : Action Unit := settled true do
    let status ← x
    modify fun s => { s with pipeStatus := [status] }
    pure status
  let nothingMore : Action Unit := r.settle mode false 0
  let loop (x : Action Nat) : Action Nat := do
    modify fun s => { s with loops := s.loops + 1 }
    andFinally x leaveLoop
  if (← get).has "noexec" then nothingMore
  else
    match c with
    | .nothing => nothingMore
    | c =>
      ask .tick
      r.takeSignals
      match c with
      | .nothing => nothingMore
      | .simple line assignments words redirects _ =>
        alone (r.simple mode c line assignments words redirects)
      | .group c => r.eval mode c
      | .pipeline cs => settled true (r.pipeline mode false cs)
      | .background (.pipeline cs) => settled true (r.pipeline mode true cs)
      | .background (.subshell line inner rs) =>
        atLine line c
        settled true (r.subshell mode true (.subshell line inner rs) inner rs)
      | .background c => settled true (r.subshell mode true c c [])
      | .subshell line inner rs =>
        atLine line c
        alone (r.subshell mode false c inner rs)
      | .negated c => settled false do
        r.eval tested c
        pure (if (← get).status = 0 then 1 else 0)
      | .timed isShort c => settled false do
        r.eval within c
        let status := (← get).status
        let line (name : String) : String :=
          if isShort then name ++ " 0.00\n" else name ++ "\t0m0.000s\n"
        print 2 ((if isShort then "" else "\n") ++ String.join (["real", "user", "sys"].map line))
        pure status
      | .redirected line c rs => settled false do
        modify fun s => { s with line := (s.lineShift + line).toNat }
        let channels := (← get).channels.length
        andFinally (do
          let went ← r.redirects true rs
          let status ← if went then do
              andFinally (r.eval within c) (leadBack false)
              pure (← get).status
            else do
              leadBack false
              pure 1
          pure status) (closeChannels channels)
      | .sequence first second =>
        r.eval within first
        if (← get).skip = .nothing then r.eval mode second else nothingMore
      | .both left right =>
        r.eval tested left
        let s ← get
        if s.status = 0 && s.skip = .nothing then r.eval mode right else nothingMore
      | .either left right =>
        r.eval tested left
        let s ← get
        if s.status != 0 && s.skip = .nothing then r.eval mode right else nothingMore
      | .conditional condition yes no =>
        r.eval tested condition
        let s ← get
        if s.skip != .nothing then nothingMore
        else if s.status = 0 then r.eval mode yes
        else
          match no with
          | some no => r.eval mode no
          | none => settled false (pure 0)
      | .loop negated condition body => settled false do
        loop (r.rounds negated condition body within Act.patience 0)
      | .forEach line name words body => settled false do
        atLine line c
        let shown := join " " ("for" :: name :: "in" :: words.map Written.ofWord)
        if !isName name then
          warn (Builtin.invalidName name)
          pure 1
        else
          let channels := (← get).channels.length
          let texts ← r.words words
          loop (andFinally (r.passes c shown name body within line 0 texts)
            (closeChannels channels))
      | .count line start condition step body => settled false do
        atLine line c
        judged do
          let _ ← r.loopNumber start
          loop (r.countRounds condition step body within Act.patience 0)
      | .select line name words body => settled false do
        atLine line c
        let shown := join " " ("select" :: name :: "in" :: words.map Written.ofWord)
        if !isName name then
          warn (Builtin.invalidName name)
          pure 1
        else
          let texts ← r.words words
          r.trace shown
          if texts.isEmpty then pure 0
          else loop (r.choices c shown name texts body within line Act.patience true 0)
      | .choice line word arms => settled false do
        atLine line c
        r.react State.eachCommand
        r.trace ("case " ++ Written.ofWord word ++ " in")
        let text ← r.text { tildes := .first } word
        r.choose text within false 0 arms
      | .arithmetic line expression =>
        atLine line c
        alone do
          r.react State.eachCommand
          let text ← r.text {} expression
          r.trace ("(( " ++ text ++ " ))")
          judged do
            let n ← numberOf "((: " text
            pure (if n = 0 then 1 else 0)
      | .check line condition =>
        atLine line c
        alone do
          r.react State.eachCommand
          judged do
            let b ← r.holds (fun text => r.trace ("[[ " ++ text ++ " ]]")) "" condition
            pure (if b then 0 else 1)
      | .function line name body => settled false do
        modify fun s => { s with
          functions := { name, body, script := s.functionScript, lineShift := s.lineShift } ::
            s.functions.filter fun f => f.name != name
          line }
        pure 0

end Runner

/-- The interpreter, which has so much fuel. -/
def runner : Nat → Runner
  | 0 =>
    { eval := fun _ _ => stop (.signal Signal.kill)
      parts := fun _ _ _ => pure []
      runText := fun _ _ _ _ => pure 0 }
  | n + 1 =>
    { eval := fun mode c => (runner n).command mode c
      parts := fun p isFirst w => (runner n).partsOf p isFirst w
      runText := fun mode reading line text => (runner n).text_ mode reading line text }

end PipelineRunner.Shell.Extended
