import PipelineRunner.Shell.Extended.Assigning
import PipelineRunner.Shell.Redirection

/-!
What a shell of the extended language has started: how it waits for programs, and what it tells of
their ends. A job that has ended is forgotten as soon as a program has been waited for; its statuses
are not.
-/

namespace PipelineRunner.Shell.Extended

open Host Text Shell.Action

def stateWord : Option ExitStatus → String
  | none => "Running"
  | some (.code 0) => "Done"
  | some (.code n) => s!"Exit {n}"
  | some (.signal n) => Signal.report n

def besideTexts (word : String) : String :=
  word ++ Bytes.fill ' ' (24 - if word.isEmpty then 2 else word.length)

/-- The lines about the programs of a job, each with its number and its text. What has been said of
the first program is not said again. -/
def programLines (ends : String) (programs : List (Nat × Option ExitStatus × String)) : String :=
  let first := (programs.head?.map fun p => stateWord p.2.1).getD ""
  let line (i : Nat) (number : Nat) (state : Option ExitStatus) (text : String) : String :=
    let shown := stateWord state
    let shown := if i != 0 && shown = first then "" else shown
    let number := toString number
    (if i = 0 then "" else "     ") ++ Bytes.fill ' ' (5 - number.length) ++ number ++ " " ++
      besideTexts shown ++ (if i = 0 then "" else "| ") ++ text ++
      (if i + 1 = programs.length then ends else "") ++ "\n"
  String.join (((List.range programs.length).zip programs).map fun (i, n, s, t) => line i n s t)

/-- The programs of a job with their states and texts. -/
def Job.lines (j : Job) (ends : String) : String :=
  programLines ends (((j.programs.zip (j.texts ++ List.replicate j.programs.length "")).map
    fun ((n, s), t) => (n, s, t)))

/-- What is said of a job that has ended because of a signal, behind a shell's title. -/
def isTold (s : State) (status : ExitStatus) : Bool :=
  match status with
  | .code _ => false
  | .signal n =>
    !([Signal.interrupt, Signal.terminate, Signal.brokenPipe].contains n) && !s.trapped.contains n

/-- Says of programs that one of them, which counts, has been ended by a signal. -/
def tellEnd (status : ExitStatus) (lines : String) : Action Unit := do
  let s ← get
  if isTold s status then
    let running := s.running
    set { s with running := none }
    print 2 ((← get).title ++ ": " ++ lines)
    modify fun s => { s with running }

def noteEnds : Nat → Action Unit
  | 0 => pure ()
  | fuel + 1 => do
    match ← ask (.wait none false) with
    | .ended program status =>
      modify fun s => s.noteEnd program status
      noteEnds fuel
    | _ => pure ()

/-- Forgets the jobs that have ended, but for the statuses of their programs. -/
def forgetEnded : Action Unit := do
  let ended := (← get).jobs.filter fun j => !j.isRunning
  each (fun (j : Job) => tellEnd j.status (Job.lines j "")) ended
  let statuses := ended.flatMap fun j =>
    j.programs.filterMap fun (n, s) => s.map fun s => (n, s.number)
  modify fun s => { s with jobs := s.jobs.filter Job.isRunning, past := statuses ++ s.past }

/-- Waits until all of some programs have ended; the endings so far come first. -/
def waitWithin (programs : List Nat) :
    Nat → List (Nat × ExitStatus) → Action (List ExitStatus)
  | 0, _ => stop (.signal Signal.kill)
  | fuel + 1, ended => do
    let statuses := programs.map fun p => (List.lookup p ended).getD (.code 0)
    if programs.all fun p => ended.any fun e => e.1 == p then pure statuses
    else
      match ← ask (.wait none true) with
      | .ended program status =>
        modify fun s => s.noteEnd program status
        waitWithin programs fuel ((program, status) :: ended)
      | .noChildren => pure statuses
      | _ => waitWithin programs fuel ended

/-- Waits until all of some programs have ended, and yields their statuses. If a signal has ended
the last of them, that is told. -/
def waitForAll (programs : List (Nat × Command)) : Action (List Nat) := do
  let statuses ← waitWithin (programs.map (·.1)) Act.patience []
  match statuses.getLast? with
  | some (.signal n) =>
    let s ← get
    if isTold s (.signal n) then
      tellEnd (.signal n) (programLines "" ((programs.zip statuses).map fun ((p, c), status) =>
        (p, some status, Written.ofCommand c)))
    else if n != Signal.interrupt && n != Signal.brokenPipe then
      print 2 (Signal.report n ++ "\n")
  | _ => pure ()
  noteEnds Act.patience
  forgetEnded
  pure (statuses.map ExitStatus.number)

def lastStatus (statuses : List Nat) : Nat := statuses.getLast?.getD 0

/-- Notes what has been started beside the shell. -/
def startJob (programs : List Nat) (cs : List Command) : Action Unit := modify fun s =>
  let (s, n) := s.addJob programs
  let texts := cs.map Written.ofCommand
  { s with
    jobs := s.jobs.map fun j =>
      if j.number == n then { j with texts, directory := s.directory } else j
    background := programs.getLast? }

/-! ### Redirections

Redirections of the extended language. The word behind an arrow has to be one text when it has been
expanded, and a free descriptor can be asked for. Pipes that commands write to or read from have
paths of their own. -/

open Host Text Shell.Action

def openPath (path : String) (mode : OpenMode) : Action Nat := do
  match ← act (Act.openFile path mode) with
  | .ok d => pure d
  | .error e => do
    let reason := e.reason
    fail (path ++ ": " ++ reason)

/-- Opens what a descriptor is to lead to; that of another descriptor is open already. -/
def openDestination : Destination → Action (Option Nat)
  | .file .read path => do pure (some (← openPath path .read))
  | .file .update path => do pure (some (← openPath path .update))
  | .file .append path => do pure (some (← openPath path .append))
  | .file .replace path => do pure (some (← openPath path .write))
  | .file .write path => do
    if (← get).has "noclobber" then
      let seen ← look
      match seen.files.find? seen.directory path true with
      | some i =>
        if isProgramFile seen.files i then fail (path ++ ": cannot overwrite existing file")
      | none => pure ()
    pure (some (← openPath path .write))
  | .copy source => pure source
  | .document text => do pure (some (← openDocument text))

def freeDescriptor : Nat → Action Nat
  | 0 => pure 0
  | n + 1 => do
    match ← ask (.node (n + 1)) with
    | .ok _ => freeDescriptor n
    | .error _ => pure (n + 1)

/-- The least number of descriptors that are asked for. -/
def leastNamed : Nat := 10

/-- Makes a descriptor lead where another one leads, which is given up. -/
def moveTo (d target : Nat) : Action Unit := do
  if d = target then pure ()
  else
    let _ ← ask (.copy d target)
    act (Act.close d)

/-- The number of a descriptor, and whether it is given up, that a text means. -/
def sourceOf? (text : String) : Option (Nat × Bool) :=
  match digits? text.toList with
  | some n => some (n, false)
  | none =>
    if text.endsWith "-" then (digits? text.toList.dropLast).map (·, true) else none

namespace Runner

/-- The one text that the word behind an arrow stands for. -/
def destination (r : Runner) (w : Word) (written : String) : Action String := do
  match ← r.word w with
  | [t] => pure t
  | _ => fail (written ++ ": ambiguous redirect")

/-- Makes a descriptor the same as another one, or closes it. -/
def leadToSource (saves : Bool) (d : Nat) (text : String) : Action Unit := do
  if text = "-" then leadBy openDestination saves ⟨d, .copy none⟩
  else
    match sourceOf? text with
    | some (n, isMoved) =>
      leadBy openDestination saves ⟨d, .copy (some n)⟩
      if isMoved && n != d then act (Act.close n)
    | none => fail (text ++ ": ambiguous redirect")

/-- Carries out a redirection, of which one can be led back from if it is saved. -/
def redirect (r : Runner) (saves : Bool) : Redirect → Action Unit
  | .file d use w written => do
    let path ← r.destination w written
    leadBy openDestination saves ⟨d, .file use path⟩
  | .copy d w => do leadToSource saves d (← r.text { tildes := .first } w)
  | .merge w written => do
    let text ← r.destination w written
    if text = "-" || (sourceOf? text).isSome then leadToSource saves 1 text
    else
      leadBy openDestination saves ⟨1, .file .write text⟩
      leadBy openDestination saves ⟨2, .copy (some 1)⟩
  | .both use w written => do
    let path ← r.destination w written
    leadBy openDestination saves ⟨1, .file use path⟩
    leadBy openDestination saves ⟨2, .copy (some 1)⟩
  | .document d number => do
    let word := (List.lookup number (← get).documents).getD []
    leadBy openDestination saves ⟨d, .document (← r.text {} word)⟩
  | .line d w => do
    leadBy openDestination saves ⟨d, .document ((← r.text { tildes := .first } w) ++ "\n")⟩
  | .named name inner => do
    let fresh (x : Destination) : Action (Option (Nat × Bool)) := do
      pure ((← openDestination x).map (·, true))
    let opened : Option (Nat × Bool) ← match inner with
      | .file _ use w written | .both use w written => do
        fresh (.file use (← r.destination w written))
      | .document _ number => do
        let word := (List.lookup number (← get).documents).getD []
        fresh (.document (← r.text {} word))
      | .line _ w => do fresh (.document ((← r.text { tildes := .first } w) ++ "\n"))
      | .copy _ w | .merge w _ => do
        let text ← r.text { tildes := .first } w
        match sourceOf? text, ((← get).value? name).bind fun t => digits? t.toList with
        | some source, _ => pure (some source)
        | none, some n => do
          if text != "-" then fail (text ++ ": ambiguous redirect")
          act (Act.close n)
          pure none
        | none, none => fail ((if text = "-" then name else text) ++ ": ambiguous redirect")
      | .named .. => pure none
    match opened with
    | none => pure ()
    | some (d, isGivenUp) =>
      match ← ask (.keep d leastNamed) with
      | .error e => do
        let reason := e.reason
        fail (toString d ++ ": " ++ reason)
      | .ok n =>
        let _ ← ask (.copy d n)
        if isGivenUp then act (Act.close d)
        if ← mayChange name then put name none false (toString n)
        else
          act (Act.close n)
          setStatus 1
          throw .error

/-- Carries out redirections, and tells whether that has been possible. -/
def redirects (r : Runner) (saves : Bool) (rs : List Redirect) : Action Bool :=
  redirecting (each (r.redirect saves) rs)

/-- The path of a pipe that a command writes to, or reads from. The shell keeps the other end as
long as a command runs. -/
def channel (r : Runner) (writes : Bool) (leaving : Action Empty) (c : Command) :
    Action String := do
  let (reading, writing) : Nat × Nat ← ask .pipe
  let (own, theirs, used) := if writes then (reading, writing, 1) else (writing, reading, 0)
  let _ ← fork do
    becomeInner
    act (Act.close own)
    moveTo theirs used
    modify fun s => { s with channels := [] }
    orElse (r.eval { exits := true } c) fun _ => pure ()
    leaving
  act (Act.close theirs)
  let n ← freeDescriptor 63
  moveTo own n
  modify fun s => { s with channels := n :: s.channels }
  pure ("/dev/fd/" ++ toString n)

end Runner

/-- Closes the pipes of commands, but for so many that have been there before. -/
def closeChannels (kept : Nat) : Action Unit := do
  let s ← get
  let new := s.channels.take (s.channels.length - kept)
  each (fun n => act (Act.close n)) new
  modify fun s => { s with channels := s.channels.drop new.length }

end PipelineRunner.Shell.Extended
