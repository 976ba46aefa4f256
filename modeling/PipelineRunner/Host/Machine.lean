import PipelineRunner.Host.Routine

/-!
A host that runs programs beside each other. Programs take turns: one runs until it has to wait for
something, and time passes when all of them wait. Descriptors lead to open files and to pipes, of
which several programs may hold the same one; a pipe that nobody writes to any more is at its end,
and one that nobody reads breaks.
-/

namespace PipelineRunner.Host

/-- What descriptors lead to. -/
inductive OpenFile where
  | file (node offset : Nat) (mode : OpenMode)
  /-- One of the two ends of a pipe, or both. -/
  | pipe (number : Nat) (reads writes : Bool)
  /-- An output that somebody outside of the host reads. -/
  | output (stream : OutputStream)
  deriving DecidableEq, Repr

/-- A pipe. What is in it stands partly in order, and behind that in pieces, the latest first. -/
structure Channel where
  number : Nat
  /-- The node of a pipe that has a name. -/
  node? : Option Nat := none
  front : List Char := []
  back : List String := []
  size : Nat := 0
  /-- How often the ends have been opened by name. -/
  readersSeen : Nat := 0
  writersSeen : Nat := 0
  deriving Repr

namespace Channel

/-- A pipe holds so many bytes. -/
def room : Nat := 65536

def push (c : Channel) (bytes : String) (count : Nat) : Channel :=
  { c with back := bytes :: c.back, size := c.size + count }

/-- The pipe with all that is in it in order. -/
def ordered (c : Channel) : Channel :=
  if c.back.isEmpty then c
  else { c with front := c.front ++ (String.join c.back.reverse).toList, back := [] }

/-- So many characters, up to the first `stop` if there is one, and those behind it. -/
def split (stop : Option Char) : Nat → List Char → List Char → List Char × List Char
  | 0, taken, rest => (taken.reverse, rest)
  | _, taken, [] => (taken.reverse, [])
  | most + 1, taken, c :: rest =>
    if some c = stop then ((c :: taken).reverse, rest) else split stop most (c :: taken) rest

def pull (c : Channel) (most : Nat) (stop : Option Char) : String × Channel :=
  let enough := match stop with
    | some stop => c.front.contains stop
    | none => false
  let c := if enough then c else c.ordered
  let (taken, rest) := split stop most [] c.front
  (String.ofList taken, { c with front := rest, size := c.size - taken.length })

end Channel

/-- A descriptor of a program. -/
structure Descriptor where
  number : Nat
  /-- The number of the open file that it leads to. -/
  target : Nat
  /-- Whether a program that is run instead of this one does not get it. -/
  isOwn : Bool := false
  deriving DecidableEq, Repr

/-- How far a program has come. -/
inductive Standing where
  | running (routine : Routine)
  | asleep (due : Nat) (next : Unit → Routine)
  /-- It waits for somebody to open the other end of a pipe, which has been opened `seen` times. -/
  | joining (channel : Nat) (writes : Bool) (seen : Nat) (next : Unit → Routine)
  | ended (status : ExitStatus)

/-- A program on the host. -/
structure Task where
  number : Nat
  parent : Nat
  /-- The number of its group, of which signals can be told together. -/
  group : Nat
  standing : Standing
  descriptors : List Descriptor
  directory : Nat
  /-- The bits that new files do not get. -/
  mask : Nat := 0o022
  dispositions : List (Nat × Disposition) := []
  /-- The signals that have come and that it catches. -/
  caught : List Nat := []
  /-- Whether a signal has come while it waited for something. -/
  interrupted : Bool := false
  /-- Whether it has been stopped for a while. -/
  frozen : Bool := false
  /-- How much it has done since it last took time. -/
  ticks : Nat := 0

/-- What a program is called with. -/
structure Call where
  argv : List String
  environment : List (String × String)

/-- A host that runs programs. -/
structure Machine where
  /-- What the programs do that the host brings with it. -/
  load : String → Call → Routine
  files : FileTree
  /-- Whether the files have been changed since somebody outside has seen them. -/
  changed : Bool := false
  tasks : List Task
  /-- The number of the program that runs. -/
  current : Nat
  openFiles : List (Nat × OpenFile)
  channels : List Channel := []
  /-- A number that nothing has. -/
  fresh : Nat
  /-- The ending of the first program, if nobody outside knows of it. -/
  ending : Option ExitStatus := none
  /-- The outputs that somebody may still write to. -/
  outputs : List OutputStream := [.stdout, .stderr]

namespace Task

def disposition (t : Task) (signal : Nat) : Disposition :=
  (List.lookup signal t.dispositions).getD .default

/-- The open file that a descriptor leads to. -/
def target? (t : Task) (descriptor : Nat) : Option Nat :=
  (t.descriptors.find? fun d => d.number == descriptor).map (·.target)

/-- The lowest free descriptor from a number on. -/
def freeFrom (t : Task) : Nat → Nat → Nat
  | 0, n => n
  | fuel + 1, n => if (t.target? n).isSome then t.freeFrom fuel (n + 1) else n

def free (t : Task) (least : Nat) : Nat := t.freeFrom (t.descriptors.length + 1) least

/-- Makes a descriptor lead to an open file. -/
def lead (t : Task) (descriptor target : Nat) (isOwn : Bool) : Task :=
  let others := t.descriptors.filter fun d => d.number != descriptor
  { t with descriptors := ⟨descriptor, target, isOwn⟩ :: others }

def drop (t : Task) (descriptor : Nat) : Task :=
  { t with descriptors := t.descriptors.filter fun d => d.number != descriptor }

def go (t : Task) (routine : Routine) : Task :=
  { t with standing := .running routine, interrupted := false }

def hasEnded (t : Task) : Bool :=
  match t.standing with
  | .ended _ => true
  | _ => false

end Task

/-- What comes of a turn. -/
inductive Turn where
  | went (m : Machine)
  | writes (stream : OutputStream) (bytes : String) (next : Bool → Machine)
  | waits

namespace Machine

def task? (m : Machine) (number : Nat) : Option Task :=
  m.tasks.find? fun t => t.number == number

def putTask (m : Machine) (t : Task) : Machine :=
  { m with tasks := m.tasks.map fun u => if u.number == t.number then t else u }

def putFile (m : Machine) (number : Nat) (f : OpenFile) : Machine :=
  { m with openFiles := m.openFiles.map fun e => if e.1 == number then (number, f) else e }

def channel? (m : Machine) (number : Nat) : Option Channel :=
  m.channels.find? fun c => c.number == number

def putChannel (m : Machine) (c : Channel) : Machine :=
  { m with channels := m.channels.map fun d => if d.number == c.number then c else d }

def putFiles (m : Machine) (files : FileTree) : Machine := { m with files, changed := true }

def addFile (m : Machine) (f : OpenFile) : Machine × Nat :=
  ({ m with openFiles := m.openFiles ++ [(m.fresh, f)], fresh := m.fresh + 1 }, m.fresh)

/-- Forgets the open files that no descriptor leads to any more, and the pipes that no open file is
an end of. -/
def settle (m : Machine) : Machine :=
  let isHeld (number : Nat) : Bool :=
    m.tasks.any fun t => t.descriptors.any fun d => d.target == number
  let openFiles := m.openFiles.filter fun e => isHeld e.1
  let channels := m.channels.filter fun c => openFiles.any fun
    | (_, .pipe n _ _) => n == c.number
    | _ => false
  { m with openFiles, channels }

/-- Whether an end of a pipe is open. -/
def hasEnd (m : Machine) (channel : Nat) (writes : Bool) : Bool :=
  m.openFiles.any fun
    | (_, .pipe n reads writing) => n == channel && (if writes then writing else reads)
    | _ => false

def hasOutput (m : Machine) (stream : OutputStream) : Bool :=
  m.openFiles.any fun e => e.2 == .output stream

/-- What a signal does that has come for a program. -/
inductive Effect where
  | none
  | ends
  | freezes
  | thaws
  | notes

def effect (t : Task) (signal : Nat) : Effect :=
  if signal = Signal.kill then .ends
  else if signal = 18 then .thaws
  else
    match t.disposition signal with
    | .ignored => .none
    | .caught => .notes
    | .default =>
      if Signal.isHarmless signal then .none
      else if Signal.stops signal then .freezes
      else .ends

/-- Whether a program waits for something, if it is not its turn. -/
def waits (t : Task) : Bool :=
  match t.standing with
  | .running (.ask (.read ..) _) | .running (.ask (.write ..) _) | .running (.ask (.wait ..) _)
  | .running (.ask .pause _) | .asleep .. | .joining .. => true
  | _ => false

/-- Tells a program of a signal that it catches. -/
def noted (m : Machine) (t : Task) (signal : Nat) : Task :=
  { t with
    caught := if t.caught.contains signal then t.caught else t.caught ++ [signal]
    interrupted := t.interrupted || (t.number != m.current && waits t) }

/-- The first program on the host. -/
def first : Nat := 1000

/-- Who cares for programs whose starter has ended. -/
def nobody : Nat := 1

/-- Ends a program: its descriptors are closed, nobody waits for what it has started, and the one
that has started it is told. -/
def finish (m : Machine) (number : Nat) (status : ExitStatus) : Machine :=
  match m.task? number with
  | none => m
  | some t =>
    let ended := { t with standing := .ended status, descriptors := [], frozen := false }
    let m := m.putTask ended
    let tasks := m.tasks.map fun u =>
      if u.parent == number then { u with parent := nobody }
      else if u.number == t.parent && u.disposition Signal.childEnded == .caught then
        m.noted u Signal.childEnded
      else u
    let tasks := tasks.filter fun u => !(u.hasEnded && u.parent == nobody)
    let m := { m with tasks }.settle
    if number = first then { m with ending := some status } else m

def signal (m : Machine) (number signal : Nat) : Machine :=
  match m.task? number with
  | none => m
  | some t =>
    if t.hasEnded || signal = 0 then m
    else
      match effect t signal with
      | .none => m
      | .ends => m.finish number (.signal signal)
      | .freezes => m.putTask { t with frozen := true }
      | .thaws =>
        let t := { t with frozen := false }
        m.putTask (if t.disposition signal == .caught then m.noted t signal else t)
      | .notes => m.putTask (m.noted t signal)

/-- Signals all programs of a kind, the one that does so last. -/
def signalAll (m : Machine) (isMeant : Task → Bool) (signal : Nat) : Except FileError Machine :=
  let (own, others) := (m.tasks.filter isMeant).partition fun t =>
    t.number == m.current
  if own.isEmpty && others.isEmpty then .error .noSuchProcess
  else .ok ((others ++ own).foldl (fun m t => m.signal t.number signal) m)

def sendSignal (m : Machine) (target : Int) (signal : Nat) : Except FileError Machine :=
  match target with
  | .ofNat (n + 1) =>
    if (m.task? (n + 1)).isSome then .ok (m.signal (n + 1) signal) else .error .noSuchProcess
  | .ofNat 0 =>
    let group? := (m.task? m.current).map (·.group)
    m.signalAll (fun t => some t.group == group?) signal
  | .negSucc 0 => m.signalAll (fun t => t.number != m.current) signal
  | .negSucc n => m.signalAll (fun t => t.group == n + 1) signal

def longestArgument : Nat := 131071

/-- The greatest length of all arguments. -/
def mostArguments : Nat := 2000000

/-- What stands behind the mark of a script on its first line: the program that runs it, and perhaps
one argument. -/
def scriptRunner (bytes : String) : String × List String :=
  let line := ((Text.Bytes.drop 2 bytes).toList.takeWhile (· != '\n')).dropWhile fun c =>
    c == ' ' || c == '\t'
  let name := line.takeWhile fun c => c != ' ' && c != '\t'
  let rest := (line.drop name.length).dropWhile fun c => c == ' ' || c == '\t'
  let rest := (rest.reverse.dropWhile fun c => c == ' ' || c == '\t').reverse
  (String.ofList name, if rest.isEmpty then [] else [String.ofList rest])

/-- The program of the host that a path stands for in a directory, and its arguments. -/
def programAt (files : FileTree) (directory : Nat) :
    Nat → String → List String → Except FileError (String × List String)
  | 0, _, _ => .error .tooManyLinks
  | fuel + 1, path, argv => do
    let i ← files.find directory path true
    match files.content i with
    | .program name => pure (name, argv)
    | .file bytes =>
      if (files.node i).mode &&& 0o111 = 0 then throw .permissionDenied
      if bytes.startsWith "#!" then
        let (runner, option) := scriptRunner bytes
        if runner.isEmpty then throw .execFormat
        programAt files directory fuel runner (runner :: option ++ path :: argv.drop 1)
      else throw .execFormat
    | _ => throw .permissionDenied

/-- What is to run when a path is executed in a directory. -/
def image (load : String → Call → Routine) (files : FileTree) (directory : Nat) (path : String)
    (call : Call) : Except FileError Routine := do
  let settings := call.environment.map fun (name, value) => name ++ "=" ++ value
  let texts := call.argv ++ settings
  if texts.any fun a => longestArgument < a.length then throw .argumentsTooLong
  if mostArguments < texts.foldl (fun n a => n + a.length + 9) 0 then throw .argumentsTooLong
  let (name, argv) ← programAt files directory 6 path call.argv
  pure (load name { call with argv })

/-- Bytes without any order, from a place on. -/
def noise (offset count : Nat) : String :=
  String.ofList ((List.range count).map fun i =>
    Char.ofNat (((offset + i) * 167 + (offset + i) / 256 * 59 + 13) % 256))

/-- The bytes of a text from a place on, up to the first `stop`. -/
def cut (bytes : String) (offset most : Nat) (stop : Option Char) : String :=
  if offset = 0 && stop.isNone && bytes.utf8ByteSize ≤ most then bytes
  else String.ofList (Channel.split stop most [] (bytes.toList.drop offset)).1

/-- The bytes with others in place of those from a place on. -/
def overwrite (bytes : String) (offset : Nat) (new : String) : String :=
  let length := bytes.length
  if offset = length then bytes ++ new
  else if length < offset then bytes ++ Text.Bytes.fill (Char.ofNat 0) (offset - length) ++ new
  else
    Text.Bytes.take offset bytes ++ new ++ Text.Bytes.drop (offset + new.length) bytes

/-- Reads from an open file; nothing if that has to wait. -/
def readFrom (m : Machine) (number most : Nat) (stop : Option Char) :
    Option (Except FileError String × Machine) :=
  match List.lookup number m.openFiles with
  | some (.file node offset mode) =>
    if !([.read, .update].contains mode) then some (.error .badDescriptor, m)
    else
      let got (bytes : String) : Option (Except FileError String × Machine) :=
        some (.ok bytes, m.putFile number (.file node (offset + bytes.length) mode))
      match m.files.content node with
      | .file bytes => got (cut bytes offset most stop)
      | .program name => got (cut ("\x7fELF" ++ name) offset most stop)
      | .device .zero | .device .full => got (Text.Bytes.fill (Char.ofNat 0) most)
      | .device .noise => got (noise offset most)
      | .directory .. => some (.error .isDirectory, m)
      | _ => some (.ok "", m)
  | some (.pipe n reads _) =>
    if !reads then some (.error .badDescriptor, m)
    else
      match m.channel? n with
      | none => some (.ok "", m)
      | some c =>
        if 0 < c.size then
          let (bytes, c) := c.pull most stop
          some (.ok bytes, m.putChannel c)
        else if m.hasEnd n true then none
        else some (.ok "", m)
  | _ => some (.error .badDescriptor, m)

/-- What writing to an open file comes to. -/
inductive Written where
  | done (m : Machine)
  | refused (e : FileError)
  /-- Only so much of it has been written so far. -/
  | partly (m : Machine) (rest : String)
  | outside (stream : OutputStream)

def writeTo (m : Machine) (number : Nat) (bytes : String) : Written :=
  match List.lookup number m.openFiles with
  | some (.file node offset mode) =>
    if mode = .read then .refused .badDescriptor
    else
      match m.files.content node with
      | .file old =>
        let place := if mode = .append then old.length else offset
        let m := m.putFiles (m.files.put node (.file (overwrite old place bytes)))
        .done (m.putFile number (.file node (place + bytes.length) mode))
      | .device .full => .refused .noSpace
      | _ => .done m
  | some (.pipe n _ writes) =>
    if !writes then .refused .badDescriptor
    else
      match m.channel? n with
      | none => .refused .brokenPipe
      | some c =>
        let count := bytes.length
        if !m.hasEnd n false then .refused .brokenPipe
        else if c.size + count ≤ Channel.room then .done (m.putChannel (c.push bytes count))
        else
          let fits := Channel.room - c.size
          if fits = 0 || count ≤ 4096 then .partly m bytes
          else
            .partly (m.putChannel (c.push (Text.Bytes.take fits bytes) fits))
              (Text.Bytes.drop fits bytes)
  | some (.output stream) => .outside stream
  | none => .refused .badDescriptor

/-- The pipe of a node that is one. -/
def namedChannel (m : Machine) (node : Nat) : Machine × Channel :=
  match m.channels.find? fun c => c.node? == some node with
  | some c => (m, c)
  | none =>
    let c : Channel := { number := m.fresh, node? := some node }
    ({ m with channels := m.channels ++ [c], fresh := m.fresh + 1 }, c)

/-- What opening a file yields: an open file, or one that has to wait for its other end. -/
inductive Opened where
  | file (f : OpenFile)
  | end (channel : Nat) (reads writes : Bool)

def openNode (m : Machine) (t : Task) (node : Nat) (mode : OpenMode) :
    Except FileError (Machine × Opened) := do
  match m.files.content node with
  | .directory .. =>
    if mode = .read then pure (m, .file (.file node 0 mode)) else throw .isDirectory
  | .device .terminal => throw .noSuchDevice
  | .device (.descriptor n) =>
    match (t.target? n).bind fun target => List.lookup target m.openFiles with
    | none => throw .notFound
    | some (.file node _ _) => pure (m, .file (.file node 0 mode))
    | some f => pure (m, .file f)
  | .pipe =>
    let (m, c) := m.namedChannel node
    pure (m, .end c.number (mode == .read || mode == .update) (mode != .read))
  | .file _ =>
    if mode = .new then throw .alreadyThere
    let m := if mode = .write then m.putFiles (m.files.put node (.file "")) else m
    pure (m, .file (.file node 0 mode))
  | .program _ => if mode = .read then pure (m, .file (.file node 0 mode)) else throw .busy
  | _ => pure (m, .file (.file node 0 mode))

/-- Opens a file, and makes it where it may be missing. -/
def openAt (m : Machine) (t : Task) (path : String) (mode : OpenMode) :
    Except FileError (Machine × Opened) := do
  let s ← m.files.spot t.directory path (mode != .new)
  match s.node? with
  | some node =>
    if mode = .new then throw .alreadyThere
    if path.endsWith "/" && !m.files.isDirectory node then throw .notDirectory
    m.openNode t node mode
  | none =>
    if mode = .read || mode = .overwrite then throw .notFound
    if path.endsWith "/" then throw .isDirectory
    let bits := 0o666 &&& (0o777 ^^^ t.mask)
    let (files, node) := m.files.create s.parent s.name (.file "") bits
    pure (m.putFiles files, .file (.file node 0 mode))

def resume (m : Machine) (number : Nat) (routine : Routine) : Machine :=
  match m.task? number with
  | some t => m.putTask (t.go routine)
  | none => m

/-- Gives an open file the lowest free descriptor of a program. -/
def give (m : Machine) (t : Task) (f : OpenFile) : Machine × Task × Nat :=
  let (m, target) := m.addFile f
  let d := t.free 0
  (m, t.lead d target false, d)

def answerOpen (m : Machine) (t : Task) (path : String) (mode : OpenMode)
    (next : Except FileError Nat → Routine) : Turn :=
  match m.openAt t path mode with
  | .error e => .went (m.putTask (t.go (next (.error e))))
  | .ok (m, .file f) =>
    let (m, t, d) := m.give t f
    .went (m.putTask (t.go (next (.ok d))))
  | .ok (m, .end n reads writes) =>
    let (m, t, d) := m.give t (.pipe n reads writes)
    match m.channel? n with
    | none => .went (m.putTask (t.go (next (.ok d))))
    | some c =>
      let seen := if writes then c.readersSeen else c.writersSeen
      let c := { c with
        readersSeen := c.readersSeen + (if reads then 1 else 0)
        writersSeen := c.writersSeen + (if writes then 1 else 0) }
      let m := m.putChannel c
      if reads && writes then .went (m.putTask (t.go (next (.ok d))))
      else
        let t := { t with standing := .joining n writes seen fun _ => next (.ok d) }
        .went (m.putTask t)

def seekTo (m : Machine) (number : Nat) (offset : Int) (origin : Origin) :
    Except FileError (Machine × Nat) :=
  match List.lookup number m.openFiles with
  | some (.file node here mode) =>
    let size : Nat := match m.files.content node with
      | .file bytes => bytes.length
      | _ => 0
    let base : Int := match origin with
      | .start => 0
      | .here => here
      | .ending => size
    let place := base + offset
    if place < 0 then .error .invalidArgument
    else .ok (m.putFile number (.file node place.toNat mode), place.toNat)
  | some _ => .error .illegalSeek
  | none => .error .badDescriptor

/-- What has become of those that a program has started. -/
def waitFor (m : Machine) (t : Task) (child : Option Nat) : Option (Waited × Machine) :=
  let mine := m.tasks.filter fun u =>
    u.parent == t.number && (child.all fun n => u.number == n)
  let ended := mine.findSome? fun u =>
    match u.standing with
    | .ended status => some (u.number, status)
    | _ => none
  match ended with
  | some (n, status) =>
    some (.ended n status, { m with tasks := m.tasks.filter fun u => u.number != n })
  | none => if mine.isEmpty then some (.noChildren, m) else none

def ticksPerMillisecond : Nat := 1000

def answer (m : Machine) (t : Task) : (r : Request) → (r.Answer → Routine) → Turn
  | .read d most stop, next =>
    match t.target? d with
    | none => .went (m.putTask (t.go (next (.error .badDescriptor))))
    | some target =>
      match m.readFrom target most stop with
      | some (result, m) => .went (m.putTask (t.go (next result)))
      | none =>
        if t.interrupted then .went (m.putTask (t.go (next (.error .interrupted)))) else .waits
  | .write d bytes, next =>
    match t.target? d with
    | none => .went (m.putTask (t.go (next (.error .badDescriptor))))
    | some target =>
      match m.writeTo target bytes with
      | .done m => .went (m.putTask (t.go (next (.ok ()))))
      | .refused .brokenPipe =>
        match effect t Signal.brokenPipe with
        | .ends => .went (m.finish t.number (.signal Signal.brokenPipe))
        | .notes =>
          .went (m.putTask ((m.noted t Signal.brokenPipe).go (next (.error .brokenPipe))))
        | _ => .went (m.putTask (t.go (next (.error .brokenPipe))))
      | .refused e => .went (m.putTask (t.go (next (.error e))))
      | .partly m rest =>
        if rest.utf8ByteSize < bytes.utf8ByteSize then
          .went (m.putTask (t.go (.ask (.write d rest) next)))
        else .waits
      | .outside stream =>
        .writes stream bytes fun isRead =>
          if isRead then m.putTask (t.go (next (.ok ())))
          else
            match effect t Signal.brokenPipe with
            | .ends => m.finish t.number (.signal Signal.brokenPipe)
            | .notes => m.putTask ((m.noted t Signal.brokenPipe).go (next (.error .brokenPipe)))
            | _ => m.putTask (t.go (next (.error .brokenPipe)))
  | .openFile path mode, next => m.answerOpen t path mode next
  | .close d, next =>
    if (t.target? d).isSome then .went (m.putTask ((t.drop d).go (next (.ok ())))).settle
    else .went (m.putTask (t.go (next (.error .badDescriptor))))
  | .copy d target, next =>
    match t.target? d with
    | none => .went (m.putTask (t.go (next (.error .badDescriptor))))
    | some file =>
      let t := if d = target then t else t.lead target file false
      .went (m.putTask (t.go (next (.ok ())))).settle
  | .keep d least, next =>
    match t.target? d with
    | none => .went (m.putTask (t.go (next (.error .badDescriptor))))
    | some file =>
      let n := t.free least
      .went (m.putTask ((t.lead n file true).go (next (.ok n))))
  | .pipe, next =>
    let c : Channel := { number := m.fresh }
    let m := { m with channels := m.channels ++ [c], fresh := m.fresh + 1 }
    let (m, t, reading) := m.give t (.pipe c.number true false)
    let (m, t, writing) := m.give t (.pipe c.number false true)
    .went (m.putTask (t.go (next (reading, writing))))
  | .seek d offset origin, next =>
    match t.target? d with
    | none => .went (m.putTask (t.go (next (.error .badDescriptor))))
    | some target =>
      match m.seekTo target offset origin with
      | .ok (m, n) => .went (m.putTask (t.go (next (.ok n))))
      | .error e => .went (m.putTask (t.go (next (.error e))))
  | .node d, next =>
    let result := match (t.target? d).bind fun target => List.lookup target m.openFiles with
      | none => .error .badDescriptor
      | some (.file node _ _) => .ok (some node)
      | some _ => .ok none
    .went (m.putTask (t.go (next result)))
  | .look, next => .went (m.putTask (t.go (next ⟨m.files, t.directory⟩)))
  | .change f, next =>
    match f ⟨m.files, t.directory⟩ with
    | .ok files => .went ((m.putFiles files).putTask (t.go (next (.ok ()))))
    | .error e => .went (m.putTask (t.go (next (.error e))))
  | .enter directory, next => .went (m.putTask ({ t with directory }.go (next ())))
  | .mask bits, next => .went (m.putTask ({ t with mask := bits.getD t.mask }.go (next t.mask)))
  | .sleep ms, next =>
    .went (m.putTask { t with standing := .asleep (m.files.now + ms) next })
  | .tick, next =>
    if t.ticks + 1 < ticksPerMillisecond then
      .went (m.putTask ({ t with ticks := t.ticks + 1 }.go (next ())))
    else
      .went (m.putTask { t with ticks := 0, standing := .asleep (m.files.now + 1) next })
  | .wait child blocking, next =>
    match m.waitFor t child with
    | some (w, m) => .went (m.putTask (t.go (next w)))
    | none =>
      if t.interrupted then .went (m.putTask (t.go (next .interrupted)))
      else if blocking then .waits
      else .went (m.putTask (t.go (next .nothing)))
  | .pause, next =>
    if t.caught.isEmpty then .waits else .went (m.putTask (t.go (next ())))
  | .kill target signal, next =>
    match m.sendSignal target signal with
    | .error e => .went (m.putTask (t.go (next (.error e))))
    | .ok m' =>
      match m'.task? t.number with
      | none => .went m'
      | some u => if u.hasEnded then .went m' else .went (m'.putTask (u.go (next (.ok ()))))
  | .separate, next => .went (m.putTask ({ t with group := t.number }.go (next ())))
  | .handle signal disposition, next =>
    let others := t.dispositions.filter fun d => d.1 != signal
    .went (m.putTask ({ t with dispositions := (signal, disposition) :: others }.go (next ())))
  | .disposition signal, next => .went (m.putTask (t.go (next (t.disposition signal))))
  | .caught take, next =>
    .went (m.putTask ({ t with caught := if take then [] else t.caught }.go (next t.caught)))
  | .self, next => .went (m.putTask (t.go (next (t.number, t.parent))))
  | .exec path argv environment, next =>
    match image m.load m.files t.directory path ⟨argv, environment⟩ with
    | .error e => .went (m.putTask (t.go (next e)))
    | .ok routine =>
      let t := { t with
        descriptors := t.descriptors.filter fun d => !d.isOwn
        dispositions := t.dispositions.filter fun d => d.2 == Disposition.ignored
        caught := [] }
      .went (m.putTask (t.go routine)).settle

/-- Starts a program beside another one. -/
def fork (m : Machine) (t : Task) (child : Routine) (next : Nat → Routine) : Machine :=
  let n := m.fresh
  let u : Task :=
    { t with
      number := n, parent := t.number, standing := .running child, caught := [], ticks := 0
      interrupted := false }
  let m := m.putTask (t.go (next n))
  { m with tasks := m.tasks ++ [u], fresh := n + 1 }

def turn (m : Machine) (t : Task) : Turn :=
  if t.frozen then .waits
  else
    match t.standing with
    | .ended _ => .waits
    | .running (.exit status) => .went (m.finish t.number status)
    | .running (.fork child next) => .went (m.fork t child next)
    | .running (.ask r next) => m.answer t r next
    | .asleep due next =>
      if due ≤ m.files.now || t.interrupted then .went (m.putTask (t.go (next ()))) else .waits
    | .joining n writes seen next =>
      let isMet := m.hasEnd n !writes || (m.channel? n).any fun c =>
        seen < (if writes then c.readersSeen else c.writersSeen)
      if isMet then .went (m.putTask (t.go (next ()))) else .waits

/-- The turn of the first of some programs that need not wait. -/
def firstTurn (m : Machine) : List Task → Turn
  | [] => .waits
  | t :: rest =>
    match { m with current := t.number }.turn t with
    | .waits => m.firstTurn rest
    | turn => turn

/-- The programs, from the one that runs on. -/
def rota (m : Machine) : List Task :=
  (m.tasks.dropWhile fun t => t.number != m.current) ++
    m.tasks.takeWhile fun t => t.number != m.current

/-- When the first of those that sleep wakes up. -/
def due? (m : Machine) : Option Nat :=
  m.tasks.foldl (fun due t =>
    match t.standing with
    | .asleep n _ => if t.frozen then due else some ((due.map (Nat.min n)).getD n)
    | _ => due) none

/-- An output that nobody can write to any more, if nobody outside knows of it. -/
def closed? (m : Machine) : Option OutputStream := m.outputs.find? fun s => !m.hasOutput s

/-- A time that is longer than anybody waits. -/
def ages : Nat := 1000000000000

/-- What somebody outside sees of the host, for so many turns at most. -/
def runWithin : Nat → Machine → Process
  | 0, _ => .over
  | fuel + 1, m =>
    let shown (p : Machine → Process) : Process :=
      if m.changed then .writeFiles m.files fun _ => p { m with changed := false } else p m
    match m.ending with
    | some status => shown fun m => .exited status fun _ => runWithin fuel { m with ending := none }
    | none =>
      match m.closed? with
      | some stream =>
        .closed stream fun _ => runWithin fuel { m with outputs := m.outputs.filter (· != stream) }
      | none =>
        match m.firstTurn m.rota with
        | .went m => runWithin fuel m
        | .writes stream bytes next =>
          let write : Process := .write stream (Text.Bytes.toBytes bytes) fun isRead =>
            runWithin fuel { next isRead with changed := false }
          if m.changed then .writeFiles m.files fun _ => write else write
        | .waits =>
          if m.tasks.isEmpty then shown fun _ => .over
          else
            let due := m.due?.getD (m.files.now + ages)
            shown fun m => .sleep (due - m.files.now) fun _ => .readFiles fun files =>
              runWithin fuel { m with files := { files with now := Nat.max files.now due } }

/-- More turns than anybody waits for. -/
def patience : Nat := 1000000000000000

/-- What somebody outside sees of the host. -/
def run (m : Machine) : Process := runWithin patience m

/-- A host on which one program runs, without input. -/
def start (load : String → Call → Routine) (files : FileTree) (directory : Nat)
    (routine : Routine) : Machine :=
  let null := (files.find? FileTree.root "/dev/null" true).getD FileTree.root
  { load, files
    tasks := [{
      number := first, parent := nobody, group := nobody, standing := .running routine, directory
      descriptors := [⟨0, 0, false⟩, ⟨1, 1, false⟩, ⟨2, 2, false⟩] }]
    current := first
    openFiles := [(0, .file null 0 .read), (1, .output .stdout), (2, .output .stderr)]
    fresh := first + 1 }

end Machine
end PipelineRunner.Host
