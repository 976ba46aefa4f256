import PipelineRunner.Container.Runtime
import PipelineRunner.Host.Routine

/-!
Reading the output of a program while it runs. One reader for each of its two outputs cuts it into
lines and puts them into a channel of bounded room; when the program has ended and both readers are
through, an ending other than success is put there as the last item.
-/

namespace PipelineRunner.Host

/-- An output on its way: what has been written and not yet been read as lines. -/
structure Pipe where
  bytes : List UInt8 := []
  /-- Whether the program has closed it. -/
  closed : Bool := false
  /-- Whether its reader is through. -/
  finished : Bool := false
  /-- Whether nobody reads it any more, so that who writes to it is told. -/
  broken : Bool := false
  deriving DecidableEq, Repr

/-- Where those are who wait for the program. -/
inductive Waiter where
  | waiting
  /-- The program has ended, and the readers may still be at work. -/
  | joining (status : ExitStatus)
  | finished
  deriving DecidableEq, Repr

/-- A program that is being read. -/
structure Streaming where
  /-- The name of the program in error messages. -/
  label : String
  /-- The program, as far as it has not been seen. -/
  child : Process
  /-- How the program has ended. -/
  status : Option ExitStatus := none
  out : Pipe := {}
  err : Pipe := {}
  /-- Items that nobody has taken yet, the oldest first. -/
  channel : List OutputItem := []
  waiter : Waiter := .waiting

namespace Pipe

/-- The bytes up to the first line feed, with it, and the bytes behind it; `taken` stands in front
of them, backwards. -/
def splitLineAfter (taken : List UInt8) : List UInt8 → Option (List UInt8 × List UInt8)
  | [] => none
  | b :: bs =>
    if b = 10 then some ((b :: taken).reverse, bs) else splitLineAfter (b :: taken) bs

/-- The bytes up to the first line feed, with it, and the bytes behind it. -/
def splitLine (bytes : List UInt8) : Option (List UInt8 × List UInt8) := splitLineAfter [] bytes

def dropEnding (line : List UInt8) : List UInt8 :=
  if line.getLast? = some 10 then Text.dropOneLast 13 line.dropLast else line

/-- The item that a line is: bytes that are no text are a failure. -/
def itemOf (line : List UInt8) : OutputItem :=
  match Text.Utf8.decode (dropEnding line) with
  | .ok cs => .ok (String.ofList cs)
  | .error fault => .error (.because fault.message)

def isLine : OutputItem → Bool
  | .ok _ => true
  | .error _ => false

/-- Reads a line, if there is one. What follows the last line end counts as a line when the output
has been closed. A reader is through at the end, and at a line that is no text. -/
def read (p : Pipe) : Option (Pipe × Option OutputItem) :=
  if p.finished then none
  else
    match splitLine p.bytes with
    | some (line, rest) =>
      let item := itemOf line
      some ({ p with bytes := rest, finished := !isLine item }, some item)
    | none =>
      if !p.closed then none
      else if p.bytes.isEmpty then some ({ p with finished := true }, none)
      else some ({ p with bytes := [], finished := true }, some (itemOf p.bytes))

/-- Takes what the program writes. What nobody reads is lost. -/
def add (p : Pipe) (bytes : List UInt8) : Pipe :=
  if p.finished then p else { p with bytes := p.bytes ++ bytes }

def close (p : Pipe) : Pipe := { p with closed := true }

/-- Lets time pass, in which a reader that is through lets go of the output. -/
def lapse (p : Pipe) : Pipe := { p with broken := p.broken || p.finished }

end Pipe

namespace Streaming

/-- The channel has room for so many items. -/
def room : Nat := 64

def start (label : String) (p : Process) : Streaming := { label, child := p }

/-- Those who can do something without asking the world outside. -/
inductive Actor where
  | child
  | reader (stream : OutputStream)
  | waiter
  deriving DecidableEq, Repr

def push (s : Streaming) (items : List OutputItem) : Streaming :=
  { s with channel := s.channel ++ items }

def pipe (s : Streaming) : OutputStream → Pipe
  | .stdout => s.out
  | .stderr => s.err

def changePipe (s : Streaming) (stream : OutputStream) (f : Pipe → Pipe) : Streaming :=
  match stream with
  | .stdout => { s with out := f s.out }
  | .stderr => { s with err := f s.err }

/-- The program writes, or ends, or closes an output. -/
def childTurn (s : Streaming) : Option Streaming :=
  match s.child with
  | .write stream bytes rest =>
    let child := rest (!(s.pipe stream).broken)
    some ({ s with child }.changePipe stream (·.add bytes))
  | .exited status rest => some { s with child := rest (), status := some status }
  | .closed stream rest => some ({ s with child := rest () }.changePipe stream Pipe.close)
  | _ => none

/-- A reader reads a line, if the channel has room for it. -/
def readerTurn (s : Streaming) (stream : OutputStream) : Option Streaming :=
  if room ≤ s.channel.length then none
  else
    (s.pipe stream).read.map fun (p, item) => (s.changePipe stream fun _ => p).push item.toList

/-- How a program has ended, as an item; success is none. -/
def endItem? (label : String) : ExitStatus → Option OutputItem
  | .code 0 => none
  | .code n => some (.error (.because s!"{label} exited with status {n}"))
  | .signal _ => some (.error (.because s!"{label} exited with status signal"))

/-- Those who wait for the program notice its end, and then the end of the readers. -/
def waiterTurn (s : Streaming) : Option Streaming :=
  match s.waiter, s.status with
  | .waiting, some status => some { s with waiter := .joining status }
  | .joining status, _ =>
    if !(s.out.finished && s.err.finished) || room ≤ s.channel.length then none
    else some { s.push (endItem? s.label status).toList with waiter := .finished }
  | _, _ => none

def turn (s : Streaming) : Actor → Option Streaming
  | .child => s.childTurn
  | .reader stream => s.readerTurn stream
  | .waiter => s.waiterTurn

/-- Takes the oldest item. -/
def receive (s : Streaming) : Option (OutputItem × Streaming) :=
  match s.channel with
  | [] => none
  | item :: rest => some (item, { s with channel := rest })

/-- The turn of the first of some who need not wait. -/
def firstTurn (s : Streaming) : List Actor → Option Streaming
  | [] => none
  | a :: rest => (s.turn a).orElse fun _ => s.firstTurn rest

/-- The output that comes out of the channel if every item is taken at once, and every line is read
before the program goes on; with so many turns at most. -/
def outputWithin : Nat → Streaming → Output
  | 0, _ => .finished
  | fuel + 1, s =>
    match s.receive with
    | some (.ok text, s) => .line text fun _ => outputWithin fuel s
    | some (.error cause, s) => .failed cause fun _ => outputWithin fuel s
    | none =>
      match s.firstTurn [.reader .stdout, .reader .stderr, .waiter, .child] with
      | some s => outputWithin fuel s
      | none =>
        if s.waiter = .finished then .finished
        else
          match s.child with
          | .sleep ms rest =>
            let s := { s with out := s.out.lapse, err := s.err.lapse }
            .sleep ms fun _ => outputWithin fuel { s with child := rest () }
          | .readFiles rest =>
            .readFiles fun files => outputWithin fuel { s with child := rest files }
          | .writeFiles files rest =>
            .writeFiles files fun _ => outputWithin fuel { s with child := rest () }
          | _ => .finished

/-- More turns than any program takes that ends. -/
def patience : Nat := 1000000000000000

def output (label : String) (p : Process) : Output :=
  outputWithin patience (start label p)

end Streaming
end PipelineRunner.Host
