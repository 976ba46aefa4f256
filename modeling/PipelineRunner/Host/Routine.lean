import PipelineRunner.Host.Outcome
import PipelineRunner.Text.Basic

/-!
Programs from within and from outside. What goes on inside of one program is a tree of requests to
its host, and of what it does on their answers. The host's answers are all that a program knows of
the world outside.
-/

namespace PipelineRunner.Host

/-! ### Signals

Signals by their numbers: their names, what they do to a program that does not care for them, and
what is said of a program that one of them has ended. -/

namespace Signal

def interrupt : Nat := 2

def quit : Nat := 3

def kill : Nat := 9

def brokenPipe : Nat := 13

def terminate : Nat := 15

def childEnded : Nat := 17

def names : List (String × Nat) :=
  [("HUP", 1), ("INT", 2), ("QUIT", 3), ("ILL", 4), ("TRAP", 5), ("ABRT", 6), ("BUS", 7),
    ("FPE", 8), ("KILL", 9), ("USR1", 10), ("SEGV", 11), ("USR2", 12), ("PIPE", 13), ("ALRM", 14),
    ("TERM", 15), ("CHLD", 17), ("CONT", 18), ("STOP", 19), ("TSTP", 20),
    ("TTIN", 21), ("TTOU", 22), ("URG", 23), ("XCPU", 24), ("XFSZ", 25), ("VTALRM", 26),
    ("PROF", 27), ("WINCH", 28), ("IO", 29), ("PWR", 30), ("SYS", 31)]

/-- The name of a signal; some only have a number. -/
def name (n : Nat) : String :=
  match names.find? fun s => s.2 == n with
  | some s => s.1
  | none =>
    if n = 34 then "RTMIN"
    else if n = 64 then "RTMAX"
    else if 34 < n && n < 50 then s!"RTMIN+{n - 34}"
    else if 50 ≤ n && n < 64 then s!"RTMAX-{64 - n}"
    else toString n

def count : Nat := 65

/-- The signal of a name; small and capital letters are the same. -/
def ofName? (text : String) : Option Nat :=
  let text := text.toUpper
  (List.range count).find? fun n => n != 0 && name n == text

/-- Whether a signal is without effect unless it is caught. -/
def isHarmless (n : Nat) : Bool := [0, 17, 18, 23, 28].contains n

/-- Whether a signal stops a program for a while unless it is caught. -/
def stops (n : Nat) : Bool := [19, 20, 21, 22].contains n

/-- What is said of a program that a signal has ended. -/
def report (n : Nat) : String :=
  match n with
  | 1 => "Hangup"
  | 2 => "Interrupt"
  | 3 => "Quit"
  | 4 => "Illegal instruction"
  | 5 => "Trace/breakpoint trap"
  | 6 => "Aborted"
  | 7 => "Bus error"
  | 8 => "Floating point exception"
  | 9 => "Killed"
  | 10 => "User defined signal 1"
  | 11 => "Segmentation fault"
  | 12 => "User defined signal 2"
  | 13 => "Broken pipe"
  | 14 => "Alarm clock"
  | 15 => "Terminated"
  | 16 => "Stack fault"
  | 24 => "CPU time limit exceeded"
  | 25 => "File size limit exceeded"
  | 26 => "Virtual timer expired"
  | 27 => "Profiling timer expired"
  | 29 => "I/O possible"
  | 30 => "Power failure"
  | 31 => "Bad system call"
  | n => if 34 ≤ n && n ≤ 64 then "Real-time signal " ++ toString (n - 34)
    else "Unknown signal " ++ toString n

end Signal

/-! ### Routines -/

/-- What is to be done with a file that is opened. -/
inductive OpenMode where
  | read
  /-- Begins with nothing in the file. -/
  | write
  | append
  /-- Reads and writes what is there. -/
  | update
  /-- Writes a file that has not been there. -/
  | new
  /-- Writes a file that is there, from its beginning. -/
  | overwrite
  deriving DecidableEq, Repr

/-- What a signal does to a program. -/
inductive Disposition where
  | default
  | ignored
  | caught
  deriving DecidableEq, Repr

/-- From where a position in a file is counted. -/
inductive Origin where
  | start
  | here
  | ending
  deriving DecidableEq, Repr

/-- What a program sees of its surroundings. -/
structure Surroundings where
  files : FileTree
  /-- The node of the directory that relative paths start from. -/
  directory : Nat

/-- What has become of the programs that a program has started. -/
inductive Waited where
  | ended (child : Nat) (status : ExitStatus)
  /-- None has ended. -/
  | nothing
  /-- There is none. -/
  | noChildren
  /-- A signal has come that the program catches. -/
  | interrupted
  deriving DecidableEq, Repr

/-- What a program asks its host for. -/
inductive Request where
  /-- Reads so many bytes at most, and none behind the first `stop`. At the end it yields none. -/
  | read (descriptor most : Nat) (stop : Option Char)
  | write (descriptor : Nat) (bytes : String)
  | openFile (path : String) (mode : OpenMode)
  | close (descriptor : Nat)
  /-- Makes a second descriptor lead to where the first one does. -/
  | copy (descriptor target : Nat)
  /-- Does so with one of the free descriptors that are not lower than `least`. Programs that are
  run instead of this one do not get it. -/
  | keep (descriptor least : Nat)
  | pipe
  | seek (descriptor : Nat) (offset : Int) (origin : Origin)
  /-- The node that a descriptor leads to, if it is a file's. -/
  | node (descriptor : Nat)
  | look
  | change (f : Surroundings → Except FileError FileTree)
  /-- Goes to another directory. -/
  | enter (directory : Nat)
  /-- Sets the bits that new files do not get. -/
  | mask (bits : Option Nat)
  | sleep (milliseconds : Nat)
  /-- Does something that takes no noticeable time by itself. -/
  | tick
  | wait (child : Option Nat) (blocking : Bool)
  /-- Waits until a signal comes that the program catches. -/
  | pause
  /-- Signals a program, or the group of a negative number; zero stands for the own group. -/
  | kill (target : Int) (signal : Nat)
  /-- Leaves the group it is in for one of its own. -/
  | separate
  | handle (signal : Nat) (disposition : Disposition)
  | disposition (signal : Nat)
  /-- The signals that have come and that the program catches. -/
  | caught (take : Bool)
  /-- The numbers of the program and of the one that has started it. -/
  | self
  /-- Runs another program instead of this one. -/
  | exec (path : String) (argv : List String) (environment : List (String × String))

def Request.Answer : Request → Type
  | read .. => Except FileError String
  | write .. => Except FileError Unit
  | openFile .. => Except FileError Nat
  | close .. => Except FileError Unit
  | copy .. => Except FileError Unit
  | keep .. => Except FileError Nat
  | pipe => Nat × Nat
  | seek .. => Except FileError Nat
  | node .. => Except FileError (Option Nat)
  | look => Surroundings
  | change .. => Except FileError Unit
  | enter .. => Unit
  | mask .. => Nat
  | sleep .. => Unit
  | tick => Unit
  | wait .. => Waited
  | pause => Unit
  | kill .. => Except FileError Unit
  | separate => Unit
  | handle .. => Unit
  | disposition .. => Disposition
  | caught .. => List Nat
  | self => Nat × Nat
  | exec .. => FileError

/-- What a program does. -/
inductive Routine where
  | exit (status : ExitStatus)
  | ask (request : Request) (next : request.Answer → Routine)
  /-- Starts a program beside this one that knows the same, and goes on with its number. -/
  | fork (child : Routine) (next : Nat → Routine)

instance : Inhabited Routine := ⟨.exit (.signal Signal.kill)⟩

/-- A part of a routine that yields a value, as a function of what is done with the value. -/
def Act (α : Type) : Type := (α → Routine) → Routine

namespace Act

variable {α β σ : Type}

instance : Monad Act where
  pure a := fun next => next a
  bind x f := fun next => x fun a => f a next

/-- Asks the host for something. -/
def ask (request : Request) : Act request.Answer := fun next => .ask request next

def exit (code : Nat) : Act α := fun _ => .exit (.code (code % 256))

/-- Ends the program in another way. -/
def stop (status : ExitStatus) : Act α := fun _ => .exit status

/-- The routine that does something for its effect alone and exits well. -/
def routine (x : Act Unit) : Routine := x fun _ => .exit (.code 0)

/-- Whether something is done again. -/
inductive Step (σ α : Type) where
  | again (state : σ)
  | done (value : α)

/-- Does something again and again, so many times at most. -/
def iterateWithin (step : σ → Act (Step σ α)) : Nat → σ → Act α
  | 0, _ => stop (.signal Signal.kill)
  | fuel + 1, s => fun next => step s fun
    | .again s => iterateWithin step fuel s next
    | .done a => next a

/-- More times than anything is done that ends. -/
def patience : Nat := 1000000000000000

/-- Does something again and again. -/
def iterate (step : σ → Act (Step σ α)) (s : σ) : Act α := iterateWithin step patience s

def look : Act Surroundings := ask .look

/-- So many bytes at most. -/
def read (descriptor : Nat) (most : Nat) : Act (Except FileError String) :=
  ask (.read descriptor most none)

/-- How many bytes are read or written together. -/
def blockSize : Nat := 65536

def readAll (descriptor : Nat) : Act (Except FileError String) :=
  iterate (fun (pieces : List String) => do
    match ← read descriptor blockSize with
    | .error e => pure (.done (.error e))
    | .ok "" => pure (.done (.ok (String.join pieces.reverse)))
    | .ok piece => pure (.again (piece :: pieces))) []

def write (descriptor : Nat) (bytes : String) : Act (Except FileError Unit) :=
  if bytes.isEmpty then pure (.ok ()) else ask (.write descriptor bytes)

/-- Writes bytes if that is possible. -/
def print (descriptor : Nat) (bytes : String) : Act Unit := do
  let _ ← write descriptor bytes

def openFile (path : String) (mode : OpenMode) : Act (Except FileError Nat) :=
  ask (.openFile path mode)

def close (descriptor : Nat) : Act Unit := do
  let _ ← ask (.close descriptor)

/-- Changes the files. -/
def change (f : Surroundings → Except FileError FileTree) : Act (Except FileError Unit) :=
  ask (.change f)

end Act
/-! ### Processes

Running programs as somebody outside of the host sees them: trees of what they do to the world.
They write to their two outputs, take time, look at the files and change them, until they exit or
are ended by a signal. What they have started can go on behind their end, and hold their outputs
open. What follows is only worked out when somebody asks for it, since a program may run for ever.
-/

/-- The outputs of a program. -/
inductive OutputStream where
  | stdout
  | stderr
  deriving DecidableEq, Repr

/-- A running program. -/
inductive Process where
  /-- Nothing more comes of it. -/
  | over
  /-- The program itself has ended. -/
  | exited (status : ExitStatus) (rest : Unit → Process)
  /-- Nobody is left who could write to an output. -/
  | closed (stream : OutputStream) (rest : Unit → Process)
  /-- Writes to an output, and goes on as it finds out whether somebody reads it. -/
  | write (stream : OutputStream) (bytes : List UInt8) (rest : Bool → Process)
  | sleep (milliseconds : Nat) (rest : Unit → Process)
  | readFiles (rest : FileTree → Process)
  | writeFiles (files : FileTree) (rest : Unit → Process)

instance : Inhabited Process := ⟨.over⟩

end PipelineRunner.Host
