import PipelineRunner.Host.FileTree

/-!
What comes of programs that somebody starts: how they end, what they leave behind, and why some are
not started at all.
-/

namespace PipelineRunner.Host

/-- How a program ends. -/
inductive ExitStatus where
  | code (n : Nat)
  | signal (number : Nat)
  deriving DecidableEq, Repr, Inhabited

namespace ExitStatus

def isSuccess (s : ExitStatus) : Bool := s == .code 0

/-- The number by which shells know an ending. -/
def number : ExitStatus → Nat
  | code n => n
  | signal n => 128 + n

end ExitStatus

/-- What a program has left behind at its end. -/
structure Finished where
  status : ExitStatus
  stdout : List UInt8
  stderr : List UInt8
  deriving DecidableEq, Repr

/-- Why a program has not been started. -/
inductive StartError where
  | file (e : FileError)
  /-- A character that no host takes in names and arguments. -/
  | nulCharacter
  deriving DecidableEq, Repr

def StartError.message : StartError → String
  | file e => e.message
  | nulCharacter => "nul byte found in provided data"

end PipelineRunner.Host
