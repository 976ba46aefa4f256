import PipelineRunner.Shell.Lookup

/-!
Redirections: descriptors are led to files and to each other, and led back. What they have led to is
kept under numbers that scripts do not use.
-/

namespace PipelineRunner.Shell

open Host Text

/-- What a descriptor is to lead to. -/
inductive Destination where
  | file (use : FileUse) (path : String)
  /-- Where another descriptor leads, or nowhere. -/
  | copy (source : Option Nat)
  | document (text : String)
  deriving DecidableEq, Repr

/-- A redirection whose words have been expanded. -/
structure Lead where
  descriptor : Nat
  destination : Destination
  deriving DecidableEq, Repr

namespace Action

/-- The lowest number under which descriptors are kept. -/
def leastKept : Nat := 10

/-- Complains about a file that cannot be made. -/
def failToMake {α : Type} (path : String) (e : FileError) : Action α :=
  let reason := reasonText e "Directory nonexistent"
  fail s!"cannot create {path}: {reason}"

/-- Opens a file to write to it, and makes it if it is not there. -/
def openOutput (path : String) (mode : OpenMode) : Action Nat := do
  match ← act (Act.openFile path mode) with
  | .ok d => pure d
  | .error e => failToMake path e

/-- Opens a file to write to it, but not one that is there already and holds something. -/
def openNew (path : String) : Action Nat := do
  let seen ← look
  match seen.files.find? seen.directory path true with
  | none => openOutput path .new
  | some i =>
    if isProgramFile seen.files i then failToMake path .alreadyThere
    else openOutput path .overwrite

/-- How much may be written to a pipe before somebody reads it. -/
def documentRoom : Nat := 4096

/-- Opens a pipe that a document can be read from. -/
def openDocument (text : String) : Action Nat := do
  let (reading, writing) : Nat × Nat ← ask .pipe
  if text.length ≤ documentRoom then print writing text
  else
    let _ ← fork do
      act (Act.close reading)
      ask (.handle Signal.interrupt .ignored)
      print writing text
      stop (.code 0)
  act (Act.close writing)
  pure reading

/-- Opens what a descriptor is to lead to; that of another descriptor is open already. -/
def openDestination : Destination → Action (Option Nat)
  | .file .read path => do
    match ← act (Act.openFile path .read) with
    | .ok d => pure (some d)
    | .error e =>
      let reason := reasonText e "No such file"
      fail s!"cannot open {path}: {reason}"
  | .file .update path => do pure (some (← openOutput path .update))
  | .file .append path => do pure (some (← openOutput path .append))
  | .file .replace path => do pure (some (← openOutput path .write))
  | .file .write path => do
    let keeps := (← get).has "noclobber"
    pure (some (← if keeps then openNew path else openOutput path .write))
  | .copy source => pure source
  | .document text => do pure (some (← openDocument text))

/-- Notes where a descriptor leads, unless that is known from before. -/
def keep (descriptor : Nat) (isOpen : Bool) : Action Unit := do
  match (← get).redirected with
  | [] => pure ()
  | known :: outer =>
    if known.any fun k => k.1 == descriptor then pure ()
    else
      let copy ← if !isOpen then pure none
        else do
          match ← ask (.keep descriptor leastKept) with
          | .ok n =>
            act (Act.close descriptor)
            pure (some n)
          | .error _ => pure none
      modify fun s => { s with redirected := ((descriptor, copy) :: known) :: outer }

/-- Makes a descriptor lead somewhere, where destinations are opened in a given way. -/
def leadBy (opening : Destination → Action (Option Nat)) (saves : Bool) (l : Lead) :
    Action Unit := do
  if l.destination = .copy (some l.descriptor) then pure ()
  else
    let opened ← opening l.destination
    if saves then keep l.descriptor (opened != some l.descriptor)
    match l.destination, opened with
    | .copy _, none => act (Act.close l.descriptor)
    | .copy _, some d =>
      match ← ask (.copy d l.descriptor) with
      | .ok () => pure ()
      | .error e =>
        let reason := e.reason
        fail s!"{d}: {reason}"
    | _, some d =>
      if d != l.descriptor then
        let _ ← ask (.copy d l.descriptor)
        act (Act.close d)
    | _, none => pure ()

def lead : Bool → Lead → Action Unit := leadBy openDestination

/-- Does something for which descriptors are led back later, and tells whether it has been
possible. -/
def redirecting (x : Action Unit) : Action Bool :=
  orElse (do
    modify fun s => { s with redirected := [] :: s.redirected }
    x
    pure true) fun b =>
    match b with
    | .error | .refusal => pure false
    | .exit => throw .exit

/-- Makes descriptors lead somewhere, one after the other; tells whether that has been possible. -/
def leadSafely (ls : List Lead) : Action Bool := redirecting (each (lead true) ls)

/-- Leads descriptors back to where they have led, or leaves them as they are. -/
def leadBack (stays : Bool) : Action Unit := do
  match (← get).redirected with
  | [] => pure ()
  | known :: outer =>
    modify fun s => { s with redirected := outer }
    each (fun ((d, kept) : Nat × Option Nat) => do
      match kept with
      | none => if stays then pure () else act (Act.close d)
      | some n =>
        if !stays then
          let _ ← ask (.copy n d)
        act (Act.close n)) known

/-- Leads descriptors back until so many redirections are left. -/
def leadBackTo (depth : Nat) : Nat → Action Unit
  | 0 => pure ()
  | fuel + 1 => do
    if depth < (← get).redirected.length then
      leadBack false
      leadBackTo depth fuel

end Action
end PipelineRunner.Shell
