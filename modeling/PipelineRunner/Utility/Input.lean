import PipelineRunner.Regex.Parser
import PipelineRunner.Text.Basic
import PipelineRunner.Text.Bytes
import PipelineRunner.Utility.Job

/-!
Numbers with a fraction and lengths of time, as the arguments of utilities state them. They are
exact: a whole number of parts of a power of ten.
-/

namespace PipelineRunner.Utility

/-- The number `parts / 10 ^ places`. -/
structure Quantity where
  parts : Int
  places : Nat
  deriving DecidableEq, Repr

namespace Quantity

/-- The parts, if there are so many places; the number must not have more. -/
def partsAt (q : Quantity) (places : Nat) : Int := q.parts * (Nat.pow 10 (places - q.places) : Nat)

def le (a b : Quantity) : Bool :=
  let places := Nat.max a.places b.places
  a.partsAt places ≤ b.partsAt places

/-- The sum; it has as many places as either number. -/
def add (a b : Quantity) : Quantity :=
  let places := Nat.max a.places b.places
  ⟨a.partsAt places + b.partsAt places, places⟩

/-- The digits of a number that is not negative. -/
def magnitudeText (places n : Nat) : String :=
  let digits := (Text.padded (places + 1) n).toList
  let whole := String.ofList (digits.take (digits.length - places))
  if places = 0 then whole else whole ++ "." ++ String.ofList (digits.drop (digits.length - places))

/-- The number with as many places as are asked for; it must not have more. -/
def text (q : Quantity) (places : Nat) : String :=
  let n := q.partsAt places
  (if n < 0 then "-" else "") ++ magnitudeText places n.natAbs

def exponent? (cs : List Char) : Option Int :=
  match cs with
  | '-' :: cs => (Text.digits? cs).map fun n => -(n : Int)
  | '+' :: cs => (Text.digits? cs).map fun n => (n : Int)
  | cs => (Text.digits? cs).map fun n => (n : Int)

/-- The number that a text without a sign is. -/
def magnitude? (cs : List Char) : Option Quantity := do
  let mantissa := cs.takeWhile fun c => c != 'e' && c != 'E'
  let behind := cs.drop mantissa.length
  let e ← if behind.isEmpty then some 0 else exponent? (behind.drop 1)
  let whole := mantissa.takeWhile (· != '.')
  let fraction := mantissa.drop (whole.length + 1)
  if whole.isEmpty && fraction.isEmpty then none
  else do
    let n ← Text.digits? (whole ++ fraction)
    let places : Int := fraction.length - e
    if 4000 < places.natAbs then none
    else if 0 ≤ places then some ⟨n, places.toNat⟩
    else some ⟨n * (Nat.pow 10 places.natAbs : Nat), 0⟩

def ofText? (s : String) : Option Quantity :=
  match s.toList with
  | '-' :: cs => (magnitude? cs).map fun q => { q with parts := -q.parts }
  | '+' :: cs => magnitude? cs
  | cs => magnitude? cs

/-- The milliseconds, rounded up, that so many seconds are. -/
def milliseconds (q : Quantity) : Nat :=
  let den := Nat.pow 10 q.places
  (q.parts.toNat * 1000 + den - 1) / den

/-- The milliseconds that a text stands for: seconds, or minutes, hours and days if there is a
letter behind the number. -/
def time? (s : String) : Option Nat :=
  let (factor, cs) : Nat × List Char := match s.toList.reverse with
    | 's' :: cs => (1, cs)
    | 'm' :: cs => (60, cs)
    | 'h' :: cs => (3600, cs)
    | 'd' :: cs => (86400, cs)
    | cs => (1, cs)
  match ofText? (String.ofList cs.reverse) with
  | some q => if q.parts < 0 then none else some ({ q with parts := factor * q.parts }.milliseconds)
  | none => none

end Quantity
/-! ### Reading

The input of utilities: files and the standard input, read in blocks or line by line. A utility that
wants no more leaves the rest to whoever reads on, if the input can go back. -/

open Host Text

/-- A line. -/
structure Line where
  text : String
  /-- Whether its end has been there. -/
  isWhole : Bool
  deriving DecidableEq, Repr

namespace Line

def ended (l : Line) (separator : Char) : String := l.text.push separator

def original (l : Line) (separator : Char) : String :=
  if l.isWhole then l.text.push separator else l.text

end Line

/-- Cuts a text behind every separator. The characters of a line that has begun stand backwards. -/
def cutLines (separator : Char) : List Char → List Line → List Char → List Line × List Char
  | begun, lines, [] => (lines.reverse, begun)
  | begun, lines, c :: cs =>
    if c = separator then
      cutLines separator [] (⟨String.ofList begun.reverse, true⟩ :: lines) cs
    else cutLines separator (c :: begun) lines cs

def linesOf (separator : Char) (text : String) : List Line :=
  let (lines, begun) := cutLines separator [] [] text.toList
  if begun.isEmpty then lines else lines ++ [⟨String.ofList begun.reverse, false⟩]

/-- What is read line by line. -/
structure Reader where
  descriptor : Nat
  separator : Char
  /-- So many bytes are read together. -/
  block : Nat
  /-- Lines that have been read and not yet been used. -/
  lines : List Line := []
  /-- The characters of a line that has begun, backwards. -/
  begun : List Char := []
  hasEnded : Bool := false

namespace Job

variable {α σ : Type}

/-- Opens an input; a hyphen stands for the standard input. -/
def openInput (name : String) : Job (Except FileError Nat) :=
  if name = "-" then pure (.ok 0) else act (Act.openFile name .read)

def closeInput (descriptor : Nat) : Job Unit :=
  if descriptor = 0 then pure () else act (Act.close descriptor)

def nextLine (r : Reader) : Job (Except FileError (Option Line) × Reader) :=
  iterate (fun (r : Reader) => do
    match r.lines with
    | line :: rest => pure (.done (.ok (some line), { r with lines := rest }))
    | [] =>
      if r.hasEnded then pure (.done (.ok none, r))
      else
        match ← act (Act.read r.descriptor r.block) with
        | .error e => pure (.done (.error e, { r with hasEnded := true }))
        | .ok bytes =>
          if bytes.isEmpty then
            let lines : List Line :=
              if r.begun.isEmpty then [] else [⟨String.ofList r.begun.reverse, false⟩]
            pure (.again { r with lines, begun := [], hasEnded := true })
          else
            let (lines, begun) := cutLines r.separator r.begun [] bytes.toList
            pure (.again { r with lines, begun })) r

/-- Leaves what has not been used to whoever reads on. -/
def giveBack (r : Reader) : Job Unit := do
  let unused := r.lines.foldl (fun n l => n + l.text.length + if l.isWhole then 1 else 0)
    r.begun.length
  if 0 < unused then
    let _ : Except FileError Nat ← ask (.seek r.descriptor (-(unused : Int)) .here)

/-- Goes through lines as long as more of them are wanted. -/
def eachLine (r : Reader) (f : σ → Line → Job (Act.Step σ σ)) (s : σ) : Job (Except FileError σ) :=
  iterate (fun ((s, r) : σ × Reader) => do
    match ← nextLine r with
    | (.error e, _) => pure (.done (.error e))
    | (.ok none, _) => pure (.done (.ok s))
    | (.ok (some line), r) =>
      match ← f s line with
      | .again s => pure (.again (s, r))
      | .done s =>
        giveBack r
        pure (.done (.ok s))) (s, r)

/-- Goes through the blocks of a descriptor as long as more of them are wanted. -/
def eachBlock (descriptor block : Nat) (f : σ → String → Job (Act.Step σ σ)) (s : σ) :
    Job (Except FileError σ) :=
  iterate (fun (s : σ) => do
    match ← act (Act.read descriptor block) with
    | .error e => pure (.done (.error e))
    | .ok bytes =>
      if bytes.isEmpty then pure (.done (.ok s))
      else
        match ← f s bytes with
        | .again s => pure (.again s)
        | .done s => pure (.done (.ok s))) s

/-- How an input that cannot be read is complained about. -/
structure Complaints where
  code : Nat
  unopened : String → FileError → String
  unread : String → FileError → String

def about (name : String) (e : FileError) : String := asName name ++ ": " ++ e.reason

/-- Complaints that only consist of the name and the reason. -/
def plainly (code : Nat) : Complaints := ⟨code, about, about⟩

def withInput (complaints : Complaints) (name : String)
    (f : Nat → Job (Except FileError Unit)) : Job Unit := do
  match ← openInput name with
  | .error e => fault complaints.code (complaints.unopened name e)
  | .ok d =>
    match ← f d with
    | .error e => fault complaints.code (complaints.unread name e)
    | .ok () => pure ()
    closeInput d

/-- All of an input, if it can be read. -/
def contentOf (complaints : Complaints) (name : String) : Job (Option String) := do
  match ← openInput name with
  | .error e =>
    fault complaints.code (complaints.unopened name e)
    pure none
  | .ok d =>
    let result ← act (Act.readAll d)
    closeInput d
    match result with
    | .error e =>
      fault complaints.code (complaints.unread name e)
      pure none
    | .ok text => pure (some text)

/-- The names of the inputs: without any it is the standard input. -/
def inputs (operands : List String) : List String := if operands.isEmpty then ["-"] else operands

/-- Goes through a list, and collects what comes of it. -/
def collect {β : Type} (f : α → Job β) : List α → Job (List β)
  | [] => pure []
  | a :: rest => do
    let b ← f a
    return b :: (← collect f rest)

end Job

/-! ### Expressions

Regular expressions in byte texts. -/

open Text

/-- The regular expression that a byte text is. -/
def readRegex (k : Charset) (d : Regex.Dialect) (bytes : String) : Except RegexError Regex :=
  Regex.parse d (String.ofList (Characters.of k bytes).chars.toList)

end PipelineRunner.Utility
