import PipelineRunner.Host.FileTree

/-!
The rights to a file: twelve bits, their letters, and the texts that describe changes of them. A
change concerns some of the owner, the group and the others, or whom the mask of the program leaves.
-/

namespace PipelineRunner.Utility.Rights

open Host

def all : Nat := 0o7777

/-- The letters for a class of users; the last one also tells of a special bit. -/
def classLetters (bits : Nat) (special : Option Char) : List Char :=
  let last : Char := match special, bits &&& 1 with
    | some c, 0 => c.toUpper
    | some c, _ => c
    | none, 0 => '-'
    | none, _ => 'x'
  [if bits &&& 4 = 0 then '-' else 'r', if bits &&& 2 = 0 then '-' else 'w', last]

def letters (mode : Nat) : String :=
  let special (bit : Nat) (c : Char) : Option Char := if mode &&& bit = 0 then none else some c
  String.ofList (classLetters (mode >>> 6) (special 0o4000 's') ++
    classLetters (mode >>> 3) (special 0o2000 's') ++ classLetters mode (special 0o1000 't'))

def kindLetter : Content → String
  | .directory .. => "d"
  | .link _ => "l"
  | .device _ => "c"
  | .pipe => "p"
  | _ => "-"

/-- The octal digits, four of them at least. -/
def digits (mode : Nat) : String :=
  let text := String.ofList (Nat.toDigits 8 mode)
  Text.Bytes.fill '0' (4 - text.length) ++ text

/-- What a sign does with bits. -/
inductive Sign where
  | add
  | remove
  | set
  deriving DecidableEq, Repr

/-- The bits that a change is about. -/
inductive Bits where
  | these (bits : Nat)
  /-- To execute, if it is a directory or somebody may execute it. -/
  | search (others : Nat)
  /-- Those of the owner, the group or the others, so many places from the last. -/
  | sameAs (places : Nat)
  deriving DecidableEq, Repr

/-- A change. Nobody in particular is concerned if there are no `concerned` bits. -/
structure Change where
  concerned : Nat
  sign : Sign
  bits : Bits
  deriving DecidableEq, Repr

def octal (cs : List Char) : Nat := cs.foldl (fun n c => n * 8 + (c.toNat - '0'.toNat)) 0

def isOctal (c : Char) : Bool := '0' ≤ c && c ≤ '7'

/-- The bits of those whom a letter stands for. -/
def concernedBy (c : Char) : Nat :=
  match c with
  | 'u' => 0o4700
  | 'g' => 0o2070
  | 'o' => 0o1007
  | _ => all

def bitsOf (c : Char) : Nat :=
  match c with
  | 'r' => 0o444
  | 'w' => 0o222
  | 'x' => 0o111
  | 's' => 0o6000
  | 't' => 0o1000
  | _ => 0

/-- The bits behind a sign, and what follows. -/
def readBits (cs : List Char) : Bits × List Char :=
  match cs with
  | 'u' :: cs => (.sameAs 6, cs)
  | 'g' :: cs => (.sameAs 3, cs)
  | 'o' :: cs => (.sameAs 0, cs)
  | cs =>
    let letters := cs.takeWhile ['r', 'w', 'x', 'X', 's', 't'].contains
    let bits := letters.foldl (fun n c => n ||| bitsOf c) 0
    (if letters.contains 'X' then .search bits else .these bits, cs.drop letters.length)

/-- The changes of a clause behind those whom it concerns. -/
def readChanges (concerned : Nat) : Nat → List Char → Option (List Change)
  | 0, _ => none
  | _, [] => some []
  | fuel + 1, c :: cs =>
    let sign? : Option Sign :=
      if c = '+' then some .add else if c = '-' then some .remove
      else if c = '=' then some .set else none
    sign?.bind fun sign =>
      let (bits, rest) := readBits cs
      (readChanges concerned fuel rest).map (⟨concerned, sign, bits⟩ :: ·)

def readClause (cs : List Char) : Option (List Change) :=
  let who := cs.takeWhile ['u', 'g', 'o', 'a'].contains
  let rest := cs.drop who.length
  if rest.isEmpty then none
  else readChanges (who.foldl (fun n c => n ||| concernedBy c) 0) (rest.length + 1) rest

def parse? (text : String) : Option (List Change) :=
  let cs := text.toList
  if cs.isEmpty then none
  else if cs.all isOctal then
    let bits := octal cs
    if bits ≤ all then some [⟨all, .set, .these bits⟩] else none
  else (Text.splitAt ',' cs).foldlM (fun done clause => do return done ++ (← readClause clause)) []

/-- Applies a change to the bits of a node, if new files do not get those of the mask. -/
def apply (isDirectory : Bool) (mask : Nat) (mode : Nat) (c : Change) : Nat :=
  let bits := match c.bits with
    | .these bits => bits
    | .search bits => if isDirectory || mode &&& 0o111 != 0 then bits ||| 0o111 else bits
    | .sameAs places => (mode >>> places &&& 7) * 0o111
  let bits := bits &&& (if c.concerned = 0 then all ^^^ mask else c.concerned)
  match c.sign with
  | .add => mode ||| bits
  | .remove => mode &&& (all ^^^ bits)
  | .set => bits ||| (if c.concerned = 0 then 0 else mode &&& (all ^^^ c.concerned))

/-- Applies changes to the bits of a node. -/
def applyAll (isDirectory : Bool) (mask : Nat) (changes : List Change) (mode : Nat) : Nat :=
  changes.foldl (apply isDirectory mask) mode

end PipelineRunner.Utility.Rights
