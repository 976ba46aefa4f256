import PipelineRunner.Shell.Builtin.Variables
import PipelineRunner.Shell.Extended.Builtin.Basic

/-!
The commands of shells of the extended language that read their input: a line into variables, or
all lines into a list.
-/

namespace PipelineRunner.Shell.Extended.Builtin

open Host Text Shell.Action

/-- How a text is read. -/
structure ReadRules where
  descriptor : Nat := 0
  /-- The byte that ends the text. -/
  mark : Char := '\n'
  /-- Whether backslashes are bytes like others. -/
  isRaw : Bool := false
  /-- So many characters at most. -/
  most : Option Nat := none
  /-- Whether the mark ends nothing, and all characters have to be there. -/
  isExact : Bool := false

/-- A text while it is read. -/
structure TextReading where
  line : Shell.Builtin.LineReading := {}
  /-- The number of characters. -/
  count : Nat := 0

namespace ReadRules

def take (r : ReadRules) (t : TextReading) (c : Char) : TextReading :=
  let l := t.line
  let isFirst := c.toNat < 0x80 || 0xc0 ≤ c.toNat
  let count := if isFirst then t.count + 1 else t.count
  if l.isQuoting then
    let pieces := if c = '\n' then l.pieces else .fixed [⟨c, true⟩] :: l.pieces
    { line := { pieces }, count }
  else if c = '\\' && !r.isRaw then
    let pieces := .value (String.ofList l.current.reverse) :: l.pieces
    { t with line := { pieces, isQuoting := true } }
  else if c = r.mark && !r.isExact then { t with line := { l with isOver := true } }
  else if c = Char.ofNat 0 then t
  else { line := { l with current := c :: l.current }, count }

/-- How many bytes a character has that begins with a byte. -/
def size (k : Charset) (c : Char) : Nat :=
  if k = .bytes || c.toNat < 0xc0 then 1
  else if c.toNat < 0xe0 then 2
  else if c.toNat < 0xf0 then 3
  else 4

/-- Reads a text; the status says whether its end has been found. -/
def readText (r : ReadRules) (k : Charset) : Act (TextReading × Nat) :=
  Act.iterate (fun (t : TextReading) => do
    if r.most.any fun n => n ≤ t.count && !t.line.isQuoting then pure (.done (t, 0))
    else
      let most := if r.most.isSome then 1 else Act.blockSize
      match ← Act.ask (.read r.descriptor most (some r.mark)) with
      | .error _ | .ok "" => pure (.done (t, 1))
      | .ok text =>
        let more ← match r.most, text.toList with
          | some _, [c] =>
            if size k c = 1 then pure ""
            else do
              match ← Act.ask (.read r.descriptor (size k c - 1) none) with
              | .ok more => pure more
              | .error _ => pure ""
          | _, _ => pure ""
        let t := (text ++ more).toList.foldl r.take t
        pure (if t.line.isOver then .done (t, 0) else .again t)) {}

end ReadRules

/-- The open descriptor that an argument of a command is. -/
def descriptorOf (text : String) : Action Nat := do
  match digits? text.toList with
  | none => failWith (text ++ ": invalid file descriptor specification") 1
  | some n =>
    match ← ask (.node n) with
    | .ok _ => pure n
    | .error e => do
      let reason := e.reason
      failWith (text ++ ": invalid file descriptor: " ++ reason) 1

/-- The number that an argument of an option is. -/
def amountOf (text complaint : String) : Action Nat := do
  match Numeral.int? text with
  | some (.ofNat n) => pure n
  | _ => failWith (text ++ ": " ++ complaint) 1

def isSeconds (text : String) : Bool :=
  let cs := text.toList
  let whole := cs.takeWhile Char.isDigit
  match cs.drop whole.length with
  | [] => !whole.isEmpty
  | '.' :: rest => rest.all Char.isDigit
  | _ => false

def read (args : List String) : Action Nat := do
  let (options, names) ← options "ersa:d:i:n:N:p:t:u:" args
  let s ← get
  if let some text := valueOf? options 't' then
    if !isSeconds text then failWith (text ++ ": invalid timeout specification") 1
  let descriptor ← match valueOf? options 'u' with
    | some text => descriptorOf text
    | none => pure 0
  let exact ← match valueOf? options 'N' with
    | some text => do pure (some (← amountOf text "invalid number"))
    | none => pure none
  let most ← match valueOf? options 'n' with
    | some text => do pure (some (← amountOf text "invalid number"))
    | none => pure none
  if let some first := names.head? then
    if !isTarget first then failWith (invalidName first) 1
  let rules : ReadRules := {
    descriptor, isRaw := hasLetter options 'r', most := exact.orElse fun _ => most
    isExact := exact.isSome
    mark := match valueOf? options 'd' with
      | some text => text.toList.headD (Char.ofNat 0)
      | none => '\n' }
  let (t, status) : TextReading × Nat ← act (rules.readText s.charset)
  let pieces := t.line.all
  let whole := Piece.text pieces
  match valueOf? options 'a', names with
  | some list, _ =>
    if !isName list then failWith (invalidName list) 1
    if !(← mayChange list) then pure 1
    else
      let fields := (Fields.ofPieces s.separators pieces).map Glyphs.text
      putElements list false (fields.map fun t => { value := t })
      pure status
  | none, [] => do pure (if ← giveTo "REPLY" whole then status else 1)
  | none, name :: more =>
    let values := if rules.isExact then [whole]
      else readValues s.separators (more.length + 1) pieces
    let padded := values ++ List.replicate (more.length + 1 - values.length) ""
    let went ← forEach (fun ((name, value) : String × String) => do
      if !isTarget name then
        warn (invalidName name)
        pure false
      else giveTo name value) 0 ((name :: more).zip padded)
    pure (if went = 0 then status else 1)

/-- Texts up to a mark, each with the mark or without it. -/
def marked (mark : Char) (keeps : Bool) : List Char → List Char → List String
  | [], [] => []
  | current, [] => [String.ofList current.reverse]
  | current, c :: cs =>
    if c = mark then
      String.ofList (if keeps then c :: current else current).reverse :: marked mark keeps [] cs
    else marked mark keeps (c :: current) cs

/-- So many texts up to a mark that are read from a descriptor. -/
def readMarked (descriptor : Nat) (mark : Char) (count : Nat) : Act String :=
  Act.iterate (fun ((n, found) : Nat × List String) => do
    if n = 0 then pure (.done (String.join found.reverse))
    else
      match ← Act.ask (.read descriptor Act.blockSize (some mark)) with
      | .error _ | .ok "" => pure (.done (String.join found.reverse))
      | .ok text =>
        let n := if text.toList.getLast? = some mark then n - 1 else n
        pure (.again (n, text :: found))) (count, [])

def mapfile (args : List String) : Action Nat := do
  let (options, names) ← options "d:n:O:s:tu:C:c:" args
  let descriptor ← match valueOf? options 'u' with
    | some text => descriptorOf text
    | none => pure 0
  let amount (c : Char) (complaint : String) : Action Nat :=
    match valueOf? options c with
    | some text => amountOf text complaint
    | none => pure 0
  let count ← amount 'n' "invalid line count"
  let origin ← amount 'O' "invalid array origin"
  let skipped ← amount 's' "invalid line count"
  let mark := match valueOf? options 'd' with
    | some text => text.toList.headD (Char.ofNat 0)
    | none => '\n'
  let name := names.headD "MAPFILE"
  if !isName name then failWith (invalidName name) 1
  if !(← mayChange name) then pure 1
  else
    let text ← if count = 0 then do pure ((← act (Act.readAll descriptor)).toOption.getD "")
      else act (readMarked descriptor mark (skipped + count))
    let all := (marked mark (!hasLetter options 't') [] text.toList).drop skipped
    let all := if count = 0 then all else all.take count
    let all := all.map fun t => String.ofList (t.toList.filter (· != Char.ofNat 0))
    let keeps := (valueOf? options 'O').isSome
    let places := (List.range all.length).map fun i => toString (origin + i)
    putElements name keeps ((places.zip all).map fun (p, t) => { subscript := some p, value := t })
    pure 0

end PipelineRunner.Shell.Extended.Builtin
