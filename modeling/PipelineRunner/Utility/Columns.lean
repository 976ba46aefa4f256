import PipelineRunner.Text.CharClass
import PipelineRunner.Utility.Input

/-!
Utilities that take columns out of lines, put lines beside each other, and put characters in the
place of others.
-/

namespace PipelineRunner.Utility

open Host Text Job

/-- The places that a list selects: each range from one number to another, or without an end. -/
abbrev Selection := List (Nat × Option Nat)

namespace Selection

def has (s : Selection) (n : Nat) : Bool := s.any fun (a, b) => a ≤ n && b.all (n ≤ ·)

/-- Whether a selected range begins at a place and does not go on from the place in front of it. -/
def beginsAt (s : Selection) (n : Nat) : Bool :=
  (s.any fun (a, _) => a == n) && !(s.any fun (a, b) => a < n && b.all (n ≤ ·))

/-- What the places of a list are. -/
inductive Places where
  | fields
  | bytes
  deriving DecidableEq, Repr

namespace Places

def zero : Places → String
  | fields => "fields are numbered from 1"
  | bytes => "byte/character positions are numbered from 1"

def range : Places → String
  | fields => "invalid field range"
  | bytes => "invalid byte or character range"

/-- Complaint about something that is no number. -/
def value (p : Places) (text : String) : String :=
  (match p with
    | fields => "invalid field value "
    | bytes => "invalid byte/character position ") ++ quoted text

end Places

/-- A range that is being read. -/
structure OpenRange where
  /-- The place in front of a hyphen, if there has been one. -/
  first : Option Nat := none
  /-- Whether there was no number in front of it. -/
  isFromStart : Bool := false
  /-- The number at hand, if it has begun. -/
  number : Option Nat := none

def OpenRange.close (p : Places) (r : OpenRange) : Except String (Nat × Option Nat) :=
  match r.first, r.number with
  | none, none | none, some 0 => .error p.zero
  | none, some n => .ok (n, some n)
  | some a, none =>
    if r.isFromStart then .error "invalid range with no endpoint: -" else .ok (a, none)
  | some a, some b => if b < a then .error "invalid decreasing range" else .ok (a, some b)

/-- Reads a list of ranges; those so far stand backwards. -/
def readFrom (p : Places) (r : OpenRange) (done : Selection) : List Char → Except String Selection
  | [] => do
    let range ← r.close p
    pure (range :: done).reverse
  | c :: cs =>
    if c = '-' then
      match r.first, r.number with
      | some _, _ => .error p.range
      | none, some 0 => .error p.zero
      | none, n => readFrom p { first := some (n.getD 1), isFromStart := n.isNone } done cs
    else if c = ',' || c = ' ' || c = '\t' then do
      let range ← r.close p
      readFrom p {} (range :: done) cs
    else if c.isDigit then
      readFrom p { r with number := some (r.number.getD 0 * 10 + (c.toNat - '0'.toNat)) } done cs
    else .error (p.value (String.ofList (c :: cs)))

def read (p : Places) (text : String) : Except String Selection := readFrom p {} [] text.toList

end Selection

def cut (args : List String) : Job Unit := do
  let known : List Known :=
    [.value "b" "bytes", .value "c" "characters", .value "d" "delimiter", .value "f" "fields",
      .flag "n" "n", .flag "s" "only-delimited", .flag "" "complement",
      .value "" "output-delimiter", .flag "z" "zero-terminated"]
  let a ← arguments 1 known args
  let isList (o : String × String) : Bool := ["bytes", "characters", "fields"].contains o.1
  let byFields := a.has "fields"
  let chosen ← a.options.foldlM (fun (chosen : Option String) o => do
    if o.1 = "delimiter" && 1 < o.2.length then misuse 1 "the delimiter must be a single character"
    if isList o && chosen.isSome then misuse 1 "only one list may be specified"
    pure (if isList o then some o.2 else chosen)) none
  match chosen with
  | none => misuse 1 "you must specify a list of bytes, characters, or fields"
  | some list =>
    if !byFields && a.has "delimiter" then
      misuse 1 "an input delimiter may be specified only when operating on fields"
    if !byFields && a.has "only-delimited" then
      misuse 1 "suppressing non-delimited lines makes sense\n\tonly when operating on fields"
    let delimiter := match a.last? "delimiter" with
      | none => '\t'
      | some text => text.toList.headD (Char.ofNat 0)
    match Selection.read (if byFields then .fields else .bytes) list with
    | .error text => misuse 1 text
    | .ok selection =>
      let isWanted (n : Nat) : Bool := selection.has n != a.has "complement"
      let separator := if a.has "zero-terminated" then Char.ofNat 0 else '\n'
      let between := a.last? "output-delimiter"
      let ofFields (line : String) : Option String :=
        let fields := Text.splitAt delimiter line.toList
        if fields.length ≤ 1 then (if a.has "only-delimited" then none else some line)
        else
          let wanted := fields.zipIdx.filter fun f => isWanted (f.2 + 1)
          some (Text.join (between.getD (String.singleton delimiter))
            (wanted.map fun f => String.ofList f.1))
      let ofBytes (line : String) : String :=
        let wanted := line.toList.zipIdx.filter fun c => isWanted (c.2 + 1)
        match between with
        | none => String.ofList (wanted.map (·.1))
        | some d =>
          String.join (wanted.zipIdx.map fun ((c, i), n) =>
            let isNew := if a.has "complement" then !isWanted i else selection.beginsAt (i + 1)
            (if 0 < n && isNew then d else "") ++ String.singleton c)
      each (fun name =>
        withInput ⟨1, about, about⟩ name fun d =>
          eachLine ⟨d, separator, Act.blockSize, [], [], false⟩ (fun (_ : Unit) l => do
            match if byFields then ofFields l.text else some (ofBytes l.text) with
            | some text => print (text.push separator)
            | none => pure ()
            pure (.again ())) ()) (inputs a.operands)

/-- The separators that a text describes; an empty one separates nothing. -/
def separators : List Char → List String
  | '\\' :: 'n' :: cs => "\n" :: separators cs
  | '\\' :: 't' :: cs => "\t" :: separators cs
  | '\\' :: '0' :: cs => "" :: separators cs
  | '\\' :: '\\' :: cs => "\\" :: separators cs
  | c :: cs => String.singleton c :: separators cs
  | [] => []

/-- The texts with a separator behind each but the last; the separators come round again. -/
def interleaved (marks : List String) : Nat → List String → String
  | _, [] => ""
  | _, [s] => s
  | n, s :: rest =>
    s ++ (if marks.isEmpty then "" else marks.getD (n % marks.length) "") ++
      interleaved marks (n + 1) rest

/-- The part of the lines that the n-th of some readers of the same input gets. -/
def share (lines : List String) (count n : Nat) : List String :=
  (lines.zipIdx.filter fun l => l.2 % count == n).map (·.1)

/-- A file whose lines are put beside those of others. -/
structure Column where
  name : String
  lines : List String
  /-- Why it cannot be read. -/
  fault : Option FileError := none

/-- Shows one row: the first lines of some columns, with separators between them. That a column
cannot be read is said where its first line would stand. Separators in front of columns without a
line are held back until there is one, or until the end of a row that has any; `number` counts
them. -/
def pasteRow (marks : List String) (ending : Char) (isFirst : Bool) :
    Nat → Bool → String → List Column → Job Unit
  | _, _, _, [] => pure ()
  | number, hasAny, held, c :: rest => do
    let mark := if marks.isEmpty then "" else marks.getD (number % marks.length) ""
    match c.lines with
    | line :: _ =>
      print (held ++ line ++ if rest.isEmpty then String.singleton ending else mark)
      pasteRow marks ending isFirst (number + 1) true "" rest
    | [] =>
      match c.fault with
      | some e => if isFirst then fault 1 (about c.name e)
      | none => pure ()
      if rest.isEmpty then
        if hasAny then print (held.push ending)
      else pasteRow marks ending isFirst (number + 1) hasAny (held ++ mark) rest

def pasteRows (marks : List String) (ending : Char) (isFirst : Bool) :
    Nat → List Column → Job Unit
  | 0, _ => pure ()
  | fuel + 1, columns =>
    if !isFirst && columns.all (·.lines.isEmpty) then pure ()
    else do
      pasteRow marks ending isFirst 0 false "" columns
      pasteRows marks ending false fuel
        (columns.map fun c => { c with lines := c.lines.drop 1 })

/-- Puts the lines of files beside each other, or those of each file behind each other. -/
def paste (args : List String) : Job Unit := do
  let known : List Known :=
    [.value "d" "delimiters", .flag "s" "serial", .flag "z" "zero-terminated"]
  let a ← arguments 1 known args
  let delimiters := (a.last? "delimiters").getD "\t"
  if (delimiters.toList.reverse.takeWhile (· == '\\')).length % 2 = 1 then
    fail 1 ("delimiter list ends with an unescaped backslash: " ++ asName delimiters)
  let marks := separators delimiters.toList
  let separator := if a.has "zero-terminated" then Char.ofNat 0 else '\n'
  let names := inputs a.operands
  let readers := (names.filter (· == "-")).length
  let texts (s : String) : List String := (linesOf separator s).map (·.text)
  let content (name : String) (d : Nat) : Job Column := do
    let result ← act (Act.readAll d)
    closeInput d
    match result with
    | .ok text => pure { name, lines := texts text }
    | .error e => pure { name, lines := [], fault := some e }
  let input ← if names.contains "-" then content "-" 0 else pure { name := "-", lines := [] }
  if a.has "serial" then
    each (fun ((name, i) : String × Nat) => do
      let opened : Except FileError Nat ← openInput name
      match opened with
      | .error e => fault 1 (about name e)
      | .ok d =>
        let c ← if name != "-" then content name d
          else if (names.take i).contains "-" then pure { name, lines := [] }
          else pure input
        print ((interleaved marks 0 c.lines).push separator)
        match c.fault with
        | some e => fault 1 (about name e)
        | none => pure ()) names.zipIdx
  else
    let opened ← collect (fun (name : String) => do
      match ← openInput name with
      | .ok d => pure (name, d)
      | .error e => fail 1 (about name e)) names
    let columns ← collect (fun (((name, d), i) : (String × Nat) × Nat) => do
      if name != "-" then content name d
      else
        let n := ((names.take i).filter (· == "-")).length
        pure { input with lines := share input.lines readers n }) opened.zipIdx
    let rows := columns.foldl (fun n c => Nat.max n c.lines.length) 0
    pasteRows marks separator true (rows + 1) columns

/-- A part of a set of characters. -/
inductive TrPart where
  | chars (cs : List Char)
  | ofClass (name : String) (cs : List Char)
  /-- So many times, or as often as is needed. -/
  | repeated (c : Char) (times : Option Nat)

def allBytes : List Char := (List.range 256).map Char.ofNat

/-- A character with its escape, and what stands behind it. -/
def trChar : List Char → Option (Char × List Char)
  | '\\' :: c :: cs =>
    if Shell.Format.isOctal c then
      let digits := ((c :: cs).take 3).takeWhile Shell.Format.isOctal
      let digits := if 255 < Shell.Format.octal digits then digits.take 2 else digits
      some (Char.ofNat (Shell.Format.octal digits), (c :: cs).drop digits.length)
    else
      match c with
      | 'e' => some ('e', cs)
      | c => some ((Shell.Format.letter? c).getD c, cs)
  | c :: cs => some (c, cs)
  | [] => none

/-- What stands in front of a mark and a closing bracket, and what stands behind them. -/
def upTo (mark : Char) : List Char → List Char → Option (List Char × List Char)
  | name, c :: ']' :: rest =>
    if c = mark then some (name.reverse, rest) else upTo mark (c :: name) (']' :: rest)
  | name, c :: rest => upTo mark (c :: name) rest
  | _, [] => none

/-- The number of repetitions between a star and a bracket, and what stands behind them. -/
def repeatCount (cs : List Char) : Option (Option Nat × List Char) :=
  let digits := cs.takeWhile Char.isDigit
  match cs.drop digits.length with
  | ']' :: rest =>
    let n := if digits.head? = some '0' then Shell.Format.octal digits
      else (Text.digits? digits).getD 0
    some (if n = 0 then none else some n, rest)
  | _ => none

def trParts : Nat → List Char → Except String (List TrPart)
  | 0, _ => .ok []
  | _, [] => .ok []
  | fuel + 1, cs => do
    let special? : Option (Except String TrPart × List Char) := match cs with
      | '[' :: ':' :: rest =>
        (upTo ':' [] rest).map fun (name, rest) =>
          let name := String.ofList name
          match List.lookup name CharClass.names with
          | some k => (.ok (.ofClass name (allBytes.filter k.contains)), rest)
          | none => (.error ("invalid character class " ++ quoted name), rest)
      | '[' :: '=' :: rest =>
        (upTo '=' [] rest).map fun (name, rest) => (.ok (.chars name), rest)
      | '[' :: rest =>
        (trChar rest).bind fun (c, rest) =>
          match rest with
          | '*' :: rest => (repeatCount rest).map fun (n, rest) => (.ok (.repeated c n), rest)
          | _ => none
      | _ => none
    match special? with
    | some (part, rest) => return (← part) :: (← trParts fuel rest)
    | none =>
      match trChar cs with
      | none => pure []
      | some (a, rest) =>
        match rest with
        | '-' :: next@(_ :: _) =>
          match trChar next with
          | none => pure []
          | some (b, rest) =>
            if b < a then
              let shown := inShellQuotes (String.ofList [a, '-', b])
              throw s!"range-endpoints of {shown} are in reverse collating sequence order"
            let range := (List.range (b.toNat + 1 - a.toNat)).map fun i => Char.ofNat (a.toNat + i)
            return .chars range :: (← trParts fuel rest)
        | rest => return .chars [a] :: (← trParts fuel rest)

/-- The length of a part, if it does not depend on others. -/
def TrPart.length : TrPart → Nat
  | .chars cs | .ofClass _ cs => cs.length
  | .repeated _ n => n.getD 0

/-- The characters of some parts; a repetition without a number fills up to a length. -/
def expandParts (length : Nat) (parts : List TrPart) : List Char :=
  let fixed := parts.foldl (fun n p => n + p.length) 0
  parts.flatMap fun
    | .chars cs | .ofClass _ cs => cs
    | .repeated c (some n) => List.replicate n c
    | .repeated c none => List.replicate (length - fixed) c

/-- The places at which classes for the two cases stand among some parts. -/
def casePlaces (parts : List TrPart) : List Nat :=
  (parts.foldl (fun ((n, places) : Nat × List Nat) p =>
    match p with
    | .ofClass name cs =>
      (n + cs.length, if name = "upper" || name = "lower" then n :: places else places)
    | p => (n + p.length, places)) (0, [])).2

/-- Leaves one of every run of the same character out of a set, behind the last one written. -/
def squeezeFrom (isMeant : Char → Bool) :
    Option Char → List Char → List Char → List Char × Option Char
  | last, done, [] => (done.reverse, last)
  | last, done, c :: cs =>
    if last = some c && isMeant c then squeezeFrom isMeant last done cs
    else squeezeFrom isMeant (some c) (c :: done) cs

/-- Puts characters in the place of others, or leaves them out. -/
def tr (args : List String) : Job Unit := do
  let known : List Known :=
    [.flag "cC" "complement", .flag "d" "delete", .flag "s" "squeeze-repeats",
      .flag "t" "truncate-set1"]
  let a ← readArguments 1 known .inFront args
  let deletes := a.has "delete"
  let squeezes := a.has "squeeze-repeats"
  let parts (text : String) : Job (List TrPart) := do
    if (text.toList.reverse.takeWhile (· == '\\')).length % 2 = 1 then
      warn "warning: an unescaped backslash at end of string is not portable"
    match trParts (text.length + 1) text.toList with
    | .ok ps => pure ps
    | .error text => fail 1 text
  let least := if deletes != squeezes then 1 else 2
  let most := if deletes && !squeezes then 1 else 2
  match a.operands with
  | [] => misuse 1 "missing operand"
  | [only] =>
    if least = 2 then
      misuse 1 ("missing operand after " ++ quoted only ++
        (if deletes then "\nTwo strings must be given when both deleting and squeezing repeats."
          else "\nTwo strings must be given when translating."))
  | operands =>
    match operands.drop most with
    | extra :: _ =>
      misuse 1 ("extra operand " ++ quoted extra ++
        (if most = 1 && operands.length = 2 then
          "\nOnly one string may be given when deleting without squeezing repeats." else ""))
    | [] => pure ()
  let parts1 ← parts (a.operands.headD "")
  let parts2 ← match a.operands[1]? with
    | some text => parts text
    | none => pure []
  let set1 := expandParts 0 parts1
  let set1 := if a.has "complement" then allBytes.filter fun c => !set1.contains c else set1
  let translates := !deletes && a.operands.length = 2
  let set2 := expandParts (if translates then set1.length else 0) parts2
  if translates then
    let isOther : TrPart → Bool
      | .ofClass name _ => name != "upper" && name != "lower"
      | _ => false
    if parts2.any isOther then
      fail 1 ("when translating, the only character classes that may appear in\n" ++
        "string2 are 'upper' and 'lower'")
    if (casePlaces parts2).any fun n => !(casePlaces parts1).contains n then
      fail 1 "misaligned [:upper:] and/or [:lower:] construct"
    if set2.isEmpty && !a.has "truncate-set1" then
      fail 1 "when not truncating set1, string2 must be non-empty"
  let isDeleted := allBytes.map set1.contains
  let table : Array Char := (allBytes.map fun c =>
    if !translates then c
    else
      let olds := if a.has "truncate-set1" then set1.take set2.length else set1
      match (olds.reverse.idxOf? c).map fun i => olds.length - 1 - i with
      | some i => (set2[i]?.orElse fun _ => set2.getLast?).getD c
      | none => c).toArray
  let deleted : Array Bool := isDeleted.toArray
  let squeezed : Array Bool :=
    (allBytes.map fun c => (if a.operands.length = 2 then set2 else set1).contains c).toArray
  let result ← eachBlock 0 8192 (fun (last : Option Char) block => do
    let cs := block.toList
    let cs := if deletes then cs.filter fun c => !deleted.getD c.toNat false
      else if translates then cs.map fun c => table.getD c.toNat c
      else cs
    if squeezes then
      let (cs, last) := squeezeFrom (fun c => squeezed.getD c.toNat false) last [] cs
      print (String.ofList cs)
      pure (.again last)
    else
      print (String.ofList cs)
      pure (.again none)) none
  match result with
  | .ok _ => pure ()
  | .error e => fail 1 ("read error: " ++ e.reason)

end PipelineRunner.Utility
