import PipelineRunner.Utility.Input

/-!
Scripts of the stream editor: commands, each with the lines that it is meant for. The editor takes a
line into its pattern space, carries out the commands that are meant for it, and prints what the
pattern space holds then.
-/

namespace PipelineRunner.Utility.StreamEditor

open Text

/-- A way to name a line. -/
inductive Address where
  | line (number : Nat)
  | last
  /-- The lines in which an expression is found: without one, it is the one that has been looked for
  last. -/
  | regex (r : Option Regex)
  /-- A line, and every so manieth behind it. -/
  | step (first step : Nat)

/-- Where a range of lines ends. -/
inductive RangeEnd where
  | address (a : Address)
  /-- So many lines behind its start. -/
  | after (count : Nat)
  /-- At the next line of which the number is a multiple. -/
  | multiple (factor : Nat)

/-- The lines that a command is meant for. -/
structure Selector where
  start : Option Address := none
  finish : Option RangeEnd := none
  isNegated : Bool := false

/-- How the letters of a replacement are changed. -/
inductive LetterCase where
  | asItIs
  | upper
  | lower
  deriving DecidableEq, Repr

/-- A part of a replacement: a text, and then what a group has taken. -/
structure Piece where
  text : List Char := []
  group : Option Nat := none
  letters : LetterCase := .asItIs
  /-- How the first letter is changed. -/
  first : LetterCase := .asItIs
  deriving Repr

/-- A replacement of what an expression takes. -/
structure Substitution where
  regex : Option Regex
  pieces : List Piece
  isGlobal : Bool := false
  /-- The first of the places that are replaced. -/
  number : Nat := 1
  prints : Bool := false
  /-- Whether the result is run as a command. -/
  evaluates : Bool := false
  file : Option String := none

/-- When a jump is made. -/
inductive JumpRule where
  | always
  /-- If something has been replaced since the line was read or a jump of this kind was made. -/
  | afterReplacing
  | withoutReplacing
  deriving DecidableEq, Repr

/-- What a command does. -/
inductive Verb where
  | nothing
  /-- Leads to the command behind its end for all other lines. -/
  | block (finish : Nat)
  | jump (rule : JumpRule) (label : String)
  | lineNumber
  | fileName
  | append (text : String)
  | insert (text : String)
  | change (text : String)
  | delete
  /-- Deletes the first line and begins again with the rest. -/
  | deleteFirst
  /-- Runs a command; an empty one stands for the pattern space. -/
  | execute (command : String)
  | takeHold (joins : Bool)
  | hold (joins : Bool)
  | exchange
  | list (width : Option Nat)
  | next (joins : Bool)
  | print (firstOnly : Bool)
  | quit (code : Nat) (prints : Bool)
  | readFile (name : String)
  | readLine (name : String)
  | substitute (s : Substitution)
  | translate (pairs : List (Char × Char))
  | write (name : String) (firstOnly : Bool)
  | empty

/-- A command. -/
structure Command where
  selector : Selector
  verb : Verb

/-- A script. -/
structure Script where
  commands : Array Command
  /-- The labels, with the numbers of the commands that they stand at. -/
  labels : List (String × Nat)
  isQuiet : Bool

def Script.written (s : Script) : List String :=
  (s.commands.toList.filterMap fun c =>
    match c.verb with
    | .write name _ => some name
    | .substitute s => s.file
    | _ => none).eraseDups

/-- The number of some digits at the front, at most so many of them, in a base; and what follows. -/
def digitsAt (base most : Nat) (cs : List Char) : Option (Nat × List Char) :=
  let value? (c : Char) : Option Nat :=
    let n := if c.isDigit then c.toNat - 48 else c.toLower.toNat - 87
    if (c.isDigit || ('a' ≤ c.toLower && c.toLower ≤ 'f')) && n < base then some n else none
  let digits := (cs.take most).takeWhile fun c => (value? c).isSome
  if digits.isEmpty then none
  else
    let n := digits.foldl (fun n c => n * base + (value? c).getD 0) 0
    some (n % 256, cs.drop digits.length)

/-- The character that a letter behind a backslash stands for with the digits behind it, and what
follows. -/
def codeAt (letter : Char) (cs : List Char) : Option (Char × List Char) :=
  let numbered (base most : Nat) : Option (Char × List Char) :=
    (digitsAt base most cs).map fun (n, rest) => (Char.ofNat n, rest)
  match letter, cs with
  | 'd', _ => numbered 10 3
  | 'o', _ => numbered 8 3
  | 'x', _ => numbered 16 2
  | 'c', c :: rest => some (Char.ofNat (c.toUpper.toNat ^^^ 64), rest)
  | _, _ => none

/-- The character that a single letter behind a backslash stands for. -/
def controlOf? (letter : Char) : Option Char :=
  match letter with
  | 'a' => some '\x07'
  | 'f' => some '\x0c'
  | 'n' => some '\n'
  | 'r' => some '\x0d'
  | 't' => some '\t'
  | 'v' => some '\x0b'
  | _ => none

/-- An expression with the characters that stand there as numbers. -/
def withCodes : Nat → List Char → List Char
  | 0, cs => cs
  | _, [] => []
  | fuel + 1, '\\' :: c :: cs =>
    match codeAt c cs with
    | some (d, rest) => d :: withCodes fuel rest
    | none => '\\' :: c :: withCodes fuel cs
  | fuel + 1, c :: cs => c :: withCodes fuel cs

def plainText : Nat → List Char → List Char
  | 0, cs => cs
  | _, [] => []
  | _, ['\\'] => []
  | fuel + 1, '\\' :: c :: cs =>
    match codeAt c cs, controlOf? c with
    | some (d, rest), _ => d :: plainText fuel rest
    | none, some d => d :: plainText fuel cs
    | none, none => c :: plainText fuel cs
  | fuel + 1, c :: cs => c :: plainText fuel cs

/-- How the letters of the next parts of a replacement are changed. -/
structure Casing where
  letters : LetterCase := .asItIs
  first : LetterCase := .asItIs

/-- The parts of a replacement; those so far and the text that has begun stand backwards. -/
def piecesOf : Nat → Casing → List Piece → List Char → List Char → List Piece
  | 0, _, done, _, _ => done.reverse
  | _, k, done, begun, [] => (⟨begun.reverse, none, k.letters, k.first⟩ :: done).reverse
  | fuel + 1, k, done, begun, c :: cs =>
    let ended (group : Option Nat) : List Piece :=
      ⟨begun.reverse, group, k.letters, k.first⟩ :: done
    let kept : Casing := { letters := k.letters }
    match c, cs with
    | '&', cs => piecesOf fuel kept (ended (some 0)) [] cs
    | '\\', e :: rest =>
      if e.isDigit then piecesOf fuel kept (ended (some (e.toNat - 48))) [] rest
      else
        match e with
        | 'U' => piecesOf fuel { letters := .upper } (ended none) [] rest
        | 'L' => piecesOf fuel { letters := .lower } (ended none) [] rest
        | 'E' => piecesOf fuel {} (ended none) [] rest
        | 'u' => piecesOf fuel { kept with first := .upper } (ended none) [] rest
        | 'l' => piecesOf fuel { kept with first := .lower } (ended none) [] rest
        | e =>
          match codeAt e rest, controlOf? e with
          | some (d, rest), _ => piecesOf fuel k done (d :: begun) rest
          | none, some d => piecesOf fuel k done (d :: begun) rest
          | none, none => piecesOf fuel k done (e :: begun) rest
    | c, cs => piecesOf fuel k done (c :: begun) cs

def replacement (cs : List Char) : List Piece := piecesOf (cs.length + 1) {} [] [] cs

def LetterCase.apply : LetterCase → Char → Char
  | .asItIs => id
  | .upper => Text.Letters.upper
  | .lower => Text.Letters.lower

/-- A text with its letters and its first one changed. -/
def Casing.apply (charset : Charset) (k : Casing) (text : String) : String :=
  let c := Characters.of charset text
  let cs := c.chars.toList
  let first := if k.first = .asItIs then k.letters else k.first
  c.encoded ((cs.take 1).map first.apply ++ (cs.drop 1).map k.letters.apply)

/-- The text that is put in the place of what has been found. A change of a first letter that has
found none waits for the next part. -/
def expand (charset : Charset) (taken : Nat → String) : LetterCase → List Piece → String
  | _, [] => ""
  | waiting, p :: rest =>
    let first := if p.first = .asItIs then waiting else p.first
    let text := String.ofList p.text
    let here := Casing.apply charset ⟨p.letters, first⟩ text
    match p.group with
    | none => here ++ expand charset taken .asItIs rest
    | some n =>
      let first := if text.isEmpty then first else .asItIs
      let found := taken n
      if found.isEmpty then
        here ++ expand charset taken (if p.first = .asItIs then .asItIs else first) rest
      else
        here ++ Casing.apply charset ⟨p.letters, first⟩ found ++
          expand charset taken .asItIs rest

/-! ### Reading scripts

Reading scripts of the stream editor. A complaint names the expression or the file that it is about,
and how far that has been read. -/

open Text

/-- Where a part of the script comes from. -/
inductive Source where
  | expression (number : Nat)
  | file (name : String)
  deriving Repr

/-- A part of the script that is being read. -/
structure Cursor where
  origin : Source
  /-- How bytes make up characters. -/
  charset : Charset
  rest : List Char
  /-- How many characters have been read. -/
  place : Nat := 0
  line : Nat := 1

/-- What reads a part of the script. -/
abbrev Reading (α : Type) : Type := StateT Cursor (Except String) α

namespace Reading

variable {α : Type}

def position (c : Cursor) : String :=
  match c.origin with
  | .expression number => s!"-e expression #{number}, char {c.place}: "
  | .file name => s!"file {name} line {c.line}: "

def refuse (text : String) : Reading α := fun c => .error (position c ++ text)

def advance (count : Nat) : Reading Unit := modify fun c =>
  { c with
    rest := c.rest.drop count
    place := c.place + count
    line := c.line + ((c.rest.take count).filter (· == '\n')).length }

def peek : Reading (Option Char) := do return (← get).rest.head?

def next : Reading (Option Char) := do
  let c ← peek
  if c.isSome then advance 1
  pure c

/-- Takes the characters in front of the first one that fails a test. -/
def takeWhile (p : Char → Bool) : Reading (List Char) := do
  let cs := (← get).rest.takeWhile p
  advance cs.length
  pure cs

def isBlank (c : Char) : Bool := c == ' ' || c == '\t'

def isSpace (c : Char) : Bool := isBlank c || "\n\x0b\x0c\x0d".toList.contains c

/-- Takes the next character that is no blank. -/
def nextVisible : Reading (Option Char) := do
  let _ ← takeWhile isBlank
  next

/-- The next character that is no blank. -/
def peekVisible : Reading (Option Char) := do
  let _ ← takeWhile isBlank
  peek

def number : Reading Nat := do
  return (Text.digits? (← takeWhile Char.isDigit)).getD 0

/-- What a text between delimiters goes through. -/
inductive Within where
  | text
  /-- A set of characters; `isStart` if a bracket belongs to it. -/
  | set (isStart : Bool)
  /-- A name in a set. -/
  | name (mark : Char)

/-- Cuts a text at the next delimiter; the characters so far stand backwards. In an expression sets
keep delimiters. Without a delimiter there is only what follows. -/
def cut (delimiter : Char) (isRegex : Bool) :
    Within → List Char → List Char → Option (List Char) × List Char
  | _, _, [] => (none, [])
  | _, _, '\n' :: rest => (none, '\n' :: rest)
  | .text, done, '\\' :: e :: rest =>
    if delimiter = '\\' then (some done.reverse, e :: rest)
    else if e = 'n' && isRegex then cut delimiter isRegex .text ('\n' :: done) rest
    else if e = '\n' || (e = delimiter && (isRegex || e != '&')) then
      cut delimiter isRegex .text (e :: done) rest
    else cut delimiter isRegex .text (e :: '\\' :: done) rest
  | .text, done, '[' :: '^' :: rest =>
    if delimiter = '[' then (some done.reverse, '^' :: rest)
    else if isRegex && delimiter != '^' then
      cut delimiter isRegex (.set true) ('^' :: '[' :: done) rest
    else if delimiter = '^' then (some ('[' :: done).reverse, rest)
    else cut delimiter isRegex .text ('^' :: '[' :: done) rest
  | .text, done, c :: rest =>
    if c = delimiter then (some done.reverse, rest)
    else cut delimiter isRegex (if isRegex && c = '[' then .set true else .text) (c :: done) rest
  | .set isStart, done, ']' :: rest =>
    cut delimiter isRegex (if isStart then .set false else .text) (']' :: done) rest
  | .set _, done, '[' :: mark :: rest =>
    if [':', '.', '='].contains mark then
      cut delimiter isRegex (.name mark) (mark :: '[' :: done) rest
    else if mark = ']' then cut delimiter isRegex .text (mark :: '[' :: done) rest
    else if mark = '\n' then (none, mark :: rest)
    else cut delimiter isRegex (.set false) (mark :: '[' :: done) rest
  | .set _, done, '\\' :: e :: rest =>
    if e = 'n' then cut delimiter isRegex (.set false) ('\n' :: done) rest
    else if e = delimiter then cut delimiter isRegex (.set false) (e :: done) rest
    else if e = ']' then cut delimiter isRegex .text (e :: '\\' :: done) rest
    else if e = '\n' then (none, e :: rest)
    else cut delimiter isRegex (.set false) (e :: '\\' :: done) rest
  | .set _, done, c :: rest => cut delimiter isRegex (.set false) (c :: done) rest
  | .name mark, done, c :: ']' :: rest =>
    if c = mark then cut delimiter isRegex (.set false) (']' :: c :: done) rest
    else cut delimiter isRegex (.set false) (']' :: c :: done) rest
  | .name mark, done, c :: rest => cut delimiter isRegex (.name mark) (c :: done) rest

/-- The text up to the next delimiter, if there is one. -/
def delimited (delimiter : Char) (isRegex : Bool) : Reading (Option (List Char)) := do
  let rest := (← get).rest
  let (text, behind) := cut delimiter isRegex .text [] rest
  advance (rest.length - behind.length)
  pure text

/-- The expression that a text is: nothing, if it is empty. -/
def regex (d : Regex.Dialect) (isFolded : Bool) (cs : List Char) : Reading (Option Regex) := do
  if cs.isEmpty then pure none
  else
    match readRegex (← get).charset d (String.ofList (withCodes (cs.length + 1) cs)) with
    | .error e => refuse e.message
    | .ok r => pure (some (if isFolded then r.folded else r))

/-- The letters behind an expression: whether letters are folded, and lines are looked at. -/
def addressFlags : Nat → Bool × Bool → Reading (Bool × Bool)
  | 0, flags => pure flags
  | fuel + 1, (folded, byLine) => do
    match ← peekVisible with
    | some 'I' => do
      advance 1
      addressFlags fuel (true, byLine)
    | some 'M' => do
      advance 1
      addressFlags fuel (folded, true)
    | _ => pure (folded, byLine)

def regexAddress (d : Regex.Dialect) (delimiter : Char) : Reading Address := do
  match ← delimited delimiter true with
  | none => refuse "unterminated address regex"
  | some cs => do
    let (folded, byLine) ← addressFlags ((← get).rest.length + 1) (false, false)
    return .regex (← regex { d with byLine } folded cs)

/-- What may stand at a place where an address is expected. -/
inductive Named where
  | address (a : Address)
  | relative (e : RangeEnd)

/-- An address, if one begins with this character, which has been taken. -/
def address? (d : Regex.Dialect) (c : Char) : Reading (Option Named) := do
  let numbered : Reading Nat := do
    let digits ← takeWhile Char.isDigit
    return (Text.digits? (c :: digits)).getD 0
  if c.isDigit then
    let n ← numbered
    if (← peekVisible) = some '~' then
      advance 1
      let step ← if (← peekVisible).any Char.isDigit then number else pure 0
      pure (some (.address (if step = 0 then .line n else .step n step)))
    else pure (some (.address (.line n)))
  else
    match c with
    | '/' => return some (.address (← regexAddress d '/'))
    | '\\' =>
      match ← next with
      | some delimiter => return some (.address (← regexAddress d delimiter))
      | none => refuse "unterminated address regex"
    | '$' => pure (some (.address .last))
    | '+' | '~' =>
      let n ← if (← peekVisible).any Char.isDigit then number else pure 0
      pure (some (.relative (if c = '+' then .after n else .multiple n)))
    | _ => pure none

def endOfCommand : Reading Unit := do
  match ← peekVisible with
  | none | some '\x7d' | some '#' => pure ()
  | some c =>
    advance 1
    if c = '\n' || c = ';' then pure ()
    else refuse "extra characters after command"

def label : Reading String := do
  let _ ← takeWhile isBlank
  return String.ofList (← takeWhile fun c => !isSpace c && c != ';' && c != '\x7d')

/-- The name of a file, which goes up to the end of the line. -/
def fileName : Reading String := do
  let _ ← takeWhile isBlank
  let name ← takeWhile (· != '\n')
  if name.isEmpty then refuse "missing filename in r/R/w/W commands"
  pure (String.ofList name)

/-- The length of a text up to the end of a line that no backslash joins with the next one. -/
def joinedLength : List Char → Nat
  | [] => 0
  | ['\\'] => 1
  | '\\' :: _ :: cs => joinedLength cs + 2
  | c :: cs => if c = '\n' then 0 else joinedLength cs + 1

/-- The lines of a text, with the end of the last one. -/
def textLines : Reading String := do
  let rest := (← get).rest
  let count := joinedLength rest
  let cs := rest.take count
  advance (count + 1)
  pure (String.ofList (plainText (cs.length + 1) cs ++ ['\n']))

/-- The text of a command; nothing, if the part of the script ends in front of it. -/
def text : Reading (Option String) := do
  match ← peekVisible with
  | none => refuse "expected \\ after \x60a', \x60c' or \x60i'"
  | some '\\' => do
    advance 1
    match ← peek with
    | none => pure none
    | some c =>
      if c = '\n' then advance 1
      return some (← textLines)
  | some _ => return some (← textLines)

def flags (s : Substitution) (folded byLine counted : Bool) :
    Nat → Reading (Substitution × Bool × Bool)
  | 0 => pure (s, folded, byLine)
  | fuel + 1 => do
    let twice (letter : String) : String :=
      "multiple \x60" ++ letter ++ "' options to \x60s' command"
    match ← peek with
    | none => pure (s, folded, byLine)
    | some c => do
      if c = '\x7d' || c = '#' then pure (s, folded, byLine)
      else
        advance 1
        match c with
        | '\n' | ';' => pure (s, folded, byLine)
        | 'i' | 'I' => flags s true byLine counted fuel
        | 'm' | 'M' => flags s folded true counted fuel
        | 'e' => flags { s with evaluates := true } folded byLine counted fuel
        | 'p' =>
          if s.prints then refuse (twice "p")
          else flags { s with prints := true } folded byLine counted fuel
        | 'g' =>
          if s.isGlobal then refuse (twice "g")
          else flags { s with isGlobal := true } folded byLine counted fuel
        | 'w' => do
          let name ← fileName
          pure ({ s with file := some name }, folded, byLine)
        | c =>
          if c.isDigit then do
            if counted then refuse "multiple number options to \x60s' command"
            let more ← takeWhile Char.isDigit
            let n := (Text.digits? (c :: more)).getD 0
            if n = 0 then refuse "number option to \x60s' command may not be zero"
            flags { s with number := n } folded byLine true fuel
          else if isBlank c || c = '\x0d' then flags s folded byLine counted fuel
          else refuse "unknown option to \x60s'"

def substitution (d : Regex.Dialect) : Reading Substitution := do
  let unterminated {α : Type} : Reading α := refuse "unterminated \x60s' command"
  match ← next with
  | none => unterminated
  | some delimiter => do
    match ← delimited delimiter true with
    | none => unterminated
    | some pattern =>
      match ← delimited delimiter false with
      | none => unterminated
      | some new => do
        let pieces := replacement new
        let fuel := (← get).rest.length + 1
        let (s, folded, byLine) ← flags ⟨none, pieces, false, 1, false, false, none⟩
          false false false fuel
        let r ← regex { d with byLine } folded pattern
        let highest : Nat := pieces.foldl (fun n p => Nat.max n (p.group.getD 0)) 0
        if r.any fun r => r.groupCount < highest then
          refuse s!"invalid reference \\{highest} on \x60s' command's RHS"
        pure { s with regex := r }

def tableChars : Nat → List Char → List Char
  | 0, _ => []
  | _, [] => []
  | fuel + 1, '\\' :: c :: cs =>
    match codeAt c cs, controlOf? c with
    | some (d, rest), _ => d :: tableChars fuel rest
    | none, some d => d :: tableChars fuel cs
    | none, none => c :: tableChars fuel cs
  | fuel + 1, c :: cs => c :: tableChars fuel cs

/-- The table behind the letter of a translation. -/
def translation : Reading (List (Char × Char)) := do
  let unterminated {α : Type} : Reading α := refuse "unterminated \x60y' command"
  match ← next with
  | none => unterminated
  | some delimiter => do
    match ← delimited delimiter false with
    | none => unterminated
    | some old =>
      match ← delimited delimiter false with
      | none => unterminated
      | some new => do
        let k := (← get).charset
        let decoded (cs : List Char) : List Char :=
          (Characters.of k (String.ofList (tableChars (cs.length + 1) cs))).chars.toList
        let old := decoded old
        let new := decoded new
        if old.length != new.length then
          refuse "strings for \x60y' command are different lengths"
        endOfCommand
        pure (old.zip new)

end Reading

/-- A script as far as it has been read; the latest command stands first. -/
structure Draft where
  commands : List Command := []
  labels : List (String × Nat) := []
  /-- The blocks that are open, the innermost first. -/
  blocks : List Nat := []
  isQuiet : Bool := false
  /-- Whether the text of the latest command stands in the next part. -/
  wantsText : Bool := false

namespace Draft

def count (d : Draft) : Nat := d.commands.length

def add (d : Draft) (selector : Selector) (verb : Verb) : Draft :=
  { d with commands := ⟨selector, verb⟩ :: d.commands }

/-- Closes the innermost block behind the latest command. -/
def close (d : Draft) (block : Nat) : Draft :=
  let finish := d.count
  { d with
    blocks := d.blocks.drop 1
    commands := d.commands.mapIdx fun i c =>
      if d.count - 1 - i = block then { c with verb := .block finish } else c }

def supply (d : Draft) (text : String) : Draft :=
  match d.commands with
  | c :: rest =>
    let verb : Verb := match c.verb with
      | .append _ => .append text
      | .insert _ => .insert text
      | .change _ => .change text
      | v => v
    { d with commands := { c with verb } :: rest, wantsText := false }
  | [] => { d with wantsText := false }

end Draft

namespace Reading

/-- The addresses in front of a command, and its letter. -/
def selector (dialect : Regex.Dialect) (c : Char) : Reading (Selector × Option Char) := do
  let unexpectedComma {α : Type} : Reading α := refuse "unexpected \x60,'"
  let (s, letter) : Selector × Option Char ← do
    match ← address? dialect c with
    | none => pure (({} : Selector), some c)
    | some (.relative _) => refuse "invalid usage of +N or ~N as first address"
    | some (.address start) => do
      match ← nextVisible with
      | some ',' => do
        let finish : RangeEnd ← do
          match ← nextVisible with
          | none => unexpectedComma
          | some c =>
            match ← address? dialect c with
            | none => unexpectedComma
            | some (.address a) => pure (.address a)
            | some (.relative e) => pure e
        let letter ← nextVisible
        pure (({ start := some start, finish := some finish } : Selector), letter)
      | letter => pure (({ start := some start } : Selector), letter)
  let isBehindZero : Bool := match s.start, s.finish with
    | some (.line 0), some (.address (.regex _)) => false
    | some (.line 0), _ => true
    | _, _ => false
  if isBehindZero then refuse "invalid usage of line address 0"
  if letter = some '!' then
    let letter ← nextVisible
    if letter = some '!' then refuse "multiple \x60!'s"
    pure ({ s with isNegated := true }, letter)
  else pure (s, letter)

/-- A command that has a letter only. -/
def simple? (c : Char) : Option Verb :=
  match c with
  | '=' => some .lineNumber
  | 'd' => some .delete
  | 'D' => some .deleteFirst
  | 'F' => some .fileName
  | 'g' => some (.takeHold false)
  | 'G' => some (.takeHold true)
  | 'h' => some (.hold false)
  | 'H' => some (.hold true)
  | 'n' => some (.next false)
  | 'N' => some (.next true)
  | 'p' => some (.print false)
  | 'P' => some (.print true)
  | 'z' => some .empty
  | 'x' => some .exchange
  | _ => none

/-- A number behind the letter of a command. -/
def argument : Reading (Option Nat) := do
  let n ← if (← peekVisible).any Char.isDigit then some <$> number else pure none
  endOfCommand
  pure n

def command (dialect : Regex.Dialect) (d : Draft) (s : Selector) (letter : Char) :
    Reading Draft := do
  let withText (verb : String → Verb) : Reading Draft := do
    match ← text with
    | some t => pure (d.add s (verb t))
    | none => pure { d.add s (verb "") with wantsText := true }
  let once : Reading Unit :=
    if s.finish.isSome then refuse "command only uses one address" else pure ()
  match letter with
  | '#' => do
    if s.start.isSome then refuse "comments don't accept any addresses"
    let isFirst := d.count = 0 && (← get).place = 1 && (← get).line = 1
    let comment ← takeWhile (· != '\n')
    let isQuiet := match (← get).origin with
      | .expression 1 | .file _ => isFirst && comment = ['n']
      | _ => false
    pure { d with isQuiet := d.isQuiet || isQuiet }
  | 'v' => do
    let version ← label
    let numbers := (Text.splitAt '.' version.toList).map fun cs => (Text.digits? cs).getD 0
    if [4, 9] < numbers then refuse "expected newer version of sed"
    pure d
  | '\x7b' => pure { d.add s (.block 0) with blocks := d.count :: d.blocks }
  | '\x7d' =>
    match d.blocks with
    | [] => refuse "unexpected \x60\x7d'"
    | block :: _ => do
      if s.start.isSome then refuse "\x60\x7d' doesn't want any addresses"
      endOfCommand
      pure (d.close block)
  | ':' => do
    if s.start.isSome then refuse ": doesn't want any addresses"
    let name ← label
    if name.isEmpty then refuse "\":\" lacks a label"
    pure { d with labels := d.labels ++ [(name, d.count)] }
  | 'b' => do return d.add s (.jump .always (← label))
  | 't' => do return d.add s (.jump .afterReplacing (← label))
  | 'T' => do return d.add s (.jump .withoutReplacing (← label))
  | 'a' => withText .append
  | 'i' => withText .insert
  | 'c' => withText .change
  | 'e' => do
    let _ ← takeWhile isBlank
    let cs ← takeWhile (· != '\n')
    advance 1
    pure (d.add s (.execute (String.ofList cs)))
  | 'l' => do return d.add s (.list (← argument))
  | 'q' => do
    once
    return d.add s (.quit ((← argument).getD 0) true)
  | 'Q' => do
    once
    return d.add s (.quit ((← argument).getD 0) false)
  | 'r' => do return d.add s (.readFile (← fileName))
  | 'R' => do return d.add s (.readLine (← fileName))
  | 'w' => do return d.add s (.write (← fileName) false)
  | 'W' => do return d.add s (.write (← fileName) true)
  | 's' => do return d.add s (.substitute (← substitution dialect))
  | 'y' => do return d.add s (.translate (← translation))
  | c =>
    match simple? c with
    | some verb => do
      endOfCommand
      pure (d.add s verb)
    | none => refuse ("unknown command: \x60" ++ String.singleton c ++ "'")

def commands (dialect : Regex.Dialect) : Nat → Draft → Reading Draft
  | 0, d => pure d
  | fuel + 1, d => do
    let _ ← takeWhile fun c => c = ';' || isSpace c
    match ← next with
    | none => pure d
    | some c => do
      let (s, letter) ← selector dialect c
      match letter with
      | none => refuse "missing command"
      | some letter => commands dialect fuel (← command dialect d s letter)

def part (dialect : Regex.Dialect) (d : Draft) : Reading Draft := do
  let d ← if d.wantsText && !(← get).rest.isEmpty then d.supply <$> textLines else pure d
  commands dialect ((← get).rest.length + 1) d

/-- Reads the parts of a script, one behind the other. -/
def parts (k : Charset) (dialect : Regex.Dialect) : Draft → List (Source × String) → Except String Draft
  | d, [] => .ok d
  | d, (origin, text) :: rest => do
    let (d, c) ← (part dialect d).run { origin, charset := k, rest := text.toList }
    if rest.isEmpty && !d.blocks.isEmpty then
      throw (position { c with place := 0 } ++ "unmatched \x60\x7b'")
    parts k dialect d rest

end Reading

/-- Reads a script, or tells why that is not possible, with the code for it. -/
def Script.parse (k : Charset) (dialect : Regex.Dialect) (parts : List (Source × String)) :
    Except (Nat × String) Script := do
  let d ← (Reading.parts k dialect {} parts).mapError ((1, ·))
  let commands := d.commands.reverse
  let missing := commands.findSome? fun c =>
    match c.verb with
    | .jump _ name =>
      if name.isEmpty || d.labels.any fun l => l.1 == name then none else some name
    | _ => none
  match missing with
  | some name => throw (4, "can't find label for jump to \x60" ++ name ++ "'")
  | none => pure ⟨commands.toArray, d.labels, d.isQuiet⟩

end PipelineRunner.Utility.StreamEditor
