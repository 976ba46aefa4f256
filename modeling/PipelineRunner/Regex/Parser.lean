import PipelineRunner.Regex.Basic
import PipelineRunner.Text.Basic

/-!
Reading regular expressions. There are two dialects, which differ in whether parentheses, braces and
bars have their meaning with a backslash in front or without; behind the tokens they are the same.
-/

namespace PipelineRunner

/-- Why a text is no regular expression. -/
inductive RegexError where
  /-- Nothing at all stands behind a bracket. -/
  | loneBracket
  | unmatchedBracket
  | unmatchedOpen
  | unmatchedClose
  | unmatchedBrace
  | badInterval
  | badRange
  | badClass
  | badSymbol
  | badRepetition
  | badReference
  | trailingBackslash
  deriving DecidableEq, Repr

def RegexError.message : RegexError → String
  | loneBracket => "Invalid regular expression"
  | unmatchedBracket => "Unmatched [, [^, [:, [., or [="
  | unmatchedOpen => "Unmatched ( or \\("
  | unmatchedClose => "Unmatched ) or \\)"
  | unmatchedBrace => "Unmatched \\\x7b"
  | badInterval => "Invalid content of \\\x7b\\\x7d"
  | badRange => "Invalid range end"
  | badClass => "Invalid character class name"
  | badSymbol => "Invalid collation character"
  | badRepetition => "Invalid preceding regular expression"
  | badReference => "Invalid back reference"
  | trailingBackslash => "Trailing backslash"

namespace Regex

/-- How regular expressions are written. -/
structure Dialect where
  /-- Whether parentheses, braces and bars have their meaning without a backslash. -/
  extended : Bool
  /-- Whether a backslash with a letter may stand for a control character. -/
  escapes : Bool := false
  /-- Whether a repetition of nothing is refused and does not stand for itself. -/
  isStrict : Bool := false
  /-- Whether the signs for both ends hold at the ends of lines too. -/
  byLine : Bool := false
  deriving DecidableEq, Repr

/-- A part of an expression. -/
inductive Token where
  | leaf (s : CharSet)
  | anchor (a : Anchor)
  | again (number : Nat)
  | opening
  | closing
  | bar
  | times (least : Nat) (most : Option Nat)
  deriving Repr

/-- The name of a class between a bracket with a colon and one behind a colon, and what follows. -/
def delimited (mark : Char) : List Char → Option (String × List Char)
  | cs =>
    let rec go : List Char → List Char → Option (String × List Char)
      | name, c :: ']' :: rest =>
        if c = mark then some (String.ofList name.reverse, rest) else go (c :: name) (']' :: rest)
      | name, c :: rest => go (c :: name) rest
      | _, [] => none
    go [] cs

/-- A single character of a set, and what follows. -/
def setChar (escapes : Bool) : List Char → Except RegexError (Char × List Char)
  | '[' :: '.' :: cs =>
    match delimited '.' cs with
    | some (name, rest) =>
      match name.toList with
      | [c] => .ok (c, rest)
      | _ => .error .badSymbol
    | none => .error .unmatchedBracket
  | '\\' :: 'n' :: cs => if escapes then .ok ('\n', cs) else .ok ('\\', 'n' :: cs)
  | '\\' :: 't' :: cs => if escapes then .ok ('\t', cs) else .ok ('\\', 't' :: cs)
  | c :: cs => .ok (c, cs)
  | [] => .error .unmatchedBracket

/-- The parts of a set up to its bracket, and what follows. The first one may be that bracket. -/
def setParts (escapes : Bool) : Nat → Bool → List SetPart → List Char →
    Except RegexError (List SetPart × List Char)
  | 0, _, _, _ => .error .unmatchedBracket
  | fuel + 1, isFirst, done, cs =>
    match cs with
    | [] => .error .unmatchedBracket
    | ']' :: rest =>
      if isFirst then setParts' fuel done cs else .ok (done.reverse, rest)
    | '[' :: ':' :: rest =>
      match delimited ':' rest with
      | none => .error .unmatchedBracket
      | some (name, rest) =>
        match List.lookup name CharClass.names with
        | some k => setParts escapes fuel false (.ofClass k :: done) rest
        | none => .error .badClass
    | '[' :: '=' :: rest =>
      match delimited '=' rest with
      | none => .error .unmatchedBracket
      | some (name, rest) =>
        let c := name.toList.headD '='
        setParts escapes fuel false (.range c c :: done) rest
    | cs => setParts' fuel done cs
where
  /-- Goes on with a character or a range. -/
  setParts' (fuel : Nat) (done : List SetPart) (cs : List Char) :
      Except RegexError (List SetPart × List Char) :=
    match setChar escapes cs with
    | .error e => .error e
    | .ok (a, rest) =>
      match rest with
      | '-' :: c :: behind =>
        if c = ']' then setParts escapes fuel false (.range a a :: done) rest
        else
          match setChar escapes (c :: behind) with
          | .error e => .error e
          | .ok (b, rest) =>
            if b < a then .error .badRange
            else setParts escapes fuel false (.range a b :: done) rest
      | rest => setParts escapes fuel false (.range a a :: done) rest

/-- The set behind a bracket, and what follows it. -/
def readSet (escapes : Bool) (cs : List Char) : Except RegexError (CharSet × List Char) := do
  let (negated, cs) : Bool × List Char := match cs with
    | '^' :: cs => (true, cs)
    | cs => (false, cs)
  if cs.isEmpty then throw .loneBracket
  let (parts, rest) ← setParts escapes (2 * cs.length + 2) true [] cs
  pure (⟨negated, parts, false⟩, rest)

/-- The bounds of a repetition, and what follows them. -/
def readBounds (cs : List Char) : Option ((Nat × Option Nat) × List Char) :=
  let low := cs.takeWhile Char.isDigit
  let rest := cs.drop low.length
  match rest with
  | ',' :: rest =>
    let high := rest.takeWhile Char.isDigit
    let least := (Text.digits? low).getD 0
    let most := Text.digits? high
    if most.any (· < least) then none else some ((least, most), rest.drop high.length)
  | rest => (Text.digits? low).map fun n => ((n, some n), rest)

/-- What a letter behind a backslash stands for in both dialects. -/
def escaped? (d : Dialect) (c : Char) : Option Token :=
  match c with
  | 'w' => some (.leaf (.wordChars false))
  | 'W' => some (.leaf (.wordChars true))
  | 's' => some (.leaf ⟨false, [.ofClass .space], false⟩)
  | 'S' => some (.leaf ⟨true, [.ofClass .space], false⟩)
  | 'b' => some (.anchor (.wordEdge false))
  | 'B' => some (.anchor (.wordEdge true))
  | '<' => some (.anchor .wordStart)
  | '>' => some (.anchor .wordEnd)
  | '\x60' => some (.anchor .start)
  | '\'' => some (.anchor .finish)
  | c =>
    if d.escapes then
      match c with
      | 'n' => some (.leaf (.single '\n'))
      | 't' => some (.leaf (.single '\t'))
      | 'r' => some (.leaf (.single '\x0d'))
      | 'f' => some (.leaf (.single '\x0c'))
      | 'v' => some (.leaf (.single '\x0b'))
      | 'a' => some (.leaf (.single '\x07'))
      | _ => none
    else none

def operator? (c : Char) : Option Token :=
  match c with
  | '(' => some .opening
  | ')' => some .closing
  | '|' => some .bar
  | '+' => some (.times 1 none)
  | '?' => some (.times 0 (some 1))
  | _ => none

/-- Whether an expression begins behind some tokens, of which the last stands first. -/
def isAtStart : List Token → Bool
  | [] => true
  | .opening :: _ | .bar :: _ => true
  | _ => false

/-- Whether an expression ends in front of some characters. -/
def isAtEnd : List Char → Bool
  | [] => true
  | '\\' :: ')' :: _ | '\\' :: '|' :: _ => true
  | _ => false

/-- Whether a repetition behind some tokens is refused; `isStar` if it is written with a star or
with braces. -/
def refuses (d : Dialect) (isStar : Bool) (done : List Token) : Bool :=
  d.isStrict && if d.extended then isAtStart done else isStar && match done with
    | .times .. :: _ => true
    | _ => false

/-- The token of the sign for the start, and of that for the end. -/
def Dialect.ends (d : Dialect) : Token × Token :=
  if d.byLine then (.anchor .lineStart, .anchor .lineEnd) else (.anchor .start, .anchor .finish)

/-- Cuts a text into tokens; those so far stand backwards. -/
def tokens (d : Dialect) : Nat → List Token → List Char → Except RegexError (List Token)
  | 0, done, _ => .ok done.reverse
  | _, done, [] => .ok done.reverse
  | fuel + 1, done, c :: cs =>
    let plain : Except RegexError (List Token) :=
      tokens d fuel (.leaf (.single c) :: done) cs
    match c with
    | '\\' =>
      match cs with
      | [] => .error .trailingBackslash
      | e :: rest =>
        let token? : Option Token := if d.extended then none else operator? e
        match token? with
        | some t => tokens d fuel (t :: done) rest
        | none =>
          if e = '\x7b' && !d.extended then
            if refuses d true done then .error .badRepetition
            else match readBounds rest with
            | some ((least, most), '\\' :: '\x7d' :: rest) =>
              tokens d fuel (.times least most :: done) rest
            | some (_, []) => .error .unmatchedBrace
            | _ => .error .badInterval
          else if '1' ≤ e && e ≤ '9' then tokens d fuel (.again (e.toNat - 48) :: done) rest
          else
            match escaped? d e with
            | some t => tokens d fuel (t :: done) rest
            | none => tokens d fuel (.leaf (.single e) :: done) rest
    | '.' => tokens d fuel (.leaf .everything :: done) cs
    | '[' =>
      match readSet d.escapes cs with
      | .ok (set, rest) => tokens d fuel (.leaf set :: done) rest
      | .error e => .error e
    | '*' =>
      let isPlain := !d.extended && match done with
        | .anchor .start :: earlier | .anchor .lineStart :: earlier => isAtStart earlier
        | done => isAtStart done
      if isPlain then plain
      else if refuses d true done then .error .badRepetition
      else tokens d fuel (.times 0 none :: done) cs
    | '^' =>
      if d.extended || isAtStart done then tokens d fuel (d.ends.1 :: done) cs else plain
    | '$' =>
      if d.extended || isAtEnd cs then tokens d fuel (d.ends.2 :: done) cs else plain
    | '\x7b' =>
      if !d.extended then plain
      else if refuses d true done then .error .badRepetition
      else
        match readBounds cs with
        | some ((least, most), '\x7d' :: rest) => tokens d fuel (.times least most :: done) rest
        | some (_, []) => if d.isStrict then .error .unmatchedBrace else plain
        | _ =>
          if !d.isStrict then plain
          else if cs.isEmpty then .error .unmatchedBrace
          else .error .badInterval
    | c =>
      match if d.extended then operator? c else none with
      | some (.times least most) =>
        if refuses d false done then .error .badRepetition
        else tokens d fuel (.times least most :: done) cs
      | some t => tokens d fuel (t :: done) cs
      | none => plain

/-- How far an expression has been read. -/
structure Progress where
  rest : List Token
  /-- The number of groups so far. -/
  groups : Nat

def repetitions (r : Regex) : List Token → Regex × List Token
  | .times least most :: rest => repetitions (.repeated r least most) rest
  | rest => (r, rest)

mutual

def alternatives : Nat → Progress → Except RegexError (Regex × Progress)
  | 0, _ => .error .badRepetition
  | fuel + 1, p => do
    let (a, p) ← sequence fuel .empty p
    match p.rest with
    | .bar :: rest =>
      let (b, p) ← alternatives fuel { p with rest }
      pure (.either a b, p)
    | _ => pure (a, p)

/-- Reads what stands in one alternative, behind what has been read of it. -/
def sequence : Nat → Regex → Progress → Except RegexError (Regex × Progress)
  | 0, _, _ => .error .badRepetition
  | fuel + 1, done, p => do
    let join (r : Regex) : Regex := match done with
      | .empty => r
      | done => .both done r
    match p.rest with
    | [] | .bar :: _ | .closing :: _ => pure (done, p)
    | .times .. :: rest => sequence fuel done { p with rest }
    | .leaf s :: rest =>
      let (r, rest) := repetitions (.one s) rest
      sequence fuel (join r) { p with rest }
    | .anchor a :: rest =>
      let (r, rest) := repetitions (.here a) rest
      sequence fuel (join r) { p with rest }
    | .again n :: rest =>
      if p.groups < n then throw .badReference
      let (r, rest) := repetitions (.again n false) rest
      sequence fuel (join r) { p with rest }
    | .opening :: rest =>
      let number := p.groups + 1
      let (r, p) ← alternatives fuel ⟨rest, number⟩
      match p.rest with
      | .closing :: rest =>
        let (r, rest) := repetitions (.group number r) rest
        sequence fuel (join r) { p with rest }
      | _ => throw .unmatchedOpen

end

def parse (d : Dialect) (text : String) : Except RegexError Regex := do
  let ts ← tokens d (text.length + 1) [] text.toList
  let (r, p) ← alternatives (2 * ts.length + 3) ⟨ts, 0⟩
  match p.rest with
  | [] => pure r
  | _ => throw .unmatchedClose

end Regex
end PipelineRunner
