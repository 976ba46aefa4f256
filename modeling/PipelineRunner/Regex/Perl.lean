import PipelineRunner.Regex.Basic
import PipelineRunner.Text.Basic

/-!
Regular expressions in the manner of Perl. Alternatives are tried in their order and repetitions say
whether they take much or little, so that the first way through an expression counts and not the
longest text.
-/

namespace PipelineRunner

/-- A regular expression in the manner of Perl. -/
inductive PerlRegex where
  /-- Takes nothing. -/
  | empty
  | one (set : CharSet)
  | here (a : Anchor)
  | both (first second : PerlRegex)
  | either (a b : PerlRegex)
  /-- So many times at least, and at most if there is a bound; at first as often as possible, or as
  seldom. -/
  | repeated (r : PerlRegex) (least : Nat) (most : Option Nat) (isLazy : Bool)
  /-- Remembers what the expression has taken. -/
  | group (number : Nat) (r : PerlRegex)
  /-- Takes once more what a group has taken. -/
  | again (number : Nat) (folded : Bool)
  /-- Looks whether the expression takes what stands behind a place, or in front of it, and takes
  nothing. -/
  | look (behind negated : Bool) (r : PerlRegex)
  /-- Only the first way through the expression is tried. -/
  | once (r : PerlRegex)
  /-- What is found begins here. -/
  | keep
  /-- Takes what the expression of a group takes; that of the number zero is the whole. -/
  | call (number : Nat)
  /-- Goes on by whether a group has taken anything. -/
  | ifTaken (number : Nat) (yes no : PerlRegex)
  deriving Repr, Inhabited

namespace PerlRegex

def groupCount : PerlRegex → Nat
  | both a b | either a b | ifTaken _ a b => a.groupCount + b.groupCount
  | repeated r _ _ _ | look _ _ r | once r => r.groupCount
  | group _ r => r.groupCount + 1
  | _ => 0

def groupOf? (n : Nat) : PerlRegex → Option PerlRegex
  | both a b | either a b | ifTaken _ a b => (a.groupOf? n).orElse fun _ => b.groupOf? n
  | repeated r _ _ _ | look _ _ r | once r => r.groupOf? n
  | group m r => if m = n then some (group m r) else r.groupOf? n
  | _ => none

/-- The greatest number of a group that it refers to. -/
def farthest : PerlRegex → Nat
  | both a b | either a b => Nat.max a.farthest b.farthest
  | repeated r _ _ _ | look _ _ r | once r | group _ r => r.farthest
  | again n _ | call n => n
  | ifTaken n a b => Nat.max n (Nat.max a.farthest b.farthest)
  | _ => 0

/-- The length of what it takes, if that is always the same. -/
def length? : PerlRegex → Option Nat
  | empty | here _ | look .. | keep => some 0
  | one _ => some 1
  | both a b => a.length?.bind fun m => b.length?.map (m + ·)
  | either a b | ifTaken _ a b =>
    a.length?.bind fun m => b.length?.bind fun n => if m = n then some m else none
  | repeated r least most _ =>
    if most = some least then r.length?.map (least * ·) else none
  | group _ r | once r => r.length?
  | again .. | call _ => none

/-- Whether what stands in front of a place can be looked at with it: each of its alternatives takes
texts of one length. -/
def looksBack : PerlRegex → Bool
  | either a b => a.looksBack && b.looksBack
  | group _ r => r.looksBack
  | r => r.length?.isSome

/-- What has been found on the way through an expression. -/
structure Way where
  groups : Regex.Groups := []
  /-- Where that what is found begins, if it is not where the way has begun. -/
  start : Option Nat := none

/-- Takes an expression at a place and goes on with what follows, as far as the fuel goes. -/
def walk (top : PerlRegex) (s : Subject) : Nat → PerlRegex → Nat → Way →
    (Nat → Way → Option (Nat × Way)) → Option (Nat × Way)
  | 0, _, _, _, _ => none
  | fuel + 1, r, i, way, next =>
    match r with
    | empty => next i way
    | one set => if s[i]?.any set.contains then next (i + 1) way else none
    | here a => if Subject.holds s i a then next i way else none
    | both a b => walk top s fuel a i way fun i way => walk top s fuel b i way next
    | either a b => (walk top s fuel a i way next).orElse fun _ => walk top s fuel b i way next
    | repeated r (least + 1) most isLazy =>
      walk top s fuel r i way fun j way =>
        walk top s fuel (repeated r least (most.map (· - 1)) isLazy) j way next
    | repeated _ 0 (some 0) _ => next i way
    | repeated r 0 most isLazy =>
      let more (_ : Unit) : Option (Nat × Way) := walk top s fuel r i way fun j way =>
        if j = i then none
        else walk top s fuel (repeated r 0 (most.map (· - 1)) isLazy) j way next
      if isLazy then (next i way).orElse more else (more ()).orElse fun _ => next i way
    | group n r =>
      walk top s fuel r i way fun j way =>
        next j { way with groups := (n, i, j) :: way.groups.filter (·.1 != n) }
    | again n folded =>
      match List.lookup n way.groups with
      | none => none
      | some (a, b) => (Regex.copyEnd? s folded a b i).bind fun j => next j way
    | look isBehind negated r =>
      let found : Option (Nat × Way) :=
        if isBehind then
          (List.range (i + 1)).reverse.findSome? fun k =>
            walk top s fuel r k way fun j way => if j = i then some (j, way) else none
        else walk top s fuel r i way fun j way => some (j, way)
      match found, negated with
      | some (_, way), false => next i way
      | none, true => next i way
      | _, _ => none
    | once r => (walk top s fuel r i way fun j way => some (j, way)).bind fun (j, way) => next j way
    | keep => next i { way with start := some i }
    | call n =>
      let called := if n = 0 then top else (top.groupOf? n).getD empty
      walk top s fuel called i way fun j inner => next j { inner with groups := way.groups }
    | ifTaken n yes no =>
      walk top s fuel (if (List.lookup n way.groups).isSome then yes else no) i way next

/-- The first of some places at which the expression takes anything, with what it takes. -/
def search (r : PerlRegex) (s : Subject) : Nat → Nat → Option Regex.Found
  | 0, _ => none
  | count + 1, i =>
    match walk r s Regex.patience r i {} fun j way => some (j, way) with
    | some (j, way) => some ⟨Nat.min (way.start.getD i) j, j, way.groups⟩
    | none => search r s count (i + 1)

/-- Looks for the expression from a place on. -/
def find? (r : PerlRegex) (s : Subject) (start : Nat) : Option Regex.Found :=
  search r s (s.size + 1 - start) start

def findAll (r : PerlRegex) (s : Subject) : List Regex.Found :=
  Regex.allFound (r.find? s) (2 * s.size + 2) 0 none

end PerlRegex
/-! ### Reading

Reading regular expressions in the manner of Perl. Letters in parentheses switch how what follows is
read; that lasts up to the end of the group that they stand in. -/

/-- Why a text is no such expression. -/
inductive PerlError where
  | unclosedGroup
  | strayClosing
  | unclosedSet
  | nothingToRepeat
  | endsInBackslash
  | noGroup
  | badRange
  | unknownClass
  | unknownEscape
  | unknownGroup
  | unboundedLookBehind
  | badBounds
  | hugeBounds
  | badProperty
  | badReference
  deriving DecidableEq, Repr

def PerlError.message : PerlError → String
  | unclosedGroup => "missing closing parenthesis"
  | strayClosing => "unmatched closing parenthesis"
  | unclosedSet => "missing terminating ] for character class"
  | nothingToRepeat => "quantifier does not follow a repeatable item"
  | endsInBackslash => "\\ at end of pattern"
  | noGroup => "reference to non-existent subpattern"
  | badRange => "range out of order in character class"
  | unknownClass => "unknown POSIX class name"
  | unknownEscape => "unrecognized character follows \\"
  | unknownGroup => "unrecognized character after (? or (?-"
  | unboundedLookBehind => "lookbehind assertion is not fixed length"
  | badBounds => "numbers out of order in \x7b\x7d quantifier"
  | hugeBounds => "number too big in \x7b\x7d quantifier"
  | badProperty => "unknown property after \\P or \\p"
  | badReference =>
    "\\g is not followed by a braced, angle-bracketed, or quoted name/number or by a plain number"

namespace PerlRegex

/-- How an expression is read. -/
structure Switches where
  /-- Small and capital letters are the same. -/
  folded : Bool := false
  /-- A point takes line ends too. -/
  takesLines : Bool := false
  /-- The signs for both ends hold at the ends of lines too. -/
  byLine : Bool := false
  /-- Blanks and remarks do not count. -/
  spaced : Bool := false
  deriving DecidableEq, Repr

/-- How far an expression has been read. -/
structure Reader where
  rest : List Char
  switches : Switches := {}
  /-- The number of groups so far. -/
  groups : Nat := 0
  /-- The numbers of the groups that have names. -/
  names : List (String × Nat) := []

/-- What reads expressions. -/
abbrev Reading (α : Type) : Type := StateT Reader (Except PerlError) α

namespace Reading

variable {α : Type}

def refuse (e : PerlError) : Reading α := fun _ => .error e

def goTo (rest : List Char) : Reading Unit := modify fun r => { r with rest }

def literal (c : Char) : Reading PerlRegex := do
  return one ⟨false, [.range c c], (← get).switches.folded⟩

def hexValue (cs : List Char) : Nat :=
  cs.foldl (fun n c => n * 16 + (if c.isDigit then c.toNat - 48 else c.toLower.toNat - 87)) 0

def isHex (c : Char) : Bool := c.isDigit || ('a' ≤ c.toLower && c.toLower ≤ 'f')

def isOctal (c : Char) : Bool := '0' ≤ c && c ≤ '7'

def octalValue (cs : List Char) : Nat := cs.foldl (fun n c => n * 8 + (c.toNat - 48)) 0

/-- A text up to a mark, and what follows the mark. -/
def upTo? (mark : Char) (cs : List Char) : Option (String × List Char) :=
  let name := cs.takeWhile (· != mark)
  if name.length < cs.length then some (String.ofList name, cs.drop (name.length + 1)) else none

/-- The character that a letter behind a backslash stands for, by itself or with digits behind it;
and what follows. -/
def control? (c : Char) (cs : List Char) : Option (Char × List Char) :=
  match c with
  | 'a' => some ('\x07', cs)
  | 'e' => some ('\x1b', cs)
  | 'f' => some ('\x0c', cs)
  | 'n' => some ('\n', cs)
  | 'r' => some ('\x0d', cs)
  | 't' => some ('\t', cs)
  | '0' =>
    let digits := (cs.take 2).takeWhile isOctal
    some (Char.ofNat (octalValue digits), cs.drop digits.length)
  | 'o' =>
    match cs with
    | '\x7b' :: cs =>
      (upTo? '\x7d' cs).map fun (name, rest) => (Char.ofNat (octalValue name.toList), rest)
    | _ => none
  | 'x' =>
    match cs with
    | '\x7b' :: cs =>
      (upTo? '\x7d' cs).map fun (name, rest) => (Char.ofNat (hexValue name.toList), rest)
    | cs =>
      let digits := (cs.take 2).takeWhile isHex
      some (Char.ofNat (hexValue digits), cs.drop digits.length)
  | 'c' =>
    match cs with
    | d :: cs => some (Char.ofNat (d.toUpper.toNat ^^^ 64), cs)
    | [] => none
  | _ => none

/-- The characters that a letter behind a backslash takes; with a capital they are the other ones. -/
def kind? (c : Char) : Option (Bool × List SetPart) :=
  match c with
  | 'd' => some (false, [.ofClass .digit])
  | 'D' => some (true, [.ofClass .digit])
  | 'w' => some (false, [.ofClass .alnum, .range '_' '_'])
  | 'W' => some (true, [.ofClass .alnum, .range '_' '_'])
  | 's' => some (false, [.ofClass .space])
  | 'S' => some (true, [.ofClass .space])
  | 'h' => some (false, [.ofClass .blank, .range '\u00a0' '\u00a0'])
  | 'H' => some (true, [.ofClass .blank, .range '\u00a0' '\u00a0'])
  | 'v' => some (false, [.range '\n' '\x0d', .range '\u0085' '\u0085', .range '\u2028' '\u2029'])
  | 'V' => some (true, [.range '\n' '\x0d', .range '\u0085' '\u0085', .range '\u2028' '\u2029'])
  | 'N' => some (true, [.range '\n' '\n'])
  | _ => none

/-- The class that a property of Unicode is nearest to. -/
def property? (name : String) : Option CharClass :=
  List.lookup name
    [("L", .alpha), ("L&", .alpha), ("Lu", .upper), ("Ll", .lower), ("N", .digit), ("Nd", .digit),
      ("P", .punct), ("S", .punct), ("Z", .space), ("Zs", .blank), ("Cc", .cntrl), ("C", .cntrl),
      ("Xan", .alnum), ("Xwd", .alnum), ("Xsp", .space), ("Xps", .space), ("Latin", .alpha),
      ("Any", .print)]

/-- The set of a property behind its letter, and what follows. -/
def property (negated : Bool) (cs : List Char) : Reading (Bool × CharClass × List Char) := do
  let (name, rest) : String × List Char ← match cs with
    | '\x7b' :: cs =>
      match upTo? '\x7d' cs with
      | some found => pure found
      | none => refuse .badProperty
    | c :: cs => pure (String.singleton c, cs)
    | [] => refuse .badProperty
  let (negated, name) : Bool × String := match name.toList with
    | '^' :: name => (!negated, String.ofList name)
    | _ => (negated, name)
  match property? name with
  | some k => pure (negated, k, rest)
  | none => refuse .badProperty

/-- The parts of a set that stand for a class or for what is outside of it. -/
def kindParts (negated : Bool) (parts : List SetPart) : List SetPart :=
  if !negated then parts
  else
    match parts with
    | .ofClass k :: others =>
      [.outside k (others.filterMap fun p => match p with
        | .range a _ => some a
        | _ => none)]
    | parts => parts

/-- An item of a set: a character, or parts that are no character. -/
def setItem : List Char → Reading ((Char ⊕ List SetPart) × List Char)
  | '[' :: ':' :: cs => do
    let body := cs.takeWhile fun c => c != ':' && c != ']'
    match cs.drop body.length with
    | ':' :: ']' :: rest =>
      let (negated, name) : Bool × List Char := match body with
        | '^' :: name => (true, name)
        | name => (false, name)
      if String.ofList name = "word" then
        pure (.inr (kindParts negated [.ofClass .alnum, .range '_' '_']), rest)
      else
        match List.lookup (String.ofList name) CharClass.names with
        | some k => pure (.inr (kindParts negated [.ofClass k]), rest)
        | none => refuse .unknownClass
    | _ => pure (.inl '[', ':' :: cs)
  | '\\' :: c :: cs => do
    if c = 'b' then pure (.inl '\x08', cs)
    else if c = 'p' || c = 'P' then
      let (negated, k, rest) ← property (c = 'P') cs
      pure (.inr (kindParts negated [.ofClass k]), rest)
    else
      match kind? c, control? c cs with
      | some (negated, parts), _ => pure (.inr (kindParts negated parts), cs)
      | none, some (d, rest) => pure (.inl d, rest)
      | none, none =>
        if isOctal c then
          let digits := (c :: cs).take 3 |>.takeWhile isOctal
          pure (.inl (Char.ofNat (octalValue digits)), (c :: cs).drop digits.length)
        else if c.isAlphanum then refuse .unknownEscape
        else pure (.inl c, cs)
  | c :: cs => pure (.inl c, cs)
  | [] => refuse .unclosedSet

/-- The parts of a set up to its bracket, and what follows. The first one may be that bracket. -/
def setParts : Nat → Bool → List SetPart → List Char → Reading (List SetPart × List Char)
  | 0, _, _, _ => refuse .unclosedSet
  | fuel + 1, isFirst, done, cs => do
    match cs with
    | [] => refuse .unclosedSet
    | '\\' :: 'Q' :: cs => setParts fuel isFirst done cs
    | '\\' :: 'E' :: cs => setParts fuel isFirst done cs
    | c :: behind =>
      if c = ']' && !isFirst then pure (done.reverse, behind)
      else
        let (item, rest) ← setItem (c :: behind)
        match item, rest with
        | .inl a, '-' :: d :: later =>
          if d = ']' then setParts fuel false (.range a a :: done) rest
          else
            match ← setItem (d :: later) with
            | (.inl b, rest) =>
              if b < a then refuse .badRange
              else setParts fuel false (.range a b :: done) rest
            | (.inr parts, rest) =>
              setParts fuel false (parts.reverse ++ .range '-' '-' :: .range a a :: done) rest
        | .inl a, rest => setParts fuel false (.range a a :: done) rest
        | .inr parts, rest => setParts fuel false (parts.reverse ++ done) rest

def set (cs : List Char) : Reading PerlRegex := do
  let (negated, cs) : Bool × List Char := match cs with
    | '^' :: cs => (true, cs)
    | cs => (false, cs)
  let (parts, rest) ← setParts (2 * cs.length + 2) true [] cs
  goTo rest
  return one ⟨negated, parts, (← get).switches.folded⟩

/-- The bounds of a repetition in braces, if they are such, and what follows. -/
def bounds? (cs : List Char) : Option ((Nat × Option Nat) × List Char) :=
  let low := cs.takeWhile Char.isDigit
  match Text.digits? low, cs.drop low.length with
  | some n, '\x7d' :: rest => some ((n, some n), rest)
  | some n, ',' :: rest =>
    let high := rest.takeWhile Char.isDigit
    match rest.drop high.length with
    | '\x7d' :: rest => some ((n, Text.digits? high), rest)
    | _ => none
  | _, _ => none

/-- The repetition that stands next, if there is one. -/
def repetition? : Reading (Option (Nat × Option Nat)) := do
  match (← get).rest with
  | '*' :: rest =>
    goTo rest
    pure (some (0, none))
  | '+' :: rest =>
    goTo rest
    pure (some (1, none))
  | '?' :: rest =>
    goTo rest
    pure (some (0, some 1))
  | '\x7b' :: rest =>
    match bounds? rest with
    | none => pure none
    | some ((least, most), rest) =>
      goTo rest
      if 65535 < least || most.any (65535 < ·) then refuse .hugeBounds
      else if most.any (· < least) then refuse .badBounds
      else pure (some (least, most))
  | _ => pure none

/-- The characters of a quotation, backwards those so far, and what stands behind its end. -/
def quotation (done : List Char) : List Char → List Char × List Char
  | '\\' :: 'E' :: rest => (done.reverse, rest)
  | c :: rest => quotation (c :: done) rest
  | [] => (done.reverse, [])

/-- Leaves out blanks and remarks, if they do not count. -/
def skipSpace : Nat → Reading Unit
  | 0 => pure ()
  | fuel + 1 => do
    let r ← get
    match r.rest with
    | '(' :: '?' :: '#' :: cs =>
      match upTo? ')' cs with
      | some (_, rest) => do
        goTo rest
        skipSpace fuel
      | none => refuse .unclosedGroup
    | c :: cs =>
      if !r.switches.spaced then pure ()
      else if CharClass.space.contains c then do
        goTo cs
        skipSpace fuel
      else if c = '#' then do
        goTo ((cs.dropWhile (· != '\n')).drop 1)
        skipSpace fuel
      else pure ()
    | [] => pure ()

def repeated (r : PerlRegex) : Nat → Reading PerlRegex
  | 0 => pure r
  | fuel + 1 => do
    skipSpace fuel
    match ← repetition? with
    | none => pure r
    | some (least, most) =>
      match (← get).rest with
      | '?' :: rest => do
        goTo rest
        repeated (.repeated r least most true) fuel
      | '+' :: rest => do
        goTo rest
        repeated (.once (.repeated r least most false)) fuel
      | _ => repeated (.repeated r least most false) fuel

/-- The number of the group that a text means: a number, one counted backwards, or a name. -/
def groupNumber (text : String) : Reading Nat := do
  let r ← get
  match text.toList with
  | '-' :: cs =>
    match Text.digits? cs with
    | some n => if r.groups < n then refuse .noGroup else pure (r.groups + 1 - n)
    | none => refuse .noGroup
  | '+' :: cs =>
    match Text.digits? cs with
    | some n => pure (r.groups + n)
    | none => refuse .noGroup
  | cs =>
    match Text.digits? cs, List.lookup text r.names with
    | some n, _ => pure n
    | none, some n => pure n
    | none, none => refuse .noGroup

/-- Takes once more what a group has taken. -/
def reference (text : String) (rest : List Char) : Reading PerlRegex := do
  goTo rest
  return .again (← groupNumber text) (← get).switches.folded

def escaped (c : Char) (cs : List Char) : Reading PerlRegex := do
  let anchor (a : Anchor) : Reading PerlRegex := do
    goTo cs
    pure (.here a)
  let named (close : Char) (cs : List Char) : Reading PerlRegex :=
    match upTo? close cs with
    | some (name, rest) => reference name rest
    | none => refuse .badReference
  match c with
  | 'b' => anchor (.wordEdge false)
  | 'B' => anchor (.wordEdge true)
  | 'A' | 'G' => anchor .start
  | 'z' | 'Z' => anchor .finish
  | 'K' => do
    goTo cs
    pure .keep
  | 'R' => do
    goTo cs
    pure (.once (.either (.both (.one (.single '\x0d')) (.one (.single '\n')))
      (.one ⟨false, [.range '\n' '\x0d'], false⟩)))
  | 'X' | 'C' => do
    goTo cs
    pure (.one .everything)
  | 'p' | 'P' => do
    let (negated, k, rest) ← property (c = 'P') cs
    goTo rest
    pure (.one ⟨negated, [.ofClass k], false⟩)
  | 'k' =>
    match cs with
    | '<' :: cs => named '>' cs
    | '\x7b' :: cs => named '\x7d' cs
    | '\'' :: cs => named '\'' cs
    | _ => refuse .badReference
  | 'g' =>
    match cs with
    | '\x7b' :: cs => named '\x7d' cs
    | '<' :: cs =>
      match upTo? '>' cs with
      | some (name, rest) => do
        goTo rest
        return .call (← groupNumber name)
      | none => refuse .badReference
    | cs =>
      let sign := cs.takeWhile fun c => c == '-' || c == '+'
      let digits := (cs.drop sign.length).takeWhile Char.isDigit
      if digits.isEmpty then refuse .badReference
      else reference (String.ofList (sign ++ digits)) (cs.drop (sign.length + digits.length))
  | c =>
    match kind? c, control? c cs with
    | some (negated, parts), _ => do
      goTo cs
      pure (.one ⟨negated, parts, false⟩)
    | none, some (d, rest) => do
      goTo rest
      literal d
    | none, none =>
      if c.isDigit then
        let digits := (c :: cs).takeWhile Char.isDigit
        let n := (Text.digits? digits).getD 0
        if n < 10 || n ≤ (← get).groups then
          reference (String.ofList digits) ((c :: cs).drop digits.length)
        else do
          let octal := ((c :: cs).take 3).takeWhile isOctal
          if octal.isEmpty then refuse .noGroup
          else do
            goTo ((c :: cs).drop octal.length)
            literal (Char.ofNat (octalValue octal))
      else if c.isAlpha then refuse .unknownEscape
      else do
        goTo cs
        literal c

/-- The switches behind a question mark, turned on in front of a hyphen and off behind it. -/
def switched (on : Bool) (s : Switches) : List Char → Option (Switches × List Char)
  | 'i' :: cs => switched on { s with folded := on } cs
  | 's' :: cs => switched on { s with takesLines := on } cs
  | 'm' :: cs => switched on { s with byLine := on } cs
  | 'x' :: cs => switched on { s with spaced := on } cs
  | 'n' :: cs | 'J' :: cs | 'U' :: cs => switched on s cs
  | '-' :: cs => if on then switched false s cs else none
  | '^' :: cs => switched on {} cs
  | c :: cs => if c = ')' || c = ':' then some (s, c :: cs) else none
  | [] => none

mutual

/-- Alternatives, up to the end of the group that they stand in. -/
def alternatives : Nat → Reading PerlRegex
  | 0 => refuse .unclosedGroup
  | fuel + 1 => do
    let a ← sequence fuel .empty
    match (← get).rest with
    | '|' :: rest => do
      goTo rest
      return .either a (← alternatives fuel)
    | _ => pure a

/-- What stands in one alternative, behind what has been read of it. -/
def sequence : Nat → PerlRegex → Reading PerlRegex
  | 0, _ => refuse .unclosedGroup
  | fuel + 1, done => do
    skipSpace (fuel + 1)
    let join (r : PerlRegex) : PerlRegex := match done with
      | .empty => r
      | done => .both done r
    let r ← get
    match r.rest with
    | [] | '|' :: _ | ')' :: _ => pure done
    | '\\' :: 'Q' :: cs =>
      let (cs, rest) := quotation [] cs
      goTo rest
      let taken ← cs.mapM literal
      match taken.reverse with
      | [] => sequence fuel done
      | last :: earlier =>
        let last ← repeated last fuel
        sequence fuel (join (earlier.foldl (fun r a => .both a r) last))
    | '\\' :: 'E' :: cs => do
      goTo cs
      sequence fuel done
    | '(' :: '?' :: cs =>
      match switched true r.switches cs with
      | some (s, ')' :: rest) => do
        StateT.set { r with rest, switches := s }
        sequence fuel done
      | _ => do
        let item ← atom fuel
        sequence fuel (join (← repeated item fuel))
    | _ => do
      let item ← atom fuel
      sequence fuel (join (← repeated item fuel))

def atom : Nat → Reading PerlRegex
  | 0 => refuse .unclosedGroup
  | fuel + 1 => do
    let r ← get
    match r.rest with
    | [] => pure .empty
    | '\\' :: [] => refuse .endsInBackslash
    | '\\' :: c :: cs => escaped c cs
    | '.' :: cs => do
      goTo cs
      pure (.one (if r.switches.takesLines then .everything else ⟨true, [.range '\n' '\n'], false⟩))
    | '^' :: cs => do
      goTo cs
      pure (.here (if r.switches.byLine then .lineStart else .start))
    | '$' :: cs => do
      goTo cs
      pure (.here (if r.switches.byLine then .lineEnd else .finish))
    | '[' :: cs => Reading.set cs
    | '(' :: cs => do
      goTo cs
      group fuel
    | '*' :: _ | '+' :: _ | '?' :: _ => refuse .nothingToRepeat
    | '\x7b' :: cs =>
      if (bounds? cs).isSome then refuse .nothingToRepeat
      else do
        goTo cs
        literal '\x7b'
    | c :: cs => do
      goTo cs
      literal c

def group : Nat → Reading PerlRegex
  | 0 => refuse .unclosedGroup
  | fuel + 1 => do
    let r ← get
    let plain (rest : List Char) : Reading PerlRegex := do
      goTo rest
      inside fuel
    let look (behind negated : Bool) (rest : List Char) : Reading PerlRegex := do
      let a ← plain rest
      if behind && !a.looksBack then refuse .unboundedLookBehind
      pure (.look behind negated a)
    let numbered (name : Option String) (rest : List Char) : Reading PerlRegex := do
      let number := r.groups + 1
      let names := name.toList.map (·, number) ++ r.names
      StateT.set { r with rest, groups := number, names }
      return .group number (← inside fuel)
    let named (close : Char) (cs : List Char) : Reading PerlRegex :=
      match upTo? close cs with
      | some (name, rest) => numbered (some name) rest
      | none => refuse .unclosedGroup
    match r.rest with
    | '*' :: cs =>
      match upTo? ')' cs with
      | some (name, rest) => do
        goTo rest
        pure (if name = "F" || name = "FAIL" then .look false true .empty else .empty)
      | none => refuse .unclosedGroup
    | '?' :: ':' :: cs | '?' :: '|' :: cs => plain cs
    | '?' :: '=' :: cs => look false false cs
    | '?' :: '!' :: cs => look false true cs
    | '?' :: '<' :: '=' :: cs => look true false cs
    | '?' :: '<' :: '!' :: cs => look true true cs
    | '?' :: '>' :: cs => do return .once (← plain cs)
    | '?' :: 'P' :: '<' :: cs | '?' :: '<' :: cs => named '>' cs
    | '?' :: '\'' :: cs => named '\'' cs
    | '?' :: 'P' :: '=' :: cs =>
      match upTo? ')' cs with
      | some (name, rest) => reference name rest
      | none => refuse .unclosedGroup
    | '?' :: 'P' :: '>' :: cs | '?' :: '&' :: cs =>
      match upTo? ')' cs with
      | some (name, rest) => do
        goTo rest
        return .call (← groupNumber name)
      | none => refuse .unclosedGroup
    | '?' :: 'R' :: ')' :: cs => do
      goTo cs
      pure (.call 0)
    | '?' :: '(' :: cs =>
      match upTo? ')' cs with
      | some (name, rest) => do
        let bare := String.ofList (name.toList.filter fun c => !(['<', '>', '\''].contains c))
        let number ← groupNumber bare
        goTo rest
        match ← inside fuel with
        | .either yes no => pure (.ifTaken number yes no)
        | yes => pure (.ifTaken number yes .empty)
      | none => refuse .unclosedGroup
    | '?' :: cs =>
      match switched true r.switches cs with
      | some (s, ':' :: rest) => do
        StateT.set { r with rest, switches := s }
        let a ← inside fuel
        modify fun later => { later with switches := r.switches }
        pure a
      | _ =>
        let name := cs.takeWhile (· != ')')
        let digits := name.dropWhile fun c => c == '-' || c == '+'
        if digits.isEmpty || !digits.all Char.isDigit then refuse .unknownGroup
        else
          match cs.drop name.length with
          | ')' :: rest => do
            goTo rest
            return .call (← groupNumber (String.ofList name))
          | _ => refuse .unclosedGroup
    | cs => numbered none cs

/-- Alternatives up to a closing parenthesis. The switches behind it are those in front. -/
def inside : Nat → Reading PerlRegex
  | 0 => refuse .unclosedGroup
  | fuel + 1 => do
    let switches := (← get).switches
    let a ← alternatives fuel
    match (← get).rest with
    | ')' :: rest => do
      modify fun r => { r with rest, switches }
      pure a
    | _ => refuse .unclosedGroup

end

end Reading

/-- The expression that a text is; with `folded`, small and capital letters are the same. -/
def parse (folded : Bool) (text : String) : Except PerlError PerlRegex := do
  let cs := text.toList
  let (r, reader) ← (Reading.alternatives (6 * cs.length + 6)).run
    { rest := cs, switches := { folded } }
  if !reader.rest.isEmpty then throw .strayClosing
  if reader.groups < r.farthest then throw .noGroup
  pure r

end PerlRegex
end PipelineRunner
