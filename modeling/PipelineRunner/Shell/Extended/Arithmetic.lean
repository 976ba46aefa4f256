import PipelineRunner.Shell.Arithmetic
import PipelineRunner.Shell.State

/-!
Arithmetic of the extended language. An expression is worked out while it is read, since it can
change variables on the way, and the value of a variable is an expression again.
-/

namespace PipelineRunner.Shell.Extended

open Text

/-- Why an expression has no value. -/
inductive ArithmeticFault where
  /-- What is wrong with an expression, and the text that it shows at. -/
  | wrong (expression complaint token : String)
  /-- A variable has no value but should have one. -/
  | unset (name : String)
  /-- A variable keeps its value. -/
  | constant (name : String)
  deriving DecidableEq, Repr

namespace Arithmetic

open Shell.Arithmetic (Operator wrapped ofBool isWordChar)

/-- A piece of an expression. -/
inductive Token where
  | ended
  | number
  | name
  /-- A variable is changed in front of its use, by so much. -/
  | before (change : Int)
  | after (change : Int)
  /-- An assignment, which may be worked out of the old value. -/
  | assign (op : Operator)
  | symbol (s : String)
  /-- The end of a choice. -/
  | choice
  deriving DecidableEq, Repr

/-- A variable or an element of it. -/
structure Target where
  name : String
  subscript : Option String
  deriving DecidableEq, Repr

/-- How far an expression has been worked out. -/
structure Progress where
  shell : State
  whole : String
  rest : List Char
  token : Token := .ended
  last : Token := .ended
  /-- The value of the token. -/
  value : Int := 0
  target : Target := ⟨"", none⟩
  /-- What begins with the token that has been read last. -/
  mark : List Char := []
  /-- In so many parts nothing is worked out. -/
  quiet : Nat := 0
  /-- The number of expressions around this one. -/
  level : Nat := 0

/-- Working out an expression. -/
abbrev Working (α : Type) : Type := StateT Progress (Except ArithmeticFault) α

def refuse {α : Type} (complaint : String) : Working α := fun p =>
  .error (.wrong (String.ofList (p.whole.toList.dropWhile Numeral.isBlank)) complaint
    (String.ofList p.mark))

def digit (base : Nat) (c : Char) : Nat :=
  if c.isDigit then c.toNat - '0'.toNat
  else if 'a' ≤ c && c ≤ 'z' then c.toNat - 'a'.toNat + 10
  else if 'A' ≤ c && c ≤ 'Z' then c.toNat - 'A'.toNat + (if base ≤ 36 then 10 else 36)
  else if c = '@' then 62
  else 63

/-- The value of a number whose base may be announced in front of a sign. -/
def numberFrom (base : Nat) (hasBase : Bool) (n : Nat) : List Char → Working Nat
  | [] => pure n
  | '#' :: cs =>
    if hasBase then refuse "invalid number"
    else if n < 2 || 64 < n then refuse "invalid arithmetic base"
    else if cs.isEmpty || cs.head? = some '#' then refuse "invalid integer constant"
    else numberFrom n true 0 cs
  | c :: cs =>
    let d := digit base c
    if base ≤ d then refuse "value too great for base"
    else numberFrom base hasBase (n * base + d) cs

def number (cs : List Char) : Working Int := do
  let n ← match cs with
    | ['0'] => pure 0
    | '0' :: x :: cs =>
      if x = 'x' || x = 'X' then numberFrom 16 true 0 cs else numberFrom 8 true 0 (x :: cs)
    | cs => numberFrom 10 false 0 cs
  pure (wrapped n)

def assigning : List (String × Operator) :=
  [("<<=", .shiftLeft), (">>=", .shiftRight), ("*=", .multiply), ("/=", .divide), ("%=", .modulo),
    ("+=", .plus), ("-=", .minus), ("&=", .bitAnd), ("^=", .bitXor), ("|=", .bitOr)]

def doubles : List String := ["==", "!=", ">=", "<=", "<<", ">>", "&&", "||", "**"]

def singles : List Char := "=><+-*/%!()&|^~?:,".toList

/-- The first of some words that stands at the head of a text, with what belongs to it. -/
def atHead {α : Type} (cs : List Char) (words : List (String × α)) : Option (α × List Char) :=
  words.findSome? fun (s, a) => if s.toList.isPrefixOf cs then some (a, cs.drop s.length) else none

/-- The length of a subscript up to its bracket; the brackets that are open have been counted. -/
def subscriptLength : Nat → Nat → List Char → Option Nat
  | 0, n, ']' :: _ => some n
  | depth + 1, n, ']' :: rest => subscriptLength depth (n + 1) rest
  | depth, n, '[' :: rest => subscriptLength (depth + 1) (n + 1) rest
  | depth, n, _ :: rest => subscriptLength depth (n + 1) rest
  | _, _, [] => none

def unquoted (s : String) : String :=
  String.ofList (s.toList.filter fun c => c ≠ '"' && c ≠ '\'' && c ≠ '\\')

mutual

def place : Nat → Target → Working (Option Place)
  | 0, _ => pure none
  | fuel + 1, t => do
    match t.subscript with
    | none => pure none
    | some text =>
      let v := (← get).shell.binding? t.name
      match v.bind (·.elements) with
      | some (.keyed _) => pure (some (.key (unquoted text)))
      | e =>
        let n ← inner fuel text
        let next := (e.map Elements.next).getD 0
        let n := if n < 0 then n + next else n
        if n < 0 then refuse "bad array subscript" else pure (some (.number n.toNat))
termination_by structural fuel => fuel

/-- The value of an expression within this one. -/
def inner : Nat → String → Working Int
  | 0, _ => pure 0
  | fuel + 1, text => do
    let p ← get
    if 1024 ≤ p.level then refuse "expression recursion level exceeded"
    set { shell := p.shell, whole := text, rest := text.toList, level := p.level + 1 : Progress }
    let n ← expression fuel
    let shell := (← get).shell
    set { p with shell }
    pure n
termination_by structural fuel => fuel

def expression : Nat → Working Int
  | 0 => pure 0
  | fuel + 1 => do
    if (← get).rest.all Numeral.isBlank then pure 0
    else
      advance fuel
      let n ← sequence fuel
      if (← get).token ≠ .ended then refuse "syntax error in expression"
      pure n
termination_by structural fuel => fuel

def valueOf : Nat → Target → Working Int
  | 0, _ => pure 0
  | fuel + 1, t => do
    if 0 < (← get).quiet then pure 0
    else
      let p ← place fuel t
      let s := (← get).shell
      let text := match p with
        | none => s.value? t.name
        | some p => (s.binding? t.name).bind (·.at? p)
      match text with
      | none => if s.has "nounset" then fun _ => .error (.unset t.name) else pure 0
      | some text => if text.isEmpty then pure 0 else inner fuel text
termination_by structural fuel => fuel

/-- Gives a variable a value, where that counts. -/
def assign : Nat → Target → Int → Working Unit
  | 0, _, _ => pure ()
  | fuel + 1, t, n => do
    if (← get).quiet = 0 then
      let p ← place fuel t
      if (← get).shell.isConstant ((← get).shell.target t.name) then
        fun _ => .error (.constant t.name)
      else modify fun q => { q with shell := q.shell.store t.name p (toString n) }
termination_by structural fuel => fuel

def advance : Nat → Working Unit
  | 0 => pure ()
  | fuel + 1 => do
    let p ← get
    let cs := p.rest.dropWhile Numeral.isBlank
    match cs with
    | [] => set { p with rest := [], last := p.token, token := .ended }
    | c :: more =>
      set { p with mark := cs, rest := cs }
      let found (t : Token) (rest : List Char) : Working Unit :=
        modify fun q => { q with rest, last := p.token, token := t }
      if c.isAlpha || c = '_' then
        let name := cs.takeWhile isWordChar
        let behind := cs.drop name.length
        let (subscript, behind) : Option String × List Char ← match behind with
          | '[' :: rest =>
            match subscriptLength 0 0 rest with
            | some n => pure (some (String.ofList (rest.take n)), rest.drop (n + 1))
            | none => refuse "bad array subscript"
          | _ => pure (none, behind)
        let target : Target := ⟨String.ofList name, subscript⟩
        let next := behind.dropWhile Numeral.isBlank
        let isAssigned := next.head? = some '=' && next[1]? ≠ some '='
        let isChanged := match p.token with
          | .before _ => true
          | _ => false
        let value ← if isAssigned && !isChanged then pure 0 else valueOf fuel target
        modify fun q => { q with value, target }
        found .name behind
      else if c.isDigit then
        let digits := cs.takeWhile fun c => c.isAlphanum || c = '#' || c = '@' || c = '_'
        let value ← number digits
        modify fun q => { q with value }
        found .number (cs.drop digits.length)
      else
        let isDouble := (c = '-' || c = '+') && more.head? = some c
        let change : Int := if c = '-' then -1 else 1
        match atHead cs assigning, atHead cs (doubles.map fun s => (s, s)) with
        | some (op, rest), _ => found (.assign op) rest
        | none, some (s, rest) => found (.symbol s) rest
        | none, none =>
          if isDouble && p.token = .name then found (.after change) (more.drop 1)
          else if isDouble && (match p.last, p.token with
              | .before _, .number => true
              | _, _ => false) then
            refuse (String.ofList [c, c] ++ ": assignment requires lvalue")
          else if isDouble &&
              (((more.drop 1).dropWhile Numeral.isBlank).head?.any fun d =>
                d.isAlpha || d = '_') then
            found (.before change) (more.drop 1)
          else if singles.contains c then found (.symbol (String.singleton c)) more
          else
            match p.token with
            | .number | .name => refuse "syntax error: invalid arithmetic operator"
            | .symbol ")" => refuse "syntax error: invalid arithmetic operator"
            | _ => refuse "syntax error: operand expected"
termination_by structural fuel => fuel

/-- Expressions behind commas; the last one counts. -/
def sequence : Nat → Working Int
  | 0 => pure 0
  | fuel + 1 => do
    let n ← assignment fuel
    if (← get).token = .symbol "," then
      advance fuel
      sequence fuel
    else pure n
termination_by structural fuel => fuel

/-- An expression that may assign its value. -/
def assignment : Nat → Working Int
  | 0 => pure 0
  | fuel + 1 => do
    let n ← choice fuel
    let p ← get
    let op : Option (Option Operator) := match p.token with
      | .symbol "=" => some none
      | .assign op => some (some op)
      | _ => none
    match op with
    | none => pure n
    | some op =>
      if p.last ≠ .name then refuse "attempted assignment to non-variable"
      let target := p.target
      advance fuel
      let m ← assignment fuel
      let value ← match op with
        | none => pure m
        | some op => combine op (← get).mark n m
      assign fuel target value
      pure value
termination_by structural fuel => fuel

/-- What an operation yields; a division by zero shows at a mark. -/
def combine (op : Operator) (mark : List Char) (a b : Int) : Working Int := do
  let p ← get
  let isDivision := op = .divide || op = .modulo
  if isDivision && b = 0 then
    if 0 < p.quiet then pure a
    else
      set { p with mark := mark.dropWhile Numeral.isBlank }
      refuse "division by 0"
  else pure ((op.apply a b).toOption.getD 0)

/-- A value, or a choice between two of them. -/
def choice : Nat → Working Int
  | 0 => pure 0
  | fuel + 1 => do
    let c ← either fuel
    if (← get).token ≠ .symbol "?" then pure c
    else
      let quietly (isQuiet : Bool) (x : Working Int) : Working Int := do
        if isQuiet then modify fun p => { p with quiet := p.quiet + 1 }
        let n ← x
        if isQuiet then modify fun p => { p with quiet := p.quiet - 1 }
        pure n
      let yes ← quietly (c = 0) do
        advance fuel
        if (← get).token = .ended then refuse "expression expected"
        sequence fuel
      if (← get).token ≠ .symbol ":" then refuse "\x60:' expected for conditional expression"
      let no ← quietly (c ≠ 0) do
        advance fuel
        if (← get).token = .ended then refuse "expression expected"
        choice fuel
      modify fun p => { p with last := .choice }
      pure (if c = 0 then no else yes)
termination_by structural fuel => fuel

/-- Values of which one has to be there. -/
def either : Nat → Working Int
  | 0 => pure 0
  | fuel + 1 => do
    let a ← both fuel
    moreEither fuel a
termination_by structural fuel => fuel

def moreEither : Nat → Int → Working Int
  | 0, a => pure a
  | fuel + 1, a => do
    if (← get).token ≠ .symbol "||" then pure a
    else
      let isQuiet := a ≠ 0
      if isQuiet then modify fun p => { p with quiet := p.quiet + 1 }
      advance fuel
      let b ← both fuel
      if isQuiet then modify fun p => { p with quiet := p.quiet - 1 }
      modify fun p => { p with last := .choice }
      moreEither fuel (ofBool (a ≠ 0 || b ≠ 0))
termination_by structural fuel => fuel

/-- Values of which all have to be there. -/
def both : Nat → Working Int
  | 0 => pure 0
  | fuel + 1 => do
    let a ← binary fuel 3
    moreBoth fuel a
termination_by structural fuel => fuel

def moreBoth : Nat → Int → Working Int
  | 0, a => pure a
  | fuel + 1, a => do
    if (← get).token ≠ .symbol "&&" then pure a
    else
      let isQuiet := a = 0
      if isQuiet then modify fun p => { p with quiet := p.quiet + 1 }
      advance fuel
      let b ← binary fuel 3
      if isQuiet then modify fun p => { p with quiet := p.quiet - 1 }
      modify fun p => { p with last := .choice }
      moreBoth fuel (ofBool (a ≠ 0 && b ≠ 0))
termination_by structural fuel => fuel

/-- Operands joined by operators of at least the given rank. -/
def binary : Nat → Nat → Working Int
  | 0, _ => pure 0
  | fuel + 1, least => do
    let a ← power fuel
    moreBinary fuel least a
termination_by structural fuel => fuel

def moreBinary : Nat → Nat → Int → Working Int
  | 0, _, a => pure a
  | fuel + 1, least, a => do
    let p ← get
    let found : Option (Nat × Operator) := match p.token with
      | .symbol s =>
        (Shell.Arithmetic.ranked? s).bind fun (rank, make) =>
          match make (.number 0) (.number 0) with
          | .binary op _ _ => some (rank, op)
          | _ => none
      | _ => none
    match found with
    | none => pure a
    | some (rank, op) =>
      if rank < least then pure a
      else
        let mark := p.rest
        advance fuel
        let b ← binary fuel (rank + 1)
        let n ← combine op mark a b
        modify fun p => { p with last := .number }
        moreBinary fuel least n
termination_by structural fuel => fuel

def power : Nat → Working Int
  | 0 => pure 0
  | fuel + 1 => do
    let a ← signed fuel
    if (← get).token ≠ .symbol "**" then pure a
    else
      advance fuel
      let b ← power fuel
      modify fun p => { p with last := .number }
      if b < 0 then refuse "exponent less than 0"
      pure (raised b.toNat a)
termination_by structural fuel => fuel

def raised (n : Nat) (a : Int) : Int :=
  (List.range n).foldl (fun (power : Int) _ => wrapped (power * a)) 1

def signed : Nat → Working Int
  | 0 => pure 0
  | fuel + 1 => do
    let change (f : Int → Int) : Working Int := do
      advance fuel
      let n ← signed fuel
      modify fun p => { p with last := .number }
      pure (f n)
    match (← get).token with
    | .symbol "!" => change fun n => ofBool (n = 0)
    | .symbol "~" => change fun n => -n - 1
    | .symbol "-" => change fun n => wrapped (-n)
    | .symbol "+" => change id
    | _ => operand fuel
termination_by structural fuel => fuel

def operand : Nat → Working Int
  | 0 => pure 0
  | fuel + 1 => do
    let p ← get
    match p.token with
    | .before change =>
      advance fuel
      let q ← get
      if q.token ≠ .name then
        refuse "identifier expected after pre-increment or pre-decrement"
      let n := wrapped (q.value + change)
      assign fuel q.target n
      modify fun p => { p with token := .number }
      advance fuel
      pure n
    | .symbol "(" =>
      advance fuel
      let n ← sequence fuel
      if (← get).token ≠ .symbol ")" then refuse "missing \x60)'"
      advance fuel
      pure n
    | .number =>
      advance fuel
      pure p.value
    | .name =>
      let behind := p.rest.dropWhile Numeral.isBlank
      match behind with
      | '+' :: '+' :: rest =>
        assign fuel p.target (wrapped (p.value + 1))
        modify fun q => { q with rest, mark := behind, token := .number, last := .name }
        advance fuel
      | '-' :: '-' :: rest =>
        assign fuel p.target (wrapped (p.value - 1))
        modify fun q => { q with rest, mark := behind, token := .number, last := .name }
        advance fuel
      | _ => advance fuel
      pure p.value
    | _ => refuse "syntax error: operand expected"
termination_by structural fuel => fuel

end

/-- More steps one below the other than any expression takes. -/
def depth : Nat := 1000000000000

/-- The number that a text is worth, and what the shell knows behind that. -/
def value (s : State) (text : String) : Except ArithmeticFault (Int × State) :=
  let start : Progress := { shell := s, whole := text, rest := text.toList }
  ((expression depth).run start).map fun (n, p) => (n, p.shell)

end Arithmetic
end PipelineRunner.Shell.Extended
