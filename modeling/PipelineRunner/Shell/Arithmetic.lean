import PipelineRunner.Shell.Numeral

/-!
Arithmetic of the shell: expressions over whole numbers of 64 bits and variables, read by the rank
of their operators, and their values with the assignments that they make.
-/

namespace PipelineRunner.Shell.Arithmetic

/-- An operation on two numbers. -/
inductive Operator where
  | multiply
  | divide
  | modulo
  | plus
  | minus
  | shiftLeft
  | shiftRight
  | less
  | lessOrEqual
  | greater
  | greaterOrEqual
  | equal
  | unequal
  | bitAnd
  | bitXor
  | bitOr
  deriving DecidableEq, Repr

inductive Expression where
  | number (n : Int)
  | name (s : String)
  | negative (a : Expression)
  /-- One for zero, and zero for all else. -/
  | negation (a : Expression)
  | complement (a : Expression)
  | binary (op : Operator) (a b : Expression)
  | both (a b : Expression)
  | either (a b : Expression)
  | choice (condition yes no : Expression)
  /-- Gives a variable a value, which may be worked out of the old one. -/
  | assign (name : String) (op : Option Operator) (a : Expression)
  deriving DecidableEq, Repr

/-- Why an expression has no value. -/
inductive Fault where
  | primaryExpected
  | endExpected
  | colonExpected
  | parenthesisExpected
  | divisionByZero
  /-- The value of a variable is no number. -/
  | illegal (value : String)
  deriving DecidableEq, Repr

def Fault.message (f : Fault) (expression : String) : String :=
  let about (what : String) : String := "arithmetic expression: " ++ what ++ ": \"" ++
    expression ++ "\""
  match f with
  | primaryExpected => about "expecting primary"
  | endExpected => about "expecting EOF"
  | colonExpected => about "expecting ':'"
  | parenthesisExpected => about "expecting ')'"
  | divisionByZero => about "division by zero"
  | illegal value => illegalNumber value

inductive Lexeme where
  | number (n : Int)
  | name (s : String)
  | symbol (s : String)
  | unknown
  deriving DecidableEq, Repr

def symbols : List String :=
  ["<<=", ">>=", "&&", "||", "==", "!=", "<=", ">=", "<<", ">>", "+=", "-=", "*=", "/=", "%=",
    "&=", "^=", "|=", "<", ">", "+", "-", "*", "/", "%", "(", ")", "!", "~", "&", "|", "^", "?",
    ":", "="]

/-- The first of some words that stands at the head of a text. -/
def symbolAt (cs : List Char) : List String → Option (String × List Char)
  | [] => none
  | s :: rest =>
    if s.toList.isPrefixOf cs then some (s, cs.drop s.length) else symbolAt cs rest

def isWordChar (c : Char) : Bool := c.isAlphanum || c == '_'

def lexemes : Nat → List Char → List Lexeme
  | 0, _ => []
  | _, [] => []
  | fuel + 1, c :: cs =>
    if Numeral.isBlank c then lexemes fuel cs
    else if c.isDigit then
      match Numeral.read? true (c :: cs) with
      | some n => .number n.value :: lexemes fuel n.rest
      | none => [.unknown]
    else if isWordChar c then
      .name (String.ofList ((c :: cs).takeWhile isWordChar)) ::
        lexemes fuel (cs.dropWhile isWordChar)
    else
      match symbolAt (c :: cs) symbols with
      | some (s, rest) => .symbol s :: lexemes fuel rest
      | none => [.unknown]

/-- The operator between two operands that a symbol is, with its rank; higher ranks bind closer. -/
def ranked? (s : String) : Option (Nat × (Expression → Expression → Expression)) :=
  let op (rank : Nat) (o : Operator) := some (rank, Expression.binary o)
  match s with
  | "||" => some (1, .either)
  | "&&" => some (2, .both)
  | "|" => op 3 .bitOr
  | "^" => op 4 .bitXor
  | "&" => op 5 .bitAnd
  | "==" => op 6 .equal
  | "!=" => op 6 .unequal
  | "<" => op 7 .less
  | "<=" => op 7 .lessOrEqual
  | ">" => op 7 .greater
  | ">=" => op 7 .greaterOrEqual
  | "<<" => op 8 .shiftLeft
  | ">>" => op 8 .shiftRight
  | "+" => op 9 .plus
  | "-" => op 9 .minus
  | "*" => op 10 .multiply
  | "/" => op 10 .divide
  | "%" => op 10 .modulo
  | _ => none

/-- The operation that an assignment applies to the old value, for a symbol that assigns. -/
def assigning? (s : String) : Option (Option Operator) :=
  match s with
  | "=" => some none
  | "+=" => some (some .plus)
  | "-=" => some (some .minus)
  | "*=" => some (some .multiply)
  | "/=" => some (some .divide)
  | "%=" => some (some .modulo)
  | "<<=" => some (some .shiftLeft)
  | ">>=" => some (some .shiftRight)
  | "&=" => some (some .bitAnd)
  | "^=" => some (some .bitXor)
  | "|=" => some (some .bitOr)
  | _ => none

mutual

def readOperand : Nat → List Lexeme → Except Fault (Expression × List Lexeme)
  | fuel + 1, .symbol s :: rest =>
    let signed (make : Expression → Expression) : Except Fault (Expression × List Lexeme) :=
      (readOperand fuel rest).map fun (a, rest) => (make a, rest)
    match s with
    | "(" => do
      let (a, rest) ← readAssignment fuel rest
      match rest with
      | .symbol ")" :: rest => pure (a, rest)
      | _ => throw .parenthesisExpected
    | "-" => signed .negative
    | "+" => signed id
    | "!" => signed .negation
    | "~" => signed .complement
    | _ => throw .primaryExpected
  | _ + 1, .number n :: rest => pure (.number n, rest)
  | _ + 1, .name s :: rest => pure (.name s, rest)
  | _, _ => throw .primaryExpected

/-- Operands joined by operators of at least the given rank. -/
def readBinary (least : Nat) : Nat → List Lexeme → Except Fault (Expression × List Lexeme)
  | 0, _ => throw .primaryExpected
  | fuel + 1, ls => do
    let (a, ls) ← readOperand fuel ls
    readMore least fuel a ls

def readMore (least : Nat) :
    Nat → Expression → List Lexeme → Except Fault (Expression × List Lexeme)
  | fuel + 1, a, .symbol s :: rest =>
    match ranked? s with
    | some (rank, make) =>
      if rank < least then pure (a, .symbol s :: rest)
      else do
        let (b, rest) ← readBinary (rank + 1) fuel rest
        readMore least fuel (make a b) rest
    | none => pure (a, .symbol s :: rest)
  | _, a, ls => pure (a, ls)

/-- A choice between two values, or a plain expression. -/
def readChoice : Nat → List Lexeme → Except Fault (Expression × List Lexeme)
  | 0, _ => throw .primaryExpected
  | fuel + 1, ls => do
    let (condition, ls) ← readBinary 1 fuel ls
    match ls with
    | .symbol "?" :: ls =>
      let (yes, ls) ← readAssignment fuel ls
      match ls with
      | .symbol ":" :: ls =>
        let (no, ls) ← readChoice fuel ls
        pure (.choice condition yes no, ls)
      | _ => throw .colonExpected
    | ls => pure (condition, ls)

def readAssignment : Nat → List Lexeme → Except Fault (Expression × List Lexeme)
  | fuel + 1, .name name :: .symbol s :: rest =>
    match assigning? s with
    | some op => (readAssignment fuel rest).map fun (a, rest) => (.assign name op a, rest)
    | none => readChoice fuel (.name name :: .symbol s :: rest)
  | fuel + 1, ls => readChoice fuel ls
  | 0, _ => throw .primaryExpected

end

def Expression.parse (text : String) : Except Fault Expression :=
  let ls := lexemes (text.length + 1) text.toList
  match readAssignment (20 * ls.length + 20) ls with
  | .ok (e, []) => .ok e
  | .ok _ => .error .endExpected
  | .error f => .error f

def ofBool (b : Bool) : Int := if b then 1 else 0

/-- The number of 64 bits that differs from a number by a multiple of their range. -/
def wrapped (n : Int) : Int := Int.bmod n (Nat.pow 2 64)

/-- A bitwise operation on numbers in two's complement of 64 bits. -/
def bitwise (op : BitVec 64 → BitVec 64 → BitVec 64) (a b : Int) : Int :=
  (op (BitVec.ofInt 64 a) (BitVec.ofInt 64 b)).toInt

/-- What an operation yields: quotients go toward zero, and shifts go by at most 63 places. -/
def Operator.apply (op : Operator) (a b : Int) : Except Fault Int :=
  let places : Nat := (b % 64).toNat
  match op with
  | multiply => .ok (wrapped (a * b))
  | divide => if b = 0 then .error .divisionByZero else .ok (wrapped (Int.tdiv a b))
  | modulo => if b = 0 then .error .divisionByZero else .ok (Int.tmod a b)
  | plus => .ok (wrapped (a + b))
  | minus => .ok (wrapped (a - b))
  | shiftLeft => .ok (wrapped (a * Nat.pow 2 places))
  | shiftRight => .ok (Int.fdiv a (Nat.pow 2 places))
  | less => .ok (ofBool (a < b))
  | lessOrEqual => .ok (ofBool (a ≤ b))
  | greater => .ok (ofBool (b < a))
  | greaterOrEqual => .ok (ofBool (b ≤ a))
  | equal => .ok (ofBool (a == b))
  | unequal => .ok (ofBool (a != b))
  | bitAnd => .ok (bitwise (· &&& ·) a b)
  | bitXor => .ok (bitwise (· ^^^ ·) a b)
  | bitOr => .ok (bitwise (· ||| ·) a b)

/-- The values that have been assigned, the latest first. -/
abbrev Assigned := List (String × Int)

/-- The value of an expression over the values of the variables, and what has been assigned. Only
those operands are worked out that count. -/
def Expression.eval (value : String → Except Fault Int) :
    Expression → Assigned → Except Fault (Int × Assigned)
  | number n, m => .ok (n, m)
  | name s, m =>
    match List.lookup s m with
    | some n => .ok (n, m)
    | none => (value s).map fun n => (n, m)
  | negative a, m => (a.eval value m).map fun (n, m) => (wrapped (-n), m)
  | negation a, m => (a.eval value m).map fun (n, m) => (ofBool (n == 0), m)
  | complement a, m => (a.eval value m).map fun (n, m) => (-n - 1, m)
  | binary op a b, m => do
    let (x, m) ← a.eval value m
    let (y, m) ← b.eval value m
    pure (← op.apply x y, m)
  | both a b, m => do
    let (x, m) ← a.eval value m
    if x = 0 then pure (0, m) else (b.eval value m).map fun (y, m) => (ofBool (y != 0), m)
  | either a b, m => do
    let (x, m) ← a.eval value m
    if x = 0 then (b.eval value m).map fun (y, m) => (ofBool (y != 0), m) else pure (1, m)
  | choice condition yes no, m => do
    let (x, m) ← condition.eval value m
    if x = 0 then no.eval value m else yes.eval value m
  | assign s op a, m => do
    let (x, m) ← a.eval value m
    match op with
    | none => pure (x, (s, x) :: m)
    | some op =>
      let old ← match List.lookup s m with
        | some n => pure n
        | none => value s
      let n ← op.apply old x
      pure (n, (s, n) :: m)

end PipelineRunner.Shell.Arithmetic
