import PipelineRunner.Utility.Input

/-!
The utility that works out an expression: its arguments are numbers, texts and operators. What an
operator does not ask for is read but not worked out.
-/

namespace PipelineRunner.Utility

open Host Text Job

namespace Evaluation

/-- What is wrong with an expression. -/
inductive Fault where
  | missingBehind (text : String)
  | unexpected (text : String)
  | unclosedBehind (text : String)
  | unclosedAt (text : String)
  | strayClosing
  | noNumber
  | divisionByZero
  | regex (e : RegexError)

def Fault.message : Fault → String
  | missingBehind text => "syntax error: missing argument after " ++ quoted text
  | unexpected text => "syntax error: unexpected argument " ++ quoted text
  | unclosedBehind text => "syntax error: expecting ')' after " ++ quoted text
  | unclosedAt text => "syntax error: expecting ')' instead of " ++ quoted text
  | strayClosing => "syntax error: unexpected ')'"
  | noNumber => "non-integer argument"
  | divisionByZero => "division by zero"
  | regex e => e.message

/-- The number that a text is: digits, perhaps behind a minus sign. -/
def number? (text : String) : Option Int :=
  match text.toList with
  | '-' :: cs => (Text.digits? cs).map fun n => -(n : Int)
  | cs => (Text.digits? cs).map fun n => (n : Int)

/-- Whether a value counts as false: it is empty, or a zero. -/
def isNull (text : String) : Bool :=
  let cs := match text.toList with
    | '-' :: c :: cs => c :: cs
    | cs => cs
  cs.all (· == '0')

/-- The arguments that are ahead, and the last one that has been read. -/
structure Place where
  before : String := ""
  rest : List String

namespace Place

/-- Takes a word, if it is the next argument. -/
def take? (p : Place) (word : String) : Option Place :=
  match p.rest with
  | a :: rest => if a = word then some ⟨a, rest⟩ else none
  | [] => none

def takeOne? (p : Place) (words : List String) : Option (String × Place) :=
  match p.rest with
  | a :: rest => if words.contains a then some (a, ⟨a, rest⟩) else none
  | [] => none

def next (p : Place) : Except Fault (String × Place) :=
  match p.rest with
  | a :: rest => .ok (a, ⟨a, rest⟩)
  | [] => .error (.missingBehind p.before)

end Place

/-- What the start of a text has in common with a regular expression: what its first group takes, or
the number of characters. -/
def matched (k : Charset) (text pattern : String) : Except Fault String := do
  let c := Characters.of k text
  match readRegex k { extended := false, isStrict := true } pattern with
  | .error e => throw (.regex e)
  | .ok r =>
    let anchored : Regex := .both (.here .start) r
    let found := anchored.find? c.chars 0
    if 0 < r.groupCount then
      match found.bind fun f => List.lookup 1 f.groups with
      | some (i, j) => pure (c.slice i j)
      | none => pure ""
    else pure (toString ((found.map (·.finish)).getD 0))

/-- The first place, counted from one, of one of some characters. -/
def indexOf (k : Charset) (text wanted : String) : Nat :=
  let chars := (Characters.of k wanted).chars
  match (Characters.of k text).chars.findIdx? chars.contains with
  | some i => i + 1
  | none => 0

/-- So many characters from a place on, which is counted from one. -/
def substring (k : Charset) (text position length : String) : String :=
  match number? position, number? length with
  | some position, some length =>
    if position ≤ 0 || length ≤ 0 then ""
    else
      let c := Characters.of k text
      c.slice (position.toNat - 1) (Nat.min c.chars.size (position.toNat - 1 + length.toNat))
  | _, _ => ""

/-- The sign of the order of two texts: by their numbers, if both are numbers. -/
def order (a b : String) : Ordering :=
  match number? a, number? b with
  | some m, some n => compare m n
  | _, _ => compare a b

def truth (b : Bool) : String := if b then "1" else "0"

def apply (k : Charset) (operator a b : String) : Except Fault String := do
  let numbers (f : Int → Int → Except Fault Int) : Except Fault String :=
    match number? a, number? b with
    | some m, some n => (f m n).map fun (i : Int) => toString i
    | _, _ => .error .noNumber
  let divided (f : Int → Int → Int) : Except Fault String :=
    numbers fun m n => if n = 0 then .error .divisionByZero else .ok (f m n)
  let o := order a b
  match operator with
  | "+" => numbers fun m n => .ok (m + n)
  | "-" => numbers fun m n => .ok (m - n)
  | "*" => numbers fun m n => .ok (m * n)
  | "/" => divided Int.tdiv
  | "%" => divided Int.tmod
  | ":" => matched k a b
  | "<" => pure (truth (o == .lt))
  | "<=" => pure (truth (o != .gt))
  | "=" | "==" => pure (truth (o == .eq))
  | "!=" => pure (truth (o != .eq))
  | ">=" => pure (truth (o != .lt))
  | ">" => pure (truth (o == .gt))
  | "&" => pure (if isNull a || isNull b then "0" else a)
  | _ => pure (if !isNull a then a else if isNull b then "0" else b)

def operators : List (List String) :=
  [["|"], ["&"], ["<", "<=", "=", "==", "!=", ">=", ">"], ["+", "-"], ["*", "/", "%"], [":"]]

mutual

/-- Operands with operators of a level between them; those of higher levels bind more. Without
`active` nothing is worked out. -/
def level (k : Charset) (active : Bool) : Nat → List (List String) → Place → Except Fault (String × Place)
  | 0, _, p => .error (.missingBehind p.before)
  | fuel + 1, [], p => operand k active fuel p
  | fuel + 1, here :: higher, p => do
    let (a, p) ← level k active fuel higher p
    continued k active fuel here higher a p

def continued (k : Charset) (active : Bool) : Nat → List String → List (List String) → String → Place →
    Except Fault (String × Place)
  | 0, _, _, _, p => .error (.missingBehind p.before)
  | fuel + 1, here, higher, a, p =>
    match p.takeOne? here with
    | none => .ok (a, p)
    | some (operator, p) => do
      let wanted := match operator with
        | "|" => isNull a
        | "&" => !isNull a
        | _ => true
      let (b, p) ← level k (active && wanted) fuel higher p
      let value ← if active then apply k operator a b else pure a
      continued k active fuel here higher value p

/-- An operand: a text, a call of a function, or an expression in parentheses. -/
def operand (k : Charset) (active : Bool) : Nat → Place → Except Fault (String × Place)
  | 0, p => .error (.missingBehind p.before)
  | fuel + 1, p => do
    let (word, behind) ← p.next
    match word with
    | "+" => behind.next
    | "length" => do
      let (a, p) ← operand k active fuel behind
      pure (toString (Characters.of k a).chars.size, p)
    | "match" => do
      let (a, p) ← operand k active fuel behind
      let (b, p) ← operand k active fuel p
      pure (← if active then matched k a b else pure a, p)
    | "index" => do
      let (a, p) ← operand k active fuel behind
      let (b, p) ← operand k active fuel p
      pure (toString (indexOf k a b), p)
    | "substr" => do
      let (a, p) ← operand k active fuel behind
      let (b, p) ← operand k active fuel p
      let (c, p) ← operand k active fuel p
      pure (substring k a b c, p)
    | "(" => do
      let (a, p) ← level k active fuel operators behind
      match p.take? ")", p.rest with
      | some p, _ => pure (a, p)
      | none, [] => throw (.unclosedBehind p.before)
      | none, other :: _ => throw (.unclosedAt other)
    | ")" => throw .strayClosing
    | word => pure (word, behind)

end

def value (k : Charset) (args : List String) : Except Fault String := do
  let (a, p) ← level k true (16 * args.length + 16) operators { rest := args }
  match p.rest with
  | [] => pure a
  | other :: _ => throw (.unexpected other)

end Evaluation

def expr (args : List String) : Job Unit := do
  let args := if args.head? = some "--" then args.drop 1 else args
  if args.isEmpty then misuse 2 "missing operand"
  match Evaluation.value (← charset) args with
  | .error e => fail 2 e.message
  | .ok value =>
    printLine value
    if Evaluation.isNull value then atLeast 1

end PipelineRunner.Utility
