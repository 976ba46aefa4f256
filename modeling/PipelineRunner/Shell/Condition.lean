import PipelineRunner.Host.Routine
import PipelineRunner.Shell.Numeral

/-!
Conditions on texts, numbers and files, as a list of words states them. Whether a word is an
operator depends on the words behind it, so that texts which look like one can be compared.
-/

namespace PipelineRunner.Shell

open Host

/-- A condition. -/
inductive Condition where
  /-- Nothing has been said, which never holds. -/
  | nothing
  /-- Holds of every text but the empty one. -/
  | text (s : String)
  | unary (operator arg : String)
  | binary (a operator b : String)
  | negation (c : Condition)
  | both (a b : Condition)
  | either (a b : Condition)
  deriving DecidableEq, Repr

namespace Condition

/-- Why words state no condition. -/
inductive Fault where
  | argumentExpected (operator : String)
  | unexpectedOperator (word : String)
  | parenthesisExpected
  | missingBracket
  | illegal (number : String)
  deriving DecidableEq, Repr

def Fault.message : Fault → String
  | argumentExpected operator => s!"{operator}: argument expected"
  | unexpectedOperator word => s!"{word}: unexpected operator"
  | parenthesisExpected => "closing paren expected"
  | missingBracket => "missing ]"
  | illegal number => illegalNumber number

def unaryOperators : List String :=
  ["-b", "-c", "-d", "-e", "-f", "-g", "-h", "-k", "-n", "-p", "-r", "-s", "-t", "-u", "-w", "-x",
    "-z", "-G", "-L", "-O", "-S"]

def binaryOperators : List String :=
  ["=", "!=", "<", ">", "-eq", "-ne", "-lt", "-le", "-gt", "-ge", "-nt", "-ot", "-ef"]

def isUnary (s : String) : Bool := unaryOperators.contains s

def isBinary (s : String) : Bool := binaryOperators.contains s

mutual

/-- A condition that is no combination of others. A unary operator is taken for a text where
nothing follows, or an operator between it and a third word. If the head is `plain`, it is no
operator in any case. -/
def readPrimary (plain : Bool) : Nat → List String → Except Fault (Condition × List String)
  | fuel + 1, word :: rest =>
    let compared : Except Fault (Condition × List String) :=
      match rest with
      | op :: more =>
        if isBinary op then
          match more with
          | b :: more => .ok (.binary word op b, more)
          | [] => .error (.argumentExpected op)
        else .ok (.text word, rest)
      | [] => .ok (.text word, [])
    if plain then compared
    else if word = "(" && !rest.isEmpty then
      match rest with
      | ")" :: more => .ok (.nothing, more)
      | rest => do
        let (c, rest) ← readEither false fuel rest
        match rest with
        | ")" :: rest => pure (c, rest)
        | _ => throw .parenthesisExpected
    else if isUnary word then
      match rest with
      | [] => .ok (.text word, [])
      | [a] => .ok (.unary word a, [])
      | a :: b :: more => if isBinary a then compared else .ok (.unary word a, b :: more)
    else compared
  | _, _ => .ok (.nothing, [])

def readNegation (plain : Bool) : Nat → List String → Except Fault (Condition × List String)
  | fuel + 1, word :: rest =>
    if !plain && word = "!" then
      (readNegation false fuel rest).map fun (c, rest) => (.negation c, rest)
    else readPrimary plain (fuel + 1) (word :: rest)
  | _, _ => .ok (.nothing, [])

def readBoth (plain : Bool) : Nat → List String → Except Fault (Condition × List String)
  | 0, _ => .ok (.nothing, [])
  | fuel + 1, words => do
    let (a, rest) ← readNegation plain fuel words
    match rest with
    | "-a" :: rest => (readBoth false fuel rest).map fun (b, rest) => (.both a b, rest)
    | rest => pure (a, rest)

def readEither (plain : Bool) : Nat → List String → Except Fault (Condition × List String)
  | 0, _ => .ok (.nothing, [])
  | fuel + 1, words => do
    let (a, rest) ← readBoth plain fuel words
    match rest with
    | "-o" :: rest => (readEither false fuel rest).map fun (b, rest) => (.either a b, rest)
    | rest => pure (a, rest)

end

def readAll (plain : Bool) (words : List String) : Except Fault Condition := do
  let (c, rest) ← readEither plain (3 * words.length + 3) words
  if rest.isEmpty then pure c
  else throw (.unexpectedOperator (words.getD (words.length - rest.length - 1) ""))

/-- The condition that some words state. Three words with an operator in the middle are a
comparison, whatever they are, and so are those behind a sign of negation. -/
def parse : List String → Except Fault Condition
  | [a, op, b] =>
    if isBinary op then readAll true [a, op, b]
    else if a = "(" && b = ")" then readAll false [op]
    else if a = "!" then (readAll false [op, b]).map .negation
    else readAll false [a, op, b]
  | [a, b, c, d] =>
    if a = "(" && d = ")" then readAll false [b, c]
    else if a = "!" then (parse [b, c, d]).map .negation
    else readAll false [a, b, c, d]
  | words => readAll false words

def node? (s : Surroundings) (path : String) (follow : Bool) : Option Node :=
  (s.files.find? s.directory path follow).map s.files.node

/-- Whether a node is a file that holds bytes. -/
def isRegular (n : Node) : Bool :=
  match n.content with
  | .file _ | .program _ => true
  | _ => false

def hasContent (n : Node) : Bool :=
  match n.content with
  | .file bytes => !bytes.isEmpty
  | .program _ | .directory .. | .link _ => true
  | .device _ | .pipe => false

/-- Whether a node can be executed, or gone into. -/
def isExecutable (n : Node) : Bool :=
  match n.content with
  | .directory .. => true
  | _ => n.mode &&& 0o111 != 0

def holdsOf (s : Surroundings) (operator arg : String) : Except Fault Bool :=
  let holds (p : Node → Bool) : Except Fault Bool := .ok ((node? s arg true).any p)
  let holdsOfContent (p : Content → Bool) : Except Fault Bool := holds fun n => p n.content
  match operator with
  | "-n" => .ok (!arg.isEmpty)
  | "-z" => .ok arg.isEmpty
  | "-e" | "-r" | "-w" | "-O" | "-G" => holds fun _ => true
  | "-f" => holds isRegular
  | "-d" => holdsOfContent fun | .directory .. => true | _ => false
  | "-s" => holds hasContent
  | "-x" => holds isExecutable
  | "-c" => holdsOfContent fun | .device _ => true | _ => false
  | "-p" => holdsOfContent fun | .pipe => true | _ => false
  | "-u" => holds fun n => n.mode &&& 0o4000 != 0
  | "-g" => holds fun n => n.mode &&& 0o2000 != 0
  | "-k" => holds fun n => n.mode &&& 0o1000 != 0
  | "-h" | "-L" =>
    .ok ((node? s arg false).any fun n => match n.content with | .link _ => true | _ => false)
  | "-t" => if (Numeral.int? arg).isSome then .ok false else .error (.illegal arg)
  | _ => .ok false

def number (s : String) : Except Fault Int :=
  match Numeral.int? s with
  | some n => .ok n
  | none => .error (.illegal s)

def holdsBetween (s : Surroundings) (a operator b : String) : Except Fault Bool :=
  let numbers (p : Int → Int → Bool) : Except Fault Bool := do pure (p (← number a) (← number b))
  let times (p : Int → Int → Bool) : Except Fault Bool :=
    match node? s a true, node? s b true with
    | some m, some n => .ok (p m.modified n.modified)
    | _, _ => .ok false
  match operator with
  | "=" => .ok (a == b)
  | "!=" => .ok (a != b)
  | "<" => .ok (a < b)
  | ">" => .ok (b < a)
  | "-eq" => numbers (· == ·)
  | "-ne" => numbers (· != ·)
  | "-lt" => numbers (· < ·)
  | "-le" => numbers (· ≤ ·)
  | "-gt" => numbers (fun x y => y < x)
  | "-ge" => numbers (fun x y => y ≤ x)
  | "-nt" => times fun x y => y < x
  | "-ot" => times fun x y => x < y
  | "-ef" =>
    let i := s.files.find? s.directory a true
    .ok (i.isSome && i == s.files.find? s.directory b true)
  | _ => .ok false

/-- Whether a condition holds, over the files that words name. All of its parts are looked at. -/
def eval (s : Surroundings) : Condition → Except Fault Bool
  | nothing => .ok false
  | text t => .ok (!t.isEmpty)
  | unary operator arg => holdsOf s operator arg
  | binary a operator b => holdsBetween s a operator b
  | negation c => (c.eval s).map (!·)
  | both a b => do
    let x ← a.eval s
    let y ← b.eval s
    pure (x && y)
  | either a b => do
    let x ← a.eval s
    let y ← b.eval s
    pure (x || y)

/-- Whether the condition holds that the words behind the name of a command state. Behind a
bracket there has to be one at the end as well. -/
def holds (name : String) (s : Surroundings) (words : List String) : Except Fault Bool :=
  if name = "[" then
    if words.getLast? = some "]" then do (← parse words.dropLast).eval s
    else .error .missingBracket
  else do (← parse words).eval s

end Condition
end PipelineRunner.Shell
