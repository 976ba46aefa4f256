import PipelineRunner.Regex.Parser
import PipelineRunner.Shell.Condition
import PipelineRunner.Shell.Extended.Assigning
import PipelineRunner.Shell.Extended.Builtin.Basic

/-!
Conditions of the extended language: texts are compared with patterns and regular expressions, and
numbers are worked out of expressions.
-/

namespace PipelineRunner.Shell.Extended

open Host Text Shell.Action

/-- Whether a text names a variable, or an element of one, that has a value. -/
def hasValue (text : String) : Action Bool := do
  let (name, inside) := splitReference text
  let s ← get
  match inside with
  | none =>
    match digits? name.toList with
    | some _ => pure (s.parameter? name).isSome
    | none => pure (s.value? name).isSome
  | some "@" | some "*" => pure ((s.binding? name).any (·.isSet))
  | some place =>
    match ← placeAt name place with
    | some p => pure ((s.binding? name).any fun v => (v.at? p).isSome)
    | none =>
      warnPlace name
      pure false

def holdsOf (operator text : String) : Action Bool := do
  let s ← get
  match operator with
  | "-v" => hasValue text
  | "-o" => pure (s.has text)
  | "-R" => pure ((OrderedMap.get? text s.bindings).any (·.isReference))
  | "-N" => pure false
  | "-t" => pure false
  | _ =>
    let operator := if operator = "-a" then "-e" else operator
    match Condition.holdsOf (← look) operator text with
    | .ok b => pure b
    | .error _ => pure false

/-- Whether an operator holds between two texts or files. One that is there is newer than one that
is not. -/
def holdsBetween (a operator b : String) : Action Bool := do
  let seen ← look
  let m := Condition.node? seen a true
  let n := Condition.node? seen b true
  match operator, m, n with
  | "-nt", some _, none | "-ot", none, some _ => pure true
  | _, _, _ =>
    match Condition.holdsBetween seen a operator b with
    | .ok b => pure b
    | .error _ => pure false

def numberOperators : List String := ["-eq", "-ne", "-lt", "-le", "-gt", "-ge"]

def holdsOfNumbers (operator : String) (a b : Int) : Bool :=
  match operator with
  | "-eq" => a == b
  | "-ne" => a != b
  | "-lt" => a < b
  | "-le" => a ≤ b
  | "-gt" => b < a
  | _ => b ≤ a

/-- The text of glyphs with a backslash in front of each that is quoted. -/
def escaped (gs : Glyphs) : String :=
  String.ofList (gs.flatMap fun g => if g.quoted then ['\\', g.char] else [g.char])

/-- The regular expression that glyphs are; those that are quoted stand for themselves. -/
def expressionText (gs : Glyphs) : String :=
  let rec go (inSet : Bool) : Glyphs → List Char
    | [] => []
    | g :: rest =>
      let inSet' := if g.quoted then inSet
        else if inSet then g.char != ']' else g.char == '['
      let isMeant := "\\^$.[]|()*+?\x7b\x7d".toList.contains g.char
      (if g.quoted && isMeant && !inSet then ['\\', g.char] else [g.char]) ++ go inSet' rest
  String.ofList (go false gs)

/-- Whether a regular expression is found in a text. What it has taken is noted. -/
def isFound (text expression : String) : Action Bool := do
  let s ← get
  let k := s.charset
  let subject := Characters.of k text
  let parsed := Regex.parse { extended := true }
    (String.ofList (Characters.of k expression).chars.toList)
  match parsed with
  | .error _ =>
    setStatus 2
    throw .error
  | .ok r =>
    let r := if s.hasFeature "nocasematch" then r.folded else r
    let found := r.find? subject.chars 0
    let taken : List String := match found with
      | none => []
      | some f =>
        let group (n : Nat) : String :=
          match f.groups.find? fun g => g.1 == n with
          | some (_, i, j) => subject.slice i j
          | none => ""
        subject.slice f.start f.finish :: (List.range r.groupCount).map fun n => group (n + 1)
    modify fun s => s.putVariable "BASH_REMATCH" (some { elements := some (.ofTexts taken) })
    pure found.isSome

namespace Runner

/-- Whether a condition holds. Each part that is looked at is shown by `trace`. -/
def holds (r : Runner) (trace : String → Action Unit) (sign : String) : Check → Action Bool
  | .word w => do
    let text ← r.text { tildes := .first } w
    trace (sign ++ "-n " ++ (if text.isEmpty then "''" else text))
    pure !text.isEmpty
  | .unary operator w => do
    let text ← r.text { tildes := .first } w
    trace (sign ++ operator ++ " " ++ (if text.isEmpty then "''" else text))
    holdsOf operator text
  | .binary operator a b => do
    let text ← r.text { tildes := .first } a
    let shown := if text.isEmpty then "''" else text
    if ["=", "==", "!=", "=~"].contains operator then
      let gs ← r.glyphs b
      let written := if operator = "=~" then expressionText gs else escaped gs
      trace (sign ++ shown ++ " " ++ operator ++ " " ++ (if gs.isEmpty then "''" else written))
      if operator = "=~" then isFound text (expressionText gs)
      else
        let s ← get
        let isMatch := (Runner.globOf s true gs).isMatch s.charset text
        pure (isMatch != (operator == "!="))
    else
      let other ← r.text { tildes := .first } b
      trace (sign ++ shown ++ " " ++ operator ++ " " ++ (if other.isEmpty then "''" else other))
      if numberOperators.contains operator then
        let m ← numberOf "[[: " text
        let n ← numberOf "[[: " other
        pure (holdsOfNumbers operator m n)
      else
        holdsBetween text operator other
  | .negation c => do
    let b ← r.holds trace (sign ++ "! ") c
    pure !b
  | .both a b => do
    if ← r.holds trace sign a then r.holds trace sign b else pure false
  | .either a b => do
    if ← r.holds trace sign a then pure true else r.holds trace sign b

end Runner
end PipelineRunner.Shell.Extended

/-! ### The command

The command that tells by its status whether a condition holds. How its words are read depends on
their number: up to four of them have one meaning only. -/

namespace PipelineRunner.Shell.Extended.Builtin

open Host Text Shell.Action

namespace Testing

def unaryOperators : List String :=
  "abcdefghknoprstuvwxzGLNORS".toList.map fun c => "-" ++ String.singleton c

def binaryOperators : List String :=
  ["=", "==", "!=", "<", ">", "-nt", "-ot", "-ef"] ++ numberOperators

def refuse {α : Type} (text : String) : Action α := failWith text 2

def number (text : String) : Action Int := do
  match Numeral.int? text with
  | some n => pure n
  | none => refuse (text ++ ": integer expression expected")

def between (a operator b : String) : Action Bool := do
  if numberOperators.contains operator then
    let m ← number a
    let n ← number b
    pure (holdsOfNumbers operator m n)
  else
    let operator := if operator = "==" then "=" else operator
    holdsBetween a operator b

def ofTwo (a b : String) : Action Bool := do
  if a = "!" then pure b.isEmpty
  else if unaryOperators.contains a then holdsOf a b
  else refuse (a ++ ": unary operator expected")

def ofThree (a b c : String) : Action Bool := do
  if binaryOperators.contains b then between a b c
  else if b = "-a" then pure (!a.isEmpty && !c.isEmpty)
  else if b = "-o" then pure (!a.isEmpty || !c.isEmpty)
  else if a = "!" then do pure (!(← ofTwo b c))
  else if a = "(" && c = ")" then pure (!b.isEmpty)
  else refuse (b ++ ": binary operator expected")

mutual

/-- Whether one of some conditions holds, and the words behind them. All of them are looked at. -/
def either : Nat → List String → Action (Bool × List String)
  | 0, words => pure (false, words)
  | fuel + 1, words => do
    let (a, rest) ← both fuel words
    match rest with
    | "-o" :: rest => do
      let (b, rest) ← either fuel rest
      pure (a || b, rest)
    | rest => pure (a, rest)

/-- Whether all of some conditions hold, and the words behind them. -/
def both : Nat → List String → Action (Bool × List String)
  | 0, words => pure (false, words)
  | fuel + 1, words => do
    let (a, rest) ← single fuel words
    match rest with
    | "-a" :: rest => do
      let (b, rest) ← both fuel rest
      pure (a && b, rest)
    | rest => pure (a, rest)

/-- Whether a condition that is no combination of others holds, and the words behind it. -/
def single : Nat → List String → Action (Bool × List String)
  | 0, words => pure (false, words)
  | fuel + 1, words => do
    match words with
    | [] | ["!"] | ["("] => refuse "argument expected"
    | "!" :: rest => do
      let (b, rest) ← single fuel rest
      pure (!b, rest)
    | "(" :: rest => do
      let (b, rest) ← either fuel rest
      match rest with
      | [] => refuse "\x60)' expected"
      | ")" :: rest => pure (b, rest)
      | w :: _ => refuse ("\x60)' expected, found " ++ w)
    | a :: op :: b :: rest =>
      if binaryOperators.contains op then do pure (← between a op b, rest)
      else if unaryOperators.contains a then do pure (← holdsOf a op, b :: rest)
      else pure (!a.isEmpty, op :: b :: rest)
    | [a, b] =>
      if unaryOperators.contains a then do pure (← holdsOf a b, [])
      else pure (!a.isEmpty, [b])
    | [a] => pure (!a.isEmpty, [])

end

def ofMany (words : List String) : Action Bool := do
  let (b, rest) ← either (3 * words.length + 3) words
  match rest with
  | [] => pure b
  | w :: _ =>
    if w.startsWith "-" then refuse ("syntax error: \x60" ++ w ++ "' unexpected")
    else refuse "too many arguments"

def holds (words : List String) : Action Bool := do
  match words with
  | [] => pure false
  | [a] => pure (!a.isEmpty)
  | [a, b] => ofTwo a b
  | [a, b, c] => ofThree a b c
  | [a, b, c, d] =>
    if a = "!" then do pure (!(← ofThree b c d))
    else if a = "(" && d = ")" then ofTwo b c
    else ofMany words
  | words => ofMany words

end Testing

/-- Tells by its status whether a condition holds. -/
def test (name : String) (args : List String) : Action Nat := do
  let words ← if name != "[" then pure args
    else if args.getLast? = some "]" then pure args.dropLast
    else Testing.refuse "missing \x60]'"
  pure (if ← Testing.holds words then 0 else 1)

end PipelineRunner.Shell.Extended.Builtin
