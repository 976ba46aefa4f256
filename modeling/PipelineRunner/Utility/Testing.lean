import PipelineRunner.Shell.Condition
import PipelineRunner.Utility.Job

/-!
The utility that tells whether a condition holds. How its words are understood depends on their
number, if there are up to four of them; otherwise operators are looked for from the left.
-/

namespace PipelineRunner.Utility

open Host Text Job

/-- What words are looked at with. -/
structure Testing where
  seen : Surroundings
  /-- The last of all words. -/
  last : String

namespace Testing

/-- A value and the words behind what it has been found in. -/
abbrev Found : Type := Except String (Bool × List String)

def binaryOperators : List String :=
  ["=", "==", "!=", "-eq", "-ne", "-lt", "-le", "-gt", "-ge", "-nt", "-ot", "-ef"]

def isBinary (word : String) : Bool := binaryOperators.contains word

/-- Whether a word has the form of a unary operator. -/
def isSwitch (word : String) : Bool :=
  match word.toList with
  | ['-', _] => true
  | _ => false

def number (word : String) : Except String Int :=
  match Shell.Numeral.int? word with
  | some n => .ok n
  | none => .error ("invalid integer " ++ quoted word)

def beyond (t : Testing) : Found := .error ("missing argument after " ++ quoted t.last)

/-- Whether an operator holds between two words. A file that is not there is older than any
other. -/
def between (t : Testing) (a operator b : String) : Except String Bool :=
  let time (path : String) : Option Int :=
    (Shell.Condition.node? t.seen path true).map (·.modified)
  match operator with
  | "==" => .ok (a == b)
  | "-nt" => .ok (match time a, time b with
    | some m, some n => n < m
    | m, _ => m.isSome)
  | "-ot" => .ok (match time a, time b with
    | some m, some n => m < n
    | _, n => n.isSome)
  | "-eq" | "-ne" | "-lt" | "-le" | "-gt" | "-ge" => do
    let m ← number a
    let n ← number b
    pure (match operator with
      | "-eq" => m = n
      | "-ne" => m != n
      | "-lt" => m < n
      | "-le" => m ≤ n
      | "-gt" => n < m
      | _ => n ≤ m)
  | operator => (Shell.Condition.holdsBetween t.seen a operator b).mapError (·.message)

def switch (t : Testing) : List String → Found
  | operator :: rest =>
    let operator := if operator = "-a" then "-e" else operator
    if !("-N" :: Shell.Condition.unaryOperators).contains operator then
      .error (quoted operator ++ ": unary operator expected")
    else
      match rest with
      | [] => t.beyond
      | word :: rest =>
        if operator = "-t" then (number word).map fun _ => (false, rest)
        else
          (Shell.Condition.holdsOf t.seen operator word).mapError (·.message) |>.map (·, rest)
  | [] => t.beyond

def two (t : Testing) (words : List String) : Found :=
  match words with
  | "!" :: word :: rest => .ok (word.isEmpty, rest)
  | word :: _ => if isSwitch word then t.switch words else t.beyond
  | [] => t.beyond

mutual

/-- So many words, or everything if there are more than four. -/
def ofCount (t : Testing) : Nat → Nat → List String → Found
  | 0, _, _ => .ok (false, [])
  | fuel + 1, count, words =>
    match count, words with
    | 1, word :: rest => .ok (!word.isEmpty, rest)
    | 2, words => t.two words
    | 3, a :: operator :: b :: rest =>
      if isBinary operator then (t.between a operator b).map (·, rest)
      else if a = "!" then (t.two (operator :: b :: rest)).map fun (holds, rest) => (!holds, rest)
      else if a = "(" && b = ")" then .ok (!operator.isEmpty, rest)
      else if operator = "-a" || operator = "-o" then t.either fuel words
      else .error (quoted operator ++ ": binary operator expected")
    | 4, a :: b :: c :: d :: rest =>
      if a = "!" then
        (t.ofCount fuel 3 (b :: c :: d :: rest)).map fun (holds, rest) => (!holds, rest)
      else if a = "(" && d = ")" then
        (t.two [b, c]).map fun (holds, _) => (holds, rest)
      else t.either fuel words
    | _, words => t.either fuel words
termination_by structural fuel => fuel

/-- Conditions of which one has to hold. -/
def either (t : Testing) : Nat → List String → Found
  | 0, _ => .ok (false, [])
  | fuel + 1, words => do
    let (a, rest) ← t.both fuel words
    match rest with
    | "-o" :: rest => do
      if rest.isEmpty then t.beyond
      else
        let (b, rest) ← t.either fuel rest
        pure (a || b, rest)
    | rest => pure (a, rest)
termination_by structural fuel => fuel

/-- Conditions of which all have to hold. -/
def both (t : Testing) : Nat → List String → Found
  | 0, _ => .ok (false, [])
  | fuel + 1, words => do
    let (a, rest) ← t.term fuel words
    match rest with
    | "-a" :: rest => do
      let (b, rest) ← t.both fuel rest
      pure (a && b, rest)
    | rest => pure (a, rest)
termination_by structural fuel => fuel

/-- A condition that is no combination of others, or one between parentheses. -/
def term (t : Testing) : Nat → List String → Found
  | 0, _ => .ok (false, [])
  | fuel + 1, words =>
    match words with
    | [] => t.beyond
    | "!" :: rest => (t.term fuel rest).map fun (holds, rest) => (!holds, rest)
    | "(" :: [] => t.beyond
    | "(" :: first :: rest => do
      let inside := 1 + (rest.takeWhile (· != ")")).length
      let count := if 4 ≤ inside then (first :: rest).length else inside
      let (holds, rest) ← t.ofCount fuel count (first :: rest)
      match rest with
      | ")" :: rest => pure (holds, rest)
      | word :: _ => throw (quoted ")" ++ " expected, found " ++ quoted word)
      | [] => throw (quoted ")" ++ " expected")
    | word :: rest =>
      match rest with
      | operator :: b :: behind =>
        if isBinary operator then (t.between word operator b).map (·, behind)
        else if isSwitch word then t.switch words
        else .ok (!word.isEmpty, rest)
      | _ => if isSwitch word then t.switch words else .ok (!word.isEmpty, rest)
termination_by structural fuel => fuel

end

def holds (seen : Surroundings) (words : List String) : Except String Bool := do
  if words.isEmpty then pure false
  else
    let t : Testing := { seen, last := words.getLastD "" }
    let (holds, rest) ← t.ofCount (4 * words.length + 4) words.length words
    match rest with
    | [] => pure holds
    | extra :: _ => throw ("extra argument " ++ quoted extra)

end Testing

def test (args : List String) : Job Unit := do
  let isBracket := (← get).title = "["
  if isBracket && args.getLast? != some "]" then fail 2 ("missing " ++ quoted "]")
  match Testing.holds (← look) (if isBracket then args.dropLast else args) with
  | .ok holds => exit (if holds then 0 else 1)
  | .error text => fail 2 text

end PipelineRunner.Utility
