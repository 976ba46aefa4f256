import PipelineRunner.Number.FloatText

/-!
JSON values. Objects keep the order of their fields and may repeat a name, because a reader has to
see both. Numbers keep their digits; their value is worked out only where it is asked for.
-/

namespace PipelineRunner

/-- A number as it is written. -/
structure Numeral where
  negative : Bool
  /-- The digits before the point. -/
  whole : List Nat
  /-- The digits behind the point, if there is one. -/
  fraction : Option (List Nat) := none
  /-- Whether the exponent is negative, and its digits, if there is one. -/
  exponent : Option (Bool × List Nat) := none
  deriving DecidableEq, Repr

/-- A JSON value. -/
inductive Json where
  | null
  | bool (value : Bool)
  | number (numeral : Numeral)
  | string (text : String)
  /-- A string whose escapes name half of a surrogate pair, so that it is no text, or an object with
  such a name for a field. -/
  | unpaired
  | array (items : List Json)
  | object (fields : List (String × Json))
  deriving Inhabited

namespace Numeral

def digitsOf (n : Nat) : List Nat :=
  (toString n).toList.map fun c => c.toNat - '0'.toNat

def ofNat (n : Nat) : Numeral :=
  ⟨false, digitsOf n, none, none⟩

def ofInt (n : Int) : Numeral :=
  ⟨n < 0, digitsOf n.natAbs, none, none⟩

def digitText (digits : List Nat) : String :=
  String.ofList (digits.map fun d => Char.ofNat ('0'.toNat + d))

def text (n : Numeral) : String :=
  let sign := if n.negative then "-" else ""
  let fraction := match n.fraction with
    | some digits => "." ++ digitText digits
    | none => ""
  let exponent := match n.exponent with
    | some (true, digits) => "e-" ++ digitText digits
    | some (false, digits) => "e" ++ digitText digits
    | none => ""
  sign ++ digitText n.whole ++ fraction ++ exponent

def valueOf (digits : List Nat) : Nat :=
  digits.foldl (fun n d => n * 10 + d) 0

/-- The value of a numeral: whole numbers that fit into 64 bits are exact, all others are the
binary64 numbers that scaling yields. -/
inductive Value where
  | natural (n : Nat)
  | negative (n : Nat)
  | binary (x : Float)

/-- The digits that fit into an unsigned word of 64 bits, and how many do not. -/
def significand (n : Nat) : List Nat → Nat × Nat
  | [] => (n, 0)
  | d :: rest =>
    if n * 10 + d < Nat.pow 2 64 then significand (n * 10 + d) rest else (n, rest.length + 1)

/-- The significand times the power of ten: the significand is rounded first and then multiplied
or divided once, which may round again. None stands for a number that is too large. -/
def scaled (significand : Nat) (exponent : Int) : Option Float :=
  let f := Float.ofNat significand
  if exponent.natAbs ≤ 308 then
    if 0 ≤ exponent then
      let product := f * Float.ofScientific 1 false exponent.toNat
      if product.isInf then none else some product
    else some (f / Float.ofScientific 1 false exponent.natAbs)
  else if significand = 0 then some 0
  else if 0 ≤ exponent then none
  else
    let f := f / 1e308
    let exponent := exponent + 308
    if exponent.natAbs ≤ 308 then some (f / Float.ofScientific 1 false exponent.natAbs)
    else some 0

/-- The value of a numeral, or none if it is too large to have one. -/
def value? (n : Numeral) : Option Value :=
  let (whole, dropped) := significand 0 n.whole
  let plain := n.fraction.isNone && n.exponent.isNone && dropped = 0
  if plain && !n.negative then some (.natural whole)
  else if plain && 0 < whole && whole ≤ Nat.pow 2 63 then some (.negative whole)
  else
    let fraction := n.fraction.getD []
    let (all, rest) := significand whole fraction
    let shift : Int := dropped - (fraction.length - rest : Nat)
    let written : Int := match n.exponent with
      | some (true, digits) => -(valueOf digits : Int)
      | some (false, digits) => valueOf digits
      | none => 0
    (scaled all (shift + written)).map fun x => .binary (if n.negative then -x else x)

/-- The text of a value: whole numbers in digits, others in their shortest form. -/
def Value.text : Value → String
  | .natural n => toString n
  | .negative n => "-" ++ toString n
  | .binary x => Number.floatText .json x

def Value.toFloat : Value → Float
  | .natural n => Float.ofNat n
  | .negative n => -(Float.ofNat n)
  | .binary x => x

end Numeral

namespace Json

def ofNat (n : Nat) : Json := .number (.ofNat n)

def ofInt (n : Int) : Json := .number (.ofInt n)

def ofString? : Option String → Json
  | some s => .string s
  | none => .null

end Json
/-! ### Texts

JSON text, in the compact form without blanks and in the form with a line for each item. In a
string only the quotation mark, the backslash and the characters below U+0020 are escaped. -/

namespace Json

def hexDigit (n : Nat) : Char :=
  if n < 10 then Char.ofNat ('0'.toNat + n) else Char.ofNat ('a'.toNat + (n - 10))

/-- How a character is written inside a string. -/
def escaped (c : Char) : List Char :=
  if c = '"' then ['\\', '"']
  else if c = '\\' then ['\\', '\\']
  else if c = '\x08' then ['\\', 'b']
  else if c = '\x0c' then ['\\', 'f']
  else if c = '\n' then ['\\', 'n']
  else if c = '\r' then ['\\', 'r']
  else if c = '\t' then ['\\', 't']
  else if c.toNat < 32 then ['\\', 'u', '0', '0', hexDigit (c.toNat / 16), hexDigit (c.toNat % 16)]
  else [c]

def quoted (s : String) : List Char :=
  '"' :: (s.toList.flatMap escaped ++ ['"'])

mutual

/-- The compact text of a value. -/
def chars : Json → List Char
  | .null | .unpaired => ['n', 'u', 'l', 'l']
  | .bool true => ['t', 'r', 'u', 'e']
  | .bool false => ['f', 'a', 'l', 's', 'e']
  | .number n => n.text.toList
  | .string s => quoted s
  | .array items => '[' :: itemChars items
  | .object fields => '\x7b' :: fieldChars fields

def itemChars : List Json → List Char
  | [] => [']']
  | [item] => chars item ++ [']']
  | item :: rest => chars item ++ ',' :: itemChars rest

def fieldChars : List (String × Json) → List Char
  | [] => ['\x7d']
  | [(name, value)] => quoted name ++ ':' :: chars value ++ ['\x7d']
  | (name, value) :: rest => quoted name ++ ':' :: chars value ++ ',' :: fieldChars rest

end

def compact (json : Json) : String :=
  String.ofList json.chars

/-- A line end and the indentation of the given depth. -/
def newLine (depth : Nat) : List Char :=
  '\n' :: List.replicate (2 * depth) ' '

mutual

/-- The text of a value with a line for each item. -/
def prettyChars (depth : Nat) : Json → List Char
  | .array [] => ['[', ']']
  | .object [] => ['\x7b', '\x7d']
  | .array items => '[' :: prettyItems depth items
  | .object fields => '\x7b' :: prettyFields depth fields
  | .null | .unpaired => ['n', 'u', 'l', 'l']
  | .bool true => ['t', 'r', 'u', 'e']
  | .bool false => ['f', 'a', 'l', 's', 'e']
  | .number n => n.text.toList
  | .string s => quoted s

/-- The lines of the items of an array, and its closing bracket. -/
def prettyItems (depth : Nat) : List Json → List Char
  | [] => [']']
  | [item] => newLine (depth + 1) ++ prettyChars (depth + 1) item ++ newLine depth ++ [']']
  | item :: rest =>
    newLine (depth + 1) ++ prettyChars (depth + 1) item ++ ',' :: prettyItems depth rest

/-- The lines of the fields of an object, and its closing brace. -/
def prettyFields (depth : Nat) : List (String × Json) → List Char
  | [] => ['\x7d']
  | [(name, value)] =>
    newLine (depth + 1) ++ quoted name ++ [':', ' '] ++ prettyChars (depth + 1) value ++
      newLine depth ++ ['\x7d']
  | (name, value) :: rest =>
    newLine (depth + 1) ++ quoted name ++ [':', ' '] ++ prettyChars (depth + 1) value ++
      ',' :: prettyFields depth rest

end

/-- The text of a value with a line for each item. -/
def pretty (json : Json) : String :=
  String.ofList (json.prettyChars 0)

end Json
end PipelineRunner
