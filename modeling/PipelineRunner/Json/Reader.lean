import PipelineRunner.Json.Basic
import PipelineRunner.Text.Basic

/-!
Reading JSON text. The reader takes the grammar strictly: four kinds of blanks, no leading zeros,
no control characters in strings, nothing behind the value. It sets no limit on nesting; who needs
one asks `fits`. Of an object that is read as a record, a field that the record knows may stand there
at most once; all other fields are ignored, however often they are repeated.
-/

namespace PipelineRunner.Json

/-- The blanks that may stand between tokens. -/
def isSpace (c : Char) : Bool :=
  c = ' ' || c = '\n' || c = '\t' || c = '\r'

def skipSpace (cs : List Char) : List Char :=
  cs.dropWhile isSpace

def takeDigits : List Char → List Nat × List Char
  | [] => ([], [])
  | c :: cs =>
    match Text.digit? c with
    | some d => let (ds, rest) := takeDigits cs; (d :: ds, rest)
    | none => ([], c :: cs)

/-- The digits behind a point, of which there must be one. -/
def readFraction : List Char → Option (Option (List Nat) × List Char)
  | '.' :: cs =>
    match takeDigits cs with
    | ([], _) => none
    | (ds, rest) => some (some ds, rest)
  | cs => some (none, cs)

def readExponent (cs : List Char) : Option (Option (Bool × List Nat) × List Char) :=
  let digits (negative : Bool) (cs : List Char) :=
    match takeDigits cs with
    | ([], _) => none
    | (ds, rest) => some (some (negative, ds), rest)
  match cs with
  | c :: rest =>
    if c = 'e' || c = 'E' then
      match rest with
      | '-' :: more => digits true more
      | '+' :: more => digits false more
      | more => digits false more
    else some (none, cs)
  | [] => some (none, [])

def readNumeral (cs : List Char) : Option (Numeral × List Char) :=
  let (negative, cs) := match cs with
    | '-' :: rest => (true, rest)
    | _ => (false, cs)
  match takeDigits cs with
  | ([], _) => none
  | (0 :: _ :: _, _) => none
  | (whole, rest) =>
    match readFraction rest with
    | none => none
    | some (fraction, rest) =>
      match readExponent rest with
      | none => none
      | some (exponent, rest) => some (⟨negative, whole, fraction, exponent⟩, rest)

def hexValue? (c : Char) : Option Nat :=
  if '0' ≤ c && c ≤ '9' then some (c.toNat - '0'.toNat)
  else if 'a' ≤ c && c ≤ 'f' then some (c.toNat - 'a'.toNat + 10)
  else if 'A' ≤ c && c ≤ 'F' then some (c.toNat - 'A'.toNat + 10)
  else none

/-- The value of four hexadecimal digits. -/
def readHex : List Char → Option (Nat × List Char)
  | a :: b :: c :: d :: rest => do
    let a ← hexValue? a
    let b ← hexValue? b
    let c ← hexValue? c
    let d ← hexValue? d
    some (((a * 16 + b) * 16 + c) * 16 + d, rest)
  | _ => none

/-- The character that a one-letter escape stands for. -/
def simpleEscape? (c : Char) : Option Char :=
  if c = '"' || c = '\\' || c = '/' then some c
  else if c = 'b' then some '\x08'
  else if c = 'f' then some '\x0c'
  else if c = 'n' then some '\n'
  else if c = 'r' then some '\r'
  else if c = 't' then some '\t'
  else none

/-- One item of a string: a character, half of a surrogate pair without the other half (none), or
the closing quotation mark. -/
inductive StringItem where
  | char (c : Char) (rest : List Char)
  | half (rest : List Char)
  | close (rest : List Char)

/-- The item that an escape with four digits stands for: two of them may form a pair. -/
def readUnicode (cs : List Char) : Option StringItem :=
  match readHex cs with
  | none => none
  | some (n, rest) =>
    if n < 0xD800 || 0xDFFF < n then some (.char (Char.ofNat n) rest)
    else if 0xDC00 ≤ n then some (.half rest)
    else
      match rest with
      | '\\' :: 'u' :: more =>
        match readHex more with
        | none => none
        | some (low, rest') =>
          if 0xDC00 ≤ low && low ≤ 0xDFFF then
            some (.char (Char.ofNat (0x10000 + (n - 0xD800) * 0x400 + (low - 0xDC00))) rest')
          else some (.half rest)
      | _ => some (.half rest)

def readStringItem : List Char → Option StringItem
  | [] => none
  | '"' :: rest => some (.close rest)
  | '\\' :: 'u' :: rest => readUnicode rest
  | '\\' :: c :: rest => (simpleEscape? c).map (.char · rest)
  | ['\\'] => none
  | c :: rest => if c.toNat < 32 then none else some (.char c rest)

/-- The characters up to the closing quotation mark, or none for them if they are no text. -/
def readStringBody : Nat → List Char → Option (Option (List Char) × List Char)
  | 0, _ => none
  | fuel + 1, cs =>
    match readStringItem cs with
    | none => none
    | some (.close rest) => some (some [], rest)
    | some (.char c rest) => (readStringBody fuel rest).map fun (s, more) => (s.map (c :: ·), more)
    | some (.half rest) => (readStringBody fuel rest).map fun (_, more) => (none, more)

/-- The rest behind the given characters. -/
def expectChars : List Char → List Char → Option (List Char)
  | [], cs => some cs
  | c :: word, d :: cs => if c = d then expectChars word cs else none
  | _ :: _, [] => none

mutual

/-- A value; blanks before it have been skipped. -/
def readValue : Nat → List Char → Option (Json × List Char)
  | 0, _ => none
  | fuel + 1, cs =>
    match cs with
    | 'n' :: rest => (expectChars ['u', 'l', 'l'] rest).map (.null, ·)
    | 't' :: rest => (expectChars ['r', 'u', 'e'] rest).map (.bool true, ·)
    | 'f' :: rest => (expectChars ['a', 'l', 's', 'e'] rest).map (.bool false, ·)
    | '"' :: rest =>
      (readStringBody fuel rest).map fun (s, more) =>
        (match s with
          | some chars => .string (String.ofList chars)
          | none => .unpaired, more)
    | '[' :: rest =>
      match skipSpace rest with
      | ']' :: more => some (.array [], more)
      | more => (readItems fuel more).map fun (items, more) => (.array items, more)
    | '\x7b' :: rest =>
      match skipSpace rest with
      | '\x7d' :: more => some (.object [], more)
      | more =>
        (readFields fuel more).map fun (fields, more) =>
          (match fields with
            | some fields => .object fields
            | none => .unpaired, more)
    | _ => (readNumeral cs).map fun (n, more) => (.number n, more)

/-- The items of an array up to its closing bracket. -/
def readItems : Nat → List Char → Option (List Json × List Char)
  | 0, _ => none
  | fuel + 1, cs =>
    match readValue fuel cs with
    | none => none
    | some (item, rest) =>
      match skipSpace rest with
      | ']' :: more => some ([item], more)
      | ',' :: more =>
        (readItems fuel (skipSpace more)).map fun (items, more) => (item :: items, more)
      | _ => none

/-- The fields of an object up to its closing brace, or none for them if a name is no text. -/
def readFields : Nat → List Char → Option (Option (List (String × Json)) × List Char)
  | 0, _ => none
  | fuel + 1, cs =>
    match cs with
    | '"' :: rest =>
      match readStringBody fuel rest with
      | some (name, rest) =>
        match skipSpace rest with
        | ':' :: rest =>
          match readValue fuel (skipSpace rest) with
          | none => none
          | some (value, rest) =>
            let field? := name.map fun cs => (String.ofList cs, value)
            match skipSpace rest with
            | '\x7d' :: more => some (field?.map ([·]), more)
            | ',' :: more =>
              (readFields fuel (skipSpace more)).map fun (fields, more) =>
                (do
                  let field ← field?
                  let fields ← fields
                  some (field :: fields), more)
            | _ => none
        | _ => none
      | none => none
    | _ => none

end

/-- The value that a text stands for. Each character is looked at in at most two calls that are
nested, so twice the length bounds their depth. -/
def parse? (text : String) : Option Json :=
  let cs := text.toList
  match readValue (2 * cs.length + 2) (skipSpace cs) with
  | some (json, rest) => if (skipSpace rest).isEmpty then some json else none
  | none => none

mutual

/-- Whether the value is well-formed throughout: its strings are text, its numbers are not too
large, and arrays and objects are nested at most so deep. -/
def fits (room : Nat) : Json → Bool
  | .unpaired => false
  | .number n => n.value?.isSome
  | .array items => 0 < room && itemsFit (room - 1) items
  | .object fields => 0 < room && fieldsFit (room - 1) fields
  | _ => true

def itemsFit (room : Nat) : List Json → Bool
  | [] => true
  | item :: rest => item.fits room && itemsFit room rest

def fieldsFit (room : Nat) : List (String × Json) → Bool
  | [] => true
  | (_, value) :: rest => value.fits room && fieldsFit room rest

end

def text? : Json → Option String
  | string s => some s
  | _ => none

def items? : Json → Option (List Json)
  | array items => some items
  | _ => none

/-- What the field of a name holds: none of them, or the only one; two of them are refused. -/
def field? (name : String) (fields : List (String × Json)) : Option (Option Json) :=
  match fields.filter fun f => f.1 == name with
  | [] => some none
  | [(_, value)] => some (some value)
  | _ => none

/-- What the field of a name holds, which must be there. -/
def required? (name : String) (fields : List (String × Json)) : Option Json :=
  (field? name fields).join

end PipelineRunner.Json
