import PipelineRunner.Text.Utf8

/-!
Byte texts. Files, pipes, and the names and arguments of programs hold bytes and not characters. A
byte text is a text in which every character stands for the byte of its number, so that ASCII is
written as it is; all text on a host is of this kind.
-/

namespace PipelineRunner.Text

namespace Bytes

def ofBytes (bs : List UInt8) : String := String.ofList (bs.map fun b => Char.ofNat b.toNat)

def toBytes (s : String) : List UInt8 := s.toList.map fun c => UInt8.ofNat c.toNat

def ofText (s : String) : String :=
  if s.toList.all fun c => c.toNat < 128 then s else ofBytes (Utf8.encode s)

/-- The characters of a byte text, if it is UTF-8. -/
def text? (s : String) : Option String :=
  if s.toList.all fun c => c.toNat < 128 then some s
  else (Utf8.decode (toBytes s)).toOption.map String.ofList

/-- The characters of a byte text, with a replacement character for each fault. -/
def lossyText (s : String) : String :=
  if s.toList.all fun c => c.toNat < 128 then s
  else String.ofList (Utf8.decodeLossy (toBytes s))

def fill (c : Char) (n : Nat) : String := String.ofList (List.replicate n c)

def take (n : Nat) (s : String) : String := String.ofList (s.toList.take n)

def drop (n : Nat) (s : String) : String := String.ofList (s.toList.drop n)

end Bytes

/-! ### Languages

How programs take bytes for characters. The environment says what the language of their user is,
and with it how bytes make up characters; there is one language that is written in UTF-8. -/

/-- How the bytes of a text make up characters. -/
inductive Charset where
  /-- Each byte is a character. -/
  | bytes
  | utf8
  deriving DecidableEq, Repr, Inhabited

namespace Charset

/-- How the text of a language is written. Unknown languages count as the one of bytes. -/
def ofLanguage (name : String) : Charset :=
  if ["C.UTF-8", "C.utf8", "C.UTF8", "C.utf-8"].contains name then utf8 else bytes

/-- How text is written in an environment. The first variable that is not empty counts. -/
def ofEnvironment (environment : List (String × String)) : Charset :=
  let given := ["LC_ALL", "LC_CTYPE", "LANG"].filterMap (List.lookup · environment)
  match given.find? fun name => !name.isEmpty with
  | some name => ofLanguage name
  | none => bytes

/-- The characters of a byte text, if it is well-formed. -/
def text? (k : Charset) (s : String) : Option String :=
  match k with
  | bytes => some s
  | utf8 => Bytes.text? s

/-- A character that stands for a byte which is no character by itself. -/
def loose (c : Char) : Char := if c.toNat < 128 then c else Char.ofNat (0xf0000 + c.toNat)

/-- The byte that a character stands for. -/
def ofLoose (c : Char) : Char := if 0xf0000 ≤ c.toNat then Char.ofNat (c.toNat - 0xf0000) else c

/-- The bytes of the character of a code, or the escape for it if there is no such character. -/
def codeText (k : Charset) (code : Nat) : String :=
  if code < 128 then String.singleton (Char.ofNat code)
  else if k = .utf8 && code < 0x110000 then Bytes.ofText (String.singleton (Char.ofNat code))
  else
    let digits := (String.ofList (Nat.toDigits 16 code)).toUpper
    if code < 0x10000 then "\\u" ++ Bytes.fill '0' (4 - digits.length) ++ digits
    else "\\U" ++ Bytes.fill '0' (8 - digits.length) ++ digits

end Charset

/-! ### Characters

The characters of a byte text are those of its UTF-8, or its bytes if it is none or if the user's
language has no other characters. -/

/-- The characters of a byte text. -/
structure Characters where
  chars : Array Char
  /-- Whether they are those of its UTF-8. -/
  isDecoded : Bool

namespace Characters

def of (k : Charset) (bytes : String) : Characters :=
  match k, Bytes.text? bytes with
  | .utf8, some text => ⟨text.toList.toArray, true⟩
  | _, _ => ⟨(bytes.toList.map Charset.loose).toArray, false⟩

def encoded (c : Characters) (cs : List Char) : String :=
  if c.isDecoded then Bytes.ofText (String.ofList cs) else String.ofList (cs.map Charset.ofLoose)

def slice (c : Characters) (i j : Nat) : String :=
  c.encoded (c.chars.extract i j).toList

def from_ (c : Characters) (i : Nat) : String := c.slice i c.chars.size

end Characters

def Charset.count (k : Charset) (bytes : String) : Nat := (Characters.of k bytes).chars.size

/-! ### What can be shown, and the escapes for what cannot -/

def isShown (c : Char) : Bool := 32 ≤ c.toNat && c.toNat != 127 && !(128 ≤ c.toNat && c.toNat < 160)

def isShownText (s : String) : Bool :=
  match Bytes.text? s with
  | some t => t.toList.all isShown
  | none => false

def threeOctal (n : Nat) : List Char :=
  [n / 64 % 8, n / 8 % 8, n % 8].map Nat.digitChar

/-- The escape for a byte. -/
def escapeOf (c : Char) : List Char :=
  match c with
  | '\x07' => ['\\', 'a']
  | '\x08' => ['\\', 'b']
  | '\t' => ['\\', 't']
  | '\n' => ['\\', 'n']
  | '\x0b' => ['\\', 'v']
  | '\x0c' => ['\\', 'f']
  | '\x0d' => ['\\', 'r']
  | c => '\\' :: threeOctal c.toNat

/-- The parts of a byte text, each with whether it can be shown: characters in UTF-8, and bytes. -/
def shownParts : Nat → List Char → List (Bool × List Char)
  | 0, _ => []
  | _, [] => []
  | fuel + 1, c :: cs =>
    let size := if c.toNat < 128 then 1 else if c.toNat < 0xe0 then 2
      else if c.toNat < 0xf0 then 3 else 4
    let here := (c :: cs).take size
    match Bytes.text? (String.ofList here) with
    | some t =>
      if t.toList.all isShown then (true, here) :: shownParts fuel ((c :: cs).drop size)
      else here.map (fun c => (false, [c])) ++ shownParts fuel ((c :: cs).drop size)
    | none => (false, [c]) :: shownParts fuel cs

end PipelineRunner.Text
