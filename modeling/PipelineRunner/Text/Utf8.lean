/-!
UTF-8 read byte by byte. A fault tells where the first ill-formed sequence starts and how long
its longest well-formed beginning is; a sequence that the input cuts off has no such length.
-/

namespace PipelineRunner.Text

namespace Utf8

/-- The first place where bytes are no UTF-8. -/
structure Fault where
  /-- The number of bytes before the ill-formed sequence. -/
  index : Nat
  /-- The number of bytes to skip, or none where the input ends inside a sequence. -/
  length : Option Nat
  deriving DecidableEq, Repr

def Fault.message (fault : Fault) : String :=
  match fault.length with
  | some n => s!"invalid utf-8 sequence of {n} bytes from index {fault.index}"
  | none => s!"incomplete utf-8 byte sequence from index {fault.index}"

/-- What stands at the head of a sequence of bytes. -/
inductive Head where
  | char (c : Char) (rest : List UInt8)
  /-- Bytes that start no character, and how many of them belong together. -/
  | ill (length : Nat)
  /-- A character whose last bytes are missing. -/
  | cut
  deriving Repr

def isContinuation (b : UInt8) : Bool :=
  0x80 ≤ b && b ≤ 0xBF

def payload (b : UInt8) : Nat :=
  b.toNat % 64

/-- The range that the second byte must lie in, by the first byte of three. -/
def secondOfThree (b : UInt8) : Option (UInt8 × UInt8) :=
  if b == 0xE0 then some (0xA0, 0xBF)
  else if 0xE1 ≤ b && b ≤ 0xEC then some (0x80, 0xBF)
  else if b == 0xED then some (0x80, 0x9F)
  else if b == 0xEE || b == 0xEF then some (0x80, 0xBF)
  else none

/-- The range that the second byte must lie in, by the first byte of four. -/
def secondOfFour (b : UInt8) : Option (UInt8 × UInt8) :=
  if b == 0xF0 then some (0x90, 0xBF)
  else if 0xF1 ≤ b && b ≤ 0xF3 then some (0x80, 0xBF)
  else if b == 0xF4 then some (0x80, 0x8F)
  else none

/-- The remaining continuation bytes of a character of which `seen` bytes have been read and whose
payload so far is `value`. -/
def continuation (value : Nat) (seen : Nat) : Nat → List UInt8 → Head
  | 0, bs => .char (Char.ofNat value) bs
  | _ + 1, [] => .cut
  | n + 1, b :: bs =>
    if isContinuation b then continuation (value * 64 + payload b) (seen + 1) n bs else .ill seen

/-- The second byte must lie in the given range; `more` plain continuation bytes follow it. -/
def second (value : Nat) (range : UInt8 × UInt8) (more : Nat) : List UInt8 → Head
  | [] => .cut
  | b :: bs =>
    if range.1 ≤ b && b ≤ range.2 then continuation (value * 64 + payload b) 2 more bs else .ill 1

/-- Reads the character that starts with byte `b`. -/
def head (b : UInt8) (bs : List UInt8) : Head :=
  if b < 0x80 then .char (Char.ofNat b.toNat) bs
  else if 0xC2 ≤ b && b ≤ 0xDF then continuation (b.toNat % 32) 1 1 bs
  else
    match secondOfThree b, secondOfFour b with
    | some range, _ => second (b.toNat % 16) range 1 bs
    | none, some range => second (b.toNat % 8) range 2 bs
    | none, none => .ill 1

/-- Reads at most `fuel` characters; `index` bytes stand before the given ones. -/
def decodeFrom (index : Nat) : Nat → List UInt8 → Except Fault (List Char)
  | _, [] => .ok []
  | 0, _ => .ok []
  | fuel + 1, b :: bs =>
    match head b bs with
    | .char c rest => (decodeFrom (index + c.utf8Size) fuel rest).map (c :: ·)
    | .ill n => .error ⟨index, some n⟩
    | .cut => .error ⟨index, none⟩

/-- The characters of a sequence of bytes: no character takes less than a byte. -/
def decode (bs : List UInt8) : Except Fault (List Char) :=
  decodeFrom 0 bs.length bs

/-- Reads at most `fuel` characters, with a replacement character for each fault. -/
def decodeLossyWithin : Nat → List UInt8 → List Char
  | _, [] => []
  | 0, _ => []
  | fuel + 1, b :: bs =>
    match head b bs with
    | .char c rest => c :: decodeLossyWithin fuel rest
    | .ill n => '\uFFFD' :: decodeLossyWithin fuel ((b :: bs).drop n)
    | .cut => ['\uFFFD']

/-- The characters of a sequence of bytes, with a replacement character for each fault. -/
def decodeLossy (bs : List UInt8) : List Char :=
  decodeLossyWithin bs.length bs

def encode (s : String) : List UInt8 :=
  s.toUTF8.toList

end Utf8

/-! ### Terminal escape sequences

Text that is not shown on a terminal is written without them, and without control characters other
than blanks. -/

/-- Where in a text a character stands. -/
inductive EscapeState where
  | ground
  /-- Behind the escape character. -/
  | escape
  | intermediate
  /-- In a control sequence. -/
  | control
  /-- At the head of a device control string: before, among and behind its parameters. -/
  | deviceEntry
  | deviceParameter
  | deviceIntermediate
  /-- In a string that only its terminator ends. -/
  | string
  /-- In an operating system command. -/
  | command
  deriving DecidableEq, Repr

namespace EscapeState

def within (low high c : Char) : Bool := low ≤ c && c ≤ high

/-- The state behind a character of a sequence that is neither cancelled nor begun anew there. A
string ends at the byte 156, which may be part of a longer character. -/
def inside (c : Char) : EscapeState → EscapeState
  | ground => ground
  | escape =>
    if within ' ' '/' c then intermediate
    else if c = '[' then control
    else if c = ']' then command
    else if c = 'P' then deviceEntry
    else if c = 'X' || c = '^' || c = '_' then string
    else if within '0' '~' c then ground
    else escape
  | intermediate => if within '0' '~' c then ground else intermediate
  | control => if within '@' '~' c then ground else control
  | deviceEntry =>
    if within ' ' '/' c then deviceIntermediate
    else if c = ':' || within '@' '~' c then string
    else if within '0' '?' c then deviceParameter
    else deviceEntry
  | deviceParameter =>
    if within ' ' '/' c then deviceIntermediate
    else if c = ':' || within '<' '~' c then string
    else deviceParameter
  | deviceIntermediate => if within '0' '~' c then string else deviceIntermediate
  | string => if (Utf8.encode (String.singleton c)).contains 156 then ground else string
  | command => if c = '\x07' then ground else command

/-- The state behind a character. -/
def next (s : EscapeState) (c : Char) : EscapeState :=
  if c = '\x1b' then escape else if c = '\x18' || c = '\x1a' then ground else s.inside c

/-- The blanks among the control characters of ASCII. -/
def isBlankControl (c : Char) : Bool := c = '\t' || c = '\n' || c = '\x0c' || c = '\x0d'

/-- Whether control characters are obeyed in the midst of such a sequence. -/
def obeys : EscapeState → Bool
  | ground | escape | intermediate | control => true
  | _ => false

/-- Whether a character is text. -/
def shows (s : EscapeState) (c : Char) : Bool :=
  (s == ground && (' ' ≤ c && c != '\x7f')) || (s.obeys && isBlankControl c)

end EscapeState

/-- The characters without escape sequences. A blank within a sequence breaks it off. -/
def plainChars (s : EscapeState) : List Char → List Char
  | [] => []
  | c :: rest => if s.shows c then c :: plainChars .ground rest else plainChars (s.next c) rest

def plain (text : String) : String := String.ofList (plainChars .ground text.toList)

end PipelineRunner.Text
