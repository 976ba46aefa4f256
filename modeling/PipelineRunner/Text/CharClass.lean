/-!
Kinds of characters, by the names that patterns and sets of characters use for them. Letters beyond
ASCII come in the alphabets that tell small letters from capitals and in the scripts that do not. The
pairs of small letters and capitals are those that have one character each.
-/

namespace PipelineRunner

namespace Text.Letters

/-- Capitals from a first to a last code, each `step` codes behind the one before it, with the
distance of their small letters. -/
structure CasePairs where
  first : Nat
  last : Nat
  step : Nat
  distance : Nat
  deriving DecidableEq, Repr

namespace CasePairs

def hasCapital (p : CasePairs) (n : Nat) : Bool :=
  p.first ≤ n && n ≤ p.last && (n - p.first) % p.step == 0

/-- Whether a code is one of the small letters. -/
def hasSmall (p : CasePairs) (n : Nat) : Bool := p.distance ≤ n && p.hasCapital (n - p.distance)

end CasePairs

def pairs : List CasePairs :=
  [⟨0x41, 0x5a, 1, 32⟩, ⟨0xc0, 0xd6, 1, 32⟩, ⟨0xd8, 0xde, 1, 32⟩, ⟨0x100, 0x12e, 2, 1⟩,
    ⟨0x132, 0x136, 2, 1⟩, ⟨0x139, 0x147, 2, 1⟩, ⟨0x14a, 0x176, 2, 1⟩, ⟨0x179, 0x17d, 2, 1⟩,
    ⟨0x386, 0x386, 1, 38⟩, ⟨0x388, 0x38a, 1, 37⟩, ⟨0x38c, 0x38c, 1, 64⟩, ⟨0x38e, 0x38f, 1, 63⟩,
    ⟨0x391, 0x3a1, 1, 32⟩, ⟨0x3a3, 0x3ab, 1, 32⟩, ⟨0x400, 0x40f, 1, 80⟩, ⟨0x410, 0x42f, 1, 32⟩,
    ⟨0x460, 0x480, 2, 1⟩, ⟨0x48a, 0x4be, 2, 1⟩, ⟨0x4d0, 0x52e, 2, 1⟩, ⟨0x531, 0x556, 1, 48⟩,
    ⟨0x1e00, 0x1e94, 2, 1⟩, ⟨0x1ea0, 0x1efe, 2, 1⟩, ⟨0xff21, 0xff3a, 1, 32⟩]

/-- The small letter of a capital; other characters stay as they are. -/
def lower (c : Char) : Char :=
  let n := c.toNat
  if n = 0x178 then Char.ofNat 0xff
  else
    match pairs.find? (·.hasCapital n) with
    | some p => Char.ofNat (n + p.distance)
    | none => c

/-- The capital of a small letter; other characters stay as they are. -/
def upper (c : Char) : Char :=
  let n := c.toNat
  if n = 0xff then Char.ofNat 0x178
  else if n = 0xb5 then Char.ofNat 0x39c
  else if n = 0x3c2 then Char.ofNat 0x3a3
  else
    match pairs.find? (·.hasSmall n) with
    | some p => Char.ofNat (n - p.distance)
    | none => c

/-- Codes beyond ASCII of characters that are no letters, from a first to a last one. -/
def otherRanges : List (Nat × Nat) :=
  [(0x80, 0xa9), (0xab, 0xb4), (0xb6, 0xb9), (0xbb, 0xbf), (0xd7, 0xd7), (0xf7, 0xf7),
    (0x2c2, 0x2c5), (0x2d2, 0x2df), (0x300, 0x36f), (0x37e, 0x37e), (0x387, 0x387),
    (0x589, 0x5cf), (0x2000, 0x206f), (0x2074, 0x207e), (0x2080, 0x208e), (0x20a0, 0x20ff),
    (0x2190, 0x2bff), (0x2e00, 0x2fff), (0x3000, 0x3004), (0x3008, 0x3020), (0x3030, 0x3030),
    (0xd800, 0xf8ff), (0xfe00, 0xfe6f), (0xfeff, 0xff0f), (0xff1a, 0xff20), (0xff3b, 0xff40),
    (0xff5b, 0xff65), (0xffe0, 0xffff), (0x1f000, 0x1faff), (0xe0000, 0x10ffff)]

/-- Whether a character beyond ASCII is a letter. -/
def isForeign (c : Char) : Bool :=
  let n := c.toNat
  128 ≤ n && !otherRanges.any fun r => r.1 ≤ n && n ≤ r.2

end Text.Letters

/-- A name for characters of a kind. -/
inductive CharClass where
  | alnum
  | alpha
  | blank
  | cntrl
  | digit
  | graph
  | lower
  | print
  | punct
  | space
  | upper
  | xdigit
  deriving DecidableEq, Repr

namespace CharClass

def names : List (String × CharClass) :=
  [("alnum", alnum), ("alpha", alpha), ("blank", blank), ("cntrl", cntrl), ("digit", digit),
    ("graph", graph), ("lower", lower), ("print", print), ("punct", punct), ("space", space),
    ("upper", upper), ("xdigit", xdigit)]

def isVisible (c : Char) : Bool := 32 < c.toNat && c.toNat < 127

def contains (k : CharClass) (c : Char) : Bool :=
  match k with
  | alnum => c.isAlphanum
  | alpha => c.isAlpha
  | blank => c == ' ' || c == '\t'
  | cntrl => c.toNat < 32 || c.toNat == 127
  | digit => c.isDigit
  | graph => isVisible c
  | lower => c.isLower
  | print => c == ' ' || isVisible c
  | punct => isVisible c && !c.isAlphanum
  | space => c == ' ' || ('\t' ≤ c && c ≤ '\r')
  | upper => c.isUpper
  | xdigit => c.isDigit || ('a' ≤ c.toLower && c.toLower ≤ 'f')

/-- Whether a character of any alphabet is in a class. Those that stand for no character have
none. -/
def includes (k : CharClass) (c : Char) : Bool :=
  let n := c.toNat
  if n < 128 then k.contains c
  else
    match k with
    | alnum | alpha => Text.Letters.isForeign c
    | lower => Text.Letters.upper c != c
    | upper => Text.Letters.lower c != c
    | cntrl => n < 160 || n == 0x2028 || n == 0x2029
    | blank | space =>
      n == 0x1680 || (0x2000 ≤ n && n ≤ 0x200a && n != 0x2007) || n == 0x205f || n == 0x3000
    | graph | print => 160 ≤ n && n < 0xe0000
    | punct => 160 < n && n < 0xe0000 && !Text.Letters.isForeign c
    | digit | xdigit => false

end CharClass

end PipelineRunner
