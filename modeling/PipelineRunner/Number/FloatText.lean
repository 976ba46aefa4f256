import PipelineRunner.Text.Basic

/-!
The shortest decimal of a binary64 number: of all decimals that round to the number, those with
the fewest digits, and of these the nearest. A finite positive number is `m · 2^q`; the reals that
round to it form an interval whose ends belong to it exactly if `m` is even. For each number of
digits only the two neighbours of the number on that decimal grid can be in the interval first. The
text of the number is this decimal, written positionally with a point in it where the number is
neither very large nor very small, and with an exponent otherwise.

Numbers with a fraction in a layout that is asked for: with so many places behind the point, with an
exponent, or with so many digits in all. A half goes to the even neighbour.
-/

namespace PipelineRunner.Number

/-- A positive number as `mantissa · 2^exponent`. -/
structure Binary where
  mantissa : Nat
  exponent : Int
  /-- Whether the gap below the number is half as wide as the gap above it. -/
  narrowBelow : Bool
  deriving DecidableEq, Repr

/-- A decimal `digits · 10^exponent`. -/
structure Decimal where
  digits : Nat
  exponent : Int
  deriving DecidableEq, Repr

/-- The same decimal without a zero at the end of its digits. -/
def Decimal.trimmed (d : Decimal) : Decimal :=
  if d.digits % 10 = 0 then ⟨d.digits / 10, d.exponent + 1⟩ else d

/-- The magnitude that the low 63 bits of a finite binary64 number stand for. -/
def Binary.ofBits (bits : UInt64) : Binary :=
  let magnitude : Nat := bits.toNat % Nat.pow 2 63
  let field : Nat := magnitude / Nat.pow 2 52
  let fraction : Nat := magnitude % Nat.pow 2 52
  if field = 0 then ⟨fraction, -1074, false⟩
  else ⟨Nat.pow 2 52 + fraction, (field : Int) - 1075, fraction == 0 && 1 < field⟩

/-- A ratio of naturals. -/
structure Ratio where
  num : Nat
  den : Nat

def Ratio.scaled (a : Nat) (e : Int) : Ratio :=
  if 0 ≤ e then ⟨a * Nat.pow 2 e.toNat, 1⟩ else ⟨a, Nat.pow 2 (-e).toNat⟩

def Ratio.decimal (a : Nat) (e : Int) : Ratio :=
  if 0 ≤ e then ⟨a * Nat.pow 10 e.toNat, 1⟩ else ⟨a, Nat.pow 10 (-e).toNat⟩

def Ratio.lt (a b : Ratio) : Bool :=
  a.num * b.den < b.num * a.den

def Ratio.le (a b : Ratio) : Bool :=
  a.num * b.den ≤ b.num * a.den

/-- Four times the lower end, the number itself and the upper end of the interval of reals that
round to it. -/
def Binary.interval (b : Binary) : Ratio × Ratio × Ratio :=
  let unit := b.exponent - 2
  let low := if b.narrowBelow then 4 * b.mantissa - 1 else 4 * b.mantissa - 2
  (.scaled low unit, .scaled (4 * b.mantissa) unit, .scaled (4 * b.mantissa + 2) unit)

/-- Whether the ratio rounds to the number. -/
def Binary.contains (b : Binary) (r : Ratio) : Bool :=
  let (low, _, high) := b.interval
  if b.mantissa % 2 = 0 then low.le r && r.le high else low.lt r && r.lt high

/-- The exponent `e` with `10^e ≤ r < 10^(e + 1)`, searched from `e` within so many steps. -/
def Ratio.magnitude (r : Ratio) : Nat → Int → Int
  | 0, e => e
  | fuel + 1, e =>
    if r.lt (.decimal 1 e) then r.magnitude fuel (e - 1)
    else if Ratio.le (.decimal 1 (e + 1)) r then r.magnitude fuel (e + 1)
    else e

/-- The decimal of the grid of `10^e` that is nearest to the number among those that round to it;
of two at the same distance the even one. -/
def Binary.onGrid (b : Binary) (e : Int) : Option Decimal :=
  let (_, value, _) := b.interval
  let unit := Ratio.decimal 1 e
  let below := value.num * unit.den / (value.den * unit.num)
  let above := below + 1
  let hitBelow := b.contains (.decimal below e)
  let hitAbove := b.contains (.decimal above e)
  if hitBelow && hitAbove then
    let twice := Ratio.mk (2 * value.num) value.den
    let middle := Ratio.decimal (below + above) e
    if twice.lt middle then some ⟨below, e⟩
    else if middle.lt twice then some ⟨above, e⟩
    else if below % 2 = 0 then some ⟨below, e⟩ else some ⟨above, e⟩
  else if hitBelow then some ⟨below, e⟩
  else if hitAbove then some ⟨above, e⟩
  else none

/-- Tries the grids of `10^e`, `10^(e - 1)`, and so on. -/
def Binary.firstGrid (b : Binary) : Nat → Int → Decimal
  | 0, e => ⟨0, e⟩
  | fuel + 1, e => (b.onGrid e).getD (b.firstGrid fuel (e - 1))

/-- The shortest decimal of a positive number; seventeen digits are always enough. Only the first
grid can yield a zero at the end, where a power of ten lies just above the number. -/
def Binary.shortest (b : Binary) : Decimal :=
  let (_, value, _) := b.interval
  (b.firstGrid 18 (value.magnitude 700 0)).trimmed

/-- The decisions of a text format for floating-point numbers. -/
structure FloatFormat where
  /-- The point may stand at most this far right of the first digit. -/
  lastPoint : Int
  /-- The point stands right of this place. -/
  beforeFirstPoint : Int
  /-- What stands before an exponent that is not negative. -/
  plus : String
  infinite : String
  notANumber : String

/-- Up to sixteen digits stand before the point, and up to four zeros behind it. -/
def FloatFormat.json : FloatFormat :=
  ⟨16, -5, "+", "null", "null"⟩

/-- Up to sixteen digits stand before the point, and up to three zeros behind it. -/
def FloatFormat.debug : FloatFormat :=
  ⟨16, -4, "", "inf", "NaN"⟩

def Decimal.text (format : FloatFormat) (d : Decimal) : String :=
  let digits := (toString d.digits).toList
  let point := (digits.length : Int) + d.exponent
  let zeros (n : Int) := List.replicate n.toNat '0'
  let chars :=
    if format.beforeFirstPoint < point && point ≤ format.lastPoint then
      if 0 ≤ d.exponent then digits ++ zeros d.exponent ++ ['.', '0']
      else if 0 < point then digits.take point.toNat ++ ['.'] ++ digits.drop point.toNat
      else ['0', '.'] ++ zeros (-point) ++ digits
    else
      let tail := match digits.drop 1 with
        | [] => []
        | more => '.' :: more
      let sign := if 1 ≤ point then format.plus else ""
      digits.take 1 ++ tail ++ ['e'] ++ sign.toList ++ (toString (point - 1)).toList
  String.ofList chars

def floatText (format : FloatFormat) (x : Float) : String :=
  let bits := x.toBits
  let sign := if Nat.pow 2 63 ≤ bits.toNat then "-" else ""
  let magnitude := bits.toNat % Nat.pow 2 63
  if magnitude = 0 then sign ++ "0.0"
  else if x.isNaN then format.notANumber
  else if x.isInf then sign ++ format.infinite
  else sign ++ (Binary.ofBits bits).shortest.text format


/-- The nearest whole number; a half goes to the even one. -/
def Ratio.rounded (r : Ratio) : Nat :=
  let below := r.num / r.den
  let twice := 2 * (r.num % r.den)
  if twice < r.den || (twice = r.den && below % 2 = 0) then below else below + 1

/-- The ratio times a power of ten. -/
def Ratio.shifted (r : Ratio) (places : Int) : Ratio :=
  if 0 ≤ places then ⟨r.num * Nat.pow 10 places.toNat, r.den⟩
  else ⟨r.num, r.den * Nat.pow 10 (-places).toNat⟩

/-- Digits with a point in front of the last `places` ones. -/
def pointed (places : Nat) (n : Nat) : String :=
  let digits := (Text.padded (places + 1) n).toList
  let whole := String.ofList (digits.take (digits.length - places))
  if places = 0 then whole else whole ++ "." ++ String.ofList (digits.drop (digits.length - places))

def Ratio.fixedText (places : Nat) (r : Ratio) : String :=
  pointed places (r.shifted places).rounded

/-- The digits of a number, `places` of them behind the first one, and its exponent. -/
def Ratio.significant (places : Nat) (r : Ratio) : Nat × Int :=
  if r.num = 0 then (0, 0)
  else
    let near := Int.fdiv (((r.num.log2 : Int) - r.den.log2) * 30103) 100000
    let e := r.magnitude 20 near
    let n := (r.shifted (places - e)).rounded
    if n = Nat.pow 10 (places + 1) then (n / 10, e + 1) else (n, e)

/-- An exponent with its sign and two digits at least. -/
def exponentText (e : Int) : String :=
  (if e < 0 then "e-" else "e+") ++ Text.padded 2 e.natAbs

/-- The number with one digit in front of the point and an exponent. -/
def Ratio.scientificText (places : Nat) (r : Ratio) : String :=
  let (n, e) := r.significant places
  pointed places n ++ exponentText e

/-- The text without the zeros at the end of a fraction. -/
def dropZeros (s : String) : String :=
  if s.toList.contains '.' then
    let cs := s.toList.reverse.dropWhile (· == '0')
    String.ofList (cs.dropWhile (· == '.')).reverse
  else s

/-- The number with so many digits in all; very small and very great ones have an exponent. -/
def Ratio.generalText (digits : Nat) (keepsZeros : Bool) (r : Ratio) : String :=
  let digits := if digits = 0 then 1 else digits
  let (n, e) := r.significant (digits - 1)
  let cut (s : String) : String := if keepsZeros then s else dropZeros s
  if e < -4 || (digits : Int) ≤ e then
    cut (pointed (digits - 1) n) ++ exponentText e
  else cut (r.fixedText ((digits : Int) - 1 - e).toNat)

/-! ### Nearest numbers

Numbers with so many binary digits. A ratio has a nearest one among them; a half goes to the even
neighbour. -/

/-- The number `mantissa · 2^exponent`. -/
structure Scaled where
  mantissa : Nat
  exponent : Int
  deriving DecidableEq, Repr

def Scaled.ratio (s : Scaled) : Ratio := .scaled s.mantissa s.exponent

/-- How many binary digits numbers have, and how far they reach. -/
structure Precision where
  digits : Nat
  /-- The exponent of the last digit of the smallest numbers. -/
  least : Int
  /-- The exponent of the power of two that all numbers stay below. -/
  bound : Int
  /-- In hexadecimal text so many of the binary digits stand in front of the point. -/
  leading : Nat
  deriving DecidableEq, Repr

namespace Precision

/-- The numbers of IEEE 754 with 64 bits. -/
def double : Precision := ⟨53, -1074, 1024, 1⟩

/-- Numbers with 64 bits for their digits alone. -/
def extended : Precision := ⟨64, -16445, 16384, 4⟩

/-- The number of whole units of `2^exponent` that is nearest to a ratio. -/
def units (r : Ratio) (exponent : Int) : Nat :=
  (if 0 ≤ exponent then ⟨r.num, r.den * Nat.pow 2 exponent.toNat⟩
    else ⟨r.num * Nat.pow 2 (-exponent).toNat, r.den⟩ : Ratio).rounded

/-- The nearest number; there is none if the ratio is too great. -/
def nearest? (p : Precision) (r : Ratio) : Option Scaled :=
  if r.num = 0 then some ⟨0, 0⟩
  else
    let size : Int := (r.num.log2 : Int) - r.den.log2
    let low := max (size - p.digits) p.least
    let exponent := if Nat.pow 2 p.digits ≤ units r low then low + 1 else low
    let s : Scaled := ⟨units r exponent, exponent⟩
    if p.bound < (s.mantissa.log2 : Int) + 1 + exponent then none else some s

/-- Whether a ratio is so small that its nearest number has lost digits. -/
def isTooSmall (p : Precision) (r : Ratio) : Bool :=
  match p.nearest? r with
  | some s =>
    s.exponent = p.least && s.mantissa < Nat.pow 2 (p.digits - 1) &&
      s.ratio.num * r.den != r.num * s.ratio.den
  | none => false

end Precision

namespace Scaled

/-- The number in hexadecimal digits, so many of them behind the point, or as many as it needs. -/
def hexText (p : Precision) (places : Option Nat) (keepsPoint : Bool) (s : Scaled) : String :=
  let all := (p.digits - p.leading) / 4
  let shift := Nat.min (p.digits - (s.mantissa.log2 + 1)) (s.exponent - p.least).toNat
  let s : Scaled := if s.mantissa = 0 then ⟨0, -(4 * all : Nat)⟩
    else ⟨s.mantissa * Nat.pow 2 shift, s.exponent - shift⟩
  let kept := Nat.min (places.getD all) all
  let n := (⟨s.mantissa, Nat.pow 16 (all - kept)⟩ : Ratio).rounded
  let whole := String.ofList (Nat.toDigits 16 (n / Nat.pow 16 kept))
  let fraction := (Nat.toDigits 16 (Nat.pow 16 kept + n % Nat.pow 16 kept)).drop 1
  let fraction := match places with
    | some count => fraction ++ List.replicate (count - kept) '0'
    | none => (fraction.reverse.dropWhile (· == '0')).reverse
  let point := if fraction.isEmpty && !keepsPoint then "" else "."
  let e := s.exponent + (4 * all : Nat)
  "0x" ++ whole ++ point ++ String.ofList fraction ++ (if e < 0 then "p-" else "p+") ++
    toString e.natAbs

def toFloat (s : Scaled) : Float := (Float.ofNat s.mantissa).scaleB s.exponent

end Scaled

/-- A number as a text states it. -/
inductive Stated where
  | finite (r : Ratio)
  | infinite
  | notANumber

/-- A number at the head of a text, and what stands behind it. -/
structure Scan where
  isNegative : Bool
  value : Stated
  rest : List Char

/-- A number of some precision, or what is none of them. -/
inductive Rounded where
  | finite (s : Scaled)
  | infinite
  | notANumber

/-- The nearest number to what a text states, and whether it is out of reach. -/
def Precision.rounded (p : Precision) : Stated → Rounded × Bool
  | .finite r =>
    match p.nearest? r with
    | some s => (.finite s, p.isTooSmall r)
    | none => (.infinite, true)
  | .infinite => (.infinite, false)
  | .notANumber => (.notANumber, false)

namespace Scan

/-- The digits at the head of a text and what stands behind them. -/
def spanDigits (cs : List Char) : List Char × List Char :=
  (cs.takeWhile Char.isDigit, cs.dropWhile Char.isDigit)

def hexDigit? (c : Char) : Option Nat :=
  let c := c.toLower
  if 'a' ≤ c && c ≤ 'f' then some (c.toNat - 'a'.toNat + 10) else Text.digit? c

/-- The hexadecimal digits at the head of a text and what stands behind them. -/
def spanHexDigits (cs : List Char) : List Char × List Char :=
  let isDigit (c : Char) : Bool := (hexDigit? c).isSome
  (cs.takeWhile isDigit, cs.dropWhile isDigit)

/-- The exponent behind a letter at the head of a text. -/
def exponentOf (letter : Char) (cs : List Char) : Int × List Char :=
  match cs with
  | c :: rest =>
    if c.toLower = letter then
      let (negative, rest) : Bool × List Char := match rest with
        | '-' :: rest => (true, rest)
        | '+' :: rest => (false, rest)
        | rest => (false, rest)
      let (digits, rest) := spanDigits rest
      match Text.digits? digits with
      | some n => (if negative then -(n : Int) else n, rest)
      | none => (0, cs)
    else (0, cs)
  | [] => (0, [])

/-- Digits around a point. -/
def pointed (span : List Char → List Char × List Char) (cs : List Char) :
    List Char × List Char × List Char :=
  let (whole, rest) := span cs
  match rest with
  | '.' :: more =>
    let (fraction, behind) := span more
    if whole.isEmpty && fraction.isEmpty then ([], [], cs) else (whole, fraction, behind)
  | _ => (whole, [], rest)

/-- No number has an exponent beyond this one, unless it has very many digits. -/
def farthest : Int := 20000

/-- The number without a sign at the head of a text. -/
def magnitude? (cs : List Char) : Option (Stated × List Char) :=
  let lower := String.ofList ((cs.take 8).map Char.toLower)
  if lower.startsWith "infinity" then some (.infinite, cs.drop 8)
  else if lower.startsWith "inf" then some (.infinite, cs.drop 3)
  else if lower.startsWith "nan" then some (.notANumber, cs.drop 3)
  else
    let hex := pointed spanHexDigits (cs.drop 2)
    if lower.startsWith "0x" && !(hex.1.isEmpty && hex.2.1.isEmpty) then
      let (whole, fraction, rest) := hex
      let n := (whole ++ fraction).foldl (fun n c => n * 16 + (hexDigit? c).getD 0) 0
      let (e, rest) := exponentOf 'p' rest
      let e := max (-farthest) (min farthest e) - 4 * fraction.length
      some (.finite (.scaled n e), rest)
    else
      let (whole, fraction, rest) := pointed spanDigits cs
      match Text.digits? (whole ++ fraction) with
      | some n =>
        let (e, rest) := exponentOf 'e' rest
        let e := max (-farthest) (min farthest e) - fraction.length
        some (.finite (.decimal n e), rest)
      | none => none

/-- The number at the head of a text, if there is one. -/
def of? (cs : List Char) : Option Scan :=
  match cs.dropWhile fun c => c == ' ' || ('\t' ≤ c && c ≤ '\r') with
  | '-' :: cs => (magnitude? cs).map fun (v, rest) => ⟨true, v, rest⟩
  | '+' :: cs => (magnitude? cs).map fun (v, rest) => ⟨false, v, rest⟩
  | cs => (magnitude? cs).map fun (v, rest) => ⟨false, v, rest⟩

def toFloat (s : Scan) : Float :=
  let x : Float := match s.value with
    | .finite r => ((Precision.double.nearest? r).map Scaled.toFloat).getD (1.0 / 0.0)
    | .infinite => 1.0 / 0.0
    | .notANumber => 0.0 / 0.0
  if s.isNegative then -x else x

end Scan
end PipelineRunner.Number
