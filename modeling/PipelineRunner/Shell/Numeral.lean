import PipelineRunner.Text.Basic

/-!
Whole numbers as scripts write them. They fit into 64 bits; where every base is allowed, a zero in
front announces octal digits, and a zero with an x hexadecimal ones.
-/

namespace PipelineRunner.Shell

/-- A whole number at the head of a text. -/
structure Numeral where
  negative : Bool
  magnitude : Nat
  /-- What stands behind it. -/
  rest : List Char
  deriving DecidableEq, Repr

namespace Numeral

/-- The value of a digit, of which there are sixteen. -/
def digit? (c : Char) : Option Nat :=
  if 'a' ≤ c && c ≤ 'f' then some (c.toNat - 'a'.toNat + 10)
  else if 'A' ≤ c && c ≤ 'F' then some (c.toNat - 'A'.toNat + 10)
  else Text.digit? c

/-- The value of the digits to a base at the head of a text after the value `n`, and what stands
behind them. -/
def digits (base n : Nat) : List Char → Nat × List Char
  | [] => (n, [])
  | c :: cs =>
    match (digit? c).filter (· < base) with
    | some d => digits base (n * base + d) cs
    | none => (n, c :: cs)

/-- Whether a character may stand in front of a number and behind it. -/
def isBlank (c : Char) : Bool := c == ' ' || ('\t' ≤ c && c ≤ '\r')

def announced : List Char → Nat × List Char
  | '0' :: x :: c :: cs =>
    if (x = 'x' || x = 'X') && (digit? c).isSome then (16, c :: cs) else (8, '0' :: x :: c :: cs)
  | '0' :: cs => (8, '0' :: cs)
  | cs => (10, cs)

def greatest : Nat := Nat.pow 2 63 - 1

def exceeds (n : Numeral) : Bool :=
  if n.negative then greatest + 1 < n.magnitude else greatest < n.magnitude

/-- The number, or the nearest that fits. -/
def value (n : Numeral) : Int :=
  if n.negative then -(Nat.min n.magnitude (greatest + 1) : Nat) else Nat.min n.magnitude greatest

/-- The number at the head of a text, if there is one. -/
def read? (everyBase : Bool) (cs : List Char) : Option Numeral :=
  let cs := cs.dropWhile isBlank
  let (negative, cs) : Bool × List Char := match cs with
    | '-' :: cs => (true, cs)
    | '+' :: cs => (false, cs)
    | cs => (false, cs)
  let (base, cs) := if everyBase then announced cs else (10, cs)
  if cs.head?.any fun c => ((digit? c).filter (· < base)).isSome then
    let (n, rest) := digits base 0 cs
    some ⟨negative, n, rest⟩
  else none

/-- The number that a whole text is, if it fits. -/
def whole? (everyBase : Bool) (s : String) : Option Int :=
  (read? everyBase s.toList).bind fun n =>
    if n.exceeds || !n.rest.all isBlank then none else some n.value

/-- The number that a whole text is to the base ten. -/
def int? (s : String) : Option Int := whole? false s

/-- The number that the value of a variable is; a blank one is zero. -/
def valueOf? (s : String) : Option Int :=
  if s.toList.all isBlank then some 0 else whole? true s

/-- The number of times, or the status, that a text is. -/
def count? (s : String) : Option Nat :=
  match int? s with
  | some (.ofNat n) => if n < Nat.pow 2 31 then some n else none
  | _ => none

end Numeral

/-- The complaint about a text that should be a number. -/
def illegalNumber (text : String) : String := s!"Illegal number: {text}"

end PipelineRunner.Shell
