import PipelineRunner.Number.FloatText
import PipelineRunner.Shell.Numeral
import PipelineRunner.Text.Bytes

/-!
The texts that the printing commands write: escapes that stand for bytes, and formats with
conversions for arguments.
-/

namespace PipelineRunner.Shell.Format

open Text

def isOctal (c : Char) : Bool := '0' ≤ c && c ≤ '7'

def octal (cs : List Char) : Nat :=
  cs.foldl (fun n c => n * 8 + (c.toNat - '0'.toNat)) 0

def byte (n : Nat) : Char := Char.ofNat (n % 256)

/-- The byte that a letter behind a backslash stands for. -/
def letter? (c : Char) : Option Char :=
  match c with
  | 'a' => some '\x07'
  | 'b' => some '\x08'
  | 'e' => some '\x1b'
  | 't' => some '\t'
  | 'n' => some '\n'
  | 'v' => some '\x0b'
  | 'f' => some '\x0c'
  | 'r' => some '\r'
  | '\\' => some '\\'
  | _ => none

/-- Who reads escapes: the commands of the shell, or the programs that go by the same names, which
know more of them. -/
inductive Dialect where
  | shell
  | program
  deriving DecidableEq, Repr

/-- What stands behind a backslash. -/
inductive Escape where
  | byte (c : Char) (rest : List Char)
  /-- Nothing more is written. -/
  | stop
  /-- The backslash stands for itself. -/
  | none

/-- The escape behind a backslash. With a `zero` in front, octal digits take up to three places
behind it. -/
def escape (dialect : Dialect) (zero : Bool) (cs : List Char) : Escape :=
  match cs with
  | [] => .none
  | 'c' :: rest => if zero || dialect = .program then .stop else .byte '\\' ('c' :: rest)
  | c :: rest =>
    match letter? c with
    | some b => .byte b rest
    | none =>
      if isOctal c then
        let digits := if zero && c = '0' then rest else cs
        let taken := (digits.take 3).takeWhile isOctal
        .byte (byte (octal taken)) (digits.drop taken.length)
      else if dialect = .program && c = 'x' then
        let taken := (rest.take 2).takeWhile fun c => (Number.Scan.hexDigit? c).isSome
        let n := taken.foldl (fun n c => n * 16 + (Number.Scan.hexDigit? c).getD 0) 0
        if taken.isEmpty then .none else .byte (byte n) (rest.drop taken.length)
      else if dialect = .program && c = '"' then .byte '"' rest
      else .none

/-- The bytes of a text with escapes, backwards, and whether it ends all that is written. -/
def unescape (dialect : Dialect) : Nat → List Char → List Char → List Char × Bool
  | 0, done, _ => (done, false)
  | _, done, [] => (done, false)
  | fuel + 1, done, c :: cs =>
    if c = '\\' then
      match escape dialect true cs with
      | .byte b rest => unescape dialect fuel (b :: done) rest
      | .stop => (done, true)
      | .none => unescape dialect fuel ('\\' :: done) cs
    else unescape dialect fuel (c :: done) cs

/-- The bytes of a text with escapes, and whether it says that nothing more is written. -/
def unescaped (dialect : Dialect) (s : String) : String × Bool :=
  let (done, stop) := unescape dialect s.length [] s.toList
  (String.ofList done.reverse, stop)

/-- How a conversion fits its argument in. -/
structure Layout where
  left : Bool := false
  zeros : Bool := false
  plus : Bool := false
  space : Bool := false
  /-- Whether the base of a number is shown, or all of its digits. -/
  alternate : Bool := false
  width : Nat := 0
  precision : Option Nat := none

/-- Fills up to the width with blanks. -/
def Layout.pad (l : Layout) (s : String) : String :=
  let blanks := Bytes.fill ' ' (l.width - s.length)
  if l.left then s ++ blanks else blanks ++ s

def digits (base n : Nat) : String := String.ofList (Nat.toDigits base n)

def Layout.sign (l : Layout) (negative : Bool) : String :=
  if negative then "-" else if l.plus then "+" else if l.space then " " else ""

/-- The text of a number with what stands in front of its digits. -/
def Layout.number (l : Layout) (start digits : String) : String :=
  let body := match l.precision with
    | some p => Bytes.fill '0' (p - digits.length) ++ digits
    | none =>
      if l.zeros && !l.left then
        Bytes.fill '0' (l.width - start.length - digits.length) ++ digits
      else digits
  l.pad (start ++ body)

/-- The text of a number with a point in any case. -/
def withPoint (s : String) : String :=
  let front := s.toList.takeWhile (· != 'e')
  if front.contains '.' then s
  else String.ofList (front ++ '.' :: s.toList.drop front.length)

/-- A number with a fraction as an argument states it. -/
structure Fractional where
  isNegative : Bool
  value : Number.Rounded

/-- The text of a number with a fraction, as a letter says. -/
def Layout.fractional (l : Layout) (p : Number.Precision) (letter : Char) (x : Fractional) :
    String :=
  let places := l.precision.getD 6
  let pointed (s : String) : String := if l.alternate then withPoint s else s
  let (start, text, isFinite) : String × String × Bool := match x.value with
    | .notANumber => ("", "nan", false)
    | .infinite => ("", "inf", false)
    | .finite s =>
      match letter.toLower with
      | 'f' => ("", pointed (s.ratio.fixedText places), true)
      | 'e' => ("", pointed (s.ratio.scientificText places), true)
      | 'a' => ("0x", Bytes.drop 2 (s.hexText p l.precision l.alternate), true)
      | _ => ("", pointed (s.ratio.generalText places l.alternate), true)
  let raised (s : String) : String := if letter.isUpper then s.toUpper else s
  { l with precision := none, zeros := l.zeros && isFinite }.number
    (l.sign x.isNegative ++ raised start) (raised text)

/-- Why an argument is no number, or not wholly one. -/
inductive Fault where
  | noNumber
  | incomplete
  | exceeding
  deriving DecidableEq, Repr

def Fault.message (f : Fault) (argument : String) : String :=
  match f with
  | noNumber => s!"{argument}: expected numeric value"
  | incomplete => s!"{argument}: not completely converted"
  | exceeding => s!"{argument}: Numerical result out of range"

/-- What an argument is as a number, and what is wrong with it. -/
structure Argument (α : Type) where
  value : α
  fault : Option Fault := none

/-- The code of the character that stands behind a quote. -/
def codeOf? (s : String) : Option Nat :=
  match s.toList with
  | q :: cs => if q = '\'' || q = '"' then some ((cs.head?.map Char.toNat).getD 0) else none
  | [] => none

/-- The number that an argument is, by a view of numerals that says whether they are too great. -/
def argument {α : Type} (view : Numeral → α × Bool) (s : String) : Argument α :=
  match codeOf? s with
  | some n => ⟨(view ⟨false, n, []⟩).1, none⟩
  | none =>
    match Numeral.read? true s.toList with
    | some n =>
      let (value, exceeds) := view n
      ⟨value, if !n.rest.isEmpty then some .incomplete
        else if exceeds then some .exceeding else none⟩
    | none => ⟨(view ⟨false, 0, []⟩).1, if s.isEmpty then none else some .noNumber⟩

def signed : String → Argument Int := argument fun n => (n.value, n.exceeds)

/-- A number without a sign; negative ones count from the end. -/
def unsigned : String → Argument Nat := argument fun n =>
  let range := Nat.pow 2 64
  if range ≤ n.magnitude then (range - 1, true)
  else (if n.negative then (range - n.magnitude) % range else n.magnitude, false)

def fractional (p : Number.Precision) (s : String) : Argument Fractional :=
  let whole (n : Nat) : Fractional := ⟨false, (p.rounded (.finite ⟨n, 1⟩)).1⟩
  match codeOf? s with
  | some n => ⟨whole n, none⟩
  | none =>
    match Number.Scan.of? s.toList with
    | some r =>
      let (value, exceeds) := p.rounded r.value
      ⟨⟨r.isNegative, value⟩, if !r.rest.isEmpty then some .incomplete
        else if exceeds then some .exceeding else none⟩
    | none => ⟨whole 0, if s.isEmpty then none else some .noNumber⟩

/-- The flags, the width and the precision of a conversion, which arguments can give as well. -/
def layout (cs : List Char) (args : List String) : Layout × List Char × List String :=
  let flags := cs.takeWhile fun c => ['-', '0', '+', ' ', '#'].contains c
  let size (cs : List Char) (args : List String) : Int × List Char × List String := match cs with
    | '*' :: more => ((signed (args.headD "")).value, more, args.tail)
    | _ =>
      let ds := cs.takeWhile Char.isDigit
      ((digits? ds).getD 0, cs.drop ds.length, args)
  let (width, cs, args) := size (cs.drop flags.length) args
  let (precision, cs, args) : Option Nat × List Char × List String := match cs with
    | '.' :: more =>
      let (p, cs, args) := size more args
      (if p < 0 then none else some p.toNat, cs, args)
    | more => (none, more, args)
  ({ left := flags.contains '-' || width < 0
     zeros := flags.contains '0'
     plus := flags.contains '+'
     space := flags.contains ' '
     alternate := flags.contains '#'
     width := width.natAbs
     precision }, cs, args)

/-- What a piece of a format writes, and what is wrong with it. -/
structure Piece where
  text : String := ""
  complaints : List String := []
  /-- Whether nothing more is written. -/
  stop : Bool := false

/-- What a conversion writes for an argument; there is none for a letter that means nothing. -/
def convert (l : Layout) (conversion : Char) (arg : String) : Option Piece :=
  let piece {α : Type} (a : Argument α) (text : String) : Option Piece :=
    some { text, complaints := a.fault.toList.map fun f => f.message arg }
  let cut (s : String) : String := l.pad (Bytes.take (l.precision.getD s.length) s)
  let radix (start : String) (show_ : Nat → String) : Option Piece :=
    let a := unsigned arg
    let start := if l.alternate && a.value != 0 then start else ""
    piece a (l.number start (show_ a.value))
  match conversion with
  | 's' => some { text := cut arg }
  | 'b' =>
    let (text, stop) := unescaped .shell arg
    some { text := cut text, stop }
  | 'c' => some { text := l.pad (String.singleton (arg.toList.headD (Char.ofNat 0))) }
  | 'd' | 'i' =>
    let a := signed arg
    piece a (l.number (l.sign (a.value < 0)) (toString a.value.natAbs))
  | 'u' => radix "" toString
  | 'o' => radix "0" (digits 8)
  | 'x' => radix "0x" (digits 16)
  | 'X' => radix "0X" fun n => (digits 16 n).toUpper
  | 'a' | 'A' | 'e' | 'E' | 'f' | 'F' | 'g' | 'G' =>
    let a := fractional .double arg
    piece a (l.fractional .double conversion a.value)
  | _ => none

/-- What one pass over a format does. -/
structure Pass where
  /-- The texts that it writes, backwards. -/
  texts : List String := []
  /-- What is wrong with the arguments, backwards. -/
  complaints : List String := []
  /-- The arguments that are left. -/
  arguments : List String
  /-- Whether the format takes arguments. -/
  consumes : Bool := false
  /-- Whether nothing more is written. -/
  stop : Bool := false
  /-- What is wrong with the format itself, which ends the pass. -/
  fault : Option String := none

/-- One pass over a format, behind what has been done of it. -/
def pass : Nat → List Char → Pass → Pass
  | 0, _, p => p
  | _, [], p => p
  | fuel + 1, c :: cs, p =>
    let write (text : String) (rest : List Char) : Pass :=
      pass fuel rest { p with texts := text :: p.texts }
    if c = '\\' then
      match escape .shell false cs with
      | .byte b rest => write (String.singleton b) rest
      | .stop => { p with stop := true }
      | .none => write "\\" cs
    else if c = '%' then
      match cs with
      | '%' :: rest => write "%" rest
      | _ =>
        let (l, rest, args) := layout cs p.arguments
        match rest with
        | [] =>
          { p with fault := some "missing format character" }
        | conversion :: rest =>
          match convert l conversion (args.headD "") with
          | none =>
            let written := "%" ++ String.ofList (cs.take (cs.length - rest.length))
            { p with fault := some (written ++ ": invalid directive") }
          | some piece =>
            let p := { p with
              texts := piece.text :: p.texts
              complaints := piece.complaints.reverse ++ p.complaints
              arguments := args.tail
              consumes := true
              stop := piece.stop }
            if p.stop then p else pass fuel rest p
    else write (String.singleton c) cs

/-- What a format writes for some arguments, what is wrong with them, and the status. -/
structure Printed where
  text : String
  complaints : List String
  status : Nat
  /-- The arguments that the format has no use for. -/
  unused : List String := []

/-- What a format writes for some arguments, behind what has been done of it: it is used again as
long as arguments are left. -/
def passes (format : String) : Nat → Pass → Printed
  | 0, _ => ⟨"", [], 0, []⟩
  | fuel + 1, p =>
    let p := pass (format.length + 1) format.toList { p with consumes := false }
    let text := String.join p.texts.reverse
    let complaints := p.complaints.reverse
    match p.fault with
    | some fault => ⟨text, complaints ++ [fault], 2, []⟩
    | none =>
      if p.stop || p.arguments.isEmpty || !p.consumes then
        ⟨text, complaints, if complaints.isEmpty then 0 else 1, if p.stop then [] else p.arguments⟩
      else passes format fuel p

def printf (format : String) (args : List String) : Printed :=
  passes format (args.length + 1) { arguments := args }

end PipelineRunner.Shell.Format
