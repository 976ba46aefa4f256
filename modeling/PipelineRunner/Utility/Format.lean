import PipelineRunner.Utility.Input

/-!
The utility that prints its arguments in a format. A directive behind a percent sign takes an
argument; the format is used again as long as arguments are left. What is wrong with an argument is
said where it is to be printed, so that complaints stand between the pieces of the text.
-/

namespace PipelineRunner.Utility

open Host Text Job

namespace Directive

open Shell.Format (Layout Fractional)

/-- What stands behind a backslash. -/
inductive Escape where
  | text (bytes : String) (rest : List Char)
  /-- Nothing more is printed. -/
  | stop
  | wrong (complaint : String)

def hexValue (cs : List Char) : Nat :=
  cs.foldl (fun n c => n * 16 + (Number.Scan.hexDigit? c).getD 0) 0

/-- The escape for a character, with so many digits for its code. -/
def characterEscape (k : Charset) (letter : Char) (count : Nat) (cs : List Char) : Escape :=
  let digits := (cs.take count).takeWhile fun c => (Number.Scan.hexDigit? c).isSome
  let code := hexValue digits
  if digits.length < count then .wrong "missing hexadecimal number in escape"
  else if 0xd800 ≤ code && code ≤ 0xdfff then
    .wrong ("invalid universal character name \\" ++ String.singleton letter ++
      (String.ofList digits).toLower)
  else .text (k.codeText code) (cs.drop count)

/-- The escape behind a backslash. With a `zero` in front, octal digits take up to three places
behind it. -/
def escape (k : Charset) (zero : Bool) (cs : List Char) : Escape :=
  match cs with
  | [] => .text "\\" []
  | c :: rest =>
    let octal := if zero && c = '0' then rest else cs
    let digits := (octal.take 3).takeWhile Shell.Format.isOctal
    if c = 'x' then
      let digits := (rest.take 2).takeWhile fun c => (Number.Scan.hexDigit? c).isSome
      if digits.isEmpty then .wrong "missing hexadecimal number in escape"
      else .text (String.singleton (Char.ofNat (hexValue digits))) (rest.drop digits.length)
    else if Shell.Format.isOctal c then
      .text (String.singleton (Shell.Format.byte (Shell.Format.octal digits)))
        (octal.drop digits.length)
    else if c = 'c' then .stop
    else if c = '"' then .text "\"" rest
    else if c = 'u' then characterEscape k c 4 rest
    else if c = 'U' then characterEscape k c 8 rest
    else
      match Shell.Format.letter? c with
      | some b => .text (String.singleton b) rest
      | none => .text (String.ofList ['\\', c]) rest

/-- Prints a text in which there may be escapes; yields whether more may be printed. -/
def printEscaped (k : Charset) : Nat → List Char → Job Bool
  | 0, _ => pure true
  | _, [] => pure true
  | fuel + 1, '\\' :: cs =>
    match escape k true cs with
    | .text bytes rest => do
      print bytes
      printEscaped k fuel rest
    | .stop => pure false
    | .wrong complaint => fail 1 complaint
  | fuel + 1, c :: cs => do
    print (String.singleton c)
    printEscaped k fuel cs

/-- The code of the character behind a quotation mark, and what stands behind it. -/
def codeOf? (k : Charset) (s : String) : Option (Nat × List Char) :=
  match s.toList with
  | q :: c :: cs =>
    if q = '\'' || q = '"' then
      match k.text? (String.ofList (c :: cs)) with
      | some text =>
        let first := text.toList.headD c
        some (first.toNat, (c :: cs).drop (Bytes.ofText (String.singleton first)).length)
      | none => some (c.toNat, cs)
    else none
  | _ => none

/-- The number that an argument is, by what reads it: it tells the number, what stands behind it, and
whether it is too great. -/
def numberOf {α : Type} (whole : Nat → α) (view : List Char → Option (α × List Char × Bool))
    (s : String) : Job α := do
  match codeOf? (← charset) s with
  | some (code, behind) =>
    let isStrict := (← value? "POSIXLY_CORRECT").isSome
    if !behind.isEmpty && !isStrict then
      warn ("warning: " ++ String.ofList behind ++
        ": character(s) following character constant have been ignored")
    pure (whole code)
  | none =>
    match view s.toList with
    | none =>
      if !s.isEmpty then fault 1 (quoted s ++ ": expected a numeric value")
      pure (whole 0)
    | some (value, rest, exceeds) =>
      if exceeds then fault 1 (quoted s ++ ": Numerical result out of range")
      else if !rest.isEmpty then fault 1 (quoted s ++ ": value not completely converted")
      pure value

def signed : String → Job Int :=
  numberOf (fun n => (n : Int)) fun cs =>
    (Shell.Numeral.read? true cs).map fun n => (n.value, n.rest, n.exceeds)

/-- A number without a sign; negative ones count from the end. -/
def unsigned : String → Job Nat :=
  numberOf id fun cs =>
    (Shell.Numeral.read? true cs).map fun n =>
      let range := Nat.pow 2 64
      if range ≤ n.magnitude then (range - 1, n.rest, true)
      else (if n.negative then (range - n.magnitude) % range else n.magnitude, n.rest, false)

def fractional : String → Job Fractional :=
  let p := Number.Precision.extended
  numberOf (fun n => ⟨false, (p.rounded (.finite ⟨n, 1⟩)).1⟩) fun cs =>
    (Number.Scan.of? cs).map fun r =>
      let (value, exceeds) := p.rounded r.value
      (⟨r.isNegative, value⟩, r.rest, exceeds)

/-- A size that stands in a format or in an argument: what it is, and what is left. -/
def size (what : String) (cs : List Char) (args : List String) :
    Job (Option Int × List Char × List String) :=
  match cs with
  | '*' :: more => do
    let n ← match args with
      | [] => pure 0
      | a :: _ => signed a
    let reach : Int := 2147483647
    if reach < n || (what = "field width" && n < -reach - 1) then
      fail 1 (s!"invalid {what}: " ++ quoted (args.headD ""))
    pure (some n, more, args.drop 1)
  | cs =>
    let digits := cs.takeWhile Char.isDigit
    pure ((digits? digits).map fun n => (n : Int), cs.drop digits.length, args)

/-- The letters that a directive with some flags, and perhaps a precision, may not have. -/
def refused (flags : List Char) (hasPrecision : Bool) : List Char :=
  (if flags.any ['I', '\''].contains then "aAceEosxX".toList else []) ++
    (if flags.contains '#' then "cdisu".toList else []) ++
    (if flags.contains '0' then "cs".toList else []) ++
    (if hasPrecision then ['c'] else [])

/-- Prints an argument as a directive asks for. -/
def convert (l : Layout) (letter : Char) (arg : String) : Job Unit := do
  let radix (start : String) (base : Nat) : Job Unit := do
    let n ← unsigned arg
    let digits := String.ofList (Nat.toDigits base n)
    let isZero := n = 0 && l.precision = some 0
    let start := if l.alternate && n != 0 then start else ""
    let text := l.number start (if isZero then "" else digits)
    print (if letter = 'X' then text.toUpper else text)
  match letter with
  | 's' => print (l.pad (Bytes.take (l.precision.getD arg.length) arg))
  | 'c' => print (l.pad (String.singleton (arg.toList.headD (Char.ofNat 0))))
  | 'd' | 'i' => do
    let n ← signed arg
    let isZero := n = 0 && l.precision = some 0
    print (l.number (l.sign (n < 0)) (if isZero then "" else toString n.natAbs))
  | 'u' => radix "" 10
  | 'o' => radix "0" 8
  | 'x' | 'X' => radix "0x" 16
  | letter => do print (l.fractional .extended letter (← fractional arg))

/-- Carries out a directive behind its percent sign; yields what is left of the format and of the
arguments, and whether more may be printed. -/
def perform (cs : List Char) (args : List String) : Job (List Char × List String × Bool) := do
  let arg := args.headD ""
  match cs with
  | '%' :: rest =>
    print "%"
    pure (rest, args, true)
  | 'b' :: rest =>
    pure (rest, args.drop 1, ← printEscaped (← charset) (arg.length + 1) arg.toList)
  | 'q' :: rest =>
    if !args.isEmpty then print (asArgument arg)
    pure (rest, args.drop 1, true)
  | cs => do
    let flags := cs.takeWhile ['-', '+', ' ', '#', '0', 'I', '\''].contains
    let (width, behind, args) ← size "field width" (cs.drop flags.length) args
    let (hasPoint, behind) : Bool × List Char := match behind with
      | '.' :: more => (true, more)
      | more => (false, more)
    let (precision, behind, args) ←
      if hasPoint then size "precision" behind args else pure (none, behind, args)
    let behind := behind.dropWhile ['l', 'L', 'h', 'j', 't', 'z'].contains
    let letter := behind.headD ' '
    let isKnown := !behind.isEmpty && "aAcdeEfFgGiosuxX".toList.contains letter
    if !isKnown || (refused flags hasPoint).contains letter then
      let written := cs.take (cs.length - behind.length + 1)
      fail 1 ("%" ++ String.ofList written ++ ": invalid conversion specification")
    let width := width.getD 0
    let layout : Layout := {
      left := flags.contains '-' || width < 0, zeros := flags.contains '0'
      plus := flags.contains '+', space := flags.contains ' ', alternate := flags.contains '#'
      width := width.natAbs
      precision := if !hasPoint then none
        else match precision with
          | none => some 0
          | some n => if n < 0 then none else some n.toNat }
    convert layout letter (args.headD "")
    pure (behind.drop 1, args.drop 1, true)

/-- Prints a format; yields the arguments that are left, and whether more may be printed. -/
def pass (k : Charset) : Nat → List Char → List String → Job (List String × Bool)
  | 0, _, args => pure (args, true)
  | _, [], args => pure (args, true)
  | fuel + 1, '\\' :: cs, args =>
    match escape k false cs with
    | .text bytes rest => do
      print bytes
      pass k fuel rest args
    | .stop => pure (args, false)
    | .wrong complaint => fail 1 complaint
  | fuel + 1, '%' :: cs, args => do
    let (rest, args, goesOn) ← perform cs args
    if goesOn then pass k fuel rest args else pure (args, false)
  | fuel + 1, c :: cs, args => do
    print (String.singleton c)
    pass k fuel cs args

/-- Prints a format as often as arguments are left for it. -/
def passes (format : String) (args : List String) : Job Unit := do
  let k ← charset
  iterate (fun (args : List String) => do
    let (left, goesOn) ← pass k (format.length + 1) format.toList args
    if !goesOn then pure (.done ())
    else if left.isEmpty then pure (.done ())
    else if left.length < args.length then pure (.again left)
    else do
      warn ("warning: ignoring excess arguments, starting with " ++ quoted (left.headD ""))
      pure (.done ())) args

end Directive

def printf (args : List String) : Job Unit := do
  let args := if args.head? = some "--" then args.drop 1 else args
  match args with
  | [] => misuse 1 "missing operand"
  | format :: args => Directive.passes format args

end PipelineRunner.Utility
