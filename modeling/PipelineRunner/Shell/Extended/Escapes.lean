import PipelineRunner.Shell.Format
import PipelineRunner.Text.Bytes
import PipelineRunner.Time.Calendar

/-!
Escapes of the extended language. A backslash with what stands behind it makes up a byte or a
character; which of them there are depends on where they stand.
-/

namespace PipelineRunner.Shell.Extended

open Text

/-- Where escapes stand. -/
inductive EscapePlace where
  /-- Between single quotes behind a dollar sign. -/
  | quotes
  /-- In the arguments of a command that prints them. -/
  | printed
  | format
  /-- In the arguments of a format. -/
  | argument
  deriving DecidableEq, Repr

/-- What a text with escapes stands for. -/
structure Unescaped where
  bytes : List Char := []
  complaints : List String := []
  /-- Whether nothing more is written. -/
  stops : Bool := false

namespace Unescaped

/-- What stands behind a backslash. -/
inductive Escape where
  | bytes (text : List Char) (rest : List Char)
  /-- The backslash stands for itself. -/
  | none (complaint : Option String)
  | stop

def hexValue (cs : List Char) : Nat :=
  cs.foldl (fun n c => n * 16 + (Number.Scan.hexDigit? c).getD 0) 0

def hexDigits (most : Nat) (cs : List Char) : List Char :=
  (cs.take most).takeWhile fun c => (Number.Scan.hexDigit? c).isSome

def character (k : Charset) (code : Nat) : List Char :=
  if k = .utf8 && 0xd800 ≤ code && code ≤ 0xdfff then
    [0xe0 + code / 4096, 0x80 + code / 64 % 64, 0x80 + code % 64].map Char.ofNat
  else (k.codeText code).toList

def escape (p : EscapePlace) (k : Charset) (cs : List Char) : Escape :=
  let one (c : Char) (rest : List Char) : Escape := .bytes [c] rest
  let complaint (text : String) : Option String :=
    if p = .quotes || p = .printed then none else some text
  match cs with
  | [] => .none none
  | c :: rest =>
    let isQuoted := (p = .quotes && (c = '\'' || c = '"' || c = '?')) ||
      (p = .format && (c = '\'' || c = '"' || c = '?'))
    if isQuoted then one c rest
    else if c = 'E' then one '\x1b' rest
    else if c = 'c' then
      match p, rest with
      | .printed, _ | .argument, _ => .stop
      | .quotes, d :: rest => one (if d = '?' then '\x7f' else Char.ofNat (d.toNat % 32)) rest
      | _, _ => .none none
    else if c = 'x' then
      let digits := hexDigits 2 rest
      if digits.isEmpty then .none (complaint "missing hex digit for \\x")
      else one (Char.ofNat (hexValue digits)) (rest.drop digits.length)
    else if c = 'u' || c = 'U' then
      let digits := hexDigits (if c = 'u' then 4 else 8) rest
      if digits.isEmpty then
        .none (complaint ("missing unicode digit for \\" ++ String.singleton c))
      else .bytes (character k (hexValue digits)) (rest.drop digits.length)
    else if Format.isOctal c && (p ≠ .printed || c = '0') then
      let octal := if c = '0' && (p = .printed || p = .argument) then rest else cs
      let digits := (octal.take 3).takeWhile Format.isOctal
      one (Format.byte (Format.octal digits)) (octal.drop digits.length)
    else
      match Format.letter? c with
      | some b => one b rest
      | none => .none none

/-- Adds what a text with escapes stands for. The bytes so far stand backwards. -/
def add (p : EscapePlace) (k : Charset) : Nat → Unescaped → List Char → Unescaped
  | 0, u, _ => u
  | _, u, [] => u
  | fuel + 1, u, c :: cs =>
    if c = '\\' then
      match escape p k cs with
      | .bytes text rest => add p k fuel { u with bytes := text.reverse ++ u.bytes } rest
      | .none complaint =>
        add p k fuel
          { u with bytes := '\\' :: u.bytes, complaints := u.complaints ++ complaint.toList } cs
      | .stop => { u with stops := true }
    else add p k fuel { u with bytes := c :: u.bytes } cs

/-- What a text with escapes stands for. -/
def of (p : EscapePlace) (k : Charset) (s : String) : Unescaped :=
  let u := add p k (s.length + 1) {} s.toList
  { u with bytes := u.bytes.reverse }

def text (u : Unescaped) : String := String.ofList u.bytes

/-- The text between single quotes behind a dollar sign; it ends at a byte of zero. -/
def quoted (k : Charset) (cs : List Char) : String :=
  String.ofList (((add .quotes k (cs.length + 1) {} cs).bytes.reverse).takeWhile
    (· ≠ Char.ofNat 0))

end Unescaped
end PipelineRunner.Shell.Extended

/-! ### Quoting

How shells of the extended language write texts so that they can be read again. -/

namespace PipelineRunner.Shell.Extended.Quoting

open Text

/-- The escape for a byte between single quotes behind a dollar sign. -/
def escapeOf (c : Char) : List Char :=
  if c = '\x1b' then ['\\', 'E'] else Text.escapeOf c

/-- A text between single quotes behind a dollar sign. -/
def withEscapes (s : String) : String :=
  let inside := (shownParts (s.length + 1) s.toList).flatMap fun (shown, cs) =>
    if !shown then cs.flatMap escapeOf
    else if cs = ['\''] || cs = ['\\'] then '\\' :: cs
    else cs
  "$'" ++ String.ofList inside ++ "'"

/-- A text between single quotes; a quote in it stands behind a backslash. -/
def inSingle (s : String) : String :=
  let inside := s.toList.flatMap fun c => if c = '\'' then "'\\''".toList else [c]
  "'" ++ String.ofList inside ++ "'"

/-- A text between single quotes, or with escapes if it cannot be shown. -/
def always (s : String) : String :=
  if s = "'" then "\\'" else if isShownText s then inSingle s else withEscapes s

/-- A text between double quotes, or with escapes if it cannot be shown. -/
def inDouble (s : String) : String :=
  if !isShownText s then withEscapes s
  else
    let inside := s.toList.flatMap fun c =>
      if ['"', '$', '\x60', '\\'].contains c then ['\\', c] else [c]
    "\"" ++ String.ofList inside ++ "\""

/-- Whether a character means something to the shell. -/
def isMeaningful (c : Char) : Bool := " \t\n'\"\\|&;()<>!\x7b\x7d*[]?^$\x60".toList.contains c

/-- Whether something in a text behind a character means something to the shell. -/
def isMeaningfulFrom (last : Option Char) : List Char → Bool
  | [] => false
  | c :: rest =>
    isMeaningful c || (c = '~' && last.all fun d => d = '=' || d = ':') ||
      (c = '#' && last.all fun d => d = ' ' || d = '\t') || isMeaningfulFrom (some c) rest

/-- A text between quotes if that is needed. -/
def asNeeded (s : String) : String :=
  if !isShownText s then withEscapes s
  else if isMeaningfulFrom none s.toList then inSingle s
  else s

/-- A text as a part of a command that is shown. -/
def traced (s : String) : String :=
  if s.isEmpty then "''"
  else if isMeaningfulFrom none s.toList then inSingle s
  else if !isShownText s then withEscapes s
  else s

/-- Whether a character has to stand behind a backslash. -/
def isEscaped (c : Char) : Bool :=
  " \t\n!\"$&'()*,;<>?[\\]^\x60\x7b|\x7d".toList.contains c

/-- The characters of a text behind another one, with backslashes. -/
def escapedFrom (last : Option Char) : List Char → List Char
  | [] => []
  | c :: rest =>
    let isEscaped := isEscaped c || (c = '#' && last.isNone) ||
      (c = '~' && last.all fun d => d = ':' || d = '=')
    (if isEscaped then ['\\', c] else [c]) ++ escapedFrom (some c) rest

/-- A text with backslashes, or with escapes if it cannot be shown. -/
def withBackslashes (s : String) : String :=
  if s.isEmpty then "''"
  else if isShownText s then String.ofList (escapedFrom none s.toList)
  else withEscapes s

end PipelineRunner.Shell.Extended.Quoting

/-! ### Formats

Formats of the extended language. Beside numbers and texts they lay out instants, and texts in such
a way that they can be read again. -/

namespace PipelineRunner.Shell.Extended.Layouts

open Text

/-- What formats are laid out with. -/
structure Setting where
  charset : Charset
  zone : Zone
  now : Timestamp

/-- What a format writes, and how far it has come. -/
structure Progress where
  /-- The texts so far, backwards. -/
  texts : List String := []
  complaints : List String := []
  arguments : List String
  status : Nat := 0
  /-- Whether nothing more is written. -/
  stops : Bool := false

namespace Progress

def write (p : Progress) (text : String) : Progress := { p with texts := text :: p.texts }

def complain (p : Progress) (text : String) : Progress :=
  { p with complaints := p.complaints ++ [text] }

def next (p : Progress) : Progress := { p with arguments := p.arguments.drop 1 }

/-- Ends what is written, since the format is wrong. -/
def refuse (p : Progress) (text : String) : Progress :=
  { p.complain text with status := 1, stops := true }

end Progress

/-- The code of the character that stands behind a quotation mark. -/
def codeOf? (k : Charset) (s : String) : Option Nat :=
  match s.toList with
  | q :: cs =>
    if q = '\'' || q = '"' then
      some (((Characters.of k (String.ofList cs)).chars[0]?.map Char.toNat).getD 0)
    else none
  | [] => none

/-- The number that an argument is, as a view of it yields it. -/
def numberOf {α : Type} (k : Charset) (ofCode : Nat → α) (view : String → Format.Argument α)
    (p : Progress) : α × Progress :=
  let arg := p.arguments.headD ""
  match codeOf? k arg with
  | some n => (ofCode n, p.next)
  | none =>
    let a := view arg
    let p := match a.fault with
      | none => p
      | some .exceeding =>
        p.complain ("warning: " ++ arg ++ ": Numerical result out of range")
      | some _ => { p.complain (arg ++ ": invalid number") with status := 1 }
    (a.value, p.next)

/-- Writes an argument as a number without a sign, to a base. -/
def radix (k : Charset) (l : Format.Layout) (start : String) (shown : Nat → String)
    (p : Progress) : Progress :=
  let (n, p) := numberOf k id Format.unsigned p
  let digits := if n = 0 && l.precision = some 0 then "" else shown n
  p.write (l.number (if l.alternate && n != 0 then start else "") digits)

def instant (s : Setting) (l : Format.Layout) (form : String) (p : Progress) : Progress :=
  let isGiven := !p.arguments.isEmpty
  let (n, p) := numberOf s.charset (fun n => (n : Int)) Format.signed p
  let t : Timestamp := if !isGiven || n < 0 then s.now else { s.now with
    seconds := n, nanoseconds := 0 }
  let form := if form.isEmpty then "%X" else form
  p.write (l.pad (Calendar.textIn s.zone t form))

/-- Writes the argument of a conversion; there is none for a letter that means nothing. -/
def convert (s : Setting) (l : Format.Layout) (letter : Char) (p : Progress) : Option Progress :=
  let arg := p.arguments.headD ""
  let cut (text : String) : String := l.pad (Bytes.take (l.precision.getD text.length) text)
  match letter with
  | 's' => some (p.next.write (cut arg))
  | 'q' => some (p.next.write (cut (Quoting.withBackslashes arg)))
  | 'Q' =>
    let text := Bytes.take (l.precision.getD arg.length) arg
    some (p.next.write (l.pad (Quoting.withBackslashes text)))
  | 'b' =>
    let u := Unescaped.of .argument s.charset arg
    let p := u.complaints.foldl Progress.complain p.next
    some { p.write (cut u.text) with stops := u.stops }
  | 'c' => some (p.next.write (l.pad (Bytes.take 1 arg)))
  | 'd' | 'i' =>
    let (n, p) := numberOf s.charset (fun n => (n : Int)) Format.signed p
    let digits := if n = 0 && l.precision = some 0 then "" else toString n.natAbs
    some (p.write (l.number (l.sign (n < 0)) digits))
  | 'u' => some (radix s.charset l "" toString p)
  | 'o' => some (radix s.charset l "0" (Format.digits 8) p)
  | 'x' => some (radix s.charset l "0x" (Format.digits 16) p)
  | 'X' => some (radix s.charset l "0X" (fun n => (Format.digits 16 n).toUpper) p)
  | 'a' | 'A' | 'e' | 'E' | 'f' | 'F' | 'g' | 'G' =>
    let precision := Number.Precision.extended
    let ofCode (n : Nat) : Format.Fractional := ⟨false, (precision.rounded (.finite ⟨n, 1⟩)).1⟩
    let (x, p) := numberOf s.charset ofCode (Format.fractional precision) p
    some (p.write (l.fractional precision letter x))
  | _ => none

/-- The form between parentheses and what stands behind the letter that belongs to it. -/
def form? : List Char → Option (String × List Char)
  | '(' :: cs =>
    let form := cs.takeWhile (· != ')')
    match cs.drop form.length with
    | ')' :: 'T' :: rest => some (String.ofList form, rest)
    | _ => none
  | _ => none

def pass (s : Setting) : Nat → List Char → Progress → Progress
  | 0, _, p => p
  | _, [], p => p
  | fuel + 1, c :: cs, p =>
    if p.stops then p
    else if c = '\\' then
      match Unescaped.escape .format s.charset cs with
      | .bytes text rest => pass s fuel rest (p.write (String.ofList text))
      | .none complaint =>
        pass s fuel cs ((complaint.toList.foldl Progress.complain p).write "\\")
      | .stop => { p with stops := true }
    else if c = '%' then
      match cs with
      | '%' :: rest => pass s fuel rest (p.write "%")
      | _ =>
        let (l, rest, args) := Format.layout cs p.arguments
        let p := { p with arguments := args }
        match form? rest with
        | some (form, rest) => pass s fuel rest (instant s l form p)
        | none =>
          match rest.dropWhile ['h', 'j', 'l', 'L', 't', 'z'].contains with
          | [] => p.refuse "\x60%': missing format character"
          | letter :: rest =>
            match convert s l letter p with
            | some p => pass s fuel rest p
            | none => p.refuse ("\x60" ++ String.singleton letter ++ "': invalid format character")
    else pass s fuel cs (p.write (String.singleton c))

/-- Lays a format out again and again as long as arguments are left for it. -/
def passes (s : Setting) (format : String) : Nat → Progress → Progress
  | 0, p => p
  | fuel + 1, p =>
    let q := pass s (format.length + 1) format.toList p
    if q.stops || q.arguments.isEmpty || p.arguments.length ≤ q.arguments.length then q
    else passes s format fuel q

end PipelineRunner.Shell.Extended.Layouts
