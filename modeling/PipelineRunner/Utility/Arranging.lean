import PipelineRunner.Utility.Files
import PipelineRunner.Utility.Input

/-!
Utilities that lay out lines in another way: with numbers, within a width, and without tabs.
-/

namespace PipelineRunner.Utility

open Host Text Job

/-- A whole number with or without a sign. -/
def integer? (text : String) : Option Int :=
  match text.toList with
  | '-' :: cs => (Text.digits? cs).map fun n => -(n : Int)
  | '+' :: cs => (Text.digits? cs).map fun n => (n : Int)
  | cs => (Text.digits? cs).map fun n => (n : Int)

/-- The number that an argument is; it must not be less than the least. -/
def numberFrom (what : String) (least : Int) (text : String) : Job Int := do
  let complaint := s!"invalid {what}: " ++ quoted text
  match integer? text with
  | none => fail 1 complaint
  | some n =>
    if n < least then fail 1 (complaint ++ ": Numerical result out of range")
    else if 9223372036854775807 < n then
      fail 1 (complaint ++ ": Value too large for defined data type")
    else pure n

/-- Which lines are numbered. -/
inductive Numbering where
  | all
  | nonEmpty
  | none
  | matching (r : Regex)

namespace Numbering

/-- The lines that a text asks to number; a pattern may be faulty. -/
def of? (k : Charset) (text : String) : Option (Except RegexError Numbering) :=
  match text.toList with
  | ['a'] => some (.ok .all)
  | ['t'] => some (.ok .nonEmpty)
  | ['n'] => some (.ok .none)
  | 'p' :: cs => some ((readRegex k { extended := false } (String.ofList cs)).map .matching)
  | _ => Option.none

def has (k : Charset) : Numbering → String → Bool
  | all, _ => true
  | nonEmpty, text => !text.isEmpty
  | none, _ => false
  | matching r, text => r.isIn (Characters.of k text).chars

end Numbering

/-- Where the numbers stand. -/
inductive NumberForm where
  | left
  | right
  | zeros
  deriving DecidableEq, Repr

/-- How lines are numbered. -/
structure LineNumbers where
  header : Numbering := .none
  body : Numbering := .nonEmpty
  footer : Numbering := .none
  first : Int := 1
  step : Int := 1
  width : Nat := 6
  /-- So many blank lines in a row count as one. -/
  joined : Nat := 1
  separator : String := "\t"
  form : NumberForm := .right
  /-- What marks the parts of a page, twice or three times in a row too. -/
  mark : String := "\\:"
  restarts : Bool := true
  charset : Charset := .utf8

namespace LineNumbers

def shown (l : LineNumbers) (n : Int) : String :=
  let text := toString n
  match l.form with
  | .left => leftAligned l.width text
  | .right => rightAligned l.width text
  | .zeros =>
    let digits := toString n.natAbs
    let sign := if n < 0 then "-" else ""
    sign ++ Bytes.fill '0' (l.width - digits.length - sign.length) ++ digits

/-- The part of the page that begins with a line. -/
def section? (l : LineNumbers) (text : String) : Option Numbering :=
  if l.mark.isEmpty then none
  else if text = l.mark ++ l.mark ++ l.mark then some l.header
  else if text = l.mark ++ l.mark then some l.body
  else if text = l.mark then some l.footer
  else none

end LineNumbers

/-- How far lines have been numbered. -/
structure Numbered where
  next : Int
  part : Numbering
  blank : Nat := 0

def LineNumbers.line (l : LineNumbers) (s : Numbered) (text : String) : String × Numbered :=
  match l.section? text with
  | some part => ("", { s with next := if l.restarts then l.first else s.next, part })
  | none =>
    let isAll := match s.part with
      | .all => true
      | _ => false
    let counts := isAll && 1 < l.joined && text.isEmpty
    let isLastBlank := s.blank + 1 = l.joined
    let isNumbered := s.part.has l.charset text && (!counts || isLastBlank)
    let blank := if counts && !isLastBlank then s.blank + 1 else if isAll then 0 else s.blank
    if isNumbered then
      (l.shown s.next ++ l.separator ++ text, { s with next := s.next + l.step, blank })
    else (Bytes.fill ' ' (l.width + l.separator.length) ++ text, { s with blank })

/-- The numbering that an option asks for. It may be said to be faulty; that is complained about
when all options have been read. -/
def LineNumbers.add (l : LineNumbers) (key value : String) : Job LineNumbers := do
  let style (what : String) (set : Numbering → LineNumbers) : Job LineNumbers :=
    match Numbering.of? l.charset value with
    | some (.ok n) => pure (set n)
    | some (.error e) => fail 1 e.message
    | none => do
      fault 1 (s!"invalid {what} numbering style: " ++ quoted value)
      pure l
  let least : Int := -9223372036854775808
  match key with
  | "header-numbering" => style "header" fun n => { l with header := n }
  | "body-numbering" => style "body" fun n => { l with body := n }
  | "footer-numbering" => style "footer" fun n => { l with footer := n }
  | "starting-line-number" => do
    let n ← numberFrom "starting line number" least value
    pure { l with first := n }
  | "line-increment" => do
    let n ← numberFrom "line number increment" least value
    pure { l with step := n }
  | "number-width" => do
    let n ← numberFrom "line number field width" 1 value
    pure { l with width := n.toNat }
  | "join-blank-lines" => do
    let n ← numberFrom "line number of blank lines" 1 value
    pure { l with joined := n.toNat }
  | "number-separator" => pure { l with separator := value }
  | "number-format" =>
    match value with
    | "ln" => pure { l with form := .left }
    | "rn" => pure { l with form := .right }
    | "rz" => pure { l with form := .zeros }
    | _ => do
      fault 1 ("invalid line numbering format: " ++ quoted value)
      pure l
  | "section-delimiter" => pure { l with mark := if value.length = 1 then value ++ ":" else value }
  | "no-renumber" => pure { l with restarts := false }
  | _ => pure l

/-- Shows files with the numbers of their lines. -/
def nl (args : List String) : Job Unit := do
  let known : List Known :=
    [.value "b" "body-numbering", .value "h" "header-numbering", .value "f" "footer-numbering",
      .value "d" "section-delimiter", .value "i" "line-increment", .value "l" "join-blank-lines",
      .value "n" "number-format", .flag "p" "no-renumber", .value "s" "number-separator",
      .value "v" "starting-line-number", .value "w" "number-width"]
  let a ← arguments 1 known args
  let k ← charset
  let numbers ← a.options.foldlM (fun (l : LineNumbers) o => l.add o.1 o.2) ({ charset := k } : LineNumbers)
  if (← get).code != 0 then pointToHelp 1
  let start : Numbered := { next := numbers.first, part := numbers.body }
  let _ ← (inputs a.operands).foldlM (fun (s : Numbered) name => do
    match ← contentOf (plainly 1) name with
    | none => pure s
    | some text =>
      (linesOf '\n' text).foldlM (fun (s : Numbered) l => do
        let (text, s) := numbers.line s l.text
        printLine text
        pure s) s) start

/-- Breaks a line so that no piece is wider than some columns; the pieces so far stand backwards,
and so do the characters of the last one. -/
def folded (width : Nat) (atBlanks countsBytes : Bool) :
    List String → List Char → Nat → List Char → List String
  | done, here, _, [] => (String.ofList here.reverse :: done).reverse
  | done, here, column, c :: cs =>
    let next := if countsBytes then column + 1
      else if c = '\t' then column + 8 - column % 8
      else if c = '\x08' then column - 1
      else if c = '\x0d' then 0
      else column + 1
    if width < next && !here.isEmpty then
      let behind := if atBlanks then here.takeWhile fun c => c != ' ' && c != '\t' else []
      let behind := if behind.length = here.length then [] else behind
      let piece := String.ofList (here.drop behind.length).reverse
      let column := behind.length
      let next := if !countsBytes && c = '\t' then column + 8 - column % 8 else column + 1
      folded width atBlanks countsBytes (piece :: done) (c :: behind) next cs
    else folded width atBlanks countsBytes done (c :: here) next cs

def fold (args : List String) : Job Unit := do
  let args := args.map fun a =>
    let cs := a.toList.drop 1
    if a.startsWith "-" && !cs.isEmpty && cs.all Char.isDigit then "-w" ++ String.ofList cs else a
  let known : List Known := [.flag "b" "bytes", .flag "s" "spaces", .value "w" "width"]
  let a ← arguments 1 known args
  let width ← (a.values "width").foldlM (fun (_ : Nat) text => do
    let n ← numberFrom "number of columns" 1 text
    pure n.toNat) 80
  each (fun name =>
    withInput (plainly 1) name fun d =>
      eachLine ⟨d, '\n', Act.blockSize, [], [], false⟩ (fun (_ : Unit) l => do
        let pieces := folded width (a.has "spaces") (a.has "bytes") [] [] 0 l.text.toList
        print (Text.join "\n" pieces ++ (if l.isWhole then "\n" else ""))
        pure (.again ())) ()) (inputs a.operands)

/-- Where tabs stop behind the last place that has been named. -/
inductive FurtherStops where
  /-- A tab is a single blank there. -/
  | nowhere
  | multiples (n : Nat)
  /-- So far behind the last place, again and again. -/
  | steps (n : Nat)
  deriving DecidableEq, Repr

/-- Where tabs stop: at some places, and behind them. -/
structure TabStops where
  places : List Nat := []
  further : Option FurtherStops := none
  deriving DecidableEq, Repr

namespace TabStops

def next (t : TabStops) (column : Nat) : Nat :=
  match t.places.find? (column < ·) with
  | some place => place
  | none =>
    let last := t.places.getLast?.getD 0
    match t.further, t.places with
    | none, [] => column + 8 - column % 8
    | none, [n] => column + n - column % n
    | some (.multiples n), _ => column + n - column % n
    | some (.steps n), _ => column + n - (column - last) % n
    | _, _ => column + 1

def add (t : TabStops) (text : List Char) : Except String TabStops :=
  let (kind, cs) : Option Char × List Char := match text with
    | '/' :: cs => (some '/', cs)
    | '+' :: cs => (some '+', cs)
    | cs => (none, cs)
  let digits := cs.takeWhile Char.isDigit
  let rest := cs.drop digits.length
  let number := (Text.digits? digits).getD 0
  if text.isEmpty then .ok t
  else if !rest.isEmpty then
    .error ("tab size contains invalid character(s): " ++ quoted (String.ofList rest))
  else if 18446744073709551615 < number then
    .error ("tab stop is too large " ++ quoted (String.ofList digits))
  else
    match t.further, kind with
    | some further, _ =>
      let sign := match further with
        | .steps _ => "'+'"
        | _ => "'/'"
      .error (sign ++ " specifier only allowed with the last value")
    | none, some '/' => .ok { t with further := some (.multiples number) }
    | none, some _ => .ok { t with further := some (.steps number) }
    | none, none => .ok { t with places := t.places ++ [number] }

/-- The stops with those that a list names. A complaint about characters names all that is left. -/
def addList (t : TabStops) : Nat → List Char → Except String TabStops
  | 0, _ => .ok t
  | _, [] => .ok t
  | fuel + 1, cs =>
    let here := cs.takeWhile fun c => c != ',' && c != ' ' && c != '\t'
    let rest := cs.drop here.length
    match t.add here with
    | .ok t => t.addList fuel (rest.drop 1)
    | .error text =>
      let bad := (here.dropWhile fun c => c == '/' || c == '+').dropWhile Char.isDigit
      .error (if bad.isEmpty then text
        else "tab size contains invalid character(s): " ++ quoted (String.ofList (bad ++ rest)))

/-- Whether something is wrong with the stops as a whole. -/
def fault? (t : TabStops) : Option String :=
  let isAscending := (t.places.zip (t.places.drop 1)).all fun (a, b) => a < b
  if t.places.contains 0 then some "tab size cannot be 0"
  else if !isAscending then some "tab sizes must be ascending"
  else none

/-- A line in which blanks stand in the place of tabs, behind some columns; it may be that this is
wanted of the blanks at the start only. -/
def expanded (t : TabStops) (onlyStart : Bool) (column : Nat) : List Char → List Char
  | [] => []
  | '\t' :: cs =>
    let next := t.next column
    List.replicate (next - column) ' ' ++ t.expanded onlyStart next cs
  | '\x08' :: cs =>
    '\x08' :: if onlyStart then cs else t.expanded onlyStart (column - 1) cs
  | c :: cs =>
    c :: if onlyStart && c != ' ' then cs else t.expanded onlyStart (column + 1) cs

end TabStops

/-- Puts blanks in the place of tabs. -/
def expand (args : List String) : Job Unit := do
  let args := args.map fun a =>
    let cs := a.toList.drop 1
    if a.startsWith "-" && cs.head?.any Char.isDigit then "-t" ++ String.ofList cs else a
  let a ← arguments 1 [.value "t" "tabs", .flag "i" "initial"] args
  let read := (a.values "tabs").foldlM (fun (t : TabStops) text =>
    t.addList (text.length + 1) text.toList) {}
  match read with
  | .error text => fail 1 text
  | .ok stops =>
    match stops.fault? with
    | some text => fail 1 text
    | none => pure ()
    each (fun name =>
      withInput (plainly 1) name fun d =>
        eachLine ⟨d, '\n', Act.blockSize, [], [], false⟩ (fun (_ : Unit) l => do
          let text := String.ofList (stops.expanded (a.has "initial") 0 l.text.toList)
          print (if l.isWhole then text ++ "\n" else text)
          pure (.again ())) ()) (inputs a.operands)

end PipelineRunner.Utility
