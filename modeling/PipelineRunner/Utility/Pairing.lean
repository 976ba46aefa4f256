import PipelineRunner.Utility.Ordering

/-!
Utilities that go through two files side by side whose lines are in order: one says which lines the
files have in common, the other joins lines that have the same key. A line out of order is noticed
when it is read, once in each file, as soon as there has been a line without a partner.
-/

namespace PipelineRunner.Utility

open Host Text Job

/-- One of two files, as far as it has been gone through. -/
structure Side (α : Type) where
  /-- What has been passed, the last first. -/
  passed : List α := []
  /-- What is still there, beginning with the line at hand. -/
  rest : List α
  /-- The number of the line at hand. -/
  number : Nat := 1
  /-- Whether it has been noticed that the file is not in order. -/
  isNoted : Bool := false

namespace Side

variable {α : Type}

/-- Passes a line. If order is checked and not yet noted to be missing, the line behind it must not
be in front of it; at the end the last two are looked at again if `again` says so. The line that is
out of order is given with its number. -/
def pass (checks again : Bool) (isAfter : α → α → Bool) (s : Side α) :
    Side α × Option (Nat × α) :=
  let checks := checks && !s.isNoted
  match s.rest with
  | x :: y :: rest =>
    let isOff := checks && isAfter x y
    let next : Side α :=
      { passed := x :: s.passed, rest := y :: rest, number := s.number + 1
        isNoted := s.isNoted || isOff }
    (next, if isOff then some (s.number + 1, y) else none)
  | [x] =>
    let isOff := checks && again && (s.passed.head?.any fun w => isAfter w x)
    let next : Side α :=
      { s with passed := x :: s.passed, rest := [], isNoted := s.isNoted || isOff }
    (next, if isOff then some (s.number, x) else none)
  | [] => (s, none)

/-- Passes lines as long as they are like the first; `off` are the complaints so far, the last
first. -/
def passLike (checks : Bool) (isAfter : α → α → Bool) (isLike : α → Bool) :
    Nat → List (Nat × α) → Side α → Side α × List (Nat × α)
  | 0, off, s => (s, off)
  | fuel + 1, off, s =>
    match s.rest with
    | x :: _ =>
      if isLike x then
        let (s, o) := s.pass checks false isAfter
        s.passLike checks isAfter isLike fuel (o.toList ++ off)
      else (s, off)
    | [] => (s, off)

end Side

/-- How strictly the order of lines is checked. -/
inductive OrderCheck where
  | never
  /-- Once there has been a line without a partner. -/
  | whenUnpaired
  /-- From the start, and a line out of order ends everything. -/
  | always
  deriving DecidableEq, Repr

namespace OrderCheck

def of (a : Arguments) : OrderCheck :=
  match a.lastOf? ["check-order", "nocheck-order"] with
  | some "check-order" => .always
  | some _ => .never
  | none => .whenUnpaired

def holds (k : OrderCheck) (unpaired : Bool) : Bool :=
  k = .always || (k = .whenUnpaired && unpaired)

end OrderCheck

/-- What comes of two files side by side. -/
inductive Paired (α : Type) where
  | row (left right : Option α)
  /-- A line that is out of order, with its number. -/
  | disorder (isFirst : Bool) (number : Nat) (line : α)

namespace Paired

variable {α : Type}

/-- What has been noticed in one of the files. -/
def ofOff (isFirst : Bool) (off : Option (Nat × α)) : List (Paired α) :=
  off.toList.map fun (n, line) => .disorder isFirst n line

def isDisorder : Paired α → Bool
  | row .. => false
  | disorder .. => true

end Paired

/-- The lines that two files have in common or not. -/
def compared (k : OrderCheck) :
    Nat → Bool → Side String → Side String → List (Paired String)
  | 0, _, _, _ => []
  | fuel + 1, unpaired, l, r =>
    let isAfter (x y : String) : Bool := KeyOrder.compareChars x.toList y.toList == .gt
    let goOn (row : Paired String) (unpaired takesLeft takesRight : Bool) : List (Paired String) :=
      let checks := k.holds unpaired
      let (l, offL) := if takesLeft then l.pass checks true isAfter else (l, none)
      let (r, offR) := if takesRight then r.pass checks true isAfter else (r, none)
      row :: Paired.ofOff true offL ++ Paired.ofOff false offR ++ compared k fuel unpaired l r
    match l.rest, r.rest with
    | [], [] => []
    | x :: _, [] => goOn (.row (some x) none) true true false
    | [], y :: _ => goOn (.row none (some y)) true false true
    | x :: _, y :: _ =>
      match KeyOrder.compareChars x.toList y.toList with
      | .lt => goOn (.row (some x) none) true true false
      | .gt => goOn (.row none (some y)) true false true
      | .eq => goOn (.row (some x) (some y)) unpaired true true

/-- Shows what comes of two files, up to a line out of order if that ends everything, and finishes.
If there has been such a line, there is a complaint in the end. -/
def showPaired {α : Type} (k : OrderCheck) (display : Option α → Option α → Job Unit)
    (complaint : Bool → Nat → α → String) (finish : Job Unit) (rows : List (Paired α)) :
    Job Unit := do
  each (fun (p : Paired α) =>
    match p with
    | .row l r => display l r
    | .disorder isFirst n line => do
      fault 1 (complaint isFirst n line)
      if k = .always then exit 1) rows
  finish
  if rows.any Paired.isDisorder then fault 1 "input is not in sorted order"

def bothFiles (a : Arguments) : Job (String × String) :=
  match a.operands with
  | [] => misuse 1 "missing operand"
  | [one] => misuse 1 ("missing operand after " ++ quoted one)
  | one :: two :: _ => do
    allowOperands 1 2 a
    pure (one, two)

/-- Compares the lines of two files that are in order. -/
def comm (args : List String) : Job Unit := do
  let known : List Known :=
    [.flag "1" "1", .flag "2" "2", .flag "3" "3", .flag "" "check-order", .flag "" "nocheck-order",
      .value "" "output-delimiter", .flag "" "total", .flag "z" "zero-terminated"]
  let a ← arguments 1 known args
  let (one, two) ← bothFiles a
  let separator := if a.has "zero-terminated" then Char.ofNat 0 else '\n'
  let some first ← contentOf (plainly 1) one | exit 1
  let some second ← contentOf (plainly 1) two | exit 1
  let tab := (a.last? "output-delimiter").getD "\t"
  let shown (column : Nat) (text : String) : Job Unit :=
    let indent := String.join ((["1", "2"].take (column - 1)).map fun c =>
      if a.has c then "" else tab)
    if a.has (toString column) then pure () else print ((indent ++ text).push separator)
  let lines (s : String) : List String := (linesOf separator s).map (·.text)
  let l := lines first
  let r := lines second
  let k := OrderCheck.of a
  let rows := compared k (l.length + r.length + 1) false { rest := l } { rest := r }
  let count (isIt : Option String → Option String → Bool) : String :=
    toString (rows.filter fun
      | .row l r => isIt l r
      | .disorder .. => false).length
  let total := Text.join tab
    [count fun _ r => r.isNone, count fun l _ => l.isNone, count fun l r => l.isSome && r.isSome,
      "total"]
  let display : Option String → Option String → Job Unit
    | some x, none => shown 1 x
    | none, some y => shown 2 y
    | _, some y => shown 3 y
    | none, none => pure ()
  let complaint (isFirst : Bool) (_ : Nat) (_ : String) : String :=
    let n := if isFirst then "1" else "2"
    s!"file {n} is not in sorted order"
  showPaired k display complaint
    (if a.has "total" then print (total.push separator) else pure ()) rows

/-- A line and its fields. -/
structure Row where
  text : String
  fields : List String

/-- A field of a joined line. -/
inductive Cell where
  | key
  | field (isFirst : Bool) (number : Nat)
  deriving DecidableEq, Repr

/-- How two files are joined. -/
structure Joining where
  separator : Option Char := none
  folded : Bool := false
  /-- The numbers of the fields that hold the keys. -/
  left : Nat := 1
  right : Nat := 1
  /-- Whether lines without a partner are shown. -/
  showsLeft : Bool := false
  showsRight : Bool := false
  /-- Whether lines with a partner are shown. -/
  showsPairs : Bool := true
  check : OrderCheck := .whenUnpaired
  /-- What stands for an empty field. -/
  blank : String := ""
  /-- The fields of a joined line; without them they are the key and all others. -/
  cells : Option (List Cell) := none

namespace Joining

def row (j : Joining) (line : String) : Row :=
  let fields := match j.separator with
    | some c => (Text.splitAt c line.toList).map String.ofList
    | none => ((Text.splitAt ' ' (line.toList.map fun c => if c == '\t' then ' ' else c)).filter
        fun w => !w.isEmpty).map String.ofList
  ⟨line, fields⟩

/-- The text of a field as it is compared. -/
def key (j : Joining) (field : Nat) (r : Row) : List Char :=
  let text := r.fields.getD (field - 1) ""
  if j.folded then text.toList.map Char.toUpper else text.toList

/-- The order of two lines by their keys. -/
def compare (j : Joining) (field1 field2 : Nat) (x y : Row) : Ordering :=
  KeyOrder.compareChars (j.key field1 x) (j.key field2 y)

/-- The text of a field in a joined line. -/
def cell (j : Joining) (r : Option Row) (number : Nat) : String :=
  match r.bind fun r => r.fields[number - 1]? with
  | some s => if s.isEmpty then j.blank else s
  | none => j.blank

def line (j : Joining) (x y : Option Row) : String :=
  let others (field : Nat) (r : Option Row) : List String :=
    let count := ((r.map (·.fields)).getD []).length
    ((List.range count).filter fun i => i + 1 != field).map fun i => j.cell r (i + 1)
  let key := match x with
    | some _ => j.cell x j.left
    | none => j.cell y j.right
  let cells := match j.cells with
    | none => key :: others j.left x ++ others j.right y
    | some cells => cells.map fun
      | .key => key
      | .field true n => j.cell x n
      | .field false n => j.cell y n
  Text.join ((j.separator.map String.singleton).getD " ") cells

/-- What is left of one file when the other is at its end. Its lines are shown if they are to be,
and otherwise looked through for one that is out of order. -/
def tail (j : Joining) (isFirst unpaired : Bool) : Nat → Side Row → List (Paired Row)
  | 0, _ => []
  | fuel + 1, s =>
    let isShown := if isFirst then j.showsLeft else j.showsRight
    let field := if isFirst then j.left else j.right
    match s.rest with
    | [] => []
    | x :: _ =>
      let shown : List (Paired Row) :=
        if !isShown then [] else if isFirst then [.row (some x) none] else [.row none (some x)]
      if s.isNoted && !isShown then shown
      else
        let isAfter (x y : Row) : Bool := j.compare field field x y == .gt
        let (s, off) := s.pass (j.check.holds unpaired) false isAfter
        shown ++ Paired.ofOff isFirst off ++ j.tail isFirst unpaired fuel s

def rows (j : Joining) : Nat → Bool → Side Row → Side Row → List (Paired Row)
  | 0, _, _, _ => []
  | fuel + 1, unpaired, l, r =>
    let isAfterL (x y : Row) : Bool := j.compare j.left j.left x y == .gt
    let isAfterR (x y : Row) : Bool := j.compare j.right j.right x y == .gt
    let checks := j.check.holds unpaired
    match l.rest, r.rest with
    | x :: _, y :: _ =>
      match j.compare j.left j.right x y with
      | .lt =>
        let (l, off) := l.pass checks false isAfterL
        let shown : List (Paired Row) := if j.showsLeft then [.row (some x) none] else []
        shown ++ Paired.ofOff true off ++ j.rows fuel true l r
      | .gt =>
        let (r, off) := r.pass checks false isAfterR
        let shown : List (Paired Row) := if j.showsRight then [.row none (some y)] else []
        shown ++ Paired.ofOff false off ++ j.rows fuel true l r
      | .eq =>
        let sizeL := l.rest.length
        let sizeR := r.rest.length
        let (l', offL) := l.passLike checks isAfterL (fun z => j.compare j.left j.right z y == .eq)
          sizeL []
        let (r', offR) := r.passLike checks isAfterR (fun z => j.compare j.left j.right x z == .eq)
          sizeR []
        let xs := l.rest.take (sizeL - l'.rest.length)
        let ys := r.rest.take (sizeR - r'.rest.length)
        let pairs : List (Paired Row) :=
          if j.showsPairs then xs.flatMap fun x => ys.map fun y => .row (some x) (some y) else []
        offL.reverse.flatMap (fun o => Paired.ofOff true (some o)) ++
          offR.reverse.flatMap (fun o => Paired.ofOff false (some o)) ++ pairs ++
          j.rows fuel unpaired l' r'
    | _, _ =>
      let looksOn := j.check != .never && !(l.isNoted && r.isNoted)
      let ofSide (isFirst isShown : Bool) (s : Side Row) : List (Paired Row) :=
        if isShown || looksOn then j.tail isFirst unpaired (s.rest.length + 1) s else []
      ofSide true j.showsLeft l ++ ofSide false j.showsRight r

def readCells (text : String) : Except String (List Cell) :=
  let pieces := Text.splitAt ',' (text.toList.map fun c => if c == ' ' || c == '\t' then ',' else c)
  pieces.mapM fun cs =>
    let numbered (isFirst : Bool) (n : List Char) : Except String Cell :=
      match (Text.digits? n).filter (0 < ·) with
      | some n => .ok (.field isFirst n)
      | none => .error ("invalid field number: " ++ quoted (String.ofList n))
    match cs with
    | ['0'] => .ok .key
    | '1' :: '.' :: n => numbered true n
    | '2' :: '.' :: n => numbered false n
    | '1' :: _ | '2' :: _ | '0' :: _ =>
      .error ("invalid field specifier: " ++ quoted (String.ofList cs))
    | _ => .error ("invalid file number in field spec: " ++ quoted (String.ofList cs))

/-- The way of joining with what an option adds to it; `chosen` are the fields of the keys that
have been named. -/
def add (j : Joining) (chosen : Option Nat × Option Nat) (key value : String) :
    Except String (Joining × (Option Nat × Option Nat)) := do
  let field : Except String Nat := match (Text.digits? value.toList).filter (0 < ·) with
    | some n => .ok n
    | none => .error ("invalid field number: " ++ quoted value)
  let agree (old : Option Nat) (n : Nat) : Except String Unit :=
    match old with
    | some o =>
      let a := o - 1
      let b := n - 1
      if o = n then .ok () else .error s!"incompatible join fields {a}, {b}"
    | none => .ok ()
  let alone : Except String (Bool × Bool) := match value with
    | "1" => .ok (true, j.showsRight)
    | "2" => .ok (j.showsLeft, true)
    | _ => .error ("invalid file number: " ++ quoted value)
  match key with
  | "1" => do
    let n ← field
    agree chosen.1 n
    pure ({ j with left := n }, (some n, chosen.2))
  | "2" => do
    let n ← field
    agree chosen.2 n
    pure ({ j with right := n }, (chosen.1, some n))
  | "j" => do
    let n ← field
    agree chosen.1 n
    agree chosen.2 n
    pure ({ j with left := n, right := n }, (some n, some n))
  | "a" | "v" => do
    let (l, r) ← alone
    pure ({ j with showsLeft := l, showsRight := r, showsPairs := j.showsPairs && key = "a" },
      chosen)
  | "e" => pure ({ j with blank := value }, chosen)
  | "ignore-case" => pure ({ j with folded := true }, chosen)
  | "o" =>
    if value = "auto" then pure (j, chosen)
    else do
      let cells ← readCells value
      pure ({ j with cells := some (j.cells.getD [] ++ cells) }, chosen)
  | "t" =>
    match value.toList with
    | [] => pure ({ j with separator := some '\n' }, chosen)
    | [c] => pure ({ j with separator := some c }, chosen)
    | ['\\', '0'] => pure ({ j with separator := some (Char.ofNat 0) }, chosen)
    | _ => throw ("multi-character tab " ++ quoted value)
  | _ => pure (j, chosen)

end Joining

/-- Joins the lines of two files that have the same key. -/
def join (args : List String) : Job Unit := do
  let known : List Known :=
    [.value "a" "a", .value "e" "e", .flag "i" "ignore-case", .value "j" "j", .value "o" "o",
      .value "t" "t", .value "v" "v", .value "1" "1", .value "2" "2", .flag "" "check-order",
      .flag "" "nocheck-order", .flag "" "header", .flag "z" "zero-terminated"]
  let a ← arguments 1 known args
  let start : Joining := { check := .of a }
  match a.options.foldlM
      (fun ((j, chosen) : Joining × (Option Nat × Option Nat)) (o : String × String) =>
        j.add chosen o.1 o.2) (start, (none, none)) with
  | .error text => fail 1 text
  | .ok (j, _) =>
    let (one, two) ← bothFiles a
    if one = "-" && two = "-" then fail 1 "both files cannot be standard input"
    let opened (name : String) : Job Nat := do
      match ← openInput name with
      | .ok d => pure d
      | .error e => fail 1 (about name e)
    let first ← opened one
    let second ← opened two
    let separator := if a.has "zero-terminated" then Char.ofNat 0 else '\n'
    let rowsOf (d : Nat) : Job (List Row) := do
      match ← act (Act.readAll d) with
      | .ok text => pure ((linesOf separator text).map fun l => j.row l.text)
      | .error e => fail 1 (because "read error" e)
    let l ← rowsOf first
    let r ← rowsOf second
    let hasHeader := a.has "header" && !(l.isEmpty && r.isEmpty)
    let j := if (a.values "o").contains "auto" then
        let others (isFirst : Bool) (field : Nat) (rows : List Row) : List Cell :=
          let count := ((rows.head?.map (·.fields)).getD []).length
          ((List.range count).filter fun i => i + 1 != field).map fun i => .field isFirst (i + 1)
        { j with cells := some (.key :: others true j.left l ++ others false j.right r) }
      else j
    let fuel := l.length + r.length + 1
    let rows := if hasHeader then
        .row l.head? r.head? ::
          j.rows fuel false { rest := l.drop 1, number := 2 } { rest := r.drop 1, number := 2 }
      else j.rows fuel false { rest := l } { rest := r }
    showPaired j.check (fun x y => print ((j.line x y).push separator))
      (fun isFirst n (line : Row) =>
        let name := if isFirst then one else two
        let text := line.text
        s!"{name}:{n}: is not sorted: {text}") (pure ()) rows

end PipelineRunner.Utility
