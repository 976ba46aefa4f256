import PipelineRunner.Number.FloatText
import PipelineRunner.Utility.Input
import PipelineRunner.Utility.Viewing

/-!
Utilities that put lines in order, and that go through runs of equal lines.
-/

namespace PipelineRunner.Utility

open Host Text Job

/-- By what two texts are compared. -/
inductive Comparison where
  | bytes
  | numbers
  /-- Numbers that may have an exponent. -/
  | general
  /-- Numbers with a letter for their unit. -/
  | units
  | months
  | versions
  deriving DecidableEq, Repr

/-- How keys are compared. -/
structure KeyOrder where
  comparison : Comparison := .bytes
  folded : Bool := false
  /-- Whether only blanks, letters and digits count. -/
  dictionary : Bool := false
  /-- Whether only characters count that can be shown. -/
  printable : Bool := false
  reversed : Bool := false
  skipsStart : Bool := false
  skipsEnd : Bool := false
  deriving DecidableEq, Repr

/-- A part of a line by which it is compared: from a place in a field to another one. -/
structure SortKey where
  field : Nat := 0
  char : Nat := 0
  endField : Option Nat := none
  endChar : Nat := 0
  ordering : KeyOrder := {}
  deriving Repr

namespace KeyOrder

/-- The ordering with what a letter adds to it. -/
def add? (o : KeyOrder) (atEnd : Bool) (c : Char) : Option KeyOrder :=
  match c with
  | 'b' => some (if atEnd then { o with skipsEnd := true } else { o with skipsStart := true })
  | 'd' => some { o with dictionary := true }
  | 'f' => some { o with folded := true }
  | 'g' => some { o with comparison := .general }
  | 'h' => some { o with comparison := .units }
  | 'i' => some { o with printable := true }
  | 'M' => some { o with comparison := .months }
  | 'n' => some { o with comparison := .numbers }
  | 'V' => some { o with comparison := .versions }
  | 'r' => some { o with reversed := true }
  | 'R' => some o
  | _ => none

/-- Whether nothing special has been asked for. -/
def isPlain (o : KeyOrder) : Bool := o == {}

def isBlank (c : Char) : Bool := c == ' ' || c == '\t' || c == '\n'

/-- The number at the head of a text. -/
def leading (s : String) : Quantity :=
  let cs := s.toList.dropWhile isBlank
  let (isNegative, cs) : Bool × List Char := match cs with
    | '-' :: cs => (true, cs)
    | cs => (false, cs)
  let whole := cs.takeWhile Char.isDigit
  let rest := cs.drop whole.length
  let fraction := match rest with
    | '.' :: f => f.takeWhile Char.isDigit
    | _ => []
  let n : Nat := (whole ++ fraction).foldl (fun n c => n * 10 + (c.toNat - 48)) 0
  ⟨if isNegative then -(n : Int) else n, fraction.length⟩

def compareQuantities (a b : Quantity) : Ordering :=
  let places := Nat.max a.places b.places
  compare (a.partsAt places) (b.partsAt places)

/-- The rank of the unit behind the number at the head of a text. -/
def unitRank (s : String) : Nat :=
  let cs := (s.toList.dropWhile isBlank).dropWhile fun c => c == '-' || c.isDigit || c == '.'
  match cs with
  | c :: _ => if c = 'k' then 1 else ("KMGTPEZYRQ".toList.findIdx? (· == c)).elim 0 (· + 1)
  | [] => 0

/-- The order of two numbers with units: the unit counts first. -/
def compareUnits (a b : String) : Ordering :=
  let sign (q : Quantity) : Int := if q.parts < 0 then -1 else if q.parts = 0 then 0 else 1
  let m := leading a
  let n := leading b
  let ranked := (compare (sign m) (sign n)).then
    (if sign m < 0 then compare (unitRank b) (unitRank a) else compare (unitRank a) (unitRank b))
  ranked.then (compareQuantities m n)

/-- The place of the month at the head of a text in the year; none comes first. -/
def monthRank (s : String) : Nat :=
  let name := String.ofList ((s.toList.dropWhile isBlank).take 3)
  if name.length < 3 then 0 else ((Calendar.position? Calendar.months name).map (· + 1)).getD 0

/-- The order of two floating-point numbers; what is no number comes first. -/
def compareGeneral (a b : String) : Ordering :=
  let read (s : String) : Option Float :=
    (Number.Scan.of? (s.toList.dropWhile isBlank)).map Number.Scan.toFloat
  match read a, read b with
  | none, none => .eq
  | none, some _ => .lt
  | some _, none => .gt
  | some x, some y =>
    if x < y then .lt else if y < x then .gt
    else if x == y then .eq else compare (x == x) (y == y)

/-- The characters of a text that count. -/
def kept (o : KeyOrder) (s : String) : List Char :=
  let cs := s.toList
  let cs := if o.dictionary then cs.filter fun c => c.isAlphanum || isBlank c else cs
  let cs := if o.printable then cs.filter fun c => 32 ≤ c.toNat && c.toNat < 127 else cs
  if o.folded then cs.map Char.toUpper else cs

def compareChars : List Char → List Char → Ordering
  | [], [] => .eq
  | [], _ => .lt
  | _, [] => .gt
  | a :: as, b :: bs => if a < b then .lt else if b < a then .gt else compareChars as bs

def compareTexts (o : KeyOrder) (a b : String) : Ordering :=
  match o.comparison with
  | .bytes => compareChars (o.kept a) (o.kept b)
  | .numbers => compareQuantities (leading a) (leading b)
  | .general => compareGeneral a b
  | .units => compareUnits a b
  | .months => compare (monthRank a) (monthRank b)
  | .versions =>
    let m := versionKey a
    let n := versionKey b
    if versionLe m n then (if versionLe n m then .eq else .lt) else .gt

def compareKeys (o : KeyOrder) (a b : String) : Ordering :=
  let r := o.compareTexts a b
  if o.reversed then r.swap else r

def letters (o : KeyOrder) : String :=
  (if o.dictionary then "d" else "") ++ (if o.folded then "f" else "") ++
    (match o.comparison with
      | .general => "g"
      | .units => "h"
      | _ => "") ++ (if o.printable then "i" else "") ++
    (match o.comparison with
      | .months => "M"
      | .numbers => "n"
      | .versions => "V"
      | _ => "")

end KeyOrder

namespace SortKey

def skipFields (separator : Option Char) : Nat → List Char → List Char
  | 0, cs => cs
  | n + 1, cs =>
    match separator with
    | some t => skipFields separator n ((cs.dropWhile (· != t)).drop 1)
    | none =>
      let blanks := cs.dropWhile KeyOrder.isBlank
      skipFields separator n (blanks.dropWhile fun c => !KeyOrder.isBlank c)

/-- What stands behind the end of so many fields. -/
def skipToEnd (separator : Option Char) (hasChar : Bool) : Nat → List Char → List Char
  | 0, cs => cs
  | n + 1, cs =>
    match separator with
    | some t =>
      let rest := cs.dropWhile (· != t)
      skipToEnd separator hasChar n (if n != 0 || hasChar then rest.drop 1 else rest)
    | none => skipToEnd separator hasChar n (skipFields none 1 cs)

def of (k : SortKey) (separator : Option Char) (line : String) : String :=
  let cs := line.toList
  let start := skipFields separator k.field cs
  let start := if k.ordering.skipsStart then start.dropWhile KeyOrder.isBlank else start
  let start := start.drop k.char
  match k.endField with
  | none => String.ofList start
  | some field =>
    let behind :=
      if k.endChar = 0 then skipToEnd separator false (field + 1) cs
      else
        let rest := skipToEnd separator true field cs
        let rest := if k.ordering.skipsEnd then rest.dropWhile KeyOrder.isBlank else rest
        rest.drop k.endChar
    String.ofList (start.take (start.length - behind.length))

/-- Reads a field and a character, with the letters behind them. -/
def readPlace (text : String) (cs : List Char) (atEnd : Bool) (o : KeyOrder) :
    Except String (Nat × Nat × KeyOrder × List Char) := do
  let what := if atEnd then "after ‘,’" else "at field start"
  let digits := cs.takeWhile Char.isDigit
  if digits.isEmpty then
    throw (Bytes.ofText s!"invalid number {what}: invalid count at start of " ++ quoted text)
  let field := (Text.digits? digits).getD 0
  if field = 0 then throw ("field number is zero: invalid field specification " ++ quoted text)
  let rest := cs.drop digits.length
  let (char, rest) ← match rest with
    | '.' :: rest =>
      let digits := rest.takeWhile Char.isDigit
      if digits.isEmpty then
        throw (Bytes.ofText "invalid number after ‘.’: invalid count at start of " ++
          quoted (String.ofList rest))
      else pure ((Text.digits? digits).getD 0, rest.drop digits.length)
    | rest => pure (if atEnd then 0 else 1, rest)
  if char = 0 && !atEnd then
    throw ("character offset is zero: invalid field specification " ++ quoted text)
  let letters := rest.takeWhile (· != ',')
  match letters.foldlM (fun o c => o.add? atEnd c) o with
  | some o => pure (field - 1, char, o, rest.drop letters.length)
  | none => throw ("stray character in field spec: invalid field specification " ++ quoted text)

def read (text : String) : Except String SortKey := do
  let (field, char, o, rest) ← readPlace text text.toList false {}
  match rest with
  | [] => pure ⟨field, char - 1, none, 0, o⟩
  | _ :: rest =>
    let (endField, endChar, o, _) ← readPlace text rest true o
    pure ⟨field, char - 1, some endField, endChar, o⟩

end SortKey

/-- How lines are sorted. -/
structure Sorting where
  separator : Option Char
  keys : List SortKey
  reversed : Bool
  /-- Whether lines count as the same that have the same keys. -/
  byKeysOnly : Bool

namespace Sorting

/-- The order of two lines by their keys. -/
def compareByKeys (s : Sorting) (a b : String) : Ordering :=
  s.keys.foldl (fun r k => r.then
    (k.ordering.compareKeys (k.of s.separator a) (k.of s.separator b))) .eq

def compareLines (s : Sorting) (a b : String) : Ordering :=
  let r := s.compareByKeys a b
  if s.byKeysOnly && !s.keys.isEmpty then r
  else
    let last := KeyOrder.compareChars a.toList b.toList
    r.then (if s.reversed then last.swap else last)

/-- The first two neighbours that are not in order, with the place of the second one. -/
def disorder? (s : Sorting) (strictly : Bool) : Nat → List String → Option (Nat × String)
  | i, a :: b :: rest =>
    let r := s.compareLines a b
    if r = .gt || (strictly && r = .eq) then some (i + 2, b)
    else s.disorder? strictly (i + 1) (b :: rest)
  | _, _ => none

/-- Drops every line that is the same as the one in front of it; those kept stand backwards. -/
def distinct (s : Sorting) : List String → List String → List String
  | done, a :: b :: rest =>
    if s.compareLines a b = .eq then distinct s done (a :: rest)
    else distinct s (a :: done) (b :: rest)
  | done, [a] => (a :: done).reverse
  | done, [] => done.reverse

end Sorting

def sortOptions : List Known :=
  [.flag "b" "ignore-leading-blanks", .flag "d" "dictionary-order", .flag "f" "ignore-case",
    .flag "g" "general-numeric-sort", .flag "h" "human-numeric-sort",
    .flag "i" "ignore-nonprinting",
    .flag "M" "month-sort", .flag "n" "numeric-sort", .flag "R" "random-sort", .flag "r" "reverse",
    .flag "V" "version-sort", .value "" "sort", .loose "" "check", .flag "c" "c", .flag "C" "C",
    .value "k" "key", .flag "m" "merge", .value "o" "output", .flag "s" "stable",
    .value "S" "buffer-size", .value "t" "field-separator", .value "T" "temporary-directory",
    .flag "u" "unique", .flag "z" "zero-terminated", .value "" "parallel", .flag "" "debug",
    .value "" "batch-size"]

/-- The letters of the orderings that some options ask for. -/
def orderingLetters (a : Arguments) : List Char :=
  let letters : List (String × Char) :=
    [("ignore-leading-blanks", 'b'), ("dictionary-order", 'd'), ("ignore-case", 'f'),
      ("general-numeric-sort", 'g'), ("human-numeric-sort", 'h'), ("ignore-nonprinting", 'i'),
      ("month-sort", 'M'), ("numeric-sort", 'n'), ("reverse", 'r'), ("version-sort", 'V')]
  let named : List (String × Char) :=
    [("general-numeric", 'g'), ("human-numeric", 'h'), ("month", 'M'), ("numeric", 'n'),
      ("version", 'V')]
  (letters.filter fun l => a.has l.1).map (·.2) ++
    ((a.last? "sort").bind fun s => List.lookup s named).toList

def sortingOf (a : Arguments) : Except String Sorting := do
  let o := (orderingLetters a).foldl (fun o c =>
    let o := (o.add? false c).getD o
    if c = 'b' then { o with skipsEnd := true } else o) ({} : KeyOrder)
  let keys ← (a.values "key").mapM SortKey.read
  let keys := keys.map fun k => if k.ordering.isPlain then { k with ordering := o } else k
  let keys := if keys.isEmpty && !({ o with reversed := false }).isPlain then
      [({ ordering := o } : SortKey)]
    else keys
  for k in keys do
    let o := k.ordering
    if o.comparison != .bytes && (o.dictionary || o.printable) then
      let letters := o.letters
      throw s!"options '-{letters}' are incompatible"
  let numeric := (orderingLetters a).filter ['g', 'h', 'M', 'n', 'V'].contains
  if 1 < numeric.length then
    let letters := String.ofList (numeric.mergeSort fun a b => a.toLower ≤ b.toLower)
    throw s!"options '-{letters}' are incompatible"
  let separator ← match a.last? "field-separator" with
    | none => pure none
    | some "\\0" => pure (some (Char.ofNat 0))
    | some text =>
      match text.toList with
      | [c] => pure (some c)
      | [] => throw "empty tab"
      | _ => throw ("multi-character tab " ++ quoted text)
  pure ⟨separator, keys, a.has "reverse", a.has "stable" || a.has "unique"⟩

def sort (args : List String) : Job Unit := do
  let a ← arguments 2 sortOptions args
  match sortingOf a with
  | .error text => fail 2 text
  | .ok s =>
    let separator := if a.has "zero-terminated" then Char.ofNat 0 else '\n'
    let complaints : Complaints :=
      ⟨2, fun name e => "cannot read: " ++ about name e,
        fun name e => "read failed: " ++ about name e⟩
    let quiet := a.has "C" || ["quiet", "silent"].contains ((a.last? "check").getD "")
    let isCheck := a.has "c" || a.has "check" || quiet
    match a.operands with
    | _ :: extra :: _ =>
      if isCheck then
        let letter := if quiet then "C" else "c"
        fail 2 ("extra operand " ++ inShellQuotes extra ++ s!" not allowed with -{letter}")
    | _ => pure ()
    let names := inputs a.operands
    let files ← collect (fun name => do
      match ← contentOf complaints name with
      | none => exit 2
      | some text => pure ((linesOf separator text).map (·.text))) names
    if isCheck then
      match s.disorder? (a.has "unique") 0 files.flatten with
      | none => pure ()
      | some (n, line) =>
        if !quiet then
          let name := names.headD "-"
          warn s!"{name}:{n}: disorder: {line}"
        exit 1
    else
      let le (x y : String) : Bool := s.compareLines x y != .gt
      let sorted :=
        if a.has "merge" then files.foldl (fun done f => List.merge done f le) []
        else files.flatten.mergeSort le
      let kept := if a.has "unique" then s.distinct [] sorted else sorted
      match a.last? "output" with
      | none => each (fun l => print (l.push separator)) kept
      | some name =>
        match ← act (Act.openFile name .write) with
        | .error e => fail 2 ("open failed: " ++ about name e)
        | .ok d =>
          act (Act.print d (String.join (kept.map fun (l : String) => l.push separator)))

/-- What has been seen of a run of equal lines. -/
structure Run where
  first : String
  count : Nat
  /-- Whether a run has been shown in front of this one. -/
  isLater : Bool

/-- Shows one line for every run of equal lines. -/
def uniq (args : List String) : Job Unit := do
  let known : List Known :=
    [.flag "c" "count", .flag "d" "repeated", .flag "D" "D", .loose "" "all-repeated",
      .value "f" "skip-fields", .loose "" "group", .flag "i" "ignore-case", .value "s" "skip-chars",
      .flag "u" "unique", .value "w" "check-chars", .flag "z" "zero-terminated"]
  let a ← arguments 1 known args
  allowOperands 1 2 a
  let number (key what : String) : Job (Option Nat) :=
    match a.last? key with
    | none => pure none
    | some text =>
      match Text.digits? text.toList with
      | some n => pure (some n)
      | none => fail 1 s!"{text}: invalid number of {what}"
  let fields ← number "skip-fields" "fields to skip"
  let chars ← number "skip-chars" "bytes to skip"
  let width ← number "check-chars" "bytes to compare"
  let separator := if a.has "zero-terminated" then Char.ofNat 0 else '\n'
  let key (text : String) : List Char :=
    let cs := (SortKey.skipFields none (fields.getD 0) text.toList).drop (chars.getD 0)
    let cs := match width with
      | some n => cs.take n
      | none => cs
    if a.has "ignore-case" then cs.map Char.toUpper else cs
  let grouping := (a.last? "group").map fun g => if g.isEmpty then "separate" else g
  let showsAll := a.has "D" || a.has "all-repeated"
  if grouping.isSome && (showsAll || ["count", "repeated", "unique"].any a.has) then
    misuse 1 "--group is mutually exclusive with -c/-d/-D/-u"
  if a.has "count" && showsAll then
    misuse 1 "printing all duplicated lines and repeat counts is meaningless"
  let shown (l : String) : Job Unit := print (l.push separator)
  let finish (r : Run) : Job Unit :=
    if showsAll || grouping.isSome then pure ()
    else if (a.has "repeated" && r.count = 1) || (a.has "unique" && r.count != 1) then pure ()
    else if a.has "count" then shown (rightAligned 7 (toString r.count) ++ " " ++ r.first)
    else shown r.first
  let output := a.operands.getD 1 "-"
  if output != "-" then
    match ← act (Act.openFile output .write) with
    | .error e => fail 1 (about output e)
    | .ok d =>
      let _ : Except FileError Unit ← ask (.copy d 1)
  withInput ⟨1, about, fun name e => because ("error reading " ++ inShellQuotes name) e⟩
    (a.operands.headD "-") fun d => do
      let result ← eachLine ⟨d, separator, Act.blockSize, [], [], false⟩
        (fun (r : Option Run) l => do
          match r with
          | none =>
            if grouping = some "prepend" || grouping = some "both" then shown ""
            if grouping.isSome then shown l.text
            pure (.again (some ⟨l.text, 1, false⟩))
          | some r =>
            if key r.first == key l.text then
              if showsAll then
                if r.count = 1 then
                  if r.isLater && a.last? "all-repeated" == some "separate" then shown ""
                  if a.last? "all-repeated" == some "prepend" then shown ""
                  shown r.first
                shown l.text
              if grouping.isSome then shown l.text
              pure (.again (some { r with count := r.count + 1 }))
            else
              finish r
              if grouping.isSome then
                shown ""
                shown l.text
              pure (.again (some ⟨l.text, 1, r.isLater || 1 < r.count⟩))) none
      match result with
      | .error e => pure (.error e)
      | .ok r =>
        match r with
        | some r =>
          finish r
          if grouping = some "append" || grouping = some "both" then shown ""
        | none => pure ()
        pure (.ok ())

end PipelineRunner.Utility
