import PipelineRunner.Utility.Files

/-!
Utilities that look at single bytes: they show them as numbers, and compare them.
-/

namespace PipelineRunner.Utility

open Host Text Job

/-- How bytes are shown. -/
inductive DumpKind where
  | named
  | chars
  | number (base : Nat) (signed : Bool)
  deriving DecidableEq

/-- A layout of a dump: what is shown, of how many bytes each. -/
structure DumpStyle where
  kind : DumpKind
  size : Nat
  shows : Bool := false

namespace DumpStyle

def width (s : DumpStyle) : Nat :=
  match s.kind with
  | .named | .chars => 3
  | .number 16 _ => 2 * s.size
  | .number 8 _ => (8 * s.size + 2) / 3
  | .number _ signed =>
    let digits := match s.size with
      | 1 => 3
      | 2 => 5
      | 4 => 10
      | _ => 20
    if signed then (if s.size = 8 then 20 else digits + 1) else digits

def names : List String :=
  ["nul", "soh", "stx", "etx", "eot", "enq", "ack", "bel", "bs", "ht", "nl", "vt", "ff", "cr", "so",
    "si", "dle", "dc1", "dc2", "dc3", "dc4", "nak", "syn", "etb", "can", "em", "sub", "esc", "fs",
    "gs", "rs", "us", "sp"]

def cell (s : DumpStyle) (bytes : List Char) : String :=
  let n := bytes.reverse.foldl (fun n c => n * 256 + c.toNat) 0
  match s.kind with
  | .named =>
    let n := n % 128
    if n = 127 then "del" else names.getD n (String.singleton (Char.ofNat n))
  | .chars =>
    let c := Char.ofNat n
    if n = 0 then "\\0"
    else if 32 ≤ n && n < 127 then String.singleton c
    else
      match escapeOf c with
      | '\\' :: e :: [] => String.ofList ['\\', e]
      | _ => String.ofList (threeOctal n)
  | .number base signed =>
    let limit := Nat.pow 2 (8 * s.size)
    if signed then
      if limit / 2 ≤ n then "-" ++ toString (limit - n) else toString n
    else
      let digits := String.ofList (Nat.toDigits base n)
      if base = 10 then digits else Bytes.fill '0' (s.width - digits.length) ++ digits

def ofType (text : String) : Nat → List Char → Except String (List DumpStyle)
  | 0, _ => .ok []
  | _, [] => .ok []
  | fuel + 1, c :: cs => do
    let shown (cs : List Char) : Bool × List Char := match cs with
      | 'z' :: rest => (true, rest)
      | cs => (false, cs)
    match c with
    | 'a' | 'c' =>
      let (shows, rest) := shown cs
      let style : DumpStyle := ⟨if c = 'a' then .named else .chars, 1, shows⟩
      return style :: (← ofType text fuel rest)
    | 'd' | 'o' | 'u' | 'x' =>
      let (size, rest) : Nat × List Char := match cs with
        | '1' :: r | 'C' :: r => (1, r)
        | '2' :: r | 'S' :: r => (2, r)
        | '4' :: r | 'I' :: r => (4, r)
        | '8' :: r | 'L' :: r => (8, r)
        | r => (4, r)
      let kind : DumpKind := match c with
        | 'd' => .number 10 true
        | 'o' => .number 8 false
        | 'u' => .number 10 false
        | _ => .number 16 false
      let (shows, rest) := shown rest
      return (⟨kind, size, shows⟩ : DumpStyle) :: (← ofType text fuel rest)
    | c =>
      let letter := String.singleton c
      throw (s!"invalid character '{letter}' in type string " ++ quoted text)

end DumpStyle

/-- Cuts a list into pieces of a size, the last of which is filled up. -/
def filledChunks (size : Nat) : Nat → List Char → List (List Char)
  | 0, _ => []
  | _, [] => []
  | fuel + 1, cs =>
    let here := cs.take size
    (here ++ List.replicate (size - here.length) (Char.ofNat 0)) ::
      filledChunks size fuel (cs.drop size)

def dumpStyles (a : Arguments) : Except String (List DumpStyle) := do
  let styles ← a.options.mapM fun (key, value) =>
    match key with
    | "format" => DumpStyle.ofType value (value.length + 1) value.toList
    | "a" => pure [⟨.named, 1, false⟩]
    | "b" => pure [⟨.number 8 false, 1, false⟩]
    | "c" => pure [⟨.chars, 1, false⟩]
    | "d" => pure [⟨.number 10 false, 2, false⟩]
    | "i" => pure [⟨.number 10 true, 4, false⟩]
    | "l" => pure [⟨.number 10 true, 8, false⟩]
    | "o" => pure [⟨.number 8 false, 2, false⟩]
    | "s" => pure [⟨.number 10 true, 2, false⟩]
    | "x" => pure [⟨.number 16 false, 2, false⟩]
    | _ => pure []
  let styles := styles.flatten
  pure (if styles.isEmpty then [⟨.number 8 false, 2, false⟩] else styles)

def od (args : List String) : Job Unit := do
  let known : List Known :=
    [.value "A" "address-radix", .value "j" "skip-bytes", .value "N" "read-bytes",
      .value "t" "format", .flag "v" "output-duplicates", .loose "w" "width",
      .loose "S" "strings"] ++
    Known.flags "abcdfilosx"
  let a ← arguments 1 known args
  match dumpStyles a with
  | .error text => fail 1 text
  | .ok styles =>
    let texts ← collect (contentOf (plainly 1)) (inputs a.operands)
    let all := String.join (texts.map (·.getD ""))
    let skipped := ((a.last? "skip-bytes").bind byteCount?).getD 0
    if all.length < skipped then fail 1 "cannot skip past end of combined input"
    let cs := all.toList.drop skipped
    let cs := match (a.last? "read-bytes").bind byteCount? with
      | some n => cs.take n
      | none => cs
    let width := ((a.last? "width").map fun w => (Text.digits? w.toList).getD 32).getD 16
    let radix := (a.last? "address-radix").getD "o"
    let address (n : Nat) : String :=
      match radix with
      | "n" => ""
      | "d" => Text.padded 7 n
      | "x" =>
        let digits := String.ofList (Nat.toDigits 16 n)
        Bytes.fill '0' (6 - digits.length) ++ digits
      | _ =>
        let digits := String.ofList (Nat.toDigits 8 n)
        Bytes.fill '0' (7 - digits.length) ++ digits
    let room := styles.foldl (fun n s => Nat.max n ((s.width + 1) * (width / s.size))) 0
    let row (here : List Char) (n : Nat) : List String :=
      styles.zipIdx.map fun (s, i) =>
        let cells := filledChunks s.size (here.length + 1) here
        let count := width / s.size
        let spare := room - count * s.width
        /- The spare blanks are shared out as evenly as can be. -/
        let cellRoom (i : Nat) : Nat :=
          s.width + spare * (count - i) / count - spare * (count - i - 1) / count
        let body := String.join (cells.zipIdx.map fun (c, i) => rightAligned (cellRoom i) (s.cell c))
        let lead := if i = 0 then address n else Bytes.fill ' ' (address n).length
        let text := String.ofList (here.map fun c =>
          if 32 ≤ c.toNat && c.toNat < 127 then c else '.')
        let missing := count - cells.length
        lead ++ body ++ (if s.shows then
          Bytes.fill ' ' (missing * s.width + spare * missing / count) ++ "  >" ++ text ++ "<"
          else "")
    iterate (fun ((cs, n, last, starred) : List Char × Nat × Option (List Char) × Bool) => do
      if cs.isEmpty then pure (.done ())
      else
        let here := cs.take width
        let isSame := last == some here && !a.has "output-duplicates"
        if isSame then
          if !starred then printLine "*"
        else each printLine (row here n)
        pure (.again (cs.drop width, n + here.length, some here, isSame)))
      (cs, skipped, (none : Option (List Char)), false)
    if radix != "n" then printLine (address (skipped + cs.length))

/-- Finds the first place at which two lists differ, and the number of line ends in front of it. -/
def firstDifference : Nat → Nat → List Char → List Char → Option (Nat × Nat × Char × Char)
  | place, line, a :: as, b :: bs =>
    if a = b then firstDifference (place + 1) (if a = '\n' then line + 1 else line) as bs
    else some (place, line, a, b)
  | _, _, _, _ => none

def cmp (args : List String) : Job Unit := do
  let known : List Known :=
    [.flag "b" "print-bytes", .flag "l" "verbose", .flag "s" "quiet", .flag "" "silent",
      .value "i" "ignore-initial", .value "n" "bytes"]
  let a ← arguments 2 known args
  match a.operands with
  | [] => misuse 2 "missing operand after 'cmp'"
  | one :: rest =>
    let two := rest.headD "-"
    let quiet := a.has "quiet" || a.has "silent"
    if quiet && a.has "verbose" then
      misuse 2 "options -l and -s are incompatible"
    let opened (name : String) : Job Nat := do
      match ← openInput name with
      | .ok d => pure d
      | .error e => if quiet then exit 2 else fail 2 (about name e)
    let content (name : String) (d : Nat) : Job String := do
      match ← act (Act.readAll d) with
      | .ok text => pure text
      | .error e => fail 2 (about name e)
    let firstInput ← opened one
    let secondInput ← opened two
    let first ← content one firstInput
    let second ← content two secondInput
    let limit (s : String) : List Char :=
      match (a.last? "bytes").bind byteCount? with
      | some n => s.toList.take n
      | none => s.toList
    let skip := ((a.last? "ignore-initial").bind byteCount?).getD 0
    let xs := (limit first).drop skip
    let ys := (limit second).drop skip
    let octal (c : Char) : String := rightAligned 3 (String.ofList (Nat.toDigits 8 c.toNat))
    let shorter := if xs.length < ys.length then one else two
    let size := Nat.min xs.length ys.length
    let atEnd : Job Unit := do
      if xs.length != ys.length then
        atLeast 1
        if !quiet then
          let lines := ((xs.take size).filter (· == '\n')).length
          let place := if size = 0 then " which is empty"
            else if a.has "verbose" then s!" after byte {size}"
            else if (xs.take size).getLast? = some '\n' then s!" after byte {size}, line {lines}"
            else s!" after byte {size}, in line {lines + 1}"
          interject ("EOF on " ++ shorter ++ place)
    if a.has "verbose" && !quiet then
      let width := (toString size).length
      each (fun (((x, y), i) : (Char × Char) × Nat) => do
        if x != y then
          atLeast 1
          printLine (rightAligned width (toString (i + 1)) ++ " " ++ octal x ++ " " ++ octal y))
        (xs.zip ys).zipIdx
      atEnd
    else
      match firstDifference 1 1 xs ys with
      | some (place, line, x, y) =>
        atLeast 1
        if !quiet then
          let more := if a.has "print-bytes" then
              " is " ++ octal x ++ " " ++ String.ofList (visibleChar x) ++ " " ++ octal y ++ " " ++
                String.ofList (visibleChar y)
            else ""
          printLine (s!"{one} {two} differ: byte {place}, line {line}" ++ more)
      | none => atEnd
where
  /-- A byte as it is shown. -/
  visibleChar (c : Char) : List Char :=
    if c.toNat < 32 then ['^', Char.ofNat (c.toNat + 64)] else [c]

end PipelineRunner.Utility
