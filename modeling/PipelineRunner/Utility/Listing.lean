import PipelineRunner.Shell.Pattern
import PipelineRunner.Time.Wording
import PipelineRunner.Utility.Input
import PipelineRunner.Utility.Rights

/-!
Utilities that show what files there are, and what is known of them.
-/

namespace PipelineRunner.Utility

open Host Text Job

def instantOf (milliseconds : Int) : Timestamp :=
  ⟨Int.fdiv milliseconds 1000, (Int.fmod milliseconds 1000).toNat * 1000000⟩

def millisecondsOf (t : Timestamp) : Int := t.seconds * 1000 + t.nanoseconds / 1000000

def sizeOf (t : FileTree) (i : Nat) : Nat :=
  match t.content i with
  | .file bytes => bytes.length
  | .directory .. => 4096
  | .link target => target.length
  | .program _ => 68496
  | _ => 0

/-- The room that a node takes, in units of 1024 bytes. -/
def roomOf (t : FileTree) (i : Nat) : Nat :=
  match t.content i with
  | .file _ | .program _ => (sizeOf t i + 4095) / 4096 * 4
  | .directory .. => 4
  | _ => 0

/-- How many names a node has; a directory also has its own dot, and those of the directories in
it. -/
def linkCount (t : FileTree) (i : Nat) : Nat :=
  match t.content i with
  | .directory _ entries => 2 + (entries.filter fun e => t.isDirectory e.2).length
  | _ => Nat.max 1 (t.nameCount i)

def modeLetters (n : Node) : String := Rights.kindLetter n.content ++ Rights.letters n.mode

/-- How files are listed. -/
structure ListStyle where
  arguments : Arguments

namespace ListStyle

def has (s : ListStyle) (key : String) : Bool := s.arguments.has key

/-- The last one of the options for the layout. -/
def layout (s : ListStyle) : String :=
  (s.arguments.lastOf? ["l", "n", "g", "o", "1", "C", "m", "x", "full-time"]).getD "1"

def isLong (s : ListStyle) : Bool :=
  ["l", "n", "g", "o", "full-time"].any s.has && !(["C", "m", "x"].contains s.layout)

def order (s : ListStyle) : String :=
  let keys := ["t", "S", "U", "f", "v", "X", "sort"]
  match s.arguments.options.reverse.find? fun o => keys.contains o.1 with
  | some ("sort", "time") => "t"
  | some ("sort", "size") => "S"
  | some ("sort", "none") => "U"
  | some ("sort", "extension") => "X"
  | some ("sort", _) => ""
  | some ("f", _) => "U"
  | some (key, _) => key
  | none => ""

end ListStyle

/-- A file that is listed. -/
structure Listed where
  name : String
  node : Nat
  deriving DecidableEq

/-- The part of a name from its last point on. -/
def extensionOf (name : String) : String :=
  let behind := name.toList.reverse.takeWhile (· != '.')
  if behind.length = name.length then "" else String.ofList ('.' :: behind.reverse)

/-- A name cut into numbers and other texts, so that it can be compared with others by them. -/
def versionKey (name : String) : List (Nat × String) :=
  let rec go : Nat → List Char → List (Nat × String)
    | 0, _ => []
    | _, [] => []
    | fuel + 1, cs =>
      let text := cs.takeWhile fun c => !c.isDigit
      let rest := cs.drop text.length
      let digits := rest.takeWhile Char.isDigit
      (0, String.ofList text) :: ((digits.foldl (fun n c => n * 10 + (c.toNat - 48)) 0), "") ::
        go fuel (rest.drop digits.length)
  go (name.length + 1) name.toList

/-- Whether a key comes before another one or is the same. -/
def versionLe : List (Nat × String) → List (Nat × String) → Bool
  | [], _ => true
  | _ :: _, [] => false
  | (m, a) :: as, (n, b) :: bs =>
    if m != n then m < n else if a != b then a < b else versionLe as bs

def sorted (s : ListStyle) (t : FileTree) (files : List Listed) : List Listed :=
  let byName := files.mergeSort fun a b => a.name ≤ b.name
  let before (a b : Listed) : Bool :=
    match s.order with
    | "t" => (t.node b.node).modified ≤ (t.node a.node).modified
    | "S" => sizeOf t b.node ≤ sizeOf t a.node
    | "X" => extensionOf a.name ≤ extensionOf b.name
    | "v" => versionLe (versionKey a.name) (versionKey b.name)
    | _ => true
  let ordered := if s.order = "U" then files else byName.mergeSort before
  let ordered := if s.has "reverse" && s.order != "U" then ordered.reverse else ordered
  if s.has "group-directories-first" then
    ordered.filter (t.isDirectory ·.node) ++ ordered.filter fun f => !t.isDirectory f.node
  else ordered

/-- A sign behind a name that tells its kind. -/
def kindSign (s : ListStyle) (t : FileTree) (i : Nat) : String :=
  let n := t.node i
  match n.content with
  | .directory .. => if s.has "classify" || s.has "p" then "/" else ""
  | .link _ => if s.has "classify" && !s.isLong then "@" else ""
  | .pipe => if s.has "classify" then "|" else ""
  | _ => if s.has "classify" && n.mode &&& 0o111 != 0 then "*" else ""

/-- A size with a letter for its unit; it is rounded up. -/
def humanSize (n : Nat) : String :=
  let rec go : Nat → Nat → List String → String
    | _, _, [] => ""
    | 0, _, _ => ""
    | fuel + 1, unit, letter :: letters =>
      if n < 1024 * unit || letters.isEmpty then
        let tenths := (n * 10 + unit - 1) / unit
        if unit = 1 then toString n
        else if tenths < 100 then s!"{tenths / 10}.{tenths % 10}{letter}"
        else
          let whole := (n + unit - 1) / unit
          if 1024 ≤ whole then go fuel (unit * 1024) letters else toString whole ++ letter
      else go fuel (unit * 1024) letters
  go 10 1 ["", "K", "M", "G", "T"]

def shownName (s : ListStyle) (t : FileTree) (f : Listed) : String :=
  let name := if s.has "quote-name" then "\"" ++ f.name ++ "\"" else f.name
  name ++ kindSign s t f.node

/-- What stands in front of a name besides the long form. -/
def leadCells (s : ListStyle) (t : FileTree) (f : Listed) : List String :=
  (if s.has "inode" then [toString (f.node + 1000)] else []) ++
    (if s.has "size" then [toString (roomOf t f.node)] else [])

/-- Fills a cell up with blanks in front. -/
def rightAligned (width : Nat) (s : String) : String := Bytes.fill ' ' (width - s.length) ++ s

def leftAligned (width : Nat) (s : String) : String := s ++ Bytes.fill ' ' (width - s.length)

def widest (texts : List String) : Nat := texts.foldl (fun n s => Nat.max n s.length) 0

/-- The date of a file: with the time if it is not old, and else with the year. -/
def dateCell (now modified : Int) (full : Bool) : String :=
  let t := instantOf modified
  if full then Calendar.text t "%F %T.%N %z"
  else if now - 15778476000 < modified && modified ≤ now then Calendar.text t "%b %e %H:%M"
  else Calendar.text t "%b %e  %Y"

/-- The cells of the long form, without the name. -/
def longCells (s : ListStyle) (t : FileTree) (f : Listed) : List String :=
  let n := t.node f.node
  let owner := if s.has "n" then "0" else "root"
  let size := sizeOf t f.node
  leadCells s t f ++ [modeLetters n, toString (linkCount t f.node)] ++
    (if s.has "g" then [] else [owner]) ++
    (if s.has "o" || s.has "no-group" then [] else [owner]) ++
    [if s.has "human-readable" then humanSize size else toString size,
      dateCell t.time n.modified (s.has "full-time")]

/-- Whether a cell is a text, which begins at the left. -/
def isTextCell (cell : String) : Bool := cell.toList.any fun c => c.isAlpha && c != 'K' && c != 'M'

def aligned (rows : List (List String)) : List String :=
  let columns := rows.foldl (fun n r => Nat.max n r.length) 0
  let widths := (List.range columns).map fun i => widest (rows.map (·.getD i ""))
  rows.map fun r => Text.join " " ((r.zip widths).map fun (cell, width) =>
    if isTextCell cell then leftAligned width cell else rightAligned width cell)

/-- Fills a line up to a column with tabs and blanks. -/
def indent : Nat → Nat → Nat → String
  | 0, _, _ => ""
  | fuel + 1, here, goal =>
    if goal ≤ here then ""
    else if (here + 1) / 8 < goal / 8 then "\t" ++ indent fuel (here + 8 - here % 8) goal
    else " " ++ indent fuel (here + 1) goal

/-- A row of names in columns of given widths. -/
def tableRow : Nat → List (String × Nat) → String
  | _, [] => ""
  | _, [(name, _)] => name
  | place, (name, width) :: rest =>
    name ++ indent (width + 1) (place + name.length) (place + width) ++
      tableRow (place + width) rest

/-- The names in as many columns as fit on a line of eighty characters; `byRow` if the names of a
row follow each other. -/
def table (byRow : Bool) (names : List String) : List String :=
  let count := names.length
  let layout (columns : Nat) : List Nat × Nat :=
    let rows := (count + columns - 1) / columns
    let column (i : Nat) : List String := (List.range rows).filterMap fun r =>
      names[if byRow then r * columns + i else i * rows + r]?
    let used := if byRow then columns else (count + rows - 1) / rows
    ((List.range used).map fun i => widest (column i) + if i + 1 < used then 2 else 0, rows)
  let fits (columns : Nat) : Bool := (layout columns).1.foldl (· + ·) 0 < 80
  let columns := ((List.range (Nat.min count 26)).reverse.map (· + 1)).find? fits
  let columns := columns.getD 1
  let (widths, rows) := layout columns
  (List.range rows).map fun r =>
    tableRow 0 (((List.range widths.length).zip widths).filterMap fun (i, w) =>
      (names[if byRow then r * columns + i else i * rows + r]?).map (·, w))

def listingLines (s : ListStyle) (t : FileTree) (files : List Listed) : List String :=
  let names := files.map (shownName s t)
  if s.isLong then
    let rows := aligned (files.map (longCells s t))
    (rows.zip (files.zip names)).map fun (row, f, name) =>
      match t.content f.node with
      | .link target => row ++ " " ++ name ++ " -> " ++ target
      | _ => row ++ " " ++ name
  else
    let leads := files.map fun f => leadCells s t f
    let names := ((aligned leads).zip names).map fun (l, n) =>
      if l.isEmpty then n else l ++ " " ++ n
    match s.layout with
    | "m" => if names.isEmpty then [] else [Text.join ", " names]
    | "C" => if names.isEmpty then [] else table false names
    | "x" => if names.isEmpty then [] else table true names
    | _ => names

def visible (s : ListStyle) (t : FileTree) (directory : Nat) : List Listed :=
  let all := s.has "all" || s.has "f"
  let isHidden (name : String) : Bool :=
    (name.startsWith "." && !all && !s.has "almost-all") ||
    (s.has "ignore-backups" && name.endsWith "~") ||
    (s.arguments.values "ignore").any fun p =>
      Shell.Pattern.isMatch (Shell.Pattern.of (Shell.Glyphs.ofText false p)) name.toList
  let dots : List Listed := if all then [⟨".", directory⟩, ⟨"..", t.parent directory⟩] else []
  let entries := (t.entries directory).filter fun e => !isHidden e.1
  dots ++ entries.map fun e => ⟨e.1, e.2⟩

/-- The lines for directories, and those below them if that is asked for. -/
def directoryLines (s : ListStyle) (t : FileTree) (titled : Bool) :
    Nat → List Listed → List (List String)
  | 0, _ => []
  | _, [] => []
  | fuel + 1, d :: rest =>
    let files := sorted s t (visible s t d.node)
    let lines := listingLines s t files
    let lines := if s.isLong || s.has "size" then
        let total := files.foldl (fun n f => n + roomOf t f.node) 0
        s!"total {total}" :: lines
      else lines
    let below : List Listed :=
      if s.has "recursive" then
        (files.filter fun f => t.isDirectory f.node && f.name != "." && f.name != "..").map fun f =>
          { f with name := Path.join d.name f.name }
      else []
    (if titled then (d.name ++ ":") :: lines else lines) ::
      directoryLines s t titled fuel (below ++ rest)

def listOptions : List Known :=
  [.flag "a" "all", .flag "A" "almost-all", .flag "b" "escape", .flag "B" "ignore-backups",
    .flag "d" "directory", .flag "F" "classify", .flag "G" "no-group", .flag "h" "human-readable",
    .flag "H" "dereference-command-line", .flag "i" "inode", .value "I" "ignore",
    .flag "k" "kibibytes", .flag "L" "dereference", .flag "N" "literal",
    .flag "q" "hide-control-chars", .flag "Q" "quote-name", .flag "r" "reverse",
    .flag "R" "recursive", .flag "s" "size", .value "w" "width", .loose "" "color",
    .value "" "sort", .flag "" "full-time", .value "" "time-style",
    .flag "" "group-directories-first", .loose "" "hyperlink", .value "T" "tabsize"] ++
    Known.flags "lnog1CmxtSUfvXpcuDZ"

def ls (args : List String) : Job Unit := do
  let a ← arguments 2 listOptions args
  let s : ListStyle := ⟨a⟩
  let seen ← look
  let t := seen.files
  let follows := s.has "dereference" || s.has "dereference-command-line" ||
    !(s.isLong || s.has "classify" || s.has "directory")
  let names := if a.operands.isEmpty then ["."] else a.operands
  let found ← collect (fun name => do
    let canFollow := s.has "dereference" || (t.find? seen.directory name follows).isSome
    let result := t.find seen.directory name (follows && canFollow)
    match result with
    | .ok i => pure [(⟨name, i⟩ : Listed)]
    | .error e =>
      fault 2 ("cannot access " ++ inShellQuotes name ++ ": " ++ e.reason)
      pure []) names
  let isOpened (f : Listed) : Bool := !s.has "directory" && t.isDirectory f.node
  let listed := sorted s t found.flatten
  let files := listed.filter fun f => !isOpened f
  let titled := 1 < names.length || s.has "recursive"
  let blocks := directoryLines s t titled (t.nodes.size * t.nodes.size + listed.length + 1)
    (listed.filter isOpened)
  let blocks := if files.isEmpty then blocks else listingLines s t files :: blocks
  each (fun (i, lines) => do
    if 0 < i then printLine ""
    each printLine lines) ((List.range blocks.length).zip blocks)

def kindName (c : Content) : String :=
  match c with
  | .directory .. => "directory"
  | .link _ => "symbolic link"
  | .device _ => "character special file"
  | .pipe => "fifo"
  | .file "" => "regular empty file"
  | _ => "regular file"

/-- The number that the host keeps for the kind of a node. -/
def kindNumber (c : Content) : Nat :=
  match c with
  | .directory .. => 0o040000
  | .link _ => 0o120000
  | .device _ => 0o020000
  | .pipe => 0o010000
  | _ => 0o100000

/-- What a letter of a format stands for. -/
def statField (t : FileTree) (name : String) (i : Nat) (c : Char) : String :=
  let n := t.node i
  let time := instantOf n.modified
  match c with
  | 'n' => name
  | 'N' =>
    match n.content with
    | .link target => inShellQuotes name ++ " -> " ++ inShellQuotes target
    | _ => inShellQuotes name
  | 's' => toString (sizeOf t i)
  | 'a' => String.ofList (Nat.toDigits 8 n.mode)
  | 'A' => modeLetters n
  | 'f' => String.ofList (Nat.toDigits 16 (kindNumber n.content + n.mode))
  | 'F' => kindName n.content
  | 'U' | 'G' => "root"
  | 'u' | 'g' => "0"
  | 'h' => toString (linkCount t i)
  | 'i' => toString (i + 1000)
  | 'b' => toString (2 * roomOf t i)
  | 'B' => "512"
  | 'o' => "4096"
  | 't' | 'T' => "0"
  | 'd' => "51"
  | 'D' => "33"
  | 'm' => "/"
  | 'X' | 'Y' | 'Z' => toString time.seconds
  | 'x' | 'y' | 'z' => Calendar.text time "%F %T.%N %z"
  | 'w' => "-"
  | 'W' => "0"
  | '%' => "%"
  | _ => "?"

/-- The text that a format makes of what is known of a node. -/
def statText (t : FileTree) (name : String) (i : Nat) (escapes : Bool) :
    Nat → List Char → List Char
  | 0, _ => []
  | _, [] => []
  | fuel + 1, '%' :: cs =>
    let flags := cs.takeWhile "-0 +#'".toList.contains
    let digits := (cs.drop flags.length).takeWhile Char.isDigit
    match cs.drop (flags.length + digits.length) with
    | [] => '%' :: cs
    | c :: rest =>
      let width := (Text.digits? digits).getD 0
      let field := statField t name i c
      let filled :=
        if flags.contains '-' then leftAligned width field
        else if flags.contains '0' then Bytes.fill '0' (width - field.length) ++ field
        else rightAligned width field
      filled.toList ++ statText t name i escapes fuel rest
  | fuel + 1, '\\' :: cs =>
    if !escapes then '\\' :: statText t name i escapes fuel cs
    else
      match cs with
      | c :: rest =>
        let here : List Char := match Shell.Format.letter? c with
          | some b => [b]
          | none => if c = '"' then ['"'] else ['\\', c]
        here ++ statText t name i escapes fuel rest
      | [] => ['\\']
  | fuel + 1, c :: cs => c :: statText t name i escapes fuel cs

/-- What is shown of a file if nothing else is asked for. -/
def statStandard : String :=
  "  File: %N\n  Size: %-10s\tBlocks: %-10b IO Block: %-6o %F\n" ++
    "Device: 0,%d\tInode: %-10i  Links: %h\n" ++
    "Access: (%04a/%10A)  Uid: (%5u/%8U)   Gid: (%5g/%8G)\n" ++
    "Access: %x\nModify: %y\nChange: %z\n Birth: %w\n"

def stat (args : List String) : Job Unit := do
  let known : List Known :=
    [.flag "L" "dereference", .value "c" "format", .value "" "printf", .flag "t" "terse",
      .flag "f" "file-system"]
  let a ← arguments 1 known args
  needOperand 1 a
  let seen ← look
  let (format, escapes) : String × Bool := match a.last? "printf", a.last? "format" with
    | some f, _ => (f, true)
    | none, some f => (f ++ "\n", false)
    | none, none => (statStandard, false)
  each (fun name => do
    match seen.files.find seen.directory name (a.has "dereference") with
    | .error e => fault 1 ("cannot statx " ++ inShellQuotes name ++ ": " ++ e.reason)
    | .ok i =>
      print (String.ofList
        (statText seen.files name i escapes (format.length + 1) format.toList))) a.operands

end PipelineRunner.Utility
