import PipelineRunner.Utility.Running

/-!
A utility that reads arguments and hands them to a command, so many at a time.
-/

namespace PipelineRunner.Utility

open Host Text Job

/-- How `xargs` reads and arranges its arguments. -/
structure Batches where
  /-- So many arguments stand in one call. -/
  size : Option Nat := none
  /-- So many lines stand in one call. -/
  lines : Option Nat := none
  /-- What is replaced by one argument. -/
  mark : Option String := none
  separator : Option Char := none
  ending : Option String := none

/-- The arrangement that an option asks for, and warnings about those that it replaces. A single
argument in each call is no contradiction to a replacement. -/
def Batches.add (b : Batches) (key value : String) : Batches × List String :=
  let others (name : String) (size lines mark : Bool) : List String :=
    let given := [("--max-args", size && b.size.isSome), ("--max-lines", lines && b.lines.isSome),
      ("--replace", mark && b.mark.isSome)]
    (given.filter (·.2)).map fun (old, _) =>
      s!"warning: options {old} and {name} are mutually exclusive, ignoring previous {old} value"
  let number := (Text.digits? value.toList).getD 1
  match key with
  | "I" | "replace" =>
    let mark := if value.isEmpty then "\x7b\x7d" else value
    ({ b with mark, size := none, lines := none }, others "--replace/-I/-i" true true false)
  | "L" => ({ b with lines := number, size := none, mark := none }, others "-L" true false true)
  | "max-lines" =>
    ({ b with lines := number, size := none, mark := none },
      others "--max-lines/-l" true false true)
  | "max-args" =>
    if number = 1 && b.mark.isSome then (b, [])
    else
      ({ b with size := number, lines := none, mark := none },
        others "--max-args/-n" false true true)
  | _ => (b, [])

/-- An argument that has been read, with the number of the line that it stands on. -/
structure Piece where
  text : String
  line : Nat

/-- Whether a text goes on within quotes. -/
inductive Quoting where
  | none
  | within (mark : Char)

/-- Cuts a text into arguments at its blanks, or at its line ends only. Quotes and backslashes take
the meaning from what they stand at. The error is a quotation mark without another one. -/
def pieces (byLine : Bool) (quoting : Quoting) (line : Nat) (begun : Option (List Char))
    (done : List Piece) : List Char → Except Char (List Piece)
  | [] =>
    match quoting with
    | .within mark => .error mark
    | .none =>
      .ok ((begun.map fun cs => (⟨String.ofList cs.reverse, line⟩ : Piece)).toList ++ done).reverse
  | c :: cs =>
    let add (c : Char) : Option (List Char) := some (c :: begun.getD [])
    let finished : List Piece :=
      (begun.map fun cs => (⟨String.ofList cs.reverse, line⟩ : Piece)).toList ++ done
    match quoting with
    | .within mark =>
      if c = '\n' then .error mark
      else if c = mark then pieces byLine .none line (some (begun.getD [])) done cs
      else pieces byLine quoting line (add c) done cs
    | .none =>
      if c = '\n' then pieces byLine .none (line + 1) none finished cs
      else if (c = ' ' || c = '\t') && begun.isNone then pieces byLine .none line none done cs
      else if (c = ' ' || c = '\t') && !byLine then pieces byLine .none line none finished cs
      else if c = '\'' || c = '"' then
        pieces byLine (.within c) line (some (begun.getD [])) done cs
      else
        match c, cs with
        | '\\', e :: rest => pieces byLine .none line (add e) done rest
        | c, cs => pieces byLine .none line (add c) done cs

def chunks {α : Type} (size : Nat) : Nat → List α → List (List α)
  | 0, _ => []
  | _, [] => []
  | fuel + 1, l => l.take size :: chunks size fuel (l.drop size)

/-- Puts a text in the place of another one, wherever that stands. -/
def replaceAll (mark new : List Char) : Nat → List Char → List Char
  | 0, cs => cs
  | _, [] => []
  | fuel + 1, c :: cs =>
    if mark.isPrefixOf (c :: cs) then new ++ replaceAll mark new fuel ((c :: cs).drop mark.length)
    else c :: replaceAll mark new fuel cs

/-- Cuts the arguments into those of the single calls. -/
def Batches.groups (b : Batches) (ps : List Piece) : List (List String) :=
  match b.mark, b.lines, b.size with
  | some _, _, _ => ps.map fun p => [p.text]
  | none, some lines, _ =>
    let numbers := (ps.map (·.line)).eraseDups
    (chunks lines (numbers.length + 1) numbers).map fun ns =>
      (ps.filter fun p => ns.contains p.line).map (·.text)
  | none, none, some size => (chunks size (ps.length + 1) ps).map fun c => c.map (·.text)
  | none, none, none => (chunks 5000 (ps.length + 1) ps).map fun c => c.map (·.text)

def Batches.call (b : Batches) (command args : List String) : List String :=
  match b.mark with
  | none => command ++ args
  | some mark =>
    let new := (args.headD "").toList
    command.map fun word =>
      String.ofList (replaceAll mark.toList new (word.length + 1) word.toList)

def separatorOf? (text : String) : Option Char :=
  match (Shell.Format.unescaped .program text).1.toList with
  | [c] => some c
  | _ => none

/-- Runs a command again and again, with arguments that it reads. -/
def xargs (args : List String) : Job Unit := do
  let known : List Known :=
    [.flag "0" "null", .value "a" "arg-file", .value "d" "delimiter", .value "E" "", .value "I" "",
      .loose "i" "replace", .value "L" "", .loose "l" "max-lines", .value "n" "max-args",
      .value "P" "max-procs", .flag "r" "no-run-if-empty", .value "s" "max-chars",
      .flag "t" "verbose", .flag "x" "exit", .flag "p" "interactive", .flag "o" "open-tty"]
  let a ← readArguments 1 known .inFront args
  let count (letter key : String) : Job (Option Nat) :=
    match (a.last? key).filter fun text => letter != "l" || !text.isEmpty with
    | none => pure none
    | some text =>
      match Text.digits? text.toList with
      | none => misuse 1 s!"invalid number \"{text}\" for -{letter} option"
      | some 0 =>
        if letter = "P" then pure (some 1)
        else misuse 1 s!"value 0 for -{letter} option should be >= 1"
      | some n => pure (some n)
  let _ ← count "n" "max-args"
  let _ ← count "L" "L"
  let _ ← count "l" "max-lines"
  let _ ← count "P" "max-procs"
  let separator ← match a.last? "delimiter" with
    | none => pure (if a.has "null" then some (Char.ofNat 0) else none)
    | some text =>
      match separatorOf? text with
      | some c => pure (some c)
      | none =>
        fail 1 (s!"Invalid input delimiter specification {text}: the delimiter must be either a " ++
          "single character or an escape sequence starting with \\.")
  let (batches, warnings) := a.options.foldl
    (fun ((b, warnings) : Batches × List String) (o : String × String) =>
      let (b, more) := b.add o.1 o.2
      (b, warnings ++ more)) (({ separator, ending := a.last? "E" } : Batches), [])
  each warn warnings
  let mark := batches.mark
  let input := (a.last? "arg-file").getD "-"
  match ← contentOf ⟨1, fun name e => s!"Cannot open input file {inShellQuotes name}: {e.reason}",
      about⟩ input with
  | none => exit 1
  | some text =>
    let cut : Except Char (List Piece) := match separator with
      | some c => .ok ((linesOf c text).zipIdx.map fun (l, i) => ⟨l.text, i⟩)
      | none => pieces mark.isSome .none 0 none [] text.toList
    match cut with
    | .error c =>
      let kind := if c = '"' then "double" else "single"
      fail 1 (s!"unmatched {kind} quote; by default quotes are special to xargs unless you use " ++
        "the -0 option")
    | .ok ps =>
      let ps := match batches.ending with
        | none => ps
        | some ending => ps.takeWhile fun p => p.text != ending
      let groups := batches.groups ps
      let groups := if groups.isEmpty && mark.isNone && !a.has "no-run-if-empty" then [[]]
        else groups
      let command := if a.operands.isEmpty then ["echo"] else a.operands
      let d ← get
      each (fun group => do
        let argv := batches.call command group
        let name := argv.headD ""
        if a.has "verbose" then act (Act.print 2 (Text.join " " (argv.map asArgument) ++ "\n"))
        flush
        let child ← fork do
          let _ : Except FileError Unit ← Act.ask (.close 0)
          let _ ← Act.openFile "/dev/null" .read
          runOrRefuse d.environment argv fun e => d.title ++ ": " ++ name ++ ": " ++ e.reason
        match ← waitEnd child with
        | .code 0 => pure ()
        | .code 255 => fail 124 s!"{name}: exited with status 255; aborting"
        | .code 126 => exit 126
        | .code 127 => exit 127
        | .code _ => atLeast 123
        | .signal n => fail 125 s!"{name}: terminated by signal {n}") groups

end PipelineRunner.Utility
