import PipelineRunner.Utility.Files
import PipelineRunner.Utility.Input

/-!
Utilities that show files: whole, from their beginning, from their end, or turned round; and that
count what is in them.
-/

namespace PipelineRunner.Utility

open Host Text Job

/-- How far a file has been shown. -/
structure Shown where
  number : Nat := 0
  atStart : Bool := true
  wasBlank : Bool := false

/-- The characters that show a byte without control characters. -/
def visibleByte (showsTabs : Bool) (c : Char) : List Char :=
  let n := c.toNat
  let low (n : Nat) : List Char :=
    if n < 32 then ['^', Char.ofNat (n + 64)] else if n = 127 then ['^', '?'] else [Char.ofNat n]
  if c = '\t' && !showsTabs then ['\t']
  else if n < 128 then low n
  else 'M' :: '-' :: low (n - 128)

def cat (args : List String) : Job Unit := do
  let known : List Known :=
    [.flag "n" "number", .flag "b" "number-nonblank", .flag "E" "show-ends", .flag "T" "show-tabs",
      .flag "v" "show-nonprinting", .flag "s" "squeeze-blank", .flag "A" "show-all",
      .flag "e" "e", .flag "t" "t", .flag "u" "u"]
  let a ← arguments 1 known args
  let showsAll := a.has "show-all"
  let ends := showsAll || a.has "show-ends" || a.has "e"
  let tabs := showsAll || a.has "show-tabs" || a.has "t"
  let controls := showsAll || a.has "show-nonprinting" || a.has "e" || a.has "t"
  let numbers := a.has "number" || a.has "number-nonblank"
  let skipsBlank := a.has "number-nonblank"
  let isPlain := !(ends || tabs || controls || numbers || a.has "squeeze-blank")
  let output : Except FileError (Option Nat) ← ask (.node 1)
  let showLine (s : Shown) (l : Line) : Job Shown := do
    let isBlank := s.atStart && l.text.isEmpty && l.isWhole
    if a.has "squeeze-blank" && isBlank && s.wasBlank then pure s
    else
      let isNumbered := numbers && s.atStart && !(skipsBlank && isBlank)
      let number := if isNumbered then s.number + 1 else s.number
      let start := if isNumbered then rightAligned 6 (toString number) ++ "\t" else ""
      let body := if controls then
          String.ofList (l.text.toList.flatMap (visibleByte tabs))
        else if tabs then String.ofList (l.text.toList.flatMap fun c =>
          if c = '\t' then ['^', 'I'] else [c])
        else l.text
      let body := if ends && !controls && l.isWhole && body.endsWith "\x0d" then
          Bytes.take (body.length - 1) body ++ "^M"
        else body
      let ending := if l.isWhole then (if ends then "$\n" else "\n") else ""
      print (start ++ body ++ ending)
      pure ⟨number, l.isWhole, isBlank⟩
  let _ ← iterate (fun ((names, s) : List String × Shown) => do
    match names with
    | [] => pure (.done ())
    | name :: rest =>
      match ← openInput name with
      | .error e =>
        fault 1 (about name e)
        pure (.again (rest, s))
      | .ok d =>
        let own : Except FileError (Option Nat) ← ask (.node d)
        let seen ← look
        let isOutput := match own, output with
          | .ok (some i), .ok (some j) => i == j && 0 < sizeOf seen.files i &&
            !seen.files.isDirectory i
          | _, _ => false
        let result ← if isOutput then do
            fault 1 (asName name ++ ": input file is output file")
            pure (.ok s)
          else if isPlain then
            eachBlock d Act.blockSize (fun s block => do
              print block
              flush
              pure (.again s)) s
          else
            eachLine ⟨d, '\n', Act.blockSize, [], [], false⟩ (fun s l => do
              return .again (← showLine s l)) s
        closeInput d
        match result with
        | .ok s => pure (.again (rest, s))
        | .error e =>
          fault 1 (about name e)
          pure (.again (rest, s))) (inputs a.operands, {})

/-- A part of a file at one of its ends. -/
inductive Extent where
  | first (n : Nat)
  | allButLast (n : Nat)
  | last (n : Nat)
  | startingAt (n : Nat)

/-- What `head` and `tail` take from their files. -/
structure Portion where
  unit : String := "lines"
  extent : Extent
  separator : Char := '\n'

/-- The part that a number stands for. -/
def extentOf? (fromEnd : Bool) (text : String) : Option Extent :=
  match text.toList with
  | '-' :: cs =>
    (byteCount? (String.ofList cs)).map fun n => if fromEnd then .last n else .allButLast n
  | '+' :: cs =>
    (byteCount? (String.ofList cs)).map fun n => if fromEnd then .startingAt n else .first n
  | _ => (byteCount? text).map fun n => if fromEnd then .last n else .first n

/-- Arguments with an old form of a number in front written in the usual form. -/
def modernized (fromEnd : Bool) (args : List String) : List String :=
  match args with
  | first :: rest =>
    match first.toList with
    | sign :: cs =>
      let digits := cs.takeWhile Char.isDigit
      let letters := cs.drop digits.length
      let isOld := (sign = '-' || (fromEnd && sign = '+')) && !digits.isEmpty &&
        letters.all "cblfqvz".toList.contains && (!fromEnd || rest.length ≤ 1)
      if isOld then
        let number := (if sign = '+' then "+" else "") ++ String.ofList digits ++
          (if letters.contains 'b' then "b" else "")
        let unit := if letters.any fun c => c == 'c' || c == 'b' then "-c" else "-n"
        let more := letters.filter "fqvz".toList.contains
        [unit, number] ++ more.map (fun c => "-" ++ String.singleton c) ++ rest
      else args
    | [] => args
  | [] => []

def lastOnes {α : Type} (n : Nat) (l : List α) : List α := l.drop (l.length - n)

def Portion.of (p : Portion) (text : String) : String :=
  if p.unit = "bytes" then
    match p.extent with
    | .first n => Bytes.take n text
    | .allButLast n => Bytes.take (text.length - n) text
    | .last n => Bytes.drop (text.length - n) text
    | .startingAt n => Bytes.drop (n - 1) text
  else
    let ls := linesOf p.separator text
    let kept := match p.extent with
      | .first n => ls.take n
      | .allButLast n => ls.take (ls.length - n)
      | .last n => lastOnes n ls
      | .startingAt n => ls.drop (n - 1)
    String.join (kept.map (·.original p.separator))

/-- Shows the portion of an input; from its beginning no more is read than is needed. -/
def Portion.show (p : Portion) (d : Nat) : Job (Except FileError Unit) := do
  match p.unit, p.extent with
  | "lines", .first 0 => pure (.ok ())
  | "lines", .first n =>
    let result ← eachLine ⟨d, p.separator, 8192, [], [], false⟩ (fun (left : Nat) l => do
      print (l.original p.separator)
      pure (if left ≤ 1 then .done 0 else .again (left - 1))) n
    pure (result.map fun _ => ())
  | "bytes", .first n =>
    iterate (fun (left : Nat) => do
      if left = 0 then pure (.done (.ok ()))
      else
        match ← act (Act.read d (Nat.min left 8192)) with
        | .error e => pure (.done (.error e))
        | .ok bytes =>
          print bytes
          pure (if bytes.isEmpty then .done (.ok ()) else .again (left - bytes.length))) n
  | _, _ =>
    match ← act (Act.readAll d) with
    | .error e => pure (.error e)
    | .ok text =>
      print (p.of text)
      pure (.ok ())

/-- Shows what is added to a file, for ever. -/
def follow (d : Nat) : Job Unit :=
  iterate (fun (_ : Unit) => do
    flush
    ask (.sleep 100)
    match ← act (Act.readAll d) with
    | .ok text => print text
    | .error _ => pure ()
    pure (.again ())) ()

/-- Shows the beginning of files, or their end. -/
def portions (fromEnd : Bool) (args : List String) : Job Unit := do
  match args with
  | first :: _ :: _ :: _ =>
    let digits := (first.toList.drop 1).takeWhile Char.isDigit
    if fromEnd && first.startsWith "-" && !digits.isEmpty then
      let c := String.ofList (digits.take 1)
      fail 1 s!"option used in invalid context -- {c}"
  | _ => pure ()
  let known : List Known :=
    [.value "n" "lines", .value "c" "bytes", .flag "q" "quiet", .flag "" "silent",
      .flag "v" "verbose", .flag "z" "zero-terminated"] ++
    (if fromEnd then [.loose "" "follow", .flag "f" "f", .flag "F" "F", .flag "" "retry",
      .value "s" "sleep-interval", .value "" "pid"] else [])
  let a ← arguments 1 known (modernized fromEnd args)
  let portion (p : Portion) (o : String × String) : Job Portion :=
    if o.1 = "lines" || o.1 = "bytes" then
      let bare := Bytes.drop (if o.2.startsWith "-" || o.2.startsWith "+" then 1 else 0) o.2
      match extentOf? fromEnd o.2 with
      | some extent => pure { p with unit := o.1, extent }
      | none =>
        let shown := quoted (if o.2.startsWith "-" then bare else o.2)
        fail 1 (s!"invalid number of {o.1}: " ++ shown)
    else pure p
  let p ← a.options.foldlM portion
    { extent := if fromEnd then .last 10 else .first 10
      separator := if a.has "zero-terminated" then Char.ofNat 0 else '\n' }
  let quiet := (a.lastOf? ["quiet", "silent", "verbose"]).map (· != "verbose")
  match p.extent with
  | .last 0 => exit 0
  | _ => pure ()
  let names := inputs a.operands
  let titled := match quiet with
    | some q => !q
    | none => 1 < names.length
  let follows := ["follow", "f", "F"].any a.has
  let _ ← iterate (fun ((names, isFirst) : List String × Bool) => do
    match names with
    | [] => pure (.done ())
    | name :: rest =>
      let shownName := if name = "-" then "standard input" else name
      match ← openInput name with
      | .error e =>
        fault 1 (because ("cannot open " ++ inShellQuotes name ++ " for reading") e)
        pure (.again (rest, isFirst))
      | .ok d =>
        if titled then print ((if isFirst then "" else "\n") ++ s!"==> {shownName} <==\n")
        match ← p.show d with
        | .ok () => pure ()
        | .error e => fault 1 (because ("error reading " ++ inShellQuotes shownName) e)
        let own : Except FileError (Option Nat) ← ask (.node d)
        if follows && rest.isEmpty && !(name = "-" && own.toOption.join.isNone) then follow d
        closeInput d
        pure (.again (rest, false))) (names, true)

/-- The numbers of lines, words, characters and bytes, and the length of the longest line. -/
structure Counts where
  lines : Nat := 0
  words : Nat := 0
  chars : Nat := 0
  bytes : Nat := 0
  longest : Nat := 0

namespace Counts

def isBlank (c : Char) : Bool := c == ' ' || ('\t' ≤ c && c ≤ '\x0d')

/-- Counts behind characters of which the last one was of a word or not. -/
def count (inWord : Bool) (column : Nat) (n : Counts) : List Char → Counts
  | [] => { n with longest := Nat.max n.longest column }
  | c :: cs =>
    let n := if inWord || isBlank c then n else { n with words := n.words + 1 }
    if c = '\n' then
      count false 0 { n with lines := n.lines + 1, longest := Nat.max n.longest column } cs
    else if c = '\t' then count false (column + 8 - column % 8) n cs
    else count (!isBlank c) (if c.toNat < 32 then column else column + 1) n cs

def of (k : Charset) (bytes : String) : Counts :=
  let text := match k with
    | .bytes => bytes
    | .utf8 => Bytes.lossyText bytes
  { count false 0 {} text.toList with chars := text.length, bytes := bytes.length }

def plus (a b : Counts) : Counts :=
  ⟨a.lines + b.lines, a.words + b.words, a.chars + b.chars, a.bytes + b.bytes,
    Nat.max a.longest b.longest⟩

/-- The numbers that are asked for, in their order. -/
def shown (a : Arguments) (n : Counts) : List Nat :=
  let kinds : List (String × Nat) :=
    [("lines", n.lines), ("words", n.words), ("chars", n.chars), ("bytes", n.bytes),
      ("max-line-length", n.longest)]
  let asked := kinds.filter fun k => a.has k.1
  let usual := kinds.filter fun k => ["lines", "words", "bytes"].contains k.1
  (if asked.isEmpty then usual else asked).map (·.2)

end Counts

def wc (args : List String) : Job Unit := do
  let k ← charset
  let known : List Known :=
    [.flag "l" "lines", .flag "w" "words", .flag "m" "chars", .flag "c" "bytes",
      .flag "L" "max-line-length", .value "" "total", .value "" "files0-from"]
  let a ← arguments 1 known args
  let names := inputs a.operands
  let asked := ((Counts.shown a {}).length)
  let sizes ← collect (fun name => do
    let seen ← look
    let node : Except FileError (Option Nat) ←
      if name = "-" then ask (.node 0)
      else pure ((seen.files.find seen.directory name true).map some)
    match node with
    | .error _ => pure (some 0)
    | .ok none => pure none
    | .ok (some i) =>
      match seen.files.content i with
      | .file bytes => pure (some bytes.length)
      | .program _ => pure (some (sizeOf seen.files i))
      | _ => pure none) names
  let total := sizes.foldl (fun n s => n + s.getD 0) 0
  let width :=
    if names.length = 1 && asked = 1 then 1
    else Nat.max (toString total).length (if sizes.contains none then 7 else 1)
  let row (n : Counts) (name : Option String) : Job Unit :=
    let cells := (n.shown a).map fun n => rightAligned width (toString n)
    printLine (Text.join " " (cells ++ name.toList))
  let counts ← collect (fun name => do
    match ← openInput name with
    | .error e =>
      fault 1 (about name e)
      pure ({} : Counts)
    | .ok d =>
      let result ← act (Act.readAll d)
      closeInput d
      let n := match result with
        | .ok text => Counts.of k text
        | .error _ => {}
      match result with
      | .error e =>
        fault 1 (about name e)
      | .ok _ => pure ()
      row n (if a.operands.isEmpty then none else some name)
      pure n) names
  let mode := (a.last? "total").getD "auto"
  if (mode = "auto" && 1 < names.length) || mode = "always" then
    row (counts.foldl Counts.plus {}) (some "total")
  let sum := counts.foldl Counts.plus {}
  if mode = "only" then printLine (Text.join " " ((sum.shown a).map toString))

/-- Writes its input to its output and to files. -/
def tee (args : List String) : Job Unit := do
  let known : List Known :=
    [.flag "a" "append", .flag "i" "ignore-interrupts", .flag "p" "p", .loose "" "output-error"]
  let a ← arguments 1 known args
  let mode : OpenMode := if a.has "append" then .append else .write
  let opened ← collect (fun name => do
    match ← act (Act.openFile name mode) with
    | .ok d => pure [(name, d)]
    | .error e =>
      fault 1 (about name e)
      pure []) a.operands
  let result ← eachBlock 0 8192 (fun (_ : Unit) block => do
    print block
    flush
    each (fun ((name, d) : String × Nat) => do
      match ← act (Act.write d block) with
      | .ok () => pure ()
      | .error e => fault 1 (about name e)) opened.flatten
    pure (.again ())) ()
  match result with
  | .ok _ => pure ()
  | .error e => fault 1 (because "read error" e)

/-- Shows the lines of files from the last to the first. -/
def tac (args : List String) : Job Unit := do
  let known : List Known := [.value "s" "separator", .flag "b" "before", .flag "r" "regex"]
  let a ← arguments 1 known args
  let separator := ((a.last? "separator").getD "\n").toList.headD '\n'
  each (fun name => do
    match ← contentOf
        ⟨1, fun name e => because ("failed to open " ++ inShellQuotes name ++ " for reading") e,
          fun name e => asName name ++ ": read error: " ++
            (if e = .isDirectory then FileError.invalidArgument.reason else e.reason)⟩ name with
    | none => pure ()
    | some text =>
      if a.has "before" then
        let ps := (Text.splitAt separator text.toList).map String.ofList
        let marked := match ps with
          | [] => []
          | first :: rest => first :: rest.map (String.singleton separator ++ ·)
        print (String.join marked.reverse)
      else
        print (String.join ((linesOf separator text).reverse.map (·.original separator))))
    (inputs a.operands)

/-- Shows every line from its end to its beginning. -/
def rev (args : List String) : Job Unit := do
  let k ← charset
  let a ← arguments 1 [] args
  each (fun name => do
    match ← openInput name with
    | .error e =>
      interject ("cannot open " ++ name ++ ": " ++ e.reason)
      atLeast 1
    | .ok d =>
      let result ← eachLine ⟨d, '\n', Act.blockSize, [], [], false⟩ (fun (_ : Unit) l => do
        let c := Characters.of k l.text
        let bytes := c.encoded c.chars.toList.reverse
        print (if l.isWhole then bytes ++ "\n" else bytes)
        pure (.again ())) ()
      closeInput d
      match result with
      | .ok () => pure ()
      | .error e => fault 1 (about name e)) (inputs a.operands)

end PipelineRunner.Utility
