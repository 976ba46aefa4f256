import PipelineRunner.Regex.Perl
import PipelineRunner.Shell.Pattern
import PipelineRunner.Text.Basic
import PipelineRunner.Utility.Files
import PipelineRunner.Utility.Input

/-!
What is looked for in lines, and how it is shown. A regular expression of the one or the other kind
is made of the patterns that have been given. The lines that have been found are shown in colours:
each role has a code that a terminal understands, and a text in a role stands between the sequences
that turn the code on and off.
-/

namespace PipelineRunner.Utility.LineSearch

/-- What is looked for. -/
inductive Matcher where
  | posix (r : Regex)
  | perl (r : PerlRegex)

/-- How patterns are read. -/
inductive PatternKind where
  | basic | extended | fixed | perl
  deriving DecidableEq, Repr

/-- How much of a line has to match. -/
inductive Extent where
  | part | word | line
  deriving DecidableEq, Repr

namespace Matcher

def isIn (m : Matcher) (s : Subject) : Bool :=
  match m with
  | posix r => r.isIn s
  | perl r => (r.find? s 0).isSome

def findAll (m : Matcher) (s : Subject) : List Regex.Found :=
  match m with
  | posix r => r.findAll s
  | perl r => r.findAll s

def pattern (k : Text.Charset) (kind : PatternKind) (text : String) : Except RegexError Regex :=
  match kind with
  | .fixed => .ok (.ofChars (Text.Characters.of k text).chars.toList)
  | .extended => readRegex k { extended := true } text
  | _ => readRegex k { extended := false } text

/-- A pattern in the manner of Perl that stands for so much of a line. -/
def inside (extent : Extent) (text : String) : String :=
  match extent with
  | .part => text
  | .word => "(?<!\\w)(?:" ++ text ++ ")(?!\\w)"
  | .line => "^(?:" ++ text ++ ")$"

/-- What is looked for by some patterns, or what is wrong with them. -/
def ofPatterns (k : Text.Charset) (kind : PatternKind) (extent : Extent) (isFolded : Bool)
    (patterns : List String) : Except String Matcher :=
  match kind with
  | .perl =>
    match patterns with
    | [text] =>
      let text := String.ofList (Text.Characters.of k (inside extent text)).chars.toList
      (PerlRegex.parse isFolded text).map .perl |>.mapError PerlError.message
    | _ => .error "the -P option only supports a single pattern"
  | kind =>
    match patterns.mapM (pattern k kind) with
    | .error e => .error e.message
    | .ok regexes =>
      let regex := Regex.anyOf regexes
      let regex := match extent with
        | .part => regex
        | .word => regex.asWord
        | .line => regex.asWhole
      .ok (.posix (if isFolded then regex.folded else regex))

end Matcher

/-- What can stand out among what is shown. -/
inductive Role where
  | selectedLine | contextLine | selectedMatch | contextMatch
  | fileName | lineNumber | byteOffset | separator
  deriving DecidableEq, Repr

/-- The colours of the roles. -/
structure Colours where
  /-- What has no code does not stand out. -/
  code : Role → String
  /-- Whether the sequences also clear what is left of a line on the screen. -/
  clears : Bool
  /-- Whether the two kinds of lines change places where lines that do not match are looked for. -/
  swaps : Bool

namespace Colours

def usual : Colours where
  code
    | .selectedLine | .contextLine => ""
    | .selectedMatch | .contextMatch => "01;31"
    | .fileName => "35"
    | .lineNumber | .byteOffset => "32"
    | .separator => "36"
  clears := true
  swaps := false

def roles (name : String) : List Role :=
  match name with
  | "mt" => [.selectedMatch, .contextMatch]
  | "ms" => [.selectedMatch]
  | "mc" => [.contextMatch]
  | "sl" => [.selectedLine]
  | "cx" => [.contextLine]
  | "fn" => [.fileName]
  | "ln" => [.lineNumber]
  | "bn" => [.byteOffset]
  | "se" => [.separator]
  | _ => []

/-- The colours with other codes, as a list of settings gives them. The first setting that is none
ends the list. -/
def read (c : Colours) : List (List Char) → Colours
  | [] => c
  | setting :: rest =>
    let name := String.ofList (setting.takeWhile (· ≠ '='))
    let c := { c with clears := c.clears && name ≠ "ne", swaps := c.swaps || name = "rv" }
    match setting.dropWhile (· ≠ '=') with
    | [] => read c rest
    | _ :: code =>
      if name.isEmpty || !code.all (fun x => x.isDigit || x = ';') then c
      else
        let changed := roles name
        read { c with code := fun r =>
          if changed.contains r then String.ofList code else c.code r } rest

def on (c : Colours) (r : Role) : String :=
  let code := c.code r
  if code.isEmpty then "" else "\x1b[" ++ code ++ "m" ++ if c.clears then "\x1b[K" else ""

def off (c : Colours) (r : Role) : String :=
  if (c.code r).isEmpty then "" else "\x1b[m" ++ if c.clears then "\x1b[K" else ""

def mark (c : Option Colours) (r : Role) (text : String) : String :=
  match c with
  | none => text
  | some c => c.on r ++ text ++ c.off r

end Colours
end PipelineRunner.Utility.LineSearch

/-! ### Looking for lines

Looking for lines in files that match an expression. -/

namespace PipelineRunner.Utility

open Host Text Job

def grepOptions : List Known :=
  [.value "e" "regexp", .value "f" "file", .flag "iy" "ignore-case", .flag "" "no-ignore-case",
    .flag "v" "invert-match", .flag "w" "word-regexp", .flag "x" "line-regexp", .flag "c" "count",
    .loose "" "color", .loose "" "colour", .flag "L" "files-without-match",
    .flag "l" "files-with-matches", .value "m" "max-count", .flag "o" "only-matching",
    .flag "q" "quiet", .flag "" "silent", .flag "s" "no-messages", .flag "b" "byte-offset",
    .flag "H" "with-filename", .flag "h" "no-filename", .value "" "label", .flag "n" "line-number",
    .flag "T" "initial-tab", .flag "Z" "null", .value "A" "after-context",
    .value "B" "before-context", .value "C" "context", .flag "a" "text", .value "" "binary-files",
    .value "D" "devices", .value "d" "directories", .value "" "exclude", .value "" "exclude-from",
    .value "" "exclude-dir", .flag "I" "I", .value "" "include", .flag "r" "recursive",
    .flag "R" "dereference-recursive", .flag "" "line-buffered", .flag "U" "binary",
    .flag "z" "null-data", .flag "E" "extended-regexp", .flag "F" "fixed-strings",
    .flag "G" "basic-regexp", .flag "P" "perl-regexp", .value "" "group-separator",
    .flag "" "no-group-separator"]

/-- What is done with a file that is no text. -/
inductive NoText where
  /-- Only that it matches is told. -/
  | announced
  | skipped
  /-- It is searched like any other. -/
  | shown
  deriving DecidableEq, Repr

/-- How lines are looked for and shown. -/
structure LineSearch where
  arguments : Arguments
  charset : Charset
  matcher : LineSearch.Matcher
  colours : Option LineSearch.Colours
  noText : NoText
  /-- So many lines at most. -/
  most : Option Nat
  before : Nat
  after : Nat
  hasContext : Bool
  named : Bool

namespace LineSearch

def has (s : LineSearch) (key : String) : Bool := s.arguments.has key

def quiet (s : LineSearch) : Bool := s.has "quiet" || s.has "silent"

/-- Whether the lines that do not match are looked for. -/
def isInverted (s : LineSearch) : Bool := s.has "invert-match"

def separator (s : LineSearch) : Char := if s.has "null-data" then Char.ofNat 0 else '\n'

/-- Whether only names are shown, or nothing at all. -/
def stopsAtFirst (s : LineSearch) : Bool :=
  s.quiet || s.has "files-with-matches" || s.has "files-without-match"

def isSummary (s : LineSearch) : Bool := s.stopsAtFirst || s.has "count"

/-- A line with its number and the place where it begins. -/
structure Numbered where
  text : String
  number : Nat
  offset : Nat

/-- How far a file has been searched. -/
structure State where
  number : Nat := 0
  offset : Nat := 0
  selected : Nat := 0
  /-- So many lines are still shown behind the last one that was selected. -/
  trailing : Nat := 0
  /-- Lines that may be shown in front of one that is selected, the latest first. -/
  held : List Numbered := []
  /-- The number of the last line that has been shown. -/
  shown : Option Nat := none
  /-- Whether anything has been shown of an earlier file. -/
  follows : Bool := false
  /-- Whether a line could not be shown because it is no text. -/
  isSpoiled : Bool := false

def mark (s : LineSearch) (r : Role) (text : String) : String := Colours.mark s.colours r text

def nameLead (s : LineSearch) (name : String) (sign : String) : String :=
  s.mark .fileName name ++
    if s.has "null" then String.singleton (Char.ofNat 0) else s.mark .separator sign

/-- What stands in front of a line, or of a part of it that begins at the offset; numbers take up
so much room. -/
def lead (s : LineSearch) (name sign : String) (room : Nat) (l : Numbered) (part : String) :
    String :=
  let numbered (key : String) (r : Role) (n : Nat) : String :=
    if s.has key then s.mark r (rightAligned room (toString n)) ++ s.mark .separator sign else ""
  let isLed := s.named || s.has "line-number" || s.has "byte-offset"
  (if s.named then s.nameLead name sign else "") ++
    numbered "line-number" .lineNumber l.number ++ numbered "byte-offset" .byteOffset l.offset ++
    (if s.has "initial-tab" && isLed && !part.isEmpty then "\t" else "")

/-- A text that ends without its last carriage return, and that. -/
def withoutReturn (text : String) : String × String :=
  if text.endsWith "\x0d" then (String.ofList text.toList.dropLast, "\x0d") else (text, "")

def coloured (s : LineSearch) (colours : Colours) (isSelected : Bool) (text : String) : String :=
  let line := if isSelected != (s.isInverted && colours.swaps) then Role.selectedLine
    else .contextLine
  let part := if isSelected then Role.selectedMatch else .contextMatch
  let c := Characters.of s.charset text
  let found := if isSelected != s.isInverted && !(colours.code part).isEmpty then
      (s.matcher.findAll c.chars).filter fun f => f.start < f.finish
    else []
  let (shown, last) := found.foldl (fun ((shown, last) : String × Nat) f =>
    (shown ++ colours.on line ++ c.slice last f.start ++ colours.on part ++
      c.slice f.start f.finish ++ colours.off part, f.finish)) ("", 0)
  let (rest, ending) := withoutReturn (c.from_ last)
  shown ++ (if rest.isEmpty then "" else colours.on line ++ rest ++ colours.off line) ++ ending

def isShowable (s : LineSearch) (text : String) : Bool :=
  s.noText = .shown || (s.charset.text? text).isSome

/-- Shows a line, or the parts of it that match; yields whether all of that can be shown. -/
def showLine (s : LineSearch) (name : String) (room : Nat) (isSelected : Bool) (l : Numbered) :
    Job Bool := do
  let sign := if isSelected then ":" else "-"
  if s.has "only-matching" then
    if isSelected = s.isInverted then return true
    let c := Characters.of s.charset l.text
    let parts := (s.matcher.findAll c.chars).filterMap fun f =>
      if f.start = f.finish then none
      else some ((c.slice 0 f.start).length, c.slice f.start f.finish)
    let role := if isSelected then Role.selectedMatch else .contextMatch
    let good := parts.takeWhile fun part => s.isShowable part.2
    each (fun ((place, part) : Nat × String) =>
      let lead := s.lead name sign room { l with offset := l.offset + place } part
      print ((lead ++ s.mark role part).push s.separator)) good
    pure (good.length = parts.length)
  else if s.isShowable l.text then
    let text := match s.colours with
      | none => l.text
      | some colours => s.coloured colours isSelected l.text
    print ((s.lead name sign room l l.text ++ text).push s.separator)
    pure true
  else pure false

/-- Shows a separator between groups of lines that do not touch. -/
def showGap (s : LineSearch) (state : State) (next : Nat) : Job Unit :=
  let isGap := match state.shown with
    | some n => n + 1 < next
    | none => state.follows
  if s.hasContext && isGap && !s.has "no-group-separator" then
    printLine (s.mark .separator ((s.arguments.last? "group-separator").getD "--"))
  else pure ()

/-- The parts of a line that are lines of their own where there is no text. -/
def pieces (isBinary : Bool) (text : String) : List String :=
  if isBinary then (Text.splitAt (Char.ofNat 0) text.toList).map String.ofList else [text]

def step (s : LineSearch) (name : String) (room : Nat) (isBinary : Bool) (state : State)
    (l : Line) : Job (Act.Step State State) := do
  let number := state.number + 1
  let line : Numbered := ⟨l.text, number, state.offset⟩
  let state := { state with number, offset := state.offset + l.text.length + 1 }
  let show? (isSelected : Bool) (l : Numbered) (state : State) : Job State := do
    let good ← s.showLine name room isSelected l
    pure { state with isSpoiled := state.isSpoiled || !good }
  if s.most.any (· ≤ state.selected) then
    if 0 < state.trailing then
      let state ← show? false line state
      pure (.again { state with trailing := state.trailing - 1 })
    else pure (.done state)
  else
    let isWanted (piece : String) : Bool :=
      s.matcher.isIn (Characters.of s.charset piece).chars != s.isInverted
    let count := ((pieces isBinary l.text).filter isWanted).length
    if 0 < count then
      let next := { state with selected := state.selected + count }
      if s.stopsAtFirst || (isBinary && !s.has "count") then pure (.done next)
      else
        let next ← if s.has "count" then pure next else do
          s.showGap state (number - state.held.length)
          let mut next := next
          for l in state.held.reverse do
            next ← show? false l next
          show? true line next
        let next := { next with trailing := s.after, held := [], shown := some number }
        pure (if s.most.any (· ≤ next.selected) && s.after = 0 then .done next else .again next)
    else if 0 < state.trailing && !s.isSummary then
      let state ← show? false line state
      pure (.again { state with trailing := state.trailing - 1, shown := some number })
    else pure (.again { state with held := (line :: state.held).take s.before })

/-- The room that the numbers of a file take up where lines are to stand below each other. -/
def room (s : LineSearch) (d : Nat) : Job Nat := do
  if !s.has "initial-tab" then return 0
  let node : Except FileError (Option Nat) ← ask (.node d)
  let t := (← look).files
  let size := match node with
    | .ok (some i) => match t.content i with
      | .file bytes => some bytes.length
      | .program _ => some (sizeOf t i)
      | _ => none
    | _ => none
  match size with
  | none => pure 19
  | some n => pure (toString (n + if s.has "line-number" then 1 else 0)).length

/-- What has come of searching a file: whether a line has been selected, and whether any line has
been shown so far. -/
structure Outcome where
  found : Bool := false
  hasShown : Bool := false

def searchOpen (s : LineSearch) (name : String) (d : Nat) (follows : Bool) :
    Job (Except FileError Outcome) := do
  let nothing : Outcome := { hasShown := follows }
  let first : Except FileError String ← act (Act.read d 32768)
  match first with
  | .error e => pure (.error e)
  | .ok block =>
    let isBinary := s.noText ≠ .shown && !s.has "null-data" &&
      block.toList.contains (Char.ofNat 0)
    if (isBinary && s.noText = .skipped) || s.most = some 0 then pure (.ok nothing)
    else
      let (lines, begun) := cutLines s.separator [] [] block.toList
      let reader : Reader := ⟨d, s.separator, 32768, lines, begun, false⟩
      let room ← s.room d
      let result ← eachLine reader (s.step name room isBinary) { follows }
      match result with
      | .error e => pure (.error e)
      | .ok state =>
        let found := 0 < state.selected
        let showName : Job Unit :=
          print (s.mark .fileName name ++
            if s.has "null" then String.singleton (Char.ofNat 0) else "\n")
        if s.quiet then pure ()
        else if s.has "files-with-matches" then
          if found then showName
        else if s.has "files-without-match" then
          if !found then showName
        else if s.has "count" then
          let lead := if s.named then s.nameLead name ":" else ""
          printLine (lead ++ toString state.selected)
        else if (isBinary && found) || (state.isSpoiled && s.noText = .announced) then
          printLine ((← get).title ++ ": " ++ name ++ ": binary file matches")
        pure (.ok { found, hasShown := follows || state.shown.isSome })

/-- Whether a name fits one of the patterns that an option gives. -/
def fitsAny (s : LineSearch) (key name : String) : Bool :=
  (s.arguments.values key).any fun p =>
    let pattern := Shell.Pattern.of (Shell.Glyphs.ofText false p)
    Shell.Pattern.isMatch pattern name.toList ||
      Shell.Pattern.isMatch pattern (bareName name).toList

def wants (s : LineSearch) (name : String) : Bool :=
  !s.fitsAny "exclude" name && (!s.has "include" || s.fitsAny "include" name)

/-- The files at a path and below it that are to be searched. -/
def filesBelow (s : LineSearch) (t : FileTree) : Nat → String → Nat → List String
  | 0, _, _ => []
  | fuel + 1, path, i =>
    match t.content i with
    | .directory _ entries =>
      entries.flatMap fun e =>
        let path := if path.isEmpty then e.1 else Path.join path e.1
        match t.content e.2 with
        | .directory .. =>
          if s.fitsAny "exclude-dir" e.1 then [] else s.filesBelow t fuel path e.2
        | .file _ | .program _ => if s.wants path then [path] else []
        | _ => []
    | _ => [path]

def searchOne (s : LineSearch) (name : String) (follows : Bool) : Job Outcome := do
  let shown := if name = "-" then (s.arguments.last? "label").getD "(standard input)" else name
  let nothing : Outcome := { hasShown := follows }
  let refuse (e : FileError) : Job Outcome := do
    if s.has "no-messages" then atLeast 2 else fault 2 (shown ++ ": " ++ e.reason)
    pure nothing
  match ← openInput name with
  | .error e => refuse e
  | .ok d =>
    let result ← s.searchOpen shown d follows
    closeInput d
    match result with
    | .ok outcome => pure outcome
    | .error .isDirectory =>
      if s.arguments.last? "directories" = some "skip" then pure nothing else refuse .isDirectory
    | .error e => refuse e

/-- Searches the inputs one after the other; yields whether a line has been selected. -/
def searchAll (s : LineSearch) (sofar : Outcome) : List String → Job Bool
  | [] => pure sofar.found
  | name :: rest => do
    let here ← s.searchOne name sofar.hasShown
    if here.found && s.quiet then stop 0
    else s.searchAll { here with found := sofar.found || here.found } rest

end LineSearch

/-- Complains about the way that `grep` has been called, and exits. -/
def grepMisused {α : Type} (complaint : String) : Job α := do
  let title := (← get).title
  let lead := if complaint.isEmpty then "" else s!"{title}: {complaint}\n"
  act (Act.print 2 (lead ++ s!"Usage: {title} [OPTION]... PATTERNS [FILE]...\n" ++
    s!"Try '{title} --help' for more information.\n"))
  exit 2

/-- Arguments in which a number as an option is the size of the context. -/
def contextArguments (args : List String) : List String :=
  args.map fun a =>
    let cs := a.toList.drop 1
    if a.startsWith "-" && !cs.isEmpty && cs.all Char.isDigit then "-C" ++ String.ofList cs else a

def patternKind (a : Arguments) : Job LineSearch.PatternKind := do
  let asked := ["extended-regexp", "fixed-strings", "basic-regexp", "perl-regexp"].filter a.has
  let last := a.lastOf? asked
  if 1 < asked.length then fail 2 "conflicting matchers specified"
  pure (match last with
    | some "fixed-strings" => .fixed
    | some "extended-regexp" => .extended
    | some "perl-regexp" => .perl
    | _ => .basic)

def searchColours (a : Arguments) : Job (Option LineSearch.Colours) := do
  match a.lastOf? ["color", "colour"] with
  | none => pure none
  | some key =>
    match (a.last? key).getD "" with
    | "always" | "yes" | "force" =>
      let settings := (← value? "GREP_COLORS").getD ""
      pure (some (LineSearch.Colours.usual.read (Text.splitAt ':' settings.toList)))
    | "" | "never" | "no" | "none" | "auto" | "tty" | "if-tty" => pure none
    | _ => grepMisused ""

/-- Complains if devices are to be treated in an unknown manner. -/
def checkDevices (a : Arguments) : Job Unit :=
  if (a.values "devices").all fun v => v = "read" || v = "skip" then pure ()
  else fail 2 "unknown devices method"

/-- What is done with files that are no text. -/
def noText (a : Arguments) : Job NoText :=
  match a.lastOf? ["text", "I", "binary-files"] with
  | none => pure .announced
  | some "text" => pure .shown
  | some "I" => pure .skipped
  | some key =>
    match a.last? key with
    | some "binary" => pure .announced
    | some "without-match" => pure .skipped
    | some "text" => pure .shown
    | _ => fail 2 "unknown binary-files type"

/-- Looks for lines; without an option for it the patterns are of a kind that is `usual`. -/
def grepAs (usual : List String) (args : List String) : Job Unit := do
  match Arguments.read grepOptions .anywhere (usual ++ contextArguments args) with
  | .error text => grepMisused text
  | .ok a =>
    let given := a.has "regexp" || a.has "file"
    if !given && a.operands.isEmpty then grepMisused ""
    let k ← charset
    let ofFiles ← collect (fun name => do
      match ← contentOf (plainly 2) name with
      | some text => pure ((linesOf '\n' text).map (·.text))
      | none => exit 2) (a.values "file")
    let typed := if given then a.values "regexp" else a.operands.take 1
    let patterns := typed.flatMap (fun p => (Text.splitAt '\n' p.toList).map String.ofList) ++
      ofFiles.flatten
    let operands := if given then a.operands else a.operands.drop 1
    let number (key complaint : String) : Job (Option Nat) :=
      match a.last? key with
      | none => pure none
      | some text =>
        match Text.digits? text.toList with
        | some n => pure (some n)
        | none =>
          if key = "max-count" && text.startsWith "-" then pure none
          else fail 2 complaint
    let context (key : String) : Job (Option Nat) :=
      let text := (a.last? key).getD ""
      number key s!"{text}: invalid context length argument"
    let around ← context "context"
    let before ← context "before-context"
    let after ← context "after-context"
    let most ← number "max-count" "invalid max count"
    checkDevices a
    let kind ← patternKind a
    let colours ← searchColours a
    let noText ← noText a
    let extent : LineSearch.Extent :=
      if a.has "line-regexp" then .line else if a.has "word-regexp" then .word else .part
    let isFolded := a.lastOf? ["ignore-case", "no-ignore-case"] = some "ignore-case"
    match LineSearch.Matcher.ofPatterns k kind extent isFolded patterns with
    | .error text => fail 2 text
    | .ok matcher =>
      let recursive := (a.lastOf? ["recursive", "dereference-recursive", "directories"]).any fun key =>
        key ≠ "directories" || a.last? key = some "recurse"
      let s : LineSearch :=
        { arguments := a, charset := k, matcher, colours, noText, most
          before := (before.orElse fun _ => around).getD 0
          after := (after.orElse fun _ => around).getD 0
          hasContext := before.isSome || after.isSome || around.isSome
          named := match a.lastOf? ["with-filename", "no-filename"] with
            | some key => key = "with-filename"
            | none => 1 < operands.length || recursive }
      let seen ← look
      let t := seen.files
      let names :=
        if !recursive then inputs operands
        else
          (if operands.isEmpty then [""] else operands).flatMap fun name =>
            match t.find? seen.directory (if name.isEmpty then "." else name) true with
            | some i => if t.isDirectory i then s.filesBelow t (t.nodes.size + 1) name i else [name]
            | none => [name]
      let isSingle := operands.length = 1 && names = operands
      let s := if recursive && isSingle && !a.has "with-filename" then { s with named := false }
        else s
      let found ← s.searchAll {} names
      if (← get).code = 0 && !found then atLeast 1

/-- Looks for lines that match an expression. -/
def grep (args : List String) : Job Unit := grepAs [] args

def egrep (args : List String) : Job Unit := grepAs ["-E"] args

def fgrep (args : List String) : Job Unit := grepAs ["-F"] args

end PipelineRunner.Utility
