import PipelineRunner.Shell.Pattern
import PipelineRunner.Utility.Input
import PipelineRunner.Utility.Listing

/-!
The expressions of `find`: tests of a file, and what is done with those that pass them. Nothing
between two of them means that both are wanted.
-/

namespace PipelineRunner.Utility.Find

open Host Text

/-- How a number is compared with one that is stated. -/
structure Measure where
  order : Ordering
  number : Nat
  deriving DecidableEq, Repr

namespace Measure

def fits (m : Measure) (n : Nat) : Bool := compare n m.number == m.order

/-- The measure that a text states: a number, with a sign in front if it is a bound. -/
def ofText? (text : String) : Option Measure :=
  match text.toList with
  | '+' :: cs => (Text.digits? cs).map (⟨.gt, ·⟩)
  | '-' :: cs => (Text.digits? cs).map (⟨.lt, ·⟩)
  | cs => (Text.digits? cs).map (⟨.eq, ·⟩)

end Measure

/-- What texts of a file can be compared with patterns. -/
inductive Label where
  | name
  | path
  /-- What a link says where it leads. -/
  | target
  deriving DecidableEq, Repr

/-- Which of some rights a file must have. -/
inductive RightsRule where
  | exactly
  | all
  | any
  deriving DecidableEq, Repr

/-- A test of a file. -/
inductive Test where
  | constant (value : Bool)
  | text (label : Label) (folded : Bool) (pattern : Shell.Pattern)
  | regex (r : Regex)
  /-- Its kind is one of these letters; `other` turns round whether links are followed. -/
  | kind (letters : List Char) (other : Bool)
  | size (m : Measure) (unit : Nat)
  | empty
  /-- Its age in units of so many milliseconds. -/
  | age (m : Measure) (unit : Nat)
  | newer (than : Int)
  | names (m : Measure)
  | number (m : Measure)
  | owner (m : Measure)
  | rights (rule : RightsRule) (bits : Nat)
  | same (node : Nat)
  | executable

/-- What can be done with a file. -/
inductive Deed where
  | print (ending : String)
  | display (format : String)
  | list
  | delete
  | prune
  | quit
  /-- Runs a command; `asks` wants an answer before, and `inside` is run in the file's directory. -/
  | run (argv : List String) (asks inside : Bool)
  /-- Runs a command for many files together. The number tells it from others. -/
  | gather (number : Nat) (argv : List String)

/-- What `find` does with each file. -/
inductive Expression where
  | test (t : Test)
  | deed (d : Deed)
  | negation (e : Expression)
  | both (a b : Expression)
  | either (a b : Expression)
  /-- The first is looked at for its deeds only. -/
  | list (a b : Expression)

/-- What holds for the whole search. -/
structure Scope where
  followsAll : Bool := false
  followsArguments : Bool := false
  deepest : Option Nat := none
  highest : Nat := 0
  insideFirst : Bool := false
  isExtended : Bool := false
  charset : Charset := .utf8
  /-- Whether anything is done that takes the place of printing. -/
  acts : Bool := false
  gathers : Nat := 0

/-- An expression in its written order. -/
inductive Token where
  | opening
  | closing
  | not (text : String)
  | both (text : String)
  | either (text : String)
  | list
  | leaf (name : String) (e : Expression)

/-- The name between the quotation marks of complaints. -/
def marked (text : String) : String := "\x60" ++ text ++ "'"

def bits? (text : String) : Option Nat :=
  (Rights.parse? text).map fun changes => Rights.applyAll false 0 changes 0

/-- Reads the letters of kinds that an argument lists, behind others. -/
def kindLetters (name : String) : List Char → Except String (List Char)
  | [] => .error ("Last file type in list argument to " ++ name ++
      " is missing, i.e., list is ending on: ','")
  | c :: rest =>
    if "bcdpfls".toList.contains c then
      match rest with
      | [] => .ok [c]
      | ',' :: rest => (kindLetters name rest).map (c :: ·)
      | _ => .error ("Must separate multiple arguments to " ++ name ++ " using: ','")
    else .error ("Unknown argument to " ++ name ++ ": " ++ String.singleton c)

def kinds (name text : String) : Except String (List Char) :=
  if text.isEmpty then .error ("Arguments to " ++ name ++ " should contain at least one letter")
  else kindLetters name text.toList

/-- The size that an argument states, with its unit. -/
def size (text : String) : Except String Test := do
  if text.isEmpty then throw "invalid null argument to -size"
  let last := text.toList.getLastD '0'
  let (unit, body) : Nat × String ←
    if last.isDigit then pure (512, text)
    else
      let body := String.ofList text.toList.dropLast
      match last with
      | 'b' => pure (512, body)
      | 'c' => pure (1, body)
      | 'w' => pure (2, body)
      | 'k' => pure (1024, body)
      | 'M' => pure (1048576, body)
      | 'G' => pure (1073741824, body)
      | c => throw ("invalid -size type " ++ marked (String.singleton c))
  match Measure.ofText? body with
  | some m => pure (.size m unit)
  | none =>
    throw ("Invalid argument " ++ marked text ++ " to -size")

/-- Swaps the signs of repetition that need a backslash with those that do without one. -/
def swapped : List Char → List Char
  | '\\' :: c :: cs => (if c == '+' || c == '?' then [c] else ['\\', c]) ++ swapped cs
  | c :: cs => (if c == '+' || c == '?' then ['\\', c] else [c]) ++ swapped cs
  | [] => []

/-- The regular expression that an argument states. -/
def regexOf (s : Scope) (folded : Bool) (text : String) : Except String Regex :=
  let written := if s.isExtended then text else String.ofList (swapped text.toList)
  match readRegex s.charset { extended := s.isExtended } written with
  | .ok r => .ok (if folded then r.folded else r)
  | .error e =>
    .error ("failed to compile regular expression '" ++ text ++ "': " ++ e.message)

/-- The node of a file that an argument names. -/
def nodeOf (seen : Surroundings) (path : String) : Except String Nat :=
  match seen.files.find seen.directory path true with
  | .ok i => .ok i
  | .error e => .error (quoted path ++ ": " ++ e.reason)

def patternTests : List (String × Label × Bool) :=
  [("-name", .name, false), ("-iname", .name, true), ("-path", .path, false),
    ("-wholename", .path, false), ("-ipath", .path, true), ("-iwholename", .path, true),
    ("-lname", .target, false), ("-ilname", .target, true)]

/-- The tests that look at an age, and its unit in milliseconds. -/
def ageTests : List (String × Nat) :=
  [("-mtime", 86400000), ("-ctime", 86400000), ("-atime", 86400000), ("-mmin", 60000),
    ("-cmin", 60000), ("-amin", 60000)]

def idleOptions : List String :=
  ["-noleaf", "-nowarn", "-warn", "-daystart", "-xdev", "-mount", "-ignore_readdir_race",
    "-noignore_readdir_race"]

def regexTypes : List String :=
  ["findutils-default", "ed", "emacs", "gnu-awk", "grep", "posix-awk", "awk", "posix-basic",
    "posix-egrep", "egrep", "posix-extended", "posix-minimal-basic", "sed"]

/-- Reads a test or an option that has an argument. -/
def readWith (seen : Surroundings) (s : Scope) (name arg : String) :
    Except String (Option (Scope × Expression)) := do
  let test (t : Test) : Except String (Option (Scope × Expression)) :=
    pure (some (s, .test t))
  let measured (f : Measure → Test) : Except String (Option (Scope × Expression)) :=
    match Measure.ofText? arg with
    | some m => test (f m)
    | none => throw ("invalid argument " ++ marked arg ++ " to " ++ marked name)
  let depth (f : Nat → Scope) : Except String (Option (Scope × Expression)) :=
    match Text.digits? arg.toList with
    | some n => pure (some (f n, .test (.constant true)))
    | none =>
      throw ("Expected a positive decimal integer argument to " ++ name ++ ", but got " ++
        quoted arg)
  match patternTests.find? fun t => t.1 == name with
  | some (_, label, folded) =>
    let text := if folded then arg.toLower else arg
    test (.text label folded (.of (Shell.Glyphs.ofText false text)))
  | none =>
    match List.lookup name ageTests with
    | some unit => measured (.age · unit)
    | none =>
      match name with
      | "-regex" => do test (.regex (← regexOf s false arg))
      | "-iregex" => do test (.regex (← regexOf s true arg))
      | "-regextype" =>
        if regexTypes.contains arg then
          let isExtended := !(["findutils-default", "ed", "emacs", "grep", "posix-basic",
            "posix-minimal-basic", "sed"].contains arg)
          pure (some ({ s with isExtended }, .test (.constant true)))
        else
          throw ("Unknown regular expression type " ++ quoted arg ++ "; valid types are " ++
            Text.join ", " (regexTypes.map quoted) ++ ".")
      | "-type" => do test (.kind (← kinds name arg) false)
      | "-xtype" => do test (.kind (← kinds name arg) true)
      | "-size" => do test (← size arg)
      | "-newer" | "-cnewer" | "-anewer" | "-newermm" => do
        test (.newer (seen.files.node (← nodeOf seen arg)).modified)
      | "-samefile" => do test (.same (← nodeOf seen arg))
      | "-newermt" =>
        match Calendar.instant? .common (instantOf seen.files.time) arg with
        | some t => test (.newer (millisecondsOf t))
        | none =>
          throw ("I cannot figure out how to interpret " ++ quoted arg ++ " as a date or time")
      | "-links" => measured .names
      | "-inum" => measured .number
      | "-uid" | "-gid" => measured .owner
      | "-user" | "-group" =>
        match if arg = "root" then some 0 else Text.digits? arg.toList with
        | some n => test (.owner ⟨.eq, n⟩)
        | none =>
          let kind := if name = "-user" then "user" else "group"
          if kind = "user" then throw (quoted arg ++ " is not the name of a known user")
          else throw (quoted arg ++ " is not the name of an existing group")
      | "-perm" =>
        let (rule, text) : RightsRule × String := match arg.toList with
          | '-' :: cs => (.all, String.ofList cs)
          | '/' :: cs => (.any, String.ofList cs)
          | _ => (.exactly, arg)
        match bits? text with
        | some bits => test (.rights rule bits)
        | none => throw ("invalid mode " ++ quoted arg)
      | "-maxdepth" => depth fun n => { s with deepest := some n }
      | "-mindepth" => depth fun n => { s with highest := n }
      | "-printf" => pure (some ({ s with acts := true }, .deed (.display arg)))
      | _ => pure none

/-- Reads a test, an option or a deed that stands for itself. -/
def readAlone (s : Scope) (name : String) : Option (Scope × Expression) :=
  let deed (d : Deed) : Option (Scope × Expression) := some ({ s with acts := true }, .deed d)
  let constant (s : Scope) : Option (Scope × Expression) := some (s, .test (.constant true))
  match name with
  | "-print" => deed (.print "\n")
  | "-print0" => deed (.print (String.singleton (Char.ofNat 0)))
  | "-ls" => deed .list
  | "-delete" => some ({ s with acts := true, insideFirst := true }, .deed .delete)
  | "-prune" => some (s, .deed .prune)
  | "-quit" => deed .quit
  | "-true" | "-readable" | "-writable" => constant s
  | "-false" | "-nouser" | "-nogroup" => some (s, .test (.constant false))
  | "-executable" => some (s, .test .executable)
  | "-empty" => some (s, .test .empty)
  | "-depth" | "-d" => constant { s with insideFirst := true }
  | "-follow" => constant { s with followsAll := true }
  | _ => if idleOptions.contains name then constant s else none

def runDeeds : List String := ["-exec", "-execdir", "-ok", "-okdir"]

/-- Reads a command, which ends with a semicolon, or with a plus behind two braces. -/
def readCommand (s : Scope) (name : String) :
    List String → List String → Except String ((Scope × Expression) × List String)
  | _, [] => .error ("missing argument to " ++ marked name)
  | done, ";" :: rest =>
    if done.isEmpty then .error ("invalid argument " ++ marked ";" ++ " to " ++ marked name)
    else
      let asks := name.startsWith "-ok"
      let inside := name.endsWith "dir"
      .ok (({ s with acts := true }, .deed (.run done.reverse asks inside)), rest)
  | done, word :: rest =>
    if word = "+" && done.head? = some "\x7b\x7d" && !name.startsWith "-ok" then
      let s := { s with acts := true, gathers := s.gathers + 1 }
      .ok ((s, .deed (.gather s.gathers (done.drop 1).reverse)), rest)
    else readCommand s name (word :: done) rest

/-- Whether an argument begins the expression, behind the paths. -/
def beginsExpression (text : String) : Bool :=
  text = "(" || text = "!" || (text.startsWith "-" && text != "-")

def readTokens (seen : Surroundings) :
    Nat → Option String → Scope → List Token → List String →
      Except (List String) (Scope × List Token)
  | 0, _, s, done, _ => .ok (s, done.reverse)
  | _, _, s, done, [] => .ok (s, done.reverse)
  | fuel + 1, before, s, done, name :: rest =>
    let go (t : Token) : Except (List String) (Scope × List Token) :=
      readTokens seen fuel (some name) s (t :: done) rest
    match name with
    | "(" => go .opening
    | ")" => go .closing
    | "!" | "-not" => go (.not name)
    | "-a" | "-and" => go (.both name)
    | "-o" | "-or" => go (.either name)
    | "," => go .list
    | _ =>
      let leaf (found : Scope × Expression) (rest : List String) :
          Except (List String) (Scope × List Token) :=
        readTokens seen fuel (some name) found.1 (.leaf name found.2 :: done) rest
      if !name.startsWith "-" || name = "-" then
        let hint := match before with
          | some before =>
            if seen.files.contains seen.directory name then
              ["possible unquoted pattern after predicate " ++ marked before ++ "?"]
            else []
          | none => []
        .error (("paths must precede expression: " ++ marked name) :: hint)
      else if runDeeds.contains name then
        match readCommand s name [] rest with
        | .ok (found, rest) => leaf found rest
        | .error e => .error [e]
      else
        match readAlone s name with
        | some found => leaf found rest
        | none =>
          match readWith seen s name (rest.headD "0") with
          | .error e =>
            if rest.isEmpty then .error ["missing argument to " ++ marked name] else .error [e]
          | .ok none =>
            if name.startsWith "-newer" then .error ["invalid predicate " ++ marked name]
            else .error ["unknown predicate " ++ marked name]
          | .ok (some found) =>
            if rest.isEmpty then .error ["missing argument to " ++ marked name]
            else leaf found (rest.drop 1)

/-- What is wrong with the end of an expression behind an operator. -/
def missingBehind (operator : String) : List Token → String
  | .closing :: _ => "expected an expression between '" ++ operator ++ "' and ')'"
  | _ => "expected an expression after '" ++ operator ++ "'"

/-- Whether nothing follows that an expression could begin with. -/
def endsHere : List Token → Bool
  | [] | .closing :: _ => true
  | _ => false

def nothingBefore (operator : String) : String :=
  "invalid expression; you have used a binary operator '" ++ operator ++ "' with nothing before it."

mutual

/-- An expression in parentheses, a negation, or a single test or deed. -/
def single : Nat → List Token → Except String (Expression × List Token)
  | 0, _ => .error "invalid expression"
  | _, [] => .error "invalid expression"
  | fuel + 1, t :: rest =>
    match t with
    | .leaf _ e => .ok (e, rest)
    | .opening =>
      match rest with
      | .closing :: _ => .error "invalid expression; empty parentheses are not allowed."
      | _ => do
        let unclosed :=
          "invalid expression; I was expecting to find a ')' somewhere but did not see one."
        if rest.isEmpty then throw unclosed
        let (e, rest) ← several fuel rest
        match rest with
        | .closing :: rest => pure (e, rest)
        | _ => throw unclosed
    | .not name => do
      if endsHere rest then throw (missingBehind name rest)
      let (e, rest) ← single fuel rest
      pure (.negation e, rest)
    | .both name | .either name => .error (nothingBefore name)
    | .list => .error (nothingBefore ",")
    | .closing => .error "you have too many ')'"

def together : Nat → List Token → Except String (Expression × List Token)
  | 0, _ => .error "invalid expression"
  | fuel + 1, ts => do
    let (a, rest) ← single fuel ts
    match rest with
    | .both name :: rest => do
      if endsHere rest then throw (missingBehind name rest)
      let (b, rest) ← together fuel rest
      pure (.both a b, rest)
    | .leaf .. :: _ | .opening :: _ | .not _ :: _ => do
      let (b, rest) ← together fuel rest
      pure (.both a b, rest)
    | rest => pure (a, rest)

def oneOf : Nat → List Token → Except String (Expression × List Token)
  | 0, _ => .error "invalid expression"
  | fuel + 1, ts => do
    let (a, rest) ← together fuel ts
    match rest with
    | .either name :: rest => do
      if endsHere rest then throw (missingBehind name rest)
      let (b, rest) ← oneOf fuel rest
      pure (.either a b, rest)
    | rest => pure (a, rest)

def several : Nat → List Token → Except String (Expression × List Token)
  | 0, _ => .error "invalid expression"
  | fuel + 1, ts => do
    let (a, rest) ← oneOf fuel ts
    match rest with
    | .list :: rest => do
      if endsHere rest then throw (missingBehind "," rest)
      let (b, rest) ← several fuel rest
      pure (.list a b, rest)
    | rest => pure (a, rest)

end

/-- The expression that some arguments state. Without a deed the files that pass are printed. -/
def parse (seen : Surroundings) (s : Scope) (args : List String) :
    Except (List String) (Scope × Expression) := do
  let (s, ts) ← readTokens seen (args.length + 1) none s [] args
  let printing : Expression := .deed (.print "\n")
  if ts.isEmpty then pure (s, printing)
  else
    match several (5 * ts.length + 5) ts with
    | .error e => throw [e]
    | .ok (e, []) => pure (s, if s.acts then e else .both e printing)
    | .ok (_, _) => throw ["you have too many ')'"]

end PipelineRunner.Utility.Find
