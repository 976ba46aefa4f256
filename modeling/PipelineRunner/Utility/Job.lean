import PipelineRunner.Host.Machine
import PipelineRunner.Shell.Format
import PipelineRunner.Text.Bytes

/-!
How utilities write names and arguments into their complaints: between quotation marks, or so that
a shell can read them again. What cannot be shown stands there as an escape.

What utilities do: they ask the host, print, and complain. What a utility prints is collected and
written in larger pieces, at the latest when it exits or complains.
-/

namespace PipelineRunner.Utility

open Host Text

def quoted (s : String) : String :=
  let pieces := (shownParts (s.length + 1) s.toList).map fun (shown, cs) =>
    if cs = ['\\'] then "\\\\"
    else String.ofList (if shown then cs else cs.flatMap escapeOf)
  Bytes.ofText "‘" ++ String.join pieces ++ Bytes.ofText "’"

/-- A byte text with straight quotation marks for the others, which are three bytes each. -/
def straightened : List Char → List Char
  | 'â' :: '\x80' :: c :: cs =>
    if c = '\x98' || c = '\x99' then '\'' :: straightened cs
    else 'â' :: '\x80' :: straightened (c :: cs)
  | c :: cs => c :: straightened cs
  | [] => []

/-- Whether a character may stand in a text between double quotes. -/
def isMild (c : Char) : Bool := c.isAlphanum || "%+,-./:=@]_ '".toList.contains c

/-- Between which quotes a text goes on. -/
inductive Marks where
  | none
  | plain
  /-- Quotes with a dollar sign in front, within which there are escapes. -/
  | escapes

/-- The parts of a text between quotes. -/
def shellPieces : Marks → List (Bool × List Char) → List Char
  | .none, [] => []
  | _, [] => ['\'']
  | marks, (true, cs) :: rest =>
    let opening : List Char := match marks with
      | .none => ['\'']
      | .plain => []
      | .escapes => ['\'', '\'']
    let here : List Char := if cs = ['\''] then ['\'', '\\', '\'', '\''] else cs
    opening ++ here ++ shellPieces .plain rest
  | marks, (false, cs) :: rest =>
    let opening : List Char := match marks with
      | .none => ['$', '\'']
      | .plain => ['\'', '$', '\'']
      | .escapes => []
    opening ++ cs.flatMap escapeOf ++ shellPieces .escapes rest

/-- A text between quotes as a shell reads it. -/
def inShellQuotes (s : String) : String :=
  let ps := shownParts (s.length + 1) s.toList
  if s.toList.contains '\'' && isShownText s && s.toList.all isMild then "\"" ++ s ++ "\""
  else
    match ps with
    | [] => "''"
    | (false, _) :: _ => "''" ++ String.ofList (shellPieces .none ps)
    | _ => String.ofList (shellPieces .none ps)

/-- Whether a shell reads a character as something else than itself. -/
def isSpecial (c : Char) : Bool := " !\"$&()*;<=>?[\\^`|'".toList.contains c

def asArgument (s : String) : String :=
  let head := s.toList.headD ' '
  if s = "\x7b" || s = "\x7d" || !isShownText s || s.toList.any isSpecial ||
      head = '#' || head = '~' || s.isEmpty then
    inShellQuotes s
  else s

/-- A name in front of a colon: it is an argument without a colon of its own. -/
def asName (s : String) : String := if s.toList.contains ':' then inShellQuotes s else asArgument s


/-- What a utility keeps while it runs. -/
structure Desk where
  /-- The name that it has been called by. -/
  title : String
  environment : List (String × String) := []
  /-- What it has printed and not yet written, the latest first, and how much that is. -/
  pending : List String := []
  size : Nat := 0
  /-- The code that it will exit with. -/
  code : Nat := 0
  /-- The code that it exits with if its output cannot be written. -/
  failure : Nat := 1

/-- Something that a utility does and that yields a value. -/
abbrev Job (α : Type) : Type := StateT Desk Act α

namespace Job

variable {α σ : Type}

/-- Does something that knows nothing of what the utility keeps. -/
def act (x : Act α) : Job α := fun d => do return (← x, d)

def ask (r : Request) : Job r.Answer := act (Act.ask r)

def look : Job Surroundings := act Act.look

def change (f : Surroundings → Except FileError FileTree) : Job (Except FileError Unit) :=
  act (Act.change f)

/-- How bytes make up characters for the user. -/
def charset : Job Charset := do return .ofEnvironment (← get).environment

/-- Complains at once, in front of what has been printed and not yet written. -/
def interject (text : String) : Job Unit := do
  let line := (← get).title ++ ": " ++ text ++ "\n"
  match ← charset with
  | .utf8 => act (Act.print 2 line)
  | .bytes => act (Act.print 2 (String.ofList (straightened line.toList)))

def stop (code : Nat) : Job α := fun _ => Act.exit code

def flush : Job Unit := do
  let d ← get
  if 0 < d.size then
    set { d with pending := [], size := 0 }
    match ← act (Act.write 1 (String.join d.pending.reverse)) with
    | .ok () => pure ()
    | .error e =>
      let reason := e.reason
      interject s!"write error: {reason}"
      stop d.failure

/-- Complains, behind everything that has been printed. -/
def warn (text : String) : Job Unit := do
  flush
  interject text

/-- So much is printed before it is written. -/
def room : Nat := 4096

def print (text : String) : Job Unit := do
  modify fun d => { d with pending := text :: d.pending, size := d.size + text.utf8ByteSize }
  if room ≤ (← get).size then flush

def printLine (text : String) : Job Unit := print (text ++ "\n")

def exit (code : Nat) : Job α := do
  flush
  stop code

/-- Sees to it that the exit code is not lower than this one. -/
def atLeast (code : Nat) : Job Unit := modify fun d => { d with code := Nat.max d.code code }

def fault (code : Nat) (text : String) : Job Unit := do
  warn text
  atLeast code

def fail (code : Nat) (text : String) : Job α := do
  warn text
  exit code

def pointToHelp (code : Nat) : Job α := do
  let title := (← get).title
  act (Act.print 2 s!"Try '{title} --help' for more information.\n")
  exit code

/-- Complains about the way that it has been called, points to its help, and exits. -/
def misuse (code : Nat) (text : String) : Job α := do
  warn text
  pointToHelp code

def iterate (step : σ → Job (Act.Step σ α)) (s : σ) : Job α := fun d =>
  Act.iterate (fun (s, d) => do
    match ← step s d with
    | (.again s, d) => pure (.again (s, d))
    | (.done a, d) => pure (.done (a, d))) (s, d)

def each (f : α → Job Unit) : List α → Job Unit
  | [] => pure ()
  | a :: rest => do
    f a
    each f rest

def value? (name : String) : Job (Option String) := do
  return List.lookup name (← get).environment

def routine (failure : Nat) (x : List String → Job Unit) (c : Call) : Routine :=
  let desk : Desk := { title := c.argv.headD "", environment := c.environment, failure }
  let main : Job Unit := do
    x (c.argv.drop 1)
    exit (← get).code
  main desk fun _ => .exit (.code 0)

end Job
/-! ### Options

The options of utilities. An option is a letter behind a hyphen or a word behind two of them;
letters can stand together, words can be cut short, and an option may have a value. Options may
stand anywhere among the other arguments, up to two hyphens. -/

/-- Whether an option has a value. -/
inductive HasValue where
  | no
  | yes
  /-- Only if it is written together with the option. -/
  | maybe
  deriving DecidableEq, Repr

/-- An option of a utility: the letters that it goes by, and the word. -/
structure Known where
  letters : String
  word : String
  hasValue : HasValue
  deriving Repr

namespace Known

def flag (letters word : String) : Known := ⟨letters, word, .no⟩

def value (letters word : String) : Known := ⟨letters, word, .yes⟩

/-- An option that may have a value. -/
def loose (letters word : String) : Known := ⟨letters, word, .maybe⟩

/-- Options that have a letter only and no value. -/
def flags (letters : String) : List Known :=
  letters.toList.map fun c => flag (String.singleton c) ""

/-- The name by which the option is found: its word, or else its letters. -/
def key (k : Known) : String := if k.word.isEmpty then k.letters else k.word

end Known

/-- Where the options of a utility may stand. -/
inductive OptionPlace where
  | anywhere
  /-- In front of the operands. -/
  | inFront
  /-- In front of the operands, and no option is a negative number. -/
  | inFrontOfNumbers
  deriving DecidableEq, Repr

namespace OptionPlace

/-- Whether a text is a hyphen with a digit or a point behind it. -/
def isNegative (text : String) : Bool :=
  match text.toList with
  | '-' :: c :: _ => c == '.' || c.isDigit
  | _ => false

def isOperand (p : OptionPlace) (text : String) : Bool :=
  text = "-" || !text.startsWith "-" || (p == .inFrontOfNumbers && isNegative text)

end OptionPlace

/-- The arguments of a utility, sorted. -/
structure Arguments where
  /-- The options with their values, in order. -/
  options : List (String × String)
  operands : List String
  deriving Repr

namespace Arguments

def has (a : Arguments) (key : String) : Bool := a.options.any fun o => o.1 == key

def last? (a : Arguments) (key : String) : Option String :=
  (a.options.reverse.find? fun o => o.1 == key).map (·.2)

def values (a : Arguments) (key : String) : List String :=
  (a.options.filter fun o => o.1 == key).map (·.2)

def lastOf? (a : Arguments) (keys : List String) : Option String :=
  (a.options.reverse.find? fun o => keys.contains o.1).map (·.1)

def add (a : Arguments) (k : Known) (value : String) : Arguments :=
  { a with options := a.options ++ [(k.key, value)] }

/-- Reads the letters of one argument; the values that some have may be the next argument. -/
def letters (known : List Known) (a : Arguments) :
    List Char → List String → Except String (Arguments × List String)
  | [], rest => .ok (a, rest)
  | c :: cs, rest =>
    let named := String.singleton c
    match known.find? fun k => k.letters.toList.contains c with
    | none => .error s!"invalid option -- '{named}'"
    | some k =>
      match k.hasValue with
      | .no => letters known (a.add k "") cs rest
      | .maybe => .ok (a.add k (String.ofList cs), rest)
      | .yes =>
        if !cs.isEmpty then .ok (a.add k (String.ofList cs), rest)
        else
          match rest with
          | v :: rest => .ok (a.add k v, rest)
          | [] => .error s!"option requires an argument -- '{named}'"

def word (known : List Known) (a : Arguments) (text : String) (rest : List String) :
    Except String (Arguments × List String) :=
  let name := String.ofList (text.toList.takeWhile (· != '='))
  let value? : Option String :=
    if text.toList.contains '=' then some (Text.Bytes.drop (name.length + 1) text) else none
  let fitting := known.filter fun k => !k.word.isEmpty && k.word.startsWith name
  let take (k : Known) : Except String (Arguments × List String) :=
    let word := k.word
    match k.hasValue, value?, rest with
    | .no, some _, _ => .error s!"option '--{word}' doesn't allow an argument"
    | .yes, none, [] => .error s!"option '--{word}' requires an argument"
    | .yes, none, v :: rest => .ok (a.add k v, rest)
    | _, v, rest => .ok (a.add k (v.getD ""), rest)
  match fitting.find? fun k => k.word = name, fitting with
  | some k, _ => take k
  | none, [] => .error s!"unrecognized option '--{text}'"
  | none, [k] => take k
  | none, several =>
    let words := String.join (several.map fun k => s!" '--{k.word}'")
    .error s!"option '--{text}' is ambiguous; possibilities:{words}"

def readFrom (known : List Known) (place : OptionPlace) :
    Nat → Arguments → List String → Except String Arguments
  | 0, a, rest => .ok { a with operands := a.operands ++ rest }
  | _, a, [] => .ok a
  | fuel + 1, a, text :: rest =>
    if text = "--" then .ok { a with operands := a.operands ++ rest }
    else if place.isOperand text then
      if place = .anywhere then
        readFrom known place fuel { a with operands := a.operands ++ [text] } rest
      else .ok { a with operands := a.operands ++ text :: rest }
    else if text.startsWith "--" then do
      let (a, rest) ← word known a (Text.Bytes.drop 2 text) rest
      readFrom known place fuel a rest
    else do
      let (a, rest) ← letters known a (text.toList.drop 1) rest
      readFrom known place fuel a rest

def read (known : List Known) (place : OptionPlace) (args : List String) :
    Except String Arguments :=
  readFrom known place (args.length + 1) ⟨[], []⟩ args

end Arguments

namespace Job

/-- Reads the arguments, or complains about them and exits with a code. -/
def readArguments (code : Nat) (known : List Known) (place : OptionPlace) (args : List String) :
    Job Arguments :=
  match Arguments.read known place args with
  | .ok a => pure a
  | .error text => misuse code text

/-- Reads the arguments, of which the options may stand anywhere. -/
def arguments (code : Nat) (known : List Known) (args : List String) : Job Arguments :=
  readArguments code known .anywhere args

def needOperand (code : Nat) (a : Arguments) : Job Unit :=
  if a.operands.isEmpty then misuse code "missing operand" else pure ()

def allowOperands (code most : Nat) (a : Arguments) : Job Unit :=
  match a.operands.drop most with
  | [] => pure ()
  | extra :: _ => misuse code ("extra operand " ++ quoted extra)

end Job
end PipelineRunner.Utility
