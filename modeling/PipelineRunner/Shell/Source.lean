import PipelineRunner.Shell.Command
import PipelineRunner.Text.Bytes
import PipelineRunner.Text.Basic

/-!
Why a text is no script of the shell.
-/

namespace PipelineRunner.Shell

/-- Why a text is no script. -/
inductive SyntaxError where
  /-- A token that does not fit, and the one that would. -/
  | unexpected (found : String) (expected : Option String)
  | openQuote
  | openBackquote
  | openBrace
  | openArithmetic
  | loopVariable
  | functionName
  /-- Something else than a number stands for a file descriptor. -/
  | descriptor
  /-- A token of the extended language that does not fit. -/
  | misplaced (token : String)
  /-- The text has come to its end in the midst of a command. -/
  | openCommand
  /-- The closing mark is missing. -/
  | openMark (mark : Char)
  /-- What is wrong with a condition, each with its line, and what stands there if anything does. -/
  | condition (complaints : List (Nat × String)) (token : Option String)
  /-- A counting loop has other expressions than three. -/
  | loopExpressions (written : String)
  deriving DecidableEq, Repr

namespace SyntaxError

def endName : String := "end of file"

def quotedName (text : String) : String := "\"" ++ text ++ "\""

def message : SyntaxError → String
  | unexpected found none => s!"{found} unexpected"
  | unexpected found (some expected) => s!"{found} unexpected (expecting {expected})"
  | openQuote => "Unterminated quoted string"
  | openBackquote => "EOF in backquote substitution"
  | openBrace => "Missing '\x7d'"
  | openArithmetic => "Missing '))'"
  | loopVariable => "Bad for loop variable"
  | functionName => "Bad function name"
  | descriptor => "Bad fd number"
  | misplaced token => s!"syntax error near unexpected token \x60{token}'"
  | openCommand => "syntax error: unexpected end of file"
  | openMark mark =>
    let mark := String.singleton mark
    s!"unexpected EOF while looking for matching \x60{mark}'"
  | condition _ none => "syntax error: unexpected end of file"
  | condition _ (some token) => s!"syntax error near \x60{token}'"
  | loopExpressions _ => "syntax error: arithmetic expression required"

/-- What is told behind the wording, where the given line has been read. -/
def details (line : String) : SyntaxError → List String
  | misplaced _ => [s!"\x60{line}'"]
  | condition _ (some _) => [s!"\x60{line}'"]
  | loopExpressions written => [s!"syntax error: \x60({written})'"]
  | _ => []

/-- Whether more text could make a script of what has been read. -/
def isOpen : SyntaxError → Bool
  | openQuote | openBackquote | openBrace | openArithmetic | openCommand | openMark _ => true
  | condition _ token => token.isNone
  | _ => false

end SyntaxError

/-- An error and the line that it has been noticed in, with its number. -/
structure Fault where
  line : Nat
  error : SyntaxError
  written : String := ""
  deriving DecidableEq, Repr

/-- What is said of a fault, each with the line that it is said of. -/
def Fault.report (f : Fault) : List (Nat × String) :=
  let complaints := match f.error with
    | .condition complaints _ => complaints
    | _ => []
  complaints ++ (f.error.message :: f.error.details f.written).map (f.line, ·)

/-! ### The text of a script

The text of a script while it is read: what is left of it, the line, and the documents that are to
stand behind the line. A backslash at the end of a line joins the next one to it, but between
single quotes. -/

/-- The words with a meaning of their own in the place of a command. -/
def keywords : List String :=
  ["!", "case", "do", "done", "elif", "else", "esac", "fi", "for", "if", "in", "then", "until",
    "while", "\x7b", "\x7d"]

/-- The words that have a meaning of their own only in the extended language. -/
def extendedKeywords : List String := ["[[", "function", "select", "time"]

/-- The words with a meaning of their own in a language. -/
def keywordsOf : Dialect → List String
  | .plain => keywords
  | .extended => keywords ++ extendedKeywords

/-- What a redirection does. -/
inductive ArrowKind where
  | file (use : FileUse)
  | copy
  /-- Makes both outputs lead to a file, unless a descriptor follows. -/
  | merge
  /-- Makes both outputs lead to a file. -/
  | both (use : FileUse)
  /-- Reads a document; the tabs in front of its lines may be dropped. -/
  | document (strips : Bool)
  /-- Reads a line. -/
  | line
  deriving DecidableEq, Repr

/-- A piece of a script. -/
inductive Token where
  | word (w : Word)
  | keyword (text : String)
  /-- An operator; a line end counts as one. -/
  | operator (text : String)
  | arrow (descriptor : Nat) (kind : ArrowKind)
  /-- A redirection whose descriptor a variable takes. -/
  | namedArrow (name : String) (descriptor : Nat) (kind : ArrowKind)
  | ended

namespace Token

def name : Token → String
  | word _ => "word"
  | keyword text => SyntaxError.quotedName text
  | operator "\n" => "newline"
  | operator text => SyntaxError.quotedName text
  | arrow .. | namedArrow .. => "redirection"
  | ended => SyntaxError.endName

def isOperator (text : String) : Token → Bool
  | operator s => s == text
  | _ => false

def isKeyword (text : String) : Token → Bool
  | keyword s => s == text
  | _ => false

/-- Whether a token ends a list of commands. -/
def closes : Token → Bool
  | ended => true
  | operator s => [")", ";;", ";&", ";;&"].contains s
  | keyword s => ["then", "else", "elif", "fi", "do", "done", "esac", "\x7d"].contains s
  | _ => false

end Token

/-- A document that is to stand behind the line. -/
structure Announced where
  number : Nat
  /-- The line behind it. -/
  mark : String
  /-- Whether its text is taken as it is. -/
  literal : Bool
  /-- Whether the tabs in front of its lines are dropped. -/
  strips : Bool

/-- A document that the end of the text has ended. -/
structure OpenDocument where
  /-- The line in front of it. -/
  line : Nat
  /-- Its last line. -/
  lastLine : Nat
  /-- The line that should have stood behind it. -/
  mark : String
  deriving DecidableEq, Repr

/-- A name that stands for other text in the place of a command. -/
structure Alias where
  name : String
  text : String
  deriving DecidableEq, Repr

/-- The text of a script. -/
structure Source where
  rest : List Char
  line : Nat := 1
  dialect : Dialect := .plain
  /-- The whole of the text, and the number of its first line. -/
  whole : List Char := []
  firstLine : Nat := 1
  /-- The text of the token that has been read last. -/
  recent : String := ""
  /-- Whether an assignment may stand next. -/
  mayAssign : Bool := false
  /-- Whether patterns may be combined. -/
  combines : Bool := false
  charset : Text.Charset := .bytes
  /-- A token that has been read and not been used. -/
  pushed : Option Token := none
  announced : List Announced := []
  /-- The documents that have been read. -/
  documents : List (Nat × Word) := []
  /-- The documents that the end of the text has ended. -/
  openDocuments : List OpenDocument := []
  /-- The number of the next document. -/
  fresh : Nat := 0
  aliases : List Alias := []
  /-- The aliases whose text is being read, and how much of the script stands behind it. -/
  openAliases : List (String × Nat) := []
  /-- Where a word stands that may be an alias too, since the text of one in front of it ends with
  a blank. -/
  nextAlias : Option Nat := none

/-- A step in reading a script. -/
abbrev Reading := StateT Source (Except Fault)

namespace Source

def ofText (dialect : Dialect) (text : String) (line : Nat) : Source :=
  let cs := text.toList
  { rest := cs, line, dialect, whole := cs, firstLine := line }

/-- A script at its beginning. In the extended language its last line has an end. -/
def ofScript (dialect : Dialect) (text : String) (line : Nat) : Source :=
  let isWhole := match dialect with
    | .plain => true
    | .extended => text.isEmpty || text.endsWith "\n" || text.endsWith "\\"
  ofText dialect (if isWhole then text else text ++ "\n") line

/-- What is left of a script, without the line ends that are joined. -/
def joined (line : Nat) : List Char → List Char × Nat
  | '\\' :: '\n' :: rest => joined (line + 1) rest
  | rest => (rest, line)

def rawChar? : Reading (Option Char) := fun s =>
  match s.rest with
  | [] => .ok (none, s)
  | c :: rest => .ok (some c, { s with rest })

/-- The next character behind joined line ends. -/
def char? : Reading (Option Char) := fun s =>
  let (rest, line) := joined s.line s.rest
  match rest with
  | [] => .ok (none, { s with rest, line })
  | c :: rest => .ok (some c, { s with rest, line })

def unread (c : Option Char) : Reading Unit := modify fun s =>
  { s with rest := c.toList ++ s.rest }

/-- Takes the next character if it is the given one. -/
def take? (c : Char) : Reading Bool := do
  let d ← char?
  if d = some c then pure true
  else
    unread d
    pure false

def countLine : Reading Unit := modify fun s => { s with line := s.line + 1 }

/-- Goes to the next line behind a line end. -/
def countLineAt (c : Char) : Reading Unit := if c = '\n' then countLine else pure ()

/-- Whether the text is one of the extended language. -/
def isExtended : Reading Bool := do pure ((← get).dialect = .extended)

def lineText (s : Source) (line : Nat) : String :=
  String.ofList ((Text.splitAt '\n' s.whole).getD (line - s.firstLine) [])

/-- The text is no script, which shows in the given line. -/
def refuseAt {α : Type} (line : Nat) (e : SyntaxError) : Reading α := fun s =>
  .error ⟨line, e, s.lineText line⟩

def refuse {α : Type} (e : SyntaxError) : Reading α := do refuseAt (← get).line e

/-- A mark is missing that closes what has begun in a line. -/
def refuseOpen {α : Type} (line : Nat) (mark : Char) (e : SyntaxError) : Reading α := do
  if ← isExtended then refuseAt line (.openMark mark) else refuse e

/-- Reads what a mark closes; that the mark is missing shows in a line. -/
def openedAt {α : Type} (line : Nat) (mark : Char) (x : Reading α) : Reading α := fun s =>
  match x.run s with
  | .error ⟨last, .openMark c, written⟩ =>
    .error ⟨if c = mark then line else last, .openMark c, written⟩
  | result => result

/-- The line of the last character that has been read. -/
def lastLine (s : Source) : Nat :=
  if s.recent = "\n" then s.line - 1 else s.line

def lineBehind (s : Source) : Nat :=
  if s.whole.getLast? == some '\n' then s.line else s.line + 1

/-- The text that the place up to which the text has been read lies in, or that ends there. -/
def nearText (s : Source) : String :=
  let taken := s.whole.take (s.whole.length - s.rest.length)
  let ended := taken.getLast? = some '\n'
  let front := ((if ended then taken.dropLast else taken).reverse.takeWhile (· != '\n')).reverse
  let line := if ended then front else front ++ s.rest.takeWhile (· != '\n')
  let isBlank (c : Char) : Bool := c = ' ' || c = '\t'
  /- The place itself counts if anything stands there, and what stands in front of it. -/
  let back := (line.take (front.length + 1)).reverse.dropWhile isBlank
  let parts := back.takeWhile fun c => !([' ', '\t', ';', '|', '&'].contains c)
  let mark := ((back.drop parts.length).take 1).filter fun c => !isBlank c
  String.ofList (mark ++ parts.reverse)

def unexpected {α : Type} (t : Token) (expected : Option String) : Reading α := do
  let s ← get
  match s.dialect, t with
  | .plain, _ => refuse (.unexpected t.name (expected.map SyntaxError.quotedName))
  | .extended, .ended =>
    refuseAt s.lineBehind .openCommand
  | .extended, t =>
    let token := match t with
      | .operator "\n" => "newline"
      | .operator text | .keyword text => text
      | _ => s.recent
    refuseAt s.lastLine (.misplaced token)

/-- Reads up to a single quote; the characters stand backwards. -/
def singleQuoted : List Char → Nat → List Char → Except Fault (String × Nat × List Char)
  | _, line, [] => .error { line, error := .openQuote }
  | taken, line, '\'' :: rest => .ok (String.ofList taken.reverse, line, rest)
  | taken, line, c :: rest =>
    singleQuoted (c :: taken) (if c = '\n' then line + 1 else line) rest

def quotedText : Reading String := fun s =>
  match s.dialect, singleQuoted [] s.line s.rest with
  | _, .ok (text, line, rest) => .ok (text, { s with line, rest })
  | .plain, .error e => .error e
  | .extended, .error _ => .error ⟨s.line, .openMark '\'', s.lineText s.line⟩

/-- Reads up to a single quote that no backslash stands in front of. The characters stand
backwards. -/
def escapedQuote : List Char → List Char → Option (List Char × List Char)
  | taken, '\\' :: c :: rest => escapedQuote (c :: '\\' :: taken) rest
  | taken, '\'' :: rest => some (taken.reverse, rest)
  | taken, c :: rest => escapedQuote (c :: taken) rest
  | _, [] => none

def escapedText : Reading (List Char) := fun s =>
  match escapedQuote [] s.rest with
  | some (text, rest) => .ok (text, { s with rest, line := s.line + text.count '\n' })
  | none => .error ⟨s.line, .openMark '\'', s.lineText s.line⟩

/-- Reads up to a backquote; a backslash quotes a backquote, a backslash and a dollar sign, and
between double quotes these too. The characters stand backwards. -/
def backquoted (quoted : Bool) : List Char → Nat → List Char →
    Except Fault (List Char × Nat × List Char)
  | taken, line, '`' :: rest => .ok (taken.reverse, line, rest)
  | taken, line, '\\' :: '\n' :: rest => backquoted quoted taken (line + 1) rest
  | taken, line, '\\' :: c :: rest =>
    if ['`', '\\', '$'].contains c || (quoted && c = '"') then
      backquoted quoted (c :: taken) line rest
    else backquoted quoted (c :: '\\' :: taken) line rest
  | taken, line, c :: rest =>
    backquoted quoted (c :: taken) (if c = '\n' then line + 1 else line) rest
  | _, line, [] => .error { line, error := .openBackquote }

def backquotedText (quoted : Bool) : Reading (List Char) := fun s =>
  match s.dialect, backquoted quoted [] s.line s.rest with
  | _, .ok (text, line, rest) => .ok (text, { s with line, rest })
  | .plain, .error e => .error e
  | .extended, .error _ => .error ⟨s.line, .openMark '\x60', s.lineText s.line⟩

/-- Characters as long as they have a property, behind joined line ends. -/
def takeWhile (p : Char → Bool) : Nat → List Char → Reading (List Char)
  | 0, taken => pure taken.reverse
  | fuel + 1, taken => do
    match ← char? with
    | some c =>
      if p c then takeWhile p fuel (c :: taken)
      else
        unread (some c)
        pure taken.reverse
    | none => pure taken.reverse

/-- The text of the characters that have a property. -/
def textWhile (p : Char → Bool) : Reading String := fun s =>
  ((takeWhile p (s.rest.length + 1) []).map String.ofList).run s

def skipLine : Reading Unit := modify fun s => { s with rest := s.rest.dropWhile (· != '\n') }

/-- Whether the number of backslashes at the end of a line is odd, so that the next one is
joined. -/
def joinsNext (line : List Char) : Bool :=
  (line.reverse.takeWhile (· == '\\')).length % 2 = 1

/-- The lines of a document and what stands behind it, unless the end of the text has ended it. A
line that is joined to the one in front of it does not end the document. The characters so far stand
backwards. -/
def documentText (a : Announced) :
    Nat → Bool → List Char → List Char → List Char × Option (List Char)
  | 0, _, taken, cs => (taken.reverse, some cs)
  | fuel + 1, isJoined, taken, cs =>
    let line := cs.takeWhile (· != '\n')
    let rest := cs.drop line.length
    let shown := if a.strips && !isJoined then line.dropWhile (· == '\t') else line
    if cs.isEmpty then (taken.reverse, none)
    else if !isJoined && String.ofList shown = a.mark then (taken.reverse, some (rest.drop 1))
    else
      match rest with
      | [] => (taken.reverse ++ shown, none)
      | _ :: rest =>
        let joins := !a.literal && joinsNext line
        documentText a fuel joins ('\n' :: shown.reverse ++ taken) rest

/-- Whether a character stands for a parameter by itself. -/
def isSpecialName (c : Char) : Bool := ['@', '*', '#', '?', '$', '!', '-'].contains c

/-- The redirection behind an arrow, by its direction and the descriptor in front of it. -/
def arrow (writes : Bool) (digit : Option Nat) : Reading Token := do
  let descriptor := digit.getD (if writes then 1 else 0)
  let isExtended ← isExtended
  let c ← char?
  let kind ← match writes, c with
    | true, some '>' => pure (.file .append)
    | true, some '|' => pure (.file .replace)
    | true, some '&' => pure (if isExtended && digit.isNone then .merge else .copy)
    | true, c => do
      unread c
      pure (.file .write)
    | false, some '<' =>
      if isExtended then
        if ← take? '<' then pure .line else pure (.document (← take? '-'))
      else pure (.document (← take? '-'))
    | false, some '&' => pure .copy
    | false, some '>' => pure (.file .update)
    | false, c => do
      unread c
      pure (.file .read)
  pure (.arrow descriptor kind)

def push (t : Token) : Reading Unit := modify fun s => { s with pushed := some t }

/-- The text that the name of a command stands for, unless that text is being read. -/
def aliasOf? (s : Source) (name : String) : Option Alias :=
  let isOpen := s.openAliases.any fun o => o.1 == name && o.2 < s.rest.length
  if isOpen then none else s.aliases.find? fun a => a.name == name

def enterAlias (a : Alias) : Reading Unit := modify fun s =>
  let left := s.rest.length
  { s with
    rest := a.text.toList ++ s.rest
    openAliases := (a.name, left) :: s.openAliases.filter fun o => o.2 < left
    nextAlias := if a.text.endsWith " " || a.text.endsWith "\t" then some left else s.nextAlias }

/-- Whether the text of an alias that ends with a blank has just come to its end. -/
def isNextAlias : Reading Bool := do
  match (← get).nextAlias with
  | none => pure false
  | some left =>
    if (← get).rest.length ≤ left then
      modify fun s => { s with nextAlias := none }
      pure true
    else pure false

end Source
end PipelineRunner.Shell
