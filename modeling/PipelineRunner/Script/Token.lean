import PipelineRunner.Pipeline.Basic

/-!
Tokens of a pipeline script, and how error messages name them.

Why a text is no pipeline script.
-/

namespace PipelineRunner.Script

/-- The words with a meaning of their own. -/
inductive Keyword where
  | pipeline | agent | docker | stages | stage | steps | none | failFast | parallel
  deriving DecidableEq, Repr

namespace Keyword

def text : Keyword → String
  | pipeline => "pipeline"
  | agent => "agent"
  | docker => "docker"
  | stages => "stages"
  | stage => "stage"
  | steps => "steps"
  | none => "none"
  | failFast => "failFast"
  | parallel => "parallel"

def all : List Keyword :=
  [pipeline, agent, docker, stages, stage, steps, none, failFast, parallel]

theorem mem_all (k : Keyword) : k ∈ all := by
  cases k <;> decide

def ofText? (word : String) : Option Keyword :=
  all.find? fun k => k.text == word

@[simp]
theorem ofText?_text (k : Keyword) : ofText? k.text = some k := by
  cases k <;> decide

end Keyword

/-- What a token is. -/
inductive TokenKind where
  | keyword (word : Keyword)
  /-- A quoted string, without its quotes. -/
  | string (value : String)
  | bool (value : Bool)
  | ident (name : String)
  | leftBrace | rightBrace | leftParen | rightParen | colon | comma
  deriving DecidableEq, Repr

namespace TokenKind

/-- How an error message names a token. -/
def display : TokenKind → String
  | keyword k => "keyword '" ++ k.text ++ "'"
  | string s => "string '" ++ s ++ "'"
  | bool true => "boolean 'true'"
  | bool false => "boolean 'false'"
  | ident name => "identifier '" ++ name ++ "'"
  | leftBrace => "'\x7b'"
  | rightBrace => "'\x7d'"
  | leftParen => "'('"
  | rightParen => "')'"
  | colon => "':'"
  | comma => "','"

/-- The token that a whole word is: a keyword, a truth value or a name. -/
def ofWord (word : String) : TokenKind :=
  match Keyword.ofText? word with
  | some k => keyword k
  | none => if word = "true" then bool true else if word = "false" then bool false else ident word

def ofPunctuation? (c : Char) : Option TokenKind :=
  if c = '\x7b' then some leftBrace
  else if c = '\x7d' then some rightBrace
  else if c = '(' then some leftParen
  else if c = ')' then some rightParen
  else if c = ':' then some colon
  else if c = ',' then some comma
  else none

end TokenKind

/-- A place in a text; lines and columns count from one, columns count characters. -/
structure Position where
  line : Nat
  column : Nat
  deriving DecidableEq, Repr, Inhabited

namespace Position

def start : Position := ⟨1, 1⟩

/-- The place behind a character that stands here. -/
def after (p : Position) (c : Char) : Position :=
  if c = '\n' then ⟨p.line + 1, 1⟩ else ⟨p.line, p.column + 1⟩

/-- The place behind a sequence of characters that starts here. -/
def afterAll (p : Position) (cs : List Char) : Position :=
  cs.foldl after p

@[simp]
theorem afterAll_append (p : Position) (cs ds : List Char) :
    p.afterAll (cs ++ ds) = (p.afterAll cs).afterAll ds := by
  simp [afterAll]

end Position

/-- A token and the place of its first character. -/
structure Token where
  kind : TokenKind
  position : Position
  deriving DecidableEq, Repr


/-- What the grammar asks for at a place. -/
inductive Expectation where
  | token (kind : TokenKind)
  | agent
  | dockerImage
  | stageName
  | truthValue
  | stepCommand
  | stepValue
  | parameter
  | parameterValue
  | endOfInput
  deriving DecidableEq, Repr

/-- How an error message names what the grammar asks for. -/
def Expectation.text : Expectation → String
  | token kind => kind.display
  | agent => "agent 'none' or '\x7b'"
  | dockerImage => "docker image string"
  | stageName => "stage name string"
  | truthValue => "boolean"
  | stepCommand => "step command"
  | stepValue => "step value"
  | parameter => "string or 'key: value' parameter"
  | parameterValue => "parameter value string"
  | endOfInput => "end of input"

/-- Why a text is no pipeline script. -/
inductive SyntaxError where
  /-- A character that starts no token. -/
  | unexpectedChar (found : Char) (position : Position)
  /-- A quote that is never closed. -/
  | unterminatedString (position : Position)
  /-- A token that the grammar does not allow here. -/
  | unexpectedToken (expected : Expectation) (found : Token)
  /-- The script ends too early. -/
  | unexpectedEnd (expected : Expectation)
  /-- The grammar is kept, but the pipeline is not a valid one. -/
  | invalid (defect : Pipeline.Defect)
  deriving DecidableEq, Repr

namespace SyntaxError

/-- Where the fault is, if it is at a place. -/
def position? : SyntaxError → Option Position
  | unexpectedChar _ p => some p
  | unterminatedString p => some p
  | unexpectedToken _ token => some token.position
  | unexpectedEnd _ => none
  | invalid _ => none

/-- How an error message names a place. -/
def placeText (p : Position) : String :=
  s!"line {p.line}, column {p.column}"

def message : SyntaxError → String
  | unexpectedChar c p => s!"unexpected character '{c}' at " ++ placeText p
  | unterminatedString p => "unterminated string starting at " ++ placeText p
  | unexpectedToken expected token =>
    s!"expected {expected.text}, found {token.kind.display} at " ++ placeText token.position
  | unexpectedEnd expected => s!"expected {expected.text}, found end of input"
  | invalid defect => s!"invalid pipeline: {defect.message}"

end SyntaxError
end PipelineRunner.Script
