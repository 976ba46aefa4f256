import PipelineRunner.Script.Token

/-!
A script is a sequence of lexemes: blanks, comments, quoted strings, words and punctuation. The
lexeme at the head of a text is the longest one there, and the tokens of a text are its lexemes
without the blanks and comments.
-/

namespace PipelineRunner.Script

/-- The smallest parts of a script. -/
inductive Lexeme where
  | blank (c : Char)
  /-- Two slashes and what follows them on the line. -/
  | comment (body : List Char)
  | quoted (quote : Char) (body : List Char)
  | word (first : Char) (more : List Char)
  | punctuation (c : Char) (kind : TokenKind)
  deriving DecidableEq, Repr

namespace Lexeme

def chars : Lexeme → List Char
  | blank c => [c]
  | comment body => '/' :: '/' :: body
  | quoted quote body => quote :: (body ++ [quote])
  | word first more => first :: more
  | punctuation c _ => [c]

/-- The token that a lexeme is, if it is one. -/
def kind? : Lexeme → Option TokenKind
  | blank _ => none
  | comment _ => none
  | quoted _ body => some (.string (String.ofList body))
  | word first more => some (.ofWord (String.ofList (first :: more)))
  | punctuation _ kind => some kind

/-- Every lexeme takes at least one character. -/
theorem chars_ne_nil (l : Lexeme) : l.chars ≠ [] := by
  cases l <;> simp [chars]

end Lexeme

/-- The letters of ASCII and the underscore start a word. -/
def isWordStart (c : Char) : Bool :=
  ('a' ≤ c && c ≤ 'z') || ('A' ≤ c && c ≤ 'Z') || c == '_'

/-- Digits may follow in a word. -/
def isWordPart (c : Char) : Bool :=
  isWordStart c || ('0' ≤ c && c ≤ '9')

/-- The characters before the first `quote`, and those behind it; none if there is no `quote`. -/
def splitQuote (quote : Char) : List Char → Option (List Char × List Char)
  | [] => none
  | c :: cs =>
    if c = quote then some ([], cs)
    else (splitQuote quote cs).map fun (body, rest) => (c :: body, rest)

/-- What is wrong with a text that starts with no lexeme. -/
inductive LexicalFault where
  | stray (c : Char)
  | unclosed
  deriving DecidableEq, Repr

/-- The lexeme at the head of a text that starts with `c`, and the rest. -/
def lexeme (c : Char) (cs : List Char) : Except LexicalFault (Lexeme × List Char) :=
  if Text.isBlank c then .ok (.blank c, cs)
  else if c = '/' then
    match cs with
    | '/' :: rest => .ok (.comment (rest.takeWhile (· != '\n')), rest.dropWhile (· != '\n'))
    | _ => .error (.stray c)
  else if c = '\'' || c = '"' then
    match splitQuote c cs with
    | some (body, rest) => .ok (.quoted c body, rest)
    | none => .error .unclosed
  else if isWordStart c then
    .ok (.word c (cs.takeWhile isWordPart), cs.dropWhile isWordPart)
  else
    match TokenKind.ofPunctuation? c with
    | some kind => .ok (.punctuation c kind, cs)
    | none => .error (.stray c)

def LexicalFault.toError (p : Position) : LexicalFault → SyntaxError
  | stray c => .unexpectedChar c p
  | unclosed => .unterminatedString p

/-- The tokens of a text that starts at a place; at most `fuel` lexemes are read. -/
def tokensFrom (p : Position) : Nat → List Char → Except SyntaxError (List Token)
  | _, [] => .ok []
  | 0, _ => .ok []
  | fuel + 1, c :: cs =>
    match lexeme c cs with
    | .error fault => .error (fault.toError p)
    | .ok (l, rest) => do
      let tokens ← tokensFrom (p.afterAll l.chars) fuel rest
      match l.kind? with
      | some kind => .ok (⟨kind, p⟩ :: tokens)
      | none => .ok tokens

/-- The tokens of a script. No lexeme is empty, so there are no more of them than characters. -/
def tokenize (source : String) : Except SyntaxError (List Token) :=
  tokensFrom .start source.toList.length source.toList

end PipelineRunner.Script
