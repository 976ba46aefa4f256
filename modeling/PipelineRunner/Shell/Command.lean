/-!
Commands of the shell language, and the words they are made of. A word can hold commands again,
whose output is put into it. There are two languages: all that the plain one has means the same in
the extended one, which has lists, conditions and arithmetic as commands too.
-/

namespace PipelineRunner.Shell

/-- The language that a shell understands. -/
inductive Dialect where
  | plain
  | extended
  deriving DecidableEq, Repr, Inhabited

/-- What a redirection does with the file that it names. -/
inductive FileUse where
  | read
  | write
  /-- Writes even where files that are there should be kept. -/
  | replace
  | append
  | update
  deriving DecidableEq, Repr

/-- What is done to the letters of a value. -/
inductive Recasing where
  | upper
  | lower
  /-- Small letters and capitals change places. -/
  | swapped
  deriving DecidableEq, Repr

/-- Which matches of a pattern are replaced. -/
inductive Replacing where
  | first
  | every
  | front
  | back
  deriving DecidableEq, Repr

/-- What follows an arm of a choice. -/
inductive ArmEnd where
  | leaves
  /-- The next arm is run as well. -/
  | fallsThrough
  /-- The arms that come next are looked at as well. -/
  | looksOn
  deriving DecidableEq, Repr

mutual

/-- A part of a word. A quoted part is neither split nor taken for a pattern. -/
inductive WordPart where
  | text (chars : String) (quoted : Bool)
  | parameter (name : String) (expansion : Expansion) (quoted : Bool)
  /-- The output of a command. -/
  | output (command : Command) (quoted : Bool)
  | arithmetic (expression : List WordPart) (quoted : Bool)
  /-- A parameter with a subscript; it may only tell the name of the one that is meant. -/
  | element (name : String) (subscript : Subscript) (isIndirect : Bool) (expansion : Expansion)
      (quoted : Bool)
  /-- The names of the variables that begin with a text, each by itself or together. -/
  | names (start : String) (isApart quoted : Bool)
  /-- The elements of a list. -/
  | elements (items : List Assignment)
  /-- The path of a pipe that a command writes to, or reads from. -/
  | channel (writes : Bool) (command : Command)

/-- Which elements of a list are meant. -/
inductive Subscript where
  | absent
  /-- All of them, each by itself or together. -/
  | every (isApart : Bool)
  /-- The one at a place; the text is what stands between the brackets. -/
  | place (text : String) (word : List WordPart)

/-- What is done with the value of a parameter. A word counts if there is no value, or an empty one
where that is `strict`. -/
inductive Expansion where
  | value
  | length
  | default (strict : Bool) (word : List WordPart)
  | assign (strict : Bool) (word : List WordPart)
  | alternative (strict : Bool) (word : List WordPart)
  | required (strict : Bool) (word : List WordPart)
  /-- Drops the shortest or longest match of a pattern at the front. -/
  | dropFront (longest : Bool) (pattern : List WordPart)
  | dropBack (longest : Bool) (pattern : List WordPart)
  /-- Takes so much from a place on. -/
  | slice (offset : List WordPart) (length : Option (List WordPart))
  | replace (which : Replacing) (pattern replacement : List WordPart)
  /-- Changes the first letter that matches a pattern, or every one. -/
  | recase (how : Recasing) (every : Bool) (pattern : List WordPart)
  /-- Puts the value into the form that a letter asks for. -/
  | transform (letter : Char)
  /-- The places of the elements. -/
  | places
  /-- Something that means nothing; it has been written so. -/
  | unknown (written : String)

inductive Redirect where
  | file (descriptor : Nat) (use : FileUse) (target : List WordPart) (written : String)
  /-- Makes a descriptor the same as another one, or closes it for a dash. -/
  | copy (descriptor : Nat) (source : List WordPart)
  /-- Makes both outputs lead to a file, unless the word is a descriptor. -/
  | merge (target : List WordPart) (written : String)
  /-- Makes both outputs lead to a file. -/
  | both (use : FileUse) (target : List WordPart) (written : String)
  /-- Reads a document, which stands in the script behind the line and is known by its number. -/
  | document (descriptor number : Nat)
  /-- Reads a line. -/
  | line (descriptor : Nat) (text : List WordPart)
  /-- Redirects a free descriptor, whose number a variable takes. -/
  | named (name : String) (redirect : Redirect)

/-- Gives a variable or an element of a list a value, or appends to it. -/
inductive Assignment where
  | mk (name : String) (subscript : Subscript) (appends : Bool) (value : List WordPart)

/-- A condition on words. -/
inductive Check where
  | word (w : List WordPart)
  | unary (operator : String) (w : List WordPart)
  | binary (operator : String) (a b : List WordPart)
  | negation (c : Check)
  | both (a b : Check)
  | either (a b : Check)

/-- The words that lead to a command. -/
inductive Arm where
  | mk (patterns : List (List WordPart)) (body : Command) (ending : ArmEnd)

/-- A command, with the line that it begins in. -/
inductive Command where
  | nothing
  /-- Assignments and words, which may be kept as they have been written, too. -/
  | simple (line : Nat) (assignments : List Assignment) (words : List (List WordPart))
      (redirects : List Redirect) (written : List String)
  | pipeline (commands : List Command)
  | negated (command : Command)
  | both (left right : Command)
  | either (left right : Command)
  | sequence (first second : Command)
  /-- Commands that have been put in braces. -/
  | group (command : Command)
  /-- Goes on without waiting for the end. -/
  | background (command : Command)
  | conditional (condition yes : Command) (no : Option Command)
  /-- Repeats the body as long as the condition holds, or as long as it does not. -/
  | loop (negated : Bool) (condition body : Command)
  | forEach (line : Nat) (name : String) (words : List (List WordPart)) (body : Command)
  /-- Repeats the body as long as the condition is not zero. -/
  | count (line : Nat) (start condition step : List WordPart) (body : Command)
  /-- Repeats the body for the words that somebody chooses. -/
  | select (line : Nat) (name : String) (words : List (List WordPart)) (body : Command)
  | choice (line : Nat) (word : List WordPart) (arms : List Arm)
  | redirected (line : Nat) (body : Command) (redirects : List Redirect)
  | subshell (line : Nat) (body : Command) (redirects : List Redirect)
  | function (line : Nat) (name : String) (body : Command)
  /-- Tells by its status whether a value is not zero. -/
  | arithmetic (line : Nat) (expression : List WordPart)
  /-- Tells by its status whether a condition holds. -/
  | check (line : Nat) (c : Check)
  /-- Tells how long a command takes, in one form or the other. -/
  | timed (isShort : Bool) (command : Command)

end

instance : Inhabited Command := ⟨.nothing⟩

abbrev Word := List WordPart

namespace Word

/-- The text of a word that is nothing but plain text. -/
def plain? : Word → Option String
  | [.text s false] => some s
  | _ => none

/-- The text of a word whose quotes are taken away. -/
def literal (w : Word) : String :=
  String.join (w.map fun
    | .text s _ => s
    | _ => "")

def hasQuotes (w : Word) : Bool :=
  w.any fun
    | .text _ quoted => quoted
    | _ => false

/-- The parts of a word that stand for the parts between two quotation marks. There is a field even
if nothing stands between them, but not for all the arguments if there are none. -/
def quotation : Word → Word
  | inside@([.parameter "@" .value true]) => inside
  | inside => .text "" true :: inside

/-- Adds a part behind others; neighbouring texts become one. The parts stand backwards. -/
def add (parts : Word) (part : WordPart) : Word :=
  match parts, part with
  | .text a p :: rest, .text b q => if p = q then .text (a ++ b) p :: rest else part :: parts
  | parts, part => part :: parts

end Word

def isNameStart (c : Char) : Bool := c.isAlpha || c == '_'

def isNamePart (c : Char) : Bool := c.isAlphanum || c == '_'

/-- Whether a text can be the name of a variable or of a function. -/
def isName (s : String) : Bool := s.toList.head?.any isNameStart && s.toList.all isNamePart

/-- The name and the value that a word assigns. -/
def Word.assignment? : Word → Option (String × Word)
  | .text s false :: rest =>
    let name := s.toList.takeWhile isNamePart
    match s.toList.drop name.length with
    | '=' :: value =>
      if name.head?.any isNameStart then
        let value := if value.isEmpty then [] else [WordPart.text (String.ofList value) false]
        some (String.ofList name, value ++ rest)
      else none
    | _ => none
  | _ => none

/-- The commands that keep the assignments in front of them, and that no function can replace. -/
def specialNames : List String :=
  [".", ":", "break", "continue", "eval", "exec", "exit", "export", "local", "readonly", "return",
    "set", "shift", "times", "trap", "unset"]

end PipelineRunner.Shell
