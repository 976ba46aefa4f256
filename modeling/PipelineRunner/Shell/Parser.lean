import PipelineRunner.Shell.Extended.Escapes
import PipelineRunner.Shell.Source

/-!
Reading a script as commands, one line after the other. Words and commands are read together, since
a word can hold commands and the text of a document belongs to the line in front of it. The fuel of
each reader is more than any script is long.
-/

namespace PipelineRunner.Shell

open Source

/-- Where a text stands in which only dollar signs, backquotes and backslashes mean something. -/
inductive Quotation where
  /-- Between double quotes. -/
  | marks
  /-- In the braces of an expansion between double quotes; further ones have no effect. -/
  | braces
  | document
  | arithmetic
  /-- It is an expression between brackets. -/
  | brackets
  deriving DecidableEq, Repr

/-- Where a text stands that ends without quotes. -/
inductive Bare where
  /-- It is a word. -/
  | word
  /-- It is the mark behind a document, in which nothing is expanded. -/
  | mark
  /-- Behind it stands a closing brace. -/
  | braces
  /-- It is a pattern in braces, behind which something may follow a slash. -/
  | slash
  /-- It is the start of a slice in braces, behind which its length may follow a colon. -/
  | colon
  /-- Behind it stands a closing parenthesis. -/
  | group
  /-- Behind it stands a closing bracket. -/
  | subscript
  /-- It is a regular expression in a condition. -/
  | regex
  deriving DecidableEq, Repr

namespace Bare

/-- What closes the text, if that is missing otherwise. -/
def closing? : Bare → Option Char
  | word | mark | regex => none
  | braces | slash | colon => some '\x7d'
  | group => some ')'
  | subscript => some ']'

/-- Whether a character ends the text; it is taken if it closes it. -/
def ends (b : Bare) (c : Char) : Bool :=
  match b with
  | word | mark => [' ', '\t', '\n', ';', '&', '|', '(', ')', '<', '>'].contains c
  | regex => [' ', '\t', '\n', ';', '&', ')', '<', '>'].contains c
  | slash => c = '/' || c = '\x7d'
  | colon => c = ':' || c = '\x7d'
  | braces | group | subscript => b.closing? == some c

/-- Whether a text in brackets of its own stands within it, up to the second character. -/
def nested? (b : Bare) (combines : Bool) (last : Option Char) (c : Char) : Option Bare :=
  match b, c with
  | group, '(' | colon, '(' | regex, '(' => some group
  | subscript, '[' => some subscript
  | word, '(' =>
    if combines && last.any ['?', '*', '+', '@', '!'].contains then some group else none
  | _, _ => none

end Bare

/-- Whether a list of commands is one line, or what stands in a command, which may be nothing at
all. -/
inductive Extent where
  | line
  | body
  | optional
  deriving DecidableEq, Repr

def following (first : Option Command) (second : Command) : Command :=
  match first with
  | some first => .sequence first second
  | none => second

def expect (text : String) (t : Token) : Reading Unit :=
  if t.isKeyword text then pure () else unexpected t (some text)

/-- The last character of some parts, if it is not quoted. The parts stand backwards. -/
def lastBare? : Word → Option Char
  | .text s false :: _ => s.toList.getLast?
  | _ => none

/-- The text up to two closing parentheses, and what stands behind them; the parentheses that are
open have been counted, and the characters so far stand backwards. -/
def doubleParentheses : Nat → List Char → List Char → Option (List Char × List Char)
  | 0, taken, ')' :: ')' :: rest => some (taken.reverse, rest)
  | 0, _, ')' :: _ => none
  | depth, taken, '\\' :: c :: rest => doubleParentheses depth (c :: '\\' :: taken) rest
  | depth + 1, taken, ')' :: rest => doubleParentheses depth (')' :: taken) rest
  | depth, taken, '(' :: rest => doubleParentheses (depth + 1) ('(' :: taken) rest
  | depth, taken, c :: rest => doubleParentheses depth (c :: taken) rest
  | _, _, [] => none

/-- The number of characters up to the bracket that closes a subscript; the brackets that are open
have been counted. -/
def subscriptLength : Nat → Nat → List Char → Option Nat
  | 0, n, ']' :: _ => some n
  | depth, n, '\\' :: _ :: rest => subscriptLength depth (n + 2) rest
  | depth + 1, n, ']' :: rest => subscriptLength depth (n + 1) rest
  | depth, n, '[' :: rest => subscriptLength (depth + 1) (n + 1) rest
  | _, _, '\n' :: _ => none
  | depth, n, _ :: rest => subscriptLength depth (n + 1) rest
  | _, _, [] => none

/-- How a text begins that assigns something. -/
structure AssignmentHead where
  name : String
  /-- The length of what stands between brackets. -/
  subscript : Option Nat
  appends : Bool
  deriving DecidableEq, Repr

/-- The head of the assignment that a text begins with. In a list there may be no name. -/
def assignmentHead? (inList : Bool) (cs : List Char) : Option AssignmentHead :=
  let name := cs.takeWhile isNamePart
  let behind := cs.drop name.length
  let subscript := match behind with
    | '[' :: rest => subscriptLength 0 0 rest
    | _ => none
  let behind := match subscript with
    | some n => behind.drop (n + 2)
    | none => behind
  let isNamed := if inList then name.isEmpty && subscript.isSome else name.head?.any isNameStart
  match behind with
  | '+' :: '=' :: _ =>
    if isNamed then some ⟨String.ofList name, subscript, true⟩ else none
  | '=' :: _ =>
    if isNamed then some ⟨String.ofList name, subscript, false⟩ else none
  | _ => none

/-- The parts of a word that an assignment is if it is none. -/
def Word.ofAssignment : Assignment → Word
  | .mk name subscript appends value =>
    let place : Word := match subscript with
      | .place _ w => .text "[" false :: w ++ [.text "]" false]
      | _ => []
    let sign := if appends then "+=" else "="
    (WordPart.text name false :: place ++ WordPart.text sign false :: value).foldl Word.add []
      |>.reverse

/-- A word that is an assignment for some commands only, as a word for all others. -/
def Word.plainly : Word → Word
  | [.elements [a]] => Word.ofAssignment a
  | w => w

def declaring : List String := ["declare", "export", "local", "readonly", "typeset"]

def checkOperators : List String :=
  ["-a", "-b", "-c", "-d", "-e", "-f", "-g", "-h", "-k", "-n", "-o", "-p", "-r", "-s", "-t", "-u",
    "-v", "-w", "-x", "-z", "-G", "-L", "-N", "-O", "-R", "-S"]

/-- The operators of conditions between two words. -/
def comparisons : List String :=
  ["=", "==", "!=", "=~", "<", ">", "-eq", "-ne", "-lt", "-le", "-gt", "-ge", "-nt", "-ot", "-ef"]

/-- The command with its complaints written where it writes its output. -/
def Command.withErrors : Command → Command
  | .simple line assignments words redirects written =>
    .simple line assignments words (redirects ++ [.copy 2 [.text "1" false]]) written
  | c => .redirected 0 c [.copy 2 [.text "1" false]]

mutual

/-- The parts of a word outside of quotes, up to its end. The parts so far stand backwards. -/
def bareParts (b : Bare) : Nat → Word → Reading Word
  | 0, parts => pure parts.reverse
  | fuel + 1, parts => do
    let line := (← get).line
    let isExtended ← isExtended
    let goOn (part : WordPart) := bareParts b fuel (parts.add part)
    match ← char? with
    | none =>
      match b.closing? with
      | some c => refuseOpen line c .openBrace
      | none => pure parts.reverse
    | some c =>
      if c = '\'' then goOn (.text (← quotedText) true)
      else if c = '"' then
        let inside ← quotedParts .marks (← get).line fuel false 0 []
        bareParts b fuel ((Word.quotation inside).foldl Word.add parts)
      else if c = '\\' then
        match ← rawChar? with
        | none => goOn (.text "\\" true)
        | some d => goOn (.text (String.singleton d) true)
      else if c = '$' && b != .mark then
        if isExtended then
          if ← take? '\'' then
            let text ← escapedText
            goOn (.text (Extended.Unescaped.quoted (← get).charset text) true)
          else if ← take? '"' then
            let inside ← quotedParts .marks (← get).line fuel false 0 []
            bareParts b fuel ((Word.quotation inside).foldl Word.add parts)
          else goOn (← dollarPart false fuel)
        else goOn (← dollarPart false fuel)
      else if c = '`' && b != .mark then goOn (← backquotedPart false fuel)
      else
        let combines := (← get).combines
        match if isExtended then b.nested? combines (lastBare? parts) c else none with
        | some inner =>
          let inside ← bareParts inner fuel []
          let close := String.ofList (inner.closing?.toList)
          let all := WordPart.text (String.singleton c) false :: inside ++ [.text close false]
          bareParts b fuel (all.foldl Word.add parts)
        | none =>
          if b.ends c then
            if isExtended && b = .word && (c = '<' || c = '>') then
              if ← take? '(' then goOn (← channelPart (c = '<') fuel)
              else
                unread (some c)
                pure parts.reverse
            else
              if b.closing? != some c || b = .slash || b = .colon then unread (some c)
              pure parts.reverse
          else
            countLineAt c
            goOn (.text (String.singleton c) false)
termination_by structural fuel => fuel

/-- The path of a pipe that a command writes to, or reads from, behind the opening parenthesis. -/
def channelPart (writes : Bool) : Nat → Reading WordPart
  | 0 => pure (.text "" false)
  | fuel + 1 => do
    let announced := (← get).announced
    modify fun s => { s with announced := [] }
    let c ← commands .optional fuel true none
    let t ← token false fuel
    if !t.isOperator ")" then unexpected t (some ")")
    modify fun s => { s with announced }
    pure (.channel writes (c.getD .nothing))
termination_by structural fuel => fuel

/-- The parts of a quoted text up to its end. In braces the quotes may be open, and in arithmetic
some parentheses. The text begins in a line; the parts so far stand backwards. -/
def quotedParts (q : Quotation) (first : Nat) : Nat → Bool → Nat → Word → Reading Word
  | 0, _, _, parts => pure parts.reverse
  | fuel + 1, areOpen, depth, parts => do
    let add (part : WordPart) := quotedParts q first fuel areOpen depth (parts.add part)
    let char (c : Char) := add (.text (String.singleton c) true)
    match ← char? with
    | none =>
      match q with
      | .marks => refuseOpen first '"' .openQuote
      | .braces => refuseOpen first '\x7d' .openQuote
      | .arithmetic => refuseOpen first ')' .openArithmetic
      | .brackets => refuseOpen first ']' .openArithmetic
      | .document => pure parts.reverse
    | some '"' =>
      match q with
      | .marks => pure parts.reverse
      | .braces => quotedParts q first fuel (!areOpen) depth (parts.add (.text "" true))
      | .arithmetic => do
        if ← isExtended then add (.text "" true) else char '"'
      | _ => char '"'
    | some '\x7d' => if q = .braces && !areOpen then pure parts.reverse else char '\x7d'
    | some '\\' =>
      match ← rawChar? with
      | none => char '\\'
      | some d =>
        let isDropped := ['$', '`', '\\'].contains d || (d = '"' && q != .document) ||
          (d = '\x7d' && q = .braces)
        add (.text (if isDropped then String.singleton d else String.ofList ['\\', d]) true)
    | some '$' =>
      let isEscaped := q = .braces && (← isExtended) && (← get).rest.head? = some '\''
      if isEscaped then
        let _ ← char?
        let text ← escapedText
        add (.text (Extended.Unescaped.quoted (← get).charset text) true)
      else add (← dollarPart true fuel)
    | some '`' => add (← backquotedPart (q != .document) fuel)
    | some '(' =>
      if q = .arithmetic then
        quotedParts q first fuel areOpen (depth + 1) (parts.add (.text "(" true))
      else char '('
    | some ')' =>
      if q = .arithmetic then
        if depth = 0 then
          if ← take? ')' then pure parts.reverse else char ')'
        else quotedParts q first fuel areOpen (depth - 1) (parts.add (.text ")" true))
      else char ')'
    | some '[' =>
      if q = .brackets then quotedParts q first fuel areOpen (depth + 1) (parts.add (.text "[" true))
      else char '['
    | some ']' =>
      if q != .brackets then char ']'
      else if depth = 0 then pure parts.reverse
      else quotedParts q first fuel areOpen (depth - 1) (parts.add (.text "]" true))
    | some c =>
      countLineAt c
      char c
termination_by structural fuel => fuel

/-- A text that stands by itself, in which only dollar signs, backquotes and backslashes mean
something. -/
def inside (q : Quotation) (text : List Char) : Nat → Reading Word
  | 0 => pure []
  | fuel + 1 => do
    let s ← get
    set { s with rest := text, pushed := none }
    let w ← quotedParts q s.line fuel false 0 []
    modify fun t => { t with rest := s.rest, line := s.line, pushed := s.pushed }
    pure w
termination_by structural fuel => fuel

def backquotedPart (quoted : Bool) : Nat → Reading WordPart
  | 0 => pure (.text "" quoted)
  | fuel + 1 => do
    let inside ← backquotedText quoted
    let s ← get
    set { s with rest := inside, line := 1, pushed := none, announced := [] }
    let c ← commands .optional fuel true none
    modify fun t => { t with
      rest := s.rest, line := s.line, pushed := none, announced := s.announced }
    pure (.output (c.getD .nothing) quoted)
termination_by structural fuel => fuel

def dollarPart (quoted : Bool) : Nat → Reading WordPart
  | 0 => pure (.text "$" quoted)
  | fuel + 1 => do
    match ← char? with
    | none => pure (.text "$" quoted)
    | some '(' =>
      let line := (← get).line
      let mayBeArithmetic := match (← get).dialect, (← get).rest with
        | .plain, _ => true
        | .extended, '(' :: rest => (doubleParentheses 0 [] rest).isSome || !rest.contains ')'
        | _, _ => true
      let isDouble := (← get).rest.head? = some '('
      let isArithmetic ← if mayBeArithmetic then take? '(' else pure false
      if isArithmetic then
        pure (.arithmetic (← quotedParts .arithmetic line fuel false 0 []) quoted)
      else
        let announced := (← get).announced
        modify fun s => { s with announced := [] }
        let c ← commands .optional fuel true none
        let t ← token false fuel
        if !t.isOperator ")" then
          match (← get).dialect, t with
          | .extended, .ended => do
            let s ← get
            refuseAt (if isDouble then line else s.lineBehind) (.openMark ')')
          | _, _ => unexpected t (some ")")
        modify fun s => { s with announced }
        pure (.output (c.getD .nothing) quoted)
    | some '\x7b' => do
      if ← isExtended then openedAt (← get).line '\x7d' (richBraced quoted fuel)
      else braced quoted fuel
    | some c =>
      if isNameStart c then
        unread (some c)
        pure (.parameter (← textWhile isNamePart) .value quoted)
      else if c.isDigit || isSpecialName c then
        pure (.parameter (String.singleton c) .value quoted)
      else if c = '[' && (← get).dialect = .extended then
        let line := (← get).line
        pure (.arithmetic (← quotedParts .brackets line fuel false 0 []) quoted)
      else
        unread (some c)
        pure (.text "$" quoted)
termination_by structural fuel => fuel

/-- What stands in braces behind the name of a parameter, up to the closing brace. -/
def bracedWord (quoted isPattern : Bool) : Nat → Reading Word
  | 0 => pure []
  | fuel + 1 => do
    if quoted && !isPattern then quotedParts .braces (← get).line fuel false 0 []
    else bareParts .braces fuel []
termination_by structural fuel => fuel

/-- The parameter in braces, behind the opening one. -/
def braced (quoted : Bool) : Nat → Reading WordPart
  | 0 => pure (.text "" quoted)
  | fuel + 1 => do
    let unknown (name : String) : Reading WordPart := do
      let _ ← bracedWord quoted false fuel
      pure (.parameter name (.unknown "") quoted)
    let length (name : String) : Reading WordPart := do
      let c ← char?
      unread c
      let _ ← bracedWord quoted false fuel
      pure (.parameter name (if c = some '\x7d' then .length else .unknown "") quoted)
    let c ← char?
    match c with
    | some '#' =>
      let d ← char?
      if d.any isNamePart then
        unread d
        length (← if d.any Char.isDigit then textWhile Char.isDigit else textWhile isNamePart)
      else
        let e ← char?
        unread e
        if d = some '\x7d' || e != some '\x7d' then expansion quoted fuel "#" d
        else if d.any isSpecialName then length (String.ofList d.toList)
        else unknown ""
    | some c =>
      if isNameStart c then
        unread (some c)
        let name ← textWhile isNamePart
        expansion quoted fuel name (← char?)
      else if c.isDigit then
        unread (some c)
        let name ← textWhile Char.isDigit
        expansion quoted fuel name (← char?)
      else if isSpecialName c then expansion quoted fuel (String.singleton c) (← char?)
      else
        if c = '\x7d' then unread (some c)
        unknown ""
    | none => unknown ""
termination_by structural fuel => fuel

/-- The expansion that begins with a character behind the name of a parameter. -/
def expansion (quoted : Bool) : Nat → String → Option Char → Reading WordPart
  | 0, name, _ => pure (.parameter name (.unknown "") quoted)
  | fuel + 1, name, c => do
    let result (e : Expansion) : Reading WordPart := pure (.parameter name e quoted)
    match c with
    | some '\x7d' => result .value
    | some '%' =>
      let longest ← take? '%'
      result (.dropBack longest (← bracedWord quoted true fuel))
    | some '#' =>
      let longest ← take? '#'
      result (.dropFront longest (← bracedWord quoted true fuel))
    | c =>
      let strict := c == some ':'
      let c ← if strict then char? else pure c
      let word ← bracedWord quoted false fuel
      match c with
      | some '-' => result (.default strict word)
      | some '+' => result (.alternative strict word)
      | some '=' => result (.assign strict word)
      | some '?' => result (.required strict word)
      | _ => result (.unknown "")
termination_by structural fuel => fuel

/-- The parameter in braces, behind the opening one, with all that the extended language knows. -/
def richBraced (quoted : Bool) : Nat → Reading WordPart
  | 0 => pure (.text "" quoted)
  | fuel + 1 => do
    let start := (← get).rest
    let name : Reading String := do
      let c ← char?
      match c with
      | some c =>
        if isNameStart c then
          unread (some c)
          textWhile isNamePart
        else if c.isDigit then
          unread (some c)
          textWhile Char.isDigit
        else if isSpecialName c then pure (String.singleton c)
        else
          unread (some c)
          pure ""
      | none => pure ""
    let next? : Reading (Option Char) := do
      let c ← char?
      unread c
      pure c
    let unknown : Reading WordPart := do
      let _ ← bareParts .braces fuel []
      let left := (← get).rest.length
      let written := start.take (start.length - left)
      pure (.parameter "" (.unknown ("$\x7b" ++ String.ofList written)) quoted)
    let whole (n : String) (isIndirect : Bool) : Reading WordPart := do
      let subscript ← if (← next?) = some '[' && (isName n) then subscript fuel else pure .absent
      let e ← richExpansion quoted fuel start
      pure (match subscript, isIndirect, e with
        | _, _, .unknown _ => .parameter n e quoted
        | .every isApart, true, .value => .element n (.every isApart) false .places quoted
        | .absent, false, e => .parameter n e quoted
        | subscript, isIndirect, e => .element n subscript isIndirect e quoted)
    let c ← next?
    if c = some '#' then
      let _ ← char?
      let d ← next?
      if d = some '\x7d' then whole "#" false
      else if d.any isNamePart then
        let n ← name
        let subscript ← if (← next?) = some '[' && isName n then subscript fuel else pure .absent
        if ← take? '\x7d' then
          pure (match subscript with
            | .absent => .parameter n .length quoted
            | subscript => .element n subscript false .length quoted)
        else unknown
      else
        let rest := ((← get).rest.drop 1)
        if d.any isSpecialName && rest.head? = some '\x7d' then
          let n ← name
          let _ ← char?
          pure (.parameter n .length quoted)
        else whole "#" false
    else if c = some '!' then
      let _ ← char?
      let d ← next?
      if d = some '\x7d' then whole "!" false
      else if d.any fun c => isNamePart c || c = '@' || c = '*' || c = '#' then
        let n ← name
        let rest := (← get).rest
        match rest with
        | '*' :: '\x7d' :: _ | '@' :: '\x7d' :: _ =>
          let _ ← char?
          let _ ← char?
          pure (.names n (rest.head? = some '@') quoted)
        | _ => whole n true
      else whole "!" false
    else
      let n ← name
      if n.isEmpty then unknown else whole n false
termination_by structural fuel => fuel

/-- What stands in brackets behind a name. -/
def subscript : Nat → Reading Subscript
  | 0 => pure .absent
  | fuel + 1 => do
    let _ ← char?
    let start := (← get).rest
    let w ← bareParts .subscript fuel []
    let left := (← get).rest.length
    let text := String.ofList (start.take (start.length - left - 1))
    pure (if text = "@" then .every true else if text = "*" then .every false else .place text w)
termination_by structural fuel => fuel

/-- What is done with a parameter, up to the closing brace; its text has begun at `start`. -/
def richExpansion (quoted : Bool) : Nat → List Char → Reading Expansion
  | 0, _ => pure .value
  | fuel + 1, start => do
    let unknown : Reading Expansion := do
      let _ ← bareParts .braces fuel []
      let left := (← get).rest.length
      pure (.unknown ("$\x7b" ++ String.ofList (start.take (start.length - left))))
    let word : Reading Word := bracedWord quoted false fuel
    let recasing (how : Recasing) (c : Char) : Reading Expansion := do
      let every ← take? c
      pure (.recase how every (← bareParts .braces fuel []))
    match ← char? with
    | none => refuseOpen (← get).line '\x7d' .openBrace
    | some '\x7d' => pure .value
    | some '%' =>
      let longest ← take? '%'
      pure (.dropBack longest (← bracedWord quoted true fuel))
    | some '#' =>
      let longest ← take? '#'
      pure (.dropFront longest (← bracedWord quoted true fuel))
    | some '^' => recasing .upper '^'
    | some ',' => recasing .lower ','
    | some '~' => recasing .swapped '~'
    | some '/' =>
      let which : Replacing ←
        if ← take? '/' then pure .every
        else if ← take? '#' then pure .front
        else if ← take? '%' then pure .back
        else pure .first
      let pattern ← bareParts .slash fuel []
      if (← char?) = some '/' then
        pure (.replace which pattern (← bareParts .braces fuel []))
      else pure (.replace which pattern [])
    | some '@' =>
      match ← char? with
      | some c =>
        if (← take? '\x7d') && "QEPAaUuLKk".toList.contains c then pure (.transform c)
        else unknown
      | none => unknown
    | some ':' =>
      match ← char? with
      | some '-' => do pure (.default true (← word))
      | some '+' => do pure (.alternative true (← word))
      | some '=' => do pure (.assign true (← word))
      | some '?' => do pure (.required true (← word))
      | c =>
        unread c
        let offset ← bareParts .colon fuel []
        if (← char?) = some ':' then
          pure (.slice offset (some (← bareParts .braces fuel [])))
        else pure (.slice offset none)
    | some '-' => do pure (.default false (← word))
    | some '+' => do pure (.alternative false (← word))
    | some '=' => do pure (.assign false (← word))
    | some '?' => do pure (.required false (← word))
    | some c =>
      unread (some c)
      unknown
termination_by structural fuel => fuel

def assignment (h : AssignmentHead) : Nat → Reading Assignment
  | 0 => pure (.mk h.name .absent h.appends [])
  | fuel + 1 => do
    let _ ← textWhile isNamePart
    let subscript ← if h.subscript.isSome then subscript fuel else pure .absent
    if h.appends then let _ ← char?
    let _ ← char?
    let line := (← get).line
    if h.subscript.isNone && (← take? '(') then
      pure (.mk h.name subscript h.appends [.elements (← listItems line fuel [])])
    else pure (.mk h.name subscript h.appends (← bareParts .word fuel []))
termination_by structural fuel => fuel

/-- The elements of a list up to the closing parenthesis; those so far stand backwards. -/
def listItems (line : Nat) : Nat → List Assignment → Reading (List Assignment)
  | 0, items => pure items.reverse
  | fuel + 1, items => do
    skipBlanks fuel
    match ← char? with
    | none => refuseAt line (.openMark ')')
    | some ')' => pure items.reverse
    | some '\n' =>
      countLine
      listItems line fuel items
    | some c =>
      unread (some c)
      match assignmentHead? true (← get).rest with
      | some h => listItems line fuel ((← assignment h fuel) :: items)
      | none =>
        let before := (← get).rest.length
        let w ← bareParts .word fuel []
        if (← get).rest.length = before then
          let t ← token false fuel
          modify fun s => { s with recent := String.singleton c }
          unexpected t none
        else listItems line fuel (.mk "" .absent false w :: items)
termination_by structural fuel => fuel

def skipBlanks : Nat → Reading Unit
  | 0 => pure ()
  | fuel + 1 => do
    let c ← char?
    if c = some ' ' || c = some '\t' then skipBlanks fuel
    else if c = some '#' then
      skipLine
      skipBlanks fuel
    else unread c
termination_by structural fuel => fuel

/-- The next token; words are only words here. -/
def token (isMark : Bool) : Nat → Reading Token
  | 0 => pure .ended
  | fuel + 1 => do
    match (← get).pushed with
    | some t =>
      modify fun s => { s with pushed := none }
      pure t
    | none =>
      skipBlanks fuel
      let before := (← get).rest
      let t ← freshToken isMark fuel
      if ← isExtended then
        let left := (← get).rest.length
        modify fun s => { s with
          recent := String.ofList (before.take (before.length - left)), mayAssign := false }
      pure t
termination_by structural fuel => fuel

def freshToken (isMark : Bool) : Nat → Reading Token
  | 0 => pure .ended
  | fuel + 1 => do
    let isExtended ← isExtended
    let isChannel := match (← get).rest with
      | '<' :: '(' :: _ | '>' :: '(' :: _ => isExtended
      | _ => false
    let c ← if isChannel then pure none else char?
    match c with
    | none =>
      if isChannel then pure (.word (← bareParts .word fuel [])) else pure .ended
    | some '\n' =>
      countLine
      pure (.operator "\n")
    | some '&' =>
      if ← take? '&' then pure (.operator "&&")
      else if isExtended then
        if ← take? '>' then pure (.arrow 1 (.both (if ← take? '>' then .append else .write)))
        else pure (.operator "&")
      else pure (.operator "&")
    | some '|' =>
      if ← take? '|' then pure (.operator "||")
      else if isExtended then pure (.operator (if ← take? '&' then "|&" else "|"))
      else pure (.operator "|")
    | some ';' =>
      if ← take? ';' then
        if isExtended then pure (.operator (if ← take? '&' then ";;&" else ";;"))
        else pure (.operator ";;")
      else if isExtended then pure (.operator (if ← take? '&' then ";&" else ";"))
      else pure (.operator ";")
    | some '(' => pure (.operator "(")
    | some ')' => pure (.operator ")")
    | some '<' => arrow false none
    | some '>' => arrow true none
    | some c =>
      unread (some c)
      let s ← get
      match if isExtended && s.mayAssign then assignmentHead? false s.rest else none with
      | some h => do pure (.word [.elements [← assignment h fuel]])
      | none =>
        let w ← bareParts (if isMark then .mark else .word) fuel []
        let text := (Word.plain? w).getD ""
        match Text.digits? text.toList with
        | some n =>
          if c.isDigit && (isExtended || text.length = 1) then
            if ← take? '<' then arrow false (some n)
            else if ← take? '>' then arrow true (some n)
            else pure (.word w)
          else pure (.word w)
        | none =>
          let cs := text.toList
          let name := String.ofList ((cs.drop 1).dropLast)
          let isNamed := isExtended && cs.head? = some '\x7b' && cs.getLast? = some '\x7d' &&
            isName name
          if isNamed then
            let t : Token ← if ← take? '<' then arrow false (some 0)
              else if ← take? '>' then arrow true (some 1)
              else pure (.word w)
            pure (match t with
              | .arrow descriptor kind => .namedArrow name descriptor kind
              | t => t)
          else pure (.word w)
termination_by structural fuel => fuel

/-- The next token, where words can be keywords or aliases, and line ends may not count. -/
def classified (isCommand skipsLines : Bool) : Nat → Reading Token
  | 0 => pure .ended
  | fuel + 1 => do
    if (← get).pushed.isNone then skipBlanks fuel
    let isAlias ← isNextAlias
    if isCommand then modify fun s => { s with mayAssign := true }
    match ← token false fuel with
    | .operator "\n" =>
      if skipsLines then
        takeDocuments fuel
        classified isCommand skipsLines fuel
      else pure (.operator "\n")
    | .word w =>
      match Word.plain? w with
      | none => pure (.word w)
      | some s =>
        if isCommand && (keywordsOf (← get).dialect).contains s then pure (.keyword s)
        else if isCommand || isAlias then
          match (← get).aliasOf? s with
          | some a =>
            enterAlias a
            classified isCommand skipsLines fuel
          | none => pure (.word w)
        else pure (.word w)
    | t => pure t
termination_by structural fuel => fuel

def takeDocuments : Nat → Reading Unit
  | 0 => pure ()
  | fuel + 1 => do
    match (← get).announced with
    | [] => pure ()
    | a :: more =>
      modify fun s => { s with announced := more }
      readDocument fuel a
      takeDocuments fuel
termination_by structural fuel => fuel

def readDocument : Nat → Announced → Reading Unit
  | 0, _ => pure ()
  | fuel + 1, a => do
    let s ← get
    let (body, behind) := documentText a (s.rest.length + 1) false [] s.rest
    let rest := behind.getD []
    let lines := (s.rest.take (s.rest.length - rest.length)).count '\n'
    let word ← if a.literal then pure [WordPart.text (String.ofList body) true] else
      set { s with rest := body, pushed := none }
      quotedParts .document s.line fuel false 0 []
    modify fun t => { t with
      rest, line := s.line + lines, pushed := s.pushed, announced := s.announced
      documents := (a.number, word) :: t.documents
      openDocuments := match behind with
        | some _ => t.openDocuments
        | none =>
          let isCut := s.rest.getLast?.any (· != '\n')
          let lastLine := s.line - 1 + lines + if isCut then 1 else 0
          t.openDocuments ++ [⟨s.line - 1, lastLine, a.mark⟩] }
termination_by structural fuel => fuel

def redirect (descriptor : Nat) (kind : ArrowKind) : Nat → Reading Redirect
  | 0 => refuse .descriptor
  | fuel + 1 => do
    let t ← token (kind == .document true || kind == .document false) fuel
    let written := (← get).recent
    match t, kind with
    | .word w, .file use => pure (.file descriptor use w written)
    | .word w, .copy => pure (.copy descriptor w)
    | .word w, .merge => pure (.merge w written)
    | .word w, .both use => pure (.both use w written)
    | .word w, .line => pure (.line descriptor w)
    | .word w, .document strips =>
      let number := (← get).fresh
      modify fun s => { s with
        fresh := number + 1
        announced := s.announced ++ [⟨number, w.literal, w.hasQuotes, strips⟩] }
      pure (.document descriptor number)
    | t, _ => unexpected t none
termination_by structural fuel => fuel

/-- The redirection behind an arrow, if a token is one. -/
def redirect? (t : Token) : Nat → Reading (Option Redirect)
  | 0 => pure none
  | fuel + 1 => do
    match t with
    | .arrow descriptor kind => pure (some (← redirect descriptor kind fuel))
    | .namedArrow name descriptor kind =>
      pure (some (.named name (← redirect descriptor kind fuel)))
    | _ => pure none
termination_by structural fuel => fuel

/-- The commands of a list. What has been read so far comes first; the end may only be met where
`mayEnd` says so. Nothing is read at the end of the script. -/
def commands (extent : Extent) : Nat → Bool → Option Command → Reading (Option Command)
  | 0, _, _ => pure none
  | fuel + 1, mayEnd, before => do
    let read : Option Command := some (before.getD .nothing)
    match ← classified true (extent != .line) fuel with
    | .operator "\n" =>
      takeDocuments fuel
      pure read
    | .ended =>
      takeDocuments fuel
      push .ended
      pure (if extent = .line then before else read)
    | t =>
      push t
      if extent != .line && mayEnd && t.closes then pure read
      else
        let c ← andOr fuel
        let t ← token false fuel
        let all := following before (if t.isOperator "&" then .background c else c)
        match t with
        | .ended =>
          takeDocuments fuel
          push .ended
          pure (some all)
        | .operator "\n" =>
          push t
          commands extent fuel true (some all)
        | t =>
          if t.isOperator "&" || t.isOperator ";" then commands extent fuel true (some all)
          else if extent = .line then unexpected t none
          else
            push t
            pure (some all)
termination_by structural fuel => fuel

/-- What stands in a command; it may not be nothing at all. -/
def body : Nat → Reading Command
  | 0 => pure .nothing
  | fuel + 1 => do pure ((← commands .body fuel false none).getD .nothing)
termination_by structural fuel => fuel

/-- Commands of which the latter ones depend on the earlier ones. -/
def andOr : Nat → Reading Command
  | 0 => pure .nothing
  | fuel + 1 => do
    let first ← pipeline fuel false
    moreAndOr fuel first
termination_by structural fuel => fuel

/-- What follows a command that others may depend on. -/
def moreAndOr : Nat → Command → Reading Command
  | 0, c => pure c
  | fuel + 1, c => do
    let t ← token false fuel
    if t.isOperator "&&" then moreAndOr fuel (.both c (← pipeline fuel true))
    else if t.isOperator "||" then moreAndOr fuel (.either c (← pipeline fuel true))
    else
      push t
      pure c
termination_by structural fuel => fuel

/-- Commands of which each reads what the one in front of it writes. -/
def pipeline : Nat → Bool → Reading Command
  | 0, _ => pure .nothing
  | fuel + 1, isFresh => do
    let t ← classified isFresh isFresh fuel
    if t.isKeyword "time" then timed fuel
    else
      let isNegated := t.isKeyword "!"
      let next : Option Token ← if isNegated && (← isExtended) then do
          let t ← classified true false fuel
          push t
          pure (some t)
        else pure none
      let isAlone := next.any fun t =>
        t.isOperator "\n" || t.isOperator ";" || (match t with
          | .ended => true
          | _ => false)
      let isTwice := next.any fun t => t.isKeyword "!" || t.isKeyword "time"
      if isAlone then pure (.negated (.simple (← get).line [] [] [] []))
      else if isTwice then pure (.negated (← pipeline fuel false))
      else
        let first ←
          if isNegated then command fuel true false
          else
            push t
            command fuel false false
        let all := match ← morePipeline fuel [first] with
          | [c] => c
          | cs => .pipeline cs
        pure (if isNegated then .negated all else all)
termination_by structural fuel => fuel

def timed : Nat → Reading Command
  | 0 => pure .nothing
  | fuel + 1 => do
    let t ← classified true false fuel
    let isShort := match t with
      | .word w => Word.plain? w == some "-p"
      | _ => false
    let t ← if isShort then classified true false fuel else pure t
    push t
    if t.closes || t.isOperator "\n" || t.isOperator ";" then pure (.timed isShort .nothing)
    else pure (.timed isShort (← pipeline fuel false))
termination_by structural fuel => fuel

/-- What follows a command whose output may be read; the commands so far stand backwards. -/
def morePipeline : Nat → List Command → Reading (List Command)
  | 0, cs => pure cs.reverse
  | fuel + 1, cs => do
    let t ← token false fuel
    if t.isOperator "|" then morePipeline fuel ((← command fuel true true) :: cs)
    else if t.isOperator "|&" then
      morePipeline fuel ((← command fuel true true) :: cs.modifyHead Command.withErrors)
    else
      push t
      pure cs.reverse
termination_by structural fuel => fuel

def command : Nat → Bool → Bool → Reading Command
  | 0, _, _ => pure .nothing
  | fuel + 1, isFresh, skipsLines => do
    let line := (← get).line
    let t ← classified isFresh skipsLines fuel
    match t with
    | .word _ | .arrow .. | .namedArrow .. =>
      push t
      let line := (← get).line
      simple fuel line true [] [] [] []
    | .operator "(" =>
      match ← arithmeticCommand fuel with
      | some w => do
        let c := Command.arithmetic (← get).line w
        let rs ← redirects fuel []
        pure (if rs.isEmpty then c else .redirected line c rs)
      | none => do
        let c ← body fuel
        let t ← token false fuel
        if !t.isOperator ")" then unexpected t (some ")")
        let s ← get
        let line := if s.dialect = .extended then s.line else line
        pure (.subshell line c (← redirects fuel []))
    | .keyword word =>
      let c ← match word with
        | "if" => do
          let c ← conditional fuel
          expect "fi" (← token false fuel)
          pure c
        | "while" | "until" => do
          let condition ← body fuel
          expect "do" (← token false fuel)
          let c ← body fuel
          expect "done" (← token false fuel)
          pure (.loop (word == "until") condition c)
        | "for" => forEach fuel line
        | "select" => do
          let (line, name, words) ← loopHead fuel
          pure (.select line name words (← loopBody fuel))
        | "case" => choice fuel line
        | "\x7b" => do
          let c ← body fuel
          expect "\x7d" (← token false fuel)
          pure (if ← isExtended then .group c else c)
        | "[[" => do
          let c ← eitherCheck fuel
          skipLines fuel
          let last := (← get).lastLine
          match ← checkToken fuel with
          | .operator "]]" => pure (.check last c)
          | .ended => refuseOpenCheck line "unexpected EOF while looking for \x60]]'"
          | t =>
            let complaint := "syntax error in conditional expression"
            let complaint := match checkName t with
              | some name => s!"{complaint}: unexpected token \x60{name}'"
              | none => complaint
            let s ← get
            refuseAt s.lastLine (.condition [(line, complaint)] (some s.nearText))
        | "function" => do
          let t ← token false fuel
          match t with
          | .word w => do
            let t ← token false fuel
            if t.isOperator "(" then
              let t ← token false fuel
              if !t.isOperator ")" then unexpected t none
            else push t
            functionBody fuel (w.literal)
          | t => unexpected t none
        | _ => unexpected t none
      let rs ← redirects fuel []
      pure (if rs.isEmpty then c else .redirected line c rs)
    | t => unexpected t none
termination_by structural fuel => fuel

/-- The expression of a command that begins with two parentheses, of which one has been read. -/
def arithmeticCommand : Nat → Reading (Option Word)
  | 0 => pure none
  | fuel + 1 => do
    let s ← get
    match s.dialect, s.rest with
    | .extended, '(' :: rest =>
      match doubleParentheses 0 [] rest with
      | some (text, behind) =>
        let w ← inside .document (text.filter (· ≠ '"')) fuel
        modify fun s => { s with rest := behind, line := s.line + text.count '\n' }
        pure (some w)
      | none => if rest.contains ')' then pure none else refuseAt s.line (.openMark ')')
    | _, _ => pure none
termination_by structural fuel => fuel

/-- The body of a function of the extended language, which is no simple command. -/
def functionBody : Nat → String → Reading Command
  | 0, _ => pure .nothing
  | fuel + 1, name => do
    let line := (← get).line
    let t ← classified true true fuel
    match t with
    | .word _ | .arrow .. | .namedArrow .. => unexpected t none
    | _ =>
      push t
      pure (.function line name (← command fuel false false))
termination_by structural fuel => fuel

/-- Goes to the next line that is not empty. -/
def skipLines : Nat → Reading Unit
  | 0 => pure ()
  | fuel + 1 => do
    skipBlanks fuel
    if (← get).rest.head? = some '\n' then
      let _ ← char?
      countLine
      skipLines fuel
termination_by structural fuel => fuel

def checkToken : Nat → Reading Token
  | 0 => pure .ended
  | fuel + 1 => do
    skipBlanks fuel
    let before := (← get).rest
    let t : Token ← match before with
      | '<' :: _ | '>' :: _ => do
        let c ← char?
        pure (.operator (String.ofList c.toList))
      | _ => do
        let combines := (← get).combines
        modify fun s => { s with combines := true }
        let t ← token false fuel
        modify fun s => { s with combines }
        pure t
    let left := (← get).rest.length
    modify fun s => { s with recent := String.ofList (before.take (before.length - left)) }
    match t with
    | .word w => pure (if Word.plain? w == some "]]" then .operator "]]" else t)
    | t => pure t
termination_by structural fuel => fuel

/-- How messages name a token of a condition; words have no name. -/
def checkName : Token → Option String
  | .operator "\n" => some "newline"
  | .operator text | .keyword text => some text
  | .ended => some "EOF"
  | _ => none

/-- A condition is wrong at the token that has been read last. -/
def refuseCheck {α : Type} (complaints : List String) : Reading α := do
  let s ← get
  refuseAt s.lastLine (.condition (complaints.map (s.lastLine, ·)) (some s.nearText))

/-- The text has come to its end in a condition, which is said of a line. -/
def refuseOpenCheck {α : Type} (line : Nat) (complaint : String) : Reading α := do
  let s ← get
  refuseAt s.lineBehind (.condition [(line, complaint)] none)

/-- Instead of an argument of an operator there is something else. -/
def refuseArgument {α : Type} (arity : String) (t : Token) : Reading α :=
  let name := match t with
    | .ended => "newline"
    | t => (checkName t).getD ""
  refuseCheck [s!"unexpected argument \x60{name}' to conditional {arity} operator"]

/-- What stands in parentheses is no condition. -/
def refuseGroup {α : Type} (line : Nat) (t : Token) : Reading α :=
  match t with
  | .ended => refuseOpenCheck line "unexpected token \x60EOF', expected \x60)'"
  | t =>
    refuseCheck [match checkName t with
      | some name => s!"unexpected token \x60{name}', expected \x60)'"
      | none => "expected \x60)'"]

/-- Conditions of which one has to hold. -/
def eitherCheck : Nat → Reading Check
  | 0 => pure (.word [])
  | fuel + 1 => do
    let a ← bothCheck fuel
    skipLines fuel
    match (← get).rest with
    | '|' :: '|' :: rest =>
      modify fun s => { s with rest }
      pure (.either a (← eitherCheck fuel))
    | _ => pure a
termination_by structural fuel => fuel

/-- Conditions of which all have to hold. -/
def bothCheck : Nat → Reading Check
  | 0 => pure (.word [])
  | fuel + 1 => do
    let a ← singleCheck fuel
    skipLines fuel
    match (← get).rest with
    | '&' :: '&' :: rest =>
      modify fun s => { s with rest }
      pure (.both a (← bothCheck fuel))
    | _ => pure a
termination_by structural fuel => fuel

/-- A condition that is no combination of others. -/
def singleCheck : Nat → Reading Check
  | 0 => pure (.word [])
  | fuel + 1 => do
    skipLines fuel
    let t ← checkToken fuel
    match t with
    | .operator "(" =>
      let line := (← get).line
      let c : Check ← fun s =>
        match (eitherCheck fuel).run s with
        | .error ⟨last, .condition complaints (some token), written⟩ =>
          let text := if complaints.isEmpty then "unexpected token \x60" ++ token ++ "', expected \x60)'"
            else "expected \x60)'"
          .error ⟨last, .condition (complaints ++ [(line, text)]) (some token), written⟩
        | result => result
      skipLines fuel
      let t ← checkToken fuel
      if !t.isOperator ")" then refuseGroup line t
      pure c
    | .word w =>
      match Word.plain? w with
      | some "!" => do pure (.negation (← singleCheck fuel))
      | some text =>
        if checkOperators.contains text then unaryCheck fuel text else comparison fuel w
      | none => comparison fuel w
    | .operator "]]" => refuseCheck []
    | .ended => do
      let complaint := "unexpected token \x60EOF' in conditional command"
      refuseOpenCheck (← get).lineBehind complaint
    | t =>
      let name := (checkName t).getD ""
      refuseCheck [s!"unexpected token \x60{name}' in conditional command"]
termination_by structural fuel => fuel

def unaryCheck : Nat → String → Reading Check
  | 0, _ => pure (.word [])
  | fuel + 1, operator => do
    match ← checkToken fuel with
    | .word a => pure (.unary operator a)
    | t => refuseArgument "unary" t
termination_by structural fuel => fuel

/-- What follows a word that may be compared. -/
def comparison : Nat → Word → Reading Check
  | 0, w => pure (.word w)
  | fuel + 1, w => do
    let before ← get
    let t ← checkToken fuel
    if ["]]", "&&", "||", ")"].any t.isOperator then
      set before
      pure (.word w)
    else
      let operator? := match t with
        | .word op => (Word.plain? op).filter comparisons.contains
        | .operator op => if op = "<" || op = ">" then some op else none
        | _ => none
      match operator?, t with
      | some "=~", _ =>
        skipBlanks fuel
        match (← get).rest.head? with
        | some c =>
          if Bare.regex.ends c then
            let t ← checkToken fuel
            refuseArgument "binary" t
          else pure (.binary "=~" w (← bareParts .regex fuel []))
        | none => refuseArgument "binary" .ended
      | some operator, _ =>
        match ← checkToken fuel with
        | .word b => pure (.binary operator w b)
        | t => refuseArgument "binary" t
      | none, t =>
        let name := match t with
          | .ended => "newline"
          | t => (checkName t).getD ""
        let complaint := "conditional binary operator expected"
        refuseCheck [if name.isEmpty then complaint else s!"unexpected token \x60{name}', {complaint}"]
termination_by structural fuel => fuel

/-- What follows "if" or "elif", up to the end. -/
def conditional : Nat → Reading Command
  | 0 => pure .nothing
  | fuel + 1 => do
    let condition ← body fuel
    expect "then" (← token false fuel)
    let yes ← body fuel
    let t ← token false fuel
    if t.isKeyword "elif" then pure (.conditional condition yes (some (← conditional fuel)))
    else if t.isKeyword "else" then pure (.conditional condition yes (some (← body fuel)))
    else
      push t
      pure (.conditional condition yes none)
termination_by structural fuel => fuel

def forEach : Nat → Nat → Reading Command
  | 0, _ => pure .nothing
  | fuel + 1, line => do
    skipBlanks fuel
    let s ← get
    match s.dialect, s.rest with
    | .extended, '(' :: '(' :: rest => countingLoop fuel line rest
    | _, _ =>
      let (last, name, words) ← loopHead fuel
      let line := if s.dialect = .extended then last else line
      pure (.forEach line name words (← loopBody fuel))
termination_by structural fuel => fuel

/-- The variable of a loop with its line, and the words that it takes. -/
def loopHead : Nat → Reading (Nat × String × List Word)
  | 0 => pure (0, "", [])
  | fuel + 1 => do
    let t ← token false fuel
    let line := (← get).lastLine
    let name ← match t, (← get).dialect with
      | .word w, .plain =>
        match (Word.plain? w).filter isName with
        | some name => pure name
        | none => refuse .loopVariable
      | .word w, .extended => pure w.literal
      | _, .plain => refuse .loopVariable
      | t, .extended => unexpected t none
    let t ← classified true true fuel
    let words ←
      if t.isKeyword "in" then do
        let words ← wordList fuel []
        let t ← token false fuel
        if !(t.isOperator "\n" || t.isOperator ";") then unexpected t none
        pure words
      else do
        if !t.isOperator ";" then push t
        pure [[WordPart.parameter "@" .value true]]
    pure (line, name, words)
termination_by structural fuel => fuel

def loopBody : Nat → Reading Command
  | 0 => pure .nothing
  | fuel + 1 => do
    let t ← classified true true fuel
    if t.isKeyword "\x7b" && (← isExtended) then
      let c ← body fuel
      expect "\x7d" (← token false fuel)
      pure c
    else
      expect "do" t
      let c ← body fuel
      expect "done" (← token false fuel)
      pure c
termination_by structural fuel => fuel

def countingLoop : Nat → Nat → List Char → Reading Command
  | 0, _, _ => pure .nothing
  | fuel + 1, line, rest => do
    match doubleParentheses 0 [] rest with
    | none => refuseAt line (.openMark ')')
    | some (text, behind) =>
      match Text.splitAt ';' text with
      | [a, b, c] =>
        let start ← inside .document a fuel
        let condition ← inside .document b fuel
        let step ← inside .document c fuel
        modify fun s => { s with rest := behind, line := s.line + text.count '\n' }
        let t ← classified true true fuel
        if !t.isOperator ";" then push t
        pure (.count line start condition step (← loopBody fuel))
      | _ => refuseAt line (.loopExpressions ("(" ++ String.ofList text ++ ")"))
termination_by structural fuel => fuel

/-- Words up to something else; those so far stand backwards. -/
def wordList : Nat → List Word → Reading (List Word)
  | 0, words => pure words.reverse
  | fuel + 1, words => do
    match ← token false fuel with
    | .word w => wordList fuel (w :: words)
    | t =>
      push t
      pure words.reverse
termination_by structural fuel => fuel

def choice : Nat → Nat → Reading Command
  | 0, _ => pure .nothing
  | fuel + 1, line => do
    match ← token false fuel with
    | .word w =>
      let s ← get
      let line := if s.dialect = .extended then s.lastLine else line
      expect "in" (← classified true true fuel)
      pure (.choice line w (← arms fuel []))
    | t => unexpected t (some "word")
termination_by structural fuel => fuel

/-- The arms of a choice, behind those that stand backwards. -/
def arms : Nat → List Arm → Reading (List Arm)
  | 0, done => pure done.reverse
  | fuel + 1, done => do
    let t ← armStart fuel
    if t.isKeyword "esac" then pure done.reverse
    else
      let t ← if t.isOperator "(" then token false fuel else pure t
      let patterns ← patternList fuel t []
      let c ← commands .optional fuel true none
      let arm (ending : ArmEnd) : List Arm := .mk patterns (c.getD .nothing) ending :: done
      let t ← armStart fuel
      if t.isKeyword "esac" then pure (arm .leaves).reverse
      else if t.isOperator ";;" then arms fuel (arm .leaves)
      else if t.isOperator ";&" then arms fuel (arm .fallsThrough)
      else if t.isOperator ";;&" then arms fuel (arm .looksOn)
      else unexpected t (some ";;")
termination_by structural fuel => fuel

/-- The token that an arm begins with, or that stands behind it. -/
def armStart : Nat → Reading Token
  | 0 => pure .ended
  | fuel + 1 => do
    match ← token false fuel with
    | .operator "\n" =>
      takeDocuments fuel
      armStart fuel
    | .word w =>
      match (Word.plain? w).filter keywords.contains with
      | some s => pure (.keyword s)
      | none => pure (.word w)
    | t => pure t
termination_by structural fuel => fuel

/-- The patterns of an arm from a token on, up to the parenthesis. -/
def patternList : Nat → Token → List Word → Reading (List Word)
  | 0, _, patterns => pure patterns.reverse
  | fuel + 1, t, patterns => do
    let w ← match t with
      | .word w => pure w
      | .keyword s => pure [WordPart.text s false]
      | t => unexpected t none
    let t ← token false fuel
    if t.isOperator "|" then patternList fuel (← token false fuel) (w :: patterns)
    else if t.isOperator ")" then pure (w :: patterns).reverse
    else unexpected t (some ")")
termination_by structural fuel => fuel

/-- The redirections behind a command; those so far stand backwards. -/
def redirects : Nat → List Redirect → Reading (List Redirect)
  | 0, rs => pure rs.reverse
  | fuel + 1, rs => do
    let t ← classified true false fuel
    match ← redirect? t fuel with
    | some r => redirects fuel (r :: rs)
    | none =>
      push t
      pure rs.reverse
termination_by structural fuel => fuel

/-- A command that is neither a keyword nor in parentheses, or the definition of a function. What
has been read so far stands backwards. -/
def simple : Nat → Nat → Bool → List Assignment → List Word → List Redirect → List String →
    Reading Command
  | 0, _, _, _, _, _, _ => pure .nothing
  | fuel + 1, line, isFirst, assignments, words, rs, written => do
    let isDeclaring := (words.getLast?.bind Word.plain?).any declaring.contains
    modify fun s => { s with mayAssign := isFirst || isDeclaring }
    let t ← argument isFirst fuel
    /- In the extended language the line is the one in which the first part ends, and behind a word
    also the token that follows it, with the documents behind its line. -/
    let isLast := assignments.length + words.length + rs.length = 1 && words.length = 1
    if isLast && t.isOperator "\n" && (← isExtended) then takeDocuments fuel
    let s ← get
    let isStart := assignments.isEmpty && words.isEmpty && rs.isEmpty
    let line := if s.dialect = .extended && (isStart || isLast) then s.lastLine else line
    let result : Command :=
      .simple line assignments.reverse words.reverse rs.reverse written.reverse
    match t with
    | .word w =>
      let written := if s.dialect = .extended then s.recent :: written else []
      let assigned : Option Assignment := match if isFirst then w else [] with
        | [.elements [a]] => some a
        | w => w.assignment?.map fun (name, value) => .mk name .absent false value
      match assigned with
      | some a => simple fuel line true (a :: assignments) words rs written
      | none => simple fuel line false assignments (w :: words) rs written
    | .arrow .. | .namedArrow .. =>
      match ← redirect? t fuel with
      | some r =>
        let s ← get
        let line := if s.dialect = .extended && isStart then s.lastLine else line
        simple fuel line isFirst assignments words (r :: rs) written
      | none => pure result
    | .operator "(" =>
      match words, assignments, rs with
      | [w], [], [] =>
        let t ← token false fuel
        if !t.isOperator ")" then unexpected t (some ")")
        if ← isExtended then functionBody fuel w.literal
        else
          match (Word.plain? w).filter fun s => isName s && !specialNames.contains s with
          | some name =>
            let line := (← get).line
            pure (.function line name (← command fuel true true))
          | none => refuse .functionName
      | _, _, _ =>
        push (.operator "(")
        pure result
    | t =>
      push t
      pure result
termination_by structural fuel => fuel

/-- The next word of a command; the first one may be an alias. -/
def argument (isFirst : Bool) : Nat → Reading Token
  | 0 => pure .ended
  | fuel + 1 => do
    if (← get).pushed.isNone then skipBlanks fuel
    let isAlias ← isNextAlias
    let wasPushed := (← get).pushed.isSome
    match ← token false fuel with
    | .word w =>
      match if (isFirst && !wasPushed) || isAlias then Word.plain? w else none with
      | some s =>
        match (← get).aliasOf? s with
        | some a =>
          enterAlias a
          argument isFirst fuel
        | none => pure (.word w)
      | none => pure (.word w)
    | t => pure t
termination_by structural fuel => fuel

end

/-- More steps one below the other than any script takes to be read. -/
def Source.depth : Nat := 1000000000000

/-- The commands on the next line of a script, and what stands behind it. Nothing is left at the
end of the script. -/
def Source.nextCommand (s : Source) : Except Fault (Option Command × Source) :=
  (commands .line Source.depth false none).run s

/-- A text in which expansions count, as in a document. -/
def Source.document? (d : Dialect) (text : String) : Option Word :=
  ((quotedParts .document 1 Source.depth false 0 []).run (Source.ofText d text 1)).toOption.map (·.1)

end PipelineRunner.Shell
