import PipelineRunner.Shell.Arithmetic
import PipelineRunner.Shell.Fields
import PipelineRunner.Shell.State

/-!
The parts of expanded words that do not need anything to be run: texts, tildes, and the values of
parameters.
-/

namespace PipelineRunner.Shell

open Text

/-- Where a tilde at the head of a text means a home. -/
inductive Tildes where
  | none
  | first
  /-- Also behind every colon. -/
  | all
  deriving DecidableEq, Repr

/-- What a word is expanded for. -/
structure Purpose where
  /-- Whether it yields fields, and not a single text. -/
  splits : Bool := false
  tildes : Tildes := .none
  /-- Whether it stands in the place of a value. -/
  isValue : Bool := false

def homes : List (String × String) :=
  [("root", "/root"), ("daemon", "/usr/sbin"), ("bin", "/bin"), ("sys", "/dev"), ("sync", "/bin"),
    ("games", "/usr/games"), ("man", "/var/cache/man"), ("lp", "/var/spool/lpd"),
    ("mail", "/var/mail"), ("news", "/var/spool/news"), ("uucp", "/var/spool/uucp"),
    ("proxy", "/bin"), ("www-data", "/var/www"), ("backup", "/var/backups"), ("list", "/var/list"),
    ("irc", "/run/ircd"), ("nobody", "/nonexistent")]

def State.home? (s : State) (name : String) : Option String :=
  match s.dialect, name with
  | _, "" => s.value? "HOME"
  | .extended, "+" => s.value? "PWD"
  | .extended, "-" => s.value? "OLDPWD"
  | _, name => List.lookup name homes

/-- The home at the head of a text and what stands behind it. The text is the last of its word, or
something else follows it that could belong to the name. -/
def State.homeAt? (s : State) (tildes : Tildes) (isLast : Bool) :
    List Char → Option (String × List Char)
  | '~' :: cs =>
    let ends (c : Char) : Bool := c == '/' || (c == ':' && tildes = .all)
    let name := cs.takeWhile fun c => !ends c
    let rest := cs.drop name.length
    if rest.isEmpty && !isLast then none
    else (s.home? (String.ofList name)).map (·, rest)
  | _ => none

/-- A text in pieces, of which the homes are quoted; `taken` stands in front of it, backwards. At
the place of a tilde one may stand for a home. -/
def State.homePieces (s : State) (tildes : Tildes) (isLast : Bool) :
    Nat → Bool → List Char → List Char → List (String × Bool)
  | 0, _, taken, cs => [(String.ofList (taken.reverse ++ cs), false)]
  | fuel + 1, atPlace, taken, cs =>
    match if atPlace then s.homeAt? tildes isLast cs else none with
    | some (home, rest) =>
      (String.ofList taken.reverse, false) :: (home, true) ::
        s.homePieces tildes isLast fuel false [] rest
    | none =>
      match cs with
      | [] => [(String.ofList taken.reverse, false)]
      | c :: cs =>
        s.homePieces tildes isLast fuel (c == ':' && tildes = .all) (c :: taken) cs

/-- A plain text as a part of a word. -/
def Purpose.literal (p : Purpose) (text : String) (quoted : Bool) : List Piece :=
  if quoted then [if text.isEmpty then .mark else .fixed (Glyphs.ofText true text)]
  else if text.isEmpty then []
  else if p.isValue then [.value text]
  else [.fixed (Glyphs.ofText false text)]

/-- A text that is not quoted as parts of a word. It stands first in the word, or last. -/
def State.literal (s : State) (p : Purpose) (isFirst isLast : Bool) (text : String) : List Piece :=
  let cs := text.toList
  if p.tildes = .none || !cs.contains '~' then p.literal text false
  else
    let ps := s.homePieces p.tildes isLast (cs.length + 1) isFirst [] cs
    ps.flatMap fun (text, quoted) => if text.isEmpty && quoted then [] else p.literal text quoted

/-- The value of a parameter in a word: one text, or the arguments one by one, between which a
character stands that nothing else holds. -/
structure Found where
  text : String
  isList : Bool := false

namespace Found

def gap : Char := Char.ofNat 0

def arguments (text : String) : List String := (splitAt gap text.toList).map String.ofList

/-- The value as a part of a word. -/
def pieces (f : Found) (quoted : Bool) : List Piece :=
  if f.isList then [.list (arguments f.text)]
  else if quoted then
    if f.text.isEmpty then [] else [.fixed (Glyphs.ofText true f.text)]
  else [.value f.text]

end Found

/-- The value of a parameter in a word. -/
def State.found? (s : State) (p : Purpose) (quoted : Bool) (name : String) : Option Found :=
  if name = "@" || name = "*" then
    let isList := name = "@" && quoted && p.splits
    if isList || (p.splits && !quoted) then
      let isApart := isList || (s.value? "IFS").isSome
      let text := join (if isApart then String.singleton Found.gap else " ") s.arguments
      some { text, isList := isList && !s.arguments.isEmpty }
    else some { text := s.joinedArguments }
  else (s.parameter? name).map fun text => { text }

/-- The numbers that are worked out in a word, and what has been assigned on the way. -/
def State.arithmetic (s : State) (text : String) :
    Except String (Int × Arithmetic.Assigned) :=
  let value (name : String) : Except Arithmetic.Fault Int :=
    let v := (s.value? name).getD ""
    match Numeral.valueOf? v with
    | some n => .ok n
    | none => .error (.illegal v)
  ((Arithmetic.Expression.parse text).bind fun e => e.eval value []).mapError (·.message text)

end PipelineRunner.Shell
