import PipelineRunner.Shell.Action
import PipelineRunner.Shell.Expansion
import PipelineRunner.Shell.Extended.Arithmetic
import PipelineRunner.Shell.Extended.Escapes
import PipelineRunner.Shell.Extended.Glob
import PipelineRunner.Shell.Extended.WordLists
import PipelineRunner.Shell.State

/-!
What the parts of the interpreter of the extended language have in common. They need each other:
words hold commands, and commands consist of words. So each part is told how the others work.
-/

namespace PipelineRunner.Shell.Extended

open Host Text Shell.Action

/-- The parts of the interpreter that need each other. -/
structure Runner where
  /-- Runs a command. -/
  eval : Mode → Command → Action Unit
  /-- Expands the parts of a word, of which the first may be the first of the whole word. -/
  parts : Purpose → Bool → Word → Action (List Piece)
  /-- Runs a text as a script that is called by a name, from a line on, and yields its status. -/
  runText : Mode → Option String → Nat → String → Action Nat

def complain (text : String) (status : Nat) : Action Nat := do
  warn text
  pure status

def endWith {α : Type} (text : String) (status : Nat) : Action α := do
  warn text
  setStatus status
  throw .exit

/-- Ends the shell, since a variable has no value. -/
def failUnset {α : Type} (name : String) : Action α := do
  endWith (name ++ ": unbound variable") (← get).expansionStatus

/-- Breaks off, since an expression has no value. -/
def failArithmetic {α : Type} (front : String) : ArithmeticFault → Action α
  | .wrong expression complaint token =>
    fail (front ++ expression ++ ": " ++ complaint ++ " (error token is \"" ++ token ++ "\")")
  | .unset name => failUnset name
  | .constant name => do fail ((← get).constantText name)

def numberOf (front text : String) : Action Int := do
  match Arithmetic.value (← get) text with
  | .ok (n, s) =>
    set s
    pure n
  | .error f => failArithmetic front f

namespace Runner

def text (r : Runner) (p : Purpose) (w : Word) : Action String := do
  pure (Piece.text (← r.parts p true w))

/-- A pattern that glyphs are, as the shell has been told to read them. -/
def globOf (s : State) (combines : Bool) (gs : Glyphs) : Glob :=
  Glob.of s.charset (combines || s.hasFeature "extglob") (s.hasFeature "nocasematch") gs

def glyphs (r : Runner) (w : Word) : Action Glyphs := do
  pure ((← r.parts { tildes := .first } true w).flatMap Piece.glyphs)

def pattern (r : Runner) (w : Word) : Action Glob := do
  let gs ← r.glyphs w
  pure (globOf (← get) false gs)

end Runner
/-! ### Values of parameters

What the extended language does with the values of parameters: parts are cut out or replaced,
letters are changed, and values are written so that they can be read again. -/

open Text

/-- The range from an offset on among so many things; a negative offset counts from their end, and
so does a negative length. Nothing is yielded for a length in front of the offset. -/
def rangeOf? (size : Nat) (offset : Int) (length : Option Int) : Option (Nat × Nat) :=
  let start := if offset < 0 then offset + size else offset
  if start < 0 || (size : Int) < start then some (0, 0)
  else
    match length with
    | none => some (start.toNat, size)
    | some n =>
      let finish := if n < 0 then n + size else min (start + n) size
      if finish < start then none else some (start.toNat, finish.toNat)

def slice? (k : Charset) (text : String) (offset : Int) (length : Option Int) : Option String :=
  let c := Characters.of k text
  (rangeOf? c.chars.size offset length).map fun (i, j) => c.slice i j

/-- The length of the longest text that a pattern takes at the head of some characters. -/
def longestAt? (g : Glob) (cs : List Char) : Option Nat :=
  match (g.restsOf cs).map List.length with
  | [] => none
  | n :: more => some (cs.length - more.foldl Nat.min n)

/-- The first place that a pattern is found at, with the characters in front of it backwards, what
it takes, and what stands behind. -/
def firstMatch? (g : Glob) : List Char → List Char → Option (List Char × List Char × List Char)
  | before, [] => (longestAt? g []).map fun _ => (before, [], [])
  | before, c :: cs =>
    match longestAt? g (c :: cs) with
    | some n => some (before, (c :: cs).take n, (c :: cs).drop n)
    | none => firstMatch? g (c :: before) cs

/-- The characters with every match of a pattern replaced by what `f` makes of it; those in front
stand backwards. -/
def replaceEvery (g : Glob) (f : List Char → List Char) : Nat → List Char → List Char → List Char
  | 0, before, cs => before.reverse ++ cs
  | fuel + 1, before, cs =>
    match cs with
    | [] => before.reverse
    | c :: rest =>
      match longestAt? g cs with
      | some 0 | none => replaceEvery g f fuel (c :: before) rest
      | some n => replaceEvery g f fuel ((f (cs.take n)).reverse ++ before) (cs.drop n)

/-- A replacement, in which signs may stand for what is replaced. -/
def replacing (k : Charset) (usesMatch : Bool) (gs : Glyphs) (found : List Char) : List Char :=
  (Glob.decoded k (gs.length + 1) gs).flatMap fun g =>
    if usesMatch && g = ⟨'&', false⟩ then found else [g.char]

/-- A text with matches of a pattern replaced. -/
def replaced (k : Charset) (which : Replacing) (g : Glob) (f : List Char → List Char)
    (text : String) : String :=
  let c := Characters.of k text
  let cs := c.chars.toList
  if g.parts.isEmpty && which ≠ .front && which ≠ .back then text
  else
    c.encoded (match which with
      | .first =>
        match firstMatch? g [] cs with
        | some (before, found, rest) => before.reverse ++ f found ++ rest
        | none => cs
      | .every => replaceEvery g f (cs.length + 1) [] cs
      | .front =>
        match longestAt? g cs with
        | some n => f (cs.take n) ++ cs.drop n
        | none => cs
      | .back =>
        match (List.range (cs.length + 1)).find? fun n => g.takes (cs.drop n) with
        | some n => cs.take n ++ f (cs.drop n)
        | none => cs)

def recasedLetter (how : Recasing) (c : Char) : Char :=
  match how with
  | .upper => Letters.upper c
  | .lower => Letters.lower c
  | .swapped => if Letters.upper c = c then Letters.lower c else Letters.upper c

/-- A text with the letters changed that a pattern takes. -/
def recase (k : Charset) (how : Recasing) (every : Bool) (g : Glob) (text : String) : String :=
  let c := Characters.of k text
  let change (d : Char) : Char :=
    if g.parts.isEmpty || g.takes [d] then recasedLetter how d else d
  c.encoded (match every, c.chars.toList with
    | true, cs => cs.map change
    | false, d :: cs => change d :: cs
    | false, [] => [])

def propertyLetters (v : Variable) : String :=
  let flag (b : Bool) (s : String) : String := if b then s else ""
  let list := match v.elements with
    | some (.numbered _) => "a"
    | some (.keyed _) => "A"
    | none => ""
  let letters := match v.recasing with
    | some .upper => "u"
    | some .lower => "l"
    | _ => ""
  list ++ flag v.isNumber "i" ++ flag v.isReference "n" ++ flag v.constant "r" ++
    flag v.exported "x" ++ letters

def elementsText (e : Elements) : String :=
  match e with
  | .numbered items =>
    "(" ++ join " " (items.map fun (n, v) => s!"[{n}]=" ++ Quoting.inDouble v) ++ ")"
  | .keyed _ =>
    let shown (key : String) : String :=
      if !isShownText key || Quoting.isMeaningfulFrom none key.toList || key.isEmpty ||
          key = "@" || key = "*" then Quoting.inDouble key
      else key
    "(" ++ String.join (e.all.map fun (p, v) =>
      "[" ++ shown p.text ++ "]=" ++ Quoting.inDouble v ++ " ") ++ ")"

/-- The command that would make a variable, by the word that such commands begin with. -/
def declaration (name : String) (v : Variable) : String :=
  let letters := propertyLetters v
  let head := "declare -" ++ (if letters.isEmpty then "-" else letters) ++ " " ++ name
  match v.elements with
  | some e =>
    if v.isBare then head
    else if e.size = 0 then head ++ "=()"
    else head ++ "=" ++ elementsText e
  | none => head ++ ((v.value.map fun t => "=" ++ Quoting.inDouble t).getD "")

/-! ### Words

Expanding the words of the extended language: the values of parameters and of lists and what is made
of them, and the fields that a word yields. -/

open Host Text Shell.Action

/-- Which values of a parameter are meant. -/
inductive Part where
  | whole
  /-- All elements, each by itself or together. -/
  | every (isApart : Bool)
  | at (p : Place)
  deriving DecidableEq, Repr

/-- What a parameter stands for. -/
inductive Seen where
  | missing
  | one (text : String)
  /-- Several texts, each by itself or together. -/
  | many (texts : List String) (isApart : Bool)
  deriving DecidableEq, Repr

namespace Seen

def texts : Seen → List String
  | missing => []
  | one t => [t]
  | many ts _ => ts

def map (f : String → String) : Seen → Seen
  | missing => missing
  | one t => one (f t)
  | many ts isApart => many (ts.map f) isApart

/-- Whether there is nothing, or nothing but an empty text where that is said. -/
def isMissing (strict : Bool) : Seen → Bool
  | missing => true
  | one t => strict && t.isEmpty
  | many ts _ => ts.isEmpty || (strict && ts = [""])

/-- What stands between texts that are taken together. -/
def gap (s : State) : String :=
  match s.value? "IFS" with
  | none => " "
  | some t => Bytes.take 1 t

def text (s : State) : Seen → String
  | missing => ""
  | one t => t
  | many ts isApart => join (if isApart then " " else gap s) ts

/-- The texts as a part of a word. -/
def pieces (s : State) (p : Purpose) (quoted : Bool) (v : Seen) : List Piece :=
  let single (t : String) : List Piece :=
    if !quoted then [.value t]
    else if t.isEmpty then []
    else [.fixed (Glyphs.ofText true t)]
  match v with
  | many ts isApart =>
    if !p.splits then single (v.text s)
    else if quoted && isApart then (if ts.isEmpty then [] else [.list ts])
    else if quoted then single (v.text s)
    else
      let g := gap s
      [.value (join (if g.isEmpty then String.singleton Found.gap else g) ts)]
  | missing => []
  | one t => single t

end Seen

def seen (s : State) (name : String) : Part → Seen
  | .whole =>
    if name = "@" || name = "*" then .many s.arguments (name = "@")
    else ((s.parameter? name).map Seen.one).getD .missing
  | .every isApart => .many (((s.binding? name).map fun v => v.all.map (·.2)).getD []) isApart
  | .at p => (((s.binding? name).bind (·.at? p)).map Seen.one).getD .missing

/-- The place in a list that a text between brackets means, unless it lies in front of the list. -/
def placeAt (name text : String) : Action (Option Place) := do
  let v := (← get).binding? name
  match v.bind (·.elements) with
  | some (.keyed _) => pure (if text.isEmpty then none else some (.key text))
  | e =>
    let n ← numberOf "" text
    let next : Nat := match e with
      | some e => e.next
      | none => if v.any (·.value.isSome) then 1 else 0
    let n := if n < 0 then n + next else n
    pure (if n < 0 then none else some (.number n.toNat))

/-- The name, and the text between brackets behind it, that a text consists of. -/
def splitReference (text : String) : String × Option String :=
  let cs := text.toList
  let name := cs.takeWhile isNamePart
  match cs.drop name.length with
  | '[' :: inside =>
    if inside.getLast? = some ']' && isName (String.ofList name) then
      (String.ofList name, some (String.ofList inside.dropLast))
    else (text, none)
  | _ => (text, none)

/-- Whether a text can be the name of a parameter. -/
def isParameter (text : String) : Bool :=
  isName text || (!text.isEmpty && text.toList.all Char.isDigit) ||
    ["@", "*", "#", "?", "$", "!", "-"].contains text

/-- What a place outside of a list is called. -/
def warnPlace (name : String) : Action Unit := warn (name ++ ": bad array subscript")

namespace Runner

/-- The part of a parameter that a subscript means; nothing stands at a place in front of a list. -/
def part? (r : Runner) (name : String) : Subscript → Action (Option Part)
  | .absent => pure (some .whole)
  | .every isApart => pure (some (.every isApart))
  | .place _ w => do
    let text ← r.text {} w
    match ← placeAt name text with
    | some p => pure (some (.at p))
    | none =>
      warnPlace name
      pure none

end Runner

def referred (text : String) : Action (String × Option Part) := do
  let (name, inside) := splitReference text
  if !isParameter name then fail (text ++ ": invalid variable name")
  match inside with
  | none => pure (name, some .whole)
  | some "@" => pure (name, some (.every true))
  | some "*" => pure (name, some (.every false))
  | some text => do pure (name, (← placeAt name text).map .at)

/-- The name of a part of a parameter in complaints. -/
def shownPart (name : String) : Subscript → String
  | .absent => if isName name then name else "$" ++ name
  | .every isApart => name ++ (if isApart then "[@]" else "[*]")
  | .place text _ => name ++ "[" ++ text ++ "]"

/-- So many of some texts from a place on; the length has been written so. -/
def sliced {α : Type} (all : List α) (offset : Int) (length : Option (Int × String)) :
    Action (List α) := do
  let start := if offset < 0 then offset + all.length else offset
  if start < 0 || (all.length : Int) < start then pure []
  else
    match length with
    | none => pure (all.drop start.toNat)
    | some (n, text) =>
      if n < 0 then fail (text ++ ": substring expression < 0")
      pure ((all.drop start.toNat).take n.toNat)

/-- The elements of a list from a place on. -/
def slicedElements (e : Elements) (offset : Int) (length : Option (Int × String)) :
    Action (List String) := do
  match e with
  | .keyed _ => sliced e.values (if 0 < offset then offset - 1 else offset) length
  | .numbered items =>
    let start := if offset < 0 then offset + e.next else offset
    if start < 0 || (e.next : Int) < start then pure []
    else
      let behind := items.filter fun i => start ≤ i.1
      sliced (behind.map (·.2)) 0 length

/-- A value in the form that a letter asks for. -/
def transformed (k : Charset) (letter : Char) (text : String) : String :=
  let all : Glob := { parts := [] }
  match letter with
  | 'Q' | 'K' | 'k' => Quoting.always text
  | 'E' => Unescaped.quoted k text.toList
  | 'U' => recase k .upper true all text
  | 'u' => recase k .upper false all text
  | 'L' => recase k .lower true all text
  | _ => text

/-- The command that would make a variable, as it is written in a word. -/
def assignmentText (name : String) (v : Variable) (part : Part) : Option String :=
  let letters := propertyLetters v
  let start := if letters.isEmpty then "" else "declare -" ++ letters ++ " "
  match v.elements, part with
  | some e, .every _ => some (declaration name { v with elements := some e })
  | _, _ =>
    match v.text? with
    | some t => some (start ++ name ++ "=" ++ Quoting.always t)
    | none => if letters.isEmpty then none else some (start ++ name)

def pairTexts (e : Elements) : List String :=
  e.all.flatMap fun (p, v) => [p.text, v]

/-- Whether a part of a word is quoted and stands for texts each by itself. -/
def isQuotedList : WordPart → Bool
  | .parameter "@" e true => match e with
    | .length => false
    | _ => true
  | .element _ (.every true) _ e true => match e with
    | .length => false
    | _ => true
  | .names _ true true => true
  | _ => false

namespace Runner

/-- What a parameter stands for in the form that a letter asks for. -/
def transform (name : String) (part : Part) (v : Seen) (letter : Char) : Action Seen := do
  let s ← get
  let held := s.binding? name
  let isList := match part with
    | .every _ => true
    | _ => false
  let name := s.target name
  match letter, held.bind (·.elements), isList with
  | 'A', _, _ =>
    if name = "@" || name = "*" then
      pure (.one ("set -- " ++ join " " (s.arguments.map Quoting.always)))
    else
      pure ((((held.bind (assignmentText name · part)).map Seen.one)).getD .missing)
  | 'a', _, true =>
    pure (v.map fun _ => (held.map propertyLetters).getD "")
  | 'a', _, false =>
    pure (match (held.map propertyLetters).getD "" with
      | "" => .missing
      | letters => .one letters)
  | 'K', some e, true =>
    pure (.one (join " " (e.all.map fun (p, v) => p.text ++ " " ++ Quoting.inDouble v) ++
      (match e with
        | .keyed _ => " "
        | .numbered _ => "")))
  | 'k', some e, true => pure (.many (pairTexts e) true)
  | _, _, _ => pure (v.map (transformed s.charset letter))

/-- The part of a parameter that stands between two places. -/
def slice (r : Runner) (name : String) (part : Part) (v : Seen) (offset : Word)
    (length : Option Word) : Action Seen := do
  let offset ← numberOf "" (← r.text {} offset)
  let length : Option (Int × String) ← match length with
    | none => pure none
    | some w => do
      let text ← r.text {} w
      pure (some (← numberOf "" text, text))
  let s ← get
  match v, part with
  | .many _ isApart, .every _ =>
    match (s.binding? name).bind (·.elements) with
    | some e => do pure (.many (← slicedElements e offset length) isApart)
    | none => do pure (.many (← sliced v.texts offset length) isApart)
  | .many ts isApart, _ => do pure (.many (← sliced (s.name :: ts) offset length) isApart)
  | v, _ =>
    match slice? s.charset (v.text s) offset (length.map (·.1)) with
    | some t => pure (.one t)
    | none => fail (((length.map (·.2)).getD "") ++ ": substring expression < 0")

/-- Gives a parameter a value, since it has none. -/
def assignMissing (name shown : String) (part : Part) (text : String) : Action Unit := do
  if !isName name then fail ("$" ++ name ++ ": cannot assign in this way")
  let s ← get
  if (s.binding? name).any (·.constant) then fail (s.constantText name)
  match part with
  | .whole => modify fun s => s.store name none text
  | .at p => modify fun s => s.store name (some p) text
  | .every _ => fail (shown ++ ": bad array subscript")

def expandSeen (r : Runner) (p : Purpose) (quoted : Bool) (name shown : String) (part : Part)
    (e : Expansion) : Action (List Piece) := do
  let s ← get
  let v := seen s name part
  let k := s.charset
  let result (v : Seen) : Action (List Piece) := do pure (v.pieces (← get) p quoted)
  let instead (w : Word) : Action (List Piece) :=
    let tildes : Tildes := if p.tildes = .all then .all else .first
    r.parts { p with tildes, isValue := p.isValue || !quoted } true w
  /- A value that has to be there if that is asked for. -/
  let needed (next : Action (List Piece)) : Action (List Piece) := do
    if v = .missing && (← get).has "nounset" then failUnset shown
    next
  match e with
  | .value => needed (result v)
  | .length => needed do
    let length := match v with
      | .many ts _ => ts.length
      | v => (Characters.of k (v.text s)).chars.size
    result (.one (toString length))
  | .default strict w => if v.isMissing strict then instead w else result v
  | .alternative strict w => if v.isMissing strict then result (.one "") else instead w
  | .assign strict w =>
    if v.isMissing strict then
      let text ← r.text { tildes := .first } w
      assignMissing name shown part text
      let s ← get
      result (seen s name part)
    else result v
  | .required strict w =>
    if v.isMissing strict then
      let text ← r.text { tildes := .first } w
      let text := if !w.isEmpty then text
        else if strict then "parameter null or not set" else "parameter not set"
      endWith (shown ++ ": " ++ text) (← get).expansionStatus
    else result v
  | .dropFront longest w => needed do
    let g ← r.pattern w
    result (v.map (g.dropFront k longest))
  | .dropBack longest w => needed do
    let g ← r.pattern w
    result (v.map (g.dropBack k longest))
  | .slice offset length => needed do
    result (← r.slice name part v offset length)
  | .replace which w by_ => needed do
    let g ← r.pattern w
    let gs := (← r.parts { tildes := .first } true by_).flatMap Piece.glyphs
    let usesMatch := (← get).hasFeature "patsub_replacement"
    let f := replacing k usesMatch gs
    result (v.map (replaced k which g f))
  | .recase how every w => needed do
    let g ← r.pattern w
    result (v.map (Extended.recase k how every g))
  | .transform letter =>
    if letter = 'A' || letter = 'a' then result (← transform name part v letter)
    else needed do result (← transform name part v letter)
  | .places =>
    let places := ((s.binding? name).map fun v => v.all.map (·.1.text)).getD []
    let isApart := match part with
      | .every isApart => isApart
      | _ => false
    result (.many places isApart)
  | .unknown written => fail (written ++ ": bad substitution")

/-- Expands a parameter of which a part may be meant, or the one that it names. -/
def expandElement (r : Runner) (p : Purpose) (quoted : Bool) (name : String)
    (subscript : Subscript) (isIndirect : Bool) (e : Expansion) : Action (List Piece) := do
  let shown := shownPart name subscript
  match subscript with
  | .place "" _ =>
    fail ("$\x7b" ++ (if isIndirect then "!" else "") ++ name ++ "[]\x7d: bad substitution")
  | _ => pure ()
  match ← r.part? name subscript with
  | none => pure (if quoted then [] else [.value ""])
  | some part =>
    if !isIndirect then r.expandSeen p quoted name shown part e
    else
      let s ← get
      let reference := match OrderedMap.get? name s.bindings with
        | some v => if v.isReference && part = .whole then v.value else none
        | none => none
      match reference, e with
      | some t, .value => pure ((Seen.one t).pieces s p quoted)
      | _, _ =>
        match seen s name part with
        | .missing => fail (name ++ ": invalid indirect expansion")
        | v =>
          let text := v.text s
          let (name, part) ← referred text
          match part with
          | some part => r.expandSeen p quoted name text part e
          | none => pure (if quoted then [] else [.value ""])

def fields (r : Runner) (w : Word) : Action (List Glyphs) := do
  let p : Purpose := { splits := true, tildes := .first }
  let ps : List Piece ← match w.assignment? with
    | some (name, value) => do
      let inside ← r.parts { p with tildes := .all } true value
      pure (.fixed (Glyphs.ofText false (name ++ "=")) :: inside)
    | none => r.parts p true w
  /- Between quotes there is no field for a list without elements. -/
  let isEmptyList := match w with
    | [.text "" true, part] => isQuotedList part && ps = [Piece.mark]
    | _ => false
  let s ← get
  pure (if isEmptyList then [] else Fields.ofPieces s.separators ps)

def textsOf (gs : Glyphs) : Action (List String) := do
  let s ← get
  let rules := PathRules.of s
  if s.has "noglob" || !rules.mayMatch gs then pure [gs.text]
  else
    let seen ← look
    let ignored := (splitAt ':' ((s.value? "GLOBIGNORE").getD "").toList).filter (!·.isEmpty)
    let globs := ignored.map fun g => globOf s false (g.map (⟨·, false⟩))
    let isMeant (path : String) : Bool := !(globs.any fun g => g.isMatch s.charset path)
    match (rules.pathsOf seen.files seen.directory gs).filter isMeant with
    | [] =>
      if s.hasFeature "failglob" then fail ("no match: " ++ gs.text)
      else pure (if s.hasFeature "nullglob" then [] else [gs.text])
    | paths => pure paths

/-- Goes through a list, and yields all that comes out of it. -/
def collect {α β : Type} (f : α → Action (List β)) : List α → Action (List β)
  | [] => pure []
  | a :: rest => do
    let here ← f a
    pure (here ++ (← collect f rest))

/-- Expands a word to the texts that it yields. -/
def word (r : Runner) (w : Word) : Action (List String) := do
  let ws := if (← get).has "braceexpand" then Braces.words w else [w]
  collect (fun w => do collect textsOf (← r.fields w)) ws

def words (r : Runner) (ws : List Word) : Action (List String) := collect r.word ws

end Runner
end PipelineRunner.Shell.Extended
