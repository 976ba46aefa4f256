import PipelineRunner.Text.CharClass

/-!
Regular expressions. An expression is made of leaves that take one character, leaves that only tell
what surrounds a place in the text, and combinations of them. Where an expression can end is worked
out for all places at once: sets of places are numbers, of which the bits stand for the places.
-/

namespace PipelineRunner

/-- An expression over leaves that take a character and leaves that take none. -/
inductive RegexOver (α β : Type) where
  /-- Takes nothing. -/
  | empty
  | one (leaf : α)
  | here (leaf : β)
  | both (first second : RegexOver α β)
  | either (a b : RegexOver α β)
  /-- So many times at least, and at most if there is a bound. -/
  | repeated (r : RegexOver α β) (least : Nat) (most : Option Nat)
  /-- Remembers what the expression has taken. -/
  | group (number : Nat) (r : RegexOver α β)
  /-- Takes once more what a group has taken, perhaps with small and capital letters the same. -/
  | again (number : Nat) (folded : Bool)
  deriving Repr, Inhabited

/-- What stands between the brackets of a set. -/
inductive SetPart where
  | range (first last : Char)
  | ofClass (k : CharClass)
  /-- The characters that belong neither to the class nor to the list. -/
  | outside (k : CharClass) (others : List Char)
  deriving DecidableEq, Repr

/-- Characters that a leaf may take. -/
structure CharSet where
  negated : Bool
  parts : List SetPart
  /-- Whether small and capital letters are the same. -/
  folded : Bool := false
  deriving DecidableEq, Repr

namespace CharSet

def hasPart (c : Char) : SetPart → Bool
  | .range first last => first ≤ c && c ≤ last
  | .ofClass k => k.includes c
  | .outside k others => !(k.includes c || others.contains c)

def contains (s : CharSet) (c : Char) : Bool :=
  let found (c : Char) : Bool := s.parts.any (hasPart c)
  s.negated != (found c ||
    (s.folded && (found (Text.Letters.lower c) || found (Text.Letters.upper c))))

def single (c : Char) : CharSet := ⟨false, [.range c c], false⟩

def everything : CharSet := ⟨true, [], false⟩

/-- The characters that words are made of, or the other ones. -/
def wordChars (negated : Bool) : CharSet := ⟨negated, [.ofClass .alnum, .range '_' '_'], false⟩

end CharSet

/-- What may be asked of a place in a text. -/
inductive Anchor where
  | start
  | finish
  | lineStart
  | lineEnd
  | wordStart
  | wordEnd
  /-- An edge of a word, or a place that is none. -/
  | wordEdge (negated : Bool)
  /-- No word goes on in front of the place. -/
  | notBehindWord
  /-- No word goes on behind the place. -/
  | notInFrontOfWord
  deriving DecidableEq, Repr

/-- A regular expression. -/
abbrev Regex := RegexOver CharSet Anchor

/-- A text in which something is looked for. -/
abbrev Subject := Array Char

namespace Subject

/-- Whether a character of a word stands behind a place. -/
def isWordAt (s : Subject) (i : Nat) : Bool := s[i]?.any (CharSet.wordChars false).contains

/-- Whether a character of a word stands in front of a place. -/
def isWordBefore (s : Subject) (i : Nat) : Bool := 0 < i && isWordAt s (i - 1)

def holds (s : Subject) (i : Nat) : Anchor → Bool
  | .start => i == 0
  | .finish => i == s.size
  | .lineStart => i == 0 || s[i - 1]? == some '\n'
  | .lineEnd => i == s.size || s[i]? == some '\n'
  | .wordStart => isWordAt s i && !isWordBefore s i
  | .wordEnd => isWordBefore s i && !isWordAt s i
  | .wordEdge negated => negated != (isWordAt s i != isWordBefore s i)
  | .notBehindWord => !isWordBefore s i
  | .notInFrontOfWord => !isWordAt s i

/-- The set of the first places of a text that a test holds of. -/
def places (test : Nat → Bool) : Nat → Nat
  | 0 => 0
  | n + 1 => places test n ||| if test n then 1 <<< n else 0

end Subject

namespace RegexOver

variable {α β : Type}

def map {γ δ : Type} (f : α → γ) (g : β → δ) : RegexOver α β → RegexOver γ δ
  | empty => empty
  | one a => one (f a)
  | here b => here (g b)
  | both a b => both (a.map f g) (b.map f g)
  | either a b => either (a.map f g) (b.map f g)
  | repeated r least most => repeated (r.map f g) least most
  | group n r => group n (r.map f g)
  | again n folded => again n folded

/-- Whether it takes again what a group has taken. -/
def looksBack : RegexOver α β → Bool
  | both a b | either a b => a.looksBack || b.looksBack
  | repeated r _ _ | group _ r => r.looksBack
  | again .. => true
  | _ => false

def groupCount : RegexOver α β → Nat
  | both a b | either a b => a.groupCount + b.groupCount
  | repeated r _ _ => r.groupCount
  | group _ r => r.groupCount + 1
  | _ => 0

/-- A set that has been mapped so many times. -/
def power (f : Nat → Nat) : Nat → Nat → Nat
  | 0, s => s
  | n + 1, s => power f n (f s)

/-- All that comes of a set when it is mapped up to so many times; the `seen` places are known. -/
def closure (f : Nat → Nat) : Nat → Nat → Nat → Nat
  | 0, seen, _ => seen
  | n + 1, seen, latest =>
    let new := f latest
    let all := seen ||| new
    if all = seen then seen else closure f n all new

/-- Where the expression can end if it begins at one of some places. The leaves are the places that
they hold at; `size` is the length of the text. -/
def ends (size : Nat) : RegexOver Nat Nat → Nat → Nat
  | empty, s => s
  | one leaf, s => (s &&& leaf) <<< 1
  | here leaf, s => s &&& leaf
  | both a b, s => ends size b (ends size a s)
  | either a b, s => ends size a s ||| ends size b s
  | repeated r least most, s =>
    let s := power (ends size r) least s
    match most with
    | none => closure (ends size r) (size + 1) s s
    | some most => closure (ends size r) (Nat.min (most - least) (size + 1)) s s
  | group _ r, s => ends size r s
  | again .., _ => 0

end RegexOver

namespace Regex

/-- Small and capital letters become the same. -/
def folded : Regex → Regex
  | .one s => .one { s with folded := true }
  | .both a b => .both (folded a) (folded b)
  | .either a b => .either (folded a) (folded b)
  | .repeated r least most => .repeated (folded r) least most
  | .group n r => .group n (folded r)
  | .again n _ => .again n true
  | .empty => .empty
  | .here a => .here a

def ofChars (cs : List Char) : Regex := cs.foldr (fun c r => .both (.one (.single c)) r) .empty

def asWhole (r : Regex) : Regex := .both (.here .start) (.both r (.here .finish))

/-- The expression where it is no part of a longer word. -/
def asWord (r : Regex) : Regex := .both (.here .notBehindWord) (.both r (.here .notInFrontOfWord))

/-- The expression that takes what one of some others takes; none takes nothing at all. -/
def anyOf : List Regex → Regex
  | [] => .one ⟨false, [], false⟩
  | [r] => r
  | r :: rest => .either r (anyOf rest)

/-- The expression with the places of a text in which its leaves hold. -/
def inText (r : Regex) (s : Subject) : RegexOver Nat Nat :=
  r.map (fun set => Subject.places (fun i => s[i]?.any set.contains) s.size)
    fun a => Subject.places (fun i => Subject.holds s i a) (s.size + 1)

/-- The parts of a text that groups have taken. -/
abbrev Groups := List (Nat × Nat × Nat)

/-- Where the text goes on behind one more copy of what stands between two places. -/
def copyEnd? (s : Subject) (folded : Bool) (a b i : Nat) : Option Nat :=
  let fold (c : Char) : Char := if folded then Text.Letters.lower c else c
  let j := i + (b - a)
  if j ≤ s.size && (s.extract a b).map fold == (s.extract i j).map fold then some j else none

/-- Takes an expression at a place and goes on with what follows, as far as the fuel goes. Longer
repetitions and earlier alternatives come first. -/
def walk (s : Subject) : Nat → Regex → Nat → Groups → (Nat → Groups → Option (Nat × Groups)) →
    Option (Nat × Groups)
  | 0, _, _, _, _ => none
  | fuel + 1, r, i, groups, next =>
    match r with
    | .empty => next i groups
    | .one set => if s[i]?.any set.contains then next (i + 1) groups else none
    | .here a => if Subject.holds s i a then next i groups else none
    | .both a b => walk s fuel a i groups fun i groups => walk s fuel b i groups next
    | .either a b => (walk s fuel a i groups next).orElse fun _ => walk s fuel b i groups next
    | .repeated r (least + 1) most =>
      walk s fuel r i groups fun j groups =>
        walk s fuel (.repeated r least (most.map (· - 1))) j groups next
    | .repeated _ 0 (some 0) => next i groups
    | .repeated r 0 most =>
      let more := walk s fuel r i groups fun j groups =>
        if j = i then none else walk s fuel (.repeated r 0 (most.map (· - 1))) j groups next
      more.orElse fun _ => next i groups
    | .group n r =>
      walk s fuel r i groups fun j groups => next j ((n, i, j) :: groups.filter (·.1 != n))
    | .again n folded =>
      match List.lookup n groups with
      | none => none
      | some (a, b) => (copyEnd? s folded a b i).bind fun j => next j groups

/-- More steps than are taken for one text. -/
def patience : Nat := 1000000000

/-- A place where an expression has been found. -/
structure Found where
  start : Nat
  finish : Nat
  groups : Groups
  deriving Repr

/-- The first of some places at which the expression can begin, with the last one at which it can
end then. -/
def firstSpan (size : Nat) (r : RegexOver Nat Nat) : Nat → Nat → Option (Nat × Nat)
  | 0, _ => none
  | count + 1, i =>
    let e := r.ends size (1 <<< i)
    if e != 0 then some (i, e.log2) else firstSpan size r count (i + 1)

/-- The longest text that the expression takes at a place and that ends behind another one, if there
is such a text; `found` is what has been found so far. -/
def longest (r : Regex) (s : Subject) (i : Nat) : Nat → Option (Nat × Groups) →
    Option (Nat × Groups)
  | 0, found => found
  | count + 1, found =>
    let isBetter (j : Nat) : Bool := found.all fun f => f.1 < j
    match walk s patience r i [] fun j groups => if isBetter j then some (j, groups) else none with
    | some better => longest r s i count (some better)
    | none => found

/-- Looks for an expression that takes again what a group has taken. -/
def findBack (r : Regex) (s : Subject) : Nat → Nat → Option Found
  | 0, _ => none
  | count + 1, i =>
    match longest r s i (s.size + 1) none with
    | some (j, groups) => some ⟨i, j, groups⟩
    | none => findBack r s count (i + 1)

/-- Looks for the expression from a place on: the first place at which it is found, and the longest
text there. -/
def find? (r : Regex) (s : Subject) (start : Nat) : Option Found :=
  if s.size < start then none
  else if r.looksBack then findBack r s (s.size + 1 - start) start
  else
    let masks := r.inText s
    let all := (1 <<< (s.size + 1)) - (1 <<< start)
    if masks.ends s.size all = 0 then none
    else
      (firstSpan s.size masks (s.size + 1 - start) start).map fun (i, j) =>
        if r.groupCount = 0 then ⟨i, j, []⟩
        else
          let taken := walk s patience r i [] fun e groups =>
            if e = j then some (e, groups) else none
          ⟨i, j, (taken.map (·.2)).getD []⟩

/-- Whether the expression is found anywhere in a text. -/
def isIn (r : Regex) (s : Subject) : Bool :=
  if r.looksBack then (r.find? s 0).isSome
  else (r.inText s).ends s.size ((1 <<< (s.size + 1)) - 1) != 0

/-- Whether the whole text can be taken. -/
def takesAll (r : Regex) (s : Subject) : Bool :=
  if r.looksBack then
    (walk s patience r 0 [] fun j groups => if j = s.size then some (j, groups) else none).isSome
  else ((r.inText s).ends s.size 1).testBit s.size

/-- All places where something is found, one behind the other, by what finds the first of them from
a place on. An empty text only counts if it does not touch the one in front of it. -/
def allFound (find? : Nat → Option Found) : Nat → Nat → Option Nat → List Found
  | 0, _, _ => []
  | fuel + 1, start, last =>
    match find? start with
    | none => []
    | some f =>
      if f.start = f.finish then
        let rest := allFound find? fuel (f.finish + 1) last
        if last = some f.start then rest else f :: rest
      else f :: allFound find? fuel f.finish (some f.finish)

def findAll (r : Regex) (s : Subject) : List Found :=
  allFound (r.find? s) (2 * s.size + 2) 0 none

end Regex
end PipelineRunner
