import PipelineRunner.Text.CharClass
import PipelineRunner.Text.Basic

/-!
Patterns of the shell: a star matches everything, a question mark one character, and brackets one
of some characters. Quoted characters match themselves only.
-/

namespace PipelineRunner.Shell

/-- A character of an expanded word, and whether it was quoted. -/
structure Glyph where
  char : Char
  quoted : Bool
  deriving DecidableEq, Repr

abbrev Glyphs := List Glyph

namespace Glyphs

def ofText (quoted : Bool) (s : String) : Glyphs := s.toList.map fun c => ⟨c, quoted⟩

def text (gs : Glyphs) : String := String.ofList (gs.map (·.char))

/-- The glyphs of a pattern, in which a backslash that has come in with a value quotes what follows
it. -/
def settled : Glyphs → Glyphs
  | [] => []
  | [g] => [g]
  | g :: h :: rest =>
    if g = ⟨'\\', false⟩ then ⟨h.char, true⟩ :: settled rest else g :: settled (h :: rest)

end Glyphs

/-- What stands between the brackets of a set. -/
inductive SetMember where
  | range (first last : Char)
  | ofClass (k : CharClass)
  deriving DecidableEq, Repr

namespace SetMember

/-- The place of a byte in the order of ranges: those that are not of ASCII come first. -/
def rank (c : Char) : Int := if c.toNat < 128 then c.toNat else (c.toNat : Int) - 256

def contains (m : SetMember) (c : Char) : Bool :=
  match m with
  | range first last => rank first ≤ rank c && rank c ≤ rank last
  | ofClass k => k.contains c

end SetMember

/-- A part of a pattern. -/
inductive PatternItem where
  | star
  | anyChar
  | char (c : Char)
  /-- One of some characters, or one that is none of them. -/
  | oneOf (negated : Bool) (members : List SetMember)
  deriving DecidableEq, Repr

abbrev Pattern := List PatternItem

namespace Pattern

/-- A class between a bracket with a colon and one behind a colon, and what stands behind it. -/
def classAt? (gs : Glyphs) : Option (CharClass × Glyphs) :=
  CharClass.names.findSome? fun (name, k) =>
    let sign := Glyphs.ofText false (":" ++ name ++ ":]")
    if sign.isPrefixOf gs then some (k, gs.drop sign.length) else none

/-- The members of a set up to its end, and what stands behind that; those so far stand backwards.
A bracket ends the set unless it is the first. -/
def members : Nat → List SetMember → Glyphs → Option (List SetMember × Glyphs)
  | 0, _, _ => none
  | _, _, [] => none
  | fuel + 1, found, g :: rest =>
    let goOn (m : SetMember) (rest : Glyphs) : Option (List SetMember × Glyphs) :=
      match rest with
      | ⟨']', false⟩ :: rest => some ((m :: found).reverse, rest)
      | rest => members fuel (m :: found) rest
    match if g = ⟨'[', false⟩ then classAt? rest else none with
    | some (k, rest) => goOn (.ofClass k) rest
    | none =>
      match rest with
      | ⟨'-', false⟩ :: h :: more =>
        if h = ⟨']', false⟩ then goOn (.range g.char g.char) rest
        else goOn (.range g.char h.char) more
      | rest => goOn (.range g.char g.char) rest

def ofGlyphs : Nat → Glyphs → Pattern
  | 0, _ => []
  | _, [] => []
  | fuel + 1, g :: rest =>
    if g.quoted then .char g.char :: ofGlyphs fuel rest
    else if g.char = '*' then .star :: ofGlyphs fuel rest
    else if g.char = '?' then .anyChar :: ofGlyphs fuel rest
    else if g.char = '[' then
      let (negated, body) : Bool × Glyphs := match rest with
        | ⟨'!', false⟩ :: more => (true, more)
        | more => (false, more)
      match members body.length [] body with
      | some (ms, rest) => .oneOf negated ms :: ofGlyphs fuel rest
      | none => .char '[' :: ofGlyphs fuel rest
    else .char g.char :: ofGlyphs fuel rest

def of (gs : Glyphs) : Pattern := ofGlyphs gs.length gs.settled

/-- Whether the pattern matches other texts than itself. -/
def isGeneral (p : Pattern) : Bool :=
  p.any fun
    | .char _ => false
    | _ => true

/-- The ends of a list, the whole of it first. -/
def ends : List Char → List (List Char)
  | [] => [[]]
  | c :: cs => (c :: cs) :: ends cs

def isMatch : Pattern → List Char → Bool
  | [], cs => cs.isEmpty
  | [.star], _ => true
  | .star :: ps, cs => (ends cs).any (isMatch ps)
  | .anyChar :: ps, _ :: cs => isMatch ps cs
  | .char c :: ps, d :: cs => c == d && isMatch ps cs
  | .oneOf negated ms :: ps, d :: cs =>
    (ms.any (·.contains d) != negated) && isMatch ps cs
  | _ :: _, [] => false

/-- The text without the shortest or longest match at its front. -/
def dropFront (longest : Bool) (p : Pattern) (s : String) : String :=
  let cs := s.toList
  let counts := List.range (cs.length + 1)
  let counts := if longest then counts.reverse else counts
  match counts.find? fun n => p.isMatch (cs.take n) with
  | some n => String.ofList (cs.drop n)
  | none => s

/-- The text without the shortest or longest match at its end. -/
def dropBack (longest : Bool) (p : Pattern) (s : String) : String :=
  let cs := s.toList
  let counts := List.range (cs.length + 1)
  let counts := if longest then counts else counts.reverse
  match counts.find? fun n => p.isMatch (cs.drop n) with
  | some n => String.ofList (cs.take n)
  | none => s

end Pattern
end PipelineRunner.Shell
