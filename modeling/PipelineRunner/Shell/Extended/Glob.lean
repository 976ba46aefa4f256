import PipelineRunner.Shell.Pattern
import PipelineRunner.Text.Bytes
import PipelineRunner.Text.CharClass

/-!
Patterns of the extended language. They take characters and not bytes, and alternatives can be
combined: one of them, any number of them, or what is none of them.
-/

namespace PipelineRunner.Shell.Extended

open Text

/-- How often one of some alternatives is taken. -/
inductive Combination where
  | once
  | atMostOnce
  | anyTimes
  | atLeastOnce
  /-- What is taken is none of them. -/
  | other
  deriving DecidableEq, Repr

/-- The combination that a letter in front of a parenthesis stands for. -/
def Combination.of? (c : Char) : Option Combination :=
  match c with
  | '@' => some once
  | '?' => some atMostOnce
  | '*' => some anyTimes
  | '+' => some atLeastOnce
  | '!' => some other
  | _ => none

/-- What stands between the brackets of a set. -/
inductive GlobMember where
  | range (first last : Char)
  | ofClass (k : CharClass)
  deriving DecidableEq, Repr

/-- A part of a pattern. -/
inductive GlobPart where
  | star
  | anyChar
  | char (c : Char)
  | oneOf (negated : Bool) (members : List GlobMember)
  | combined (how : Combination) (alternatives : List (List GlobPart))

/-- A pattern, and whether small and capital letters are the same for it. -/
structure Glob where
  parts : List GlobPart
  isFolded : Bool := false

namespace Glob

/-- The characters that quoted and other bytes make up, and the number of bytes of each. -/
def decoded (k : Charset) : Nat → Glyphs → Glyphs
  | 0, _ => []
  | _, [] => []
  | fuel + 1, g :: rest =>
    let n := g.char.toNat
    let size := if k = .bytes || n < 0xc0 then 1 else if n < 0xe0 then 2 else if n < 0xf0 then 3
      else 4
    let here := Characters.of k (String.ofList ((g :: rest).take size |>.map (·.char)))
    match here.chars.toList with
    | [c] => ⟨c, g.quoted⟩ :: decoded k fuel (rest.drop (size - 1))
    | _ => ⟨Charset.loose g.char, g.quoted⟩ :: decoded k fuel rest

/-- The members of a set up to its end, and what stands behind that; those so far stand backwards.
A bracket ends the set unless it is the first. -/
def members : Nat → List GlobMember → Glyphs → Option (List GlobMember × Glyphs)
  | 0, _, _ => none
  | _, _, [] => none
  | fuel + 1, found, g :: rest =>
    if g = ⟨']', false⟩ && !found.isEmpty then some (found.reverse, rest)
    else
      match if g = ⟨'[', false⟩ then Pattern.classAt? rest else none with
      | some (k, rest) => members fuel (.ofClass k :: found) rest
      | none =>
        match rest with
        | ⟨'-', false⟩ :: h :: more =>
          if h = ⟨']', false⟩ then members fuel (.range g.char g.char :: found) rest
          else members fuel (.range g.char h.char :: found) more
        | rest => members fuel (.range g.char g.char :: found) rest

/-- The alternatives up to the closing parenthesis, and what stands behind it; the parentheses that
are open have been counted. The glyphs of the last one and the others stand backwards. -/
def alternatives : Nat → List Glyphs → Glyphs → Glyphs → Option (List Glyphs × Glyphs)
  | _, _, _, [] => none
  | depth, done, current, g :: rest =>
    if g.quoted then alternatives depth done (g :: current) rest
    else if g.char = '(' then alternatives (depth + 1) done (g :: current) rest
    else if g.char = ')' then
      match depth with
      | 0 => some ((current.reverse :: done).reverse, rest)
      | depth + 1 => alternatives depth done (g :: current) rest
    else if g.char = '|' && depth = 0 then alternatives depth (current.reverse :: done) [] rest
    else alternatives depth done (g :: current) rest

/-- The parts of a pattern; alternatives only count if they may be combined. -/
def partsOf (combines : Bool) : Nat → Glyphs → List GlobPart
  | 0, _ => []
  | _, [] => []
  | fuel + 1, g :: rest =>
    let combined : Option (Combination × List Glyphs × Glyphs) := match rest with
      | ⟨'(', false⟩ :: inside =>
        if !combines || g.quoted then none
        else do
          let how ← Combination.of? g.char
          let (all, rest) ← alternatives 0 [] [] inside
          pure (how, all, rest)
      | _ => none
    match combined with
    | some (how, all, rest) =>
      .combined how (all.map (partsOf combines fuel)) :: partsOf combines fuel rest
    | none =>
      if g.quoted then .char g.char :: partsOf combines fuel rest
      else if g.char = '*' then .star :: partsOf combines fuel rest
      else if g.char = '?' then .anyChar :: partsOf combines fuel rest
      else if g.char = '[' then
        let (negated, body) : Bool × Glyphs := match rest with
          | ⟨'!', false⟩ :: more | ⟨'^', false⟩ :: more => (true, more)
          | more => (false, more)
        match members body.length [] body with
        | some (ms, rest) => .oneOf negated ms :: partsOf combines fuel rest
        | none => .char '[' :: partsOf combines fuel rest
      else .char g.char :: partsOf combines fuel rest

/-- The pattern that an expanded word is. -/
def of (k : Charset) (combines isFolded : Bool) (gs : Glyphs) : Glob :=
  let gs := decoded k (gs.length + 1) gs.settled
  ⟨partsOf combines (gs.length + 1) gs, isFolded⟩

/-- Whether the pattern takes other texts than itself. -/
def isGeneral (g : Glob) : Bool :=
  g.parts.any fun
    | .char _ => false
    | _ => true

def hasMember (isFolded : Bool) (c : Char) : GlobMember → Bool
  | .range first last =>
    (first ≤ c && c ≤ last) || (isFolded &&
      ((first ≤ Letters.lower c && Letters.lower c ≤ last) ||
        (first ≤ Letters.upper c && Letters.upper c ≤ last)))
  | .ofClass k => k.includes c

/-- The ends of a list, the whole of it first. -/
def ends : List Char → List (List Char)
  | [] => [[]]
  | c :: cs => (c :: cs) :: ends cs

/-- The different ones of some ends of one text. -/
def distinct (l : List (List Char)) : List (List Char) :=
  l.foldl (fun found cs => if found.any fun d => d.length == cs.length then found
    else found ++ [cs]) []

/-- Ends that can be reached by taking something again and again. -/
def closure (step : List Char → List (List Char)) : Nat → List (List Char) → List (List Char)
  | 0, found => found
  | n + 1, found =>
    let next := distinct (found ++ found.flatMap step)
    if next.length = found.length then found else closure step n next

def longest? : List (List Char) → Option (List Char)
  | [] => none
  | cs :: rest => some (rest.foldl (fun a b => if a.length < b.length then b else a) cs)

/-- What may be left behind the parts of a pattern, where one of some ends of a text stands. -/
def rests (isFolded : Bool) : Nat → List GlobPart → List (List Char) → List (List Char)
  | 0, _, _ => []
  | _, [], found => found
  | fuel + 1, p :: ps, found =>
    let one (takes : Char → Bool) : List (List Char) := found.filterMap fun
      | d :: rest => if takes d then some rest else none
      | [] => none
    rests isFolded fuel ps (match p with
      | .star => ((longest? found).map ends).getD []
      | .anyChar => one fun _ => true
      | .char c => one fun d => c = d || (isFolded && Letters.lower c = Letters.lower d)
      | .oneOf negated ms => one fun d => ms.any (hasMember isFolded d) != negated
      | .combined how all =>
        let once (cs : List Char) : List (List Char) :=
          distinct (all.flatMap fun a => rests isFolded fuel a [cs])
        distinct (found.flatMap fun cs =>
          match how with
          | .once => once cs
          | .atMostOnce => cs :: once cs
          | .anyTimes => closure once cs.length [cs]
          | .atLeastOnce => closure once cs.length (once cs)
          | .other =>
            let taken := once cs
            (ends cs).filter fun t => !taken.any fun d => d.length == t.length))

/-- More parts one below the other than any pattern has. -/
def depth : Nat := 1000000

/-- What may be left of a text behind the pattern. -/
def restsOf (g : Glob) (cs : List Char) : List (List Char) := rests g.isFolded depth g.parts [cs]

def takes (g : Glob) (cs : List Char) : Bool :=
  match g.parts with
  | [.star] => true
  | _ => (g.restsOf cs).any List.isEmpty

/-- Whether the pattern takes a byte text. -/
def isMatch (k : Charset) (g : Glob) (s : String) : Bool :=
  g.takes (Characters.of k s).chars.toList

/-- The text without the shortest or longest match at its front. -/
def dropFront (k : Charset) (longest : Bool) (g : Glob) (s : String) : String :=
  let c := Characters.of k s
  let left := (g.restsOf c.chars.toList).map List.length
  match left with
  | [] => s
  | n :: more =>
    let kept := more.foldl (if longest then Nat.min else Nat.max) n
    c.from_ (c.chars.size - kept)

/-- The text without the shortest or longest match at its end. -/
def dropBack (k : Charset) (longest : Bool) (g : Glob) (s : String) : String :=
  let c := Characters.of k s
  let cs := c.chars.toList
  let counts := List.range (cs.length + 1)
  let counts := if longest then counts else counts.reverse
  match counts.find? fun n => g.takes (cs.drop n) with
  | some n => c.slice 0 n
  | none => s

end Glob
end PipelineRunner.Shell.Extended
