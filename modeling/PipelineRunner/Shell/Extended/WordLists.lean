import PipelineRunner.Shell.Command
import PipelineRunner.Shell.Extended.Glob
import PipelineRunner.Shell.Fields
import PipelineRunner.Shell.Numeral
import PipelineRunner.Shell.State
import PipelineRunner.Text.Bytes

/-!
Words in braces. Texts between braces with commas stand for several words, and so do two numbers or
letters with points between them. Nothing in quotes counts for this.
-/

namespace PipelineRunner.Shell.Extended

namespace Braces

open Text

/-- A part of a word, or a character of it that is not quoted. -/
inductive Item where
  | char (c : Char)
  | part (p : WordPart)

def Item.isChar (c : Char) : Item → Bool
  | char d => c == d
  | part _ => false

def itemsOf (w : Word) : List Item :=
  w.flatMap fun
    | .text s false => s.toList.map .char
    | p => [.part p]

def wordOf (items : List Item) : Word :=
  (items.foldl (fun parts i => match i with
    | .char c => Word.add parts (.text (String.singleton c) false)
    | .part p => Word.add parts p) []).reverse

/-- The texts between commas up to the closing brace, and what stands behind it; the braces that are
open have been counted. The items of the last text and the texts stand backwards. -/
def alternatives : Nat → List (List Item) → List Item → List Item →
    Option (List (List Item) × List Item)
  | _, _, _, [] => none
  | depth, done, current, i :: rest =>
    match i with
    | .char '\x7b' => alternatives (depth + 1) done (i :: current) rest
    | .char '\x7d' =>
      match depth with
      | 0 => some ((current.reverse :: done).reverse, rest)
      | depth + 1 => alternatives depth done (i :: current) rest
    | .char ',' =>
      if depth = 0 then alternatives depth (current.reverse :: done) [] rest
      else alternatives depth done (i :: current) rest
    | i => alternatives depth done (i :: current) rest

def text? (items : List Item) : Option String :=
  (items.mapM fun
    | Item.char c => some c
    | Item.part _ => none).map String.ofList

def splitAtPoints : List Char → List Char → List (List Char)
  | current, [] => [current.reverse]
  | current, '.' :: '.' :: rest => current.reverse :: splitAtPoints [] rest
  | current, c :: rest => splitAtPoints (c :: current) rest

/-- The numbers from the first to the last one, in steps. -/
def steps (first last : Int) (step : Nat) : List Int :=
  let step := Nat.max step 1
  let count := (first - last).natAbs / step + 1
  (List.range count).map fun i =>
    if first ≤ last then first + (i * step : Nat) else first - (i * step : Nat)

/-- Whether a number is written with zeros in front. -/
def hasZeros (s : String) : Bool :=
  match s.toList with
  | '0' :: _ :: _ | '-' :: '0' :: _ :: _ => true
  | _ => false

/-- The text of a number with zeros in front, up to a width. -/
def padded (width : Nat) (n : Int) : String :=
  let digits := toString n.natAbs
  if n < 0 then "-" ++ Bytes.fill '0' (width - 1 - digits.length) ++ digits
  else Bytes.fill '0' (width - digits.length) ++ digits

/-- The texts of a sequence between two numbers or letters. -/
def sequence? (s : String) : Option (List String) := do
  let parts := (splitAtPoints [] s.toList).map String.ofList
  let (a, b, step) ← match parts with
    | [a, b] => some (a, b, 1)
    | [a, b, step] => (Numeral.int? step).map fun n => (a, b, n.natAbs)
    | _ => none
  match Numeral.int? a, Numeral.int? b with
  | some m, some n =>
    let width := if hasZeros a || hasZeros b then Nat.max a.length b.length else 0
    pure ((steps m n step).map (padded width))
  | _, _ =>
    match a.toList, b.toList with
    | [c], [d] =>
      if c.isAlpha && d.isAlpha then
        pure ((steps c.toNat d.toNat step).map fun n => String.singleton (Char.ofNat n.toNat))
      else none
    | _, _ => none

def expand : Nat → List Item → List (List Item)
  | 0, items => [items]
  | fuel + 1, items =>
    let front := items.takeWhile fun i => !i.isChar '\x7b'
    match items.drop front.length with
    | [] => [items]
    | brace :: inside =>
      let found : Option (List (List Item) × List Item) :=
        match alternatives 0 [] [] inside with
        | some ([one], rest) =>
          ((text? one).bind sequence?).map fun texts =>
            (texts.map fun t => [.part (.text t (t.toList.any fun c => !c.isAlphanum))], rest)
        | some (all, rest) => some (all.flatMap (expand fuel), rest)
        | none => none
      match found with
      | some (all, rest) =>
        let behind := expand fuel rest
        all.flatMap fun a => behind.map fun b => front ++ a ++ b
      | none => (expand fuel inside).map fun b => front ++ brace :: b

def words (w : Word) : List Word :=
  let items := itemsOf w
  if items.any (Item.isChar '\x7b') then (expand (items.length + 1) items).map wordOf else [w]

end Braces

/-! ### Paths

The paths that a field of the extended language stands for, if it is a pattern. Two stars for a
name can stand for any number of directories. -/

open Host Text

/-- How paths are matched. -/
structure PathRules where
  charset : Charset
  /-- Whether alternatives can be combined. -/
  combines : Bool
  isFolded : Bool
  /-- Whether names with a point in front are meant as well. -/
  seesHidden : Bool
  /-- Whether two stars stand for any number of directories. -/
  descends : Bool

namespace PathRules

def of (s : State) : PathRules where
  charset := s.charset
  combines := s.hasFeature "extglob"
  isFolded := s.hasFeature "nocaseglob"
  seesHidden := s.hasFeature "dotglob" || ((s.value? "GLOBIGNORE").getD "") != ""
  descends := s.hasFeature "globstar"

def mayMatch (r : PathRules) (gs : Glyphs) : Bool :=
  gs.any (fun g => !g.quoted && ['*', '?', '['].contains g.char) ||
    (r.combines && (gs.zip (gs.drop 1)).any fun (g, h) =>
      !g.quoted && h = ⟨'(', false⟩ && (Combination.of? g.char).isSome)

def isDescent (r : PathRules) (segment : Glyphs) : Bool :=
  r.descends && segment = [⟨'*', false⟩, ⟨'*', false⟩]

/-- The directories below one, with the ends of their paths. -/
def below (t : FileTree) (seesHidden : Bool) : Nat → Nat → List (String × Nat)
  | 0, _ => []
  | fuel + 1, directory =>
    (t.list directory).flatMap fun n =>
      match t.entries directory |>.find? fun e => e.1 == n with
      | some (_, i) =>
        if t.isDirectory i && (seesHidden || !n.startsWith ".") then
          (n ++ "/", i) :: (below t seesHidden fuel i).map fun (path, j) => (n ++ "/" ++ path, j)
        else []
      | none => []

def namesTaken (r : PathRules) (t : FileTree) (directory : Nat) (g : Glob) : List String :=
  let startsHidden := match g.parts with
    | .char '.' :: _ => true
    | .combined .. :: _ => r.seesHidden
    | _ => false
  (t.list directory).filter fun n =>
    (r.seesHidden || startsHidden || !n.startsWith ".") && g.isMatch r.charset n

/-- The glyphs in front of the first segment that is a pattern, the segment, and what stands behind
the slash that ends it. -/
def generalSegment? (r : PathRules) : Nat → Glyphs → Glyphs →
    Option (Glyphs × Glyphs × Option Glyphs)
  | 0, _, _ => none
  | fuel + 1, before, gs =>
    let segment := gs.takeWhile fun g => g.char != '/'
    let rest := gs.drop segment.length
    if (Glob.of r.charset r.combines r.isFolded segment).isGeneral then
      some (before, segment, rest.tail?)
    else
      match rest with
      | [] => none
      | slash :: more => r.generalSegment? fuel (before ++ segment ++ [slash]) more

/-- The paths that settled glyphs match behind the text of a directory; without a pattern in front
of them, they have to have one themselves. -/
def matchingPaths (r : PathRules) (t : FileTree) (cwd : Nat) :
    Nat → Bool → String → Glyphs → List String
  | 0, _, _, _ => []
  | fuel + 1, isWhole, shown, gs =>
    match r.generalSegment? (gs.length + 1) [] gs with
    | none =>
      let path := shown ++ gs.text
      if isWhole || path.isEmpty || (t.find? cwd path false).isNone then [] else [path]
    | some (before, segment, rest) =>
      let shown := shown ++ before.text
      match t.findDirectory cwd (if shown.isEmpty then "." else shown) with
      | .error _ => []
      | .ok directory =>
        if r.isDescent segment then
          let places := ("", directory) :: below t r.seesHidden t.nodes.size directory
          match rest with
          | none =>
            let all : Glob := { parts := [.star] }
            (if shown.isEmpty then [] else [shown]) ++ places.flatMap fun (path, i) =>
              (r.namesTaken t i all).map fun n => shown ++ path ++ n
          | some rest => places.flatMap fun (path, _) =>
            r.matchingPaths t cwd fuel false (shown ++ path) rest
        else
          let g := Glob.of r.charset r.combines r.isFolded segment
          (r.namesTaken t directory g).flatMap fun n =>
            match rest with
            | none => [shown ++ n]
            | some rest => r.matchingPaths t cwd fuel false (shown ++ n ++ "/") rest

def pathsOf (r : PathRules) (t : FileTree) (cwd : Nat) (field : Glyphs) : List String :=
  (r.matchingPaths t cwd (field.length + 1) true "" field.settled).mergeSort fun a b => a ≤ b

end PathRules
end PipelineRunner.Shell.Extended
