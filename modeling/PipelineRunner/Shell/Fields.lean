import PipelineRunner.Host.FileTree
import PipelineRunner.Shell.Pattern

/-!
The fields that an expanded word yields. Values are split where separators stand: blanks among
them in runs, and each of the others, together with the blanks around it, by itself. A field that
is a pattern stands for the paths that it matches.
-/

namespace PipelineRunner.Shell

open Host

/-- A part of an expanded word. -/
inductive Piece where
  /-- Is not split. -/
  | fixed (gs : Glyphs)
  /-- A quotation mark: there is a field, even if nothing else stands there. -/
  | mark
  /-- Is split at separators. -/
  | value (text : String)
  /-- Texts that are fields of their own, but for the ends. -/
  | list (texts : List String)
  deriving DecidableEq, Repr

namespace Piece

/-- The glyphs of a part that is not split. -/
def glyphs : Piece → Glyphs
  | fixed gs => gs
  | mark => []
  | value text => Glyphs.ofText false text
  | list texts => Glyphs.ofText true (Text.join " " texts)

def text (ps : List Piece) : String := Glyphs.text (ps.flatMap glyphs)

end Piece

/-- Whether a separator is a blank, as is the one between arguments. -/
def isBlankSeparator (c : Char) : Bool :=
  c == ' ' || c == '\t' || c == '\n' || c == Char.ofNat 0

/-- Fields as they are put together. -/
structure Fields where
  /-- Those that are complete, the last first. -/
  complete : List Glyphs := []
  /-- The last one, backwards. -/
  current : Glyphs := []
  /-- Whether there is a last one. -/
  isBegun : Bool := false
  /-- Whether the last part that may be split was a list. -/
  isList : Bool := false
  /-- How many more fields there may be; the last one takes the separators too. -/
  left : Option Nat := none
  /-- How much of the last field stays if nothing but separators follows. -/
  kept : Option Nat := none
  /-- Whether a blank has come before, behind which one more separator belongs to it. -/
  isAfterBlank : Bool := false

namespace Fields

def add (f : Fields) (gs : Glyphs) : Fields :=
  if gs.isEmpty then f else { f with current := gs.reverse ++ f.current, isBegun := true }

/-- Ends the last field, whatever is in it. -/
def close (f : Fields) : Fields :=
  { f with complete := f.current.reverse :: f.complete, current := [], isBegun := false }

/-- Takes a character into the field that is the last in any case. -/
def takeLast (f : Fields) (isSeparator : Bool) (c : Char) : Fields :=
  let size := f.current.length
  let f := { f with current := ⟨c, false⟩ :: f.current, isBegun := true }
  if isSeparator && isBlankSeparator c then { f with kept := some (f.kept.getD size) }
  else
    { f with
      kept := if isSeparator && f.isAfterBlank then f.kept else none
      isAfterBlank := false }

/-- Adds a text that is split at separators. Behind one that has ended a field, `skipping` says
whether it was a blank, so that one more may follow. -/
def addSplit (isSeparator : Char → Bool) (isAfterList : Bool) (skipping : Option Bool)
    (f : Fields) : List Char → Fields
  | [] => f
  | c :: cs =>
    let goOn (skipping : Option Bool) (f : Fields) : Fields :=
      f.addSplit isSeparator isAfterList skipping cs
    let isBlank := isBlankSeparator c
    if f.left = some 0 then goOn none (f.takeLast (isSeparator c) c)
    else if !isSeparator c then goOn none (f.add [⟨c, false⟩])
    else if skipping.isSome && isBlank then goOn skipping f
    else if skipping = some true then goOn (some false) f
    else
      let endsRun := isBlank && !isAfterList
      if endsRun && !f.isBegun then goOn none f
      else if f.left = some 1 then
        let kept := some f.current.length
        goOn none
          { f with
            left := some 0, kept, isAfterBlank := endsRun, isBegun := true
            current := ⟨c, false⟩ :: f.current }
      else goOn (some endsRun) { f.close with left := f.left.map (· - 1) }

def addPiece (separators : List Char) (f : Fields) : Piece → Fields
  | .fixed gs => f.add gs
  | .mark => { f with isBegun := true }
  | .value text =>
    let isSeparator (c : Char) : Bool := c == Char.ofNat 0 || separators.contains c
    let f' := { f with isList := false, isAfterBlank := false }
    f'.addSplit isSeparator f.isList none text.toList
  | .list texts =>
    let rec go (f : Fields) : List String → Fields
      | [] => f
      | [a] => f.add (Glyphs.ofText true a)
      | a :: rest => go (f.add (Glyphs.ofText true a)).close rest
    go { f with isList := true } texts

def all (f : Fields) : List Glyphs :=
  let current := match f.kept with
    | some n => f.current.drop (f.current.length - n)
    | none => f.current
  let isField := f.isList || (f.isBegun && (f.kept.isNone || !current.isEmpty))
  (if isField then current.reverse :: f.complete else f.complete).reverse

/-- The fields of the parts of a word. -/
def ofPieces (separators : List Char) (ps : List Piece) : List Glyphs :=
  (ps.foldl (addPiece separators) {}).all

end Fields

/-- The glyphs in front of the first segment that is a pattern, the segment, and what stands behind
the slash that ends it. -/
def generalSegment? : Nat → Glyphs → Glyphs → Option (Glyphs × Pattern × Option Glyphs)
  | 0, _, _ => none
  | fuel + 1, before, gs =>
    let segment := gs.takeWhile fun g => g.char != '/'
    let rest := gs.drop segment.length
    let p := Pattern.of segment
    if p.isGeneral then some (before, p, rest.tail?)
    else
      match rest with
      | [] => none
      | slash :: more => generalSegment? fuel (before ++ segment ++ [slash]) more

/-- The names in a directory that a pattern matches; names with a point in front are not meant
unless the pattern has it too. -/
def matchingNames (t : FileTree) (directory : Nat) (p : Pattern) : List String :=
  let names := t.list directory
  let names := if p.head? = some (.char '.') then "." :: ".." :: names
    else names.filter fun n => !n.startsWith "."
  names.filter fun n => p.isMatch n.toList

/-- The paths that settled glyphs match behind the text of a directory. -/
def matchingPaths (t : FileTree) (cwd : Nat) : Nat → String → Glyphs → List String
  | 0, _, _ => []
  | fuel + 1, shown, gs =>
    match generalSegment? (gs.length + 1) [] gs with
    | none =>
      let path := shown ++ gs.text
      if shown.isEmpty || (t.find? cwd path false).isNone then [] else [path]
    | some (before, p, rest) =>
      let shown := shown ++ before.text
      match t.findDirectory cwd (if shown.isEmpty then "." else shown) with
      | .error _ => []
      | .ok directory =>
        (matchingNames t directory p).flatMap fun n =>
          match rest with
          | none => [shown ++ n]
          | some rest => matchingPaths t cwd fuel (shown ++ n ++ "/") rest

/-- The texts that a field stands for: the paths that it matches, or else itself. -/
def pathsOf (t : FileTree) (cwd : Nat) (field : Glyphs) : List String :=
  let found := matchingPaths t cwd (field.length + 1) "" field.settled
  if found.isEmpty then [field.text] else found.mergeSort fun a b => a ≤ b

/-- The values of so many names that a line is read into: the last one takes what is left. -/
def readValues (separators : List Char) (count : Nat) (line : List Piece) : List String :=
  let f := line.foldl (Fields.addPiece separators) { left := some count }
  f.all.map Glyphs.text

end PipelineRunner.Shell
