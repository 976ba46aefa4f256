import PipelineRunner.Utility.Format
import PipelineRunner.Utility.Input

/-!
Utilities that print what they are told to.
-/

namespace PipelineRunner.Utility

open Host Text Job

/-- Prints its arguments, in which escapes stand for bytes where that is asked for. -/
def echo (args : List String) : Job Unit := do
  let isFlags (s : String) : Bool :=
    s.startsWith "-" && s != "-" && (s.toList.drop 1).all ['n', 'e', 'E'].contains
  let flags := (args.takeWhile isFlags).flatMap String.toList
  let text := Text.join " " (args.dropWhile isFlags)
  let ending := if flags.contains 'n' then "" else "\n"
  let escapes := flags.reverse.find? fun c => c == 'e' || c == 'E'
  if escapes = some 'e' then
    let (bytes, stops) := Shell.Format.unescaped .program text
    print (if stops then bytes else bytes ++ ending)
  else print (text ++ ending)

/-- Prints the path of the directory it is in. -/
def pwd (args : List String) : Job Unit := do
  let _ ← arguments 1 [.flag "L" "logical", .flag "P" "physical"] args
  let seen ← look
  match seen.files.pathOf? seen.directory with
  | some path => printLine path
  | none => fail 1 "couldn't find directory entry in '..' with matching i-node"

def sleep (args : List String) : Job Unit := do
  let a ← arguments 1 [] args
  needOperand 1 a
  let wrong := a.operands.filter fun s => (Quantity.time? s).isNone && s != "inf" && s != "infinity"
  each (fun s => warn ("invalid time interval " ++ quoted s)) wrong
  if !wrong.isEmpty then pointToHelp 1
  let times := a.operands.map fun s => (Quantity.time? s).getD Machine.ages
  ask (.sleep (times.foldl (· + ·) 0))

def yes (args : List String) : Job Unit := do
  let line := (if args.isEmpty then "y" else Text.join " " args) ++ "\n"
  let block := String.join (List.replicate (8192 / line.length + 1) line)
  iterate (fun (_ : Unit) => do
    print block
    pure (.again ())) ()

/-- A number that is an argument of `seq`. -/
structure SeqNumber where
  value : Quantity
  /-- The length of its text. -/
  width : Nat

namespace SeqNumber

def of (arg : String) : Job SeqNumber :=
  let bare := String.ofList ((arg.toList.dropWhile (· == ' ')).dropWhile (· == '+'))
  match Quantity.ofText? bare with
  | none =>
    if ["nan", "-nan"].contains arg.toLower then
      misuse 1 ("invalid " ++ quoted "not-a-number" ++ " argument: " ++ quoted arg)
    else misuse 1 ("invalid floating point argument: " ++ quoted arg)
  | some value =>
    let cs := bare.toList
    let beforePoint := cs.takeWhile (· != '.')
    let width :=
      if cs.any fun c => c == 'e' || c == 'E' then (value.text value.places).length
      else if cs.getLast? = some '.' then cs.length - 1
      else if beforePoint.length < cs.length && !beforePoint.any Char.isDigit then cs.length + 1
      else cs.length
    pure ⟨value, width⟩

/-- The length of the text if it has so many places. -/
def widthAt (n : SeqNumber) (places : Nat) : Nat :=
  let own := n.value.places
  let width := n.width + places - own
  if own = 0 && places != 0 then width + 1
  else if own != 0 && places = 0 then width - 1
  else width

end SeqNumber

/-- Fills a number up with zeros behind its sign. -/
def zeroFilled (width : Nat) (s : String) : String :=
  let zeros := Bytes.fill '0' (width - s.length)
  match s.toList with
  | '-' :: cs => "-" ++ zeros ++ String.ofList cs
  | _ => zeros ++ s

/-- What is wrong with a format for one number. -/
def formatFault? (format : String) : Option String :=
  let rec directives : List Char → List (List Char)
    | '%' :: '%' :: cs => directives cs
    | '%' :: cs => cs :: directives cs
    | _ :: cs => directives cs
    | [] => []
  let isLayout (c : Char) : Bool := "-+#0 '.".toList.contains c || c.isDigit
  match directives format.toList with
  | [] => some ("format " ++ quoted format ++ " has no % directive")
  | [cs] =>
    match cs.dropWhile isLayout with
    | [] => some ("format " ++ quoted format ++ " ends in %")
    | c :: _ =>
      if "efgaEFGA".toList.contains c then none
      else
        let letter := String.singleton c
        some ("format " ++ quoted format ++ " has unknown %" ++ letter ++ " directive")
  | _ => some ("format " ++ quoted format ++ " has too many % directives")

def inFormat (format : String) (q : Quantity) : String :=
  let p := Number.Precision.extended
  let value := (p.rounded (.finite ⟨q.parts.natAbs, Nat.pow 10 q.places⟩)).1
  let rec go : Nat → List Char → List Char
    | 0, _ => []
    | _, [] => []
    | fuel + 1, '%' :: '%' :: cs => '%' :: go fuel cs
    | fuel + 1, '%' :: cs =>
      let (l, rest, _) := Shell.Format.layout cs []
      let rest := rest.dropWhile (· == 'L')
      (l.fractional p (rest.headD 'f') ⟨q.parts < 0, value⟩).toList ++ go fuel (rest.drop 1)
    | fuel + 1, c :: cs => c :: go fuel cs
  String.ofList (go (format.length + 1) format.toList)

/-- Prints the numbers from one to another by a step. -/
def seq (args : List String) : Job Unit := do
  let known : List Known :=
    [.value "f" "format", .value "s" "separator", .flag "w" "equal-width"]
  let a ← readArguments 1 known .inFrontOfNumbers args
  needOperand 1 a
  allowOperands 1 3 a
  let format := a.last? "format"
  match format.bind formatFault? with
  | some text => fail 1 text
  | none => pure ()
  if format.isSome && a.has "equal-width" then
    misuse 1 "format string may not be specified when printing equal width strings"
  let one : SeqNumber := ⟨⟨1, 0⟩, 1⟩
  let (first, step, last) : SeqNumber × SeqNumber × SeqNumber ← match a.operands with
    | [last] => do pure (one, one, ← SeqNumber.of last)
    | [first, last] => do pure (← SeqNumber.of first, one, ← SeqNumber.of last)
    | first :: step :: last :: _ => do
      let first ← SeqNumber.of first
      let n ← SeqNumber.of step
      if n.value.parts = 0 then misuse 1 ("invalid Zero increment value: " ++ quoted step)
      pure (first, n, ← SeqNumber.of last)
    | [] => pure (one, one, one)
  let places := Nat.max first.value.places step.value.places
  let width := Nat.max (first.widthAt places) (last.widthAt places)
  let separator := (a.last? "separator").getD "\n"
  let shown (q : Quantity) : String :=
    match format with
    | some format => inFormat format q
    | none =>
      if a.has "equal-width" then zeroFilled width (q.text places) else q.text places
  let isWithin (q : Quantity) : Bool :=
    if step.value.parts < 0 then last.value.le q else q.le last.value
  let first : Quantity := ⟨first.value.partsAt places, places⟩
  if isWithin first then
    iterate (fun q => do
      print (shown q)
      let next := q.add step.value
      if isWithin next then
        print separator
        pure (.again next)
      else pure (.done ())) first
    print "\n"

def printenv (args : List String) : Job Unit := do
  let a ← readArguments 2 [.flag "0" "null"] .inFront args
  let ending := if a.has "null" then String.singleton (Char.ofNat 0) else "\n"
  if a.operands.isEmpty then
    each (fun (name, value) => print (name ++ "=" ++ value ++ ending)) (← get).environment
  else
    each (fun name => do
      match ← value? name with
      | some value => print (value ++ ending)
      | none => atLeast 1) a.operands

/-- The last name of a path; of slashes one is left. -/
def lastName (path : String) : String :=
  let bare := Path.dropSlashes path
  if bare.isEmpty then (if path.isEmpty then "" else "/")
  else (Path.names bare).getLastD ""

/-- The text without an ending, unless nothing would be left. -/
def dropEnding (ending s : String) : String :=
  if s != ending && s.endsWith ending then Bytes.take (s.length - ending.length) s else s

def basename (args : List String) : Job Unit := do
  let known : List Known := [.flag "a" "multiple", .value "s" "suffix", .flag "z" "zero"]
  let a ← readArguments 1 known .inFront args
  needOperand 1 a
  let ending := if a.has "zero" then String.singleton (Char.ofNat 0) else "\n"
  let isSeveral := a.has "multiple" || a.has "suffix"
  if !isSeveral then allowOperands 1 2 a
  let suffix := if isSeveral then (a.last? "suffix").getD "" else a.operands.getD 1 ""
  let paths := if isSeveral then a.operands else a.operands.take 1
  each (fun path => print (dropEnding suffix (lastName path) ++ ending)) paths

def directoryName (path : String) : String :=
  let bare := Path.dropSlashes path
  if bare.isEmpty then (if path.isEmpty then "." else "/")
  else
    let cs := bare.toList.reverse.dropWhile (· != '/')
    let above := Path.dropSlashes (String.ofList cs.reverse)
    if cs.isEmpty then "." else if above.isEmpty then "/" else above

def dirname (args : List String) : Job Unit := do
  let a ← readArguments 1 [.flag "z" "zero"] .inFront args
  needOperand 1 a
  let ending := if a.has "zero" then String.singleton (Char.ofNat 0) else "\n"
  each (fun path => print (directoryName path ++ ending)) a.operands

end PipelineRunner.Utility
