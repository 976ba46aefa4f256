import PipelineRunner.Shell.Builtin.Basic
import PipelineRunner.Text.Basic

/-!
The commands of the shell for the directory that it is in, and for the rights of new files.
-/

namespace PipelineRunner.Shell.Builtin

open Host Text Shell.Action

/-- The text of a path without names that are dots, as seen from the text of a directory. -/
def plainPath (directory path : String) : String :=
  let slashes := if path.startsWith "//" && !path.startsWith "///" then "//" else "/"
  let start := if path.startsWith "/" then [] else Path.names directory
  let names := (start ++ Path.names path).foldl (fun (names : List String) n =>
    if n = "" || n = "." then names
    else if n = ".." then names.dropLast
    else names ++ [n]) []
  slashes ++ join "/" names

/-- Whether the last of some options asks for the path behind all links. -/
def isPhysical (options : List (Char × String)) : Bool :=
  (options.getLast?.map (·.1)) == some 'P'

/-- Goes to a directory; nothing is yielded if there is none. -/
def enter? (physical : Bool) (path : String) : Action (Option String) := do
  let s ← get
  let seen ← look
  let shown := if physical then none else s.directory.map fun d => plainPath d path
  match seen.files.findDirectory seen.directory (shown.getD path) with
  | .error _ => pure none
  | .ok directory =>
    ask (.enter directory)
    let text := shown.getD ((seen.files.pathOf? directory).getD "")
    modify fun s =>
      let export_ (v : Variable) : Variable := { v with exported := true }
      let s := (s.setValue "OLDPWD" (s.directory.getD "")).changeVariable "OLDPWD" export_
      let s := (s.setValue "PWD" text).changeVariable "PWD" export_
      { s with directory := some text }
    pure (some text)

/-- The path that a name of a directory leads to, where some places are searched for it, and whether
it is one that nobody would expect. -/
def searched (name : String) : Action (String × Bool) := do
  let first := (Path.names name).headD ""
  if name.startsWith "/" || first = "." || first = ".." then pure (name, false)
  else
    let name := if name.isEmpty then "." else name
    match (← get).value? "CDPATH" with
    | none => pure (name, false)
    | some places =>
      let seen ← look
      let found := (State.pathsIn places name).find? fun p =>
        seen.files.hasDirectory seen.directory p
      pure (found.getD name, found.any (· != name))

def cd (args : List String) : Action Nat := do
  let (options, rest) ← options "LP" args
  let s ← get
  let (goal, isBack) : String × Bool := match rest with
    | [] => ((s.value? "HOME").getD "", false)
    | "-" :: _ => ((s.value? "OLDPWD").getD "", true)
    | d :: _ => (d, false)
  let (path, isFar) ← searched goal
  match ← enter? (isPhysical options) path with
  | none => fail s!"can't cd to {goal}"
  | some text => say (if isBack || isFar then text ++ "\n" else "") 0

def pwd (args : List String) : Action Nat := do
  let (options, _) ← options "LP" args
  let seen ← look
  let real := (seen.files.pathOf? seen.directory).getD ""
  let shown := (← get).directory
  let text := if isPhysical options then real else shown.getD real
  say (text ++ "\n") 0

def rightLetters (bits : Nat) : String :=
  String.join ([(4, "r"), (2, "w"), (1, "x")].map fun (b, l) => if bits &&& b = 0 then "" else l)

def allRights : Nat := 0o777

/-- The bits that letters behind a sign stand for, over those that are given now. -/
def rightsOf (given : Nat) (letters : List Char) : Nat :=
  letters.foldl (fun bits c =>
    bits ||| (match c with
      | 'r' => 4
      | 'w' => 2
      | 'x' => 1
      | 'u' => given >>> 6 &&& 7
      | 'g' => given >>> 3 &&& 7
      | 'o' => given &&& 7
      | 'X' => if given &&& 0o111 = 0 then 0 else 1
      | _ => 0)) 0

/-- Applies a text like `u+x,g=` to the rights that are given; `who` are those in front. -/
def changedRights (given : Nat) : Nat → Nat → Nat → List Char → Option Nat
  | 0, _, _, _ => none
  | fuel + 1, now, who, cs =>
    let places := cs.takeWhile ['a', 'u', 'g', 'o'].contains
    let who := places.foldl (fun who c =>
      who ||| (match c with
        | 'a' => 0o111
        | 'u' => 0o100
        | 'g' => 0o010
        | _ => 0o001)) who
    let who := if who = 0 then 0o111 else who
    match cs.drop places.length with
    | op :: cs =>
      if !(['=', '+', '-'].contains op) then none
      else
        let letters := cs.takeWhile ['r', 'w', 'x', 'u', 'g', 'o', 'X', 's'].contains
        let bits := rightsOf given letters * who
        let all := 7 * who
        let now := match op with
          | '-' => now &&& (allRights ^^^ bits)
          | '+' => now ||| bits
          | _ => bits ||| (now &&& (allRights ^^^ all))
        match cs.drop letters.length with
        | [] => some now
        | ',' :: cs => if cs.isEmpty then some now else changedRights given fuel now 0 cs
        | cs => changedRights given fuel now who cs
    | [] => none

/-- Shows the rights that new files do not get, or sets them. -/
def umask (args : List String) : Action Nat := do
  let (options, rest) ← options "S" args
  let mask : Nat ← ask (.mask none)
  match rest with
  | [] =>
    let given := allRights ^^^ (mask &&& allRights)
    let text :=
      if options.isEmpty then
        let digits := String.ofList (Nat.toDigits 8 mask)
        Bytes.fill '0' (4 - digits.length) ++ digits
      else
        join "," ([("u", 6), ("g", 3), ("o", 0)].map fun (who, places) =>
          who ++ "=" ++ rightLetters (given >>> places))
    say (text ++ "\n") 0
  | text :: _ =>
    let cs := text.toList
    if cs.head?.any Char.isDigit then
      if cs.any fun c => !('0' ≤ c && c ≤ '7') then fail (illegalNumber text)
      let bits := cs.foldl (fun n c => n * 8 + (c.toNat - '0'.toNat)) 0
      let _ ← ask (.mask (some (bits &&& allRights)))
      pure 0
    else
      let given := allRights ^^^ (mask &&& allRights)
      match changedRights given (cs.length + 1) given 0 cs with
      | some now =>
        let _ ← ask (.mask (some (allRights ^^^ now)))
        pure 0
      | none => fail s!"Illegal mode: {text}"

end PipelineRunner.Shell.Builtin
