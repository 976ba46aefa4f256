import PipelineRunner.Shell.Action
import PipelineRunner.Shell.Numeral

/-!
What the commands of the shell have in common: how they read their options and numbers, and how
they write texts so that a shell can read them again.
-/

namespace PipelineRunner.Shell

open Host Text

/-- Pieces of a text between single quotes; runs of single quotes stand between double ones. -/
def quotedPieces : Nat → List Char → List String
  | 0, _ => []
  | fuel + 1, cs =>
    let plain := cs.takeWhile (· != '\'')
    let behind := cs.drop plain.length
    let quotes := behind.takeWhile (· == '\'')
    let rest := behind.drop quotes.length
    let here := ["'" ++ String.ofList plain ++ "'"] ++
      (if quotes.isEmpty then [] else ["\"" ++ String.ofList quotes ++ "\""])
    if rest.isEmpty then here else here ++ quotedPieces fuel rest

/-- A text that the shell reads as the given one. -/
def inQuotes (s : String) : String := String.join (quotedPieces (s.length + 1) s.toList)

/-- Whether an option takes an argument; nothing, if it is not known. A colon behind a letter says
that it does. -/
def takesArgument? (c : Char) : List Char → Option Bool
  | [] => none
  | d :: ':' :: rest => if c = d then some true else takesArgument? c rest
  | d :: rest => if c = d then some false else takesArgument? c rest

/-- Reads the letters of one argument; the options so far stand backwards. -/
def optionLetters (known : List Char) (found : List (Char × String)) :
    List Char → List String → Except String (List (Char × String) × List String)
  | [], rest => .ok (found, rest)
  | c :: cs, rest =>
    match takesArgument? c known with
    | none => .error ("Illegal option -" ++ String.singleton c)
    | some false => optionLetters known ((c, "") :: found) cs rest
    | some true =>
      if !cs.isEmpty then .ok ((c, String.ofList cs) :: found, rest)
      else
        match rest with
        | a :: rest => .ok ((c, a) :: found, rest)
        | [] => .error ("No arg for -" ++ String.singleton c ++ " option")

/-- Reads the options in front of other arguments; those so far stand backwards. -/
def readOptions (known : List Char) :
    Nat → List (Char × String) → List String → Except String (List (Char × String) × List String)
  | 0, found, rest => .ok (found.reverse, rest)
  | _, found, [] => .ok (found.reverse, [])
  | fuel + 1, found, a :: rest =>
    if a = "--" then .ok (found.reverse, rest)
    else if a.startsWith "-" && a.length != 1 then do
      let (found, rest) ← optionLetters known found (a.toList.drop 1) rest
      readOptions known fuel found rest
    else .ok (found.reverse, a :: rest)

/-- The name in front of an equals sign, and the value behind it. -/
def splitDefinition (text : String) : String × Option String :=
  let cs := text.toList
  let name := cs.takeWhile (· != '=')
  (String.ofList name,
    if cs.length = name.length then none else some (String.ofList (cs.drop (name.length + 1))))

namespace Action

/-- The options in front of the arguments, and what stands behind them. -/
def options (known : String) (args : List String) :
    Action (List (Char × String) × List String) :=
  match readOptions known.toList (args.length + 1) [] args with
  | .ok r => pure r
  | .error text => fail text

/-- The arguments of a command that has no options. -/
def operands (args : List String) : Action (List String) := do pure (← options "" args).2

def number (text : String) : Action Nat :=
  match Numeral.count? text with
  | some n => pure n
  | none => fail (illegalNumber text)

/-- Goes through a list, and yields the greatest status. -/
def worst {α : Type} (f : α → Action Nat) (status : Nat) : List α → Action Nat
  | [] => pure status
  | a :: rest => do worst f (Nat.max status (← f a)) rest

end Action
end PipelineRunner.Shell
