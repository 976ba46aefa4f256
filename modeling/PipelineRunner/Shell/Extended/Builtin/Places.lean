import PipelineRunner.Shell.Builtin.Directory
import PipelineRunner.Shell.Extended.Builtin.Settings

/-!
The commands of shells of the extended language for the directory that it is in, for those that it
goes back to, and for the rights of new files.
-/

namespace PipelineRunner.Shell.Extended.Builtin

open Host Text Shell.Action

def enterDirectory (physical : Bool) (path : String) : Action String := do
  let physical := physical || (← get).has "physical"
  match ← Shell.Builtin.enter? physical path with
  | some text => pure text
  | none =>
    let seen ← look
    let reason := match seen.files.findDirectory seen.directory path with
      | .error e => e.reason
      | .ok _ => FileError.notFound.reason
    failWith (path ++ ": " ++ reason) 1

/-- The path of a directory of a name, and whether one of the places has led to it in which such
directories are looked for. -/
def placed (name : String) : Action (String × Bool) := do
  let first := (Path.names name).headD ""
  let name := if name.isEmpty then "." else name
  if name.startsWith "/" || first = "." || first = ".." then pure (name, false)
  else
    let seen ← look
    let places := ((← get).value? "CDPATH").getD ""
    let path (place : String) : String :=
      if place.isEmpty then name else if place.endsWith "/" then place ++ name else place ++ "/" ++ name
    let found := ((splitAt ':' places.toList).map String.ofList).find? fun place =>
      seen.files.hasDirectory seen.directory (path place)
    pure (((found.map path).getD name), found.any fun place => !place.isEmpty)

def cd (args : List String) : Action Nat := do
  let (options, rest) ← options "LPe@" args
  let s ← get
  let named (name : String) : Action String :=
    match s.value? name with
    | some t => pure t
    | none => failWith (name ++ " not set") 1
  let (goal, isBack) ← match rest with
    | [] => do pure (← named "HOME", false)
    | ["-"] => do pure (← named "OLDPWD", true)
    | [d] => pure (d, false)
    | _ => failWith "too many arguments" 1
  let (path, isFar) ← placed goal
  let text ← enterDirectory (Shell.Builtin.isPhysical (options.filter fun o => o.1 != 'e')) path
  say (if isBack || isFar then text ++ "\n" else "") 0

def pwd (args : List String) : Action Nat := do
  let (options, _) ← options "LP" args
  let seen ← look
  let real := (seen.files.pathOf? seen.directory).getD ""
  let shown := (← get).directory
  let text := if Shell.Builtin.isPhysical options then real else shown.getD real
  say (text ++ "\n") 0

/-- The text of a directory with a tilde for the home. -/
def withTilde (s : State) (path : String) : String :=
  match (s.value? "HOME").filter fun h => h.length != 1 && !h.isEmpty with
  | some home =>
    if path = home then "~"
    else if path.startsWith (home ++ "/") then "~" ++ Bytes.drop home.length path
    else path
  | none => path

/-- The directories, with the one that the shell is in first. -/
def allDirectories : Action (List String) := do
  let s ← get
  pure (s.directory.getD "" :: s.directories)

/-- The place that an argument with a sign means among so many directories. -/
def placeOf (count : Nat) (a : String) : Action Nat := do
  let outOfRange {α : Type} : Action α :=
    failWith (if count ≤ 1 then "directory stack empty"
      else a ++ ": directory stack index out of range") 1
  match digits? (a.toList.drop 1) with
  | none => do
    warn (a ++ ": invalid number")
    misuse
  | some n =>
    if count ≤ n then outOfRange
    else pure (if a.startsWith "-" then count - 1 - n else n)

/-- Whether an argument is a place with a sign. -/
def isPlace (a : String) : Bool := (a.startsWith "+" || a.startsWith "-") && a.length != 1

def showDirectories : Action Nat := do
  let s ← get
  let all ← allDirectories
  say (join " " (all.map (withTilde s)) ++ "\n") 0

/-- Shows the directories that the shell goes back to, or forgets them. -/
def dirs (args : List String) : Action Nat := do
  let rec letters : List String → List Char × List String
    | [] => ([], [])
    | a :: rest =>
      if a.startsWith "-" && a.length != 1 && (a.toList.drop 1).all ['c', 'l', 'p', 'v'].contains
      then
        let (more, left) := letters rest
        (a.toList.drop 1 ++ more, left)
      else ([], a :: rest)
  let (flags, rest) := letters args
  let s ← get
  let all ← allDirectories
  if flags.contains 'c' then
    modify fun s => { s with directories := [] }
    pure 0
  else
    let shown (path : String) : String := if flags.contains 'l' then path else withTilde s path
    match rest with
    | [] =>
      if flags.contains 'v' then
        let lines := ((List.range all.length).zip all).map fun (i, d) =>
          let n := toString i
          Bytes.fill ' ' (2 - n.length) ++ n ++ "  " ++ shown d ++ "\n"
        say (String.join lines) 0
      else if flags.contains 'p' then say (String.join (all.map fun d => shown d ++ "\n")) 0
      else say (join " " (all.map shown) ++ "\n") 0
    | a :: _ =>
      if isPlace a then
        let n ← placeOf all.length a
        say (shown (all.getD n "") ++ "\n") 0
      else
        warn (a ++ ": invalid option")
        misuse

/-- Goes to a directory and keeps the one in front of it in mind. -/
def pushd (args : List String) : Action Nat := do
  let stays := args.head? = some "-n"
  let args := if stays then args.drop 1 else args
  let all ← allDirectories
  match args with
  | [] =>
    match all with
    | here :: next :: rest => do
      if !stays then
        let _ ← enterDirectory false next
      modify fun s => { s with directories := here :: rest }
      showDirectories
    | _ => failWith "no other directory" 1
  | [a] =>
    if isPlace a then
      let n ← placeOf all.length a
      let turned := all.drop n ++ all.take n
      let _ ← enterDirectory false (turned.headD "")
      modify fun s => { s with directories := turned.drop 1 }
      showDirectories
    else if stays then
      modify fun s => { s with directories := a :: s.directories }
      showDirectories
    else
      let here := all.headD ""
      let goal ← if a = "-" then do pure (((← get).value? "OLDPWD").getD a) else pure a
      let (path, _) ← Shell.Builtin.searched goal
      let _ ← enterDirectory false path
      modify fun s => { s with directories := here :: s.directories }
      showDirectories
  | _ => failWith "too many arguments" 1

def popd (args : List String) : Action Nat := do
  let stays := args.head? = some "-n"
  let args := if stays then args.drop 1 else args
  let all ← allDirectories
  if all.length ≤ 1 then failWith "directory stack empty" 1
  let n ← match args with
    | [] => pure (if stays then 1 else 0)
    | a :: _ =>
      if isPlace a then placeOf all.length a
      else do
        warn (a ++ ": invalid argument")
        misuse
  if n = 0 then
    let _ ← enterDirectory false (all.getD 1 "")
    modify fun s => { s with directories := all.drop 2 }
  else
    modify fun s => { s with directories := (all.eraseIdx n).drop 1 }
  showDirectories

/-- Shows the rights that new files do not get, or sets them. -/
def umask (args : List String) : Action Nat := do
  let (options, rest) ← options "pS" args
  let mask : Nat ← ask (.mask none)
  let all := Shell.Builtin.allRights
  let given := all ^^^ (mask &&& all)
  match rest with
  | [] =>
    let isShort := !hasLetter options 'S'
    let text :=
      if isShort then
        let digits := String.ofList (Nat.toDigits 8 mask)
        Bytes.fill '0' (4 - digits.length) ++ digits
      else
        join "," ([("u", 6), ("g", 3), ("o", 0)].map fun (who, places) =>
          who ++ "=" ++ Shell.Builtin.rightLetters (given >>> places))
    let front := if hasLetter options 'p' then (if isShort then "umask " else "umask -S ") else ""
    say (front ++ text ++ "\n") 0
  | text :: _ =>
    let cs := text.toList
    if cs.head?.any Char.isDigit then
      if cs.any fun c => !('0' ≤ c && c ≤ '7') then
        failWith (text ++ ": octal number out of range") 1
      let bits := cs.foldl (fun n c => n * 8 + (c.toNat - '0'.toNat)) 0
      if all < bits then failWith (text ++ ": octal number out of range") 1
      let _ ← ask (.mask (some bits))
      pure 0
    else
      match Shell.Builtin.changedRights given (cs.length + 1) given 0 cs with
      | some now =>
        let _ ← ask (.mask (some (all ^^^ now)))
        pure 0
      | none =>
        let behind := cs.dropWhile ['a', 'u', 'g', 'o'].contains
        let wrong := if ['=', '+', '-'].contains (behind.headD ' ')
          then (behind.drop 1).dropWhile ['r', 'w', 'x', 'u', 'g', 'o', 'X', 's'].contains
          else behind
        failWith ("\x60" ++ String.ofList (wrong.take 1) ++ "': invalid symbolic mode operator") 1

end PipelineRunner.Shell.Extended.Builtin
