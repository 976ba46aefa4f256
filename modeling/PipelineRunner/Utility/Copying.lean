import PipelineRunner.Utility.Files

/-!
Utilities that copy files and directories, or give them other names.
-/

namespace PipelineRunner.Utility

open Host Text Job

/-- How files are copied or moved. -/
structure Transfer where
  moves : Bool
  arguments : Arguments

namespace Transfer

def has (c : Transfer) (key : String) : Bool := c.arguments.has key

def recursive (c : Transfer) : Bool := c.has "recursive" || c.has "archive"

def keepsLinks (c : Transfer) : Bool :=
  c.has "no-dereference" || c.has "archive" || c.has "d" || (c.recursive && !c.has "dereference")

def preserves (c : Transfer) : Bool := c.has "p" || c.has "archive" || c.has "preserve"

def tell (c : Transfer) (source goal : String) : Job Unit :=
  if c.has "verbose" then printLine (inShellQuotes source ++ " -> " ++ inShellQuotes goal)
  else pure ()

def mayReplace (c : Transfer) (t : FileTree) (source goal : Nat) (name : String) : Job Bool := do
  let mode := c.arguments.lastOf? ["force", "interactive", "no-clobber"]
  let update := c.arguments.last? "update"
  if mode = some "no-clobber" then
    if c.moves then fault 1 ("not replacing " ++ inShellQuotes name)
    pure false
  else if update = some "none" then pure false
  else if c.has "update" && update != some "all" &&
      (t.node source).modified ≤ (t.node goal).modified then pure false
  else if mode = some "interactive" && !(c.moves && c.has "force") then
    let agreed ← agrees ("overwrite " ++ inShellQuotes name ++ "? ")
    if !agreed then atLeast 1
    pure agreed
  else pure true

def copyOf (c : Transfer) (t : FileTree) (mask i : Nat) (content : Content) : Node :=
  let n := t.node i
  let mode := if c.preserves then n.mode else n.mode &&& 0o777 &&& (0o777 ^^^ mask)
  ⟨content, mode, if c.preserves then n.modified else t.time⟩

/-- Copies a file to a path at which there may be another one. -/
def copyFile (c : Transfer) (source goal : String) (i : Nat) : Job Unit := do
  let seen ← look
  let cwd := seen.directory
  let t := seen.files
  let mask : Nat ← ask (.mask none)
  let refuse (what : String) (e : FileError) : Job Unit := fault 1 (because what e)
  let found := t.find? cwd goal true
  if found == some i && !c.has "link" then
    fault 1 (inShellQuotes source ++ " and " ++ inShellQuotes goal ++ " are the same file")
  else if found.any t.isDirectory then
    fault 1 ("cannot overwrite directory " ++ inShellQuotes goal ++ " with non-directory")
  else
    let may ← match found with
      | some j => c.mayReplace t i j goal
      | none => pure true
    if may then
      let replaced := if c.has "remove-destination" then
          fun (t : FileTree) => (t.unlink cwd goal).toOption.getD t
        else fun t => t
      if c.has "backup" && found.isSome then
        let _ ← change fun seen => seen.files.rename cwd goal (goal ++ "~")
      let isLink := match t.content i with
        | .link _ => true
        | _ => false
      if c.has "symbolic-link" || c.has "link" || isLink then
        let result ← change fun seen => do
          let t := replaced seen.files
          let t := if c.has "force" || isLink then (t.unlink cwd goal).toOption.getD t else t
          if c.has "symbolic-link" then t.make cwd goal (.link source) 0o777
          else if c.has "link" then t.link cwd source goal false
          else t.make cwd goal (t.content i) 0o777
        match result with
        | .ok () => c.tell source goal
        | .error e =>
          let kind := if c.has "link" then "hard link" else "symbolic link"
          refuse (s!"cannot create {kind} " ++ inShellQuotes goal) e
      else
        let dangling := (t.find? cwd goal false).isSome && found.isNone
        if dangling && !c.has "force" then
          fault 1 ("not writing through dangling symlink " ++ inShellQuotes goal)
        else if found.isNone && goal.endsWith "/" then
          refuse ("cannot create regular file " ++ inShellQuotes goal) .notDirectory
        else
          match t.content i with
          | .pipe | .device _ =>
            let result ← change fun seen =>
              (replaced seen.files).make cwd goal (t.content i) (t.node i).mode
            match result with
            | .ok () => c.tell source goal
            | .error e => refuse ("cannot create special file " ++ inShellQuotes goal) e
          | content =>
            let result ← change fun seen => do
              let t := replaced seen.files
              let s ← t.spot cwd goal true
              let n := c.copyOf t mask i content
              match s.node? with
              | some j =>
                match t.content j with
                | .device _ | .pipe => pure t
                | _ =>
                  pure (t.update j fun old =>
                    { n with mode := if c.preserves then n.mode else old.mode })
              | none =>
                let (t, j) := t.create s.parent s.name content n.mode
                pure (t.update j fun _ => n)
            match result with
            | .ok () => c.tell source goal
            | .error e => refuse ("cannot create regular file " ++ inShellQuotes goal) e

/-- Copies a node with all that is below it. -/
def copyTree (c : Transfer) : Nat → String → String → Nat → Job Unit
  | 0, _, _, _ => pure ()
  | fuel + 1, source, goal, i => do
    let seen ← look
    let cwd := seen.directory
    let t := seen.files
    if !t.isDirectory i then c.copyFile source goal i
    else if !c.recursive then
      fault 1 ("-r not specified; omitting directory " ++ inShellQuotes source)
    else
      let found := t.find? cwd goal true
      if found.any fun j => !t.isDirectory j then
        fault 1 ("cannot overwrite non-directory " ++ inShellQuotes goal ++ " with directory " ++
          inShellQuotes source)
      else
        let entries := t.entries i
        let mask : Nat ← ask (.mask none)
        let mode := (c.copyOf t mask i (t.content i)).mode
        let isNew := found.isNone
        let made ← if isNew then
            change fun seen => seen.files.makeDirectory cwd goal mode
          else pure (.ok ())
        match made with
        | .error e => fault 1 (because ("cannot create directory " ++ inShellQuotes goal) e)
        | .ok () =>
          if isNew then c.tell source goal
          each (fun e => copyTree c fuel (within source e.1) (within goal e.1) e.2) entries
          if c.preserves then
            let node := t.node i
            let _ ← change fun seen => do
              let j ← seen.files.find cwd goal true
              pure (seen.files.update j fun n =>
                { n with mode := node.mode, modified := node.modified })

def copy (c : Transfer) (source goal : String) : Job Unit := do
  let seen ← look
  let cwd := seen.directory
  let t := seen.files
  match t.find cwd source (!c.keepsLinks) with
  | .error e => fault 1 (because ("cannot stat " ++ inShellQuotes source) e)
  | .ok i =>
    let above := (FileTree.parentPath? goal).getD ""
    let place := t.find? cwd goal true <|> t.find? cwd (if above.isEmpty then "." else above) true
    let isInside := t.isDirectory i && c.recursive &&
      place.any fun p => t.isDirectory p && t.isBelow i (t.nodes.size + 1) p
    if isInside then
      fault 1 ("cannot copy a directory, " ++ inShellQuotes source ++ ", into itself, " ++
        inShellQuotes goal)
    else c.copyTree (t.nodes.size + 1) source goal i

def move (c : Transfer) (source goal : String) : Job Unit := do
  let seen ← look
  let cwd := seen.directory
  let t := seen.files
  let both := inShellQuotes source ++ " to " ++ inShellQuotes goal
  match t.find cwd source false with
  | .error e => fault 1 (because ("cannot stat " ++ inShellQuotes source) e)
  | .ok i =>
    let found := t.find? cwd goal false
    let isMoved := t.isDirectory i
    if source.endsWith "/" && !isMoved then
      fault 1 (because ("cannot stat " ++ inShellQuotes source) .notDirectory)
    else if found == some i then
      fault 1 (inShellQuotes source ++ " and " ++ inShellQuotes goal ++ " are the same file")
    else
      let may ← match found with
        | some j => c.mayReplace t i j goal
        | none => pure true
      if may then
        if found.any t.isDirectory && !isMoved then
          fault 1 ("cannot overwrite directory " ++ inShellQuotes goal ++ " with non-directory")
        else if found.any (fun j => !t.isDirectory j) && isMoved then
          fault 1 ("cannot overwrite non-directory " ++ inShellQuotes goal ++ " with directory " ++
            inShellQuotes source)
        else
          if c.has "backup" && found.isSome then
            let _ ← change fun seen => seen.files.rename cwd goal (goal ++ "~")
          match ← change fun seen => seen.files.rename cwd source goal with
          | .ok () =>
            if c.has "verbose" then
              printLine ("renamed " ++ inShellQuotes source ++ " -> " ++ inShellQuotes goal)
          | .error .invalidArgument =>
            fault 1 ("cannot move " ++ inShellQuotes source ++ " to a subdirectory of itself, " ++
              inShellQuotes goal)
          | .error .notEmpty =>
            fault 1 (because ("cannot overwrite " ++ inShellQuotes goal) .notEmpty)
          | .error e => fault 1 (because ("cannot move " ++ both) e)

/-- Copies or moves something to a path. -/
def one (c : Transfer) (source goal : String) : Job Unit :=
  if c.moves then c.move source goal else c.copy source goal

/-- Copies a file with the directories on the way to it. -/
def withParents (c : Transfer) (directory source : String) : Job Unit := do
  let goal := within directory source
  let steps := (stepsOf source).dropLast
  each (fun step => do
    let path := within directory step
    let seen ← look
    if !seen.files.contains seen.directory path then
      let _ ← change fun seen => seen.files.makeDirectory seen.directory path 0o755
      if c.has "verbose" then printLine (step ++ " -> " ++ path)) steps
  c.one source goal

def into (c : Transfer) (directory : String) (sources : List String) : Job Unit :=
  each (fun source =>
    if c.has "parents" then c.withParents directory source
    else c.one source (within directory (bareName source))) sources

/-- Copies or moves what the arguments say. -/
def run (c : Transfer) : Job Unit := do
  let seen ← look
  let isDirectory (path : String) : Bool := seen.files.hasDirectory seen.directory path
  let operands := c.arguments.operands
  if operands.isEmpty then misuse 1 "missing file operand"
  if c.has "no-clobber" && !c.moves then
    warn ("warning: behavior of -n is non-portable and may change in future; " ++
      "use --update=none instead")
  let refuse (directory : String) : Job Unit :=
    let e : FileError :=
      if seen.files.contains seen.directory directory then .notDirectory else .notFound
    fail 1 (because ("target " ++ inShellQuotes directory) e)
  match c.arguments.last? "target-directory" with
  | some directory => if isDirectory directory then c.into directory operands else refuse directory
  | none =>
    match operands with
    | [source] => misuse 1 ("missing destination file operand after " ++ inShellQuotes source)
    | [source, goal] =>
      if isDirectory goal && !c.has "no-target-directory" then c.into goal [source]
      else if c.has "parents" then fail 1 "with --parents, the destination must be a directory"
      else c.one source goal
    | several =>
      if c.has "no-target-directory" then
        misuse 1 ("extra operand " ++ inShellQuotes (several.getD 2 ""))
      let goal := several.getLastD ""
      if isDirectory goal then c.into goal several.dropLast else refuse goal

end Transfer

def cp (args : List String) : Job Unit := do
  let known : List Known :=
    [.flag "a" "archive", .flag "rR" "recursive", .flag "f" "force", .flag "i" "interactive",
      .flag "n" "no-clobber", .flag "v" "verbose", .flag "p" "p", .loose "" "preserve",
      .flag "L" "dereference", .flag "P" "no-dereference", .flag "H" "H", .flag "d" "d",
      .flag "l" "link", .flag "s" "symbolic-link", .flag "T" "no-target-directory",
      .value "t" "target-directory", .loose "u" "update", .flag "" "parents", .flag "b" "backup",
      .value "S" "suffix", .flag "x" "one-file-system", .loose "" "reflink", .loose "" "sparse",
      .flag "" "remove-destination", .flag "" "strip-trailing-slashes", .value "" "no-preserve"]
  let a ← arguments 1 known args
  (⟨false, a⟩ : Transfer).run

def mv (args : List String) : Job Unit := do
  let known : List Known :=
    [.flag "f" "force", .flag "i" "interactive", .flag "n" "no-clobber", .flag "v" "verbose",
      .flag "T" "no-target-directory", .value "t" "target-directory", .flag "u" "update",
      .flag "b" "backup", .value "S" "suffix", .flag "" "strip-trailing-slashes"]
  let a ← arguments 1 known args
  (⟨true, a⟩ : Transfer).run

/-- Copies files and sets their rights, or makes directories. -/
def install (args : List String) : Job Unit := do
  let known : List Known :=
    [.flag "d" "directory", .value "m" "mode", .flag "v" "verbose", .flag "D" "D", .flag "c" "c",
      .value "t" "target-directory", .flag "T" "no-target-directory", .value "o" "owner",
      .value "g" "group", .flag "p" "preserve-timestamps", .flag "s" "strip", .flag "C" "compare"]
  let a ← arguments 1 known args
  let changes ← match (a.last? "mode").getD "755" |> Rights.parse? with
    | some changes => pure changes
    | none => fail 1 ("invalid mode " ++ quoted ((a.last? "mode").getD ""))
  let bits := Rights.applyAll false 0 changes 0
  let seen ← look
  let cwd := seen.directory
  if a.operands.isEmpty then misuse 1 "missing file operand"
  let place (source goal : String) : Job Unit := do
    if a.has "D" then
      let above := (FileTree.parentPath? goal).getD ""
      let _ ← change fun seen => seen.files.makeDirectories cwd above
    let seen ← look
    match seen.files.find cwd source true with
    | .error e => fault 1 (because ("cannot stat " ++ inShellQuotes source) e)
    | .ok i =>
      if seen.files.isDirectory i then fault 1 ("omitting directory " ++ inShellQuotes source)
      else
        let result ← change fun seen => do
          let t := (seen.files.unlink cwd goal).toOption.getD seen.files
          t.make cwd goal (t.content i) bits
        match result with
        | .ok () =>
          if a.has "verbose" then
            printLine (inShellQuotes source ++ " -> " ++ inShellQuotes goal)
        | .error e => fault 1 (because ("cannot create regular file " ++ inShellQuotes goal) e)
  if a.has "directory" then
    each (fun path => do
      match ← change fun seen => do
        let t ← seen.files.makeDirectories cwd path
        let i ← t.find cwd path true
        pure (t.update i fun n => { n with mode := bits }) with
      | .ok () =>
        if a.has "verbose" then
          printLine ((← get).title ++ ": creating directory " ++ inShellQuotes path)
      | .error e =>
        fault 1 (because ("cannot create directory " ++ inShellQuotes path) e)) a.operands
  else
    match a.last? "target-directory", a.operands with
    | some directory, sources =>
      each (fun s => place s (within directory (bareName s))) sources
    | none, [source] =>
      misuse 1 ("missing destination file operand after " ++ inShellQuotes source)
    | none, [source, goal] =>
      if seen.files.hasDirectory cwd goal && !a.has "no-target-directory" then
        place source (within goal (bareName source))
      else place source goal
    | none, several =>
      let goal := several.getLastD ""
      if seen.files.hasDirectory cwd goal then
        each (fun s => place s (within goal (bareName s))) several.dropLast
      else fail 1 (because ("target " ++ inShellQuotes goal) .notDirectory)

end PipelineRunner.Utility
