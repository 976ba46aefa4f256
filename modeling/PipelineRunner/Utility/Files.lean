import PipelineRunner.Utility.Listing

/-!
Utilities that make and remove files and directories, and change what is known of them.
-/

namespace PipelineRunner.Utility

open Host Text Job

/-- The reason for a refusal, behind what has been refused. -/
def because (what : String) (e : FileError) : String := what ++ ": " ++ e.reason

/-- Asks a question, and tells whether the answer is yes. -/
def agrees (question : String) : Job Bool := do
  let title := (← get).title
  act (Act.print 2 (title ++ ": " ++ question))
  let first : Except FileError String ← ask (.read 0 1 none)
  let rest : Except FileError String ← match first with
    | .ok "\n" => pure (.ok "")
    | _ => ask (.read 0 4096 (some '\n'))
  let _ := rest
  match first with
  | .ok c => pure (c = "y" || c = "Y")
  | .error _ => pure false

/-- What has been removed. -/
inductive Removed where
  | file (path : String)
  | directory (path : String)

/-- Removes a node with all that is below it, as far as the fuel goes; what has been removed stands
backwards. -/
def removeTree (cwd : Nat) : Nat → String → FileTree × List Removed → FileTree × List Removed
  | 0, _, s => s
  | fuel + 1, path, (t, done) =>
    match t.find? cwd path false with
    | none => (t, done)
    | some i =>
      if t.isDirectory i then
        let (t, done) := ((t.entries i).map (·.1)).foldl (fun s name =>
          removeTree cwd fuel (Path.join path name) s) (t, done)
        match t.removeDirectory cwd path with
        | .ok t => (t, .directory path :: done)
        | .error _ => (t, done)
      else
        match t.unlink cwd path with
        | .ok t => (t, .file path :: done)
        | .error _ => (t, done)

def reportRemoved : Removed → Job Unit
  | .file path => printLine ("removed " ++ inShellQuotes path)
  | .directory path => printLine ("removed directory " ++ inShellQuotes path)

def rm (args : List String) : Job Unit := do
  let known : List Known :=
    [.flag "f" "force", .flag "rR" "recursive", .flag "d" "dir", .flag "i" "i", .flag "I" "I",
      .flag "v" "verbose", .loose "" "interactive", .loose "" "preserve-root",
      .flag "" "no-preserve-root", .flag "" "one-file-system"]
  let a ← arguments 1 known args
  let mode := (a.lastOf? ["force", "i", "I", "interactive"]).getD ""
  let isForced := mode = "force"
  if !isForced then needOperand 1 a
  each (fun name => do
    let seen ← look
    let cwd := seen.directory
    let t := seen.files
    let refuse (e : FileError) : Job Unit :=
      fault 1 (because ("cannot remove " ++ inShellQuotes name) e)
    let last := lastNameOf name
    match t.find cwd name false with
    | .error e => if isForced && (e = .notFound || e = .notDirectory) then pure () else refuse e
    | .ok i =>
      let recursive := a.has "recursive"
      if t.isDirectory i && !recursive && !(a.has "dir") then refuse .isDirectory
      else if t.isDirectory i && (last = "." || last = "..") then
        fault 1 ("refusing to remove '.' or '..' directory: skipping " ++ inShellQuotes name)
      else if i = FileTree.root && recursive && !a.has "no-preserve-root" then
        warn "it is dangerous to operate recursively on '/'"
        fault 1 "use --no-preserve-root to override this failsafe"
      else if t.isDirectory i && !recursive && !(t.entries i).isEmpty then refuse .notEmpty
      else
        let kind := kindName (t.content i)
        let agreed ← if mode = "i" || mode = "interactive" then
            agrees s!"remove {kind} {inShellQuotes name}? "
          else pure true
        if agreed then
          let (after, done) := removeTree cwd (t.nodes.size + 1) name (t, [])
          let _ ← change fun seen => .ok (removeTree cwd (t.nodes.size + 1) name (seen.files, [])).1
          if after.contains cwd name && done.isEmpty then refuse .busy
          if a.has "verbose" then each reportRemoved done.reverse) a.operands
where
  /-- The last name of a path. -/
  lastNameOf (path : String) : String := (Path.names (Path.dropSlashes path)).getLastD ""

/-- Removes empty directories, and those above them if that is asked for. -/
def rmdir (args : List String) : Job Unit := do
  let known : List Known :=
    [.flag "p" "parents", .flag "v" "verbose", .flag "" "ignore-fail-on-non-empty"]
  let a ← arguments 1 known args
  needOperand 1 a
  let remove (path : String) : Job Bool := do
    if a.has "verbose" then
      printLine ((← get).title ++ ": removing directory, " ++ inShellQuotes path)
    match ← change fun seen => seen.files.removeDirectory seen.directory path with
    | .ok () => pure true
    | .error e =>
      if !(e = .notEmpty && a.has "ignore-fail-on-non-empty") then
        fault 1 (because ("failed to remove " ++ inShellQuotes path) e)
      pure false
  each (fun path => do
    if ← remove path then
      if a.has "parents" then
        iterate (fun (path : String) => do
          match FileTree.parentPath? path with
          | none | some "" | some "/" => pure (.done ())
          | some above =>
            if ← remove above then pure (.again above) else pure (.done ())) path) a.operands

/-- The prefixes of a path that end with one of its names. -/
def stepsOf (path : String) : List String :=
  let names := Path.names (Path.dropSlashes path)
  ((List.range names.length).map fun n => Text.join "/" (names.take (n + 1))).filter fun p =>
    !p.isEmpty

def mkdir (args : List String) : Job Unit := do
  let known : List Known :=
    [.flag "p" "parents", .value "m" "mode", .flag "v" "verbose", .loose "Z" "context"]
  let a ← arguments 1 known args
  needOperand 1 a
  let mask : Nat ← ask (.mask none)
  let bits ← match a.last? "mode" with
    | none => pure (0o777 &&& (0o777 ^^^ mask))
    | some text =>
      match Rights.parse? text with
      | some changes => pure (Rights.applyAll true mask changes 0o777)
      | none => fail 1 ("invalid mode " ++ quoted text)
  let usual := 0o777 &&& (0o777 ^^^ mask)
  let make (path : String) (bits : Nat) : Job (Except FileError Unit) := do
    let result ← change fun seen => seen.files.makeDirectory seen.directory path bits
    if result.isOk && a.has "verbose" then
      printLine ((← get).title ++ ": created directory " ++ inShellQuotes path)
    pure result
  let refuse (path : String) (e : FileError) : Job Unit :=
    fault 1 (because ("cannot create directory " ++ quoted path) e)
  let isDirectory (path : String) : Job Bool := do
    let seen ← look
    pure (seen.files.hasDirectory seen.directory path)
  each (fun path => do
    if !a.has "parents" then
      match ← make path bits with
      | .ok () => pure ()
      | .error e => refuse path e
    else
      let steps := stepsOf path
      let steps := if steps.isEmpty then [path] else steps
      iterate (fun (steps : List String) => do
        match steps with
        | [] => pure (.done ())
        | step :: rest =>
          if ← isDirectory step then pure (.again rest)
          else
            match ← make step (if rest.isEmpty then bits else usual) with
            | .ok () => pure (.again rest)
            | .error e =>
              let seen ← look
              let isBlocked := e = .alreadyThere && !rest.isEmpty &&
                seen.files.contains seen.directory step
              refuse (if rest.isEmpty then path else step) (if isBlocked then .notDirectory else e)
              pure (.done ())) steps) a.operands

/-- Sets the time of files, and makes those that are missing. -/
def touch (args : List String) : Job Unit := do
  let known : List Known :=
    [.flag "a" "a", .flag "m" "m", .flag "c" "no-create", .value "d" "date", .flag "f" "f",
      .flag "h" "no-dereference", .value "r" "reference", .value "t" "t", .value "" "time"]
  let a ← arguments 1 known args
  let seen ← look
  let now := instantOf seen.files.time
  let start ← match a.last? "reference" with
    | none => pure now
    | some name =>
      match seen.files.find seen.directory name true with
      | .ok i => pure (instantOf (seen.files.node i).modified)
      | .error e => fail 1 (because ("failed to get attributes of " ++ inShellQuotes name) e)
  let time ← match a.last? "t", a.last? "date" with
    | some text, _ =>
      match Calendar.stamp? now text with
      | some t => pure t
      | none => fail 1 ("invalid date format " ++ quoted text)
    | none, some text =>
      match Calendar.instant? .common start text with
      | some t => pure t
      | none => fail 1 ("invalid date format " ++ quoted text)
    | none, none => pure start
  if a.operands.isEmpty then misuse 1 "missing file operand"
  let isSet := ["reference", "t", "date"].any a.has
  let concernsChange := a.has "m" || !a.has "a"
  let mask : Nat ← ask (.mask none)
  each (fun name => do
    let seen ← look
    let cwd := seen.directory
    match seen.files.find cwd name (!a.has "no-dereference") with
    | .ok i =>
      if concernsChange then
        let _ ← change fun seen =>
          let now := seen.files.time
          .ok (seen.files.update i fun n =>
            { n with modified := if isSet then millisecondsOf time else now })
    | .error e =>
      if e = .notFound && a.has "no-create" then pure ()
      else if name.endsWith "/" then
        fault 1 (because ("setting times of " ++ inShellQuotes name) e)
      else
        let bits := 0o666 &&& (0o666 ^^^ mask)
        let result ← change fun seen => do
          let s ← seen.files.spot seen.directory name true
          let (t, i) := seen.files.create s.parent s.name (.file "") bits
          pure (if isSet then t.update i fun n => { n with modified := millisecondsOf time } else t)
        match result with
        | .ok () => pure ()
        | .error e => fault 1 (because ("cannot touch " ++ inShellQuotes name) e)) a.operands

def within (directory name : String) : String := Path.join directory name

/-- The last name of a path, without the slashes behind it. -/
def bareName (path : String) : String :=
  let bare := Path.dropSlashes path
  if bare.isEmpty then "/" else (Path.names bare).getLastD ""

/-- The names of a path that is absolute, with those that are dots taken out. -/
def plainNames (path : String) : List String :=
  (Path.names path).foldl (fun names n =>
    if n = "" || n = "." then names else if n = ".." then names.dropLast else names ++ [n]) []

/-- The way from a directory to a path, both absolute. -/
def relativeTo (directory path : String) : String :=
  let rec go : List String → List String → List String
    | a :: as, b :: bs => if a = b then go as bs else List.replicate (as.length + 1) ".." ++ b :: bs
    | as, bs => List.replicate as.length ".." ++ bs
  let names := go (plainNames directory) (plainNames path)
  if names.isEmpty then "." else Text.join "/" names

/-- How much of a path has to be there. -/
inductive Presence where
  | all
  | directories
  | nothing
  deriving DecidableEq

/-- Follows names from a node to the absolute path behind all links; the names so far are missing
ones below it. -/
def canonicalNames (t : FileTree) (presence : Presence) :
    Nat → Nat → List String → List String → Except FileError (Nat × List String)
  | 0, _, _, _ => .error .tooManyLinks
  | _, here, missing, [] => .ok (here, missing)
  | fuel + 1, here, missing, name :: rest =>
    let isLast := rest.all (·.isEmpty)
    if name = "" || name = "." then canonicalNames t presence fuel here missing rest
    else if name = ".." then
      if missing.isEmpty then canonicalNames t presence fuel (t.parent here) [] rest
      else canonicalNames t presence fuel here missing.dropLast rest
    else if !missing.isEmpty then canonicalNames t presence fuel here (missing ++ [name]) rest
    else if !t.isDirectory here then
      if presence = .nothing then canonicalNames t presence fuel here (missing ++ [name]) rest
      else .error .notDirectory
    else
      match t.entry? here name with
      | none =>
        if presence = .nothing || (presence = .directories && isLast) then
          canonicalNames t presence fuel here [name] rest
        else .error .notFound
      | some i =>
        match t.content i with
        | .link target =>
          canonicalNames t presence fuel (if Path.isAbsolute target then FileTree.root else here) []
            (Path.names target ++ rest)
        | .directory .. => canonicalNames t presence fuel i [] rest
        | _ =>
          if rest.isEmpty || presence = .nothing then
            canonicalNames t presence fuel here [name] rest
          else .error .notDirectory

def canonical (seen : Surroundings) (presence : Presence) (path : String) :
    Except FileError String := do
  if path.isEmpty then throw .notFound
  let t := seen.files
  let start := if Path.isAbsolute path then FileTree.root else seen.directory
  let (node, missing) ← canonicalNames t presence (4096 + path.length) start [] (Path.names path)
  match t.pathOf? node with
  | some directory => pure (missing.foldl within directory)
  | none => throw .notFound

def readlink (args : List String) : Job Unit := do
  let known : List Known :=
    [.flag "f" "canonicalize", .flag "e" "canonicalize-existing", .flag "m" "canonicalize-missing",
      .flag "n" "no-newline", .flag "q" "quiet", .flag "s" "silent", .flag "v" "verbose",
      .flag "z" "zero"]
  let a ← arguments 1 known args
  needOperand 1 a
  let isSeveral := 1 < a.operands.length
  if isSeveral && a.has "no-newline" then warn "ignoring --no-newline with multiple arguments"
  let ending :=
    if a.has "no-newline" && !isSeveral then ""
    else if a.has "zero" then String.singleton (Char.ofNat 0) else "\n"
  each (fun name => do
    let seen ← look
    let result : Except FileError String :=
      match a.lastOf? ["canonicalize", "canonicalize-existing", "canonicalize-missing"] with
      | some "canonicalize" => canonical seen .directories name
      | some "canonicalize-existing" => canonical seen .all name
      | some _ => canonical seen .nothing name
      | none => do
        match seen.files.content (← seen.files.find seen.directory name false) with
        | .link target => pure target
        | _ => throw .invalidArgument
    match result with
    | .ok text => print (text ++ ending)
    | .error e =>
      atLeast 1
      if a.has "verbose" then warn (about name e)) a.operands

def realpath (args : List String) : Job Unit := do
  let known : List Known :=
    [.flag "e" "canonicalize-existing", .flag "m" "canonicalize-missing", .flag "L" "logical",
      .flag "P" "physical", .flag "q" "quiet", .flag "s" "strip", .flag "" "no-symlinks",
      .flag "z" "zero", .value "" "relative-to", .value "" "relative-base"]
  let a ← arguments 1 known args
  needOperand 1 a
  let seen ← look
  let presence : Presence :=
    match a.lastOf? ["canonicalize-existing", "canonicalize-missing"] with
    | some "canonicalize-existing" => .all
    | some _ => .nothing
    | none => .directories
  let here := (seen.files.pathOf? seen.directory).getD "/"
  let resolve (name : String) : Except FileError String :=
    if name.isEmpty then .error .notFound
    else if a.has "strip" || a.has "no-symlinks" then
      .ok ("/" ++ Text.join "/" (plainNames (Path.join here name)))
    else canonical seen presence name
  let base ← match a.last? "relative-to" with
    | none => pure none
    | some name =>
      match resolve name with
      | .ok path => pure (some path)
      | .error e => fail 1 (about name e)
  let ending := if a.has "zero" then String.singleton (Char.ofNat 0) else "\n"
  each (fun name => do
    match resolve name with
    | .ok path =>
      let path := match base with
        | some directory => relativeTo directory path
        | none => path
      print (path ++ ending)
    | .error e =>
      if a.has "quiet" then atLeast 1 else fault 1 (about name e)) a.operands

/-- How links are made. -/
structure LinkStyle where
  symbolic : Bool
  forced : Bool
  relative : Bool
  verbose : Bool
  physical : Bool

def makeLink (s : LinkStyle) (source goal : String) : Job Unit := do
  let seen ← look
  let cwd := seen.directory
  let t := seen.files
  let kind := if s.symbolic then "symbolic" else "hard"
  let target ← if s.symbolic && s.relative then
      let above := (FileTree.parentPath? goal).getD ""
      match canonical seen .nothing (if above.isEmpty then "." else above),
          canonical seen .nothing source with
      | .ok d, .ok p => pure (relativeTo d p)
      | _, _ => pure source
    else pure source
  let sourceNode := t.find? cwd source (!s.physical)
  let goalNode := t.find? cwd goal false
  match if s.symbolic then .ok 0 else t.find cwd source (!s.physical) with
  | .error e => fault 1 (because ("failed to access " ++ inShellQuotes source) e)
  | .ok _ =>
    if !s.symbolic && sourceNode.any t.isDirectory then
      fault 1 (asName source ++ ": hard link not allowed for directory")
    else if s.forced && goalNode.isSome && !s.symbolic && goalNode == sourceNode then
      fault 1 (inShellQuotes source ++ " and " ++ inShellQuotes goal ++ " are the same file")
    else if s.forced && goalNode.any t.isDirectory then
      fault 1 (inShellQuotes goal ++ ": cannot overwrite directory")
    else
      let result ← change fun seen => do
        let t := seen.files
        let t := if s.forced then (t.unlink cwd goal).toOption.getD t else t
        if s.symbolic then
          if target.isEmpty then throw .notFound
          t.make cwd goal (.link target) 0o777
        else t.link cwd source goal (!s.physical)
      match result with
      | .ok () =>
        if s.verbose then
          let arrow := if s.symbolic then " -> " else " => "
          printLine (inShellQuotes goal ++ arrow ++ inShellQuotes target)
      | .error e =>
        let detail :=
          if e = .alreadyThere then ""
          else if s.symbolic then (if target.isEmpty then " -> " ++ inShellQuotes target else "")
          else " => " ++ inShellQuotes source
        fault 1 (because (s!"failed to create {kind} link " ++ inShellQuotes goal ++ detail) e)

def ln (args : List String) : Job Unit := do
  let known : List Known :=
    [.flag "s" "symbolic", .flag "f" "force", .flag "n" "no-dereference", .flag "r" "relative",
      .flag "v" "verbose", .flag "T" "no-target-directory", .value "t" "target-directory",
      .flag "i" "interactive", .flag "L" "logical", .flag "P" "physical", .flag "b" "b",
      .loose "" "backup", .value "S" "suffix", .flag "dF" "directory"]
  let a ← arguments 1 known args
  let style : LinkStyle :=
    ⟨a.has "symbolic", a.has "force", a.has "relative", a.has "verbose", !a.has "logical"⟩
  let seen ← look
  let isDirectory (path : String) : Bool :=
    match seen.files.find? seen.directory path (!a.has "no-dereference") with
    | some i => seen.files.isDirectory i
    | none => false
  let into (directory : String) (sources : List String) : Job Unit :=
    each (fun source => makeLink style source (within directory (bareName source))) sources
  if a.operands.isEmpty then misuse 1 "missing file operand"
  match a.last? "target-directory" with
  | some directory =>
    if isDirectory directory then into directory a.operands
    else
      let e : FileError :=
        if seen.files.contains seen.directory directory then .notDirectory else .notFound
      fail 1 (because ("target " ++ inShellQuotes directory) e)
  | none =>
    match a.operands with
    | [source] =>
      if a.has "no-target-directory" then
        misuse 1 ("missing destination file operand after " ++ inShellQuotes source)
      else into "." [source]
    | [source, goal] =>
      if isDirectory goal && !a.has "no-target-directory" then into goal [source]
      else makeLink style source goal
    | several =>
      if a.has "no-target-directory" then
        misuse 1 ("extra operand " ++ inShellQuotes (several.getD 2 ""))
      let goal := several.getLastD ""
      if isDirectory goal then into goal several.dropLast
      else
        let e : FileError :=
          if seen.files.contains seen.directory goal then .notDirectory else .notFound
        fail 1 (because ("target " ++ inShellQuotes goal) e)

def link (args : List String) : Job Unit := do
  let a ← arguments 1 [] args
  match a.operands with
  | [] => misuse 1 "missing operand"
  | [old] => misuse 1 ("missing operand after " ++ quoted old)
  | [old, new] =>
    match ← change fun seen => seen.files.link seen.directory old new false with
    | .ok () => pure ()
    | .error e =>
      let what := "cannot create link " ++ inShellQuotes new ++ " to " ++ inShellQuotes old
      fault 1 (because what e)
  | _ :: _ :: extra :: _ => misuse 1 ("extra operand " ++ quoted extra)

/-- Takes the name of a file away. -/
def unlink (args : List String) : Job Unit := do
  let a ← arguments 1 [] args
  needOperand 1 a
  allowOperands 1 1 a
  each (fun name => do
    match ← change fun seen => seen.files.unlink seen.directory name with
    | .ok () => pure ()
    | .error e => fault 1 (because ("cannot unlink " ++ inShellQuotes name) e)) a.operands

def mkfifo (args : List String) : Job Unit := do
  let a ← arguments 1 [.value "m" "mode"] args
  needOperand 1 a
  let mask : Nat ← ask (.mask none)
  let bits ← match a.last? "mode" with
    | none => pure (0o666 &&& (0o777 ^^^ mask))
    | some text =>
      match Rights.parse? text with
      | some changes => pure (Rights.applyAll false mask changes 0o666)
      | none => fail 1 ("invalid mode")
  each (fun name => do
    match ← change fun seen => seen.files.make seen.directory name .pipe bits with
    | .ok () => pure ()
    | .error e => fault 1 (because ("cannot create fifo " ++ inShellQuotes name) e)) a.operands

def scramble (seed : Nat) : Nat → List Char
  | 0 => []
  | n + 1 =>
    let letters := "ABCDEFGHIJKLMNOPQRSTUVWXYZabcdefghijklmnopqrstuvwxyz0123456789".toList
    letters.getD (seed % 62) 'a' :: scramble (seed * 69069 / 61 + 12345) n

/-- Makes a file or directory with a name that nothing else has. -/
def mktemp (args : List String) : Job Unit := do
  let known : List Known :=
    [.flag "d" "directory", .flag "u" "dry-run", .flag "q" "quiet", .value "" "suffix",
      .value "p" "p", .loose "" "tmpdir", .flag "t" "t"]
  let a ← arguments 1 known args
  if 1 < a.operands.length then misuse 1 "too many templates"
  let own := a.operands.head?
  let template := own.getD "tmp.XXXXXXXXXX"
  let usual := ((← value? "TMPDIR").filter (!·.isEmpty)).getD "/tmp"
  let place := (a.last? "p").orElse fun _ =>
    (a.last? "tmpdir").map fun d => if d.isEmpty then usual else d
  let directory : Option String :=
    if a.has "t" then some ((place.getD usual)) else if place.isSome then place
    else if own.isNone then some usual else none
  let cs := template.toList.reverse
  let given := a.last? "suffix"
  let tail : List Char := match given with
    | some _ => []
    | none => cs.takeWhile (· != 'X')
  let marks := (cs.drop tail.length).takeWhile (· == 'X')
  let suffix := given.getD (String.ofList tail.reverse)
  if given.isSome && cs.head? != some 'X' then
    fail 1 ("with --suffix, template " ++ quoted template ++ " must end in X")
  if marks.length < 3 then fail 1 ("too few X's in template " ++ quoted template)
  let front := String.ofList (cs.drop (tail.length + marks.length)).reverse
  let inPlace (name : String) : String := match directory with
    | some d => within d name
    | none => name
  let mask : Nat ← ask (.mask none)
  let (number, _) : Nat × Nat ← ask .self
  let result : Except FileError String ← iterate (fun (n : Nat) => do
    let letters := String.ofList (scramble (number * 7919 + n * 104729) marks.length)
    let path := inPlace (front ++ letters ++ suffix)
    let made ← change fun seen =>
      if a.has "dry-run" then
        if seen.files.contains seen.directory path then .error .alreadyThere else .ok seen.files
      else if a.has "directory" then
        seen.files.makeDirectory seen.directory path (0o700 &&& (0o777 ^^^ mask))
      else seen.files.make seen.directory path (.file "") (0o600 &&& (0o777 ^^^ mask))
    match made with
    | .error .alreadyThere => pure (.again (n + 1))
    | .error e => pure (.done (.error e))
    | .ok () => pure (.done (.ok path))) 0
  match result with
  | .ok path => printLine path
  | .error e =>
    let kind := if a.has "directory" then "directory" else "file"
    if a.has "quiet" then exit 1
    else
      fail 1 (because (s!"failed to create {kind} via template " ++
        quoted (inPlace template)) e)

/-- The number of bytes that a text stands for. -/
def byteCount? (text : String) : Option Nat :=
  let digits := text.toList.takeWhile Char.isDigit
  let unit := String.ofList (text.toList.drop digits.length)
  let factor? : Option Nat := match unit with
    | "" | "c" => some 1
    | "w" => some 2
    | "b" => some 512
    | "kB" | "KB" => some 1000
    | "k" | "K" | "KiB" => some 1024
    | "MB" => some 1000000
    | "M" | "m" | "MiB" => some 1048576
    | "GB" => some 1000000000
    | "G" | "g" | "GiB" => some 1073741824
    | _ => none
  match Text.digits? digits, factor? with
  | some n, some f => some (n * f)
  | none, some f => if digits.isEmpty && 1 < f then some f else none
  | _, none => none

/-- The size that a file gets, seen from its old one. -/
def newSize? (text : String) : Option (Nat → Nat) :=
  match text.toList with
  | '+' :: cs => (byteCount? (String.ofList cs)).map fun n old => old + n
  | '-' :: cs => (byteCount? (String.ofList cs)).map fun n old => old - n
  | '<' :: cs => (byteCount? (String.ofList cs)).map fun n old => Nat.min n old
  | '>' :: cs => (byteCount? (String.ofList cs)).map fun n old => Nat.max n old
  | '/' :: cs => (byteCount? (String.ofList cs)).bind fun n =>
    if n = 0 then none else some fun old => old / n * n
  | '%' :: cs => (byteCount? (String.ofList cs)).bind fun n =>
    if n = 0 then none else some fun old => (old + n - 1) / n * n
  | cs => (byteCount? (String.ofList cs)).map fun n _ => n

def truncate (args : List String) : Job Unit := do
  let known : List Known :=
    [.flag "c" "no-create", .value "s" "size", .value "r" "reference", .flag "o" "io-blocks"]
  let a ← arguments 1 known args
  let seen ← look
  let size : Nat → Nat ← match a.last? "size", a.last? "reference" with
    | some text, _ =>
      match newSize? text with
      | some f => pure f
      | none => fail 1 ("Invalid number: " ++ quoted text)
    | none, some name =>
      match seen.files.find seen.directory name true with
      | .ok i => let n := sizeOf seen.files i; pure fun _ => n
      | .error e => fail 1 (because ("cannot stat " ++ inShellQuotes name) e)
    | none, none =>
      misuse 1 ("you must specify either " ++ quoted "--size" ++ " or " ++ quoted "--reference")
  if a.operands.isEmpty then misuse 1 "missing file operand"
  let mask : Nat ← ask (.mask none)
  each (fun name => do
    let result ← change fun seen => do
      let t := seen.files
      let s ← t.spot seen.directory name true
      match s.node? with
      | some i =>
        match t.content i with
        | .file bytes =>
          let n := size bytes.length
          let new := if n ≤ bytes.length then Bytes.take n bytes
            else bytes ++ Bytes.fill (Char.ofNat 0) (n - bytes.length)
          pure (t.put i (.file new))
        | .directory .. => throw .isDirectory
        | _ => throw .invalidArgument
      | none =>
        if a.has "no-create" then pure t
        else
          pure (t.create s.parent s.name (.file (Bytes.fill (Char.ofNat 0) (size 0)))
            (0o666 &&& (0o777 ^^^ mask))).1
    match result with
    | .ok () => pure ()
    | .error e =>
      fault 1 (because ("cannot open " ++ inShellQuotes name ++ " for writing") e)) a.operands

/-- All nodes at a path and below it, with their paths. -/
def below (t : FileTree) : Nat → String → Nat → List (String × Nat)
  | 0, _, _ => []
  | fuel + 1, path, i =>
    (path, i) :: (t.entries i).flatMap fun e => below t fuel (Path.join path e.1) e.2

def chmod (args : List String) : Job Unit := do
  let known : List Known :=
    [.flag "R" "recursive", .flag "v" "verbose", .flag "c" "changes", .flag "f" "silent",
      .flag "" "quiet", .value "" "reference", .flag "" "no-preserve-root",
      .flag "" "preserve-root"]
  let isMode (s : String) : Bool :=
    s.startsWith "-" && 1 < s.length &&
      (s.toList.drop 1).all "rwxXstugoa,=+-01234567".toList.contains
  let (front, rest) := (args.takeWhile (· != "--"), args.dropWhile (· != "--"))
  let isOption (s : String) : Bool := ["-R", "-v", "-c", "-f"].contains s
  let dashed := front.find? fun s => isMode s && !isOption s
  let args := front.filter (fun s => some s != dashed) ++ rest
  let a ← arguments 1 known args
  let mask : Nat ← ask (.mask none)
  let seen ← look
  let (text, names) : String × List String :=
    match a.last? "reference", dashed with
    | some _, _ => ("", a.operands)
    | none, some m => (m, a.operands)
    | none, none => (a.operands.headD "", a.operands.drop 1)
  if a.operands.isEmpty && dashed.isNone then misuse 1 "missing operand"
  if names.isEmpty then misuse 1 ("missing operand after " ++ quoted text)
  let changes ← match a.last? "reference" with
    | some name =>
      match seen.files.find seen.directory name true with
      | .ok i => pure [(⟨Rights.all, .set, .these (seen.files.node i).mode⟩ : Rights.Change)]
      | .error e => fail 1 (because ("failed to get attributes of " ++ inShellQuotes name) e)
    | none =>
      match Rights.parse? text with
      | some cs => pure cs
      | none => misuse 1 ("invalid mode: " ++ quoted text)
  let apply (path : String) (i : Nat) : Job Unit := do
    let t := (← look).files
    let old := (t.node i).mode
    let new := Rights.applyAll (t.isDirectory i) mask changes old
    let _ ← change fun seen => .ok (seen.files.update i fun n => { n with mode := new })
    let shown (m : Nat) : String := Rights.digits m ++ " (" ++ Rights.letters m ++ ")"
    if a.has "verbose" || (a.has "changes" && old != new) then
      let change := if old = new then " retained as " ++ shown new
        else " changed from " ++ shown old ++ " to " ++ shown new
      printLine ("mode of " ++ inShellQuotes path ++ change)
    if dashed.isSome then
      let plain := Rights.applyAll (t.isDirectory i) 0 changes old
      if new &&& (Rights.all ^^^ plain) != 0 then
        fault 1 (asName path ++ ": new permissions are " ++ Rights.letters new ++ ", not " ++
          Rights.letters plain)
  each (fun name => do
    let t := (← look).files
    match t.find seen.directory name true with
    | .error e =>
      if a.has "silent" || a.has "quiet" then atLeast 1
      else if e = .notFound && (t.find? seen.directory name false).isSome then
        fault 1 ("cannot operate on dangling symlink " ++ inShellQuotes name)
      else fault 1 (because ("cannot access " ++ inShellQuotes name) e)
    | .ok i =>
      let nodes := if a.has "recursive" then below t (t.nodes.size + 1) name i else [(name, i)]
      each (fun (path, i) =>
        match t.content i with
        | .link _ => pure ()
        | _ => apply path i) nodes) names

/-- Does nothing to the owners of files, which there is only one of. -/
def chown (args : List String) : Job Unit := do
  let known : List Known :=
    [.flag "R" "recursive", .flag "v" "verbose", .flag "c" "changes", .flag "f" "silent",
      .flag "h" "no-dereference", .value "" "reference"]
  let a ← arguments 1 known args
  needOperand 1 a
  let names := a.operands.drop 1
  if names.isEmpty then misuse 1 ("missing operand after " ++ quoted (a.operands.headD ""))
  let seen ← look
  each (fun name => do
    match seen.files.find seen.directory name true with
    | .ok _ => pure ()
    | .error e => fault 1 (because ("cannot access " ++ inShellQuotes name) e)) names

end PipelineRunner.Utility
