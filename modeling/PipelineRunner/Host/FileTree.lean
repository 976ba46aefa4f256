import PipelineRunner.Text.Basic
import PipelineRunner.Text.Bytes

/-!
The files of a host as a value: a list of nodes, which directories name. A path is walked name by
name from a node; on its way it goes up for two dots and goes on where links lead. What the host
refuses, it refuses with an error that has a wording and a number.
-/

namespace PipelineRunner.Host

/-! ### Errors -/

/-- Why the host refuses to do something. -/
inductive FileError where
  | notPermitted
  | notFound
  | noSuchProcess
  | interrupted
  | noSuchDevice
  | argumentsTooLong
  | execFormat
  | badDescriptor
  | noChildren
  | permissionDenied
  | busy
  | alreadyThere
  | notDirectory
  | isDirectory
  | invalidArgument
  | noSpace
  | illegalSeek
  | brokenPipe
  | nameTooLong
  | notEmpty
  | tooManyLinks
  deriving DecidableEq, Repr, Inhabited

namespace FileError

def reason : FileError → String
  | notPermitted => "Operation not permitted"
  | notFound => "No such file or directory"
  | noSuchProcess => "No such process"
  | interrupted => "Interrupted system call"
  | noSuchDevice => "No such device or address"
  | argumentsTooLong => "Argument list too long"
  | execFormat => "Exec format error"
  | badDescriptor => "Bad file descriptor"
  | noChildren => "No child processes"
  | permissionDenied => "Permission denied"
  | busy => "Device or resource busy"
  | alreadyThere => "File exists"
  | notDirectory => "Not a directory"
  | isDirectory => "Is a directory"
  | invalidArgument => "Invalid argument"
  | noSpace => "No space left on device"
  | illegalSeek => "Illegal seek"
  | brokenPipe => "Broken pipe"
  | nameTooLong => "File name too long"
  | notEmpty => "Directory not empty"
  | tooManyLinks => "Too many levels of symbolic links"

def number : FileError → Nat
  | notPermitted => 1
  | notFound => 2
  | noSuchProcess => 3
  | interrupted => 4
  | noSuchDevice => 6
  | argumentsTooLong => 7
  | execFormat => 8
  | badDescriptor => 9
  | noChildren => 10
  | permissionDenied => 13
  | busy => 16
  | alreadyThere => 17
  | notDirectory => 20
  | isDirectory => 21
  | invalidArgument => 22
  | noSpace => 28
  | illegalSeek => 29
  | brokenPipe => 32
  | nameTooLong => 36
  | notEmpty => 39
  | tooManyLinks => 40

def message (e : FileError) : String := s!"{e.reason} (os error {e.number})"

end FileError

/-! ### Paths -/

namespace Path

/-- The names between the slashes of a text. -/
def names (path : String) : List String := (Text.splitAt '/' path.toList).map String.ofList

def isAbsolute (path : String) : Bool := path.startsWith "/"

/-- Appends a path to the text of a directory; one that begins with a slash stands for itself. -/
def join (directory path : String) : String :=
  if isAbsolute path then path
  else if directory = "" || directory.endsWith "/" then directory ++ path
  else directory ++ "/" ++ path

/-- The text without the slashes at its end. -/
def dropSlashes (path : String) : String :=
  String.ofList (path.toList.reverse.dropWhile (· == '/')).reverse

end Path

/-! ### Files -/

/-- Files that hold nothing. -/
inductive Device where
  /-- Takes everything, and is at its end at once. -/
  | null
  /-- Gives zeros without end. -/
  | zero
  /-- Gives bytes without any order and without end. -/
  | noise
  /-- Gives zeros, and takes nothing. -/
  | full
  /-- The terminal of whoever opens it; nobody has one. -/
  | terminal
  /-- What a descriptor of whoever opens it leads to. -/
  | descriptor (number : Nat)
  deriving DecidableEq, Repr

/-- What a node holds. -/
inductive Content where
  | directory (parent : Nat) (entries : List (String × Nat))
  | file (bytes : String)
  | link (target : String)
  | device (kind : Device)
  /-- A pipe that has a name. -/
  | pipe
  /-- A program that the host brings with it. -/
  | program (name : String)
  deriving DecidableEq, Repr

/-- A node of the tree. -/
structure Node where
  content : Content
  /-- The bits that say who may do what with it. -/
  mode : Nat
  /-- When its content was changed for the last time, in milliseconds. -/
  modified : Int
  deriving DecidableEq, Repr

instance : Inhabited Node := ⟨⟨.file "", 0, 0⟩⟩

/-- The nodes of a host. The first one is the root directory. -/
structure FileTree where
  nodes : Array Node
  /-- The milliseconds that have passed. -/
  now : Nat := 0
  deriving Repr

/-- Where a path leads. -/
structure Spot where
  /-- The directory that the last name is looked for in. -/
  parent : Nat
  name : String
  node? : Option Nat
  deriving DecidableEq, Repr

namespace FileTree

/-- The time at the beginning, in milliseconds since 1970. -/
def beginning : Int := 1750000000000

def time (t : FileTree) : Int := beginning + t.now

def root : Nat := 0

def node (t : FileTree) (i : Nat) : Node := t.nodes.getD i default

def content (t : FileTree) (i : Nat) : Content := (t.node i).content

def isDirectory (t : FileTree) (i : Nat) : Bool :=
  match t.content i with
  | .directory .. => true
  | _ => false

def entries (t : FileTree) (i : Nat) : List (String × Nat) :=
  match t.content i with
  | .directory _ entries => entries
  | _ => []

def parent (t : FileTree) (i : Nat) : Nat :=
  match t.content i with
  | .directory parent _ => parent
  | _ => root

/-- What a name in a directory stands for. -/
def entry? (t : FileTree) (i : Nat) (name : String) : Option Nat := List.lookup name (t.entries i)

def list (t : FileTree) (i : Nat) : List String :=
  ((t.entries i).map (·.1)).mergeSort fun a b => a ≤ b

def update (t : FileTree) (i : Nat) (f : Node → Node) : FileTree :=
  { t with nodes := t.nodes.setIfInBounds i (f (t.node i)) }

def put (t : FileTree) (i : Nat) (content : Content) : FileTree :=
  t.update i fun n => { n with content, modified := t.time }

def putEntries (t : FileTree) (i : Nat) (f : List (String × Nat) → List (String × Nat)) :
    FileTree :=
  match t.content i with
  | .directory parent entries => t.put i (.directory parent (f entries))
  | _ => t

def enter (t : FileTree) (directory : Nat) (name : String) (i : Nat) : FileTree :=
  t.putEntries directory fun es => es.filter (fun e => e.1 != name) ++ [(name, i)]

def leave (t : FileTree) (directory : Nat) (name : String) : FileTree :=
  t.putEntries directory fun es => es.filter fun e => e.1 != name

def create (t : FileTree) (directory : Nat) (name : String) (content : Content) (mode : Nat) :
    FileTree × Nat :=
  let i := t.nodes.size
  let t := { t with nodes := t.nodes.push ⟨content, mode, t.time⟩ }
  (t.enter directory name i, i)

def longestName : Nat := 255

def longestPath : Nat := 4095

/-- The number of links that one path may lead over. -/
def mostLinks : Nat := 40

/-- Follows names from a node. What a link stands for goes on from a node as `again` says. The last
link is only followed where that is asked for, or where a slash stands behind it. -/
def walkNames (t : FileTree) (follow : Bool)
    (again : Nat → List String → Except FileError Spot) (here : Nat) :
    List String → Except FileError Spot
  | [] => .ok ⟨here, ".", some here⟩
  | name :: rest =>
    let isLast := rest.all (·.isEmpty)
    if !t.isDirectory here then .error .notDirectory
    else if name = "" || name = "." then
      if isLast then .ok ⟨here, ".", some here⟩ else t.walkNames follow again here rest
    else if name = ".." then
      let above := t.parent here
      if isLast then .ok ⟨here, "..", some above⟩ else t.walkNames follow again above rest
    else if longestName < name.length then .error .nameTooLong
    else
      match t.entry? here name with
      | none => if isLast then .ok ⟨here, name, none⟩ else .error .notFound
      | some i =>
        match t.content i with
        | .link target =>
          if rest.isEmpty && !follow then .ok ⟨here, name, some i⟩
          else again (if Path.isAbsolute target then root else here) (Path.names target ++ rest)
        | .directory .. =>
          if isLast then .ok ⟨here, name, some i⟩ else t.walkNames follow again i rest
        | _ => if rest.isEmpty then .ok ⟨here, name, some i⟩ else .error .notDirectory

/-- Follows names from a node over so many links at most. -/
def walk (t : FileTree) (follow : Bool) : Nat → Nat → List String → Except FileError Spot
  | 0 => fun _ _ => .error .tooManyLinks
  | links + 1 => t.walkNames follow (t.walk follow links)

/-- Where a path leads for somebody in a directory. -/
def spot (t : FileTree) (cwd : Nat) (path : String) (follow : Bool) : Except FileError Spot :=
  if path.isEmpty then .error .notFound
  else if longestPath < path.length then .error .nameTooLong
  else t.walk follow (mostLinks + 1) (if Path.isAbsolute path then root else cwd) (Path.names path)

def find (t : FileTree) (cwd : Nat) (path : String) (follow : Bool) : Except FileError Nat := do
  match (← t.spot cwd path follow).node? with
  | some i => pure i
  | none => throw .notFound

def find? (t : FileTree) (cwd : Nat) (path : String) (follow : Bool) : Option Nat :=
  (t.find cwd path follow).toOption

/-- Whether a path leads to a node. -/
def contains (t : FileTree) (cwd : Nat) (path : String) : Bool := (t.find? cwd path true).isSome

/-- The names on the way from the root to a directory, backwards. -/
def namesTo (t : FileTree) : Nat → Nat → Option (List String)
  | 0, _ => none
  | fuel + 1, i =>
    if i = root then some []
    else
      let above := t.parent i
      match (t.entries above).find? fun e => e.2 == i with
      | some (name, _) => (t.namesTo fuel above).map (name :: ·)
      | none => none

/-- The path of a directory, unless it has been removed. -/
def pathOf? (t : FileTree) (i : Nat) : Option String :=
  (t.namesTo (t.nodes.size + 1) i).map fun names => "/" ++ Text.join "/" names.reverse

/-- The node that a path of a directory leads to. -/
def findDirectory (t : FileTree) (cwd : Nat) (path : String) : Except FileError Nat := do
  let i ← t.find cwd path true
  if t.isDirectory i then pure i else throw .notDirectory

def hasDirectory (t : FileTree) (cwd : Nat) (path : String) : Bool :=
  (t.findDirectory cwd path).toOption.isSome

def makeDirectory (t : FileTree) (cwd : Nat) (path : String) (mode : Nat) :
    Except FileError FileTree := do
  let s ← t.spot cwd path false
  if s.node?.isSome then throw .alreadyThere
  pure (t.create s.parent s.name (.directory s.parent []) mode).1

/-- The path in front of the last name of a path: names that are a single dot do not count, but at
its head. -/
def parentPath? (path : String) : Option String :=
  let names := Path.names path
  let kept := (names.drop 1).filter fun n => n != "" && n != "."
  match kept.reverse with
  | _ :: above =>
    let names := names.headD "" :: above.reverse
    some (if names = [""] then "/" else Text.join "/" names)
  | [] => if Path.isAbsolute path || path = "" then none else some ""

/-- Makes a directory and those that are missing on the way to it. One that is there is left as it
is. The fuel is as much as the path is long. -/
def makeDirectoriesWithin (t : FileTree) (cwd : Nat) : Nat → String → Except FileError FileTree
  | 0, _ => .error .notFound
  | fuel + 1, path =>
    if path.isEmpty then .ok t
    else
      match t.makeDirectory cwd path 0o755 with
      | .ok t => .ok t
      | .error .notFound => do
        let t ← match parentPath? path with
          | some above => t.makeDirectoriesWithin cwd fuel above
          | none => throw .notFound
        match t.makeDirectory cwd path 0o755 with
        | .ok t => pure t
        | .error e => if t.hasDirectory cwd path then pure t else throw e
      | .error e => if t.hasDirectory cwd path then .ok t else .error e

/-- Makes a directory and those that are missing on the way to it. -/
def makeDirectories (t : FileTree) (cwd : Nat) (path : String) : Except FileError FileTree :=
  t.makeDirectoriesWithin cwd (path.length + 1) path

def removeDirectory (t : FileTree) (cwd : Nat) (path : String) : Except FileError FileTree := do
  let s ← t.spot cwd path false
  match s.node? with
  | none => throw .notFound
  | some i =>
    if i = root then throw .busy
    if !t.isDirectory i then throw .notDirectory
    if s.name = "." then throw .invalidArgument
    if s.name = ".." || !(t.entries i).isEmpty then throw .notEmpty
    pure (t.leave s.parent s.name)

def unlink (t : FileTree) (cwd : Nat) (path : String) : Except FileError FileTree := do
  let s ← t.spot cwd path false
  match s.node? with
  | none => throw .notFound
  | some i =>
    if t.isDirectory i then throw .isDirectory
    if path.endsWith "/" then throw .notDirectory
    pure (t.leave s.parent s.name)

/-- Whether a directory is another one or lies below it. -/
def isBelow (t : FileTree) (above : Nat) : Nat → Nat → Bool
  | 0, _ => false
  | fuel + 1, i => i == above || (i != root && t.isBelow above fuel (t.parent i))

def rename (t : FileTree) (cwd : Nat) (old new : String) : Except FileError FileTree := do
  let a ← t.spot cwd old false
  let b ← t.spot cwd new false
  match a.node? with
  | none => throw .notFound
  | some i =>
    if [".", ".."].contains a.name || [".", ".."].contains b.name then throw .busy
    let isMoved := t.isDirectory i
    if isMoved && t.isBelow i (t.nodes.size + 1) b.parent then throw .invalidArgument
    if !isMoved && (old.endsWith "/" || new.endsWith "/") then throw .notDirectory
    let moved (t : FileTree) : FileTree :=
      let t := (t.leave a.parent a.name).enter b.parent b.name i
      match t.content i with
      | .directory _ entries =>
      t.update i fun n => { n with content := .directory b.parent entries }
      | _ => t
    match b.node? with
    | none => pure (moved t)
    | some j =>
      if i = j then pure t
      else if isMoved && !t.isDirectory j then throw .notDirectory
      else if !isMoved && t.isDirectory j then throw .isDirectory
      else if !(t.entries j).isEmpty then throw .notEmpty
      else pure (moved t)

/-- Gives something one more name. -/
def link (t : FileTree) (cwd : Nat) (old new : String) (follow : Bool) :
    Except FileError FileTree := do
  let i ← t.find cwd old follow
  let s ← t.spot cwd new false
  if s.node?.isSome then throw .alreadyThere
  if t.isDirectory i then throw .notPermitted
  pure (t.enter s.parent s.name i)

/-- Makes a node that is no directory. -/
def make (t : FileTree) (cwd : Nat) (path : String) (content : Content) (mode : Nat) :
    Except FileError FileTree := do
  let s ← t.spot cwd path false
  if s.node?.isSome then throw .alreadyThere
  if path.endsWith "/" then throw .notFound
  pure (t.create s.parent s.name content mode).1

def bytesAt (t : FileTree) (cwd : Nat) (path : String) : Except FileError String := do
  match t.content (← t.find cwd path true) with
  | .file bytes => pure bytes
  | .directory .. => throw .isDirectory
  | .program name => pure ("\x7fELF" ++ name)
  | _ => pure ""

/-- Puts a file in place of whatever is at a path, with the directories on the way to it. -/
def putFile (t : FileTree) (cwd : Nat) (path bytes : String) (mode : Nat) : FileTree :=
  let t := match parentPath? path with
    | some above => (t.makeDirectories cwd above).toOption.getD t
    | none => t
  match t.spot cwd path true with
  | .ok ⟨_, _, some i⟩ => (t.put i (.file bytes)).update i fun n => { n with mode }
  | .ok ⟨directory, name, none⟩ => (t.create directory name (.file bytes) mode).1
  | .error _ => t

def nameCount (t : FileTree) (i : Nat) : Nat :=
  t.nodes.foldl (fun n node =>
    match node.content with
    | .directory _ entries => n + (entries.filter fun e => e.2 == i).length
    | _ => n) 0

def empty : FileTree := { nodes := #[⟨.directory root [], 0o755, beginning⟩] }

/-- Adds something at a path. -/
def adding (t : FileTree) (path : String) (content : Content) (mode : Nat) : FileTree :=
  (t.make root path content mode).toOption.getD t

/-- Where programs stand that a host brings with it. -/
def programs : String := "/usr/bin"

/-- A host with the directories that every host has, and with some programs. -/
def bare (names : List String) : FileTree :=
  let directories := ["/dev", "/dev/fd", "/etc", "/proc", "/root", "/tmp", programs, "/var/tmp"]
  let t := directories.foldl (fun t d => (t.makeDirectories root d).toOption.getD t) empty
  let devices : List (String × Device) :=
    [("null", .null), ("zero", .zero), ("full", .full), ("random", .noise), ("urandom", .noise),
      ("tty", .terminal), ("stdin", .descriptor 0), ("stdout", .descriptor 1),
      ("stderr", .descriptor 2)] ++
    (List.range 64).map fun n => ("fd/" ++ toString n, .descriptor n)
  let t := devices.foldl (fun t (name, d) => t.adding ("/dev/" ++ name) (.device d) 0o666) t
  let t := names.foldl (fun t name => t.adding (Path.join programs name) (.program name) 0o755) t
  t.adding "/bin" (.link "usr/bin") 0o777

end FileTree
end PipelineRunner.Host
