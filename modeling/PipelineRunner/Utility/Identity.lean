import PipelineRunner.Utility.Input

/-!
Utilities that tell who runs them, and on what host.
-/

namespace PipelineRunner.Utility

open Host Text Job

def userName : String := "root"

def needUser (name : String) : Job Unit :=
  if name = userName || name = "0" then pure ()
  else fail 1 (quoted name ++ ": no such user")

/-- Tells the numbers and names of a user. -/
def identity (args : List String) : Job Unit := do
  let known : List Known :=
    [.flag "u" "user", .flag "g" "group", .flag "G" "groups", .flag "n" "name", .flag "r" "real",
      .flag "z" "zero", .flag "a" "a", .flag "Z" "context"]
  let a ← arguments 1 known args
  let kinds := ["user", "group", "groups", "context"].filter a.has
  if 1 < kinds.length then fail 1 "cannot print \"only\" of more than one choice"
  if kinds.isEmpty && (a.has "name" || a.has "real") then
    fail 1 "cannot print only names or real IDs in default format"
  if kinds.isEmpty && a.has "zero" then
    fail 1 "option --zero not permitted in default format"
  if kinds = ["context"] then fail 1 "--context (-Z) works only on an SELinux-enabled kernel"
  each needUser a.operands
  let line := if kinds.isEmpty then s!"uid=0({userName}) gid=0({userName}) groups=0({userName})"
    else if a.has "name" then userName else "0"
  let ending := if a.has "zero" then String.singleton (Char.ofNat 0) else "\n"
  each (fun _ => print (line ++ ending)) (inputs a.operands)

def whoami (args : List String) : Job Unit := do
  let a ← arguments 1 [] args
  allowOperands 1 0 a
  printLine userName

def groups (args : List String) : Job Unit := do
  let a ← arguments 1 [] args
  if a.operands.isEmpty then printLine userName
  else
    each (fun name =>
      if name = userName then printLine s!"{name} : {userName}"
      else fault 1 (quoted name ++ ": no such user")) a.operands

/-- The letters and words of what `uname` tells, with what that is. -/
def hostFacts : List (String × String × String) :=
  [("s", "kernel-name", "Linux"), ("n", "nodename", "localhost"),
    ("r", "kernel-release", "6.1.0"), ("v", "kernel-version", "#1 SMP PREEMPT_DYNAMIC"),
    ("m", "machine", "x86_64"), ("o", "operating-system", "GNU/Linux")]

/-- Tells what kind of host this is. -/
def uname (args : List String) : Job Unit := do
  let known : List Known :=
    [.flag "a" "all", .flag "p" "processor", .flag "i" "hardware-platform"] ++
      hostFacts.map fun (letter, word, _) => .flag letter word
  let a ← arguments 1 known args
  allowOperands 1 0 a
  let wanted (word : String) : Bool :=
    a.has "all" || a.has word || (a.options.isEmpty && word == "kernel-name")
  let facts := (hostFacts.filter fun f => wanted f.2.1).map (·.2.2)
  let more := (["processor", "hardware-platform"].filter a.has).map fun _ => "unknown"
  printLine (Text.join " " (facts ++ more))

def hostname (args : List String) : Job Unit := do
  let known : List Known :=
    [.flag "s" "short", .flag "f" "fqdn", .flag "d" "domain", .flag "i" "ip-address",
      .flag "I" "all-ip-addresses"]
  let a ← arguments 1 known args
  if !a.operands.isEmpty then
    fail 1 "you must be root to change the host name"
  else if a.has "domain" then printLine ""
  else if a.has "ip-address" || a.has "all-ip-addresses" then printLine "127.0.0.1"
  else printLine "localhost"

def nproc (args : List String) : Job Unit := do
  let a ← arguments 1 [.flag "" "all", .value "" "ignore"] args
  allowOperands 1 0 a
  printLine "4"

/-- Tells the machine that the host is. -/
def arch (args : List String) : Job Unit := do
  let a ← arguments 1 [] args
  allowOperands 1 0 a
  printLine "x86_64"

/-- Tells which terminal the input is; it is none. -/
def tty (args : List String) : Job Unit := do
  let a ← arguments 2 [.flag "s" "silent", .flag "" "quiet"] args
  allowOperands 2 0 a
  if !(a.has "silent" || a.has "quiet") then printLine "not a tty"
  exit 1

end PipelineRunner.Utility
